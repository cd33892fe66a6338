import SmtSession.Proofs.ReportLayout

/-!
# Where the Scan Finds Its Values

What can be said about the values in a reply when nothing is known about the
reply. A solver that was stopped, or one that complains in the middle of its
model, writes replies that no grammar describes. The scan searches for three
characters in turn, and each of the searches may run into the end of the text.
Still it never goes back: behind each opening parenthesis it moves on to a
value, and then on to the end of the value.

So the values stand in the reply one behind the other, with at least a
parenthesis in between, and this is shown for a text that goes on from any
position. What is in front of that position does not matter, the first line
in particular.

## Main definitions

* `Span`: A stretch of a text, by its positions.

## Theorems

* `afterFirst_suffix`: Searching moves forward.
* `exists_spans_scanPairs`: Where the values are from a position on.
* `not_close_mem_of_scanPairs`: Values end in front of a closing parenthesis.
* `scanPairs_eq_nil_iff`: When there are no values.
* `reportedValues_in_order`: The values of any reply whatsoever.
-/

namespace SmtSession

/-- A stretch of a text, from a position up to another one. -/
structure Span where
  start : Nat
  stop : Nat
deriving Repr, DecidableEq

/-- The characters of a text in a stretch of it. -/
def Span.chars (s : Span) (text : List Char) : List Char :=
  text.extract s.start s.stop

theorem Span.chars_append (front inner rest : List Char) :
    Span.chars ⟨front.length, front.length + inner.length⟩ (front ++ (inner ++ rest)) = inner := by
  simp [chars]

/-! ## Moving Forward -/

/-- Searching moves forward. -/
theorem afterFirst_suffix (mark : Char) (cs : List Char) : afterFirst mark cs <:+ cs :=
  (List.tail_suffix _).trans (List.dropWhile_suffix _)

/-- Something is passed before a value, its opening parenthesis at least. -/
theorem exists_passed {cs body : List Char} {mark : Char}
    (h : cs.dropWhile (· ≠ '(') = mark :: body) :
    ∃ passed, cs = passed ++ (scanValue body ++ scanRest body) ∧ 0 < passed.length := by
  rcases afterFirst_suffix ' ' body with ⟨skipped, hskipped⟩
  have hvalue : scanValue body ++ scanRest body = afterFirst ' ' body :=
    List.takeWhile_append_dropWhile
  refine ⟨cs.takeWhile (· ≠ '(') ++ mark :: skipped, ?_, by simp⟩
  rw [hvalue, List.append_assoc, List.cons_append, hskipped, ← h, List.takeWhile_append_dropWhile]

/-- From any position of a text on, the values are found one behind the other. -/
theorem exists_spans_scanPairs (text front cs : List Char) (htext : text = front ++ cs) :
    ∃ spans : List Span, scanPairs cs = spans.map (·.chars text) ∧
      (∀ s ∈ spans, front.length < s.start ∧ s.start ≤ s.stop ∧ s.stop ≤ text.length) ∧
      spans.Pairwise fun s t => s.stop < t.start := by
  fun_induction scanPairs cs generalizing front with
  | case1 cs hnone => exact ⟨[], rfl, by simp, .nil⟩
  | case2 cs mark body hopen ih =>
      rcases exists_passed hopen with ⟨passed, hcs, hpassed⟩
      have hsplit : text = (front ++ passed) ++ (scanValue body ++ scanRest body) := by
        rw [htext, hcs, List.append_assoc]
      have hlength := congrArg List.length hsplit
      simp only [List.length_append] at hlength
      -- The scan goes on behind the value, so all other values start behind it.
      rcases ih (front ++ passed ++ scanValue body)
        (hsplit.trans (List.append_assoc _ _ _).symm) with
        ⟨spans, hspans, hbounds, hapart⟩
      simp only [List.length_append] at hbounds
      let first : Span :=
        ⟨(front ++ passed).length, (front ++ passed).length + (scanValue body).length⟩
      have hfirst : first.chars text = scanValue body := by
        rw [hsplit]
        exact Span.chars_append _ _ _
      refine ⟨first :: spans, ?_, ?_, List.pairwise_cons.mpr ⟨fun t ht => ?_, hapart⟩⟩
      · rw [List.map_cons, hfirst, hspans]
      · rw [List.forall_mem_cons]
        refine ⟨?_, fun s hs => ?_⟩
        · simp only [first, List.length_append]
          omega
        · have hs := hbounds s hs
          omega
      · have ht := (hbounds t ht).1
        simpa only [first, List.length_append] using ht

/-- Values end in front of a closing parenthesis. -/
theorem not_close_mem_of_scanPairs (cs : List Char) : ∀ value ∈ scanPairs cs, ')' ∉ value := by
  fun_induction scanPairs cs with
  | case1 cs hnone => simp
  | case2 cs mark body hopen ih =>
      rw [List.forall_mem_cons]
      refine ⟨fun hclose => ?_, ih⟩
      simpa using List.mem_takeWhile_imp hclose

/-- There are no values just when nothing is opened. -/
theorem scanPairs_eq_nil_iff (cs : List Char) : scanPairs cs = [] ↔ '(' ∉ cs := by
  refine ⟨fun h hopen => ?_, scanPairs_of_not_mem cs⟩
  rcases List.eq_append_cons_of_mem hopen with ⟨front, body, rfl, hfront⟩
  rw [scanPairs_append_open front body hfront] at h
  cases h

theorem afterFirst_eq_nil_of_not_mem (mark : Char) (cs : List Char) (h : mark ∉ cs) :
    afterFirst mark cs = [] := by
  have hnone := dropWhile_append_of_not_mem mark cs [] h
  rw [List.append_nil] at hnone
  rw [afterFirst, hnone]
  rfl

theorem afterFirst_line (first rest : String) (h : '\n' ∉ first.toList) :
    afterFirst '\n' (first ++ "\n" ++ rest).toList = rest.toList := by
  have htext : (first ++ "\n" ++ rest).toList = first.toList ++ '\n' :: rest.toList := by simp
  rw [htext, afterFirst_append_cons _ _ _ h]

/-! ## Replies -/

/-- The values are found behind the first line feed, one behind the other. -/
theorem exists_spans_reportedValues (reply : String) :
    ∃ spans : List Span,
      reportedValues reply = spans.map (fun s => String.ofList (s.chars reply.toList)) ∧
      (∀ s ∈ spans, reply.toList.idxOf '\n' < s.start ∧ s.start ≤ s.stop ∧
        s.stop ≤ reply.toList.length) ∧
      spans.Pairwise fun s t => s.stop < t.start := by
  by_cases hline : '\n' ∈ reply.toList
  · rcases List.eq_append_cons_of_mem hline with ⟨first, rest, hreply, hfirst⟩
    have hafter : afterFirst '\n' reply.toList = rest := by
      rw [hreply, afterFirst_append_cons _ _ _ hfirst]
    have hindex : reply.toList.idxOf '\n' = first.length := by
      rw [hreply, List.idxOf_append_of_notMem hfirst, List.idxOf_cons_self, Nat.add_zero]
    rcases exists_spans_scanPairs reply.toList (first ++ ['\n']) rest (by simp [hreply]) with
      ⟨spans, hspans, hbounds, hapart⟩
    refine ⟨spans, ?_, fun s hs => ?_, hapart⟩
    · rw [reportedValues, hafter, hspans, List.map_map]
      rfl
    · have hs := hbounds s hs
      rw [List.length_append, List.length_singleton] at hs
      omega
  · refine ⟨[], ?_, by simp, .nil⟩
    rw [reportedValues, afterFirst_eq_nil_of_not_mem _ _ hline, scanPairs_of_not_mem [] (by simp)]
    rfl

/-- The values of any reply are stretches of its text, all of them behind the first
    line feed and each behind the one before. None of them has a closing
    parenthesis in it, and there are no more of them than opening parentheses
    behind the first line, where at least one gives at least one. What the
    first line says makes no difference. -/
theorem reportedValues_in_order (reply : String) :
    (∃ spans : List Span,
      reportedValues reply = spans.map (fun s => String.ofList (s.chars reply.toList)) ∧
      (∀ s ∈ spans, reply.toList.idxOf '\n' < s.start ∧ s.start ≤ s.stop ∧
        s.stop ≤ reply.toList.length) ∧
      spans.Pairwise fun s t => s.stop < t.start) ∧
    (∀ value ∈ reportedValues reply, ')' ∉ value.toList) ∧
    (reportedValues reply).length ≤ (afterFirst '\n' reply.toList).count '(' ∧
    (reportedValues reply = [] ↔
      '\n' ∉ reply.toList ∨ '(' ∉ afterFirst '\n' reply.toList) ∧
    ∀ first first' rest : String, '\n' ∉ first.toList → '\n' ∉ first'.toList →
      reply = first ++ "\n" ++ rest →
        reportedValues (first' ++ "\n" ++ rest) = reportedValues reply := by
  refine ⟨exists_spans_reportedValues reply, fun value hvalue => ?_, ?_, ?_, ?_⟩
  · rcases List.mem_map.mp hvalue with ⟨cs, hcs, rfl⟩
    rw [String.toList_ofList]
    exact not_close_mem_of_scanPairs _ cs hcs
  · rw [reportedValues, List.length_map]
    exact length_scanPairs_le _
  · rw [reportedValues, List.map_eq_nil_iff, scanPairs_eq_nil_iff]
    refine ⟨.inr, fun h => h.elim (fun hline => ?_) id⟩
    rw [afterFirst_eq_nil_of_not_mem _ _ hline]
    exact List.not_mem_nil
  · rintro first first' rest hfirst hfirst' rfl
    rw [reportedValues, reportedValues, afterFirst_line _ _ hfirst, afterFirst_line _ _ hfirst']

/-- A reply that breaks off in the middle of a pair, after a value that is cut short:
    the last pair has a value as well, which is empty. -/
theorem reportedValues_in_order_truncated :
    let reply := "sat\n((x 1)\n(y (- 2)) ((z"
    reportedValues reply = ["1", "(- 2", ""] ∧
      (∃ spans : List Span,
        reportedValues reply = spans.map (fun s => String.ofList (s.chars reply.toList)) ∧
        spans.Pairwise fun s t => s.stop < t.start) ∧
      reportedValues "\n((x 1)\n(y (- 2)) ((z" = ["1", "(- 2", ""] := by
  intro reply
  have hvalues : reportedValues reply = ["1", "(- 2", ""] := by decide +kernel
  rcases reportedValues_in_order reply with ⟨⟨spans, hspans, -, hapart⟩, -, -, -, hline⟩
  refine ⟨hvalues, ⟨spans, hspans, hapart⟩, ?_⟩
  exact (hline "sat" "" "((x 1)\n(y (- 2)) ((z" (by decide) (by decide) rfl).trans hvalues

end SmtSession
