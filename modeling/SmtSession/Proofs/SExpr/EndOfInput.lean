import SmtSession.Proofs.SExpr.Calls

/-!
# The End of the Input

What a reader does once its source has answered with the end. The end is the
last answer of the call that meets it, and the reader of this call remembers
it. From then on the reader answers without a request: the input is at its
end, and what comes next is the empty atom. So whatever a source has behind its
end, be it more characters, failures or another end, the reader never learns.

This is a law about one reader. Another reader on the same source has not met
the end, and it asks for itself.

A text has one end, behind its characters. So when all of a text is read, the
requests are its characters and the end, one for each, and reading stops before
that only where the parentheses do not match.

## Main definitions

* `Reader.everyTree`: All trees of a source, by a reader of its own.

## Theorems

* `Desk.finished_afterAll`: A reader that met the end stays there.
* `Desk.Asks.finished`: The end is the last answer of a call.
* `Reader.reads_everyTree`: The number of requests to a text.
* `Desk.end_is_final`: The end is final for the reader that met it.
* `Desk.end_asked_again`: It is not for other readers.
-/

namespace SmtSession

namespace Desk

/-! ## Readers that Met the End -/

theorem eq_finished {place : Place} (hplace : ∀ source, (place.on source).Settled)
    (h : place.exhausted = true) : place = .finished := by
  have hcurrent : place.current = none := (hplace (.ofEvents [])).mp h
  cases place
  cases h
  cases hcurrent
  rfl

theorem perform_in_place {d : Desk} (call : Call) {place : Place} {answer : Answer}
    (h : d.place? call = some place) (hcall : call ≠ .start)
    (hop : call.operation (place.on d.source) = .ok answer (place.on d.source)) :
    d.perform call = (.ok answer, d) := by
  rw [perform_of_some h, hop, Prod.mk.injEq, Desk.mk.injEq]
  refine ⟨rfl, rfl, ?_⟩
  cases call with
  | start => exact absurd rfl hcall
  | tree i => exact set_of_getElem? h
  | atEnd i => exact set_of_getElem? h

/-- A reader that met the end answers with the empty atom and stays where it is. -/
theorem perform_tree_of_finished {d : Desk} {i : Nat} (h : d.places[i]? = some .finished) :
    d.perform (.tree i) = (.ok (.tree (.atom "")), d) := by
  refine perform_in_place (.tree i) h (by rintro ⟨⟩) ?_
  rw [Call.operation, Reader.readTree, Reader.readInto_none rfl]
  rfl

theorem perform_atEnd_of_finished {d : Desk} {i : Nat} (h : d.places[i]? = some .finished) :
    d.perform (.atEnd i) = (.ok (.atEnd true), d) := by
  refine perform_in_place (.atEnd i) h (by rintro ⟨⟩) ?_
  rw [Call.operation, Reader.atEnd, Reader.skipBlanks_of_stop (by rintro c ⟨⟩)]
  rfl

/-- What the others do makes no difference to a reader that met the end. -/
theorem finished_perform {d : Desk} {i : Nat} (h : d.places[i]? = some .finished) (call : Call) :
    (d.perform call).2.places[i]? = some .finished := by
  cases hplace : d.place? call with
  | none =>
      rw [perform_of_none hplace]
      exact h
  | some place =>
      have hi := (List.getElem?_eq_some_iff.mp h).1
      -- A call for this very reader leaves it where it is, and others do not touch it.
      cases call with
      | start =>
          rw [perform_of_some hplace]
          cases Call.operation .start (place.on d.source) with
          | ok answer r => exact (List.getElem?_append_left hi).trans h
          | error fault r => exact h
      | tree j =>
          by_cases hj : j = i
          · rw [hj, perform_tree_of_finished h]
            exact h
          · rw [perform_of_some hplace]
            exact (List.getElem?_set_ne hj).trans h
      | atEnd j =>
          by_cases hj : j = i
          · rw [hj, perform_atEnd_of_finished h]
            exact h
          · rw [perform_of_some hplace]
            exact (List.getElem?_set_ne hj).trans h

theorem finished_afterAll (calls : List Call) {d : Desk} {i : Nat}
    (h : d.places[i]? = some .finished) : (afterAll calls d).places[i]? = some .finished := by
  induction calls generalizing d with
  | nil => exact h
  | cons call calls ih => exact ih (finished_perform h call)

/-- When the end is met during a call, it is met by the last request of it, and
    its reader met the end. -/
theorem Asks.finished {d : Desk} {call : Call} {n i : Nat} (h : d.Asks call n)
    (hfinish : (d.source.answered n)[i]? = some .finish) :
    n = i + 1 ∧ (d.perform call).2.places[d.number call]? = some .finished := by
  have hends := h.ends
  have hn := Source.length_answered n d.source
  generalize d.source.answered n = es at hends hn hfinish
  cases hends with
  | going cs =>
      rw [List.getElem?_map] at hfinish
      cases hc : cs[i]? <;> simp [hc] at hfinish
  | met cs hplace =>
      rcases Source.last_of_getElem? hfinish (by rintro c ⟨⟩) with ⟨rfl, -⟩
      refine ⟨?_, hplace⟩
      rw [← hn]
      simp
  | failed cs cause =>
      cases (Source.last_of_getElem? hfinish (by rintro c ⟨⟩)).2

end Desk

/-! ## All of a Text -/

namespace Reader

/-- All trees of a source, by a reader of its own. -/
def everyTree (source : Source) : Result (List SExpr) :=
  (start source).andThen fun _ => readAll

theorem answer_everyTree (text : String) :
    (everyTree (.ofText text)).answer = SExpr.parseAll text := by
  rw [SExpr.parseAll, everyTree]
  cases start (.ofText text) with
  | error fault r => rfl
  | ok _ r =>
      simp only [Result.andThen]
      cases r.readAll <;> rfl

/-- All trees are read when nothing is left. -/
theorem current_of_readAll {r r' : Reader} {trees : List SExpr} (h : r.readAll = .ok trees r') :
    r'.current = none := by
  fun_induction readAll r generalizing trees with
  | case2 r r₁ hend =>
      cases h
      exact Option.isNone_iff_eq_none.mp (of_atEnd hend).2.symm
  | case5 r r₁ hend t r₂ hread ts r₃ hall ih =>
      cases h
      exact ih hall
  | _ => cases h

theorem current_of_everyTree {source : Source} {r : Reader} {trees : List SExpr}
    (h : everyTree source = .ok trees r) : r.current = none := by
  rw [everyTree] at h
  cases hstart : start source with
  | error fault r₁ =>
      rw [hstart] at h
      cases h
  | ok _ r₁ =>
      rw [hstart] at h
      exact current_of_readAll h

/-- A text is read by one request for each character and one for its end, unless
    its parentheses do not match. -/
theorem reads_everyTree (text : String) :
    (everyTree (.ofText text)).left.source.reads ≤ text.length + 1 ∧
      ∀ trees r, everyTree (.ofText text) = .ok trees r →
        r.source.reads = text.length + 1 ∧ r.source.consumed = text.length := by
  have hasks : ∃ n, Asks (fun r => r.advance.andThen fun _ => readAll) (ofSource (.ofText text)) n :=
    asks_andThen (fun s => rfl) (asks_advance rfl) fun _ _ _ hr => asks_readAll hr
  rcases hasks with ⟨n, hsource, hends, -⟩
  have hsource : (everyTree (.ofText text)).left.source = (Source.ofText text).later n := hsource
  have hends : Ends (ofSource (.ofText text)) ((Source.ofText text).answered n)
    (everyTree (.ofText text)) := hends
  have hreads : (everyTree (.ofText text)).left.source.reads = n := by
    rw [hsource, Source.reads_later]
    exact Nat.zero_add n
  -- How often the text answers with its end tells how many answers there were.
  have hcount := Source.count_finish_of_text (s := .ofText text) rfl n
  rw [String.length_toList] at hcount
  rw [hreads]
  constructor
  · have hle := hends.count_finish_le
    omega
  · intro trees r hall
    rw [hall] at hends hsource hreads
    have hsource : r.source = (Source.ofText text).later n := hsource
    have hreads : r.source.reads = n := hreads
    rcases hends.of_ok with ⟨hsettled, cs, ⟨-, -, hexhausted⟩ | ⟨hmet, -, -⟩⟩
    · -- Nothing is left to hold, so the end was met.
      rw [hsettled.mpr (current_of_everyTree hall)] at hexhausted
      cases hexhausted
    · rw [hmet, List.count_append, Source.count_finish_map] at hcount
      have hn : n = text.length + 1 := by
        simp at hcount
        omega
      refine ⟨hreads.trans hn, ?_⟩
      rw [hsource, Source.consumed_of_text rfl, String.length_toList, hn,
        Nat.min_eq_right (Nat.le_succ _)]
      exact Nat.zero_add _

end Reader

namespace Desk

/-- The number of a request within its call. -/
theorem getD_afterAll (events : List Event) (calls : List Call) (i : Nat) :
    (afterAll calls (on (.ofEvents events))).source.events.getD i .finish =
      events.getD ((afterAll calls (on (.ofEvents events))).source.reads + i) .finish := by
  rcases source_afterAll calls (settled_on (.ofEvents events)) with ⟨n, hn⟩
  rw [hn, Source.events_later, Source.reads_later, List.getD_eq_getElem?_getD,
    List.getD_eq_getElem?_getD, List.getElem?_drop]
  change (events[n + i]?).getD _ = (events[0 + n + i]?).getD _
  rw [Nat.zero_add]

/-- The end is final for the reader that met it. All of a text is read by at most
    one request for each character and one for the end, and by exactly these
    when there is an answer. Whatever a source answers and however its readers
    are called, nobody asks for characters behind the end through a reader that
    met it. A request that is answered with the end is the last one of its call,
    and after any other calls the reader of this call still answers at once. -/
theorem end_is_final :
    (∀ text : String,
      (Reader.everyTree (.ofText text)).answer = SExpr.parseAll text ∧
      (Reader.everyTree (.ofText text)).left.source.reads ≤ text.length + 1 ∧
      ∀ trees r, Reader.everyTree (.ofText text) = .ok trees r →
        r.source.reads = text.length + 1 ∧ r.source.consumed = text.length) ∧
    ∀ (events : List Event) (calls : List Call) (call : Call),
      let d := afterAll calls (on (.ofEvents events))
      let d' := (d.perform call).2
      (d.perform call).1 ≠ .error .pastEnd ∧
        ∀ n, d.source.reads ≤ n → n < d'.source.reads → events.getD n .finish = .finish →
          d'.source.reads = n + 1 ∧
            ∀ later : List Call,
              let g := afterAll later d'
              g.perform (.atEnd (d.number call)) = (.ok (.atEnd true), g) ∧
                g.perform (.tree (d.number call)) = (.ok (.tree (.atom "")), g) := by
  refine ⟨fun text => ⟨Reader.answer_everyTree text, Reader.reads_everyTree text⟩, ?_⟩
  intro events calls call d d'
  have hd : d.Settled := settled_afterAll calls (settled_on _)
  refine ⟨perform_ne_pastEnd hd call, fun n hle hlt hfinish => ?_⟩
  rcases asks_perform hd call with ⟨m, hasks⟩
  have hreads : d'.source.reads = d.source.reads + m := by
    rw [hasks.source, Source.reads_later]
  -- What the source answers to a request is the event with the number of the request.
  have hanswer : (d.source.answered m)[n - d.source.reads]? = some .finish := by
    rw [Source.getElem?_answered (by omega), getD_afterAll, Nat.add_sub_of_le hle, hfinish]
  rcases hasks.finished hanswer with ⟨hm, hplace⟩
  refine ⟨by omega, fun later => ?_⟩
  have hfinished := finished_afterAll later hplace
  exact ⟨perform_atEnd_of_finished hfinished, perform_tree_of_finished hfinished⟩

/-- The end comes while an atom is read, and what comes behind it is for another
    reader. -/
theorem end_is_final_shared :
    let d := afterAll [.start] (on (.ofEvents [.char 'a', .finish, .char 'b']))
    let g := afterAll [.start] (d.perform (.tree 0)).2
    (d.perform (.tree 0)).1.toOption = some (.tree (.atom "a")) ∧ g.source.reads = 3 ∧
      g.perform (.atEnd 0) = (.ok (.atEnd true), g) ∧
        g.perform (.tree 0) = (.ok (.tree (.atom "")), g) ∧
          (g.perform (.tree 1)).1.toOption = some (.tree (.atom "b")) := by
  intro d g
  have hfinal := (end_is_final.2 [.char 'a', .finish, .char 'b'] [.start] (.tree 0)).2 1
    (by decide +kernel) (by decide +kernel) rfl
  exact ⟨by decide +kernel, by decide +kernel, (hfinal.2 [.start]).1, (hfinal.2 [.start]).2,
    by decide +kernel⟩

/-- Another reader does not know that the end was met, and asks again. -/
theorem end_asked_again :
    ¬ ∀ (events : List Event) (calls : List Call) (call : Call),
      let d := afterAll calls (on (.ofEvents events))
      (∃ n, n < d.source.reads ∧ events.getD n .finish = .finish) →
        (d.perform call).2.source.reads = d.source.reads := by
  intro h
  have hreads := h [.finish, .char 'a'] [.start, .atEnd 0] .start ⟨0, by decide +kernel, rfl⟩
  revert hreads
  decide +kernel

end Desk

end SmtSession
