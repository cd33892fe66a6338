import SmtSession.Proofs.Aggregation
import SmtSession.Proofs.ValueLiterals

/-!
# Reported Models

What becomes of the values that a solver reports: the pairs in its reply are
found by a scan that knows nothing about nesting, each value is cut at the
first closing parenthesis, and what is left is decoded.

The scan takes every opening parenthesis after the first line for the start
of a pair, so it stays in step with the pairs only as long as no parenthesis
opens where no pair does. Inside a value that is harmless before the cut,
because the scan has not started to look again; after it, the rest of the
value would be taken for pairs. `FlatAfterCut` is what has to be true of a
value, and nothing else is asked of it: `reportedValues_of_report` says that
such values come back in order and cut, whatever they mean.

Being cut does no harm to the values that `PlainValue` lists. Truth values and
numerals have no parenthesis to be cut at, and a negative integer loses just
the parenthesis that closes it, which the decoder does not insist on.

## Main definitions

* `PlainValue`: The values that survive, and how solvers write them.
* `cutShort`: What the scan leaves of a value.
* `SpellsPairs`: A text that lists the values of consecutive constants.
* `ReportsModel`: A reply that reports values.

## Theorems

* `scanPairs_pair`: The scan takes one pair at a time.
* `scanPairs_of_spellsPairs`: It finds all values of a list of pairs.
* `reportedValues_of_report`: It finds all values in a reply.
* `decode_text`, `decode_cutShort_text`: A plain value is understood, and what
  is left of it still spells it.
* `check_returns_model`: A check returns the values that the first definite
  reply reports.
-/

namespace SmtSession

/-- A truth value, or an integer whose numeral is not too long to be read. -/
inductive PlainValue where
  | bool (value : Bool)
  | int (value : Int) (short : (numeral value.natAbs).length ≤ digitLimit)

/-- The value that a reader should get. -/
def PlainValue.meaning : PlainValue → ModelValue
  | bool value => .bool value
  | int value _ => .int value

/-- How solvers write a value. There are no negative numerals: the minus sign
    is applied to the numeral of the absolute value. -/
def PlainValue.text : PlainValue → String
  | bool value => if value then "true" else "false"
  | int (.ofNat n) _ => numeral n
  | int (.negSucc n) _ => "(- " ++ numeral (n + 1) ++ ")"

/-- What the scan leaves of a value. -/
def cutShort (value : String) : String :=
  String.ofList (value.toList.takeWhile (· ≠ ')'))

/-- No parenthesis opens after the scan has cut the value. -/
def FlatAfterCut (value : String) : Prop :=
  '(' ∉ value.toList.dropWhile (· ≠ ')')

/-- The pair that reports the value of the constant at a position. -/
def pairText (position : Nat) (value : String) : String :=
  "(" ++ evaluationName position ++ " " ++ value ++ ")"

/-- A text that consists of the pairs for the constants from a position on,
    with blanks between them or not. -/
inductive SpellsPairs : Nat → List String → String → Prop where
  | last (position : Nat) (value : String) :
      SpellsPairs position [value] (pairText position value)
  | more (position : Nat) (value : String) (values : List String) (gap rest : String)
      (blank : ∀ c ∈ gap.toList, Text.isBlank c = true)
      (pairs : SpellsPairs (position + 1) values rest) :
      SpellsPairs position (value :: values) (pairText position value ++ gap ++ rest)

/-- A reply that reports values: a line that starts with the verdict, the list
    of pairs, and whatever a solver says after that, but no parenthesis. -/
def ReportsModel (values : List String) (reply : String) : Prop :=
  ∃ line pairs rest : String,
    '\n' ∉ line.toList ∧ SpellsPairs 0 values pairs ∧ '(' ∉ rest.toList ∧
      reply = "sat" ++ line ++ "\n(" ++ pairs ++ ")" ++ rest

theorem dropWhile_append_of_not_mem (mark : Char) (front rest : List Char) (h : mark ∉ front) :
    (front ++ rest).dropWhile (· ≠ mark) = rest.dropWhile (· ≠ mark) := by
  refine List.dropWhile_append_of_pos ?_
  intro c hc
  rw [decide_eq_true_eq]
  rintro rfl
  exact h hc

theorem takeWhile_of_not_mem (mark : Char) (cs : List Char) (h : mark ∉ cs) :
    cs.takeWhile (· ≠ mark) = cs := by
  refine List.takeWhile_eq_self_iff.mpr ?_
  intro c hc
  rw [decide_eq_true_eq]
  rintro rfl
  exact h hc

theorem afterFirst_append_cons (mark : Char) (front rest : List Char) (h : mark ∉ front) :
    afterFirst mark (front ++ mark :: rest) = rest := by
  rw [afterFirst, dropWhile_append_of_not_mem mark front _ h]
  simp

theorem takeWhile_append_mark (mark : Char) (front rest : List Char) :
    (front ++ mark :: rest).takeWhile (· ≠ mark) = front.takeWhile (· ≠ mark) := by
  induction front with
  | nil => simp
  | cons c front ih =>
      by_cases h : c = mark
      · simp [h]
      · simpa [h] using ih

theorem dropWhile_append_mark (mark : Char) (front rest : List Char) :
    (front ++ mark :: rest).dropWhile (· ≠ mark) =
      front.dropWhile (· ≠ mark) ++ mark :: rest := by
  induction front with
  | nil => simp
  | cons c front ih =>
      by_cases h : c = mark
      · simp [h]
      · simpa [h] using ih

-- The scan in the two cases that it distinguishes.
theorem scanPairs_of_not_mem (cs : List Char) (h : '(' ∉ cs) : scanPairs cs = [] := by
  have hnone : cs.dropWhile (· ≠ '(') = [] := by
    simpa using dropWhile_append_of_not_mem '(' cs [] h
  rw [scanPairs]
  split
  · rfl
  · next heq => rw [hnone] at heq; cases heq

theorem scanPairs_append_open (front body : List Char) (h : '(' ∉ front) :
    scanPairs (front ++ '(' :: body) = scanValue body :: scanPairs (scanRest body) := by
  have hopen : (front ++ '(' :: body).dropWhile (· ≠ '(') = '(' :: body := by
    rw [dropWhile_append_of_not_mem '(' front _ h]
    simp
  rw [scanPairs]
  split
  · next heq => rw [hopen] at heq; cases heq
  · next heq => rw [hopen] at heq; cases heq; rfl

theorem scanPairs_append (front rest : List Char) (h : '(' ∉ front) :
    scanPairs (front ++ rest) = scanPairs rest := by
  by_cases hmem : '(' ∈ rest
  · rcases List.eq_append_cons_of_mem hmem with ⟨between, body, rfl, hbetween⟩
    have hfront : '(' ∉ front ++ between := by simp [h, hbetween]
    rw [← List.append_assoc, scanPairs_append_open _ body hfront,
      scanPairs_append_open between body hbetween]
  · rw [scanPairs_of_not_mem rest hmem, scanPairs_of_not_mem _ (by simp [h, hmem])]

/-- The parenthesis that opens the list of pairs makes no difference: the
    first pair has no blank in front of its own. -/
theorem scanPairs_open_open (body : List Char) :
    scanPairs ('(' :: '(' :: body) = scanPairs ('(' :: body) := by
  have hskip : afterFirst ' ' ('(' :: body) = afterFirst ' ' body := rfl
  have hlist := scanPairs_append_open [] ('(' :: body) (by simp)
  have hpair := scanPairs_append_open [] body (by simp)
  rw [List.nil_append] at hlist hpair
  rw [hlist, hpair, scanValue, scanRest, hskip]
  rfl

theorem not_mem_evaluationName (position : Nat) (c : Char) (hdigit : c.isDigit = false)
    (hname : c ∉ "EVALEXPR_".toList) : c ∉ (evaluationName position).toList := by
  rw [evaluationName, String.toList_append, List.mem_append]
  rintro (hc | hc)
  · exact hname hc
  · exact not_mem_numeral position hdigit hc

theorem toList_pairText (position : Nat) (value : String) :
    (pairText position value).toList =
      '(' :: ((evaluationName position).toList ++ ' ' :: (value.toList ++ [')'])) := by
  simp [pairText]

/-- The scan takes one pair at a time, if nothing opens after it has cut the
    value. -/
theorem scanPairs_pair (position : Nat) (value : String) (rest : List Char)
    (hflat : FlatAfterCut value) :
    scanPairs ((pairText position value).toList ++ rest) =
      (cutShort value).toList :: scanPairs rest := by
  have htext : (pairText position value).toList ++ rest =
      '(' :: ((evaluationName position).toList ++ ' ' :: (value.toList ++ ')' :: rest)) := by
    simp [toList_pairText]
  have hafter : afterFirst ' '
      ((evaluationName position).toList ++ ' ' :: (value.toList ++ ')' :: rest)) =
        value.toList ++ ')' :: rest :=
    afterFirst_append_cons ' ' _ _ (not_mem_evaluationName position ' ' (by decide) (by decide))
  -- The value ends at its own first closing parenthesis, or at that of the pair.
  have hvalue : (value.toList ++ ')' :: rest).takeWhile (· ≠ ')') = (cutShort value).toList := by
    rw [cutShort, String.toList_ofList, takeWhile_append_mark]
  have hpair := scanPairs_append_open []
    ((evaluationName position).toList ++ ' ' :: (value.toList ++ ')' :: rest)) (by simp)
  rw [htext, ← List.nil_append ('(' :: _), hpair, scanValue, scanRest, hafter, hvalue,
    dropWhile_append_mark, scanPairs_append _ _ hflat]
  exact congrArg _ (scanPairs_append [')'] rest (by simp))

/-- The scan finds the values of a list of pairs in order, and nothing else. -/
theorem scanPairs_of_spellsPairs {position : Nat} {values : List String} {pairs : String}
    (hpairs : SpellsPairs position values pairs) (rest : List Char) (hrest : '(' ∉ rest)
    (hflat : ∀ value ∈ values, FlatAfterCut value) :
    scanPairs (pairs.toList ++ rest) = values.map fun value => (cutShort value).toList := by
  induction hpairs with
  | last position value =>
      rw [scanPairs_pair position value rest (hflat value List.mem_cons_self),
        scanPairs_of_not_mem rest hrest]
      rfl
  | more position value values gap pairs blank _ ih =>
      have hgap : '(' ∉ gap.toList := by
        intro hopen
        exact absurd (blank '(' hopen) (by decide)
      have htail := ih fun v hv => hflat v (List.mem_cons_of_mem value hv)
      rw [String.toList_append, String.toList_append, List.append_assoc, List.append_assoc,
        scanPairs_pair position value _ (hflat value List.mem_cons_self),
        scanPairs_append gap.toList _ hgap, htail]
      rfl

theorem SpellsPairs.toList_eq_open {position : Nat} {values : List String} {pairs : String}
    (h : SpellsPairs position values pairs) : ∃ body, pairs.toList = '(' :: body := by
  cases h with
  | last => exact ⟨_, toList_pairText _ _⟩
  | more =>
      rw [String.toList_append, String.toList_append, toList_pairText]
      exact ⟨_, rfl⟩

/-- Whatever values a reply reports, a check finds them in order, each of them
    cut short. -/
theorem reportedValues_of_report {values : List String} {reply : String}
    (hreport : ReportsModel values reply) (hflat : ∀ value ∈ values, FlatAfterCut value) :
    reportedValues reply = values.map cutShort := by
  rcases hreport with ⟨line, pairs, rest, hline, hpairs, hrest, rfl⟩
  rcases hpairs.toList_eq_open with ⟨body, hbody⟩
  have hend : '(' ∉ ')' :: rest.toList := by simp [hrest]
  have hscan := scanPairs_of_spellsPairs hpairs (')' :: rest.toList) hend hflat
  have hfirst : afterFirst '\n' ("sat" ++ line ++ "\n(" ++ pairs ++ ")" ++ rest).toList =
      '(' :: (pairs.toList ++ ')' :: rest.toList) := by
    have htext : ("sat" ++ line ++ "\n(" ++ pairs ++ ")" ++ rest).toList =
        ("sat".toList ++ line.toList) ++ '\n' :: '(' :: (pairs.toList ++ ')' :: rest.toList) := by
      simp
    rw [htext]
    exact afterFirst_append_cons '\n' _ _ (by simp [hline])
  rw [hbody] at hfirst hscan
  rw [reportedValues, hfirst, List.cons_append, scanPairs_open_open, ← List.cons_append, hscan,
    List.map_map]
  refine List.map_congr_left ?_
  intro value _
  exact String.ofList_toList

theorem cutShort_of_not_mem (value : String) (h : ')' ∉ value.toList) : cutShort value = value := by
  rw [cutShort, takeWhile_of_not_mem ')' _ h, String.ofList_toList]

theorem cutShort_append_close (value : String) (h : ')' ∉ value.toList) :
    cutShort (value ++ ")") = value := by
  have hcut := takeWhile_append_mark ')' value.toList []
  have hvalue := cutShort_of_not_mem value h
  have hclose : (value ++ ")").toList = value.toList ++ [')'] := String.toList_append
  rw [cutShort] at hvalue
  rwa [cutShort, hclose, hcut]

theorem not_close_mem_negative (n : Nat) : ')' ∉ ("(- " ++ numeral n).toList := by
  rw [String.toList_append, List.mem_append]
  rintro (hc | hc)
  · exact absurd hc (by decide)
  · exact not_mem_numeral n (by decide) hc

theorem flatAfterCut_text (v : PlainValue) : FlatAfterCut v.text := by
  -- Whatever is left after the cut stands in the value.
  have hsuffix (value : String) (h : '(' ∉ value.toList) : FlatAfterCut value :=
    fun hopen => h ((List.dropWhile_suffix _).subset hopen)
  cases v with
  | bool value => cases value <;> exact hsuffix _ (by decide)
  | int value short =>
      cases value with
      | ofNat n => exact hsuffix _ (not_mem_numeral n (by decide))
      | negSucc n =>
          rw [PlainValue.text, FlatAfterCut, String.toList_append,
            dropWhile_append_of_not_mem ')' _ _ (not_close_mem_negative (n + 1))]
          decide

/-- A numeral is decoded however its sign is written, when no blank follows
    it. -/
theorem decode_of_toDigits {token : String} (negative : Bool) (n : Nat)
    (h : SignedDigits negative (Nat.toDigits 10 n) token.toList)
    (hlast : ∀ c ∈ token.toList.getLast?, Text.isBlank c = false)
    (short : (numeral n).length ≤ digitLimit) :
    ModelValue.decode token = .ok (.int (signed negative n)) :=
  ModelValue.decode_of_spellsDecimal ⟨h, Text.spellsIn_toDigits n⟩ hlast
    (by rwa [← length_numeral])

theorem not_blank_of_getLast?_numeral (front : List Char) (n : Nat) :
    ∀ c ∈ (front ++ Nat.toDigits 10 n).getLast?, Text.isBlank c = false := by
  intro c hc
  rw [List.getLast?_append_of_ne_nil _ Nat.toDigits_ne_nil] at hc
  exact isBlank_of_isDigit (isDigit_of_mem_toDigits (List.mem_of_mem_getLast? hc))

/-- How solvers write a plain value is understood. -/
theorem decode_text (v : PlainValue) : ModelValue.decode v.text = .ok v.meaning := by
  have hspace : ∀ c ∈ [' '], Text.isBlank c = true := List.all_eq_true.mp rfl
  cases v with
  | bool value => cases value <;> rfl
  | int value short =>
      cases value with
      | ofNat n =>
          refine decode_of_toDigits false n ?_ ?_ short
          · rw [PlainValue.text, toList_numeral]
            exact .plain _
          · rw [PlainValue.text, toList_numeral]
            exact not_blank_of_getLast?_numeral [] n
      | negSucc n =>
          have htext : (PlainValue.int (.negSucc n) short).text.toList =
              '(' :: ([] ++ '-' :: ([' '] ++ (Nat.toDigits 10 (n + 1) ++ ([] ++ [')'])))) := by
            simp [PlainValue.text, toList_numeral]
          refine decode_of_toDigits true (n + 1) ?_ ?_ short
          · rw [htext]
            exact .applied [] [' '] _ [] [')'] (by simp) ⟨by simp, hspace⟩ (by simp) (.inr rfl)
          · rw [PlainValue.text, String.toList_append]
            intro c hc
            rw [List.getLast?_append_of_ne_nil _ (by decide)] at hc
            cases hc
            decide

/-- What the scan leaves of a plain value still spells it. -/
theorem decode_cutShort_text (v : PlainValue) :
    ModelValue.decode (cutShort v.text) = .ok v.meaning := by
  have hspace : ∀ c ∈ [' '], Text.isBlank c = true := List.all_eq_true.mp rfl
  cases v with
  | bool value => cases value <;> rfl
  | int value short =>
      cases value with
      | ofNat n =>
          rw [PlainValue.text, cutShort_of_not_mem _ (not_mem_numeral n (by decide))]
          exact decode_text (.int (.ofNat n) short)
      | negSucc n =>
          have htext : ("(- " ++ numeral (n + 1)).toList =
              '(' :: ([] ++ '-' :: ([' '] ++ (Nat.toDigits 10 (n + 1) ++ ([] ++ [])))) := by
            simp [toList_numeral]
          rw [PlainValue.text, cutShort_append_close _ (not_close_mem_negative (n + 1))]
          refine decode_of_toDigits true (n + 1) ?_ ?_ short
          · rw [htext]
            exact .applied [] [' '] _ [] [] (by simp) ⟨by simp, hspace⟩ (by simp) (.inl rfl)
          · rw [String.toList_append, toList_numeral]
            exact not_blank_of_getLast?_numeral _ _

theorem verdict_of_report {values : List String} {reply : String}
    (hreport : ReportsModel values reply) : (Reply.output reply).verdict = .satisfiable := by
  rcases hreport with ⟨line, pairs, rest, -, -, -, htext⟩
  have hword : Verdict.satisfiable.word.toList.isPrefixOf reply.toList = true := by
    simp only [htext, Verdict.word, String.toList_append, List.append_assoc]
    exact List.isPrefixOf_iff_prefix.mpr (List.prefix_append _ _)
  rw [Reply.verdict, Verdict.ofOutput, if_pos hword]

/-- A check returns the values that the first definite reply reports for its
    terms, in their order, when no backend contradicts that reply. -/
theorem check_returns_model {σ : Type} (backend : Backend σ) (terms : List Term) (world : σ)
    (s : Session) (text : String) (script : Script)
    (hquery : query terms s.script = .ok text script)
    (values : List PlainValue) (hlength : values.length = terms.length)
    (before after : List Reply) (reply : String)
    (hreplies : replies backend (requestsFor text s.backends) world =
      before ++ .output reply :: after)
    (hbefore : ∀ r ∈ before, r.verdict.isDefinite = false)
    (hreport : ReportsModel (values.map PlainValue.text) reply)
    (hafter : ∀ r ∈ after, r.verdict ≠ .unsatisfiable) :
    ∃ tokens : List String,
      Session.check backend terms world s =
        .ok (⟨⟨.satisfiable, tokens⟩, requestsFor text s.backends⟩,
          worldAfter backend (requestsFor text s.backends) world) { s with script } ∧
      tokens.length = terms.length ∧
      tokens.map ModelValue.decode = values.map (fun v => .ok v.meaning) := by
  have hverdict := verdict_of_report hreport
  have hfirst : (Reply.output reply).verdict.isDefinite = true := by
    rw [hverdict]
    rfl
  have hagree : ∀ r ∈ after, r.verdict.isDefinite = true →
      r.verdict = (Reply.output reply).verdict := by
    intro r hr hdefinite
    rw [hverdict]
    cases hcase : r.verdict with
    | satisfiable => rfl
    | unsatisfiable => exact absurd hcase (hafter r hr)
    | unknown | conflicting | error => rw [hcase] at hdefinite; cases hdefinite
  have htokens : reportedValues reply = values.map (fun v => cutShort v.text) := by
    rw [reportedValues_of_report hreport, List.map_map]
    · rfl
    · intro value hvalue
      rcases List.mem_map.mp hvalue with ⟨v, -, rfl⟩
      exact flatAfterCut_text v
  have hstanding : (Reply.output reply).standing =
      ⟨.satisfiable, values.map (fun v => cutShort v.text)⟩ := by
    rw [Reply.standing, hverdict, if_pos rfl, Reply.content, htokens]
  -- Everybody is asked, since everybody is heard.
  have hall : s.backends.take (before ++ .output reply :: after).length = s.backends := by
    rw [← hreplies, length_replies, requestsFor, List.length_map, List.take_length]
  rw [check_of_query backend terms world s text script hquery, consult_eq, hreplies,
    hear_agreed before _ after hbefore hfirst hagree, hstanding]
  simp only [hall]
  refine ⟨_, rfl, ?_, ?_⟩
  · rw [List.length_map, hlength]
  · rw [List.map_map]
    refine List.map_congr_left ?_
    intro v _
    rw [Function.comp_apply, decode_cutShort_text]

/-- The first of three backends gives up, the second reports two values on lines
    of their own, and the third agrees without a word about them. -/
theorem check_returns_model_two_values :
    let backend : Backend Nat := fun _ count =>
      (if count = 0 then .ok (.output "unknown")
        else if count = 1 then .ok (.output "sat\n((EVALEXPR_0 (- 5))\n (EVALEXPR_1 true))\n")
        else .ok (.output "sat"), count + 1)
    let s := Session.start none ["cvc4", "z3", "z3"]
    let terms : List Term := [.symbol "x" .sharedInt, .symbol "p" .sharedBool]
    let text := s.script.text ++ (bindingText 0 "Int" "x" ++ (bindingText 1 "Bool" "p" ++ "")
      ++ "(check-sat)\n(get-value (" ++ evaluationNames [0, 1] ++ "))\n")
    query terms s.script = .ok text s.script ∧
      ∃ tokens : List String,
        Session.check backend terms 0 s =
          .ok (⟨⟨.satisfiable, tokens⟩, requestsFor text s.backends⟩, 3) s ∧
        tokens.length = 2 ∧
        tokens.map ModelValue.decode = [.ok (.int (-5)), .ok (.bool true)] := by
  intro backend s terms text
  have hpairs : SpellsPairs 0 ["(- 5)", "true"]
      (pairText 0 "(- 5)" ++ "\n " ++ pairText 1 "true") :=
    .more 0 "(- 5)" ["true"] "\n " _ (List.all_eq_true.mp rfl) (.last 1 "true")
  refine ⟨rfl, ?_⟩
  exact check_returns_model backend terms 0 s text s.script rfl
    [.int (-5) (by decide), .bool true] rfl
    [.output "unknown"] [.output "sat"] "sat\n((EVALEXPR_0 (- 5))\n (EVALEXPR_1 true))\n" rfl
    (by decide) ⟨"", _, "\n", by decide, hpairs, by decide, rfl⟩ (by decide)

end SmtSession
