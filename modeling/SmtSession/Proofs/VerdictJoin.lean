import Mathlib.Data.Finset.Lattice.Fold
import SmtSession.Proofs.Aggregation

/-!
# Verdicts as Joins

A consultation is written down as a procedure: the first definite verdict
stands, a later one that differs settles the matter, and giving up counts only
while there is nothing better. Who is asked first seems to matter, and
so does where the consultation stops.

For the verdict neither does. Verdicts are ordered by what they commit to: an
error says nothing, giving up says that somebody tried, the two definite
verdicts say more than that and nothing about each other, and a conflict lies
above both of them. In this order a consultation computes a join.
`verdict_weigh` says so of one reply. A standing that is settled is at the top
of the order, so the replies that are not heard could not have raised it any
further, and `verdict_hear` extends the law to whole lists of replies without
mentioning how many of them are heard.

A join does not depend on order or repetition. That makes a law about checks
wherever a backend answers the same request in the same way each time. The
state of the backends may change from request to request all the same, as
long as no answer shows it.

The values are no join: they are those of the first definite reply.

## Main definitions

* The order on `Verdict`, with its joins and its two ends.
* `Verdict.joined`: The join of many verdicts.
* `verdictOf`: The verdict that an outcome of a request counts as.

## Theorems

* `Verdict.joined_congr`: Only which verdicts there are matters.
* `verdict_weigh`: Weighing one reply joins its verdict to the standing.
* `verdict_hear`: So does hearing a list of replies.
* `check_verdict_is_join`: A check finds the join of what the backends report.
-/

namespace SmtSession

namespace Verdict

/-- A verdict is at most another one when it is the same, when it says nothing,
    when the other is a conflict, or when somebody gave up where the other is
    definite. -/
instance : LE Verdict where
  le v w := v = w ∨ v = error ∨ w = conflicting ∨ (v = unknown ∧ w.isDefinite = true)

instance (v w : Verdict) : Decidable (v ≤ w) :=
  inferInstanceAs (Decidable (v = w ∨ v = error ∨ w = conflicting ∨ _))

instance : PartialOrder Verdict where
  le_refl v := .inl rfl
  le_trans u v w := by cases u <;> cases v <;> cases w <;> decide
  le_antisymm v w := by cases v <;> cases w <;> decide

/-- The greater of two verdicts, or a conflict when neither is. -/
instance : SemilatticeSup Verdict where
  sup v w := if v ≤ w then w else if w ≤ v then v else conflicting
  le_sup_left v w := by cases v <;> cases w <;> decide
  le_sup_right v w := by cases v <;> cases w <;> decide
  sup_le u v w := by cases u <;> cases v <;> cases w <;> decide

instance : BoundedOrder Verdict where
  bot := error
  bot_le v := by cases v <;> decide
  top := conflicting
  le_top v := by cases v <;> decide

/-- The two definite verdicts are at most a conflict and nothing less. -/
example : ¬ satisfiable ≤ unsatisfiable ∧ ¬ unsatisfiable ≤ satisfiable ∧
    satisfiable ⊔ unsatisfiable = conflicting := by
  decide

/-- A definite verdict is above all that do not contradict it. -/
theorem le_definite {v w : Verdict} (hw : w.isDefinite = true) (hv : v ≠ conflicting)
    (hagree : v.isDefinite = true → v = w) : v ≤ w := by
  revert hw hv hagree
  cases v <;> cases w <;> decide

/-- Definite verdicts that differ contradict each other. -/
theorem sup_definite {v w : Verdict} (hv : v.isDefinite = true) (hw : w.isDefinite = true)
    (hne : w ≠ v) : v ⊔ w = ⊤ := by
  revert hv hw hne
  cases v <;> cases w <;> decide

/-- Where nobody is sure, giving up is more than saying nothing. -/
theorem sup_indefinite {v w : Verdict} (hv : v.isDefinite = false) (hw : w.isDefinite = false)
    (hv' : v ≠ conflicting) (hw' : w ≠ conflicting) :
    v ⊔ w = if w = unknown ∧ v = error then unknown else v := by
  revert hv hw hv' hw'
  cases v <;> cases w <;> decide

/-- The join of many verdicts; of none of them it is an error. -/
def joined (vs : List Verdict) : Verdict := vs.toFinset.sup id

theorem joined_cons (v : Verdict) (vs : List Verdict) : joined (v :: vs) = v ⊔ joined vs := by
  rw [joined, List.toFinset_cons, Finset.sup_insert, joined, id]

theorem joined_append (vs ws : List Verdict) : joined (vs ++ ws) = joined vs ⊔ joined ws := by
  rw [joined, List.toFinset_append, Finset.sup_union, joined, joined]

theorem isLUB_joined (vs : List Verdict) : IsLUB {v | v ∈ vs} (joined vs) := by
  have hset : {v | v ∈ vs} = (vs.toFinset : Set Verdict) := by
    ext v
    simp
  rw [hset]
  exact Finset.isLUB_sup_id

/-- Only which verdicts there are matters. -/
theorem joined_congr {vs ws : List Verdict} (h : ∀ v, v ∈ vs ↔ v ∈ ws) :
    joined vs = joined ws := by
  rw [joined, List.toFinset.ext h, joined]

end Verdict

/-- No output is classified as a conflict. -/
theorem Reply.verdict_ne_conflicting (r : Reply) : r.verdict ≠ .conflicting := by
  intro h
  cases r with
  | failure reason => cases h
  | output text =>
      simp only [Reply.verdict, Verdict.ofOutput] at h
      repeat' split at h
      all_goals cases h

/-- Weighing one reply joins its verdict to the standing. A standing that is
    settled by it cannot be raised any more. -/
theorem verdict_weigh (s : Standing) (r : Reply) (hs : s.verdict ≠ .conflicting) :
    (∃ t, s.weigh r = .undecided t ∧ t.verdict = s.verdict ⊔ r.verdict ∧
        t.verdict ≠ .conflicting) ∨
      ∃ t, s.weigh r = .settled t ∧ t.verdict = ⊤ ∧ s.verdict ⊔ r.verdict = ⊤ := by
  have hr : r.verdict ≠ .conflicting := r.verdict_ne_conflicting
  by_cases hsure : s.verdict.isDefinite = true
  · by_cases hagree : r.verdict.isDefinite = true → r.verdict = s.verdict
    · have hle : r.verdict ≤ s.verdict := Verdict.le_definite hsure hr hagree
      refine .inl ⟨s, weigh_agreeing s r hsure hagree, ?_, hs⟩
      rw [sup_eq_left.mpr hle]
    · rcases Classical.not_imp.mp hagree with ⟨hsure', hne⟩
      exact .inr ⟨_, weigh_contrary s r hsure hsure' hne, rfl,
        Verdict.sup_definite hsure hsure' hne⟩
  · rw [Bool.not_eq_true] at hsure
    by_cases hsure' : r.verdict.isDefinite = true
    · -- The first definite verdict replaces what there was.
      have hle : s.verdict ≤ r.verdict :=
        Verdict.le_definite hsure' hs fun h => absurd (hsure.symm.trans h) (by decide)
      refine .inl ⟨_, weigh_first s r hsure hsure', ?_, hr⟩
      rw [sup_eq_right.mpr hle]
    · rw [Bool.not_eq_true] at hsure'
      refine .inl ⟨_, weigh_indefinite s r hsure', ?_, ?_⟩
      · rw [Verdict.sup_indefinite hsure hsure' hs hr]
      · dsimp only
        split
        · decide
        · exact hs

/-- Hearing replies joins the verdicts of all of them to the standing, those that
    are not heard included. -/
theorem verdict_hear (s : Standing) (rs : List Reply) (hs : s.verdict ≠ .conflicting) :
    (s.hear rs).1.verdict = s.verdict ⊔ Verdict.joined (rs.map Reply.verdict) := by
  induction rs generalizing s with
  | nil =>
      have hnone : Verdict.joined (List.map Reply.verdict []) = ⊥ := rfl
      rw [hnone, sup_bot_eq, Standing.hear]
  | cons r rs ih =>
      rw [List.map_cons, Verdict.joined_cons, ← sup_assoc]
      rcases verdict_weigh s r hs with ⟨t, hweigh, hjoin, ht⟩ | ⟨t, hweigh, htop, hjoin⟩
      · rw [hear_cons_undecided s t r rs hweigh, ih t ht, hjoin]
      · -- The rest is not heard, and at the top of the order it does not matter.
        rw [Standing.hear, hweigh, hjoin, top_sup_eq]
        exact htop

/-- The verdict that the outcome of a request counts as; a backend that breaks
    down reports nothing. -/
def verdictOf : Except Fault Reply → Verdict
  | .ok reply => reply.verdict
  | .error _ => .error

/-- Where outcomes depend on the request alone, everybody reports what he would
    report if he were the only one to be asked. -/
theorem verdict_replies {σ : Type} (outcome : Request → Except Fault Reply)
    (next : Request → σ → σ) (requests : List Request) (world : σ) :
    (replies (fun request world => (outcome request, next request world)) requests world).map
        Reply.verdict =
      requests.map fun request => verdictOf (outcome request) := by
  induction requests generalizing world with
  | nil => rfl
  | cons request requests ih =>
      have hfirst : (ask (fun request world => (outcome request, next request world)) request
          world).1.verdict = verdictOf (outcome request) := by
        simp only [ask, bind, StateT.bind, pure]
        cases outcome request <;> rfl
      rw [replies, List.map_cons, List.map_cons, hfirst, ih]

/-- Where the outcome of a request depends on nothing but the request, a check
    whose query can be built finds the least upper bound of what all backends
    report, asked or not. So its verdict for two lists of backends together is
    the join of the verdicts for each of them, and neither the order of the
    backends nor their repetition changes the verdict or whether the query is
    logged. -/
theorem check_verdict_is_join {σ : Type} (outcome : Request → Except Fault Reply)
    (next : Request → σ → σ) (terms : List Term) (world : σ) (s : Session) (text : String)
    (script : Script) (hquery : query terms s.script = .ok text script) :
    let backend : Backend σ := fun request world => (outcome request, next request world)
    let reported (command : String) : Verdict := verdictOf (outcome ⟨"smt-query " ++ command, text⟩)
    ∃ verdict : List String → Verdict,
      (∀ commands : List String, ∃ (report : Session.Report) (world' : σ) (s' : Session),
        Session.check backend terms world { s with backends := commands } =
            .ok (report, world') s' ∧
          report.standing.verdict = verdict commands ∧
          s'.unhandled = s.unhandled ++ if verdict commands = .error then [text] else []) ∧
        (∀ commands, IsLUB {v | ∃ command ∈ commands, reported command = v} (verdict commands)) ∧
        (∀ xs ys, verdict (xs ++ ys) = verdict xs ⊔ verdict ys) ∧
        ∀ xs ys : List String, (∀ command, command ∈ xs ↔ command ∈ ys) →
          verdict xs = verdict ys := by
  intro backend reported
  refine ⟨fun commands => .joined (commands.map reported), fun commands => ?_, fun commands => ?_,
    fun xs ys => ?_, fun xs ys hsame => ?_⟩
  · have hverdict : (Standing.initial.hear
        (replies backend (requestsFor text commands) world)).1.verdict =
          .joined (commands.map reported) := by
      rw [verdict_hear _ _ (by decide), verdict_replies, requestsFor, List.map_map]
      exact bot_sup_eq _
    rw [check_of_query backend terms world { s with backends := commands } text script hquery,
      consult_eq]
    refine ⟨_, _, _, rfl, hverdict, ?_⟩
    dsimp only
    rw [hverdict, Session.log]
    split
    · rfl
    · rw [List.append_nil]
  · have hset : {v | ∃ command ∈ commands, reported command = v} =
        {v | v ∈ commands.map reported} := by
      ext v
      simp
    rw [hset]
    exact Verdict.isLUB_joined _
  · dsimp only
    rw [List.map_append, Verdict.joined_append]
  · refine Verdict.joined_congr fun v => ?_
    simp only [List.mem_map, hsame]

/-- Of three backends one breaks down and the other two contradict each other.
    Asking them in another order, and one of them twice, changes neither the
    verdict nor the log, although other requests are made. -/
theorem check_verdict_is_join_reordered :
    let outcome : Request → Except Fault Reply := fun request =>
      if request.label = "smt-query z3" then .ok (.output "sat\n()")
      else if request.label = "smt-query cvc4" then .ok (.output "unsat") else .error .pastEnd
    let backend : Backend Nat := fun request count => (outcome request, count + 1)
    let s := Session.start none []
    query [] s.script = .ok (s.script.text ++ "(check-sat)\n") s.script ∧
      ∃ (report report' : Session.Report) (t t' : Session),
        Session.check backend [] 0 { s with backends := ["yices", "cvc4", "z3"] } =
            .ok (report, 3) t ∧
          Session.check backend [] 0 { s with backends := ["z3", "cvc4", "z3", "yices"] } =
            .ok (report', 2) t' ∧
          report.requests.map Request.label =
            ["smt-query yices", "smt-query cvc4", "smt-query z3"] ∧
          report'.requests.map Request.label = ["smt-query z3", "smt-query cvc4"] ∧
          report.standing.verdict = .conflicting ∧ report'.standing.verdict = .conflicting ∧
          t.unhandled = [] ∧ t'.unhandled = [] := by
  intro outcome backend s
  have hquery : query [] s.script = .ok (s.script.text ++ "(check-sat)\n") s.script := rfl
  rcases check_verdict_is_join outcome (fun _ count => count + 1) [] 0 s _ _ hquery with
    ⟨verdict, hcheck, -, -, hsame⟩
  rcases hcheck ["yices", "cvc4", "z3"] with ⟨report, count, t, hfirst, hverdict, hlog⟩
  rcases hcheck ["z3", "cvc4", "z3", "yices"] with ⟨report', count', t', hsecond, hverdict', hlog'⟩
  -- The first consultation is run; for the second it is known then what it finds.
  have hjoin : verdict ["yices", "cvc4", "z3"] = .conflicting := by
    rw [← hverdict]
    cases hfirst
    rfl
  have hmembers : verdict ["z3", "cvc4", "z3", "yices"] = verdict ["yices", "cvc4", "z3"] := by
    apply hsame
    intro command
    simp only [List.mem_cons, List.not_mem_nil, or_false]
    tauto
  rw [hmembers] at hverdict' hlog'
  rw [hjoin] at hverdict hlog hverdict' hlog'
  refine ⟨hquery, report, report', t, t', ?_, ?_, ?_, ?_, hverdict, hverdict', hlog, hlog'⟩
  · cases hfirst
    rfl
  · cases hsecond
    rfl
  · cases hfirst
    rfl
  · cases hsecond
    rfl

end SmtSession
