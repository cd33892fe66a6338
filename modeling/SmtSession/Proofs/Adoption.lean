import SmtSession.Proofs.Aggregation

/-!
# Adopted Values

Which values a check returns, and with which verdicts. One would like values
to accompany a satisfiable verdict and no other. The standing of a
consultation keeps them apart, though: the values are adopted together with
the first definite verdict, and the verdict may change afterwards while the
values stay.

The verdict can change in one way only. `hear_definite` says that a standing
with a definite verdict is either kept for good or becomes conflicting, values
and all. So the values are those of the first definite reply, whatever becomes
of its verdict, and they outlive it exactly when that reply reported some and
was contradicted.

## Theorems

* `hear_definite`: What can become of a definite standing.
* `hear_adopts`: What becomes of the first definite reply.
* `replies_requestsFor_take`: Leaving out the last backends changes nothing for
  the others.
* `check_values_eq_nil_iff`: When a verdict that is not satisfiable comes without
  values.
* `check_conflicting_with_values`: It does not always.
-/

namespace SmtSession

/-- A standing with a definite verdict is kept, or it becomes conflicting and
    keeps its values. -/
theorem hear_definite (s : Standing) (hs : s.verdict.isDefinite = true) (rs : List Reply) :
    (s.hear rs).1 = s ∨ (s.hear rs).1 = { s with verdict := .conflicting } := by
  induction rs with
  | nil => exact .inl rfl
  | cons r rs ih =>
      by_cases hagree : r.verdict.isDefinite = true → r.verdict = s.verdict
      · rw [hear_cons_undecided _ _ _ _ (weigh_agreeing s r hs hagree)]
        exact ih
      · obtain ⟨hr, hne⟩ := Classical.not_imp.mp hagree
        rw [hear_contradicted s r rs hs hr hne]
        exact .inr rfl

/-- Nothing is adopted before the first definite reply, and what is adopted
    then is kept but for the verdict. -/
theorem hear_adopts (s : Standing) (hs : s.verdict.isDefinite = false) (hvalues : s.values = [])
    (rs : List Reply) :
    match (rs.take (s.hear rs).2).find? (·.verdict.isDefinite) with
    | none => (s.hear rs).1.values = []
    | some first => (s.hear rs).1 = first.standing ∨
        (s.hear rs).1 = { first.standing with verdict := .conflicting } := by
  induction rs generalizing s with
  | nil => exact hvalues
  | cons r rs ih =>
      cases hr : r.verdict.isDefinite with
      | true =>
          have hfirst : s.weigh r = .undecided r.standing := by
            rw [weigh_first s r hs hr, hvalues]
            rfl
          rw [hear_cons_undecided _ _ _ _ hfirst, List.take_succ_cons, List.find?_cons, hr]
          exact hear_definite r.standing hr rs
      | false =>
          rw [hear_cons_undecided _ _ _ _ (weigh_indefinite s r hr), List.take_succ_cons,
            List.find?_cons, hr]
          -- An indefinite reply can only turn an error into an unknown.
          refine ih _ ?_ hvalues
          dsimp only
          split
          · rfl
          · exact hs

/-- Leaving out the last backends does not change what the others reply. -/
theorem replies_requestsFor_take {σ : Type} (backend : Backend σ) (query : String)
    (commands : List String) (n : Nat) (world : σ) :
    replies backend (requestsFor query (commands.take n)) world =
      (replies backend (requestsFor query commands) world).take n := by
  induction commands generalizing n world with
  | nil => simp [requestsFor, replies]
  | cons command commands ih =>
      cases n with
      | zero => rfl
      | succ n => exact congrArg (List.cons _) (ih n _)

/-- A check that does not find the script satisfiable returns no values, unless
    its verdict is conflicting and the first definite reply to its requests
    reported some along with a satisfiable verdict. -/
theorem check_values_eq_nil_iff {σ : Type} (backend : Backend σ) (terms : List Term)
    (world world' : σ) (s s' : Session) (report : Session.Report)
    (hcheck : Session.check backend terms world s = .ok (report, world') s')
    (hverdict : report.standing.verdict ≠ .satisfiable) :
    report.standing.values = [] ↔
      ¬ (report.standing.verdict = .conflicting ∧
        ∃ first, (replies backend report.requests world).find? (·.verdict.isDefinite) = some first ∧
          first.verdict = .satisfiable ∧ reportedValues first.content ≠ []) := by
  rcases hquery : query terms s.script with ⟨text, script⟩ | ⟨fault, script⟩
  · rw [check_of_query backend terms world s text script hquery, consult_eq] at hcheck
    obtain ⟨hreport, -⟩ := EStateM.Result.ok.inj hcheck
    obtain ⟨rfl, -⟩ := Prod.mk.inj hreport
    dsimp only at hverdict ⊢
    -- Those who were asked are the first of all backends.
    rw [replies_requestsFor_take]
    have hadopts := hear_adopts .initial rfl rfl (replies backend (requestsFor text s.backends) world)
    split at hadopts
    · next hnone => simp [hnone, hadopts]
    · next first hfirst =>
        rw [hfirst]
        rcases hadopts with hkept | hchanged
        · -- The verdict that was kept is definite and not the satisfiable one.
          rw [hkept] at hverdict ⊢
          have hunsat : first.verdict ≠ .satisfiable := hverdict
          simp [Reply.standing, hunsat]
        · rw [hchanged]
          by_cases hsat : first.verdict = .satisfiable <;> simp [Reply.standing, hsat]
  · rw [check_of_fault backend terms world s fault script hquery] at hcheck
    cases hcheck

/-- The first who is sure is contradicted by somebody who reports a value, which
    is not adopted. -/
theorem check_values_eq_nil_iff_unsatisfiable_first :
    let backend : Backend Nat := fun _ count =>
      (if count = 0 then .ok (.output "unsat") else .ok (.output "sat\n((EVALEXPR_0 1))"),
        count + 1)
    let terms : List Term := [.symbol "x" .sharedInt]
    let s := Session.start none ["z3", "cvc4"]
    ∃ (report : Session.Report) (s' : Session),
      Session.check backend terms 0 s = .ok (report, 2) s' ∧
        report.standing.verdict = .conflicting ∧ report.standing.values = [] := by
  intro backend terms s
  refine ⟨_, _, rfl, rfl, ?_⟩
  refine (check_values_eq_nil_iff backend terms 0 2 s _ _ rfl (by decide)).mpr ?_
  rintro ⟨-, first, hfirst, hsat, -⟩
  obtain rfl := Option.some.inj hfirst
  exact absurd hsat (by decide)

/-- The first of two backends reports a value and is contradicted by the
    second: the value comes with a verdict that is not satisfiable. -/
theorem check_conflicting_with_values :
    let backend : Backend Nat := fun _ count =>
      (if count = 0 then .ok (.output "sat\n((EVALEXPR_0 1))\n") else .ok (.output "unsat\n"),
        count + 1)
    ∃ (report : Session.Report) (s' : Session),
      Session.check backend [.symbol "x" .sharedInt] 0
          (.start none ["z3 rlimit=1000000", "cvc4"]) = .ok (report, 2) s' ∧
        report.standing.verdict = .conflicting ∧ report.standing.values = ["1"] := by
  have hvalues : reportedValues "sat\n((EVALEXPR_0 1))\n" = ["1"] := by decide +kernel
  exact ⟨_, _, rfl, rfl, hvalues⟩

end SmtSession
