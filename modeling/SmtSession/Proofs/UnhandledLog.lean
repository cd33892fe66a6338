import SmtSession.Proofs.Run
import SmtSession.Proofs.VerdictJoin

/-!
# The Log of Unhandled Queries

A session keeps the queries that nobody could handle. The log is written to
in one place and never shortened, so it should be a record of the checks: the
queries of those that failed, in the order in which they were made. That has to
hold whatever happens in between, and something always does. The script is
rewritten, started over, dumped, other backends are chosen. The log holds
texts and not scripts for this reason, and each of them has to be the text that
was sent at its time.

To say so, the findings of a run are collected beside it: for every check that
returned, its query and its report. `Operation.unhandled_perform` compares the
log with them in one step, and an induction does the rest.

A check that faults has no finding. It faults only when its query cannot be
built, and then it does so before it looks at a backend: the outcome is the same
whatever the backends are.

## Main definitions

* `Session.Finding`: The query and the report of a check that returned.
* `Session.findings`: Those of a run, in order.

## Theorems

* `Verdict.joined_eq_error_iff`: When the join of verdicts is an error.
* `query_faults_of_not_evaluable`: A query with a term that cannot be evaluated.
* `Session.Operation.perform_check_of_query`: A check whose query can be built.
* `Session.Operation.perform_check_of_fault`: A check whose query cannot.
* `Session.Operation.unhandled_perform`, `Session.unhandled_afterAll`: What is
  logged in a step and in a run.
* `Session.unhandled_eq_failed`: The log holds the queries of the failed checks.
-/

namespace SmtSession

/-- A join is an error when there is nothing else. -/
theorem Verdict.joined_eq_error_iff (vs : List Verdict) :
    joined vs = error ↔ ∀ v ∈ vs, v = error := by
  have h : joined vs = ⊥ ↔ ∀ v ∈ vs.toFinset, id v = ⊥ := Finset.sup_eq_bot_iff id vs.toFinset
  simp only [List.mem_toFinset, id] at h
  exact h

/-- A query cannot be built for a term that cannot be evaluated, wherever it
    stands among the others. -/
theorem query_faults_of_not_evaluable {s : Script} (hs : s.Consistent) (terms : List Term)
    {term : Term} (hterm : term ∈ terms) (hbad : ¬ term.Evaluable) :
    ∃ fault t, query terms s = .error fault t := by
  rw [query_eq]
  rcases htail : queryTail terms s with ⟨tail, t⟩ | ⟨fault, t⟩
  · -- A tail that is answered has good terms only.
    have hgood := ((meets_queryTail terms).answers s hs tail t htail).1
    exact absurd (hgood term hterm) hbad
  · exact ⟨fault, t, rfl⟩

namespace Session

/-- What a check leaves to tell when it returned: the query that it built, and
    what it found out. -/
structure Finding where
  query : String
  report : Report

namespace Finding

/-- Whether nobody could handle the query. -/
def failed (f : Finding) : Bool := f.report.standing.verdict = .error

/-- The queries that nobody could handle, in order. -/
def unhandled (fs : List Finding) : List String := (fs.filter failed).map query

theorem unhandled_append (fs gs : List Finding) :
    unhandled (fs ++ gs) = unhandled fs ++ unhandled gs := by
  simp only [unhandled, List.filter_append, List.map_append]

theorem unhandled_singleton (f : Finding) :
    unhandled [f] = if f.report.standing.verdict = .error then [f.query] else [] := by
  unfold unhandled failed
  by_cases h : f.report.standing.verdict = .error <;> simp [h]

end Finding

variable {σ : Type}

/-- The finding of an operation: none, unless it is a check that returns. -/
def Operation.finding? : Operation σ → Stage σ → Option Finding
  | .check backend terms, g =>
    match SmtSession.query terms g.session.script,
        Session.check backend terms g.world g.session with
    | .ok query _, .ok (report, _) _ => some ⟨query, report⟩
    | _, _ => none
  | _, _ => none

/-- The findings of a run, in order. -/
def findings : List (Operation σ) → Stage σ → List Finding
  | [], _ => []
  | op :: ops, g => (op.finding? g).toList ++ findings ops (op.perform g).2

namespace Operation

/-- A check whose query can be built returns. It puts this query to everybody it
    asks, it fails when everybody would fail who could be asked, and it logs the
    query when it fails. -/
theorem perform_check_of_query (backend : Backend σ) (terms : List Term) (g : Stage σ)
    (text : String) (script : Script)
    (hquery : query terms g.session.script = .ok text script) :
    ∃ (report : Report) (world : σ),
      (check backend terms).finding? g = some ⟨text, report⟩ ∧
        (check backend terms).perform g = (none, ⟨{ g.session with
          script
          unhandled := g.session.unhandled ++
            if report.standing.verdict = .error then [text] else [] }, world⟩) ∧
        (∀ request ∈ report.requests, request.query = text) ∧
        (report.standing.verdict = .error ↔
          ∀ r ∈ replies backend (requestsFor text g.session.backends) g.world,
            r.verdict = .error) := by
  let heard := Standing.initial.hear (replies backend (requestsFor text g.session.backends) g.world)
  let asked := requestsFor text (g.session.backends.take heard.2)
  have hcheck := check_of_hear backend terms g.world g.session text script hquery
  refine ⟨⟨heard.1, asked⟩, worldAfter backend asked g.world, ?_, ?_, ?_, ?_⟩
  · rw [finding?, hquery, hcheck]
  · rw [perform, hcheck, Session.log_eq]
  · -- Whoever is asked is one of those who could be asked about this query.
    intro request hrequest
    rcases List.mem_map.mp hrequest with ⟨command, -, rfl⟩
    rfl
  · -- The verdict is the join of all verdicts, also of those that are not heard.
    have hverdict : heard.1.verdict = Verdict.joined
        ((replies backend (requestsFor text g.session.backends) g.world).map Reply.verdict) := by
      rw [verdict_hear _ _ (by decide)]
      exact bot_sup_eq _
    dsimp only
    rw [hverdict, Verdict.joined_eq_error_iff, List.forall_mem_map]

/-- A check whose query cannot be built faults with it. Nobody is asked and nothing
    is logged. -/
theorem perform_check_of_fault (backend : Backend σ) (terms : List Term) (g : Stage σ)
    (fault : Fault) (script : Script)
    (hquery : query terms g.session.script = .error fault script) :
    (check backend terms).finding? g = none ∧
      (check backend terms).perform g =
        (some fault, { g with session := { g.session with script } }) := by
  constructor
  · rw [finding?, hquery]
  · rw [perform, check_of_fault backend terms g.world g.session fault script hquery]

/-- The finding of an operation is logged if it is that of a failed check. -/
theorem unhandled_perform (op : Operation σ) (g : Stage σ) :
    (op.perform g).2.session.unhandled =
      g.session.unhandled ++ Finding.unhandled (op.finding? g).toList := by
  cases op with
  | onScript op =>
      rw [stage_onScript]
      exact (List.append_nil _).symm
  | enable backends => exact (List.append_nil _).symm
  | check backend terms =>
      rcases hquery : query terms g.session.script with ⟨text, script⟩ | ⟨fault, script⟩
      · rcases perform_check_of_query backend terms g text script hquery with
          ⟨report, world, hfinding, hperform, -⟩
        rw [hperform, hfinding, Option.toList_some, Finding.unhandled_singleton]
      · rcases perform_check_of_fault backend terms g fault script hquery with
          ⟨hfinding, hperform⟩
        rw [hperform, hfinding]
        exact (List.append_nil _).symm

/-- What was asked in a check is its query. -/
theorem query_of_finding (op : Operation σ) (g : Stage σ) :
    ∀ f ∈ op.finding? g, ∀ request ∈ f.report.requests, request.query = f.query := by
  intro f hf
  cases op with
  | onScript op => cases hf
  | enable backends => cases hf
  | check backend terms =>
      rcases hquery : query terms g.session.script with ⟨text, script⟩ | ⟨fault, script⟩
      · rcases perform_check_of_query backend terms g text script hquery with
          ⟨report, world, hfinding, -, hrequests, -⟩
        rw [hfinding] at hf
        cases hf
        exact hrequests
      · rw [(perform_check_of_fault backend terms g fault script hquery).1] at hf
        cases hf

end Operation

/-- In a run the queries of all failed checks are logged, in order. -/
theorem unhandled_afterAll (ops : List (Operation σ)) (g : Stage σ) :
    (afterAll ops g).session.unhandled =
      g.session.unhandled ++ Finding.unhandled (findings ops g) := by
  induction ops generalizing g with
  | nil => exact (List.append_nil _).symm
  | cons op ops ih =>
      rw [afterAll, ih, op.unhandled_perform, findings, Finding.unhandled_append,
        List.append_assoc]

theorem query_of_findings (ops : List (Operation σ)) (g : Stage σ) :
    ∀ f ∈ findings ops g, ∀ request ∈ f.report.requests, request.query = f.query := by
  induction ops generalizing g with
  | nil =>
      intro f hf
      cases hf
  | cons op ops ih =>
      intro f hf
      rcases List.mem_append.mp hf with hfirst | hlater
      · exact op.query_of_finding g f (Option.mem_toList.mp hfirst)
      · exact ih (op.perform g).2 f hlater

/-- At every time of a session the log of unhandled queries holds the queries of
    the checks that found an error, each as it was sent then, and in the order of
    the checks. A check returns whenever its query can be built, whatever the
    backends do, and it finds an error when none of them gives a usable answer.
    When the query cannot be built, because of a term that cannot be evaluated
    or for any other reason, the check faults without looking at the backends.
    Then nothing is logged, and neither is anything by operations on the script,
    by starting it over, by a dump or by choosing backends. -/
theorem unhandled_eq_failed (timeout : Option WritableInt) (backends : List String) (world : σ)
    (ops : List (Operation σ)) :
    let start : Stage σ := ⟨.start timeout backends, world⟩
    let now := afterAll ops start
    now.session.unhandled = ((findings ops start).filter Finding.failed).map Finding.query ∧
      (∀ f ∈ findings ops start, ∀ request ∈ f.report.requests, request.query = f.query) ∧
      (∀ (backend : Backend σ) (terms : List Term) (text : String) (script : Script),
        query terms now.session.script = .ok text script →
          ∃ (report : Report) (world' : σ),
            (Operation.check backend terms).finding? now = some ⟨text, report⟩ ∧
              (Operation.check backend terms).perform now = (none, ⟨{ now.session with
                script
                unhandled := now.session.unhandled ++
                  if report.standing.verdict = .error then [text] else [] }, world'⟩) ∧
              (report.standing.verdict = .error ↔
                ∀ r ∈ replies backend (requestsFor text now.session.backends) now.world,
                  r.verdict = .error)) ∧
      (∀ (terms : List Term) (fault : Fault) (script : Script),
        query terms now.session.script = .error fault script →
          ∀ backend : Backend σ, (Operation.check backend terms).perform now =
            (some fault, { now with session := { now.session with script } })) ∧
      (∀ terms : List Term, (∃ term ∈ terms, ¬ term.Evaluable) →
        ∃ fault script, query terms now.session.script = .error fault script) ∧
      (∀ op : Script.Operation,
        ((Operation.onScript op).perform now).2.session.unhandled = now.session.unhandled) ∧
      ∀ chosen : List String,
        ((Operation.enable chosen).perform now).2.session.unhandled = now.session.unhandled := by
  intro start now
  have hnow : now.session.script.Consistent := consistent_afterAll timeout backends world ops
  refine ⟨unhandled_afterAll ops start, query_of_findings ops start,
    fun backend terms text script hquery => ?_, fun terms fault script hquery backend => ?_,
    fun terms hbad => ?_, fun op => ?_, fun chosen => rfl⟩
  · rcases Operation.perform_check_of_query backend terms now text script hquery with
      ⟨report, world', hfinding, hperform, -, hverdict⟩
    exact ⟨report, world', hfinding, hperform, hverdict⟩
  · exact (Operation.perform_check_of_fault backend terms now fault script hquery).2
  · rcases hbad with ⟨term, hterm, hbad⟩
    exact query_faults_of_not_evaluable hnow terms hterm hbad
  · rw [Operation.stage_onScript]

/-- The script is written to between two checks that fail, and started over before a
    third one that does not. Both queries are kept, and an array cannot be
    evaluated now any more than before. -/
theorem unhandled_eq_failed_twice :
    let broken : Backend Nat := fun _ count => (.error .pastEnd, count + 1)
    let usable : Backend Nat := fun _ count => (.ok (.output "unsat"), count + 1)
    let ops : List (Operation Nat) :=
      [.check broken [], .onScript (.writeLine "(exit)"), .check broken [], .onScript .startOver,
        .check usable []]
    let now := afterAll ops ⟨.start none ["z3", "cvc4"], 0⟩
    let array : Term := .symbol "a" (.array 1 (.int 0 true) (.int 0 true))
    now.session.unhandled =
        [now.text ++ "(check-sat)\n", now.text ++ "(exit)\n(check-sat)\n"] ∧
      now.world = 6 ∧
      ((Operation.check broken []).perform now).2.session.unhandled =
        now.session.unhandled ++ [now.text ++ "(check-sat)\n"] ∧
      ∃ fault script, ∀ backend : Backend Nat, (Operation.check backend [array]).perform now =
        (some fault, { now with session := { now.session with script } }) := by
  intro broken usable ops now array
  rcases unhandled_eq_failed none ["z3", "cvc4"] 0 ops with
    ⟨hlog, -, hreturns, hfaults, hbad, -⟩
  have harray : ¬ array.Evaluable := by
    rintro ⟨hsort, -⟩
    exact absurd hsort (by decide)
  rcases hbad [array] ⟨array, List.mem_singleton_self _, harray⟩ with ⟨fault, script, hquery⟩
  rcases hreturns broken [] _ _ rfl with ⟨report, world, -, hperform, hverdict⟩
  refine ⟨hlog.trans (by decide), rfl, ?_, fault, script, hfaults [array] fault script hquery⟩
  rw [hperform, if_pos (hverdict.mpr (by decide))]
  rfl

end Session

end SmtSession
