import SmtSession.Proofs.Run

/-!
# Dumping Queries

A query can be dumped: it is built and nobody is asked. One would like a
dump to leave no trace and to show what a check would send. It does neither
in general. The script is copied before the tail is rendered, and rendering
may introduce datatypes; they are missing from the query that is answered and
present in every later one.

When this happens is known exactly. A tail mentions tuple sorts only where a
constant array names its sort, and the mentioned ones must have been
introduced when the tail is complete. So a dump leaves no trace if and only
if all of them had been introduced before, and the same condition decides
whether the next dump and the next check repeat the query.

## Main definitions

* `Script.Built`: What a query that can be built tells and leaves behind.

## Theorems

* `Script.built_of_query`: Building a query introduces datatypes unless all
  that it mentions were introduced before.
* `Script.Built.again`: Building it again adds nothing more.
* `Session.dump_faithful_iff`: When a dump leaves no trace and shows what a check
  sends.
* `Session.dump_unfaithful`: It does not always.
-/

namespace SmtSession

namespace Script

/-- What a query that can be built tells, and the script that it leaves
    behind. Datatypes `ds` were introduced on the way. -/
structure Built (terms : List Term) (s : Script) (q : String) (ds : List Datatype) (t : Script) :
    Prop where
  text : q = s.text ++ Term.writtenTail terms
  evaluable : ∀ term ∈ terms, term.Evaluable
  consistent : t.Consistent
  introduces : t.Introduces (Term.argsMentioned terms)
  grown : s.Grown ds t

/-- Building a query introduces datatypes unless all that it mentions were
    introduced before. -/
theorem built_of_query {terms : List Term} {s t : Script} {q : String} (hs : s.Consistent)
    (hquery : query terms s = .ok q t) :
    ∃ ds, Built terms s q ds t ∧ (ds = [] ↔ s.Introduces (Term.argsMentioned terms)) := by
  have hmeets := meets_queryTail terms
  rw [query_eq] at hquery
  rcases htail : queryTail terms s with ⟨tail, t'⟩ | ⟨fault, t'⟩
  · rw [htail] at hquery
    obtain ⟨rfl, rfl⟩ := EStateM.Result.ok.inj hquery
    obtain ⟨hgood, rfl, hintroduces⟩ := hmeets.answers s hs tail t' htail
    obtain ⟨hconsistent, ds, -, hgrown⟩ := hmeets.grows s hs
    rw [Rendering.after_ok htail] at hconsistent hgrown
    -- Where the names are known, the run that succeeds without introducing
    -- anything is the run that took place.
    by_cases hbefore : s.Introduces (Term.argsMentioned terms)
    · obtain ⟨t'', hsuccess, hnothing⟩ := hmeets.succeeds s hs hgood hbefore
      rw [htail] at hsuccess
      obtain ⟨-, rfl⟩ := EStateM.Result.ok.inj hsuccess
      exact ⟨[], ⟨rfl, hgood, hconsistent, hintroduces, hnothing⟩, fun _ => hbefore, fun _ => rfl⟩
    · refine ⟨ds, ⟨rfl, hgood, hconsistent, hintroduces, hgrown⟩, ?_, fun h => absurd h hbefore⟩
      rintro rfl
      -- Nothing was introduced, so the table is the one from before.
      intro name hname
      have hin := hintroduces name hname
      rwa [hasDatatype, hgrown.datatypes, List.map_nil, List.append_nil] at hin
  · rw [htail] at hquery
    cases hquery

/-- Building the query again succeeds and introduces nothing. -/
theorem Built.again {terms : List Term} {s t : Script} {q : String} {ds : List Datatype}
    (h : Built terms s q ds t) :
    ∃ u, query terms t = .ok (t.text ++ Term.writtenTail terms) u ∧ t.Grown [] u := by
  obtain ⟨u, htail, hgrown⟩ :=
    (meets_queryTail terms).succeeds t h.consistent h.evaluable h.introduces
  refine ⟨u, ?_, hgrown⟩
  rw [query_eq, htail]

theorem lines_eq_empty_iff (texts : List String) : lines texts = "" ↔ texts = [] := by
  constructor
  · intro h
    cases texts with
    | nil => rfl
    | cons text texts =>
        -- Every line ends with a line feed.
        have hlist := congrArg String.toList h
        simp [lines] at hlist
  · rintro rfl
    rfl

/-- The text stays what it was just when no datatype was introduced. -/
theorem Grown.text_eq_iff {s t : Script} {ds : List Datatype} (h : s.Grown ds t) :
    t.text = s.text ↔ ds = [] := by
  rw [h.appended.text_eq, String.append_eq_left_iff, Command.script, lines_eq_empty_iff,
    List.map_eq_nil_iff, List.map_eq_nil_iff]

theorem Grown.datatypes_eq_iff {s t : Script} {ds : List Datatype} (h : s.Grown ds t) :
    t.datatypes = s.datatypes ↔ ds = [] := by
  rw [h.datatypes, List.append_right_eq_self, List.map_eq_nil_iff]

end Script

namespace Session

variable {σ : Type}

/-- Whoever is asked in a check is asked the query, and somebody is asked when
    there is a backend at all. -/
theorem requests_check (backend : Backend σ) (terms : List Term) (world : σ) (s : Session)
    (text : String) (script : Script) (hquery : query terms s.script = .ok text script) :
    ∃ (report : Report) (world' : σ) (s' : Session),
      check backend terms world s = .ok (report, world') s' ∧
      (∀ request ∈ report.requests, request.query = text) ∧
      (report.requests = [] ↔ s.backends = []) := by
  rw [check_of_query backend terms world s text script hquery, consult_eq]
  refine ⟨_, _, _, rfl, fun request hrequest => ?_, ?_⟩
  · obtain ⟨command, -, rfl⟩ := List.mem_map.mp hrequest
    rfl
  · dsimp only
    rcases s.backends with _ | ⟨command, commands⟩
    · simp [requestsFor]
    · -- The first backend is asked before anything can be settled.
      simp only [requestsFor, List.map_cons, replies, Standing.hear]
      cases Standing.weigh .initial _ <;> simp

/-- Dumping a query never changes what is declared or which scopes are open.
    The rest of what it should be holds just when all tuple sorts that the
    query mentions as sorts were introduced before: that the text and the
    datatypes are left alone, that the next dump repeats the query, and, when
    there is anybody to ask, that the next check sends it. -/
theorem dump_faithful_iff (timeout : Option WritableInt) (backends : List String) (world : σ)
    (ops : List (Operation σ)) (terms : List Term) (q : String) (dumped : Session) :
    let now := afterAll ops ⟨.start timeout backends, world⟩
    let introduced := now.session.script.Introduces (Term.argsMentioned terms)
    onScript (query terms) now.session = .ok q dumped →
    dumped.script.declared = now.session.script.declared ∧
      dumped.script.depth = now.session.script.depth ∧
      ((dumped.script.text = now.text ∧
        dumped.script.datatypes = now.session.script.datatypes) ↔ introduced) ∧
      (∃ q' again, onScript (query terms) dumped = .ok q' again ∧ (q' = q ↔ introduced)) ∧
      ∀ (backend : Backend σ) (world' : σ),
        ∃ (report : Report) (world'' : σ) (s : Session),
          check backend terms world' dumped = .ok (report, world'') s ∧
          ((∀ request ∈ report.requests, request.query = q) ↔
            introduced ∨ now.session.backends = []) := by
  intro now introduced hdump
  have hnow : now.session.script.Consistent := consistent_afterAll timeout backends world ops
  rw [onScript] at hdump
  rcases hquery : query terms now.session.script with ⟨q₀, t⟩ | ⟨fault, t⟩
  · rw [hquery] at hdump
    obtain ⟨rfl, rfl⟩ := EStateM.Result.ok.inj hdump
    obtain ⟨ds, hbuilt, hds⟩ := Script.built_of_query hnow hquery
    obtain ⟨u, hagain, -⟩ := hbuilt.again
    -- The two queries have the same tail and differ in the script in front.
    have hsame : t.text ++ Term.writtenTail terms = q₀ ↔ introduced := by
      rw [hbuilt.text, String.append_left_inj, hbuilt.grown.text_eq_iff, hds]
    refine ⟨hbuilt.grown.declared, hbuilt.grown.depth_eq, ?_, ?_, fun backend world' => ?_⟩
    · change t.text = now.session.script.text ∧ t.datatypes = _ ↔ introduced
      rw [hbuilt.grown.text_eq_iff, hbuilt.grown.datatypes_eq_iff, and_self, hds]
    · refine ⟨_, { now.session with script := u }, ?_, hsame⟩
      rw [onScript, hagain]
    · obtain ⟨report, world'', s, hcheck, hrequests, hnobody⟩ :=
        requests_check backend terms world' { now.session with script := t } _ u hagain
      -- The check builds the second query, whatever the backends are like.
      refine ⟨report, world'', s, hcheck, fun h => ?_, ?_⟩
      · rcases hreport : report.requests with _ | ⟨request, requests⟩
        · exact .inr (hnobody.mp hreport)
        · have hmem : request ∈ report.requests := by
            rw [hreport]
            exact List.mem_cons_self
          exact .inl (hsame.mp ((hrequests request hmem).symm.trans (h request hmem)))
      · rintro (h | h) request hrequest
        · exact (hrequests request hrequest).trans (hsame.mpr h)
        · rw [hnobody.mpr h] at hrequest
          cases hrequest
  · rw [hquery] at hdump
    cases hdump

/-- The first component of what an array of tuples with one value everywhere
    holds at zero. -/
def componentOfConstant : Term :=
  let tuple : SmtSort := .tuple 1 "T" [("m", .int 0 true)]
  .tupleGet
    ⟨"select",
      [.constArray 3 (.array 2 (.int 0 true) tuple)
        (.tupleMake tuple [.literal (.int 1) (.int 0 true)]),
        .literal (.int 0) (.int 0 true)],
      tuple⟩
    0

/-- Once the sort of the tuples was named it is dumped without a trace. -/
theorem dump_faithful_iff_named :
    let now : Stage Unit :=
      afterAll [.onScript (.sortName (.tuple 1 "T" [("m", .int 0 true)]))]
        ⟨.start none ["cvc4"], ()⟩
    ∃ (q : String) (dumped : Session),
      onScript (query [componentOfConstant]) now.session = .ok q dumped ∧
        dumped.script.text = now.text ∧
        dumped.script.datatypes = now.session.script.datatypes := by
  have hintroduced : ∀ name ∈ Term.argsMentioned [componentOfConstant],
      (afterAll [.onScript (.sortName (.tuple 1 "T" [("m", .int 0 true)]))]
        (⟨.start none ["cvc4"], ()⟩ : Stage Unit)).session.script.hasDatatype (bars name) = true := by
    decide
  exact ⟨_, _, rfl, ((dump_faithful_iff none ["cvc4"] () _ _ _ _ rfl).2.2.1).mpr hintroduced⟩

/-- In a new session this is dumped without the datatype that it needs. -/
theorem dump_unfaithful :
    ∃ (q q' : String) (dumped again : Session),
      onScript (query [componentOfConstant]) (.start none ["cvc4"]) = .ok q dumped ∧
        onScript (query [componentOfConstant]) dumped = .ok q' again ∧
        dumped.script.text ≠ (start none ["cvc4"]).script.text ∧ q' ≠ q :=
  ⟨_, _, _, _, rfl, rfl, by decide, by decide⟩

end Session

end SmtSession
