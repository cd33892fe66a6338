import SmtSession.Session

/-!
# Aggregation

What a consultation amounts to, said without the standing that it carries
along. The loop of `consult` looks at one reply at a time and may stop
early; the law looks at the whole list of replies that the backends would
give and names the one case that it falls into.

The replies form a list although backends have a state, because a backend
that is asked later cannot change what was answered before. `replies` asks
everybody, whether or not the consultation would have got that far, and
`consult_eq` says that the consultation hears a prefix of it: `Standing.hear`
weighs that list and counts how much of it is heard. From there on only lists
of replies matter. Each of the lemmas on `hear` speaks about replies followed
by an arbitrary rest, so that they can be chained: replies without a definite
verdict up to the first definite one, replies that agree with it up to the
first that does not.

## Main definitions

* `Reply.verdict`: The verdict that a reply reports.
* `replies`: The replies that backends would give, all asked in order.
* `worldAfter`: The state of the backends after requests.
* `Standing.hear`: The standing after a list of replies, and how many of them
  are heard.
* `Aggregate`: What a list of replies amounts to.

## Theorems

* `consult_eq`: A consultation hears a prefix of the replies.
* `hear_append_indefinite`: Replies without a definite verdict.
* `hear_append_agreeing`: Replies that do not contradict a definite verdict.
* `hear_contradicted`: A reply that does.
* `hear_agreed`: A first definite verdict that nobody contradicts.
* `aggregate_hear`: What is heard amounts to what the law says.
* `check_of_hear`: A check returns and logs what is heard.
* `check_aggregates`: A check reports what the replies amount to.
-/

namespace SmtSession

/-- The verdict that a reply reports; a failure counts as no verdict. -/
def Reply.verdict : Reply → Verdict
  | .output text => .ofOutput text
  | .failure _ => .error

/-- The replies of backends that are all asked in order, each of them in the
    state that the ones before it left behind. -/
def replies {σ : Type} (backend : Backend σ) : List Request → σ → List Reply
  | [], _ => []
  | request :: requests, world =>
    (ask backend request world).1 :: replies backend requests (backend request world).2

theorem length_replies {σ : Type} (backend : Backend σ) (requests : List Request) (world : σ) :
    (replies backend requests world).length = requests.length := by
  induction requests generalizing world with
  | nil => rfl
  | cons request requests ih => rw [replies, List.length_cons, ih, List.length_cons]

/-- The state of the backends after requests were put to them in order. -/
def worldAfter {σ : Type} (backend : Backend σ) : List Request → σ → σ
  | [], world => world
  | request :: requests, world => worldAfter backend requests (backend request world).2

/-- The requests that put one query to each of some backends. -/
def requestsFor (query : String) (commands : List String) : List Request :=
  commands.map fun command => ⟨labelFor command, query⟩

/-- The standing after a list of replies, and how many of them are heard
    before it is settled. -/
def Standing.hear (s : Standing) : List Reply → Standing × Nat
  | [] => (s, 0)
  | reply :: rest =>
    match s.weigh reply with
    | .settled final => (final, 1)
    | .undecided s => ((s.hear rest).1, (s.hear rest).2 + 1)

/-- A consultation hears a prefix of what the backends would reply, asks
    nobody after that, and leaves the backends as these requests leave them. -/
theorem consult_eq {σ : Type} (backend : Backend σ) (query : String) (commands : List String)
    (standing : Standing) (world : σ) :
    consult backend query commands standing world =
      let heard := standing.hear (replies backend (requestsFor query commands) world)
      let asked := requestsFor query (commands.take heard.2)
      ((heard.1, asked), worldAfter backend asked world) := by
  induction commands generalizing standing world with
  | nil => rfl
  | cons command commands ih =>
      -- A request hands on the state of the backends even when it breaks down.
      have hask : ask backend ⟨labelFor command, query⟩ world =
          ((ask backend ⟨labelFor command, query⟩ world).1,
            (backend ⟨labelFor command, query⟩ world).2) := by
        simp only [ask, bind, StateT.bind, pure]
        rcases backend ⟨labelFor command, query⟩ world with ⟨_ | _, _⟩ <;> rfl
      simp only [consult, bind, StateT.bind]
      rw [hask]
      simp only [requestsFor, List.map_cons, replies, Standing.hear]
      -- Once the standing is settled, the rest of the commands is left alone.
      cases standing.weigh (ask backend ⟨labelFor command, query⟩ world).1 with
      | settled final => rfl
      | undecided standing =>
          change StateT.bind _ _ _ = _
          simp only [StateT.bind, ih]
          rfl

/-- What a list of replies amounts to, and how many of them it takes to know. -/
inductive Aggregate (replies : List Reply) : Standing → Nat → Prop where
  /-- Nobody is sure: it matters only whether somebody gave up. -/
  | indefinite (none : ∀ r ∈ replies, r.verdict.isDefinite = false) :
      Aggregate replies
        ⟨if ∃ r ∈ replies, r.verdict = .unknown then .unknown else .error, []⟩ replies.length
  /-- The first who is sure is never contradicted. -/
  | agreed (before : List Reply) (first : Reply) (after : List Reply)
      (split : replies = before ++ first :: after)
      (none : ∀ r ∈ before, r.verdict.isDefinite = false)
      (definite : first.verdict.isDefinite = true)
      (agree : ∀ r ∈ after, r.verdict.isDefinite = true → r.verdict = first.verdict) :
      Aggregate replies
        ⟨first.verdict,
          if first.verdict = .satisfiable then reportedValues first.content else []⟩
        replies.length
  /-- The first who is sure is contradicted, and nobody is heard after that. -/
  | contradicted (before : List Reply) (first : Reply) (between : List Reply) (contrary : Reply)
      (after : List Reply) (values : List String)
      (split : replies = before ++ first :: (between ++ contrary :: after))
      (none : ∀ r ∈ before, r.verdict.isDefinite = false)
      (definite : first.verdict.isDefinite = true)
      (agree : ∀ r ∈ between, r.verdict.isDefinite = true → r.verdict = first.verdict)
      (definite' : contrary.verdict.isDefinite = true)
      (differ : contrary.verdict ≠ first.verdict) :
      Aggregate replies ⟨.conflicting, values⟩
        (before.length + 1 + (between.length + 1))

/-- How a reply is weighed depends on its verdict alone, but for the values. -/
theorem weigh_eq (s : Standing) (r : Reply) :
    s.weigh r =
      if r.verdict.isDefinite then
        if !s.verdict.isDefinite then
          .undecided ⟨r.verdict,
            if r.verdict = .satisfiable then reportedValues r.content else s.values⟩
        else if s.verdict ≠ r.verdict then .settled { s with verdict := .conflicting }
        else .undecided s
      else if r.verdict = .unknown ∧ s.verdict = .error then
        .undecided { s with verdict := r.verdict }
      else .undecided s := by
  cases r <;> rfl

/-- Before anybody is sure, a reply that is not sure either can only turn an
    error into an unknown. -/
theorem weigh_indefinite (s : Standing) (r : Reply) (hr : r.verdict.isDefinite = false) :
    s.weigh r = .undecided
      { s with verdict :=
          if r.verdict = .unknown ∧ s.verdict = .error then .unknown else s.verdict } := by
  rw [weigh_eq, hr]
  by_cases h : r.verdict = .unknown ∧ s.verdict = .error
  · simp only [h, and_self, if_true, Bool.false_eq_true, if_false]
  · simp only [h, Bool.false_eq_true, if_false]

/-- Once somebody is sure, a reply that does not contradict changes nothing. -/
theorem weigh_agreeing (s : Standing) (r : Reply) (hs : s.verdict.isDefinite = true)
    (hr : r.verdict.isDefinite = true → r.verdict = s.verdict) :
    s.weigh r = .undecided s := by
  by_cases hd : r.verdict.isDefinite = true
  · rw [weigh_eq, hr hd, hs, if_pos rfl, if_neg (by decide), if_neg (not_not_intro rfl)]
  · -- A reply that gave up has no error to replace: somebody is sure already.
    have hne : s.verdict ≠ .error := by
      intro he
      rw [he] at hs
      exact absurd hs (by decide)
    rw [weigh_indefinite s r (by simpa only [Bool.not_eq_true] using hd),
      if_neg fun h => hne h.2]

/-- The first who is sure is believed, with the values that come along. -/
theorem weigh_first (s : Standing) (r : Reply) (hs : s.verdict.isDefinite = false)
    (hr : r.verdict.isDefinite = true) :
    s.weigh r = .undecided
      ⟨r.verdict, if r.verdict = .satisfiable then reportedValues r.content else s.values⟩ := by
  rw [weigh_eq, hr, hs]
  rfl

/-- Somebody else who is sure of the contrary settles the matter. -/
theorem weigh_contrary (s : Standing) (r : Reply) (hs : s.verdict.isDefinite = true)
    (hr : r.verdict.isDefinite = true) (hne : r.verdict ≠ s.verdict) :
    s.weigh r = .settled { s with verdict := .conflicting } := by
  rw [weigh_eq, hr, hs, if_pos rfl, if_neg (by decide), if_pos (Ne.symm hne)]

theorem hear_cons_undecided (s t : Standing) (r : Reply) (rest : List Reply)
    (h : s.weigh r = .undecided t) :
    s.hear (r :: rest) = ((t.hear rest).1, (t.hear rest).2 + 1) := by
  rw [Standing.hear, h]

/-- Replies without a definite verdict are all heard, and what they leave
    behind depends on whether one of them gave up. -/
theorem hear_append_indefinite (s : Standing) (before rest : List Reply)
    (hbefore : ∀ r ∈ before, r.verdict.isDefinite = false) (t : Standing)
    (ht : t = { s with verdict := if (∃ r ∈ before, r.verdict = .unknown) ∧ s.verdict = .error
      then .unknown else s.verdict }) :
    s.hear (before ++ rest) = ((t.hear rest).1, before.length + (t.hear rest).2) := by
  induction before generalizing s with
  | nil =>
      obtain rfl : t = s := by simpa using ht
      simp
  | cons r before ih =>
      have hrest : ∀ b ∈ before, b.verdict.isDefinite = false :=
        fun b hb => hbefore b (List.mem_cons_of_mem r hb)
      rw [List.cons_append,
        hear_cons_undecided _ _ _ _ (weigh_indefinite s r (hbefore r List.mem_cons_self)),
        ih _ hrest ?_, List.length_cons, Nat.add_right_comm]
      rw [ht]
      -- Only the first reply that gave up finds an error to replace.
      by_cases hu : r.verdict = .unknown <;> by_cases he : s.verdict = .error <;> simp [hu, he]

/-- Replies that do not contradict a definite verdict are all heard, and
    nothing comes of them. -/
theorem hear_append_agreeing (s : Standing) (between rest : List Reply)
    (hs : s.verdict.isDefinite = true)
    (hagree : ∀ r ∈ between, r.verdict.isDefinite = true → r.verdict = s.verdict) :
    s.hear (between ++ rest) = ((s.hear rest).1, between.length + (s.hear rest).2) := by
  induction between with
  | nil => simp
  | cons r between ih =>
      rw [List.cons_append,
        hear_cons_undecided _ _ _ _ (weigh_agreeing s r hs (hagree r List.mem_cons_self)),
        ih fun b hb => hagree b (List.mem_cons_of_mem r hb), List.length_cons,
        Nat.add_right_comm]

/-- A reply that contradicts a definite verdict is the last one heard. -/
theorem hear_contradicted (s : Standing) (r : Reply) (rest : List Reply)
    (hs : s.verdict.isDefinite = true) (hr : r.verdict.isDefinite = true)
    (hne : r.verdict ≠ s.verdict) :
    s.hear (r :: rest) = ({ s with verdict := .conflicting }, 1) := by
  rw [Standing.hear, weigh_contrary s r hs hr hne]

/-- The standing that the first definite reply leaves behind. -/
def Reply.standing (r : Reply) : Standing :=
  ⟨r.verdict, if r.verdict = .satisfiable then reportedValues r.content else []⟩

/-- Everything up to the first definite verdict, and what is heard after it. -/
theorem hear_first (before : List Reply) (first : Reply) (rest : List Reply)
    (hbefore : ∀ r ∈ before, r.verdict.isDefinite = false)
    (hfirst : first.verdict.isDefinite = true) :
    Standing.initial.hear (before ++ first :: rest) =
      ((first.standing.hear rest).1, before.length + 1 + (first.standing.hear rest).2) := by
  rw [hear_append_indefinite .initial before (first :: rest) hbefore _ rfl,
    hear_cons_undecided _ first.standing first rest ?_, Nat.add_right_comm, Nat.add_assoc]
  refine weigh_first _ first ?_ hfirst
  simp only [Standing.initial]
  split <;> rfl

/-- When nobody contradicts the first definite verdict, everybody is heard and
    it stands. -/
theorem hear_agreed (before : List Reply) (first : Reply) (after : List Reply)
    (hbefore : ∀ r ∈ before, r.verdict.isDefinite = false)
    (hfirst : first.verdict.isDefinite = true)
    (hagree : ∀ r ∈ after, r.verdict.isDefinite = true → r.verdict = first.verdict) :
    Standing.initial.hear (before ++ first :: after) =
      (first.standing, (before ++ first :: after).length) := by
  have hcount : before.length + 1 + after.length = (before ++ first :: after).length := by
    rw [List.length_append, List.length_cons]
    omega
  have hrest := hear_append_agreeing first.standing after [] hfirst hagree
  rw [List.append_nil] at hrest
  rw [hear_first before first after hbefore hfirst, hrest, Standing.hear, Nat.add_zero, hcount]

/-- The replies that a consultation hears amount to what the law says of all
    of them. -/
theorem aggregate_hear (rs : List Reply) :
    Aggregate rs (Standing.initial.hear rs).1 (Standing.initial.hear rs).2 := by
  -- Is there a definite reply at all?
  rcases hfind : rs.find? (·.verdict.isDefinite) with _ | first
  · have hnone : ∀ r ∈ rs, r.verdict.isDefinite = false := by
      simpa only [List.find?_eq_none, Bool.not_eq_true] using hfind
    have h := hear_append_indefinite .initial rs [] hnone _ rfl
    rw [List.append_nil] at h
    rw [h]
    simpa [Standing.hear, Standing.initial] using Aggregate.indefinite hnone
  · obtain ⟨hfirst, before, after, rfl, hbefore⟩ := List.find?_eq_some_iff_append.mp hfind
    replace hbefore : ∀ r ∈ before, r.verdict.isDefinite = false := by
      simpa only [Bool.not_eq_true'] using hbefore
    -- Is there a definite reply after the first that differs from it?
    rcases hfind' : after.find? (fun r => r.verdict.isDefinite && r.verdict != first.verdict)
      with _ | contrary
    · -- All of them are heard, and the first definite verdict stands.
      have hagree : ∀ r ∈ after, r.verdict.isDefinite = true → r.verdict = first.verdict := by
        simpa using hfind'
      rw [hear_agreed before first after hbefore hfirst hagree]
      exact Aggregate.agreed before first after rfl hbefore hfirst hagree
    · obtain ⟨hcontrary, between, rest, rfl, hbetween⟩ :=
        List.find?_eq_some_iff_append.mp hfind'
      rw [Bool.and_eq_true, bne_iff_ne] at hcontrary
      -- What comes between the two agrees with the first; what comes after the
      -- second is never heard.
      have hagree : ∀ r ∈ between, r.verdict.isDefinite = true → r.verdict = first.verdict := by
        intro r hr hd
        have := hbetween r hr
        simpa [hd] using this
      rw [hear_first before first _ hbefore hfirst,
        hear_append_agreeing first.standing between (contrary :: rest) hfirst hagree,
        hear_contradicted first.standing contrary rest hfirst hcontrary.1 hcontrary.2]
      exact Aggregate.contradicted before first between contrary rest first.standing.values rfl
        hbefore hfirst hagree hcontrary.1 hcontrary.2

/-- A check whose query can be built consults the backends about it. -/
theorem check_of_query {σ : Type} (backend : Backend σ) (terms : List Term) (world : σ)
    (s : Session) (text : String) (script : Script)
    (hquery : query terms s.script = .ok text script) :
    Session.check backend terms world s =
      let told := consult backend text s.backends .initial world
      .ok (⟨told.1.1, told.1.2⟩, told.2)
        (Session.log text told.1.1.verdict { s with script }) := by
  simp only [Session.check, bind, EStateM.bind, Session.onScript, hquery]
  rfl

/-- What it returns and leaves behind follows from what is heard of the replies. -/
theorem check_of_hear {σ : Type} (backend : Backend σ) (terms : List Term) (world : σ)
    (s : Session) (text : String) (script : Script)
    (hquery : query terms s.script = .ok text script) :
    let heard := Standing.initial.hear (replies backend (requestsFor text s.backends) world)
    let asked := requestsFor text (s.backends.take heard.2)
    Session.check backend terms world s =
      .ok (⟨heard.1, asked⟩, worldAfter backend asked world)
        (Session.log text heard.1.verdict { s with script }) := by
  intro heard asked
  rw [check_of_query backend terms world s text script hquery, consult_eq]

/-- The log of a session gains the query of a check that fails, and nothing else. -/
theorem Session.log_eq (query : String) (verdict : Verdict) (s : Session) :
    Session.log query verdict s =
      { s with unhandled := s.unhandled ++ if verdict = .error then [query] else [] } := by
  unfold Session.log
  by_cases h : verdict = .error
  · rw [if_pos h, if_pos h]
  · rw [if_neg h, if_neg h, List.append_nil]

/-- A check whose query cannot be built faults with the query. -/
theorem check_of_fault {σ : Type} (backend : Backend σ) (terms : List Term) (world : σ)
    (s : Session) (fault : Fault) (script : Script)
    (hquery : query terms s.script = .error fault script) :
    Session.check backend terms world s = .error fault { s with script } := by
  simp only [Session.check, bind, EStateM.bind, Session.onScript, hquery]

/-- A check whose query can be built reports what the replies to that query
    amount to. It puts the query to the backends in order and without leaving
    one out, up to the last reply that it takes to know, and to nobody else. -/
theorem check_aggregates {σ : Type} (backend : Backend σ) (terms : List Term) (world : σ)
    (s : Session) (text : String) (script : Script)
    (hquery : query terms s.script = .ok text script) :
    ∃ (standing : Standing) (heard : Nat) (asked : List Request) (s' : Session),
      Session.check backend terms world s =
        .ok (⟨standing, asked⟩, worldAfter backend asked world) s' ∧
      asked = (s.backends.take heard).map (fun command => ⟨"smt-query " ++ command, text⟩) ∧
      Aggregate
        (replies backend
          (s.backends.map fun command => ⟨"smt-query " ++ command, text⟩) world)
        standing heard := by
  rw [check_of_query backend terms world s text script hquery, consult_eq]
  exact ⟨_, _, _, _, rfl, rfl, aggregate_hear _⟩

/-- Of five backends the second is sure, the third breaks down, and the fourth
    contradicts the second, so the fifth is not asked. The backends count the
    requests. -/
theorem check_aggregates_conflict :
    let backend : Backend Nat := fun _ count =>
      (if count = 0 then .ok (.output "unknown") else if count = 1 then .ok (.output "sat\n((x 1))")
        else if count = 2 then .error .pastEnd else .ok (.output "unsat"), count + 1)
    let s := Session.start none ["cvc4", "z3", "z3", "cvc4", "yices"]
    let text := s.script.text ++ "(check-sat)\n"
    let asked : List Request := [⟨"smt-query cvc4", text⟩, ⟨"smt-query z3", text⟩,
      ⟨"smt-query z3", text⟩, ⟨"smt-query cvc4", text⟩]
    query [] s.script = .ok text s.script ∧
      Session.check backend [] 0 s = .ok (⟨⟨.conflicting, ["1"]⟩, asked⟩, 4) s ∧
      Aggregate
        (replies backend (s.backends.map fun command => ⟨"smt-query " ++ command, text⟩) 0)
        ⟨.conflicting, ["1"]⟩ 4 := by
  intro backend s text asked
  have hvalues : reportedValues "sat\n((x 1))" = ["1"] := by decide +kernel
  have hrun : Session.check backend [] 0 s = .ok (⟨⟨.conflicting, ["1"]⟩, asked⟩, 4) s := by
    rw [← hvalues]
    rfl
  rcases check_aggregates backend [] 0 s text s.script rfl with
    ⟨standing, heard, told, s', hcheck, htold, hlaw⟩
  -- What the law speaks of is what the check returns.
  rcases EStateM.Result.ok.inj (hrun.symm.trans hcheck) with ⟨hreturned, -⟩
  rcases Session.Report.mk.inj (Prod.mk.inj hreturned).1 with ⟨rfl, hasked⟩
  have hlength : heard = 4 := by
    have hfour := congrArg List.length (hasked.trans htold)
    rw [List.length_map, List.length_take] at hfour
    change 4 = min heard 5 at hfour
    omega
  exact ⟨rfl, hrun, hlength ▸ hlaw⟩

end SmtSession
