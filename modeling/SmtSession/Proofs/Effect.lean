import SmtSession.Proofs.Run

/-!
# Effects of Rendering

What a session looks like after something was only rendered: a sort, a
signature, a term, a query that is dumped or one that a check sends. Renderings
are asked for their answers, and they give up half-way whenever a part cannot
be written, so one would like to know what they leave behind in either case.

They leave behind datatypes and nothing else that could be seen. The table and
the innermost scope grow in step: whatever was entered was also written, on a
line of its own and in the same order. Beside that, names of sorts are
remembered, which no later answer shows.

A rendering introduces datatypes only for the sorts that it has to write. For
a term these are few, however many sorts its parts have:
`Term.namedSorts` lists them, and without a constant array there are none.

## Main definitions

* `Term.usesConstArray`: Whether a constant array is made in a term.
* `Script.Operation.Renders`, `Session.Operation.Renders`: The operations that
  render and do nothing else.
* `Script.Operation.renderedSorts`: The sorts that an operation has to write.
* `Script.Operation.IsPlain`: No tuple sort and no constant array is in the way.

## Theorems

* `Script.Operation.Renders.grown`: What renders introduces datatypes.
* `Session.rendering_effect`: What rendering does to a session.
-/

namespace SmtSession

namespace Term

mutual

/-- Whether a constant array is made anywhere in a term. -/
def usesConstArray : Term → Bool
  | ⟨name, args, _⟩ =>
    (Operator.ofName name == .constArray && !args.isEmpty) || argsUseConstArray args

/-- Whether a constant array is made anywhere in terms. -/
def argsUseConstArray : List Term → Bool
  | [] => false
  | t :: ts => usesConstArray t || argsUseConstArray ts

end

theorem argsUseConstArray_eq_false {terms : List Term} :
    argsUseConstArray terms = false ↔ ∀ t ∈ terms, t.usesConstArray = false := by
  induction terms with
  | nil => simp [argsUseConstArray]
  | cons t terms ih => simp [argsUseConstArray, ih]

theorem argsNamedSorts_eq_nil {terms : List Term} (h : ∀ t ∈ terms, t.namedSorts = []) :
    argsNamedSorts terms = [] := by
  rw [List.eq_nil_iff_forall_not_mem]
  intro sort hsort
  obtain ⟨t, ht, hsort⟩ := mem_argsNamedSorts.mp hsort
  rw [h t ht] at hsort
  cases hsort

/-- Only constant arrays name sorts. -/
theorem namedSorts_eq_nil (t : Term) (h : t.usesConstArray = false) : t.namedSorts = [] := by
  induction t with
  | node name args sort ih =>
      cases args with
      | nil => rfl
      | cons first others =>
          rw [usesConstArray] at h
          obtain ⟨hname, hargs⟩ := Bool.or_eq_false_iff.mp h
          have hparts : ∀ a ∈ first :: others, a.namedSorts = [] := fun a ha =>
            ih a ha (argsUseConstArray_eq_false.mp hargs a ha)
          have hfirst := hparts first List.mem_cons_self
          have hothers : argsNamedSorts others = [] :=
            argsNamedSorts_eq_nil fun a ha => hparts a (List.mem_cons_of_mem first ha)
          rw [namedSorts.eq_def]
          dsimp only
          split
          · exact hfirst
          · exact hfirst
          · next hname' =>
              rw [hname'] at hname
              cases hname
          · exact hfirst
          · rw [hfirst, hothers, List.append_nil]
          · rw [hfirst, hothers, List.append_nil]
          · rfl

end Term

namespace Script

namespace Operation

/-- The operations that render and do nothing else. -/
def Renders : Operation → Prop
  | .sortName _ | .signature _ | .termText _ | .queryTail _ | .query _ => True
  | _ => False

/-- The sorts that a rendering has to write. -/
def renderedSorts : Operation → List SmtSort
  | .sortName sort => [sort]
  | .signature sorts => sorts
  | .termText term => term.namedSorts
  | .queryTail terms | .query terms => Term.argsNamedSorts terms
  | _ => []

/-- The renderings of sorts without tuple sorts in them, and of terms without
    constant arrays. -/
def IsPlain : Operation → Prop
  | .sortName sort => sort.tuples = []
  | .signature sorts => ∀ sort ∈ sorts, sort.tuples = []
  | .termText term => term.usesConstArray = false
  | .queryTail terms | .query terms => ∀ t ∈ terms, t.usesConstArray = false
  | _ => False

/-- What renders introduces datatypes of the sorts that it has to write, and
    does nothing else but remember names of sorts. -/
theorem Renders.grown {op : Operation} (hop : op.Renders) {s : Script} (hs : s.Consistent) :
    ∃ ds, (∀ d ∈ ds, d ∈ SmtSort.listTuples op.renderedSorts) ∧
      s.Grown ds (op.run.after s) := by
  -- The answer is forgotten, and with it all that is said about it.
  have hforget {m : Rendering String} {good : Prop} {value : String} {names : List String}
      {tuples : List Datatype} (h : Rendering.Meets m good value names tuples) :
      ∃ ds, (∀ d ∈ ds, d ∈ tuples) ∧
        s.Grown ds ((do let _ ← m : Rendering Unit).after s) :=
    ((h.map fun _ => ()).grows s hs).2
  cases op with
  | sortName sort =>
      obtain ⟨ds, hds, hgrown⟩ := hforget (meets_sortName sort)
      exact ⟨ds, by simpa [renderedSorts, SmtSort.listTuples] using hds, hgrown⟩
  | signature sorts => exact hforget (meets_signature sorts)
  | termText term => exact hforget (meets_termText term)
  | queryTail terms => exact hforget (meets_queryTail terms)
  | query terms =>
      rw [run, query_forgotten]
      exact hforget (meets_queryTail terms)
  | _ => exact hop.elim

/-- A plain rendering has no tuple sort to write. -/
theorem IsPlain.listTuples_renderedSorts {op : Operation} (hop : op.IsPlain) :
    SmtSort.listTuples op.renderedSorts = [] := by
  have hsorts {sorts : List SmtSort} (h : ∀ sort ∈ sorts, sort.tuples = []) :
      SmtSort.listTuples sorts = [] := by
    rw [List.eq_nil_iff_forall_not_mem]
    intro d hd
    obtain ⟨sort, hsort, hd⟩ := SmtSort.mem_listTuples.mp hd
    rw [h sort hsort] at hd
    cases hd
  have hterms {terms : List Term} (h : ∀ t ∈ terms, t.usesConstArray = false) :
      SmtSort.listTuples (Term.argsNamedSorts terms) = [] := by
    rw [Term.argsNamedSorts_eq_nil fun t ht => t.namedSorts_eq_nil (h t ht), SmtSort.listTuples]
  cases op with
  | sortName sort =>
      have hsort : sort.tuples = [] := hop
      rw [renderedSorts, SmtSort.listTuples, SmtSort.listTuples, hsort, List.nil_append]
  | signature sorts => exact hsorts hop
  | termText term => rw [renderedSorts, term.namedSorts_eq_nil hop, SmtSort.listTuples]
  | queryTail terms => exact hterms hop
  | query terms => exact hterms hop
  | _ => exact hop.elim

end Operation

end Script

namespace Session

variable {σ : Type}

/-- The operations that render and do nothing else to the script. -/
def Operation.Renders (op : Operation σ) : Prop :=
  ∃ o ∈ op.onScript?, o.Renders

/-- The operations that have neither tuple sorts nor constant arrays to write. -/
def Operation.IsPlain (op : Operation σ) : Prop :=
  ∀ o ∈ op.onScript?, o.IsPlain

/-- Rendering introduces datatypes and has no other effect, whether it answers
    or faults. The depth, the scopes around the innermost one and the declared
    symbols stay as they are. The table of datatypes is extended, and the
    innermost scope is extended by the declarations that came into the table,
    in their order and each on its line. Where neither a tuple sort nor a
    constant array is rendered, not even that happens: the script is the same
    but for the names of sorts that it remembers. -/
theorem rendering_effect (timeout : Option WritableInt) (backends : List String) (world : σ)
    (ops : List (Operation σ)) (op : Operation σ) (hop : op.Renders) :
    let now := afterAll ops ⟨.start timeout backends, world⟩
    let before := now.session.script
    let after := (op.perform now).2.session.script
    after.depth = before.depth ∧ after.scopes.outer = before.scopes.outer ∧
      after.declared = before.declared ∧
      (∃ added, after.datatypes = before.datatypes ++ added ∧
        after.scopes.inner = before.scopes.inner ++ Script.lines (added.map Prod.snd)) ∧
      (op.IsPlain → after = { before with sortNames := after.sortNames }) := by
  intro now before after
  obtain ⟨o, ho, hrenders⟩ := hop
  have hbefore : before.Consistent := consistent_afterAll timeout backends world ops
  have hafter : after = o.run.after before := by
    change (op.perform now).2.session.script = _
    rw [op.perform_script, Option.mem_def.mp ho]
    rfl
  obtain ⟨ds, hds, hgrown⟩ := hrenders.grown hbefore
  rw [← hafter] at hgrown
  refine ⟨hgrown.depth_eq, hgrown.outer, hgrown.declared,
    ⟨ds.map Datatype.entry, hgrown.datatypes, ?_⟩, fun hplain => ?_⟩
  · -- The entries of datatypes hold their declarations.
    rw [hgrown.inner, List.map_map]
    rfl
  · rw [(hplain o ho).listTuples_renderedSorts] at hds
    obtain rfl := List.eq_nil_iff_forall_not_mem.mpr fun d hd => List.not_mem_nil (hds d hd)
    exact hgrown.eq_of_nil

/-- A tuple sort of which one component cannot be written is given up after the
    other one was introduced. -/
theorem rendering_effect_halfway :
    let now : Stage Unit := afterAll [.onScript .openScope] ⟨.start none [], ()⟩
    let sort : SmtSort := .tuple 4 "P" [("a", .tuple 3 "Q" [("x", .bool 2)]), ("b", .bare 5)]
    let op : Operation Unit := .onScript (.sortName sort)
    (op.perform now).1 = some (.unwritableSort (.bare 5)) ∧
      (op.perform now).2.session.script.datatypes =
        [("|Q|", "(declare-datatypes ((|Q| 0)) (((|Q| (|x| Bool)))))")] ∧
      ∃ added, (op.perform now).2.session.script.datatypes =
          now.session.script.datatypes ++ added ∧
        (op.perform now).2.session.script.scopes.inner =
          now.session.script.scopes.inner ++ Script.lines (added.map Prod.snd) := by
  intro now sort op
  have hop : op.Renders := ⟨.sortName sort, rfl, trivial⟩
  exact ⟨by rfl, by rfl, (rendering_effect none [] () [.onScript .openScope] op hop).2.2.2.1⟩

end Session

end SmtSession
