import SmtSession.Proofs.ConformingTerms
import SmtSession.Proofs.Script.Meaning

/-!
# Terms of Tuple Sorts

A tuple sort is used in three places: in the declaration of its datatype, in the
terms that make tuples of it, and in those that select components. Each place
writes the names of the sort for itself. They have to agree, or else a term
speaks of symbols that the script does not have.

Selections always agree. So does the making of tuples that have components. The
tuple without components is another matter. Its datatype has one constructor
without selectors, and this constructor alone is the tuple. But a term without
arguments is a leaf, whatever its operator, and a leaf is written as its name.
So the tuple is written as the name of the operator that makes tuples, which
no declaration introduces.

## Main definitions

* `Declaration`: A datatype with one constructor, and the command that declares
  it.
* `constructed`: A constructor with its arguments.
* `Declaration.Describes`: A declaration is that of a tuple sort.

## Theorems

* `getLast_of_sortName`: The declaration comes last when the sort is answered
  first.
* `termText_tupleMake`, `termText_tupleGet`: How tuples and selections are
  written.
* `Session.tuple_terms_match_iff`: When the terms match the declaration.
* `Session.empty_tuple_not_constructed`: The empty tuple does not match.
-/

namespace SmtSession

/-- A datatype with one constructor, as a command declares it. A selector comes
    with the name of its sort. -/
structure Declaration where
  sort : String
  constructor : String
  selectors : List (String × String)

/-- The command that declares a datatype. -/
def Declaration.text (d : Declaration) : String :=
  "(declare-datatypes ((" ++ d.sort ++ " 0)) (((" ++ d.constructor ++
    String.join (d.selectors.map fun selector =>
      " (" ++ selector.1 ++ " " ++ selector.2 ++ ")") ++ "))))"

/-- A constructor with its arguments: the constructor alone when there are none. -/
def constructed (constructor : String) : List String → String
  | [] => constructor
  | arg :: args => call constructor (arg :: args)

/-- The declaration of a tuple sort. -/
def Datatype.declared (d : Datatype) : Declaration where
  sort := bars d.name
  constructor := bars d.name
  selectors := d.fields.map fun field => (bars field.1, field.2.writtenName)

theorem Datatype.text_declared (d : Datatype) : d.declared.text = d.declaration := by
  have hselectors : (d.declared.selectors.map fun selector =>
        " (" ++ selector.1 ++ " " ++ selector.2 ++ ")") =
      d.fields.map fun field => selectorText field.1 field.2.writtenName := by
    rw [declared, List.map_map]
    refine List.map_congr_left fun field _ => ?_
    rw [selectorText, Function.comp_apply]
  unfold Declaration.text declaration datatypeText
  rw [hselectors, selectors, declared]

/-! ## The Declaration -/

/-- The components of a tuple sort are answered on the way. -/
theorem mem_of_selectorTexts {fields : List (String × SmtSort)} {s t : Script} {text : String}
    (hs : s.Consistent) (h : selectorTexts fields s = .ok text t) :
    ∀ field ∈ fields, (field.2, field.2.writtenName) ∈ t.sortNames := by
  induction fields generalizing s text with
  | nil => simp
  | cons field fields ih =>
      rcases field with ⟨member, component⟩
      rw [selectorTexts] at h
      rcases Rendering.exists_of_bind_ok h with ⟨name, u, hname, h⟩
      rcases Rendering.exists_of_bind_ok h with ⟨rest, v, hrest, h⟩
      cases h
      have hcomponent := meets_sortName component
      have hu : u.Consistent := by
        have hafter := (hcomponent.grows s hs).1
        rwa [Rendering.after_ok hname] at hafter
      -- What the first component entered is still there after the others.
      have hgrown := (meets_selectorTexts fields fun field _ => meets_sortName field.2).grows u hu
      rw [Rendering.after_ok hrest] at hgrown
      rcases hgrown with ⟨-, ds, -, hgrown⟩
      rcases hcomponent.answers s hs name u hname with ⟨hcomponent, rfl, -⟩
      intro field hfield
      rcases List.mem_cons.mp hfield with rfl | hfield
      · exact hgrown.sortNames.subset (mem_of_sortName hcomponent hname)
      · exact ih hu hrest field hfield

/-- The first time that a tuple sort is answered, its declaration comes last, and
    its components are answered from then on. -/
theorem getLast_of_sortName {i : Nat} {name : String} {fields : List (String × SmtSort)}
    {s t : Script} {text : String} (hs : s.Consistent) (hnew : s.hasDatatype (bars name) = false)
    (h : sortName (.tuple i name fields) s = .ok text t) :
    t.datatypes.getLast? = some (Datatype.entry ⟨name, fields⟩) ∧
      ∀ field ∈ fields, sortName field.2 t = .ok field.2.writtenName t := by
  -- Had this very sort been answered before, its name would be in the table.
  have hunknown : s.sortName? (.tuple i name fields) = none := by
    cases hname : s.sortName? (.tuple i name fields) with
    | none => rfl
    | some answer =>
        have hintroduced := (hs.sortName? hname).2.2 name (List.mem_singleton_self name)
        rw [hnew] at hintroduced
        cases hintroduced
  have ht : t.Consistent := by
    have hafter := ((meets_sortName (.tuple i name fields)).grows s hs).1
    rwa [Rendering.after_ok h] at hafter
  rw [sortName, remembered_of_new hunknown] at h
  rcases Rendering.exists_of_bind_ok h with ⟨answer, u, hintroduce, h⟩
  rw [introduceTuple_of_new hnew] at hintroduce
  rcases Rendering.exists_of_bind_ok hintroduce with ⟨selectors, v, hselectors, hintroduce⟩
  have hanswer := (meets_selectorTexts fields fun field _ => meets_sortName field.2).answers
    s hs selectors v hselectors
  rcases hanswer with ⟨hnames, rfl, -⟩
  cases hintroduce
  cases h
  refine ⟨List.getLast?_concat, fun field hfield => ?_⟩
  have hmem := mem_of_selectorTexts hs hselectors field hfield
  exact sortName_of_found (hnames field hfield)
    (ht.sortName?_of_mem (List.mem_append_left _ hmem))

/-- A declaration is that of a tuple sort: one constructor of the sort's own name
    and, for each component, a selector of its member's name to the name that
    the component has in a session. -/
structure Declaration.Describes (d : Declaration) (name : String)
    (fields : List (String × SmtSort)) (s : Session) : Prop where
  sort : d.sort = bars name
  constructor : d.constructor = bars name
  members : d.selectors.map Prod.fst = (SmtSort.members fields).map bars
  components : ∀ (k : Nat) (component : SmtSort),
    (SmtSort.components fields)[k]? = some component →
      ∃ text, d.selectors[k]?.map Prod.snd = some text ∧
        Session.onScript (sortName component) s = .ok text s

theorem Datatype.describes_declared {d : Datatype} {s : Session}
    (h : ∀ field ∈ d.fields,
      sortName field.2 s.script = .ok field.2.writtenName s.script) :
    d.declared.Describes d.name d.fields s where
  sort := rfl
  constructor := rfl
  members := by simp [declared, SmtSort.members]
  components := by
    intro k component hcomponent
    rw [SmtSort.components, List.getElem?_map] at hcomponent
    rcases Option.map_eq_some_iff.mp hcomponent with ⟨field, hfield, rfl⟩
    refine ⟨field.2.writtenName, by simp [declared, hfield], ?_⟩
    exact Session.onScript_eq_ok_iff.mpr
      ⟨s.script, h field (List.mem_of_getElem? hfield), rfl⟩

/-! ## The Terms -/

theorem argumentTexts_eq (args : List Term) :
    argumentTexts args = do
      let texts ← args.mapM termText
      return String.join (texts.map (" " ++ ·)) := by
  induction args with
  | nil =>
      rw [argumentTexts, List.mapM_nil, pure_bind]
      rfl
  | cons arg args ih =>
      rw [argumentTexts, ih, List.mapM_cons]
      simp only [bind_assoc, pure_bind, List.map_cons, String.join_cons]

/-- A tuple with components is written with its constructor in front of them. -/
theorem termText_tupleMake (i : Nat) (name : String) (fields : List (String × SmtSort))
    {args : List Term} (hargs : args ≠ []) :
    termText (.tupleMake (.tuple i name fields) args) = do
      let texts ← args.mapM termText
      return constructed (bars name) texts := by
  rcases args with _ | ⟨first, others⟩
  · exact absurd rfl hargs
  · have hmake : Operator.ofName "tuple_constructor" = .tupleMake := by decide
    rw [Term.tupleMake, termText.eq_def]
    simp only [hmake, argumentTexts_eq, List.mapM_cons, bind_assoc, pure_bind, constructed, call,
      List.map_cons, String.join_cons]

/-- One without components is a leaf, and a leaf is written as its name. -/
theorem termText_tupleMake_nil (sort : SmtSort) :
    termText (.tupleMake sort []) = pure "tuple_constructor" := by
  rw [Term.tupleMake, termText]

/-- The leaf is no symbol between bars. -/
theorem pure_tupleMake_ne (name : String) :
    (pure "tuple_constructor" : Rendering String) ≠ pure (bars name) := by
  intro h
  have htext : "tuple_constructor" = bars name := by
    injection congrFun h (.start none)
  have hchars : 't' :: "uple_constructor".toList = '|' :: (name.toList ++ ['|']) := by
    simpa [bars] using congrArg String.toList htext
  injection hchars with hchar
  exact absurd hchar (by decide)

/-- A selection is written with the selector at its index. -/
theorem termText_tupleGet {tuple : Term} {i : Nat} {name : String}
    {fields : List (String × SmtSort)} (hsort : tuple.sort = .tuple i name fields) {k : Nat}
    {member : String} (hmember : (SmtSort.members fields)[k]? = some member)
    (hk : (numeral k).length ≤ digitLimit) :
    termText (.tupleGet tuple k) = do
      let text ← termText tuple
      return call (bars member) [text] := by
  have hget : Operator.ofName "tuple_get" = .tupleGet := by decide
  have hindex : argumentNumber (.literal (.int k) .missing) = pure (k : Int) := by
    refine argumentNumber_of_read ((readInteger_decimalText k).trans ?_)
    rw [Int.natAbs_natCast, if_neg (Nat.not_lt.mpr hk)]
  have hselected : memberAt fields k = pure member := by
    rw [memberAt, if_neg (Int.not_lt.mpr (Int.natCast_nonneg k)), Int.toNat_natCast, hmember]
  rw [Term.tupleGet, termText.eq_def]
  simp only [hget, hsort, hindex, hselected, pure_bind, call, List.map_cons, List.map_nil,
    String.join_cons, String.join_nil, String.append_empty]

namespace Session

variable {σ : Type}

/-- When the terms of a tuple sort are written with what the sort is declared with.
    The first time that the sort is answered, a declaration of it comes last in
    the table. A selection from a tuple of the sort is always written with the
    selector that the declaration has at the index. Making a tuple is written
    with the declared constructor, in front of the texts of the components if
    there are any, if and only if the sort has components at all. -/
theorem tuple_terms_match_iff (timeout : Option WritableInt) (backends : List String) (world : σ)
    (ops : List (Operation σ)) (i : Nat) (name : String) (fields : List (String × SmtSort))
    (text : String) (declared : Session) :
    let now := afterAll ops ⟨.start timeout backends, world⟩
    let sort : SmtSort := .tuple i name fields
    now.session.script.hasDatatype (bars name) = false →
      onScript (sortName sort) now.session = .ok text declared →
        ∃ d : Declaration,
          declared.script.datatypes.getLast? = some (bars name, d.text) ∧
            d.Describes name fields declared ∧
            (∀ (k : Nat) (selector : String × String), d.selectors[k]? = some selector →
              (numeral k).length ≤ digitLimit → ∀ tuple : Term, tuple.sort = sort →
                termText (.tupleGet tuple k) = do
                  let operand ← termText tuple
                  return call selector.1 [operand]) ∧
            ((∀ args : List Term, args.length = fields.length →
                termText (.tupleMake sort args) = do
                  let operands ← args.mapM termText
                  return constructed d.constructor operands) ↔
              fields ≠ []) := by
  intro now sort hnew hanswer
  rcases onScript_eq_ok_iff.mp hanswer with ⟨t, hname, rfl⟩
  rcases getLast_of_sortName (consistent_afterAll timeout backends world ops) hnew hname with
    ⟨hlast, hcomponents⟩
  refine ⟨Datatype.declared ⟨name, fields⟩, ?_, Datatype.describes_declared hcomponents,
    fun k selector hselector hk tuple hsort => ?_, fun hmake hnone => ?_,
    fun hsome args hlength => ?_⟩
  · rw [Datatype.text_declared]
    exact hlast
  · rw [Datatype.declared, List.getElem?_map] at hselector
    rcases Option.map_eq_some_iff.mp hselector with ⟨field, hfield, rfl⟩
    exact termText_tupleGet hsort (by simp [SmtSort.members, hfield]) hk
  · -- Without components there is nothing to make the tuple from, and it is a leaf.
    subst hnone
    have hnil := hmake [] rfl
    rw [termText_tupleMake_nil, List.mapM_nil, pure_bind] at hnil
    exact pure_tupleMake_ne name hnil
  · refine termText_tupleMake i name fields fun hnone => hsome ?_
    rw [hnone, List.length_nil] at hlength
    exact List.length_eq_zero_iff.mp hlength.symm

/-- A pair is answered after another tuple sort has been, and its second component is
    introduced on the way. -/
theorem tuple_terms_match_iff_nested :
    let inner : SmtSort := .tuple 1 "inner" [("n", .int 0 true)]
    let fields : List (String × SmtSort) := [("first", .bool 2), ("second", inner)]
    let sort : SmtSort := .tuple 3 "pair" fields
    let ops : List (Operation Unit) := [.onScript (.sortName (.tuple 4 "other" []))]
    let now := afterAll ops ⟨.start none [], ()⟩
    let p : Term := .symbol "p" sort
    now.session.script.hasDatatype "|pair|" = false ∧
      ∃ declared, onScript (sortName sort) now.session = .ok "|pair|" declared ∧
        ∃ d : Declaration,
          declared.script.datatypes.getLast? = some ("|pair|", d.text) ∧
            d.Describes "pair" fields declared ∧
            (∀ selector ∈ d.selectors[1]?, termText (.tupleGet p 1) = do
              let operand ← termText p
              return call selector.1 [operand]) ∧
            ∀ a b : Term, termText (.tupleMake sort [a, b]) = do
              let operands ← [a, b].mapM termText
              return constructed d.constructor operands := by
  intro inner fields sort ops now p
  refine ⟨rfl, _, rfl, ?_⟩
  rcases tuple_terms_match_iff none [] () ops 3 "pair" fields "|pair|" _ rfl rfl with
    ⟨d, hlast, hdescribes, hget, hmake⟩
  exact ⟨d, hlast, hdescribes, fun selector hselector => hget 1 selector hselector (by decide) p rfl,
    fun a b => hmake.mpr (List.cons_ne_nil _ _) [a, b] rfl⟩

/-- A tuple sort without components is declared with a constructor of its own name,
    but the tuple of this sort is written as a symbol that nothing declares. -/
theorem empty_tuple_not_constructed :
    let unit : SmtSort := .tuple 3 "U" []
    ∃ declared, onScript (sortName unit) (.start none []) = .ok "|U|" declared ∧
      declared.script.datatypes = [("|U|", Declaration.text ⟨"|U|", "|U|", []⟩)] ∧
      onScript (termText (.tupleMake unit [])) declared = .ok "tuple_constructor" declared ∧
      "tuple_constructor" ≠ constructed "|U|" [] :=
  ⟨_, rfl, rfl, rfl, by decide⟩

end Session

end SmtSession
