import SmtSession.Proofs.Script.WrittenForm

/-!
# Rendering

What rendering does to a script, and what it answers. Every rendering
operation is described by four things that can be said without running it:
the condition under which its subject can be written, the text that it
answers, the tuple sorts that this text mentions, and the tuple sorts that it
could come across. `Rendering.Meets` ties an operation to such a description.
Descriptions compose like the operations do, so one lemma for each way of
combining operations turns the recursion of `sortName` and of `termText` into
the recursion of the written form.

The table of sort names is what makes this more than a calculation. A name
is looked up instead of rendered, so the answer is right only if the table
is, and it takes an invariant to know that: `Script.Consistent` says that
each remembered name is the written form of its sort and that the datatypes
it mentions were introduced. Closing a scope forgets neither, which is why
the invariant speaks of the tables alone and not of the text.

## Main definitions

* `Script.Introduces`: Whether a script has introduced tuple sorts of some
  names.
* `Script.InOrder`: Datatypes that can come into a script one after the other.
* `Script.Grown`: A script after some more datatypes were introduced.
* `Script.Consistent`: What is remembered about sorts is right.
* `Rendering.after`: The script that an operation leaves behind.
* `Rendering.Meets`: An operation does what is said of it.

## Theorems

* `Script.InOrder.append`, `Script.Grown.trans`: Scripts grow step by step.
* `Rendering.Meets.bind`: Descriptions compose.
* `remembered_of_found`, `introduceTuple_of_found`: What was rendered before is
  looked up.
* `meets_remembered`, `meets_introduceTuple`: The two operations that look at
  the script.
* `meets_sortName`, `meets_signature`: Sorts are written in their written form.
* `meets_termText`, `meets_queryTail`: So are terms, and the tails of queries.
* `query_eq`: A query takes the script before the tail is rendered.
-/

namespace SmtSession

namespace Script

/-- Whether datatypes of all the given names were introduced. -/
def Introduces (s : Script) (names : List String) : Prop :=
  ∀ name ∈ names, s.hasDatatype (bars name) = true

/-- The lines of commands. -/
def lines (commands : List String) : String := String.join (commands.map (· ++ "\n"))

/-- Datatypes that can come into a script one after the other. None of them was
    there before the first one came, what its components mention was there when
    it came, and one of the same name that came earlier is among its components:
    its name was looked up before they were rendered. -/
inductive InOrder (s : Script) : List Datatype → Prop
  | nil : s.InOrder []
  | snoc {ds : List Datatype} {d : Datatype} (earlier : s.InOrder ds)
      (new : s.hasDatatype (bars d.name) = false)
      (known : ∀ name ∈ d.mentioned,
        s.hasDatatype (bars name) = true ∨ ∃ e ∈ ds, e.name = name)
      (within : ∀ e ∈ ds, e.name = d.name → e ∈ SmtSort.fieldTuples d.fields) :
      s.InOrder (ds ++ [d])

/-- A script after datatypes were introduced, in order, in its innermost
    scope. Only datatypes whose components can be written are. More names of
    sorts may be remembered. -/
structure Grown (s : Script) (ds : List Datatype) (t : Script) : Prop where
  timeout : t.timeout = s.timeout
  outer : t.scopes.outer = s.scopes.outer
  inner : t.scopes.inner = s.scopes.inner ++ lines (ds.map Datatype.declaration)
  declared : t.declared = s.declared
  datatypes : t.datatypes = s.datatypes ++ ds.map Datatype.entry
  named : ∀ d ∈ ds, ∀ field ∈ d.fields, field.2.HasName
  ordered : s.InOrder ds
  sortNames : s.sortNames <+: t.sortNames

/-- What the script remembers about sorts is right: each name is that of its
    sort, and it mentions only datatypes that were introduced. -/
def Consistent (s : Script) : Prop :=
  ∀ entry ∈ s.sortNames,
    entry.1.HasName ∧ entry.2 = entry.1.writtenName ∧ s.Introduces entry.1.mentioned

theorem bars_inj {m n : String} : bars m = bars n ↔ m = n := by
  rw [bars, bars, String.append_left_inj, String.append_right_inj]

theorem lines_append (xs ys : List String) : lines (xs ++ ys) = lines xs ++ lines ys := by
  simp only [lines, List.map_append, String.join_append]

/-- A datatype of some name is in the table when it was there before or came in
    since. -/
theorem hasDatatype_iff {s t : Script} {ds : List Datatype}
    (h : t.datatypes = s.datatypes ++ ds.map Datatype.entry) (name : String) :
    t.hasDatatype (bars name) = true ↔
      s.hasDatatype (bars name) = true ∨ ∃ d ∈ ds, d.name = name := by
  simp only [hasDatatype, h, List.any_append, Bool.or_eq_true, List.any_map, List.any_eq_true,
    Function.comp_apply, Datatype.entry, beq_iff_eq, bars_inj]

/-- What comes in later finds what came in before. -/
theorem InOrder.append {s t : Script} {ds es : List Datatype} (h : s.InOrder ds)
    (ht : t.datatypes = s.datatypes ++ ds.map Datatype.entry) (h' : t.InOrder es) :
    s.InOrder (ds ++ es) := by
  have hin := hasDatatype_iff ht
  induction h' with
  | nil => rwa [List.append_nil]
  | @snoc es d earlier new known within ih =>
      have habsent : ¬ (s.hasDatatype (bars d.name) = true ∨ ∃ e ∈ ds, e.name = d.name) := by
        rw [← hin, new]
        exact Bool.false_ne_true
      rw [← List.append_assoc]
      refine .snoc ih ?_ (fun name hname => ?_) (fun e he heq => ?_)
      · exact Bool.eq_false_iff.mpr fun hold => habsent (.inl hold)
      · rcases known name hname with hold | ⟨e, he, heq⟩
        · exact ((hin name).mp hold).imp_right fun ⟨e, he, heq⟩ =>
            ⟨e, List.mem_append_left _ he, heq⟩
        · exact .inr ⟨e, List.mem_append_right _ he, heq⟩
      · -- A datatype of the first list that has the name would have been found.
        rcases List.mem_append.mp he with he | he
        · exact absurd (.inr ⟨e, he, heq⟩) habsent
        · exact within e he heq

theorem Grown.refl (s : Script) : s.Grown [] s where
  timeout := rfl
  outer := rfl
  inner := by simp [lines]
  declared := rfl
  datatypes := by simp
  named := by simp
  ordered := .nil
  sortNames := List.prefix_rfl

theorem Grown.trans {s t u : Script} {ds es : List Datatype} (h : s.Grown ds t)
    (h' : t.Grown es u) : s.Grown (ds ++ es) u where
  timeout := h'.timeout.trans h.timeout
  outer := h'.outer.trans h.outer
  inner := by rw [h'.inner, h.inner, List.map_append, lines_append, String.append_assoc]
  declared := h'.declared.trans h.declared
  datatypes := by rw [h'.datatypes, h.datatypes, List.map_append, List.append_assoc]
  named := fun d hd => (List.mem_append.mp hd).elim (h.named d) (h'.named d)
  ordered := h.ordered.append h.datatypes h'.ordered
  sortNames := h.sortNames.trans h'.sortNames

/-- One more datatype is introduced, after what its components mention. -/
theorem Grown.introduce {s t : Script} {ds : List Datatype} (h : s.Grown ds t) (d : Datatype)
    (hnamed : ∀ field ∈ d.fields, field.2.HasName) (hnew : s.hasDatatype (bars d.name) = false)
    (hknown : ∀ name ∈ d.mentioned, t.hasDatatype (bars name) = true)
    (hwithin : ∀ e ∈ ds, e ∈ SmtSort.fieldTuples d.fields) :
    s.Grown (ds ++ [d]) (t.introduce (bars d.name) d.declaration) where
  timeout := h.timeout
  outer := h.outer
  inner := by
    rw [List.map_append, lines_append, ← String.append_assoc, ← h.inner]
    simp [Script.introduce, write, Scopes.write, lines, String.append_assoc]
  declared := h.declared
  datatypes := by
    rw [List.map_append, ← List.append_assoc, ← h.datatypes]
    rfl
  named := fun e he => (List.mem_append.mp he).elim (h.named e) fun hd => by
    rwa [List.mem_singleton.mp hd]
  ordered := h.ordered.snoc hnew
    (fun name hname => (hasDatatype_iff h.datatypes name).mp (hknown name hname))
    fun e he _ => hwithin e he
  sortNames := h.sortNames

theorem Grown.depth_eq {s t : Script} {ds : List Datatype} (h : s.Grown ds t) :
    t.depth = s.depth := by
  rw [depth, Scopes.depth, h.outer, depth, Scopes.depth]

/-- A script without new datatypes differs at most in what it remembers about
    sorts. -/
theorem Grown.eq_of_nil {s t : Script} (h : s.Grown [] t) :
    t = { s with sortNames := t.sortNames } := by
  obtain ⟨timeout, ⟨inner, outer⟩, declared, sortNames, datatypes⟩ := t
  obtain ⟨rfl, rfl, hinner, rfl, hdatatypes, -⟩ := h
  simp only [lines, List.map_nil, String.join_nil, String.append_empty, List.append_nil]
    at hinner hdatatypes
  rw [hinner, hdatatypes]

/-- Nothing that was introduced is lost. -/
theorem Grown.introduces {s t : Script} {ds : List Datatype} (h : s.Grown ds t)
    {names : List String} (hs : s.Introduces names) : t.Introduces names := by
  intro name hname
  have hin := hs name hname
  simp only [hasDatatype, List.any_eq_true] at hin ⊢
  obtain ⟨entry, hentry, heq⟩ := hin
  exact ⟨entry, by rw [h.datatypes]; exact List.mem_append_left _ hentry, heq⟩

theorem Introduces.introduce {s : Script} {names : List String} (h : s.Introduces names)
    (quotedName declaration : String) :
    (s.introduce quotedName declaration).Introduces names := by
  intro name hname
  have hin := h name hname
  simp only [hasDatatype, Script.introduce, write, List.any_append, Bool.or_eq_true] at hin ⊢
  exact .inl hin

theorem introduces_append (s : Script) (xs ys : List String) :
    s.Introduces (xs ++ ys) ↔ s.Introduces xs ∧ s.Introduces ys := by
  simp only [Introduces, List.mem_append, or_imp, forall_and]

/-- A remembered name is the right one. -/
theorem Consistent.sortName? {s : Script} (hs : s.Consistent) {sort : SmtSort} {name : String}
    (h : s.sortName? sort = some name) :
    sort.HasName ∧ name = sort.writtenName ∧ s.Introduces sort.mentioned := by
  obtain ⟨before, after, heq, -⟩ := List.lookup_eq_some_iff.mp h
  exact hs (sort, name) (by rw [heq]; simp)

end Script

namespace Rendering

/-- The script that an operation leaves behind, whether it answers or faults. -/
def after {α : Type} (m : Rendering α) (s : Script) : Script :=
  match m s with
  | .ok _ t => t
  | .error _ t => t

/-- An operation on scripts that remember sorts correctly does what is said of
    it: it answers `value` if it answers at all, which takes `good`; then all
    the `names` were introduced; it introduces some of the `tuples` and changes
    nothing else but the table of sort names; and where the names were
    introduced before, it introduces nothing and answers. -/
structure Meets {α : Type} (m : Rendering α) (good : Prop) (value : α) (names : List String)
    (tuples : List Datatype) : Prop where
  grows : ∀ s, s.Consistent → (m.after s).Consistent ∧
    ∃ ds, (∀ d ∈ ds, d ∈ tuples) ∧ s.Grown ds (m.after s)
  answers : ∀ s, s.Consistent → ∀ a t, m s = .ok a t → good ∧ a = value ∧ t.Introduces names
  succeeds : ∀ s, s.Consistent → good → s.Introduces names →
    ∃ t, m s = .ok value t ∧ s.Grown [] t

theorem after_ok {α : Type} {m : Rendering α} {s t : Script} {a : α} (h : m s = .ok a t) :
    m.after s = t := by
  rw [after, h]

theorem after_error {α : Type} {m : Rendering α} {s t : Script} {e : Fault}
    (h : m s = .error e t) : m.after s = t := by
  rw [after, h]

theorem after_congr {α : Type} {m m' : Rendering α} {s : Script} (h : m s = m' s) :
    m.after s = m'.after s := by
  rw [after, h, after]

theorem bind_ok {α β : Type} {m : Rendering α} {f : α → Rendering β} {s t : Script} {a : α}
    (h : m s = .ok a t) : (m >>= f) s = f a t := by
  simp only [bind, EStateM.bind, h]

theorem bind_error {α β : Type} {m : Rendering α} {f : α → Rendering β} {s t : Script}
    {e : Fault} (h : m s = .error e t) : (m >>= f) s = .error e t := by
  simp only [bind, EStateM.bind, h]

/-- What answers after two steps answers after each of them. -/
theorem exists_of_bind_ok {α β : Type} {m : Rendering α} {f : α → Rendering β} {s t : Script}
    {b : β} (h : (m >>= f) s = .ok b t) : ∃ a u, m s = .ok a u ∧ f a u = .ok b t := by
  rcases hm : m s with ⟨a, u⟩ | ⟨e, u⟩
  · exact ⟨a, u, rfl, by rwa [bind_ok hm] at h⟩
  · rw [bind_error hm] at h
    cases h

theorem get_bind {α : Type} (f : Script → Rendering α) (s : Script) : (get >>= f) s = f s s :=
  rfl

namespace Meets

variable {α β : Type}

theorem pure (a : α) (tuples : List Datatype) :
    Meets (Pure.pure a : Rendering α) True a [] tuples where
  grows s hs := ⟨hs, [], by simp, .refl s⟩
  answers s _ b t h := by
    obtain ⟨rfl, rfl⟩ : a = b ∧ s = t := by
      simpa only [Pure.pure, EStateM.pure, EStateM.Result.ok.injEq] using h
    exact ⟨trivial, rfl, by simp [Script.Introduces]⟩
  succeeds s _ _ _ := ⟨s, rfl, .refl s⟩

theorem throw (fault : Fault) (value : α) (names : List String) (tuples : List Datatype) :
    Meets (MonadExcept.throw fault : Rendering α) False value names tuples where
  grows s hs := ⟨hs, [], by simp, .refl s⟩
  answers s _ b t h := nomatch (h : EStateM.Result.error fault s = .ok b t)
  succeeds s _ h _ := h.elim

/-- Descriptions compose. Only the value that the first operation answers has
    to be considered for the second one. -/
theorem bind {m : Rendering α} {f : α → Rendering β} {good good' : Prop} {a : α} {b : β}
    {names names' : List String} {tuples tuples' : List Datatype}
    (hm : Meets m good a names tuples) (hf : Meets (f a) good' b names' tuples') :
    Meets (m >>= f) (good ∧ good') b (names ++ names') (tuples ++ tuples') where
  grows s hs := by
    obtain ⟨hc, ds, hds, hgrown⟩ := hm.grows s hs
    -- The second operation takes place only if the first one answers.
    rcases hrun : m s with ⟨a', t⟩ | ⟨fault, t⟩
    · obtain ⟨-, rfl, -⟩ := hm.answers s hs a' t hrun
      rw [after_ok hrun] at hc hgrown
      obtain ⟨hc', es, hes, hgrown'⟩ := hf.grows t hc
      have hafter : (m >>= f).after s = (f a').after t := by
        rw [after, bind_ok hrun, after]
      rw [hafter]
      refine ⟨hc', ds ++ es, ?_, hgrown.trans hgrown'⟩
      intro d hd
      exact List.mem_append.mpr ((List.mem_append.mp hd).imp (hds d) (hes d))
    · have hafter : (m >>= f).after s = m.after s := by
        rw [after_error (bind_error hrun), after_error hrun]
      rw [hafter]
      exact ⟨hc, ds, fun d hd => List.mem_append_left _ (hds d hd), hgrown⟩
  answers s hs b' u h := by
    obtain ⟨hc, -⟩ := hm.grows s hs
    obtain ⟨a', t, hrun, h⟩ := exists_of_bind_ok h
    obtain ⟨hgood, rfl, hnames⟩ := hm.answers s hs a' t hrun
    rw [after_ok hrun] at hc
    obtain ⟨hgood', hb, hnames'⟩ := hf.answers t hc b' u h
    -- What the first one introduced is still there after the second.
    obtain ⟨-, es, -, hgrown⟩ := hf.grows t hc
    rw [after_ok h] at hgrown
    exact ⟨⟨hgood, hgood'⟩, hb,
      (Script.introduces_append u _ _).mpr ⟨hgrown.introduces hnames, hnames'⟩⟩
  succeeds s hs hgood hnames := by
    obtain ⟨hleft, hright⟩ := (Script.introduces_append s _ _).mp hnames
    obtain ⟨hc, -⟩ := hm.grows s hs
    -- Neither operation finds anything to introduce, so both succeed.
    obtain ⟨t, hrun, hgrown⟩ := hm.succeeds s hs hgood.1 hleft
    rw [after_ok hrun] at hc
    obtain ⟨u, hrun', hgrown'⟩ := hf.succeeds t hc hgood.2 (hgrown.introduces hright)
    exact ⟨u, by rw [bind_ok hrun, hrun'], by simpa using hgrown.trans hgrown'⟩

/-- A description may be put in other words, as long as it asks for the same
    names; the tuple sorts to come across may be more. -/
theorem conv {m : Rendering α} {good good' : Prop} {a a' : α} {names names' : List String}
    {tuples tuples' : List Datatype} (hm : Meets m good a names tuples) (hgood : good ↔ good')
    (ha : good → a = a') (hnames : good → names = names')
    (htuples : ∀ d ∈ tuples, d ∈ tuples') : Meets m good' a' names' tuples' where
  grows s hs := by
    obtain ⟨hc, ds, hds, hgrown⟩ := hm.grows s hs
    exact ⟨hc, ds, fun d hd => htuples d (hds d hd), hgrown⟩
  answers s hs b t h := by
    obtain ⟨h₁, h₂, h₃⟩ := hm.answers s hs b t h
    exact ⟨hgood.mp h₁, h₂.trans (ha h₁), hnames h₁ ▸ h₃⟩
  succeeds s hs h₁ h₂ := by
    have hg := hgood.mpr h₁
    rw [← ha hg]
    exact hm.succeeds s hs hg (hnames hg ▸ h₂)

/-- A pure computation is good when it does not fault. -/
theorem lift (e : Except Fault α) (value : α) (tuples : List Datatype)
    (h : ∀ a, e = .ok a → a = value) :
    Meets (Rendering.lift e) (e.toOption.isSome = true) value [] tuples := by
  cases e with
  | ok a =>
      obtain rfl := h a rfl
      exact (pure a tuples).conv (by simp [Except.toOption]) (fun _ => rfl) (fun _ => rfl)
        fun d hd => hd
  | error fault =>
      exact (throw fault value [] tuples).conv (by simp [Except.toOption]) (fun _ => rfl)
        (fun _ => rfl) fun d hd => hd

/-- An operation that continues with a fixed function of its value. -/
theorem map {m : Rendering α} {good : Prop} {a : α} {names : List String}
    {tuples : List Datatype} (hm : Meets m good a names tuples) (f : α → β) :
    Meets (m >>= fun x => Pure.pure (f x)) good (f a) names tuples :=
  (hm.bind (pure (f a) [])).conv (and_iff_left trivial) (fun _ => rfl)
    (fun _ => List.append_nil names) (by simp)

end Meets

end Rendering

open Rendering (Meets)

theorem remembered_of_found {sort : SmtSort} {render : Rendering String} {s : Script}
    {name : String} (h : s.sortName? sort = some name) :
    remembered sort render s = .ok name s := by
  rw [remembered, Rendering.get_bind, h]
  rfl

theorem remembered_of_new {sort : SmtSort} {render : Rendering String} {s : Script}
    (h : s.sortName? sort = none) :
    remembered sort render s =
      (do
        let name ← render
        modify (·.nameSort sort name)
        return name : Rendering String) s := by
  rw [remembered, Rendering.get_bind, h]

/-- A sort that is remembered need not be rendered, and a sort that is rendered
    may be remembered. -/
theorem meets_remembered {sort : SmtSort} {render : Rendering String} {tuples : List Datatype}
    (h : Meets render sort.HasName sort.writtenName sort.mentioned tuples) :
    Meets (remembered sort render) sort.HasName sort.writtenName sort.mentioned tuples := by
  -- Remembering a name takes all that the invariant asks of it.
  have hname_consistent (s t : Script) (hs : s.Consistent) (name : String)
      (hrun : render s = .ok name t) : (t.nameSort sort name).Consistent := by
    obtain ⟨hc, -⟩ := h.grows s hs
    rw [Rendering.after_ok hrun] at hc
    intro entry hentry
    rcases List.mem_append.mp hentry with hold | hlast
    · exact hc entry hold
    · obtain rfl := List.mem_singleton.mp hlast
      exact h.answers s hs name t hrun
  have hname_grown (s t : Script) (ds : List Datatype) (name : String) (hgrown : s.Grown ds t) :
      s.Grown ds (t.nameSort sort name) :=
    { hgrown with sortNames := hgrown.sortNames.trans (List.prefix_append _ _) }
  -- Each of the three parts looks the sort up first.
  refine ⟨fun s hs => ?_, fun s hs a t hrun => ?_, fun s hs hgood hnames => ?_⟩
  · cases hname : s.sortName? sort with
    | some name =>
        rw [Rendering.after_ok (remembered_of_found hname)]
        exact ⟨hs, [], by simp, .refl s⟩
    | none =>
        obtain ⟨hc, ds, hds, hgrown⟩ := h.grows s hs
        rcases hrun : render s with ⟨name, t⟩ | ⟨fault, t⟩
        · rw [Rendering.after_ok hrun] at hgrown
          rw [Rendering.after_ok ((remembered_of_new hname).trans (Rendering.bind_ok hrun))]
          exact ⟨hname_consistent s t hs name hrun, ds, hds, hname_grown s t ds name hgrown⟩
        · rw [Rendering.after_error hrun] at hc hgrown
          rw [Rendering.after_error ((remembered_of_new hname).trans (Rendering.bind_error hrun))]
          exact ⟨hc, ds, hds, hgrown⟩
  · cases hname : s.sortName? sort with
    | some name =>
        rw [remembered_of_found hname] at hrun
        obtain ⟨rfl, rfl⟩ : name = a ∧ s = t := by simpa using hrun
        exact hs.sortName? hname
    | none =>
        rw [remembered_of_new hname] at hrun
        obtain ⟨name, u, hrender, hrun⟩ := Rendering.exists_of_bind_ok hrun
        obtain ⟨rfl, rfl⟩ := EStateM.Result.ok.inj hrun
        exact h.answers s hs name u hrender
  · cases hname : s.sortName? sort with
    | some name =>
        obtain ⟨-, rfl, -⟩ := hs.sortName? hname
        exact ⟨s, remembered_of_found hname, .refl s⟩
    | none =>
        obtain ⟨t, hrender, hgrown⟩ := h.succeeds s hs hgood hnames
        exact ⟨t.nameSort sort sort.writtenName,
          (remembered_of_new hname).trans (Rendering.bind_ok hrender), hname_grown s t [] _ hgrown⟩

theorem introduceTuple_of_found {name : String} {render : Rendering String} {s : Script}
    (h : s.hasDatatype (bars name) = true) : introduceTuple name render s = .ok (bars name) s := by
  rw [introduceTuple, Rendering.get_bind, if_pos h]
  rfl

theorem introduceTuple_of_new {name : String} {render : Rendering String} {s : Script}
    (h : s.hasDatatype (bars name) = false) :
    introduceTuple name render s =
      (do
        let text ← render
        modify (·.introduce (bars name) (datatypeText name text))
        return bars name : Rendering String) s := by
  rw [introduceTuple, Rendering.get_bind, h, if_neg Bool.false_ne_true]

/-- The name of a tuple sort is known beforehand; the question is only whether
    its datatype is introduced on the way. -/
theorem meets_introduceTuple (name : String) (fields : List (String × SmtSort))
    {render : Rendering String}
    (h : Meets render (∀ field ∈ fields, field.2.HasName) (Datatype.selectors fields)
      (Datatype.mentioned ⟨name, fields⟩) (SmtSort.fieldTuples fields)) :
    Meets (introduceTuple name render) True (bars name) [name]
      (SmtSort.fieldTuples fields ++ [⟨name, fields⟩]) := by
  -- The entry that is made is the one that is looked for.
  have hintroduces (t : Script) (declaration : String) :
      (t.introduce (bars name) declaration).Introduces [name] := by
    intro other hother
    obtain rfl := List.mem_singleton.mp hother
    simp [Script.introduce, Script.hasDatatype, Script.write]
  refine ⟨fun s hs => ?_, fun s hs a t hrun => ?_, fun s hs _ hnames => ?_⟩
  · cases hin : s.hasDatatype (bars name) with
    | true =>
        rw [Rendering.after_ok (introduceTuple_of_found hin)]
        exact ⟨hs, [], by simp, .refl s⟩
    | false =>
        obtain ⟨hc, ds, hds, hgrown⟩ := h.grows s hs
        rcases hrun : render s with ⟨text, t⟩ | ⟨fault, t⟩
        · rw [Rendering.after_ok hrun] at hc hgrown
          obtain ⟨hnamed, rfl, hmentioned⟩ := h.answers s hs text t hrun
          rw [Rendering.after_ok ((introduceTuple_of_new hin).trans (Rendering.bind_ok hrun))]
          -- The datatypes of the components come first, then the new one.
          refine ⟨fun entry hentry => ?_, ds ++ [⟨name, fields⟩], ?_,
            hgrown.introduce ⟨name, fields⟩ hnamed hin hmentioned hds⟩
          · obtain ⟨h₁, h₂, h₃⟩ := hc entry hentry
            exact ⟨h₁, h₂, h₃.introduce _ _⟩
          · intro d hd
            exact List.mem_append.mpr ((List.mem_append.mp hd).imp_left (hds d))
        · rw [Rendering.after_error hrun] at hc hgrown
          rw [Rendering.after_error ((introduceTuple_of_new hin).trans (Rendering.bind_error hrun))]
          exact ⟨hc, ds, fun d hd => List.mem_append_left _ (hds d hd), hgrown⟩
  · cases hin : s.hasDatatype (bars name) with
    | true =>
        rw [introduceTuple_of_found hin] at hrun
        obtain ⟨rfl, rfl⟩ : bars name = a ∧ s = t := by simpa using hrun
        exact ⟨trivial, rfl, by simpa [Script.Introduces] using hin⟩
    | false =>
        rw [introduceTuple_of_new hin] at hrun
        obtain ⟨text, u, hrender, hrun⟩ := Rendering.exists_of_bind_ok hrun
        obtain ⟨rfl, rfl⟩ := EStateM.Result.ok.inj hrun
        exact ⟨trivial, rfl, hintroduces u _⟩
  · -- A datatype that is there already is not even rendered.
    have hin := hnames name (List.mem_singleton_self name)
    exact ⟨s, introduceTuple_of_found hin, .refl s⟩

/-- Sorts are written in their written form. -/
def SortMeets (sort : SmtSort) : Prop :=
  Meets (sortName sort) sort.HasName sort.writtenName sort.mentioned sort.tuples

theorem meets_selectorTexts (fields : List (String × SmtSort))
    (h : ∀ field ∈ fields, SortMeets field.2) :
    Meets (selectorTexts fields) (∀ field ∈ fields, field.2.HasName) (Datatype.selectors fields)
      (fields.flatMap fun field => field.2.mentioned) (SmtSort.fieldTuples fields) := by
  induction fields with
  | nil =>
      exact (Meets.pure "" []).conv (by simp) (fun _ => rfl) (fun _ => rfl) fun d hd => hd
  | cons field fields ih =>
      obtain ⟨member, component⟩ := field
      have hfirst : SortMeets component := h (member, component) List.mem_cons_self
      have hrest := ih fun field hfield => h field (List.mem_cons_of_mem _ hfield)
      refine (hfirst.bind (hrest.map (selectorText member component.writtenName ++ ·))).conv
        ?_ (fun _ => ?_) (fun _ => ?_) fun d hd => hd
      · simp
      · simp [Datatype.selectors]
      · simp

/-- What cannot be written is a fault. -/
theorem meets_throw (fault : Fault) {good : Prop} {value : String} {names : List String}
    {tuples : List Datatype} (h : ¬ good) :
    Meets (throw fault : Rendering String) good value names tuples :=
  (Meets.throw fault value names tuples).conv (by simp [h]) (fun _ => rfl) (fun _ => rfl)
    fun d hd => hd

/-- An integer is written unless it is too long. -/
theorem meets_writeInteger (n : Int) (tuples : List Datatype) :
    Meets (Rendering.lift (orFault .numeral (writeInteger n))) (IsWritable n) (decimalText n) []
      tuples := by
  by_cases h : IsWritable n
  · rw [writeInteger_of_isWritable h]
    exact (Meets.pure (decimalText n) tuples).conv (by simp [h]) (fun _ => rfl) (fun _ => rfl)
      fun d hd => hd
  · rw [writeInteger_of_not_isWritable h]
    exact meets_throw _ h

theorem meets_sortName (sort : SmtSort) : SortMeets sort := by
  induction sort with
  | missing => exact meets_throw _ id
  | bare i => exact meets_throw _ id
  | function i domain codomain _ _ => exact meets_throw _ id
  | placeholder i inner _ => exact meets_throw _ id
  | int i signed => rw [SortMeets, sortName]; exact meets_remembered (Meets.pure "Int" [])
  | bool i => rw [SortMeets, sortName]; exact meets_remembered (Meets.pure "Bool" [])
  | bitVec i width =>
      rw [SortMeets, sortName]
      exact meets_remembered ((meets_writeInteger width []).map bitVecName)
  | array i domain range hdomain hrange =>
      rw [SortMeets, sortName]
      refine meets_remembered ?_
      have hboth := hdomain.bind (f := fun d => do return arrayName d (← sortName range))
        (hrange.map (arrayName domain.writtenName ·))
      -- A missing part has no name, so the check in front asks for nothing new.
      by_cases hparts : (!domain.isMissing && !range.isMissing) = true
      · simp only [Rendering.ensure, hparts, if_true]
        exact hboth
      · have hnameless : ¬ (SmtSort.array i domain range).HasName := by
          intro hname
          cases domain <;> cases range <;>
            simp [SmtSort.HasName, SmtSort.isMissing] at hname hparts
        simp only [Rendering.ensure, hparts]
        exact meets_throw _ hnameless
  | tuple i name fields hfields =>
      rw [SortMeets, sortName]
      exact meets_remembered (meets_introduceTuple name fields (meets_selectorTexts fields hfields))

theorem meets_spacedSortNames (sorts : List SmtSort) :
    Meets (spacedSortNames sorts) (∀ sort ∈ sorts, sort.HasName) (SmtSort.writtenNames sorts)
      (sorts.flatMap SmtSort.mentioned) (SmtSort.listTuples sorts) := by
  induction sorts with
  | nil => exact (Meets.pure "" []).conv (by simp) (fun _ => rfl) (fun _ => rfl) fun d hd => hd
  | cons sort sorts ih =>
      refine ((meets_sortName sort).bind (ih.map (sort.writtenName ++ " " ++ ·))).conv
        ?_ (fun _ => ?_) (fun _ => ?_) fun d hd => hd
      · simp
      · simp [SmtSort.writtenNames]
      · simp

theorem meets_signature (sorts : List SmtSort) :
    Meets (signature sorts) (∀ sort ∈ sorts, sort.HasName)
      ("(" ++ SmtSort.writtenNames sorts ++ ")") (sorts.flatMap SmtSort.mentioned)
      (SmtSort.listTuples sorts) :=
  (meets_spacedSortNames sorts).map fun names => "(" ++ names ++ ")"

/-- Terms are written in their written form. -/
def TermMeets (t : Term) : Prop :=
  Meets (termText t) t.WellFormed t.writtenText t.mentioned (SmtSort.listTuples t.namedSorts)

theorem meets_argumentTexts (args : List Term) (h : ∀ a ∈ args, TermMeets a) :
    Meets (argumentTexts args) (Term.AllWellFormed args) (Term.writtenArgs args)
      (Term.argsMentioned args) (SmtSort.listTuples (Term.argsNamedSorts args)) := by
  induction args with
  | nil => exact Meets.pure "" []
  | cons arg args ih =>
      have harg : TermMeets arg := h arg List.mem_cons_self
      have hrest := ih fun a ha => h a (List.mem_cons_of_mem _ ha)
      rw [Term.argsNamedSorts, SmtSort.listTuples_append]
      exact harg.bind (f := fun value => do return " " ++ value ++ (← argumentTexts args))
        (hrest.map (" " ++ arg.writtenText ++ ·))

theorem meets_argumentNumber (t : Term) (tuples : List Datatype) :
    Meets (argumentNumber t) (t.number?.isSome = true) (t.number?.getD 0) [] tuples := by
  rw [argumentNumber, Term.number?]
  refine (Meets.lift (orFault .numeral (readInteger t.name)) _ tuples fun a ha => ?_).conv ?_
    (fun _ => rfl) (fun _ => rfl) fun d hd => hd
  · cases hread : readInteger t.name <;> simp_all [orFault, Except.toOption]
  · cases readInteger t.name <;> simp [orFault, Except.toOption]

theorem meets_memberAt (d : Datatype) (index : Int) (tuples : List Datatype) :
    Meets (memberAt d.fields index) ((d.member? index).isSome = true)
      ((d.member? index).getD "") [] tuples := by
  rw [memberAt, Datatype.member?]
  by_cases hneg : index < 0
  · simp only [hneg, if_true]
    exact meets_throw _ (by simp)
  · simp only [hneg, if_false]
    cases (SmtSort.members d.fields)[index.toNat]? with
    | some member =>
        exact (Meets.pure member tuples).conv (by simp) (fun _ => rfl) (fun _ => rfl)
          fun d hd => hd
    | none => exact meets_throw _ (by simp)

/-- The operand of a conversion to integers has been rendered when its width
    is asked for. -/
theorem meets_bitVecToIntText (signed : Bool) (operand : Term) (value : String)
    (tuples : List Datatype) :
    Meets (bitVecToIntText signed operand.sort value)
      (signed = true → operand.signBit?.isSome = true)
      (if signed then signedText (operand.signBit?.getD "") value else unsignedText value) []
      tuples := by
  cases signed with
  | false =>
      exact (Meets.pure (unsignedText value) tuples).conv (by simp) (fun _ => rfl) (fun _ => rfl)
        fun d hd => hd
  | true =>
      have hthrow (h : operand.sort.width? = none) :
          Meets (throw .conversionOperand : Rendering String)
            (true = true → operand.signBit?.isSome = true)
            (signedText (operand.signBit?.getD "") value) [] tuples :=
        meets_throw _ (by simp [Term.signBit?, h])
      rw [bitVecToIntText.eq_def, if_pos rfl, if_pos rfl]
      cases hsort : operand.sort with
      | bitVec i width =>
          have hbit : operand.signBit? = (writeInteger (width - 1)).toOption := by
            simp [Term.signBit?, hsort, SmtSort.width?]
          rw [hbit]
          refine ((meets_writeInteger (width - 1) tuples).map (signedText · value)).conv ?_ ?_
            (fun _ => rfl) fun d hd => hd
          · by_cases h : IsWritable (width - 1)
            · simp [writeInteger_of_isWritable h, h, Except.toOption]
            · simp [writeInteger_of_not_isWritable h, h, Except.toOption]
          · intro h
            rw [writeInteger_of_isWritable h]
            rfl
      | _ => exact hthrow (by rw [hsort]; rfl)

/-- An application is written after its arguments. -/
theorem meets_application (head : String) (first : Term) (others : List Term)
    (hfirst : TermMeets first) (hothers : ∀ a ∈ others, TermMeets a) :
    Meets
      (do
        let value ← termText first
        let values ← argumentTexts others
        return applicationText head (" " ++ value ++ values))
      (first.WellFormed ∧ Term.AllWellFormed others)
      (applicationText head (" " ++ first.writtenText ++ Term.writtenArgs others))
      (first.mentioned ++ Term.argsMentioned others)
      (SmtSort.listTuples (first.namedSorts ++ Term.argsNamedSorts others)) := by
  rw [SmtSort.listTuples_append]
  exact hfirst.bind
    (f := fun value => do
      return applicationText head (" " ++ value ++ (← argumentTexts others)))
    ((meets_argumentTexts others hothers).map fun values =>
      applicationText head (" " ++ first.writtenText ++ values))

/-- Reading the index comes first, so that a tuple is not rendered in vain. -/
theorem meets_tupleGet (first index : Term) (hfirst : TermMeets first) :
    Meets
      (match first.sort with
        | .tuple _ _ fields => do
          let i ← argumentNumber index
          let member ← memberAt fields i
          let value ← termText first
          return applicationText (bars member) (" " ++ value)
        | _ => throw .selectionOperand)
      ((Term.selected? first index).isSome = true ∧ first.WellFormed)
      (applicationText (bars ((Term.selected? first index).getD "")) (" " ++ first.writtenText))
      first.mentioned (SmtSort.listTuples first.namedSorts) := by
  rw [Term.selected?]
  cases first.sort with
  | tuple j name fields =>
      have hmember (n : Int) := (meets_memberAt ⟨name, fields⟩ n []).bind
        (f := fun member => do
          return applicationText (bars member) (" " ++ (← termText first)))
        (hfirst.map fun value => applicationText (bars _) (" " ++ value))
      refine ((meets_argumentNumber index []).bind (hmember (index.number?.getD 0))).conv
        ?_ (fun h => ?_) (fun _ => rfl) fun d hd => hd
      · cases index.number? <;> simp [SmtSort.datatype?]
      · obtain ⟨n, hn⟩ := Option.isSome_iff_exists.mp h.1
        rw [hn]
        rfl
  | _ => exact meets_throw _ (by simp [SmtSort.datatype?])

/-- Only here a term names a sort, and only here it can introduce datatypes. -/
theorem meets_constArray (first fill : Term) (hfill : TermMeets fill) :
    Meets
      (match first.sort with
        | .placeholder _ (.array i domain range) => do
          let arraySort ← sortName (.array i domain range)
          let value ← termText fill
          return constArrayText arraySort value
        | .placeholder _ _ => throw .noArraySort
        | _ => throw .noPlaceholder)
      ((∃ a ∈ first.sort.heldArray?, a.HasName) ∧ fill.WellFormed)
      (constArrayText ((first.sort.heldArray?.map SmtSort.writtenName).getD "") fill.writtenText)
      ((first.sort.heldArray?.map SmtSort.mentioned).getD [] ++ fill.mentioned)
      (SmtSort.listTuples (first.sort.heldArray?.toList ++ fill.namedSorts)) := by
  cases first.sort with
  | placeholder j inner =>
      cases inner with
      | array i domain range =>
          exact ((meets_sortName (.array i domain range)).bind
            (f := fun a => do return constArrayText a (← termText fill))
            (hfill.map fun value => constArrayText _ value)).conv
            (by simp [SmtSort.heldArray?]) (fun _ => rfl) (fun _ => rfl) fun d hd => hd
      | _ => exact meets_throw _ (by simp [SmtSort.heldArray?])
  | _ => exact meets_throw _ (by simp [SmtSort.heldArray?])

theorem meets_termText (t : Term) : TermMeets t := by
  induction t with
  | node name args sort ih =>
      cases args with
      | nil => exact (Meets.pure name []).conv .rfl (fun _ => rfl) (fun _ => rfl) fun d hd => hd
      | cons first others =>
          have hfirst : TermMeets first := ih first List.mem_cons_self
          have happly (head : String) := meets_application head first others hfirst
            fun a ha => ih a (List.mem_cons_of_mem _ ha)
          -- All five descriptions split on the operator in the same way.
          unfold TermMeets
          rw [termText.eq_def, Term.WellFormed.eq_def, Term.writtenText.eq_def,
            Term.mentioned.eq_def, Term.namedSorts.eq_def]
          dsimp only
          cases Operator.ofName name with
          | symbol => exact (happly name).conv .rfl (fun _ => rfl) (fun _ => rfl) fun d hd => hd
          | tupleMake =>
              cases sort with
              | tuple i tupleName fields =>
                  exact (happly (bars tupleName)).conv (by simp [SmtSort.datatype?])
                    (fun _ => rfl) (fun _ => rfl) fun d hd => hd
              | _ => exact meets_throw .noTupleSort (by simp [SmtSort.datatype?])
          | intToBitVec =>
              rcases others with _ | ⟨width, _ | ⟨_, _⟩⟩
              · exact meets_throw _ id
              · -- The width is read first; it never introduces anything.
                have hvalue := hfirst.map (intToBitVecText (width.number?.getD 0) ·)
                exact ((meets_argumentNumber width []).bind (f := fun w => do
                  return intToBitVecText w (← termText first)) hvalue).conv .rfl (fun _ => rfl)
                  (fun _ => rfl) fun d hd => hd
              · exact meets_throw _ id
          | bitVecToInt =>
              rcases others with _ | ⟨_, _⟩
              · cases sort with
                | int i signed =>
                    exact (hfirst.bind (meets_bitVecToIntText signed first first.writtenText
                      [])).conv (by simp [SmtSort.IsInt, SmtSort.isSigned]) (fun _ => rfl)
                      (fun _ => List.append_nil _) (by simp)
                | _ => exact meets_throw _ fun h => h.1
              · exact meets_throw _ id
          | constArray =>
              rcases others with _ | ⟨fill, _ | ⟨_, _⟩⟩
              · exact meets_throw _ id
              · exact meets_constArray first fill (ih fill (by simp))
              · exact meets_throw _ id
          | tupleGet =>
              rcases others with _ | ⟨index, _ | ⟨_, _⟩⟩
              · exact meets_throw _ id
              · exact meets_tupleGet first index hfirst
              · exact meets_throw _ id

theorem meets_bindingTexts (position : Nat) (terms : List Term) :
    Meets (bindingTexts position terms) (∀ t ∈ terms, t.Evaluable)
      (Term.writtenBindings position terms) (Term.argsMentioned terms)
      (SmtSort.listTuples (Term.argsNamedSorts terms)) := by
  induction terms generalizing position with
  | nil => exact (Meets.pure "" []).conv (by simp) (fun _ => rfl) (fun _ => rfl) fun d hd => hd
  | cons t ts ih =>
      have hsort := Meets.lift (evaluationSort t.sort) ((evaluationSort t.sort).toOption.getD "")
        [] fun a ha => by rw [ha]; rfl
      have hrest := (meets_termText t).bind
        (f := fun text => do
          return bindingText position ((evaluationSort t.sort).toOption.getD "") text
            ++ (← bindingTexts (position + 1) ts))
        ((ih (position + 1)).map (bindingText position _ t.writtenText ++ ·))
      rw [Term.argsNamedSorts, SmtSort.listTuples_append]
      exact (hsort.bind (f := fun sort => do
        let text ← termText t
        return bindingText position sort text ++ (← bindingTexts (position + 1) ts)) hrest).conv
        (by simp [Term.Evaluable, and_assoc]) (fun _ => rfl) (fun _ => rfl) fun d hd => hd

theorem meets_queryTail (terms : List Term) :
    Meets (queryTail terms) (∀ t ∈ terms, t.Evaluable) (Term.writtenTail terms)
      (Term.argsMentioned terms) (SmtSort.listTuples (Term.argsNamedSorts terms)) := by
  rw [queryTail, Term.writtenTail]
  cases terms with
  | nil =>
      exact (Meets.pure "(check-sat)\n" []).conv (by simp) (fun _ => rfl) (fun _ => rfl)
        fun d hd => hd
  | cons t ts =>
      exact (meets_bindingTexts 0 (t :: ts)).map fun bindings =>
        bindings ++ "(check-sat)\n(get-value (" ++ evaluationNames (List.range (t :: ts).length)
          ++ "))\n"

/-- A query is the script as it was, followed by the tail. -/
theorem query_eq (terms : List Term) (s : Script) :
    query terms s =
      match queryTail terms s with
      | .ok tail t => .ok (s.text ++ tail) t
      | .error fault t => .error fault t := by
  rw [query, Rendering.get_bind]
  rcases htail : queryTail terms s with ⟨tail, t⟩ | ⟨fault, t⟩
  · exact Rendering.bind_ok htail
  · exact Rendering.bind_error htail

end SmtSession
