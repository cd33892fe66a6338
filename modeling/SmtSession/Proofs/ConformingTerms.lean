import SmtSession.Proofs.Script.Conversion
import SmtSession.Proofs.SortNames

/-!
# Conforming Terms

Which terms have a text, and what the others are refused for. The rendering of
a term asks for something at every node with arguments: how many there are, the
sort of the node or of its first argument, a number in the name of the second.
`Term.Conforms` is all of that and no more. Whether an argument is rendered at
all depends on the operator. The width of a conversion, the index of a selection
and the leaf that stands for an array sort are read, not rendered, so nothing is
asked of their own arguments.

The state plays no part, as long as the sorts of constant arrays are complete:
an incomplete one is refused the first time, but an incomplete component of a
tuple sort only if no datatype of that name was introduced before.

A fault says that a caller broke a rule of the operators, with one exception: a
numeral that cannot be read, or the position of a sign bit that cannot be
written. Numerals have at most `digitLimit` digits, and so has every width that
was read; but the sign bit stands one position below the width, which takes one
more digit for the least width of all.

## Main definitions

* `Term.Conforms`: Every node of a term has what its operator asks for.
* `Term.PlaceholdersComplete`: The sorts of all constant arrays are complete.
* `Term.Misnumbered`: A number in a term that is not read or not written.
* `Rendering.FaultsOnly`: What the faults of an operation are like.

## Theorems

* `Term.conforms_of_wellFormed`: What has a written form conforms.
* `total_termText`: A conforming term is always rendered.
* `faultsOnly_termText`: What a term is refused for.
* `Session.renders_iff_conforms`: Exactly the conforming terms are rendered.
* `Session.sign_bit_not_rendered`: The sign bit does matter.
-/

namespace SmtSession

namespace Term

/-- Every node of a term has what its operator asks for: the arguments, the
    sorts, and the numbers. What the position of a sign bit has to satisfy is a
    parameter. -/
inductive Conforms (position : Int → Prop) : Term → Prop where
  | leaf (name : String) (sort : SmtSort) : Conforms position ⟨name, [], sort⟩
  | intToBitVec (name : String) (value width : Term) (sort : SmtSort) (w : Int)
      (hname : Operator.ofName name = .intToBitVec) (hvalue : Conforms position value)
      (hwidth : readInteger width.name = .ok w) :
      Conforms position ⟨name, [value, width], sort⟩
  | bitVecToInt (name : String) (value : Term) (i : Nat) (isSigned : Bool)
      (hname : Operator.ofName name = .bitVecToInt) (hvalue : Conforms position value)
      (hsigned : isSigned = true → ∃ j w, value.sort = .bitVec j w ∧ position (w - 1)) :
      Conforms position ⟨name, [value], .int i isSigned⟩
  | constArray (name : String) (holder fill : Term) (sort : SmtSort) (i j : Nat)
      (domain range : SmtSort) (hname : Operator.ofName name = .constArray)
      (hholder : holder.sort = .placeholder i (.array j domain range))
      (hfill : Conforms position fill) : Conforms position ⟨name, [holder, fill], sort⟩
  | tupleGet (name : String) (tuple index : Term) (sort : SmtSort) (i : Nat)
      (tupleName : String) (fields : List (String × SmtSort)) (n : Nat)
      (hname : Operator.ofName name = .tupleGet) (htuple : Conforms position tuple)
      (hsort : tuple.sort = .tuple i tupleName fields)
      (hindex : readInteger index.name = .ok n) (hn : n < fields.length) :
      Conforms position ⟨name, [tuple, index], sort⟩
  | tupleMake (name : String) (args : List Term) (i : Nat) (tupleName : String)
      (fields : List (String × SmtSort)) (hname : Operator.ofName name = .tupleMake)
      (hargs : ∀ a ∈ args, Conforms position a) :
      Conforms position ⟨name, args, .tuple i tupleName fields⟩
  | symbol (name : String) (args : List Term) (sort : SmtSort)
      (hname : Operator.ofName name = .symbol) (hargs : ∀ a ∈ args, Conforms position a) :
      Conforms position ⟨name, args, sort⟩

/-- The sorts that the leaves of constant arrays stand for are complete. -/
inductive PlaceholdersComplete : Term → Prop where
  | node (name : String) (args : List Term) (sort : SmtSort)
      (own : Operator.ofName name = .constArray → ∀ holder ∈ args.head?, ∀ i inner,
        holder.sort = .placeholder i inner → inner.IsComplete)
      (parts : ∀ a ∈ args, PlaceholdersComplete a) : PlaceholdersComplete ⟨name, args, sort⟩

theorem PlaceholdersComplete.of_ne {name : String} {args : List Term} {sort : SmtSort}
    (hname : Operator.ofName name ≠ .constArray) (hargs : ∀ a ∈ args, a.PlaceholdersComplete) :
    PlaceholdersComplete ⟨name, args, sort⟩ :=
  .node name args sort (fun h => absurd h hname) hargs

theorem PlaceholdersComplete.leaf (name : String) (sort : SmtSort) :
    PlaceholdersComplete ⟨name, [], sort⟩ :=
  .node name [] sort (fun _ _ h => by cases h) (fun _ h => by cases h)

/-- A width or an index in a term is not read, or the position of a sign bit is
    not written, for some cause. -/
inductive Misnumbered (cause : NumeralFault) : Term → Prop where
  | width (name : String) (value width : Term) (sort : SmtSort)
      (hname : Operator.ofName name = .intToBitVec)
      (h : readInteger width.name = .error cause) : Misnumbered cause ⟨name, [value, width], sort⟩
  | index (name : String) (tuple index : Term) (sort : SmtSort)
      (hname : Operator.ofName name = .tupleGet)
      (h : readInteger index.name = .error cause) : Misnumbered cause ⟨name, [tuple, index], sort⟩
  | signBit (name : String) (value : Term) (i j : Nat) (w : Int)
      (hname : Operator.ofName name = .bitVecToInt) (hvalue : value.sort = .bitVec j w)
      (h : writeInteger (w - 1) = .error cause) : Misnumbered cause ⟨name, [value], .int i true⟩
  | part (name : String) (args : List Term) (sort : SmtSort) (a : Term) (ha : a ∈ args)
      (h : Misnumbered cause a) : Misnumbered cause ⟨name, args, sort⟩

/-- What a term can be refused for: a broken rule of an operator, or one of its
    numbers. -/
def Blames (t : Term) (fault : Fault) : Prop :=
  fault.kind = .contract ∨ ∃ cause, fault = .numeral cause ∧ t.Misnumbered cause

theorem Blames.part {name : String} {args : List Term} {sort : SmtSort} {a : Term} (ha : a ∈ args)
    {fault : Fault} (h : a.Blames fault) : (⟨name, args, sort⟩ : Term).Blames fault := by
  rcases h with h | ⟨cause, hfault, h⟩
  · exact .inl h
  · exact .inr ⟨cause, hfault, .part name args sort a ha h⟩

theorem exists_of_number? {t : Term} (h : t.number?.isSome = true) :
    ∃ n, readInteger t.name = .ok n := by
  rw [number?] at h
  cases hread : readInteger t.name with
  | ok n => exact ⟨n, rfl⟩
  | error cause =>
      rw [hread] at h
      cases h

theorem exists_of_signBit? {t : Term} (h : t.signBit?.isSome = true) :
    ∃ i w, t.sort = .bitVec i w ∧ IsWritable (w - 1) := by
  rw [signBit?] at h
  cases hsort : t.sort with
  | bitVec i w =>
      rw [hsort] at h
      cases hwrite : writeInteger (w - 1) with
      | ok text => exact ⟨i, w, rfl, ((writeInteger_eq_ok_iff _ _).mp hwrite).1⟩
      | error cause =>
          simp only [SmtSort.width?, Option.bind_some, hwrite] at h
          cases h
  | _ => rw [hsort] at h; cases h

theorem exists_of_heldArray? {sort held : SmtSort} (h : held ∈ sort.heldArray?) :
    ∃ i j domain range, sort = .placeholder i (.array j domain range) := by
  unfold SmtSort.heldArray? at h
  split at h
  · exact ⟨_, _, _, _, rfl⟩
  · cases h

theorem exists_of_datatype? {sort : SmtSort} (h : sort.datatype?.isSome = true) :
    ∃ i name fields, sort = .tuple i name fields := by
  unfold SmtSort.datatype? at h
  split at h
  · exact ⟨_, _, _, rfl⟩
  · cases h

theorem exists_of_selected? {tuple index : Term} (h : (selected? tuple index).isSome = true) :
    ∃ i name fields, tuple.sort = .tuple i name fields ∧
      ∃ n : Nat, readInteger index.name = .ok n ∧ n < fields.length := by
  rw [selected?, Option.isSome_iff_exists] at h
  rcases h with ⟨member, h⟩
  rcases Option.bind_eq_some_iff.mp h with ⟨d, hd, h⟩
  rcases Option.bind_eq_some_iff.mp h with ⟨k, hk, h⟩
  rcases exists_of_datatype? (Option.isSome_of_mem hd) with ⟨i, name, fields, hsort⟩
  rcases exists_of_number? (Option.isSome_of_mem hk) with ⟨n, hn⟩
  rw [hsort] at hd
  rw [number?, hn] at hk
  cases hd
  cases hk
  rw [Datatype.member?] at h
  split at h
  · cases h
  · next hneg =>
    rcases List.getElem?_eq_some_iff.mp h with ⟨hlt, -⟩
    refine ⟨i, name, fields, hsort, k.toNat, ?_, by simpa [SmtSort.members] using hlt⟩
    rw [hn, Int.toNat_of_nonneg (Int.not_lt.mp hneg)]

theorem allWellFormed_iff {terms : List Term} :
    AllWellFormed terms ↔ ∀ t ∈ terms, t.WellFormed := by
  induction terms with
  | nil => simp [AllWellFormed]
  | cons t terms ih => simp [AllWellFormed, ih]

/-- A term that has a written form conforms. That its array sorts have names is
    more than conforming asks for. -/
theorem conforms_of_wellFormed (t : Term) (h : t.WellFormed) : t.Conforms IsWritable := by
  induction t with
  | node name args sort ih =>
      rcases args with _ | ⟨first, others⟩
      · exact .leaf name sort
      have hall (hfirst : first.WellFormed) (hothers : AllWellFormed others) :
          ∀ a ∈ first :: others, a.Conforms IsWritable := by
        intro a ha
        refine ih a ha ?_
        rcases List.mem_cons.mp ha with rfl | ha
        · exact hfirst
        · exact allWellFormed_iff.mp hothers a ha
      have hfirst (h : first.WellFormed) := ih first List.mem_cons_self h
      rw [WellFormed.eq_def] at h
      dsimp only at h
      split at h
      · next width hname =>
        rcases exists_of_number? h.1 with ⟨w, hw⟩
        exact .intToBitVec name first width sort w hname (hfirst h.2) hw
      · next hname =>
        rcases h with ⟨hint, hvalue, hsigned⟩
        cases sort with
        | int i isSigned =>
            exact .bitVecToInt name first i isSigned hname (hfirst hvalue)
              fun h => exists_of_signBit? (hsigned h)
        | _ => exact hint.elim
      · next fill hname =>
        rcases h with ⟨⟨held, hheld, -⟩, hfill⟩
        rcases exists_of_heldArray? hheld with ⟨i, j, domain, range, hsort⟩
        exact .constArray name first fill sort i j domain range hname hsort
          (ih fill (by simp) hfill)
      · next index hname =>
        rcases exists_of_selected? h.1 with ⟨i, tupleName, fields, hsort, n, hn, hlt⟩
        exact .tupleGet name first index sort i tupleName fields n hname (hfirst h.2) hsort hn hlt
      · next hname =>
        rcases exists_of_datatype? h.1 with ⟨i, tupleName, fields, rfl⟩
        exact .tupleMake name _ i tupleName fields hname (hall h.2.1 h.2.2)
      · next hname => exact .symbol name _ sort hname (hall h.1 h.2)
      · exact h.elim

end Term

namespace Rendering

variable {α β : Type}

/-- All faults of an operation, in every state, are of some kind. -/
def FaultsOnly (kind : Fault → Prop) (m : Rendering α) : Prop :=
  ∀ s fault t, m s = .error fault t → kind fault

theorem FaultsOnly.throw {kind : Fault → Prop} {fault : Fault} (h : kind fault) :
    FaultsOnly kind (throw fault : Rendering α) := by
  rintro s fault t ⟨⟩
  exact h

theorem FaultsOnly.bind {kind : Fault → Prop} {m : Rendering α} {f : α → Rendering β}
    (hm : FaultsOnly kind m) (hf : ∀ a, FaultsOnly kind (f a)) : FaultsOnly kind (m >>= f) := by
  intro s fault t h
  rcases hrun : m s with ⟨a, u⟩ | ⟨cause, u⟩
  · rw [bind_ok hrun] at h
    exact hf a u fault t h
  · rw [bind_error hrun] at h
    cases h
    exact hm s fault t hrun

theorem FaultsOnly.mono {kind kind' : Fault → Prop} {m : Rendering α} (h : FaultsOnly kind m)
    (hkind : ∀ fault, kind fault → kind' fault) : FaultsOnly kind' m :=
  fun s fault t hrun => hkind fault (h s fault t hrun)

theorem Total.faultsOnly {kind : Fault → Prop} {m : Rendering α} (h : m.Total) :
    FaultsOnly kind m := by
  intro s fault t hrun
  rcases h s with ⟨a, u, hok⟩
  rw [hok] at hrun
  cases hrun

theorem FaultsOnly.lift {kind : Fault → Prop} {result : Except Fault α}
    (h : ∀ fault, result = .error fault → kind fault) :
    FaultsOnly kind (Rendering.lift result) := by
  cases result with
  | ok a => exact (Total.pure a).faultsOnly
  | error fault => exact .throw (h fault rfl)

end Rendering

open Rendering (Total FaultsOnly)

/-! ## Conforming Terms Are Rendered -/

theorem total_argumentTexts (args : List Term) (h : ∀ a ∈ args, (termText a).Total) :
    (argumentTexts args).Total := by
  induction args with
  | nil =>
      rw [argumentTexts]
      exact .pure ""
  | cons a args ih =>
      rw [argumentTexts]
      exact (h a List.mem_cons_self).bind fun value =>
        (ih fun b hb => h b (List.mem_cons_of_mem a hb)).bind fun values => .pure _

theorem argumentNumber_of_read {t : Term} {n : Int} (h : readInteger t.name = .ok n) :
    argumentNumber t = pure n := by
  rw [argumentNumber, h]
  rfl

theorem memberAt_of_lt {fields : List (String × SmtSort)} {n : Nat} (h : n < fields.length) :
    ∃ member, memberAt fields n = pure member := by
  have hmember : n < (SmtSort.members fields).length := by simpa [SmtSort.members] using h
  refine ⟨(SmtSort.members fields)[n], ?_⟩
  rw [memberAt, if_neg (Int.not_lt.mpr (Int.natCast_nonneg n)), Int.toNat_natCast,
    List.getElem?_eq_getElem hmember]

theorem total_bitVecToIntText {isSigned : Bool} {sort : SmtSort} (value : String)
    (h : isSigned = true → ∃ i w, sort = .bitVec i w ∧ IsWritable (w - 1)) :
    (bitVecToIntText isSigned sort value).Total := by
  cases isSigned with
  | false => exact .pure _
  | true =>
      rcases h rfl with ⟨i, w, rfl, hposition⟩
      have hwrite := (writeInteger_eq_ok_iff (w - 1) _).mpr ⟨hposition, rfl⟩
      simp only [bitVecToIntText, if_true, hwrite]
      exact Total.bind (.pure _) fun top => .pure _

theorem total_application (head : String) (first : Term) (others : List Term)
    (h : ∀ a ∈ first :: others, (termText a).Total) :
    Total (do
      let value ← termText first
      let values ← argumentTexts others
      return applicationText head (" " ++ value ++ values)) :=
  (h first List.mem_cons_self).bind fun _ =>
    (total_argumentTexts others fun a ha => h a (List.mem_cons_of_mem first ha)).bind fun _ =>
      .pure _

/-- A conforming term is rendered in every state. -/
theorem total_termText (t : Term) (hcomplete : t.PlaceholdersComplete)
    (h : t.Conforms IsWritable) : (termText t).Total := by
  induction t with
  | node name args sort ih =>
      rcases hcomplete with ⟨_, _, _, hown, hparts⟩
      have hpart (a : Term) (ha : a ∈ args) (h : a.Conforms IsWritable) :
          (termText a).Total := ih a ha (hparts a ha) h
      cases h with
      | leaf =>
          rw [termText]
          exact .pure name
      | intToBitVec _ value width _ w hname hvalue hwidth =>
          rw [termText.eq_def]
          simp only [hname, argumentNumber_of_read hwidth]
          exact Total.bind (.pure w) fun w => (hpart value (by simp) hvalue).bind fun _ => .pure _
      | bitVecToInt _ value i isSigned hname hvalue hsigned =>
          rw [termText.eq_def]
          simp only [hname]
          exact (hpart value (by simp) hvalue).bind fun text => total_bitVecToIntText text hsigned
      | constArray _ holder fill _ i j domain range hname hholder hfill =>
          have hsort : (SmtSort.array j domain range).IsComplete :=
            hown hname holder rfl i _ hholder
          rw [termText.eq_def]
          simp only [hname, hholder]
          exact (total_sortName _ hsort).bind fun _ =>
            (hpart fill (by simp) hfill).bind fun _ => .pure _
      | tupleGet _ tuple index _ i tupleName fields n hname htuple hsort hindex hn =>
          rw [termText.eq_def]
          rcases memberAt_of_lt hn with ⟨member, hmember⟩
          simp only [hname, hsort, argumentNumber_of_read hindex, pure_bind, hmember]
          exact (hpart tuple (by simp) htuple).bind fun _ => .pure _
      | tupleMake _ _ i tupleName fields hname hargs =>
          rcases args with _ | ⟨first, others⟩
          · rw [termText]
            exact .pure name
          · rw [termText.eq_def]
            simp only [hname]
            exact total_application _ first others fun a ha => hpart a ha (hargs a ha)
      | symbol _ _ _ hname hargs =>
          rcases args with _ | ⟨first, others⟩
          · rw [termText]
            exact .pure name
          · rw [termText.eq_def]
            simp only [hname]
            exact total_application _ first others fun a ha => hpart a ha (hargs a ha)

/-! ## What Terms Are Refused For -/

theorem faultsOnly_argumentTexts {kind : Fault → Prop} (args : List Term)
    (h : ∀ a ∈ args, FaultsOnly kind (termText a)) : FaultsOnly kind (argumentTexts args) := by
  induction args with
  | nil =>
      rw [argumentTexts]
      exact (Total.pure "").faultsOnly
  | cons a args ih =>
      rw [argumentTexts]
      exact (h a List.mem_cons_self).bind fun value =>
        (ih fun b hb => h b (List.mem_cons_of_mem a hb)).bind fun values =>
          (Total.pure _).faultsOnly

theorem exists_of_orFault {α : Type} {result : Except NumeralFault α} {fault : Fault}
    (h : orFault .numeral result = .error fault) :
    ∃ cause, result = .error cause ∧ fault = .numeral cause := by
  cases result with
  | ok a => cases h
  | error cause =>
      cases h
      exact ⟨cause, rfl, rfl⟩

theorem faultsOnly_argumentNumber {kind : Fault → Prop} (t : Term)
    (h : ∀ cause, readInteger t.name = .error cause → kind (.numeral cause)) :
    FaultsOnly kind (argumentNumber t) := by
  refine .lift fun fault hfault => ?_
  rcases exists_of_orFault hfault with ⟨cause, hread, rfl⟩
  exact h cause hread

theorem faultsOnly_memberAt (fields : List (String × SmtSort)) (index : Int) :
    FaultsOnly (fun fault => fault.kind = .contract) (memberAt fields index) := by
  rw [memberAt]
  split
  · exact .throw rfl
  split
  · exact (Total.pure _).faultsOnly
  · exact .throw rfl

theorem faultsOnly_bitVecToIntText {kind : Fault → Prop} (isSigned : Bool) (sort : SmtSort)
    (value : String) (hcontract : ∀ fault, fault.kind = .contract → kind fault)
    (h : ∀ i w cause, isSigned = true → sort = .bitVec i w →
      writeInteger (w - 1) = .error cause → kind (.numeral cause)) :
    FaultsOnly kind (bitVecToIntText isSigned sort value) := by
  cases isSigned with
  | false => exact (Total.pure _).faultsOnly
  | true =>
      rw [bitVecToIntText.eq_def, if_pos rfl]
      split
      · next i w =>
        refine FaultsOnly.bind (.lift fun fault hfault => ?_) fun top => (Total.pure _).faultsOnly
        rcases exists_of_orFault hfault with ⟨cause, hwrite, rfl⟩
        exact h i w cause rfl rfl hwrite
      · exact .throw (hcontract _ rfl)

theorem faultsOnly_application {kind : Fault → Prop} (head : String) (first : Term)
    (others : List Term) (h : ∀ a ∈ first :: others, FaultsOnly kind (termText a)) :
    FaultsOnly kind (do
      let value ← termText first
      let values ← argumentTexts others
      return applicationText head (" " ++ value ++ values)) :=
  (h first List.mem_cons_self).bind fun _ =>
    (faultsOnly_argumentTexts others fun a ha => h a (List.mem_cons_of_mem first ha)).bind fun _ =>
      (Total.pure _).faultsOnly

/-- A term is refused for a broken rule or for one of its numbers. -/
theorem faultsOnly_termText (t : Term) (hcomplete : t.PlaceholdersComplete) :
    FaultsOnly t.Blames (termText t) := by
  induction t with
  | node name args sort ih =>
      rcases hcomplete with ⟨_, _, _, hown, hparts⟩
      have hpart (a : Term) (ha : a ∈ args) :
          FaultsOnly (⟨name, args, sort⟩ : Term).Blames (termText a) :=
        (ih a ha (hparts a ha)).mono fun fault h => h.part ha
      -- What is thrown by the checks of an operator is a broken rule.
      have hthrow (fault : Fault) (h : fault.kind = .contract) :
          FaultsOnly (⟨name, args, sort⟩ : Term).Blames (throw fault : Rendering String) :=
        .throw (.inl h)
      rcases args with _ | ⟨first, others⟩
      · rw [termText]
        exact (Total.pure name).faultsOnly
      have hfirst := hpart first List.mem_cons_self
      rw [termText.eq_def]
      dsimp only
      cases hname : Operator.ofName name with
      | symbol => exact faultsOnly_application name first others hpart
      | tupleMake =>
          cases sort with
          | tuple i tupleName fields => exact faultsOnly_application _ first others hpart
          | _ => exact hthrow _ rfl
      | intToBitVec =>
          rcases others with _ | ⟨width, _ | ⟨_, _⟩⟩
          · exact hthrow _ rfl
          · refine FaultsOnly.bind (faultsOnly_argumentNumber width fun cause h => ?_) fun w =>
              hfirst.bind fun _ => (Total.pure _).faultsOnly
            exact .inr ⟨cause, rfl, .width name first width sort hname h⟩
          · exact hthrow _ rfl
      | bitVecToInt =>
          rcases others with _ | ⟨_, _⟩
          · cases sort with
            | int i isSigned =>
                refine hfirst.bind fun value => faultsOnly_bitVecToIntText isSigned first.sort value
                  (fun fault h => .inl h) ?_
                rintro j w cause rfl hsort h
                exact .inr ⟨cause, rfl, .signBit name first i j w hname hsort h⟩
            | _ => exact hthrow _ rfl
          · exact hthrow _ rfl
      | constArray =>
          rcases others with _ | ⟨fill, _ | ⟨_, _⟩⟩
          · exact hthrow _ rfl
          · dsimp only
            split
            · next i j domain range hholder =>
              have hsort : (SmtSort.array j domain range).IsComplete :=
                hown hname first rfl i _ hholder
              exact (total_sortName _ hsort).faultsOnly.bind fun _ =>
                (hpart fill (by simp)).bind fun _ => (Total.pure _).faultsOnly
            · exact hthrow _ rfl
            · exact hthrow _ rfl
          · exact hthrow _ rfl
      | tupleGet =>
          rcases others with _ | ⟨index, _ | ⟨_, _⟩⟩
          · exact hthrow _ rfl
          · dsimp only
            split
            · refine FaultsOnly.bind (faultsOnly_argumentNumber index fun cause h => ?_) fun n =>
                ((faultsOnly_memberAt _ n).mono fun fault h => .inl h).bind fun _ =>
                  hfirst.bind fun _ => (Total.pure _).faultsOnly
              exact .inr ⟨cause, rfl, .index name first index sort hname h⟩
            · exact hthrow _ rfl
          · exact hthrow _ rfl

namespace Session

variable {σ : Type}

/-- Exactly the conforming terms are rendered, in every session and at any time,
    if the sorts of constant arrays are complete. A term that is not rendered is
    refused because a caller broke a rule, or for a width or an index that is
    not read, or for the position of a sign bit that is not written. -/
theorem renders_iff_conforms (timeout : Option WritableInt) (backends : List String) (world : σ)
    (ops : List (Operation σ)) (t : Term) (hcomplete : t.PlaceholdersComplete) :
    let now := afterAll ops ⟨.start timeout backends, world⟩
    ((∃ text s, onScript (termText t) now.session = .ok text s) ↔
      t.Conforms IsWritable) ∧
    ∀ fault s, onScript (termText t) now.session = .error fault s →
      fault.kind = .contract ∨
        fault.kind = .value ∧ ∃ cause, fault = .numeral cause ∧ t.Misnumbered cause := by
  intro now
  have hnow : now.session.script.Consistent := consistent_afterAll timeout backends world ops
  refine ⟨⟨?_, ?_⟩, ?_⟩
  · rintro ⟨text, s, h⟩
    rcases onScript_eq_ok_iff.mp h with ⟨g, hrun, -⟩
    exact t.conforms_of_wellFormed ((meets_termText t).answers _ hnow text g hrun).1
  · intro h
    rcases total_termText t hcomplete h now.session.script with ⟨text, g, hrun⟩
    exact ⟨text, _, onScript_eq_ok_iff.mpr ⟨g, hrun, rfl⟩⟩
  · intro fault s h
    rcases onScript_eq_error_iff.mp h with ⟨g, hrun, -⟩
    rcases faultsOnly_termText t hcomplete _ _ _ hrun with hkind | ⟨cause, rfl, hcause⟩
    · exact .inl hkind
    · exact .inr ⟨rfl, cause, rfl, hcause⟩

/-- A component of a tuple in an array that holds the same tuple everywhere. -/
theorem renders_iff_conforms_component :
    let pair : SmtSort := .tuple 3 "pair" [("x", .sharedInt), ("y", .sharedBool)]
    let everywhere := Term.constArray 5 (.array 4 .sharedInt pair)
      (Term.tupleMake pair [Term.literal (.int 7) .sharedInt, Term.symbol "p" .sharedBool])
    let t := Term.tupleGet ⟨"select", [everywhere, Term.symbol "i" .sharedInt], pair⟩ 1
    let now := afterAll [.onScript .openScope] ⟨start none [], ()⟩
    t.PlaceholdersComplete ∧ ∃ text s, onScript (termText t) now.session = .ok text s := by
  intro pair everywhere t now
  have hpair : pair.IsComplete := by
    simp [pair, SmtSort.IsComplete, SmtSort.FieldsComplete, SmtSort.sharedInt, SmtSort.sharedBool]
  have harray : (SmtSort.array 4 .sharedInt pair).IsComplete := by
    rw [SmtSort.IsComplete]
    exact ⟨by simp [SmtSort.IsComplete, SmtSort.sharedInt], hpair⟩
  have both {p : Term → Prop} {a b : Term} (ha : p a) (hb : p b) : ∀ c ∈ [a, b], p c := by
    simp [ha, hb]
  have hown : everywhere.PlaceholdersComplete := by
    refine .node _ _ _ ?_ (both (.leaf _ _) (.of_ne (by decide) (both (.leaf _ _) (.leaf _ _))))
    rintro - holder ⟨⟩ i inner ⟨⟩
    exact harray
  have hcomplete : t.PlaceholdersComplete :=
    .of_ne (by decide) (both (.of_ne (by decide) (both hown (.leaf _ _))) (.leaf _ _))
  have hfill : everywhere.Conforms IsWritable :=
    .constArray _ _ _ _ 5 4 _ _ (by decide) rfl
      (.tupleMake _ _ 3 "pair" _ (by decide) (both (.leaf _ _) (.leaf _ _)))
  have hconforms : t.Conforms IsWritable :=
    .tupleGet _ _ _ _ 3 "pair" _ 1 (by decide)
      (.symbol _ _ _ (by decide) (both hfill (.leaf _ _))) rfl (by decide) (by decide)
  exact ⟨hcomplete, (renders_iff_conforms none [] () _ t hcomplete).1.mpr hconforms⟩

/-- The sign bit of bit vectors of the least width that can be read stands at a
    position that cannot be written. -/
theorem sign_bit_not_rendered :
    let x := Term.symbol "x" (.bitVec 0 (1 - 10 ^ digitLimit))
    let t := Term.bitVecToInt x .sharedInt
    t.PlaceholdersComplete ∧ t.Conforms (fun _ => True) ∧
      onScript (termText t) (start none []) =
        .error (.numeral .tooLongToWrite) (start none []) := by
  intro x t
  refine ⟨.of_ne (by decide) ?_, ?_, ?_⟩
  · intro a ha
    rw [List.mem_singleton.mp ha]
    exact .leaf _ _
  · exact .bitVecToInt _ x 0 true (by decide) (.leaf _ _) fun _ => ⟨0, _, rfl, trivial⟩
  · have hx : termText x (start none []).script = .ok "x" (start none []).script := by
      simp only [x, Term.symbol, termText]
      rfl
    have hbit : bitVecToIntText true x.sort "x" (start none []).script =
        .error (.numeral .tooLongToWrite) (start none []).script := by
      have hsort : x.sort = .bitVec 0 (1 - 10 ^ digitLimit) := rfl
      rw [hsort, bitVecToIntText.eq_def, if_pos rfl]
      simp only [writeInteger_least]
      rfl
    exact onScript_eq_error_iff.mpr ⟨_, (termText_bitVecToInt 0 true hx).trans hbit, rfl⟩

end Session

end SmtSession
