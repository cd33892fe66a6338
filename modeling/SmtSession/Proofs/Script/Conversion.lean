import SmtSession.Proofs.Script.Meaning

/-!
# Conversions

The conversions between integers and bit vectors mean two's complement. Both
are spelled out, with the text of the operand substituted up to three times,
and what is spelled out has to mean the same as a conversion that the language
does not have: for negative integers, and for bit vectors with their sign bit
set.

The argument has three layers. A spelled-out text is a nest of applications.
Under any semantics the value of the nest follows from the value of the
operand, where the case of the sign is decided by the condition of an `ite`
and the other branch only has to be of the right sort. Last, a term is rendered
as this text whenever its operand is rendered, unless a width has so many
digits that it cannot be written or read.

The values are residues: an integer becomes its residue modulo the power of
two, and a bit vector with its sign bit set is its residue less that power.
Whether converting there and back again gives the same number is then a
question about ranges.

## Theorems

* `intToBitVecText_eq_call`, `signedText_eq_call`: The texts as applications.
* `denotes_intToBitVecText`, `denotes_unsignedText`, `denotes_signedText`: What
  they denote.
* `renders_intToBitVec`, `renders_unsigned`, `renders_signed`: What conversions
  are rendered as.
* `refuses_intToBitVec`, `refuses_signed`: Which ones are not rendered.
* `conversions_are_twos_complement`: All of this for terms, and what follows for
  converting there and back again.
-/

namespace SmtSession

/-! ## Texts as Applications -/

theorem intToBitVecText_eq_call (w : Nat) (a : String) :
    intToBitVecText w a =
      call "ite" [call ">=" [a, "0"], call (indexedText "int2bv" [numeral w]) [a],
        call "bvneg" [call (indexedText "int2bv" [numeral w]) [call "-" [a]]]] := by
  have hwidth : decimalText (w : Int) = numeral w := rfl
  unfold intToBitVecText indexedText call applicationText
  rw [hwidth]
  generalize numeral w = n
  rw [← String.toList_inj]
  simp only [String.toList_append]
  simp

theorem unsignedText_eq_call (a : String) : unsignedText a = call "bv2nat" [a] := by
  unfold unsignedText call applicationText
  rw [← String.toList_inj]
  simp only [String.toList_append]
  simp

theorem signedText_eq_call (top a : String) :
    signedText top a =
      call "ite" [call "=" [call (indexedText "extract" [top, top]) [a], "#b0"],
        call "bv2nat" [a], call "-" [call "bv2nat" [call "bvneg" [a]]]] := by
  unfold signedText unsignedText indexedText call applicationText
  rw [← String.toList_inj]
  simp only [String.toList_append]
  simp

/-! ## What Texts Denote -/

variable (M : Semantics)

theorem denotes_intToBitVecText {w : Nat} (hw : 1 ≤ w) {a : String} {n : Int}
    (ha : M.Denotes a (.int n)) :
    M.Denotes (intToBitVecText w a) (.bits w (BitVec.ofInt w n)) := by
  rcases M.ofInt hw ha with ⟨b, hb, hvalue⟩
  rcases M.ofInt hw (M.opposite ha) with ⟨b', hb', hvalue'⟩
  have hite := M.ite (M.atLeast ha M.zero) hb (M.negation hb') rfl
  rw [intToBitVecText_eq_call]
  by_cases hn : 0 ≤ n
  · have heq : b = BitVec.ofInt w n := by
      apply BitVec.eq_of_toNat_eq
      have h := (hvalue hn).trans (toNat_ofInt_eq_emod w n).symm
      omega
    simpa [hn, heq] using hite
  · -- The opposite is converted, and negating the outcome undoes the change.
    have heq : b' = BitVec.ofInt w (-n) := by
      apply BitVec.eq_of_toNat_eq
      have h := (hvalue' (by omega)).trans (toNat_ofInt_eq_emod w (-n)).symm
      omega
    have hneg : -b' = BitVec.ofInt w n := by
      rw [heq, BitVec.ofInt_neg, BitVec.neg_neg]
    simpa [hn, hneg] using hite

theorem denotes_unsignedText {w : Nat} {a : String} {b : BitVec w} (ha : M.Denotes a (.bits w b)) :
    M.Denotes (unsignedText a) (.int b.toNat) := by
  rw [unsignedText_eq_call]
  exact M.count ha

theorem denotes_signedText {w : Nat} (hw : 1 ≤ w) {a : String} {b : BitVec w}
    (ha : M.Denotes a (.bits w b)) :
    M.Denotes (signedText (numeral (w - 1)) a) (.int b.toInt) := by
  have hbit := M.bit (i := w - 1) (by omega) ha
  have hite := M.ite (M.equal hbit M.zeroBit) (M.count ha)
    (M.opposite (M.count (M.negation ha))) trivial
  have hmsb : b.getLsbD (w - 1) = b.msb := (BitVec.msb_eq_getLsbD_last b).symm
  rw [signedText_eq_call]
  rw [hmsb] at hite
  cases hsign : b.msb with
  | false =>
      have hint : b.toInt = b.toNat := by
        rw [BitVec.toInt_eq_msb_cond, hsign, if_neg Bool.false_ne_true]
      rw [hsign] at hite
      simpa [hint] using hite
  | true =>
      -- The sign bit is set, so the count is not zero and its opposite is what
      -- is missing to the power of two.
      have hlarge : 2 ^ (w - 1) ≤ b.toNat := by
        have h := BitVec.msb_eq_decide b
        rw [hsign] at h
        exact of_decide_eq_true h.symm
      have hpos : 0 < 2 ^ (w - 1) := Nat.two_pow_pos _
      have hlt : b.toNat < 2 ^ w := b.isLt
      have hneg : ((-b).toNat : Int) = 2 ^ w - b.toNat := by
        rw [BitVec.toNat_neg, Nat.mod_eq_of_lt (by omega)]
        have hcast : ((2 ^ w : Nat) : Int) = 2 ^ w := Int.natCast_pow 2 w
        omega
      have hint : b.toInt = b.toNat - 2 ^ w := by
        rw [BitVec.toInt_eq_msb_cond, hsign, if_pos rfl, Int.natCast_pow]
        rfl
      have hvalue : -((-b).toNat : Int) = b.toInt := by
        rw [hneg, hint]
        omega
      rw [hsign, hvalue] at hite
      simpa using hite

/-! ## How Conversions Are Rendered -/

theorem termText_intToBitVec {s s' : Script} {e : Term} {a : String} (i w : Nat)
    (he : termText e s = .ok a s') :
    termText (.intToBitVec i e w) s =
      if digitLimit < (numeral w).length then
        .error (.numeral (.tooLong (numeral w).length)) s
      else .ok (intToBitVecText w a) s' := by
  have hoperator : Operator.ofName "int2bv" = .intToBitVec := by decide
  have hread : argumentNumber (.literal (.int w) .missing) s =
      if digitLimit < (numeral w).length then
        .error (.numeral (.tooLong (numeral w).length)) s
      else .ok (w : Int) s := by
    change Rendering.lift (orFault .numeral (readInteger (decimalText w))) s = _
    rw [readInteger_decimalText, Int.natAbs_natCast]
    split <;> rfl
  rw [Term.intToBitVec, termText.eq_def]
  simp only [hoperator]
  -- The width is read before the operand is rendered.
  by_cases hlong : digitLimit < (numeral w).length
  · rw [if_pos hlong] at hread ⊢
    rw [Rendering.bind_error hread]
  · rw [if_neg hlong] at hread ⊢
    rw [Rendering.bind_ok hread, Rendering.bind_ok he]
    rfl

theorem termText_bitVecToInt {s s' : Script} {v : Term} {a : String} (j : Nat) (signed : Bool)
    (hv : termText v s = .ok a s') :
    termText (.bitVecToInt v (.int j signed)) s = bitVecToIntText signed v.sort a s' := by
  have hoperator : Operator.ofName "bv2int" = .bitVecToInt := by decide
  rw [Term.bitVecToInt, termText.eq_def]
  simp only [hoperator]
  rw [Rendering.bind_ok hv]

theorem bitVecToIntText_signed {s : Script} {a : String} {i w : Nat} (hw : 1 ≤ w) :
    bitVecToIntText true (.bitVec i w) a s =
      if digitLimit < (numeral (w - 1)).length then .error (.numeral .tooLongToWrite) s
      else .ok (signedText (numeral (w - 1)) a) s := by
  have hsub : (w : Int) - 1 = ((w - 1 : Nat) : Int) := by omega
  have hshort : IsWritable ((w - 1 : Nat) : Int) ↔ ¬ digitLimit < (numeral (w - 1)).length := by
    rw [IsWritable, Int.natAbs_natCast, Nat.not_lt]
  rw [bitVecToIntText.eq_def, if_pos rfl]
  simp only [hsub]
  by_cases hlong : digitLimit < (numeral (w - 1)).length
  · rw [if_pos hlong, writeInteger_of_not_isWritable fun h => hshort.mp h hlong]
    rfl
  · rw [if_neg hlong, writeInteger_of_isWritable (hshort.mpr hlong)]
    rfl

variable {M} {s : Script}

theorem renders_intToBitVec {e : Term} {n : Int} {w : Nat} (i : Nat) (hw : 1 ≤ w)
    (hlength : (numeral w).length ≤ digitLimit) (he : M.Renders s e (.int n)) :
    M.Renders s (.intToBitVec i e w) (.bits w (BitVec.ofInt w n)) := by
  rcases he with ⟨a, s', hrender, ha⟩
  refine ⟨_, s', ?_, denotes_intToBitVecText M hw ha⟩
  rw [termText_intToBitVec i w hrender, if_neg (by omega)]

theorem refuses_intToBitVec {e : Term} {v : Value} {w : Nat} (i : Nat)
    (hlong : digitLimit < (numeral w).length) (he : M.Renders s e v) :
    s.Refuses (.intToBitVec i e w) := by
  rcases he with ⟨a, s', hrender, -⟩
  intro text s'' h
  rw [termText_intToBitVec i w hrender, if_pos hlong] at h
  cases h

theorem renders_unsigned {v : Term} {w : Nat} {b : BitVec w} (j : Nat)
    (hv : M.Renders s v (.bits w b)) :
    M.Renders s (.bitVecToInt v (.int j false)) (.int b.toNat) := by
  rcases hv with ⟨a, s', hrender, ha⟩
  exact ⟨_, s', termText_bitVecToInt j false hrender, denotes_unsignedText M ha⟩

theorem renders_signed {v : Term} {i w : Nat} {b : BitVec w} (j : Nat) (hw : 1 ≤ w)
    (hlength : (numeral (w - 1)).length ≤ digitLimit) (hsort : v.sort = .bitVec i w)
    (hv : M.Renders s v (.bits w b)) :
    M.Renders s (.bitVecToInt v (.int j true)) (.int b.toInt) := by
  rcases hv with ⟨a, s', hrender, ha⟩
  refine ⟨_, s', ?_, denotes_signedText M hw ha⟩
  rw [termText_bitVecToInt j true hrender, hsort, bitVecToIntText_signed hw, if_neg (by omega)]

theorem refuses_signed {v : Term} {i w : Nat} {x : Value} (j : Nat) (hw : 1 ≤ w)
    (hlong : digitLimit < (numeral (w - 1)).length) (hsort : v.sort = .bitVec i w)
    (hv : M.Renders s v x) : s.Refuses (.bitVecToInt v (.int j true)) := by
  rcases hv with ⟨a, s', hrender, -⟩
  intro text s'' h
  rw [termText_bitVecToInt j true hrender, hsort, bitVecToIntText_signed hw, if_pos hlong] at h
  cases h

theorem Semantics.Renders.unique {t : Term} {v v' : Value} (h : M.Renders s t v)
    (h' : M.Renders s t v') : v = v' := by
  rcases h with ⟨text, s', hrender, hv⟩
  rcases h' with ⟨text', s'', hrender', hv'⟩
  rw [hrender] at hrender'
  injection hrender' with htext
  rw [← htext] at hv'
  exact M.unique hv hv'

/-! ## There and Back Again -/

theorem toInt_eq_of_lt {w : Nat} (hw : 1 ≤ w) (b : BitVec w) :
    b.toInt = if b.toNat < 2 ^ (w - 1) then (b.toNat : Int) else b.toNat - 2 ^ w := by
  have hpow : 2 ^ w = 2 * 2 ^ (w - 1) := by
    rw [← Nat.pow_succ', Nat.succ_eq_add_one, Nat.sub_add_cancel hw]
  rw [BitVec.toInt_eq_toNat_cond, Int.natCast_pow]
  by_cases hsmall : b.toNat < 2 ^ (w - 1)
  · rw [if_pos hsmall, if_pos (by omega)]
  · rw [if_neg hsmall, if_neg (by omega)]
    rfl

theorem toInt_ofInt_eq_iff {w : Nat} (hw : 1 ≤ w) (n : Int) :
    (BitVec.ofInt w n).toInt = n ↔ -2 ^ (w - 1) ≤ n ∧ n < 2 ^ (w - 1) := by
  constructor
  · intro h
    have hlower := BitVec.le_toInt (BitVec.ofInt w n)
    have hupper := BitVec.toInt_lt (x := BitVec.ofInt w n)
    rw [h] at hlower hupper
    exact ⟨hlower, hupper⟩
  · rintro ⟨hlower, hupper⟩
    exact BitVec.toInt_ofInt_eq_self (by omega) hlower hupper

theorem toNat_ofInt_eq_iff (w : Nat) (n : Int) :
    ((BitVec.ofInt w n).toNat : Int) = n ↔ 0 ≤ n ∧ n < 2 ^ w := by
  have hpos : (0 : Int) < 2 ^ w := Int.pow_pos (by decide)
  rw [toNat_ofInt_eq_emod]
  constructor
  · intro h
    rw [← h]
    exact ⟨Int.emod_nonneg n (Int.ne_of_gt hpos), Int.emod_lt_of_pos n hpos⟩
  · rintro ⟨hlower, hupper⟩
    exact Int.emod_eq_of_lt hlower hupper

/-- Conversions mean two's complement, whatever they are applied to and whatever
    else is in the language. A bit vector is converted to its count, or to its
    count less the power of two when it is read as signed and its sign bit is
    set. An integer is converted to its residue, so converting it back gives the
    same integer just when it is in the range of the width, and converting a bit
    vector there and back always gives the same bit vector. The one thing that
    can go wrong is a width, or the position of a sign bit, with more digits than
    a numeral may have; then there is no text. -/
theorem conversions_are_twos_complement (M : Semantics) (s : Script) (w : Nat) (hw : 1 ≤ w) :
    (∀ (i j : Nat) (v : Term) (b : BitVec w), v.sort = .bitVec i w → M.Renders s v (.bits w b) →
      M.Renders s (.bitVecToInt v (.int j false)) (.int b.toNat) ∧
        if (numeral (w - 1)).length ≤ digitLimit then
          M.Renders s (.bitVecToInt v (.int j true))
            (.int (if b.toNat < 2 ^ (w - 1) then (b.toNat : Int) else b.toNat - 2 ^ w))
        else s.Refuses (.bitVecToInt v (.int j true))) ∧
      (∀ (i j : Nat) (e : Term) (n : Int), M.Renders s e (.int n) →
        if (numeral w).length ≤ digitLimit then
          (∃ b : BitVec w, M.Renders s (.intToBitVec i e w) (.bits w b) ∧
            (b.toNat : Int) = n % 2 ^ w) ∧
          (M.Renders s (.bitVecToInt (.intToBitVec i e w) (.int j true)) (.int n) ↔
            -2 ^ (w - 1) ≤ n ∧ n < 2 ^ (w - 1)) ∧
          (M.Renders s (.bitVecToInt (.intToBitVec i e w) (.int j false)) (.int n) ↔
            0 ≤ n ∧ n < 2 ^ w)
        else s.Refuses (.intToBitVec i e w)) ∧
      ∀ (i j k : Nat) (signed : Bool) (v : Term) (b : BitVec w), v.sort = .bitVec i w →
        M.Renders s v (.bits w b) → (numeral w).length ≤ digitLimit →
          M.Renders s (.intToBitVec k (.bitVecToInt v (.int j signed)) w) (.bits w b) := by
  have hshorter : (numeral (w - 1)).length ≤ (numeral w).length :=
    length_numeral_mono (Nat.sub_le w 1)
  refine ⟨?_, ?_, ?_⟩
  · intro i j v b hsort hv
    refine ⟨renders_unsigned j hv, ?_⟩
    by_cases hlength : (numeral (w - 1)).length ≤ digitLimit
    · rw [if_pos hlength, ← toInt_eq_of_lt hw]
      exact renders_signed j hw hlength hsort hv
    · rw [if_neg hlength]
      exact refuses_signed j hw (by omega) hsort hv
  · intro i j e n he
    by_cases hlength : (numeral w).length ≤ digitLimit
    · rw [if_pos hlength]
      have hbits := renders_intToBitVec i hw hlength he
      have hsigned := renders_signed j hw (by omega) rfl hbits
      have hunsigned := renders_unsigned j hbits
      refine ⟨⟨_, hbits, toNat_ofInt_eq_emod w n⟩, ?_, ?_⟩
      · rw [← toInt_ofInt_eq_iff hw]
        constructor
        · intro h
          exact Value.int.inj (hsigned.unique h)
        · intro h
          rwa [h] at hsigned
      · rw [← toNat_ofInt_eq_iff]
        constructor
        · intro h
          exact Value.int.inj (hunsigned.unique h)
        · intro h
          rwa [h] at hunsigned
    · rw [if_neg hlength]
      exact refuses_intToBitVec i (by omega) he
  · intro i j k signed v b hsort hv hlength
    cases signed with
    | false =>
        have hback := renders_intToBitVec k hw hlength (renders_unsigned j hv)
        rwa [BitVec.ofInt_natCast, BitVec.ofNat_toNat, BitVec.setWidth_eq] at hback
    | true =>
        have hback := renders_intToBitVec k hw hlength
          (renders_signed j hw (by omega) hsort hv)
        rwa [BitVec.ofInt_toInt] at hback

/-- With eight bits, minus three comes back as itself when it is read as signed
    and as something else when it is not. -/
theorem conversions_are_twos_complement_minus_three :
    let M := (⟨fun _ => none, fun _ _ => none⟩ : Interpretation).semantics
    let s := Script.start none
    let e : Term := ⟨"-", [.literal (.int 3) .sharedInt], .sharedInt⟩
    1 ≤ 8 ∧ M.Renders s e (.int (-3)) ∧
      M.Renders s (.bitVecToInt (.intToBitVec 3 e 8) .sharedInt) (.int (-3)) ∧
      ¬ M.Renders s (.bitVecToInt (.intToBitVec 3 e 8) .sharedUnsigned) (.int (-3)) := by
  intro M s e
  have he : M.Renders s e (.int (-3)) := by
    refine ⟨"(- 3)", s, rfl, ?_⟩
    exact M.opposite (x := "3") (n := 3)
      (Interpretation.denotes_atom _ (by decide) (by rfl))
  have h := (conversions_are_twos_complement M s 8 (by decide)).2.1 3 0 e (-3) he
  have h' := (conversions_are_twos_complement M s 8 (by decide)).2.1 3 1 e (-3) he
  rw [if_pos (by decide)] at h h'
  exact ⟨by decide, he, h.2.1.mpr (by decide), fun hback => absurd (h'.2.2.mp hback) (by decide)⟩

end SmtSession
