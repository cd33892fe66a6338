import Mathlib.Algebra.Group.Int.Defs
import Mathlib.Algebra.Group.Nat.Defs
import Mathlib.Data.List.TakeWhile
import SmtSession.Number.Integer

/-!
# Numerals

Reading a number back from its decimal text. Writers use the ten digits that
everybody knows and a minus sign; readers accept the digits of any script,
underscores and blanks. The first is a special case of the second, and the
value is the same, because the digits of the first script stand in front of
all others in the table of zeros.

Only the length of a numeral can get in the way: a number can have any number
of digits, and too many of them are neither read nor written.

## Theorems

* `isBlank_of_isDigit`, `isDigit_of_mem_numeral`: The characters of a numeral.
* `decimalOf_toDigits`: A numeral spells its number.
* `length_numeral_le_iff`: How long it is.
* `isWritable_iff`: Which integers are short enough to be written.
* `writeInteger_eq_ok_iff`, `writeInteger_least`: Which integers are written.
* `readDecimal_toDigits`, `readInteger_decimalText`: It is read as its number
  unless it is too long.
-/

namespace SmtSession

theorem isBlank_of_isDigit {c : Char} (h : c.isDigit = true) : Text.isBlank c = false := by
  obtain ⟨hzero, hnine⟩ := Char.isDigit_iff_toNat.mp h
  have hzero : 48 ≤ c.toNat := hzero
  have hnine : c.toNat ≤ 57 := hnine
  simp only [Text.isBlank, Text.inRanges, Text.blankRanges, List.any_cons, List.any_nil,
    Bool.or_eq_false_iff, Bool.and_eq_false_iff, decide_eq_false_iff_not, and_true]
  omega

theorem ne_of_isDigit {c d : Char} (hc : c.isDigit = true) (hd : d.isDigit = false) : c ≠ d := by
  rintro rfl
  rw [hc] at hd
  cases hd

theorem isDigit_of_mem_toDigits {n : Nat} {c : Char} (h : c ∈ Nat.toDigits 10 n) :
    c.isDigit = true :=
  Nat.isDigit_of_mem_toDigits (by decide) (by decide) h

theorem isDigit_of_mem_numeral {n : Nat} {c : Char} (h : c ∈ (numeral n).toList) :
    c.isDigit = true := by
  rw [toList_numeral] at h
  exact isDigit_of_mem_toDigits h

theorem not_mem_numeral (n : Nat) {c : Char} (hc : c.isDigit = false) :
    c ∉ (numeral n).toList := fun h => ne_of_isDigit (isDigit_of_mem_numeral h) hc rfl

namespace Text

theorem digitValue?_of_isDigit {c : Char} (h : c.isDigit = true) :
    digitValue? c = some (c.toNat - 48) := by
  obtain ⟨hzero, hnine⟩ := Char.isDigit_iff_toNat.mp h
  have hzero : 48 ≤ c.toNat := hzero
  have hnine : c.toNat ≤ 57 := hnine
  -- The zero of these digits is the first in the table.
  have hzeros : digitZeros = 48 :: digitZeros.tail := rfl
  rw [digitValue?, hzeros, List.find?_cons_of_pos, Option.map_some]
  simp only [Bool.and_eq_true, decide_eq_true_eq]
  omega

theorem isDigit_of_isDigit {c : Char} (h : c.isDigit = true) : isDigit c = true := by
  rw [isDigit, digitValue?_of_isDigit h, Option.isSome_some]

theorem decimalOf_eq (cs : List Char) (h : ∀ c ∈ cs, c.isDigit = true) :
    decimalOf cs = Nat.ofDigitChars 10 cs 0 := by
  have hfold : ∀ start : Nat,
      (cs.filterMap digitValue?).foldl (fun value digit => value * 10 + digit) start =
        Nat.ofDigitChars 10 cs start := by
    induction cs with
    | nil => exact fun start => rfl
    | cons c cs ih =>
        intro start
        have hc := digitValue?_of_isDigit (h c List.mem_cons_self)
        have hrest := ih (fun d hd => h d (List.mem_cons_of_mem c hd)) (start * 10 + (c.toNat - 48))
        rw [List.filterMap_cons_some hc, List.foldl_cons, hrest, Nat.ofDigitChars_cons,
          Nat.mul_comm]
        rfl
  exact hfold 0

theorem decimalOf_toDigits (n : Nat) : decimalOf (Nat.toDigits 10 n) = n := by
  rw [decimalOf_eq _ fun c hc => isDigit_of_mem_toDigits hc]
  exact Nat.ofDigitChars_toDigits (by decide) (by decide)

end Text

theorem length_numeral (n : Nat) : (numeral n).length = (Nat.toDigits 10 n).length := by
  rw [← String.length_toList, toList_numeral]

theorem length_numeral_le_iff (n k : Nat) (hk : 0 < k) : (numeral n).length ≤ k ↔ n < 10 ^ k := by
  rw [length_numeral]
  exact Nat.length_toDigits_le_iff (by decide) hk

theorem length_numeral_mono {m n : Nat} (h : m ≤ n) :
    (numeral m).length ≤ (numeral n).length := by
  have hpos : 0 < (numeral n).length := by
    rw [length_numeral]
    exact Nat.length_toDigits_pos
  have hn : n < 10 ^ (numeral n).length := (length_numeral_le_iff n _ hpos).mp (Nat.le_refl _)
  exact (length_numeral_le_iff m _ hpos).mpr (Nat.lt_of_le_of_lt h hn)

/-- An integer is short enough to be written just when its absolute value is below
    the limit. -/
theorem isWritable_iff (n : Int) : IsWritable n ↔ n.natAbs < 10 ^ digitLimit :=
  length_numeral_le_iff _ _ (by decide)

/-- An integer is written if its numeral is not too long. -/
theorem writeInteger_eq_ok_iff (n : Int) (text : String) :
    writeInteger n = .ok text ↔ IsWritable n ∧ text = decimalText n := by
  by_cases h : IsWritable n
  · rw [writeInteger_of_isWritable h]
    simp [h, eq_comm]
  · rw [writeInteger_of_not_isWritable h]
    simp [h]

/-- The least natural number that is too long. -/
theorem not_isWritable_least : ¬ IsWritable (10 ^ digitLimit) := by
  have hten : (10 : Int).natAbs = 10 := rfl
  rw [isWritable_iff, Int.natAbs_pow, hten]
  exact Nat.lt_irrefl _

/-- The position below the least width that can be read is not written. -/
theorem writeInteger_least : writeInteger (1 - 10 ^ digitLimit - 1) = .error .tooLongToWrite := by
  have hneg : (1 - 10 ^ digitLimit - 1 : Int) = -(10 ^ digitLimit) := by
    generalize (10 ^ digitLimit : Int) = p
    omega
  refine writeInteger_of_not_isWritable ?_
  -- A sign makes no difference.
  rw [hneg, IsWritable, Int.natAbs_neg]
  exact not_isWritable_least

theorem readDecimal_toDigits (n : Nat) :
    readDecimal (Nat.toDigits 10 n) =
      if digitLimit < (numeral n).length then .error (.tooLong (numeral n).length) else .ok n := by
  rw [length_numeral, readDecimal, Text.decimalOf_toDigits]

theorem groupedDigits?_of_isDigit (cs : List Char) (hne : cs ≠ [])
    (h : ∀ c ∈ cs, c.isDigit = true) : groupedDigits? cs = some cs := by
  have hbar : ∀ c ∈ cs, c ≠ '_' := fun c hc => ne_of_isDigit (h c hc) (by decide)
  fun_induction groupedDigits? cs with
  | case1 => exact absurd rfl hne
  | case2 => exact absurd rfl (hbar '_' (by simp))
  | case3 => rfl
  | case4 => exact absurd rfl (hbar '_' (by simp))
  | case5 => exact absurd rfl (hbar '_' (by simp))
  | case6 c d cs hc hd ih =>
      rw [ih (List.cons_ne_nil d cs) (fun e he => h e (List.mem_cons_of_mem c he))
        fun e he => hbar e (List.mem_cons_of_mem c he)]
      rfl

-- What matters of a text is what is left once its blanks and its sign are gone.
theorem readInteger_of_toDigits (text : String) (negative : Bool) (n : Nat)
    (htext : takeSign (text.toList.dropWhile Text.isNumberBlank) =
      (negative, Nat.toDigits 10 n)) :
    readInteger text =
      if digitLimit < (numeral n).length then .error (.tooLong (numeral n).length)
      else .ok (signed negative n) := by
  have hgrouped : ∀ c ∈ Nat.toDigits 10 n, isGrouped c = true := by
    intro c hc
    rw [isGrouped, Text.isDigit_of_isDigit (isDigit_of_mem_toDigits hc), Bool.or_true]
  have htake : (Nat.toDigits 10 n).takeWhile isGrouped = Nat.toDigits 10 n :=
    List.takeWhile_eq_self_iff.mpr hgrouped
  have hdrop : (Nat.toDigits 10 n).dropWhile isGrouped = [] :=
    List.dropWhile_eq_nil_iff.mpr hgrouped
  have hdigits : groupedDigits? (Nat.toDigits 10 n) = some (Nat.toDigits 10 n) :=
    groupedDigits?_of_isDigit _ Nat.toDigits_ne_nil fun c hc => isDigit_of_mem_toDigits hc
  simp only [readInteger, htext, htake, hdigits, hdrop, readDecimal_toDigits]
  by_cases hlong : digitLimit < (numeral n).length
  · rw [if_pos hlong, if_pos hlong]
    rfl
  · rw [if_neg hlong, if_neg hlong]
    rfl

/-- An integer is read back from its decimal text unless the text is too
    long. -/
theorem readInteger_decimalText (n : Int) :
    readInteger (decimalText n) =
      if digitLimit < (numeral n.natAbs).length then .error (.tooLong (numeral n.natAbs).length)
      else .ok n := by
  cases n with
  | ofNat m =>
      refine readInteger_of_toDigits _ false m ?_
      rw [decimalText, toList_numeral]
      -- The first character is a digit, so there is no blank and no sign.
      rcases hdigits : Nat.toDigits 10 m with _ | ⟨c, cs⟩
      · exact absurd hdigits Nat.toDigits_ne_nil
      · have hc : c.isDigit = true :=
          isDigit_of_mem_toDigits (n := m) (by rw [hdigits]; exact List.mem_cons_self)
        have hsign (d : Char) (hd : d.isDigit = false) (rest : List Char) :
            c :: cs = d :: rest → False := by
          intro heq
          injection heq with heq
          exact ne_of_isDigit hc hd heq
        have hblank : ¬ Text.isNumberBlank c = true := by
          simp [Text.isNumberBlank, isBlank_of_isDigit hc]
        rw [List.dropWhile_cons_of_neg hblank,
          takeSign.eq_3 _ (hsign '-' (by decide)) (hsign '+' (by decide))]
  | negSucc m =>
      have htext : takeSign ((decimalText (.negSucc m)).toList.dropWhile Text.isNumberBlank) =
          (true, Nat.toDigits 10 (m + 1)) := by
        rw [decimalText, String.toList_append, toList_numeral]
        rfl
      exact readInteger_of_toDigits _ true (m + 1) htext

end SmtSession
