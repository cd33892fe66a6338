import Mathlib.Data.List.Forall2
import Mathlib.Data.List.Induction
import Mathlib.Data.Nat.Digits.Defs
import Mathlib.Tactic.Ring
import SmtSession.ModelValue
import SmtSession.Proofs.Numeral

/-!
# Place Value

The numbers that texts count in a base. A digit is a character that stands for
a small number, and which characters do so is a table: two for the bits, two
cases of letters for the hexadecimal digits, one run of ten characters for
every script that has decimal digits. A nonempty text of digits counts in its
base as `Nat.ofDigits` says, the most significant digit first, and the readers
of literals accept exactly these texts.

A number has many texts but one of each width in base two, and a hexadecimal
digit is worth its four bits.

## Main definitions

* `CountsIn`, `SpellsIn`: A text of digits, or of at least one, and its number.
* `BinaryDigit`, `HexDigit`, `DecimalDigit`: The characters that stand for digits.
* `binaryDigits`: The text of a number in base two, of a given width.

## Theorems

* `digitValue?_eq_some_iff`: No character stands for two decimal digits.
* `positional?_eq_some_iff`: A reader of literals accepts the texts that count.
* `spellsIn_decimal_iff`: The number that a decimal text counts.
* `spellsIn_binaryDigits`: A number is counted by its binary text.
* `spellsIn_nibbles`: A hexadecimal text and its bits count the same.
-/

namespace SmtSession

namespace Text

/-- The characters of a text stand for digits, the most significant first,
    that count a number in a base. -/
def CountsIn (base : Nat) (digit : Char → Nat → Prop) (cs : List Char) (n : Nat) : Prop :=
  ∃ digits, List.Forall₂ digit cs digits ∧ n = Nat.ofDigits base digits.reverse

/-- A text of at least one digit spells the number that its digits count. -/
def SpellsIn (base : Nat) (digit : Char → Nat → Prop) (cs : List Char) (n : Nat) : Prop :=
  cs ≠ [] ∧ CountsIn base digit cs n

/-- A character stands for a bit. -/
def BinaryDigit (c : Char) (digit : Nat) : Prop :=
  "01".toList[digit]? = some c

/-- A character of either case stands for a hexadecimal digit. -/
def HexDigit (c : Char) (digit : Nat) : Prop :=
  "0123456789abcdef".toList[digit]? = some c ∨ "0123456789ABCDEF".toList[digit]? = some c

/-- A character stands for a decimal digit in some script. -/
def DecimalDigit (c : Char) (digit : Nat) : Prop :=
  ∃ z ∈ digitZeros, digit < 10 ∧ c.toNat = z + digit

theorem natOfDigits_eq_ofDigits (base : Nat) (digits : List Nat) :
    natOfDigits base digits = Nat.ofDigits base digits.reverse := by
  induction digits using List.reverseRecOn with
  | nil => rfl
  | append_singleton digits digit ih =>
      rw [natOfDigits, List.foldl_append, List.foldl_cons, List.foldl_nil, ← natOfDigits, ih,
        List.reverse_append, List.reverse_singleton, List.singleton_append, Nat.ofDigits_cons]
      ring

theorem mapM_eq_some_iff {digit? : Char → Option Nat} {digit : Char → Nat → Prop}
    (hdigit : ∀ c d, digit? c = some d ↔ digit c d) (cs : List Char) (digits : List Nat) :
    cs.mapM digit? = some digits ↔ List.Forall₂ digit cs digits := by
  induction cs generalizing digits with
  | nil => simp [eq_comm]
  | cons c cs ih =>
      simp only [List.mapM_cons, Option.bind_eq_bind, Option.bind_eq_some_iff, Option.pure_def,
        Option.some.injEq, List.forall₂_cons_left_iff, hdigit, ih]
      exact ⟨fun ⟨d, hd, ds, hds, heq⟩ => ⟨d, ds, hd, hds, heq.symm⟩,
        fun ⟨d, ds, hd, hds, heq⟩ => ⟨d, hd, ds, hds, heq.symm⟩⟩

/-- A reader of digits accepts the texts that count a number in its base. -/
theorem positional?_eq_some_iff {digit? : Char → Option Nat} {digit : Char → Nat → Prop}
    (hdigit : ∀ c d, digit? c = some d ↔ digit c d) (base : Nat) (cs : List Char) (n : Nat) :
    positional? base digit? cs = some n ↔ SpellsIn base digit cs n := by
  cases cs with
  | nil => simp [positional?, SpellsIn]
  | cons c cs =>
      rw [positional?, List.isEmpty_cons, if_neg Bool.false_ne_true, Option.map_eq_some_iff,
        SpellsIn]
      simp only [mapM_eq_some_iff hdigit, natOfDigits_eq_ofDigits, ne_eq, reduceCtorEq,
        not_false_eq_true, true_and, CountsIn, eq_comm]

theorem binaryDigit?_eq_some_iff (c : Char) (d : Nat) :
    binaryDigit? c = some d ↔ BinaryDigit c d := by
  rw [binaryDigit?, BinaryDigit]
  match d with
  | 0 => by_cases hzero : c = '0' <;> simp [hzero, eq_comm]
  | 1 => by_cases hzero : c = '0' <;> simp [hzero, eq_comm]
  | d + 2 => by_cases hzero : c = '0' <;> simp [hzero]

instance (c : Char) (d : Nat) : Decidable (HexDigit c d) :=
  inferInstanceAs (Decidable (_ ∨ _))

theorem toNat_lt_of_hexDigit? {c : Char} {d : Nat} (h : hexDigit? c = some d) : c.toNat < 103 := by
  unfold hexDigit? at h
  have hnine : '9'.toNat < 103 := by decide
  have hf : 'f'.toNat < 103 := by decide
  have hF : 'F'.toNat < 103 := by decide
  split at h
  · next hrange => exact Nat.lt_of_le_of_lt hrange.2 hnine
  split at h
  · next hrange => exact Nat.lt_of_le_of_lt hrange.2 hf
  split at h
  · next hrange => exact Nat.lt_of_le_of_lt hrange.2 hF
  · cases h

theorem hexDigit?_eq_some_iff (c : Char) (d : Nat) : hexDigit? c = some d ↔ HexDigit c d := by
  have htable : ∀ code < 103, ∀ d ∈ hexDigit? (Char.ofNat code), HexDigit (Char.ofNat code) d := by
    decide
  have hlower : ∀ d < 16, ("0123456789abcdef".toList[d]?).bind hexDigit? = some d := by decide
  have hupper : ∀ d < 16, ("0123456789ABCDEF".toList[d]?).bind hexDigit? = some d := by decide
  constructor
  · intro h
    have hc := htable c.toNat (toNat_lt_of_hexDigit? h)
    rw [Char.ofNat_toNat] at hc
    exact hc d h
  · rintro (h | h)
    · have hd := hlower d (List.getElem?_eq_some_iff.mp h).1
      rwa [h, Option.bind_some] at hd
    · have hd := hupper d (List.getElem?_eq_some_iff.mp h).1
      rwa [h, Option.bind_some] at hd

/-- The runs of digits of different scripts do not meet. -/
theorem digitZeros_apart :
    ∀ z ∈ digitZeros, ∀ z' ∈ digitZeros, z < z' → z + 10 ≤ z' := by
  decide +kernel

/-- No character stands for two decimal digits. -/
theorem digitValue?_eq_some_iff (c : Char) (d : Nat) :
    digitValue? c = some d ↔ DecimalDigit c d := by
  rw [digitValue?, Option.map_eq_some_iff, DecimalDigit]
  constructor
  · rintro ⟨z, hfind, rfl⟩
    have hrun := List.find?_some hfind
    simp only [Bool.and_eq_true, decide_eq_true_eq] at hrun
    exact ⟨z, List.mem_of_find?_eq_some hfind, by omega, by omega⟩
  · rintro ⟨z, hz, hd, hc⟩
    have hsome : (digitZeros.find? fun z => z ≤ c.toNat && c.toNat < z + 10).isSome = true := by
      refine List.find?_isSome.mpr ⟨z, hz, ?_⟩
      simp only [Bool.and_eq_true, decide_eq_true_eq]
      omega
    obtain ⟨first, hfirst⟩ := Option.isSome_iff_exists.mp hsome
    have hrun := List.find?_some hfirst
    simp only [Bool.and_eq_true, decide_eq_true_eq] at hrun
    have hmem := List.mem_of_find?_eq_some hfirst
    have hbelow := digitZeros_apart first hmem z hz
    have habove := digitZeros_apart z hz first hmem
    exact ⟨first, hfirst, by omega⟩

theorem isDigit_iff (c : Char) : isDigit c = true ↔ ∃ d, DecimalDigit c d := by
  rw [isDigit, Option.isSome_iff_exists]
  simp only [digitValue?_eq_some_iff]

/-- A text of decimal digits counts one number in base ten, and no other text
    counts any. -/
theorem countsIn_decimal_iff (cs : List Char) (n : Nat) :
    CountsIn 10 DecimalDigit cs n ↔ (∀ c ∈ cs, isDigit c = true) ∧ n = decimalOf cs := by
  -- The digits that are read are the digits that the characters stand for.
  have hvalues (cs : List Char) (digits : List Nat) : List.Forall₂ DecimalDigit cs digits ↔
      (∀ c ∈ cs, isDigit c = true) ∧ digits = cs.filterMap digitValue? := by
    induction cs generalizing digits with
    | nil => simp
    | cons c cs ih =>
        simp only [List.forall₂_cons_left_iff, ih, List.forall_mem_cons]
        constructor
        · rintro ⟨d, ds, hd, ⟨hcs, rfl⟩, rfl⟩
          refine ⟨⟨(isDigit_iff c).mpr ⟨d, hd⟩, hcs⟩, ?_⟩
          rw [List.filterMap_cons_some ((digitValue?_eq_some_iff c d).mpr hd)]
        · rintro ⟨⟨hc, hcs⟩, rfl⟩
          obtain ⟨d, hd⟩ := (isDigit_iff c).mp hc
          refine ⟨d, _, hd, ⟨hcs, rfl⟩, ?_⟩
          rw [List.filterMap_cons_some ((digitValue?_eq_some_iff c d).mpr hd)]
  simp only [CountsIn, hvalues, decimalOf, natOfDigits_eq_ofDigits]
  exact ⟨fun ⟨_, ⟨hcs, rfl⟩, hn⟩ => ⟨hcs, hn⟩, fun ⟨hcs, hn⟩ => ⟨_, ⟨hcs, rfl⟩, hn⟩⟩

theorem spellsIn_decimal_iff (cs : List Char) (n : Nat) :
    SpellsIn 10 DecimalDigit cs n ↔
      cs ≠ [] ∧ (∀ c ∈ cs, isDigit c = true) ∧ n = decimalOf cs := by
  rw [SpellsIn, countsIn_decimal_iff]

theorem spellsIn_toDigits (n : Nat) : SpellsIn 10 DecimalDigit (Nat.toDigits 10 n) n :=
  (spellsIn_decimal_iff _ n).mpr ⟨Nat.toDigits_ne_nil,
    fun _ hc => isDigit_of_isDigit (isDigit_of_mem_toDigits hc), (decimalOf_toDigits n).symm⟩

theorem exists_of_mem_of_forall₂ {α β : Type} {r : α → β → Prop} {as : List α} {bs : List β}
    (h : List.Forall₂ r as bs) {a : α} (ha : a ∈ as) : ∃ b, r a b := by
  induction h with
  | nil => cases ha
  | cons hr _ ih =>
      rcases List.mem_cons.mp ha with rfl | ha
      · exact ⟨_, hr⟩
      · exact ih ha

theorem CountsIn.append {base : Nat} {digit : Char → Nat → Prop} {cs cs' : List Char} {m n : Nat}
    (hm : CountsIn base digit cs m) (hn : CountsIn base digit cs' n) :
    CountsIn base digit (cs ++ cs') (m * base ^ cs'.length + n) := by
  obtain ⟨ds, hds, rfl⟩ := hm
  obtain ⟨ds', hds', rfl⟩ := hn
  refine ⟨ds ++ ds', List.rel_append hds hds', ?_⟩
  rw [List.reverse_append, Nat.ofDigits_append, List.length_reverse, hds'.length_eq]
  ring

theorem countsIn_singleton {base : Nat} {digit : Char → Nat → Prop} {c : Char} {d : Nat}
    (h : digit c d) : CountsIn base digit [c] d :=
  ⟨[d], .cons h .nil, by simp⟩

/-- The text of a number in base two, cut to a width. -/
def binaryDigits : Nat → Nat → List Char
  | 0, _ => []
  | width + 1, n => binaryDigits width (n / 2) ++ [if n % 2 = 0 then '0' else '1']

theorem length_binaryDigits (width n : Nat) : (binaryDigits width n).length = width := by
  induction width generalizing n with
  | zero => rfl
  | succ width ih => rw [binaryDigits, List.length_append, ih, List.length_singleton]

theorem countsIn_binaryDigits (width n : Nat) :
    CountsIn 2 BinaryDigit (binaryDigits width n) (n % 2 ^ width) := by
  induction width generalizing n with
  | zero => exact ⟨[], .nil, by simp [Nat.mod_one]⟩
  | succ width ih =>
      have hlast : BinaryDigit (if n % 2 = 0 then '0' else '1') (n % 2) := by
        rcases Nat.mod_two_eq_zero_or_one n with h | h <;> rw [h] <;> rfl
      have hvalue : n % 2 ^ (width + 1) = n / 2 % 2 ^ width * 2 ^ 1 + n % 2 := by
        rw [Nat.pow_succ', Nat.mod_mul, Nat.pow_one, Nat.mul_comm, Nat.add_comm]
      rw [binaryDigits, hvalue]
      exact (ih (n / 2)).append (countsIn_singleton hlast)

/-- The digits of a number of at most some width spell it. -/
theorem spellsIn_binaryDigits {width n : Nat} (hwidth : 0 < width) (hn : n < 2 ^ width) :
    SpellsIn 2 BinaryDigit (binaryDigits width n) n := by
  have hcount := countsIn_binaryDigits width n
  rw [Nat.mod_eq_of_lt hn] at hcount
  refine ⟨?_, hcount⟩
  intro hnil
  have hlength := length_binaryDigits width n
  rw [hnil, List.length_nil] at hlength
  omega

/-- Hexadecimal digits, each of them written as its four bits, count the same
    in base two. -/
theorem countsIn_nibbles (digits : List Nat) (hdigits : ∀ d ∈ digits, d < 16) :
    CountsIn 2 BinaryDigit (digits.flatMap (binaryDigits 4)) (Nat.ofDigits 16 digits.reverse) := by
  induction digits using List.reverseRecOn with
  | nil => exact ⟨[], .nil, rfl⟩
  | append_singleton digits d ih =>
      have hd : d % 2 ^ 4 = d := Nat.mod_eq_of_lt (hdigits d (by simp))
      have hlast := countsIn_binaryDigits 4 d
      have hinit := ih fun e he => hdigits e (List.mem_append_left _ he)
      have hvalue : Nat.ofDigits 16 (digits ++ [d]).reverse =
          Nat.ofDigits 16 digits.reverse * 2 ^ (binaryDigits 4 d).length + d := by
        rw [List.reverse_append, List.reverse_singleton, List.singleton_append, Nat.ofDigits_cons,
          length_binaryDigits]
        ring
      rw [hd] at hlast
      rw [List.flatMap_append, List.flatMap_singleton, hvalue]
      exact hinit.append hlast

theorem HexDigit.lt {c : Char} {d : Nat} (h : HexDigit c d) : d < 16 := by
  rcases h with h | h <;> exact (List.getElem?_eq_some_iff.mp h).1

/-- A hexadecimal text and its bits spell the same number. -/
theorem spellsIn_nibbles {hexits : List Char} {digits : List Nat} (hne : hexits ≠ [])
    (hdigits : List.Forall₂ HexDigit hexits digits) :
    SpellsIn 2 BinaryDigit (digits.flatMap (binaryDigits 4)) (Nat.ofDigits 16 digits.reverse) := by
  refine ⟨?_, countsIn_nibbles digits ?_⟩
  · cases hdigits with
    | nil => exact absurd rfl hne
    | cons => simp [binaryDigits]
  · intro d hd
    obtain ⟨c, hc⟩ := exists_of_mem_of_forall₂ hdigits.flip hd
    exact HexDigit.lt hc

end Text

end SmtSession
