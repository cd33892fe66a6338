import SmtSession.Proofs.ModelReport

/-!
# Decoding Values

What a reported value decodes to, for every value: the literals are
understood, a decimal numeral only if it is not too long, and everything else
comes back as it was reported, blanks included. `Decodes` lists the five
outcomes as a relation, and the decoder computes it.

Three families of literals come out as the integers they were written for: the
numerals of solvers, closed or cut by the scan, the bits of an unsigned number,
and hexadecimal digits as well as the bits of them.

## Main definitions

* `Decodes`: The outcomes of decoding a value, by what stands between its
  blanks.

## Theorems

* `decode_eq_iff`: The decoder computes the outcome.
* `decode_follows_grammar`: Which values decode to what, and that the literals
  of integers decode to them.
-/

namespace SmtSession

namespace ModelValue

/-- The outcomes of decoding a value that reads as `cs` between its blanks. -/
inductive Decodes (value : String) (cs : List Char) : Except Fault ModelValue → Prop where
  | bool (b : Bool) (h : cs = (if b then "true" else "false").toList) :
      Decodes value cs (.ok (.bool b))
  | bitVec (n : Nat) (h : SpellsBitVec cs n) : Decodes value cs (.ok (.int n))
  | decimal (negative : Bool) (digits : List Char) (n : Nat)
      (h : SpellsDecimal negative digits n cs) (short : digits.length ≤ digitLimit) :
      Decodes value cs (.ok (.int (signed negative n)))
  | tooLong (negative : Bool) (digits : List Char) (n : Nat)
      (h : SpellsDecimal negative digits n cs) (long : digitLimit < digits.length) :
      Decodes value cs (.error (.numeral (.tooLong digits.length)))
  | raw (h : NoLiteral cs) : Decodes value cs (.ok (.raw value))

/-- Every value has an outcome: it has the form of some literal or of none. -/
theorem exists_decodes (value : String) (cs : List Char) : ∃ result, Decodes value cs result := by
  by_cases htrue : cs = "true".toList
  · exact ⟨_, .bool true htrue⟩
  by_cases hfalse : cs = "false".toList
  · exact ⟨_, .bool false hfalse⟩
  by_cases hbits : ∃ n, SpellsBitVec cs n
  · obtain ⟨n, hn⟩ := hbits
    exact ⟨_, .bitVec n hn⟩
  by_cases hdecimal : ∃ negative digits n, SpellsDecimal negative digits n cs
  · obtain ⟨negative, digits, n, h⟩ := hdecimal
    by_cases short : digits.length ≤ digitLimit
    · exact ⟨_, .decimal negative digits n h short⟩
    · exact ⟨_, .tooLong negative digits n h (Nat.not_le.mp short)⟩
  · refine ⟨_, .raw ⟨htrue, hfalse, fun n hn => hbits ⟨n, hn⟩, ?_⟩⟩
    intro negative digits n h
    exact hdecimal ⟨negative, digits, n, h⟩

theorem Decodes.eq {value : String} {result : Except Fault ModelValue}
    (h : Decodes value (Text.trim Text.isBlank value.toList) result) : decode value = result := by
  rw [decode]
  cases h with
  | bool b h => cases b <;> rw [h] <;> rfl
  | bitVec n h => rw [decodeStripped_of_bitVec h]; rfl
  | decimal negative digits n h short =>
      rw [decodeStripped_of_decimal h, if_neg (Nat.not_lt.mpr short)]
      rfl
  | tooLong negative digits n h long =>
      rw [decodeStripped_of_decimal h, if_pos long]
      rfl
  | raw h => rw [decodeStripped_of_noLiteral h]; rfl

/-- The decoder computes the outcome, so there is one only. -/
theorem decode_eq_iff (value : String) (result : Except Fault ModelValue) :
    decode value = result ↔ Decodes value (Text.trim Text.isBlank value.toList) result := by
  constructor
  · rintro rfl
    obtain ⟨result, h⟩ := exists_decodes value (Text.trim Text.isBlank value.toList)
    rwa [h.eq]
  · exact Decodes.eq

theorem decode_eq_bool_iff (value : String) (b : Bool) :
    decode value = .ok (.bool b) ↔
      Text.trim Text.isBlank value.toList = (if b then "true" else "false").toList := by
  rw [decode_eq_iff]
  constructor
  · rintro ⟨⟩
    assumption
  · exact .bool b

theorem decode_eq_int_iff (value : String) (i : Int) :
    decode value = .ok (.int i) ↔
      (∃ n : Nat, SpellsBitVec (Text.trim Text.isBlank value.toList) n ∧ i = n) ∨
      ∃ negative digits n, SpellsDecimal negative digits n (Text.trim Text.isBlank value.toList) ∧
        digits.length ≤ digitLimit ∧ i = signed negative n := by
  rw [decode_eq_iff]
  constructor
  · intro h
    cases h with
    | bitVec n h => exact .inl ⟨n, h, rfl⟩
    | decimal negative digits n h short => exact .inr ⟨negative, digits, n, h, short, rfl⟩
  · rintro (⟨n, h, rfl⟩ | ⟨negative, digits, n, h, short, rfl⟩)
    · exact .bitVec n h
    · exact .decimal negative digits n h short

theorem decode_eq_error_iff (value : String) (fault : Fault) :
    decode value = .error fault ↔
      ∃ negative digits n, SpellsDecimal negative digits n (Text.trim Text.isBlank value.toList) ∧
        digitLimit < digits.length ∧ fault = .numeral (.tooLong digits.length) := by
  rw [decode_eq_iff]
  constructor
  · intro h
    cases h with
    | tooLong negative digits n h long => exact ⟨negative, digits, n, h, long, rfl⟩
  · rintro ⟨negative, digits, n, h, long, rfl⟩
    exact .tooLong negative digits n h long

theorem decode_eq_raw_iff (value text : String) :
    decode value = .ok (.raw text) ↔
      NoLiteral (Text.trim Text.isBlank value.toList) ∧ text = value := by
  rw [decode_eq_iff]
  constructor
  · intro h
    cases h with
    | raw h => exact ⟨h, rfl⟩
  · rintro ⟨h, rfl⟩
    exact .raw h

theorem decode_binary {cs : List Char} {n : Nat} (h : Text.SpellsIn 2 Text.BinaryDigit cs n) :
    decode ("#b" ++ String.ofList cs) = .ok (.int n) := by
  have htext : ("#b" ++ String.ofList cs).toList = '#' :: 'b' :: cs := by simp
  exact decode_of_spellsBitVec (htext ▸ .binary cs n h)

theorem decode_hexadecimal {cs : List Char} {n : Nat} (h : Text.SpellsIn 16 Text.HexDigit cs n) :
    decode ("#x" ++ String.ofList cs) = .ok (.int n) := by
  have htext : ("#x" ++ String.ofList cs).toList = '#' :: 'x' :: cs := by simp
  exact decode_of_spellsBitVec (htext ▸ .hexadecimal cs n h)

/-- What a value decodes to depends on the literal between its blanks: truth
    values for their words, integers for bit vector literals of any length and
    for decimal numerals that are not too long, the value itself for no
    literal. A numeral that is too long is the one fault. Hence the numerals
    of solvers, closed or cut short, the bits of an unsigned number, and
    hexadecimal digits like their bits are understood. -/
theorem decode_follows_grammar :
    (∀ value : String,
      let cs := Text.trim Text.isBlank value.toList
      (∀ b : Bool, decode value = .ok (.bool b) ↔
        cs = (if b then "true" else "false").toList) ∧
      (∀ i : Int, decode value = .ok (.int i) ↔
        (∃ n : Nat, SpellsBitVec cs n ∧ i = n) ∨
        ∃ negative digits n, SpellsDecimal negative digits n cs ∧ digits.length ≤ digitLimit ∧
          i = signed negative n) ∧
      (∀ fault, decode value = .error fault ↔
        ∃ negative digits n, SpellsDecimal negative digits n cs ∧ digitLimit < digits.length ∧
          fault = .numeral (.tooLong digits.length)) ∧
      (∀ text, decode value = .ok (.raw text) ↔ NoLiteral cs ∧ text = value)) ∧
    (∀ (i : Int) (short : (numeral i.natAbs).length ≤ digitLimit),
      decode (PlainValue.int i short).text = .ok (.int i) ∧
        decode (cutShort (PlainValue.int i short).text) = .ok (.int i)) ∧
    (∀ width n : Nat, 0 < width → n < 2 ^ width →
      decode ("#b" ++ String.ofList (Text.binaryDigits width n)) = .ok (.int n)) ∧
    (∀ (hexits : List Char) (digits : List Nat), hexits ≠ [] →
      List.Forall₂ Text.HexDigit hexits digits →
      ∃ n : Nat, decode ("#x" ++ String.ofList hexits) = .ok (.int n) ∧
        decode ("#b" ++ String.ofList (digits.flatMap (Text.binaryDigits 4))) = .ok (.int n)) := by
  refine ⟨?_, ?_, ?_, ?_⟩
  · intro value cs
    exact ⟨decode_eq_bool_iff value, decode_eq_int_iff value, decode_eq_error_iff value,
      decode_eq_raw_iff value⟩
  · intro i short
    exact ⟨decode_text (.int i short), decode_cutShort_text (.int i short)⟩
  · intro width n hwidth hn
    exact decode_binary (Text.spellsIn_binaryDigits hwidth hn)
  · intro hexits digits hne hdigits
    exact ⟨Nat.ofDigits 16 digits.reverse, decode_hexadecimal ⟨hne, digits, hdigits, rfl⟩,
      decode_binary (Text.spellsIn_nibbles hne hdigits)⟩

/-- Digits of two scripts in one numeral whose sign is applied to it and whose
    parenthesis is missing, eight bits, and two hexadecimal digits. -/
theorem decode_follows_grammar_mixed :
    decode "\t( - 4\u0662 " = .ok (.int (-42)) ∧
      decode ("#b" ++ String.ofList (Text.binaryDigits 8 42)) = .ok (.int 42) ∧
      ∃ n : Nat, decode "#x2A" = .ok (.int n) ∧ decode "#b00101010" = .ok (.int n) := by
  obtain ⟨hvalue, -, hbits, hhex⟩ := decode_follows_grammar
  refine ⟨?_, hbits 8 42 (by decide) (by decide), ?_⟩
  · refine ((hvalue _).2.1 (-42)).mpr (.inr ⟨true, ['4', '\u0662'], 42, ⟨?_, ?_⟩, by decide, rfl⟩)
    · have hspace : ∀ c ∈ [' '], Text.isBlank c = true := List.all_eq_true.mp rfl
      exact .applied [' '] [' '] _ [] [] hspace ⟨by decide, hspace⟩ (by simp) (.inl rfl)
    · have hfour : Text.DecimalDigit '4' 4 := ⟨0x30, by decide, by decide, rfl⟩
      have htwo : Text.DecimalDigit '\u0662' 2 := ⟨0x660, by decide, by decide, rfl⟩
      exact ⟨by decide, [4, 2], .cons hfour (.cons htwo .nil), rfl⟩
  · exact hhex ['2', 'A'] [2, 10] (by decide) (.cons (by decide) (.cons (by decide) .nil))

end ModelValue

end SmtSession
