import SmtSession.Proofs.PlaceValue

/-!
# Literals of Values

Which values spell a constant, and which constant. A value is stripped of its
blanks, and what is left is one of four things: the word for a truth value, a
bit vector literal, a decimal numeral, or none of them. A decimal numeral may
be written with the digits of any script, with a minus sign in front, or as
the application of the minus sign, which may lack the parenthesis that closes
it. No text has two of these forms, so the order in which the decoder tries
them makes no difference.

Only decimal numerals are limited in length, and that is the only way in which
decoding a value can fail.

## Main definitions

* `SpellsBitVec`: A bit vector literal and the number it counts.
* `SignedDigits`, `SpellsDecimal`: A decimal numeral, its digits and its number.
* `NoLiteral`: A text of none of these forms.

## Theorems

* `bitVecLiteral?_eq_some_iff`, `decimalLiteral?_eq_some_iff`: The readers
  accept the literals of their form.
* `decodeStripped_of_bitVec`, `decodeStripped_of_decimal`,
  `decodeStripped_of_noLiteral`: What the decoder makes of each form.
* `decode_of_spellsBitVec`, `decode_of_spellsDecimal`: A literal is decoded when
  there are no blanks around it.
-/

namespace SmtSession

/-- A text is a bit vector literal that counts a number: a mark for the base
    and at least one digit. -/
inductive SpellsBitVec : List Char → Nat → Prop where
  | binary (digits : List Char) (n : Nat) (h : Text.SpellsIn 2 Text.BinaryDigit digits n) :
      SpellsBitVec ('#' :: 'b' :: digits) n
  | hexadecimal (digits : List Char) (n : Nat) (h : Text.SpellsIn 16 Text.HexDigit digits n) :
      SpellsBitVec ('#' :: 'x' :: digits) n

/-- A text consists of digits, of digits behind a minus sign, or of digits to
    which the minus sign is applied. The parenthesis that closes the
    application may be missing. -/
inductive SignedDigits : Bool → List Char → List Char → Prop where
  | plain (digits : List Char) : SignedDigits false digits digits
  | minus (digits : List Char) : SignedDigits true digits ('-' :: digits)
  | applied (before after digits behind close : List Char)
      (hbefore : ∀ c ∈ before, Text.isBlank c = true)
      (hafter : after ≠ [] ∧ ∀ c ∈ after, Text.isBlank c = true)
      (hbehind : ∀ c ∈ behind, Text.isBlank c = true) (hclose : close = [] ∨ close = [')']) :
      SignedDigits true digits ('(' :: (before ++ '-' :: (after ++ (digits ++ (behind ++ close)))))

/-- A text is a decimal numeral with some digits, negated or not, that spell
    the absolute value. -/
def SpellsDecimal (negative : Bool) (digits : List Char) (n : Nat) (cs : List Char) : Prop :=
  SignedDigits negative digits cs ∧ Text.SpellsIn 10 Text.DecimalDigit digits n

namespace Text

/-- The blanks and the digits of all scripts lie apart. -/
theorem isBlank_of_isDigit {c : Char} (h : isDigit c = true) : isBlank c = false := by
  have hapart : ∀ z ∈ digitZeros, ∀ range ∈ blankRanges, z + 9 < range.1 ∨ range.2 < z := by
    decide +kernel
  obtain ⟨d, z, hz, hd, hc⟩ := (isDigit_iff c).mp h
  rw [isBlank, inRanges, List.any_eq_false]
  intro range hrange
  have hrun := hapart z hz range hrange
  simp only [Bool.and_eq_true, decide_eq_true_eq]
  omega

theorem isBlank_of_getElem? {cs : List Char} (hcs : cs.any isBlank = false) {d : Nat} {c : Char}
    (h : cs[d]? = some c) : isBlank c = false :=
  Bool.eq_false_of_not_eq_true (List.any_eq_false.mp hcs c (List.mem_of_getElem? h))

theorem isBlank_of_hexDigit (c : Char) (d : Nat) (h : HexDigit c d) : isBlank c = false := by
  rcases h with h | h <;> exact isBlank_of_getElem? (by decide) h

theorem isBlank_of_binaryDigit (c : Char) (d : Nat) (h : BinaryDigit c d) : isBlank c = false :=
  isBlank_of_getElem? (by decide) h

theorem dropWhile_append_of_head (p : Char → Bool) (front rest : List Char)
    (hfront : ∀ c ∈ front, p c = true) (hrest : ∀ c ∈ rest.head?, p c = false) :
    (front ++ rest).dropWhile p = rest := by
  rw [List.dropWhile_append_of_pos hfront]
  cases rest with
  | nil => rfl
  | cons c rest => exact List.dropWhile_cons_of_neg (by simp [hrest c rfl])

theorem takeWhile_append_of_head (p : Char → Bool) (front rest : List Char)
    (hfront : ∀ c ∈ front, p c = true) (hrest : ∀ c ∈ rest.head?, p c = false) :
    (front ++ rest).takeWhile p = front := by
  rw [List.takeWhile_append_of_pos hfront]
  cases rest with
  | nil => simp
  | cons c rest => rw [List.takeWhile_cons_of_neg (by simp [hrest c rfl]), List.append_nil]

end Text

theorem bitVecLiteral?_eq_some_iff (cs : List Char) (n : Nat) :
    bitVecLiteral? cs = some n ↔ SpellsBitVec cs n := by
  constructor
  · intro h
    unfold bitVecLiteral? at h
    split at h
    · exact .binary _ n ((Text.positional?_eq_some_iff Text.binaryDigit?_eq_some_iff 2 _ n).mp h)
    · exact .hexadecimal _ n ((Text.positional?_eq_some_iff Text.hexDigit?_eq_some_iff 16 _ n).mp h)
    · cases h
  · rintro (⟨digits, _, h⟩ | ⟨digits, _, h⟩)
    · exact (Text.positional?_eq_some_iff Text.binaryDigit?_eq_some_iff 2 digits n).mpr h
    · exact (Text.positional?_eq_some_iff Text.hexDigit?_eq_some_iff 16 digits n).mpr h

/-- A run of at least one decimal digit. -/
def IsDigits (digits : List Char) : Prop :=
  digits ≠ [] ∧ ∀ c ∈ digits, Text.isDigit c = true

theorem IsDigits.head_isDigit {digits : List Char} (h : IsDigits digits) (rest : List Char) :
    ∀ c ∈ (digits ++ rest).head?, Text.isDigit c = true := by
  obtain ⟨hne, hall⟩ := h
  cases digits with
  | nil => exact absurd rfl hne
  | cons d digits =>
      rintro c ⟨⟩
      exact hall d List.mem_cons_self

theorem plainNumeral?_eq_some_iff (cs : List Char) (negative : Bool) (digits : List Char) :
    plainNumeral? cs = some (negative, digits) ↔
      IsDigits digits ∧ cs = (if negative then ['-'] else []) ++ digits := by
  have hcond (ds : List Char) : (!ds.isEmpty && ds.all Text.isDigit) = true ↔ IsDigits ds := by
    simp [IsDigits]
  have hminus : Text.isDigit '-' = false := by decide
  constructor
  · intro h
    unfold plainNumeral? at h
    split at h
    next sign body hsign =>
    simp only [hcond, Option.ite_none_right_eq_some, Option.some.injEq, Prod.mk.injEq] at h
    obtain ⟨hdigits, rfl, rfl⟩ := h
    split at hsign
    · cases hsign
      exact ⟨hdigits, rfl⟩
    · cases hsign
      exact ⟨hdigits, rfl⟩
  · rintro ⟨hdigits, rfl⟩
    cases negative with
    | true => exact if_pos ((hcond digits).mpr hdigits)
    | false =>
        rw [if_neg Bool.false_ne_true, List.nil_append]
        unfold plainNumeral?
        split
        next sign body hsign =>
        split at hsign
        · -- A run of digits does not start with a minus sign.
          have hfirst := hdigits.2 '-' List.mem_cons_self
          rw [hminus] at hfirst
          cases hfirst
        · cases hsign
          exact if_pos ((hcond digits).mpr hdigits)

theorem appliedNumeral?_of_signedDigits (before after digits behind close : List Char)
    (hbefore : ∀ c ∈ before, Text.isBlank c = true)
    (hafter : after ≠ [] ∧ ∀ c ∈ after, Text.isBlank c = true)
    (hbehind : ∀ c ∈ behind, Text.isBlank c = true) (hclose : close = [] ∨ close = [')'])
    (hdigits : IsDigits digits) :
    appliedNumeral? ('(' :: (before ++ '-' :: (after ++ (digits ++ (behind ++ close))))) =
      some digits := by
  obtain ⟨hne, hafter⟩ := hafter
  rcases after with _ | ⟨c, after⟩
  · exact absurd rfl hne
  have hc : Text.isBlank c = true := hafter c List.mem_cons_self
  have hminus : (before ++ '-' :: (c :: after ++ (digits ++ (behind ++ close)))).dropWhile
      Text.isBlank = '-' :: c :: (after ++ (digits ++ (behind ++ close))) := by
    refine Text.dropWhile_append_of_head _ _ _ hbefore ?_
    rintro d ⟨⟩
    decide
  have hbody : (after ++ (digits ++ (behind ++ close))).dropWhile Text.isBlank =
      digits ++ (behind ++ close) :=
    Text.dropWhile_append_of_head _ _ _ (fun d hd => hafter d (List.mem_cons_of_mem c hd))
      fun d hd => Text.isBlank_of_isDigit (hdigits.head_isDigit _ d hd)
  have hend : ∀ d ∈ (behind ++ close).head?, Text.isDigit d = false := by
    intro d hd
    by_contra hdigit
    have hblank := Text.isBlank_of_isDigit (Bool.eq_true_of_not_eq_false hdigit)
    rcases List.mem_append.mp (List.mem_of_mem_head? hd) with hd | hd
    · rw [hbehind d hd] at hblank
      cases hblank
    · rcases hclose with rfl | rfl
      · cases hd
      · rw [List.mem_singleton.mp hd] at hdigit
        exact hdigit (by decide)
  have htake := Text.takeWhile_append_of_head _ digits (behind ++ close) hdigits.2 hend
  have hdrop := Text.dropWhile_append_of_head _ digits (behind ++ close) hdigits.2 hend
  have hclosing : (behind ++ close).dropWhile Text.isBlank = close := by
    refine Text.dropWhile_append_of_head _ _ _ hbehind ?_
    rcases hclose with rfl | rfl
    · simp
    · rintro d ⟨⟩
      decide
  rw [appliedNumeral?]
  simp only [hminus, hbody, htake, hdrop, hclosing, hc]
  simp [hdigits.1, hclose]

theorem signedDigits_of_appliedNumeral? {cs digits : List Char}
    (h : appliedNumeral? cs = some digits) : IsDigits digits ∧ SignedDigits true digits cs := by
  unfold appliedNumeral? at h
  split at h
  · next body =>
    split at h
    · next c rest hminus =>
      simp only [Option.ite_none_right_eq_some, Option.some.injEq, Bool.and_eq_true,
        Bool.not_eq_true', List.isEmpty_eq_false_iff, Bool.or_eq_true, decide_eq_true_eq] at h
      obtain ⟨⟨⟨hc, hne⟩, hclose⟩, rfl⟩ := h
      -- The text in the pieces into which the reader cuts it.
      let digits := (rest.dropWhile Text.isBlank).takeWhile Text.isDigit
      let tail := (rest.dropWhile Text.isBlank).dropWhile Text.isDigit
      have hrest : rest = rest.takeWhile Text.isBlank ++ (digits ++ tail) := by
        rw [List.takeWhile_append_dropWhile, List.takeWhile_append_dropWhile]
      have htail : tail = tail.takeWhile Text.isBlank ++ tail.dropWhile Text.isBlank :=
        List.takeWhile_append_dropWhile.symm
      have hbody : body = body.takeWhile Text.isBlank ++
          '-' :: ((c :: rest.takeWhile Text.isBlank) ++
            (digits ++ (tail.takeWhile Text.isBlank ++ tail.dropWhile Text.isBlank))) := by
        rw [← htail, List.cons_append, ← hrest, ← hminus, List.takeWhile_append_dropWhile]
      have hdigits : IsDigits digits := ⟨hne, fun d hd => List.mem_takeWhile_imp hd⟩
      refine ⟨hdigits, ?_⟩
      rw [hbody]
      refine .applied _ _ _ _ _ (fun d hd => List.mem_takeWhile_imp hd)
        ⟨List.cons_ne_nil _ _, ?_⟩ (fun d hd => List.mem_takeWhile_imp hd) hclose
      exact List.forall_mem_cons.mpr ⟨hc, fun d hd => List.mem_takeWhile_imp hd⟩
    · cases h
  · cases h

/-- The digits of a decimal numeral, and whether they are negated. -/
def decimalLiteral? (cs : List Char) : Option (Bool × List Char) :=
  (plainNumeral? cs).or ((appliedNumeral? cs).map fun digits => (true, digits))

theorem decimalLiteral?_eq_some_iff (cs : List Char) (negative : Bool) (digits : List Char) :
    decimalLiteral? cs = some (negative, digits) ↔
      IsDigits digits ∧ SignedDigits negative digits cs := by
  rw [decimalLiteral?, Option.or_eq_some_iff, plainNumeral?_eq_some_iff]
  constructor
  · rintro (⟨hdigits, rfl⟩ | ⟨-, h⟩)
    · cases negative with
      | true => exact ⟨hdigits, .minus digits⟩
      | false => exact ⟨hdigits, .plain digits⟩
    · obtain ⟨ds, hds, heq⟩ := Option.map_eq_some_iff.mp h
      cases heq
      exact signedDigits_of_appliedNumeral? hds
  · rintro ⟨hdigits, h⟩
    cases h with
    | plain => exact .inl ⟨hdigits, rfl⟩
    | minus => exact .inl ⟨hdigits, rfl⟩
    | applied before after digits behind close hbefore hafter hbehind hclose =>
        refine .inr ⟨rfl, ?_⟩
        rw [appliedNumeral?_of_signedDigits before after digits behind close hbefore hafter hbehind
          hclose hdigits, Option.map_some]

/-- The characters that a decimal numeral may start with. -/
theorem SignedDigits.head {negative : Bool} {digits cs : List Char}
    (h : SignedDigits negative digits cs) (hdigits : IsDigits digits) :
    ∃ c rest, cs = c :: rest ∧ (c = '-' ∨ c = '(' ∨ Text.isDigit c = true) := by
  cases h with
  | plain =>
      rcases digits with _ | ⟨c, rest⟩
      · exact absurd rfl hdigits.1
      · exact ⟨c, rest, rfl, .inr (.inr (hdigits.2 c List.mem_cons_self))⟩
  | minus => exact ⟨'-', _, rfl, .inl rfl⟩
  | applied => exact ⟨'(', _, rfl, .inr (.inl rfl)⟩

theorem SpellsDecimal.isDigits {negative : Bool} {digits cs : List Char} {n : Nat}
    (h : SpellsDecimal negative digits n cs) : IsDigits digits := by
  obtain ⟨hne, hall, -⟩ := (Text.spellsIn_decimal_iff digits n).mp h.2
  exact ⟨hne, hall⟩

/-- No other literal starts like a decimal numeral. -/
theorem SpellsDecimal.head_ne {negative : Bool} {digits cs : List Char} {n : Nat}
    (h : SpellsDecimal negative digits n cs) (d : Char) (hd : d = 't' ∨ d = 'f' ∨ d = '#')
    (rest : List Char) : cs ≠ d :: rest := by
  obtain ⟨c, tail, rfl, hc⟩ := h.1.head h.isDigits
  intro heq
  cases heq
  rcases hd with rfl | rfl | rfl <;> exact absurd hc (by decide)

theorem SpellsDecimal.head_not_blank {negative : Bool} {digits cs : List Char} {n : Nat}
    (h : SpellsDecimal negative digits n cs) : ∀ c ∈ cs.head?, Text.isBlank c = false := by
  obtain ⟨c, rest, rfl, hc⟩ := h.1.head h.isDigits
  rintro d ⟨⟩
  rcases hc with rfl | rfl | hc
  · decide
  · decide
  · exact Text.isBlank_of_isDigit hc

theorem SpellsBitVec.head_not_blank {cs : List Char} {n : Nat} (h : SpellsBitVec cs n) :
    ∀ c ∈ cs.head?, Text.isBlank c = false := by
  cases h <;> rintro c ⟨⟩ <;> decide

theorem SpellsBitVec.last_not_blank {cs : List Char} {n : Nat} (h : SpellsBitVec cs n) :
    ∀ c ∈ cs.getLast?, Text.isBlank c = false := by
  have hlast {base : Nat} {digit : Char → Nat → Prop} {digits : List Char}
      (hdigits : Text.SpellsIn base digit digits n)
      (hdigit : ∀ c d, digit c d → Text.isBlank c = false) (a b : Char) :
      ∀ c ∈ (a :: b :: digits).getLast?, Text.isBlank c = false := by
    intro c hc
    have hsplit := List.getLast?_append_of_ne_nil [a, b] hdigits.1
    rw [List.cons_append, List.cons_append, List.nil_append] at hsplit
    rw [hsplit] at hc
    obtain ⟨-, ds, hds, -⟩ := hdigits
    obtain ⟨d, hd⟩ := Text.exists_of_mem_of_forall₂ hds (List.mem_of_mem_getLast? hc)
    exact hdigit c d hd
  cases h with
  | binary _ _ h => exact hlast h Text.isBlank_of_binaryDigit _ _
  | hexadecimal _ _ h => exact hlast h Text.isBlank_of_hexDigit _ _

/-- A text is none of the literals. -/
structure NoLiteral (cs : List Char) : Prop where
  not_true : cs ≠ "true".toList
  not_false : cs ≠ "false".toList
  not_bitVec : ∀ n, ¬ SpellsBitVec cs n
  not_decimal : ∀ negative digits n, ¬ SpellsDecimal negative digits n cs

namespace ModelValue

theorem decodeStripped_of_bitVec {cs : List Char} {n : Nat} (h : SpellsBitVec cs n) :
    decodeStripped cs = .ok (some (.int n)) := by
  have hne (c : Char) (hc : c ≠ '#') (rest : List Char) : cs ≠ c :: rest := by
    rintro rfl
    cases h <;> exact hc rfl
  have htrue : cs ≠ "true".toList := hne 't' (by decide) _
  have hfalse : cs ≠ "false".toList := hne 'f' (by decide) _
  rw [decodeStripped, if_neg htrue, if_neg hfalse, (bitVecLiteral?_eq_some_iff cs n).mpr h]

theorem decodeStripped_of_ne {cs : List Char} (htrue : cs ≠ "true".toList)
    (hfalse : cs ≠ "false".toList) (hbits : bitVecLiteral? cs = none) :
    decodeStripped cs =
      match decimalLiteral? cs with
      | some (negative, digits) =>
        (readDecimal digits).map fun n => some (.int (signed negative n))
      | none => .ok none := by
  have hread (negative : Bool) (digits : List Char) :
      (do let n ← readDecimal digits; return some (ModelValue.int (signed negative n))) =
        (readDecimal digits).map fun n => some (.int (signed negative n)) := by
    cases readDecimal digits <;> rfl
  rw [decodeStripped, if_neg htrue, if_neg hfalse, hbits, decimalLiteral?]
  cases plainNumeral? cs with
  | some numeral => exact hread numeral.1 numeral.2
  | none =>
      cases appliedNumeral? cs with
      | some digits => exact hread true digits
      | none => rfl

/-- A decimal numeral is read however it is written, and only its length can
    be in the way. -/
theorem decodeStripped_of_decimal {negative : Bool} {digits cs : List Char} {n : Nat}
    (h : SpellsDecimal negative digits n cs) :
    decodeStripped cs =
      if digits.length > digitLimit then .error (.tooLong digits.length)
      else .ok (some (.int (signed negative n))) := by
  have htrue : cs ≠ "true".toList := h.head_ne 't' (by simp) _
  have hfalse : cs ≠ "false".toList := h.head_ne 'f' (by simp) _
  have hbits : bitVecLiteral? cs = none := by
    refine Option.eq_none_iff_forall_ne_some.mpr ?_
    intro m hm
    cases (bitVecLiteral?_eq_some_iff cs m).mp hm <;> exact h.head_ne '#' (by simp) _ rfl
  have hread : readDecimal digits =
      if digits.length > digitLimit then .error (.tooLong digits.length) else .ok n := by
    rw [((Text.spellsIn_decimal_iff digits n).mp h.2).2.2, readDecimal]
  have hliteral := (decimalLiteral?_eq_some_iff cs negative digits).mpr ⟨h.isDigits, h.1⟩
  rw [decodeStripped_of_ne htrue hfalse hbits, hliteral]
  simp only [hread]
  split <;> rfl

theorem decodeStripped_of_noLiteral {cs : List Char} (h : NoLiteral cs) :
    decodeStripped cs = .ok none := by
  have hbits : bitVecLiteral? cs = none := by
    refine Option.eq_none_iff_forall_ne_some.mpr ?_
    intro n hn
    exact h.not_bitVec n ((bitVecLiteral?_eq_some_iff cs n).mp hn)
  have hdecimal : decimalLiteral? cs = none := by
    refine Option.eq_none_iff_forall_ne_some.mpr ?_
    rintro ⟨negative, digits⟩ hliteral
    obtain ⟨hdigits, hsigned⟩ := (decimalLiteral?_eq_some_iff cs negative digits).mp hliteral
    exact h.not_decimal negative digits _
      ⟨hsigned, (Text.spellsIn_decimal_iff digits _).mpr ⟨hdigits.1, hdigits.2, rfl⟩⟩
  rw [decodeStripped_of_ne h.not_true h.not_false hbits, hdecimal]

/-- A bit vector literal is decoded, whatever its length. -/
theorem decode_of_spellsBitVec {token : String} {n : Nat} (h : SpellsBitVec token.toList n) :
    decode token = .ok (.int n) := by
  rw [decode, Text.trim_eq_self _ _ h.head_not_blank h.last_not_blank, decodeStripped_of_bitVec h]
  rfl

/-- A numeral that is not too long is decoded when no blank follows it. -/
theorem decode_of_spellsDecimal {token : String} {negative : Bool} {digits : List Char} {n : Nat}
    (h : SpellsDecimal negative digits n token.toList)
    (hlast : ∀ c ∈ token.toList.getLast?, Text.isBlank c = false)
    (short : digits.length ≤ digitLimit) :
    decode token = .ok (.int (signed negative n)) := by
  rw [decode, Text.trim_eq_self _ _ h.head_not_blank hlast, decodeStripped_of_decimal h,
    if_neg (Nat.not_lt.mpr short)]
  rfl

end ModelValue

end SmtSession
