import SmtSession.SExpr.Basic
import SmtSession.SExpr.Source
import SmtSession.Text.Blank

/-!
# Reading S-Expressions

A reader holds one character of its input at a time, so that it can sit on a
pipe from a running solver. After the closing parenthesis of a list it does
not fetch the next character, which might not be there yet; it goes on as if
it had met a blank.

A semicolon starts a comment wherever a character is fetched, even in the
middle of an atom: the reader drops everything up to the end of the line, and
the line feed is the next character. A bar at the start of an atom quotes
everything up to the next bar, or to the end of the input. Elsewhere in an
atom a bar is a character like any other.

When the source fails, the operation under way is abandoned, and the reader
keeps whatever character it held last.

Every operation either hands the reader on with less input than before or
leaves it where it was. The input still to come, the held character included,
is the reader's weight; it is what all recursion here is measured by.

## Main definitions

* `Reader`: A source, whether its end was met, and the character held.
* `Reader.advance`: Fetch the next character outside comments.
* `Reader.skipBlanks`: Go to the next character that is not blank.
* `Reader.atEnd`: Whether only blanks and comments remain.
* `Reader.readAtom`: The atom at the held character.
* `Reader.readTree`: The next tree.
* `Reader.readAll`: All trees to come.
* `Reader.start`: A reader on a source.
* `SExpr.parseAll`: All trees in a text.

## Theorems

* `Reader.weight_advance_lt`: Fetching makes progress while a character is held.
* `Reader.weight_readTree_lt`: So does reading a tree that is there.
-/

namespace SmtSession

/-- A source, whether its end was met, and the character held: none before the
    first character and at the end. -/
structure Reader where
  source : Source
  exhausted : Bool
  current : Option Char
deriving Repr, DecidableEq

namespace Reader

/-- The result of an operation of a reader, which leaves a reader behind even
    when it faults. -/
abbrev Result (α : Type) := EStateM.Result Fault Reader α

/-- The input still to come, with the character held. -/
def weight (r : Reader) : Nat :=
  r.source.events.length + if r.current.isSome then 1 else 0

/-- Ask the source for a character, unless its end was met before. -/
def fetch (r : Reader) : Result (Option Char) :=
  if r.exhausted then .error .pastEnd r
  else match r.source.read with
    | (.error cause, source) => .error cause.fault { r with source }
    | (.ok none, source) => .ok none { r with source, exhausted := true }
    | (.ok (some c), source) => .ok (some c) { r with source }

/-- The reader with another character held. -/
def hold (c : Option Char) (r : Reader) : Reader := { r with current := c }

theorem weight_of_current {r : Reader} {c : Char} (h : r.current = some c) :
    r.weight = r.source.events.length + 1 := by
  simp [weight, h]

/-- Holding another character changes no weight. -/
theorem weight_hold_of_current {r : Reader} {c d : Char} (h : r.current = some c) :
    (r.hold (some d)).weight = r.weight := by
  simp [weight, hold, h]

/-- A fetch takes an event, or it meets the end and then there is no character
    to hold. -/
theorem weight_fetch_le {r r' : Reader} {c : Option Char} (h : r.fetch = .ok c r') :
    (r'.hold c).weight ≤ r.source.events.length := by
  rw [fetch] at h
  split at h
  · simp at h
  · rw [Source.read] at h
    split at h
    · simp at h
    · next heq =>
      simp only [EStateM.Result.ok.injEq] at h
      obtain ⟨rfl, rfl⟩ := h
      split at heq <;> simp_all [weight, hold]
      · obtain rfl := heq; simp_all
      · obtain rfl := heq; simp_all
    · next heq =>
      simp only [EStateM.Result.ok.injEq] at h
      obtain ⟨rfl, rfl⟩ := h
      split at heq <;> simp_all [weight, hold]
      obtain ⟨_, rfl⟩ := heq
      simp_all

/-- Drop characters up to the end of the line, which is then held, or to the
    end of the input. Each character is held as it passes. -/
def dropComment (r : Reader) : Result Unit :=
  match _hc : r.current with
  | none => .ok () r
  | some '\n' => .ok () r
  | some _ =>
    match _hf : r.fetch with
    | .error fault r' => .error fault r'
    | .ok c r' => dropComment (r'.hold c)
termination_by r.weight
decreasing_by
  have hle := weight_fetch_le _hf
  have hw := weight_of_current _hc
  omega

/-- Fetch the next character, past a comment if one starts here. -/
def advance (r : Reader) : Result Unit :=
  match r.fetch with
  | .error fault r' => .error fault r'
  | .ok c r' => if c = some ';' then dropComment (r'.hold c) else .ok () (r'.hold c)

theorem weight_dropComment_le {r r' : Reader} (h : r.dropComment = .ok () r') :
    r'.weight ≤ r.weight := by
  fun_induction dropComment r with
  | case1 => simp_all
  | case2 => simp_all
  | case3 => simp_all
  | case4 r c _ hc c' r'' hf ih =>
    have hle := weight_fetch_le hf
    have hw := weight_of_current hc
    have := ih h
    omega

theorem weight_advance_le {r r' : Reader} (h : r.advance = .ok () r') :
    r'.weight ≤ r.source.events.length := by
  rw [advance] at h
  split at h
  · simp at h
  · next hf =>
    have hle := weight_fetch_le hf
    split at h
    · exact Nat.le_trans (weight_dropComment_le h) hle
    · simp only [EStateM.Result.ok.injEq] at h
      rw [← h.2]
      exact hle

/-- Fetching makes progress while a character is held. -/
theorem weight_advance_lt {r r' : Reader} {c : Char} (hc : r.current = some c)
    (h : r.advance = .ok () r') : r'.weight < r.weight := by
  have hle := weight_advance_le h
  have hw := weight_of_current hc
  omega

/-- Go to the next character that is not blank, or to the end. -/
def skipBlanks (r : Reader) : Result Unit :=
  match _hc : r.current with
  | none => .ok () r
  | some c =>
    if Text.isBlank c then
      match _ha : r.advance with
      | .error fault r' => .error fault r'
      | .ok () r' => skipBlanks r'
    else .ok () r
termination_by r.weight
decreasing_by exact weight_advance_lt _hc _ha

theorem weight_skipBlanks_le {r r' : Reader} (h : r.skipBlanks = .ok () r') :
    r'.weight ≤ r.weight := by
  fun_induction skipBlanks r with
  | case1 => simp_all
  | case2 => simp_all
  | case3 r c hc hb r'' ha ih => exact Nat.le_trans (ih h) (Nat.le_of_lt (weight_advance_lt hc ha))
  | case4 => simp_all

theorem isBlank_current_skipBlanks {r r' : Reader} {c : Char} (h : r.skipBlanks = .ok () r')
    (hc : r'.current = some c) : Text.isBlank c = false := by
  fun_induction skipBlanks r with
  | case1 => simp_all
  | case2 => simp_all
  | case3 r d hd hb r'' ha ih => exact ih h
  | case4 => simp_all

/-- Whether only blanks and comments remain. -/
def atEnd (r : Reader) : Result Bool :=
  match r.skipBlanks with
  | .error fault r' => .error fault r'
  | .ok () r' => .ok r'.current.isNone r'

/-- Whether a character ends an atom that is not quoted. -/
def endsAtom (c : Char) : Bool := Text.isBlank c || c = '(' || c = ')'

/-- The characters up to one that ends an atom, or up to the end. -/
def readPlain (r : Reader) : Result (List Char) :=
  match _hc : r.current with
  | none => .ok [] r
  | some c =>
    if endsAtom c then .ok [] r
    else
      match _ha : r.advance with
      | .error fault r' => .error fault r'
      | .ok () r' =>
        match readPlain r' with
        | .error fault r'' => .error fault r''
        | .ok cs r'' => .ok (c :: cs) r''
termination_by r.weight
decreasing_by exact weight_advance_lt _hc _ha

/-- The characters up to a bar, which is passed, or up to the end. -/
def readQuoted (r : Reader) : Result (List Char) :=
  match _hc : r.current with
  | none => .ok [] r
  | some c =>
    match _ha : r.advance with
    | .error fault r' => .error fault r'
    | .ok () r' =>
      if c = '|' then .ok [] r'
      else
        match readQuoted r' with
        | .error fault r'' => .error fault r''
        | .ok cs r'' => .ok (c :: cs) r''
termination_by r.weight
decreasing_by exact weight_advance_lt _hc _ha

/-- The atom at the held character: what a bar quotes, or else a plain one. -/
def readAtom (r : Reader) : Result SExpr :=
  let characters :=
    if r.current = some '|' then
      match r.advance with
      | .error fault r' => .error fault r'
      | .ok () r' => readQuoted r'
    else readPlain r
  match characters with
  | .error fault r' => .error fault r'
  | .ok cs r' => .ok (.atom (String.ofList cs)) r'

theorem weight_readPlain_le {r r' : Reader} {cs : List Char} (h : r.readPlain = .ok cs r') :
    r'.weight ≤ r.weight := by
  fun_induction readPlain r generalizing cs r' with
  | case1 => simp_all
  | case2 => simp_all
  | case3 => simp_all
  | case4 => simp_all
  | case5 r c hc he r'' ha cs' r''' hp ih =>
    have hlt := weight_advance_lt hc ha
    have hle := ih hp
    simp only [EStateM.Result.ok.injEq] at h
    obtain ⟨-, rfl⟩ := h
    omega

theorem weight_readQuoted_le {r r' : Reader} {cs : List Char} (h : r.readQuoted = .ok cs r') :
    r'.weight ≤ r.weight := by
  fun_induction readQuoted r generalizing cs r' with
  | case1 => simp_all
  | case2 => simp_all
  | case3 r r'' ha hc =>
    simp only [EStateM.Result.ok.injEq] at h
    obtain ⟨-, rfl⟩ := h
    exact Nat.le_of_lt (weight_advance_lt hc ha)
  | case4 => simp_all
  | case5 r c hc r'' ha hbar cs' r''' hq ih =>
    have hlt := weight_advance_lt hc ha
    have hle := ih hq
    simp only [EStateM.Result.ok.injEq] at h
    obtain ⟨-, rfl⟩ := h
    omega

/-- An atom that is there takes at least one character. -/
theorem weight_readAtom_lt {r r' : Reader} {c : Char} {t : SExpr} (hc : r.current = some c)
    (he : endsAtom c = false) (h : r.readAtom = .ok t r') : r'.weight < r.weight := by
  rw [readAtom] at h
  split at h
  · simp at h
  · next cs r'' hcs =>
    simp only [EStateM.Result.ok.injEq] at h
    obtain ⟨-, rfl⟩ := h
    split at hcs
    · split at hcs
      · simp at hcs
      · next ha => exact Nat.lt_of_le_of_lt (weight_readQuoted_le hcs) (weight_advance_lt hc ha)
    · rw [readPlain] at hcs
      split at hcs
      · next hn => simp [hc] at hn
      · next d hd =>
        obtain rfl : c = d := by simpa [hc] using hd
        rw [if_neg (by simp [he])] at hcs
        split at hcs
        · simp at hcs
        · next ha =>
          split at hcs
          · simp at hcs
          · next hp =>
            simp only [EStateM.Result.ok.injEq] at hcs
            obtain ⟨-, rfl⟩ := hcs
            exact Nat.lt_of_le_of_lt (weight_readPlain_le hp) (weight_advance_lt hc ha)

/-- The list whose items were collected backwards. -/
def collected (items : List SExpr) : SExpr := .list items.reverse

/-- The next tree, where `pending` holds the items read so far of the lists
    that are open, innermost first and each of them backwards. Without open
    lists the first tree that is complete is the answer; at the end of the
    input that is the empty atom. -/
def readInto (pending : List (List SExpr)) (r : Reader) : Result SExpr :=
  match _hs : r.skipBlanks with
  | .error fault r' => .error fault r'
  | .ok () r' =>
    match _hc : r'.current with
    | none =>
      match pending with
      | [] => .ok (.atom "") r'
      | _ => .error .unbalanced r'
    | some c =>
      if _ho : c = '(' then
        match _ha : r'.advance with
        | .error fault r'' => .error fault r''
        | .ok () r'' => readInto ([] :: pending) r''
      else if _hcl : c = ')' then
        match pending with
        | [] => .error .unbalanced r'
        | [items] => .ok (collected items) (r'.hold (some ' '))
        | items :: siblings :: rest =>
          readInto ((collected items :: siblings) :: rest) (r'.hold (some ' '))
      else
        match _hr : r'.readAtom with
        | .error fault r'' => .error fault r''
        | .ok t r'' =>
          match pending with
          | [] => .ok t r''
          | siblings :: rest => readInto ((t :: siblings) :: rest) r''
termination_by 2 * r.weight + pending.length
decreasing_by
  · have hle := weight_skipBlanks_le _hs
    have hlt := weight_advance_lt _hc _ha
    rw [List.length_cons]
    omega
  · have hle := weight_skipBlanks_le _hs
    rw [weight_hold_of_current _hc]
    simp only [List.length_cons]
    omega
  · have hle := weight_skipBlanks_le _hs
    have hb := isBlank_current_skipBlanks _hs _hc
    have hlt := weight_readAtom_lt _hc (by simp [endsAtom, hb, _ho, _hcl]) _hr
    simp only [List.length_cons]
    omega

/-- The next tree: the empty atom at the end of the input. -/
def readTree (r : Reader) : Result SExpr := readInto [] r

theorem weight_readInto_le {pending : List (List SExpr)} {r r' : Reader} {t : SExpr}
    (h : readInto pending r = .ok t r') : r'.weight ≤ r.weight := by
  fun_induction readInto pending r with
  | case2 r r₁ hs hc =>
    simp only [EStateM.Result.ok.injEq] at h
    rw [← h.2]
    exact weight_skipBlanks_le hs
  | case5 pending r r₁ hs r₂ ha hc ih =>
    have hle := weight_skipBlanks_le hs
    have hlt := weight_advance_lt hc ha
    have := ih h
    omega
  | case7 r r₁ hs items hc ho =>
    simp only [EStateM.Result.ok.injEq] at h
    rw [← h.2, weight_hold_of_current hc]
    exact weight_skipBlanks_le hs
  | case8 r r₁ hs items siblings rest hc ho ih =>
    have hle := weight_skipBlanks_le hs
    have := ih h
    rw [weight_hold_of_current hc] at this
    omega
  | case10 r r₁ hs c hc ho hcl t' r₂ hr =>
    simp only [EStateM.Result.ok.injEq] at h
    have hle := weight_skipBlanks_le hs
    have hb := isBlank_current_skipBlanks hs hc
    have hlt := weight_readAtom_lt hc (by simp [endsAtom, hb, ho, hcl]) hr
    rw [← h.2]
    omega
  | case11 r r₁ hs c hc ho hcl t' r₂ hr siblings rest ih =>
    have hle := weight_skipBlanks_le hs
    have hb := isBlank_current_skipBlanks hs hc
    have hlt := weight_readAtom_lt hc (by simp [endsAtom, hb, ho, hcl]) hr
    have := ih h
    omega
  | _ => simp_all

theorem skipBlanks_of_current {r : Reader} {c : Char} (hc : r.current = some c)
    (hb : Text.isBlank c = false) : r.skipBlanks = .ok () r := by
  rw [skipBlanks]
  split
  · simp_all
  · next d hd =>
    obtain rfl : c = d := by simpa [hc] using hd
    simp [hb]

/-- Reading a tree that is there takes at least one character. -/
theorem weight_readTree_lt {r r' : Reader} {c : Char} {t : SExpr} (hc : r.current = some c)
    (hb : Text.isBlank c = false) (h : r.readTree = .ok t r') : r'.weight < r.weight := by
  rw [readTree, readInto] at h
  split at h
  · simp at h
  · next r₁ hs =>
    obtain rfl : r = r₁ := by simpa [skipBlanks_of_current hc hb] using hs
    split at h
    · simp_all
    · next d hd =>
      obtain rfl : c = d := by simpa [hc] using hd
      split at h
      · split at h
        · simp at h
        · next ha => exact Nat.lt_of_le_of_lt (weight_readInto_le h) (weight_advance_lt hc ha)
      · split at h
        · simp at h
        · next ho hcl =>
          split at h
          · simp at h
          · next hr =>
            simp only [EStateM.Result.ok.injEq] at h
            rw [← h.2]
            exact weight_readAtom_lt hc (by simp [endsAtom, hb, ho, hcl]) hr

/-- When a reader says that it is not at its end, it holds a character that is
    not blank, and nothing was added to its input. -/
theorem atEnd_eq_false {r r' : Reader} (h : r.atEnd = .ok false r') :
    r'.weight ≤ r.weight ∧ ∃ c, r'.current = some c ∧ Text.isBlank c = false := by
  rw [atEnd] at h
  split at h
  · simp at h
  · next r₁ hs =>
    simp only [EStateM.Result.ok.injEq, Option.isNone_eq_false_iff, Option.isSome_iff_exists] at h
    obtain ⟨⟨c, hc⟩, rfl⟩ := h
    exact ⟨weight_skipBlanks_le hs, c, hc, isBlank_current_skipBlanks hs hc⟩

/-- All trees to come. -/
def readAll (r : Reader) : Result (List SExpr) :=
  match _he : r.atEnd with
  | .error fault r' => .error fault r'
  | .ok true r' => .ok [] r'
  | .ok false r' =>
    match _ht : r'.readTree with
    | .error fault r'' => .error fault r''
    | .ok t r'' =>
      match readAll r'' with
      | .error fault r''' => .error fault r'''
      | .ok ts r''' => .ok (t :: ts) r'''
termination_by r.weight
decreasing_by
  obtain ⟨hle, c, hc, hb⟩ := atEnd_eq_false _he
  have hlt := weight_readTree_lt hc hb _ht
  omega

/-- A reader that holds no character yet. -/
def ofSource (source : Source) : Reader := ⟨source, false, none⟩

/-- Set a reader up on a source, which fetches the first character. When that
    fails, what is left behind is no reader, but its source is. -/
def start (source : Source) : Result Unit := (ofSource source).advance

end Reader

/-- All trees in a text. -/
def SExpr.parseAll (text : String) : Except Fault (List SExpr) :=
  match Reader.start (.ofText text) with
  | .error fault _ => .error fault
  | .ok () r =>
    match r.readAll with
    | .error fault _ => .error fault
    | .ok trees _ => .ok trees

end SmtSession
