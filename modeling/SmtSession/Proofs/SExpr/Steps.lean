import SmtSession.SExpr.Reader

/-!
# Steps of the Reader

Each operation of the reader as its first step and what it goes on with. The
definitions match on the result of a step with the equations that their
termination needs, which no rewriting gets past. The equations here hold for
every reader that holds the right character, whether the step succeeds or
fails, and proofs about operations by induction use nothing else.

`Result.andThen` goes on where a step has answered. Where the step fails, so
does the operation, and it leaves what the step left.

## Main definitions

* `Reader.Result.andThen`: Go on with an operation that depends on an answer.
* `Reader.Result.reporting`: The result with its answer in other words.
* `Reader.request`: Fetch a character and hold it.
* `Reader.deliver`: What becomes of a tree that is complete.

## Theorems

* `Reader.dropComment_of_stop`, `Reader.skipBlanks_of_stop`,
  `Reader.readPlain_of_stop`, `Reader.readQuoted_of_none`: Where operations stop.
* `Reader.advance_request`, `Reader.dropComment_request`: Fetching outside and
  inside comments.
* `Reader.skipBlanks_blank`, `Reader.readPlain_plain`, `Reader.readQuoted_quoted`:
  Operations that go on from character to character.
* `Reader.readInto_blanks`, `Reader.readInto_opening`, `Reader.readInto_closing`,
  `Reader.readInto_atom`: A tree by its first character.
* `Reader.readAll_atEnd`: All trees, one after the other.
* `Reader.skipBlanks_ne_unbalanced`, `Reader.atEnd_ne_unbalanced`: Only trees
  have parentheses to complain about.
-/

namespace SmtSession

namespace Reader

variable {α β : Type}

/-- Go on with an operation that depends on an answer. -/
def Result.andThen (next : β → Reader → Result α) : Result β → Result α
  | .ok b r => next b r
  | .error fault r => .error fault r

/-- The result with its answer in other words. -/
def Result.reporting (f : α → β) : Result α → Result β
  | .ok a r => .ok (f a) r
  | .error fault r => .error fault r

theorem reporting_eq (f : α → β) (x : Result α) :
    x.reporting f = x.andThen fun a => .ok (f a) := by
  cases x <;> rfl

/-! ## Where the Operations Stop -/

theorem dropComment_of_stop {r : Reader} (h : ∀ c, r.current = some c → c = '\n') :
    r.dropComment = .ok () r := by
  rw [dropComment]
  split
  · rfl
  · rfl
  · next c hline hc => exact absurd (h c hc) hline

theorem skipBlanks_of_stop {r : Reader} (h : ∀ c, r.current = some c → Text.isBlank c = false) :
    r.skipBlanks = .ok () r := by
  cases hc : r.current with
  | some c => exact skipBlanks_of_current hc (h c hc)
  | none =>
      rw [skipBlanks]
      split
      · rfl
      · next d hd => simp [hc] at hd

theorem readPlain_of_stop {r : Reader} (h : ∀ c, r.current = some c → endsAtom c = true) :
    r.readPlain = .ok [] r := by
  rw [readPlain]
  split
  · rfl
  · next c hc => rw [if_pos (h c hc)]

theorem readQuoted_of_none {r : Reader} (h : r.current = none) : r.readQuoted = .ok [] r := by
  rw [readQuoted]
  split
  · rfl
  · next c hc => simp [h] at hc

/-! ## Fetching -/

/-- Fetch a character and hold it. -/
def request (r : Reader) : Result (Option Char) :=
  match r.fetch with
  | .error fault r' => .error fault r'
  | .ok c r' => .ok c (r'.hold c)

theorem weight_request_le {r r' : Reader} {c : Option Char} (h : r.request = .ok c r') :
    r'.weight ≤ r.source.events.length := by
  rw [request] at h
  split at h
  · cases h
  · next hfetch =>
      cases h
      exact weight_fetch_le hfetch

theorem dropComment_request {r : Reader} {c : Char} (hc : r.current = some c) (hline : c ≠ '\n') :
    r.dropComment = r.request.andThen fun _ => dropComment := by
  rw [dropComment, request]
  split
  · next h => simp [hc] at h
  · next h => exact absurd (Option.some.inj (hc.symm.trans h)) hline
  · cases r.fetch <;> rfl

/-- Inside a comment a character is fetched and held. -/
theorem dropComment_fetch {r r' : Reader} {c : Char} {d : Option Char} (hc : r.current = some c)
    (hline : c ≠ '\n') (hfetch : r.fetch = .ok d r') :
    r.dropComment = (r'.hold d).dropComment := by
  rw [dropComment_request hc hline, request, hfetch]
  rfl

theorem advance_request (r : Reader) :
    r.advance = r.request.andThen fun c r' => if c = some ';' then r'.dropComment else .ok () r' := by
  rw [advance, request]
  cases r.fetch <;> rfl

/-- Where no tree is read, there are no parentheses to complain about. -/
theorem fetch_ne_unbalanced {r r' : Reader} {fault : Fault} (h : r.fetch = .error fault r') :
    fault ≠ .unbalanced := by
  rw [fetch] at h
  split at h
  · cases h
    rintro ⟨⟩
  · split at h
    · next cause source hread =>
        cases h
        cases cause <;> rintro ⟨⟩
    · cases h
    · cases h

theorem dropComment_ne_unbalanced {r r' : Reader} {fault : Fault}
    (h : r.dropComment = .error fault r') : fault ≠ .unbalanced := by
  fun_induction dropComment r with
  | case1 r hc => cases h
  | case2 r hc => cases h
  | case3 r c hline hc fault r₁ hf =>
      cases h
      exact fetch_ne_unbalanced hf
  | case4 r c hline hc d r₁ hf ih => exact ih h

theorem advance_ne_unbalanced {r r' : Reader} {fault : Fault} (h : r.advance = .error fault r') :
    fault ≠ .unbalanced := by
  rw [advance] at h
  split at h
  · next hf =>
      cases h
      exact fetch_ne_unbalanced hf
  · split at h
    · exact dropComment_ne_unbalanced h
    · cases h

/-! ## Characters -/

theorem skipBlanks_blank {r : Reader} {c : Char} (hc : r.current = some c)
    (hblank : Text.isBlank c = true) :
    r.skipBlanks = r.advance.andThen fun _ => skipBlanks := by
  rw [skipBlanks]
  split
  · next h => simp [hc] at h
  · next d hd =>
      obtain rfl : c = d := Option.some.inj (hc.symm.trans hd)
      rw [if_pos hblank]
      split <;> next h => rw [h]; rfl

theorem atEnd_skipBlanks (r : Reader) :
    r.atEnd = r.skipBlanks.andThen fun _ r' => .ok r'.current.isNone r' := by
  rw [atEnd]
  cases r.skipBlanks <;> rfl

theorem skipBlanks_ne_unbalanced {r r' : Reader} {fault : Fault}
    (h : r.skipBlanks = .error fault r') : fault ≠ .unbalanced := by
  fun_induction skipBlanks r with
  | case2 r c hc hblank fault r₁ ha =>
      cases h
      exact advance_ne_unbalanced ha
  | case3 r c hc hblank r₁ ha ih => exact ih h
  | _ => cases h

theorem atEnd_ne_unbalanced {r r' : Reader} {fault : Fault} (h : r.atEnd = .error fault r') :
    fault ≠ .unbalanced := by
  rw [atEnd_skipBlanks] at h
  cases hskip : r.skipBlanks <;> rw [hskip] at h <;> cases h
  exact skipBlanks_ne_unbalanced hskip

theorem of_atEnd {r r' : Reader} {ended : Bool} (h : r.atEnd = .ok ended r') :
    r.skipBlanks = .ok () r' ∧ ended = r'.current.isNone := by
  rw [atEnd_skipBlanks] at h
  cases hskip : r.skipBlanks <;> rw [hskip] at h <;> cases h
  exact ⟨rfl, rfl⟩

theorem readPlain_plain {r : Reader} {c : Char} (hc : r.current = some c)
    (hends : endsAtom c = false) :
    r.readPlain = r.advance.andThen fun _ r' => r'.readPlain.andThen fun cs => .ok (c :: cs) := by
  rw [readPlain]
  split
  · next h => simp [hc] at h
  · next d hd =>
      obtain rfl : c = d := Option.some.inj (hc.symm.trans hd)
      rw [if_neg (by simp [hends])]
      split
      · next h => rw [h]; rfl
      · next r₁ h => rw [h]; cases hplain : r₁.readPlain <;> simp only [Result.andThen, hplain]

theorem readQuoted_quoted {r : Reader} {c : Char} (hc : r.current = some c) :
    r.readQuoted = r.advance.andThen fun _ r' =>
      if c = '|' then .ok [] r' else r'.readQuoted.andThen fun cs => .ok (c :: cs) := by
  rw [readQuoted]
  split
  · next h => simp [hc] at h
  · next d hd =>
      obtain rfl : c = d := Option.some.inj (hc.symm.trans hd)
      split
      · next h => rw [h]; rfl
      · next r₁ h => rw [h]; cases hquoted : r₁.readQuoted <;> simp only [Result.andThen, hquoted]

theorem readAtom_quoted {r : Reader} (hc : r.current = some '|') :
    r.readAtom = r.advance.andThen fun _ r' =>
      r'.readQuoted.andThen fun cs => .ok (.atom (String.ofList cs)) := by
  rw [readAtom, if_pos hc]
  cases hadvance : r.advance with
  | error fault r₁ => rfl
  | ok _ r₁ => cases hquoted : r₁.readQuoted <;> simp only [Result.andThen, hquoted]

theorem readAtom_plain {r : Reader} (hc : r.current ≠ some '|') :
    r.readAtom = r.readPlain.andThen fun cs => .ok (.atom (String.ofList cs)) := by
  rw [readAtom, if_neg hc]
  cases r.readPlain <;> rfl

/-! ## Trees -/

/-- A tree that is complete is the answer when no list is open, and otherwise it is
    the next item of the innermost one. -/
def deliver (pending : List (List SExpr)) (t : SExpr) (r : Reader) : Result SExpr :=
  match pending with
  | [] => .ok t r
  | siblings :: outer => readInto ((t :: siblings) :: outer) r

/-- What comes first decides how a tree is read. -/
theorem readInto_skipBlanks {pending : List (List SExpr)} {r r' : Reader}
    (hskip : r.skipBlanks = .ok () r') :
    readInto pending r = match r'.current with
      | none =>
        match pending with
        | [] => .ok (.atom "") r'
        | _ => .error .unbalanced r'
      | some c =>
        if c = '(' then
          match r'.advance with
          | .error fault r'' => .error fault r''
          | .ok () r'' => readInto ([] :: pending) r''
        else if c = ')' then
          match pending with
          | [] => .error .unbalanced r'
          | [items] => .ok (collected items) (r'.hold (some ' '))
          | items :: siblings :: rest =>
            readInto ((collected items :: siblings) :: rest) (r'.hold (some ' '))
        else
          match r'.readAtom with
          | .error fault r'' => .error fault r''
          | .ok t r'' =>
            match pending with
            | [] => .ok t r''
            | siblings :: rest => readInto ((t :: siblings) :: rest) r'' := by
  rw [readInto]
  split
  · next h => simp [hskip] at h
  · next h =>
      rw [hskip] at h
      cases h
      split
      · next h => cases pending <;> simp only [h]
      · next c h =>
          rw [h]
          simp only
          split
          · split <;> next ha => rw [ha]
          · split
            · rfl
            · split
              · next hr => simp only [hr]
              · next hr => cases pending <;> simp only [hr]

/-- Blanks in front make no difference to a tree. -/
theorem readInto_of_skipBlanks {pending : List (List SExpr)} {r r₁ : Reader}
    (h : r.skipBlanks = .ok () r₁) : readInto pending r = readInto pending r₁ := by
  rw [readInto_skipBlanks h,
    readInto_skipBlanks (skipBlanks_of_stop fun c => isBlank_current_skipBlanks h)]

theorem readInto_blanks (pending : List (List SExpr)) (r : Reader) :
    readInto pending r = r.skipBlanks.andThen fun _ => readInto pending := by
  cases hskip : r.skipBlanks with
  | ok _ r₁ => exact readInto_of_skipBlanks hskip
  | error fault r₁ =>
      rw [readInto]
      split
      · next h => rw [hskip] at h; cases h; rfl
      · next h => rw [hskip] at h; cases h

theorem readInto_none {pending : List (List SExpr)} {r : Reader} (hc : r.current = none) :
    readInto pending r = match pending with
      | [] => .ok (.atom "") r
      | _ => .error .unbalanced r := by
  rw [readInto_skipBlanks (skipBlanks_of_stop (by simp [hc])), hc]

theorem readInto_opening {pending : List (List SExpr)} {r : Reader} (hc : r.current = some '(') :
    readInto pending r = r.advance.andThen fun _ => readInto ([] :: pending) := by
  rw [readInto_skipBlanks (skipBlanks_of_current hc (by decide)), hc]
  cases r.advance <;> rfl

theorem readInto_closing {items : List SExpr} {outer : List (List SExpr)} {r : Reader}
    (hc : r.current = some ')') :
    readInto (items :: outer) r = deliver outer (collected items) (r.hold (some ' ')) := by
  rw [readInto_skipBlanks (skipBlanks_of_current hc (by decide)), hc]
  cases outer <;> rfl

theorem readInto_atom {pending : List (List SExpr)} {r : Reader} {c : Char}
    (hc : r.current = some c) (hends : endsAtom c = false) :
    readInto pending r = r.readAtom.andThen (deliver pending) := by
  simp only [endsAtom, Bool.or_eq_false_iff, decide_eq_false_iff_not] at hends
  rcases hends with ⟨⟨hblank, hopening⟩, hclosing⟩
  rw [readInto_skipBlanks (skipBlanks_of_current hc hblank), hc]
  refine ((if_neg hopening).trans (if_neg hclosing)).trans ?_
  cases r.readAtom <;> rfl

theorem readInto_closing_none {r : Reader} (hc : r.current = some ')') :
    readInto [] r = .error .unbalanced r := by
  rw [readInto_skipBlanks (skipBlanks_of_current hc (by decide)), hc]
  rfl

theorem readAll_atEnd (r : Reader) :
    r.readAll = r.atEnd.andThen fun ended r' =>
      if ended then .ok [] r'
      else r'.readTree.andThen fun t r'' => r''.readAll.andThen fun ts => .ok (t :: ts) := by
  rw [readAll]
  split
  · next hend => simp [hend, Result.andThen]
  · next hend => simp [hend, Result.andThen]
  · next r₁ hend =>
      simp only [hend, Result.andThen]
      split
      · next hread => simp [hread]
      · next t r₂ hread => cases hall : readAll r₂ <;> simp [hread, hall]

end Reader

end SmtSession
