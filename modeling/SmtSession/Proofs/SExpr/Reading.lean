import SmtSession.Proofs.SExpr.Steps
import SmtSession.Proofs.SExpr.Tokens

/-!
# Reading

What the reader makes of a text. A reader in the middle of a text is known by
the characters that are still to come outside comments, `Reader.Holds`: the
character held and those that the source will give. Each operation of the
reader is a function on this list, with comments out of the way and no
source to fail.

`readInto` consumes one token at a time, so what it answers follows by
induction on the tokens to come. That it puts a blank in place of a closing
parenthesis shows here as a blank in front of the list, which makes no token.

## Main definitions

* `Reader.Feeds`, `Reader.Holds`: The characters that a reader will fetch, and
  those it has still to read.
* `Reader.assembleFrom`: The trees that tokens make up below open lists.
* `Reader.ReadsFirst`: That a tree which was read is the first of these.

## Theorems

* `Reader.advance_eq`, `Reader.skipBlanks_eq`, `Reader.readPlain_eq`,
  `Reader.readQuoted_eq`, `Reader.readAtom_eq`: The operations as functions on
  the characters to come.
* `Reader.readInto_eq`: The next tree is the one that the tokens make up.
* `SExpr.parseAll_eq`: The reader answers with what the tokens of the text make
  up.
-/

namespace SmtSession

namespace Reader

open SExpr (Token tokens assemble withoutComments)

/-- The source of a reader is a text in memory, with these characters to come
    outside comments. -/
def Feeds (r : Reader) (cs : List Char) : Prop :=
  r.exhausted = false ∧
    ∃ rest : List Char, r.source.events = rest.map .char ∧ withoutComments false rest = cs

/-- The characters outside comments that a reader has still to read, from the
    character held on. -/
def Holds (r : Reader) : List Char → Prop
  | [] => r.current = none
  | c :: cs => r.current = some c ∧ r.Feeds cs

theorem Holds.current {r : Reader} {cs : List Char} (h : r.Holds cs) : r.current = cs.head? := by
  cases cs with
  | nil => exact h
  | cons c cs => exact h.1

/-- At the end of a text nothing is fetched any more. -/
theorem fetch_nil {r : Reader} (hr : r.exhausted = false) (hevents : r.source.events = []) :
    ∃ r', r.fetch = .ok none r' := by
  rw [fetch, if_neg (by simp [hr]), Source.read, hevents]
  exact ⟨_, rfl⟩

theorem fetch_cons {r : Reader} {c : Char} {rest : List Char} (hr : r.exhausted = false)
    (hevents : r.source.events = (c :: rest).map .char) :
    ∃ r', r.fetch = .ok (some c) r' ∧ r'.exhausted = false ∧
      r'.source.events = rest.map .char := by
  rw [fetch, if_neg (by simp [hr]), Source.read, hevents]
  exact ⟨_, rfl, hr, rfl⟩

/-- A comment ends where the text without comments goes on. -/
theorem dropComment_eq (rest : List Char) {r : Reader} {c : Char} (hc : r.current = some c)
    (hline : c ≠ '\n') (hr : r.exhausted = false) (hevents : r.source.events = rest.map .char) :
    ∃ r', r.dropComment = .ok () r' ∧ r'.Holds (withoutComments true rest) := by
  induction rest generalizing r c with
  | nil =>
      -- The text ends inside the comment.
      obtain ⟨r', hfetch⟩ := fetch_nil hr hevents
      refine ⟨r'.hold none, ?_, rfl⟩
      rw [dropComment_fetch hc hline hfetch, dropComment]
      rfl
  | cons d rest ih =>
      obtain ⟨r', hfetch, hr', hevents'⟩ := fetch_cons hr hevents
      rw [dropComment_fetch hc hline hfetch, withoutComments, if_pos rfl]
      by_cases hd : d = '\n'
      · -- The line feed is held and will be read.
        rw [if_pos hd]
        refine ⟨r'.hold (some d), ?_, rfl, hr', rest, hevents', rfl⟩
        subst hd
        rw [dropComment]
        rfl
      · rw [if_neg hd]
        exact ih rfl hd hr' hevents'

/-- Fetching takes a reader to the characters that its source has to give. -/
theorem advance_eq {r : Reader} {cs : List Char} (h : r.Feeds cs) :
    ∃ r', r.advance = .ok () r' ∧ r'.Holds cs := by
  obtain ⟨hr, rest, hevents, rfl⟩ := h
  cases rest with
  | nil =>
      obtain ⟨r', hfetch⟩ := fetch_nil hr hevents
      refine ⟨r'.hold none, ?_, rfl⟩
      rw [advance, hfetch]
      rfl
  | cons c rest =>
      obtain ⟨r', hfetch, hr', hevents'⟩ := fetch_cons hr hevents
      rw [advance, hfetch, withoutComments, if_neg Bool.false_ne_true]
      by_cases hc : c = ';'
      · -- A comment starts here: the first character after it is held.
        subst hc
        exact dropComment_eq rest (r := r'.hold (some ';')) rfl (by decide) hr' hevents'
      · simp only [hc, if_false, Option.some.injEq]
        exact ⟨_, rfl, rfl, hr', rest, hevents', rfl⟩

theorem skipBlanks_eq (cs : List Char) {r : Reader} (h : r.Holds cs) :
    ∃ r', r.skipBlanks = .ok () r' ∧ r'.Holds (cs.dropWhile Text.isBlank) := by
  induction cs generalizing r with
  | nil =>
      refine ⟨r, ?_, h⟩
      rw [skipBlanks]
      split
      · rfl
      · simp_all [Holds]
  | cons c cs ih =>
      by_cases hblank : Text.isBlank c = true
      · obtain ⟨r', hadvance, hr'⟩ := advance_eq h.2
        obtain ⟨r'', hskip, hr''⟩ := ih hr'
        rw [List.dropWhile_cons_of_pos hblank]
        rw [skipBlanks_blank h.1 hblank, hadvance]
        exact ⟨r'', hskip, hr''⟩
      · rw [List.dropWhile_cons_of_neg hblank]
        exact ⟨r, skipBlanks_of_current h.1 (by simpa using hblank), h⟩

theorem readPlain_eq (cs : List Char) {r : Reader} (h : r.Holds cs) :
    ∃ r', r.readPlain = .ok (cs.takeWhile fun c => !endsAtom c) r' ∧
      r'.Holds (cs.dropWhile fun c => !endsAtom c) := by
  induction cs generalizing r with
  | nil =>
      refine ⟨r, ?_, h⟩
      rw [readPlain]
      split
      · rfl
      · simp_all [Holds]
  | cons c cs ih =>
      by_cases hends : endsAtom c = true
      · rw [List.takeWhile_cons_of_neg (by simp [hends]),
          List.dropWhile_cons_of_neg (by simp [hends])]
        refine ⟨r, ?_, h⟩
        rw [readPlain]
        split
        · rfl
        · next d hd =>
            obtain rfl : c = d := by simpa [h.1] using hd
            rw [if_pos hends]
      · obtain ⟨r', hadvance, hr'⟩ := advance_eq h.2
        obtain ⟨r'', hplain, hr''⟩ := ih hr'
        rw [List.takeWhile_cons_of_pos (by simp [hends]),
          List.dropWhile_cons_of_pos (by simp [hends])]
        rw [readPlain_plain h.1 (by simpa using hends), hadvance, Result.andThen, hplain]
        exact ⟨r'', rfl, hr''⟩

theorem readQuoted_eq (cs : List Char) {r : Reader} (h : r.Holds cs) :
    ∃ r', r.readQuoted = .ok (cs.takeWhile (· ≠ '|')) r' ∧
      r'.Holds ((cs.dropWhile (· ≠ '|')).drop 1) := by
  induction cs generalizing r with
  | nil =>
      refine ⟨r, ?_, h⟩
      rw [readQuoted]
      split
      · rfl
      · simp_all [Holds]
  | cons c cs ih =>
      obtain ⟨r', hadvance, hr'⟩ := advance_eq h.2
      rw [readQuoted_quoted h.1, hadvance, Result.andThen]
      by_cases hbar : c = '|'
      · rw [List.takeWhile_cons_of_neg (by simp [hbar]),
          List.dropWhile_cons_of_neg (by simp [hbar]), if_pos hbar]
        exact ⟨r', rfl, hr'⟩
      · obtain ⟨r'', hquoted, hr''⟩ := ih hr'
        rw [List.takeWhile_cons_of_pos (by simp [hbar]),
          List.dropWhile_cons_of_pos (by simp [hbar]), if_neg hbar, hquoted]
        exact ⟨r'', rfl, hr''⟩

/-- Where the text goes on with an atom, the atom is read and its token is
    gone. -/
theorem readAtom_eq {r : Reader} {c : Char} {cs : List Char} (h : r.Holds (c :: cs))
    (hends : endsAtom c = false) :
    ∃ s r' cs', r.readAtom = .ok (.atom s) r' ∧ r'.Holds cs' ∧
      tokens (c :: cs) = .atom s :: tokens cs' := by
  by_cases hbar : c = '|'
  · -- The bar is passed before the characters are read.
    subst hbar
    obtain ⟨r', hadvance, hr'⟩ := advance_eq h.2
    obtain ⟨r'', hquoted, hr''⟩ := readQuoted_eq cs hr'
    refine ⟨_, r'', _, ?_, hr'', SExpr.tokens_quoted cs⟩
    simp only [readAtom, h.1, if_true, hadvance, hquoted]
  · obtain ⟨r', hplain, hr'⟩ := readPlain_eq (c :: cs) h
    rw [List.takeWhile_cons_of_pos (by simp [hends])] at hplain
    rw [List.dropWhile_cons_of_pos (by simp [hends])] at hr'
    refine ⟨_, r', _, ?_, hr', SExpr.tokens_plain hends hbar cs⟩
    simp only [readAtom, h.1, Option.some.injEq, hbar, if_false, hplain]

/-- The trees that tokens make up when some lists are open already, whose items
    are `pending`, below the trees at the top. -/
def assembleFrom (pending : List (List SExpr)) (top : List SExpr) (ts : List Token) :
    Option (List SExpr) :=
  match pending with
  | [] => assemble top [] ts
  | items :: rest => assemble items (rest ++ [top]) ts

theorem assembleFrom_opening (pending : List (List SExpr)) (top : List SExpr) (ts : List Token) :
    assembleFrom pending top (.opening :: ts) = assembleFrom ([] :: pending) top ts := by
  rcases pending with _ | ⟨items, _ | ⟨siblings, rest⟩⟩ <;> rfl

/-- What reading the next tree comes to below the lists that are open: it is the tree
    that the tokens to come make up first, and the reader is left with tokens behind it;
    or there is no such tree. -/
def ReadsFirst (pending : List (List SExpr)) (ts : List Token) (result : Result SExpr) : Prop :=
  (∃ t r' cs', result = .ok t r' ∧ r'.Holds cs' ∧ (tokens cs').length < ts.length ∧
      ∀ top, assembleFrom pending top ts = assemble (t :: top) [] (tokens cs')) ∨
    ∃ r', result = .error .unbalanced r' ∧ ∀ top, assembleFrom pending top ts = none

/-- A token in front changes the open lists and leaves the rest to the tokens behind it. -/
theorem ReadsFirst.cons {pending pending' : List (List SExpr)} {token : Token} {ts : List Token}
    {result : Result SExpr} (h : ReadsFirst pending' ts result)
    (hstep : ∀ top, assembleFrom pending top (token :: ts) = assembleFrom pending' top ts) :
    ReadsFirst pending (token :: ts) result := by
  rcases h with ⟨t, r', cs', hread, hr', hlt, hassemble⟩ | ⟨r', hread, hassemble⟩
  · exact .inl ⟨t, r', cs', hread, hr', Nat.lt_succ_of_lt hlt,
      fun top => (hstep top).trans (hassemble top)⟩
  · exact .inr ⟨r', hread, fun top => (hstep top).trans (hassemble top)⟩

/-- A reader reads the next tree as the tokens to come say. -/
theorem readInto_eq (ts : List Token) (pending : List (List SExpr)) {r : Reader}
    {cs : List Char} (h : r.Holds cs) (hts : tokens cs = ts) (hmore : pending ≠ [] ∨ ts ≠ []) :
    ReadsFirst pending ts (readInto pending r) := by
  -- The induction is on the tokens to come, for all readers that hold them.
  induction ts generalizing pending r cs with
  | nil =>
      obtain ⟨r', hskip, hr'⟩ := skipBlanks_eq cs h
      rw [← SExpr.tokens_dropWhile] at hts
      rcases hcs : cs.dropWhile Text.isBlank with _ | ⟨c, cs'⟩
      · -- Only blanks are left, and some list is open.
        rw [hcs] at hr'
        rw [readInto_skipBlanks hskip, hr'.current]
        rcases pending with _ | ⟨items, rest⟩
        · simp at hmore
        · exact .inr ⟨r', rfl, fun top => by cases rest <;> rfl⟩
      · rw [hcs] at hts hr'
        exact absurd hts (SExpr.tokens_ne_nil (isBlank_current_skipBlanks hskip hr'.1) cs')
  | cons token ts ih =>
      obtain ⟨r', hskip, hr'⟩ := skipBlanks_eq cs h
      rw [← SExpr.tokens_dropWhile] at hts
      rcases hcs : cs.dropWhile Text.isBlank with _ | ⟨c, cs'⟩
      · rw [hcs, SExpr.tokens_nil] at hts
        cases hts
      rw [hcs] at hts hr'
      rw [readInto_skipBlanks hskip, hr'.1]
      by_cases hopening : c = '('
      · -- One more list is open for the rest of the tokens.
        subst hopening
        rw [SExpr.tokens_opening] at hts
        obtain ⟨rfl, hrest⟩ := List.cons.inj hts
        obtain ⟨r'', hadvance, hr''⟩ := advance_eq hr'.2
        simp only [if_true, hadvance]
        have hread := ih ([] :: pending) hr'' hrest (.inl (List.cons_ne_nil _ _))
        exact hread.cons fun top => assembleFrom_opening pending top ts
      by_cases hclosing : c = ')'
      · subst hclosing
        rw [SExpr.tokens_closing] at hts
        obtain ⟨rfl, rfl⟩ := List.cons.inj hts
        -- The blank that takes the place of the parenthesis makes no token.
        have hblank : (r'.hold (some ' ')).Holds (' ' :: cs') := ⟨rfl, hr'.2⟩
        have htokens : tokens (' ' :: cs') = tokens cs' := SExpr.tokens_blank (by decide) cs'
        -- How many lists are open: none, the one that is closed, or more?
        rcases pending with _ | ⟨items, _ | ⟨siblings, rest⟩⟩
        · exact .inr ⟨r', rfl, fun top => rfl⟩
        · refine .inl ⟨collected items, _, ' ' :: cs', rfl, hblank, ?_, fun top => ?_⟩
          · rw [htokens]
            exact Nat.lt_succ_self _
          · rw [htokens]
            rfl
        · simp only [hopening, if_false, if_true]
          have hread := ih ((collected items :: siblings) :: rest) hblank htokens
            (.inl (List.cons_ne_nil _ _))
          exact hread.cons fun top => rfl
      · -- The character is neither a blank nor a parenthesis, so it starts an atom.
        have hends : endsAtom c = false := by
          simp [endsAtom, isBlank_current_skipBlanks hskip hr'.1, hopening, hclosing]
        obtain ⟨s, r'', rest, hatom, hr'', htokens⟩ := readAtom_eq hr' hends
        rw [htokens] at hts
        obtain ⟨rfl, rfl⟩ := List.cons.inj hts
        simp only [hopening, hclosing, if_false, hatom]
        rcases pending with _ | ⟨siblings, outer⟩
        · exact .inl ⟨_, r'', rest, rfl, hr'', Nat.lt_succ_self _, fun top => rfl⟩
        · have hread := ih ((.atom s :: siblings) :: outer) hr'' rfl (.inl (List.cons_ne_nil _ _))
          exact hread.cons fun top => by cases outer <;> rfl

/-- All trees to come are those that the tokens to come make up. -/
theorem readAll_eq (n : Nat) {r : Reader} {cs : List Char} (h : r.Holds cs)
    (hn : (tokens cs).length < n) :
    (∃ trees r', r.readAll = .ok trees r' ∧
      ∀ top, assemble top [] (tokens cs) = some (top.reverse ++ trees)) ∨
      ∃ r', r.readAll = .error .unbalanced r' ∧ ∀ top, assemble top [] (tokens cs) = none := by
  -- A tree takes a token at least, so their number bounds that of the trees.
  induction n generalizing r cs with
  | zero => exact absurd hn (Nat.not_lt_zero _)
  | succ n ih =>
      obtain ⟨r', hskip, hr'⟩ := skipBlanks_eq cs h
      rw [← SExpr.tokens_dropWhile] at hn ⊢
      have hend : r.atEnd = .ok r'.current.isNone r' := by rw [atEnd, hskip]
      rcases hcs : cs.dropWhile Text.isBlank with _ | ⟨c, cs'⟩
      · rw [hcs] at hr'
        rw [hr'.current] at hend
        refine .inl ⟨[], r', ?_, fun top => ?_⟩
        · rw [readAll_atEnd, hend]
          rfl
        · rw [SExpr.tokens_nil, List.append_nil]
          rfl
      · rw [hcs] at hn hr'
        rw [hr'.current] at hend
        have hmore : tokens (c :: cs') ≠ [] :=
          SExpr.tokens_ne_nil (isBlank_current_skipBlanks hskip hr'.1) cs'
        rcases readInto_eq _ [] hr' rfl (.inr hmore) with
          ⟨t, r'', rest, hread, hr'', hlt, hassemble⟩ | ⟨r'', hread, hassemble⟩
        · rcases ih hr'' (by omega) with ⟨trees, r₃, hall, hrest⟩ | ⟨r₃, hall, hrest⟩
          · refine .inl ⟨t :: trees, r₃, ?_, fun top => ?_⟩
            · rw [readAll_atEnd, hend]
              simp [Result.andThen, readTree, hread, hall]
            · have h := (hassemble top).trans (hrest (t :: top))
              rwa [List.reverse_cons, List.append_assoc, List.singleton_append] at h
          · refine .inr ⟨r₃, ?_, fun top => ?_⟩
            · rw [readAll_atEnd, hend]
              simp [Result.andThen, readTree, hread, hall]
            · exact (hassemble top).trans (hrest (t :: top))
        · refine .inr ⟨r'', ?_, hassemble⟩
          rw [readAll_atEnd, hend]
          simp [Result.andThen, readTree, hread]

end Reader

/-- The reader answers with what the tokens of the text make up, or complains
    about its parentheses. -/
theorem SExpr.parseAll_eq (text : String) :
    SExpr.parseAll text =
      match assemble [] [] (tokens (withoutComments false text.toList)) with
      | some trees => .ok trees
      | none => .error .unbalanced := by
  have hfeeds : (Reader.ofSource (.ofText text)).Feeds (withoutComments false text.toList) :=
    ⟨rfl, text.toList, rfl, rfl⟩
  obtain ⟨r, hstart, hr⟩ := Reader.advance_eq hfeeds
  rw [parseAll, Reader.start, hstart]
  rcases Reader.readAll_eq _ hr (Nat.lt_succ_self _) with
    ⟨trees, r', hall, hassemble⟩ | ⟨r', hall, hassemble⟩
  · rw [hassemble []]
    simp only [hall]
    rfl
  · rw [hassemble []]
    simp only [hall]

end SmtSession
