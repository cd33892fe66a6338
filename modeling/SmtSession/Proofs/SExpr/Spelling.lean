import SmtSession.Proofs.SExpr.Reading
import SmtSession.Script.SortName

/-!
# Spelling

Texts that are read as given trees, by how they are put together. An atom
without bars ends where something else begins, so what a text means depends
on what comes after it: `SExpr.Spells` speaks of a text that is followed by
anything that ends atoms, or by nothing. That is enough for a script, where
each text is followed by a blank, by a parenthesis or by the end.

A text may spell any number of trees, so that trees side by side are the
concatenation of lists of trees, and parentheses make one tree out of all of
them.

## Main definitions

* `SExpr.IsPlain`, `SExpr.IsQuotable`: The atoms that need no bars, and those
  that bars can quote; `SExpr.isPlain` and `SExpr.isQuotable` decide it.
* `SExpr.enclosed`: A text in parentheses.
* `SExpr.Delimited`: The texts that do not prolong an atom.
* `SExpr.Spells`: A text is read as trees.

## Theorems

* `SExpr.Spells.plain`, `SExpr.Spells.quoted`: How atoms are spelled.
* `SExpr.Spells.append`, `SExpr.Spells.spaced`, `SExpr.Spells.line`: How trees
  are put side by side.
* `SExpr.Spells.parens`: How a list is spelled.
* `SExpr.Spells.parseAll`: The reader reads what is spelled.
-/

namespace SmtSession

namespace SExpr

open Reader (endsAtom)

/-- The atoms that are read as they are: not empty, without blanks, parentheses
    and semicolons, and without a bar in front. -/
structure IsPlain (s : String) : Prop where
  nonempty : s ≠ ""
  unbroken : ∀ c ∈ s.toList, endsAtom c = false
  noComment : ';' ∉ s.toList
  noBar : s.toList.head? ≠ some '|'

/-- The atoms that are read as they are when they stand between bars. -/
structure IsQuotable (s : String) : Prop where
  noBar : '|' ∉ s.toList
  noComment : ';' ∉ s.toList

/-- Whether an atom is plain, by its characters. -/
def isPlain (cs : List Char) : Bool :=
  !cs.isEmpty && cs.all (fun c => !endsAtom c && c != ';') && cs.head? != some '|'

theorem isPlain_iff (s : String) : isPlain s.toList = true ↔ IsPlain s := by
  simp only [isPlain, Bool.and_eq_true, Bool.not_eq_true', List.all_eq_true, bne_iff_ne,
    List.isEmpty_eq_false_iff]
  constructor
  · rintro ⟨⟨hnonempty, hall⟩, hbar⟩
    refine ⟨?_, fun c hc => (hall c hc).1, fun hc => (hall _ hc).2 rfl, hbar⟩
    rintro rfl
    exact hnonempty String.toList_empty
  · intro h
    refine ⟨⟨fun hnil => h.nonempty (String.toList_eq_nil_iff.mp hnil), fun c hc => ?_⟩, h.noBar⟩
    refine ⟨h.unbroken c hc, ?_⟩
    rintro rfl
    exact h.noComment hc

instance (s : String) : Decidable (IsPlain s) := decidable_of_iff _ (isPlain_iff s)

/-- What is cut out of a text as an atom without quotation is plain. -/
theorem isPlain_unquoted {c : Char} {cs : List Char} (hends : endsAtom c = false) (hbar : c ≠ '|')
    (hcomment : ';' ∉ c :: cs) :
    IsPlain (String.ofList (c :: cs.takeWhile fun d => !endsAtom d)) where
  nonempty h := by simpa using congrArg String.toList h
  unbroken d hd := by
    rw [String.toList_ofList] at hd
    rcases List.mem_cons.mp hd with rfl | hd
    · exact hends
    · simpa using List.all_eq_true.mp List.all_takeWhile d hd
  noComment hd := by
    rw [String.toList_ofList] at hd
    rcases List.mem_cons.mp hd with rfl | hd
    · exact hcomment List.mem_cons_self
    · exact hcomment (List.mem_cons_of_mem c (List.takeWhile_subset _ hd))
  noBar := by
    rw [String.toList_ofList]
    simpa using hbar

/-- Whether an atom can stand between bars, by its characters. -/
def isQuotable (cs : List Char) : Bool := cs.all fun c => c != '|' && c != ';'

theorem isQuotable_iff (s : String) : isQuotable s.toList = true ↔ IsQuotable s := by
  simp only [isQuotable, List.all_eq_true, Bool.and_eq_true, bne_iff_ne]
  constructor
  · exact fun h => ⟨fun hc => (h _ hc).1 rfl, fun hc => (h _ hc).2 rfl⟩
  · intro h c hc
    constructor <;> rintro rfl
    · exact h.noBar hc
    · exact h.noComment hc

instance (s : String) : Decidable (IsQuotable s) := decidable_of_iff _ (isQuotable_iff s)

/-- A text in parentheses. -/
def enclosed (text : String) : String := "(" ++ text ++ ")"

/-- The texts that do not prolong an atom in front of them. -/
def Delimited (cs : List Char) : Prop :=
  ∀ c ∈ cs.head?, endsAtom c = true

/-- A text is read as trees wherever no atom goes on behind it. -/
structure Spells (text : String) (trees : List SExpr) : Prop where
  noComment : ';' ∉ text.toList
  tokens_append : ∀ rest, Delimited rest →
    tokens (text.toList ++ rest) = flattenAll trees ++ tokens rest

theorem delimited_append {cs rest : List Char} (h : Delimited cs) (hrest : Delimited rest) :
    Delimited (cs ++ rest) := by
  cases cs with
  | nil => exact hrest
  | cons c cs => exact h

/-- An atom ends at a text that does not prolong it. -/
theorem takeWhile_of_delimited {rest : List Char} (h : Delimited rest) :
    (rest.takeWhile fun c => !endsAtom c) = [] ∧
      (rest.dropWhile fun c => !endsAtom c) = rest := by
  cases rest with
  | nil => exact ⟨rfl, rfl⟩
  | cons c rest =>
      have hc : endsAtom c = true := h c rfl
      simp [hc]

namespace Spells

/-- The reader reads what is spelled. -/
theorem parseAll {text : String} {trees : List SExpr} (h : Spells text trees) :
    SExpr.parseAll text = .ok trees := by
  have htokens := h.tokens_append [] (by simp [Delimited])
  rw [List.append_nil, tokens_nil, List.append_nil] at htokens
  rw [parseAll_eq, withoutComments_eq _ h.noComment, htokens, assemble_flattenAll]
  rfl

theorem empty : Spells "" [] where
  noComment := by simp
  tokens_append rest _ := by simp [flattenAll]

theorem plain {s : String} (h : IsPlain s) : Spells s [.atom s] where
  noComment := h.noComment
  tokens_append rest hrest := by
    -- What follows adds nothing to the atom, and nothing of it is left behind.
    obtain ⟨htake, hdrop⟩ := takeWhile_of_delimited hrest
    have hbar := h.noBar
    have hunbroken := h.unbroken
    rcases hs : s.toList with _ | ⟨c, cs⟩
    · exact absurd (String.toList_eq_nil_iff.mp hs) h.nonempty
    rw [hs] at hbar hunbroken
    have hcs : ∀ d ∈ cs, (!endsAtom d) = true := fun d hd => by
      simp [hunbroken d (List.mem_cons_of_mem c hd)]
    rw [List.cons_append, tokens_plain (hunbroken c List.mem_cons_self) (by simpa using hbar),
      List.takeWhile_append_of_pos hcs, List.dropWhile_append_of_pos hcs, htake, hdrop,
      List.append_nil, ← hs, String.ofList_toList]
    rfl

/-- Between bars an atom ends at the second bar, whatever follows. -/
theorem quoted {s : String} (h : IsQuotable s) : Spells (bars s) [.atom s] where
  noComment := by
    simp only [bars, String.toList_append, List.mem_append, not_or]
    exact ⟨⟨by decide, h.noComment⟩, by decide⟩
  tokens_append rest _ := by
    have htext : (bars s).toList ++ rest = '|' :: (s.toList ++ '|' :: rest) := by
      simp [bars]
    -- No character of the atom is the bar that ends it.
    rw [htext, tokens_quoted_append h.noBar]
    simp [flattenAll, flatten]

/-- Trees side by side, when the second text does not prolong the first. -/
theorem append {a b : String} {ts us : List SExpr} (ha : Spells a ts) (hb : Spells b us)
    (hdelimited : Delimited b.toList) : Spells (a ++ b) (ts ++ us) where
  noComment := by
    rw [String.toList_append, List.mem_append, not_or]
    exact ⟨ha.noComment, hb.noComment⟩
  tokens_append rest hrest := by
    rw [String.toList_append, List.append_assoc,
      ha.tokens_append _ (delimited_append hdelimited hrest), hb.tokens_append rest hrest,
      flattenAll_append, List.append_assoc]

/-- A blank in front makes no tree. -/
theorem blank {b : String} {us : List SExpr} {c : Char} (hc : Text.isBlank c = true)
    (hb : Spells b us) : Spells (String.singleton c ++ b) us where
  noComment := by
    rw [String.toList_append, String.toList_singleton, List.mem_append, List.mem_singleton,
      not_or]
    exact ⟨by rintro rfl; exact absurd hc (by decide), hb.noComment⟩
  tokens_append rest hrest := by
    rw [String.toList_append, String.toList_singleton, List.append_assoc, List.singleton_append,
      tokens_blank hc, hb.tokens_append rest hrest]

theorem delimited_blank {c : Char} (hc : Text.isBlank c = true) (b : String) :
    Delimited (String.singleton c ++ b).toList := by
  rw [String.toList_append, String.toList_singleton]
  intro d hd
  obtain rfl : c = d := Option.some.inj hd
  simp [endsAtom, hc]

/-- Trees with a space between them. -/
theorem spaced {a b : String} {ts us : List SExpr} (ha : Spells a ts) (hb : Spells b us) :
    Spells (a ++ " " ++ b) (ts ++ us) := by
  rw [String.append_assoc]
  exact ha.append (hb.blank (c := ' ') (by decide)) (delimited_blank (c := ' ') (by decide) b)

/-- Trees with a line feed between them. -/
theorem line {a b : String} {ts us : List SExpr} (ha : Spells a ts) (hb : Spells b us) :
    Spells (a ++ "\n" ++ b) (ts ++ us) := by
  rw [String.append_assoc]
  exact ha.append (hb.blank (c := '\n') (by decide)) (delimited_blank (c := '\n') (by decide) b)

/-- Parentheses make a list. -/
theorem parens {a : String} {ts : List SExpr} (ha : Spells a ts) :
    Spells (enclosed a) [.list ts] where
  noComment := by
    simp only [enclosed, String.toList_append, List.mem_append, not_or]
    exact ⟨⟨by decide, ha.noComment⟩, by decide⟩
  tokens_append rest _ := by
    have htext : (enclosed a).toList ++ rest = '(' :: (a.toList ++ ')' :: rest) := by
      simp [enclosed]
    -- The closing parenthesis ends the last atom inside.
    have hclosing : Delimited (')' :: rest) := fun c hc => by
      obtain rfl : ')' = c := Option.some.inj hc
      decide
    rw [htext, tokens_opening, ha.tokens_append _ hclosing, tokens_closing]
    simp [flattenAll, flatten]

end Spells

end SExpr

end SmtSession
