import SmtSession.Proofs.SExpr.RoundTrip

/-!
# Quotation

What stands between bars should be read as it is, blanks and parentheses
included. The reader keeps this promise up to one character. It drops comments
while it fetches, and fetching knows nothing of quotation, so a semicolon
between bars starts a comment like any other: the characters up to the end of
the line are lost, and on the last line the bar that ends the quotation is lost
with them.

A single quoted atom still comes out as one atom, because the end of the text
ends it as well. In a list the lost bar may let one quotation run into the next
one. Whatever becomes of the list then, it is not what was written: no atom
that was ever read has a semicolon in it, and so the quotations without
semicolons are exactly those that are read as they are.

## Main definitions

* `SExpr.quotedItems`: Quoted atoms, each of them behind blanks.

## Theorems

* `SExpr.not_mem_of_parseAll`: No atom that is read has a semicolon.
* `SExpr.parseAll_bars`: A quoted atom is read without its comments.
* `SExpr.spells_quotedItems`: Quoted atoms without semicolons are spelled.
* `SExpr.quoted_verbatim_iff`: Quoted atoms are read as they are if and only if
  they have no semicolon.
-/

namespace SmtSession

namespace SExpr

/-- Quoted atoms, each of them behind blanks. The blanks come first in each
    pair. -/
def quotedItems : List (String × String) → String
  | [] => ""
  | (gap, s) :: items => gap ++ bars s ++ quotedItems items

/-! ## Semicolons Are Never Read -/

theorem count_le_occurrences (c : Char) {s : String} {ts : List Token} (h : .atom s ∈ ts) :
    s.toList.count c ≤ occurrences c ts := by
  induction ts with
  | nil => cases h
  | cons token ts ih =>
      rcases List.mem_cons.mp h with rfl | h
      · rw [occurrences]
        omega
      · have hrest := ih h
        cases token <;> simp only [occurrences] <;> omega

/-- No atom that is read has a semicolon. -/
theorem not_mem_of_parseAll {text : String} {trees : List SExpr}
    (h : parseAll text = .ok trees) {s : String} (hs : s ∈ atomsAll trees) :
    ';' ∉ s.toList := by
  rcases mem_atomsAll.mp hs with ⟨t, ht, hs⟩
  have hflatten : .atom s ∈ flattenAll trees := by
    have hatom : .atom s ∈ flatten t := (mem_atoms_iff t s).mp hs
    clear h hs
    induction trees with
    | nil => cases ht
    | cons u us ih =>
        rw [flattenAll, List.mem_append]
        rcases List.mem_cons.mp ht with rfl | ht
        · exact .inl hatom
        · exact .inr (ih (mem_atomsAll.mpr ⟨t, ht, (mem_atoms_iff t s).mpr hatom⟩) ht)
  -- The comments are gone before the text is cut, and cutting adds nothing.
  have hcut := occurrences_tokens_le ';' (withoutComments false text.toList)
  rw [(parseAll_eq_ok_iff text trees).mp h,
    List.count_eq_zero_of_not_mem (not_mem_withoutComments _ _)] at hcut
  have hatom := count_le_occurrences ';' hflatten
  exact List.count_eq_zero.mp (by omega)

/-! ## One Quoted Atom -/

theorem withoutComments_sublist (inside : Bool) (cs : List Char) :
    (withoutComments inside cs).Sublist cs := by
  induction cs generalizing inside with
  | nil => exact List.Sublist.refl _
  | cons c cs ih =>
      rw [withoutComments]
      repeat' split
      all_goals first
        | exact (ih _).cons_cons c
        | exact (ih _).cons c

/-- The bar at the end is kept, or it is part of a comment. -/
theorem withoutComments_append_bar (inside : Bool) (cs : List Char) :
    withoutComments inside (cs ++ ['|']) = withoutComments inside cs ++ ['|'] ∨
      withoutComments inside (cs ++ ['|']) = withoutComments inside cs := by
  induction cs generalizing inside with
  | nil => cases inside <;> simp [withoutComments]
  | cons c cs ih =>
      simp only [List.cons_append, withoutComments]
      repeat' split
      all_goals first
        | exact ih _
        | exact (ih _).imp (congrArg (c :: ·)) (congrArg (c :: ·))

/-- A quoted atom is read without its comments. -/
theorem parseAll_bars (s : String) (hbar : '|' ∉ s.toList) :
    parseAll (bars s) = .ok [.atom (String.ofList (withoutComments false s.toList))] := by
  have hkept : '|' ∉ withoutComments false s.toList := fun h =>
    hbar ((withoutComments_sublist _ _).subset h)
  have htext : withoutComments false (bars s).toList =
      '|' :: withoutComments false (s.toList ++ ['|']) := by
    simp [bars, withoutComments]
  have htokens : tokens (withoutComments false (bars s).toList) =
      [.atom (String.ofList (withoutComments false s.toList))] := by
    rw [htext]
    rcases withoutComments_append_bar false s.toList with h | h
    · rw [h, tokens_quoted_append hkept, tokens_nil]
    · rw [h, tokens_quoted_open hkept]
  rw [parseAll_eq_ok_iff, htokens]
  rfl

/-! ## Lists of Quoted Atoms -/

/-- Blanks in front make no trees. -/
theorem Spells.blanks {gap b : String} {us : List SExpr}
    (hgap : ∀ c ∈ gap.toList, Text.isBlank c = true) (hb : Spells b us) : Spells (gap ++ b) us where
  noComment := by
    rw [String.toList_append, List.mem_append, not_or]
    refine ⟨fun hc => ?_, hb.noComment⟩
    exact absurd (hgap ';' hc) (by decide)
  tokens_append rest hrest := by
    have hdrop : (gap.toList ++ (b.toList ++ rest)).dropWhile Text.isBlank =
        (b.toList ++ rest).dropWhile Text.isBlank := List.dropWhile_append_of_pos hgap
    rw [String.toList_append, List.append_assoc, ← tokens_dropWhile, hdrop, tokens_dropWhile,
      hb.tokens_append rest hrest]

/-- The second bar ends an atom, so that anything may follow it. -/
theorem Spells.quoted_append {s b : String} {us : List SExpr} (hs : IsQuotable s)
    (hb : Spells b us) : Spells (bars s ++ b) (.atom s :: us) where
  noComment := by
    rw [String.toList_append, List.mem_append, not_or]
    exact ⟨(quoted hs).noComment, hb.noComment⟩
  tokens_append rest hrest := by
    have htext : (bars s ++ b).toList ++ rest =
        '|' :: (s.toList ++ '|' :: (b.toList ++ rest)) := by
      simp [bars]
    rw [htext, tokens_quoted_append hs.noBar]
    simp [flattenAll, flatten, hb.tokens_append rest hrest]

theorem spells_quotedItems (items : List (String × String)) (last : String)
    (hblank : ∀ item ∈ items, ∀ c ∈ item.1.toList, Text.isBlank c = true)
    (hlast : ∀ c ∈ last.toList, Text.isBlank c = true)
    (hquotable : ∀ item ∈ items, IsQuotable item.2) :
    Spells (quotedItems items ++ last) (items.map fun item => .atom item.2) := by
  induction items with
  | nil =>
      have hempty := Spells.empty.blanks hlast
      rwa [String.append_empty] at hempty
  | cons item items ih =>
      rw [List.forall_mem_cons] at hblank hquotable
      have hrest := ih hblank.2 hquotable.2
      have hitem := (hrest.quoted_append hquotable.1).blanks hblank.1
      rwa [← String.append_assoc, ← String.append_assoc] at hitem

/-- A quoted atom is read as one atom, which has lost the comments between the
    bars. So it is read as it is if and only if it has no semicolon, and a list
    of quoted atoms is if and only if none of them has one, however the atoms
    are set apart. -/
theorem quoted_verbatim_iff (s : String) (hs : '|' ∉ s.toList) (items : List (String × String))
    (last : String) (hbar : ∀ item ∈ items, '|' ∉ item.2.toList)
    (hblank : ∀ item ∈ items, ∀ c ∈ item.1.toList, Text.isBlank c = true)
    (hlast : ∀ c ∈ last.toList, Text.isBlank c = true) :
    parseAll (bars s) = .ok [.atom (String.ofList (withoutComments false s.toList))] ∧
      (parseAll (bars s) = .ok [.atom s] ↔ ';' ∉ s.toList) ∧
      (parseAll (enclosed (quotedItems items ++ last)) =
          .ok [.list (items.map fun item => .atom item.2)] ↔
        ∀ item ∈ items, ';' ∉ item.2.toList) := by
  refine ⟨parseAll_bars s hs, ⟨fun hread => ?_, fun hcomment => ?_⟩,
    ⟨fun hread item hitem => ?_, fun hcomment => ?_⟩⟩
  · exact not_mem_of_parseAll hread (by simp [atomsAll, atoms])
  · rw [parseAll_bars s hs, withoutComments_eq _ hcomment, String.ofList_toList]
  · refine not_mem_of_parseAll hread ?_
    rw [atomsAll, atomsAll, List.append_nil, atoms]
    exact mem_atomsAll.mpr ⟨.atom item.2, List.mem_map_of_mem hitem, by simp [atoms]⟩
  · exact (spells_quotedItems items last hblank hlast fun item hitem =>
      ⟨hbar item hitem, hcomment item hitem⟩).parens.parseAll

/-- Blanks, line feeds and parentheses are read as they are, with a tab or with
    nothing between the quotations. -/
theorem quoted_verbatim_iff_nested :
    parseAll "|a (b\n)|" = .ok [.atom "a (b\n)"] ∧
      parseAll "(|)| \t|(\n|||)" = .ok [.list [.atom ")", .atom "(\n", .atom ""]] := by
  have blank {gap : String} (h : gap.toList.all Text.isBlank = true) :
      ∀ c ∈ gap.toList, Text.isBlank c = true := List.all_eq_true.mp h
  have hgaps : ∀ item ∈ [("", ")"), (" \t", "(\n"), ("", "")],
      ∀ c ∈ item.1.toList, Text.isBlank c = true :=
    List.forall_mem_cons.mpr ⟨blank rfl, List.forall_mem_cons.mpr ⟨blank rfl,
      List.forall_mem_singleton.mpr (blank rfl)⟩⟩
  have hlaw := quoted_verbatim_iff "a (b\n)" (by decide) [("", ")"), (" \t", "(\n"), ("", "")] ""
    (by decide) hgaps (blank rfl)
  exact ⟨hlaw.2.1.mpr (by decide), hlaw.2.2.mpr (by decide)⟩

/-- A semicolon is lost with all that follows it. The end of the text ends the
    atom in place of the bar, but nothing closes the list. -/
theorem quotation_not_verbatim :
    parseAll "|a;b|" = .ok [.atom "a"] ∧ parseAll "(|a;b| |c|)" = .error .unbalanced := by
  have hatom : withoutComments false "a;b".toList = "a".toList := by decide
  have hlist : assemble [] [] (tokens (withoutComments false "(|a;b| |c|)".toList)) = none := by
    decide +kernel
  constructor
  · have hread := parseAll_bars "a;b" (by decide)
    rwa [hatom, String.ofList_toList] at hread
  · rw [parseAll_eq, hlist]

end SExpr

end SmtSession
