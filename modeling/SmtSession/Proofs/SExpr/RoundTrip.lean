import SmtSession.Proofs.SExpr.Grammar
import SmtSession.Proofs.SExpr.Spelling

/-!
# Trees and Their Texts

When the canonical text of a tree is read back as the tree. Plain atoms are
enough for that, because the text spells the tree piece by piece. They are
also needed, which is the harder half: atoms that are not plain, with bars,
blanks and parentheses in the right places, might be cut up and put together
again to the same tree by accident.

They are not, and counting shows it. A character that the layout does not use
is as often in the text as in the atoms of the tree, and cutting a text into
tokens never makes it more frequent. So if reading gives the tree back, no
occurrence was lost. Comments lose semicolons, so there was none. A quotation
loses the bar it starts with, so nothing was quoted, and what is read without
quotation is plain.

## Main definitions

* `SExpr.atoms`: The atoms of a tree.
* `SExpr.occurrences`: How often a character is in the atoms among tokens.

## Theorems

* `SExpr.spells_text`: The text of a tree with plain atoms spells the tree.
* `SExpr.count_text`: The characters of a text are those of the atoms.
* `SExpr.occurrences_tokens_le`: Cutting a text makes no character more frequent.
* `SExpr.isPlain_of_bars_kept`: Where no bar is lost, the atoms are plain.
* `SExpr.parseAll_text_eq_iff`: Exactly the trees with plain atoms are read
  back from their texts.
-/

namespace SmtSession

namespace SExpr

open Reader (endsAtom)

mutual

/-- The atoms of a tree. -/
def atoms : SExpr → List String
  | .atom s => [s]
  | .list items => atomsAll items

/-- The atoms of trees. -/
def atomsAll : List SExpr → List String
  | [] => []
  | t :: ts => atoms t ++ atomsAll ts

end

/-- How often a character is in the atoms among tokens. -/
def occurrences (c : Char) : List Token → Nat
  | [] => 0
  | .atom s :: ts => s.toList.count c + occurrences c ts
  | .opening :: ts | .closing :: ts => occurrences c ts

theorem mem_atomsAll {ts : List SExpr} {s : String} :
    s ∈ atomsAll ts ↔ ∃ t ∈ ts, s ∈ t.atoms := by
  induction ts with
  | nil => simp [atomsAll]
  | cons t ts ih => simp [atomsAll, ih]

theorem mem_atoms_iff (t : SExpr) (s : String) : s ∈ t.atoms ↔ .atom s ∈ flatten t := by
  induction t with
  | atom r => simp [atoms, flatten]
  | list items ih =>
      have hitems : s ∈ atomsAll items ↔ .atom s ∈ flattenAll items := by
        induction items with
        | nil => simp [atomsAll, flattenAll]
        | cons u us ihus =>
            rw [atomsAll, flattenAll, List.mem_append, List.mem_append, ih u List.mem_cons_self,
              ihus fun v hv => ih v (List.mem_cons_of_mem u hv)]
      simp [atoms, flatten, hitems]

theorem occurrences_append (c : Char) (ts us : List Token) :
    occurrences c (ts ++ us) = occurrences c ts + occurrences c us := by
  induction ts with
  | nil => simp [occurrences]
  | cons token ts ih => cases token <;> simp [occurrences, ih, Nat.add_assoc]

/-! ## Plain Atoms Are Enough -/

theorem spells_spaced (ts : List SExpr) (h : ∀ t ∈ ts, Spells t.text [t]) :
    Spells (SExpr.spaced ts) ts := by
  induction ts with
  | nil => exact .empty
  | cons t ts ih =>
      have hfirst : Spells t.text [t] := h t List.mem_cons_self
      cases ts with
      | nil => exact hfirst
      | cons u us =>
          have hrest : Spells (SExpr.spaced (u :: us)) (u :: us) :=
            ih fun v hv => h v (List.mem_cons_of_mem t hv)
          exact hfirst.spaced hrest

theorem spells_text (t : SExpr) (h : ∀ s ∈ t.atoms, IsPlain s) : Spells t.text [t] := by
  induction t with
  | atom s =>
      have hs : IsPlain s := h s (by rw [atoms]; exact List.mem_singleton_self s)
      exact .plain hs
  | list items ih =>
      have hitems : Spells (SExpr.spaced items) items := by
        apply spells_spaced
        intro u hu
        apply ih u hu
        intro s hs
        exact h s (by rw [atoms]; exact mem_atomsAll.mpr ⟨u, hu, hs⟩)
      exact hitems.parens

/-! ## What Is Lost in Reading -/

theorem count_spaced (c : Char) (hspace : c ≠ ' ') (ts : List SExpr)
    (h : ∀ t ∈ ts, t.text.toList.count c = occurrences c (flatten t)) :
    (SExpr.spaced ts).toList.count c = occurrences c (flattenAll ts) := by
  have hblank : (" ".toList).count c = 0 := by simp [hspace.symm]
  induction ts with
  | nil => simp [SExpr.spaced, flattenAll, occurrences]
  | cons t ts ih =>
      have hfirst := h t List.mem_cons_self
      have hrest := ih fun u hu => h u (List.mem_cons_of_mem t hu)
      rw [flattenAll, occurrences_append]
      cases ts with
      | nil => simp [SExpr.spaced, flattenAll, occurrences, hfirst]
      | cons u us =>
          rw [SExpr.spaced.eq_3 _ _ (by simp), String.toList_append, String.toList_append,
            List.count_append, List.count_append, hfirst, hblank, hrest, Nat.add_zero]

theorem count_text (c : Char) (hspace : c ≠ ' ') (hopening : c ≠ '(') (hclosing : c ≠ ')')
    (t : SExpr) : t.text.toList.count c = occurrences c (flatten t) := by
  induction t with
  | atom s => simp [SExpr.text, flatten, occurrences]
  | list items ih =>
      have hleft : ("(".toList).count c = 0 := by simp [hopening.symm]
      have hright : (")".toList).count c = 0 := by simp [hclosing.symm]
      rw [SExpr.text, String.toList_append, String.toList_append, List.count_append,
        List.count_append, hleft, hright, count_spaced c hspace items ih, flatten,
        List.cons_append, occurrences, occurrences_append]
      simp [occurrences]

theorem count_takeWhile_add (c : Char) (p : Char → Bool) (cs : List Char) :
    (cs.takeWhile p).count c + (cs.dropWhile p).count c = cs.count c := by
  rw [← List.count_append, List.takeWhile_append_dropWhile]

theorem occurrences_tokens_le (c : Char) (cs : List Char) :
    occurrences c (tokens cs) ≤ cs.count c := by
  fun_induction tokens cs with
  | case1 => simp [occurrences]
  | case2 d cs hblank ih => exact Nat.le_trans ih (List.count_le_count_cons)
  | case3 cs hblank ih => exact Nat.le_trans ih (List.count_le_count_cons)
  | case4 cs hblank hopening ih => exact Nat.le_trans ih (List.count_le_count_cons)
  | case5 cs hblank hopening hclosing ih =>
      have hsplit := count_takeWhile_add c (· ≠ '|') cs
      have hdrop : ((cs.dropWhile (· ≠ '|')).drop 1).count c ≤ (cs.dropWhile (· ≠ '|')).count c :=
        (List.drop_sublist 1 _).count_le c
      have hcons : cs.count c ≤ ('|' :: cs).count c := List.count_le_count_cons
      rw [occurrences, String.toList_ofList]
      omega
  | case6 d cs hblank hopening hclosing hbar ih =>
      have hsplit := count_takeWhile_add c (fun d => !endsAtom d) cs
      rw [occurrences, String.toList_ofList, List.count_cons, List.count_cons]
      omega

theorem not_mem_withoutComments (inside : Bool) (cs : List Char) :
    ';' ∉ withoutComments inside cs := by
  induction cs generalizing inside with
  | nil => simp [withoutComments]
  | cons c cs ih =>
      have hcons (h : c ≠ ';') : ';' ∉ c :: withoutComments false cs := by
        rw [List.mem_cons, not_or]
        exact ⟨Ne.symm h, ih false⟩
      rw [withoutComments]
      by_cases hinside : inside = true
      · rw [if_pos hinside]
        by_cases hline : c = '\n'
        · rw [if_pos hline]
          exact hcons (by rw [hline]; decide)
        · rw [if_neg hline]
          exact ih true
      · rw [if_neg hinside]
        by_cases hcomment : c = ';'
        · rw [if_pos hcomment]
          exact ih true
        · rw [if_neg hcomment]
          exact hcons hcomment

-- A quotation would lose the bar it starts with, so every atom ends where a
-- blank or a parenthesis begins.
theorem isPlain_of_bars_kept (cs : List Char) (hcomment : ';' ∉ cs)
    (hbars : occurrences '|' (tokens cs) = cs.count '|') (s : String)
    (hs : .atom s ∈ tokens cs) : IsPlain s := by
  fun_induction tokens cs with
  | case1 => simp at hs
  | case2 d cs hblank ih =>
      have hd : d ≠ '|' := by
        rintro rfl
        exact absurd hblank (by decide)
      rw [List.count_cons_of_ne hd] at hbars
      exact ih (fun h => hcomment (List.mem_cons_of_mem d h)) hbars hs
  | case3 cs hblank ih =>
      rw [occurrences, List.count_cons_of_ne (by decide)] at hbars
      exact ih (fun h => hcomment (List.mem_cons_of_mem _ h)) hbars (by simpa using hs)
  | case4 cs hblank hopening ih =>
      rw [occurrences, List.count_cons_of_ne (by decide)] at hbars
      exact ih (fun h => hcomment (List.mem_cons_of_mem _ h)) hbars (by simpa using hs)
  | case5 cs hblank hopening hclosing ih =>
      have hsplit := count_takeWhile_add '|' (· ≠ '|') cs
      have hdrop : ((cs.dropWhile (· ≠ '|')).drop 1).count '|' ≤ (cs.dropWhile (· ≠ '|')).count '|' :=
        (List.drop_sublist 1 _).count_le '|'
      have hrest := occurrences_tokens_le '|' ((cs.dropWhile (· ≠ '|')).drop 1)
      rw [occurrences, String.toList_ofList, List.count_cons_self] at hbars
      omega
  | case6 d cs hblank hopening hclosing hbar ih =>
      have hsplit := count_takeWhile_add '|' (fun d => !endsAtom d) cs
      have hends : endsAtom d = false := by simp [endsAtom, hblank, hopening, hclosing]
      rw [occurrences, String.toList_ofList, List.count_cons_of_ne hbar,
        List.count_cons_of_ne hbar] at hbars
      rcases List.mem_cons.mp hs with hfirst | hrest
      · injection hfirst with hfirst
        rw [hfirst]
        exact isPlain_unquoted hends hbar hcomment
      · have hmem : ';' ∉ cs.dropWhile fun d => !endsAtom d := fun h =>
          hcomment (List.mem_cons_of_mem d ((List.dropWhile_suffix _).subset h))
        refine ih hmem ?_ hrest
        omega

/-- Exactly the trees whose atoms are all plain are read back from their
    texts. -/
theorem parseAll_text_eq_iff (t : SExpr) :
    parseAll t.text = .ok [t] ↔ ∀ s ∈ t.atoms, IsPlain s := by
  constructor
  · intro h
    have htokens : tokens (withoutComments false t.text.toList) = flatten t := by
      have hall := (parseAll_eq_ok_iff t.text [t]).mp h
      rwa [flattenAll, flattenAll, List.append_nil] at hall
    -- Semicolons are not read, so the tree has none, and neither has its text.
    have hcomment : ';' ∉ t.text.toList := by
      have hread := occurrences_tokens_le ';' (withoutComments false t.text.toList)
      rw [htokens, List.count_eq_zero_of_not_mem (not_mem_withoutComments _ _),
        ← count_text ';' (by decide) (by decide) (by decide)] at hread
      exact List.count_eq_zero.mp (Nat.le_zero.mp hread)
    rw [withoutComments_eq _ hcomment] at htokens
    -- All bars of the text are in the atoms that were read.
    have hbars : occurrences '|' (tokens t.text.toList) = t.text.toList.count '|' := by
      rw [htokens, count_text '|' (by decide) (by decide) (by decide)]
    intro s hs
    apply isPlain_of_bars_kept t.text.toList hcomment hbars s
    rw [htokens]
    exact (mem_atoms_iff t s).mp hs
  · intro h
    exact (spells_text t h).parseAll

end SExpr

end SmtSession
