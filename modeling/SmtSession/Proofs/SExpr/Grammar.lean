import SmtSession.Proofs.SExpr.Reading

/-!
# The Grammar of Trees

Which texts the reader accepts. `SExpr.parseAll_eq` reduces the question to
tokens: the reader answers with what `assemble` makes of them. That is still
an algorithm, with a stack and an early exit. Here it is compared with two
descriptions that are none.

When there is an answer, it is the only list of trees whose tokens these are,
because assembling never drops or reorders a token: what was consumed so far
can always be read off the stack.

When there is none, some parenthesis has no partner. Partners are defined by
what stands between them, an opening and a closing parenthesis with
`Balanced` tokens in between, and not by counting. An opening parenthesis
without a partner need not be the last one and a closing one need not be the
first, so the two directions are different arguments: in balanced tokens every
parenthesis has a partner by induction on how they are balanced, and tokens
that are not balanced have a longest balanced front, behind which the
offender stands.

## Main definitions

* `SExpr.Balanced`: Every parenthesis has a partner, by how the tokens are
  built.
* `SExpr.UnmatchedOpening`, `SExpr.UnmatchedClosing`: Some parenthesis has none.

## Theorems

* `SExpr.assemble_eq_some_iff`: Tokens make up the trees whose tokens they are.
* `SExpr.balanced_iff_exists_trees`: They make up some just when balanced.
* `SExpr.balanced_iff_matched`: They are just when no parenthesis is without a
  partner.
* `SExpr.parseAll_follows_grammar`: What the reader accepts and what it refuses.
-/

namespace SmtSession

namespace SExpr

/-- Tokens whose parentheses come in pairs. -/
inductive Balanced : List Token → Prop where
  | nil : Balanced []
  | atom (s : String) {ts : List Token} : Balanced ts → Balanced (.atom s :: ts)
  | list {inner ts : List Token} :
      Balanced inner → Balanced ts → Balanced (.opening :: inner ++ .closing :: ts)

/-- Some opening parenthesis has no partner behind it. -/
def UnmatchedOpening (ts : List Token) : Prop :=
  ∃ before after, ts = before ++ .opening :: after ∧
    ∀ inner rest, Balanced inner → after ≠ inner ++ .closing :: rest

/-- Some closing parenthesis has no partner in front of it. -/
def UnmatchedClosing (ts : List Token) : Prop :=
  ∃ before after, ts = before ++ .closing :: after ∧
    ∀ rest inner, Balanced inner → before ≠ rest ++ .opening :: inner

/-! ## Trees and Their Tokens -/

/-- The tokens consumed so far by the lists that are open. -/
def openTokens : List (List SExpr) → List Token
  | [] => []
  | items :: outer => openTokens outer ++ flattenAll items.reverse ++ [.opening]

theorem flattenAll_reverse_cons (t : SExpr) (items : List SExpr) :
    flattenAll (t :: items).reverse = flattenAll items.reverse ++ flatten t := by
  rw [List.reverse_cons, flattenAll_append, flattenAll, flattenAll, List.append_nil]

-- Nothing is lost on the way: the stack and the tokens to come make up the
-- tokens of the answer at every step.
theorem flattenAll_of_assemble (items : List SExpr) (outer : List (List SExpr))
    (ts : List Token) (trees : List SExpr) (h : assemble items outer ts = some trees) :
    openTokens outer ++ flattenAll items.reverse ++ ts = flattenAll trees := by
  fun_induction assemble items outer ts with
  | case1 items =>
      have htrees : items.reverse = trees := Option.some.inj h
      rw [openTokens, htrees, List.nil_append, List.append_nil]
  | case2 => cases h
  | case3 items outer ts ih =>
      have hrest := ih h
      rw [openTokens, List.reverse_nil, flattenAll, List.append_nil] at hrest
      simpa only [List.append_assoc, List.singleton_append] using hrest
  | case4 => cases h
  | case5 items siblings outer ts ih =>
      have hrest := ih h
      rw [flattenAll_reverse_cons, Reader.collected, flatten] at hrest
      rw [openTokens]
      simpa only [List.append_assoc, List.cons_append, List.nil_append] using hrest
  | case6 items outer s ts ih =>
      have hrest := ih h
      rw [flattenAll_reverse_cons, flatten] at hrest
      simpa only [List.append_assoc, List.singleton_append] using hrest

theorem assemble_eq_some_iff (ts : List Token) (trees : List SExpr) :
    assemble [] [] ts = some trees ↔ ts = flattenAll trees := by
  constructor
  · intro h
    simpa [openTokens, flattenAll] using flattenAll_of_assemble [] [] ts trees h
  · rintro rfl
    rw [assemble_flattenAll, List.reverse_nil, List.nil_append]

theorem Balanced.append {ts us : List Token} (hts : Balanced ts) (hus : Balanced us) :
    Balanced (ts ++ us) := by
  induction hts with
  | nil => exact hus
  | atom s _ ih => exact .atom s ih
  | list hinner _ _ ih =>
      have h := Balanced.list hinner ih
      rwa [← List.cons_append, ← List.append_assoc] at h

theorem balanced_flattenAll (trees : List SExpr) : Balanced (flattenAll trees) := by
  have hflatten : ∀ t : SExpr, Balanced (flatten t) := by
    intro t
    induction t with
    | atom s =>
        rw [flatten]
        exact .atom s .nil
    | list items ih =>
        have hitems : Balanced (flattenAll items) := by
          clear trees
          induction items with
          | nil => exact .nil
          | cons u us ihus =>
              rw [flattenAll]
              exact (ih u List.mem_cons_self).append
                (ihus fun v hv => ih v (List.mem_cons_of_mem u hv))
        rw [flatten]
        exact .list hitems .nil
  induction trees with
  | nil => exact .nil
  | cons t trees ih =>
      rw [flattenAll]
      exact (hflatten t).append ih

theorem Balanced.exists_trees {ts : List Token} (h : Balanced ts) :
    ∃ trees, ts = flattenAll trees := by
  induction h with
  | nil => exact ⟨[], rfl⟩
  | atom s _ ih =>
      rcases ih with ⟨trees, rfl⟩
      exact ⟨.atom s :: trees, rfl⟩
  | list _ _ ihinner ih =>
      rcases ihinner with ⟨items, rfl⟩
      rcases ih with ⟨trees, rfl⟩
      refine ⟨.list items :: trees, ?_⟩
      rw [flattenAll, flatten, List.append_assoc, List.singleton_append]

theorem balanced_iff_exists_trees (ts : List Token) :
    Balanced ts ↔ ∃ trees, ts = flattenAll trees := by
  constructor
  · exact Balanced.exists_trees
  · rintro ⟨trees, rfl⟩
    exact balanced_flattenAll trees

/-! ## Partners -/

-- Where a token stands in a list in front of other tokens: in the list, at the
-- parenthesis behind it, or further behind.
theorem split_at_closing {inner ts before after : List Token} {token : Token}
    (h : inner ++ .closing :: ts = before ++ token :: after) :
    (∃ rest, inner = before ++ token :: rest ∧ after = rest ++ .closing :: ts) ∨
      (before = inner ∧ token = .closing ∧ after = ts) ∨
        ∃ front, before = inner ++ .closing :: front ∧ ts = front ++ token :: after := by
  rcases List.append_eq_append_iff.mp h with ⟨gap, hbefore, hgap⟩ | ⟨gap, hinner, hgap⟩
  · cases gap with
    | nil =>
        injection hgap with htoken hts
        rw [List.append_nil] at hbefore
        exact .inr (.inl ⟨hbefore, htoken.symm, hts.symm⟩)
    | cons x front =>
        injection hgap with hx hts
        rw [← hx] at hbefore
        exact .inr (.inr ⟨front, hbefore, hts⟩)
  · cases gap with
    | nil =>
        injection hgap with htoken hts
        rw [List.append_nil] at hinner
        exact .inr (.inl ⟨hinner.symm, htoken, hts⟩)
    | cons x rest =>
        injection hgap with hx hafter
        rw [← hx] at hinner
        exact .inl ⟨rest, hinner, hafter⟩

theorem Balanced.opening_matched {ts : List Token} (h : Balanced ts) :
    ∀ before after, ts = before ++ .opening :: after →
      ∃ inner rest, Balanced inner ∧ after = inner ++ .closing :: rest := by
  induction h with
  | nil =>
      intro before after heq
      exact absurd heq (by simp)
  | atom s _ ih =>
      intro before after heq
      cases before with
      | nil => cases heq
      | cons x before =>
          injection heq with _ hts
          exact ih before after hts
  | @list body ts hbody _ ihbody ih =>
      intro before after heq
      cases before with
      | nil =>
          injection heq with _ hafter
          exact ⟨body, ts, hbody, hafter.symm⟩
      | cons x before =>
          injection heq with _ hrest
          rcases split_at_closing hrest with
            ⟨tail, hin, hafter⟩ | ⟨-, htoken, -⟩ | ⟨front, -, hts⟩
          · -- The partner of a parenthesis inside is inside as well.
            rcases ihbody before tail hin with ⟨inner, rest, hinner, htail⟩
            refine ⟨inner, rest ++ .closing :: ts, hinner, ?_⟩
            rw [hafter, htail, List.append_assoc, List.cons_append]
          · cases htoken
          · exact ih front after hts

theorem Balanced.closing_matched {ts : List Token} (h : Balanced ts) :
    ∀ before after, ts = before ++ .closing :: after →
      ∃ rest inner, Balanced inner ∧ before = rest ++ .opening :: inner := by
  induction h with
  | nil =>
      intro before after heq
      exact absurd heq (by simp)
  | atom s _ ih =>
      intro before after heq
      cases before with
      | nil => cases heq
      | cons x before =>
          injection heq with hx hts
          rcases ih before after hts with ⟨rest, inner, hinner, hbefore⟩
          exact ⟨x :: rest, inner, hinner, by rw [hbefore, List.cons_append]⟩
  | @list body ts hbody _ ihbody ih =>
      intro before after heq
      cases before with
      | nil => cases heq
      | cons x before =>
          injection heq with hx hrest
          rcases split_at_closing hrest with
            ⟨tail, hin, -⟩ | ⟨hbefore, -, -⟩ | ⟨front, hbefore, hts⟩
          · rcases ihbody before tail hin with ⟨rest, inner, hinner, hfront⟩
            exact ⟨x :: rest, inner, hinner, by rw [hfront, List.cons_append]⟩
          · -- This is the parenthesis that closes the list.
            exact ⟨[], body, hbody, by rw [hbefore, ← hx, List.nil_append]⟩
          · rcases ih front after hts with ⟨rest, inner, hinner, hfront⟩
            refine ⟨x :: (body ++ .closing :: rest), inner, hinner, ?_⟩
            rw [hbefore, hfront, List.cons_append, List.append_assoc, List.cons_append]

-- An opening parenthesis that only balanced tokens follow would have its
-- partner among them, and that one a partner in turn that only balanced tokens
-- follow, and so on in ever shorter lists.
theorem Balanced.ne_append_opening (n : Nat) : ∀ front before inner : List Token,
    Balanced front → Balanced inner → inner.length = n → front ≠ before ++ .opening :: inner := by
  induction n using Nat.strongRecOn with
  | ind n ih =>
      intro front before inner hfront hinner hn heq
      rcases hfront.opening_matched before inner heq with ⟨inner', rest, hinner', hsplit⟩
      rcases hinner.closing_matched inner' rest hsplit with ⟨before', inner'', hinner'', hsplit'⟩
      have hlt : inner''.length < n := by
        have hlength := congrArg List.length hsplit
        have hlength' := congrArg List.length hsplit'
        simp only [List.length_append, List.length_cons] at hlength hlength'
        omega
      exact ih inner''.length hlt inner' before' inner'' hinner' hinner'' rfl hsplit'

-- The longest balanced front ends at a parenthesis without a partner.
theorem exists_balanced_front (n : Nat) : ∀ ts : List Token, ts.length = n →
    ∃ front rest, ts = front ++ rest ∧ Balanced front ∧
      (rest = [] ∨ (∃ after, rest = .closing :: after) ∨
        ∃ after, rest = .opening :: after ∧
          ∀ inner more, Balanced inner → after ≠ inner ++ .closing :: more) := by
  induction n using Nat.strongRecOn with
  | ind n ih =>
      intro ts hn
      rcases ts with _ | ⟨_ | _ | s, ts⟩
      · exact ⟨[], [], rfl, .nil, .inl rfl⟩
      · by_cases hmatched : ∃ inner more, Balanced inner ∧ ts = inner ++ .closing :: more
        · -- The front goes on behind the partner.
          rcases hmatched with ⟨inner, more, hinner, rfl⟩
          have hlt : more.length < n := by
            simp only [List.length_cons, List.length_append] at hn
            omega
          rcases ih more.length hlt more rfl with ⟨front, rest, rfl, hfront, hrest⟩
          refine ⟨.opening :: inner ++ .closing :: front, rest, ?_, .list hinner hfront, hrest⟩
          simp only [List.cons_append, List.append_assoc]
        · refine ⟨[], .opening :: ts, rfl, .nil, .inr (.inr ⟨ts, rfl, ?_⟩)⟩
          intro inner more hinner heq
          exact hmatched ⟨inner, more, hinner, heq⟩
      · exact ⟨[], .closing :: ts, rfl, .nil, .inr (.inl ⟨ts, rfl⟩)⟩
      · have hlt : ts.length < n := by
          rw [List.length_cons] at hn
          omega
        rcases ih ts.length hlt ts rfl with ⟨front, rest, rfl, hfront, hrest⟩
        exact ⟨.atom s :: front, rest, rfl, .atom s hfront, hrest⟩

theorem balanced_iff_matched (ts : List Token) :
    Balanced ts ↔ ¬ (UnmatchedOpening ts ∨ UnmatchedClosing ts) := by
  constructor
  · rintro h (⟨before, after, heq, hnone⟩ | ⟨before, after, heq, hnone⟩)
    · rcases h.opening_matched before after heq with ⟨inner, rest, hinner, hafter⟩
      exact hnone inner rest hinner hafter
    · rcases h.closing_matched before after heq with ⟨rest, inner, hinner, hbefore⟩
      exact hnone rest inner hinner hbefore
  · intro hmatched
    rcases exists_balanced_front ts.length ts rfl with ⟨front, rest, heq, hfront, hrest⟩
    rcases hrest with rfl | ⟨after, rfl⟩ | ⟨after, rfl, hnone⟩
    · rwa [heq, List.append_nil]
    · refine absurd (.inr ⟨front, after, heq, ?_⟩) hmatched
      intro before inner hinner
      exact Balanced.ne_append_opening inner.length front before inner hfront hinner rfl
    · exact absurd (.inl ⟨front, after, heq, hnone⟩) hmatched

/-! ## The Reader -/

theorem parseAll_eq_ok_iff (text : String) (trees : List SExpr) :
    parseAll text = .ok trees ↔
      tokens (withoutComments false text.toList) = flattenAll trees := by
  rw [parseAll_eq, ← assemble_eq_some_iff]
  cases assemble [] [] (tokens (withoutComments false text.toList)) <;> simp

theorem parseAll_eq_error_iff (text : String) (fault : Fault) :
    parseAll text = .error fault ↔
      fault = .unbalanced ∧ ¬ Balanced (tokens (withoutComments false text.toList)) := by
  rw [balanced_iff_exists_trees]
  simp only [← assemble_eq_some_iff, parseAll_eq]
  cases assemble [] [] (tokens (withoutComments false text.toList)) <;> simp [eq_comm]

/-- A text is read as the trees whose tokens are its tokens, once the comments
    are gone. The reader refuses it as a broken contract just when some
    parenthesis has no partner, and it never complains that the input failed. -/
theorem parseAll_follows_grammar (text : String) :
    let ts := tokens (withoutComments false text.toList)
    (∀ trees, parseAll text = .ok trees ↔ ts = flattenAll trees) ∧
      ((∃ fault, parseAll text = .error fault ∧ fault.kind = .contract) ↔
        UnmatchedOpening ts ∨ UnmatchedClosing ts) ∧
      ∀ fault, parseAll text = .error fault → fault.kind ≠ .reading := by
  refine ⟨parseAll_eq_ok_iff text, ?_, ?_⟩
  · simp only [parseAll_eq_error_iff, balanced_iff_matched, Classical.not_not]
    constructor
    · rintro ⟨fault, ⟨-, hunmatched⟩, -⟩
      exact hunmatched
    · intro hunmatched
      exact ⟨.unbalanced, ⟨rfl, hunmatched⟩, rfl⟩
  · intro fault hfault
    rw [((parseAll_eq_error_iff text fault).mp hfault).1]
    decide

end SExpr

end SmtSession
