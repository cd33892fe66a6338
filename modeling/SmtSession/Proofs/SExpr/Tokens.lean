import SmtSession.SExpr.Reader

/-!
# Tokens

What a text means as a list of trees, without a reader. Comments are dropped
first, then the text is cut into tokens, then the tokens are put together;
each of the three is a function of what the one before it answers. The
reader does all of this at once and one character at a time.

Putting tokens together takes a stack: the items read so far of the list
that is open, and the items of the lists around it. Trees at the top are the
items of a list that nobody opened, so the stack is never empty and the two
ways to fail are a parenthesis that closes this list and an end of the tokens
before all others are closed.

## Main definitions

* `SExpr.Token`: Parentheses and atoms.
* `SExpr.withoutComments`: A text without its comments.
* `SExpr.tokens`: The tokens of a text without comments.
* `SExpr.flatten`: The tokens of a tree.
* `SExpr.assemble`: The trees that tokens make up.

## Theorems

* `SExpr.withoutComments_eq`: A text without semicolons has no comments.
* `SExpr.tokens_blank`, `SExpr.tokens_quoted`, `SExpr.tokens_plain`: How a text
  is cut, by its first character.
* `SExpr.tokens_quoted_append`, `SExpr.tokens_quoted_open`: The second bar of a
  quotation is there or it is not.
* `SExpr.assemble_flatten`: The tokens of a tree make up the tree.
-/

namespace SmtSession

namespace SExpr

open Reader (endsAtom)

/-- The parts that a text is cut into. -/
inductive Token where
  | opening
  | closing
  | atom (text : String)
deriving Repr, DecidableEq

/-- A text without its comments, which end in front of a line feed. The text may
    start `inside` a comment. -/
def withoutComments (inside : Bool) : List Char → List Char
  | [] => []
  | c :: cs =>
    if inside then
      -- The line feed itself is not part of the comment.
      if c = '\n' then c :: withoutComments false cs else withoutComments true cs
    else if c = ';' then withoutComments true cs
    else c :: withoutComments false cs

/-- A text without semicolons has no comments. -/
theorem withoutComments_eq (cs : List Char) (h : ';' ∉ cs) : withoutComments false cs = cs := by
  induction cs with
  | nil => rfl
  | cons c cs ih =>
      rw [List.mem_cons, not_or] at h
      rw [withoutComments, if_neg Bool.false_ne_true, if_neg (Ne.symm h.1), ih h.2]

/-- The tokens of a text without comments. A bar quotes everything up to the
    next bar, or to the end of the text. -/
def tokens : List Char → List Token
  | [] => []
  | c :: cs =>
    if Text.isBlank c then tokens cs
    else if c = '(' then .opening :: tokens cs
    else if c = ')' then .closing :: tokens cs
    -- A bar elsewhere in an atom is a character like any other.
    else if c = '|' then
      .atom (String.ofList (cs.takeWhile (· ≠ '|'))) :: tokens ((cs.dropWhile (· ≠ '|')).drop 1)
    else
      .atom (String.ofList (c :: cs.takeWhile fun d => !endsAtom d))
        :: tokens (cs.dropWhile fun d => !endsAtom d)
termination_by cs => cs.length
decreasing_by
  -- Each token takes at least the character it starts with.
  · exact Nat.lt_succ_self _
  · exact Nat.lt_succ_self _
  · exact Nat.lt_succ_self _
  · have hle := ((List.dropWhile_suffix (· ≠ '|')).length_le : (cs.dropWhile _).length ≤ _)
    rw [List.length_drop, List.length_cons]
    omega
  · exact Nat.lt_succ_of_le (List.dropWhile_suffix _).length_le

theorem tokens_nil : tokens [] = [] := by
  rw [tokens]

theorem tokens_blank {c : Char} (h : Text.isBlank c = true) (cs : List Char) :
    tokens (c :: cs) = tokens cs := by
  rw [tokens, if_pos h]

theorem tokens_opening (cs : List Char) : tokens ('(' :: cs) = .opening :: tokens cs := by
  rw [tokens, if_neg (by decide), if_pos rfl]

theorem tokens_closing (cs : List Char) : tokens (')' :: cs) = .closing :: tokens cs := by
  rw [tokens, if_neg (by decide), if_neg (by decide), if_pos rfl]

theorem tokens_quoted (cs : List Char) :
    tokens ('|' :: cs) =
      .atom (String.ofList (cs.takeWhile (· ≠ '|')))
        :: tokens ((cs.dropWhile (· ≠ '|')).drop 1) := by
  rw [tokens, if_neg (by decide), if_neg (by decide), if_neg (by decide), if_pos rfl]

theorem ne_bar_of_not_mem {cs : List Char} (h : '|' ∉ cs) : ∀ c ∈ cs, decide (c ≠ '|') = true := by
  intro c hc
  rw [decide_eq_true_iff]
  rintro rfl
  exact h hc

/-- A quotation ends at the first bar behind it, whatever follows. -/
theorem tokens_quoted_append {cs : List Char} (h : '|' ∉ cs) (rest : List Char) :
    tokens ('|' :: (cs ++ '|' :: rest)) = .atom (String.ofList cs) :: tokens rest := by
  rw [tokens_quoted, List.takeWhile_append_of_pos (ne_bar_of_not_mem h),
    List.dropWhile_append_of_pos (ne_bar_of_not_mem h)]
  simp

/-- Without another bar it ends with the text. -/
theorem tokens_quoted_open {cs : List Char} (h : '|' ∉ cs) :
    tokens ('|' :: cs) = [.atom (String.ofList cs)] := by
  rw [tokens_quoted, ← List.append_nil cs, List.takeWhile_append_of_pos (ne_bar_of_not_mem h),
    List.dropWhile_append_of_pos (ne_bar_of_not_mem h)]
  simp [tokens]

theorem tokens_plain {c : Char} (hends : endsAtom c = false) (hbar : c ≠ '|') (cs : List Char) :
    tokens (c :: cs) =
      .atom (String.ofList (c :: cs.takeWhile fun d => !endsAtom d))
        :: tokens (cs.dropWhile fun d => !endsAtom d) := by
  simp only [endsAtom, Bool.or_eq_false_iff, decide_eq_false_iff_not] at hends
  obtain ⟨⟨hblank, hopening⟩, hclosing⟩ := hends
  rw [tokens, if_neg (by simp [hblank]), if_neg hopening, if_neg hclosing, if_neg hbar]

/-- Blanks in front make no tokens. -/
theorem tokens_dropWhile (cs : List Char) : tokens (cs.dropWhile Text.isBlank) = tokens cs := by
  induction cs with
  | nil => rfl
  | cons c cs ih =>
      by_cases h : Text.isBlank c = true
      · rw [List.dropWhile_cons_of_pos h, ih, tokens_blank h]
      · rw [List.dropWhile_cons_of_neg h]

/-- Anything but a blank makes a token. -/
theorem tokens_ne_nil {c : Char} (h : Text.isBlank c = false) (cs : List Char) :
    tokens (c :: cs) ≠ [] := by
  rw [tokens, if_neg (by simp [h])]
  repeat' split
  all_goals exact List.cons_ne_nil _ _

mutual

/-- The tokens of a tree. -/
def flatten : SExpr → List Token
  | .atom s => [.atom s]
  | .list items => .opening :: flattenAll items ++ [.closing]

/-- The tokens of trees. -/
def flattenAll : List SExpr → List Token
  | [] => []
  | t :: ts => flatten t ++ flattenAll ts

end

theorem flattenAll_append (ts us : List SExpr) :
    flattenAll (ts ++ us) = flattenAll ts ++ flattenAll us := by
  induction ts with
  | nil => rfl
  | cons t ts ih => rw [List.cons_append, flattenAll, flattenAll, ih, List.append_assoc]

/-- The trees that tokens make up, if the parentheses among them match. The
    `items` that are read already come last first, and so do those of the lists
    around them, innermost list first. -/
def assemble : List SExpr → List (List SExpr) → List Token → Option (List SExpr)
  | items, [], [] => some items.reverse
  -- A list is still open.
  | _, _ :: _, [] => none
  | items, outer, .opening :: ts => assemble [] (items :: outer) ts
  -- Nothing is left to close.
  | _, [], .closing :: _ => none
  | items, siblings :: outer, .closing :: ts =>
    assemble (Reader.collected items :: siblings) outer ts
  | items, outer, .atom s :: ts => assemble (.atom s :: items) outer ts

/-- The tokens of a tree make up the tree. -/
theorem assemble_flatten (t : SExpr) (items : List SExpr) (outer : List (List SExpr))
    (rest : List Token) :
    assemble items outer (t.flatten ++ rest) = assemble (t :: items) outer rest := by
  induction t generalizing items outer rest with
  | atom s =>
      rw [flatten, List.singleton_append]
      cases outer <;> rw [assemble]
  | list ts ih =>
      -- Inside the list the items are collected one by one, up to the end.
      have hitems : ∀ us, (∀ u ∈ us, u ∈ ts) → ∀ done : List SExpr,
          assemble done (items :: outer) (flattenAll us ++ .closing :: rest) =
            assemble (Reader.collected (us.reverse ++ done) :: items) outer rest := by
        intro us hus
        induction us with
        | nil =>
            intro done
            rw [flattenAll, List.nil_append, assemble]
            rfl
        | cons u us ihus =>
            intro done
            rw [flattenAll, List.append_assoc, ih u (hus u List.mem_cons_self),
              ihus (fun v hv => hus v (List.mem_cons_of_mem u hv)), List.reverse_cons,
              List.append_assoc, List.singleton_append]
      have hopen : assemble items outer (.opening :: (flattenAll ts ++ .closing :: rest)) =
          assemble [] (items :: outer) (flattenAll ts ++ .closing :: rest) := by
        cases outer <;> rw [assemble]
      rw [flatten, List.cons_append, List.cons_append, List.append_assoc, List.singleton_append,
        hopen, hitems ts (fun _ => id), List.append_nil, Reader.collected, List.reverse_reverse]

/-- The tokens of trees make up the trees. -/
theorem assemble_flattenAll (ts : List SExpr) (done : List SExpr) :
    assemble done [] (flattenAll ts) = some (done.reverse ++ ts) := by
  induction ts generalizing done with
  | nil =>
      rw [flattenAll, assemble, List.append_nil]
  | cons t ts ih =>
      rw [flattenAll, assemble_flatten, ih, List.reverse_cons, List.append_assoc,
        List.singleton_append]

end SExpr

end SmtSession
