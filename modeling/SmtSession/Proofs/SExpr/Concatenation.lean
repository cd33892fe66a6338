import Mathlib.Data.List.Induction
import SmtSession.Proofs.SExpr.Grammar
import SmtSession.Proofs.SExpr.Spelling

/-!
# Replies One after the Other

What the reader makes of two texts with a line feed between them. Solvers
write one reply after the other, and whoever reads them may cut the output
where the replies meet or read all of it at once.

It comes to the same, because the line feed ends whatever the first text leaves
unfinished: a comment, an atom, or nothing. So the tokens of the whole are the
tokens of the parts, and the trees of the first part are complete before those
of the second begin. Only between bars is a line feed a character like any
other. A first text that breaks off there swallows it, and its last atom
becomes a longer one.

Where a text breaks off is found by going through it once, one character at a
time and without cutting it into tokens.

## Main definitions

* `SExpr.Edge`: Where a text breaks off.
* `SExpr.Edge.ofText`: The same as a run over its characters.
* `SExpr.EndsQuoted`: A text breaks off between bars.

## Theorems

* `SExpr.withoutComments_append_line`: A line feed ends a comment.
* `SExpr.tokens_append`: What can be cut on its own behind a text.
* `SExpr.tokens_append_line`: A line feed ends a token, but not between bars.
* `SExpr.tokens_append_line_quoted`: There it prolongs the last atom.
* `SExpr.parseAll_append_line`: What two texts are read as.
* `SExpr.parseAll_replies`: What any number of texts are read as.
* `SExpr.lines_read_apart`: When two texts can be read apart.
-/

namespace SmtSession

namespace SExpr

open Reader (assembleFrom assembleFrom_opening endsAtom)

/-- Where a text without comments breaks off. -/
inductive Edge where
  /-- Where the next token can start. -/
  | between
  /-- In an atom without bars. -/
  | plain
  /-- Between bars, of which the second is missing. -/
  | quoted
deriving Repr, DecidableEq

/-- Where a text breaks off with one more character. -/
def Edge.after : Edge → Char → Edge
  | .between, c => if endsAtom c then .between else if c = '|' then .quoted else .plain
  | .plain, c => if endsAtom c then .between else .plain
  | .quoted, c => if c = '|' then .between else .quoted

/-- Where a text without comments breaks off. -/
def Edge.ofText (cs : List Char) : Edge := cs.foldl Edge.after .between

/-- A text breaks off between bars. A bar in a comment is gone before bars are
    looked for, even where the comment starts between bars. -/
def EndsQuoted (text : String) : Prop :=
  Edge.ofText (withoutComments false text.toList) = .quoted

instance (text : String) : Decidable (EndsQuoted text) :=
  inferInstanceAs (Decidable (_ = _))

/-! ## Where a Text Breaks Off -/

theorem Edge.ofText_append_singleton (cs : List Char) (c : Char) :
    Edge.ofText (cs ++ [c]) = (Edge.ofText cs).after c := by
  rw [Edge.ofText, List.foldl_append]
  rfl

/-- Between bars everything up to the next bar is passed over. -/
theorem Edge.foldl_quoted (cs : List Char) :
    cs.foldl Edge.after .quoted =
      if '|' ∈ cs then Edge.ofText ((cs.dropWhile (· ≠ '|')).drop 1) else .quoted := by
  induction cs with
  | nil => rfl
  | cons c cs ih =>
      by_cases hbar : c = '|'
      · subst hbar
        simp [Edge.after, Edge.ofText]
      · have hmem : '|' ∈ c :: cs ↔ '|' ∈ cs := by simp [Ne.symm hbar]
        rw [List.foldl_cons, Edge.after, if_neg hbar, ih,
          List.dropWhile_cons_of_pos (by simp [hbar])]
        simp only [hmem]

/-- In an atom everything up to its end is passed over. -/
theorem Edge.foldl_plain (cs : List Char) :
    cs.foldl Edge.after .plain =
      if (cs.dropWhile fun c => !endsAtom c) = [] then .plain
      else Edge.ofText (cs.dropWhile fun c => !endsAtom c) := by
  induction cs with
  | nil => rfl
  | cons c cs ih =>
      by_cases hends : endsAtom c = true
      · rw [List.dropWhile_cons_of_neg (by simp [hends]), if_neg (List.cons_ne_nil c cs)]
        simp [Edge.ofText, Edge.after, hends]
      · rw [List.dropWhile_cons_of_pos (by simp [hends]), List.foldl_cons, Edge.after,
          if_neg hends, ih]

/-- A text that breaks off between bars has a last bar, where a token starts. -/
theorem Edge.exists_bar {cs : List Char} (h : Edge.ofText cs = .quoted) :
    ∃ front rest, cs = front ++ '|' :: rest ∧ Edge.ofText front = .between ∧ '|' ∉ rest := by
  induction cs using List.reverseRecOn with
  | nil => cases h
  | append_singleton cs c ih =>
      rw [Edge.ofText_append_singleton] at h
      cases hedge : Edge.ofText cs with
      | between =>
          -- This is the bar.
          obtain rfl : c = '|' := by
            rw [hedge, Edge.after] at h
            split at h
            · cases h
            · split at h
              · assumption
              · cases h
          exact ⟨cs, [], rfl, hedge, List.not_mem_nil⟩
      | plain =>
          rw [hedge, Edge.after] at h
          split at h <;> cases h
      | quoted =>
          have hbar : c ≠ '|' := by
            rintro rfl
            rw [hedge] at h
            cases h
          rcases ih hedge with ⟨front, rest, rfl, hfront, hrest⟩
          refine ⟨front, rest ++ [c], ?_, hfront, ?_⟩
          · rw [List.append_assoc, List.cons_append]
          · simp [hrest, Ne.symm hbar]

/-! ## Cutting at the Line Feed -/

/-- A line feed ends a comment, so the text behind it is read from its start. -/
theorem withoutComments_append_line (inside : Bool) (cs ds : List Char) :
    withoutComments inside (cs ++ '\n' :: ds) =
      withoutComments inside cs ++ '\n' :: withoutComments false ds := by
  induction cs generalizing inside with
  | nil => cases inside <;> simp [withoutComments]
  | cons c cs ih =>
      simp only [List.cons_append, withoutComments]
      repeat' split
      all_goals simp only [ih, List.cons_append]

theorem withoutComments_lines (a b : String) :
    withoutComments false (a ++ "\n" ++ b).toList =
      withoutComments false a.toList ++ '\n' :: withoutComments false b.toList := by
  rw [← withoutComments_append_line]
  simp

/-- Where an atom ends, what comes next does not prolong it. -/
theorem delimited_dropWhile {cs : List Char} (h : (cs.dropWhile fun d => !endsAtom d) ≠ [])
    (rest : List Char) : Delimited ((cs.dropWhile fun d => !endsAtom d) ++ rest) := by
  have hhead := List.head?_dropWhile_not (fun d => !endsAtom d) cs
  rcases List.exists_cons_of_ne_nil h with ⟨d, tail, htail⟩
  rw [htail] at hhead ⊢
  intro e he
  obtain rfl : d = e := Option.some.inj he
  simpa using hhead

/-- An atom does not go on in a text that does not prolong it. -/
theorem tokens_plain_append {c : Char} {cs rest : List Char} (hends : endsAtom c = false)
    (hbar : c ≠ '|') (hrest : Delimited ((cs.dropWhile fun d => !endsAtom d) ++ rest)) :
    tokens (c :: (cs ++ rest)) = .atom (String.ofList (c :: cs.takeWhile fun d => !endsAtom d))
      :: tokens ((cs.dropWhile fun d => !endsAtom d) ++ rest) := by
  rcases takeWhile_of_delimited hrest with ⟨htake, hdrop⟩
  have hsplit : cs ++ rest =
      (cs.takeWhile fun d => !endsAtom d) ++ ((cs.dropWhile fun d => !endsAtom d) ++ rest) := by
    rw [← List.append_assoc, List.takeWhile_append_dropWhile]
  have hkept := List.all_eq_true.mp (List.all_takeWhile (p := fun d => !endsAtom d) (l := cs))
  rw [tokens_plain hends hbar, hsplit, List.takeWhile_append_of_pos hkept,
    List.dropWhile_append_of_pos hkept, htake, hdrop, List.append_nil]

/-- What follows a text is cut on its own when it neither stands between bars nor
    prolongs an atom. -/
theorem tokens_append (cs rest : List Char) (hquoted : Edge.ofText cs ≠ .quoted)
    (hplain : Edge.ofText cs = .plain → Delimited rest) :
    tokens (cs ++ rest) = tokens cs ++ tokens rest := by
  fun_induction tokens cs with
  | case1 => rfl
  | case2 c cs hblank ih =>
      have hedge : Edge.ofText (c :: cs) = Edge.ofText cs := by
        simp [Edge.ofText, Edge.after, endsAtom, hblank]
      rw [hedge] at hquoted hplain
      rw [List.cons_append, tokens_blank hblank, ih hquoted hplain]
  | case3 cs _ ih =>
      rw [List.cons_append, tokens_opening, ih hquoted hplain, List.cons_append]
  | case4 cs _ _ ih =>
      rw [List.cons_append, tokens_closing, ih hquoted hplain, List.cons_append]
  | case5 cs _ _ _ ih =>
      have hedge : Edge.ofText ('|' :: cs) = cs.foldl Edge.after .quoted := rfl
      rw [hedge, Edge.foldl_quoted] at hquoted hplain
      -- The second bar is there, and the token ends with it.
      have hbar : '|' ∈ cs := Decidable.by_contra fun hbar => hquoted (if_neg hbar)
      rw [if_pos hbar] at hquoted hplain
      have hrest := ih hquoted hplain
      rcases List.eq_append_cons_of_mem hbar with ⟨front, tail, rfl, hfront⟩
      have htail : ((front ++ '|' :: tail).dropWhile (· ≠ '|')).drop 1 = tail := by
        rw [List.dropWhile_append_of_pos (ne_bar_of_not_mem hfront)]
        simp
      rw [htail] at hrest
      rw [← tokens_quoted, List.cons_append, List.append_assoc, List.cons_append,
        tokens_quoted_append hfront, tokens_quoted_append hfront, hrest, List.cons_append]
  | case6 c cs hblank hopening hclosing hbar ih =>
      have hends : endsAtom c = false := by simp [endsAtom, hblank, hopening, hclosing]
      have hedge : Edge.ofText (c :: cs) = cs.foldl Edge.after .plain := by
        simp [Edge.ofText, Edge.after, hends, hbar]
      rw [hedge, Edge.foldl_plain] at hquoted hplain
      -- The atom ends in the text, or what follows does not prolong it.
      by_cases hdrop : (cs.dropWhile fun d => !endsAtom d) = []
      · rw [if_pos hdrop] at hplain
        have hrest : Delimited ((cs.dropWhile fun d => !endsAtom d) ++ rest) := by
          rw [hdrop]
          exact hplain rfl
        rw [List.cons_append, tokens_plain_append hends hbar hrest, hdrop, tokens_nil]
        rfl
      · rw [if_neg hdrop] at hquoted hplain
        rw [List.cons_append, tokens_plain_append hends hbar (delimited_dropWhile hdrop rest),
          ih hquoted hplain, List.cons_append]

/-- A line feed starts no token, and ends any other than a quotation. -/
theorem tokens_append_line (cs ds : List Char) (h : Edge.ofText cs ≠ .quoted) :
    tokens (cs ++ '\n' :: ds) = tokens cs ++ tokens ds := by
  have hdelimited : Delimited ('\n' :: ds) := fun c hc => by
    obtain rfl : '\n' = c := Option.some.inj hc
    decide
  rw [tokens_append cs _ h fun _ => hdelimited, tokens_blank (by decide)]

/-- Between bars it becomes part of the last atom. -/
theorem tokens_append_line_quoted (cs ds : List Char) (h : Edge.ofText cs = .quoted) :
    ∃ front s t rest, tokens cs = front ++ [.atom s] ∧
      tokens (cs ++ '\n' :: ds) = front ++ .atom t :: rest ∧ s ≠ t := by
  rcases Edge.exists_bar h with ⟨front, inner, rfl, hfront, hinner⟩
  have hcut (rest : List Char) : tokens (front ++ rest) = tokens front ++ tokens rest :=
    tokens_append front rest (by simp [hfront]) (by simp [hfront])
  have hlong : tokens ('|' :: (inner ++ '\n' :: ds)) =
      .atom (String.ofList (inner ++ ('\n' :: ds).takeWhile (· ≠ '|')))
        :: tokens ((('\n' :: ds).dropWhile (· ≠ '|')).drop 1) := by
    rw [tokens_quoted, List.takeWhile_append_of_pos (ne_bar_of_not_mem hinner),
      List.dropWhile_append_of_pos (ne_bar_of_not_mem hinner)]
  refine ⟨tokens front, String.ofList inner,
    String.ofList (inner ++ ('\n' :: ds).takeWhile (· ≠ '|')),
    tokens ((('\n' :: ds).dropWhile (· ≠ '|')).drop 1), ?_, ?_, ?_⟩
  · rw [hcut, tokens_quoted_open hinner]
  · rw [List.append_assoc, List.cons_append, hcut, hlong]
  · -- The line feed was not there before.
    intro heq
    have hlength := congrArg (fun s => s.toList.length) heq
    simp at hlength

/-! ## Reading -/

/-- Trees that are complete at the top stay in front of those to come, whatever
    lists are open. -/
theorem assembleFrom_append (ts : List Token) (pending : List (List SExpr))
    (top done : List SExpr) :
    assembleFrom pending (top ++ done) ts =
      (assembleFrom pending top ts).map (done.reverse ++ ·) := by
  induction ts generalizing pending top with
  | nil =>
      rcases pending with _ | ⟨items, _ | ⟨siblings, outer⟩⟩
      · simp [assembleFrom, assemble]
      · rfl
      · rfl
  | cons token ts ih =>
      cases token with
      | opening => rw [assembleFrom_opening, assembleFrom_opening, ih]
      | closing =>
          -- Nothing is open, the list below the top is closed, or one inside it.
          rcases pending with _ | ⟨items, _ | ⟨siblings, outer⟩⟩
          · rfl
          · exact ih [] (Reader.collected items :: top)
          · exact ih ((Reader.collected items :: siblings) :: outer) top
      | atom s =>
          rcases pending with _ | ⟨items, outer⟩
          · exact ih [] (.atom s :: top)
          · have hnext (bottom : List SExpr) :
                assembleFrom (items :: outer) bottom (.atom s :: ts) =
                  assembleFrom ((.atom s :: items) :: outer) bottom ts := by
              cases outer <;> rfl
            rw [hnext, hnext, ih]

/-- The tokens of trees make up these trees in front of what the others make up. -/
theorem assemble_flattenAll_append (ts : List SExpr) (rest : List Token) :
    assemble [] [] (flattenAll ts ++ rest) = (assemble [] [] rest).map (ts ++ ·) := by
  -- Each tree joins those that are done, whichever they are.
  have hfront (done : List SExpr) :
      assemble done [] (flattenAll ts ++ rest) = assemble (ts.reverse ++ done) [] rest := by
    induction ts generalizing done with
    | nil => rfl
    | cons t ts ih =>
        rw [flattenAll, List.append_assoc, assemble_flatten, ih, List.reverse_cons,
          List.append_assoc, List.singleton_append]
  have htop := assembleFrom_append rest [] [] ts.reverse
  rw [List.nil_append, List.reverse_reverse] at htop
  rw [hfront, List.append_nil]
  exact htop

/-- A text is read behind another one as it is read on its own. -/
theorem parseAll_append_line (a b : String) (ts : List SExpr) (ha : parseAll a = .ok ts)
    (hclosed : ¬ EndsQuoted a) :
    parseAll (a ++ "\n" ++ b) = (parseAll b).map (ts ++ ·) := by
  have htokens : tokens (withoutComments false (a ++ "\n" ++ b).toList) =
      flattenAll ts ++ tokens (withoutComments false b.toList) := by
    rw [withoutComments_lines, tokens_append_line _ _ hclosed, (parseAll_eq_ok_iff a ts).mp ha]
  rw [parseAll_eq, htokens, assemble_flattenAll_append, parseAll_eq]
  cases assemble [] [] (tokens (withoutComments false b.toList)) <;> rfl

/-- Texts with line feeds between them are read one after the other. -/
theorem parseAll_replies (replies : List String) (trees : List (List SExpr)) (last : String)
    (hread : List.Forall₂ (fun reply ts => parseAll reply = .ok ts) replies trees)
    (hclosed : ∀ reply ∈ replies, ¬ EndsQuoted reply) :
    parseAll (replies.foldr (fun reply rest => reply ++ "\n" ++ rest) last) =
      (parseAll last).map (trees.flatten ++ ·) := by
  induction hread with
  | nil => cases h : parseAll last <;> simp [h, Except.map]
  | @cons reply ts replies trees hfirst _ ih =>
      rw [List.forall_mem_cons] at hclosed
      rw [List.foldr_cons, parseAll_append_line _ _ ts hfirst hclosed.1, ih hclosed.2]
      cases parseAll last <;> simp [Except.map]

/-- When two texts can be read apart. If the first is read and does not break off
    between bars, then with a line feed in between the trees of the second come
    behind those of the first, and the whole is refused as a broken contract
    when the second is. If it does break off there, the trees of both are never
    those of the whole. -/
theorem lines_read_apart (a b : String) (ts : List SExpr) (ha : parseAll a = .ok ts) :
    (¬ EndsQuoted a →
      (∀ us, parseAll b = .ok us → parseAll (a ++ "\n" ++ b) = .ok (ts ++ us)) ∧
        ∀ fault, parseAll b = .error fault →
          parseAll (a ++ "\n" ++ b) = .error fault ∧ fault.kind = .contract) ∧
      (EndsQuoted a → ∀ us, parseAll b = .ok us →
        parseAll (a ++ "\n" ++ b) ≠ .ok (ts ++ us)) := by
  refine ⟨fun hclosed => ⟨fun us hb => ?_, fun fault hb => ⟨?_, ?_⟩⟩, fun hquoted us hb hboth => ?_⟩
  · rw [parseAll_append_line a b ts ha hclosed, hb]
    rfl
  · rw [parseAll_append_line a b ts ha hclosed, hb]
    rfl
  · rw [((parseAll_eq_error_iff b fault).mp hb).1]
    rfl
  · -- The last atom of the first text would have to be two atoms at once.
    rcases tokens_append_line_quoted _ (withoutComments false b.toList) hquoted with
      ⟨front, s, t, rest, hshort, hlong, hne⟩
    rw [parseAll_eq_ok_iff] at ha hb hboth
    rw [withoutComments_lines, hlong, flattenAll_append, ← ha, ← hb, hshort,
      List.append_assoc] at hboth
    have htail := List.append_cancel_left hboth
    injection htail with hatom
    injection hatom with hatom
    exact hne hatom.symm

/-- One text ends in a comment behind a list, and one between bars. -/
theorem lines_read_apart_comment :
    let a := "(a |b\n|) ; c"
    parseAll (a ++ "\n" ++ "d (e)") =
        .ok [.list [.atom "a", .atom "b\n"], .atom "d", .list [.atom "e"]] ∧
      parseAll (a ++ "\n" ++ "d (") = .error .unbalanced ∧
      parseAll ("a |b" ++ "\n" ++ "c") ≠ .ok [.atom "a", .atom "b", .atom "c"] := by
  intro a
  have read {text : String} {trees : List SExpr}
      (h : tokens (withoutComments false text.toList) = flattenAll trees) :
      parseAll text = .ok trees := (parseAll_eq_ok_iff text trees).mpr h
  have ha : parseAll a = .ok [.list [.atom "a", .atom "b\n"]] := read (by decide +kernel)
  have hread : parseAll "d (e)" = .ok [.atom "d", .list [.atom "e"]] := read (by decide +kernel)
  have hrefused : parseAll "d (" = .error .unbalanced := by
    have hnone : assemble [] [] (tokens (withoutComments false "d (".toList)) = none := by
      decide +kernel
    rw [parseAll_eq, hnone]
  have hquoted : parseAll "a |b" = .ok [.atom "a", .atom "b"] := read (by decide +kernel)
  have hc : parseAll "c" = .ok [.atom "c"] := read (by decide +kernel)
  refine ⟨?_, ?_, ?_⟩
  · exact ((lines_read_apart a "d (e)" _ ha).1 (by decide)).1 _ hread
  · exact (((lines_read_apart a "d (" _ ha).1 (by decide)).2 _ hrefused).1
  · exact (lines_read_apart "a |b" "c" _ hquoted).2 (by decide) _ hc

end SExpr

end SmtSession
