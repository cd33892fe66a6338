import SmtSession.Proofs.ModelReport
import SmtSession.Proofs.SExpr.Grammar
import SmtSession.Proofs.SExpr.Spelling

/-!
# Layouts of Reports

A report of values can be read in two ways: as a tree, whose items are pairs of
a name and a value, or by the scan, which goes from an opening parenthesis to
the next space and from there to the next closing parenthesis. A reader of
trees takes any blanks anywhere. The scan takes one layout of the pairs only,
and this module says which one it is.

The text of a report is known once its trees are, up to blanks: without bars
and semicolons every token stands in the text as it is, so there are five
places for blanks around each pair, and two more at the start. `ReportLayout`
keeps all of them. The scan reads the values exactly when the layout is
aligned: the space in front of a value has to be the first one since the last
value, and nothing may stand between a value and its parenthesis. A line feed
in place of the space does not do, and neither do two spaces.

That nothing else will do needs an argument, because a scan that lost its way
might find the right values by accident. It does not. As long as the scan takes
one pair at a time, each value it finds starts behind a name, and it is the
right one only if no other blank comes along. Where the scan runs into the
next pair it uses up two parentheses for one value, and then it finds too few.

## Main definitions

* `SExpr.Token.chars`: How a token stands in a text that quotes nothing.
* `PairLayout`, `ReportLayout`: A pair and a report with all their blanks.
* `PairLayout.Aligned`, `ReportLayout.Aligned`: What the scan needs.

## Theorems

* `SExpr.exists_of_tokens`: The first token of a text stands behind blanks.
* `exists_layout`: A report that is read as pairs has a layout.
* `length_scanPairs_le`: The scan needs a parenthesis for each value.
* `scanPairs_eq_iff`: The scan finds the values of aligned pairs only.
* `reportedValues_eq_iff`: The scan agrees with the reader of trees on aligned
  reports only.
-/

namespace SmtSession

open SExpr (Token tokens flatten flattenAll IsPlain Delimited)
open Reader (endsAtom)

/-! ## Where Tokens Stand -/

namespace SExpr

/-- How a token stands in a text that quotes nothing. -/
def Token.chars : Token → List Char
  | .opening => ['(']
  | .closing => [')']
  | .atom s => s.toList

theorem blank_of_tokens_eq_nil {cs : List Char} (h : tokens cs = []) :
    ∀ c ∈ cs, Text.isBlank c = true := by
  rw [← tokens_dropWhile] at h
  rcases hcs : cs.dropWhile Text.isBlank with _ | ⟨c, rest⟩
  · exact List.dropWhile_eq_nil_iff.mp hcs
  · rw [hcs] at h
    have hc : Text.isBlank c = false := by
      have hhead := List.head?_dropWhile_not Text.isBlank cs
      rw [hcs] at hhead
      simpa using hhead
    exact absurd h (tokens_ne_nil hc rest)

/-- A text without bars and semicolons. -/
structure IsBare (cs : List Char) : Prop where
  noBar : '|' ∉ cs
  noComment : ';' ∉ cs

theorem IsBare.of_append {front rest : List Char} (h : IsBare (front ++ rest)) :
    IsBare rest :=
  ⟨fun hc => h.noBar (List.mem_append_right front hc),
    fun hc => h.noComment (List.mem_append_right front hc)⟩

/-- The first token of a text stands behind blanks, and the other tokens are
    those of the rest. An atom is plain and goes as far as it can. -/
theorem exists_of_tokens {cs : List Char} {token : Token} {ts : List Token}
    (hcs : IsBare cs) (h : tokens cs = token :: ts) :
    ∃ gap rest, (∀ c ∈ gap, Text.isBlank c = true) ∧ cs = gap ++ (token.chars ++ rest) ∧
      tokens rest = ts ∧ IsBare rest ∧ ∀ s, token = .atom s → IsPlain s ∧ Delimited rest := by
  have hfound : ∃ gap rest, (∀ c ∈ gap, Text.isBlank c = true) ∧
      cs = gap ++ (token.chars ++ rest) ∧ tokens rest = ts ∧
        ∀ s, token = .atom s → IsPlain s ∧ Delimited rest := by
    fun_induction tokens cs with
    | case1 => cases h
    | case2 c cs hblank ih =>
        have hbare : IsBare cs := IsBare.of_append (show IsBare ([c] ++ cs) from hcs)
        rcases ih hbare h with ⟨gap, rest, hgap, rfl, hrest⟩
        exact ⟨c :: gap, rest, List.forall_mem_cons.mpr ⟨hblank, hgap⟩, rfl, hrest⟩
    | case3 cs =>
        injection h with htoken hts
        subst htoken
        exact ⟨[], cs, by simp, rfl, hts, fun s hs => by cases hs⟩
    | case4 cs =>
        injection h with htoken hts
        subst htoken
        exact ⟨[], cs, by simp, rfl, hts, fun s hs => by cases hs⟩
    | case5 cs => exact absurd List.mem_cons_self hcs.noBar
    | case6 c cs hblank hopening hclosing hbar =>
        injection h with htoken hts
        subst htoken
        have hends : endsAtom c = false := by simp [endsAtom, hblank, hopening, hclosing]
        refine ⟨[], cs.dropWhile fun d => !endsAtom d, by simp, ?_, hts, fun s hs => ?_⟩
        · simp [Token.chars, List.takeWhile_append_dropWhile]
        · injection hs with hs
          subst hs
          refine ⟨isPlain_unquoted hends hbar hcs.noComment, fun d hd => ?_⟩
          have hhead := List.head?_dropWhile_not (fun d => !endsAtom d) cs
          rw [Option.mem_def.mp hd] at hhead
          simpa using hhead
  rcases hfound with ⟨gap, rest, hgap, rfl, hrest, hatom⟩
  exact ⟨gap, rest, hgap, rfl, hrest, hcs.of_append.of_append, hatom⟩

end SExpr

/-! ## Layouts -/

/-- The tree of a pair of a name and a value. -/
def pairTree (pair : String × String) : SExpr := .list [.atom pair.1, .atom pair.2]

/-- A pair of a name and a value with the blanks around them, up to what comes
    next after its closing parenthesis. -/
structure PairLayout where
  name : String
  value : String
  before : List Char
  between : List Char
  behind : List Char
  after : List Char

namespace PairLayout

/-- The characters of a pair. -/
def chars (p : PairLayout) : List Char :=
  '(' :: (p.before ++ (p.name.toList ++ (p.between ++ (p.value.toList ++ (p.behind ++
    ')' :: p.after)))))

/-- The characters of a pair make up a pair: name and value are plain, some
    blank stands between them, and nothing but blanks around them. -/
structure IsPair (p : PairLayout) : Prop where
  name : IsPlain p.name
  value : IsPlain p.value
  before : ∀ c ∈ p.before, Text.isBlank c = true
  between : ∀ c ∈ p.between, Text.isBlank c = true
  behind : ∀ c ∈ p.behind, Text.isBlank c = true
  after : ∀ c ∈ p.after, Text.isBlank c = true
  apart : p.between ≠ []

/-- The space in front of the value is the first one in the pair, and the
    parenthesis follows the value. -/
structure Aligned (p : PairLayout) : Prop where
  before : ' ' ∉ p.before
  between : ∃ front, ' ' ∉ front ∧ p.between = front ++ [' ']
  behind : p.behind = []

/-- The name and the value of a pair. -/
def content (p : PairLayout) : String × String := (p.name, p.value)

end PairLayout

/-- A report with its blanks: those in front, those between its parenthesis and
    the first pair, and those at the end. -/
structure ReportLayout where
  front : List Char
  inside : List Char
  pairs : List PairLayout
  rest : List Char

namespace ReportLayout

/-- The characters of a report. -/
def chars (r : ReportLayout) : List Char :=
  r.front ++ '(' :: (r.inside ++ (r.pairs.flatMap PairLayout.chars ++ ')' :: r.rest))

/-- The characters of a report make up a list of pairs. -/
structure IsReport (r : ReportLayout) : Prop where
  front : ∀ c ∈ r.front, Text.isBlank c = true
  inside : ∀ c ∈ r.inside, Text.isBlank c = true
  pairs : ∀ p ∈ r.pairs, p.IsPair
  rest : ∀ c ∈ r.rest, Text.isBlank c = true

/-- There are pairs, all of them are aligned, and no space comes before the
    first one. -/
structure Aligned (r : ReportLayout) : Prop where
  nonempty : r.pairs ≠ []
  inside : ' ' ∉ r.inside
  pairs : ∀ p ∈ r.pairs, p.Aligned

end ReportLayout

/-- A text whose tokens are those of pairs, up to a parenthesis, consists of
    pairs. -/
theorem exists_pairs (pairs : List (String × String)) (cs : List Char) (hcs : SExpr.IsBare cs)
    (h : tokens cs = flattenAll (pairs.map pairTree) ++ [.closing]) :
    ∃ (gap : List Char) (layouts : List PairLayout) (rest : List Char),
      cs = gap ++ (layouts.flatMap PairLayout.chars ++ ')' :: rest) ∧
      (∀ c ∈ gap, Text.isBlank c = true) ∧ (∀ c ∈ rest, Text.isBlank c = true) ∧
      (∀ p ∈ layouts, p.IsPair) ∧ layouts.map PairLayout.content = pairs := by
  induction pairs generalizing cs with
  | nil =>
      rcases SExpr.exists_of_tokens hcs h with ⟨gap, rest, hgap, rfl, hrest, -, -⟩
      exact ⟨gap, [], rest, rfl, hgap, SExpr.blank_of_tokens_eq_nil hrest, by simp, rfl⟩
  | cons pair pairs ih =>
      rcases pair with ⟨name, value⟩
      have htokens : tokens cs = .opening :: .atom name :: .atom value :: .closing ::
          (flattenAll (pairs.map pairTree) ++ [.closing]) := by
        rw [h]
        simp [pairTree, flattenAll, flatten]
      -- The four tokens of the pair stand behind blanks, and so does the rest.
      rcases SExpr.exists_of_tokens hcs htokens with ⟨gap, cs₁, hgap, rfl, h₁, hcs₁, -⟩
      rcases SExpr.exists_of_tokens hcs₁ h₁ with ⟨before, cs₂, hbefore, rfl, h₂, hcs₂, hname⟩
      rcases SExpr.exists_of_tokens hcs₂ h₂ with ⟨between, cs₃, hbetween, rfl, h₃, hcs₃, hvalue⟩
      rcases SExpr.exists_of_tokens hcs₃ h₃ with ⟨behind, cs₄, hbehind, rfl, h₄, hcs₄, -⟩
      rcases ih cs₄ hcs₄ h₄ with ⟨after, layouts, rest, rfl, hafter, hrest, hlayouts, hcontent⟩
      rcases hname name rfl with ⟨hname, hdelimited⟩
      rcases hvalue value rfl with ⟨hvalue, -⟩
      -- Without a blank between them, the value would go on with the name.
      have hapart : between ≠ [] := by
        rintro rfl
        rcases hchars : value.toList with _ | ⟨c, cs⟩
        · exact hvalue.nonempty (String.toList_eq_nil_iff.mp hchars)
        · have hends := hvalue.unbroken c (by rw [hchars]; exact List.mem_cons_self)
          rw [hdelimited c (by simp [SExpr.Token.chars, hchars])] at hends
          cases hends
      refine ⟨gap, ⟨name, value, before, between, behind, after⟩ :: layouts, rest, ?_, hgap, hrest,
        List.forall_mem_cons.mpr ⟨⟨hname, hvalue, hbefore, hbetween, hbehind, hafter, hapart⟩,
          hlayouts⟩, by rw [List.map_cons, hcontent]; rfl⟩
      simp [SExpr.Token.chars, PairLayout.chars]

/-- A report that is read as a list of pairs has a layout. -/
theorem exists_layout {text : String} {pairs : List (String × String)}
    (h : SExpr.parseAll text = .ok [.list (pairs.map pairTree)])
    (hcs : SExpr.IsBare text.toList) :
    ∃ r : ReportLayout, r.IsReport ∧ r.chars = text.toList ∧
      r.pairs.map PairLayout.content = pairs := by
  rw [SExpr.parseAll_eq_ok_iff, SExpr.withoutComments_eq _ hcs.noComment] at h
  have htokens : tokens text.toList =
      .opening :: (flattenAll (pairs.map pairTree) ++ [.closing]) := by
    rw [h]
    simp [flattenAll, flatten]
  rcases SExpr.exists_of_tokens hcs htokens with ⟨front, cs, hfront, htext, hrest, hcs', -⟩
  rcases exists_pairs pairs cs hcs' hrest with
    ⟨inside, layouts, rest, rfl, hinside, hrest, hlayouts, hcontent⟩
  exact ⟨⟨front, inside, layouts, rest⟩, ⟨hfront, hinside, hlayouts, hrest⟩, htext.symm, hcontent⟩

/-! ## The Scan -/

/-- Each value that the scan finds takes an opening parenthesis. -/
theorem length_scanPairs_le (cs : List Char) : (scanPairs cs).length ≤ cs.count '(' := by
  fun_induction scanPairs cs with
  | case1 cs hdrop => simp
  | case2 cs mark body hdrop ih =>
      have hbody : (scanRest body).count '(' ≤ body.count '(' := by
        rw [scanRest, afterFirst]
        exact ((List.dropWhile_sublist _).trans
          ((List.tail_sublist _).trans (List.dropWhile_sublist _))).count_le '('
      have hmark : mark = '(' := by
        have hhead := List.head?_dropWhile_not (· ≠ '(') cs
        rw [hdrop] at hhead
        simpa using hhead
      have hcs : (mark :: body).count '(' ≤ cs.count '(' := by
        rw [← hdrop]
        exact (List.dropWhile_sublist _).count_le '('
      rw [hmark, List.count_cons_self] at hcs
      rw [List.length_cons]
      omega

theorem takeWhile_append_cons (mark : Char) (front rest : List Char) (h : mark ∉ front) :
    (front ++ mark :: rest).takeWhile (· ≠ mark) = front := by
  rw [takeWhile_append_mark, takeWhile_of_not_mem mark front h]

theorem dropWhile_append_cons (mark : Char) (front rest : List Char) (h : mark ∉ front) :
    (front ++ mark :: rest).dropWhile (· ≠ mark) = mark :: rest := by
  rw [dropWhile_append_of_not_mem mark front _ h]
  simp

/-- The scan goes on to the first space behind an opening parenthesis. -/
theorem scanPairs_open_append (front body : List Char) (h : ' ' ∉ front) :
    scanPairs ('(' :: (front ++ body)) = scanValue body :: scanPairs (scanRest body) := by
  have hskip : afterFirst ' ' (front ++ body) = afterFirst ' ' body := by
    rw [afterFirst, dropWhile_append_of_not_mem ' ' front body h, afterFirst]
  have hopen := scanPairs_append_open [] (front ++ body) (by simp)
  rw [List.nil_append] at hopen
  rw [hopen, scanValue, scanRest, hskip, ← scanValue, ← scanRest]

theorem scanPairs_open_space (front body : List Char) (h : ' ' ∉ front) :
    scanPairs ('(' :: (front ++ ' ' :: body)) =
      body.takeWhile (· ≠ ')') :: scanPairs (body.dropWhile (· ≠ ')')) := by
  have hspace : afterFirst ' ' (' ' :: body) = body := rfl
  rw [scanPairs_open_append front _ h, scanValue, scanRest, hspace]

/-- Where no space comes before another opening parenthesis, the scan might as
    well start there. -/
theorem scanPairs_open_skip (front body : List Char) (h : ' ' ∉ front) :
    scanPairs ('(' :: (front ++ '(' :: body)) = scanPairs ('(' :: body) := by
  have hstart := scanPairs_open_append [] body (by simp)
  have hskip := scanPairs_open_append (front ++ ['(']) body (by simp [h])
  rw [List.append_assoc, List.singleton_append] at hskip
  rw [hskip, ← hstart, List.nil_append]

/-- A value that is plain is not what the scan takes from a text that starts
    with the end of an atom. -/
theorem takeWhile_ne_value {value : String} (hvalue : IsPlain value) {cs : List Char}
    (hcs : Delimited cs) : cs.takeWhile (· ≠ ')') ≠ value.toList := by
  intro heq
  rcases hchars : cs.takeWhile (· ≠ ')') with _ | ⟨c, taken⟩
  · rw [hchars] at heq
    exact hvalue.nonempty (String.toList_eq_nil_iff.mp heq.symm)
  · -- The first character that is taken is the first of all.
    have hhead : c ∈ cs.head? := by
      cases cs with
      | nil => cases hchars
      | cons d cs =>
          rw [List.takeWhile_cons] at hchars
          split at hchars
          · injection hchars with hd
            rw [hd]
            rfl
          · cases hchars
    have hmem : c ∈ value.toList := by
      rw [← heq, hchars]
      exact List.mem_cons_self
    have hends := hvalue.unbroken c hmem
    rw [hcs c hhead] at hends
    cases hends

/-- What ends an atom is not in a plain one. -/
theorem not_mem_of_plain {s : String} (hs : IsPlain s) {c : Char} (hc : endsAtom c = true) :
    c ∉ s.toList := fun hmem => by
  rw [hs.unbroken c hmem] at hc
  cases hc

/-- What is no blank is not among blanks. -/
theorem not_mem_of_blank {cs : List Char} (hcs : ∀ c ∈ cs, Text.isBlank c = true) {c : Char}
    (hc : Text.isBlank c = false) : c ∉ cs := fun hmem => by
  rw [hcs c hmem] at hc
  cases hc

theorem not_opening_of_blank {cs : List Char} (hcs : ∀ c ∈ cs, Text.isBlank c = true) :
    '(' ∉ ')' :: cs := by
  rw [List.mem_cons, not_or]
  exact ⟨by decide, not_mem_of_blank hcs (by decide)⟩

theorem delimited_of_blank {cs rest : List Char} (hcs : ∀ c ∈ cs, Text.isBlank c = true)
    (hrest : Delimited rest) : Delimited (cs ++ rest) := by
  refine SExpr.delimited_append (fun c hc => ?_) hrest
  rw [endsAtom, hcs c (List.mem_of_mem_head? hc)]
  rfl

theorem delimited_closing (cs : List Char) : Delimited (')' :: cs) := by
  intro c hc
  obtain rfl : ')' = c := Option.some.inj hc
  decide

theorem delimited_opening (cs : List Char) : Delimited ('(' :: cs) := by
  intro c hc
  obtain rfl : '(' = c := Option.some.inj hc
  decide

/-- The value is not found behind a space that stands among blanks in front of a
    parenthesis. -/
theorem scanPairs_gap_ne {value : String} (hvalue : IsPlain value) (front : List Char)
    {gap rest : List Char} (hfront : ' ' ∉ front) (hgap : ∀ c ∈ gap, Text.isBlank c = true)
    (hspace : ' ' ∈ gap) (hrest : Delimited rest) (values : List (List Char)) :
    scanPairs ('(' :: (front ++ (gap ++ rest))) ≠ value.toList :: values := by
  rcases List.eq_append_cons_of_mem hspace with ⟨before, behind, rfl, hbefore⟩
  have hblank : ∀ c ∈ behind, Text.isBlank c = true := fun c hc => hgap c (by simp [hc])
  have hchars : front ++ (before ++ ' ' :: behind ++ rest) =
      (front ++ before) ++ ' ' :: (behind ++ rest) := by simp
  rw [hchars, scanPairs_open_space _ _ (by simp [hfront, hbefore])]
  intro h
  exact takeWhile_ne_value hvalue (delimited_of_blank hblank hrest) (List.cons.inj h).1

/-- It is not found behind the end of the report either. -/
theorem scanPairs_rest_ne {value : String} (hvalue : IsPlain value) {front rest : List Char}
    (hfront : ' ' ∉ front) (hrest : ∀ c ∈ rest, Text.isBlank c = true)
    (values : List (List Char)) :
    scanPairs ('(' :: (front ++ ')' :: rest)) ≠ value.toList :: values := by
  rw [scanPairs_open_append _ _ hfront, scanValue]
  have hafter : afterFirst ' ' (')' :: rest) = afterFirst ' ' rest := rfl
  have hblank : ∀ c ∈ afterFirst ' ' rest, Text.isBlank c = true := fun c hc =>
    hrest c ((List.dropWhile_subset _) (List.mem_of_mem_tail hc))
  have hend : Delimited [] := by simp [Delimited]
  have hdelimited := delimited_of_blank hblank hend
  rw [List.append_nil] at hdelimited
  intro h
  rw [hafter] at h
  exact takeWhile_ne_value hvalue hdelimited (List.cons.inj h).1

namespace PairLayout

/-- What comes behind pairs starts with a parenthesis. -/
theorem delimited_flatMap (ps : List PairLayout) (rest : List Char) :
    Delimited (ps.flatMap chars ++ ')' :: rest) := by
  cases ps with
  | nil => exact delimited_closing rest
  | cons p ps => exact delimited_opening _

theorem count_chars {p : PairLayout} (hp : p.IsPair) : p.chars.count '(' = 1 := by
  have hnone {cs : List Char} (h : '(' ∉ cs) : cs.count '(' = 0 := List.count_eq_zero.mpr h
  simp [chars, hnone (not_mem_of_plain hp.name (by decide)),
    hnone (not_mem_of_plain hp.value (by decide)),
    hnone (not_mem_of_blank hp.before (by decide)), hnone (not_mem_of_blank hp.between (by decide)),
    hnone (not_mem_of_blank hp.behind (by decide)), hnone (not_mem_of_blank hp.after (by decide))]

theorem count_flatMap (ps : List PairLayout) (hps : ∀ p ∈ ps, p.IsPair) :
    (ps.flatMap chars).count '(' = ps.length := by
  induction ps with
  | nil => rfl
  | cons p ps ih =>
      rw [List.forall_mem_cons] at hps
      rw [List.flatMap_cons, List.count_append, count_chars hps.1, ih hps.2, List.length_cons,
        Nat.add_comm]

/-- An aligned pair gives its value. -/
theorem scanPairs_chars {p : PairLayout} (hp : p.IsPair) (h : p.Aligned) (rest : List Char) :
    scanPairs (p.chars ++ rest) = p.value.toList :: scanPairs rest := by
  rcases h.between with ⟨front, hfront, hbetween⟩
  have hchars : p.chars ++ rest = '(' :: ((p.before ++ p.name.toList ++ front) ++
      ' ' :: (p.value.toList ++ ')' :: (p.after ++ rest))) := by
    simp [chars, hbetween, h.behind]
  have hspace : ' ' ∉ p.before ++ p.name.toList ++ front := by
    simp [h.before, hfront, not_mem_of_plain hp.name (c := ' ') (by decide)]
  have hclosing : ')' ∉ p.value.toList := not_mem_of_plain hp.value (by decide)
  have hafter : '(' ∉ ')' :: p.after := not_opening_of_blank hp.after
  rw [hchars, scanPairs_open_space _ _ hspace, takeWhile_append_cons ')' _ _ hclosing,
    dropWhile_append_cons ')' _ _ hclosing, ← List.cons_append, scanPairs_append _ _ hafter]

/-- The value is not found behind a space in front of the name: then the blanks
    behind the name belong to what is found. -/
theorem scanPairs_before_ne {p : PairLayout} (hp : p.IsPair) (hspace : ' ' ∈ p.before)
    (more : List Char) (values : List (List Char)) :
    scanPairs (p.chars ++ more) ≠ p.value.toList :: values := by
  rcases List.eq_append_cons_of_mem hspace with ⟨front, gap, hgap, hfront⟩
  have hchars : p.chars ++ more = '(' :: (front ++ ' ' :: (gap ++ (p.name.toList ++ (p.between ++
      (p.value.toList ++ p.behind))) ++ ')' :: (p.after ++ more))) := by
    simp [chars, hgap]
  have hfree : ')' ∉ gap ++ (p.name.toList ++ (p.between ++ (p.value.toList ++ p.behind))) := by
    have hbefore := not_mem_of_blank hp.before (c := ')') (by decide)
    rw [hgap] at hbefore
    simp only [List.mem_append, List.mem_cons, not_or] at hbefore ⊢
    exact ⟨hbefore.2.2, not_mem_of_plain hp.name (by decide),
      not_mem_of_blank hp.between (by decide),
      not_mem_of_plain hp.value (by decide), not_mem_of_blank hp.behind (by decide)⟩
  rw [hchars, scanPairs_open_space _ _ hfront, takeWhile_append_cons ')' _ _ hfree]
  intro h
  rcases List.exists_mem_of_ne_nil _ hp.apart with ⟨c, hc⟩
  have hends : endsAtom c = true := by simp [endsAtom, hp.between c hc]
  have hmem : c ∈ p.value.toList := by
    rw [← (List.cons.inj h).1]
    simp [hc]
  exact not_mem_of_plain hp.value hends hmem

/-- Where it is found behind a space between name and value, there is no room
    for other blanks. -/
theorem aligned_of_between {p : PairLayout} (hp : p.IsPair) (hbefore : ' ' ∉ p.before)
    (hspace : ' ' ∈ p.between) {more : List Char} {values : List (List Char)}
    (h : scanPairs (p.chars ++ more) = p.value.toList :: values) : p.Aligned := by
  rcases List.eq_append_cons_of_mem hspace with ⟨front, gap, hgap, hfront⟩
  have hchars : p.chars ++ more = '(' :: ((p.before ++ (p.name.toList ++ front)) ++
      ' ' :: (gap ++ (p.value.toList ++ p.behind) ++ ')' :: (p.after ++ more))) := by
    simp [chars, hgap]
  have hname : ' ' ∉ p.name.toList := not_mem_of_plain hp.name (by decide)
  have hfree : ')' ∉ gap ++ (p.value.toList ++ p.behind) := by
    have hbetween := not_mem_of_blank hp.between (c := ')') (by decide)
    rw [hgap] at hbetween
    simp only [List.mem_append, List.mem_cons, not_or] at hbetween ⊢
    exact ⟨hbetween.2.2, not_mem_of_plain hp.value (by decide),
      not_mem_of_blank hp.behind (by decide)⟩
  rw [hchars, scanPairs_open_space _ _ (by simp [hbefore, hname, hfront]),
    takeWhile_append_cons ')' _ _ hfree] at h
  have hlengths := congrArg List.length (List.cons.inj h).1
  simp only [List.length_append] at hlengths
  have hnogap : gap = [] := List.eq_nil_of_length_eq_zero (by omega)
  have hbehind : p.behind = [] := List.eq_nil_of_length_eq_zero (by omega)
  exact ⟨hbefore, ⟨front, hfront, by rw [hgap, hnogap]⟩, hbehind⟩

/-- Where the scan finds the value of a pair, and as many values behind it as
    there are other pairs, the pair is aligned. -/
theorem aligned_of_scanPairs {p : PairLayout} {ps : List PairLayout} (hp : p.IsPair)
    (hps : ∀ q ∈ ps, q.IsPair) {rest : List Char} (hrest : ∀ c ∈ rest, Text.isBlank c = true)
    {values : List (List Char)} (hlength : values.length = ps.length)
    (h : scanPairs (p.chars ++ (ps.flatMap chars ++ ')' :: rest)) = p.value.toList :: values) :
    p.Aligned := by
  have hname : ' ' ∉ p.name.toList := not_mem_of_plain hp.name (by decide)
  have hvalue : ' ' ∉ p.value.toList := not_mem_of_plain hp.value (by decide)
  -- Where is the first space behind the opening parenthesis?
  by_cases hbefore : ' ' ∈ p.before
  · exact absurd h (scanPairs_before_ne hp hbefore _ _)
  by_cases hbetween : ' ' ∈ p.between
  · exact aligned_of_between hp hbefore hbetween h
  by_cases hbehind : ' ' ∈ p.behind
  · have hchars : p.chars ++ (ps.flatMap chars ++ ')' :: rest) =
        '(' :: ((p.before ++ (p.name.toList ++ (p.between ++ p.value.toList))) ++
          (p.behind ++ ')' :: (p.after ++ (ps.flatMap chars ++ ')' :: rest)))) := by
      simp [chars]
    rw [hchars] at h
    exact absurd h (scanPairs_gap_ne hp.value _ (by simp [hbefore, hname, hbetween, hvalue])
      hp.behind hbehind (delimited_closing _) _)
  have hfree : ' ' ∉ p.before ++ (p.name.toList ++ (p.between ++ (p.value.toList ++
      (p.behind ++ [')'])))) := by
    simp [hbefore, hname, hbetween, hvalue, hbehind]
  have hchars : p.chars ++ (ps.flatMap chars ++ ')' :: rest) =
      '(' :: (p.before ++ (p.name.toList ++ (p.between ++ (p.value.toList ++
        (p.behind ++ [')'])))) ++ (p.after ++ (ps.flatMap chars ++ ')' :: rest))) := by
    simp [chars]
  rw [hchars] at h
  by_cases hafter : ' ' ∈ p.after
  · exact absurd h (scanPairs_gap_ne hp.value _ hfree hp.after hafter
      (delimited_flatMap ps rest) _)
  -- The pair is passed over, and the value is looked for in the next one.
  rw [← List.append_assoc] at h
  have hpassed := not_or.mpr ⟨hfree, hafter⟩
  rw [← List.mem_append] at hpassed
  cases ps with
  | nil => exact absurd h (scanPairs_rest_ne hp.value hpassed hrest _)
  | cons q qs =>
      have hcount := length_scanPairs_le ((q :: qs).flatMap chars ++ ')' :: rest)
      have hskip : scanPairs ((q :: qs).flatMap chars ++ ')' :: rest) =
          p.value.toList :: values := by
        rw [← h]
        exact (scanPairs_open_skip _ _ hpassed).symm
      have hnone : (')' :: rest).count '(' = 0 :=
        List.count_eq_zero.mpr (not_opening_of_blank hrest)
      rw [hskip, List.count_append, count_flatMap _ hps, hnone, List.length_cons, hlength] at hcount
      omega

/-- The scan finds the values of pairs, up to the parenthesis behind them, if
    and only if all of them are aligned. -/
theorem scanPairs_eq_iff (ps : List PairLayout) (hps : ∀ p ∈ ps, p.IsPair) {rest : List Char}
    (hrest : ∀ c ∈ rest, Text.isBlank c = true) :
    scanPairs (ps.flatMap chars ++ ')' :: rest) = ps.map (fun p => p.value.toList) ↔
      ∀ p ∈ ps, p.Aligned := by
  induction ps with
  | nil =>
      simpa using scanPairs_of_not_mem _ (not_opening_of_blank hrest)
  | cons p ps ih =>
      rw [List.forall_mem_cons] at hps
      have hih := ih hps.2
      rw [List.flatMap_cons, List.append_assoc, List.map_cons, List.forall_mem_cons, ← hih]
      constructor
      · intro h
        have haligned := aligned_of_scanPairs hps.1 hps.2 hrest (List.length_map _) h
        rw [scanPairs_chars hps.1 haligned] at h
        exact ⟨haligned, (List.cons.inj h).2⟩
      · rintro ⟨haligned, h⟩
        rw [scanPairs_chars hps.1 haligned, h]

end PairLayout

theorem ReportLayout.scanPairs_eq_iff {r : ReportLayout} (hr : r.IsReport) :
    scanPairs r.chars = r.pairs.map (fun p => p.value.toList) ↔ r.Aligned := by
  have hfront : '(' ∉ r.front := not_mem_of_blank hr.front (by decide)
  rw [chars, scanPairs_append _ _ hfront]
  rcases hpairs : r.pairs with _ | ⟨p, ps⟩
  · -- A value is found where there is none.
    have hopen := scanPairs_append_open [] (r.inside ++ ')' :: r.rest) (by simp)
    rw [List.nil_append] at hopen
    rw [List.flatMap_nil, List.nil_append, hopen]
    constructor
    · intro h
      cases h
    · intro h
      exact absurd hpairs h.nonempty
  · have hps := hr.pairs
    rw [hpairs] at hps
    by_cases hinside : ' ' ∈ r.inside
    · constructor
      · intro h
        exact absurd h (scanPairs_gap_ne (hps p List.mem_cons_self).value [] (by simp)
          hr.inside hinside (PairLayout.delimited_flatMap _ _) _)
      · intro h
        exact absurd hinside h.inside
    · have hskip : scanPairs ('(' :: (r.inside ++ ((p :: ps).flatMap PairLayout.chars ++
          ')' :: r.rest))) = scanPairs ((p :: ps).flatMap PairLayout.chars ++ ')' :: r.rest) :=
        scanPairs_open_skip _ _ hinside
      rw [hskip, PairLayout.scanPairs_eq_iff _ hps hr.rest, ← hpairs]
      constructor
      · intro h
        exact ⟨by rw [hpairs]; exact List.cons_ne_nil _ _, hinside, h⟩
      · intro h
        exact h.pairs

/-- The scan reads the values of a report that consists of pairs if and only if
    the report is aligned. -/
theorem reportedValues_eq_iff (reply : String) (pairs : List (String × String))
    (hread : SExpr.parseAll (String.ofList (afterFirst '\n' reply.toList)) =
      .ok [.list (pairs.map pairTree)])
    (hplain : SExpr.IsBare (afterFirst '\n' reply.toList)) :
    reportedValues reply = pairs.map Prod.snd ↔
      ∃ r : ReportLayout, r.IsReport ∧ r.chars = afterFirst '\n' reply.toList ∧
        r.pairs.map PairLayout.content = pairs ∧ r.Aligned := by
  have hvalues {r : ReportLayout} (hr : r.IsReport)
      (hchars : r.chars = afterFirst '\n' reply.toList)
      (hcontent : r.pairs.map PairLayout.content = pairs) :
      reportedValues reply = pairs.map Prod.snd ↔ r.Aligned := by
    rw [← ReportLayout.scanPairs_eq_iff hr, reportedValues, ← hchars, ← hcontent, List.map_map]
    constructor
    · intro h
      simpa [List.map_map, Function.comp_def, PairLayout.content] using
        congrArg (List.map String.toList) h
    · intro h
      simp [h, PairLayout.content]
  constructor
  · intro h
    rcases exists_layout hread (by rwa [String.toList_ofList]) with ⟨r, hr, hchars, hcontent⟩
    rw [String.toList_ofList] at hchars
    exact ⟨r, hr, hchars, hcontent, (hvalues hr hchars hcontent).mp h⟩
  · rintro ⟨r, hr, hchars, hcontent, haligned⟩
    exact (hvalues hr hchars hcontent).mpr haligned

/-- Line feeds and tabs do no harm in front of the names and between the pairs,
    and not even in front of the space that the scan looks for. -/
theorem reportedValues_eq_iff_lines :
    let pairs := [("x", "1"), ("y", "true")]
    let reply := "sat\n(\n(x 1)\t (\ny\n true)\n)\n"
    SExpr.parseAll "(\n(x 1)\t (\ny\n true)\n)\n" = .ok [.list (pairs.map pairTree)] ∧
      reportedValues reply = ["1", "true"] := by
  intro pairs reply
  have htext : afterFirst '\n' reply.toList = "(\n(x 1)\t (\ny\n true)\n)\n".toList := by decide
  have hread : SExpr.parseAll "(\n(x 1)\t (\ny\n true)\n)\n" =
      .ok [.list (pairs.map pairTree)] := by
    rw [SExpr.parseAll_eq_ok_iff]
    decide +kernel
  have hlaw := reportedValues_eq_iff reply pairs (by rwa [htext, String.ofList_toList])
    ⟨by rw [htext]; decide, by rw [htext]; decide⟩
  let first : PairLayout := ⟨"x", "1", [], [' '], [], ['\t', ' ']⟩
  let second : PairLayout := ⟨"y", "true", ['\n'], ['\n', ' '], [], ['\n']⟩
  have blank {cs : List Char} (h : cs.all Text.isBlank = true) : ∀ c ∈ cs, Text.isBlank c = true :=
    List.all_eq_true.mp h
  have hfirst : first.IsPair :=
    ⟨by decide, by decide, blank rfl, blank rfl, blank rfl, blank rfl, by decide⟩
  have hsecond : second.IsPair :=
    ⟨by decide, by decide, blank rfl, blank rfl, blank rfl, blank rfl, by decide⟩
  refine ⟨hread, hlaw.mpr ⟨⟨[], ['\n'], [first, second], ['\n']⟩, ⟨blank rfl, blank rfl, ?_,
    blank rfl⟩, by rw [htext]; decide, rfl, by decide, by decide, ?_⟩⟩
  · simp [hfirst, hsecond]
  · simp only [List.forall_mem_cons, List.not_mem_nil, false_imp_iff, implies_true, and_true]
    exact ⟨⟨by decide, ⟨[], by decide, rfl⟩, rfl⟩, ⟨by decide, ⟨['\n'], by decide, rfl⟩, rfl⟩⟩

/-- A line feed is not the space that the scan looks for. -/
theorem scan_misses_value :
    SExpr.parseAll "((x\n5))" = .ok [.list [pairTree ("x", "5")]] ∧
      reportedValues "sat\n((x\n5))" = [""] := by
  constructor
  · rw [SExpr.parseAll_eq_ok_iff]
    decide +kernel
  · decide +kernel

end SmtSession
