import Mathlib.Data.List.TakeWhile
import SmtSession.Solver.Choice

/-!
# Lists of Solvers

Which texts spell a choice of solvers, and which choice. A text is stripped as a
whole first, then cut at its commas, and then each piece is stripped again. The
two strippings meet in the first piece and in the last one, and whoever writes
a list should not have to know about that. Indeed the first stripping can be
forgotten (`Choice.namesIn_stripped`): the pieces of a text and those of the
stripped text have the same names in them. It only matters for the words that
stand alone.

Once a list is known by its names, nothing else of it matters. The choice has the
solvers that are among the names, and so it depends on neither their order nor
how often they come nor the blanks around them. Two lists with a comma in
between have the names of both.

## Main definitions

* `Choice.namesIn`: The names that a text lists.
* `Choice.IsKnown`: The names of solvers.
* `Choice.ListsSolvers`: A text lists nothing but solvers.
* `Choice.Spells`: The texts that spell a choice.

## Theorems

* `Text.pieces_append`: Cutting two texts with a separator in between.
* `Text.trim_append`: What is stripped makes no difference.
* `Choice.namesIn_stripped`: Stripping the whole text changes no name.
* `Choice.ofNames_of_known`, `Choice.ofNames_of_unknown`: What a list of names
  chooses.
* `Choice.read_eq_ok_iff`: When a text is read.
* `Choice.reads_lists`: What is read, and what is refused.
-/

namespace SmtSession

namespace Text

/-! ## Pieces -/

theorem pieces_cons_of_ne {separator c : Char} (h : c ≠ separator) {cs piece : List Char}
    {rest : List (List Char)} (hpieces : pieces separator cs = piece :: rest) :
    pieces separator (c :: cs) = (c :: piece) :: rest := by
  rw [pieces, if_neg h, hpieces]

/-- Cutting two texts with a separator in between. -/
theorem pieces_append (separator : Char) (cs ds : List Char) :
    pieces separator (cs ++ separator :: ds) = pieces separator cs ++ pieces separator ds := by
  induction cs with
  | nil => simp [pieces]
  | cons c cs ih =>
      by_cases hc : c = separator
      · rw [List.cons_append, pieces, if_pos hc, ih, pieces, if_pos hc, List.cons_append]
      · rcases List.exists_cons_of_ne_nil (pieces_ne_nil separator cs) with ⟨piece, rest, hpieces⟩
        rw [hpieces] at ih
        rw [List.cons_append, pieces_cons_of_ne hc ih, pieces_cons_of_ne hc hpieces]
        rfl

/-- What has no separator goes to the first piece. -/
theorem pieces_of_front {separator : Char} {front cs piece : List Char} {rest : List (List Char)}
    (h : separator ∉ front) (hpieces : pieces separator cs = piece :: rest) :
    pieces separator (front ++ cs) = (front ++ piece) :: rest := by
  induction front with
  | nil => exact hpieces
  | cons c front ih =>
      rw [List.mem_cons, not_or] at h
      rw [List.cons_append, pieces_cons_of_ne (Ne.symm h.1) (ih h.2), List.cons_append]

/-- Or to the last one. -/
theorem exists_pieces_of_back {separator : Char} {back : List Char} (h : separator ∉ back)
    (cs : List Char) : ∃ front piece, pieces separator cs = front ++ [piece] ∧
      pieces separator (cs ++ back) = front ++ [piece ++ back] := by
  induction cs with
  | nil =>
      have hback : pieces separator (back ++ []) = [back ++ []] := pieces_of_front h rfl
      rw [List.append_nil] at hback
      exact ⟨[], [], rfl, hback⟩
  | cons c cs ih =>
      rcases ih with ⟨front, piece, hpieces, hback⟩
      by_cases hc : c = separator
      · refine ⟨[] :: front, piece, ?_, ?_⟩
        · rw [pieces, if_pos hc, hpieces, List.cons_append]
        · rw [List.cons_append, pieces, if_pos hc, hback, List.cons_append]
      · cases front with
        | nil =>
            exact ⟨[], c :: piece, pieces_cons_of_ne hc hpieces, pieces_cons_of_ne hc hback⟩
        | cons first front =>
            exact ⟨(c :: first) :: front, piece, pieces_cons_of_ne hc hpieces,
              pieces_cons_of_ne hc hback⟩

/-! ## Stripping -/

/-- What is stripped makes no difference at the front or at the back. -/
theorem trim_append {strip : Char → Bool} {front back : List Char}
    (hfront : ∀ c ∈ front, strip c = true) (hback : ∀ c ∈ back, strip c = true)
    (cs : List Char) : trim strip (front ++ cs ++ back) = trim strip cs := by
  have hreverse : ∀ c ∈ back.reverse, strip c = true := fun c hc => hback c (List.mem_reverse.mp hc)
  rw [trim, trim, List.append_assoc, List.dropWhile_append_of_pos hfront, List.dropWhile_append]
  split
  · next hnone =>
      rw [List.isEmpty_iff] at hnone
      rw [hnone, List.dropWhile_eq_nil_iff.mpr hback]
  · rw [List.reverse_append, List.dropWhile_append_of_pos hreverse]

/-- A text is what stripping leaves of it, between characters that are stripped. -/
theorem exists_trim (strip : Char → Bool) (cs : List Char) :
    ∃ front back, cs = front ++ trim strip cs ++ back ∧ (∀ c ∈ front, strip c = true) ∧
      ∀ c ∈ back, strip c = true := by
  refine ⟨cs.takeWhile strip, ((cs.dropWhile strip).reverse.takeWhile strip).reverse, ?_,
    List.all_eq_true.mp List.all_takeWhile, fun c hc => ?_⟩
  · rw [trim, List.append_assoc, ← List.reverse_append, List.takeWhile_append_dropWhile,
      List.reverse_reverse, List.takeWhile_append_dropWhile]
  · exact List.all_eq_true.mp List.all_takeWhile c (List.mem_reverse.mp hc)

/-- Stripped pieces are the same when the text is stripped first. -/
theorem trim_pieces_trim {strip : Char → Bool} {separator : Char}
    (h : strip separator = false) (cs : List Char) :
    (pieces separator (trim strip cs)).map (trim strip) =
      (pieces separator cs).map (trim strip) := by
  have hmem {l : List Char} (hl : ∀ c ∈ l, strip c = true) : separator ∉ l := fun hc => by
    rw [hl separator hc] at h
    cases h
  rcases exists_trim strip cs with ⟨front, back, hcs, hfront, hback⟩
  -- What is stripped has no separator, so it only makes the first piece longer at its
  -- front and the last one at its back, and there it is stripped with the piece.
  have hfirst : (pieces separator (front ++ trim strip cs)).map (trim strip) =
      (pieces separator (trim strip cs)).map (trim strip) := by
    rcases List.exists_cons_of_ne_nil (pieces_ne_nil separator (trim strip cs)) with
      ⟨piece, rest, hpieces⟩
    have hpiece := trim_append hfront (by simp : ∀ c ∈ [], strip c = true) piece
    rw [List.append_nil] at hpiece
    rw [pieces_of_front (hmem hfront) hpieces, hpieces, List.map_cons, List.map_cons, hpiece]
  have hlast : (pieces separator (front ++ trim strip cs ++ back)).map (trim strip) =
      (pieces separator (front ++ trim strip cs)).map (trim strip) := by
    rcases exists_pieces_of_back (hmem hback) (front ++ trim strip cs) with
      ⟨others, piece, hpieces, hboth⟩
    have hpiece := trim_append (by simp : ∀ c ∈ [], strip c = true) hback piece
    rw [List.nil_append] at hpiece
    rw [hpieces, hboth, List.map_append, List.map_append, List.map_singleton, List.map_singleton,
      hpiece]
  rw [← hfirst, ← hlast, ← hcs]

end Text

namespace Choice

/-! ## Names -/

/-- The names that a text lists, in order. -/
def namesIn (text : String) : List String := (Text.pieces ',' text.toList).map stripped

/-- The names of solvers. -/
def IsKnown (name : String) : Prop := name = "z3" ∨ name = "cvc4"

instance (name : String) : Decidable (IsKnown name) := inferInstanceAs (Decidable (_ ∨ _))

/-- A text lists solvers and nothing else. -/
def ListsSolvers (text : String) : Prop := ∀ name ∈ namesIn text, IsKnown name

instance (text : String) : Decidable (ListsSolvers text) :=
  inferInstanceAs (Decidable (∀ _ ∈ _, _))

/-- The choice of the solvers among some names. -/
def among (names : List String) : Choice := ⟨names.contains "z3", names.contains "cvc4"⟩

/-- The texts that spell a choice. -/
inductive Spells (text : String) : Choice → Prop
  | all (word : stripped text.toList = "all") : Spells text all
  | none (word : stripped text.toList = "" ∨ stripped text.toList = "none") : Spells text none
  | list (lists : ListsSolvers text) : Spells text (among (namesIn text))

/-- Stripping the whole text changes no name. -/
theorem namesIn_stripped (text : String) : namesIn (stripped text.toList) = namesIn text := by
  have hpieces := Text.trim_pieces_trim (by decide : Text.isBlank ',' = false) text.toList
  have hnames := congrArg (List.map String.ofList) hpieces
  rw [List.map_map, List.map_map] at hnames
  rw [namesIn, namesIn, stripped, String.toList_ofList]
  exact hnames

/-- Two lists with a comma in between list the names of both. -/
theorem namesIn_append (s t : String) : namesIn (s ++ "," ++ t) = namesIn s ++ namesIn t := by
  have htext : (s ++ "," ++ t).toList = s.toList ++ ',' :: t.toList := by simp
  rw [namesIn, htext, Text.pieces_append, List.map_append, namesIn, namesIn]

theorem among_append (names others : List String) :
    among (names ++ others) = (among names).union (among others) := by
  simp [among, union]

theorem ofName_of_known {name : String} (h : IsKnown name) : ofName name = .ok (among [name]) := by
  rcases h with rfl | rfl <;> rfl

theorem ofName_of_unknown {name : String} (h : ¬ IsKnown name) :
    ofName name = .error (.unknownSolver name) := by
  rw [IsKnown, not_or] at h
  rw [ofName, if_neg h.1, if_neg h.2]

/-- A list of known names chooses the solvers among them. -/
theorem ofNames_of_known {names : List String} (h : ∀ name ∈ names, IsKnown name) :
    ofNames names = .ok (among names) := by
  induction names with
  | nil => rfl
  | cons name names ih =>
      rw [List.forall_mem_cons] at h
      rw [ofNames, ofName_of_known h.1, ih h.2]
      exact congrArg Except.ok (among_append [name] names).symm

/-- The first name that is not known is reported. -/
theorem ofNames_of_unknown {before : List String} {name : String} (after : List String)
    (hbefore : ∀ n ∈ before, IsKnown n) (h : ¬ IsKnown name) :
    ofNames (before ++ name :: after) = .error (.unknownSolver name) := by
  induction before with
  | nil =>
      rw [List.nil_append, ofNames, ofName_of_unknown h]
      rfl
  | cons first before ih =>
      rw [List.forall_mem_cons] at hbefore
      rw [List.cons_append, ofNames, ofName_of_known hbefore.1, ih hbefore.2]
      rfl

/-- Names are all known, or one of them is the first that is not. -/
theorem known_or_first_unknown (names : List String) :
    (∀ name ∈ names, IsKnown name) ∨
      ∃ before name after, names = before ++ name :: after ∧ (∀ n ∈ before, IsKnown n) ∧
        ¬ IsKnown name := by
  induction names with
  | nil => exact .inl (by simp)
  | cons first names ih =>
      by_cases hfirst : IsKnown first
      · rcases ih with hknown | ⟨before, name, after, rfl, hbefore, hname⟩
        · exact .inl (List.forall_mem_cons.mpr ⟨hfirst, hknown⟩)
        · exact .inr ⟨first :: before, name, after, rfl,
            List.forall_mem_cons.mpr ⟨hfirst, hbefore⟩, hname⟩
      · exact .inr ⟨[], first, names, rfl, by simp, hfirst⟩

/-! ## Reading -/

/-- A list of solvers is none of the words that stand alone. -/
theorem ListsSolvers.stripped_ne {text : String} (h : ListsSolvers text) :
    stripped text.toList ≠ "all" ∧
      ¬ (stripped text.toList = "" ∨ stripped text.toList = "none") := by
  have hword {word : String} (hword : ¬ ListsSolvers word) : stripped text.toList ≠ word := by
    rintro rfl
    exact hword (by rwa [ListsSolvers, namesIn_stripped])
  exact ⟨hword (by decide), not_or_intro (hword (by decide)) (hword (by decide))⟩

/-- What does not stand alone is read by its names. -/
theorem read_eq_ofNames {text : String} (hall : stripped text.toList ≠ "all")
    (hnone : ¬ (stripped text.toList = "" ∨ stripped text.toList = "none")) :
    read text = ofNames (namesIn text) := by
  rw [← namesIn_stripped, read, if_neg hall, if_neg hnone]
  rfl

theorem read_of_lists {text : String} (h : ListsSolvers text) :
    read text = .ok (among (namesIn text)) := by
  rw [read_eq_ofNames h.stripped_ne.1 h.stripped_ne.2, ofNames_of_known h]

theorem read_of_spells {text : String} {c : Choice} (h : Spells text c) : read text = .ok c := by
  cases h with
  | all word =>
      rw [read, if_pos word]
  | none word =>
      have hall : stripped text.toList ≠ "all" := by
        rcases word with word | word <;> rw [word] <;> decide
      rw [read, if_neg hall, if_pos word]
  | list lists => exact read_of_lists lists

/-- A text spells a choice, or it has a first name that is not known. -/
theorem spells_or_unknown (text : String) :
    (∃ c, Spells text c) ∨
      ∃ before name after, namesIn text = before ++ name :: after ∧
        (∀ n ∈ before, IsKnown n) ∧ ¬ IsKnown name ∧
          read text = .error (.unknownSolver name) := by
  by_cases hall : stripped text.toList = "all"
  · exact .inl ⟨_, .all hall⟩
  by_cases hnone : stripped text.toList = "" ∨ stripped text.toList = "none"
  · exact .inl ⟨_, .none hnone⟩
  rcases known_or_first_unknown (namesIn text) with
    hknown | ⟨before, name, after, hnames, hbefore, hname⟩
  · exact .inl ⟨_, .list hknown⟩
  · refine .inr ⟨before, name, after, hnames, hbefore, hname, ?_⟩
    rw [read_eq_ofNames hall hnone, hnames, ofNames_of_unknown after hbefore hname]

/-- A text is read just when it spells a choice. -/
theorem read_eq_ok_iff (text : String) (c : Choice) : read text = .ok c ↔ Spells text c := by
  refine ⟨fun h => ?_, read_of_spells⟩
  rcases spells_or_unknown text with ⟨d, hspells⟩ | ⟨before, name, after, -, -, -, hread⟩
  · rw [read_of_spells hspells] at h
    exact Except.ok.inj h ▸ hspells
  · rw [hread] at h
    cases h

/-- Lists of the same names choose the same solvers. -/
theorem among_congr {names others : List String} (h : ∀ name, name ∈ names ↔ name ∈ others) :
    among names = among others := by
  simp [among, h]

/-- Texts are read as the choices that they spell, and any other text is refused
    because of the first name in it that is not known. Two lists with a comma in
    between choose the solvers of both, and lists of the same names choose the
    same, whatever their order, their repetitions and the blanks around them. The
    command lines of a choice are those of its solvers, each of them once and in
    the order of consultation. -/
theorem reads_lists (s t : String) :
    (∀ c, read s = .ok c ↔ Spells s c) ∧
      ((∀ c, ¬ Spells s c) → ∃ before name after, namesIn s = before ++ name :: after ∧
        (∀ n ∈ before, IsKnown n) ∧ ¬ IsKnown name ∧
          ∃ fault, read s = .error fault ∧ fault.kind = .value ∧
            fault.message = "Unknown solver: " ++ Text.quoted name) ∧
      (ListsSolvers s → ListsSolvers t → ∃ a b, read s = .ok a ∧ read t = .ok b ∧
        read (s ++ "," ++ t) = .ok (a.union b) ∧
          ((∀ name, name ∈ namesIn s ↔ name ∈ namesIn t) → a = b)) ∧
      ∀ c : Choice, c.commands.Sublist ["z3 rlimit=1000000", "cvc4"] ∧ c.commands.Nodup ∧
        ("z3 rlimit=1000000" ∈ c.commands ↔ c.z3 = true) ∧
        ("cvc4" ∈ c.commands ↔ c.cvc4 = true) := by
  refine ⟨read_eq_ok_iff s, fun hrefused => ?_, fun hs ht => ?_, fun c => ?_⟩
  · rcases spells_or_unknown s with
      ⟨c, hspells⟩ | ⟨before, name, after, hnames, hbefore, hname, hread⟩
    · exact absurd hspells (hrefused c)
    · exact ⟨before, name, after, hnames, hbefore, hname, _, hread, rfl, rfl⟩
  · refine ⟨_, _, read_of_lists hs, read_of_lists ht, ?_, among_congr⟩
    have hboth : ListsSolvers (s ++ "," ++ t) := by
      rw [ListsSolvers, namesIn_append]
      exact List.forall_mem_append.mpr ⟨hs, ht⟩
    rw [read_of_lists hboth, namesIn_append, among_append]
  · rcases c with ⟨_ | _, _ | _⟩ <;> decide

/-- Blanks of all kinds around a name that comes twice, with another list behind it,
    and a list with nothing between two commas. -/
theorem reads_lists_padded :
    let s := "\u00a0cvc4 ,\tcvc4\n"
    let t := " z3"
    (read s = .ok onlyCvc4 ∧ read t = .ok onlyZ3 ∧ read (s ++ "," ++ t) = .ok all) ∧
      ∃ fault, read "z3,,all" = .error fault ∧ fault.message = "Unknown solver: ''" := by
  intro s t
  have hs : among (namesIn s) = onlyCvc4 := by decide
  have ht : among (namesIn t) = onlyZ3 := by decide
  have hfirst : read s = .ok onlyCvc4 := ((reads_lists s t).1 _).mpr (hs ▸ .list (by decide))
  have hsecond : read t = .ok onlyZ3 := ((reads_lists t s).1 _).mpr (ht ▸ .list (by decide))
  rcases (reads_lists s t).2.2.1 (by decide) (by decide) with ⟨a, b, ha, hb, hboth, -⟩
  rw [hfirst] at ha
  rw [hsecond] at hb
  obtain rfl : onlyCvc4 = a := Except.ok.inj ha
  obtain rfl : onlyZ3 = b := Except.ok.inj hb
  have hrefused : ∀ c, ¬ Spells "z3,,all" c := by
    intro c h
    cases h with
    | all word => exact absurd word (by decide)
    | none word => exact absurd word (by decide)
    | list lists => exact absurd lists (by decide)
  rcases (reads_lists "z3,,all" t).2.1 hrefused with
    ⟨before, name, after, hnames, hbefore, hname, fault, hread, -, hmessage⟩
  have hlisted : namesIn "z3,,all" = ["z3", "", "all"] := by decide
  rw [hlisted] at hnames
  -- The first name is known and the second one is not.
  obtain rfl : name = "" := by
    rcases before with _ | ⟨first, _ | ⟨second, before⟩⟩
    · obtain rfl : "z3" = name := (List.cons.inj hnames).1
      exact absurd (.inl rfl) hname
    · exact (List.cons.inj (List.cons.inj hnames).2).1.symm
    · obtain rfl : "" = second := (List.cons.inj (List.cons.inj hnames).2).1
      exact absurd (hbefore "" (by simp)) (by decide)
  exact ⟨⟨hfirst, hsecond, hboth⟩, fault, hread, hmessage.trans (by decide)⟩

end Choice

end SmtSession
