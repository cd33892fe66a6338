import SmtSession.Proofs.Numeral
import SmtSession.Proofs.SExpr.Spelling
import SmtSession.Proofs.Script.Operation

/-!
# Trees of Commands

What the lines of a script are meant to say. Sorts, terms and commands have
trees, which are made from them directly: no text is involved, and bars,
blanks and the order of writing have no place in them. The texts that are
written spell these trees, provided that the names in them can be read back.

Names from outside come in two kinds. The names of symbols, datatypes and
members are always written between bars and may hold anything but a bar and a
semicolon. The names in terms are written as they are and have to be plain.

Each template of the writer is brought into the form of lists in lists first;
that it is spelled right then follows from the rules of spelling.

## Main definitions

* `SmtSort.tree`, `Term.tree`, `Command.tree`: The tree of a sort, of a term
  and of a command.
* `Script.preambleTrees`: The trees of the preamble.
* `Datatype.IsQuotable`, `Term.names`: What has to be readable in a term.
* `Command.IsReadable`: The commands whose names can be read back.

## Theorems

* `spells_writtenName`, `spells_declaration`, `spells_writtenText`: Names of
  sorts, declarations of datatypes and texts of terms spell their trees.
* `spells_command`, `spells_preamble`: So do commands and the preamble.
-/

namespace SmtSession

open SExpr (Spells IsPlain IsQuotable enclosed Delimited)

/-- The tree of a symbol with an index, such as the name of a sort of bit
    vectors. -/
def indexed (head : String) (indices : List String) : SExpr :=
  .list (.atom "_" :: .atom head :: indices.map .atom)

namespace SmtSort

/-- The tree of a sort. -/
def tree : SmtSort → SExpr
  | .int _ _ => .atom "Int"
  | .bool _ => .atom "Bool"
  | .bitVec _ width => indexed "BitVec" [decimalText width]
  | .array _ domain range => .list [.atom "Array", tree domain, tree range]
  -- The bars are read away.
  | .tuple _ name _ => .atom name
  | .missing | .bare _ | .function _ _ _ | .placeholder _ _ => .atom ""

end SmtSort

namespace Datatype

/-- The trees of the selectors. -/
def selectorTrees (fields : List (String × SmtSort)) : List SExpr :=
  fields.map fun field => .list [.atom field.1, field.2.tree]

/-- The tree of the command that declares a datatype. -/
def tree (d : Datatype) : SExpr :=
  .list [.atom "declare-datatypes", .list [.list [.atom d.name, .atom "0"]],
    .list [.list [.list (.atom d.name :: selectorTrees d.fields)]]]

/-- The datatypes whose names can stand between bars. -/
def IsQuotable (d : Datatype) : Prop :=
  SExpr.IsQuotable d.name ∧ ∀ field ∈ d.fields, SExpr.IsQuotable field.1

end Datatype

namespace Term

/-- The tree of a conversion to bit vectors. -/
def intToBitVecTree (width : Int) (value : SExpr) : SExpr :=
  let convert := indexed "int2bv" [decimalText width]
  .list [.atom "ite", .list [.atom ">=", value, .atom "0"], .list [convert, value],
    .list [.atom "bvneg", .list [convert, .list [.atom "-", value]]]]

/-- The tree of the integer that a bit vector counts. -/
def unsignedTree (value : SExpr) : SExpr := .list [.atom "bv2nat", value]

/-- The tree of the integer that a bit vector stands for in two's complement. -/
def signedTree (top : String) (value : SExpr) : SExpr :=
  .list [.atom "ite",
    .list [.atom "=", .list [indexed "extract" [top, top], value], .atom "#b0"],
    unsignedTree value, .list [.atom "-", unsignedTree (.list [.atom "bvneg", value])]]

/-- The tree of an array with one value everywhere. -/
def constArrayTree (sort fill : SExpr) : SExpr :=
  .list [.list [.atom "as", .atom "const", sort], fill]

mutual

/-- The tree of a term. -/
def tree : Term → SExpr
  | ⟨name, [], _⟩ => .atom name
  | ⟨name, first :: others, sort⟩ =>
    match Operator.ofName name, others with
    | .intToBitVec, [width] => intToBitVecTree (width.number?.getD 0) (tree first)
    | .bitVecToInt, [] =>
      if sort.isSigned then signedTree (first.signBit?.getD "") (tree first)
      else unsignedTree (tree first)
    | .constArray, [fill] =>
      constArrayTree ((first.sort.heldArray?.map SmtSort.tree).getD (.atom "")) (tree fill)
    -- Members and constructors are applied like any other symbol.
    | .tupleGet, [index] => .list [.atom ((selected? first index).getD ""), tree first]
    | .tupleMake, others =>
      .list (.atom ((sort.datatype?.map Datatype.name).getD "") :: tree first :: argTrees others)
    | .symbol, others => .list (.atom name :: tree first :: argTrees others)
    | _, _ => .atom ""

/-- The trees of arguments. -/
def argTrees : List Term → List SExpr
  | [] => []
  | t :: ts => tree t :: argTrees ts

end

mutual

/-- All names in a term. -/
def names : Term → List String
  | ⟨name, args, _⟩ => name :: argNames args

/-- All names in terms. -/
def argNames : List Term → List String
  | [] => []
  | t :: ts => names t ++ argNames ts

end

/-- The terms whose names can be read back: plain ones as they are, those of
    tuple sorts between bars. -/
structure IsReadable (t : Term) : Prop where
  plain : ∀ name ∈ t.names, IsPlain name
  quotable : ∀ d ∈ t.tuples, d.IsQuotable

end Term

namespace Command

/-- The tree of a command. -/
def tree : Command → SExpr
  | .datatype d => d.tree
  | .symbol name domain codomain =>
    .list [.atom "declare-fun", .atom name, .list (domain.map SmtSort.tree), codomain.tree]
  | .assertion term => .list [.atom "assert", term.tree]

/-- The commands whose names can be read back. -/
def IsReadable : Command → Prop
  | .datatype d => ∀ e ∈ d :: SmtSort.fieldTuples d.fields, e.IsQuotable
  | .symbol name domain codomain =>
    IsQuotable name ∧ ∀ d ∈ SmtSort.listTuples domain ++ codomain.tuples, d.IsQuotable
  | .assertion term => term.IsReadable

end Command

/-- The trees of the lines that every script starts with. -/
def Script.preambleTrees (timeout : Option WritableInt) : List SExpr :=
  [.list [.atom "set-option", .atom ":produce-models", .atom "true"]]
    ++ (timeout.map fun limit =>
      .list [.atom "set-option", .atom ":timeout", .atom limit.text]).toList
    ++ [.list [.atom "set-logic", .atom "ALL"]]

/-! ## Numerals -/

theorem endsAtom_of_isDigit {c : Char} (h : c.isDigit = true) : Reader.endsAtom c = false := by
  simp only [Reader.endsAtom, isBlank_of_isDigit h, Bool.false_or, Bool.or_eq_false_iff,
    decide_eq_false_iff_not]
  constructor <;> rintro rfl <;> exact absurd h (by decide)

/-- A text of digits, with a minus sign in front if need be, is plain. -/
theorem isPlain_of_digits {s : String} (hs : s ≠ "")
    (h : ∀ c ∈ s.toList, c = '-' ∨ c.isDigit = true) : IsPlain s where
  nonempty := hs
  unbroken c hc := (h c hc).elim (fun hminus => hminus ▸ by decide) endsAtom_of_isDigit
  noComment hc := (h ';' hc).elim (by decide) (by decide)
  noBar hbar := (h '|' (List.mem_of_mem_head? hbar)).elim (by decide) (by decide)

/-- Numerals are plain. -/
theorem isPlain_decimalText (n : Int) : IsPlain (decimalText n) := by
  have hne : decimalText n ≠ "" := by
    intro hempty
    have hnil := congrArg String.toList hempty
    cases n with
    | ofNat m =>
        rw [decimalText, toList_numeral] at hnil
        exact Nat.toDigits_ne_nil hnil
    | negSucc m => simp [decimalText] at hnil
  refine isPlain_of_digits hne fun c hc => ?_
  cases n with
  | ofNat m => exact .inr (isDigit_of_mem_numeral hc)
  | negSucc m =>
      rw [decimalText, String.toList_append, List.mem_append] at hc
      rcases hc with hminus | hdigit
      · exact .inl (by simpa using hminus)
      · exact .inr (isDigit_of_mem_numeral hdigit)

/-! ## Sorts and Datatypes -/

/-- A symbol with one index. -/
theorem spells_indexed (head : String) {index : String} (hhead : IsPlain head) (hindex : IsPlain index) :
    Spells (enclosed ("_" ++ " " ++ head ++ " " ++ index)) [indexed head [index]] :=
  (((Spells.plain (by decide)).spaced (.plain hhead)).spaced (.plain hindex)).parens

theorem spells_bitVecName {width : String} (hwidth : IsPlain width) :
    Spells (bitVecName width) [indexed "BitVec" [width]] := by
  have htext : bitVecName width = enclosed ("_" ++ " " ++ "BitVec" ++ " " ++ width) := by
    unfold bitVecName enclosed
    rw [← String.toList_inj]
    simp only [String.toList_append]
    simp
  rw [htext]
  exact spells_indexed "BitVec" (by decide) hwidth

theorem spells_arrayName {domain range : String} {d r : SExpr} (hd : Spells domain [d])
    (hr : Spells range [r]) : Spells (arrayName domain range) [.list [.atom "Array", d, r]] := by
  have htext : arrayName domain range = enclosed ("Array" ++ " " ++ domain ++ " " ++ range) := by
    unfold arrayName enclosed
    rw [← String.toList_inj]
    simp only [String.toList_append]
    simp
  rw [htext]
  exact (((Spells.plain (by decide)).spaced hd).spaced hr).parens

/-- The name of a sort spells its tree. -/
theorem spells_writtenName (sort : SmtSort) (hname : sort.HasName)
    (hquotable : ∀ d ∈ sort.tuples, d.IsQuotable) :
    Spells sort.writtenName [sort.tree] := by
  induction sort with
  | int i isSigned => exact Spells.plain (s := "Int") (by decide)
  | bool i => exact Spells.plain (s := "Bool") (by decide)
  | bitVec i width => exact spells_bitVecName (isPlain_decimalText width)
  | array i domain range ihd ihr =>
      rw [SmtSort.HasName] at hname
      rw [SmtSort.tuples] at hquotable
      exact spells_arrayName
        (ihd hname.1 fun d hd => hquotable d (List.mem_append_left _ hd))
        (ihr hname.2 fun d hd => hquotable d (List.mem_append_right _ hd))
  | tuple i name fields ih =>
      rw [SmtSort.tuples] at hquotable
      have hname := hquotable ⟨name, fields⟩ (by simp)
      exact .quoted hname.1
  | missing => exact hname.elim
  | bare i => exact hname.elim
  | function i domain codomain ihd ihc => exact hname.elim
  | placeholder i inner ih => exact hname.elim

theorem delimited_space (text : String) : Delimited (" " ++ text).toList :=
  Spells.delimited_blank (c := ' ') (by decide) text

/-- The selectors of a datatype spell their trees. -/
theorem spells_selectors (fields : List (String × SmtSort))
    (hnames : ∀ field ∈ fields, field.2.HasName ∧ IsQuotable field.1)
    (hquotable : ∀ d ∈ SmtSort.fieldTuples fields, d.IsQuotable) :
    Spells (Datatype.selectors fields) (Datatype.selectorTrees fields) ∧
      Delimited (Datatype.selectors fields).toList := by
  -- Each selector comes with a space in front, so it does not prolong what
  -- stands before it.
  induction fields with
  | nil =>
      refine ⟨?_, by simp [Datatype.selectors, Delimited]⟩
      simpa [Datatype.selectors, Datatype.selectorTrees] using Spells.empty
  | cons field fields ih =>
      obtain ⟨member, sort⟩ := field
      obtain ⟨hname, hmember⟩ := hnames (member, sort) List.mem_cons_self
      rw [SmtSort.fieldTuples] at hquotable
      have hsort := spells_writtenName sort hname fun d hd =>
        hquotable d (List.mem_append_left _ hd)
      obtain ⟨hrest, hdelimited⟩ := ih (fun f hf => hnames f (List.mem_cons_of_mem _ hf))
        fun d hd => hquotable d (List.mem_append_right _ hd)
      have hselector := ((Spells.quoted hmember).spaced hsort).parens
      have htext : Datatype.selectors ((member, sort) :: fields) =
          " " ++ (enclosed (bars member ++ " " ++ sort.writtenName)
            ++ Datatype.selectors fields) := by
        simp only [Datatype.selectors, List.map_cons, String.join_cons]
        unfold selectorText enclosed
        generalize bars member = q
        rw [← String.toList_inj]
        simp only [String.toList_append]
        simp
      rw [htext]
      exact ⟨(hselector.append hrest hdelimited).blank (c := ' ') (by decide),
        delimited_space _⟩

/-- The declaration of a datatype spells its tree. -/
theorem spells_declaration (d : Datatype) (hnames : ∀ field ∈ d.fields, field.2.HasName)
    (hquotable : ∀ e ∈ d :: SmtSort.fieldTuples d.fields, e.IsQuotable) :
    Spells d.declaration [d.tree] := by
  obtain ⟨hname, hmembers⟩ := hquotable d List.mem_cons_self
  obtain ⟨hselectors, hdelimited⟩ := spells_selectors d.fields
    (fun field hfield => ⟨hnames field hfield, hmembers field hfield⟩)
    fun e he => hquotable e (List.mem_cons_of_mem d he)
  have htext : d.declaration = enclosed ("declare-datatypes" ++ " "
      ++ enclosed (enclosed (bars d.name ++ " " ++ "0")) ++ " "
      ++ enclosed (enclosed (enclosed (bars d.name ++ Datatype.selectors d.fields)))) := by
    unfold Datatype.declaration datatypeText enclosed
    generalize bars d.name = q
    generalize Datatype.selectors d.fields = selectors
    rw [← String.toList_inj]
    simp only [String.toList_append]
    simp
  have harity : Spells (bars d.name ++ " " ++ "0") [.atom d.name, .atom "0"] :=
    (Spells.quoted hname).spaced (.plain (by decide))
  have hconstructor : Spells (bars d.name ++ Datatype.selectors d.fields)
      (.atom d.name :: Datatype.selectorTrees d.fields) :=
    (Spells.quoted hname).append hselectors hdelimited
  rw [htext]
  exact (((Spells.plain (by decide)).spaced harity.parens.parens).spaced
    hconstructor.parens.parens.parens).parens

/-- Names of sorts, each followed by a space, spell the trees of the sorts. -/
theorem spells_writtenNames (sorts : List SmtSort) (hnames : ∀ sort ∈ sorts, sort.HasName)
    (hquotable : ∀ d ∈ SmtSort.listTuples sorts, d.IsQuotable) :
    Spells (SmtSort.writtenNames sorts) (sorts.map SmtSort.tree) := by
  induction sorts with
  | nil => simpa [SmtSort.writtenNames] using Spells.empty
  | cons sort sorts ih =>
      rw [SmtSort.listTuples] at hquotable
      have hsort := spells_writtenName sort (hnames sort List.mem_cons_self) fun d hd =>
        hquotable d (List.mem_append_left _ hd)
      have hsorts := ih (fun s hs => hnames s (List.mem_cons_of_mem sort hs)) fun d hd =>
        hquotable d (List.mem_append_right _ hd)
      have htext : SmtSort.writtenNames (sort :: sorts) =
          sort.writtenName ++ " " ++ SmtSort.writtenNames sorts := by
        simp [SmtSort.writtenNames]
      rw [htext]
      exact hsort.spaced hsorts

/-- Declarations of symbols spell their trees. -/
theorem spells_declarationText {name domain codomain : String} {ds : List SExpr} {c : SExpr}
    (hname : IsQuotable name) (hdomain : Spells domain ds) (hcodomain : Spells codomain [c]) :
    Spells (declarationText name (enclosed domain) codomain)
      [.list [.atom "declare-fun", .atom name, .list ds, c]] := by
  have htext : declarationText name (enclosed domain) codomain =
      enclosed ("declare-fun" ++ " " ++ bars name ++ " " ++ enclosed domain ++ " "
        ++ codomain) := by
    unfold declarationText enclosed
    generalize bars name = q
    rw [← String.toList_inj]
    simp only [String.toList_append]
    simp
  rw [htext]
  exact ((((Spells.plain (by decide)).spaced (.quoted hname)).spaced hdomain.parens).spaced
    hcodomain).parens

/-! ## Terms -/

namespace Term

theorem mem_argNames {terms : List Term} {name : String} :
    name ∈ argNames terms ↔ ∃ t ∈ terms, name ∈ t.names := by
  induction terms with
  | nil => simp [argNames]
  | cons t terms ih => simp [argNames, ih]

theorem IsReadable.arg {name : String} {args : List Term} {sort : SmtSort}
    (h : IsReadable ⟨name, args, sort⟩) {a : Term} (ha : a ∈ args) : a.IsReadable where
  plain n hn := by
    have hname := h.plain n
    rw [names] at hname
    exact hname (List.mem_cons_of_mem _ (mem_argNames.mpr ⟨a, ha, hn⟩))
  quotable d hd := by
    have hd' := h.quotable d
    rw [tuples] at hd'
    exact hd' (List.mem_append_right _ (mem_argsTuples.mpr ⟨a, ha, hd⟩))

theorem IsReadable.name {t : Term} (h : t.IsReadable) : IsPlain t.name := by
  rcases t with ⟨name, args, sort⟩
  exact h.plain name (by rw [names]; exact List.mem_cons_self)

theorem IsReadable.sort {t : Term} (h : t.IsReadable) : ∀ d ∈ t.sort.tuples, d.IsQuotable :=
  fun d hd => h.quotable d (t.mem_tuples_of_mem_sort d hd)

/-- The tuple sort of a term is one of its tuple sorts. -/
theorem mem_tuples_of_datatype {sort : SmtSort} {d : Datatype}
    (h : sort.datatype? = some d) : d ∈ sort.tuples := by
  cases sort with
  | tuple i name fields =>
      obtain rfl : ⟨name, fields⟩ = d := Option.some.inj h
      rw [SmtSort.tuples]
      simp
  | _ => cases h

theorem mem_tuples_of_heldArray {sort a : SmtSort} {d : Datatype} (ha : a ∈ sort.heldArray?)
    (hd : d ∈ a.tuples) : d ∈ sort.tuples := by
  cases sort with
  | placeholder i inner =>
      cases inner with
      | array j domain range =>
          obtain rfl : SmtSort.array j domain range = a := Option.some.inj ha
          rwa [SmtSort.tuples]
      | _ => cases ha
  | _ => cases ha

/-- The position of a sign bit is a numeral. -/
theorem isPlain_signBit {t : Term} {top : String} (h : t.signBit? = some top) : IsPlain top := by
  obtain ⟨width, -, hwrite⟩ := Option.bind_eq_some_iff.mp h
  cases hwritten : writeInteger (width - 1) with
  | error cause =>
      rw [hwritten] at hwrite
      cases hwrite
  | ok text =>
      rw [hwritten] at hwrite
      obtain rfl : text = top := Option.some.inj hwrite
      rw [((writeInteger_eq_ok_iff _ _).mp hwritten).2]
      exact isPlain_decimalText _

/-- A member that is selected is one of the members of the tuple sort. -/
theorem isQuotable_selected {first index : Term} {member : String} (h : first.IsReadable)
    (hmember : selected? first index = some member) : IsQuotable member := by
  obtain ⟨d, hd, hindex⟩ := Option.bind_eq_some_iff.mp hmember
  obtain ⟨n, -, hn⟩ := Option.bind_eq_some_iff.mp hindex
  rw [Datatype.member?] at hn
  split at hn
  · cases hn
  · obtain ⟨field, hfield, rfl⟩ := List.mem_map.mp (List.mem_of_getElem? hn)
    exact (h.sort d (mem_tuples_of_datatype hd)).2 field hfield

end Term

theorem spells_intToBitVecText (width : Int) {value : String} {v : SExpr}
    (hv : Spells value [v]) :
    Spells (intToBitVecText width value) [Term.intToBitVecTree width v] := by
  have htext : intToBitVecText width value =
      enclosed ("ite" ++ " " ++ enclosed (">=" ++ " " ++ value ++ " " ++ "0") ++ " "
        ++ enclosed (enclosed ("_" ++ " " ++ "int2bv" ++ " " ++ decimalText width) ++ " " ++ value)
        ++ " " ++ enclosed ("bvneg" ++ " "
          ++ enclosed (enclosed ("_" ++ " " ++ "int2bv" ++ " " ++ decimalText width) ++ " "
            ++ enclosed ("-" ++ " " ++ value)))) := by
    unfold intToBitVecText enclosed
    generalize decimalText width = n
    rw [← String.toList_inj]
    simp only [String.toList_append]
    simp
  have hconvert := spells_indexed "int2bv" (by decide) (isPlain_decimalText width)
  have hsign := (((Spells.plain (s := ">=") (by decide)).spaced hv).spaced
    (Spells.plain (s := "0") (by decide))).parens
  have hopposite := ((Spells.plain (s := "-") (by decide)).spaced hv).parens
  have hnegative := ((Spells.plain (s := "bvneg") (by decide)).spaced
    (hconvert.spaced hopposite).parens).parens
  rw [htext]
  exact ((((Spells.plain (s := "ite") (by decide)).spaced hsign).spaced
    (hconvert.spaced hv).parens).spaced hnegative).parens

theorem spells_unsignedText {value : String} {v : SExpr} (hv : Spells value [v]) :
    Spells (unsignedText value) [Term.unsignedTree v] := by
  have htext : unsignedText value = enclosed ("bv2nat" ++ " " ++ value) := by
    unfold unsignedText enclosed
    rw [← String.toList_inj]
    simp only [String.toList_append]
    simp
  rw [htext]
  exact ((Spells.plain (by decide)).spaced hv).parens

theorem spells_signedText {top value : String} {v : SExpr} (htop : IsPlain top)
    (hv : Spells value [v]) : Spells (signedText top value) [Term.signedTree top v] := by
  have htext : signedText top value =
      enclosed ("ite" ++ " "
        ++ enclosed ("=" ++ " "
          ++ enclosed (enclosed ("_" ++ " " ++ "extract" ++ " " ++ top ++ " " ++ top) ++ " "
            ++ value) ++ " " ++ "#b0")
        ++ " " ++ unsignedText value ++ " "
        ++ enclosed ("-" ++ " " ++ unsignedText (enclosed ("bvneg" ++ " " ++ value)))) := by
    unfold signedText unsignedText enclosed
    rw [← String.toList_inj]
    simp only [String.toList_append]
    simp
  have hextract := ((((Spells.plain (s := "_") (by decide)).spaced
    (Spells.plain (s := "extract") (by decide))).spaced (.plain htop)).spaced
    (.plain htop)).parens
  have hsign := (((Spells.plain (s := "=") (by decide)).spaced
    (hextract.spaced hv).parens).spaced (Spells.plain (s := "#b0") (by decide))).parens
  have hopposite := spells_unsignedText
    (((Spells.plain (s := "bvneg") (by decide)).spaced hv).parens)
  have hnegative := ((Spells.plain (s := "-") (by decide)).spaced hopposite).parens
  rw [htext]
  exact ((((Spells.plain (s := "ite") (by decide)).spaced hsign).spaced
    (spells_unsignedText hv)).spaced hnegative).parens

theorem spells_constArrayText {sort fill : String} {s f : SExpr} (hs : Spells sort [s])
    (hf : Spells fill [f]) :
    Spells (constArrayText sort fill) [Term.constArrayTree s f] := by
  have htext : constArrayText sort fill =
      enclosed (enclosed ("as" ++ " " ++ "const" ++ " " ++ sort) ++ " " ++ fill) := by
    unfold constArrayText enclosed
    rw [← String.toList_inj]
    simp only [String.toList_append]
    simp
  have hsort := (((Spells.plain (s := "as") (by decide)).spaced
    (Spells.plain (s := "const") (by decide))).spaced hs).parens
  rw [htext]
  exact (hsort.spaced hf).parens

/-- An application spells the list of its head and its arguments. -/
theorem spells_applicationText {head args : String} {h : SExpr} {as : List SExpr}
    (hhead : Spells head [h]) (hargs : Spells args as) (hdelimited : Delimited args.toList) :
    Spells (applicationText head args) [.list (h :: as)] := by
  have htext : applicationText head args = enclosed (head ++ args) := by
    simp only [applicationText, enclosed, String.append_assoc]
  rw [htext]
  exact (hhead.append hargs hdelimited).parens

/-- Arguments spell their trees when each of them does. -/
theorem spells_writtenArgs (args : List Term)
    (h : ∀ a ∈ args, a.WellFormed → Spells a.writtenText [a.tree])
    (hgood : Term.AllWellFormed args) :
    Spells (Term.writtenArgs args) (Term.argTrees args) ∧
      Delimited (Term.writtenArgs args).toList := by
  induction args with
  | nil => exact ⟨Spells.empty, by simp [Term.writtenArgs, Delimited]⟩
  | cons a args ih =>
      rw [Term.AllWellFormed] at hgood
      obtain ⟨hrest, hdelimited⟩ := ih (fun b hb => h b (List.mem_cons_of_mem a hb)) hgood.2
      have hfirst := h a List.mem_cons_self hgood.1
      -- The space in front of an argument ends the one before it.
      rw [Term.writtenArgs, String.append_assoc, Term.argTrees]
      exact ⟨(hfirst.append hrest hdelimited).blank (c := ' ') (by decide), delimited_space _⟩

/-- The text of a term spells its tree. -/
theorem spells_writtenText (t : Term) (hgood : t.WellFormed) (hreadable : t.IsReadable) :
    Spells t.writtenText [t.tree] := by
  induction t with
  | node name args sort ih =>
      cases args with
      | nil => exact .plain hreadable.name
      | cons first others =>
          have hargs : ∀ a ∈ first :: others, a.WellFormed → Spells a.writtenText [a.tree] :=
            fun a ha hwell => ih a ha hwell (hreadable.arg ha)
          have hfirst := hargs first List.mem_cons_self
          -- Applications differ in their heads only.
          have happly {head : String} {h : SExpr} (hhead : Spells head [h])
              (hwell : Term.AllWellFormed (first :: others)) :
              Spells (applicationText head
                (" " ++ first.writtenText ++ Term.writtenArgs others))
                [.list (h :: first.tree :: Term.argTrees others)] := by
            obtain ⟨hspells, hdelimited⟩ := spells_writtenArgs (first :: others) hargs hwell
            exact spells_applicationText hhead hspells hdelimited
          rw [Term.WellFormed.eq_def] at hgood
          rw [Term.writtenText.eq_def, Term.tree.eq_def]
          dsimp only at hgood ⊢
          cases hoperator : Operator.ofName name with
          | symbol =>
              rw [hoperator] at hgood
              exact happly (.plain hreadable.name) hgood
          | tupleMake =>
              rw [hoperator] at hgood
              obtain ⟨hsort, hwell⟩ := hgood
              -- The constructor has the name of the tuple sort.
              obtain ⟨d, hd⟩ := Option.isSome_iff_exists.mp hsort
              rw [hd]
              exact happly (.quoted
                (hreadable.sort d (Term.mem_tuples_of_datatype hd)).1) hwell
          | intToBitVec =>
              rw [hoperator] at hgood
              rcases others with _ | ⟨width, _ | ⟨_, _⟩⟩
              · exact hgood.elim
              · exact spells_intToBitVecText _ (hfirst hgood.2)
              · exact hgood.elim
          | bitVecToInt =>
              rw [hoperator] at hgood
              rcases others with _ | ⟨_, _⟩
              · obtain ⟨-, hwell, htop⟩ := hgood
                by_cases hsigned : sort.isSigned = true
                · simp only [hsigned, if_true]
                  refine spells_signedText ?_ (hfirst hwell)
                  obtain ⟨top, hsome⟩ := Option.isSome_iff_exists.mp (htop hsigned)
                  rw [hsome]
                  exact Term.isPlain_signBit hsome
                · simp only [hsigned, Bool.false_eq_true, if_false]
                  exact spells_unsignedText (hfirst hwell)
              · exact hgood.elim
          | constArray =>
              rw [hoperator] at hgood
              rcases others with _ | ⟨fill, _ | ⟨_, _⟩⟩
              · exact hgood.elim
              · -- The sort is held by the sort of the first argument.
                obtain ⟨⟨a, ha, hname⟩, hfill⟩ := hgood
                have hsort := spells_writtenName a hname fun d hd =>
                  (hreadable.arg List.mem_cons_self).sort d (Term.mem_tuples_of_heldArray ha hd)
                rw [Option.mem_def.mp ha]
                exact spells_constArrayText hsort (hargs fill (by simp) hfill)
              · exact hgood.elim
          | tupleGet =>
              rw [hoperator] at hgood
              rcases others with _ | ⟨index, _ | ⟨_, _⟩⟩
              · exact hgood.elim
              · obtain ⟨hmember, hwell⟩ := hgood
                obtain ⟨member, hsome⟩ := Option.isSome_iff_exists.mp hmember
                dsimp only
                rw [hsome]
                exact spells_applicationText
                  (.quoted (Term.isQuotable_selected (hreadable.arg List.mem_cons_self) hsome))
                  ((hfirst hwell).blank (c := ' ') (by decide)) (delimited_space _)
              · exact hgood.elim

/-! ## Commands -/

/-- The line of a command spells its tree. -/
theorem spells_command (c : Command) (hwritable : c.Writable) (hreadable : c.IsReadable) :
    Spells c.text [c.tree] := by
  cases c with
  | datatype d => exact spells_declaration d hwritable hreadable
  | symbol name domain codomain =>
      obtain ⟨hname, hquotable⟩ := hreadable
      exact spells_declarationText hname
        (spells_writtenNames domain hwritable.1 fun d hd =>
          hquotable d (List.mem_append_left _ hd))
        (spells_writtenName codomain hwritable.2 fun d hd =>
          hquotable d (List.mem_append_right _ hd))
  | assertion term =>
      have htext : assertionText term.writtenText =
          enclosed ("assert" ++ " " ++ term.writtenText) := by
        unfold assertionText enclosed
        generalize term.writtenText = text
        rw [← String.toList_inj]
        simp only [String.toList_append]
        simp
      rw [Command.text, htext]
      exact ((Spells.plain (by decide)).spaced
        (spells_writtenText term hwritable hreadable)).parens

/-- Lines spell a tree each, whatever text comes after them. -/
theorem spells_lines_cons {line text : String} {lines : List String} {t : SExpr}
    {trees : List SExpr} (hline : Spells line [t])
    (hrest : Spells (Script.lines lines ++ text) trees) :
    Spells (Script.lines (line :: lines) ++ text) (t :: trees) := by
  have htext : Script.lines (line :: lines) ++ text =
      line ++ "\n" ++ (Script.lines lines ++ text) := by
    simp only [Script.lines, List.map_cons, String.join_cons, String.append_assoc]
  rw [htext]
  exact hline.line hrest

/-- Commands spell their trees, whatever text comes after them. -/
theorem spells_script (cs : List Command) (h : ∀ c ∈ cs, c.Writable ∧ c.IsReadable)
    {text : String} {trees : List SExpr} (htext : Spells text trees) :
    Spells (Command.script cs ++ text) (cs.map Command.tree ++ trees) := by
  induction cs with
  | nil => simpa [Command.script, Script.lines] using htext
  | cons c cs ih =>
      obtain ⟨hwritable, hreadable⟩ := h c List.mem_cons_self
      exact spells_lines_cons (spells_command c hwritable hreadable)
        (ih fun d hd => h d (List.mem_cons_of_mem c hd))

/-- The preamble spells its trees, whatever text comes after it. -/
theorem spells_preamble (timeout : Option WritableInt) {text : String} {trees : List SExpr}
    (htext : Spells text trees) :
    Spells (Script.lines (Script.preamble timeout) ++ text)
      (Script.preambleTrees timeout ++ trees) := by
  have hoption (name value : String) (hname : IsPlain name) (hvalue : IsPlain value) :
      Spells (enclosed ("set-option" ++ " " ++ name ++ " " ++ value))
        [.list [.atom "set-option", .atom name, .atom value]] :=
    (((Spells.plain (by decide)).spaced (.plain hname)).spaced (.plain hvalue)).parens
  have hmodels := hoption ":produce-models" "true" (by decide) (by decide)
  have hlogic := ((Spells.plain (s := "set-logic") (by decide)).spaced
    (Spells.plain (s := "ALL") (by decide))).parens
  have hlast : Spells (Script.lines ["(set-logic ALL)"] ++ text)
      (.list [.atom "set-logic", .atom "ALL"] :: trees) :=
    spells_lines_cons hlogic (by simpa [Script.lines] using htext)
  cases timeout with
  | none => exact spells_lines_cons hmodels hlast
  | some limit =>
      have htime : "(set-option :timeout " ++ limit.text ++ ")" =
          enclosed ("set-option" ++ " " ++ ":timeout" ++ " " ++ limit.text) := by
        unfold enclosed
        generalize limit.text = n
        rw [← String.toList_inj]
        simp only [String.toList_append]
        simp
      have hplain : IsPlain limit.text := isPlain_decimalText limit.value
      have hlimit := hoption ":timeout" _ (by decide) hplain
      rw [← htime] at hlimit
      exact spells_lines_cons hmodels (spells_lines_cons hlimit hlast)

end SmtSession
