import SmtSession.Proofs.RunnerReplies

/-!
# Plain Command Lines

Command lines that need no quoting: words without separators, quotes and
backslashes, one after the other with separators between them. Cutting such a
text gives the words back as they are, however wide the gaps are. For other
texts this fails, which is why the words of a command line are not
simply its pieces between separators.

The cutting carries the word under way along, so what has to be said about
it is said about a word followed by an arbitrary rest: `cutWords_bare_append`
moves plain characters from the text to the word.

A command line names a solver with its first word: the label is taken off, the
words come out, and the solver is looked up by the first one
(`CommandLine.names_request`). What happens then is up to the world.

## Main definitions

* `Text.IsPlainWord`: A word that needs no quotes.
* `Text.SpellsWords`: A text that lists plain words.
* `CommandLine`: A plain command line, with its words.
* `CommandLine.isLaunched`: Whether an attempt to start its solver is made.
* `CommandLine.launch`: The process that it tries to start.
* `CommandLine.result`, `CommandLine.reply`: What comes of it, and what a
  consultation hears.

## Theorems

* `Text.words_of_spellsWords`: Plain words are cut out as they are.
* `CommandLine.names_request`: What a request names.
* `CommandLine.solve_request`: What comes of it.
-/

namespace SmtSession

namespace Text

/-- The characters that mean nothing but themselves outside quotes. -/
def isPlain (c : Char) : Bool :=
  !isWordSeparator c && c != '\\' && c != '"' && c != '\''

/-- A word that needs no quotes. -/
def IsPlainWord (word : String) : Prop :=
  word ≠ "" ∧ word.toList.all isPlain = true

instance (word : String) : Decidable (IsPlainWord word) :=
  inferInstanceAs (Decidable (_ ∧ _))

/-- What stands between two words. -/
def IsGap (gap : String) : Prop :=
  gap ≠ "" ∧ gap.toList.all isWordSeparator = true

instance (gap : String) : Decidable (IsGap gap) :=
  inferInstanceAs (Decidable (_ ∧ _))

/-- A text that lists plain words, one after the other with a gap between them. -/
inductive SpellsWords : List String → String → Prop
  | last (word : String) (plain : IsPlainWord word) : SpellsWords [word] word
  | cons (word gap : String) (words : List String) (rest : String) (plain : IsPlainWord word)
      (apart : IsGap gap) (spells : SpellsWords words rest) :
      SpellsWords (word :: words) (word ++ gap ++ rest)

/-- A plain character starts or continues a word with itself. -/
theorem ofBare_of_isPlain {c : Char} (hc : isPlain c = true) :
    CutPlace.ofBare c = (.bare, [c]) := by
  simp only [isPlain, Bool.and_eq_true, bne_iff_ne] at hc
  unfold CutPlace.ofBare
  rw [if_neg hc.1.1.2, if_neg (not_or_intro hc.1.2 hc.2)]

theorem not_isWordSeparator_of_isPlain {c : Char} (hc : isPlain c = true) :
    isWordSeparator c = false := by
  simp only [isPlain, Bool.and_eq_true, Bool.not_eq_true'] at hc
  exact hc.1.1.1

/-- Plain characters go to the word under way. -/
theorem cutWords_bare_append (word cs rest : List Char) (hcs : ∀ c ∈ cs, isPlain c = true) :
    cutWords .bare word (cs ++ rest) = cutWords .bare (word ++ cs) rest := by
  induction cs generalizing word with
  | nil => rw [List.nil_append, List.append_nil]
  | cons c cs ih =>
      have hc := hcs c List.mem_cons_self
      rw [List.cons_append, cutWords, not_isWordSeparator_of_isPlain hc, ofBare_of_isPlain hc,
        if_neg Bool.false_ne_true, ih _ fun d hd => hcs d (List.mem_cons_of_mem c hd),
        List.append_assoc]
      rfl

/-- The first of them starts it. -/
theorem cutWords_between_append (cs rest : List Char) (hne : cs ≠ [])
    (hcs : ∀ c ∈ cs, isPlain c = true) :
    cutWords .between [] (cs ++ rest) = cutWords .bare cs rest := by
  cases cs with
  | nil => exact absurd rfl hne
  | cons c cs =>
      have hc := hcs c List.mem_cons_self
      rw [List.cons_append, cutWords, not_isWordSeparator_of_isPlain hc, ofBare_of_isPlain hc,
        if_neg Bool.false_ne_true,
        cutWords_bare_append _ _ _ fun d hd => hcs d (List.mem_cons_of_mem c hd)]
      rfl

/-- Between words, separators are skipped. -/
theorem cutWords_between_gap (gap rest : List Char)
    (hgap : ∀ c ∈ gap, isWordSeparator c = true) :
    cutWords .between [] (gap ++ rest) = cutWords .between [] rest := by
  induction gap with
  | nil => rfl
  | cons c gap ih =>
      rw [List.cons_append, cutWords, hgap c List.mem_cons_self, if_pos rfl,
        ih fun d hd => hgap d (List.mem_cons_of_mem c hd)]

/-- A gap ends the word under way. -/
theorem cutWords_bare_gap (word gap rest : List Char) (hne : gap ≠ [])
    (hgap : ∀ c ∈ gap, isWordSeparator c = true) :
    cutWords .bare word (gap ++ rest) = (cutWords .between [] rest).map (word :: ·) := by
  cases gap with
  | nil => exact absurd rfl hne
  | cons c gap =>
      rw [List.cons_append, cutWords, hgap c List.mem_cons_self, if_pos rfl,
        cutWords_between_gap gap rest fun d hd => hgap d (List.mem_cons_of_mem c hd)]

/-- Plain words are cut out as they are. -/
theorem words_of_spellsWords {ws : List String} {text : String} (h : SpellsWords ws text) :
    words text = .ok ws := by
  have hcut : cutWords .between [] text.toList = .ok (ws.map String.toList) := by
    induction h with
    | last word plain =>
        have hne : word.toList ≠ [] := by simpa using plain.1
        have hword := cutWords_between_append word.toList [] hne (List.all_eq_true.mp plain.2)
        rw [List.append_nil] at hword
        rw [hword]
        rfl
    | cons word gap words rest plain apart spells ih =>
        have hne : word.toList ≠ [] := by simpa using plain.1
        have hgap : gap.toList ≠ [] := by simpa using apart.1
        rw [String.toList_append, String.toList_append, List.append_assoc,
          cutWords_between_append _ _ hne (List.all_eq_true.mp plain.2),
          cutWords_bare_gap _ _ _ hgap (List.all_eq_true.mp apart.2), ih]
        rfl
  rw [words, hcut]
  simp [Except.map]

end Text

/-- A plain command line: the name of a solver and further options. -/
structure CommandLine where
  text : String
  name : String
  options : List String
  spelled : Text.SpellsWords (name :: options) text

namespace CommandLine

/-- The solver that a command line names. -/
def solver (c : CommandLine) : Solver := .named c.name

/-- Whether this solver can be run. -/
def isOffered (w : World) (c : CommandLine) : Bool := w.offers c.solver.executable

/-- Whether a request tries to start it: it can be run, and the query gets into a file. -/
def isLaunched (w : World) (c : CommandLine) : Bool := c.isOffered w && w.scratch.canWrite

/-- The request that puts a query to the backend of a command line. -/
def request (query : String) (c : CommandLine) : Request := ⟨"smt-query " ++ c.text, query⟩

/-- The process that a command line tries to start: the solver with its fixed options,
    then the further options in order, then the file with the query. -/
def launch (query : String) (limit : Option TimeLimit) (c : CommandLine) : Launch :=
  ⟨c.solver.argv ++ c.options ++ ["query.smt2"], query, limit⟩

/-- What comes of a command line: what the end of the run amounts to, if there is
    one. -/
def result (w : World) (c : CommandLine) : Except Fault Reply :=
  if c.isOffered w then w.scratch.settle (replyOf c.solver.name (w.run c.solver.executable))
  else .ok (.failure ("Solver not found: " ++ c.solver.name))

/-- What a consultation hears of it: no reply is as good as a failure. -/
def reply (w : World) (c : CommandLine) : Reply :=
  match c.result w with
  | .ok reply => reply
  | .error fault => .failure fault.message

/-- The words of the command line come out of the label again. -/
theorem names_request (query : String) (c : CommandLine) :
    (c.request query).Names c.solver c.options :=
  ⟨c.text, c.name, rfl, Text.words_of_spellsWords c.spelled, rfl⟩

/-- A solver that is offered is run once, if the query gets into a file, and one that is
    not leaves no trace. -/
theorem solve_request (w : World) (r : Runner) (query : String) (c : CommandLine) :
    r.solve w (c.request query) =
      (c.result w, { r with timed := r.timed || c.isLaunched w },
        if c.isLaunched w then some (c.launch query r.limit) else none) := by
  have hfile : Text.normalPath Runner.queryFile = "query.smt2" := by decide
  unfold result isLaunched isOffered
  by_cases hoffered : w.offers c.solver.executable = true
  · rw [Runner.solve_of_reaches w r ⟨c.names_request query, hoffered⟩]
    simp only [hoffered, if_true, Bool.true_and, launch, Solver.commandLine, hfile]
    rfl
  · rw [Bool.not_eq_true] at hoffered
    rw [Runner.solve_of_missing w r (c.names_request query) hoffered]
    simp only [hoffered, Bool.false_eq_true, if_false, Bool.false_and, Bool.or_false]

end CommandLine

end SmtSession
