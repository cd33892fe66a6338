import SmtSession.Proofs.RunnerReplies
import SmtSession.Solver.InProcess

/-!
# Two Readings of a Label

The label of a request is read in two places. The backend that runs solvers
takes the tag off, cuts the rest into words, and looks the first of them up
among the solvers it knows; a word it does not know is a path. The backend in
process takes the tag off and cuts the rest into words as well, but then it
compares the first word with the one name that it answers to. Nothing makes
the two keep in step. A label could be turned down by one of them and be
run by the other, or a path could be taken for the solver it ends in.

They do keep in step. What cannot be read is turned down by both in the same
words, and neither does anything about it. What can be read reaches the solver
in process just when the other backend would run the solver known as `z3`.
The reason is that no path is the same solver as a known one
(`Solver.ofPath_not_mem_known`), so that a solver that is known is met by its
name and by nothing else. How the name is spelled does not matter: both compare
words after the quotes and backslashes are gone.

To be turned down is more than to get no output. `Backend.Refuses` asks for
everything to stay as it was: no process, no query that reached the solver,
no time recorded, whatever was asked before.

## Main definitions

* `Backend.Refuses`: A failure that leaves no trace.
* `Solver.z3`: The solver known as `z3`.
* `Evaluator.HandsOver`: The query of a request reaches the solver in process.

## Theorems

* `Solver.named_eq_iff`: A known solver is met by its name only.
* `Runner.refuses_of_unnamed`: Who names no solver is refused.
* `Evaluator.objection_of_untagged`, `Evaluator.objection_of_tagged`: Why a request is
  turned down, by its label.
* `Evaluator.refuses_of_some`, `Evaluator.handsOver_iff`: What comes of that.
* `backends_read_labels_alike`: Both backends read a label in the same way.
-/

namespace SmtSession

/-- A backend refuses a request: it replies with a failure, and everything stays as it
    was. -/
def Backend.Refuses {σ : Type} (backend : Backend σ) (request : Request) (reason : String) :
    Prop :=
  ∀ s, backend request s = (.ok (.failure reason), s)

/-! ## Known Solvers -/

namespace Solver

/-- The solver known as `z3`. -/
def z3 : Solver := ⟨"z3", "z3", ["-smt2"]⟩

theorem z3_mem_known : z3 ∈ known := by
  decide

/-- A solver that is run as it is given is none of those that are known. -/
theorem ofPath_not_mem_known (path : String) : ofPath path ∉ known := by
  intro h
  -- It has no options, and among the known ones only `yices` has none either. That one
  -- goes by another name than its executable.
  simp only [known, ofPath, List.mem_cons, Solver.mk.injEq, reduceCtorEq, and_false, and_true,
    List.not_mem_nil, or_false, false_or] at h
  rcases h with ⟨hname, rfl⟩
  exact absurd hname (by decide)

theorem named_of_mem_known : ∀ s ∈ known, named s.name = s := by
  decide

/-- A known solver is met by its name only. -/
theorem named_eq_iff {s : Solver} (hs : s ∈ known) (name : String) :
    named name = s ↔ name = s.name := by
  constructor
  · intro h
    unfold named at h
    cases hfind : known.find? (·.name = name) with
    | none =>
        -- The name is a path, and no path is a known solver.
        rw [hfind, Option.getD_none] at h
        rw [← h] at hs
        exact absurd hs (ofPath_not_mem_known name)
    | some t =>
        have hname : t.name = name := by simpa using List.find?_some hfind
        rw [hfind, Option.getD_some] at h
        rw [← hname, h]
  · rintro rfl
    exact named_of_mem_known s hs

/-- A command line is one for `z3` just when that is its first word. -/
theorem exists_ofCommand_z3_iff {command : String} {words : List String}
    (h : Text.words command = .ok words) :
    (∃ options, ofCommand command = .ok (z3, options)) ↔ words.head? = some "z3" := by
  rw [ofCommand_eq, h]
  cases words with
  | nil => simp
  | cons name options =>
      simp only [Except.ok.injEq, Prod.mk.injEq, exists_and_left, exists_eq', and_true,
        List.head?_cons, Option.some.injEq]
      exact named_eq_iff z3_mem_known name

end Solver

/-! ## Running Solvers -/

/-- Who names no solver is refused. -/
theorem Runner.refuses_of_unnamed (w : World) {request : Request} {fault : Fault}
    (h : request.Unnamed fault) : (backend w).Refuses request fault.message := by
  intro s
  rcases s with ⟨r, launches⟩
  unfold backend
  dsimp only
  rw [solve_of_unnamed w r h, Option.toList_none, List.append_nil]

/-! ## Solving in Process -/

namespace Evaluator

/-- The query of a request reaches the solver, once and as it is, and the time is
    recorded. The answer is what the evaluation amounts to. -/
def HandsOver (evaluation : Evaluation) (request : Request) : Prop :=
  ∀ e queries, backend evaluation request (e, queries) =
    (evaluation.reply, ⟨true⟩, queries ++ [request.query])

/-- A label without the tag is turned down. -/
theorem objection_of_untagged {request : Request}
    (h : ∀ command, request.label ≠ labelTag ++ command) :
    objection request = some (Fault.notLabel request.label).message := by
  have hwords : commandWords request.label = .error (.notLabel request.label) := by
    unfold commandWords
    rw [(commandOf_eq_error_iff _ _).mpr ⟨rfl, h⟩]
    rfl
  unfold objection
  rw [hwords]

/-- For any other label the words of its command line decide. -/
theorem objection_of_tagged {request : Request} {command : String}
    (h : request.label = labelTag ++ command) :
    objection request =
      match Text.words command with
      | .error cause => some (Fault.words cause).message
      | .ok words =>
        if words.head? = some "z3" then none
        else some ("Not a z3 backend: " ++ Text.joined " " words) := by
  have hwords : commandWords request.label = orFault .words (Text.words command) := by
    unfold commandWords
    rw [(commandOf_eq_ok_iff _ _).mpr h]
    rfl
  unfold objection
  rw [hwords]
  cases Text.words command with
  | error cause => rfl
  | ok words => rfl

/-- What is not turned down reaches the solver. -/
theorem handsOver_of_none (evaluation : Evaluation) {request : Request}
    (h : objection request = none) : HandsOver evaluation request := by
  intro e queries
  unfold backend solve
  rw [h]
  rfl

/-- What is turned down is refused. -/
theorem refuses_of_some (evaluation : Evaluation) {request : Request} {reason : String}
    (h : objection request = some reason) : (backend evaluation).Refuses request reason := by
  intro s
  rcases s with ⟨e, queries⟩
  unfold backend solve
  rw [h]
  dsimp only
  rw [Option.toList_none, List.append_nil]

/-- What is refused does not reach the solver. -/
theorem not_handsOver_of_refuses {evaluation : Evaluation} {request : Request} {reason : String}
    (h : (backend evaluation).Refuses request reason) : ¬HandsOver evaluation request := by
  intro hover
  -- Nothing has reached the solver before, and the two disagree on what has afterwards.
  have hsame := (h (idle, [])).symm.trans (hover idle [])
  exact absurd (congrArg (·.2.2) hsame) (List.cons_ne_nil _ _).symm

theorem handsOver_iff (evaluation : Evaluation) (request : Request) :
    HandsOver evaluation request ↔ objection request = none := by
  constructor
  · intro h
    cases hobjection : objection request with
    | none => rfl
    | some reason => exact absurd h (not_handsOver_of_refuses (refuses_of_some _ hobjection))
  · exact handsOver_of_none evaluation

end Evaluator

/-! ## Both Backends -/

/-- Both backends read a label in the same way, whatever they were asked before. A label
    without the tag or with faulty quoting is refused by both for the same reason, and
    nothing is run. Of any other label the backend in process hands the query over just
    when the command line is one for the solver known as `z3`, however that is
    spelled; it refuses whatever else there is, the command line without words included. -/
theorem backends_read_labels_alike (w : World) (evaluation : Evaluation) (request : Request) :
    ((∀ command, request.label ≠ labelTag ++ command) →
      (Evaluator.backend evaluation).Refuses request (Fault.notLabel request.label).message ∧
        (Runner.backend w).Refuses request (Fault.notLabel request.label).message) ∧
    ∀ command, request.label = labelTag ++ command →
      (∀ cause, Text.words command = .error cause →
        (Evaluator.backend evaluation).Refuses request (Fault.words cause).message ∧
          (Runner.backend w).Refuses request (Fault.words cause).message) ∧
      ∀ words, Text.words command = .ok words →
        (Evaluator.HandsOver evaluation request ↔
          ∃ options, Solver.ofCommand command = .ok (.z3, options)) ∧
        ((¬∃ options, Solver.ofCommand command = .ok (.z3, options)) →
          (Evaluator.backend evaluation).Refuses request
            ("Not a z3 backend: " ++ Text.joined " " words)) := by
  refine ⟨fun huntagged => ⟨?_, ?_⟩, fun command htagged => ⟨fun cause huncut => ⟨?_, ?_⟩, ?_⟩⟩
  · exact Evaluator.refuses_of_some _ (Evaluator.objection_of_untagged huntagged)
  · exact Runner.refuses_of_unnamed w (.untagged huntagged)
  · have hobjection := Evaluator.objection_of_tagged htagged
    rw [huncut] at hobjection
    exact Evaluator.refuses_of_some _ hobjection
  · exact Runner.refuses_of_unnamed w (.uncut command cause htagged huncut)
  · intro words hwords
    have hobjection := Evaluator.objection_of_tagged htagged
    rw [hwords] at hobjection
    dsimp only at hobjection
    -- For both it comes down to the first word, a name for the one and a text for the other.
    rw [Evaluator.handsOver_iff, Solver.exists_ofCommand_z3_iff hwords]
    by_cases hz3 : words.head? = some "z3"
    · rw [if_pos hz3] at hobjection
      exact ⟨iff_of_true hobjection hz3, fun hother => absurd hz3 hother⟩
    · rw [if_neg hz3] at hobjection
      refine ⟨iff_of_false ?_ hz3, fun _ => Evaluator.refuses_of_some _ hobjection⟩
      rw [hobjection]
      exact Option.some_ne_none _

/-- An open quote, a label that stops short of the space in the tag, the name in pieces,
    a path that ends in the name, and a blank command line. -/
theorem backends_read_labels_alike_spellings :
    let ask (label : String) : Request := ⟨label, "(check-sat)\n"⟩
    let w : World := ⟨["z3"], [("bin/z3", true)], [], .usable⟩
    let evaluator := Evaluator.backend (.printed "sat\n")
    (evaluator.Refuses (ask "smt-query z3 'rlimit=5") "No closing quotation" ∧
        (Runner.backend w).Refuses (ask "smt-query z3 'rlimit=5") "No closing quotation") ∧
      (evaluator.Refuses (ask "smt-query") (Fault.notLabel "smt-query").message ∧
        (Runner.backend w).Refuses (ask "smt-query") (Fault.notLabel "smt-query").message) ∧
      Evaluator.HandsOver (.printed "sat\n") (ask "smt-query 'z'\\3 -v:10") ∧
      evaluator.Refuses (ask "smt-query bin/z3") "Not a z3 backend: bin/z3" ∧
      evaluator.Refuses (ask "smt-query \t") "Not a z3 backend: " := by
  intro ask w evaluator
  have hread (label : String) := backends_read_labels_alike w (.printed "sat\n") (ask label)
  have huntagged : ∀ command, (ask "smt-query").label ≠ labelTag ++ command :=
    ((commandOf_eq_error_iff "smt-query" (.notLabel "smt-query")).mp rfl).2
  have hpieces : Text.words "'z'\\3 -v:10" = .ok ["z3", "-v:10"] := by decide
  have hpath : Text.words "bin/z3" = .ok ["bin/z3"] := by decide
  have hblank : Text.words "\t" = .ok [] := by decide
  refine ⟨?_, ?_, ?_, ?_, ?_⟩
  · exact ((hread "smt-query z3 'rlimit=5").2 "z3 'rlimit=5" rfl).1 .openQuote (by decide)
  · exact (hread "smt-query").1 huntagged
  · refine (((hread _).2 _ rfl).2 _ hpieces).1.mpr ⟨["-v:10"], ?_⟩
    rfl
  · refine (((hread "smt-query bin/z3").2 _ rfl).2 _ hpath).2 ?_
    rw [Solver.exists_ofCommand_z3_iff hpath]
    decide
  · refine (((hread "smt-query \t").2 _ rfl).2 _ hblank).2 ?_
    rw [Solver.exists_ofCommand_z3_iff hblank]
    decide

end SmtSession
