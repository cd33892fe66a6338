import Mathlib.Data.List.Forall2
import SmtSession.Solver.Runner

/-!
# What a Runner Replies

A runner is given one request after the other, each of them in a world that may
have changed since the last one. Much can go wrong between a label and an
output, and most of it is a reply as well: the label is none, its command line
cannot be cut into words or has none, the solver is not there, the run is not
started by the system, does not end in time, or ends with an error code and
nothing to show for it. Some of it is not caught, and then there is no reply:
the query cannot be put into a file or the file cannot be removed, the attempt
to run the solver breaks off, or an error code is too long to be reported.
Here it is said which of these is met, by what the request names and what the
world does with it, and not by the order in which the runner looks.

What a request names is its own affair. The world is asked for three things
only, whether the solver can be run, what becomes of the file, and how the run
ends. So nothing is left over from one request to the next but the note that a
run was timed, and this note depends on nothing but whether an attempt was made
to start a process.

There are three kinds of outcomes, each with a predicate of its own.
`Runner.solve_eq_iff` joins them: every request has one outcome, and whoever
answers it comes to that. The rest reads the single cases off.

## Main definitions

* `Request.Names`: The solver that a request names, and the further options.
* `Request.Unnamed`: Why a request names none.
* `RunEnd.Outputs`, `RunEnd.Fails`, `RunEnd.Breaks`: An output at the end of a run, why
  there is none, and why there is no reply at all.
* `Runner.Succeeds`, `Runner.Fails`, `Runner.Breaks`: The same for a request.
* `Runner.serve`: The answers to requests in a row.
* `Runner.Answers`: What the answer to a request is.

## Theorems

* `Runner.plan_of_names`, `Runner.plan_of_unnamed`: What is planned for a request.
* `Runner.names_or_unnamed`: A request names a solver, or there is a reason why not.
* `replyOf_eq_iff`: What the end of a run amounts to.
* `Runner.solve_eq_iff`: What comes of a request.
* `Runner.answers_backend`: One request.
* `Runner.serve_replies`: Requests in a row.
* `Runner.null_character_breaks`: There need not be a reply.
-/

namespace SmtSession

/-! ## Names -/

/-- A request names a solver and further options by the words of its command
    line, the first of which is the name. -/
def Request.Names (request : Request) (solver : Solver) (options : List String) : Prop :=
  ∃ command name, request.label = labelTag ++ command ∧
    Text.words command = .ok (name :: options) ∧ solver = .named name

/-- A request names no solver, for this reason. -/
inductive Request.Unnamed (request : Request) : Fault → Prop
  | untagged (untagged : ∀ command, request.label ≠ labelTag ++ command) :
      Unnamed request (.notLabel request.label)
  | uncut (command : String) (cause : Text.WordFault) (tagged : request.label = labelTag ++ command)
      (uncut : Text.words command = .error cause) : Unnamed request (.words cause)
  | empty (command : String) (tagged : request.label = labelTag ++ command)
      (empty : Text.words command = .ok []) : Unnamed request .emptyCommand

theorem commandOf_eq_ok_iff (label command : String) :
    commandOf label = .ok command ↔ label = labelTag ++ command := by
  constructor
  · intro h
    rw [commandOf] at h
    split at h
    · next htag =>
        rcases List.isPrefixOf_iff_prefix.mp htag with ⟨rest, hrest⟩
        rw [← hrest, List.drop_left, Except.ok.injEq] at h
        rw [← String.toList_inj, String.toList_append, ← h, String.toList_ofList, hrest]
    · cases h
  · rintro rfl
    exact commandOf_labelFor command

theorem commandOf_eq_error_iff (label : String) (fault : Fault) :
    commandOf label = .error fault ↔
      fault = .notLabel label ∧ ∀ command, label ≠ labelTag ++ command := by
  simp only [Ne, ← commandOf_eq_ok_iff]
  rw [commandOf]
  split <;> simp [eq_comm]

theorem Solver.ofCommand_eq (command : String) :
    Solver.ofCommand command =
      match Text.words command with
      | .error cause => .error (.words cause)
      | .ok [] => .error .emptyCommand
      | .ok (name :: options) => .ok (.named name, options) := by
  rw [ofCommand]
  rcases Text.words command with cause | _ | ⟨name, options⟩ <;> rfl

namespace Runner

theorem plan_of_names {request : Request} {solver : Solver} {options : List String}
    (h : request.Names solver options) : plan request = .ok (solver, options) := by
  rcases h with ⟨command, name, hlabel, hwords, rfl⟩
  rw [plan, (commandOf_eq_ok_iff _ _).mpr hlabel]
  change Solver.ofCommand command = _
  rw [Solver.ofCommand_eq, hwords]

theorem plan_of_unnamed {request : Request} {fault : Fault} (h : request.Unnamed fault) :
    plan request = .error fault := by
  cases h with
  | untagged untagged =>
      rw [plan, (commandOf_eq_error_iff _ _).mpr ⟨rfl, untagged⟩]
      rfl
  | uncut command cause tagged uncut =>
      rw [plan, (commandOf_eq_ok_iff _ _).mpr tagged]
      change Solver.ofCommand command = _
      rw [Solver.ofCommand_eq, uncut]
  | empty command tagged empty =>
      rw [plan, (commandOf_eq_ok_iff _ _).mpr tagged]
      change Solver.ofCommand command = _
      rw [Solver.ofCommand_eq, empty]

/-- A request names a solver, or there is a reason why it does not. -/
theorem names_or_unnamed (request : Request) :
    (∃ solver options, request.Names solver options) ∨ ∃ fault, request.Unnamed fault := by
  cases hlabel : commandOf request.label with
  | error fault =>
      rw [commandOf_eq_error_iff] at hlabel
      exact .inr ⟨_, .untagged hlabel.2⟩
  | ok command =>
      rw [commandOf_eq_ok_iff] at hlabel
      rcases hwords : Text.words command with cause | _ | ⟨name, options⟩
      · exact .inr ⟨_, .uncut command cause hlabel hwords⟩
      · exact .inr ⟨_, .empty command hlabel hwords⟩
      · exact .inl ⟨_, options, command, name, hlabel, hwords, rfl⟩

end Runner

/-! ## Ends of Runs -/

namespace RunEnd

/-- There is an output at the end of a run: it ends by itself, without an error
    code or with an output in spite of it. -/
def Outputs (ending : RunEnd) (output : String) : Prop :=
  ∃ errors code, ending = .finished output errors code ∧ (code = 0 ∨ output ≠ "")

/-- The end of a run of a solver is a failure, for this reason. -/
inductive Fails (solver : String) : RunEnd → String → Prop
  | timedOut : Fails solver .timedOut ("Solver " ++ solver ++ " timed out")
  | refused (reason : String) : Fails solver (.refused reason) reason
  /-- The run fails without output, and its complaint is the reason. -/
  | complaint (errors : String) (code : Int) (failed : code ≠ 0) (complains : errors ≠ "") :
      Fails solver (.finished "" errors code) errors
  /-- It fails without a complaint as well. -/
  | silent (code : Int) (failed : code ≠ 0) (short : IsWritable code) :
      Fails solver (.finished "" "" code) (solver ++ " exited with " ++ decimalText code)

/-- The end of a run is no reply, because of this fault. -/
inductive Breaks : RunEnd → Fault → Prop
  | broken (reason : String) : Breaks (.broken reason) (.foreign reason)
  /-- The run fails without output and without a complaint, and its code cannot
      be reported. -/
  | silent (code : Int) (failed : code ≠ 0) (long : ¬ IsWritable code) :
      Breaks (.finished "" "" code) (.numeral .tooLongToWrite)

/-- What the end of a run amounts to: an output, a failure, or no reply. -/
def AmountsTo (solver : String) (ending : RunEnd) : Except Fault Reply → Prop
  | .ok (.output output) => ending.Outputs output
  | .ok (.failure reason) => ending.Fails solver reason
  | .error fault => ending.Breaks fault

theorem amountsTo_replyOf (solver : String) (ending : RunEnd) :
    ending.AmountsTo solver (replyOf solver ending) := by
  cases ending with
  | timedOut => exact Fails.timedOut
  | refused reason => exact Fails.refused reason
  | broken reason => exact Breaks.broken reason
  | finished output errors code =>
      by_cases hfailed : code ≠ 0 ∧ output = ""
      · obtain ⟨hcode, rfl⟩ := hfailed
        rw [replyOf, if_pos ⟨hcode, rfl⟩]
        by_cases hsilent : errors = ""
        · subst hsilent
          rw [if_pos rfl]
          by_cases hshort : IsWritable code
          · rw [writeInteger_of_isWritable hshort]
            exact Fails.silent code hcode hshort
          · rw [writeInteger_of_not_isWritable hshort]
            exact Breaks.silent code hcode hshort
        · rw [if_neg hsilent]
          exact Fails.complaint errors code hcode hsilent
      · rw [replyOf, if_neg hfailed]
        refine ⟨errors, code, rfl, ?_⟩
        by_cases hcode : code = 0
        · exact .inl hcode
        · exact .inr fun houtput => hfailed ⟨hcode, houtput⟩

theorem replyOf_of_amountsTo {solver : String} {ending : RunEnd} {result : Except Fault Reply}
    (h : ending.AmountsTo solver result) : replyOf solver ending = result := by
  rcases result with fault | output | reason
  · cases h with
    | broken reason => rfl
    | silent code failed long =>
        rw [replyOf, if_pos ⟨failed, rfl⟩, if_pos rfl, writeInteger_of_not_isWritable long]
        rfl
  · rcases h with ⟨errors, code, rfl, hdone⟩
    rw [replyOf, if_neg]
    rintro ⟨hcode, houtput⟩
    exact hdone.elim hcode fun hne => hne houtput
  · cases h with
    | timedOut => rfl
    | refused reason => rfl
    | complaint _ code failed complains => rw [replyOf, if_pos ⟨failed, rfl⟩, if_neg complains]
    | silent code failed short =>
        rw [replyOf, if_pos ⟨failed, rfl⟩, if_pos rfl, writeInteger_of_isWritable short]
        rfl

end RunEnd

/-- What is made of the end of a run is what it amounts to. -/
theorem replyOf_eq_iff (solver : String) (ending : RunEnd) (result : Except Fault Reply) :
    replyOf solver ending = result ↔ ending.AmountsTo solver result := by
  constructor
  · rintro rfl
    exact ending.amountsTo_replyOf solver
  · exact RunEnd.replyOf_of_amountsTo

namespace Runner

/-! ## One Request -/

/-- A request names a solver that can be run. -/
def Reaches (w : World) (request : Request) (solver : Solver) (options : List String) : Prop :=
  request.Names solver options ∧ w.offers solver.executable = true

/-- There is an output for a request: its solver can be run, nothing is wrong with
    the file, and there is an output at the end of the run. -/
def Succeeds (w : World) (request : Request) (output : String) : Prop :=
  ∃ solver options, Reaches w request solver options ∧ w.scratch = .usable ∧
    (w.run solver.executable).Outputs output

/-- There is none, for this reason. -/
inductive Fails (w : World) (request : Request) : String → Prop
  | unnamed (fault : Fault) (unnamed : request.Unnamed fault) : Fails w request fault.message
  | missing (solver : Solver) (options : List String) (names : request.Names solver options)
      (missing : w.offers solver.executable = false) :
      Fails w request ("Solver not found: " ++ solver.name)
  | run (solver : Solver) (options : List String) (reason : String)
      (reaches : Reaches w request solver options) (usable : w.scratch = .usable)
      (fails : (w.run solver.executable).Fails solver.name reason) : Fails w request reason

/-- There is not even a reply, because of this fault. All of these need a solver
    that can be run. -/
inductive Breaks (w : World) (request : Request) : Fault → Prop
  | unwritable (solver : Solver) (options : List String) (reason : String)
      (reaches : Reaches w request solver options) (spoiled : w.scratch = .unwritable reason) :
      Breaks w request (.foreign reason)
  | unremovable (solver : Solver) (options : List String) (reason : String)
      (reaches : Reaches w request solver options) (spoiled : w.scratch = .unremovable reason) :
      Breaks w request (.foreign reason)
  | run (solver : Solver) (options : List String) (fault : Fault)
      (reaches : Reaches w request solver options) (usable : w.scratch = .usable)
      (breaks : (w.run solver.executable).Breaks fault) : Breaks w request fault

/-- What comes of a request: an output, a failure, or no reply. -/
def Outcome (w : World) (request : Request) : Except Fault Reply → Prop
  | .ok (.output output) => Succeeds w request output
  | .ok (.failure reason) => Fails w request reason
  | .error fault => Breaks w request fault

theorem solve_of_unnamed (w : World) (r : Runner) {request : Request} {fault : Fault}
    (h : request.Unnamed fault) : r.solve w request = (.ok (.failure fault.message), r, none) := by
  rw [solve, plan_of_unnamed h]

theorem solve_of_missing (w : World) (r : Runner) {request : Request} {solver : Solver}
    {options : List String} (h : request.Names solver options)
    (hmissing : w.offers solver.executable = false) :
    r.solve w request = (.ok (.failure ("Solver not found: " ++ solver.name)), r, none) := by
  rw [solve, plan_of_names h]
  simp [hmissing]

theorem solve_of_reaches (w : World) (r : Runner) {request : Request} {solver : Solver}
    {options : List String} (h : Reaches w request solver options) :
    r.solve w request =
      (w.scratch.settle (replyOf solver.name (w.run solver.executable)),
        { r with timed := r.timed || w.scratch.canWrite },
        if w.scratch.canWrite then
          some ⟨solver.commandLine options queryFile, request.query, r.limit⟩
        else none) := by
  rw [solve, plan_of_names h.1]
  dsimp only
  rw [if_pos h.2]
  cases w.scratch.canWrite <;> simp

/-- The three ways of a request: it names nothing, what it names is not there, or
    it is there. -/
theorem request_cases (w : World) (request : Request) :
    (∃ fault, request.Unnamed fault) ∨
      (∃ solver options, request.Names solver options ∧ w.offers solver.executable = false) ∨
        ∃ solver options, Reaches w request solver options := by
  rcases names_or_unnamed request with ⟨solver, options, hnames⟩ | hunnamed
  · cases hoffers : w.offers solver.executable with
    | false => exact .inr (.inl ⟨solver, options, hnames, hoffers⟩)
    | true => exact .inr (.inr ⟨solver, options, hnames, hoffers⟩)
  · exact .inl hunnamed

/-- What comes of a request that reaches a solver is up to the file and to the run. -/
theorem outcome_of_reaches {w : World} {request : Request} {solver : Solver}
    {options : List String} (h : Reaches w request solver options) :
    Outcome w request (w.scratch.settle (replyOf solver.name (w.run solver.executable))) := by
  cases hscratch : w.scratch with
  | unwritable reason => exact Breaks.unwritable solver options reason h hscratch
  | unremovable reason => exact Breaks.unremovable solver options reason h hscratch
  | usable =>
      have hend := (w.run solver.executable).amountsTo_replyOf solver.name
      rw [Scratch.settle]
      generalize replyOf solver.name (w.run solver.executable) = result at hend ⊢
      rcases result with fault | output | reason
      · exact Breaks.run solver options fault h hscratch hend
      · exact ⟨solver, options, h, hscratch, hend⟩
      · exact Fails.run solver options reason h hscratch hend

theorem outcome_solve (w : World) (r : Runner) (request : Request) :
    Outcome w request (r.solve w request).1 := by
  rcases request_cases w request with
    ⟨fault, hunnamed⟩ | ⟨solver, options, hnames, hmissing⟩ | ⟨solver, options, hreaches⟩
  · rw [solve_of_unnamed w r hunnamed]
    exact Fails.unnamed fault hunnamed
  · rw [solve_of_missing w r hnames hmissing]
    exact Fails.missing solver options hnames hmissing
  · rw [solve_of_reaches w r hreaches]
    exact outcome_of_reaches hreaches

theorem solve_of_outcome {w : World} {request : Request} {result : Except Fault Reply}
    (h : Outcome w request result) (r : Runner) : (r.solve w request).1 = result := by
  -- With a file that is no trouble it is the run that counts.
  have hrun {solver : Solver} {options : List String} (hreaches : Reaches w request solver options)
      (husable : w.scratch = .usable)
      (hend : (w.run solver.executable).AmountsTo solver.name result) :
      (r.solve w request).1 = result := by
    rw [solve_of_reaches w r hreaches, husable]
    exact RunEnd.replyOf_of_amountsTo hend
  rcases result with fault | output | reason
  · cases h with
    | unwritable solver options reason hreaches hspoiled =>
        rw [solve_of_reaches w r hreaches, hspoiled]
        rfl
    | unremovable solver options reason hreaches hspoiled =>
        rw [solve_of_reaches w r hreaches, hspoiled]
        rfl
    | run solver options _ hreaches husable hbreaks => exact hrun hreaches husable hbreaks
  · rcases h with ⟨solver, options, hreaches, husable, houtputs⟩
    exact hrun hreaches husable houtputs
  · cases h with
    | unnamed fault hunnamed => rw [solve_of_unnamed w r hunnamed]
    | missing solver options hnames hmissing => rw [solve_of_missing w r hnames hmissing]
    | run solver options _ hreaches husable hfails => exact hrun hreaches husable hfails

/-- What comes of a request is its outcome, whatever the runner did before. -/
theorem solve_eq_iff (w : World) (r : Runner) (request : Request) (result : Except Fault Reply) :
    (r.solve w request).1 = result ↔ Outcome w request result := by
  constructor
  · rintro rfl
    exact outcome_solve w r request
  · exact fun h => solve_of_outcome h r

/-! ## Requests in a Row -/

/-- What comes back from one request: the reply or the fault, and the attempts that
    were made to start a process for it. -/
structure Answer where
  reply : Except Fault Reply
  launches : List Launch

/-- The answers to requests, each in a world of its own, and the runner in the
    end. -/
def serve (r : Runner) : List (World × Request) → List Answer × Runner
  | [] => ([], r)
  | (w, request) :: calls =>
    let (reply, r', launches) := backend w request (r, [])
    let (answers, last) := r'.serve calls
    (⟨reply, launches⟩ :: answers, last)

/-- What the answer to a request is. -/
structure Answers (w : World) (request : Request) (answer : Answer) : Prop where
  /-- It is that of any runner that was asked nothing else. -/
  alone : ∀ limit, answer.reply = ((idle limit).solve w request).1
  /-- It is an output just when the request succeeds with it. -/
  output : ∀ output, answer.reply = .ok (.output output) ↔ Succeeds w request output
  /-- It is a failure just when the request fails for this reason. -/
  failure : ∀ reason, answer.reply = .ok (.failure reason) ↔ Fails w request reason
  /-- There is no reply just when something breaks that is not caught. -/
  fault : ∀ fault, answer.reply = .error fault ↔ Breaks w request fault
  /-- No request tries to start two processes. -/
  single : answer.launches.length ≤ 1
  /-- It tries to start one just when the solver it names can be run and the query
      gets into a file. -/
  launched : answer.launches ≠ [] ↔
    (∃ solver options, Reaches w request solver options) ∧ w.scratch.canWrite = true

/-- An attempt is made just when there are a solver to be run and a file for it. -/
theorem solve_launch_iff (w : World) (r : Runner) (request : Request) :
    (r.solve w request).2.2.isSome = true ↔
      (∃ solver options, Reaches w request solver options) ∧ w.scratch.canWrite = true := by
  constructor
  · intro h
    rcases request_cases w request with
      ⟨fault, hunnamed⟩ | ⟨solver, options, hnames, hmissing⟩ | hreaches
    · rw [solve_of_unnamed w r hunnamed] at h
      cases h
    · rw [solve_of_missing w r hnames hmissing] at h
      cases h
    · refine ⟨hreaches, ?_⟩
      rcases hreaches with ⟨solver, options, hreaches⟩
      rw [solve_of_reaches w r hreaches] at h
      simpa using h
  · rintro ⟨⟨solver, options, hreaches⟩, hwrite⟩
    rw [solve_of_reaches w r hreaches, hwrite]
    rfl

/-- A runner keeps nothing of a request but whether it made an attempt. -/
theorem solve_runner_eq (w : World) (r : Runner) (request : Request) :
    (r.solve w request).2.1 =
      { r with timed := r.timed || (r.solve w request).2.2.isSome } := by
  rcases request_cases w request with
    ⟨fault, hunnamed⟩ | ⟨solver, options, hnames, hmissing⟩ | ⟨solver, options, hreaches⟩
  · simp [solve_of_unnamed w r hunnamed]
  · simp [solve_of_missing w r hnames hmissing]
  · rw [solve_of_reaches w r hreaches]
    cases w.scratch.canWrite <;> simp

/-- One request: its answer, and the note that the runner makes of it. -/
theorem answers_backend (w : World) (r : Runner) (request : Request) :
    ∃ reply timed launches,
      backend w request (r, []) = (reply, { r with timed := r.timed || timed }, launches) ∧
        Answers w request ⟨reply, launches⟩ ∧ (timed = true ↔ launches ≠ []) := by
  have hlaunches : (r.solve w request).2.2.isSome = true ↔
      (r.solve w request).2.2.toList ≠ [] := by
    rw [Ne, Option.toList_eq_nil_iff, Option.isSome_iff_ne_none]
  have hbackend : backend w request (r, []) =
      ((r.solve w request).1, (r.solve w request).2.1, (r.solve w request).2.2.toList) := rfl
  rw [solve_runner_eq] at hbackend
  refine ⟨_, _, _, hbackend, ?_, hlaunches⟩
  exact
    { alone := fun limit =>
        (solve_of_outcome (outcome_solve w (idle limit) request) r)
      output := fun output => solve_eq_iff w r request (.ok (.output output))
      failure := fun reason => solve_eq_iff w r request (.ok (.failure reason))
      fault := fun fault => solve_eq_iff w r request (.error fault)
      single := Option.length_toList_le
      launched := by rw [← hlaunches, solve_launch_iff] }

theorem serve_cons {w : World} {r r' : Runner} {request : Request} {reply : Except Fault Reply}
    {launches : List Launch} (h : backend w request (r, []) = (reply, r', launches))
    (calls : List (World × Request)) :
    r.serve ((w, request) :: calls) =
      (⟨reply, launches⟩ :: (r'.serve calls).1, (r'.serve calls).2) := by
  rw [serve, h]

/-- Requests in a row, whatever was asked before: each of them is answered as it would
    be alone, with an output, with a failure, or, where something breaks that is not
    caught, with no reply. The runner keeps its limit, and it has timed a run in the
    end just when it had before or when an attempt to start a process was made for
    one of the requests. -/
theorem serve_replies (r : Runner) (calls : List (World × Request)) :
    List.Forall₂ (fun call answer => Answers call.1 call.2 answer) calls (r.serve calls).1 ∧
      (r.serve calls).2.limit = r.limit ∧
      ((r.serve calls).2.timed = true ↔
        r.timed = true ∨ ∃ answer ∈ (r.serve calls).1, answer.launches ≠ []) := by
  induction calls generalizing r with
  | nil => exact ⟨.nil, rfl, by simp [serve]⟩
  | cons call calls ih =>
      rcases answers_backend call.1 r call.2 with
        ⟨reply, timed, launches, hbackend, hanswers, htimed⟩
      -- The other requests meet the same runner but for its note, and no answer depends
      -- on that.
      rcases ih { r with timed := r.timed || timed } with ⟨hrest, hlimit, hlast⟩
      rw [serve_cons hbackend]
      refine ⟨.cons hanswers hrest, hlimit, ?_⟩
      simp only [hlast, Bool.or_eq_true, htimed, List.exists_mem_cons_iff, or_assoc]

/-- An error code does not matter when there is an output. -/
example :
    let w : World := ⟨["z3"], [], [("z3", .finished "sat\n" "warning: old script" 1)], .usable⟩
    ((idle none).serve [(w, ⟨"smt-query z3 -v:10", "(check-sat)\n"⟩)]).1.map Answer.reply =
      [.ok (.output "sat\n")] := by
  rfl

/-- A null character can be an option, for all that the label says, but it cannot be an
    argument of a process. The attempt breaks off, and nobody catches it. -/
theorem null_character_breaks :
    let w : World := ⟨["z3"], [], [("z3", .broken "embedded null byte")], .usable⟩
    let request : Request := ⟨"smt-query z3 \x00", "(check-sat)\n"⟩
    request.Names (.named "z3") ["\x00"] ∧
      (idle none).solve w request =
        (.error (.foreign "embedded null byte"), ⟨none, true⟩,
          some ⟨["z3", "-smt2", "\x00", "query.smt2"], "(check-sat)\n", none⟩) := by
  intro w request
  have hnames : request.Names (.named "z3") ["\x00"] := ⟨"z3 \x00", "z3", rfl, by decide, rfl⟩
  have hfile : Text.normalPath queryFile = "query.smt2" := by decide
  refine ⟨hnames, ?_⟩
  rw [solve_of_reaches w _ ⟨hnames, by decide⟩, Solver.commandLine, hfile]
  rfl

end Runner

end SmtSession
