import SmtSession.Proofs.Aggregation
import SmtSession.Proofs.CommandLine

/-!
# Launches

What a check does to the world outside when its backends are solvers that are
run. A command line passes through many hands on the way: it is put into a
label, taken out of it, cut into words, and turned into the arguments of a
process, and all of this for one command line after the other until the
consultation stops. It
would be easy to lose an option on the way, or to run somebody twice.

A launch is an attempt to start a process: the system may refuse, or the attempt
may break off. The launches are those that one reads off the command lines
themselves. Each request makes the launch of its command line if the solver is
there and the query gets into a file, and none otherwise
(`CommandLine.backend_request`); a run of requests adds the launches up, in
order (`worldAfter_requests`). How many requests there are is decided by the
replies, and these are known beforehand, because the world gives a command line
the same reply whenever it is asked.

Solvers that are not there are asked all the same, and nothing comes of it.
`hear_answering` says so of the whole consultation: it takes away whoever
fails and compares what is heard with and without them.

## Theorems

* `CommandLine.backend_request`: What one request launches.
* `CommandLine.replies_requests`, `CommandLine.worldAfter_requests`: What many do.
* `hear_answering`: Whoever fails can be left out.
* `CommandLine.check_commands`: What a check reports, launches and logs.
* `check_launches`: A check launches what its command lines say.
-/

namespace SmtSession

namespace CommandLine

/-- A request makes the launch of its command line, if there are such a solver and a
    file. -/
theorem backend_request (w : World) (query : String) (c : CommandLine) (r : Runner)
    (launched : List Launch) :
    Runner.backend w (c.request query) (r, launched) =
      (c.result w, { r with timed := r.timed || c.isLaunched w },
        launched ++ ([c].filter (isLaunched w)).map (launch query r.limit)) := by
  unfold Runner.backend
  dsimp only
  rw [solve_request]
  by_cases hlaunched : c.isLaunched w = true
  · rw [List.filter_cons_of_pos hlaunched, if_pos hlaunched]
    rfl
  · rw [List.filter_cons_of_neg hlaunched, if_neg hlaunched]
    rfl

/-- Each of many command lines gets its own reply, whoever was asked before. -/
theorem replies_requests (w : World) (query : String) (cs : List CommandLine) (r : Runner)
    (launched : List Launch) :
    replies (Runner.backend w) (cs.map (request query)) (r, launched) = cs.map (reply w) := by
  induction cs generalizing r launched with
  | nil => rfl
  | cons c cs ih =>
      have hask : (ask (Runner.backend w) (c.request query) (r, launched)).1 = c.reply w := by
        simp only [ask, bind, StateT.bind, backend_request, reply]
        cases c.result w <;> rfl
      rw [List.map_cons, replies, hask, backend_request, ih, List.map_cons]

/-- Requests make the launches of their command lines, in order. -/
theorem worldAfter_requests (w : World) (query : String) (cs : List CommandLine) (r : Runner)
    (launched : List Launch) :
    worldAfter (Runner.backend w) (cs.map (request query)) (r, launched) =
      ({ r with timed := r.timed || cs.any (isLaunched w) },
        launched ++ (cs.filter (isLaunched w)).map (launch query r.limit)) := by
  induction cs generalizing r launched with
  | nil =>
      rw [List.any_nil, Bool.or_false]
      exact congrArg (Prod.mk r) (List.append_nil launched).symm
  | cons c cs ih =>
      have hfilter : (c :: cs).filter (isLaunched w) =
          [c].filter (isLaunched w) ++ cs.filter (isLaunched w) := List.filter_append [c] cs
      rw [List.map_cons, worldAfter, backend_request, ih, List.any_cons, hfilter, List.map_append,
        List.append_assoc, Bool.or_assoc]

end CommandLine

/-- Whoever fails can be left out: what is heard amounts to the same, and so does who
    is heard among the others. -/
theorem hear_answering {α : Type} (reply : α → Reply) (answers : α → Bool)
    (hsilent : ∀ a, answers a = false → ∃ reason, reply a = .failure reason) (s : Standing)
    (as : List α) :
    (s.hear ((as.filter answers).map reply)).1 = (s.hear (as.map reply)).1 ∧
      (as.filter answers).take (s.hear ((as.filter answers).map reply)).2 =
        (as.take (s.hear (as.map reply)).2).filter answers := by
  induction as generalizing s with
  | nil => exact ⟨rfl, rfl⟩
  | cons a as ih =>
      by_cases ha : answers a = true
      · -- The same reply is heard first on both sides.
        rw [List.filter_cons_of_pos ha, List.map_cons, List.map_cons, Standing.hear, Standing.hear]
        cases s.weigh (reply a) with
        | settled final => simp [ha]
        | undecided t =>
            dsimp only
            rw [List.take_succ_cons, List.take_succ_cons, List.filter_cons_of_pos ha, (ih t).1,
              (ih t).2]
            exact ⟨rfl, rfl⟩
      · -- A failure leaves the standing as it is.
        rcases hsilent a (by simpa using ha) with ⟨reason, hreason⟩
        have hfailure : s.weigh (reply a) = .undecided s := by
          rw [hreason]
          rfl
        rw [List.filter_cons_of_neg ha, List.map_cons, hear_cons_undecided s s _ _ hfailure,
          List.take_succ_cons, List.filter_cons_of_neg ha]
        exact ih s

namespace CommandLine

/-- What a check with command lines for backends reports, launches and logs, from what
    is heard of their replies. -/
theorem check_commands (w : World) (r : Runner) (launched : List Launch) (terms : List Term)
    (s : Session) (query : String) (script : Script)
    (hquery : SmtSession.query terms s.script = .ok query script) (cs : List CommandLine) :
    let heard := Standing.initial.hear (cs.map (reply w))
    let consulted := cs.take heard.2
    Session.check (Runner.backend w) terms (r, launched) { s with backends := cs.map text } =
      .ok (⟨heard.1, consulted.map (request query)⟩,
          { r with timed := r.timed || consulted.any (isLaunched w) },
          launched ++ (consulted.filter (isLaunched w)).map (launch query r.limit))
        (Session.log query heard.1.verdict { s with script, backends := cs.map text }) := by
  intro heard consulted
  have hrequests (ds : List CommandLine) :
      requestsFor query (ds.map text) = ds.map (request query) := List.map_map
  rw [check_of_hear _ terms _ { s with backends := cs.map text } query script hquery]
  simp only [hrequests, replies_requests, ← List.map_take, worldAfter_requests]
  rfl

/-- Nothing is replied by a solver that is not there. -/
theorem reply_of_not_offered (w : World) (c : CommandLine) (h : c.isOffered w = false) :
    c.reply w = .failure ("Solver not found: " ++ c.solver.name) := by
  rw [reply, result, h]
  rfl

end CommandLine

open CommandLine (isLaunched isOffered launch request)

/-- A check launches what its command lines say. Of the command lines it consults the
    first ones, in order. For each of these whose solver is there, and where the
    query gets into a file, it makes one attempt to start a process, in the same
    order: the solver with its fixed options, the further options of the command
    line, and the file, which holds the query of the check. Those whose solver is not
    there launch nothing and fail, and leaving them out changes neither what is
    found, what is launched nor what is logged. A check whose query cannot be built
    does not look at its backends. -/
theorem check_launches (w : World) (r : Runner) (launched : List Launch) (terms : List Term)
    (s : Session) (commands : List CommandLine) :
    let check (cs : List CommandLine) := Session.check (Runner.backend w) terms (r, launched)
      { s with backends := cs.map CommandLine.text }
    let offered := commands.filter (isOffered w)
    (∀ (text : String) (script : Script), query terms s.script = .ok text script →
      ∃ (report : Session.Report) (r' : Runner) (s' : Session) (consulted : List CommandLine),
        let launches := (consulted.filter (isLaunched w)).map (launch text r.limit)
        check commands = .ok (report, r', launched ++ launches) s' ∧
          consulted <+: commands ∧ report.requests = consulted.map (request text) ∧
          check offered =
            .ok (⟨report.standing, (consulted.filter (isOffered w)).map (request text)⟩, r',
                launched ++ launches)
              { s' with backends := offered.map CommandLine.text }) ∧
      (∀ (text : String) (c : CommandLine), c.isOffered w = false →
        r.solve w (c.request text) =
          (.ok (.failure ("Solver not found: " ++ c.solver.name)), r, none)) ∧
      ∀ (fault : Fault) (script : Script), query terms s.script = .error fault script →
        ∀ backend : Backend (Runner × List Launch),
          Session.check backend terms (r, launched)
              { s with backends := commands.map CommandLine.text } =
            .error fault { s with script, backends := commands.map CommandLine.text } := by
  intro check offered
  refine ⟨fun text script hquery => ?_, fun text c hc => ?_, fun fault script hquery backend => ?_⟩
  · have hcheck := CommandLine.check_commands w r launched terms s text script hquery
    have hall := hcheck commands
    have hoffered := hcheck offered
    rcases hear_answering (CommandLine.reply w) (isOffered w)
      (fun c hc => ⟨_, c.reply_of_not_offered w hc⟩) .initial commands with ⟨hstanding, hconsulted⟩
    -- Whoever is launched is there.
    have hthere (c : CommandLine) : (isOffered w c && isLaunched w c) = isLaunched w c := by
      rw [isLaunched, ← Bool.and_assoc, Bool.and_self]
    refine ⟨_, _, _, _, hall, List.take_prefix _ _, rfl, ?_⟩
    -- The same command lines are consulted, but for those that are left out.
    change check offered = _ at hoffered
    rw [hoffered, hstanding, hconsulted, List.filter_filter, List.any_filter]
    simp only [Bool.and_comm (isLaunched w _), hthere, Session.log_eq]
  · exact Runner.solve_of_missing w r (c.names_request text) hc
  · exact check_of_fault backend terms _ _ fault script hquery

/-- Of three solvers the second is not there. The other two are run with their options,
    however wide the gaps between these are, and the first of them decides. -/
theorem check_launches_missing :
    let z3 : CommandLine := ⟨"z3" ++ "  " ++ "rlimit=1000000", "z3", ["rlimit=1000000"],
      .cons _ _ _ _ (by decide) (by decide) (.last _ (by decide))⟩
    let yices : CommandLine := ⟨"yices", "yices", [], .last _ (by decide)⟩
    let opensmt : CommandLine := ⟨"bin/opensmt" ++ "\t" ++ ("-p" ++ " \n" ++ "1"), "bin/opensmt",
      ["-p", "1"], .cons _ _ _ _ (by decide) (by decide)
        (.cons _ _ _ _ (by decide) (by decide) (.last _ (by decide)))⟩
    let commands := [z3, yices, opensmt]
    let w : World := ⟨["z3"], [("bin/opensmt", true)], [("z3", .finished "unsat\n" "" 0)],
      .usable⟩
    let r : Runner := .idle none
    let s : Session := .start none []
    let text := s.script.text ++ "(check-sat)\n"
    ∃ (report : Session.Report) (r' : Runner) (s' : Session) (consulted : List CommandLine),
      Session.check (Runner.backend w) [] (r, [])
          { s with backends := commands.map CommandLine.text } =
        .ok (report, r', (consulted.filter (isLaunched w)).map (launch text none)) s' ∧
      consulted <+: commands ∧
      (consulted.filter (isLaunched w)).map (launch text none) =
        [⟨["z3", "-smt2", "rlimit=1000000", "query.smt2"], text, none⟩,
          ⟨["bin/opensmt", "-p", "1", "query.smt2"], text, none⟩] ∧
      report.standing = ⟨.unsatisfiable, []⟩ ∧
      r.solve w (yices.request text) = (.ok (.failure "Solver not found: yices"), r, none) := by
  intro z3 yices opensmt commands w r s text
  rcases check_launches w r [] [] s commands with ⟨hstarts, hmissing, -⟩
  rcases hstarts text s.script rfl with ⟨report, r', s', consulted, hcheck, hprefix, -⟩
  have hheard : Standing.initial.hear (commands.map (CommandLine.reply w)) =
      (⟨.unsatisfiable, []⟩, 3) := by decide
  have hlaunches : (commands.filter (isLaunched w)).map (launch text none) =
      [⟨["z3", "-smt2", "rlimit=1000000", "query.smt2"], text, none⟩,
        ⟨["bin/opensmt", "-p", "1", "query.smt2"], text, none⟩] := by decide
  have hrun := CommandLine.check_commands w r [] [] s text s.script rfl commands
  rw [hheard] at hrun
  -- Both say what the check returns, so they say the same.
  rcases EStateM.Result.ok.inj (hrun.symm.trans hcheck) with ⟨htold, -⟩
  rcases Prod.mk.inj htold with ⟨hreport, hworld⟩
  refine ⟨report, r', s', consulted, hcheck, hprefix, ?_, ?_, hmissing text yices (by decide)⟩
  · rw [← hlaunches]
    exact (Prod.mk.inj hworld).2.symm
  · exact (congrArg Session.Report.standing hreport).symm

end SmtSession
