import SmtSession.Proofs.Run
import SmtSession.Proofs.Script.Ledger

/-!
# Declarations of Datatypes

What a session has declared of the tuple sorts in it. A solver reads a script
from its beginning, so a tuple sort has to be declared before it is used, and
it may be declared once only.

The first of these always holds as long as no scope is closed and no raw line
is written: then the script is its preamble and the ledger since the last
start. Closing a scope takes declarations away that the table still has.

The second one holds for all sessions but those in which a tuple sort has
another one of its own name among its components. The name is looked up once,
before the components are rendered; when the inner tuple sort is declared in
between, nobody notices. `Session.datatypes_distinct_iff` says that this is the
only way to declare a name twice.

## Theorems

* `Session.datatypes_declared_first`: A tuple sort is declared before it is
  mentioned.
* `Session.datatypes_distinct_iff`: When the declared names are distinct.
* `Session.datatypes_repeated`: They are not always.
-/

namespace SmtSession

namespace Session

variable {σ : Type}

/-- A tuple sort is declared before it is mentioned. Where no scope is closed
    and no raw line is written, the text is at every time of the run the
    preamble and the lines of the commands since the last start, whether or
    not the operations that wrote them got through; and each tuple sort that
    the signature of a symbol, the component of a datatype or the array sort
    of a constant array mentions is declared on an earlier line. -/
theorem datatypes_declared_first (timeout : Option WritableInt) (backends : List String) (world : σ)
    (ops : List (Operation σ))
    (hops : ∀ op ∈ ops, ∀ o ∈ op.onScript?, o ≠ .closeScope ∧ o.WritesCommands) :
    ∃ log, Script.Logs (ops.filterMap Operation.onScript?) (.start timeout) log ∧
      let cs := (Script.remaining 0 log.reverse).flatten
      (afterAll ops ⟨.start timeout backends, world⟩).text =
          Script.lines (Script.preamble timeout) ++ Command.script cs ∧
        Command.DeclaredFirst cs := by
  have hscript : ∀ o ∈ ops.filterMap Operation.onScript?, o ≠ .closeScope ∧ o.WritesCommands := by
    intro o ho
    obtain ⟨op, hop, honScript⟩ := List.mem_filterMap.mp ho
    exact hops op hop o honScript
  obtain ⟨log, hlog, haccounts⟩ :=
    Script.exists_logs_accounts_start timeout (ops.filterMap Operation.onScript?)
  have hopen : .closed ∉ log.reverse := fun hmem =>
    Script.closed_not_mem_of_logs hlog (fun o ho => (hscript o ho).1) (List.mem_reverse.mp hmem)
  refine ⟨log, hlog, ?_, ?_⟩
  · rw [Stage.text, script_afterAll]
    exact Script.text_of_logs hlog fun o ho => (hscript o ho).2
  · -- Nothing is undone, so what remains is all that was written.
    rw [Script.remaining_eq_written _ hopen]
    exact haccounts.declaredFirst

/-- An array of tuples is declared with the tuples in its tuples first, in a
    scope that stays open, after an operation that gave up half-way. -/
theorem datatypes_declared_first_nested :
    let inner : SmtSort := .tuple 3 "Q" [("x", .bool 2)]
    let outer : SmtSort := .tuple 4 "P" [("a", .array 5 (.int 0 true) inner)]
    let ops : List (Operation Unit) :=
      [.onScript .startOver, .onScript .openScope,
        .onScript (.declareConstant "b" (.tuple 7 "R" [("a", inner), ("b", .bare 8)])),
        .onScript (.declareConstant "c" (.array 6 (.int 0 true) outer))]
    (afterAll ops ⟨.start none [], ()⟩).text =
        Script.lines (Script.preamble none) ++ Script.lines
          ["(declare-datatypes ((|Q| 0)) (((|Q| (|x| Bool)))))",
            "(declare-datatypes ((|P| 0)) (((|P| (|a| (Array Int |Q|))))))",
            "(declare-fun |c| () (Array Int |P|))"] ∧
      ∃ log, Script.Logs (ops.filterMap Operation.onScript?) (.start none) log ∧
        let cs := (Script.remaining 0 log.reverse).flatten
        (afterAll ops ⟨.start none [], ()⟩).text =
            Script.lines (Script.preamble none) ++ Command.script cs ∧
          Command.DeclaredFirst cs := by
  intro inner outer ops
  have hops : ∀ op ∈ ops, ∀ o ∈ op.onScript?, o ≠ .closeScope ∧ o.WritesCommands := by
    simp [ops, Operation.onScript?, Script.Operation.WritesCommands]
  exact ⟨by rfl, datatypes_declared_first none [] () ops hops⟩

/-- The names in the table of datatypes are those that were declared since the
    last start, in closed scopes or not, one line for each. They are distinct
    just when none of the declared tuple sorts has another one of its own name
    among its components, and this is so if no tuple sort in the operations is
    like that. -/
theorem datatypes_distinct_iff (timeout : Option WritableInt) (backends : List String) (world : σ)
    (ops : List (Operation σ)) :
    let script := (afterAll ops ⟨.start timeout backends, world⟩).session.script
    let onScript := ops.filterMap Operation.onScript?
    ∃ log, Script.Logs onScript (.start timeout) log ∧
      let ds := Command.datatypes (Script.written log.reverse).flatten
      script.datatypes = ds.map Datatype.entry ∧
        ((script.datatypes.map Prod.fst).Nodup ↔
          ∀ d ∈ ds, ∀ e ∈ ds, e ∈ SmtSort.fieldTuples d.fields → e.name ≠ d.name) ∧
        ((∀ o ∈ onScript, ∀ d ∈ o.tuples, ∀ e ∈ SmtSort.fieldTuples d.fields,
          e.name ≠ d.name) → (script.datatypes.map Prod.fst).Nodup) := by
  intro script onScript
  obtain ⟨log, hlog, haccounts⟩ := Script.exists_logs_accounts_start timeout onScript
  have hentries : script.datatypes =
      (Command.datatypes (Script.written log.reverse).flatten).map Datatype.entry :=
    (congrArg Script.datatypes (script_afterAll ops _)).trans haccounts.entries
  have hnodup := Script.nodup_names_iff haccounts.inOrder
  refine ⟨log, hlog, hentries, ?_, fun hapart => ?_⟩
  · rw [hentries, Script.nodup_entries_iff, hnodup]
  · rw [hentries, Script.nodup_entries_iff, hnodup]
    intro d hd e _ hin
    obtain ⟨cs, hcs, hd⟩ := Command.mem_datatypes_flatten.mp hd
    have hwrote := List.mem_reverse.mp (Script.mem_of_mem_written log.reverse hcs)
    obtain ⟨o, ho, hd⟩ := Script.mem_tuples_of_logs hlog hwrote hd
    exact hapart o ho d hd e hin

/-- A tuple sort that has another one of its name for a component is declared
    beside it. -/
theorem datatypes_repeated :
    let inner : SmtSort := .tuple 3 "T" [("n", .int 0 true)]
    let outer : SmtSort := .tuple 4 "T" [("m", inner)]
    let now : Stage Unit := afterAll [.onScript (.sortName outer)] ⟨.start none [], ()⟩
    now.session.script.datatypes.map Prod.fst = ["|T|", "|T|"] ∧
      ¬ (now.session.script.datatypes.map Prod.fst).Nodup := by
  exact ⟨by rfl, by decide⟩

end Session

end SmtSession
