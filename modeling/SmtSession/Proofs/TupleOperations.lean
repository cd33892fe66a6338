import SmtSession.Proofs.Run
import SmtSession.Proofs.Script.Ledger

/-!
# Operations on Tuples

Making a tuple and selecting from one are written with the names that the
declaration of the tuple sort gives them: its own name for making, those of its
members for selecting. One would like this declaration to be there whenever such
a term is asserted. Nothing in the rendering of a term sees to it. The names
are taken from the sort that the term carries, and a tuple sort is declared
only where it is rendered as a sort.

So two things can go wrong. The tuple sort may never have been rendered, and
then there is no declaration; and since the table of datatypes goes by names,
another tuple sort of the same name may have been declared in its place. Nothing
else can: a name has a line if and only if it is in the table, and each line
is that of a tuple sort which the operations came across. Whoever asserts
a term has to have its tuple sorts declared, by declaring the symbols in
it for example, and has to keep their names apart.

## Main definitions

* `Term.tupleOperations`: The tuple sorts that are operated on in a term.
* `Script.OneShape`: All tuple sorts of a name have the same members.

## Theorems

* `Term.tupleOperations_subset_tuples`: They occur in the term.
* `Command.DeclaredFirst.declares`: What a line mentions is declared.
* `Script.Accounts.assert`: An assertion keeps the accounts.
* `Script.lines_before_assertion`: The text in front of an assertion.
* `Session.tuple_operations_declared_iff`: When the tuple sorts that are operated
  on are declared.
* `Session.tuple_operations_undeclared`: They are not always.
-/

namespace SmtSession

/-- The tuple sort of the tuple that is made or selected from. -/
def Operator.tupleSort? : Operator → List Term → SmtSort → Option Datatype
  | .tupleMake, _, sort => sort.datatype?
  | .tupleGet, tuple :: _, _ => tuple.sort.datatype?
  | _, _, _ => none

namespace Term

mutual

/-- The tuple sorts of the tuples that are made or selected from in a term. -/
def tupleOperations : Term → List Datatype
  | ⟨name, args, sort⟩ =>
    ((Operator.ofName name).tupleSort? args sort).toList ++ argsTupleOperations args

/-- Those in the arguments of a term. -/
def argsTupleOperations : List Term → List Datatype
  | [] => []
  | t :: ts => tupleOperations t ++ argsTupleOperations ts

end

theorem mem_argsTupleOperations {terms : List Term} {d : Datatype} :
    d ∈ argsTupleOperations terms ↔ ∃ t ∈ terms, d ∈ t.tupleOperations := by
  induction terms with
  | nil => simp [argsTupleOperations]
  | cons t terms ih => simp [argsTupleOperations, ih]

end Term

theorem SmtSort.mem_tuples_of_datatype? {sort : SmtSort} {d : Datatype}
    (h : d ∈ sort.datatype?) : d ∈ sort.tuples := by
  cases sort with
  | tuple i name fields =>
      obtain rfl := Option.some.inj h
      rw [tuples]
      exact List.mem_append_right _ (List.mem_singleton_self _)
  | _ => cases h

/-- A tuple sort that is operated on is that of the term or of its first argument. -/
theorem Operator.mem_tuples_of_tupleSort? (op : Operator) (name : String) (args : List Term)
    (sort : SmtSort) {d : Datatype} (h : d ∈ op.tupleSort? args sort) :
    d ∈ (⟨name, args, sort⟩ : Term).tuples := by
  unfold tupleSort? at h
  split at h
  · exact Term.mem_tuples_of_mem_sort _ d (SmtSort.mem_tuples_of_datatype? h)
  · next _ tuple others =>
      have htuple := tuple.mem_tuples_of_mem_sort d (SmtSort.mem_tuples_of_datatype? h)
      exact List.mem_append_right _ (Term.mem_argsTuples.mpr ⟨tuple, List.mem_cons_self, htuple⟩)
  · cases h

/-- A tuple sort that is operated on in a term occurs in it. -/
theorem Term.tupleOperations_subset_tuples (t : Term) : t.tupleOperations ⊆ t.tuples := by
  induction t with
  | node name args sort ih =>
      intro d hd
      rw [tupleOperations] at hd
      rcases List.mem_append.mp hd with hown | hargs
      · exact Operator.mem_tuples_of_tupleSort? _ name args sort (Option.mem_toList.mp hown)
      · rcases mem_argsTupleOperations.mp hargs with ⟨a, ha, hd⟩
        exact List.mem_append_right _ (mem_argsTuples.mpr ⟨a, ha, ih a ha hd⟩)

/-- What a line mentions as a sort is declared by one of the lines. -/
theorem Command.DeclaredFirst.declares {cs : List Command} (h : DeclaredFirst cs) {c : Command}
    (hc : c ∈ cs) {name : String} (hname : name ∈ c.mentioned) :
    ∃ d ∈ datatypes cs, d.name = name := by
  rcases List.append_of_mem hc with ⟨before, after, rfl⟩
  rcases h before c after rfl name hname with ⟨d, hd, heq⟩
  exact ⟨d, by rw [datatypes_append]; exact List.mem_append_left _ hd, heq⟩

/-- An assertion declares no datatype. -/
theorem Command.datatypes_assertion (cs : List Command) (term : Term) :
    datatypes (cs ++ [.assertion term]) = datatypes cs := by
  rw [datatypes_append]
  exact List.append_nil _

namespace Script

/-- Whether all tuple sorts of a name in some operations have the same members. -/
def OneShape (ops : List Operation) (name : String) : Prop :=
  ∀ o ∈ ops, ∀ d ∈ o.tuples, d.name = name → ∀ o' ∈ ops, ∀ e ∈ o'.tuples, e.name = name →
    SmtSort.members e.fields = SmtSort.members d.fields

/-- An assertion that gets through comes last, after the datatypes that come in
    with it, and the accounts are kept. -/
theorem Accounts.assert {cs : List Command} {s : Script} (h : Accounts cs s) (hs : s.Consistent)
    (term : Term) (hok : (Operation.assertTerm term).run.faults s = false) :
    ∃ ds : List Datatype, (∀ d ∈ ds, d ∈ term.tuples) ∧
      Accounts (cs ++ ds.map .datatype ++ [.assertion term])
        ((Operation.assertTerm term).run.after s) ∧
      ((Operation.assertTerm term).run.after s).text =
        s.text ++ Command.script (ds.map .datatype ++ [.assertion term]) := by
  have hspeaks : (Operation.assertTerm term).Speaks := trivial
  rcases h.speak hs (.assertTerm term) hspeaks with ⟨ds, hds, haccounts⟩
  have hcommands : (Operation.assertTerm term).commands s ds =
      ds.map .datatype ++ [.assertion term] := by
    rw [Operation.commands, hok]
    rfl
  refine ⟨ds, fun d hd => (hds.named d hd).1, ?_, ?_⟩
  · rwa [List.append_assoc, ← hcommands]
  · rw [((Operation.assertTerm term).appended hs hspeaks.writes).text_eq,
      Operation.added_of_registers hs hspeaks hds, hcommands]

/-- The text in front of an assertion that gets through, where no scope is closed and
    no raw line is written. The commands in it account for the table as it is
    after the assertion, and the datatypes that they declare occur in the
    operations. -/
theorem lines_before_assertion (timeout : Option WritableInt) (ops : List Operation)
    (hops : ∀ o ∈ ops, o ≠ .closeScope ∧ o.WritesCommands) (term : Term)
    (hok : (Operation.assertTerm term).run.faults (afterAll ops (start timeout)) = false) :
    let asserted := (Operation.assertTerm term).run.after (afterAll ops (start timeout))
    ∃ cs : List Command,
      asserted.text = lines (preamble timeout) ++ Command.script (cs ++ [.assertion term]) ∧
        Accounts (cs ++ [.assertion term]) asserted ∧
        ∀ e ∈ Command.datatypes cs, ∃ o ∈ ops ++ [.assertTerm term], e ∈ o.tuples := by
  intro asserted
  have hconsistent := consistent_afterAll (consistent_start timeout) ops
  rcases exists_logs_accounts_start timeout ops with ⟨log, hlog, hbefore⟩
  -- Nothing is undone, so the lines from before are all that was written.
  have hopen : .closed ∉ log.reverse := fun hmem =>
    closed_not_mem_of_logs hlog (fun o ho => (hops o ho).1) (List.mem_reverse.mp hmem)
  have htext := text_of_logs hlog fun o ho => (hops o ho).2
  rw [remaining_eq_written _ hopen] at htext
  rcases hbefore.assert hconsistent term hok with ⟨ds, hds, haccounts, hafter⟩
  refine ⟨(written log.reverse).flatten ++ ds.map .datatype, ?_, haccounts, fun e he => ?_⟩
  · rw [hafter, htext, String.append_assoc, ← Command.script_append, List.append_assoc]
  · rw [Command.datatypes_append, Command.datatypes_map] at he
    rcases List.mem_append.mp he with hold | hnew
    · rcases Command.mem_datatypes_flatten.mp hold with ⟨cs, hcs, he⟩
      have hwrote := List.mem_reverse.mp (mem_of_mem_written log.reverse hcs)
      rcases mem_tuples_of_logs hlog hwrote he with ⟨o, ho, he⟩
      exact ⟨o, List.mem_append_left _ ho, he⟩
    · exact ⟨.assertTerm term, List.mem_append_right _ (List.mem_singleton_self _), hds e hnew⟩

end Script

namespace Session

variable {σ : Type}

/-- When the tuple sorts that are operated on in an assertion are declared. Where no
    scope is closed and no raw line is written, the text in front of an
    assertion that gets through is the preamble and the lines of commands. A
    line declares a datatype of the name if and only if the table has the name
    by then, which it does when any line mentions it as a sort, the assertion
    included. The line is that of a tuple sort in the operations. So when all
    tuple sorts of the name in the operations have the same members and the
    name is in the table, a line declares the constructor of this name with
    exactly these members as its selectors. -/
theorem tuple_operations_declared_iff (timeout : Option WritableInt) (backends : List String)
    (world : σ) (ops : List (Operation σ))
    (hops : ∀ op ∈ ops, ∀ o ∈ op.onScript?, o ≠ .closeScope ∧ o.WritesCommands) (term : Term) :
    let now := afterAll ops ⟨.start timeout backends, world⟩
    let asserted := (Operation.onScript (.assertTerm term)).perform now
    let onScript := ops.filterMap Operation.onScript? ++ [.assertTerm term]
    asserted.1 = none →
      ∃ cs : List Command,
        asserted.2.text = Script.lines (Script.preamble timeout) ++
            Command.script (cs ++ [.assertion term]) ∧
          (∀ e ∈ Command.datatypes cs, ∃ o ∈ onScript, e ∈ o.tuples) ∧
          ∀ d ∈ term.tupleOperations,
            let registered := asserted.2.session.script.hasDatatype (bars d.name) = true
            ((∃ e ∈ Command.datatypes cs, e.name = d.name) ↔ registered) ∧
              (∀ c ∈ cs ++ [.assertion term], d.name ∈ c.mentioned → registered) ∧
              (Script.OneShape onScript d.name → registered → ∃ e ∈ Command.datatypes cs,
                e.name = d.name ∧ SmtSort.members e.fields = SmtSort.members d.fields) := by
  intro now asserted onScript haccepted
  have hscript : ∀ o ∈ ops.filterMap Operation.onScript?, o ≠ .closeScope ∧ o.WritesCommands :=
    List.forall_mem_filterMap.mpr hops
  -- To the script, the assertion follows a run of operations on it.
  have hnow : now.session.script =
      Script.afterAll (ops.filterMap Operation.onScript?) (.start timeout) := script_afterAll ops _
  have hperform : asserted.2.session.script =
        (Script.Operation.assertTerm term).run.after now.session.script ∧
      asserted.1.isSome = (Script.Operation.assertTerm term).run.faults now.session.script :=
    Operation.perform_onScript (.assertTerm term) now
  rw [hnow, haccepted] at hperform
  rcases Script.lines_before_assertion timeout _ hscript term hperform.2.symm with
    ⟨cs, htext, haccounts, hcome⟩
  rw [← hperform.1] at htext haccounts
  refine ⟨cs, htext, hcome, fun d hd => ?_⟩
  have hregistered : (∃ e ∈ Command.datatypes cs, e.name = d.name) ↔
      asserted.2.session.script.hasDatatype (bars d.name) = true := by
    rw [haccounts.hasDatatype_iff d.name, Command.datatypes_assertion]
  refine ⟨hregistered, fun c hc hname => ?_, fun hsame hin => ?_⟩
  · rw [haccounts.hasDatatype_iff d.name]
    exact haccounts.declaredFirst.declares hc hname
  · -- The term itself holds a tuple sort of this name.
    have hown : .assertTerm term ∈ onScript := List.mem_append_right _ (List.mem_singleton_self _)
    have hd : d ∈ (Script.Operation.assertTerm term).tuples := term.tupleOperations_subset_tuples hd
    rcases hregistered.mpr hin with ⟨e, he, hname⟩
    rcases hcome e he with ⟨o, ho, hin⟩
    exact ⟨e, he, hname, hsame _ hown d hd rfl o ho e hin hname⟩

/-- A symbol for pairs is declared, and a component of it is asserted to be seven. -/
theorem tuple_operations_declared_iff_selected :
    let pair : SmtSort := .tuple 1 "pair" [("fst", .int 0 true), ("snd", .bool 2)]
    let seven : Term := .literal (.int 7) (.int 0 true)
    let term : Term := ⟨"=", [.tupleGet (.symbol "p" pair) 0, seven], .bool 3⟩
    let ops : List (Operation Unit) := [.onScript (.declareConstant "p" pair)]
    let asserted := (Operation.onScript (.assertTerm term)).perform
      (afterAll ops ⟨.start none [], ()⟩)
    asserted.1 = none ∧
      ∃ cs : List Command,
        asserted.2.text = Script.lines (Script.preamble none) ++
            Command.script (cs ++ [.assertion term]) ∧
          ∃ e ∈ Command.datatypes cs,
            e.name = "pair" ∧ SmtSort.members e.fields = ["fst", "snd"] := by
  intro pair seven term ops asserted
  have hops : ∀ op ∈ ops, ∀ o ∈ op.onScript?, o ≠ .closeScope ∧ o.WritesCommands := by
    simp [ops, Operation.onScript?, Script.Operation.WritesCommands]
  rcases tuple_operations_declared_iff none [] () ops hops term rfl with
    ⟨cs, htext, -, hdatatypes⟩
  -- The declaration and the assertion come across one tuple sort each, the same.
  have hpair : ∀ o ∈ ops.filterMap Operation.onScript? ++ [.assertTerm term],
      o.tuples = [⟨"pair", [("fst", .int 0 true), ("snd", .bool 2)]⟩] := by
    simp only [ops, Operation.onScript?, List.filterMap_cons, List.filterMap_nil,
      List.cons_append, List.nil_append, List.forall_mem_cons]
    exact ⟨rfl, rfl, by simp⟩
  have hshape :
      Script.OneShape (ops.filterMap Operation.onScript? ++ [.assertTerm term]) "pair" := by
    intro o ho d hd _ o' ho' e he _
    rw [hpair o ho, List.mem_singleton] at hd
    rw [hpair o' ho', List.mem_singleton] at he
    rw [hd, he]
  exact ⟨rfl, cs, htext, (hdatatypes ⟨"pair", _⟩ List.mem_cons_self).2.2 hshape rfl⟩

/-- Two assertions that get through although they operate on tuples of sorts that are
    not declared. The first tuple sort was never rendered. Another one of the
    same name was declared before the second one. -/
theorem tuple_operations_undeclared :
    let int : SmtSort := .int 0 true
    let number (n : Int) : Term := .literal (.int n) int
    let unit : SmtSort := .tuple 1 "U" [("m", int)]
    let single : SmtSort := .tuple 2 "T" [("m", int)]
    let double : SmtSort := .tuple 3 "T" [("a", int), ("b", int)]
    let first : Term := ⟨"=", [.tupleGet (.tupleMake unit [number 1]) 0, number 1], .missing⟩
    let second : Term :=
      ⟨"=", [.tupleGet (.tupleMake double [number 1, number 2]) 0, number 1], .missing⟩
    let start : Stage Unit := ⟨.start none [], ()⟩
    let between := afterAll [.onScript (.assertTerm first), .onScript (.sortName single)] start
    let now := (Operation.onScript (.assertTerm second)).perform between
    ((Operation.onScript (.assertTerm first)).perform start).1 = none ∧ now.1 = none ∧
      ⟨"U", [("m", int)]⟩ ∈ first.tupleOperations ∧
      ⟨"T", [("a", int), ("b", int)]⟩ ∈ second.tupleOperations ∧
      now.2.text = Script.lines (Script.preamble none) ++ Script.lines
        ["(assert (= (|m| (|U| 1)) 1))",
          "(declare-datatypes ((|T| 0)) (((|T| (|m| Int)))))",
          "(assert (= (|a| (|T| 1 2)) 1))"] :=
  ⟨rfl, rfl, List.mem_cons_self, List.mem_cons_self, rfl⟩

end Session

end SmtSession
