import Mathlib.Data.List.Nodup
import SmtSession.Proofs.Script.ReadBack

/-!
# Ledger

What the table of datatypes has to do with the commands that were written. A
script does not look at its text again: whether a datatype was introduced is
a question to the table. So nothing that the table says can be trusted before
it is known to say what the text says, or said before some of the text was
forgotten with its scope.

The commands that were written since the script was started are the ledger
here, whether or not their scopes were closed. `Script.Accounts` says that
the table lists the datatypes that the ledger declares, in the order of their
declarations, and that every line comes after the declarations of the tuple
sorts that it mentions. The order within one operation is that of
`Script.InOrder`; the invariant puts the operations after one another.

The table may hold a name twice. A tuple sort looks its name up, renders its
components and then makes its entry, and a component of the same name makes
one of its own in between. `Script.nodup_names_iff` says that there is no
other way.

## Main definitions

* `Command.datatypes`: The datatypes that commands declare.
* `Command.DeclaredFirst`: No line mentions a tuple sort that is not declared
  before.
* `Script.written`: What was written since the last start.
* `Script.Accounts`: The table says what the commands say.

## Theorems

* `Script.Accounts.speak`: An operation that writes commands keeps the accounts.
* `Script.exists_logs_accounts`: All operations do.
* `Script.text_of_logs`: The text of a script that no raw lines were written to.
* `Script.nodup_names_iff`: When no name is in the table twice.
-/

namespace SmtSession

namespace Command

/-- The datatypes that commands declare, in order. -/
def datatypes (cs : List Command) : List Datatype :=
  cs.filterMap fun
    | .datatype d => some d
    | _ => none

@[simp] theorem datatypes_append (cs ds : List Command) :
    datatypes (cs ++ ds) = datatypes cs ++ datatypes ds :=
  List.filterMap_append

@[simp] theorem datatypes_map (ds : List Datatype) : datatypes (ds.map .datatype) = ds := by
  rw [datatypes, List.filterMap_map]
  exact List.filterMap_some

theorem mem_datatypes_flatten {css : List (List Command)} {d : Datatype} :
    d ∈ datatypes css.flatten ↔ ∃ cs ∈ css, d ∈ datatypes cs := by
  induction css with
  | nil => simp [datatypes]
  | cons cs css ih => simp [ih]

/-- Commands of which no line mentions a tuple sort as a sort that is not declared
    by an earlier line. -/
def DeclaredFirst (cs : List Command) : Prop :=
  ∀ before c after, cs = before ++ c :: after →
    ∀ name ∈ c.mentioned, ∃ d ∈ datatypes before, d.name = name

/-- More lines may follow when all that they mention is declared already. -/
theorem DeclaredFirst.append {cs new : List Command} (h : DeclaredFirst cs)
    (hnew : ∀ c ∈ new, ∀ name ∈ c.mentioned, ∃ d ∈ datatypes cs, d.name = name) :
    DeclaredFirst (cs ++ new) := by
  intro before c after heq name hname
  rcases List.append_eq_append_iff.mp heq with ⟨middle, rfl, hmiddle⟩ | ⟨middle, hcs, hmiddle⟩
  · -- The line is one of the new ones.
    have hc : c ∈ new := hmiddle ▸ List.mem_append_right _ List.mem_cons_self
    obtain ⟨d, hd, hdname⟩ := hnew c hc name hname
    exact ⟨d, by rw [datatypes_append]; exact List.mem_append_left _ hd, hdname⟩
  · rcases middle with _ | ⟨c', middle⟩
    · -- It is the first of them.
      rw [List.append_nil] at hcs
      rw [List.nil_append] at hmiddle
      exact hcs ▸ hnew c (hmiddle ▸ List.mem_cons_self) name hname
    · obtain ⟨rfl, -⟩ := List.cons.inj hmiddle
      exact h before c middle hcs name hname

end Command

namespace Script

/-- What was written since the last start, in order, whether or not its scope was
    closed. The history is given backwards. -/
def written {α : Type} : List (Event α) → List α
  | [] => []
  | .startedOver :: _ => []
  | .wrote content :: past => written past ++ [content]
  | .opened :: past | .closed :: past => written past

/-- Where no scope was closed, everything remains. -/
theorem remaining_eq_written {α : Type} (past : List (Event α)) (h : .closed ∉ past) :
    remaining 0 past = written past := by
  induction past with
  | nil => rfl
  | cons event past ih =>
      have hpast : .closed ∉ past := fun hmem => h (List.mem_cons_of_mem _ hmem)
      cases event with
      | startedOver => rfl
      | closed => exact absurd List.mem_cons_self h
      | opened => exact ih hpast
      | wrote content => exact congrArg (· ++ [content]) (ih hpast)

/-- The table of datatypes lists what commands declare, each of which comes after
    the declarations of all that it mentions. -/
structure Accounts (cs : List Command) (s : Script) : Prop where
  entries : s.datatypes = (Command.datatypes cs).map Datatype.entry
  inOrder : (start none).InOrder (Command.datatypes cs)
  declaredFirst : Command.DeclaredFirst cs

theorem start_datatypes (timeout : Option WritableInt) : (start timeout).datatypes = [] := by
  cases timeout <;> rfl

theorem accounts_start (timeout : Option WritableInt) : Accounts [] (start timeout) where
  entries := start_datatypes timeout
  inOrder := .nil
  declaredFirst before c after h := by simp at h

namespace Accounts

variable {cs : List Command} {s : Script}

/-- The table finds the datatypes that were declared. -/
theorem hasDatatype_iff (h : Accounts cs s) (name : String) :
    s.hasDatatype (bars name) = true ↔ ∃ d ∈ Command.datatypes cs, d.name = name := by
  rw [Script.hasDatatype_iff (s := start none) h.entries, hasDatatype, start_datatypes]
  simp

/-- Datatypes that come in in order are declared in order. -/
theorem declaredFirst_append (h : Accounts cs s) {ds : List Datatype} (hds : s.InOrder ds) :
    Command.DeclaredFirst (cs ++ ds.map .datatype) := by
  induction hds with
  | nil => simpa using h.declaredFirst
  | @snoc ds d earlier new known within ih =>
      rw [List.map_append, ← List.append_assoc]
      refine ih.append fun c hc name hname => ?_
      obtain rfl := List.mem_singleton.mp hc
      rw [Command.datatypes_append, Command.datatypes_map]
      rcases known name hname with hold | ⟨e, he, hname⟩
      · obtain ⟨e, he, hname⟩ := (h.hasDatatype_iff name).mp hold
        exact ⟨e, List.mem_append_left _ he, hname⟩
      · exact ⟨e, List.mem_append_right _ he, hname⟩

end Accounts

/-- The command that an operation is there for declares no datatype. -/
theorem Operation.datatypes_own (s : Script) (op : Operation) :
    Command.datatypes (op.own s) = [] := by
  have hsymbol (name : String) (sort : SmtSort) :
      Command.datatypes (if s.declares name then [] else [symbolCommand name sort]) = [] := by
    split
    · rfl
    · cases sort <;> rfl
  cases op with
  | declareConstant name sort => exact hsymbol name sort
  | declareFunction name sort => exact hsymbol name sort
  | _ => rfl

theorem Operation.datatypes_commands (s : Script) (op : Operation) (ds : List Datatype) :
    Command.datatypes (op.commands s ds) = ds := by
  rw [commands, Command.datatypes_append, Command.datatypes_map]
  split
  · exact List.append_nil ds
  · rw [op.datatypes_own, List.append_nil]

/-- The commands that an operation writes are accounted for. -/
theorem Accounts.speak {cs : List Command} {s : Script} (h : Accounts cs s) (hs : s.Consistent)
    (op : Operation) (hop : op.Speaks) :
    ∃ ds, op.Registers s ds ∧ Accounts (cs ++ op.commands s ds) (op.run.after s) := by
  have hrecords := op.records hs hop
  obtain ⟨ds, hds, hordered, hentered, -⟩ := hrecords.adds
  have hdatatypes : Command.datatypes (cs ++ op.commands s ds) = Command.datatypes cs ++ ds := by
    rw [Command.datatypes_append, op.datatypes_commands]
  refine ⟨ds, ⟨hds, hentered⟩, ?_, ?_, ?_⟩
  · rw [hdatatypes, hentered, h.entries, List.map_append]
  · rw [hdatatypes]
    exact h.inOrder.append (t := s) h.entries hordered
  · rw [Operation.commands, ← List.append_assoc]
    refine (h.declaredFirst_append hordered).append fun c hc name hname => ?_
    rw [Command.datatypes_append, Command.datatypes_map]
    -- The own command is written only if the operation answers, and then
    -- everything that it mentions was introduced.
    split at hc
    · cases hc
    · next hok =>
        have hin := hrecords.introduces (by simpa using hok) c hc name hname
        rcases (Script.hasDatatype_iff hentered name).mp hin with hold | ⟨d, hd, hname⟩
        · obtain ⟨d, hd, hname⟩ := (h.hasDatatype_iff name).mp hold
          exact ⟨d, List.mem_append_left _ hd, hname⟩
        · exact ⟨d, List.mem_append_right _ hd, hname⟩

/-- One operation keeps the accounts, and its log says how. -/
theorem exists_logs_accounts_after {past : List (Event (List Command))} {s : Script}
    (hs : s.Consistent) (h : Accounts (written past).flatten s) (op : Operation) :
    ∃ first, op.Logs s first ∧
      Accounts (written (first.reverse ++ past)).flatten (op.run.after s) := by
  by_cases hop : op.Speaks
  · obtain ⟨ds, hds, haccounts⟩ := h.speak hs op hop
    refine ⟨_, (op.logs_of_speaks s hop _).mpr ⟨ds, hds, rfl⟩, ?_⟩
    change Accounts (written past ++ [op.commands s ds]).flatten _
    rwa [List.flatten_append, List.flatten_singleton]
  cases op with
  | writeLine line =>
      -- No command is written, and the table stays as it is.
      refine ⟨_, ⟨[], ⟨by simp, (List.append_nil _).symm⟩, rfl⟩, ?_⟩
      change Accounts (written past ++ [[]]).flatten _
      rw [List.flatten_append, List.flatten_singleton, List.append_nil]
      exact ⟨h.entries, h.inOrder, h.declaredFirst⟩
  | openScope => exact ⟨_, rfl, h.entries, h.inOrder, h.declaredFirst⟩
  | closeScope =>
      refine ⟨_, rfl, ?_⟩
      rw [Operation.run, Rendering.after, Rendering.faults, closeScope_eq]
      cases s.scopes.pop? <;> exact ⟨h.entries, h.inOrder, h.declaredFirst⟩
  | startOver => exact ⟨_, rfl, accounts_start s.timeout⟩
  | _ => exact absurd trivial hop

/-- All operations keep the accounts. -/
theorem exists_logs_accounts {past : List (Event (List Command))} {s : Script}
    (hs : s.Consistent) (h : Accounts (written past).flatten s) (ops : List Operation) :
    ∃ log, Logs ops s log ∧
      Accounts (written (log.reverse ++ past)).flatten (afterAll ops s) := by
  induction ops generalizing s past with
  | nil => exact ⟨[], .nil s, h⟩
  | cons op ops ih =>
      obtain ⟨first, hfirst, hafter⟩ := exists_logs_accounts_after hs h op
      obtain ⟨rest, hrest, hall⟩ := ih (op.consistent hs) hafter
      refine ⟨first ++ rest, .cons hfirst hrest, ?_⟩
      rwa [List.reverse_append, List.append_assoc]

/-- A script that was started has a log that accounts for its table. -/
theorem exists_logs_accounts_start (timeout : Option WritableInt) (ops : List Operation) :
    ∃ log, Logs ops (start timeout) log ∧
      Accounts (written log.reverse).flatten (afterAll ops (start timeout)) := by
  have hnothing : Accounts (written ([] : List (Event (List Command)))).flatten (start timeout) :=
    accounts_start timeout
  obtain ⟨log, hlog, h⟩ := exists_logs_accounts (consistent_start timeout) hnothing ops
  rw [List.append_nil] at h
  exact ⟨log, hlog, h⟩

/-- No closing is in the log of operations that close no scope. -/
theorem closed_not_mem_of_logs {ops : List Operation} {s : Script}
    {log : List (Event (List Command))} (h : Logs ops s log)
    (hops : ∀ op ∈ ops, op ≠ .closeScope) : .closed ∉ log := by
  induction h with
  | nil s => simp
  | @cons op ops s first rest hfirst hrest ih =>
      have hrest := ih fun o ho => hops o (List.mem_cons_of_mem op ho)
      have hclose := hops op List.mem_cons_self
      have hclosed : .closed ∉ first := by
        cases op with
        | closeScope => exact absurd rfl hclose
        | openScope => obtain rfl := hfirst; simp
        | startOver => obtain rfl := hfirst; simp
        | _ => obtain ⟨ds, -, rfl⟩ := hfirst; simp
      simp [hclosed, hrest]

/-- The text of a script that no raw lines were written to is the preamble and the
    lines of the commands that remain. -/
theorem text_of_logs {timeout : Option WritableInt} {ops : List Operation}
    {log : List (Event (List Command))} (h : Logs ops (start timeout) log)
    (hops : ∀ op ∈ ops, op.WritesCommands) :
    (afterAll ops (start timeout)).text =
      lines (preamble timeout) ++ Command.script (remaining 0 log.reverse).flatten := by
  rw [text_afterAll, history_eq_of_logs h (consistent_start timeout) hops, ← List.map_reverse,
    remaining_map, join_map_script]

/-- What was written since the last start was written at some time. -/
theorem mem_of_mem_written {α : Type} {content : α} (past : List (Event α))
    (h : content ∈ written past) : .wrote content ∈ past := by
  induction past with
  | nil => cases h
  | cons event past ih =>
      cases event with
      | startedOver => cases h
      | opened => exact List.mem_cons_of_mem _ (ih h)
      | closed => exact List.mem_cons_of_mem _ (ih h)
      | wrote c =>
          rcases List.mem_append.mp h with h | h
          · exact List.mem_cons_of_mem _ (ih h)
          · rw [List.mem_singleton.mp h]
            exact List.mem_cons_self

/-- The datatypes in a log are those that operations come across. -/
theorem mem_tuples_of_logs {ops : List Operation} {s : Script}
    {log : List (Event (List Command))} (h : Logs ops s log) {cs : List Command}
    (hcs : .wrote cs ∈ log) {d : Datatype} (hd : d ∈ Command.datatypes cs) :
    ∃ op ∈ ops, d ∈ op.tuples := by
  induction h with
  | nil s => cases hcs
  | @cons op ops s first rest hfirst hrest ih =>
      rcases List.mem_append.mp hcs with hcs | hcs
      · obtain ⟨-, ds, hds, rfl⟩ := hfirst.of_wrote hcs
        rw [op.datatypes_commands] at hd
        exact ⟨op, List.mem_cons_self, (hds.named d hd).1⟩
      · obtain ⟨o, ho, hd⟩ := ih hcs
        exact ⟨o, List.mem_cons_of_mem op ho, hd⟩

/-- Of two datatypes with the same name, the one that came in earlier is among the
    components of the other. -/
theorem InOrder.pairwise {s : Script} {ds : List Datatype} (h : s.InOrder ds) :
    ds.Pairwise fun e d => e.name = d.name → e ∈ SmtSort.fieldTuples d.fields := by
  induction h with
  | nil => exact .nil
  | snoc earlier new known within ih =>
      refine List.pairwise_append.mpr ⟨ih, List.pairwise_singleton _ _, fun e he d hd => ?_⟩
      obtain rfl := List.mem_singleton.mp hd
      exact within e he

/-- No name comes in twice just when no tuple sort comes in with another one of
    its name among its components. -/
theorem nodup_names_iff {s : Script} {ds : List Datatype} (h : s.InOrder ds) :
    (ds.map Datatype.name).Nodup ↔
      ∀ d ∈ ds, ∀ e ∈ ds, e ∈ SmtSort.fieldTuples d.fields → e.name ≠ d.name := by
  constructor
  · intro hnodup d hd e he hin hname
    -- The two would be one and the same, and among its own components.
    obtain rfl := List.inj_on_of_nodup_map hnodup he hd hname
    exact SmtSort.not_mem_fieldTuples e hin
  · intro hapart
    refine List.pairwise_map.mpr (h.pairwise.imp_of_mem ?_)
    intro e d he hd hwithin hname
    exact hapart d hd e he (hwithin hname) hname

/-- The quoted names in a table repeat when the names do. -/
theorem nodup_entries_iff (ds : List Datatype) :
    ((ds.map Datatype.entry).map Prod.fst).Nodup ↔ (ds.map Datatype.name).Nodup := by
  have hquoted : (ds.map Datatype.entry).map Prod.fst = (ds.map Datatype.name).map bars := by
    rw [List.map_map, List.map_map]
    rfl
  rw [hquoted, List.nodup_map_iff fun _ _ => bars_inj.mp]

end Script

end SmtSession
