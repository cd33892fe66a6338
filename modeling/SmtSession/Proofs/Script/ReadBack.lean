import SmtSession.Proofs.Script.History
import SmtSession.Proofs.Script.Trees

/-!
# Reading a Script Back

A script is read as the commands that it was made from. The commands are not
found in the text but in what was done: `Script.Logs` says of every operation
which datatypes it entered into the table and whether it went on to its own
command, and keeps the events of scopes beside them. What remains of such a
log, in the sense of `Script.remaining`, is what the reader answers with.

Two things come together here. The history of a script is the log with
commands turned into lines, so what remains of one is what remains of the
other. And lines spell the trees of their commands, so the text of the
script spells the trees of what remains.

The table of datatypes determines the log only up to datatypes with the same
name and the same declaration. That does not matter, since these are written
in the same way, and so the law holds of every log.

## Main definitions

* `Script.Operation.Registers`: The datatypes that an operation entered.
* `Script.Operation.Logs`, `Script.Logs`: The events of operations, with the
  commands that were written.
* `Script.Operation.WritesCommands`, `Script.Operation.IsReadable`: The
  operations that write no raw lines, and those whose names can be read back.

## Theorems

* `Script.Operation.Logs.of_wrote`: What is in the log of an operation.
* `Script.Operation.added_of_registers`: The text that an operation adds is
  determined by the datatypes that it entered.
* `Script.exists_logs`: Operations that can be read back have a log.
* `Script.history_eq_of_logs`: A log is the history of the script.
* `Script.isReadable_of_logs`: What is in it can be read back.
* `Script.parseAll_text_afterAll`: The script is read as what remains of it.
-/

namespace SmtSession

namespace Script

open SExpr (Spells IsPlain IsQuotable)

namespace Operation

/-- The datatypes that an operation enters into the table: tuple sorts that it
    comes across and that can be declared. -/
structure Registers (s : Script) (op : Operation) (ds : List Datatype) : Prop where
  named : ∀ d ∈ ds, d ∈ op.tuples ∧ ∀ field ∈ d.fields, field.2.HasName
  entered : (op.run.after s).datatypes = s.datatypes ++ ds.map Datatype.entry

/-- The commands that an operation writes: the declarations of the datatypes
    that it enters and, unless it faults, its own command. -/
def commands (s : Script) (op : Operation) (ds : List Datatype) : List Command :=
  ds.map .datatype ++ if op.run.faults s then [] else op.own s

/-- What an operation does to the text of a script, as commands. -/
def Logs (s : Script) : Operation → List (Event (List Command)) → Prop
  | .openScope, log => log = [.opened]
  | .closeScope, log =>
    log = if Rendering.faults SmtSession.closeScope s then [] else [.closed]
  | .startOver, log => log = [.startedOver]
  | op, log => ∃ ds, op.Registers s ds ∧ log = [.wrote (op.commands s ds)]

/-- The operations that write no raw lines. -/
def WritesCommands : Operation → Prop
  | .writeLine _ => False
  | _ => True

/-- The operations that write no raw lines and whose names can be read back. -/
def IsReadable : Operation → Prop
  | .writeLine _ => False
  | .declareConstant name sort | .declareFunction name sort =>
    IsQuotable name ∧ ∀ d ∈ sort.tuples, d.IsQuotable
  | .assertTerm term => term.IsReadable
  | op => ∀ d ∈ op.tuples, d.IsQuotable

theorem logs_of_speaks (s : Script) (op : Operation) (hop : op.Speaks)
    (log : List (Event (List Command))) :
    op.Logs s log ↔ ∃ ds, op.Registers s ds ∧ log = [.wrote (op.commands s ds)] := by
  cases op with
  | writeLine line => exact hop.elim
  | openScope => exact hop.elim
  | closeScope => exact hop.elim
  | startOver => exact hop.elim
  | _ => exact .rfl

/-- Whatever an operation wrote are its commands. -/
theorem Logs.of_wrote {s : Script} {op : Operation} {log : List (Event (List Command))}
    (h : op.Logs s log) {cs : List Command} (hcs : .wrote cs ∈ log) :
    op.Writes ∧ ∃ ds, op.Registers s ds ∧ cs = op.commands s ds := by
  cases op with
  | openScope => obtain rfl := h; simp at hcs
  | startOver => obtain rfl := h; simp at hcs
  | closeScope =>
      rw [Logs] at h
      rw [h] at hcs
      split at hcs <;> simp at hcs
  | _ =>
      obtain ⟨ds, hds, rfl⟩ := h
      exact ⟨trivial, ds, hds, Event.wrote.inj (List.mem_singleton.mp hcs)⟩

theorem Speaks.writes {op : Operation} (hop : op.Speaks) : op.Writes := by
  cases op with
  | openScope => exact hop.elim
  | closeScope => exact hop.elim
  | startOver => exact hop.elim
  | _ => trivial

theorem IsReadable.writesCommands {op : Operation} (h : op.IsReadable) : op.WritesCommands := by
  cases op with
  | writeLine line => exact h.elim
  | _ => trivial

/-- What is not a command and not a raw line is about scopes. -/
theorem WritesCommands.cases {op : Operation} (h : op.WritesCommands) :
    op.Speaks ∨ op = .openScope ∨ op = .closeScope ∨ op = .startOver := by
  cases op with
  | writeLine line => exact h.elim
  | openScope => exact .inr (.inl rfl)
  | closeScope => exact .inr (.inr (.inl rfl))
  | startOver => exact .inr (.inr (.inr rfl))
  | _ => exact .inl trivial

theorem exists_registers {s : Script} (hs : s.Consistent) (op : Operation) (hop : op.Speaks) :
    ∃ ds, op.Registers s ds := by
  obtain ⟨ds, hds, -, hentered, -⟩ := (op.records hs hop).adds
  exact ⟨ds, hds, hentered⟩

/-- The text that an operation adds is determined by the datatypes that it
    entered into the table. -/
theorem added_of_registers {s : Script} (hs : s.Consistent) {op : Operation} (hop : op.Speaks)
    {ds : List Datatype} (h : op.Registers s ds) :
    s.added (op.run.after s) = Command.script (op.commands s ds) := by
  obtain ⟨es, -, -, hentered, happended⟩ := (op.records hs hop).adds
  -- The entries hold the declarations, and these are the lines.
  have hentries : es.map Datatype.entry = ds.map Datatype.entry :=
    List.append_cancel_left (hentered.symm.trans h.entered)
  have hsame : Command.script (es.map .datatype) = Command.script (ds.map .datatype) := by
    have hsnd := congrArg (List.map Prod.snd) hentries
    simp only [List.map_map] at hsnd
    simp only [Command.script, List.map_map]
    exact congrArg lines hsnd
  rw [happended.added_eq, commands, Command.script_append, Command.script_append, hsame]

theorem IsReadable.tuples {op : Operation} (h : op.IsReadable) :
    ∀ d ∈ op.tuples, d.IsQuotable := by
  cases op with
  | writeLine line => exact h.elim
  | declareConstant name sort => exact h.2
  | declareFunction name sort => exact h.2
  | assertTerm term => exact h.quotable
  | _ => exact h

/-- The tuple sorts among the components of a tuple sort come with it. -/
theorem fieldTuples_subset_tuples {op : Operation} {d : Datatype} (hd : d ∈ op.tuples) :
    SmtSort.fieldTuples d.fields ⊆ op.tuples := by
  have hterms {terms : List Term} (hd : d ∈ Term.argsTuples terms) :
      SmtSort.fieldTuples d.fields ⊆ Term.argsTuples terms := by
    obtain ⟨t, ht, hd⟩ := Term.mem_argsTuples.mp hd
    exact fun e he =>
      Term.mem_argsTuples.mpr ⟨t, ht, Term.fieldTuples_subset_tuples hd he⟩
  cases op with
  | declareConstant name sort => exact SmtSort.fieldTuples_subset_tuples hd
  | declareFunction name sort => exact SmtSort.fieldTuples_subset_tuples hd
  | sortName sort => exact SmtSort.fieldTuples_subset_tuples hd
  | assertTerm term => exact Term.fieldTuples_subset_tuples hd
  | termText term => exact Term.fieldTuples_subset_tuples hd
  | queryTail terms => exact hterms hd
  | query terms => exact hterms hd
  | signature sorts =>
      obtain ⟨sort, hsort, hd⟩ := SmtSort.mem_listTuples.mp hd
      exact fun e he =>
        SmtSort.mem_listTuples.mpr ⟨sort, hsort, SmtSort.fieldTuples_subset_tuples hd he⟩
  | _ => cases hd

/-- The own command of an operation can be read back when its names can. -/
theorem isReadable_own {s : Script} {op : Operation} (h : op.IsReadable) :
    ∀ c ∈ op.own s, c.IsReadable := by
  have hsymbol {name : String} {sort : SmtSort}
      (h : IsQuotable name ∧ ∀ d ∈ sort.tuples, d.IsQuotable) :
      ∀ c ∈ if s.declares name then [] else [symbolCommand name sort], c.IsReadable := by
    intro c hc
    split at hc
    · cases hc
    · obtain rfl := List.mem_singleton.mp hc
      rw [SmtSort.tuples.eq_def] at h
      cases sort <;> exact h
  cases op with
  | declareConstant name sort => exact hsymbol h
  | declareFunction name sort => exact hsymbol h
  | assertTerm term =>
      intro c hc
      obtain rfl := List.mem_singleton.mp hc
      exact h
  | _ => intro c hc; cases hc

/-- All commands that an operation writes can be written and read back. -/
theorem isReadable_commands {s : Script} (hs : s.Consistent) {op : Operation} (hop : op.Speaks)
    (hreadable : op.IsReadable) {ds : List Datatype} (h : op.Registers s ds) :
    ∀ c ∈ op.commands s ds, c.Writable ∧ c.IsReadable := by
  intro c hc
  rcases List.mem_append.mp hc with hc | hc
  · -- The components of a datatype come with it, and so do their names.
    obtain ⟨d, hd, rfl⟩ := List.mem_map.mp hc
    obtain ⟨hin, hnames⟩ := h.named d hd
    refine ⟨hnames, fun e he => hreadable.tuples e ?_⟩
    rcases List.mem_cons.mp he with rfl | he
    · exact hin
    · exact fieldTuples_subset_tuples hin he
  · split at hc
    · cases hc
    · next hok => exact ⟨(op.records hs hop).answers (by simpa using hok) c hc,
        isReadable_own hreadable c hc⟩

end Operation

/-- What operations do to the text of a script, as commands. -/
inductive Logs : List Operation → Script → List (Event (List Command)) → Prop
  | nil (s : Script) : Logs [] s []
  | cons {op : Operation} {ops : List Operation} {s : Script}
      {first rest : List (Event (List Command))} (hfirst : op.Logs s first)
      (hrest : Logs ops (op.run.after s) rest) : Logs (op :: ops) s (first ++ rest)

/-- Operations that can be read back have a log. -/
theorem exists_logs {s : Script} (hs : s.Consistent) (ops : List Operation)
    (hops : ∀ op ∈ ops, op.IsReadable) : ∃ log, Logs ops s log := by
  induction ops generalizing s with
  | nil => exact ⟨[], .nil s⟩
  | cons op ops ih =>
      obtain ⟨rest, hrest⟩ := ih (op.consistent hs) fun o ho =>
        hops o (List.mem_cons_of_mem op ho)
      have hfirst : ∃ first, op.Logs s first := by
        rcases (hops op List.mem_cons_self).writesCommands.cases with hop | rfl | rfl | rfl
        · obtain ⟨ds, hds⟩ := op.exists_registers hs hop
          exact ⟨_, (op.logs_of_speaks s hop _).mpr ⟨ds, hds, rfl⟩⟩
        · exact ⟨_, rfl⟩
        · exact ⟨_, rfl⟩
        · exact ⟨_, rfl⟩
      obtain ⟨first, hfirst⟩ := hfirst
      exact ⟨_, .cons hfirst hrest⟩

/-- A log is the history of the script, unless raw lines were written. -/
theorem history_eq_of_logs {ops : List Operation} {s : Script}
    {log : List (Event (List Command))} (h : Logs ops s log) (hs : s.Consistent)
    (hops : ∀ op ∈ ops, op.WritesCommands) :
    history ops s = log.map (Event.map Command.script) := by
  induction h with
  | nil s => rfl
  | @cons op ops s first rest hfirst hrest ih =>
      have hhistory := ih (op.consistent hs) fun o ho => hops o (List.mem_cons_of_mem op ho)
      -- It is enough to compare the events of one operation.
      have hop : op.events s = first.map (Event.map Command.script) := by
        rcases (hops op List.mem_cons_self).cases with hop | rfl | rfl | rfl
        · obtain ⟨ds, hds, rfl⟩ := (op.logs_of_speaks s hop _).mp hfirst
          rw [op.events_of_writes s hop.writes, Operation.added_of_registers hs hop hds]
          rfl
        · obtain rfl : first = [.opened] := hfirst
          rfl
        · rw [Operation.Logs] at hfirst
          rw [Operation.events, hfirst]
          split <;> rfl
        · obtain rfl : first = [.startedOver] := hfirst
          rfl
      rw [history, hop, hhistory, List.map_append]

/-- Only commands that can be written and read back are in the log of operations
    that can be read back. -/
theorem isReadable_of_logs {ops : List Operation} {s : Script}
    {log : List (Event (List Command))} (h : Logs ops s log) (hs : s.Consistent)
    (hops : ∀ op ∈ ops, op.IsReadable) (cs : List Command) (hcs : .wrote cs ∈ log) :
    ∀ c ∈ cs, c.Writable ∧ c.IsReadable := by
  induction h with
  | nil s => cases hcs
  | @cons op ops s first rest hfirst hrest ih =>
      have hreadable := hops op List.mem_cons_self
      rcases List.mem_append.mp hcs with hcs | hcs
      · obtain ⟨hwrites, ds, hds, rfl⟩ := hfirst.of_wrote hcs
        rcases hreadable.writesCommands.cases with hop | rfl | rfl | rfl
        · exact Operation.isReadable_commands hs hop hreadable hds
        all_goals exact hwrites.elim
      · exact ih (op.consistent hs) (fun o ho => hops o (List.mem_cons_of_mem op ho)) hcs

/-- A log is the history of the script, and only commands that can be written
    and read back are in it. -/
theorem history_of_logs {ops : List Operation} {s : Script}
    {log : List (Event (List Command))} (h : Logs ops s log) (hs : s.Consistent)
    (hops : ∀ op ∈ ops, op.IsReadable) :
    history ops s = log.map (Event.map Command.script) ∧
      ∀ cs, .wrote cs ∈ log → ∀ c ∈ cs, c.Writable ∧ c.IsReadable :=
  ⟨history_eq_of_logs h hs fun op hop => (hops op hop).writesCommands,
    isReadable_of_logs h hs hops⟩

/-- What remains was written at some time. -/
theorem mem_of_mem_remaining {α : Type} {content : α} (pending : Nat) (past : List (Event α))
    (h : content ∈ remaining pending past) : .wrote content ∈ past := by
  induction past generalizing pending with
  | nil => cases h
  | cons event past ih =>
      cases event with
      | startedOver => cases h
      | closed => exact List.mem_cons_of_mem _ (ih _ h)
      | opened =>
          cases pending with
          | zero => exact List.mem_cons_of_mem _ (ih _ h)
          | succ pending => exact List.mem_cons_of_mem _ (ih _ h)
      | wrote c =>
          cases pending with
          | zero =>
              rcases List.mem_append.mp h with h | h
              · exact List.mem_cons_of_mem _ (ih _ h)
              · rw [List.mem_singleton.mp h]
                exact List.mem_cons_self
          | succ pending => exact List.mem_cons_of_mem _ (ih _ h)

/-- The lines of commands one after the other are the lines of all commands. -/
theorem join_map_script (css : List (List Command)) :
    String.join (css.map Command.script) = Command.script css.flatten := by
  induction css with
  | nil => rfl
  | cons cs css ih =>
      rw [List.map_cons, String.join_cons, ih, List.flatten_cons, Command.script_append]

/-- A script that no raw lines were written to is read without a fault: first
    the preamble, then one tree for every command that was written and is not
    undone, in order. -/
theorem parseAll_text_afterAll (timeout : Option WritableInt) (ops : List Operation)
    (hops : ∀ op ∈ ops, op.IsReadable) :
    (∃ log, Logs ops (start timeout) log) ∧
      ∀ log, Logs ops (start timeout) log →
        SExpr.parseAll (afterAll ops (start timeout)).text =
          .ok (preambleTrees timeout
            ++ (remaining 0 log.reverse).flatten.map Command.tree) := by
  have hs := consistent_start timeout
  refine ⟨exists_logs hs ops hops, fun log hlog => ?_⟩
  obtain ⟨hhistory, hcommands⟩ := history_of_logs hlog hs hops
  have hall : ∀ c ∈ (remaining 0 log.reverse).flatten, c.Writable ∧ c.IsReadable := by
    intro c hc
    obtain ⟨cs, hcs, hc⟩ := List.mem_flatten.mp hc
    exact hcommands cs (List.mem_reverse.mp (mem_of_mem_remaining 0 _ hcs)) c hc
  -- The text is the lines of what remains, and these spell the trees.
  have hspells := spells_preamble timeout (spells_script _ hall Spells.empty)
  rw [text_afterAll, hhistory, ← List.map_reverse, remaining_map, join_map_script,
    ← String.append_empty (s := Command.script _), hspells.parseAll, List.append_nil]

/-- A name with a blank and a datatype, a scope that is closed again, and a
    conversion. Nothing is read of the scope, because the datatype was there before it. -/
theorem parseAll_text_afterAll_scoped :
    let pair : SmtSort := .tuple 1 "a pair" [("first", .int 0 true), ("rest", .bool 2)]
    let ops : List Operation :=
      [.declareConstant "x y" pair, .openScope, .sortName pair, .closeScope,
        .assertTerm ⟨"int2bv", [⟨"z", [], .int 0 true⟩, ⟨"8", [], .missing⟩], .missing⟩]
    let atoms (names : List String) : SExpr := .list (names.map .atom)
    let convert : SExpr := atoms ["_", "int2bv", "8"]
    (∀ op ∈ ops, op.IsReadable) ∧
      SExpr.parseAll (afterAll ops (start none)).text =
        .ok [atoms ["set-option", ":produce-models", "true"], atoms ["set-logic", "ALL"],
          .list [.atom "declare-datatypes", .list [atoms ["a pair", "0"]],
            .list [.list [.list [.atom "a pair", atoms ["first", "Int"], atoms ["rest", "Bool"]]]]],
          .list [.atom "declare-fun", .atom "x y", .list [], .atom "a pair"],
          .list [.atom "assert",
            .list [.atom "ite", atoms [">=", "z", "0"], .list [convert, .atom "z"],
              .list [.atom "bvneg", .list [convert, atoms ["-", "z"]]]]]] := by
  intro pair ops atoms convert
  have hpair : ∀ d ∈ pair.tuples, d.IsQuotable := by
    simp only [pair, SmtSort.tuples, SmtSort.fieldTuples, List.nil_append, List.mem_singleton,
      forall_eq, Datatype.IsQuotable]
    decide
  have hops : ∀ op ∈ ops, op.IsReadable := by
    intro op hop
    simp only [ops, List.mem_cons, List.not_mem_nil, or_false] at hop
    rcases hop with rfl | rfl | rfl | rfl | rfl
    · exact ⟨by decide, hpair⟩
    · exact fun d hd => by cases hd
    · exact hpair
    · exact fun d hd => by cases hd
    · refine ⟨?_, fun d hd => ?_⟩
      · simp only [Term.names, Term.argNames, List.append_nil, List.mem_append, List.mem_cons,
          List.not_mem_nil, or_false, forall_eq_or_imp, forall_eq]
        decide
      · simp [Term.tuples, Term.argsTuples, SmtSort.tuples] at hd
  -- The first operation enters the datatype, and the others find nothing to enter.
  have hnothing {s : Script} {op : Operation} (h : (op.run.after s).datatypes = s.datatypes) :
      op.Registers s [] := ⟨fun d hd => absurd hd List.not_mem_nil, by rw [h]; simp⟩
  have hfirst : (Operation.declareConstant "x y" pair).Registers (start none)
      [⟨"a pair", [("first", .int 0 true), ("rest", .bool 2)]⟩] := by
    refine ⟨fun d hd => ?_, rfl⟩
    rw [List.mem_singleton.mp hd]
    exact ⟨by simp [Operation.tuples, pair, SmtSort.tuples], by simp [SmtSort.HasName]⟩
  have hlogs : Logs ops (start none) _ :=
    .cons ⟨_, hfirst, rfl⟩ (.cons rfl (.cons ⟨_, hnothing rfl, rfl⟩ (.cons rfl
      (.cons ⟨_, hnothing rfl, rfl⟩ (.nil _)))))
  refine ⟨hops, ?_⟩
  rw [(parseAll_text_afterAll none ops hops).2 _ hlogs]
  rfl

end Script

end SmtSession
