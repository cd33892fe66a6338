import SmtSession.Proofs.Script.Ledger

/-!
# The Table of Symbols

What the table of symbols has to do with the lines that declare them. A symbol
in the table is not declared again, so the table had better know only symbols
that were. Both kinds of declaration first look the name up and go on to
render sorts, which may fault. They differ in when they make their entry: a
function is entered when its signature was rendered, a constant before its
sort is. A declaration of a constant that faults therefore leaves an entry
behind that no line belongs to, and no line will ever follow, because every
later declaration of the name finds the entry.

The entries that a run makes are computed here beside the run, each with a
note whether its declaration went on to write its line. `Script.Notes` says
that they are the table, and that the lines of those that are noted as
written, in the same order, are all lines for symbols that were written since
the last start, whether or not their scopes were closed. What happened to
other tables does not matter, so this holds of every log of a run.

## Main definitions

* `Command.symbol?`, `Command.symbols`: The commands that declare symbols.
* `Script.Entry`: What a declaration leaves in the table.
* `Script.Operation.entries`, `Script.entries`: The entries that an operation
  makes, and those that a run made since the last start.
* `Script.Notes`: The entries are the table, and the lines are theirs.

## Theorems

* `Rendering.Meets.bind_declared`: A rendering in front leaves the table alone.
* `Script.Operation.declared_of_none`: Only declarations touch the table.
* `Script.Operation.declared_after`: What an operation enters into the table.
* `Script.Notes.log`: An operation keeps the notes.
* `Script.notes_of_logs`: So does a run.
-/

namespace SmtSession

namespace Command

/-- The symbol that a command declares, if it declares one. -/
def symbol? : Command → Option String
  | .symbol name _ _ => some name
  | _ => none

/-- The commands that declare symbols, in order. -/
def symbols (cs : List Command) : List Command := cs.filter fun c => c.symbol?.isSome

@[simp] theorem symbols_append (cs ds : List Command) :
    symbols (cs ++ ds) = symbols cs ++ symbols ds :=
  List.filter_append cs ds

@[simp] theorem symbols_datatypes (ds : List Datatype) : symbols (ds.map .datatype) = [] := by
  rw [symbols, List.filter_eq_nil_iff]
  intro c hc
  rcases List.mem_map.mp hc with ⟨d, -, rfl⟩
  exact Bool.false_ne_true

end Command

namespace Rendering

/-- A rendering in front leaves the table of symbols alone. Either the rest goes
    on from there, or the rendering faults and there is no rest. -/
theorem Meets.bind_declared {α : Type} {m : Rendering α} {k : α → Rendering Unit} {s : Script}
    {good : Prop} {a : α} {names : List String} {tuples : List Datatype}
    (hm : Meets m good a names tuples) (hs : s.Consistent) :
    (∃ t, t.Consistent ∧ t.declared = s.declared ∧ (m >>= k).after s = (k a).after t ∧
      (m >>= k).faults s = (k a).faults t) ∨
      ((m >>= k).faults s = true ∧ ((m >>= k).after s).declared = s.declared) := by
  rcases hm.grows s hs with ⟨hc, ds, -, hgrown⟩
  rcases hrun : m s with ⟨a', t⟩ | ⟨fault, t⟩
  · obtain ⟨-, rfl, -⟩ := hm.answers s hs a' t hrun
    rw [after_ok hrun] at hc hgrown
    refine .inl ⟨t, hc, hgrown.declared, ?_, ?_⟩
    · rw [after, bind_ok hrun, after]
    · rw [faults, bind_ok hrun, faults]
  · rw [after_error hrun] at hgrown
    refine .inr ⟨faults_error (bind_error hrun), ?_⟩
    rw [after_error (bind_error hrun), hgrown.declared]

end Rendering

namespace Script

/-- What a declaration leaves in the table of symbols, and whether it went on to
    write its line. -/
structure Entry where
  name : String
  sort : SmtSort
  written : Bool

namespace Entry

/-- What the table says. -/
def symbol (e : Entry) : String × SmtSort := (e.name, e.sort)

/-- The command that declares the symbol. -/
def command (e : Entry) : Command := Operation.symbolCommand e.name e.sort

theorem symbol?_command (e : Entry) : e.command.symbol? = some e.name := by
  rcases e with ⟨name, sort, written⟩
  cases sort <;> rfl

end Entry

namespace Operation

/-- The symbol that an operation is to declare. -/
def declares? : Operation → Option (String × SmtSort)
  | .declareConstant name sort | .declareFunction name sort => some (name, sort)
  | _ => none

/-- Whether an operation makes its entry before it renders the sort. -/
def entersFirst : Operation → Bool
  | .declareConstant _ sort => isOfConstants sort
  | _ => false

/-- The entry that an operation makes, if it makes one. -/
def entries (s : Script) (op : Operation) : List Entry :=
  match op.declares? with
  | none => []
  | some (name, sort) =>
    if s.declares name then []
    else if op.run.faults s && !op.entersFirst then []
    else [⟨name, sort, !op.run.faults s⟩]

/-- The entries that were made since the last start, after one more operation. -/
def enter (s : Script) (past : List Entry) : Operation → List Entry
  | .startOver => []
  | op => past ++ op.entries s

theorem enter_of_ne {op : Operation} (hop : op ≠ .startOver) (s : Script) (past : List Entry) :
    op.enter s past = past ++ op.entries s := by
  cases op with
  | startOver => exact absurd rfl hop
  | _ => rfl

theorem entries_of_declares {s : Script} {op : Operation} {name : String} {sort : SmtSort}
    (hop : op.declares? = some (name, sort)) :
    op.entries s =
      if s.declares name then []
      else if op.run.faults s && !op.entersFirst then []
      else [⟨name, sort, !op.run.faults s⟩] := by
  rw [entries, hop]

theorem entries_of_none {s : Script} {op : Operation} (hop : op.declares? = none) :
    op.entries s = [] := by
  rw [entries, hop]

end Operation

/-- The entries that a run made since the last start. -/
def entries : List Operation → Script → List Entry → List Entry
  | [], _, past => past
  | op :: ops, s, past => entries ops (op.run.after s) (op.enter s past)

theorem declares_iff {s : Script} {name : String} :
    s.declares name = true ↔ name ∈ s.declared.map Prod.fst := by
  simp [declares]

end Script

open Rendering (Meets)

/-! ## What Operations Enter -/

theorem declared_of_meets {α : Type} {m : Rendering α} {s : Script} {good : Prop} {a : α}
    {names : List String} {tuples : List Datatype} (hm : Meets m good a names tuples)
    (hs : s.Consistent) : ((do let _ ← m : Rendering Unit).after s).declared = s.declared := by
  rcases hm.bind_declared (k := fun _ => pure ()) hs with ⟨t, -, ht, hafter, -⟩ | ⟨-, hafter⟩
  · rw [hafter]
    exact ht
  · exact hafter

/-- A declaration of a symbol that is in the table does nothing, or faults at
    once. -/
theorem after_of_old {s : Script} {name : String} {sort : SmtSort}
    (hname : s.declares name = true) :
    (declareFunction name sort).after s = s ∧ (declareConstant name sort).after s = s := by
  constructor
  · cases sort with
    | function i domain codomain => exact Rendering.after_ok (declareFunction_of_old hname)
    | _ => rfl
  · by_cases hsort : sort = .missing
    · rw [hsort]
      rfl
    · exact Rendering.after_ok (declareConstant_of_old hname hsort)

/-- A function is entered when its signature was rendered. -/
theorem declared_declareFunction {s : Script} (hs : s.Consistent) {name : String} (i : Nat)
    (domain : List SmtSort) (codomain : SmtSort) (hname : s.declares name = false) :
    ((declareFunction name (.function i domain codomain)).after s).declared =
      s.declared ++ if (declareFunction name (.function i domain codomain)).faults s then []
        else [(name, .function i domain codomain)] := by
  have hrun := declareFunction_of_new i domain codomain hname
  rw [Rendering.after_congr hrun, Rendering.faults_congr hrun]
  rcases (meets_signature domain).bind_declared
    (k := fun parameters => do
      let result ← sortName codomain
      modify (·.declare name (.function i domain codomain))
      modify (·.write (declarationText name parameters result))) hs with
    ⟨t, ht, hdeclared, hafter, hfaults⟩ | ⟨hfaults, hafter⟩
  · rw [hafter, hfaults]
    rcases (meets_sortName codomain).bind_declared
      (k := fun result => do
        modify (·.declare name (.function i domain codomain))
        modify (·.write (declarationText name ("(" ++ SmtSort.writtenNames domain ++ ")")
          result))) ht with ⟨u, -, hdeclared', hafter', hfaults'⟩ | ⟨hfaults', hafter'⟩
    · rw [hafter', hfaults', ← hdeclared, ← hdeclared']
      rfl
    · rw [hafter', hfaults', if_pos rfl, List.append_nil, hdeclared]
  · rw [hafter, hfaults, if_pos rfl, List.append_nil]

/-- A constant is entered whatever becomes of its sort. -/
theorem declared_declareConstant {s : Script} (hs : s.Consistent) {name : String} {sort : SmtSort}
    (hsort : Script.Operation.isOfConstants sort = true) (hname : s.declares name = false) :
    ((declareConstant name sort).after s).declared = s.declared ++ [(name, sort)] := by
  rw [Rendering.after_congr (declareConstant_of_new hsort hname)]
  rcases (meets_sortName sort).bind_declared (s := s.declare name sort)
    (k := fun text => modify (·.write (declarationText name "()" text))) hs with
    ⟨t, -, hdeclared, hafter, -⟩ | ⟨-, hafter⟩
  · refine (congrArg Script.declared hafter).trans ?_
    exact hdeclared
  · exact hafter

namespace Script

namespace Operation

/-- Only declarations touch the table of symbols. -/
theorem declared_of_none {s : Script} (hs : s.Consistent) {op : Operation}
    (hop : op.declares? = none) (hstart : op ≠ .startOver) :
    (op.run.after s).declared = s.declared := by
  cases op with
  | startOver => exact absurd rfl hstart
  | declareConstant name sort => cases hop
  | declareFunction name sort => cases hop
  | writeLine line => rfl
  | openScope => rfl
  | closeScope =>
      rw [run, Rendering.after, closeScope_eq]
      cases s.scopes.pop? <;> rfl
  | sortName sort => exact declared_of_meets (meets_sortName sort) hs
  | signature sorts => exact declared_of_meets (meets_signature sorts) hs
  | termText term => exact declared_of_meets (meets_termText term) hs
  | queryTail terms => exact declared_of_meets (meets_queryTail terms) hs
  | query terms =>
      rw [run, query_forgotten]
      exact declared_of_meets (meets_queryTail terms) hs
  | assertTerm term =>
      rcases (meets_termText term).bind_declared
        (k := fun text => modify (·.write (assertionText text))) hs with
        ⟨t, -, ht, hafter, -⟩ | ⟨-, hafter⟩
      · exact (congrArg Script.declared hafter).trans ht
      · exact hafter

/-- A declaration enters its symbol unless it is in the table, or the operation
    faults and does not enter first. -/
theorem declared_of_declares {s : Script} (hs : s.Consistent) {op : Operation} {name : String}
    {sort : SmtSort} (hop : op.declares? = some (name, sort)) :
    (op.run.after s).declared = s.declared ++
      if s.declares name then []
      else if op.run.faults s && !op.entersFirst then [] else [(name, sort)] := by
  have hnothing : s.declared = s.declared ++ [] := (List.append_nil _).symm
  cases hname : s.declares name with
  | true =>
      cases op with
      | declareConstant name' sort' =>
          cases hop
          rw [run, (after_of_old hname).2]
          exact hnothing
      | declareFunction name' sort' =>
          cases hop
          rw [run, (after_of_old hname).1]
          exact hnothing
      | _ => cases hop
  | false =>
      have hfunction (i : Nat) (domain : List SmtSort) (codomain : SmtSort) :=
        declared_declareFunction hs i domain codomain hname
      cases op with
      | declareFunction name' sort' =>
          cases hop
          cases sort with
          | function i domain codomain => simpa [run, entersFirst] using hfunction i domain codomain
          | _ => exact hnothing
      | declareConstant name' sort' =>
          cases hop
          by_cases hsort : isOfConstants sort = true
          · rw [run, declared_declareConstant hs hsort hname]
            simp [entersFirst, hsort]
          · cases sort with
            | missing => exact hnothing
            | function i domain codomain =>
                -- A sort of functions makes a function of the constant.
                have hsame : SmtSession.declareConstant name (.function i domain codomain) =
                    SmtSession.declareFunction name (.function i domain codomain) := rfl
                rw [run, hsame]
                simpa [entersFirst, isOfConstants] using hfunction i domain codomain
            | _ => exact absurd rfl hsort
      | _ => cases hop

/-- What an operation enters into the table of symbols. -/
theorem declared_after {s : Script} (hs : s.Consistent) (op : Operation) (hstart : op ≠ .startOver) :
    (op.run.after s).declared = s.declared ++ (op.entries s).map Entry.symbol := by
  cases hop : op.declares? with
  | none => rw [declared_of_none hs hop hstart, entries_of_none hop, List.map_nil, List.append_nil]
  | some symbol =>
      rw [declared_of_declares hs hop, entries_of_declares hop]
      repeat' split
      all_goals rfl

theorem symbols_own_of_none {s : Script} {op : Operation} (hop : op.declares? = none) :
    Command.symbols (op.own s) = [] := by
  cases op with
  | declareConstant name sort => cases hop
  | declareFunction name sort => cases hop
  | _ => rfl

theorem own_of_declares {s : Script} {op : Operation} {name : String} {sort : SmtSort}
    (hop : op.declares? = some (name, sort)) :
    op.own s = if s.declares name then [] else [symbolCommand name sort] := by
  cases op with
  | declareConstant name' sort' => cases hop; rfl
  | declareFunction name' sort' => cases hop; rfl
  | _ => cases hop

/-- An operation enters one symbol at most, and none that is in the table. -/
theorem entries_cases (s : Script) (op : Operation) :
    op.entries s = [] ∨ ∃ e, op.entries s = [e] ∧ s.declares e.name = false := by
  cases hop : op.declares? with
  | none => exact .inl (entries_of_none hop)
  | some symbol =>
      rcases symbol with ⟨name, sort⟩
      rw [entries_of_declares hop]
      cases hname : s.declares name with
      | true => exact .inl rfl
      | false =>
          by_cases hlost : (op.run.faults s && !op.entersFirst) = true
          · exact .inl (if_pos hlost)
          · exact .inr ⟨⟨name, sort, !op.run.faults s⟩, if_neg hlost, hname⟩

/-- An entry without a line is one of a constant. -/
theorem isOfConstants_of_unwritten {s : Script} (op : Operation) {e : Entry}
    (he : e ∈ op.entries s) (hwritten : e.written = false) : isOfConstants e.sort = true := by
  cases hop : op.declares? with
  | none =>
      rw [entries_of_none hop] at he
      cases he
  | some symbol =>
      rcases symbol with ⟨name, sort⟩
      rw [entries_of_declares hop] at he
      split at he
      · cases he
      · split at he
        · cases he
        · next hmade =>
            rw [List.mem_singleton.mp he] at hwritten ⊢
            have hfaults : op.run.faults s = true := by simpa using hwritten
            have hfirst : op.entersFirst = true := by simpa [hfaults] using hmade
            cases op with
            | declareConstant name' sort' =>
                cases hop
                exact hfirst
            | _ => cases hfirst

/-- The lines for symbols that an operation writes are those of the entries
    that it goes on from. -/
theorem symbols_commands (s : Script) (op : Operation) (ds : List Datatype) :
    Command.symbols (op.commands s ds) =
      ((op.entries s).filter Entry.written).map Entry.command := by
  rw [commands, Command.symbols_append, Command.symbols_datatypes, List.nil_append]
  cases hop : op.declares? with
  | none =>
      rw [entries_of_none hop]
      split
      · rfl
      · exact symbols_own_of_none hop
  | some symbol =>
      rcases symbol with ⟨name, sort⟩
      rw [entries_of_declares hop, own_of_declares hop]
      cases op.run.faults s with
      | true => cases s.declares name <;> cases op.entersFirst <;> rfl
      | false =>
          cases s.declares name with
          | true => rfl
          | false => cases sort <;> rfl

end Operation

/-! ## Notes of a Run -/

/-- The entries are the table, no name is in it twice, and the lines for symbols
    among the commands are those of the entries that are noted as written. The
    others are constants. -/
structure Notes (entries : List Entry) (cs : List Command) (s : Script) : Prop where
  table : s.declared = entries.map Entry.symbol
  distinct : (entries.map Entry.name).Nodup
  lines : Command.symbols cs = (entries.filter Entry.written).map Entry.command
  constants : ∀ e ∈ entries, e.written = false → Operation.isOfConstants e.sort = true

theorem notes_start (timeout : Option WritableInt) : Notes [] [] (start timeout) where
  table := by cases timeout <;> rfl
  distinct := List.nodup_nil
  lines := rfl
  constants e he := (nomatch he)

namespace Notes

variable {entries : List Entry} {cs : List Command} {s : Script}

theorem names_eq (h : Notes entries cs s) : s.declared.map Prod.fst = entries.map Entry.name := by
  rw [h.table, List.map_map]
  rfl

/-- The notes look at the table of symbols and at nothing else in a script. -/
theorem of_declared (h : Notes entries cs s) {t : Script} (ht : t.declared = s.declared) :
    Notes entries cs t :=
  ⟨ht.trans h.table, h.distinct, h.lines, h.constants⟩

/-- What an operation enters and writes is noted. -/
theorem append (h : Notes entries cs s) (hs : s.Consistent) {op : Operation}
    (hop : op ≠ .startOver) (ds : List Datatype) :
    Notes (entries ++ op.entries s) (cs ++ op.commands s ds) (op.run.after s) where
  table := by rw [op.declared_after hs hop, h.table, List.map_append]
  distinct := by
    rcases op.entries_cases s with hnone | ⟨e, hentry, hname⟩
    · rw [hnone, List.append_nil]
      exact h.distinct
    · -- The name was looked for in the table before.
      have hnew : e.name ∉ entries.map Entry.name := by
        rw [← h.names_eq, ← declares_iff, hname]
        exact Bool.false_ne_true
      rw [hentry, List.map_append, List.map_singleton]
      refine List.nodup_append.mpr ⟨h.distinct, List.nodup_singleton _, fun a ha b hb heq => ?_⟩
      rw [List.mem_singleton.mp hb] at heq
      exact hnew (heq ▸ ha)
  lines := by
    rw [Command.symbols_append, h.lines, op.symbols_commands, List.filter_append, List.map_append]
  constants e he hwritten := by
    rcases List.mem_append.mp he with hold | hnew
    · exact h.constants e hold hwritten
    · exact op.isOfConstants_of_unwritten hnew hwritten

/-- An operation keeps the notes, whatever its log is. -/
theorem log {past : List (Event (List Command))} (h : Notes entries (written past).flatten s)
    (hs : s.Consistent) (op : Operation) {first : List (Event (List Command))}
    (hfirst : op.Logs s first) :
    Notes (op.enter s entries) (written (first.reverse ++ past)).flatten (op.run.after s) := by
  have hwrote {op : Operation} (hop : op ≠ .startOver) {first : List (Event (List Command))}
      (hfirst : ∃ ds, op.Registers s ds ∧ first = [.wrote (op.commands s ds)]) :
      Notes (op.enter s entries) (written (first.reverse ++ past)).flatten (op.run.after s) := by
    rcases hfirst with ⟨ds, -, rfl⟩
    rw [Operation.enter_of_ne hop]
    change Notes _ (written past ++ [op.commands s ds]).flatten _
    rw [List.flatten_append, List.flatten_singleton]
    exact h.append hs hop ds
  cases op with
  | startOver =>
      cases hfirst
      exact notes_start s.timeout
  | openScope =>
      cases hfirst
      have hnotes := h.of_declared (t := Operation.openScope.run.after s) rfl
      rwa [← List.append_nil entries] at hnotes
  | closeScope =>
      have hsame : Notes entries (written past).flatten (Operation.closeScope.run.after s) :=
        h.of_declared (Operation.declared_of_none hs rfl (by simp))
      rw [Operation.Logs] at hfirst
      rw [hfirst, Operation.enter_of_ne (by simp), Operation.entries_of_none rfl, List.append_nil]
      split <;> exact hsame
  | _ => exact hwrote (by simp) hfirst

/-- An entry is noted as written just when its line was. -/
theorem command_mem_iff (h : Notes entries cs s) {e : Entry} (he : e ∈ entries) :
    e.command ∈ cs ↔ e.written = true := by
  have hsymbol : e.command ∈ cs ↔ e.command ∈ Command.symbols cs := by
    rw [Command.symbols, List.mem_filter, e.symbol?_command]
    simp
  rw [hsymbol, h.lines, List.mem_map]
  constructor
  · rintro ⟨e', he', hcommand⟩
    rw [List.mem_filter] at he'
    -- The commands name their symbols, and the names are distinct.
    have hname : e'.name = e.name := by
      have hsymbols := congrArg Command.symbol? hcommand
      rwa [e'.symbol?_command, e.symbol?_command, Option.some.injEq] at hsymbols
    rw [← List.inj_on_of_nodup_map h.distinct he'.1 he hname]
    exact he'.2
  · intro hwritten
    exact ⟨e, List.mem_filter.mpr ⟨he, hwritten⟩, rfl⟩

end Notes

/-- A run keeps the notes. -/
theorem notes_of_logs {entries : List Entry} {past : List (Event (List Command))} {s : Script}
    (h : Notes entries (written past).flatten s) (hs : s.Consistent) {ops : List Operation}
    {log : List (Event (List Command))} (hlog : Logs ops s log) :
    Notes (Script.entries ops s entries) (written (log.reverse ++ past)).flatten
      (afterAll ops s) := by
  induction hlog generalizing entries past with
  | nil s => exact h
  | @cons op ops s first rest hfirst hrest ih =>
      have hall := ih (h.log hs op hfirst) (op.consistent hs)
      rwa [← List.append_assoc, ← List.reverse_append] at hall

/-- The notes of a run from the start on. -/
theorem notes_of_logs_start {timeout : Option WritableInt} {ops : List Operation}
    {log : List (Event (List Command))} (hlog : Logs ops (start timeout) log) :
    Notes (Script.entries ops (start timeout) []) (written log.reverse).flatten
      (afterAll ops (start timeout)) := by
  have hnothing : Notes [] (written ([] : List (Event (List Command)))).flatten (start timeout) :=
    notes_start timeout
  have hrun := notes_of_logs hnothing (consistent_start timeout) hlog
  rwa [List.append_nil] at hrun

end Script

end SmtSession
