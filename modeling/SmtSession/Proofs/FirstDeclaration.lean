import SmtSession.Proofs.Declarations

/-!
# First Declarations

A name is declared once. The table of symbols decides this, and it does so by
name: a declaration of a name that is in the table does nothing, whatever its
sort is and whether it comes as a constant or as a function. So the first
declaration wins, and the table never changes an entry that it has.

The table outlives the text. Closing a scope takes the line of a declaration
away and leaves the entry, and the name is not declared again. The lines are
therefore counted here over everything that was written since the last start,
in closed scopes too, and not in the text.

Not every entry has a line: a constant is entered before its sort is rendered,
and the rendering may fault. `Script.Notes` keeps book of this. What is read off
the book here is that a name has one line if the declaration that entered it got
through, and none otherwise, however long ago that was. The line still says
what it should: at any later time the sort in the table is rendered again to
what the line says.

## Main definitions

* `Command.declaring`: The lines that declare a name.
* `symbolLine`: The line of a symbol, with its sort rendered for it.

## Theorems

* `Script.Notes.declaring_of_mem`: The lines for the name of an entry.
* `Script.Notes.length_declaring_le`: No name has two lines.
* `Script.Operation.entry_of_entered`: Symbols come into the table by
  declarations.
* `Script.Operation.after_of_declared`: A second declaration does nothing.
* `symbolLine_again`: What a line says can be rendered again.
* `Script.declaring_of_entered`: What becomes of a symbol that comes into the
  table.
* `meets_symbolLine`: The line of a symbol is that of its command.
* `Session.declaring_of_entered`: What becomes of a symbol in a session.
* `Session.declared_once`: A name is declared at most once, and the first
  declaration wins.
-/

namespace SmtSession

namespace Command

/-- The commands that declare a symbol of a given name. -/
def declaring (name : String) (cs : List Command) : List Command :=
  cs.filter fun c => c.symbol? == some name

/-- They are among the commands that declare symbols. -/
theorem declaring_symbols (name : String) (cs : List Command) :
    declaring name (symbols cs) = declaring name cs := by
  unfold declaring symbols
  rw [List.filter_filter]
  refine List.filter_congr fun c _ => ?_
  cases c.symbol? with
  | none => rfl
  | some other => exact Bool.and_true _

end Command

namespace Script

namespace Notes

variable {entries : List Entry} {cs : List Command} {s : Script}

/-- The lines for a name are those of the entries of that name. -/
theorem declaring_eq (h : Notes entries cs s) (name : String) :
    Command.declaring name cs =
      ((entries.filter Entry.written).filter fun e => e.name == name).map Entry.command := by
  rw [← Command.declaring_symbols, h.lines, Command.declaring, List.filter_map]
  congr 1
  refine List.filter_congr fun e _ => ?_
  rw [Function.comp_apply, e.symbol?_command, Option.some_beq_some]

/-- The name of an entry has the one line of that entry, if it is noted as
    written, and no line otherwise. -/
theorem declaring_of_mem (h : Notes entries cs s) {e : Entry} (he : e ∈ entries) :
    Command.declaring e.name cs = if e.written then [e.command] else [] := by
  rcases List.append_of_mem he with ⟨before, after, rfl⟩
  have hdistinct := h.distinct
  rw [List.map_append, List.map_cons, List.nodup_middle, List.nodup_cons, List.mem_append,
    not_or] at hdistinct
  -- No entry on either side has the same name.
  have hnone {es : List Entry} (hes : e.name ∉ es.map Entry.name) :
      ((es.filter Entry.written).filter fun e' => e'.name == e.name) = [] := by
    rw [List.filter_eq_nil_iff]
    intro e' he' hname
    exact hes (List.mem_map.mpr ⟨e', (List.mem_filter.mp he').1, by simpa using hname⟩)
  rw [h.declaring_eq, List.filter_append, List.filter_append, hnone hdistinct.1.1, List.nil_append,
    List.filter_cons]
  cases e.written with
  | false => rw [if_neg Bool.false_ne_true, hnone hdistinct.1.2]; rfl
  | true => simp only [if_true, List.filter_cons, beq_self_eq_true, hnone hdistinct.1.2]; rfl

/-- No name has more than one line. -/
theorem length_declaring_le (h : Notes entries cs s) (name : String) :
    (Command.declaring name cs).length ≤ 1 := by
  by_cases hname : name ∈ entries.map Entry.name
  · rcases List.mem_map.mp hname with ⟨e, he, rfl⟩
    rw [h.declaring_of_mem he]
    split
    · exact Nat.le_refl 1
    · exact Nat.zero_le 1
  · -- A name without an entry has no line at all.
    have hnone : Command.declaring name cs = [] := by
      rw [h.declaring_eq, List.map_eq_nil_iff, List.filter_eq_nil_iff]
      intro e he heq
      exact hname (List.mem_map.mpr ⟨e, (List.mem_filter.mp he).1, by simpa using heq⟩)
    rw [hnone]
    exact Nat.zero_le 1

end Notes

/-! ## Entries Over Time -/

theorem afterAll_append (xs ys : List Operation) (s : Script) :
    afterAll (xs ++ ys) s = afterAll ys (afterAll xs s) := by
  induction xs generalizing s with
  | nil => rfl
  | cons op xs ih => exact ih (op.run.after s)

theorem entries_append (xs ys : List Operation) (s : Script) (past : List Entry) :
    entries (xs ++ ys) s past = entries ys (afterAll xs s) (entries xs s past) := by
  induction xs generalizing s past with
  | nil => rfl
  | cons op xs ih => exact ih (op.run.after s) (op.enter s past)

/-- Entries are kept until the script is started over. -/
theorem prefix_entries (ops : List Operation) (hops : .startOver ∉ ops) (s : Script)
    (past : List Entry) : past <+: entries ops s past := by
  induction ops generalizing s past with
  | nil => exact List.prefix_rfl
  | cons op ops ih =>
      rw [List.mem_cons, not_or] at hops
      have hfirst : past <+: op.enter s past := by
        rw [Operation.enter_of_ne (Ne.symm hops.1)]
        exact List.prefix_append _ _
      exact hfirst.trans (ih hops.2 (op.run.after s) (op.enter s past))

namespace Operation

/-- An entry is that of the symbol to be declared, and it is noted as written when
    the operation gets through. -/
theorem of_mem_entries {s : Script} (op : Operation) {e : Entry} (he : e ∈ op.entries s) :
    op.declares? = some e.symbol ∧ e.written = !op.run.faults s := by
  cases hop : op.declares? with
  | none =>
      rw [entries_of_none hop] at he
      cases he
  | some symbol =>
      rw [entries_of_declares hop] at he
      split at he
      · cases he
      · split at he
        · cases he
        · rw [List.mem_singleton.mp he]
          exact ⟨rfl, rfl⟩

/-- No operation but a new start takes an entry out of the table, changes one or
    puts one in between. -/
theorem keeps_declared {s : Script} (hs : s.Consistent) (op : Operation) (hop : op ≠ .startOver) :
    s.declared <+: (op.run.after s).declared := by
  rw [op.declared_after hs hop]
  exact List.prefix_append _ _

/-- A declaration of a name that is in the table does nothing. -/
theorem after_of_declared {s : Script} (op : Operation) {name : String} {sort : SmtSort}
    (hop : op.declares? = some (name, sort)) (hname : s.declares name = true) :
    op.run.after s = s := by
  cases op with
  | declareConstant name' sort' =>
      cases hop
      exact (after_of_old hname).2
  | declareFunction name' sort' =>
      cases hop
      exact (after_of_old hname).1
  | _ => cases hop

/-- A symbol that comes into the table comes in by a declaration, with the note
    whether the declaration got through. -/
theorem entry_of_entered {s : Script} (hs : s.Consistent) (op : Operation) {name : String}
    {sort : SmtSort} (hname : s.declares name = false)
    (hentered : (name, sort) ∈ (op.run.after s).declared) :
    op.declares? = some (name, sort) ∧ ⟨name, sort, !op.run.faults s⟩ ∈ op.entries s := by
  have hstart : op ≠ .startOver := by
    rintro rfl
    -- After a new start there is nothing in the table.
    have hnone : (Operation.startOver.run.after s).declared = [] := (notes_start s.timeout).table
    rw [hnone] at hentered
    cases hentered
  rw [op.declared_after hs hstart] at hentered
  rcases List.mem_append.mp hentered with hold | hnew
  · have hin : s.declares name = true := declares_iff.mpr (List.mem_map.mpr ⟨_, hold, rfl⟩)
    rw [hname] at hin
    cases hin
  · rcases List.mem_map.mp hnew with ⟨⟨name', sort', written⟩, he, hsymbol⟩
    cases hsymbol
    obtain rfl : written = _ := (op.of_mem_entries he).2
    exact ⟨(op.of_mem_entries he).1, he⟩

/-- A declaration that gets through and is the first of its name can be written,
    and it introduces all that its line mentions. -/
theorem introduces_of_declares {s : Script} (hs : s.Consistent) (op : Operation) {name : String}
    {sort : SmtSort} (hop : op.declares? = some (name, sort)) (hname : s.declares name = false)
    (hok : op.run.faults s = false) :
    (symbolCommand name sort).Writable ∧
      (op.run.after s).Introduces (symbolCommand name sort).mentioned := by
  have hspeaks : op.Speaks := by
    cases op with
    | declareConstant name sort => trivial
    | declareFunction name sort => trivial
    | _ => cases hop
  have hown : symbolCommand name sort ∈ op.own s := by
    rw [own_of_declares hop, hname]
    exact List.mem_singleton_self _
  have hrecords := op.records hs hspeaks
  exact ⟨hrecords.answers hok _ hown, hrecords.introduces hok _ hown⟩

end Operation

/-- The entry that an operation makes is kept until the script is started over. -/
theorem mem_entries_of_entry {s : Script} {before later : List Operation} {op : Operation}
    {e : Entry} (hlater : .startOver ∉ later) (he : e ∈ op.entries (afterAll before s))
    (past : List Entry) : e ∈ entries (before ++ op :: later) s past := by
  have hstart : op ≠ .startOver := by
    rintro rfl
    cases he
  rw [entries_append, entries]
  refine (prefix_entries later hlater _ _).subset ?_
  rw [Operation.enter_of_ne hstart]
  exact List.mem_append_right _ he

/-- A run forgets no datatype, unless it starts the script over. -/
theorem keeps_datatypes_afterAll {s : Script} (hs : s.Consistent) (ops : List Operation)
    (hops : .startOver ∉ ops) : s.datatypes <+: (afterAll ops s).datatypes := by
  induction ops generalizing s with
  | nil => exact List.prefix_rfl
  | cons op ops ih =>
      rw [List.mem_cons, not_or] at hops
      exact (op.keeps_datatypes hs (Ne.symm hops.1)).trans (ih (op.consistent hs) hops.2)

/-- What was introduced stays so while the table of datatypes grows. -/
theorem Introduces.of_prefix {s t : Script} {names : List String} (h : s.Introduces names)
    (ht : s.datatypes <+: t.datatypes) : t.Introduces names := by
  intro name hname
  have hin := h name hname
  unfold hasDatatype at hin ⊢
  rw [List.any_eq_true] at hin ⊢
  rcases hin with ⟨entry, hentry, heq⟩
  exact ⟨entry, ht.subset hentry, heq⟩

end Script

/-! ## The Line of a Symbol -/

/-- The line that declares a symbol, with its sort rendered for it. -/
def symbolLine (name : String) : SmtSort → Rendering String
  | .function _ domain codomain => do
    let parameters ← signature domain
    let result ← sortName codomain
    return declarationText name parameters result
  | sort => do
    let text ← sortName sort
    return declarationText name "()" text

open Rendering (Meets)
open Script.Operation (symbolCommand)

/-- The line of a symbol is that of its command. -/
theorem meets_symbolLine (name : String) (sort : SmtSort) :
    Meets (symbolLine name sort) (symbolCommand name sort).Writable (symbolCommand name sort).text
      (symbolCommand name sort).mentioned sort.tuples := by
  have hconstant := (meets_sortName sort).map fun text => declarationText name "()" text
  cases sort with
  | function i domain codomain =>
      have hresult := (meets_sortName codomain).map fun result =>
        declarationText name ("(" ++ SmtSort.writtenNames domain ++ ")") result
      rw [SmtSort.tuples]
      exact (meets_signature domain).bind (f := fun parameters => do
        return declarationText name parameters (← sortName codomain)) hresult
  | _ =>
      exact hconstant.conv (by simp [symbolCommand, Command.Writable]) (fun _ => rfl)
        (fun _ => rfl) fun d hd => hd

/-- The line that a declaration wrote is the one that the sort is rendered to at any
    later time, with no more datatypes. -/
theorem symbolLine_again {s : Script} (hs : s.Consistent) (op : Script.Operation) {name : String}
    {sort : SmtSort} (hop : op.declares? = some (name, sort)) (hname : s.declares name = false)
    (hok : op.run.faults s = false) (later : List Script.Operation)
    (hlater : Script.Operation.startOver ∉ later) :
    let now := Script.afterAll later (op.run.after s)
    ∃ t, symbolLine name sort now = .ok (symbolCommand name sort).text t ∧ t.text = now.text := by
  intro now
  have hafter : (op.run.after s).Consistent := op.consistent hs
  have hnow : now.Consistent := Script.consistent_afterAll hafter later
  rcases op.introduces_of_declares hs hop hname hok with ⟨hwritable, hintroduces⟩
  have hin : now.Introduces (symbolCommand name sort).mentioned :=
    hintroduces.of_prefix (Script.keeps_datatypes_afterAll hafter later hlater)
  rcases (meets_symbolLine name sort).succeeds now hnow hwritable hin with ⟨t, hrun, hgrown⟩
  refine ⟨t, hrun, ?_⟩
  rw [hgrown.eq_of_nil]
  rfl

namespace Script

namespace Operation

/-- What a declaration appends: the datatypes that come in with it and, unless it
    faults or finds the name in the table, the line of the symbol. -/
theorem text_of_declaration {s : Script} (hs : s.Consistent) (op : Operation) {name : String}
    {sort : SmtSort} (hop : op.declares? = some (name, sort)) :
    ∃ ds, op.Registers s ds ∧ (op.run.after s).text = s.text ++
      Command.script (ds.map .datatype ++
        if s.declares name || op.run.faults s then [] else [symbolCommand name sort]) := by
  cases hfaults : op.run.faults s with
  | false =>
      rw [Bool.or_false]
      exact text_of_declares hs hop hfaults
  | true =>
      have hspeaks : op.Speaks := by
        cases op with
        | declareConstant name sort => trivial
        | declareFunction name sort => trivial
        | _ => cases hop
      rcases op.exists_registers hs hspeaks with ⟨ds, hds⟩
      refine ⟨ds, hds, ?_⟩
      rw [(op.appended hs hspeaks.writes).text_eq, added_of_registers hs hspeaks hds, commands,
        hfaults, Bool.or_true]
      rfl

end Operation

/-- What becomes of a symbol that comes into the table. It stays there, and among
    all that was written since the last start its name has one line if the
    declaration got through and none otherwise. The line is still the one that
    the sort is rendered to. -/
theorem declaring_of_entered {timeout : Option WritableInt} {before later : List Operation}
    {op : Operation} {log : List (Event (List Command))}
    (hlog : Logs (before ++ op :: later) (start timeout) log) (hlater : .startOver ∉ later)
    {name : String} {sort : SmtSort}
    (hname : (afterAll before (start timeout)).declares name = false)
    (hentered : (name, sort) ∈ (op.run.after (afterAll before (start timeout))).declared) :
    let now := afterAll (before ++ op :: later) (start timeout)
    let lines := Command.declaring name (written log.reverse).flatten
    (name, sort) ∈ now.declared ∧
      (op.run.faults (afterAll before (start timeout)) = true → lines = []) ∧
      (op.run.faults (afterAll before (start timeout)) = false →
        lines = [symbolCommand name sort] ∧
          ∃ t, symbolLine name sort now = .ok (symbolCommand name sort).text t ∧
            t.text = now.text) := by
  intro now lines
  have hs : (afterAll before (start timeout)).Consistent :=
    consistent_afterAll (consistent_start timeout) before
  have hnotes := notes_of_logs_start hlog
  rcases op.entry_of_entered hs hname hentered with ⟨hdeclares, hentry⟩
  have hmem := mem_entries_of_entry hlater hentry []
  have hlines : lines = _ := hnotes.declaring_of_mem hmem
  refine ⟨?_, fun hfaults => ?_, fun hok => ⟨?_, ?_⟩⟩
  · rw [hnotes.table]
    exact List.mem_map.mpr ⟨_, hmem, rfl⟩
  · rw [hlines, hfaults]
    rfl
  · rw [hlines, hok]
    rfl
  · have hnow : now = afterAll later (op.run.after (afterAll before (start timeout))) :=
      afterAll_append before (op :: later) (start timeout)
    rw [hnow]
    exact symbolLine_again hs op hdeclares hname hok later hlater

end Script

namespace Session

variable {σ : Type}

/-- In a session, too, a symbol that comes into the table stays there, and its name
    has one line if the call got through and none otherwise. -/
theorem declaring_of_entered {timeout : Option WritableInt} {start : Stage σ}
    (hstart : start.session.script = .start timeout) {before later : List (Operation σ)}
    {op : Script.Operation} (hlater : ∀ o ∈ later, o.onScript? ≠ some .startOver)
    {log : List (Script.Event (List Command))}
    (hlog : Script.Logs ((before ++ .onScript op :: later).filterMap Operation.onScript?)
      (.start timeout) log) {name : String} {sort : SmtSort}
    (hname : (afterAll before start).session.script.declares name = false)
    (hentered : (name, sort) ∈
      ((Operation.onScript op).perform (afterAll before start)).2.session.script.declared) :
    let entered := (Operation.onScript op).perform (afterAll before start)
    let script := (afterAll (before ++ .onScript op :: later) start).session.script
    let lines := Command.declaring name (Script.written log.reverse).flatten
    (name, sort) ∈ script.declared ∧ (entered.1.isSome = true → lines = []) ∧
      (entered.1 = none → lines = [symbolCommand name sort] ∧
        ∃ t, symbolLine name sort script = .ok (symbolCommand name sort).text t ∧
          t.text = script.text) := by
  intro entered script lines
  -- To the script, this is a run with the same operation in the middle.
  have hsplit : (before ++ .onScript op :: later).filterMap Operation.onScript? =
      before.filterMap Operation.onScript? ++ op :: later.filterMap Operation.onScript? := by
    rw [List.filterMap_append]
    rfl
  have hscript : script = Script.afterAll (before.filterMap Operation.onScript? ++
      op :: later.filterMap Operation.onScript?) (.start timeout) := by
    rw [← hsplit, ← hstart]
    exact script_afterAll _ start
  have hearlier : (afterAll before start).session.script =
      Script.afterAll (before.filterMap Operation.onScript?) (.start timeout) := by
    rw [← hstart]
    exact script_afterAll before start
  have hagain : Script.Operation.startOver ∉ later.filterMap Operation.onScript? := by
    intro hmem
    rcases List.mem_filterMap.mp hmem with ⟨o, ho, heq⟩
    exact hlater o ho heq
  rcases Operation.perform_onScript op (afterAll before start) with ⟨hafter, hfaults⟩
  rw [hafter, hearlier] at hentered
  rw [hearlier] at hname hfaults
  rw [hsplit] at hlog
  rcases Script.declaring_of_entered hlog hagain hname hentered with ⟨hkept, hlost, hwritten⟩
  rw [← hscript] at hkept hwritten
  rw [← hfaults] at hlost hwritten
  exact ⟨hkept, hlost, fun hnone => hwritten (congrArg Option.isSome hnone)⟩

/-- A name is declared at most once between two starts, and the first declaration
    wins. No name has two lines among all that was written since the last start,
    in closed scopes or not. The name that a call enters into the table stays
    there with its sort, and it has one line in total when the call got through
    and none otherwise; the line is the one that the sort in the table is still
    rendered to. A declaration of a name that is in the table leaves everything
    as it is, and any other one appends its line, after the datatypes that come
    in with it, unless it faults. Only a new start changes the table otherwise
    than at its end, where no name comes in that is there already. -/
theorem declared_once (timeout : Option WritableInt) (backends : List String) (world : σ)
    (ops : List (Operation σ)) :
    let start : Stage σ := ⟨.start timeout backends, world⟩
    let now := afterAll ops start
    let script := now.session.script
    let onScript := ops.filterMap Operation.onScript?
    (∃ log, Script.Logs onScript (.start timeout) log) ∧
      (∀ log, Script.Logs onScript (.start timeout) log →
        let cs := (Script.written log.reverse).flatten
        (∀ name, (Command.declaring name cs).length ≤ 1) ∧
          ∀ (before later : List (Operation σ)) (op : Script.Operation) (name : String)
            (sort : SmtSort),
            ops = before ++ .onScript op :: later →
              (∀ o ∈ later, o.onScript? ≠ some .startOver) →
              let earlier := afterAll before start
              let entered := (Operation.onScript op).perform earlier
              earlier.session.script.declares name = false →
                (name, sort) ∈ entered.2.session.script.declared →
                  (name, sort) ∈ script.declared ∧
                    (entered.1.isSome = true → Command.declaring name cs = []) ∧
                    (entered.1 = none →
                      Command.declaring name cs = [symbolCommand name sort] ∧
                        ∃ t, symbolLine name sort script =
                            .ok (symbolCommand name sort).text t ∧ t.text = script.text)) ∧
      (∀ (op : Script.Operation) (name : String) (sort : SmtSort),
        op.declares? = some (name, sort) →
          (script.declares name = true → ((Operation.onScript op).perform now).2 = now) ∧
            ∃ ds, op.Registers script ds ∧
              (op.run.after script).text = script.text ++ Command.script (ds.map .datatype ++
                if script.declares name || op.run.faults script then []
                else [symbolCommand name sort])) ∧
      (∀ op : Operation σ, op.onScript? ≠ some .startOver →
        script.declared <+: (op.perform now).2.session.script.declared) ∧
      (script.declared.map Prod.fst).Nodup := by
  intro start now script onScript
  have hscript : script = Script.afterAll onScript (.start timeout) := script_afterAll ops start
  have hconsistent : script.Consistent := consistent_afterAll timeout backends world ops
  rcases Script.exists_logs_accounts_start timeout onScript with ⟨someLog, hsomeLog, -⟩
  refine ⟨⟨someLog, hsomeLog⟩, fun log hlog => ⟨?_, ?_⟩,
    fun op name sort hop => ⟨fun hname => ?_, ?_⟩, fun op hop => ?_, ?_⟩
  · exact (Script.notes_of_logs_start hlog).length_declaring_le
  · intro before later op name sort hops hlater earlier entered hname hentered
    subst hops
    exact declaring_of_entered rfl hlater hlog hname hentered
  · rw [Operation.stage_onScript, op.after_of_declared hop hname]
  · exact op.text_of_declaration hconsistent hop
  · rw [op.perform_script]
    cases honScript : op.onScript? with
    | none => exact List.prefix_rfl
    | some o =>
        refine o.keeps_declared hconsistent fun heq => ?_
        exact hop (honScript.trans (congrArg some heq))
  · rw [hscript, (Script.notes_of_logs_start hsomeLog).names_eq]
    exact (Script.notes_of_logs_start hsomeLog).distinct

/-- A constant is declared in a scope that is closed again. Its line is gone, and it
    was the only one: the name is still taken when a function wants it. -/
theorem declared_once_closed :
    let pair : SmtSort := .tuple 1 "pair" [("x", .int 0 true)]
    let op : Script.Operation := .declareConstant "p" pair
    let ops : List (Operation Unit) :=
      [.onScript .openScope, .onScript op, .onScript .closeScope]
    let start : Stage Unit := ⟨.start none [], ()⟩
    let now := afterAll ops start
    let again : Operation Unit := .onScript (.declareFunction "p" (.function 2 [pair] pair))
    now.text = start.text ∧ ("p", pair) ∈ now.session.script.declared ∧
      (∃ log, Script.Logs (ops.filterMap Operation.onScript?) (.start none) log ∧
        Command.declaring "p" (Script.written log.reverse).flatten = [symbolCommand "p" pair]) ∧
      (again.perform now).2 = now := by
  intro pair op ops start now again
  rcases declared_once none [] () ops with ⟨⟨log, hlog⟩, hlines, hdeclare, -⟩
  have hlater : ∀ o ∈ ([.onScript .closeScope] : List (Operation Unit)),
      o.onScript? ≠ some .startOver := by
    simp [Operation.onScript?]
  rcases (hlines log hlog).2 [.onScript .openScope] [.onScript .closeScope] op "p" pair rfl hlater
    rfl List.mem_cons_self with ⟨hkept, -, hwritten⟩
  exact ⟨rfl, hkept, ⟨log, hlog, (hwritten rfl).1⟩, (hdeclare _ "p" _ rfl).1 rfl⟩

end Session

end SmtSession
