import SmtSession.Proofs.Script.Symbols
import SmtSession.Proofs.SortNames

/-!
# Declarations of Symbols

What a declaration that fails leaves behind. It should leave the table of
symbols as it was, so that the name can be declared again. This is so for
functions, whose signature is rendered before they are entered, and for the
sorts that are refused before anything is done. A constant is entered first.
When its sort cannot be rendered, the entry stays, and every later
declaration of the name finds it and writes nothing.

`Session.declarations_written_iff` says how far this goes. A failed
declaration enters its symbol just when it enters before it renders, and the
name is lost for later declarations in that case and in no other. Over a
whole run, the entries whose declarations failed are exactly those that no
line was written for since the last start.

## Main definitions

* `SmtSort.IsDeclarable`: Whether a symbol can be declared with a sort.

## Theorems

* `total_declareConstant`: A sort that can be declared is declared in any state.
* `Session.declarations_written_iff`: Which symbols in the table have a line.
* `Session.declaration_lost`: Not all of them do.
-/

namespace SmtSession

/-- Whether a symbol can be declared with a sort: a complete sort, or one of
    functions between complete sorts. No width in it is too long to be written. -/
def SmtSort.IsDeclarable : SmtSort → Prop
  | .function _ domain codomain => (∀ sort ∈ domain, sort.IsComplete) ∧ codomain.IsComplete
  | sort => sort.IsComplete

open Rendering (Total)

theorem total_spacedSortNames (sorts : List SmtSort) (h : ∀ sort ∈ sorts, sort.IsComplete) :
    (spacedSortNames sorts).Total := by
  induction sorts with
  | nil =>
      rw [spacedSortNames]
      exact .pure ""
  | cons sort sorts ih =>
      rw [spacedSortNames]
      exact (total_sortName sort (h sort List.mem_cons_self)).bind fun name =>
        (ih fun sort hsort => h sort (List.mem_cons_of_mem _ hsort)).bind fun rest => .pure _

theorem total_signature (sorts : List SmtSort) (h : ∀ sort ∈ sorts, sort.IsComplete) :
    (signature sorts).Total :=
  (total_spacedSortNames sorts h).bind fun _ => .pure _

/-- A sort that can be declared is declared in any state. -/
theorem total_declareConstant (name : String) (sort : SmtSort) (h : sort.IsDeclarable) :
    (declareConstant name sort).Total := by
  intro s
  cases hname : s.declares name with
  | true =>
      refine ⟨(), s, declareConstant_of_old hname ?_⟩
      rintro rfl
      exact h.elim
  | false =>
      by_cases hsort : Script.Operation.isOfConstants sort = true
      · have hcomplete : sort.IsComplete := by
          cases sort with
          | function i domain codomain => cases hsort
          | _ => exact h
        rw [declareConstant_of_new hsort hname]
        exact (Total.modify _).bind
          (fun _ => (total_sortName sort hcomplete).bind fun text => .modify _) s
      · cases sort with
        | missing => exact h.elim
        | function i domain codomain =>
            rw [declareConstant, declareFunction_of_new i domain codomain hname]
            exact (total_signature domain h.1).bind (fun parameters =>
              (total_sortName codomain h.2).bind fun result =>
                (Total.modify _).bind fun _ => .modify _) s
        | _ => exact absurd rfl hsort

theorem Rendering.Total.faults_eq {m : Rendering Unit} (h : m.Total) (s : Script) :
    m.faults s = false := by
  rcases h s with ⟨a, t, hrun⟩
  rw [Rendering.faults, hrun]

namespace Script

namespace Operation

/-- The entry of a declaration that fails. -/
theorem declared_of_faults {s : Script} (hs : s.Consistent) {op : Operation} {name : String}
    {sort : SmtSort} (hop : op.declares? = some (name, sort)) (hfaults : op.run.faults s = true) :
    (op.run.after s).declared = s.declared ++ if op.entersFirst then [(name, sort)] else [] := by
  rw [declared_of_declares hs hop, hfaults]
  cases hfirst : op.entersFirst with
  | false => cases s.declares name <;> rfl
  | true =>
      -- A constant that is in the table is not rendered, so nothing can fail.
      have hname : s.declares name = false := by
        cases op with
        | declareConstant name' sort' =>
            cases hop
            by_contra hname
            have hsort : sort ≠ .missing := by
              rintro rfl
              cases hfirst
            rw [run, Rendering.faults,
              declareConstant_of_old (by simpa using hname) hsort] at hfaults
            cases hfaults
        | _ => cases hfirst
      rw [hname]
      rfl

/-- A declaration that gets through writes its line unless the symbol is in the
    table. -/
theorem text_of_declares {s : Script} (hs : s.Consistent) {op : Operation} {name : String}
    {sort : SmtSort} (hop : op.declares? = some (name, sort)) (hok : op.run.faults s = false) :
    ∃ ds, op.Registers s ds ∧ (op.run.after s).text = s.text ++
      Command.script (ds.map .datatype ++
        if s.declares name then [] else [symbolCommand name sort]) := by
  have hspeaks : op.Speaks := by
    cases op with
    | declareConstant name sort => trivial
    | declareFunction name sort => trivial
    | _ => cases hop
  rcases op.exists_registers hs hspeaks with ⟨ds, hds⟩
  refine ⟨ds, hds, ?_⟩
  rw [(op.appended hs hspeaks.writes).text_eq, added_of_registers hs hspeaks hds, commands, hok,
    own_of_declares hop]
  rfl

end Operation

end Script

namespace Session

variable {σ : Type}

open Script.Operation (symbolCommand isOfConstants)

/-- A declaration that fails leaves the table of symbols as it was, unless it
    enters its symbol before it renders the sort. A later declaration of the
    name with a sort that can be declared gets through, and it writes its line
    unless the symbol was in the table before or the failed declaration entered
    it. Over a whole run, the table is the list of entries that were made since
    the last start; an entry has its line, in a closed scope or not, just when
    its declaration did not fail, and those without a line are constants. So
    all symbols in the table have their lines just when no entry was made by a
    declaration that failed. -/
theorem declarations_written_iff (timeout : Option WritableInt) (backends : List String) (world : σ)
    (ops : List (Operation σ)) :
    let script := (afterAll ops ⟨.start timeout backends, world⟩).session.script
    let onScript := ops.filterMap Operation.onScript?
    let entries := Script.entries onScript (.start timeout) []
    (∀ (op : Script.Operation) (name : String) (sort : SmtSort),
      op.declares? = some (name, sort) → op.run.faults script = true →
        let left := op.run.after script
        left.declared = script.declared ++ (if op.entersFirst then [(name, sort)] else []) ∧
          (∀ sort' : SmtSort, sort'.IsDeclarable →
            (Script.Operation.declareConstant name sort').run.faults left = false) ∧
          ∀ (op' : Script.Operation) (sort' : SmtSort),
            op'.declares? = some (name, sort') → op'.run.faults left = false →
              ∃ ds, op'.Registers left ds ∧
                (op'.run.after left).text = left.text ++ Command.script (ds.map .datatype ++
                  if script.declares name || op.entersFirst then []
                  else [symbolCommand name sort'])) ∧
      ∃ log, Script.Logs onScript (.start timeout) log ∧
        let cs := (Script.written log.reverse).flatten
        script.declared = entries.map Script.Entry.symbol ∧
          (script.declared.map Prod.fst).Nodup ∧
          (∀ e ∈ entries, (symbolCommand e.name e.sort ∈ cs ↔ e.written = true) ∧
            (e.written = false → isOfConstants e.sort = true)) ∧
          ((∀ symbol ∈ script.declared, symbolCommand symbol.1 symbol.2 ∈ cs) ↔
            ∀ e ∈ entries, e.written = true) := by
  intro script onScript entries
  have hscript : script.Consistent := consistent_afterAll timeout backends world ops
  refine ⟨fun op name sort hop hfaults => ?_, ?_⟩
  · intro left
    have hleft : left.Consistent := op.consistent hscript
    have hdeclared := Script.Operation.declared_of_faults hscript hop hfaults
    refine ⟨hdeclared, fun sort' hsort => (total_declareConstant name sort' hsort).faults_eq left,
      fun op' sort' hop' hok => ?_⟩
    have hname : left.declares name = (script.declares name || op.entersFirst) := by
      rw [Script.declares, hdeclared, List.any_append, ← Script.declares]
      cases op.entersFirst <;> simp
    rw [← hname]
    exact Script.Operation.text_of_declares hleft hop' hok
  · rcases Script.exists_logs_accounts_start timeout onScript with ⟨log, hlog, -⟩
    refine ⟨log, hlog, ?_⟩
    have hnotes : Script.Notes entries (Script.written log.reverse).flatten script := by
      have hstart : Script.Notes []
          (Script.written ([] : List (Script.Event (List Command)))).flatten (.start timeout) :=
        Script.notes_start timeout
      have hrun := Script.notes_of_logs hstart (Script.consistent_start timeout) hlog
      rw [List.append_nil] at hrun
      exact hrun.of_declared (congrArg Script.declared (script_afterAll ops _))
    refine ⟨hnotes.table, ?_, fun e he => ⟨hnotes.command_mem_iff he, hnotes.constants e he⟩, ?_⟩
    · rw [hnotes.names_eq]
      exact hnotes.distinct
    · rw [hnotes.table, List.forall_mem_map]
      exact forall₂_congr fun e he => hnotes.command_mem_iff he

/-- A function with a parameter of no kind is not entered and can be declared
    again, after an array without a domain was and cannot. -/
theorem declarations_written_iff_retried :
    let int : SmtSort := .int 0 true
    let broken : SmtSort := .array 1 .missing int
    let ops : List (Operation Unit) := [.onScript (.declareConstant "c" broken)]
    let script := (afterAll ops ⟨.start none [], ()⟩).session.script
    let op : Script.Operation := .declareFunction "f" (.function 2 [int, .bare 3] int)
    let op' : Script.Operation := .declareConstant "f" int
    let left := op.run.after script
    op.run.faults script = true ∧ left.declared = script.declared ∧ op'.run.faults left = false ∧
      (∃ ds, op'.Registers left ds ∧
        (op'.run.after left).text =
          left.text ++ Command.script (ds.map .datatype ++ [symbolCommand "f" int])) ∧
      ∃ log, Script.Logs (ops.filterMap Operation.onScript?) (.start none) log ∧
        symbolCommand "c" broken ∉ (Script.written log.reverse).flatten := by
  intro int broken ops script op op' left
  rcases declarations_written_iff none [] () ops with ⟨hfailed, log, hlog, -, -, hentries, -⟩
  have hfaults : op.run.faults script = true := rfl
  rcases hfailed op "f" _ rfl hfaults with ⟨hdeclared, hagain, htext⟩
  have hok : op'.run.faults left = false := hagain int trivial
  rw [show op.entersFirst = false from rfl] at hdeclared htext
  refine ⟨hfaults, hdeclared.trans (List.append_nil _), hok, htext op' int rfl hok, log, hlog, ?_⟩
  -- The entry of the array is there and is noted as one without a line.
  rw [(hentries ⟨"c", broken, false⟩ List.mem_cons_self).1]
  exact Bool.false_ne_true

/-- A constant whose sort is an array without a domain stays in the table, and a
    second declaration of the name with a good sort succeeds and writes
    nothing. -/
theorem declaration_lost :
    let broken : SmtSort := .array 1 .missing (.int 0 true)
    let start : Stage Unit := ⟨.start none [], ()⟩
    let failed := (Operation.onScript (.declareConstant "x" broken)).perform start
    let again := (Operation.onScript (.declareConstant "x" (.int 0 true))).perform failed.2
    failed.1 = some .incompleteArray ∧
      failed.2.session.script.declared ≠ start.session.script.declared ∧
      again.1 = none ∧ again.2.session.script.declared = [("x", broken)] ∧
        again.2.text = start.text := by
  intro broken start failed again
  refine ⟨rfl, ?_, rfl, rfl, rfl⟩
  exact List.cons_ne_nil ("x", broken) []

end Session

end SmtSession
