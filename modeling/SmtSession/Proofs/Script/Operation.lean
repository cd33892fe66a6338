import SmtSession.Proofs.Script.Rendering
import SmtSession.Script.Declare

/-!
# Operations on Scripts

Everything that can be done to a script, as data, and the commands that each
of these operations adds to it. Operations are partial: any of them but
opening a scope and starting over can fault, and one that faults may have
introduced datatypes before it gave up.

The text that an operation adds is therefore always of one shape: the
declarations of the datatypes that it introduced on the way and then, only if
it got that far, the command that it is there for. `Rendering.Records` states
this for an operation in one state. Renderings in front of the final command
only add datatypes, so `Records.after` lets a proof walk through an operation
from its end.

## Main definitions

* `Script.Operation`: The operations on a script.
* `Script.Operation.run`: Carry an operation out.
* `Script.afterAll`: The script after a list of operations, faults included.
* `Command`: The commands that operations add, but for raw lines.
* `Script.Operation.own`: The command that an operation is there for.
* `Script.Appended`: A script after some more text in its innermost scope.

## Theorems

* `Script.Operation.records`: What an operation adds to a script.
* `Script.Operation.keeps_sortNames`, `Script.Operation.keeps_datatypes`: No name
  of a sort and no datatype is forgotten.
* `Script.Operation.consistent`: What is remembered about sorts stays right.
-/

namespace SmtSession

/-- A command of a script. Lines that were written as they are do not count. -/
inductive Command where
  /-- The declaration of a datatype. -/
  | datatype (d : Datatype)
  /-- The declaration of a symbol; a constant has no domain. -/
  | symbol (name : String) (domain : List SmtSort) (codomain : SmtSort)
  /-- An assertion. -/
  | assertion (term : Term)

namespace Command

/-- The line of a command. -/
def text : Command → String
  | .datatype d => d.declaration
  | .symbol name domain codomain =>
    declarationText name ("(" ++ SmtSort.writtenNames domain ++ ")") codomain.writtenName
  | .assertion term => assertionText term.writtenText

/-- The lines of commands. -/
def script (cs : List Command) : String := Script.lines (cs.map text)

theorem script_append (cs ds : List Command) : script (cs ++ ds) = script cs ++ script ds := by
  rw [script, List.map_append, Script.lines_append, script, script]

/-- The commands whose sorts and terms have a written form. -/
def Writable : Command → Prop
  | .datatype d => ∀ field ∈ d.fields, field.2.HasName
  | .symbol _ domain codomain => (∀ sort ∈ domain, sort.HasName) ∧ codomain.HasName
  | .assertion term => term.WellFormed

/-- The tuple sorts that the line of a command mentions as sorts. -/
def mentioned : Command → List String
  | .datatype d => d.mentioned
  | .symbol _ domain codomain => domain.flatMap SmtSort.mentioned ++ codomain.mentioned
  | .assertion term => term.mentioned

end Command

namespace Script

/-- What can be done to a script. -/
inductive Operation where
  | declareConstant (name : String) (sort : SmtSort)
  | declareFunction (name : String) (sort : SmtSort)
  | assertTerm (term : Term)
  | writeLine (line : String)
  | sortName (sort : SmtSort)
  | signature (sorts : List SmtSort)
  | termText (term : Term)
  | queryTail (terms : List Term)
  | query (terms : List Term)
  | openScope
  | closeScope
  | startOver

namespace Operation

/-- Carry an operation out, and forget what it answers. -/
def run : Operation → Rendering Unit
  | .declareConstant name sort => SmtSession.declareConstant name sort
  | .declareFunction name sort => SmtSession.declareFunction name sort
  | .assertTerm term => SmtSession.assertTerm term
  | .writeLine line => SmtSession.writeLine line
  | .sortName sort => do let _ ← SmtSession.sortName sort
  | .signature sorts => do let _ ← SmtSession.signature sorts
  | .termText term => do let _ ← SmtSession.termText term
  | .queryTail terms => do let _ ← SmtSession.queryTail terms
  | .query terms => do let _ ← SmtSession.query terms
  | .openScope => SmtSession.openScope
  | .closeScope => SmtSession.closeScope
  | .startOver => SmtSession.startOver

/-- The command that declares a symbol: a sort of functions has a domain. -/
def symbolCommand (name : String) : SmtSort → Command
  | .function _ domain codomain => .symbol name domain codomain
  | sort => .symbol name [] sort

/-- The sorts that a constant can be declared with. -/
def isOfConstants : SmtSort → Bool
  | .missing | .function _ _ _ => false
  | _ => true

theorem symbolCommand_constant (name : String) {sort : SmtSort}
    (h : isOfConstants sort = true) : symbolCommand name sort = .symbol name [] sort := by
  cases sort with
  | function i domain codomain => cases h
  | _ => rfl

/-- The command that an operation is there for. A symbol that is declared is
    not declared again. -/
def own (s : Script) : Operation → List Command
  | .declareConstant name sort | .declareFunction name sort =>
    if s.declares name then [] else [symbolCommand name sort]
  | .assertTerm term => [.assertion term]
  | _ => []

/-- All tuple sorts that an operation can come across. -/
def tuples : Operation → List Datatype
  | .declareConstant _ sort | .declareFunction _ sort | .sortName sort => sort.tuples
  | .assertTerm term | .termText term => term.tuples
  | .signature sorts => SmtSort.listTuples sorts
  | .queryTail terms | .query terms => Term.argsTuples terms
  | .writeLine _ | .openScope | .closeScope | .startOver => []

/-- The operations that write nothing but commands. -/
def Speaks : Operation → Prop
  | .writeLine _ | .openScope | .closeScope | .startOver => False
  | _ => True

end Operation

/-- The script after operations, whether they fault or not. -/
def afterAll : List Operation → Script → Script
  | [], s => s
  | op :: ops, s => afterAll ops (op.run.after s)

/-- A script after some more text in its innermost scope. -/
structure Appended (s : Script) (text : String) (t : Script) : Prop where
  timeout : t.timeout = s.timeout
  outer : t.scopes.outer = s.scopes.outer
  inner : t.scopes.inner = s.scopes.inner ++ text

theorem Appended.trans {s t u : Script} {text text' : String} (h : s.Appended text t)
    (h' : t.Appended text' u) : s.Appended (text ++ text') u where
  timeout := h'.timeout.trans h.timeout
  outer := h'.outer.trans h.outer
  inner := by rw [h'.inner, h.inner, String.append_assoc]

theorem Appended.text_eq {s t : Script} {text : String} (h : s.Appended text t) :
    t.text = s.text ++ text := by
  rw [Script.text, Scopes.text, h.outer, h.inner, Script.text, Scopes.text, String.append_assoc]

theorem Grown.appended {s t : Script} {ds : List Datatype} (h : s.Grown ds t) :
    s.Appended (Command.script (ds.map .datatype)) t where
  timeout := h.timeout
  outer := h.outer
  inner := by
    rw [h.inner, Command.script, List.map_map]
    rfl

end Script

namespace Rendering

/-- Whether an operation faults. -/
def faults {α : Type} (m : Rendering α) (s : Script) : Bool :=
  match m s with
  | .ok _ _ => false
  | .error _ _ => true

/-- What an operation does to a script: it introduces some of the `tuples` and
    then, unless it faults, which takes `good`, it adds the `commands`, after
    everything that they mention. No name of a sort is forgotten. -/
structure Records (m : Rendering Unit) (s : Script) (good : Prop) (commands : List Command)
    (tuples : List Datatype) : Prop where
  consistent : (m.after s).Consistent
  adds : ∃ ds : List Datatype, (∀ d ∈ ds, d ∈ tuples ∧ ∀ field ∈ d.fields, field.2.HasName) ∧
    s.InOrder ds ∧
    (m.after s).datatypes = s.datatypes ++ ds.map Datatype.entry ∧
    s.Appended (Command.script (ds.map .datatype ++ if m.faults s then [] else commands))
      (m.after s)
  answers : m.faults s = false → good
  introduces : m.faults s = false → ∀ c ∈ commands, (m.after s).Introduces c.mentioned
  sortNames : s.sortNames <+: (m.after s).sortNames

theorem faults_error {α : Type} {m : Rendering α} {s t : Script} {e : Fault}
    (h : m s = .error e t) : m.faults s = true := by
  rw [faults, h]

theorem faults_congr {α : Type} {m m' : Rendering α} {s : Script} (h : m s = m' s) :
    m.faults s = m'.faults s := by
  rw [faults, h, faults]

namespace Records

/-- What an operation does is what it does in the state it is in. -/
theorem congr {m m' : Rendering Unit} {s : Script} {good : Prop} {commands : List Command}
    {tuples : List Datatype} (h : Records m s good commands tuples) (heq : m' s = m s) :
    Records m' s good commands tuples := by
  have hafter : m'.after s = m.after s := after_congr heq
  have hfaults : m'.faults s = m.faults s := faults_congr heq
  exact ⟨hafter ▸ h.consistent, by rw [hafter, hfaults]; exact h.adds, by
    rw [hfaults]; exact h.answers, by rw [hafter, hfaults]; exact h.introduces,
    hafter ▸ h.sortNames⟩

/-- The condition may be weakened, and the tuple sorts to come across may be
    more. -/
theorem conv {m : Rendering Unit} {s : Script} {good good' : Prop} {commands : List Command}
    {tuples tuples' : List Datatype} (h : Records m s good commands tuples) (hgood : good → good')
    (htuples : ∀ d ∈ tuples, d ∈ tuples') : Records m s good' commands tuples' := by
  obtain ⟨hc, ⟨ds, hds, hrest⟩, hanswers, hintroduces, hnames⟩ := h
  exact ⟨hc, ⟨ds, fun d hd => ⟨htuples d (hds d hd).1, (hds d hd).2⟩, hrest⟩,
    fun hok => hgood (hanswers hok), hintroduces, hnames⟩

/-- An operation that only renders has nothing to say itself. -/
theorem of_meets {m : Rendering Unit} {s : Script} {good : Prop} {value : Unit}
    {names : List String} {tuples : List Datatype} (h : Meets m good value names tuples)
    (hs : s.Consistent) : Records m s good [] tuples := by
  obtain ⟨hc, ds, hds, hgrown⟩ := h.grows s hs
  refine ⟨hc, ⟨ds, fun d hd => ⟨hds d hd, hgrown.named d hd⟩, hgrown.ordered, hgrown.datatypes, ?_⟩,
    fun hok => ?_, fun _ c hc => (nomatch hc), hgrown.sortNames⟩
  · simpa using hgrown.appended
  · rcases hrun : m s with ⟨a, t⟩ | ⟨e, t⟩
    · exact (h.answers s hs a t hrun).1
    · rw [faults_error hrun] at hok
      cases hok

/-- A rendering in front adds datatypes in front. The rest may assume that what
    the rendering mentions was introduced. -/
theorem after {α : Type} {m : Rendering α} {k : α → Rendering Unit} {s : Script}
    {good good' : Prop} {a : α} {names : List String} {commands : List Command}
    {tuples tuples' : List Datatype} (hm : Meets m good a names tuples) (hs : s.Consistent)
    (hk : ∀ (t : Script) (ds : List Datatype), s.Grown ds t → t.Consistent → t.Introduces names →
      Records (k a) t good' commands tuples') :
    Records (m >>= k) s (good ∧ good') commands (tuples ++ tuples') := by
  obtain ⟨hc, ds, hds, hgrown⟩ := hm.grows s hs
  rcases hrun : m s with ⟨a', t⟩ | ⟨e, t⟩
  · -- Both add datatypes, and the command comes after all of them.
    obtain ⟨hgood, rfl, hnames⟩ := hm.answers s hs a' t hrun
    rw [after_ok hrun] at hc hgrown
    obtain ⟨hc', ⟨es, hes, hordered, hdatatypes, happended⟩, hanswers, hintroduces, hsorts⟩ :=
      hk t ds hgrown hc hnames
    have hafter : (m >>= k).after s = (k a').after t := by rw [Rendering.after, bind_ok hrun,
      Rendering.after]
    have hfaults : (m >>= k).faults s = (k a').faults t := by rw [faults, bind_ok hrun, faults]
    refine ⟨hafter ▸ hc', ⟨ds ++ es, fun d hd => ?_,
      hgrown.ordered.append hgrown.datatypes hordered, ?_, ?_⟩, fun hok => ?_, ?_, ?_⟩
    · rcases List.mem_append.mp hd with hd | hd
      · exact ⟨List.mem_append_left _ (hds d hd), hgrown.named d hd⟩
      · exact ⟨List.mem_append_right _ (hes d hd).1, (hes d hd).2⟩
    · rw [hafter, hdatatypes, hgrown.datatypes, List.map_append, List.append_assoc]
    · rw [hafter, hfaults, List.map_append, List.append_assoc, Command.script_append]
      exact hgrown.appended.trans happended
    · rw [hfaults] at hok
      exact ⟨hgood, hanswers hok⟩
    · rw [hafter, hfaults]
      exact hintroduces
    · rw [hafter]
      exact hgrown.sortNames.trans hsorts
  · -- The rest is left out, and so is the command.
    have hafter : (m >>= k).after s = m.after s := by
      rw [after_error (bind_error hrun), after_error hrun]
    have hfaults : (m >>= k).faults s = true := faults_error (bind_error hrun)
    refine ⟨hafter ▸ hc, ⟨ds, fun d hd => ?_, hgrown.ordered, ?_, ?_⟩, fun hok => ?_,
      fun hok => ?_, hafter ▸ hgrown.sortNames⟩
    · exact ⟨List.mem_append_left _ (hds d hd), hgrown.named d hd⟩
    · rw [hafter, hgrown.datatypes]
    · rw [hafter, hfaults, if_pos rfl, List.append_nil]
      exact hgrown.appended
    all_goals
      rw [hfaults] at hok
      cases hok

/-- An operation that does nothing. -/
theorem nothing {s : Script} (hs : s.Consistent) (tuples : List Datatype) :
    Records (pure ()) s True [] tuples :=
  of_meets (Meets.pure () tuples) hs

/-- An operation that faults at once. -/
theorem throw {s : Script} (hs : s.Consistent) (fault : Fault) (commands : List Command)
    (tuples : List Datatype) : Records (MonadExcept.throw fault) s False commands tuples where
  consistent := hs
  adds := ⟨[], by simp, .nil, (List.append_nil s.datatypes).symm, (Script.Grown.refl s).appended⟩
  answers h := nomatch (h : true = false)
  introduces h := nomatch (h : true = false)
  sortNames := List.prefix_rfl

/-- The last step of an operation: its command is written. -/
theorem write {s : Script} (hs : s.Consistent) (c : Command) (hc : s.Introduces c.mentioned)
    (tuples : List Datatype) : Records (modify (·.write c.text)) s True [c] tuples where
  consistent := hs
  adds := ⟨[], by simp, .nil, (List.append_nil s.datatypes).symm,
    ⟨rfl, rfl, by
      change s.scopes.inner ++ c.text ++ "\n" = s.scopes.inner ++ Script.lines [c.text]
      simp [Script.lines, String.append_assoc]⟩⟩
  answers _ := trivial
  introduces _ _ hmem := List.mem_singleton.mp hmem ▸ hc
  sortNames := List.prefix_rfl

/-- The table of symbols is not part of what is said. -/
theorem declare {s : Script} {m : Rendering Unit} {good : Prop} {commands : List Command}
    {tuples : List Datatype} (name : String) (sort : SmtSort)
    (h : Records m (s.declare name sort) good commands tuples) :
    Records (do modify (·.declare name sort); m) s good commands tuples where
  consistent := h.consistent
  adds := by
    obtain ⟨ds, hds, hordered, hdatatypes, happended⟩ := h.adds
    have hordered' : s.InOrder ([] ++ ds) :=
      .append (t := s.declare name sort) .nil (List.append_nil s.datatypes).symm hordered
    exact ⟨ds, hds, hordered', hdatatypes, happended.timeout, happended.outer, happended.inner⟩
  answers := h.answers
  introduces := h.introduces
  sortNames := h.sortNames

end Records

end Rendering

open Rendering (Meets Records)

/-- A rendering that is carried out for its effect. -/
theorem records_of_meets {α : Type} {m : Rendering α} {s : Script} {good : Prop} {a : α}
    {names : List String} {tuples : List Datatype} (h : Meets m good a names tuples)
    (hs : s.Consistent) : Records (do let _ ← m) s True [] tuples :=
  (Records.of_meets (h.map fun _ => ()) hs).conv (fun _ => trivial) fun _ => id

theorem declareFunction_of_new {s : Script} {name : String} (i : Nat) (domain : List SmtSort)
    (codomain : SmtSort) (hname : s.declares name = false) :
    declareFunction name (.function i domain codomain) s =
      (do
        let parameters ← signature domain
        let result ← sortName codomain
        modify (·.declare name (.function i domain codomain))
        modify (·.write (declarationText name parameters result)) : Rendering Unit) s := by
  rw [declareFunction, Rendering.get_bind, hname]
  rfl

theorem declareConstant_of_new {s : Script} {name : String} {sort : SmtSort}
    (hsort : Script.Operation.isOfConstants sort = true) (hname : s.declares name = false) :
    declareConstant name sort s =
      (do
        modify (·.declare name sort)
        let text ← sortName sort
        modify (·.write (declarationText name "()" text)) : Rendering Unit) s := by
  cases sort with
  | missing => cases hsort
  | function i domain codomain => cases hsort
  | _ =>
    simp only [declareConstant, Rendering.get_bind, hname]
    rfl

theorem declareFunction_of_old {s : Script} {name : String} {i : Nat} {domain : List SmtSort}
    {codomain : SmtSort} (hname : s.declares name = true) :
    declareFunction name (.function i domain codomain) s = .ok () s := by
  rw [declareFunction, Rendering.get_bind, hname]
  rfl

theorem declareConstant_of_old {s : Script} {name : String} {sort : SmtSort}
    (hname : s.declares name = true) (hsort : sort ≠ .missing) :
    declareConstant name sort s = .ok () s := by
  cases sort with
  | missing => exact absurd rfl hsort
  | function i domain codomain => exact declareFunction_of_old hname
  | _ =>
    simp only [declareConstant, Rendering.get_bind, hname]
    rfl

/-- A signature is rendered before the function is entered into the table. -/
theorem records_declareFunction {s : Script} (hs : s.Consistent) (name : String) (i : Nat)
    (domain : List SmtSort) (codomain : SmtSort) (hname : s.declares name = false) :
    Records (declareFunction name (.function i domain codomain)) s
      ((∀ sort ∈ domain, sort.HasName) ∧ codomain.HasName) [.symbol name domain codomain]
      (SmtSort.function i domain codomain).tuples := by
  -- Walk through the operation from its end: write, enter, range, domain.
  have hlast (t : Script) (ht : t.Consistent)
      (hin : t.Introduces (Command.symbol name domain codomain).mentioned) :=
    Records.declare name (.function i domain codomain)
      (Records.write (s := t.declare name (.function i domain codomain)) ht
        (.symbol name domain codomain) hin [])
  have hrecords := Records.after (meets_signature domain) hs
    (k := fun parameters => do
      let result ← sortName codomain
      modify (·.declare name (.function i domain codomain))
      modify (·.write (declarationText name parameters result)))
    fun t _ _ ht hdomain => Records.after (meets_sortName codomain) ht
      fun u _ hgrown hu hcodomain => hlast u hu
        ((Script.introduces_append u _ _).mpr ⟨hgrown.introduces hdomain, hcodomain⟩)
  refine (hrecords.congr (declareFunction_of_new i domain codomain hname)).conv
    (fun h => ⟨h.1, h.2.1⟩) fun d hd => ?_
  rwa [List.append_nil] at hd

/-- A constant is entered into the table before its sort is rendered. -/
theorem records_declareConstant {s : Script} (hs : s.Consistent) (name : String) (sort : SmtSort)
    (hsort : Script.Operation.isOfConstants sort = true) (hname : s.declares name = false) :
    Records (declareConstant name sort) s sort.HasName [.symbol name [] sort] sort.tuples := by
  -- The script that the sort is rendered into differs in the table alone.
  have hrecords := Records.declare name sort (Records.after (s := s.declare name sort)
    (k := fun text => modify (·.write (declarationText name "()" text)))
    (meets_sortName sort) hs fun _ _ _ ht hin => Records.write ht (.symbol name [] sort) hin [])
  refine (hrecords.congr (declareConstant_of_new hsort hname)).conv (fun h => h.1) fun d hd => ?_
  rwa [List.append_nil] at hd

/-- A symbol that is declared already is left alone. -/
theorem records_declared {s : Script} (hs : s.Consistent) (name : String) (sort : SmtSort)
    (hname : s.declares name = true) :
    Records (declareFunction name sort) s True [] sort.tuples ∧
      Records (declareConstant name sort) s True [] sort.tuples := by
  have hnothing := Records.nothing hs sort.tuples
  have hfault (fault : Fault) : Records (throw fault) s True [] sort.tuples :=
    (Records.throw hs fault [] sort.tuples).conv (fun h => h.elim) fun d hd => hd
  constructor
  · cases sort with
    | function i domain codomain => exact hnothing.congr (declareFunction_of_old hname)
    | _ => exact hfault _
  · cases sort with
    | missing => exact hfault _
    | _ => exact hnothing.congr (declareConstant_of_old hname (by simp))

theorem records_assertTerm {s : Script} (hs : s.Consistent) (term : Term) :
    Records (assertTerm term) s term.WellFormed [.assertion term] term.tuples := by
  have hrecords := Records.after (meets_termText term) hs
    (k := fun text => modify (·.write (assertionText text)))
    fun _ _ _ ht hin => Records.write ht (.assertion term) hin []
  refine hrecords.conv (fun h => h.1) fun d hd => ?_
  rw [List.append_nil] at hd
  exact term.listTuples_namedSorts_subset hd

/-- A query reads the script, which changes nothing, and renders its tail. -/
theorem query_forgotten (terms : List Term) :
    (do let _ ← query terms : Rendering Unit) = (do let _ ← queryTail terms : Rendering Unit) := by
  funext s
  simp only [bind, EStateM.bind, query_eq]
  cases queryTail terms s <;> rfl

theorem records_queryTail {s : Script} (hs : s.Consistent) (terms : List Term) :
    Records (do let _ ← queryTail terms) s True [] (Term.argsTuples terms) :=
  (records_of_meets (meets_queryTail terms) hs).conv id
    (Term.listTuples_argsNamedSorts_subset terms)

/-- Closing a scope faults at the outermost one. -/
theorem closeScope_eq (s : Script) :
    closeScope s = match s.scopes.pop? with
      | some scopes => .ok () { s with scopes }
      | none => .error .outermostScope s := by
  rw [closeScope, Rendering.get_bind]
  cases s.scopes.pop? <;> rfl

namespace Script

/-- A script without sort names remembers nothing wrong. -/
theorem consistent_start (timeout : Option WritableInt) : (start timeout).Consistent := by
  intro entry hentry
  cases timeout <;> cases hentry

namespace Operation

/-- What an operation adds to a script: the datatypes that it comes across and
    that are new, and its own command unless it faults. -/
theorem records {s : Script} (hs : s.Consistent) (op : Operation) (hop : op.Speaks) :
    Records op.run s (∀ c ∈ op.own s, c.Writable) (op.own s) op.tuples := by
  have hnone {m : Rendering Unit} {tuples : List Datatype} (h : Records m s True [] tuples) :
      Records m s (∀ c ∈ ([] : List Command), c.Writable) [] tuples :=
    h.conv (by simp) fun d hd => hd
  have hfault (fault : Fault) {good : Prop} {commands : List Command} {tuples : List Datatype} :
      Records (throw fault) s good commands tuples :=
    (Records.throw hs fault commands tuples).conv (fun h => h.elim) fun d hd => hd
  cases op with
  | writeLine line => exact hop.elim
  | openScope => exact hop.elim
  | closeScope => exact hop.elim
  | startOver => exact hop.elim
  | sortName sort => exact hnone (records_of_meets (meets_sortName sort) hs)
  | signature sorts => exact hnone (records_of_meets (meets_signature sorts) hs)
  | termText term =>
      exact hnone ((records_of_meets (meets_termText term) hs).conv id
        term.listTuples_namedSorts_subset)
  | queryTail terms => exact hnone (records_queryTail hs terms)
  | query terms =>
      rw [run, query_forgotten]
      exact hnone (records_queryTail hs terms)
  | assertTerm term =>
      exact (records_assertTerm hs term).conv (by simp [own, Command.Writable]) fun d hd => hd
  | declareFunction name sort =>
      rw [own]
      split
      · next h => exact hnone (records_declared hs name sort h).1
      · next h =>
          cases sort with
          | function i domain codomain =>
              refine (records_declareFunction hs name i domain codomain ?_).conv
                (by simp [symbolCommand, Command.Writable]) fun d hd => hd
              simpa using h
          | _ => exact hfault _
  | declareConstant name sort =>
      rw [own]
      split
      · next h => exact hnone (records_declared hs name sort h).2
      · next h =>
          have hname : s.declares name = false := by simpa using h
          -- A sort of functions makes a function of the constant.
          by_cases hsort : isOfConstants sort = true
          · rw [symbolCommand_constant name hsort]
            exact (records_declareConstant hs name sort hsort hname).conv
              (by simp [Command.Writable]) fun d hd => hd
          · cases sort with
            | missing => exact hfault _
            | function i domain codomain =>
                exact (records_declareFunction hs name i domain codomain hname).conv
                  (by simp [symbolCommand, Command.Writable]) fun d hd => hd
            | _ => exact absurd rfl hsort

/-- No datatype is forgotten either, not even when the scope of its declaration is
    closed. -/
theorem keeps_datatypes {s : Script} (hs : s.Consistent) (op : Operation)
    (hop : op ≠ .startOver) : s.datatypes <+: (op.run.after s).datatypes := by
  by_cases hspeaks : op.Speaks
  · rcases (records hs op hspeaks).adds with ⟨ds, -, -, hentered, -⟩
    rw [hentered]
    exact List.prefix_append _ _
  cases op with
  | writeLine line => exact List.prefix_rfl
  | openScope => exact List.prefix_rfl
  | closeScope =>
      rw [run, Rendering.after, closeScope_eq]
      rcases s.scopes.pop? with _ | scopes <;> exact List.prefix_rfl
  | startOver => exact absurd rfl hop
  | _ => exact absurd trivial hspeaks

/-- What is remembered about sorts stays right, whatever is done. -/
theorem consistent {s : Script} (hs : s.Consistent) (op : Operation) :
    (op.run.after s).Consistent := by
  by_cases hop : op.Speaks
  · exact (records hs op hop).consistent
  cases op with
  | writeLine line => exact hs
  | openScope => exact hs
  | closeScope =>
      rw [run, Rendering.after, closeScope_eq]
      rcases s.scopes.pop? with _ | scopes <;> exact hs
  | startOver => exact consistent_start s.timeout
  | _ => exact absurd trivial hop

end Operation

end Script

end SmtSession
