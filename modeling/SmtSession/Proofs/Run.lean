import SmtSession.Proofs.Aggregation
import SmtSession.Proofs.Script.History

/-!
# Runs

Sessions over time. A run is a list of operations, each of which may fault;
the run goes on from whatever the operation left behind. The backends have a
state of their own that the run carries along, and every check may bring
other backends.

To the script, an operation of the session is an operation of the script or
nothing at all: choosing backends does not touch it, and a check does to it
what building the query does. `Session.script_afterAll` says this of whole
runs, so a law on runs of a script becomes one on runs of a session.

All runs begin with a new session. Its limit for solvers is one that can be
written, because no session is created with any other
(`Session.create_eq_ok_iff`).

## Main definitions

* `Session.Stage`: A session and the state of the backends.
* `Session.Operation`: The operations on a session.
* `Session.Operation.perform`: Carry an operation out.
* `Session.afterAll`, `Session.history`: Where a run ends, and its events.

## Theorems

* `Session.create_eq_ok_iff`: Which sessions can be created.
* `Session.Operation.perform_script`: What an operation does to the script.
* `Session.script_afterAll`, `Session.history_eq`: A run is one of its script.
* `Session.text_follows_history`: The text and the depth follow from the
  history, and closing a scope undoes everything since it was opened.
-/

namespace SmtSession

namespace Session

/-- A session is created just when its limit, if there is one, can be written. -/
theorem create_eq_ok_iff (timeout : Option Int) (backends : List String) (s : Session) :
    create timeout backends = .ok s ↔
      ∃ limit : Option WritableInt, limit.map WritableInt.value = timeout ∧
        s = start limit backends := by
  constructor
  · intro h
    cases timeout with
    | none =>
        cases h
        exact ⟨none, rfl, rfl⟩
    | some n =>
        rw [create, Option.mapM_some] at h
        cases hlimit : WritableInt.ofInt n with
        | error cause =>
            rw [hlimit] at h
            cases h
        | ok limit =>
            rw [hlimit] at h
            cases h
            exact ⟨some limit, congrArg some ((WritableInt.ofInt_eq_ok_iff _ _).mp hlimit), rfl⟩
  · rintro ⟨limit, rfl, rfl⟩
    cases limit with
    | none => rfl
    | some limit =>
        have hlimit := (WritableInt.ofInt_eq_ok_iff _ limit).mpr rfl
        rw [create, Option.map_some, Option.mapM_some, hlimit]
        rfl

/-- A session and the state of the backends that it consults. -/
structure Stage (σ : Type) where
  session : Session
  world : σ

namespace Stage

variable {σ : Type}

/-- The text of the script. -/
def text (g : Stage σ) : String := g.session.script.text

/-- The number of open scopes. -/
def depth (g : Stage σ) : Nat := g.session.script.depth

end Stage

/-- What can be done to a session. -/
inductive Operation (σ : Type) where
  | onScript (op : Script.Operation)
  | enable (backends : List String)
  | check (backend : Backend σ) (terms : List Term)

namespace Operation

variable {σ : Type}

/-- Carry an operation out. Its fault is reported; what it answers is not. -/
def perform : Operation σ → Stage σ → Option Fault × Stage σ
  | .onScript op, g =>
    match Session.onScript op.run g.session with
    | .ok _ session => (none, { g with session })
    | .error fault session => (some fault, { g with session })
  | .enable backends, g =>
    match Session.enable backends g.session with
    | .ok _ session => (none, { g with session })
    | .error fault session => (some fault, { g with session })
  | .check backend terms, g =>
    match Session.check backend terms g.world g.session with
    | .ok (_, world) session => (none, ⟨session, world⟩)
    | .error fault session => (some fault, { g with session })

/-- The operation on the script that an operation amounts to, if any. -/
def onScript? : Operation σ → Option Script.Operation
  | .onScript op => some op
  | .enable _ => none
  | .check _ terms => some (.query terms)

/-- The operations that leave the scopes alone. -/
def Writes (op : Operation σ) : Prop :=
  ∀ o ∈ op.onScript?, o.Writes

/-- What an operation does to the text of the script. -/
def events (g : Stage σ) (op : Operation σ) : List (Script.Event String) :=
  match op with
  | .onScript .openScope => [.opened]
  | .onScript .closeScope => if (op.perform g).1.isSome then [] else [.closed]
  | .onScript .startOver => [.startedOver]
  | .enable _ => []
  | op => [.wrote (g.session.script.added (op.perform g).2.session.script)]

end Operation

variable {σ : Type}

/-- Where a run ends. -/
def afterAll : List (Operation σ) → Stage σ → Stage σ
  | [], g => g
  | op :: ops, g => afterAll ops (op.perform g).2

/-- What a run does to the text of the script, event by event. -/
def history : List (Operation σ) → Stage σ → List (Script.Event String)
  | [], _ => []
  | op :: ops, g => op.events g ++ history ops (op.perform g).2

namespace Operation

/-- An operation on the script leaves behind what it does on its own. -/
theorem perform_onScript (op : Script.Operation) (g : Stage σ) :
    ((Operation.onScript op).perform g).2.session.script = op.run.after g.session.script ∧
      ((Operation.onScript op).perform g).1.isSome = op.run.faults g.session.script := by
  rw [perform, Session.onScript, Rendering.after, Rendering.faults]
  rcases op.run g.session.script with ⟨value, script⟩ | ⟨fault, script⟩ <;> exact ⟨rfl, rfl⟩

/-- And it changes nothing but the script. -/
theorem stage_onScript (op : Script.Operation) (g : Stage σ) :
    ((Operation.onScript op).perform g).2 =
      ⟨{ g.session with script := op.run.after g.session.script }, g.world⟩ := by
  rw [perform, Session.onScript, Rendering.after]
  rcases op.run g.session.script with ⟨value, script⟩ | ⟨fault, script⟩ <;> rfl

/-- A check leaves the script behind that building its query leaves behind. -/
theorem perform_check (backend : Backend σ) (terms : List Term) (g : Stage σ) :
    ((Operation.check backend terms).perform g).2.session.script =
      (Script.Operation.query terms).run.after g.session.script := by
  simp only [perform, Script.Operation.run, Rendering.after, bind, EStateM.bind]
  rcases hquery : query terms g.session.script with ⟨text, script⟩ | ⟨fault, script⟩
  · -- Neither the consultation nor the log touches the script.
    rw [check_of_query backend terms g.world g.session text script hquery]
    simp only [Session.log]
    split <;> rfl
  · rw [check_of_fault backend terms g.world g.session fault script hquery]

/-- To the script, an operation is at most one operation on it. -/
theorem perform_script (op : Operation σ) (g : Stage σ) :
    (op.perform g).2.session.script =
      Script.afterAll op.onScript?.toList g.session.script := by
  cases op with
  | onScript op => exact (perform_onScript op g).1
  | enable backends => rfl
  | check backend terms => exact perform_check backend terms g

/-- And its events are those of this operation. -/
theorem events_eq (op : Operation σ) (g : Stage σ) :
    op.events g = Script.history op.onScript?.toList g.session.script := by
  cases op with
  | enable backends => rfl
  | check backend terms =>
      simp only [events, perform_check]
      rfl
  | onScript op =>
      have hscript := (perform_onScript op g).1
      cases op with
      | openScope => rfl
      | startOver => rfl
      | closeScope =>
          rw [events, (perform_onScript .closeScope g).2]
          exact (List.append_nil _).symm
      | _ =>
        simp only [events, hscript]
        rfl

end Operation

/-- To the script, a run is a run of operations on it. -/
theorem script_afterAll (ops : List (Operation σ)) (g : Stage σ) :
    (afterAll ops g).session.script =
      Script.afterAll (ops.filterMap Operation.onScript?) g.session.script := by
  induction ops generalizing g with
  | nil => rfl
  | cons op ops ih =>
      rw [afterAll, ih, op.perform_script]
      -- Operations that are none on the script drop out of the run.
      rcases hop : op.onScript? with _ | o
      · rw [List.filterMap_cons_none hop]
        rfl
      · rw [List.filterMap_cons_some hop]
        rfl

/-- So is its history. -/
theorem history_eq (ops : List (Operation σ)) (g : Stage σ) :
    history ops g = Script.history (ops.filterMap Operation.onScript?) g.session.script := by
  induction ops generalizing g with
  | nil => rfl
  | cons op ops ih =>
      rw [history, ih, op.events_eq, op.perform_script]
      rcases hop : op.onScript? with _ | o
      · rw [List.filterMap_cons_none hop]
        rfl
      · rw [List.filterMap_cons_some hop]
        exact congrArg (· ++ _) (List.append_nil _)

/-- What is remembered about sorts is right at every time. -/
theorem consistent_afterAll (timeout : Option WritableInt) (backends : List String) (world : σ)
    (ops : List (Operation σ)) :
    (afterAll ops ⟨.start timeout backends, world⟩).session.script.Consistent := by
  rw [script_afterAll]
  exact Script.consistent_afterAll (Script.consistent_start timeout) _

/-- Closing the outermost scope faults and changes nothing. -/
theorem closeScope_outermost (g : Stage σ) (hdepth : g.depth = 1) :
    (Operation.onScript .closeScope).perform g = (some .outermostScope, g) := by
  have hpop : g.session.script.scopes.pop? = none :=
    (Scopes.pop?_eq_none_iff _).mpr hdepth
  rw [Operation.perform, Session.onScript, Script.Operation.run, closeScope_eq, hpop]

/-- Any other scope can be closed. -/
theorem closeScope_inner (g : Stage σ) (scopes : Scopes)
    (hpop : g.session.script.scopes.pop? = some scopes) :
    (Operation.onScript .closeScope).perform g =
      (none, { g with session :=
        { g.session with script := { g.session.script with scopes } } }) := by
  rw [Operation.perform, Session.onScript, Script.Operation.run, closeScope_eq, hpop]

/-- An operation that leaves the scopes alone appends to the text. -/
theorem text_perform (op : Operation σ) (hop : op.Writes) (g : Stage σ)
    (hg : g.session.script.Consistent) :
    (op.perform g).2.text =
      g.text ++ g.session.script.added (op.perform g).2.session.script := by
  rw [Stage.text, Stage.text, op.perform_script]
  rcases honScript : op.onScript? with _ | o
  · -- Nothing is done to the script, so nothing is added.
    have hsame : g.session.script.Appended "" g.session.script :=
      ⟨rfl, rfl, String.append_empty.symm⟩
    simpa only [Option.toList, Script.afterAll, hsame.added_eq] using hsame.text_eq
  · exact (o.appended hg (hop o honScript)).text_eq

/-- Closing a scope undoes everything since it was opened, provided that no
    operation in between closed it. -/
theorem closeScope_restores (g : Stage σ) (hg : g.session.script.Consistent)
    (during : List (Operation σ))
    (habove : ∀ before, before <+: during →
      g.depth < (afterAll (.onScript .openScope :: before) g).depth)
    (hdepth : (afterAll (.onScript .openScope :: during) g).depth = g.depth + 1) :
    let closed := (Operation.onScript .closeScope).perform
      (afterAll (.onScript .openScope :: during) g)
    closed.1 = none ∧ closed.2.text = g.text ∧ closed.2.depth = g.depth := by
  have hscript (ops : List (Operation σ)) :
      (afterAll (.onScript .openScope :: ops) g).session.script =
        Script.afterAll (.openScope :: ops.filterMap Operation.onScript?) g.session.script :=
    script_afterAll (.onScript .openScope :: ops) g
  have hpop := Script.scopes_restored hg (during.filterMap Operation.onScript?)
    (fun before hbefore => by
      -- A part of the operations on the script comes from a part of the run.
      obtain ⟨before', hbefore', rfl⟩ := List.prefix_filterMap_iff.mp hbefore
      have h := habove before' hbefore'
      rwa [Stage.depth, Stage.depth, hscript] at h)
    (by rwa [Stage.depth, Stage.depth, hscript] at hdepth)
  rw [← hscript] at hpop
  simp only [closeScope_inner _ _ hpop]
  exact ⟨trivial, rfl, rfl⟩

/-- The law of scopes. At every time of a run the text is the preamble and
    what remains of the history, and as many scopes are open as it left open.
    Operations append their text at its end, but for those on scopes: closing
    the outermost scope faults and changes nothing, and closing another one
    takes the text back to what it was when the scope was opened. -/
theorem text_follows_history (timeout : Option WritableInt) (backends : List String) (world : σ)
    (ops : List (Operation σ)) :
    let now := afterAll ops ⟨.start timeout backends, world⟩
    let past := (history ops ⟨.start timeout backends, world⟩).reverse
    now.text = Script.lines (Script.preamble timeout) ++ String.join (Script.remaining 0 past) ∧
      now.depth = 1 + Script.unclosed 0 past ∧
      (∀ op : Operation σ, op.Writes →
        (op.perform now).2.text =
          now.text ++ now.session.script.added (op.perform now).2.session.script) ∧
      (now.depth = 1 →
        (Operation.onScript .closeScope).perform now = (some .outermostScope, now)) ∧
      ∀ during : List (Operation σ),
        (∀ before, before <+: during →
          now.depth < (afterAll (.onScript .openScope :: before) now).depth) →
        (afterAll (.onScript .openScope :: during) now).depth = now.depth + 1 →
        let closed := (Operation.onScript .closeScope).perform
          (afterAll (.onScript .openScope :: during) now)
        closed.1 = none ∧ closed.2.text = now.text ∧ closed.2.depth = now.depth := by
  have hnow := consistent_afterAll timeout backends world ops
  refine ⟨?_, ?_, fun op hop => text_perform op hop _ hnow, closeScope_outermost _,
    closeScope_restores _ hnow⟩
  · rw [history_eq, Stage.text, script_afterAll]
    exact Script.text_afterAll timeout _
  · rw [history_eq, Stage.depth, script_afterAll]
    exact Script.depth_afterAll timeout _

/-- A scope with another one inside is closed again. -/
theorem text_follows_history_nested :
    let now : Stage Unit := ⟨.start none [], ()⟩
    let during : List (Operation Unit) :=
      [.onScript .openScope, .onScript (.writeLine "(exit)"), .onScript .closeScope]
    let closed := (Operation.onScript .closeScope).perform
      (afterAll (.onScript .openScope :: during) now)
    closed.1 = none ∧ closed.2.text = now.text ∧ closed.2.depth = now.depth := by
  refine (text_follows_history none [] () []).2.2.2.2 _ (fun before hbefore => ?_) rfl
  simp only [List.prefix_cons_iff, List.prefix_nil] at hbefore
  rcases hbefore with rfl | ⟨_, rfl, rfl | ⟨_, rfl, rfl | ⟨_, rfl, rfl⟩⟩⟩ <;> decide

end Session

end SmtSession
