import SmtSession.Proofs.Script.Operation

/-!
# History

How the text of a script follows from what was done to it. A script keeps a
stack of buffers and forgets the innermost one when its scope is closed. The
law here does not mention the stack: it looks at the list of everything that
happened and tells which of it is still there.

Whether something is still there depends on what came later, so `remaining`
reads the history backwards. On the way it counts the closings whose opening
it has not come across yet. While there are any, what it reads was written
in a scope that has been closed since; an opening takes one off the count; and
where the script was started over, there is nothing more to read.

The same count is what makes the induction go through. A closing exposes a
scope that has been covered for an arbitrarily long time, so it is not enough
to know what the text is: the invariant `Script.Reflects` says for every
number of pending closings what the text would be after as many closings.

## Main definitions

* `Script.Event`: What an operation does to the text.
* `Script.remaining`: What was written in scopes that were not closed.
* `Script.unclosed`: The number of scopes that were not closed.
* `Script.history`: The events of a list of operations.
* `Script.Reflects`: A script and all the scripts that closings would expose
  are what the history makes them.

## Theorems

* `Script.remaining_map`: What remains does not depend on how contents are presented.
* `Script.Operation.appended`: Operations but those on scopes only append.
* `Script.reflects_afterAll`: The invariant holds after all operations.
* `Script.text_afterAll`, `Script.depth_afterAll`: The text and the depth of a
  script.
* `Script.scopes_restored`: Closing a scope undoes everything since it was
  opened.
-/

namespace SmtSession

namespace Script

/-- What an operation does to the text of a script. -/
inductive Event (α : Type) where
  | wrote (content : α)
  | opened
  | closed
  | startedOver

/-- The same event with its content presented differently. -/
def Event.map {α β : Type} (f : α → β) : Event α → Event β
  | .wrote content => .wrote (f content)
  | .opened => .opened
  | .closed => .closed
  | .startedOver => .startedOver

/-- What was written since the last start in scopes that were not closed, in
    order. The history is given backwards, the latest event first, and some
    closings are `pending`: their openings are yet to come. -/
def remaining {α : Type} : Nat → List (Event α) → List α
  | _, [] => []
  -- Nothing outlives a new start, not even the scopes around it.
  | _, .startedOver :: _ => []
  | pending, .closed :: past => remaining (pending + 1) past
  -- Without pending closings this scope is still open.
  | 0, .opened :: past => remaining 0 past
  | pending + 1, .opened :: past => remaining pending past
  | 0, .wrote content :: past => remaining 0 past ++ [content]
  -- This was written in a scope that has been closed since.
  | pending + 1, .wrote _ :: past => remaining (pending + 1) past

/-- The number of scopes that were opened since the last start and not closed,
    for a history that is given backwards. -/
def unclosed {α : Type} : Nat → List (Event α) → Nat
  | _, [] => 0
  | _, .startedOver :: _ => 0
  | pending, .closed :: past => unclosed (pending + 1) past
  | 0, .opened :: past => unclosed 0 past + 1
  | pending + 1, .opened :: past => unclosed pending past
  | pending, .wrote _ :: past => unclosed pending past

/-- What remains does not depend on how contents are presented. -/
theorem remaining_map {α β : Type} (f : α → β) (pending : Nat) (past : List (Event α)) :
    remaining pending (past.map (Event.map f)) = (remaining pending past).map f := by
  induction past generalizing pending with
  | nil => rfl
  | cons event past ih =>
      cases event with
      | startedOver => rfl
      | closed => exact ih (pending + 1)
      | opened =>
          cases pending with
          | zero => exact ih 0
          | succ pending => exact ih pending
      | wrote content =>
          cases pending with
          | zero => simp only [List.map_cons, Event.map, remaining, ih, List.map_append,
              List.map_nil]
          | succ pending => exact ih (pending + 1)

/-- The text that one script has and another, earlier one has not. -/
def added (s t : Script) : String := String.ofList (t.text.toList.drop s.text.length)

theorem Appended.added_eq {s t : Script} {text : String} (h : s.Appended text t) :
    s.added t = text := by
  rw [added, h.text_eq, String.toList_append, ← String.length_toList, List.drop_left,
    String.ofList_toList]

namespace Operation

/-- The operations that leave the scopes alone. -/
def Writes : Operation → Prop
  | .openScope | .closeScope | .startOver => False
  | _ => True

/-- What an operation does to the text of a script. -/
def events (s : Script) : Operation → List (Event String)
  | .openScope => [.opened]
  | .closeScope => if Rendering.faults SmtSession.closeScope s then [] else [.closed]
  | .startOver => [.startedOver]
  | op => [.wrote (s.added (op.run.after s))]

theorem events_of_writes (s : Script) (op : Operation) (hop : op.Writes) :
    op.events s = [.wrote (s.added (op.run.after s))] := by
  cases op with
  | openScope => exact hop.elim
  | closeScope => exact hop.elim
  | startOver => exact hop.elim
  | _ => rfl

/-- An operation that leaves the scopes alone appends to the innermost one,
    whether it faults or not. -/
theorem appended {s : Script} (hs : s.Consistent) (op : Operation) (hop : op.Writes) :
    s.Appended (s.added (op.run.after s)) (op.run.after s) := by
  have hsome : ∃ text, s.Appended text (op.run.after s) := by
    by_cases hspeaks : op.Speaks
    · obtain ⟨ds, -, -, -, happended⟩ := (records hs op hspeaks).adds
      exact ⟨_, happended⟩
    · -- Only a raw line writes anything but commands.
      cases op with
      | writeLine line => exact ⟨line ++ "\n", rfl, rfl, String.append_assoc⟩
      | openScope => exact hop.elim
      | closeScope => exact hop.elim
      | startOver => exact hop.elim
      | _ => exact absurd trivial hspeaks
  obtain ⟨text, happended⟩ := hsome
  rwa [happended.added_eq]

end Operation

/-- What operations do to the text of a script, one after the other. -/
def history : List Operation → Script → List (Event String)
  | [], _ => []
  | op :: ops, s => op.events s ++ history ops (op.run.after s)

/-- The text of a script after some of its scopes are closed. -/
def textBelow (s : Script) : Nat → String
  | 0 => s.text
  | closings + 1 => Scopes.enclosingText (s.scopes.outer.drop closings)

/-- After each number of closings that a script permits, its text and the number
    of its scopes are what the history makes them. -/
structure Reflects (timeout : Option WritableInt) (past : List (Event String)) (s : Script) :
    Prop where
  timeout_eq : s.timeout = timeout
  depth_eq : ∀ k ≤ s.scopes.outer.length, unclosed k past + k = s.scopes.outer.length
  text_eq : ∀ k ≤ s.scopes.outer.length,
    s.textBelow k = lines (preamble timeout) ++ String.join (remaining k past)

theorem start_scopes (timeout : Option WritableInt) :
    (start timeout).scopes = ⟨lines (preamble timeout), []⟩ := by
  cases timeout <;>
    simp [start, preamble, lines, write, Scopes.write, Scopes.empty, String.append_assoc]

theorem start_timeout (timeout : Option WritableInt) : (start timeout).timeout = timeout := by
  cases timeout <;> rfl

theorem reflects_start (timeout : Option WritableInt) (past : List (Event String))
    (hremaining : remaining 0 past = []) (hunclosed : unclosed 0 past = 0) :
    (start timeout).Reflects timeout past where
  timeout_eq := start_timeout timeout
  depth_eq k hk := by
    rw [start_scopes] at hk ⊢
    obtain rfl : k = 0 := Nat.le_zero.mp hk
    exact hunclosed
  text_eq k hk := by
    rw [start_scopes] at hk
    obtain rfl : k = 0 := Nat.le_zero.mp hk
    rw [hremaining, textBelow, text, start_scopes]
    simp [Scopes.text, Scopes.enclosingText]

theorem Reflects.wrote {timeout : Option WritableInt} {past : List (Event String)} {s t : Script}
    {text : String} (h : s.Reflects timeout past) (ht : s.Appended text t) :
    t.Reflects timeout (.wrote text :: past) where
  timeout_eq := ht.timeout.trans h.timeout_eq
  depth_eq k hk := by
    rw [ht.outer] at hk ⊢
    exact h.depth_eq k hk
  text_eq k hk := by
    rw [ht.outer] at hk
    have hbelow := h.text_eq k hk
    cases k with
    | zero =>
        -- No closing is pending, so the text is at the end of what remains.
        rw [textBelow] at hbelow ⊢
        rw [ht.text_eq, hbelow, remaining, String.join_append, String.append_assoc]
        simp
    | succ k =>
        -- The first closing forgets the innermost scope with all its text.
        rwa [textBelow, ht.outer]

theorem Reflects.opened {timeout : Option WritableInt} {past : List (Event String)} {s : Script}
    (h : s.Reflects timeout past) :
    ({ s with scopes := s.scopes.push } : Script).Reflects timeout (.opened :: past) where
  timeout_eq := h.timeout_eq
  depth_eq k hk := by
    cases k with
    | zero => exact congrArg (· + 1) (h.depth_eq 0 (Nat.zero_le _))
    | succ k => exact congrArg (· + 1) (h.depth_eq k (Nat.le_of_succ_le_succ hk))
  text_eq k hk := by
    cases k with
    | zero =>
        have hbelow := h.text_eq 0 (Nat.zero_le _)
        rwa [textBelow, Script.text, Scopes.text_push]
    | succ k =>
        have hbelow := h.text_eq k (Nat.le_of_succ_le_succ hk)
        -- The scope that was the innermost one is now the first enclosing one.
        cases k with
        | zero => exact hbelow
        | succ k => exact hbelow

theorem Reflects.closed {timeout : Option WritableInt} {past : List (Event String)} {s : Script}
    {enclosing : String} {rest : List String} (h : s.Reflects timeout past)
    (houter : s.scopes.outer = enclosing :: rest) :
    ({ s with scopes := ⟨enclosing, rest⟩ } : Script).Reflects timeout (.closed :: past) where
  timeout_eq := h.timeout_eq
  depth_eq k hk := by
    have hdepth := h.depth_eq (k + 1) (by rw [houter]; exact Nat.succ_le_succ hk)
    rw [houter] at hdepth
    -- The scope that was closed accounts for one closing.
    exact Nat.succ.inj hdepth
  text_eq k hk := by
    have hbelow := h.text_eq (k + 1) (by rw [houter]; exact Nat.succ_le_succ hk)
    rw [textBelow, houter] at hbelow
    cases k with
    | zero => exact hbelow
    | succ k => exact hbelow

/-- One operation takes the invariant to its own event. -/
theorem reflects_after {timeout : Option WritableInt} {past : List (Event String)} {s : Script}
    (hs : s.Consistent) (h : s.Reflects timeout past) (op : Operation) :
    (op.run.after s).Reflects timeout ((op.events s).reverse ++ past) := by
  by_cases hop : op.Writes
  · -- All that an operation does to scopes is to write into the innermost one.
    rw [op.events_of_writes s hop]
    exact h.wrote (op.appended hs hop)
  cases op with
  | openScope => exact h.opened
  | closeScope =>
      rw [Operation.run, Operation.events, Rendering.after, Rendering.faults, closeScope_eq]
      rcases houter : s.scopes.outer with _ | ⟨enclosing, rest⟩
      · -- The outermost scope stays, and nothing happened.
        have hpop : s.scopes.pop? = none := by rw [Scopes.pop?, houter]
        rw [hpop]
        exact h
      · have hpop : s.scopes.pop? = some ⟨enclosing, rest⟩ := by rw [Scopes.pop?, houter]
        rw [hpop]
        exact h.closed houter
  | startOver =>
      have hstart : (start s.timeout).Reflects timeout (.startedOver :: past) := by
        rw [h.timeout_eq]
        exact reflects_start timeout _ rfl rfl
      exact hstart
  | _ => exact absurd trivial hop

theorem consistent_afterAll {s : Script} (hs : s.Consistent) (ops : List Operation) :
    (afterAll ops s).Consistent := by
  induction ops generalizing s with
  | nil => exact hs
  | cons op ops ih => exact ih (op.consistent hs)

/-- All operations take the invariant to the whole history. -/
theorem reflects_afterAll {timeout : Option WritableInt} {past : List (Event String)} {s : Script}
    (hs : s.Consistent) (h : s.Reflects timeout past) (ops : List Operation) :
    (afterAll ops s).Reflects timeout ((history ops s).reverse ++ past) := by
  induction ops generalizing s past with
  | nil => exact h
  | cons op ops ih =>
      rw [history, List.reverse_append, List.append_assoc]
      exact ih (op.consistent hs) (reflects_after hs h op)

/-- A script from its start on is what its history makes it. -/
theorem reflects_history (timeout : Option WritableInt) (ops : List Operation) :
    (afterAll ops (start timeout)).Reflects timeout (history ops (start timeout)).reverse := by
  have h := reflects_afterAll (consistent_start timeout) (reflects_start timeout [] rfl rfl) ops
  rwa [List.append_nil] at h

/-- The text of a script is the preamble and what remains of its history. -/
theorem text_afterAll (timeout : Option WritableInt) (ops : List Operation) :
    (afterAll ops (start timeout)).text =
      lines (preamble timeout)
        ++ String.join (remaining 0 (history ops (start timeout)).reverse) :=
  (reflects_history timeout ops).text_eq 0 (Nat.zero_le _)

/-- A script has the outermost scope and those that its history left open. -/
theorem depth_afterAll (timeout : Option WritableInt) (ops : List Operation) :
    (afterAll ops (start timeout)).depth =
      1 + unclosed 0 (history ops (start timeout)).reverse := by
  have h := (reflects_history timeout ops).depth_eq 0 (Nat.zero_le _)
  rw [depth, Scopes.depth, ← h, Nat.add_zero, Nat.add_comm]

/-- Enclosing scopes stay as they are while they stay enclosed. -/
theorem outer_after {s : Script} (hs : s.Consistent) (op : Operation) (kept : List String)
    (hkept : kept <:+ s.scopes.outer)
    (hlength : kept.length ≤ (op.run.after s).scopes.outer.length) :
    kept <:+ (op.run.after s).scopes.outer := by
  by_cases hop : op.Writes
  · rwa [(op.appended hs hop).outer]
  cases op with
  | openScope => exact hkept.trans (List.suffix_cons _ _)
  | closeScope =>
      rw [Operation.run, Rendering.after, closeScope_eq] at hlength ⊢
      rcases houter : s.scopes.outer with _ | ⟨enclosing, rest⟩
      · have hpop : s.scopes.pop? = none := by rw [Scopes.pop?, houter]
        rwa [hpop]
      · have hpop : s.scopes.pop? = some ⟨enclosing, rest⟩ := by rw [Scopes.pop?, houter]
        rw [hpop] at hlength ⊢
        rw [houter] at hkept
        -- The scope that is closed is none of those that are kept.
        rcases List.suffix_cons_iff.mp hkept with rfl | hrest
        · exact absurd hlength (Nat.not_succ_le_self _)
        · exact hrest
  | startOver =>
      have hnil : ((Operation.startOver.run).after s).scopes.outer = [] :=
        congrArg Scopes.outer (start_scopes s.timeout)
      -- No scope survives a new start, so none was to be kept.
      rw [hnil] at hlength ⊢
      obtain rfl := List.length_eq_zero_iff.mp (Nat.le_zero.mp hlength)
      exact List.nil_suffix
  | _ => exact absurd trivial hop

theorem outer_afterAll {s : Script} (hs : s.Consistent) (ops : List Operation)
    (kept : List String) (hkept : kept <:+ s.scopes.outer)
    (hlength : ∀ before, before <+: ops →
      kept.length ≤ (afterAll before s).scopes.outer.length) :
    kept <:+ (afterAll ops s).scopes.outer := by
  induction ops generalizing s with
  | nil => exact hkept
  | cons op ops ih =>
      have hfirst : [op] <+: op :: ops := ⟨ops, rfl⟩
      refine ih (op.consistent hs) (outer_after hs op kept hkept (hlength _ hfirst))
        fun before hbefore => ?_
      exact hlength (op :: before) (List.cons_prefix_cons.mpr ⟨rfl, hbefore⟩)

/-- Closing a scope undoes everything since it was opened, provided that no
    operation in between closed it. -/
theorem scopes_restored {s : Script} (hs : s.Consistent) (ops : List Operation)
    (habove : ∀ before, before <+: ops →
      s.depth < (afterAll (.openScope :: before) s).depth)
    (hdepth : (afterAll (.openScope :: ops) s).depth = s.depth + 1) :
    (afterAll (.openScope :: ops) s).scopes.pop? = some s.scopes := by
  have hsuffix : s.scopes.inner :: s.scopes.outer <:+
      (afterAll (.openScope :: ops) s).scopes.outer := by
    refine outer_afterAll (Operation.openScope.consistent hs) ops _ (List.suffix_refl _)
      fun before hbefore => ?_
    exact Nat.le_of_succ_le_succ (habove before hbefore)
  -- No scope has been opened on top of these in the end.
  have houter := hsuffix.eq_of_length (Nat.succ.inj hdepth).symm
  rw [Scopes.pop?, ← houter]

end Script

end SmtSession
