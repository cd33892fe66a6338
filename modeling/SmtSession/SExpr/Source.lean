import SmtSession.Fault

/-!
# Character Sources

Where a reader gets its characters from. A source answers each request for a
character with a character, with the end of its input, or with a failure. A
failure takes nothing from the input, and neither does an end: a source that
has answered with its end may go on to answer with characters, if somebody
asks.

What a source will answer is a list of events. After the last of them the
input is at its end for good.

## Main definitions

* `SourceFailure`: How a request for a character can fail.
* `Event`: The answer of a source to a request.
* `Source`: The answers to come, with a count of requests and characters.
* `Source.read`: Ask for a character.
* `Source.ofText`: The source that answers with the characters of a text.
* `Source.disturbed`: A text with failures and ends at given requests.
-/

namespace SmtSession

/-- How a request for a character can fail. -/
inductive SourceFailure where
  /-- The medium fails. -/
  | medium (message : String)
  /-- The source is in no state to be read, because it is closed for instance. -/
  | state (message : String)
  /-- Anything else; a reader does not know what to make of it. -/
  | other (message : String)
deriving Repr, DecidableEq

/-- What a reader reports when its source fails. -/
def SourceFailure.fault : SourceFailure → Fault
  | .medium message => .unreadable message
  | .state message => .unreadable message
  | .other message => .foreign message

/-- The answer of a source to a request. -/
inductive Event where
  | char (c : Char)
  | finish
  | failure (cause : SourceFailure)
deriving Repr, DecidableEq

/-- The answers to come, the number of requests made, and the number of
    characters handed out. -/
structure Source where
  events : List Event
  reads : Nat
  consumed : Nat
deriving Repr, DecidableEq

namespace Source

/-- A source that nobody has asked yet. -/
def ofEvents (events : List Event) : Source := ⟨events, 0, 0⟩

/-- The source that answers with the characters of a text. -/
def ofText (text : String) : Source := ofEvents (text.toList.map .char)

/-- Ask for a character: nothing at the end of the input. -/
def read (s : Source) : Except SourceFailure (Option Char) × Source :=
  match s.events with
  | [] => (.ok none, { s with reads := s.reads + 1 })
  | .char c :: events => (.ok (some c), ⟨events, s.reads + 1, s.consumed + 1⟩)
  | .finish :: events => (.ok none, ⟨events, s.reads + 1, s.consumed⟩)
  | .failure cause :: events => (.error cause, ⟨events, s.reads + 1, s.consumed⟩)

/-- The events of a text that is disturbed at given requests: the disturbance
    that is due at a request takes the place of the character, which comes with
    the next undisturbed request. `request` is the number of the first request
    and `remaining` the number of requests to list. -/
def disturbedEvents (disturbance : Nat → Option Event) :
    (remaining request : Nat) → List Char → List Event
  | 0, _, _ => []
  | remaining + 1, request, cs =>
    match disturbance request, cs with
    | some event, cs => event :: disturbedEvents disturbance remaining (request + 1) cs
    | none, c :: cs => .char c :: disturbedEvents disturbance remaining (request + 1) cs
    | none, [] => .finish :: disturbedEvents disturbance remaining (request + 1) []

/-- The source of a text with failures and ends at given requests, which are
    counted from one. A failure and an end due at the same request make a
    failure. A reader stops asking at the first end it meets, so when it is
    known how many readers there will be, only so many requests need listing. -/
def disturbed (text : String) (failures : List (Nat × SourceFailure)) (ends : List Nat)
    (readers : Nat) : Source :=
  let disturbance (request : Nat) : Option Event :=
    match failures.lookup request with
    | some cause => some (.failure cause)
    | none => if ends.contains request then some .finish else none
  let characters := text.toList
  let requests := characters.length + failures.length + readers
  ofEvents (disturbedEvents disturbance requests 1 characters)

end Source

end SmtSession
