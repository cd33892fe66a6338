import SmtSession.Proofs.SExpr.Requests

/-!
# Readers that Share a Source

Readers are set up on a source one after the other, and then they are called in
any order. Each of them knows for itself which character it holds and whether
it met the end. The source is the same for all, and a character that one
reader asked for is gone for the others.

A `Desk` is a source with the places of its readers, which have the numbers in
which they were set up. A reader is set up by its first request, and when this
request fails there is no reader. The failure of any other call leaves the
reader where the operation was abandoned, ready to be called again.

What the operations of a reader ask for is known, and from this it is known
what a call asks for, whatever the other readers did before. The runs of calls
that the laws about the end and about failures speak of are put together from
single calls.

## Main definitions

* `Place`: A reader without its source.
* `Call`, `Answer`: What readers are called for, and what calls return.
* `Desk`: A source with the places of its readers.
* `Desk.perform`, `Desk.afterAll`: The desk after a call, and after some calls.
* `Desk.Asks`: The requests of a call, which are all it depends on.

## Theorems

* `Desk.asks_perform`: A call makes its requests and depends on nothing else.
* `Desk.settled_perform`: A call leaves settled readers.
* `Desk.perform_ne_pastEnd`: No call asks for characters behind the end.
* `Desk.source_afterAll`: Only requests change the source.
-/

namespace SmtSession

/-- Where a reader is, apart from its source: whether the end was met, and the
    character held. -/
structure Place where
  exhausted : Bool
  current : Option Char
deriving Repr, DecidableEq

/-- The reader at a place on a source. -/
def Place.on (place : Place) (source : Source) : Reader :=
  ⟨source, place.exhausted, place.current⟩

/-- The place of a reader that met the end. -/
def Place.finished : Place := ⟨true, none⟩

/-- Where a reader is. -/
def Reader.place (r : Reader) : Place := ⟨r.exhausted, r.current⟩

/-- What readers that share a source are called for: to set one more up, or for
    a tree, or to know whether the input is at its end. -/
inductive Call where
  | start
  | tree (i : Nat)
  | atEnd (i : Nat)
deriving Repr, DecidableEq

/-- What a call returns. -/
inductive Answer where
  | started
  | tree (t : SExpr)
  | atEnd (ended : Bool)
  /-- There is no such reader. -/
  | absent
deriving Repr, DecidableEq

/-- A source and the places of the readers that were set up on it. -/
structure Desk where
  source : Source
  places : List Place
deriving Repr, DecidableEq

namespace Call

/-- What a call does with its reader. -/
def operation : Call → Reader → Reader.Result Answer
  | start, r => r.advance.reporting fun _ => .started
  | tree _, r => r.readTree.reporting .tree
  | atEnd _, r => r.atEnd.reporting .atEnd

end Call

/-- The answer of a result. -/
def Reader.Result.answer {α : Type} : Reader.Result α → Except Fault α
  | .ok a _ => .ok a
  | .error fault _ => .error fault

namespace Desk

/-- A source that nobody reads yet. -/
def on (source : Source) : Desk := ⟨source, []⟩

/-- Where the reader of a call is. A reader that is set up holds nothing. -/
def place? (d : Desk) : Call → Option Place
  | .start => some ⟨false, none⟩
  | .tree i => d.places[i]?
  | .atEnd i => d.places[i]?

/-- The number of the reader of a call. -/
def number (d : Desk) : Call → Nat
  | .start => d.places.length
  | .tree i => i
  | .atEnd i => i

/-- The places after a call. What fails to be set up is no reader. -/
def placesAfter (d : Desk) : Call → Reader.Result Answer → List Place
  | .start, .ok _ r => d.places ++ [r.place]
  | .start, .error _ _ => d.places
  | .tree i, x => d.places.set i x.left.place
  | .atEnd i, x => d.places.set i x.left.place

/-- The result of a call, and the desk after it. -/
def perform (d : Desk) (call : Call) : Except Fault Answer × Desk :=
  match d.place? call with
  | none => (.ok .absent, d)
  | some place =>
    let x := call.operation (place.on d.source)
    (x.answer, ⟨x.left.source, d.placesAfter call x⟩)

/-- The desk after some calls. -/
def afterAll (calls : List Call) (d : Desk) : Desk :=
  calls.foldl (fun d call => (d.perform call).2) d

/-! ## One Call -/

/-- All readers have met the end exactly if they hold no character. -/
def Settled (d : Desk) : Prop := ∀ place ∈ d.places, ∀ source, (place.on source).Settled

theorem settled_on (source : Source) : (on source).Settled := by
  intro place hplace
  cases hplace

/-- Where the reader of a call is has nothing to do with the source. -/
@[simp] theorem place?_source (d : Desk) (s : Source) (call : Call) :
    ({ d with source := s } : Desk).place? call = d.place? call := by
  cases call <;> rfl

theorem perform_of_none {d : Desk} {call : Call} (h : d.place? call = none) :
    d.perform call = (.ok .absent, d) := by
  rw [perform, h]

theorem perform_of_some {d : Desk} {call : Call} {place : Place} (h : d.place? call = some place) :
    d.perform call = ((call.operation (place.on d.source)).answer,
      ⟨(call.operation (place.on d.source)).left.source,
        d.placesAfter call (call.operation (place.on d.source))⟩) := by
  rw [perform, h]

/-- A call makes its requests and depends on nothing else. -/
theorem asks_operation {d : Desk} {call : Call} {place : Place} (hd : d.Settled)
    (h : d.place? call = some place) : ∃ n, Reader.Asks call.operation (place.on d.source) n := by
  cases call with
  | start =>
      cases h
      exact Reader.asks_map (fun s => Reader.reporting_eq _ _) (Reader.asks_advance rfl)
  | tree i =>
      exact Reader.asks_map (fun s => Reader.reporting_eq _ _)
        (Reader.asks_readTree (hd place (List.mem_of_getElem? h) _))
  | atEnd i =>
      exact Reader.asks_map (fun s => Reader.reporting_eq _ _)
        (Reader.asks_atEnd (hd place (List.mem_of_getElem? h) _))

/-- How the answers of the source show in a call. -/
inductive Ends (d : Desk) (call : Call) : List Event → Prop
  | going (cs : List Char) : Ends d call (cs.map .char)
  | met (cs : List Char) (hplace : (d.perform call).2.places[d.number call]? = some .finished) :
      Ends d call (cs.map .char ++ [.finish])
  | failed (cs : List Char) (cause : SourceFailure)
      (hresult : (d.perform call).1 = .error cause.fault)
      (hopen : ∀ place, d.place? call = some place → place.exhausted = false)
      (hexhausted : (d.perform call).2.places.map Place.exhausted =
        d.places.map Place.exhausted) :
      Ends d call (cs.map .char ++ [.failure cause])

/-- A call makes a number of requests and depends on nothing but the answers to
    them. -/
structure Asks (d : Desk) (call : Call) (n : Nat) : Prop where
  source : (d.perform call).2.source = d.source.later n
  ends : d.Ends call (d.source.answered n)
  depends : ∀ s, s.answered n = d.source.answered n →
    { d with source := s }.perform call =
      ((d.perform call).1, { (d.perform call).2 with source := s.later n })

theorem placesAfter_onto (d : Desk) (call : Call) (x : Reader.Result Answer) (s : Source) :
    d.placesAfter call (x.onto s) = d.placesAfter call x := by
  cases call <;> cases x <;> rfl

/-- The reader of a call is where its result left it. -/
theorem placesAfter_number {d : Desk} {call : Call} {place : Place} {x : Reader.Result Answer}
    (h : d.place? call = some place) (hstart : call = .start → ∃ answer r, x = .ok answer r) :
    (d.placesAfter call x)[d.number call]? = some x.left.place := by
  cases call with
  | start =>
      rcases hstart rfl with ⟨answer, r, rfl⟩
      simp [placesAfter, number, Reader.Result.left]
  | tree i =>
      have hi := (List.getElem?_eq_some_iff.mp h).1
      simp [placesAfter, number, hi]
  | atEnd i =>
      have hi := (List.getElem?_eq_some_iff.mp h).1
      simp [placesAfter, number, hi]

theorem set_of_getElem? {α : Type} {as : List α} {i : Nat} {a : α} (h : as[i]? = some a) :
    as.set i a = as := by
  rcases List.getElem?_eq_some_iff.mp h with ⟨hi, rfl⟩
  exact List.set_getElem_self hi

theorem exhausted_placesAfter {d : Desk} {call : Call} {place : Place} {fault : Fault} {r : Reader}
    (h : d.place? call = some place) (hr : r.exhausted = place.exhausted) :
    (d.placesAfter call (.error fault r)).map Place.exhausted = d.places.map Place.exhausted := by
  have hset (i : Nat) (hi : d.places[i]? = some place) :
      (d.places.set i r.place).map Place.exhausted = d.places.map Place.exhausted := by
    have hflag : (d.places.map Place.exhausted)[i]? = some r.exhausted := by
      rw [List.getElem?_map, hi, hr]
      rfl
    rw [List.map_set]
    exact set_of_getElem? hflag
  cases call with
  | start => rfl
  | tree i => exact hset i h
  | atEnd i => exact hset i h

/-- A reader that is set up has no parentheses to complain about. -/
theorem exists_ok_of_start (call : Call) (r : Reader) (hcall : call = .start)
    (h : (call.operation r).Blameless) : ∃ answer r', call.operation r = .ok answer r' := by
  subst hcall
  rw [Call.operation] at h ⊢
  cases hadvance : r.advance with
  | ok _ r' => exact ⟨_, _, rfl⟩
  | error fault r' =>
      rw [hadvance] at h
      exact absurd h (Reader.advance_ne_unbalanced hadvance)

theorem ends_perform {d : Desk} {call : Call} {place : Place} {es : List Event}
    (h : d.place? call = some place)
    (hends : Reader.Ends (place.on d.source) es (call.operation (place.on d.source))) :
    d.Ends call es := by
  have hperform := perform_of_some h
  have hstart := exists_ok_of_start call (place.on d.source)
  generalize call.operation (place.on d.source) = x at hends hperform hstart
  cases hends with
  | going cs hopen hexhausted hsettled hfault => exact .going _
  | met cs hopen hexhausted hsettled hfault =>
      refine .met _ ?_
      rw [hperform, placesAfter_number h fun hcall => hstart hcall hfault, Reader.place,
        hexhausted, hsettled.mp hexhausted]
      rfl
  | failed cs hopen hexhausted hcurrent =>
      refine .failed _ _ ?_ (fun place' h' => ?_) ?_
      · rw [hperform]
        rfl
      · cases h.symm.trans h'
        exact hopen
      · rw [hperform]
        exact exhausted_placesAfter h (hexhausted.trans hopen.symm)

theorem asks_perform {d : Desk} (hd : d.Settled) (call : Call) : ∃ n, d.Asks call n := by
  cases h : d.place? call with
  | none =>
      -- There is no such reader on any source, and nothing is asked.
      refine ⟨0, ?_, .going [], fun s _ => ?_⟩
      · rw [perform_of_none h]
        rfl
      · have h' : { d with source := s }.place? call = none := (d.place?_source s call).trans h
        rw [perform_of_none h, perform_of_none h']
        rfl
  | some place =>
      rcases asks_operation hd h with ⟨n, hsource, hends, hdepends⟩
      refine ⟨n, ?_, ends_perform h hends, fun s hs => ?_⟩
      · rw [perform_of_some h]
        exact hsource
      · have h' : { d with source := s }.place? call = some place :=
          (d.place?_source s call).trans h
        have honto : call.operation (place.on s) =
            (call.operation (place.on d.source)).onto (s.later n) := hdepends s hs
        have hplaces := placesAfter_onto d call (call.operation (place.on d.source)) (s.later n)
        rw [perform_of_some h, perform_of_some h', honto]
        generalize call.operation (place.on d.source) = x at hplaces
        rw [Prod.mk.injEq, Desk.mk.injEq]
        refine ⟨?_, ?_, hplaces⟩ <;> cases x <;> rfl

theorem settled_perform {d : Desk} (hd : d.Settled) (call : Call) : (d.perform call).2.Settled := by
  cases h : d.place? call with
  | none =>
      rw [perform_of_none h]
      exact hd
  | some place =>
      rcases asks_operation hd h with ⟨n, -, hends, -⟩
      rw [perform_of_some h]
      have hset (i : Nat) (x : Reader.Result Answer) (hx : x.left.Settled) :
          ∀ p ∈ d.places.set i x.left.place, ∀ source, (p.on source).Settled := by
        intro p hp source
        rcases List.mem_or_eq_of_mem_set hp with hp | rfl
        · exact hd p hp source
        · exact hx
      cases call with
      | start =>
          cases hx : Call.operation .start (place.on d.source) with
          | error fault r =>
              -- Nothing was set up.
              exact hd
          | ok answer r =>
              rw [hx] at hends
              intro p hp source
              rcases List.mem_append.mp hp with hp | hp
              · exact hd p hp source
              · rw [List.mem_singleton.mp hp]
                exact hends.of_ok.1
      | tree i => exact hset i _ (hends.settled (hd place (List.mem_of_getElem? h) _))
      | atEnd i => exact hset i _ (hends.settled (hd place (List.mem_of_getElem? h) _))

/-- Nobody reads on behind the end. -/
theorem perform_ne_pastEnd {d : Desk} (hd : d.Settled) (call : Call) :
    (d.perform call).1 ≠ .error .pastEnd := by
  cases h : d.place? call with
  | none =>
      rw [perform_of_none h]
      rintro ⟨⟩
  | some place =>
      rcases asks_operation hd h with ⟨n, -, hends, -⟩
      rw [perform_of_some h]
      intro hanswer
      cases hx : call.operation (place.on d.source) with
      | ok answer r => simp [hx, Reader.Result.answer] at hanswer
      | error fault r =>
          rw [hx] at hends
          rw [hx] at hanswer
          exact hends.ne_pastEnd (Except.error.inj hanswer)

/-! ## Calls in a Row -/

@[simp] theorem afterAll_cons (call : Call) (calls : List Call) (d : Desk) :
    afterAll (call :: calls) d = afterAll calls (d.perform call).2 := rfl

theorem settled_afterAll (calls : List Call) {d : Desk} (hd : d.Settled) :
    (afterAll calls d).Settled := by
  induction calls generalizing d with
  | nil => exact hd
  | cons call calls ih => exact ih (settled_perform hd call)

/-- Only requests change the source. -/
theorem source_afterAll (calls : List Call) {d : Desk} (hd : d.Settled) :
    ∃ n, (afterAll calls d).source = d.source.later n := by
  induction calls generalizing d with
  | nil => exact ⟨0, rfl⟩
  | cons call calls ih =>
      rcases asks_perform hd call with ⟨m, hsource, -, -⟩
      rcases ih (settled_perform hd call) with ⟨n, hn⟩
      refine ⟨m + n, ?_⟩
      rw [afterAll_cons, hn, hsource, Source.later_add]

end Desk

end SmtSession
