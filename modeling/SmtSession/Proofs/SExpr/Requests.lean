import SmtSession.Proofs.SExpr.Steps

/-!
# Requests

What a reader asks its source for, and what it makes of the answers. The source
may answer a request with a character, with the end of its input or with a
failure, in any order, and what comes behind the end or behind a failure is
anybody's guess.

`Asks` is the law that every operation of the reader obeys: it makes a number
of requests one after the other, and what it does depends on nothing but the
answers to them, so another source that gives the same answers leads to the
same result. All answers but the last are characters. An end is the last answer
because the reader stops at the first end that it meets, and a failure is the
last because the operation is abandoned. `Ends` says what the operation comes
to in each case.

The law needs a reader that is `Settled`: it has met the end exactly if it
holds no character. Every operation leaves such a reader, a failing one as
well, and such a reader never asks again once the end is met. That is all it
takes to follow two operations in a row.

## Main definitions

* `Source.answered`, `Source.later`: The answers to the next requests, and the
  source after them.
* `Reader.onto`: The reader with another source.
* `Reader.Settled`: A reader that holds a character unless it met the end.
* `Reader.Ends`: How the answers show in the result of an operation.
* `Reader.Asks`: The requests of an operation, which are all it depends on.

## Theorems

* `Source.answered_eq_map`: The answers are the events, and the end behind them.
* `Reader.asks_andThen`: Operations in a row make their requests in a row.
* `Reader.asks_advance`, `Reader.asks_atEnd`, `Reader.asks_readTree`,
  `Reader.asks_readAll`: The operations make their requests and depend on
  nothing else.
-/

namespace SmtSession

namespace Source

/-- The answer to the next request. -/
def upcoming (s : Source) : Event := s.events.headD .finish

/-- The source after the next request. -/
def next (s : Source) : Source := s.read.2

/-- The answers to the next requests. -/
def answered : Nat → Source → List Event
  | 0, _ => []
  | n + 1, s => s.upcoming :: answered n s.next

/-- The source after the next requests. -/
def later : Nat → Source → Source
  | 0, s => s
  | n + 1, s => later n s.next

@[simp] theorem length_answered (n : Nat) (s : Source) : (s.answered n).length = n := by
  induction n generalizing s with
  | zero => rfl
  | succ n ih => rw [answered, List.length_cons, ih]

theorem answered_add (m n : Nat) (s : Source) :
    s.answered (m + n) = s.answered m ++ (s.later m).answered n := by
  induction m generalizing s with
  | zero => rw [Nat.zero_add, answered, later, List.nil_append]
  | succ m ih => rw [Nat.succ_add, answered, answered, later, ih, List.cons_append]

theorem later_add (m n : Nat) (s : Source) : s.later (m + n) = (s.later m).later n := by
  induction m generalizing s with
  | zero => rw [Nat.zero_add, later]
  | succ m ih => rw [Nat.succ_add, later, later, ih]

theorem next_eq (s : Source) :
    s.next.events = s.events.tail ∧ s.next.reads = s.reads + 1 ∧
      s.next.consumed = s.consumed + [s.upcoming].countP (fun e => e matches .char _) := by
  rcases s with ⟨_ | ⟨event, events⟩, reads, consumed⟩
  · exact ⟨rfl, rfl, rfl⟩
  · cases event <;> exact ⟨rfl, rfl, rfl⟩

@[simp] theorem reads_later (n : Nat) (s : Source) : (s.later n).reads = s.reads + n := by
  induction n generalizing s with
  | zero => rfl
  | succ n ih => rw [later, ih, s.next_eq.2.1]; omega

@[simp] theorem events_later (n : Nat) (s : Source) : (s.later n).events = s.events.drop n := by
  induction n generalizing s with
  | zero => rfl
  | succ n ih => rw [later, ih, s.next_eq.1, List.drop_tail]

theorem consumed_later (n : Nat) (s : Source) :
    (s.later n).consumed = s.consumed + (s.answered n).countP (fun e => e matches .char _) := by
  induction n generalizing s with
  | zero => rfl
  | succ n ih =>
      rw [later, ih, s.next_eq.2.2, answered, Nat.add_assoc, ← List.countP_append,
        List.singleton_append]

/-- The answers are the events, and the end behind them. -/
theorem answered_eq_map (n : Nat) (s : Source) :
    s.answered n = (List.range n).map fun i => s.events.getD i .finish := by
  induction n generalizing s with
  | zero => rfl
  | succ n ih =>
      rw [answered, ih, s.next_eq.1, List.range_succ_eq_map, List.map_cons, List.map_map,
        List.cons.injEq]
      refine ⟨?_, List.map_congr_left fun i _ => ?_⟩
      · rw [upcoming, List.getD_eq_getElem?_getD, List.headD_eq_head?_getD, List.head?_eq_getElem?]
      · rw [Function.comp_apply, List.getD_eq_getElem?_getD, List.getD_eq_getElem?_getD,
          List.getElem?_tail]

theorem getElem?_answered {n i : Nat} (hi : i < n) (s : Source) :
    (s.answered n)[i]? = some (s.events.getD i .finish) := by
  rw [answered_eq_map, List.getElem?_map, List.getElem?_range hi]
  rfl

/-- A text answers with its characters one by one, and then with its end. -/
theorem answered_of_text {s : Source} {cs : List Char} (h : s.events = cs.map .char) (n : Nat) :
    s.answered n = (cs.take n).map .char ++ List.replicate (n - cs.length) .finish := by
  induction n generalizing s cs with
  | zero => simp [answered]
  | succ n ih =>
      rw [answered, upcoming, h]
      have hnext := s.next_eq.1
      rw [h] at hnext
      cases cs with
      | nil =>
          have hnext : s.next.events = ([] : List Char).map .char := hnext
          simp [ih hnext, List.replicate_succ]
      | cons c cs => simp [ih hnext]

theorem count_finish_map (cs : List Char) : (cs.map Event.char).count .finish = 0 :=
  List.count_eq_zero.mpr (by simp)

/-- How often a text has answered with its end. -/
theorem count_finish_of_text {s : Source} {cs : List Char} (h : s.events = cs.map .char) (n : Nat) :
    (s.answered n).count .finish = n - cs.length := by
  rw [answered_of_text h, List.count_append, count_finish_map, List.count_replicate_self,
    Nat.zero_add]

theorem consumed_of_text {s : Source} {cs : List Char} (h : s.events = cs.map .char) (n : Nat) :
    (s.later n).consumed = s.consumed + min n cs.length := by
  have hends : (List.replicate (n - cs.length) Event.finish).countP
      (fun e => e matches .char _) = 0 := by
    rw [List.countP_replicate]
    rfl
  have hchars : ((cs.take n).map Event.char).countP (fun e => e matches .char _) =
      min n cs.length := by
    rw [List.countP_map, ← List.length_take]
    exact List.countP_eq_length.mpr fun c _ => rfl
  rw [consumed_later, answered_of_text h, List.countP_append, hends, hchars, Nat.add_zero]

theorem answered_of_events {s : Source} {taken rest : List Event} (h : s.events = taken ++ rest) :
    s.answered taken.length = taken := by
  induction taken generalizing s with
  | nil => rfl
  | cons e taken ih =>
      rw [List.length_cons, answered, ih (by rw [s.next_eq.1, h]; rfl), upcoming, h]
      rfl

/-- What is no character comes last. -/
theorem last_of_getElem? {cs : List Char} {e e' : Event} {i : Nat}
    (h : (cs.map .char ++ [e])[i]? = some e') (he' : ∀ c, e' ≠ .char c) :
    i = cs.length ∧ e' = e := by
  rcases Nat.lt_trichotomy i cs.length with hi | rfl | hi
  · rw [List.getElem?_append_left (by simpa using hi), List.getElem?_map,
      List.getElem?_eq_getElem hi] at h
    exact absurd (Option.some.inj h).symm (he' _)
  · rw [List.getElem?_append_right (by simp)] at h
    simp only [List.length_map, Nat.sub_self, List.getElem?_cons_zero] at h
    exact ⟨rfl, (Option.some.inj h).symm⟩
  · rw [List.getElem?_eq_none (by simp; omega)] at h
    cases h

theorem eq_of_fields {s t : Source} (hevents : s.events = t.events) (hreads : s.reads = t.reads)
    (hconsumed : s.consumed = t.consumed) : s = t := by
  cases s
  cases t
  cases hevents
  cases hreads
  cases hconsumed
  rfl

/-- A source may go on with anything after the same answers. -/
theorem later_of_events (n : Nat) (s : Source) (rest : List Event) :
    later n { s with events := s.answered n ++ rest } = { s.later n with events := rest } := by
  have hanswered := answered_of_events (s := { s with events := s.answered n ++ rest }) rfl
  rw [length_answered] at hanswered
  refine eq_of_fields ?_ ?_ ?_
  · rw [events_later, List.drop_left' (length_answered n s)]
  · rw [reads_later, reads_later]
  · rw [consumed_later, consumed_later, hanswered]

/-- Answers that are not the end take an event each. -/
theorem events_of_answered {s : Source} {n : Nat} (h : .finish ∉ s.answered n) :
    s.events = s.answered n ++ (s.later n).events := by
  induction n generalizing s with
  | zero => rfl
  | succ n ih =>
      rw [answered, List.mem_cons, not_or] at h
      have hnext := ih h.2
      rw [answered, later, List.cons_append, ← hnext, s.next_eq.1]
      cases hevents : s.events with
      | nil => simp [upcoming, hevents] at h
      | cons e events => simp [upcoming, hevents]

end Source

namespace Reader

variable {α β : Type}

/-- The reader with another source. -/
def onto (s : Source) (r : Reader) : Reader := { r with source := s }

/-- The reader that an operation leaves behind. -/
def Result.left : Result α → Reader
  | .ok _ r => r
  | .error _ r => r

/-- The result of an operation with another source left behind. -/
def Result.onto (s : Source) : Result α → Result α
  | .ok a r => .ok a (r.onto s)
  | .error fault r => .error fault (r.onto s)

/-- A reader that holds a character unless it met the end. -/
def Settled (r : Reader) : Prop := r.exhausted = true ↔ r.current = none

/-- A result that is no fault of the source. -/
def Result.Blameless : Result α → Prop
  | .ok _ _ => True
  | .error fault _ => fault = .unbalanced

/-- How the answers of the source show in the result of an operation. All of them
    but the last are characters. -/
inductive Ends (r : Reader) : List Event → Result α → Prop
  | going (cs : List Char) {x : Result α} (hopen : r.exhausted = true → cs = [])
      (hexhausted : x.left.exhausted = r.exhausted) (hsettled : x.left.Settled)
      (hfault : x.Blameless) : Ends r (cs.map .char) x
  | met (cs : List Char) {x : Result α} (hopen : r.exhausted = false)
      (hexhausted : x.left.exhausted = true) (hsettled : x.left.Settled)
      (hfault : x.Blameless) : Ends r (cs.map .char ++ [.finish]) x
  | failed (cs : List Char) {cause : SourceFailure} {r' : Reader} (hopen : r.exhausted = false)
      (hexhausted : r'.exhausted = false) (hcurrent : r'.current = none → r.current = none) :
      Ends r (cs.map .char ++ [.failure cause]) (.error cause.fault r')

/-- An operation makes a number of requests and depends on nothing but the answers
    to them. -/
structure Asks (op : Reader → Result α) (r : Reader) (n : Nat) : Prop where
  source : (op r).left.source = r.source.later n
  ends : Ends r (r.source.answered n) (op r)
  depends : ∀ s, s.answered n = r.source.answered n → op (r.onto s) = (op r).onto (s.later n)

theorem Ends.cast_error {r r' : Reader} {es : List Event} {fault : Fault}
    (h : Ends (α := β) r es (.error fault r')) : Ends (α := α) r es (.error fault r') := by
  generalize hx : (EStateM.Result.error fault r' : Result β) = x at h
  cases h with
  | going cs hopen hexhausted hsettled hfault =>
      subst hx
      exact .going cs hopen hexhausted hsettled hfault
  | met cs hopen hexhausted hsettled hfault =>
      subst hx
      exact .met cs hopen hexhausted hsettled hfault
  | failed cs hopen hexhausted hcurrent => cases hx; exact .failed cs hopen hexhausted hcurrent

/-- An operation that answers met the end or it did not. -/
theorem Ends.of_ok {r r' : Reader} {es : List Event} {a : α} (h : Ends r es (.ok a r')) :
    r'.Settled ∧ ∃ cs : List Char,
      es = cs.map .char ∧ (r.exhausted = true → cs = []) ∧ r'.exhausted = r.exhausted ∨
      es = cs.map .char ++ [.finish] ∧ r.exhausted = false ∧ r'.exhausted = true := by
  generalize hx : (EStateM.Result.ok a r' : Result α) = x at h
  cases h with
  | going cs hopen hexhausted hsettled hfault =>
      subst hx
      exact ⟨hsettled, cs, .inl ⟨rfl, hopen, hexhausted⟩⟩
  | met cs hopen hexhausted hsettled hfault =>
      subst hx
      exact ⟨hsettled, cs, .inr ⟨rfl, hopen, hexhausted⟩⟩
  | failed cs hopen hexhausted hcurrent => cases hx

/-- An operation that fails by the source ends with the failure. -/
theorem Ends.of_error {r r' : Reader} {es : List Event} {fault : Fault}
    (h : Ends (α := α) r es (.error fault r')) (hfault : fault ≠ .unbalanced) :
    ∃ (cs : List Char) (cause : SourceFailure), es = cs.map .char ++ [.failure cause] := by
  generalize hx : (EStateM.Result.error fault r' : Result α) = x at h
  cases h with
  | going cs hopen hexhausted hsettled hblameless =>
      subst hx
      exact absurd hblameless hfault
  | met cs hopen hexhausted hsettled hblameless =>
      subst hx
      exact absurd hblameless hfault
  | @failed cs cause r' hopen hexhausted hcurrent => exact ⟨cs, cause, rfl⟩

/-- What an operation leaves is settled again, even when it fails. -/
theorem Ends.settled {r : Reader} {es : List Event} {x : Result α} (hr : r.Settled)
    (h : Ends r es x) : x.left.Settled := by
  cases h with
  | going cs hopen hexhausted hsettled hfault => exact hsettled
  | met cs hopen hexhausted hsettled hfault => exact hsettled
  | @failed cs cause r' hopen hexhausted hcurrent =>
      refine ⟨fun h => ?_, fun h => ?_⟩
      · rw [show r'.exhausted = true from h] at hexhausted
        cases hexhausted
      · rw [hr.mpr (hcurrent h)] at hopen
        cases hopen

/-- An operation of the reader complains about the parentheses or hands on what
    the source complains about. -/
theorem Ends.ne_pastEnd {r r' : Reader} {es : List Event} {fault : Fault}
    (h : Ends (α := α) r es (.error fault r')) : fault ≠ .pastEnd := by
  generalize hx : (EStateM.Result.error fault r' : Result α) = x at h
  cases h with
  | going cs hopen hexhausted hsettled hfault =>
      subst hx
      rintro rfl
      cases hfault
  | met cs hopen hexhausted hsettled hfault =>
      subst hx
      rintro rfl
      cases hfault
  | @failed cs cause r' hopen hexhausted hcurrent =>
      cases hx
      cases cause <;> rintro ⟨⟩

theorem Ends.count_finish_le {r : Reader} {es : List Event} {x : Result α} (h : Ends r es x) :
    es.count .finish ≤ 1 := by
  cases h with
  | going => rw [Source.count_finish_map]; exact Nat.zero_le 1
  | met => rw [List.count_append, Source.count_finish_map]; exact Nat.le_refl 1
  | failed => rw [List.count_append, Source.count_finish_map]; exact Nat.zero_le 1

theorem Ends.andThen {r r₁ : Reader} {es es' : List Event} {b : β} {x : Result α}
    (h : Ends r es (.ok b r₁)) (h' : Ends r₁ es' x) : Ends r (es ++ es') x := by
  rcases h.of_ok with ⟨hsettled, cs, ⟨rfl, hopen, hexhausted⟩ | ⟨rfl, hopen, hexhausted⟩⟩
  · cases h' with
    | going cs hopen' hexhausted' hsettled' hfault' =>
        rw [← List.map_append]
        refine .going _ (fun hr => ?_) (hexhausted'.trans hexhausted) hsettled' hfault'
        rw [hopen hr, hopen' (hexhausted.trans hr), List.append_nil]
    | met cs hopen' hexhausted' hsettled' hfault' =>
        rw [← List.append_assoc, ← List.map_append]
        exact .met _ (hexhausted.symm.trans hopen') hexhausted' hsettled' hfault'
    | failed cs hopen' hexhausted' hcurrent' =>
        rw [← List.append_assoc, ← List.map_append]
        refine .failed _ (hexhausted.symm.trans hopen') hexhausted' fun hr' => ?_
        rw [hsettled.mpr (hcurrent' hr')] at hopen'
        cases hopen'
  · -- The end was met, so the second operation asks for nothing.
    cases h' with
    | going cs hopen' hexhausted' hsettled' hfault' =>
        rw [hopen' hexhausted, List.map_nil, List.append_nil]
        exact .met _ hopen (hexhausted'.trans hexhausted) hsettled' hfault'
    | met cs hopen' => rw [hexhausted] at hopen'; cases hopen'
    | failed cs hopen' => rw [hexhausted] at hopen'; cases hopen'

@[simp] theorem onto_source (r : Reader) : r.onto r.source = r := rfl

@[simp] theorem Result.onto_left (x : Result α) : x.onto x.left.source = x := by
  cases x <;> rfl

/-- An operation that asks for nothing. -/
theorem asks_nothing {op : Reader → Result α} {r : Reader} (x : Result α)
    (hop : ∀ s, op (r.onto s) = x.onto s) (hsource : x.left.source = r.source)
    (hexhausted : x.left.exhausted = r.exhausted) (hsettled : x.left.Settled)
    (hfault : x.Blameless) : ∃ n, Asks op r n := by
  have hself : op r = x := by
    have h := hop r.source
    rwa [onto_source, ← hsource, Result.onto_left] at h
  refine ⟨0, ?_, ?_, fun s _ => ?_⟩
  · rw [hself, hsource, Source.later]
  · rw [hself]
    exact .going [] (fun _ => rfl) hexhausted hsettled hfault
  · rw [hop, hself, Source.later]

/-- Operations in a row make their requests in a row. -/
theorem asks_andThen {op : Reader → Result α} {f : Reader → Result β}
    {g : β → Reader → Result α} {r : Reader}
    (hop : ∀ s, op (r.onto s) = (f (r.onto s)).andThen g) (hfirst : ∃ n, Asks f r n)
    (hnext : ∀ b r₁, f r = .ok b r₁ → r₁.Settled → ∃ n, Asks (g b) r₁ n) :
    ∃ n, Asks op r n := by
  rcases hfirst with ⟨m, hsource, hends, hdepends⟩
  have hself : op r = (f r).andThen g := hop r.source
  cases hx : f r with
  | error fault r₁ =>
      -- The second operation does not take place.
      rw [hx] at hself hsource hends
      refine ⟨m, ?_, ?_, fun s hs => ?_⟩
      · rw [hself]
        exact hsource
      · rw [hself]
        exact hends.cast_error
      · rw [hop, hdepends s hs, hx, hself]
        rfl
  | ok b r₁ =>
      rw [hx] at hself hsource hends
      have hr₁ : r₁.source = r.source.later m := hsource
      rcases hnext b r₁ hx hends.of_ok.1 with ⟨n, hsource', hends', hdepends'⟩
      rw [hr₁] at hsource' hends' hdepends'
      refine ⟨m + n, ?_, ?_, fun s hs => ?_⟩
      · rw [hself, Source.later_add]
        exact hsource'
      · rw [hself, Source.answered_add]
        exact hends.andThen hends'
      · rw [Source.answered_add, Source.answered_add] at hs
        rcases List.append_inj hs (by simp) with ⟨hs₁, hs₂⟩
        rw [hop, hdepends s hs₁, hx, hself, Source.later_add]
        exact hdepends' (s.later m) hs₂

theorem Settled.unexhausted {r : Reader} {c : Char} (h : r.Settled) (hc : r.current = some c) :
    r.exhausted = false := by
  rw [Settled, hc] at h
  simpa using h

/-- An operation that answers at once. -/
theorem asks_answer {op : Reader → Result α} {r : Reader} {a : α} (hr : r.Settled)
    (h : ∀ s, op (r.onto s) = .ok a (r.onto s)) : ∃ n, Asks op r n :=
  asks_nothing (.ok a r) h rfl rfl hr trivial

/-- What becomes of an answer makes no request. -/
theorem asks_map {op : Reader → Result α} {first : Reader → Result β} {f : β → α} {r : Reader}
    (hop : ∀ s, op (r.onto s) = (first (r.onto s)).andThen fun b => .ok (f b))
    (hfirst : ∃ n, Asks first r n) : ∃ n, Asks op r n :=
  asks_andThen hop hfirst fun _ _ _ hr₁ => asks_answer hr₁ fun _ => rfl

/-- To hold another character first makes no request. -/
theorem asks_holding {op next : Reader → Result α} {r : Reader} {c : Char}
    (hr : r.exhausted = false) (hop : ∀ s, op (r.onto s) = next ((r.onto s).hold (some c)))
    (hnext : ∃ n, Asks next (r.hold (some c)) n) : ∃ n, Asks op r n := by
  let held (r : Reader) : Result Unit := .ok () (r.hold (some c))
  have hheld : ∃ n, Asks held r n :=
    asks_nothing (.ok () (r.hold (some c))) (fun s => rfl) rfl rfl
      (by simp [Settled, Result.left, hold, hr]) trivial
  refine asks_andThen (f := held) (g := fun _ => next) hop hheld fun b r₁ hb hr₁ => ?_
  cases hb
  exact hnext

/-! ## What the Operations Ask

The operations that call themselves are followed by the weight of the reader,
which is what their definitions recurse on. -/

/-- The answer decides what is held. -/
theorem request_eq {r : Reader} (hr : r.exhausted = false) :
    r.request = match r.source.upcoming with
      | .char c => .ok (some c) ⟨r.source.next, false, some c⟩
      | .finish => .ok none ⟨r.source.next, true, none⟩
      | .failure cause => .error cause.fault (r.onto r.source.next) := by
  rcases r with ⟨⟨_ | ⟨_ | _ | _, events⟩, reads, consumed⟩, exhausted, current⟩ <;>
    cases hr <;> rfl

theorem request_of_char {r : Reader} {c : Char} (hr : r.exhausted = false)
    (h : r.source.upcoming = .char c) : r.request = .ok (some c) ⟨r.source.next, false, some c⟩ := by
  rw [request_eq hr, h]

theorem request_of_finish {r : Reader} (hr : r.exhausted = false)
    (h : r.source.upcoming = .finish) : r.request = .ok none ⟨r.source.next, true, none⟩ := by
  rw [request_eq hr, h]

theorem request_of_failure {r : Reader} {cause : SourceFailure} (hr : r.exhausted = false)
    (h : r.source.upcoming = .failure cause) :
    r.request = .error cause.fault (r.onto r.source.next) := by
  rw [request_eq hr, h]

theorem asks_request {r : Reader} (hr : r.exhausted = false) : ∃ n, Asks request r n := by
  refine ⟨1, ?_, ?_, fun s hs => ?_⟩
  · rw [request_eq hr]
    split <;> rfl
  · rw [Source.answered, Source.answered]
    cases hanswer : r.source.upcoming with
    | char c =>
        rw [request_of_char hr hanswer]
        exact .going [c] (by simp [hr]) hr.symm (by simp [Settled, Result.left]) trivial
    | finish =>
        rw [request_of_finish hr hanswer]
        exact .met [] hr rfl (by simp [Settled, Result.left]) trivial
    | failure cause =>
        rw [request_of_failure hr hanswer]
        exact .failed [] hr hr id
  · have hupcoming : (r.onto s).source.upcoming = r.source.upcoming := (List.cons.inj hs).1
    rw [request_eq (r := r.onto s) hr, request_eq hr, hupcoming]
    cases r.source.upcoming <;> rfl

theorem asks_dropComment {r : Reader} (hr : r.Settled) : ∃ n, Asks dropComment r n := by
  cases hc : r.current with
  | none => exact asks_answer hr fun s => dropComment_of_stop (by simp [onto, hc])
  | some c =>
      by_cases hline : c = '\n'
      · exact asks_answer hr fun s => dropComment_of_stop (by simp [onto, hc, hline])
      · exact asks_andThen (fun s => dropComment_request hc hline)
          (asks_request (hr.unexhausted hc)) fun b r₁ hrequest hr₁ => asks_dropComment hr₁
termination_by r.weight
decreasing_by
  rw [weight_of_current hc]
  exact Nat.lt_succ_of_le (weight_request_le hrequest)

theorem asks_advance {r : Reader} (hr : r.exhausted = false) : ∃ n, Asks advance r n := by
  refine asks_andThen (fun s => advance_request _) (asks_request hr) fun c r₁ _ hr₁ => ?_
  by_cases hc : c = some ';'
  · simp only [hc, if_true]
    exact asks_dropComment hr₁
  · simp only [hc, if_false]
    exact asks_answer hr₁ fun s => rfl

theorem asks_skipBlanks {r : Reader} (hr : r.Settled) : ∃ n, Asks skipBlanks r n := by
  cases hc : r.current with
  | none => exact asks_answer hr fun s => skipBlanks_of_stop (by simp [onto, hc])
  | some c =>
      by_cases hblank : Text.isBlank c = true
      · exact asks_andThen (fun s => skipBlanks_blank hc hblank) (asks_advance (hr.unexhausted hc))
          fun b r₁ hadvance hr₁ => asks_skipBlanks hr₁
      · exact asks_answer hr fun s => skipBlanks_of_current hc (by simpa using hblank)
termination_by r.weight
decreasing_by exact weight_advance_lt hc hadvance

theorem asks_atEnd {r : Reader} (hr : r.Settled) : ∃ n, Asks atEnd r n :=
  asks_andThen (fun _ => atEnd_skipBlanks _) (asks_skipBlanks hr) fun _ r₁ _ hr₁ =>
    asks_answer (a := r₁.current.isNone) hr₁ fun _ => rfl

theorem asks_readPlain {r : Reader} (hr : r.Settled) : ∃ n, Asks readPlain r n := by
  cases hc : r.current with
  | none => exact asks_answer hr fun s => readPlain_of_stop (by simp [onto, hc])
  | some c =>
      by_cases hends : endsAtom c = true
      · exact asks_answer hr fun s => readPlain_of_stop (by simp [onto, hc, hends])
      · exact asks_andThen (fun s => readPlain_plain hc (by simpa using hends))
          (asks_advance (hr.unexhausted hc)) fun b r₁ hadvance hr₁ =>
            asks_map (fun s => rfl) (asks_readPlain hr₁)
termination_by r.weight
decreasing_by exact weight_advance_lt hc hadvance

theorem asks_readQuoted {r : Reader} (hr : r.Settled) : ∃ n, Asks readQuoted r n := by
  cases hc : r.current with
  | none => exact asks_answer hr fun s => readQuoted_of_none hc
  | some c =>
      refine asks_andThen (fun s => readQuoted_quoted hc) (asks_advance (hr.unexhausted hc))
        fun b r₁ hadvance hr₁ => ?_
      by_cases hbar : c = '|'
      · simp only [hbar, if_true]
        exact asks_answer hr₁ fun s => rfl
      · simp only [hbar, if_false]
        exact asks_map (fun s => rfl) (asks_readQuoted hr₁)
termination_by r.weight
decreasing_by exact weight_advance_lt hc hadvance

theorem asks_readAtom {r : Reader} (hr : r.Settled) : ∃ n, Asks readAtom r n := by
  by_cases hc : r.current = some '|'
  · exact asks_andThen (fun s => readAtom_quoted hc) (asks_advance (hr.unexhausted hc))
      fun b r₁ _ hr₁ => asks_map (fun s => rfl) (asks_readQuoted hr₁)
  · exact asks_map (fun s => readAtom_plain hc) (asks_readPlain hr)

theorem asks_readInto {pending : List (List SExpr)} {r : Reader} (hr : r.Settled) :
    ∃ n, Asks (readInto pending) r n := by
  -- Behind the blanks, the character held decides, and it is the same on every source.
  refine asks_andThen (fun s => readInto_blanks pending _) (asks_skipBlanks hr)
    fun _ r₁ hskip hr₁ => ?_
  have hcomplaint (r' : Reader) (hr' : r'.Settled)
      (h : ∀ s, readInto pending (r'.onto s) = .error .unbalanced (r'.onto s)) :
      ∃ n, Asks (readInto pending) r' n :=
    asks_nothing (.error .unbalanced r') h rfl rfl hr' rfl
  cases hc : r₁.current with
  | none =>
      cases pending with
      | nil => exact asks_answer hr₁ fun s => readInto_none (r := r₁.onto s) hc
      | cons items outer => exact hcomplaint r₁ hr₁ fun s => readInto_none (r := r₁.onto s) hc
  | some c =>
      have hopen := hr₁.unexhausted hc
      by_cases hopening : c = '('
      · subst hopening
        exact asks_andThen (fun s => readInto_opening (r := r₁.onto s) hc) (asks_advance hopen)
          fun _ r₂ hadvance hr₂ => asks_readInto hr₂
      by_cases hclosing : c = ')'
      · subst hclosing
        cases pending with
        | nil => exact hcomplaint r₁ hr₁ fun s => readInto_closing_none (r := r₁.onto s) hc
        | cons items outer =>
            cases outer with
            | nil =>
                exact asks_nothing (.ok (collected items) (r₁.hold (some ' ')))
                  (fun s => readInto_closing (r := r₁.onto s) hc) rfl rfl
                  (by simp [Settled, Result.left, hold, hopen]) trivial
            | cons siblings outer =>
                -- A blank takes the place of the parenthesis, which asks for nothing.
                exact asks_holding hopen (fun s => readInto_closing (r := r₁.onto s) hc)
                  (asks_readInto (by simp [Settled, hold, hopen]))
      · have hends : endsAtom c = false := by
          simp [endsAtom, isBlank_current_skipBlanks hskip hc, hopening, hclosing]
        refine asks_andThen (fun s => readInto_atom (r := r₁.onto s) hc hends) (asks_readAtom hr₁)
          fun t r₂ hatom hr₂ => ?_
        cases pending with
        | nil => exact asks_answer hr₂ fun s => rfl
        | cons siblings outer => exact asks_readInto hr₂
termination_by 2 * r.weight + pending.length
decreasing_by
  · have hle := weight_skipBlanks_le hskip
    have hlt := weight_advance_lt hc hadvance
    rw [List.length_cons]
    omega
  · have hle := weight_skipBlanks_le hskip
    rw [weight_hold_of_current hc]
    simp only [List.length_cons]
    omega
  · have hle := weight_skipBlanks_le hskip
    have hlt := weight_readAtom_lt hc hends hatom
    simp only [List.length_cons]
    omega

theorem asks_readTree {r : Reader} (hr : r.Settled) : ∃ n, Asks readTree r n :=
  asks_readInto hr

theorem asks_readAll {r : Reader} (hr : r.Settled) : ∃ n, Asks readAll r n := by
  refine asks_andThen (fun s => readAll_atEnd _) (asks_atEnd hr) fun ended r₁ hend hr₁ => ?_
  cases ended with
  | true => exact asks_answer hr₁ fun s => rfl
  | false =>
      exact asks_andThen (fun s => rfl) (asks_readTree hr₁) fun t r₂ hread hr₂ =>
        asks_map (fun s => rfl) (asks_readAll hr₂)
termination_by r.weight
decreasing_by
  rcases atEnd_eq_false hend with ⟨hle, c, hc, hblank⟩
  exact Nat.lt_of_lt_of_le (weight_readTree_lt hc hblank hread) hle

end Reader

end SmtSession
