import SmtSession.Proofs.SExpr.EndOfInput

/-!
# Failing Requests

What becomes of a call when the source fails. Compare a text with a source that
gives the same answers up to some request and fails there. A call depends on
the answers to its requests alone. So calls that are over by then come to the
same on both sources, and the call that is under way makes the same requests
until it meets the failure, which is the last request that it makes.

The failure is not mistaken for anything else. It is reported with what the
source says about it, no reader takes it for the end of the input, and nothing
was handed out for it: the source has handed out one character for each request
before. There is one exception to the count. When one reader has met the end
and another one is set up on the same source, the second one meets the end as
well, and two requests were answered without a character.

## Main definitions

* `SourceFailure.ReportedAs`: How a failure is reported.
* `Source.struck`: A source with the same answers up to a request that fails.

## Theorems

* `Desk.afterAll_of_answered`: Where the requests of calls are answered alike, so
  are the calls.
* `Desk.Asks.struck`: A call that meets a failure makes no other request.
* `Desk.not_finish_of_open`: While no reader has met the end, the source has not
  answered with it.
* `Desk.failure_is_local`: A failure makes no difference before the call that
  meets it, and this call reports it.
* `Desk.failure_after_end`: Requests can outnumber the characters.
-/

namespace SmtSession

/-- A failure is reported as a failure to read, unless the reader does not know
    what to make of it. -/
def SourceFailure.ReportedAs : SourceFailure → Fault → Prop
  | .medium message, fault => fault.kind = .reading ∧
      fault.message = "Cannot read S-expression input: " ++ message
  | .state message, fault => fault.kind = .reading ∧
      fault.message = "Cannot read S-expression input: " ++ message
  | .other message, fault => fault = .foreign message

theorem SourceFailure.reportedAs_fault (cause : SourceFailure) : cause.ReportedAs cause.fault := by
  cases cause with
  | medium message => exact ⟨rfl, rfl⟩
  | state message => exact ⟨rfl, rfl⟩
  | other message => exact rfl

theorem SourceFailure.fault_ne_unbalanced (cause : SourceFailure) : cause.fault ≠ .unbalanced := by
  cases cause <;> rintro ⟨⟩

namespace Source

/-- The source that gives the same answers to `n` requests and fails at the
    next. -/
def struck (n : Nat) (cause : SourceFailure) (rest : List Event) (s : Source) : Source :=
  { s with events := s.answered n ++ .failure cause :: rest }

theorem answered_struck (n : Nat) (cause : SourceFailure) (rest : List Event) (s : Source) :
    (s.struck n cause rest).answered n = s.answered n := by
  have h := answered_of_events (s := s.struck n cause rest) rfl
  rwa [length_answered] at h

theorem events_struck (n : Nat) (cause : SourceFailure) (rest : List Event) (s : Source) :
    ((s.struck n cause rest).later n).events = .failure cause :: rest := by
  rw [events_later]
  exact List.drop_left' (length_answered n s)

/-- A failure hands nothing out. -/
theorem consumed_struck (n : Nat) (cause : SourceFailure) (rest : List Event) (s : Source) :
    ((s.struck n cause rest).later (n + 1)).consumed = (s.later n).consumed := by
  rw [later_add, later, later, (next_eq _).2.2, upcoming, events_struck, consumed_later,
    answered_struck, consumed_later]
  rfl

theorem take_answered {m n : Nat} (h : m ≤ n) (s : Source) :
    (s.answered n).take m = s.answered m := by
  rcases Nat.exists_eq_add_of_le h with ⟨rest, rfl⟩
  rw [answered_add, List.take_left' (length_answered m s)]

/-- Sources that agree on some requests agree on the first of them and on those
    behind these. -/
theorem answered_split {s t : Source} {m n : Nat} (h : s.answered (m + n) = t.answered (m + n)) :
    s.answered m = t.answered m ∧ (s.later m).answered n = (t.later m).answered n := by
  rw [answered_add, answered_add] at h
  exact List.append_inj h (by simp)

theorem answered_of_le {s t : Source} {m n : Nat} (h : s.answered n = t.answered n)
    (hm : m ≤ n) : s.answered m = t.answered m := by
  rw [← take_answered hm, ← take_answered hm, h]

theorem answered_later {s t : Source} {k m n : Nat} (h : s.answered n = t.answered n)
    (hkm : k + m ≤ n) : (s.later k).answered m = (t.later k).answered m :=
  (answered_split (answered_of_le h hkm)).2

end Source

namespace Desk

/-- Where the requests of some calls are answered alike, so are the calls. -/
theorem afterAll_of_answered (calls : List Call) {d : Desk} (hd : d.Settled) {t : Source} {n : Nat}
    (ht : t.answered n = d.source.answered n)
    (hn : (afterAll calls d).source.reads ≤ d.source.reads + n) :
    ∃ k ≤ n, (afterAll calls d).source = d.source.later k ∧
      afterAll calls { d with source := t } = { afterAll calls d with source := t.later k } := by
  induction calls generalizing d t n with
  | nil => exact ⟨0, Nat.zero_le n, rfl, rfl⟩
  | cons call calls ih =>
      rcases asks_perform hd call with ⟨m, hasks⟩
      rcases source_afterAll calls (settled_perform hd call) with ⟨k, hk⟩
      rw [afterAll_cons, hk, Source.reads_later, hasks.source, Source.reads_later] at hn
      -- The first of the `n` requests are those of the first call.
      obtain ⟨rest, rfl⟩ : ∃ rest, n = m + rest := ⟨n - m, by omega⟩
      rcases Source.answered_split ht with ⟨hfirst, hrest⟩
      rw [← hasks.source] at hrest
      rcases ih (settled_perform hd call) hrest
        (by rw [hk, hasks.source, Source.reads_later, Source.reads_later]; omega) with
        ⟨k', hk', hsource, hplaces⟩
      refine ⟨m + k', by omega, ?_, ?_⟩
      · rw [afterAll_cons, hsource, hasks.source, Source.later_add]
      · rw [afterAll_cons, hasks.depends t hfirst, hplaces, Source.later_add, afterAll_cons]

/-- A call that makes a request that fails makes it last, and fails. -/
theorem Asks.struck {d : Desk} (hd : d.Settled) {call : Call} {m n : Nat} (h : d.Asks call m)
    (hn : n < m) {t : Source} {cause : SourceFailure} (ht : t.answered n = d.source.answered n)
    (hfailure : t.events.getD n .finish = .failure cause) :
    let e := { d with source := t }
    e.Asks call (n + 1) ∧ (e.perform call).1 = .error cause.fault ∧
      (∀ place, e.place? call = some place → place.exhausted = false) ∧
        (e.perform call).2.places.map Place.exhausted = e.places.map Place.exhausted ∧
          ∃ cs : List Char, t.answered n = cs.map .char := by
  intro e
  rcases asks_perform (d := e) hd call with ⟨k, hasks⟩
  -- The call gets as far as the failure, or else it would have done without it.
  have hk : n < k := by
    refine Nat.lt_of_not_le fun hle => ?_
    rcases Nat.exists_eq_add_of_le hle with ⟨rest, rfl⟩
    have hsame := hasks.depends d.source (Source.answered_split ht).1.symm
    have hsource : (d.perform call).2.source = d.source.later k :=
      congrArg (fun x => x.2.source) hsame
    have hreads := congrArg Source.reads (hsource.symm.trans h.source)
    rw [Source.reads_later, Source.reads_later] at hreads
    omega
  -- So the failure is among its answers, and hence the last of them.
  have hends := hasks.ends
  have hlength := Source.length_answered k t
  have hlast : (t.answered k)[n]? = some (.failure cause) := by
    rw [Source.getElem?_answered hk, hfailure]
  have htake : (t.answered k).take n = t.answered n := Source.take_answered (Nat.le_of_lt hk) t
  have hes : e.source.answered k = t.answered k := rfl
  rw [hes] at hends
  generalize t.answered k = es at hends hlength hlast htake
  cases hends with
  | going cs =>
      rw [List.getElem?_map] at hlast
      cases hc : cs[n]? <;> simp [hc] at hlast
  | met cs hplace => cases (Source.last_of_getElem? hlast (by rintro c ⟨⟩)).2
  | failed cs cause' hresult hopen hexhausted =>
      rcases Source.last_of_getElem? hlast (by rintro c ⟨⟩) with ⟨rfl, hcause⟩
      cases hcause
      simp at hlength
      subst hlength
      exact ⟨hasks, hresult, hopen, hexhausted, cs, by rw [← htake]; simp⟩

/-! ## How many Readers -/

theorem length_places_perform (d : Desk) (call : Call) :
    (d.perform call).2.places.length ≤ d.places.length + [call].count .start := by
  cases h : d.place? call with
  | none =>
      rw [perform_of_none h]
      exact Nat.le_add_right _ _
  | some place =>
      rw [perform_of_some h]
      cases call with
      | start =>
          cases Call.operation .start (place.on d.source) with
          | ok answer r => simp [placesAfter]
          | error fault r => simp [placesAfter]
      | tree i => simp [placesAfter]
      | atEnd i => simp [placesAfter]

theorem length_places_afterAll (calls : List Call) (d : Desk) :
    (afterAll calls d).places.length ≤ d.places.length + calls.count .start := by
  induction calls generalizing d with
  | nil => exact Nat.le_add_right _ _
  | cons call calls ih =>
      have hfirst := length_places_perform d call
      have hrest := ih (d.perform call).2
      rw [afterAll_cons, ← List.singleton_append, List.count_append]
      omega

/-- While no reader has met the end, the source has not answered with it. -/
theorem not_finish_of_open (calls : List Call) {d : Desk} (hd : d.Settled)
    (hopen : ∀ place ∈ (afterAll calls d).places, place.exhausted = false) :
    (∀ place ∈ d.places, place.exhausted = false) ∧
      ∃ n, (afterAll calls d).source = d.source.later n ∧ .finish ∉ d.source.answered n := by
  induction calls generalizing d with
  | nil => exact ⟨hopen, 0, rfl, by simp [Source.answered]⟩
  | cons call calls ih =>
      rcases ih (settled_perform hd call) hopen with ⟨hopen', n, hsource, hfinish⟩
      rcases asks_perform hd call with ⟨m, hasks⟩
      -- A reader at the end stays there, so there is none at the end after the call.
      have hnone (i : Nat) : (d.perform call).2.places[i]? ≠ some .finished := fun hi =>
        absurd (hopen' _ (List.mem_of_getElem? hi)) (by decide)
      refine ⟨fun place hplace => ?_, m + n, ?_, fun hmem => ?_⟩
      · rcases List.getElem?_of_mem hplace with ⟨i, hi⟩
        refine Bool.eq_false_iff.mpr fun hexhausted => hnone i (finished_perform ?_ call)
        rw [hi, eq_finished (hd place hplace) hexhausted]
      · rw [afterAll_cons, hsource, hasks.source, Source.later_add]
      · rw [Source.answered_add, List.mem_append] at hmem
        rcases hmem with hmem | hmem
        · rcases List.getElem?_of_mem hmem with ⟨i, hi⟩
          exact hnone _ (hasks.finished hi).2
        · exact hfinish (by rwa [hasks.source])

/-- When there is but one reader and it has not met the end, nobody has. -/
theorem open_of_single {d : Desk} {call : Call} {place : Place}
    (hcount : d.places.length + [call].count .start ≤ 1) (hplace : d.place? call = some place)
    (hopen : place.exhausted = false) : ∀ p ∈ d.places, p.exhausted = false := by
  have hfirst (i : Nat) (hi : d.places[i]? = some place) (hlength : d.places.length ≤ 1) :
      ∀ p ∈ d.places, p.exhausted = false := by
    intro p hp
    rcases List.getElem?_of_mem hp with ⟨j, hj⟩
    have hi' := (List.getElem?_eq_some_iff.mp hi).1
    have hj' := (List.getElem?_eq_some_iff.mp hj).1
    rw [show j = i by omega, hi] at hj
    cases hj
    exact hopen
  cases call with
  | start =>
      have hnil : d.places = [] := List.length_eq_zero_iff.mp (by simpa using hcount)
      rw [hnil]
      simp
  | tree i => exact hfirst i hplace (by simpa using hcount)
  | atEnd i => exact hfirst i hplace (by simpa using hcount)

/-- As long as there is one reader and it has not met the end, no request was
    answered with it. -/
theorem not_finish_of_single {calls : List Call} {call : Call} {s : Source} {place : Place}
    {k : Nat} (hcount : (calls ++ [call]).count .start ≤ 1)
    (hplace : (afterAll calls (on s)).place? call = some place) (hopen : place.exhausted = false)
    (hsource : (afterAll calls (on s)).source = s.later k) : .finish ∉ s.answered k := by
  have hlength := length_places_afterAll calls (on s)
  rw [List.count_append] at hcount
  have hall := open_of_single (Nat.le_trans (Nat.add_le_add_right hlength _)
    (by simpa [on] using hcount)) hplace hopen
  rcases not_finish_of_open calls (settled_on s) hall with ⟨-, m, hm, hfinish⟩
  have hreads := congrArg Source.reads (hm.symm.trans hsource)
  rw [Source.reads_later, Source.reads_later] at hreads
  obtain rfl : m = k := Nat.add_left_cancel hreads
  exact hfinish

/-- Two sources that agree on `n` requests, and a call that makes no more. -/
theorem perform_of_agreeing {s t : Source} {d : Desk} {call : Call} {k m n : Nat}
    (ht : t.answered n = s.answered n) (hd : d.source = s.later k) (h : d.Asks call m)
    (hn : k + m ≤ n) :
    { d with source := t.later k }.perform call =
        ((d.perform call).1, { (d.perform call).2 with source := t.later (k + m) }) ∧
      (d.perform call).2.source = s.later (k + m) := by
  have hanswers : (t.later k).answered m = d.source.answered m := by
    rw [hd]
    exact Source.answered_later ht hn
  rw [Source.later_add, Source.later_add, ← hd]
  exact ⟨h.depends _ hanswers, h.source⟩

/-- A source, the one that fails after `n` requests, and the call that makes the
    request that fails. -/
theorem perform_of_failing {s : Source} {n k m : Nat} (cause : SourceFailure)
    (rest : List Event) {d : Desk} {call : Call} (hd : d.Settled)
    (hsource : d.source = s.later k) (h : d.Asks call m) (hk : k ≤ n)
    (hn : n < k + m) :
    let e := { d with source := (s.struck n cause rest).later k }
    (e.perform call).1 = .error cause.fault ∧
      (e.perform call).2.source = (s.struck n cause rest).later (n + 1) ∧
      (∀ place, e.place? call = some place → place.exhausted = false) ∧
      (e.perform call).2.places.map Place.exhausted = e.places.map Place.exhausted ∧
      .finish ∉ (s.later k).answered (n - k) := by
  intro e
  have hstruck := Source.answered_struck n cause rest s
  have hanswers : ((s.struck n cause rest).later k).answered (n - k) =
      d.source.answered (n - k) := by
    rw [hsource]
    exact Source.answered_later hstruck (by omega)
  have hfailure : ((s.struck n cause rest).later k).events.getD (n - k) .finish =
      .failure cause := by
    have hevents := Source.events_struck n cause rest s
    rw [Source.events_later] at hevents ⊢
    rw [List.getD_eq_getElem?_getD, List.getElem?_drop, Nat.add_sub_of_le hk,
      ← List.head?_drop, hevents]
    rfl
  rcases h.struck hd (by omega) hanswers hfailure with ⟨hasks, hresult, hopen, hexhausted, cs, hcs⟩
  refine ⟨hresult, ?_, hopen, hexhausted, ?_⟩
  · rw [hasks.source, ← Source.later_add]
    congr 1
    omega
  · rw [← hsource, ← hanswers, hcs]
    simp

/-- The calls before the failure come to the same. -/
theorem afterAll_struck {text : String} {n : Nat} (cause : SourceFailure) (rest : List Event)
    {calls : List Call} (h : (afterAll calls (on (.ofText text))).source.reads ≤ n) :
    let d := afterAll calls (on (.ofText text))
    ∃ k, d.source.reads = k ∧ d.source = (Source.ofText text).later k ∧
      afterAll calls (on ((Source.ofText text).struck n cause rest)) =
        { d with source := ((Source.ofText text).struck n cause rest).later k } := by
  intro d
  have hstruck := Source.answered_struck n cause rest (.ofText text)
  have hreads : d.source.reads ≤ (on (.ofText text)).source.reads + n :=
    Nat.le_trans h (Nat.le_add_left n _)
  rcases afterAll_of_answered calls (settled_on (.ofText text)) hstruck hreads with
    ⟨k, -, hsource, he⟩
  refine ⟨k, ?_, hsource, he⟩
  rw [show d.source = (Source.ofText text).later k from hsource, Source.reads_later]
  exact Nat.zero_add k

/-- As long as there is one reader, the requests before one that is not answered with
    the end were answered with characters of the text. -/
theorem le_length_of_single {text : String} {calls : List Call} {call : Call} {place : Place}
    {k n : Nat} (hcount : (calls ++ [call]).count .start ≤ 1)
    (hplace : (afterAll calls (on (.ofText text))).place? call = some place)
    (hopen : place.exhausted = false)
    (hsource : (afterAll calls (on (.ofText text))).source = (Source.ofText text).later k)
    (hk : k ≤ n) (hfinish : .finish ∉ ((Source.ofText text).later k).answered (n - k)) :
    n ≤ text.length := by
  have hbefore := not_finish_of_single hcount hplace hopen hsource
  have htext : (Source.ofText text).events = text.toList.map .char := rfl
  have hends := Source.count_finish_of_text htext (k + (n - k))
  rw [Source.answered_add, List.count_append, List.count_eq_zero.mpr hbefore,
    List.count_eq_zero.mpr hfinish, String.length_toList] at hends
  omega

/-- A call depends on the requests that it makes. Compare a text with a source
    that gives the same answers to `n` requests and then fails. The calls that
    are over by then come to the same. The call that makes the failing request
    fails as well and makes no other request. By then the source has handed out
    as many characters as there were requests before, unless it had no more,
    and no reader takes the failure for the end of the input. -/
theorem failure_is_local (text : String) (n : Nat) (cause : SourceFailure) (rest : List Event)
    (calls : List Call) (call : Call) :
    let calm := Source.ofText text
    let d := afterAll calls (on calm)
    let d' := (d.perform call).2
    let e := afterAll calls (on (calm.struck n cause rest))
    let e' := (e.perform call).2
    (d'.source.reads ≤ n →
      (e.perform call).1 = (d.perform call).1 ∧ e'.places = d'.places ∧
        e'.source.reads = d'.source.reads ∧ e'.source.consumed = d'.source.consumed) ∧
      (d.source.reads ≤ n → n < d'.source.reads →
        (e.perform call).1 = .error cause.fault ∧ cause.ReportedAs cause.fault ∧
          cause.fault ≠ .unbalanced ∧ e'.source.reads = n + 1 ∧
          e'.source.consumed = min n text.length ∧
          ((calls ++ [call]).count .start ≤ 1 → e'.source.consumed = n) ∧
          (∀ place, e.place? call = some place → place.exhausted = false) ∧
          e'.places.map Place.exhausted = e.places.map Place.exhausted) := by
  intro calm d d' e e'
  have hd : d.Settled := settled_afterAll calls (settled_on calm)
  rcases asks_perform hd call with ⟨m, hasks⟩
  have hreads : d'.source.reads = d.source.reads + m := by
    rw [hasks.source, Source.reads_later]
  constructor
  · intro hover
    have hstruck := Source.answered_struck n cause rest calm
    have hbegun : d.source.reads ≤ n := by omega
    rcases afterAll_struck cause rest hbegun with ⟨k, hk, hsource, he⟩
    have hk : d.source.reads = k := hk
    rcases perform_of_agreeing (n := n) hstruck hsource hasks (by omega) with ⟨hperform, hd'⟩
    rw [← he] at hperform
    refine ⟨?_, ?_, ?_, ?_⟩
    · rw [hperform]
    · change (e.perform call).2.places = d'.places
      rw [hperform]
    · change (e.perform call).2.source.reads = d'.source.reads
      rw [hperform, hd', Source.reads_later, Source.reads_later]
      rfl
    · change (e.perform call).2.source.consumed = d'.source.consumed
      rw [hperform, hd', Source.consumed_later, Source.consumed_later,
        Source.answered_of_le hstruck (by omega)]
      rfl
  · intro hbegun hover
    rcases afterAll_struck cause rest hbegun with ⟨k, hk, hsource, he⟩
    have hk : d.source.reads = k := hk
    have hfails := perform_of_failing (n := n) cause rest hd hsource hasks (by omega) (by omega)
    rw [← he] at hfails
    rcases hfails with ⟨hresult, hsource', hopen, hexhausted, hfinish⟩
    have hconsumed : e'.source.consumed = min n text.length := by
      rw [hsource', Source.consumed_struck, Source.consumed_of_text rfl, String.length_toList]
      exact Nat.zero_add _
    refine ⟨hresult, cause.reportedAs_fault, cause.fault_ne_unbalanced, ?_, hconsumed,
      fun hsingle => ?_, hopen, hexhausted⟩
    · rw [hsource', Source.reads_later]
      exact Nat.zero_add _
    · rw [hconsumed, Nat.min_eq_left]
      cases hplace : e.place? call with
      | none =>
          -- There is no such reader, so nothing failed.
          rw [perform_of_none hplace] at hresult
          cases hresult
      | some place =>
          have hplace' : d.place? call = some place := by
            rwa [show e = _ from he, place?_source] at hplace
          exact le_length_of_single hsingle hplace' (hopen place hplace) hsource (by omega) hfinish

/-- A pipe that breaks in a comment inside a list. -/
theorem failure_is_local_comment :
    let calm := Source.ofText "(a ;x\n b) c"
    let struck := calm.struck 4 (.medium "gone") [.char 'y']
    let e := afterAll [.start] (on struck)
    e.places = (afterAll [.start] (on calm)).places ∧
      (e.perform (.tree 0)).1 = .error (.unreadable "gone") ∧
      (e.perform (.tree 0)).2.source.reads = 5 ∧ (e.perform (.tree 0)).2.source.consumed = 4 := by
  intro calm struck e
  have hstart := (failure_is_local "(a ;x\n b) c" 4 (.medium "gone") [.char 'y'] [] .start).1
    (by decide +kernel)
  have htree := (failure_is_local "(a ;x\n b) c" 4 (.medium "gone") [.char 'y'] [.start] (.tree 0)).2
    (by decide +kernel) (by decide +kernel)
  exact ⟨hstart.2.1, htree.1, htree.2.2.2.1, htree.2.2.2.2.2.1 (by decide)⟩

/-- A reader that is set up on a text that another one has read to its end asks
    again, and fewer characters than requests were handed out by then. -/
theorem failure_after_end :
    ¬ ∀ (text : String) (n : Nat) (cause : SourceFailure) (rest : List Event)
      (calls : List Call) (call : Call),
      let d := afterAll calls (on (.ofText text))
      let e := afterAll calls (on ((Source.ofText text).struck n cause rest))
      d.source.reads ≤ n → n < (d.perform call).2.source.reads →
        (e.perform call).2.source.consumed = n := by
  intro h
  have hconsumed := h "" 1 (.medium "gone") [] [.start] .start (by decide +kernel) (by decide +kernel)
  revert hconsumed
  decide +kernel

end Desk

end SmtSession
