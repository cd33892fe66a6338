import SmtSession.Proofs.SExpr.EndOfInput
import SmtSession.Proofs.SExpr.Grammar

/-!
# Asking Again after a Failure

A reader that failed to find out whether its input is at the end can be asked
again. What it goes on with is the character that it held when the source
failed. Between blanks this is a blank, and the reader goes on as if nothing had
happened. Inside a comment it is a character of the comment. Nothing tells it
from one outside, so when it is no blank the reader takes it for the start of a
token, and the rest of the comment for what is behind that token.

`lead` follows the reader through the answers of the source, and says what it
comes to in the end. Neither a failing attempt nor a successful one changes
what the reader comes to, and this is the invariant that carries the proof
through any number of attempts. Then failures outside comments drop out, and
for the others the two characters that are come to, and the tokens behind
them, have to be compared.

## Main definitions

* `undisturbed`: The answers of a source that never fails.
* `interrupted`: Whether a failure comes inside a comment.
* `Reader.lead`, `Reader.found`: What a reader comes to that asks again.
* `Reader.Retried`: To ask again until there is an answer.
* `Reader.ahead`: The characters that a reader goes on with.

## Theorems

* `Reader.found_atEnd`: No attempt changes what the reader comes to.
* `Reader.exists_retried`: There is an answer in the end.
* `Reader.found_undisturbed`: Failures outside comments make no difference.
* `Desk.answers_of_events`: What calls return depends on what is to come.
* `Desk.retried_iff`: When asking again is as good as no failure.
* `Desk.comment_read_as_atom`: It is not always.
-/

namespace SmtSession

/-- Whether the source failed. -/
def Event.isFailure : Event → Bool
  | .failure _ => true
  | _ => false

/-- The answers of a source that never fails. -/
def undisturbed (events : List Event) : List Event := events.filter fun e => !e.isFailure

/-- The characters that a source has to give. -/
def characters : List Event → List Char
  | [] => []
  | .char c :: events => c :: characters events
  | _ :: events => characters events

/-- Whether a failure comes inside a comment before the end of the input. -/
def interrupted (inside : Bool) : List Event → Bool
  | [] => false
  | .finish :: _ => false
  | .failure _ :: events => inside || interrupted false events
  | .char c :: events => interrupted (if inside then c != '\n' else c == ';') events

namespace Reader

open SExpr (tokens assemble withoutComments)

/-- The first character that is not blank, and what the source has to give behind
    it, for a reader that asks again after each failure. Inside a comment the
    reader holds a character of the comment, and a failure makes it forget where
    it is. -/
def lead : Option Char → List Event → Option Char × List Event
  | _, [] => (none, [])
  | _, .finish :: events => (none, events)
  | none, .failure _ :: events => lead none events
  | some d, .failure _ :: events => if Text.isBlank d then lead none events else (some d, events)
  | none, .char c :: events =>
    if c = ';' then lead (some c) events
    else if Text.isBlank c then lead none events
    else (some c, events)
  | some _, .char c :: events => if c = '\n' then lead none events else lead (some c) events

/-- The same from the character held on. -/
def found (r : Reader) : Option Char × List Event :=
  match r.current with
  | none => (none, r.source.events)
  | some c => if Text.isBlank c then lead none r.source.events else (some c, r.source.events)

theorem found_of_blank {r : Reader} {c : Char} (hc : r.current = some c)
    (hblank : Text.isBlank c = true) : r.found = lead none r.source.events := by
  rw [found, hc]
  exact if_pos hblank

theorem found_of_stop {r : Reader} (h : ∀ c, r.current = some c → Text.isBlank c = false) :
    r.found = (r.current, r.source.events) := by
  rw [found]
  cases hc : r.current with
  | none => rfl
  | some c => exact if_neg (by simp [h c hc])

/-- One request inside a comment and one outside. -/
theorem lead_inside (d : Char) (s : Source) :
    lead (some d) s.events = match s.upcoming with
      | .char c => if c = '\n' then lead none s.next.events else lead (some c) s.next.events
      | .finish => (none, s.next.events)
      | .failure _ =>
        if Text.isBlank d then lead none s.next.events else (some d, s.next.events) := by
  rcases s with ⟨_ | ⟨_ | _ | _, events⟩, reads, consumed⟩ <;> rfl

theorem lead_outside (s : Source) :
    lead none s.events = match s.upcoming with
      | .char c =>
        if c = ';' then lead (some c) s.next.events
        else if Text.isBlank c then lead none s.next.events
        else (some c, s.next.events)
      | .finish => (none, s.next.events)
      | .failure _ => lead none s.next.events := by
  rcases s with ⟨_ | ⟨_ | _ | _, events⟩, reads, consumed⟩ <;> rfl

/-! ## What Does not Change -/

theorem found_dropComment {r : Reader} {d : Char} (hr : r.exhausted = false)
    (hd : r.current = some d) (hline : d ≠ '\n') :
    r.dropComment.left.found = lead (some d) r.source.events := by
  rw [dropComment_request hd hline, lead_inside]
  cases hanswer : r.source.upcoming with
  | finish =>
      rw [request_of_finish hr hanswer, Result.andThen, dropComment_of_stop (by rintro c ⟨⟩)]
      rfl
  | failure cause =>
      -- The character of the comment is what the next attempt starts with.
      rw [request_of_failure hr hanswer, Result.andThen]
      simp only [Result.left, found, onto, hd]
  | char c =>
      have hrequest := request_of_char hr hanswer
      rw [hrequest, Result.andThen]
      dsimp only
      by_cases hc : c = '\n'
      · rw [dropComment_of_stop (by simp [hc]), if_pos hc, hc]
        rfl
      · rw [if_neg hc]
        exact found_dropComment rfl rfl hc
termination_by r.weight
decreasing_by
  rw [weight_of_current hd]
  exact Nat.lt_succ_of_le (weight_request_le hrequest)

theorem found_advance {r : Reader} {c : Char} (hr : r.exhausted = false) (hc : r.current = some c)
    (hblank : Text.isBlank c = true) : r.advance.left.found = r.found := by
  rw [advance_request, found_of_blank hc hblank, lead_outside]
  cases hanswer : r.source.upcoming with
  | finish =>
      rw [request_of_finish hr hanswer]
      rfl
  | failure cause =>
      -- The blank is still held, so the next attempt does the same.
      rw [request_of_failure hr hanswer]
      exact found_of_blank hc hblank
  | char d =>
      rw [request_of_char hr hanswer, Result.andThen]
      dsimp only
      by_cases hd : d = ';'
      · rw [if_pos (by rw [hd]), if_pos hd]
        exact found_dropComment rfl rfl (by rw [hd]; decide)
      · rw [if_neg (by simpa using hd), if_neg hd]
        rfl

theorem found_skipBlanks {r : Reader} (hr : r.Settled) : r.skipBlanks.left.found = r.found := by
  cases hc : r.current with
  | none =>
      rw [skipBlanks_of_stop (by simp [hc])]
      rfl
  | some c =>
      by_cases hblank : Text.isBlank c = true
      · have hadvanced := found_advance (hr.unexhausted hc) hc hblank
        rcases asks_advance (hr.unexhausted hc) with ⟨n, -, hends, -⟩
        rw [skipBlanks_blank hc hblank]
        cases hadvance : r.advance with
        | error fault r₁ =>
            rw [hadvance] at hadvanced
            exact hadvanced
        | ok _ r₁ =>
            rw [hadvance] at hadvanced hends
            exact (found_skipBlanks hends.of_ok.1).trans hadvanced
      · rw [skipBlanks_of_current hc (by simpa using hblank)]
        rfl
termination_by r.weight
decreasing_by exact weight_advance_lt hc hadvance

theorem found_atEnd {r : Reader} (hr : r.Settled) : r.atEnd.left.found = r.found := by
  have hfound := found_skipBlanks hr
  rw [atEnd_skipBlanks]
  cases hskip : r.skipBlanks <;> rw [hskip] at hfound <;> exact hfound

/-- Ask whether the input is at its end, and ask again after each failure, until
    there is an answer. -/
inductive Retried : Reader → Bool → Reader → Prop
  | answers {r r' : Reader} {ended : Bool} (h : r.atEnd = .ok ended r') : Retried r ended r'
  | again {r r₁ r' : Reader} {fault : Fault} {ended : Bool} (h : r.atEnd = .error fault r₁)
      (hagain : Retried r₁ ended r') : Retried r ended r'

theorem Retried.of_answer {r : Reader} {ended : Bool}
    (h : r.atEnd.answer.toOption = some ended) : Retried r ended r.atEnd.left := by
  cases hend : r.atEnd with
  | ok ended' r' =>
      rw [hend] at h
      cases h
      exact .answers hend
  | error fault r' =>
      rw [hend] at h
      cases h

theorem Retried.of_fault {r r' : Reader} {ended : Bool} (h : r.atEnd.answer.toOption = none)
    (hagain : Retried r.atEnd.left ended r') : Retried r ended r' := by
  cases hend : r.atEnd with
  | ok ended' r₁ =>
      rw [hend] at h
      cases h
  | error fault r₁ =>
      rw [hend] at hagain
      exact .again hend hagain

theorem settled_atEnd {r : Reader} (hr : r.Settled) : r.atEnd.left.Settled := by
  rcases asks_atEnd hr with ⟨n, -, hends, -⟩
  exact hends.settled hr

/-- However often it takes, the reader comes to what it would find. -/
theorem Retried.found_eq {r r' : Reader} {ended : Bool} (h : Retried r ended r')
    (hr : r.Settled) :
    r'.Settled ∧ ended = r'.current.isNone ∧
      (∀ c, r'.current = some c → Text.isBlank c = false) ∧
      r.found = (r'.current, r'.source.events) := by
  induction h with
  | @answers r r' ended h =>
      have hsettled := settled_atEnd hr
      have hfound := found_atEnd hr
      rw [h] at hsettled hfound
      have hfound : r'.found = r.found := hfound
      rcases of_atEnd h with ⟨hskip, hended⟩
      have hblank (c : Char) (hc : r'.current = some c) := isBlank_current_skipBlanks hskip hc
      exact ⟨hsettled, hended, hblank, hfound.symm.trans (found_of_stop hblank)⟩
  | @again r r₁ r' fault ended h hagain ih =>
      have hsettled := settled_atEnd hr
      have hfound := found_atEnd hr
      rw [h] at hsettled hfound
      rcases ih hsettled with ⟨hr', hended, hblank, hfound'⟩
      exact ⟨hr', hended, hblank, hfound.symm.trans hfound'⟩

/-- A failure takes an event at least. -/
theorem length_events_of_atEnd {r r' : Reader} {fault : Fault} (hr : r.Settled)
    (h : r.atEnd = .error fault r') : r'.source.events.length < r.source.events.length := by
  rcases asks_atEnd hr with ⟨n, hsource, hends, -⟩
  rw [h] at hsource hends
  have hsource : r'.source = r.source.later n := hsource
  rcases hends.of_error (atEnd_ne_unbalanced h) with ⟨cs, cause, hanswered⟩
  have hevents := Source.events_of_answered (s := r.source) (n := n) (by simp [hanswered])
  have hlength := congrArg List.length hevents
  rw [List.length_append, hanswered, List.length_append, ← hsource] at hlength
  rw [hlength]
  simp

/-- Asking again comes to an end, because the source cannot fail for ever. -/
theorem exists_retried {r : Reader} (hr : r.Settled) : ∃ ended r', Retried r ended r' := by
  cases h : r.atEnd with
  | ok ended r' => exact ⟨ended, r', .answers h⟩
  | error fault r₁ =>
      have hsettled := settled_atEnd hr
      rw [h] at hsettled
      rcases exists_retried (r := r₁) hsettled with ⟨ended, r', hagain⟩
      exact ⟨ended, r', .again h hagain⟩
termination_by r.source.events.length
decreasing_by exact length_events_of_atEnd hr h

/-! ## Outside Comments -/

@[simp] theorem undisturbed_char (c : Char) (events : List Event) :
    undisturbed (.char c :: events) = .char c :: undisturbed events := rfl

/-- When no failure comes inside a comment, failures make no difference. -/
theorem lead_undisturbed (inside : Option Char) {events : List Event}
    (h : interrupted inside.isSome events = false) :
    lead inside (undisturbed events) =
      ((lead inside events).1, undisturbed (lead inside events).2) := by
  induction events generalizing inside with
  | nil => cases inside <;> rfl
  | cons event events ih =>
      cases event with
      | finish => cases inside <;> rfl
      | failure cause =>
          cases inside with
          | none => exact ih none h
          | some d =>
              -- This one would be inside a comment.
              simp [interrupted] at h
      | char c =>
          cases inside with
          | none =>
              simp only [undisturbed_char, lead]
              by_cases hc : c = ';'
              · rw [if_pos hc, if_pos hc]
                exact ih (some c) (by simpa [interrupted, hc] using h)
              · rw [if_neg hc, if_neg hc]
                by_cases hblank : Text.isBlank c = true
                · rw [if_pos hblank, if_pos hblank]
                  exact ih none
                    (by simpa [interrupted, beq_eq_false_iff_ne.mpr hc] using h)
                · rw [if_neg hblank, if_neg hblank]
          | some d =>
              simp only [undisturbed_char, lead]
              by_cases hc : c = '\n'
              · rw [if_pos hc, if_pos hc]
                exact ih none (by simpa [interrupted, hc] using h)
              · rw [if_neg hc, if_neg hc]
                exact ih (some c) (by simpa [interrupted, bne_iff_ne.mpr hc] using h)

theorem found_undisturbed (place : Place) {s : Source} (h : interrupted false s.events = false) :
    (place.on { s with events := undisturbed s.events }).found =
      ((place.on s).found.1, undisturbed (place.on s).found.2) := by
  simp only [found, Place.on]
  cases place.current with
  | none => rfl
  | some c =>
      by_cases hblank : Text.isBlank c = true
      · simp only [hblank, if_true]
        exact lead_undisturbed none h
      · simp only [hblank, Bool.false_eq_true, if_false]

theorem undisturbed_map (cs : List Char) : undisturbed (cs.map .char) = cs.map .char := by
  induction cs with
  | nil => rfl
  | cons c cs ih => exact congrArg (_ :: ·) ih

/-- Settled readers that hold the same have met the end both or neither. -/
theorem place_eq_of_current {r r' : Reader} (hr : r.Settled) (hr' : r'.Settled)
    (h : r.current = r'.current) : r.place = r'.place := by
  rw [Reader.place, Reader.place, h, Place.mk.injEq]
  refine ⟨Bool.eq_iff_iff.mpr (hr.trans ?_), rfl⟩
  rw [h]
  exact hr'.symm

/-- With failures outside comments, a reader that asks again comes to the same as one
    whose source never fails. -/
theorem Retried.eq_undisturbed {place : Place} {s : Source} {ended ended' : Bool} {u v : Reader}
    {left : List Char} (hplace : ∀ source, (place.on source).Settled)
    (hu : Retried (place.on { s with events := undisturbed s.events }) ended u)
    (hv : Retried (place.on s) ended' v) (hleft : v.source.events = left.map .char)
    (houtside : interrupted false s.events = false) :
    ended' = ended ∧ v.place = u.place ∧ v.source.events = u.source.events := by
  rcases hu.found_eq (hplace _) with ⟨husettled, hended, -, hufound⟩
  rcases hv.found_eq (hplace _) with ⟨hvsettled, hended', -, hvfound⟩
  have hfound := found_undisturbed place houtside
  rw [hvfound, hufound, hleft, undisturbed_map, ← hleft] at hfound
  rcases Prod.mk.inj hfound with ⟨hcurrent, hevents⟩
  exact ⟨by rw [hended, hended', hcurrent], place_eq_of_current hvsettled husettled hcurrent.symm,
    hevents.symm⟩

/-! ## What Is Read Afterwards -/

/-- The characters outside comments from the first that is not blank. -/
def ahead (r : Reader) : List Char :=
  match r.found with
  | (none, _) => []
  | (some c, events) => c :: withoutComments false (characters events)

theorem characters_map (cs : List Char) : characters (cs.map .char) = cs := by
  induction cs with
  | nil => rfl
  | cons c cs ih => exact congrArg (c :: ·) ih

/-- A reader of a text that came to what it would find holds the characters
    ahead. -/
theorem holds_ahead {r r' : Reader} {left : List Char} (hr' : r'.Settled)
    (hfound : r.found = (r'.current, r'.source.events))
    (hleft : r'.source.events = left.map .char) : r'.Holds r.ahead := by
  rw [ahead, hfound]
  cases hc : r'.current with
  | none => exact hc
  | some c =>
      refine ⟨hc, hr'.unexhausted hc, left, hleft, ?_⟩
      rw [hleft, characters_map]

/-- What is ahead starts with a character that makes a token. -/
theorem assemble_ahead_eq_nil_iff {r r' : Reader}
    (hblank : ∀ c, r'.current = some c → Text.isBlank c = false)
    (hfound : r.found = (r'.current, r'.source.events)) :
    assemble [] [] (tokens r.ahead) = some [] ↔ r'.current.isNone = true := by
  rw [SExpr.assemble_eq_some_iff, ahead, hfound]
  cases hc : r'.current with
  | none => exact iff_of_true SExpr.tokens_nil rfl
  | some c => exact iff_of_false (SExpr.tokens_ne_nil (hblank c hc) _) (by simp)

theorem answer_readAll {r : Reader} {cs : List Char} (h : r.Holds cs) :
    r.readAll.answer = match assemble [] [] (tokens cs) with
      | some trees => .ok trees
      | none => .error .unbalanced := by
  rcases readAll_eq _ h (Nat.lt_succ_self _) with
    ⟨trees, r', hall, hassemble⟩ | ⟨r', hall, hassemble⟩
  · rw [hall, hassemble []]
    rfl
  · rw [hall, hassemble []]
    rfl

/-- Readers read the same trees just when their tokens make up the same. -/
theorem answer_readAll_eq_iff {r r' : Reader} {cs cs' : List Char} (h : r.Holds cs)
    (h' : r'.Holds cs') : r.readAll.answer = r'.readAll.answer ↔
      assemble [] [] (tokens cs) = assemble [] [] (tokens cs') := by
  rw [answer_readAll h, answer_readAll h']
  cases assemble [] [] (tokens cs) <;> cases assemble [] [] (tokens cs') <;> simp

end Reader

namespace Desk

open SExpr (tokens assemble)
open Reader (Retried)

/-- What some calls return. -/
def answers : List Call → Desk → List (Except Fault Answer)
  | [], _ => []
  | call :: calls, d => (d.perform call).1 :: answers calls (d.perform call).2

/-- How much was read before makes no difference. -/
theorem answers_of_events (calls : List Call) {d : Desk} (hd : d.Settled) {s : Source}
    (hs : s.events = d.source.events) : answers calls { d with source := s } = answers calls d := by
  induction calls generalizing d s with
  | nil => rfl
  | cons call calls ih =>
      rcases asks_perform hd call with ⟨n, hasks⟩
      have hanswers : s.answered n = d.source.answered n := by
        rw [Source.answered_eq_map, Source.answered_eq_map, hs]
      rw [answers, answers, hasks.depends s hanswers]
      refine congrArg (_ :: ·) (ih (settled_perform hd call) ?_)
      rw [hasks.source, Source.events_later, Source.events_later, hs]

/-- A text never fails. -/
theorem exists_atEnd_of_text {r : Reader} {left : List Char} (hr : r.Settled)
    (hleft : r.source.events = left.map .char) :
    ∃ ended r', r.atEnd = .ok ended r' ∧ ∃ left' : List Char, r'.source.events = left'.map .char := by
  rcases Reader.asks_atEnd hr with ⟨n, hsource, hends, -⟩
  cases h : r.atEnd with
  | ok ended r' =>
      rw [h] at hsource
      have hsource : r'.source = r.source.later n := hsource
      refine ⟨ended, r', rfl, left.drop n, ?_⟩
      rw [hsource, Source.events_later, hleft, List.map_drop]
  | error fault r' =>
      rw [h] at hends
      rcases hends.of_error (Reader.atEnd_ne_unbalanced h) with ⟨cs, cause, hanswered⟩
      have hmem : .failure cause ∈ r.source.answered n := by simp [hanswered]
      rw [Source.answered_of_text hleft] at hmem
      rcases List.mem_append.mp hmem with hmem | hmem
      · rcases List.mem_map.mp hmem with ⟨c, -, hc⟩
        cases hc
      · cases (List.mem_replicate.mp hmem).2

theorem settled_set {d : Desk} (hd : d.Settled) {r : Reader} (hr : r.Settled) (i : Nat) :
    (⟨r.source, d.places.set i r.place⟩ : Desk).Settled := by
  intro p hp source
  rcases List.mem_or_eq_of_mem_set hp with hp | rfl
  · exact hd p hp source
  · exact hr

/-- When asking again is as good as no failure. A reader of a text has come to
    some place by any calls, and from there on the source fails now and then
    while it is asked whether the input is at its end. Asking again leads to an
    answer. When no failure comes inside a comment, the answer is that of the
    text itself, and so is everything that any later calls return. In any case the
    answer and the trees that are left are those of the text if and only if the
    tokens that the reader goes on with make up the same trees. -/
theorem retried_iff (text : String) (calls : List Call) (i : Nat) (place : Place)
    (hplace : (afterAll calls (on (.ofText text))).places[i]? = some place) (es : List Event)
    (hes : undisturbed es = (afterAll calls (on (.ofText text))).source.events) :
    let d := afterAll calls (on (.ofText text))
    let calm := place.on d.source
    let struck := place.on { d.source with events := es }
    ∃ ended u, calm.atEnd = .ok ended u ∧ (∃ ended' s, Retried struck ended' s) ∧
      ∀ ended' s, Retried struck ended' s →
        (∃ left : List Char, s.source.events = left.map .char) →
        (interrupted false es = false →
          ended' = ended ∧ ∀ later : List Call,
            answers later ⟨s.source, d.places.set i s.place⟩ =
              answers later ⟨u.source, d.places.set i u.place⟩) ∧
        (ended' = ended ∧ s.readAll.answer = u.readAll.answer ↔
          assemble [] [] (tokens struck.ahead) = assemble [] [] (tokens calm.ahead)) := by
  intro d calm struck
  have hd : d.Settled := settled_afterAll calls (settled_on _)
  have hpl : ∀ source, (place.on source).Settled := hd place (List.mem_of_getElem? hplace)
  have htext : ∃ cs : List Char, d.source.events = cs.map .char := by
    rcases source_afterAll calls (settled_on (.ofText text)) with ⟨n, hn⟩
    refine ⟨text.toList.drop n, ?_⟩
    rw [hn, Source.events_later, List.map_drop]
    rfl
  rcases htext with ⟨cs, hcs⟩
  rcases exists_atEnd_of_text (hpl d.source) hcs with ⟨ended, u, hu, left', hleft'⟩
  refine ⟨ended, u, hu, Reader.exists_retried (hpl _), ?_⟩
  rintro ended' s hs ⟨left, hleft⟩
  refine ⟨fun houtside => ?_, ?_⟩
  · have hcalm : calm = place.on { struck.source with events := undisturbed es } := by
      rw [hes]
      rfl
    have hu : Retried (place.on { struck.source with events := undisturbed es }) ended u :=
      .answers (hcalm ▸ hu)
    rcases hu.eq_undisturbed hpl hs hleft houtside with ⟨hended, hsame, hevents⟩
    refine ⟨hended, fun later => ?_⟩
    rw [hsame]
    exact answers_of_events later (d := ⟨u.source, d.places.set i u.place⟩)
      (settled_set hd (Retried.found_eq hu (hpl _)).1 i) hevents
  · rcases hs.found_eq (hpl _) with ⟨hssettled, hended', hsblank, hsfound⟩
    rcases (Retried.answers hu).found_eq (hpl _) with ⟨husettled, hended, hublank, hufound⟩
    have hread := Reader.answer_readAll_eq_iff (Reader.holds_ahead hssettled hsfound hleft)
      (Reader.holds_ahead husettled hufound hleft')
    refine ⟨fun h => hread.mp h.2, fun hsame => ⟨?_, hread.mpr hsame⟩⟩
    -- The input is at its end just when no tokens are ahead.
    rw [hended', hended, Bool.eq_iff_iff, ← Reader.assemble_ahead_eq_nil_iff hsblank hsfound,
      ← Reader.assemble_ahead_eq_nil_iff hublank hufound, hsame]

/-- The source fails in front of a comment and behind it. -/
theorem retried_iff_outside :
    let d := afterAll [.start] (on (.ofText " ;x\ny"))
    let place : Place := ⟨false, some ' '⟩
    let calm := place.on d.source
    let struck := place.on { d.source with
      events := [.failure (.medium "gone"), .char ';', .char 'x', .char '\n',
        .failure (.state "closed"), .char 'y'] }
    ∃ u s, calm.atEnd = .ok false u ∧ Retried struck false s ∧
      ∀ later : List Call,
        answers later ⟨s.source, d.places.set 0 s.place⟩ =
          answers later ⟨u.source, d.places.set 0 u.place⟩ := by
  intro d place calm struck
  have hretried : Retried struck false struck.atEnd.left.atEnd.left.atEnd.left :=
    .of_fault (by decide +kernel) (.of_fault (by decide +kernel) (.of_answer (by decide +kernel)))
  rcases retried_iff " ;x\ny" [.start] 0 place (by decide +kernel) struck.source.events
    (by decide +kernel) with ⟨ended, u, hu, -, hall⟩
  rcases (hall _ _ hretried ⟨[], by decide +kernel⟩).1 (by decide +kernel) with ⟨rfl, hlater⟩
  exact ⟨u, _, hu, hretried, hlater⟩

/-- The source fails in a comment. The retry takes the semicolon for the start
    of an atom, and the comment becomes part of it. -/
theorem comment_read_as_atom :
    let d := afterAll [.start] (on (.ofText " ;x\ny"))
    let place : Place := ⟨false, some ' '⟩
    let calm := place.on d.source
    let struck := place.on { d.source with
      events := [.char ';', .failure (.medium "gone"), .char 'x', .char '\n', .char 'y'] }
    d.places = [place] ∧ undisturbed struck.source.events = d.source.events ∧
      (∃ u, Retried calm false u ∧ u.readAll.answer.toOption = some [.atom "y"]) ∧
        ∃ s, Retried struck false s ∧ s.readAll.answer.toOption = some [.atom ";x", .atom "y"] := by
  intro d place calm struck
  refine ⟨by decide +kernel, by decide +kernel, ?_, ?_⟩
  · exact ⟨calm.atEnd.left, .of_answer (by decide +kernel), by decide +kernel⟩
  · exact ⟨struck.atEnd.left.atEnd.left,
      .of_fault (by decide +kernel) (.of_answer (by decide +kernel)), by decide +kernel⟩

end Desk

end SmtSession
