import Mathlib.Data.List.TakeWhile
import SmtSession.Proofs.SExpr.Grammar
import SmtSession.Proofs.SExpr.Requests

/-!
# How Far the Reader Looks

How much of its source the reader has seen when it answers. On a pipe from a
running solver this matters as much as the answer: a request for a character
that the solver has not sent blocks, and the solver may be waiting as well.

An atom needs one character more than it has, because only that character
tells where the atom ends. A list does not: it ends with its parenthesis, and
the reader stops there. So a list can be read from a source whatever comes
behind it, be it more text, the end or a failure.

The source of a reader is a list of events, and nothing but requests takes
events from it. `Takes` says which events an operation took and that these are
all it depends on: put anything behind them, and it gives the same answer and
leaves what was put there. It follows from what an operation asks for, with
the end of the input as the one exception. A source without events answers
with its end, which takes nothing and would be another answer if events came.
Hence the law is about operations that did not meet the end, and a reader that
just read a list did not, because it holds a blank.

A list that is cut off is never taken for a complete one, by the same law. What
the reader would have answered with on the first part of a text, it would
answer with on the whole text, and then it would not have read on.

## Main definitions

* `Reader.facing`: A reader whose source goes on with other events.
* `Reader.Takes`: The events that an operation took, which are all it depends on.
* `Reader.firstTree`: The first tree of a source.

## Theorems

* `Reader.Asks.takes`: An operation that does not meet the end takes the answers
  to its requests, and depends on them alone.
* `Reader.isList_iff`: The first character tells lists from atoms.
* `Reader.exists_takes_firstTree`: A list depends on the events it took alone.
* `Reader.list_delimits_itself`: A list is read without a look behind it, and
  no first part of it can be read.
-/

namespace SmtSession

namespace Reader

open SExpr (tokens assemble withoutComments)

/-- The reader with a source that goes on with the given events. -/
def facing (events : List Event) (r : Reader) : Reader :=
  { r with source := { r.source with events } }

/-- An operation that answers took some events one by one and did not meet the
    end of the input. With anything else behind these events, it gives the same
    answer and leaves that. -/
structure Takes {α : Type} (op : Reader → Result α) (r : Reader) (a : α) (r' : Reader)
    (taken : List Event) : Prop where
  events : r.source.events = taken ++ r'.source.events
  reads : r'.source.reads = r.source.reads + taken.length
  unexhausted : r.exhausted = false
  answers : ∀ rest, op (r.facing (taken ++ rest)) = .ok a (r'.facing rest)

/-- Where an operation answers and did not meet the end, the answers to its
    requests are the events that it took. -/
theorem Asks.takes {α : Type} {op : Reader → Result α} {r r' : Reader} {a : α} {n : Nat}
    (h : Asks op r n) (hop : op r = .ok a r') (hr' : r'.exhausted = false) :
    Takes op r a r' (r.source.answered n) := by
  have hends := h.ends
  have hsource := h.source
  rw [hop] at hends hsource
  have hsource : r'.source = r.source.later n := hsource
  rcases hends.of_ok with ⟨-, cs, ⟨hcs, -, hexhausted⟩ | ⟨-, -, hexhausted⟩⟩
  · refine ⟨?_, ?_, hexhausted.symm.trans hr', fun rest => ?_⟩
    · rw [hsource]
      exact Source.events_of_answered (by simp [hcs])
    · rw [hsource, Source.reads_later, Source.length_answered]
    · have hevents := Source.answered_of_events
        (s := { r.source with events := r.source.answered n ++ rest }) rfl
      rw [Source.length_answered] at hevents
      have hanswers := h.depends _ hevents
      rwa [Source.later_of_events, ← hsource, hop] at hanswers
  · rw [hexhausted] at hr'
    cases hr'

/-! ## Lists -/

/-- Inside a list the answer is a list, and a blank takes the place of its
    parenthesis. -/
theorem isList_of_pending {pending : List (List SExpr)} {r r' : Reader} {t : SExpr}
    (h : readInto pending r = .ok t r') (hpending : pending ≠ []) :
    (∃ items, t = .list items) ∧ r'.current = some ' ' := by
  fun_induction readInto pending r with
  | case2 r r₁ hskip hc => exact absurd rfl hpending
  | case5 pending r r₁ hskip r₂ ha hc ih => exact ih h (List.cons_ne_nil _ _)
  | case7 r r₁ hskip items hc hopening =>
      cases h
      exact ⟨⟨items.reverse, rfl⟩, rfl⟩
  | case8 r r₁ hskip items siblings outer hc hopening ih => exact ih h (List.cons_ne_nil _ _)
  | case10 r r₁ hskip c hc hopening hclosing t' r₂ hatom => exact absurd rfl hpending
  | case11 r r₁ hskip c hc hopening hclosing t' r₂ hatom siblings outer ih =>
      exact ih h (List.cons_ne_nil _ _)
  | _ => cases h

theorem readTree_opening {r : Reader} {cs cs' : List Char} (h : r.Holds cs)
    (hcs : cs.dropWhile Text.isBlank = '(' :: cs') :
    ∃ r₁, r₁.Holds cs' ∧ r.readTree = readInto [[]] r₁ := by
  rcases skipBlanks_eq cs h with ⟨r₁, hskip, hr₁⟩
  rw [hcs] at hr₁
  rcases advance_eq hr₁.2 with ⟨r₂, hadvance, hr₂⟩
  refine ⟨r₂, hr₂, ?_⟩
  rw [readTree, readInto_of_skipBlanks hskip, readInto_opening hr₁.1, hadvance, Result.andThen]

/-- The first character that is no blank tells lists from atoms. -/
theorem isList_iff {r r' : Reader} {cs : List Char} {t : SExpr} (h : r.Holds cs)
    (hread : r.readTree = .ok t r') :
    (∃ items, t = .list items) ↔ ∃ cs', cs.dropWhile Text.isBlank = '(' :: cs' := by
  constructor
  · rintro ⟨items, rfl⟩
    rcases skipBlanks_eq cs h with ⟨r₁, hskip, hr₁⟩
    rw [readTree, readInto_of_skipBlanks hskip] at hread
    have hskip₁ : r₁.skipBlanks = .ok () r₁ :=
      skipBlanks_of_stop fun c => isBlank_current_skipBlanks hskip
    rcases hcs : cs.dropWhile Text.isBlank with _ | ⟨c, cs'⟩
    · -- Nothing is left, which is read as an atom.
      rw [hcs] at hr₁
      rw [readInto_skipBlanks hskip₁, hr₁.current] at hread
      cases hread
    · rw [hcs] at hr₁
      by_cases hopening : c = '('
      · exact ⟨cs', by rw [hopening]⟩
      by_cases hclosing : c = ')'
      · rw [readInto_skipBlanks hskip₁, hr₁.1] at hread
        simp [hclosing] at hread
      · have hends : endsAtom c = false := by
          simp [endsAtom, isBlank_current_skipBlanks hskip hr₁.1, hopening, hclosing]
        rcases readAtom_eq hr₁ hends with ⟨s, r₂, rest, hatom, -, -⟩
        rw [readInto_atom hr₁.1 hends, hatom] at hread
        cases hread
  · rintro ⟨cs', hcs⟩
    rcases readTree_opening h hcs with ⟨r₁, -, heq⟩
    exact (isList_of_pending (heq.symm.trans hread) (List.cons_ne_nil _ _)).1

/-- A list in a text is read without meeting the end of the text. -/
theorem unexhausted_of_list {r r' : Reader} {cs : List Char} {items : List SExpr}
    (h : r.Holds cs) (hread : r.readTree = .ok (.list items) r') : r'.exhausted = false := by
  rcases (isList_iff h hread).mp ⟨items, rfl⟩ with ⟨cs', hcs⟩
  rcases readTree_opening h hcs with ⟨r₁, hr₁, heq⟩
  rw [heq] at hread
  have hblank := (isList_of_pending hread (List.cons_ne_nil _ _)).2
  rcases readInto_eq _ [[]] hr₁ rfl (.inl (List.cons_ne_nil _ _)) with
    ⟨t, r₂, rest, hread', hr₂, -, -⟩ | ⟨r₂, hread', -⟩
  · rw [hread] at hread'
    cases hread'
    -- The blank is there to be read, so there is more than the end.
    cases rest with
    | nil =>
        rw [hr₂.current] at hblank
        cases hblank
    | cons c rest => exact hr₂.2.1
  · rw [hread] at hread'
    cases hread'

/-! ## Texts -/

/-- The first tree of a source, by a reader of its own. -/
def firstTree (source : Source) : Result SExpr :=
  match start source with
  | .error fault r => .error fault r
  | .ok () r => r.readTree

theorem firstTree_start (source : Source) :
    firstTree source = (ofSource source).advance.andThen fun _ => readTree := by
  rw [firstTree, start]
  cases (ofSource source).advance <;> rfl

theorem asks_firstTree (source : Source) :
    ∃ n, Asks (fun r => firstTree r.source) (ofSource source) n :=
  asks_andThen (f := advance) (g := fun _ => readTree)
    (fun s => firstTree_start s)
    (asks_advance rfl) fun _ _ _ hr => asks_readTree hr

theorem exists_start (text : String) :
    ∃ r, start (.ofText text) = .ok () r ∧ r.Holds (withoutComments false text.toList) :=
  advance_eq ⟨rfl, text.toList, rfl, rfl⟩

/-- A list depends on the events it took alone. -/
theorem exists_takes_firstTree {text : String} {items : List SExpr} {r' : Reader}
    (h : firstTree (.ofText text) = .ok (.list items) r') :
    ∃ taken, text.toList.map .char = taken ++ r'.source.events ∧
      r'.source.reads = taken.length ∧
        ∀ rest, firstTree (.ofEvents (taken ++ rest)) = .ok (.list items) (r'.facing rest) := by
  have hr' : r'.exhausted = false := by
    rcases exists_start text with ⟨r, hstart, hr⟩
    rw [firstTree, hstart] at h
    exact unexhausted_of_list hr h
  rcases asks_firstTree (.ofText text) with ⟨n, hn⟩
  have htakes := hn.takes h hr'
  exact ⟨_, htakes.events, htakes.reads.trans (Nat.zero_add _), htakes.answers⟩

/-- Where the first tree is a list, the text starts with its parenthesis. -/
theorem opening_of_firstTree {text : String} {items : List SExpr} {r' : Reader}
    (h : firstTree (.ofText text) = .ok (.list items) r') :
    ∃ rest, (withoutComments false text.toList).dropWhile Text.isBlank = '(' :: rest := by
  rcases exists_start text with ⟨r, hstart, hr⟩
  rw [firstTree, hstart] at h
  exact (isList_iff hr h).mp ⟨items, rfl⟩

/-- Where a text starts with a parenthesis, its first tree is a list, or else it
    cannot be read. -/
theorem firstTree_of_opening {text : String} {rest : List Char}
    (h : (withoutComments false text.toList).dropWhile Text.isBlank = '(' :: rest) :
    (∃ items r', firstTree (.ofText text) = .ok (.list items) r') ∨
      SExpr.parseAll text = .error .unbalanced := by
  rcases exists_start text with ⟨r, hstart, hr⟩
  have htokens : tokens (withoutComments false text.toList) ≠ [] := by
    rw [← SExpr.tokens_dropWhile, h]
    exact SExpr.tokens_ne_nil (by decide) rest
  rcases readInto_eq _ [] hr rfl (.inr htokens) with
    ⟨t, r', cs', hread, -, -, -⟩ | ⟨r', -, hassemble⟩
  · rcases (isList_iff hr hread).mpr ⟨rest, h⟩ with ⟨items, rfl⟩
    refine .inl ⟨items, r', ?_⟩
    rw [firstTree, hstart]
    exact hread
  · right
    have hnone : SExpr.assemble [] [] (tokens (withoutComments false text.toList)) = none :=
      hassemble []
    rw [SExpr.parseAll_eq, hnone]

theorem isPrefix_withoutComments (inside : Bool) (cs ds : List Char) :
    withoutComments inside cs <+: withoutComments inside (cs ++ ds) := by
  induction cs generalizing inside with
  | nil => exact List.nil_prefix
  | cons c cs ih =>
      simp only [List.cons_append, withoutComments]
      repeat' split
      all_goals first
        | exact ih _
        | exact List.cons_prefix_cons.mpr ⟨rfl, ih _⟩

/-- The first part of a text that is a list starts like a list as soon as it has
    a parenthesis. -/
theorem opening_of_front {cs ds rest : List Char} (hfront : cs <+: ds) (hopening : '(' ∈ cs)
    (hds : ds.dropWhile Text.isBlank = '(' :: rest) :
    ∃ rest', cs.dropWhile Text.isBlank = '(' :: rest' := by
  rcases hfront with ⟨more, rfl⟩
  rcases hcs : cs.dropWhile Text.isBlank with _ | ⟨c, rest'⟩
  · have hblank := List.dropWhile_eq_nil_iff.mp hcs '(' hopening
    exact absurd hblank (by decide)
  · rw [List.dropWhile_append, hcs] at hds
    injection hds with hc
    exact ⟨rest', by rw [hc]⟩

/-- A list ends with its parenthesis. When the first tree of a text is a list
    that takes all of the text, the same list is read from every source that
    starts with the text, by one request for each character of it and none
    behind it. And a first part of the text, if it reaches the parenthesis that
    opens the list, cannot be read. -/
theorem list_delimits_itself (text : String) (items : List SExpr) (r' : Reader)
    (hread : firstTree (.ofText text) = .ok (.list items) r') (hall : r'.source.events = []) :
    (∀ rest : List Event, ∃ s,
      firstTree (.ofEvents (text.toList.map .char ++ rest)) = .ok (.list items) s ∧
        s.source.events = rest ∧ s.source.reads = text.length) ∧
      ∀ front back : String, text = front ++ back → back ≠ "" →
        '(' ∈ withoutComments false front.toList →
          ∃ fault, SExpr.parseAll front = .error fault ∧ fault.kind = .contract := by
  constructor
  · intro rest
    rcases exists_takes_firstTree hread with ⟨taken, hevents, hreads, hanswers⟩
    rw [hall, List.append_nil] at hevents
    refine ⟨r'.facing rest, ?_, rfl, ?_⟩
    · rw [hevents]
      exact hanswers rest
    · rw [← String.length_toList, ← List.length_map (f := Event.char), hevents]
      exact hreads
  · rintro front back rfl hback hopening
    rcases opening_of_firstTree hread with ⟨rest, hrest⟩
    rw [String.toList_append] at hrest
    rcases opening_of_front (isPrefix_withoutComments false _ _) hopening hrest with ⟨rest', hrest'⟩
    rcases firstTree_of_opening hrest' with ⟨items', r₂, hfront⟩ | hunbalanced
    · -- If it were complete, nothing would have been read of what comes behind.
      rcases exists_takes_firstTree hfront with ⟨taken, hevents, -, hanswers⟩
      have hwhole := hanswers (r₂.source.events ++ back.toList.map .char)
      rw [← List.append_assoc, ← hevents, ← List.map_append, ← String.toList_append] at hwhole
      have hsame : r' = r₂.facing (r₂.source.events ++ back.toList.map .char) := by
        injection hread.symm.trans hwhole
      rw [hsame] at hall
      have hempty : back.toList = [] := List.map_eq_nil_iff.mp (List.append_eq_nil_iff.mp hall).2
      exact absurd (String.toList_eq_nil_iff.mp hempty) hback
    · exact ⟨.unbalanced, hunbalanced, rfl⟩

/-- A list behind a comment, with a quoted parenthesis, a comment in the middle
    of an atom, and an atom that touches a parenthesis. -/
theorem list_delimits_itself_nested :
    let text := "; (\n (|)| (a;)\nb()c))"
    let tree := [.atom ")", .list [.atom "a", .atom "b", .list [], .atom "c"]]
    (∃ r', firstTree (.ofText text) = .ok (.list tree) r' ∧ r'.source.events = []) ∧
      (∃ s, firstTree (.ofEvents (text.toList.map .char ++ [.failure (.medium "gone")])) =
          .ok (.list tree) s ∧
        s.source.events = [.failure (.medium "gone")] ∧ s.source.reads = text.length) ∧
      ∃ fault, SExpr.parseAll "; (\n (|)| (a;)" = .error fault ∧ fault.kind = .contract := by
  intro text tree
  have hrun : (match firstTree (.ofText text) with
      | .ok t r' => decide (t = .list tree ∧ r'.source.events = [])
      | .error _ _ => false) = true := by decide +kernel
  cases hread : firstTree (.ofText text) with
  | error fault r' => simp [hread] at hrun
  | ok t r' =>
      simp only [hread, decide_eq_true_eq] at hrun
      rcases hrun with ⟨rfl, hall⟩
      have hlist := list_delimits_itself text tree r' hread hall
      exact ⟨⟨r', rfl, hall⟩, hlist.1 [.failure (.medium "gone")],
        hlist.2 "; (\n (|)| (a;)" "\nb()c))" (by decide) (by decide) (by decide)⟩

end Reader

end SmtSession
