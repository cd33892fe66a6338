import SmtSession.Proofs.Script.Trees

/-!
# Meaning

What the texts of terms denote. The meaning of a term is fixed by the language
that scripts are written in, and only a part of it matters here: the symbols
that conversions between integers and bit vectors are spelled out with. So a
semantics is not defined but described. `Semantics` is any relation between
texts and values that gives these symbols their meaning; what it says about
other symbols, about constants and about everything that is not applied in
this way is left open. The conversion of a negative integer to a bit vector is
left open too: it denotes some bit vector of the right width.

A semantics speaks of texts, and it would be easy to ask for too much, because
one text could be an application in two ways. That such relations exist is
shown by construction. An `Interpretation` gives values to the symbols that
are left open, trees are evaluated under it, and a text denotes what the tree
that it spells evaluates to.

## Main definitions

* `Value`: The truth values, the integers, and the bit vectors.
* `call`: An application as it is written.
* `Semantics`: A meaning of texts.
* `Semantics.Renders`: A term is rendered as a text that denotes a value.
* `Script.Refuses`: A term is not rendered.
* `Interpretation.value`: What a tree evaluates to.
* `Interpretation.semantics`: The meaning of texts by the trees they spell.
-/

namespace SmtSession

open SExpr (Spells Delimited)

/-- What a term of one of these sorts can denote. -/
inductive Value where
  | bool (b : Bool)
  | int (n : Int)
  | bits (width : Nat) (b : BitVec width)
deriving DecidableEq

/-- Whether two values are of the same sort. -/
def Value.SameSort : Value → Value → Prop
  | .bool _, .bool _ => True
  | .int _, .int _ => True
  | .bits v _, .bits w _ => v = w
  | _, _ => False

/-- An application as it is written: a head and arguments, each of them after a
    space. -/
def call (head : String) (args : List String) : String :=
  applicationText head (String.join (args.map (" " ++ ·)))

/-- A symbol with indices as it is written. -/
def indexedText (head : String) (indices : List String) : String :=
  call "_" (head :: indices)

/-- A meaning of texts under which the symbols of conversions mean what they
    should. -/
structure Semantics where
  Denotes : String → Value → Prop
  unique {text : String} {v v' : Value} : Denotes text v → Denotes text v' → v = v'
  zero : Denotes "0" (.int 0)
  zeroBit : Denotes "#b0" (.bits 1 0)
  ite {c x y : String} {b : Bool} {v v' : Value} : Denotes c (.bool b) → Denotes x v →
    Denotes y v' → v.SameSort v' → Denotes (call "ite" [c, x, y]) (if b then v else v')
  atLeast {x y : String} {m n : Int} : Denotes x (.int m) → Denotes y (.int n) →
    Denotes (call ">=" [x, y]) (.bool (decide (n ≤ m)))
  equal {x y : String} {w : Nat} {a b : BitVec w} : Denotes x (.bits w a) →
    Denotes y (.bits w b) → Denotes (call "=" [x, y]) (.bool (decide (a = b)))
  opposite {x : String} {n : Int} : Denotes x (.int n) → Denotes (call "-" [x]) (.int (-n))
  /-- Negative integers have some bit vector, nobody knows which. -/
  ofInt {x : String} {w : Nat} {n : Int} : 1 ≤ w → Denotes x (.int n) →
    ∃ b : BitVec w, Denotes (call (indexedText "int2bv" [numeral w]) [x]) (.bits w b) ∧
      (0 ≤ n → (b.toNat : Int) = n % 2 ^ w)
  negation {x : String} {w : Nat} {b : BitVec w} : Denotes x (.bits w b) →
    Denotes (call "bvneg" [x]) (.bits w (-b))
  bit {x : String} {w i : Nat} {b : BitVec w} : i < w → Denotes x (.bits w b) →
    Denotes (call (indexedText "extract" [numeral i, numeral i]) [x])
      (.bits 1 (BitVec.ofBool (b.getLsbD i)))
  count {x : String} {w : Nat} {b : BitVec w} : Denotes x (.bits w b) →
    Denotes (call "bv2nat" [x]) (.int b.toNat)

theorem toNat_ofInt_eq_emod (w : Nat) (n : Int) :
    ((BitVec.ofInt w n).toNat : Int) = n % 2 ^ w := by
  have hpos : (0 : Int) < 2 ^ w := Int.pow_pos (by decide)
  have hcast : ((2 ^ w : Nat) : Int) = 2 ^ w := Int.natCast_pow 2 w
  rw [BitVec.toNat_ofInt, hcast, Int.toNat_of_nonneg (Int.emod_nonneg n (Int.ne_of_gt hpos))]

theorem bits_extractLsb'_one {w : Nat} (b : BitVec w) (i : Nat) :
    Value.bits (i + 1 - i) (b.extractLsb' i (i + 1 - i)) =
      .bits 1 (BitVec.ofBool (b.getLsbD i)) := by
  have hcount : i + 1 - i = 1 := Nat.add_sub_cancel_left i 1
  rw [hcount]
  congr 1
  apply BitVec.eq_of_getLsbD_eq
  intro j hj
  obtain rfl : j = 0 := by omega
  simp

/-- In a script, a term is rendered as a text that denotes a value. -/
def Semantics.Renders (M : Semantics) (s : Script) (t : Term) (v : Value) : Prop :=
  ∃ text s', termText t s = .ok text s' ∧ M.Denotes text v

/-- In a script, a term is not rendered at all. -/
def Script.Refuses (s : Script) (t : Term) : Prop :=
  ∀ text s', termText t s ≠ .ok text s'

/-! ## Evaluating Trees -/

/-- Values for what a semantics leaves open: constants, and applications of
    other heads to values. -/
structure Interpretation where
  constant : String → Option Value
  function : SExpr → List Value → Option Value

namespace Interpretation

/-- The value of a constant. -/
def atomValue (I : Interpretation) (s : String) : Option Value :=
  if s = "#b0" then some (.bits 1 0)
  else if s.toList.all Char.isDigit && !s.toList.isEmpty then some (.int (Text.decimalOf s.toList))
  else I.constant s

/-- The value of an application. -/
def apply (I : Interpretation) : SExpr → List Value → Option Value
  | .atom "ite", [.bool b, v, v'] => some (if b then v else v')
  | .atom ">=", [.int m, .int n] => some (.bool (decide (n ≤ m)))
  | .atom "=", [v, v'] => some (.bool (decide (v = v')))
  | .atom "-", [.int n] => some (.int (-n))
  | .atom "bvneg", [.bits w b] => some (.bits w (-b))
  | .atom "bv2nat", [.bits _ b] => some (.int b.toNat)
  | .list [.atom "_", .atom "int2bv", .atom width], [.int n] =>
    some (.bits (Text.decimalOf width.toList) (BitVec.ofInt _ n))
  | .list [.atom "_", .atom "extract", .atom high, .atom low], [.bits _ b] =>
    let start := Text.decimalOf low.toList
    let count := Text.decimalOf high.toList + 1 - start
    some (.bits count (b.extractLsb' start count))
  | head, args => I.function head args

mutual

/-- What a tree evaluates to, if it is the tree of a term. -/
def value (I : Interpretation) : SExpr → Option Value
  | .atom s => I.atomValue s
  | .list [] => none
  | .list (head :: args) => (values I args).bind (I.apply head)

/-- What trees evaluate to, if all of them are trees of terms. -/
def values (I : Interpretation) : List SExpr → Option (List Value)
  | [] => some []
  | t :: ts => (value I t).bind fun v => (values I ts).map (v :: ·)

end

/-- A text denotes what the tree that it spells evaluates to. -/
def Denotes (I : Interpretation) (text : String) (v : Value) : Prop :=
  ∃ t, Spells text [t] ∧ I.value t = some v

end Interpretation

theorem spells_call {head : String} {h : SExpr} (args : List (String × SExpr))
    (hhead : Spells head [h]) (hargs : ∀ a ∈ args, Spells a.1 [a.2]) :
    Spells (call head (args.map Prod.fst)) [.list (h :: args.map Prod.snd)] := by
  have hjoin : Spells (String.join ((args.map Prod.fst).map (" " ++ ·))) (args.map Prod.snd) ∧
      Delimited (String.join ((args.map Prod.fst).map (" " ++ ·))).toList := by
    induction args with
    | nil => exact ⟨.empty, by simp [Delimited]⟩
    | cons a args ih =>
        rcases ih fun b hb => hargs b (List.mem_cons_of_mem a hb) with ⟨hrest, hdelimited⟩
        have hfirst := hargs a List.mem_cons_self
        simp only [List.map_cons, String.join_cons, String.append_assoc]
        exact ⟨(hfirst.append hrest hdelimited).blank (c := ' ') (by decide), delimited_space _⟩
  exact spells_applicationText hhead hjoin.1 hjoin.2

theorem isPlain_numeral (n : Nat) : SExpr.IsPlain (numeral n) :=
  isPlain_decimalText n

theorem spells_indexedText (head : String) (indices : List Nat) (hhead : SExpr.IsPlain head) :
    Spells (indexedText head (indices.map numeral)) [indexed head (indices.map numeral)] := by
  have h := spells_call ((head, .atom head) :: indices.map fun n => (numeral n, .atom (numeral n)))
    (Spells.plain (s := "_") (by decide)) ?_
  · simpa [indexedText, indexed, Function.comp_def] using h
  · intro a ha
    rcases List.mem_cons.mp ha with rfl | ha
    · exact .plain hhead
    · rcases List.mem_map.mp ha with ⟨n, -, rfl⟩
      exact .plain (isPlain_numeral n)

namespace Interpretation

variable (I : Interpretation)

theorem denotes_unique {text : String} {v v' : Value} (h : I.Denotes text v)
    (h' : I.Denotes text v') : v = v' := by
  rcases h with ⟨t, ht, hv⟩
  rcases h' with ⟨t', ht', hv'⟩
  have htrees : [t] = [t'] := Except.ok.inj (ht.parseAll.symm.trans ht'.parseAll)
  injection htrees with htree
  rw [htree, hv'] at hv
  exact (Option.some.inj hv).symm

theorem denotes_atom {s : String} {v : Value} (hs : SExpr.IsPlain s) (h : I.atomValue s = some v) :
    I.Denotes s v :=
  ⟨.atom s, .plain hs, by rw [value, h]⟩

theorem denotes_call {head : String} {h : SExpr} {v : Value} (args : List (String × Value))
    (hhead : Spells head [h]) (hargs : ∀ a ∈ args, I.Denotes a.1 a.2)
    (happly : I.apply h (args.map Prod.snd) = some v) :
    I.Denotes (call head (args.map Prod.fst)) v := by
  -- The trees that the arguments spell are arguments of the tree.
  have htrees : ∃ ts : List (String × SExpr), ts.map Prod.fst = args.map Prod.fst ∧
      (∀ a ∈ ts, Spells a.1 [a.2]) ∧ I.values (ts.map Prod.snd) = some (args.map Prod.snd) := by
    clear happly
    induction args with
    | nil => exact ⟨[], rfl, by simp, rfl⟩
    | cons a args ih =>
        rcases ih fun b hb => hargs b (List.mem_cons_of_mem a hb) with ⟨ts, htexts, hspells, hvalues⟩
        rcases hargs a List.mem_cons_self with ⟨t, ht, hv⟩
        refine ⟨(a.1, t) :: ts, ?_, ?_, ?_⟩
        · rw [List.map_cons, List.map_cons, htexts]
        · intro b hb
          rcases List.mem_cons.mp hb with rfl | hb
          · exact ht
          · exact hspells b hb
        · rw [List.map_cons, List.map_cons, values, hv, Option.bind_some, hvalues,
            Option.map_some]
  rcases htrees with ⟨ts, htexts, hspells, hvalues⟩
  refine ⟨_, htexts ▸ spells_call ts hhead hspells, ?_⟩
  rw [value, hvalues, Option.bind_some, happly]

/-- The meaning of texts by the trees that they spell. -/
def semantics : Semantics where
  Denotes := I.Denotes
  unique := I.denotes_unique
  zero := by
    refine I.denotes_atom (by decide) ?_
    rw [atomValue, if_neg (by decide), if_pos (by decide)]
    rfl
  zeroBit := I.denotes_atom (by decide) (by rw [atomValue, if_pos rfl])
  ite {c x y b v v'} hc hx hy _ :=
    I.denotes_call [(c, .bool b), (x, v), (y, v')] (.plain (by decide)) (by simp [hc, hx, hy]) rfl
  atLeast {x y m n} hx hy :=
    I.denotes_call [(x, .int m), (y, .int n)] (.plain (by decide)) (by simp [hx, hy]) rfl
  equal {x y w a b} hx hy := by
    have h := I.denotes_call [(x, .bits w a), (y, .bits w b)] (.plain (s := "=") (by decide))
      (by simp [hx, hy]) rfl
    simpa using h
  opposite {x n} hx :=
    I.denotes_call [(x, .int n)] (.plain (by decide)) (by simp [hx]) rfl
  ofInt {x w n} _ hx := by
    refine ⟨BitVec.ofInt w n, ?_, fun _ => ?_⟩
    · refine I.denotes_call [(x, .int n)] (spells_indexedText "int2bv" [w] (by decide))
        (by simp [hx]) ?_
      -- The index is read back from the tree.
      change some (Value.bits (Text.decimalOf (numeral w).toList) (BitVec.ofInt _ n)) = _
      rw [toList_numeral, Text.decimalOf_toDigits]
    · exact toNat_ofInt_eq_emod w n
  negation {x w b} hx :=
    I.denotes_call [(x, .bits w b)] (.plain (by decide)) (by simp [hx]) rfl
  bit {x w i b} _ hx := by
    refine I.denotes_call [(x, .bits w b)] (spells_indexedText "extract" [i, i] (by decide))
      (by simp [hx]) ?_
    change some (Value.bits (Text.decimalOf (numeral i).toList + 1 - Text.decimalOf (numeral i).toList)
      (b.extractLsb' (Text.decimalOf (numeral i).toList) _)) = _
    rw [toList_numeral, Text.decimalOf_toDigits, bits_extractLsb'_one]
  count {x w b} hx :=
    I.denotes_call [(x, .bits w b)] (.plain (by decide)) (by simp [hx]) rfl

end Interpretation

end SmtSession
