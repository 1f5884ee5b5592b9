import Mathlib.Data.Nat.Basic
import SqlBackend.Fragment
import SqlBackend.Proofs.Predicate.Truth

/-! # Reading conditions

The words of a condition, and what the condition says of the values of its
operands. Operands are opaque: all that is known of one is its text and its
value. `and` binds more tightly than `or`, `not` applies to the test behind it,
and parentheses hold a whole condition.
-/

namespace SqlBackend

/-- The words that join conditions. -/
inductive Connective where
  | and
  | or
deriving DecidableEq, Repr

namespace Connective

def combine : Connective → Truth → Truth → Truth
  | and => .and
  | or => .or

def combineAll : Connective → List Truth → Truth
  | and => .all
  | or => .any

theorem combineAll_cons (c : Connective) (a : Truth) (rest : List Truth) :
    c.combineAll (a :: rest) = c.combine a (c.combineAll rest) := by
  cases c <;> rfl

theorem combineAll_singleton (c : Connective) (a : Truth) : c.combineAll [a] = a := by
  cases c with
  | and => exact Truth.and_yes a
  | or => exact Truth.or_no a

end Connective

/-- A word of a condition over operands `ι`. -/
inductive Token (ι : Type) where
  | operand (o : ι)
  | comparison (op : BinaryOp)
  | isNull
  | negation
  | connective (c : Connective)
  | opening
  | closing
  | caseWhen
  | caseThen
  | caseElse
  | caseEnd
  | number (n : Nat)

namespace Token

variable {ι : Type}

def text (fragment : ι → Fragment) : Token ι → Fragment
  | operand o => fragment o
  | comparison op => .ofText (" " ++ op.text ++ " ")
  | isNull => .ofText " is null"
  | negation => .ofText "not "
  | connective .and => .ofText " and "
  | connective .or => .ofText " or "
  | opening => .ofText "("
  | closing => .ofText ")"
  | caseWhen => .ofText "case when "
  | caseThen => .ofText " then "
  | caseElse => .ofText " else "
  | caseEnd => .ofText " end"
  | number n => .ofText (toString n)

/-- The text of the words one behind the other. -/
def texts (fragment : ι → Fragment) (tokens : List (Token ι)) : Fragment :=
  tokens.foldr (fun token rest => token.text fragment ++ rest) {}

/-- Conditions with a connective between them. -/
def joined (c : Connective) : List (List (Token ι)) → List (Token ι)
  | [] => []
  | [part] => part
  | part :: next :: rest => part ++ connective c :: joined c (next :: rest)

theorem texts_cons (fragment : ι → Fragment) (token : Token ι) (rest : List (Token ι)) :
    texts fragment (token :: rest) = token.text fragment ++ texts fragment rest := rfl

theorem texts_append (fragment : ι → Fragment) (first second : List (Token ι)) :
    texts fragment (first ++ second) = texts fragment first ++ texts fragment second := by
  induction first with
  | nil => simp [texts]
  | cons token rest ih =>
      rw [List.cons_append, texts_cons, ih, texts_cons, Fragment.append_assoc]

end Token

/-- How much of a condition is read: one test, or all that is joined by a
connective and those that bind more tightly. -/
inductive Level where
  | test
  | chain (c : Connective)

namespace Level

/-- The level of the parts that a connective joins. -/
def below : Connective → Level
  | .and => test
  | .or => chain .and

def rank : Level → Nat
  | test => 1
  | chain .and => 2
  | chain .or => 3

/-- Whether a condition of this level goes on behind the connective. -/
def includes : Level → Connective → Bool
  | test, _ => false
  | chain .and, c => c = .and
  | chain .or, _ => true

theorem rank_pos : ∀ level : Level, 0 < level.rank
  | test => Nat.one_pos
  | chain .and => Nat.two_pos
  | chain .or => Nat.succ_pos 2

theorem rank_chain (c : Connective) : (chain c).rank = (below c).rank + 1 := by
  cases c <;> rfl

theorem chain_includes (c : Connective) : (chain c).includes c = true := by
  cases c <;> rfl

theorem below_includes (c : Connective) : (below c).includes c = false := by
  cases c <;> rfl

/-- A connective that ends a chain also ends the parts of the chain. -/
theorem below_includes_of_chain {c d : Connective} (h : (chain c).includes d = false) :
    (below c).includes d = false := by
  cases c with
  | and => rfl
  | or => cases h

end Level

namespace Token

variable {ι δ : Type} [LinearOrder δ] (value : ι → Option δ)

/-- Reads a condition of a level off the front of the words. -/
def read : Nat → Level → List (Token ι) → Option (Truth × List (Token ι))
  | 0, _, _ => none
  | fuel + 1, .chain c, tokens => do
      let (first, rest) ← read fuel (.below c) tokens
      match rest with
      | connective d :: more =>
          if d = c then
            let (others, rest) ← read fuel (.chain c) more
            return (c.combine first others, rest)
          else return (first, rest)
      | _ => return (first, rest)
  | fuel + 1, .test, negation :: rest => do
      let (inner, rest) ← read fuel .test rest
      return (inner.not, rest)
  | fuel + 1, .test, opening :: rest => do
      let (inner, rest) ← read fuel (.chain .or) rest
      match rest with
      | closing :: rest => return (inner, rest)
      | _ => none
  | fuel + 1, .test, caseWhen :: rest => do
      let (condition, rest) ← read fuel (.chain .or) rest
      match rest with
      | caseThen :: number a :: caseElse :: number b :: caseEnd :: comparison op :: number n ::
          rest =>
          if op.isComparison then
            return (op.truth (some (if condition = .yes then a else b)) (some n), rest)
          else none
      | _ => none
  | _ + 1, .test, operand l :: comparison op :: operand r :: rest =>
      if op.isComparison then some (op.truth (value l) (value r), rest) else none
  | _ + 1, .test, operand o :: isNull :: rest => some (.ofBool (value o).isNone, rest)
  | _, _, _ => none

theorem read_chain (fuel : Nat) (c : Connective) (tokens : List (Token ι)) :
    read value (fuel + 1) (.chain c) tokens = (do
      let (first, rest) ← read value fuel (.below c) tokens
      match rest with
      | connective d :: more =>
          if d = c then
            let (others, rest) ← read value fuel (.chain c) more
            return (c.combine first others, rest)
          else return (first, rest)
      | _ => return (first, rest)) := rfl

theorem read_negation (fuel : Nat) (tokens : List (Token ι)) :
    read value (fuel + 1) .test (negation :: tokens) = (do
      let (inner, rest) ← read value fuel .test tokens
      return (inner.not, rest)) := rfl

theorem read_opening (fuel : Nat) (tokens : List (Token ι)) :
    read value (fuel + 1) .test (opening :: tokens) = (do
      let (inner, rest) ← read value fuel (.chain .or) tokens
      match rest with
      | closing :: rest => return (inner, rest)
      | _ => none) := rfl

theorem read_caseWhen (fuel : Nat) (tokens : List (Token ι)) :
    read value (fuel + 1) .test (caseWhen :: tokens) = (do
      let (condition, rest) ← read value fuel (.chain .or) tokens
      match rest with
      | caseThen :: number a :: caseElse :: number b :: caseEnd :: comparison op :: number n ::
          rest =>
          if op.isComparison then
            return (op.truth (some (if condition = .yes then a else b)) (some n), rest)
          else none
      | _ => none) := rfl

theorem read_comparison (fuel : Nat) (l r : ι) (op : BinaryOp) (rest : List (Token ι)) :
    read value (fuel + 1) .test (operand l :: comparison op :: operand r :: rest) =
      if op.isComparison then some (op.truth (value l) (value r), rest) else none := rfl

theorem read_isNull (fuel : Nat) (o : ι) (rest : List (Token ι)) :
    read value (fuel + 1) .test (operand o :: isNull :: rest) =
      some (.ofBool (value o).isNone, rest) := rfl

/-- What the words say as one condition, if they are one. -/
def meaning (tokens : List (Token ι)) : Option Truth :=
  match read value (3 * tokens.length + 3) (.chain .or) tokens with
  | some (truth, []) => some truth
  | _ => none

/-- A conjunction in a disjunction needs no parentheses. -/
example (a b c d : Option Nat) :
    meaning id [operand a, isNull, connective .or, operand b, comparison .eq, operand c,
      connective .and, operand d, isNull] =
      some ((Truth.ofBool a.isNone).or ((BinaryOp.eq.truth b c).and (.ofBool d.isNone))) := rfl

/-- The words that may follow a condition of this level: any but a connective it
goes on behind. -/
def Ends (level : Level) (rest : List (Token ι)) : Prop :=
  ∀ c more, rest = connective c :: more → level.includes c = false

/-- Wherever the words stand, a condition of this level reads them, no more and
no less, and says that its truth is `truth`. Each word takes three steps at most,
one for each level. -/
def Reads (level : Level) (tokens : List (Token ι)) (truth : Truth) : Prop :=
  ∀ rest, Ends level rest → ∀ fuel, 3 * tokens.length + level.rank ≤ fuel →
    read value fuel level (tokens ++ rest) = some (truth, rest)

namespace Reads

variable {value} {level : Level} {tokens : List (Token ι)} {truth : Truth}

theorem meaning (h : Reads value (.chain .or) tokens truth) :
    Token.meaning value tokens = some truth := by
  have hread := h [] (by simp [Ends]) (3 * tokens.length + 3) (by simp [Level.rank])
  rw [List.append_nil] at hread
  rw [Token.meaning, hread]

/-- Reading takes at least one step. -/
theorem of_succ (h : ∀ rest, Ends level rest → ∀ fuel, 3 * tokens.length + level.rank ≤ fuel + 1 →
    read value (fuel + 1) level (tokens ++ rest) = some (truth, rest)) :
    Reads value level tokens truth := by
  intro rest hrest fuel hfuel
  cases fuel with
  | zero =>
      have hrank := level.rank_pos
      omega
  | succ fuel => exact h rest hrest fuel hfuel

/-- A part that a connective joins is read by itself as well. -/
theorem chain {c : Connective} (h : Reads value (.below c) tokens truth) :
    Reads value (.chain c) tokens truth := by
  refine of_succ fun rest hrest fuel hfuel => ?_
  have hbelow : Ends (.below c) rest := fun d more hd =>
    Level.below_includes_of_chain (hrest d more hd)
  rw [Level.rank_chain] at hfuel
  have hread := h rest hbelow fuel (by omega)
  simp only [read_chain, hread, Option.bind_eq_bind, Option.bind_some]
  split
  next d more =>
    -- A connective that the chain does not include is left to whoever reads on.
    have hd : d ≠ c := by
      rintro rfl
      have hends := hrest d more rfl
      rw [Level.chain_includes] at hends
      cases hends
    simp [hd]
  next => rfl

/-- A single test is a condition. -/
theorem meaning_test (h : Reads value .test tokens truth) :
    Token.meaning value tokens = some truth :=
  (h.chain (c := .and)).chain (c := .or) |>.meaning

/-- Parts with a connective between them are read as one chain. -/
theorem joined {c : Connective} {α : Type} {parts : List α} {words : α → List (Token ι)}
    {truths : α → Truth} (hne : parts ≠ [])
    (h : ∀ a ∈ parts, Reads value (.below c) (words a) (truths a)) :
    Reads value (.chain c) (Token.joined c (parts.map words))
      (c.combineAll (parts.map truths)) := by
  induction parts with
  | nil => exact absurd rfl hne
  | cons a rest ih =>
      have ha := h a (by simp)
      cases rest with
      | nil =>
          rw [List.map_singleton, List.map_singleton, Connective.combineAll_singleton]
          exact ha.chain
      | cons b rest =>
          have hothers := ih (by simp) fun part hpart => h part (by simp [hpart])
          refine of_succ fun suffix hsuffix fuel hfuel => ?_
          rw [Level.rank_chain] at hfuel
          simp only [List.map_cons, Token.joined, List.append_assoc, List.cons_append,
            List.length_append, List.length_cons] at hfuel hothers ⊢
          have hfirst := ha (connective c :: (Token.joined c (words b :: rest.map words) ++ suffix))
            (by
              rintro d more ⟨rfl, -⟩
              exact Level.below_includes c) fuel (by omega)
          have hrest := hothers suffix hsuffix fuel (by rw [Level.rank_chain]; omega)
          simp [read_chain, hfirst, hrest, Connective.combineAll_cons]

theorem comparison {op : BinaryOp} (hop : op.isComparison = true) (l r : ι) :
    Reads value .test [operand l, .comparison op, operand r] (op.truth (value l) (value r)) := by
  refine of_succ fun rest _ fuel _ => ?_
  simp [read_comparison, hop]

theorem isNull (o : ι) : Reads value .test [operand o, .isNull] (.ofBool (value o).isNone) := by
  refine of_succ fun rest _ fuel _ => ?_
  exact read_isNull value fuel o rest

theorem negation (h : Reads value .test tokens truth) :
    Reads value .test (.negation :: tokens) truth.not := by
  refine of_succ fun rest hrest fuel hfuel => ?_
  simp only [List.length_cons, Level.rank] at hfuel
  have hinner := h rest hrest fuel (by simp only [Level.rank]; omega)
  simp [read_negation, hinner]

/-- Parentheses make a test of any condition. -/
theorem group (h : Reads value (.chain .or) tokens truth) :
    Reads value .test (opening :: (tokens ++ [closing])) truth := by
  refine of_succ fun rest _ fuel hfuel => ?_
  simp only [List.length_cons, List.length_append, List.length_nil, Level.rank] at hfuel
  have hinner := h (closing :: rest) (by simp [Ends]) fuel (by simp only [Level.rank]; omega)
  simp [read_opening, hinner]

/-- A condition that chooses between two numbers, and the number it is compared with. -/
theorem choice (h : Reads value (.chain .or) tokens truth) (a b n : Nat) :
    Reads value .test (caseWhen :: (tokens ++ [caseThen, number a, caseElse, number b, caseEnd,
      .comparison .eq, number n])) (.ofBool ((if truth = .yes then a else b) = n)) := by
  refine of_succ fun rest _ fuel hfuel => ?_
  simp only [List.length_cons, List.length_append, List.length_nil, Level.rank] at hfuel
  have hinner := h (caseThen :: number a :: caseElse :: number b :: caseEnd :: .comparison .eq ::
    number n :: rest) (by simp [Ends]) fuel (by simp only [Level.rank]; omega)
  simp [read_caseWhen, hinner, BinaryOp.isComparison]

end Reads

end Token

end SqlBackend
