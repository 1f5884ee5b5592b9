import SqlBackend.Fragment
import SqlBackend.Statement.Operator

/-! # How a backend groups an expression

The words of an expression, and how PostgreSQL groups them by the precedence of
its operators: arithmetic binds more tightly than concatenation, then follow
predicates of membership, of a range and of a pattern, comparisons, tests for null,
`not`, `and` and `or`. Operators of one precedence are applied from the left; only
predicates and comparisons are not chained.
-/

namespace SqlBackend

/-- A word of an expression. -/
inductive Lexeme where
  /-- An operand by itself: a name, a number, a literal, a call or a query in
  parentheses. -/
  | atom (f : Fragment)
  | operator (op : BinaryOp)
  /-- A predicate behind the operand it is about, such as `in` with a list. -/
  | predicate (f : Fragment)
  | isNull (negated : Bool)
  | not
  | minus
  | opening
  | closing
  | caseWhen
  | caseThen
  | caseElse
  | caseEnd
deriving DecidableEq, Repr

/-- An expression with its operands where its operators take them from. -/
inductive Grouping where
  | atom (f : Fragment)
  | group (inner : Grouping)
  | minus (operand : Grouping)
  | not (operand : Grouping)
  | predicate (operand : Grouping) (f : Fragment)
  | isNull (operand : Grouping) (negated : Bool)
  | binary (op : BinaryOp) (left right : Grouping)
  | choice (condition : Grouping) (positive negative : Fragment)
deriving DecidableEq, Repr

namespace Lexeme

def fragment : Lexeme → Fragment
  | atom f => f
  | operator op => .ofText (" " ++ op.text ++ " ")
  | predicate f => f
  | isNull negated => .ofText (if negated then " is not null" else " is null")
  | not => .ofText "not "
  | minus => .ofText "-"
  | opening => .ofText "("
  | closing => .ofText ")"
  | caseWhen => .ofText "case when "
  | caseThen => .ofText " then "
  | caseElse => .ofText " else "
  | caseEnd => .ofText " end"

/-- The text of the words one behind the other. -/
def texts (words : List Lexeme) : Fragment :=
  words.foldr (fun word rest => word.fragment ++ rest) {}

theorem texts_singleton (word : Lexeme) : texts [word] = word.fragment :=
  Fragment.append_empty _

theorem texts_append (first second : List Lexeme) :
    texts (first ++ second) = texts first ++ texts second := by
  induction first with
  | nil => simp [texts]
  | cons word rest ih =>
      simp only [texts, List.cons_append, List.foldr_cons] at ih ⊢
      rw [ih, Fragment.append_assoc]

/-- Parts with an operator between them. -/
def joined (op : BinaryOp) : List (List Lexeme) → List Lexeme
  | [] => []
  | first :: rest => first ++ rest.flatMap (operator op :: ·)

end Lexeme

/-- Operands that one operator takes from the left. There is none without
operands. -/
def Grouping.joined (op : BinaryOp) : List Grouping → Grouping
  | [] => .atom {}
  | first :: rest => rest.foldl (.binary op) first

/-- The operators that may be chained, by their precedence. -/
inductive Chain where
  | product
  | sum
  | concat
  | and
  | or
deriving DecidableEq, Repr

/-- How tightly a part of an expression is bound. -/
inductive Binding where
  | operand
  | chain (c : Chain)
  | predicate
  | comparison
  | nullTest
deriving DecidableEq, Repr

namespace Binding

/-- The looser a part is bound the higher it ranks. -/
def rank : Binding → Nat
  | operand => 1
  | chain .product => 2
  | chain .sum => 3
  | chain .concat => 4
  | predicate => 5
  | comparison => 6
  | nullTest => 7
  | chain .and => 8
  | chain .or => 9

theorem rank_pos (b : Binding) : 0 < b.rank := by
  rcases b with _ | (_ | _ | _ | _ | _) | _ | _ | _ <;> simp [rank]

theorem rank_le (b : Binding) : b.rank ≤ 9 := by
  rcases b with _ | (_ | _ | _ | _ | _) | _ | _ | _ <;> simp [rank]

end Binding

/-- How tightly the parts of a chain are bound. -/
def Chain.below : Chain → Binding
  | product => .operand
  | sum => .chain .product
  | concat => .chain .sum
  | and => .nullTest
  | or => .chain .and

theorem Chain.rank_chain (c : Chain) : (Binding.chain c).rank = c.below.rank + 1 := by
  cases c <;> rfl

def BinaryOp.binding : BinaryOp → Binding
  | mul | div | mod => .chain .product
  | add | sub => .chain .sum
  | concat => .chain .concat
  | eq | ne | lt | le | gt | ge => .comparison
  | and => .chain .and
  | or => .chain .or

theorem BinaryOp.binding_of_isComparison {op : BinaryOp} (h : op.isComparison = true) :
    op.binding = .comparison := by
  cases op <;> first | rfl | cases h

namespace Lexeme

/-- How tightly a word takes the operand before it, if it takes one. -/
def binding? : Lexeme → Option Binding
  | operator op => some op.binding
  | predicate _ => some .predicate
  | isNull _ => some .nullTest
  | _ => none

mutual

/-- Reads a part that is bound at least so tightly off the front of the words. A
`not` takes all that is bound more tightly than `and`. -/
def read : Nat → Binding → List Lexeme → Option (Grouping × List Lexeme)
  | 0, _, _ => none
  | _ + 1, .operand, atom f :: rest => some (.atom f, rest)
  | fuel + 1, .operand, minus :: rest => do
      let (operand, rest) ← read fuel .operand rest
      return (.minus operand, rest)
  | fuel + 1, .operand, not :: rest => do
      let (operand, rest) ← read fuel .nullTest rest
      return (.not operand, rest)
  | fuel + 1, .operand, opening :: rest => do
      let (inner, rest) ← read fuel (.chain .or) rest
      match rest with
      | closing :: rest => return (.group inner, rest)
      | _ => none
  | fuel + 1, .operand, caseWhen :: rest => do
      let (condition, rest) ← read fuel (.chain .or) rest
      match rest with
      | caseThen :: atom a :: caseElse :: atom b :: caseEnd :: rest =>
          return (.choice condition a b, rest)
      | _ => none
  | _ + 1, .operand, _ => none
  | fuel + 1, .chain c, words => do
      let (first, rest) ← read fuel c.below words
      readChain fuel c first rest
  | fuel + 1, .predicate, words => do
      let (operand, rest) ← read fuel (.chain .concat) words
      match rest with
      | predicate f :: more => return (.predicate operand f, more)
      | _ => return (operand, rest)
  | fuel + 1, .comparison, words => do
      let (left, rest) ← read fuel .predicate words
      match rest with
      | operator op :: more =>
          if op.binding = .comparison then
            let (right, rest) ← read fuel .predicate more
            return (.binary op left right, rest)
          else return (left, rest)
      | _ => return (left, rest)
  | fuel + 1, .nullTest, words => do
      let (operand, rest) ← read fuel .comparison words
      match rest with
      | isNull negated :: more => return (.isNull operand negated, more)
      | _ => return (operand, rest)

/-- Reads on in a chain behind its parts up to `left`. -/
def readChain : Nat → Chain → Grouping → List Lexeme → Option (Grouping × List Lexeme)
  | 0, _, _, _ => none
  | fuel + 1, c, left, operator op :: more =>
      if op.binding = .chain c then do
        let (right, rest) ← read fuel c.below more
        readChain fuel c (.binary op left right) rest
      else some (left, operator op :: more)
  | _ + 1, _, left, rest => some (left, rest)

end

theorem read_opening (fuel : Nat) (words : List Lexeme) :
    read (fuel + 1) .operand (opening :: words) = (do
      let (inner, rest) ← read fuel (.chain .or) words
      match rest with
      | closing :: rest => return (.group inner, rest)
      | _ => none) := rfl

theorem read_not (fuel : Nat) (words : List Lexeme) :
    read (fuel + 1) .operand (not :: words) = (do
      let (operand, rest) ← read fuel .nullTest words
      return (.not operand, rest)) := rfl

theorem read_chain (fuel : Nat) (c : Chain) (words : List Lexeme) :
    read (fuel + 1) (.chain c) words = (do
      let (first, rest) ← read fuel c.below words
      readChain fuel c first rest) := rfl

theorem read_predicate (fuel : Nat) (words : List Lexeme) :
    read (fuel + 1) .predicate words = (do
      let (operand, rest) ← read fuel (.chain .concat) words
      match rest with
      | predicate f :: more => return (.predicate operand f, more)
      | _ => return (operand, rest)) := rfl

theorem read_comparison (fuel : Nat) (words : List Lexeme) :
    read (fuel + 1) .comparison words = (do
      let (left, rest) ← read fuel .predicate words
      match rest with
      | operator op :: more =>
          if op.binding = .comparison then
            let (right, rest) ← read fuel .predicate more
            return (.binary op left right, rest)
          else return (left, rest)
      | _ => return (left, rest)) := rfl

theorem read_nullTest (fuel : Nat) (words : List Lexeme) :
    read (fuel + 1) .nullTest words = (do
      let (operand, rest) ← read fuel .comparison words
      match rest with
      | isNull negated :: more => return (.isNull operand negated, more)
      | _ => return (operand, rest)) := rfl

theorem readChain_operator (fuel : Nat) (c : Chain) (left : Grouping) (op : BinaryOp)
    (more : List Lexeme) :
    readChain (fuel + 1) c left (operator op :: more) =
      if op.binding = .chain c then (do
        let (right, rest) ← read fuel c.below more
        readChain fuel c (.binary op left right) rest)
      else some (left, operator op :: more) := rfl

/-- How the words are grouped as one expression, if they are one. -/
def grouping (words : List Lexeme) : Option Grouping :=
  match read (10 * words.length + 10) (.chain .or) words with
  | some (g, []) => some g
  | _ => none

/-- `not` takes the whole comparison behind it, and `and` no more than that. -/
example (a b c : Fragment) :
    grouping [.not, .atom a, .operator .eq, .atom b, .operator .add, .atom c, .operator .and,
        .atom a, .isNull false] =
      some (.binary .and (.not (.binary .eq (.atom a) (.binary .add (.atom b) (.atom c))))
        (.isNull (.atom a) false)) := rfl

/-- The words that may follow: none that takes an operand which is bound so
tightly. -/
def Ends (b : Binding) (rest : List Lexeme) : Prop :=
  ∀ word ∈ rest.head?, ∀ c ∈ word.binding?, b.rank < c.rank

theorem Ends.tighter {b c : Binding} {rest : List Lexeme} (h : Ends c rest) (hrank : b.rank ≤ c.rank) :
    Ends b rest :=
  fun word hword d hd => Nat.lt_of_le_of_lt hrank (h word hword d hd)

/-- The words are read as one part that is bound as tightly as `b`, no more and
no less, wherever nothing follows that is bound as tightly as `limit`. Each word
takes ten steps at most. -/
def Reads (b limit : Binding) (words : List Lexeme) (g : Grouping) : Prop :=
  ∀ rest, Ends limit rest → ∀ fuel, 10 * words.length + b.rank ≤ fuel →
    read fuel b (words ++ rest) = some (g, rest)

namespace Reads

variable {b limit : Binding} {words : List Lexeme} {g : Grouping}

theorem mono {w : Binding} (h : Reads b limit words g) (hlimit : limit.rank ≤ w.rank) :
    Reads b w words g := by
  intro rest hrest
  exact h rest (hrest.tighter hlimit)

/-- Reading takes at least one step. -/
theorem of_succ (h : ∀ rest, Ends limit rest → ∀ fuel, 10 * words.length + b.rank ≤ fuel + 1 →
    read (fuel + 1) b (words ++ rest) = some (g, rest)) : Reads b limit words g := by
  intro rest hrest fuel hfuel
  cases fuel with
  | zero =>
      have hrank := b.rank_pos
      omega
  | succ fuel => exact h rest hrest fuel hfuel

theorem atom (f : Fragment) : Reads .operand .operand [.atom f] (.atom f) :=
  of_succ fun _ _ _ _ => rfl

/-- A chain stops before a word that it does not go on behind. -/
theorem readChain_stops {c : Chain} {rest : List Lexeme} (hlimit : (Binding.chain c).rank ≤ limit.rank)
    (hrest : Ends limit rest) (fuel : Nat) : readChain (fuel + 1) c g rest = some (g, rest) := by
  cases rest with
  | nil => rfl
  | cons word more =>
      cases word with
      | operator op =>
          have hne : op.binding ≠ .chain c := by
            intro hop
            have hrank := hrest (.operator op) rfl op.binding rfl
            rw [hop] at hrank
            omega
          rw [readChain_operator, if_neg hne]
      | _ => rfl

/-- A part that a chain is made of is a chain by itself. -/
theorem chain {c : Chain} (h : Reads c.below limit words g)
    (hlimit : (Binding.chain c).rank ≤ limit.rank) : Reads (.chain c) limit words g := by
  refine of_succ fun rest hrest fuel hfuel => ?_
  have hbelow := c.below.rank_pos
  rw [c.rank_chain] at hfuel
  rw [read_chain, h rest hrest fuel (by omega)]
  obtain ⟨steps, rfl⟩ : ∃ steps, fuel = steps + 1 := ⟨fuel - 1, by omega⟩
  exact readChain_stops hlimit hrest steps

/-- A concatenation may stand where a predicate may. -/
theorem unasserted (h : Reads (.chain .concat) limit words g)
    (hlimit : Binding.predicate.rank ≤ limit.rank) : Reads .predicate limit words g := by
  refine of_succ fun rest hrest fuel hfuel => ?_
  simp only [Binding.rank] at hfuel
  rw [read_predicate, h rest hrest fuel (by simp only [Binding.rank]; omega)]
  cases rest with
  | nil => rfl
  | cons word more =>
      cases word with
      | predicate f =>
          have hrank := hrest (.predicate f) rfl .predicate rfl
          omega
      | _ => rfl

/-- A predicate may stand where a comparison may. -/
theorem uncompared (h : Reads .predicate limit words g)
    (hlimit : Binding.comparison.rank ≤ limit.rank) : Reads .comparison limit words g := by
  refine of_succ fun rest hrest fuel hfuel => ?_
  simp only [Binding.rank] at hfuel hlimit
  rw [read_comparison, h rest hrest fuel (by simp only [Binding.rank]; omega)]
  cases rest with
  | nil => rfl
  | cons word more =>
      cases word with
      | operator op =>
          have hne : op.binding ≠ .comparison := by
            intro hop
            have hrank := hrest (.operator op) rfl op.binding rfl
            simp only [hop, Binding.rank] at hrank
            omega
          simp [hne]
      | _ => rfl

/-- A comparison may stand where a test for null may. -/
theorem untested (h : Reads .comparison limit words g)
    (hlimit : Binding.nullTest.rank ≤ limit.rank) : Reads .nullTest limit words g := by
  refine of_succ fun rest hrest fuel hfuel => ?_
  simp only [Binding.rank] at hfuel
  rw [read_nullTest, h rest hrest fuel (by simp only [Binding.rank]; omega)]
  cases rest with
  | nil => rfl
  | cons word more =>
      cases word with
      | isNull negated =>
          have hrank := hrest (.isNull negated) rfl .nullTest rfl
          omega
      | _ => rfl

/-- An operand by itself may stand where a concatenation may. -/
theorem concatenated (h : Reads .operand limit words g)
    (hlimit : (Binding.chain .concat).rank ≤ limit.rank) :
    Reads (.chain .concat) limit words g := by
  simp only [Binding.rank] at hlimit
  have hproduct := h.chain (c := .product) (by simp only [Binding.rank]; omega)
  have hsum := hproduct.chain (c := .sum) (by simp only [Binding.rank]; omega)
  exact hsum.chain (c := .concat) (by simp only [Binding.rank]; omega)

/-- What an operand by itself is grouped as is the same wherever it stands. -/
theorem tight (h : Reads .operand limit words g)
    (hlimit : Binding.predicate.rank ≤ limit.rank) : Reads .predicate limit words g :=
  (h.concatenated (Nat.le_trans (by decide) hlimit)).unasserted hlimit

/-- A comparison takes an operand on each side if they are bound more tightly. -/
theorem compared {left right : List Lexeme} {x y : Grouping} {op : BinaryOp}
    (hop : op.isComparison = true) (hleft : Reads .predicate .predicate left x)
    (hright : Reads .predicate .predicate right y) :
    Reads .comparison .comparison (left ++ operator op :: right) (.binary op x y) := by
  refine of_succ fun rest hrest fuel hfuel => ?_
  have hbinding := BinaryOp.binding_of_isComparison hop
  simp only [List.length_append, List.length_cons, Binding.rank] at hfuel
  have hends : Ends .predicate (operator op :: (right ++ rest)) := by
    rintro word ⟨rfl⟩ c ⟨rfl⟩
    simp [hbinding, Binding.rank]
  have hfirst := hleft _ hends fuel (by simp only [Binding.rank]; omega)
  have hsecond := (hright.mono (by decide)) rest hrest fuel (by simp only [Binding.rank]; omega)
  rw [List.append_assoc, List.cons_append, read_comparison, hfirst]
  simp [hbinding, hsecond]

/-- A predicate takes the operand before it. -/
theorem asserted (h : Reads (.chain .concat) (.chain .concat) words g) (f : Fragment) :
    Reads .predicate .predicate (words ++ [predicate f]) (.predicate g f) := by
  refine of_succ fun rest _ fuel hfuel => ?_
  simp only [List.length_append, List.length_cons, List.length_nil, Binding.rank] at hfuel
  have hends : Ends (.chain .concat) (predicate f :: rest) := by
    rintro word ⟨rfl⟩ c ⟨rfl⟩
    decide
  have hoperand := h _ hends fuel (by simp only [Binding.rank]; omega)
  rw [List.append_assoc, List.singleton_append, read_predicate, hoperand]
  rfl

/-- The parts of a chain end before its operator. -/
theorem ends_chain {α : Type} {c : Chain} {op : BinaryOp} (hop : op.binding = .chain c)
    (words : α → List Lexeme) (parts : List α) {rest : List Lexeme} (hrest : Ends (.chain c) rest) :
    Ends c.below ((parts.flatMap fun a => operator op :: words a) ++ rest) := by
  cases parts with
  | nil => exact hrest.tighter (by rw [c.rank_chain]; omega)
  | cons a more =>
      rintro word ⟨rfl⟩ d ⟨rfl⟩
      rw [hop, c.rank_chain]
      exact Nat.lt_succ_self _

/-- Parts that an operator joins are taken by it one after the other. -/
theorem readChain_parts {α : Type} {c : Chain} {op : BinaryOp} (hop : op.binding = .chain c)
    {parts : List α} {words : α → List Lexeme} {groups : α → Grouping}
    (h : ∀ a ∈ parts, Reads c.below c.below (words a) (groups a)) (left : Grouping)
    {rest : List Lexeme} (hrest : Ends (.chain c) rest) (fuel : Nat)
    (hfuel : 10 * (parts.flatMap fun a => operator op :: words a).length + 1 ≤ fuel) :
    readChain fuel c left ((parts.flatMap fun a => operator op :: words a) ++ rest) =
      some ((parts.map groups).foldl (.binary op) left, rest) := by
  induction parts generalizing left fuel with
  | nil =>
      obtain ⟨steps, rfl⟩ : ∃ steps, fuel = steps + 1 := ⟨fuel - 1, by omega⟩
      exact readChain_stops (Nat.le_refl _) hrest steps
  | cons a more ih =>
      simp only [List.flatMap_cons, List.length_append, List.length_cons] at hfuel
      obtain ⟨steps, rfl⟩ : ∃ steps, fuel = steps + 1 := ⟨fuel - 1, by omega⟩
      -- The steps of the operator pay for the levels that its operand is read through.
      have hrank := c.below.rank_le
      have hfirst := h a (by simp) _ (ends_chain hop words more hrest) steps (by omega)
      have hothers := ih (fun b hb => h b (by simp [hb])) (.binary op left (groups a)) steps
        (by omega)
      simp only [List.flatMap_cons, List.cons_append, List.append_assoc, List.map_cons,
        List.foldl_cons]
      rw [readChain_operator, if_pos hop, hfirst]
      exact hothers

theorem joined {α : Type} {c : Chain} {op : BinaryOp} (hop : op.binding = .chain c)
    (parts : List α) {words : α → List Lexeme} {groups : α → Grouping} (hne : parts ≠ [])
    (h : ∀ a ∈ parts, Reads c.below c.below (words a) (groups a)) :
    Reads (.chain c) (.chain c) (Lexeme.joined op (parts.map words))
      (Grouping.joined op (parts.map groups)) := by
  cases parts with
  | nil => exact absurd rfl hne
  | cons a more =>
      refine of_succ fun rest hrest fuel hfuel => ?_
      simp only [List.map_cons, Lexeme.joined, Grouping.joined, List.flatMap_map,
        List.length_append, c.rank_chain] at hfuel ⊢
      have hbelow := c.below.rank_pos
      have hfirst := h a (by simp) _ (ends_chain hop words more hrest) fuel (by omega)
      have hmore : ∀ b ∈ more, Reads c.below c.below (words b) (groups b) :=
        fun b hb => h b (by simp [hb])
      have hothers := readChain_parts hop hmore (groups a) hrest fuel (by omega)
      rw [List.append_assoc, read_chain, hfirst]
      exact hothers

theorem group (h : Reads (.chain .or) (.chain .or) words g) :
    Reads .operand .operand (opening :: (words ++ [closing])) (.group g) := by
  refine of_succ fun rest _ fuel hfuel => ?_
  simp only [List.length_cons, List.length_append, List.length_nil, Binding.rank] at hfuel
  have hinner := h (closing :: rest) (by rintro word ⟨rfl⟩ c ⟨⟩) fuel
    (by simp only [Binding.rank]; omega)
  simp [read_opening, hinner]

/-- A negation takes no test for null and no comparison that follows it. -/
theorem negation (h : Reads .nullTest .nullTest words g) :
    Reads .operand .nullTest (not :: words) (.not g) := by
  refine of_succ fun rest hrest fuel hfuel => ?_
  simp only [List.length_cons, Binding.rank] at hfuel
  have hinner := h rest hrest fuel (by simp only [Binding.rank]; omega)
  simp [read_not, hinner]

/-- Words that are one part of an expression are grouped in the same way when they
are all of it. -/
theorem grouping_eq (h : Reads .predicate limit words g) : grouping words = some g := by
  have hmost := h.mono (w := .chain .or) limit.rank_le
  have htested := (hmost.uncompared (by decide)).untested (by decide)
  have hjoined := (htested.chain (c := .and) (by decide)).chain (c := .or) (Nat.le_refl _)
  have hread := hjoined [] (by simp [Ends]) (10 * words.length + 10)
    (by simp only [Binding.rank]; omega)
  rw [List.append_nil] at hread
  rw [grouping, hread]

end Reads

end Lexeme

end SqlBackend
