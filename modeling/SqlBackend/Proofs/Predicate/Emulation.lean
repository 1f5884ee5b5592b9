import SqlBackend.Proofs.Predicate.Words
import SqlBackend.Proofs.Render.AppendOnly

/-! # Emulated predicates keep their meaning

Comparisons of rows, membership of rows and null-safe equality mean the same
where they are written with comparisons of single operands. The operands can be
any expressions, with any values.
-/

namespace SqlBackend

namespace RowPredicate

open Token (Reads)

variable {ι δ : Type} [LinearOrder δ] (value : ι → Option δ) {pairs : List (ι × ι)}

/-- The values of pairs of operands. -/
def values (pairs : List (ι × ι)) : List (Option δ × Option δ) :=
  pairs.map (Prod.map value value)

theorem equal_reads (hne : pairs ≠ []) :
    Reads value .test (equal pairs).tokens (Row.equal (values value pairs)) := by
  have hparts : ∀ p ∈ pairs, Reads value (.below .and)
      (Formula.comparison .eq p.1 p.2).tokens (BinaryOp.eq.truth (value p.1) (value p.2)) :=
    fun p _ => .comparison rfl p.1 p.2
  have hall := (Reads.joined hne hparts).chain (c := .or)
  rw [Row.equal_eq_all, values, List.map_map, equal, Formula.tokens, Formula.tokens,
    Formula.tokensOf_eq_map, List.map_map]
  exact hall.group

theorem different_reads (hne : pairs ≠ []) :
    Reads value .test (different pairs).tokens (Row.equal (values value pairs)).not := by
  have hparts : ∀ p ∈ pairs, Reads value (.below .or)
      (Formula.comparison .ne p.1 p.2).tokens (BinaryOp.ne.truth (value p.1) (value p.2)) :=
    fun p _ => (Reads.comparison rfl p.1 p.2).chain
  have hany := Reads.joined hne hparts
  rw [Row.not_equal_eq_any, values, List.map_map, different, Formula.tokens, Formula.tokens,
    Formula.tokensOf_eq_map, List.map_map]
  exact hany.group

/-- Two conditions with a connective between them. -/
theorem binary_reads {c : Connective} {first second : List (Token ι)} {a b : Truth}
    (hfirst : Reads value (.below c) first a) (hsecond : Reads value (.below c) second b) :
    Reads value (.chain c) (Token.joined c [first, second]) (c.combine a b) := by
  have hparts : ∀ p ∈ [(first, a), (second, b)], Reads value (.below c) p.1 p.2 := by
    simp [hfirst, hsecond]
  have hjoined := Reads.joined (by simp) hparts
  rw [List.map_cons, List.map_singleton, List.map_cons, List.map_singleton,
    Connective.combineAll_cons, Connective.combineAll_singleton] at hjoined
  exact hjoined

/-- The induction follows the pairs. Only a condition on more than one later pair
is put in parentheses; a single comparison is a test of its own. -/
theorem lexicographic_reads {op : BinaryOp} (hop : op.isComparison = true) (heq : op ≠ .eq)
    (hne : pairs ≠ []) :
    Reads value (.chain .or) (lexicographic op pairs).tokens
      (Row.order op (values value pairs)) := by
  induction pairs with
  | nil => exact absurd rfl hne
  | cons p rest ih =>
      cases rest with
      | nil =>
          rw [values, List.map_singleton, Row.order_singleton heq]
          have hlast : Reads value .test (lexicographic op [p]).tokens
              (op.truth (value p.1) (value p.2)) := .comparison hop p.1 p.2
          exact hlast.chain (c := .and) |>.chain
      | cons q rest =>
          -- The parentheses around more than one pair make its disjunction a test.
          have hlater : Reads value .test
              (if rest.isEmpty then lexicographic op (q :: rest)
                else .group (lexicographic op (q :: rest))).tokens
              (Row.order op (values value (q :: rest))) := by
            cases rest with
            | nil =>
                rw [values, List.map_singleton, Row.order_singleton heq]
                exact .comparison hop q.1 q.2
            | cons r rest => exact (ih (by simp)).group
          have hstrict : op.strict.isComparison = true := by rw [BinaryOp.strict_isComparison, hop]
          have hfirst : Reads value .test (Formula.comparison op.strict p.1 p.2).tokens
              (op.strict.truth (value p.1) (value p.2)) := .comparison hstrict p.1 p.2
          have hequal : Reads value .test (Formula.comparison .eq p.1 p.2).tokens
              (BinaryOp.eq.truth (value p.1) (value p.2)) := .comparison rfl p.1 p.2
          have hsecond := binary_reads (c := .and) value hequal hlater
          rw [values, List.map_cons, Row.order_cons heq]
          exact binary_reads (c := .or) value hfirst.chain hsecond

/-- A comparison of rows is one test that says what the comparison does. -/
theorem comparison_reads {op : BinaryOp} (hop : op.isComparison = true) (hne : pairs ≠ []) :
    Reads value .test (comparison op pairs).tokens (Row.compare op (values value pairs)) := by
  cases op with
  | eq => exact equal_reads value hne
  | ne => exact different_reads value hne
  | _ => exact (lexicographic_reads value hop (by simp) hne).group

/-- Membership of a row is the disjunction of the equalities. -/
theorem member_reads {row : List ι} {candidates : List (List ι)} (hne : candidates ≠ [])
    (hrows : ∀ c ∈ candidates, row.zip c ≠ []) (negated : Bool) :
    let found := Truth.any (candidates.map fun c => Row.equal (values value (row.zip c)))
    Reads value .test (member row candidates negated).tokens
      (if negated then found.not else found) := by
  intro found
  have hparts : ∀ c ∈ candidates, Reads value (.below .or) (equal (row.zip c)).tokens
      (Row.equal (values value (row.zip c))) :=
    fun c hc => (equal_reads value (hrows c hc)).chain
  have hfound : Reads value .test
      (Formula.group (.any (candidates.map fun c => equal (row.zip c)))).tokens found := by
    have hany := Reads.joined hne hparts
    rw [Formula.tokens, Formula.tokens, Formula.tokensOf_eq_map, List.map_map]
    exact hany.group
  cases negated with
  | false => exact hfound
  | true => exact hfound.negation

/-- Null-safe equality is never unknown. -/
theorem distinct_reads (left right : ι) (negated : Bool) :
    Reads value .test (distinct left right negated).tokens
      (.ofBool (if negated then value left = value right else value left ≠ value right)) := by
  have hequal : Reads value .test (Formula.comparison .eq left right).tokens
      (BinaryOp.eq.truth (value left) (value right)) := .comparison rfl left right
  have hnulls := binary_reads (c := .and) value (.isNull left) (.isNull right)
  have hsame := (binary_reads (c := .or) value hequal.chain hnulls).group
  have hyes : (BinaryOp.eq.truth (value left) (value right)).or
      ((Truth.ofBool (value left).isNone).and (.ofBool (value right).isNone)) = .yes ↔
      value left = value right := by
    cases value left with
    | none => cases value right <;> simp [Truth.ofBool, Truth.or, Truth.and]
    | some a =>
        cases value right with
        | none => simp [Truth.ofBool, Truth.or, Truth.and]
        | some b => by_cases h : a = b <;> simp [Truth.ofBool, Truth.or, Truth.and, h]
  -- The numbers tell only true from not true, so unknown counts as different.
  have hcondition := (hsame.chain (c := .and)).chain (c := .or)
  have hchoice := hcondition.choice 0 1 (if !negated then 1 else 0)
  have hnumbers : decide ((if value left = value right then 0 else 1) =
      if !negated then 1 else 0) =
      if negated then decide (value left = value right) else decide (value left ≠ value right) := by
    cases negated <;> by_cases h : value left = value right <;> simp [h]
  simp only [Connective.combine, hyes, hnumbers] at hchoice
  exact hchoice

end RowPredicate

namespace Expr

variable {t : Translator} {ι : Type} {expr : ι → Expr} {text : ι → Fragment}

theorem elements_tuple (items : List ι) :
    (tuple (items.map expr)).elements t = items.map fun i => (expr i).render t := by
  rw [Expr.elements]
  induction items with
  | nil => rfl
  | cons i rest ih => rw [List.map_cons, Expr.renderings, ih, List.map_cons]

theorem fragments_append {items : List ι}
    (h : ∀ i ∈ items, ((expr i).render t).Appends (.ok ()) (.ofFragment (text i))) :
    (Rendering.fragments ((tuple (items.map expr)).elements t)).Appends
      (.ok (items.map text)) {} := by
  rw [elements_tuple]
  exact .fragments h

theorem rows_append {width : Nat} {candidates : List (List ι)}
    (hlengths : ∀ c ∈ candidates, c.length = width)
    (h : ∀ c ∈ candidates, ∀ i ∈ c, ((expr i).render t).Appends (.ok ()) (.ofFragment (text i))) :
    (Expr.rows t width (candidates.map fun c => tuple (c.map expr))).Appends
      (.ok (candidates.map fun c => c.map text)) {} := by
  induction candidates with
  | nil => exact .pure _
  | cons c rest ih =>
      have hwidth : ((tuple (c.map expr)).elements t).length = width := by
        rw [elements_tuple, List.length_map, hlengths c (by simp)]
      have hrow : (Translator.row width ((tuple (c.map expr)).elements t)).Appends
          (.ok (c.map text)) {} := by
        rw [Translator.row, if_pos hwidth]
        exact fragments_append (h c (by simp))
      have hrest := ih (fun d hd => hlengths d (by simp [hd])) fun d hd => h d (by simp [hd])
      rw [List.map_cons, Expr.rows]
      exact hrow.bind_silent (hrest.bind_silent (.pure _))

/-- Without row constructors a comparison of rows is the formula over the texts of
their elements. -/
theorem comparison_text {op : BinaryOp} {l r : List ι} (hop : op.isComparison = true)
    (hfeature : t.supports op.rowFeature = false) (hne : l ≠ []) (hlength : l.length = r.length)
    (hl : ∀ i ∈ l, ((expr i).render t).Appends (.ok ()) (.ofFragment (text i)))
    (hr : ∀ i ∈ r, ((expr i).render t).Appends (.ok ()) (.ofFragment (text i))) :
    ((binary (tuple (l.map expr)) op (tuple (r.map expr))).render t).Appends (.ok ())
      (.ofFragment (Token.texts text (RowPredicate.comparison op (l.zip r)).tokens)) := by
  have htext : (RowPredicate.comparison op ((l.map text).zip (r.map text))).fragment =
      Token.texts text (RowPredicate.comparison op (l.zip r)).tokens := by
    rw [← Formula.fragment_map, RowPredicate.map_comparison, List.zip_map]
  have hlengths : ¬(((tuple (l.map expr)).elements t).length ≠
      ((tuple (r.map expr)).elements t).length ∨
      ((tuple (l.map expr)).elements t).length = 0) := by
    rw [elements_tuple, elements_tuple, List.length_map, List.length_map, ← hlength]
    simpa using hne
  have hrender : (binary (tuple (l.map expr)) op (tuple (r.map expr))).render t =
      t.rowComparison op ((tuple (l.map expr)).elements t) ((tuple (r.map expr)).elements t) := by
    simp [Expr.render, hop, Expr.isTuple]
  rw [hrender, Translator.rowComparison, if_neg hlengths, hfeature, ← htext]
  exact (fragments_append hl).bind_silent ((fragments_append hr).bind_silent fun _ => rfl)

theorem member_text {l : List ι} {candidates : List (List ι)}
    (hfeature : t.supports .rowConstructor = false) (hne : l ≠ []) (hcandidates : candidates ≠ [])
    (hlengths : ∀ c ∈ candidates, c.length = l.length) (negated : Bool)
    (hl : ∀ i ∈ l, ((expr i).render t).Appends (.ok ()) (.ofFragment (text i)))
    (hrows : ∀ c ∈ candidates, ∀ i ∈ c,
      ((expr i).render t).Appends (.ok ()) (.ofFragment (text i))) :
    ((inList (tuple (l.map expr)) (candidates.map fun c => tuple (c.map expr)) negated).render
      t).Appends (.ok ())
      (.ofFragment (Token.texts text (RowPredicate.member l candidates negated).tokens)) := by
  have htext : (RowPredicate.member (l.map text) (candidates.map fun c => c.map text)
        negated).fragment =
      Token.texts text (RowPredicate.member l candidates negated).tokens := by
    rw [← Formula.fragment_map, RowPredicate.map_member]
  have hitems : (candidates.map fun c => tuple (c.map expr)).isEmpty = false := by
    simpa using hcandidates
  have helements : ((tuple (l.map expr)).elements t).isEmpty = false := by
    rw [elements_tuple]
    simpa using hne
  have hwidth : ((tuple (l.map expr)).elements t).length = l.length := by
    rw [elements_tuple, List.length_map]
  have hrender : (inList (tuple (l.map expr)) (candidates.map fun c => tuple (c.map expr))
        negated).render t =
      Translator.rowMember ((tuple (l.map expr)).elements t)
        (Expr.rows t l.length (candidates.map fun c => tuple (c.map expr))) negated := by
    rw [Expr.render, if_neg (by simp [hitems]), if_pos (by simp [hfeature, Expr.isTuple])]
    simp only [hwidth]
  rw [hrender, Translator.rowMember, if_neg (by simp [helements]), ← htext]
  exact (fragments_append hl).bind_silent
    ((rows_append hlengths hrows).bind_silent fun _ => rfl)

end Expr

/-- An operand of a predicate: an expression with the fragment it is rendered as
and any value. -/
structure Operand (t : Translator) (δ : Type) where
  expr : Expr
  fragment : Fragment
  value : Option δ
  appends : (expr.render t).Appends (.ok ()) (.ofFragment fragment)

/-- The expression writes the words of the formula, and they say `truth`. -/
structure Expr.WritesAs {t : Translator} {δ : Type} [LinearOrder δ] (e : Expr)
    (f : Formula (Operand t δ)) (truth : Truth) : Prop where
  text : (e.render t).Appends (.ok ()) (.ofFragment (Token.texts Operand.fragment f.tokens))
  meaning : Token.meaning Operand.value f.tokens = some truth

namespace Operand

variable {t : Translator} {δ : Type}

def tuple (operands : List (Operand t δ)) : Expr := .tuple (operands.map expr)

theorem comparison_text {op : BinaryOp} {l r : List (Operand t δ)} (hop : op.isComparison = true)
    (hfeature : t.supports op.rowFeature = false) (hne : l ≠ []) (hlength : l.length = r.length) :
    ((Expr.binary (tuple l) op (tuple r)).render t).Appends (.ok ())
      (.ofFragment (Token.texts fragment (RowPredicate.comparison op (l.zip r)).tokens)) :=
  Expr.comparison_text hop hfeature hne hlength (fun o _ => o.appends) fun o _ => o.appends

theorem member_text {l : List (Operand t δ)} {candidates : List (List (Operand t δ))}
    (hfeature : t.supports .rowConstructor = false) (hne : l ≠ []) (hcandidates : candidates ≠ [])
    (hlengths : ∀ c ∈ candidates, c.length = l.length) (negated : Bool) :
    ((Expr.inList (tuple l) (candidates.map tuple) negated).render t).Appends (.ok ())
      (.ofFragment (Token.texts fragment (RowPredicate.member l candidates negated).tokens)) :=
  Expr.member_text hfeature hne hcandidates hlengths negated (fun o _ => o.appends)
    fun _ _ o _ => o.appends

theorem distinct_text (l r : Operand t δ) (hfeature : t.supports .distinctFrom = false)
    (negated : Bool) :
    ((Expr.distinctFrom l.expr r.expr negated).render t).Appends (.ok ())
      (.ofFragment (Token.texts fragment (RowPredicate.distinct l r negated).tokens)) := by
  have htext : (RowPredicate.distinct l.fragment r.fragment negated).fragment =
      Token.texts fragment (RowPredicate.distinct l r negated).tokens := by
    rw [← Formula.fragment_map, RowPredicate.map_distinct]
  rw [Expr.render, Translator.distinctFrom, hfeature, ← htext]
  exact (l.appends.detached rfl).bind_silent ((r.appends.detached rfl).bind_silent fun _ => rfl)

end Operand

/-- What a translator writes for predicates that its backend lacks says the same
as the predicates, whatever the operands are and whichever of them are null:
comparisons of rows compare as PostgreSQL compares rows, membership is the
disjunction of row equalities, and null-safe equality is never unknown. -/
theorem Translator.emulations_keep_meaning (t : Translator) {δ : Type} [LinearOrder δ] :
    (∀ (op : BinaryOp) (l r : List (Operand t δ)), op.isComparison = true →
      t.supports op.rowFeature = false → l ≠ [] → l.length = r.length →
      (Expr.binary (Operand.tuple l) op (Operand.tuple r)).WritesAs
        (RowPredicate.comparison op (l.zip r))
        (Row.compare op ((l.map (·.value)).zip (r.map (·.value))))) ∧
    (∀ (l : List (Operand t δ)) (candidates : List (List (Operand t δ))) (negated : Bool),
      t.supports .rowConstructor = false → l ≠ [] → candidates ≠ [] →
      (∀ c ∈ candidates, c.length = l.length) →
      let found := Truth.any (candidates.map fun c =>
        Row.equal ((l.map (·.value)).zip (c.map (·.value))))
      (Expr.inList (Operand.tuple l) (candidates.map Operand.tuple) negated).WritesAs
        (RowPredicate.member l candidates negated) (if negated then found.not else found)) ∧
    ∀ (l r : Operand t δ) (negated : Bool), t.supports .distinctFrom = false →
      (Expr.distinctFrom l.expr r.expr negated).WritesAs (RowPredicate.distinct l r negated)
        (.ofBool (if negated then l.value = r.value else l.value ≠ r.value)) := by
  have hzip : ∀ l r : List (Operand t δ), (l.map (·.value)).zip (r.map (·.value)) =
      RowPredicate.values Operand.value (l.zip r) := fun l r => List.zip_map
  have hne : ∀ l r : List (Operand t δ), l ≠ [] → l.length = r.length → l.zip r ≠ [] := by
    intro l r hl hlength hzip
    rcases List.zip_eq_nil_iff.mp hzip with rfl | rfl
    · exact hl rfl
    · exact hl (List.length_eq_zero_iff.mp hlength)
  refine ⟨?_, ?_, ?_⟩
  · intro op l r hop hfeature hl hlength
    refine ⟨Operand.comparison_text hop hfeature hl hlength, ?_⟩
    rw [hzip]
    have hreads := RowPredicate.comparison_reads Operand.value hop (hne l r hl hlength)
    exact hreads.meaning_test
  · intro l candidates negated hfeature hl hcandidates hlengths found
    refine ⟨Operand.member_text hfeature hl hcandidates hlengths negated, ?_⟩
    have hreads := RowPredicate.member_reads Operand.value hcandidates
      (fun c hc => hne l c hl (hlengths c hc).symm) negated
    simp only [found, hzip]
    exact hreads.meaning_test
  · intro l r negated hfeature
    refine ⟨Operand.distinct_text l r hfeature negated, ?_⟩
    exact (RowPredicate.distinct_reads Operand.value l r negated).meaning_test

/-- Equal first elements and a null behind them: the ordering is unknown, the row
is not known to be outside the list, and the second elements are distinct. -/
theorem Translator.emulations_keep_meaning_null :
    let t := (Dialect.spanner {}).translator
    let a : Operand t Nat := ⟨.column none "a", .ofText "a", some 1, fun _ => rfl⟩
    let b : Operand t Nat := ⟨.column none "b", .ofText "b", none, fun _ => rfl⟩
    let p : Operand t Nat := ⟨.parameter, ⟨"?", 1⟩, some 1, fun _ => rfl⟩
    (Expr.binary (Operand.tuple [a, b]) .le (Operand.tuple [p, p])).WritesAs
        (RowPredicate.comparison .le [(a, p), (b, p)]) .unknown ∧
      (Expr.inList (Operand.tuple [a, b]) ([[p, p]].map Operand.tuple) true).WritesAs
        (RowPredicate.member [a, b] [[p, p]] true) .unknown ∧
      (Expr.distinctFrom b.expr p.expr false).WritesAs (RowPredicate.distinct b p false) .yes := by
  intro t a b p
  obtain ⟨hcomparison, hmember, hdistinct⟩ := emulations_keep_meaning t (δ := Nat)
  exact ⟨hcomparison .le [a, b] [p, p] rfl rfl (by simp) rfl,
    hmember [a, b] [[p, p]] true rfl (by simp) (by simp) (by simp), hdistinct b p false rfl⟩

end SqlBackend
