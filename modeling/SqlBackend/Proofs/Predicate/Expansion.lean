import SqlBackend.Proofs.Predicate.Lexing

/-! # Expansions and the grouping of operands

Where a backend compares no rows, the elements of rows are written next to
comparisons and connectives, without commas between them. They stay together if
they are bound more tightly than a comparison. The expansion itself stands in
parentheses, so it is one operand; only a negated membership is not.
-/

namespace SqlBackend

/-- An element of a row, with its words and their grouping. Its words are bound
more tightly than a comparison. -/
structure Element (t : Translator) where
  expr : Expr
  words : List Lexeme
  grouping : Grouping
  written : expr.Written t words
  tight : Lexeme.Reads .predicate .predicate words grouping

/-- By itself an element is grouped as among other words. -/
theorem Element.grouping_words {t : Translator} (e : Element t) :
    Lexeme.grouping e.words = some e.grouping :=
  e.tight.grouping_eq

namespace Formula

mutual

/-- The formula as it should be grouped. -/
def grouping : Formula Grouping → Grouping
  | comparison op left right => .binary op left right
  | isNull operand => .isNull operand false
  | negation inner => .not (grouping inner)
  | all parts => .joined .and (groupings parts)
  | any parts => .joined .or (groupings parts)
  | group inner => .group (grouping inner)
  | isTrue condition negated =>
      .binary .eq (.choice (grouping condition) (.ofText "0") (.ofText "1"))
        (.atom (.ofText (if negated then "1" else "0")))

def groupings : List (Formula Grouping) → List Grouping
  | [] => []
  | part :: rest => grouping part :: groupings rest

end

variable {t : Translator}

/-- The formula over the groupings of its elements. -/
def groups (f : Formula (Element t)) : Grouping := (f.map Element.grouping).grouping

theorem groupings_mapAll (parts : List (Formula (Element t))) :
    groupings (mapAll Element.grouping parts) = parts.map groups := by
  induction parts with
  | nil => rfl
  | cons part rest ih => rw [mapAll, groupings, ih, List.map_cons, groups]

theorem words_joined {c : Connective} {op : BinaryOp}
    (hc : (Token.connective c : Token (Element t)).lexemes Element.words = [.operator op])
    (parts : List (List (Token (Element t)))) :
    (Token.joined c parts).flatMap (Token.lexemes Element.words) =
      Lexeme.joined op (parts.map (List.flatMap (Token.lexemes Element.words))) := by
  induction parts with
  | nil => rfl
  | cons part rest ih =>
      cases rest with
      | nil => simp [Token.joined, Lexeme.joined]
      | cons next rest =>
          rw [Token.joined, List.flatMap_append, List.flatMap_cons, hc, ih]
          simp [Lexeme.joined]

theorem words_all (parts : List (Formula (Element t))) :
    (all parts).words Element.words =
      Lexeme.joined .and (parts.map (Formula.words Element.words)) := by
  rw [words, tokens, words_joined rfl, tokensOf_eq_map, List.map_map]
  rfl

theorem words_any (parts : List (Formula (Element t))) :
    (any parts).words Element.words =
      Lexeme.joined .or (parts.map (Formula.words Element.words)) := by
  rw [words, tokens, words_joined rfl, tokensOf_eq_map, List.map_map]
  rfl

theorem words_group (f : Formula (Element t)) :
    (group f).words Element.words = .opening :: (f.words Element.words ++ [.closing]) := by
  simp [words, tokens, Token.lexemes]

/-- The words of the formula are grouped as it should be. -/
def Grouped (b limit : Binding) (f : Formula (Element t)) : Prop :=
  Lexeme.Reads b limit (f.words Element.words) f.groups

namespace Grouped

variable {f : Formula (Element t)} {parts : List (Formula (Element t))}

theorem comparison {op : BinaryOp} (hop : op.isComparison = true) (l r : Element t) :
    Grouped .nullTest .nullTest (.comparison op l r) := by
  have hcompared := Lexeme.Reads.compared hop l.tight r.tight
  have hwords : (Formula.comparison op l r).words Element.words =
      l.words ++ .operator op :: r.words := by
    simp [words, tokens, Token.lexemes]
  rw [Grouped, hwords]
  exact (hcompared.mono (by decide)).untested (Nat.le_refl _)

theorem all (hne : parts ≠ []) (h : ∀ f ∈ parts, Grouped .nullTest .nullTest f) :
    Grouped (.chain .and) (.chain .and) (.all parts) := by
  have hgroups : (Formula.all parts).groups = .joined .and (parts.map groups) := by
    rw [groups, map, grouping, groupings_mapAll]
  rw [Grouped, words_all, hgroups]
  exact Lexeme.Reads.joined rfl parts hne h

theorem any (hne : parts ≠ []) (h : ∀ f ∈ parts, Grouped (.chain .and) (.chain .and) f) :
    Grouped (.chain .or) (.chain .or) (.any parts) := by
  have hgroups : (Formula.any parts).groups = .joined .or (parts.map groups) := by
    rw [groups, map, grouping, groupings_mapAll]
  rw [Grouped, words_any, hgroups]
  exact Lexeme.Reads.joined rfl parts hne h

/-- A test may stand where a conjunction may. -/
theorem conjunction (h : Grouped .nullTest .nullTest f) :
    Grouped (.chain .and) (.chain .and) f :=
  Lexeme.Reads.chain (c := .and) (h.mono (by decide)) (Nat.le_refl _)

theorem disjunction (h : Grouped (.chain .and) (.chain .and) f) :
    Grouped (.chain .or) (.chain .or) f :=
  Lexeme.Reads.chain (c := .or) (h.mono (by decide)) (Nat.le_refl _)

theorem group (h : Grouped (.chain .or) (.chain .or) f) :
    Grouped .operand .operand (.group f) := by
  rw [Grouped, words_group]
  exact Lexeme.Reads.group h

/-- An operand may stand where a test may. -/
theorem test (h : Grouped .operand .operand f) : Grouped .nullTest .nullTest f := by
  have htight := Lexeme.Reads.tight (h.mono (w := .nullTest) (by decide)) (by decide)
  exact (htight.uncompared (by decide)).untested (by decide)

end Grouped

end Formula

namespace RowPredicate

open Formula (Grouped)

variable {t : Translator} {pairs : List (Element t × Element t)}

theorem equal_grouped (hne : pairs ≠ []) : Grouped .operand .operand (equal pairs) := by
  have hparts : ∀ f ∈ pairs.map fun p => Formula.comparison .eq p.1 p.2,
      Grouped .nullTest .nullTest f := by
    rw [List.forall_mem_map]
    exact fun p _ => .comparison rfl p.1 p.2
  exact (Grouped.all (by simpa using hne) hparts).disjunction.group

theorem different_grouped (hne : pairs ≠ []) : Grouped .operand .operand (different pairs) := by
  have hparts : ∀ f ∈ pairs.map fun p => Formula.comparison .ne p.1 p.2,
      Grouped (.chain .and) (.chain .and) f := by
    rw [List.forall_mem_map]
    exact fun p _ => (Grouped.comparison rfl p.1 p.2).conjunction
  exact (Grouped.any (by simpa using hne) hparts).group

/-- The induction follows the pairs; the later ones are a disjunction of their
own, so they are put in parentheses unless there is only one. -/
theorem lexicographic_grouped {op : BinaryOp} (hop : op.isComparison = true) (hne : pairs ≠ []) :
    Grouped (.chain .or) (.chain .or) (lexicographic op pairs) := by
  induction pairs with
  | nil => exact absurd rfl hne
  | cons p rest ih =>
      cases rest with
      | nil => exact (Grouped.comparison hop p.1 p.2).conjunction.disjunction
      | cons q rest =>
          have hlater : Grouped .nullTest .nullTest
              (if rest.isEmpty then lexicographic op (q :: rest)
                else .group (lexicographic op (q :: rest))) := by
            cases rest with
            | nil => exact .comparison hop q.1 q.2
            | cons r rest => exact (ih (by simp)).group.test
          have hstrict : op.strict.isComparison = true := by rw [BinaryOp.strict_isComparison, hop]
          have hfirst := (Grouped.comparison hstrict p.1 p.2).conjunction
          have hequal : Grouped .nullTest .nullTest (.comparison .eq p.1 p.2) :=
            .comparison rfl p.1 p.2
          have hsecond := Grouped.all (by simp)
            (List.forall_mem_cons.mpr ⟨hequal, List.forall_mem_singleton.mpr hlater⟩)
          exact Grouped.any (by simp)
            (List.forall_mem_cons.mpr ⟨hfirst, List.forall_mem_singleton.mpr hsecond⟩)

theorem comparison_grouped {op : BinaryOp} (hop : op.isComparison = true) (hne : pairs ≠ []) :
    Grouped .operand .operand (comparison op pairs) := by
  cases op with
  | eq => exact equal_grouped hne
  | ne => exact different_grouped hne
  | _ => exact (lexicographic_grouped hop hne).group

theorem member_grouped {row : List (Element t)} {candidates : List (List (Element t))}
    (hne : candidates ≠ []) (hrows : ∀ c ∈ candidates, row.zip c ≠ []) (negated : Bool) :
    Grouped .operand (if negated then .nullTest else .operand) (member row candidates negated) := by
  have hparts : ∀ f ∈ candidates.map fun c => equal (row.zip c),
      Grouped (.chain .and) (.chain .and) f := by
    rw [List.forall_mem_map]
    exact fun c hc => (equal_grouped (hrows c hc)).test.conjunction
  have hfound := (Grouped.any (by simpa using hne) hparts).group
  cases negated with
  | false => exact hfound
  | true =>
      -- The negation stands before the parentheses, so what follows them may be taken into it.
      have hwords : (member row candidates true).words Element.words = .not :: (Formula.group
          (.any (candidates.map fun c => equal (row.zip c)))).words Element.words := by
        simp [member, Formula.words, Formula.tokens, Token.lexemes]
      rw [Grouped, hwords]
      exact Lexeme.Reads.negation hfound.test

end RowPredicate

def Element.tuple {t : Translator} (row : List (Element t)) : Expr := .tuple (row.map expr)

/-- The expression writes the words of the formula. They are one operand, in
which each operand of a comparison is an element, where nothing follows that is
bound as tightly as `limit`. -/
structure Expr.ExpandsTo {t : Translator} (e : Expr) (limit : Binding)
    (f : Formula (Element t)) : Prop where
  written : e.Written t (f.words Element.words)
  text : (e.render t).Appends (.ok ()) (.ofFragment (Lexeme.texts (f.words Element.words)))
  grouped : f.Grouped .operand limit

/-- By itself an expansion is grouped as the formula should be. -/
theorem Expr.ExpandsTo.grouping_words {t : Translator} {e : Expr} {limit : Binding}
    {f : Formula (Element t)} (h : e.ExpandsTo limit f) :
    Lexeme.grouping (f.words Element.words) = some f.groups := by
  have hmost := h.grouped.mono (w := .chain .or) limit.rank_le
  exact (Lexeme.Reads.tight hmost (by decide)).grouping_eq

/-- An expansion that is not a negated membership may be an element itself. -/
theorem Expr.ExpandsTo.exists_element {t : Translator} {e : Expr} {f : Formula (Element t)}
    (h : e.ExpandsTo .operand f) :
    ∃ element : Element t, element.expr = e ∧ element.grouping = f.groups := by
  have htight := Lexeme.Reads.tight (h.grouped.mono (by decide)) (Nat.le_refl _)
  exact ⟨⟨e, f.words Element.words, f.groups, h.written, htight⟩, rfl, rfl⟩

/-- Expansions of row comparisons and of memberships compare the elements of the
rows, each as it is grouped by itself, and are operands wherever they stand. A
negated membership is one only where no comparison and no test for null follows.
By itself an expansion is grouped as its formula, and any but a negated membership
may be an element of a row in turn. -/
theorem Translator.expansions_group_elements (t : Translator) :
    (∀ e : Element t, Lexeme.grouping e.words = some e.grouping) ∧
    (∀ (op : BinaryOp) (l r : List (Element t)), op.isComparison = true →
      t.supports op.rowFeature = false → l ≠ [] → l.length = r.length →
      (Expr.binary (Element.tuple l) op (Element.tuple r)).ExpandsTo .operand
        (RowPredicate.comparison op (l.zip r))) ∧
    (∀ (l : List (Element t)) (candidates : List (List (Element t))) (negated : Bool),
      t.supports .rowConstructor = false → l ≠ [] → candidates ≠ [] →
      (∀ c ∈ candidates, c.length = l.length) →
      (Expr.inList (Element.tuple l) (candidates.map Element.tuple) negated).ExpandsTo
        (if negated then .nullTest else .operand) (RowPredicate.member l candidates negated)) ∧
    ∀ (e : Expr) (limit : Binding) (f : Formula (Element t)), e.ExpandsTo limit f →
      Lexeme.grouping (f.words Element.words) = some f.groups ∧
      (limit = .operand →
        ∃ element : Element t, element.expr = e ∧ element.grouping = f.groups) := by
  have hne : ∀ l r : List (Element t), l ≠ [] → l.length = r.length → l.zip r ≠ [] := by
    intro l r hl hlength hzip
    rcases List.zip_eq_nil_iff.mp hzip with rfl | rfl
    · exact hl rfl
    · exact hl (List.length_eq_zero_iff.mp hlength)
  refine ⟨Element.grouping_words, ?_, ?_, fun e limit f h => ⟨h.grouping_words, ?_⟩⟩
  · intro op l r hop hfeature hl hlength
    have hwritten : (Expr.binary (Element.tuple l) op (Element.tuple r)).Written t _ :=
      .comparison hop hfeature hl hlength (fun e _ => e.written) fun e _ => e.written
    exact ⟨hwritten, hwritten.appends, RowPredicate.comparison_grouped hop (hne l r hl hlength)⟩
  · intro l candidates negated hfeature hl hcandidates hlengths
    have hwritten : (Expr.inList (Element.tuple l) (candidates.map Element.tuple)
        negated).Written t _ :=
      .member negated hfeature hl hcandidates hlengths (fun e _ => e.written)
        fun _ _ e _ => e.written
    exact ⟨hwritten, hwritten.appends, RowPredicate.member_grouped hcandidates
      (fun c hc => hne l c hl (hlengths c hc).symm) negated⟩
  · rintro rfl
    exact h.exists_element

/-- A sum and a membership in an ordering of rows, and in a list that a row is not
in, of which the ordering is an element. -/
theorem Translator.expansions_group_elements_sum :
    let t := (Dialect.spanner {}).translator
    let sum := Expr.binary (.column none "a") .add .parameter
    let test := Expr.inList (.column none "b") [.parameter] false
    ∃ left right ordered : Element t, left.expr = sum ∧ right.expr = test ∧
      ordered.expr = .binary (Element.tuple [left, right]) .le (Element.tuple [right, left]) ∧
      ordered.expr.ExpandsTo .operand
        (RowPredicate.comparison .le [(left, right), (right, left)]) ∧
      (Expr.inList (Element.tuple [left, right]) ([[right, left]].map Element.tuple) true).ExpandsTo
        .nullTest (RowPredicate.member [left, right] [[right, left]] true) ∧
      (Expr.inList (Element.tuple [left, ordered]) ([[right, left]].map Element.tuple)
        true).ExpandsTo .nullTest (RowPredicate.member [left, ordered] [[right, left]] true) := by
  intro t sum test
  have hcolumn (name : String) : (Expr.column none name).Written t [.atom (.ofText name)] :=
    .delimited rfl fun _ => rfl
  have hparameter : Expr.parameter.Written t [.atom ⟨"?", 1⟩] := .delimited rfl fun _ => rfl
  have hsum : sum.Written t [.atom (.ofText "a"), .operator .add, .atom ⟨"?", 1⟩] :=
    .binary rfl (hcolumn "a") hparameter
  have htest : test.Written t [.atom (.ofText "b"), .predicate _] :=
    .inList (f := ⟨"?", 1⟩) false (by simp) (by simp [Expr.isTuple]) (hcolumn "b") fun _ => rfl
  have hadd : BinaryOp.add.binding = .chain .sum := rfl
  have hsumReads := Lexeme.Reads.joined hadd [Fragment.ofText "a", ⟨"?", 1⟩] (by simp) fun f _ =>
    ((Lexeme.Reads.atom f).mono (by decide)).chain (c := .product) (Nat.le_refl _)
  have htestReads := ((Lexeme.Reads.atom (.ofText "b")).mono
    (w := .chain .concat) (by decide)).concatenated (Nat.le_refl _)
  let left : Element t := ⟨sum, _, _, hsum,
    ((hsumReads.mono (w := .predicate) (by decide)).chain (c := .concat) (by decide)).unasserted
      (Nat.le_refl _)⟩
  let right : Element t := ⟨test, _, _, htest, htestReads.asserted _⟩
  obtain ⟨_, hcomparison, hmember, helement⟩ := expansions_group_elements t
  have hordered := hcomparison .le [left, right] [right, left] rfl rfl (by simp) rfl
  obtain ⟨ordered, hexpr, _⟩ := (helement _ _ _ hordered).2 rfl
  exact ⟨left, right, ordered, rfl, rfl, hexpr, hexpr ▸ hordered,
    hmember [left, right] [[right, left]] true rfl (by simp) (by simp) (by simp),
    hmember [left, ordered] [[right, left]] true rfl (by simp) (by simp) (by simp)⟩

/-- Elements that are bound more loosely than a comparison do not stay together,
and a test for null behind a negated membership is taken into the negation. -/
theorem Translator.expansions_regroup_elements :
    let t := (Dialect.spanner {}).translator
    let atom (name : String) : Lexeme := .atom (.ofText name)
    let whole (name : String) : Grouping := .atom (.ofText name)
    let column (name : String) : Expr := .column none name
    let compared := Expr.binary (.tuple [.binary (column "a") .or (column "b"), column "c"]) .eq
      (.tuple [column "d", column "e"])
    let comparison : List Lexeme := [.opening, atom "a", .operator .or, atom "b", .operator .eq,
      atom "d", .operator .and, atom "c", .operator .eq, atom "e", .closing]
    let tested := Expr.isNull (.inList (.tuple [column "a", column "b"])
      [.tuple [column "c", column "d"]] true) false
    let membership : List Lexeme := [.not, .opening, .opening, atom "a", .operator .eq, atom "c",
      .operator .and, atom "b", .operator .eq, atom "d", .closing, .closing, .isNull false]
    t.translate (.select (.plain [⟨compared, none⟩] none)) =
        .ok { text := "select " ++ (Lexeme.texts comparison).text } ∧
      Lexeme.grouping [atom "a", .operator .or, atom "b"] =
        some (.binary .or (whole "a") (whole "b")) ∧
      Lexeme.grouping comparison ≠ some (RowPredicate.comparison .eq
        [(.binary .or (whole "a") (whole "b"), whole "d"), (whole "c", whole "e")]).grouping ∧
      t.translate (.select (.plain [⟨tested, none⟩] none)) =
        .ok { text := "select " ++ (Lexeme.texts membership).text } ∧
      Lexeme.grouping membership ≠ some (.isNull (RowPredicate.member [whole "a", whole "b"]
        [[whole "c", whole "d"]] true).grouping false) := by
  intro t atom whole column compared comparison tested membership
  refine ⟨rfl, rfl, by decide, rfl, by decide⟩

end SqlBackend
