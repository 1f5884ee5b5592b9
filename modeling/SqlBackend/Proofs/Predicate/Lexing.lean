import SqlBackend.Proofs.Predicate.Emulation
import SqlBackend.Proofs.Predicate.Grouping

/-! # The words of an expression

An expression is written as the words of its operands with those of its operators
between them. What stands in parentheses, between `case` and `end` or alone is one
word: nothing outside can take a part of it.
-/

namespace SqlBackend

namespace Token

variable {ι : Type}

/-- The words of an expression that a word of a condition stands for. -/
def lexemes (words : ι → List Lexeme) : Token ι → List Lexeme
  | operand o => words o
  | comparison op => [.operator op]
  | isNull => [.isNull false]
  | negation => [.not]
  | connective .and => [.operator .and]
  | connective .or => [.operator .or]
  | opening => [.opening]
  | closing => [.closing]
  | caseWhen => [.caseWhen]
  | caseThen => [.caseThen]
  | caseElse => [.caseElse]
  | caseEnd => [.caseEnd]
  | number n => [.atom (.ofText (toString n))]

theorem texts_lexemes (words : ι → List Lexeme) (tokens : List (Token ι)) :
    Lexeme.texts (tokens.flatMap (lexemes words)) =
      texts (fun o => Lexeme.texts (words o)) tokens := by
  have htoken : ∀ token : Token ι, Lexeme.texts (token.lexemes words) =
      token.text fun o => Lexeme.texts (words o) := by
    intro token
    cases token with
    | operand o => rfl
    | connective c => cases c <;> exact Fragment.append_empty _
    | _ => exact Fragment.append_empty _
  induction tokens with
  | nil => rfl
  | cons token rest ih => rw [List.flatMap_cons, Lexeme.texts_append, ih, htoken, texts_cons]

end Token

/-- The words that are written for a formula whose operands have words. -/
def Formula.words {ι : Type} (words : ι → List Lexeme) (f : Formula ι) : List Lexeme :=
  f.tokens.flatMap (Token.lexemes words)

/-- Whether both sides of a pattern match are put in lower case. -/
def Translator.LowersCase (t : Translator) (caseSensitive : Bool) : Prop :=
  t.style = .standard ∧ !caseSensitive ∧ !t.supports .caseInsensitiveLike

namespace Expr

/-- Whether nothing outside the expression can take a part of it. A call is
written with its arguments in parentheses, and a list with no items as a condition
in parentheses. -/
def isDelimited : Expr → Bool
  | literal _ | column _ _ | call _ | window _ _ _ | subquery _ | tuple _ | caseOf _ _ _ |
    cast _ _ | paren _ | parameter | star _ => true
  | inList _ items _ => items.isEmpty
  | _ => false

variable (t : Translator)

/-- The words that an expression is written as. Predicates are words of their own
if what they contain besides their operand is delimited. Null-safe equality, which
is bound as loosely as a test for null, is left out. -/
inductive Written : Expr → List Lexeme → Prop where
  | delimited {e : Expr} {f : Fragment} (he : e.isDelimited = true)
      (hf : (e.render t).Appends (.ok ()) (.ofFragment f)) : Written e [.atom f]
  | minus {operand : Expr} {words : List Lexeme} (h : Written operand words) :
      Written (.unary .neg operand) (.minus :: words)
  | negation {operand : Expr} {words : List Lexeme} (h : Written operand words) :
      Written (.unary .not operand) (.not :: words)
  | isNull {operand : Expr} {words : List Lexeme} (h : Written operand words) (negated : Bool) :
      Written (.isNull operand negated) (words ++ [.isNull negated])
  | binary {left right : Expr} {op : BinaryOp} {first second : List Lexeme}
      (hrows : (op.isComparison && left.isTuple && right.isTuple) = false)
      (hleft : Written left first) (hright : Written right second) :
      Written (.binary left op right) (first ++ .operator op :: second)
  | inList {operand : Expr} {items : List Expr} {words : List Lexeme} {f : Fragment}
      (negated : Bool) (hitems : items ≠ [])
      (hrow : operand.isTuple = true → t.supports .rowConstructor = true)
      (h : Written operand words)
      (hlist : (Rendering.separated ", " (Expr.renderings t items)).Appends (.ok ())
        (.ofFragment f)) :
      Written (.inList operand items negated) (words ++
        [.predicate (.ofText (Translator.memberWords negated) ++ (f ++ .ofText ")"))])
  | inQuery {operand : Expr} {query : Select} {words : List Lexeme} {f : Fragment}
      (negated : Bool) (hrow : operand.isTuple = true → t.supports .rowInSubquery = true)
      (h : Written operand words)
      (hquery : (query.render t).Appends (.ok ()) (.ofFragment f)) :
      Written (.inQuery operand query negated) (words ++
        [.predicate (.ofText (Translator.memberWords negated) ++ (f ++ .ofText ")"))])
  | between {operand low high : Expr} {words : List Lexeme} {f g : Fragment} (negated : Bool)
      (hlow : low.isDelimited = true) (hhigh : high.isDelimited = true)
      (h : Written operand words) (hf : (low.render t).Appends (.ok ()) (.ofFragment f))
      (hg : (high.render t).Appends (.ok ()) (.ofFragment g)) :
      Written (.between operand low high negated) (words ++
        [.predicate (.ofText (if negated then " not between " else " between ") ++
          (f ++ (.ofText " and " ++ g)))])
  | like {l : Like} {words : List Lexeme} {f : Fragment}
      (hcase : ¬t.LowersCase l.caseSensitive) (hpattern : l.pattern.isDelimited = true)
      (hescape : ∀ e ∈ l.escape, e.isDelimited = true) (h : Written l.subject words)
      (hf : (l.renderPattern t).Appends (.ok ()) (.ofFragment f)) :
      Written (.like l) (words ++
        [.predicate (.ofText (Translator.likeOperator l.negated l.caseSensitive) ++ f)])
  | lowered {l : Like} {f g c : Fragment} (hcase : t.LowersCase l.caseSensitive)
      (hescape : ∀ e ∈ l.escape, e.isDelimited = true)
      (hf : (l.subject.render t).Appends (.ok ()) (.ofFragment f))
      (hg : (l.pattern.render t).Appends (.ok ()) (.ofFragment g))
      (hc : (l.renderEscape t).Appends (.ok ()) (.ofFragment c)) :
      Written (.like l) [.atom (.ofText "lower(" ++ (f ++ .ofText ")")),
        .predicate (.ofText (if l.negated then " not like lower(" else " like lower(") ++
          (g ++ (.ofText ")" ++ c)))]
  | comparison {ι : Type} {expr : ι → Expr} {words : ι → List Lexeme} {op : BinaryOp}
      {l r : List ι} (hop : op.isComparison = true) (hfeature : t.supports op.rowFeature = false)
      (hne : l ≠ []) (hlength : l.length = r.length)
      (hl : ∀ i ∈ l, Written (expr i) (words i)) (hr : ∀ i ∈ r, Written (expr i) (words i)) :
      Written (.binary (.tuple (l.map expr)) op (.tuple (r.map expr)))
        ((RowPredicate.comparison op (l.zip r)).words words)
  | member {ι : Type} {expr : ι → Expr} {words : ι → List Lexeme} {l : List ι}
      {candidates : List (List ι)} (negated : Bool)
      (hfeature : t.supports .rowConstructor = false) (hne : l ≠ []) (hcandidates : candidates ≠ [])
      (hlengths : ∀ c ∈ candidates, c.length = l.length)
      (hl : ∀ i ∈ l, Written (expr i) (words i))
      (hrows : ∀ c ∈ candidates, ∀ i ∈ c, Written (expr i) (words i)) :
      Written (.inList (.tuple (l.map expr)) (candidates.map fun c => .tuple (c.map expr)) negated)
        ((RowPredicate.member l candidates negated).words words)

variable {t}

/-- The words of an expression are its text. -/
theorem Written.appends {e : Expr} {words : List Lexeme} (h : e.Written t words) :
    (e.render t).Appends (.ok ()) (.ofFragment (Lexeme.texts words)) := by
  induction h with
  | delimited _ hf =>
      rw [Lexeme.texts_singleton]
      exact hf
  | minus _ ih | negation _ ih =>
      rw [Expr.render]
      exact (Rendering.Appends.emit _).seq ih
  | isNull _ negated ih =>
      rw [Expr.render, Lexeme.texts_append, Lexeme.texts_singleton]
      exact ih.seq (.emit _)
  | binary hrows _ _ ihleft ihright =>
      rw [Expr.render, if_neg (by simp [hrows]), Lexeme.texts_append]
      exact ihleft.seq ((Rendering.Appends.emit _).seq ihright)
  | inList negated hitems hrow _ hlist ih =>
      rw [Expr.render, if_neg (by simpa using hitems), if_neg (by simpa using hrow),
        Lexeme.texts_append, Lexeme.texts_singleton]
      exact ih.seq ((Rendering.Appends.emit _).seq (hlist.seq (.emit _)))
  | @inQuery operand query words f negated hrow _ hquery ih =>
      have hrequire : (Rendering.when operand.isTuple (t.require .rowInSubquery)).Appends
          (.ok ()) {} := by
        cases hoperand : operand.isTuple with
        | false => exact .pure ()
        | true =>
            have hgranted : t.dialect.require .rowInSubquery = .ok () := if_pos (hrow hoperand)
            rw [Rendering.when, if_pos rfl, Translator.require, hgranted]
            exact .pure ()
      rw [Expr.render, Lexeme.texts_append, Lexeme.texts_singleton]
      exact hrequire.bind_silent
        (ih.seq ((Rendering.Appends.emit _).seq (hquery.seq (.emit _))))
  | between negated _ _ _ hf hg ih =>
      rw [Expr.render, Lexeme.texts_append, Lexeme.texts_singleton]
      exact ih.seq ((Rendering.Appends.emit _).seq (hf.seq ((Rendering.Appends.emit _).seq hg)))
  | @like l words f hcase _ _ _ hf ih =>
      obtain ⟨subject, pattern, escape, negated, caseSensitive⟩ := l
      dsimp only [Translator.LowersCase] at hcase
      rw [Expr.render, Like.render, Translator.like, if_neg hcase, Lexeme.texts_append,
        Lexeme.texts_singleton]
      exact ih.seq ((Rendering.Appends.emit _).seq hf)
  | @lowered l f g c hcase _ hf hg hc =>
      obtain ⟨subject, pattern, escape, negated, caseSensitive⟩ := l
      dsimp only [Translator.LowersCase] at hcase
      rw [Expr.render, Like.render, Translator.like, if_pos hcase]
      -- The operator is written in one go with the parenthesis before it.
      have hoperator : (Rendering.emit
          (if negated then ") not like lower(" else ") like lower(")).Appends (.ok ())
          (.ofFragment (.ofText ")" ++
            .ofText (if negated then " not like lower(" else " like lower("))) := by
        cases negated <;> exact fun _ => rfl
      have htext := (Rendering.Appends.emit "lower(").seq
        (hf.seq (hoperator.seq (hg.seq ((Rendering.Appends.emit ")").seq hc))))
      simpa only [Like.renderEscape, Lexeme.texts, List.foldr_cons, List.foldr_nil,
        Lexeme.fragment, Fragment.append_empty, Fragment.append_assoc] using htext
  | comparison hop hfeature hne hlength _ _ ihl ihr =>
      rw [Formula.words, Token.texts_lexemes]
      exact Expr.comparison_text hop hfeature hne hlength ihl ihr
  | member negated hfeature hne hcandidates hlengths _ _ ihl ihrows =>
      rw [Formula.words, Token.texts_lexemes]
      exact Expr.member_text hfeature hne hcandidates hlengths negated ihl ihrows

end Expr

end SqlBackend
