import SqlBackend.Proofs.Literal.Statements

/-! # No comment starts in a statement

Two minus signs start a comment, and so do a slash and a star. Words and names
keep operators apart, so outside literals such a pair is written in one way only:
by a minus before an operand that itself is written with a minus first.
-/

namespace SqlBackend

namespace Piece

/-- Somewhere outside literals two characters start a comment. -/
def Commented (pieces : List Piece) : Prop :=
  ∃ c d, Mark.startsComment c d = true ∧ [char c, char d] <:+: pieces

theorem not_commented_of_clean {script : Script} (h : script.Clean true) (side : Side) :
    ¬Commented (script.map (Mark.piece side)) := by
  rintro ⟨c, d, hpair, hinfix⟩
  have hchain : (script.map (Mark.piece side)).IsChain fun p q =>
      ∀ c d, p = char c → q = char d → Mark.startsComment c d = false := by
    refine (List.isChain_map _).mpr (h.chain.imp fun m n hmn c d hm hn => ?_)
    cases m with
    | literal => cases hm
    | char c' =>
        cases n with
        | literal => cases hn
        | char d' =>
            cases hm
            cases hn
            simpa [Mark.mayPrecede] using hmn
  have hpair' := List.IsChain.infix hchain hinfix
  have htouch := (List.isChain_cons_cons.mp hpair').1 c d rfl rfl
  rw [hpair] at htouch
  cases htouch

end Piece

/-- A minus before an operand that starts with a minus starts a comment. -/
theorem Expr.negation_starts_comment {t : Translator} {operand : Expr}
    (h : operand.StartsWithMinus t) :
    ∃ rest, (((Expr.unary .neg operand).render t).run {}).2.text.toList = '-' :: '-' :: rest := by
  obtain ⟨outcome, output, happends, _⟩ := operand.render_appends t
  rw [StartsWithMinus, happends {}, Output.empty_append] at h
  obtain ⟨rest, hrest⟩ := List.head?_eq_some_iff.mp h
  refine ⟨rest, ?_⟩
  rw [Expr.render, Rendering.run_bind, Rendering.run_emit]
  dsimp only
  rw [happends, Output.text_append, String.toList_append, hrest]
  rfl

/-- Translations start no comment outside string literals if the names hold no
character of a quote or of a comment and no minus stands before an operand that
is written with a minus first. A minus before such an operand starts one. -/
theorem Translator.writes_no_comment (t : Translator) (s : Statement) :
    (Registry.postgres.Tame ∧ Registry.spanner.Tame ∧ TypeMapping.postgres.Tame ∧
      ∀ timestamptzForTime, (TypeMapping.spanner timestamptzForTime).Tame) ∧
    (t.dialect.functions.Tame → t.dialect.types.Tame →
      (∀ n ∈ s.nodes t.style, ∀ name ∈ n.names, ∀ c ∈ [Text.singleQuote, '-', '/', '*'],
        c ∉ name.toList) →
      (∀ operand, .expr (.unary .neg operand) ∈ s.nodes t.style → ¬operand.StartsWithMinus t) →
      ∀ o, t.translate s = .ok o →
        ∃ pieces, Piece.scan o.text = some pieces ∧ ¬Piece.Commented pieces) ∧
    ∀ operand : Expr, operand.StartsWithMinus t → ∃ rest,
      (((Expr.unary .neg operand).render t).run {}).2.text.toList = '-' :: '-' :: rest := by
  refine ⟨⟨Registry.postgres_tame, Registry.spanner_tame, TypeMapping.postgres_tame,
    TypeMapping.spanner_tame⟩, ?_, fun operand => Expr.negation_starts_comment⟩
  intro hfunctions htypes hnames hminus o ho
  have hsuits : Comparison.Suits ⟨sameContent, t.style, true⟩ t := ⟨rfl, hfunctions, htypes⟩
  have hplain : ∀ n ∈ s.nodes t.style, n.Plain t true := by
    intro n hn
    refine ⟨fun name hname c hc => ?_, fun _ operand hnode => hminus operand (hnode ▸ hn)⟩
    apply Mark.isNeutral_of_forall_ne
    rintro d hd rfl
    exact hnames n hn name hname c hd hc
  rcases hsuits.alike_translate s.alike_self hplain with ⟨e, he, _⟩ | ⟨_, _, ho', _, script, _, h⟩
  · cases ho.symm.trans he
  · cases ho.symm.trans ho'
    refine ⟨script.map (Mark.piece .first), ?_, Piece.not_commented_of_clean h.clean .first⟩
    rw [Piece.scan, h.first, h.clean.scanFrom]

/-- None of some characters is in a text, as a computation shows. -/
theorem not_mem_of_all {marks : List Char} {text : String}
    (h : marks.all (· ∉ text.toList) = true) : ∀ c ∈ marks, c ∉ text.toList :=
  fun c hc => of_decide_eq_true (List.all_eq_true.mp h c hc)

/-- A negative number in parentheses can be negated. -/
theorem Translator.writes_no_comment_parentheses :
    let t := Dialect.postgres.translator
    let s := Statement.select (.plain [⟨.unary .neg (.paren (.literal (.integer (-1)))), none⟩]
      (some (.table { name := "t" })))
    (∀ n ∈ s.nodes t.style, ∀ name ∈ n.names, ∀ c ∈ [Text.singleQuote, '-', '/', '*'],
        c ∉ name.toList) ∧
      (∀ operand, .expr (.unary .neg operand) ∈ s.nodes t.style → ¬operand.StartsWithMinus t) ∧
      t.translate s = .ok { text := "select -(-1) from t" } ∧
      ∃ pieces, Piece.scan "select -(-1) from t" = some pieces ∧ ¬Piece.Commented pieces := by
  intro t s
  have hnames : ∀ n ∈ s.nodes t.style, ∀ name ∈ n.names,
      ∀ c ∈ [Text.singleQuote, '-', '/', '*'], c ∉ name.toList := by
    have hnone : ∀ n ∈ s.nodes t.style, ∀ name ∈ n.names,
        [Text.singleQuote, '-', '/', '*'].all (· ∉ name.toList) = true := by decide
    exact fun n hn name hname => not_mem_of_all (hnone n hn name hname)
  have hminus : ∀ operand, .expr (.unary .neg operand) ∈ s.nodes t.style →
      ¬operand.StartsWithMinus t := by
    intro operand hmem
    have hoperand : operand = .paren (.literal (.integer (-1))) := by
      simpa [s, Statement.nodes, Select.plain, Select.nodes, With.nodes?, SelectItem.nodesOf,
        Expr.nodes, TableRef.nodes?, TableRef.nodes, Expr.nodes?, Expr.nodesOf,
        OrderItem.nodesOf] using hmem
    subst hoperand
    decide
  have htext : t.translate s = .ok { text := "select -(-1) from t" } := rfl
  exact ⟨hnames, hminus, htext, (writes_no_comment t s).2.1 Registry.postgres_tame
    TypeMapping.postgres_tame hnames hminus _ htext⟩

/-- A negative number that is negated without them starts a comment, which hides
the rest of the statement. -/
theorem Translator.writes_comment_negation :
    let t := Dialect.postgres.translator
    let s := Statement.select (.plain [⟨.unary .neg (.literal (.integer (-1))), none⟩]
      (some (.table { name := "t" })))
    (∀ n ∈ s.nodes t.style, ∀ name ∈ n.names,
        ∀ c ∈ [Text.singleQuote, Text.doubleQuote, '-', '/', '*'], c ∉ name.toList) ∧
      t.translate s = .ok { text := "select --1 from t" } ∧
      ∃ pieces, Piece.scan "select --1 from t" = some pieces ∧ Piece.Commented pieces := by
  intro t s
  have hnone : ∀ n ∈ s.nodes t.style, ∀ name ∈ n.names,
      [Text.singleQuote, Text.doubleQuote, '-', '/', '*'].all (· ∉ name.toList) = true := by decide
  refine ⟨fun n hn name hname => not_mem_of_all (hnone n hn name hname), rfl,
    "select --1 from t".toList.map .char, rfl, '-', '-', rfl, ?_⟩
  exact ⟨"select ".toList.map .char, "1 from t".toList.map .char, rfl⟩

end SqlBackend
