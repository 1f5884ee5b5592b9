import SqlBackend.Proofs.Pattern.Written
import SqlBackend.Proofs.Text.Lowercase

/-! # Matching in lower case

A backend without an operator that ignores case compares the lower case of a text with
the lower case of a pattern. This ignores case as long as the pattern in lower case has
its escape character where it has it as written. A letter that escapes breaks this: a
capital one is gone from the pattern, and a small one stands there for its capital too.
-/

namespace SqlBackend

namespace Pattern

/-- The part that stands for the same in lower case. -/
def Part.lower : Part → Part
  | char c => char c.toLower
  | one => one
  | any => any

/-- Whether a text is made of what the parts stand for, letters being equal in either
case. -/
def fitsIgnoringCase : List Part → List Char → Bool
  | [], text => text.isEmpty
  | .char c :: parts, text =>
      text.head?.map Char.toLower = some c.toLower && fitsIgnoringCase parts text.tail
  | .one :: parts, text => !text.isEmpty && fitsIgnoringCase parts text.tail
  | .any :: parts, text => text.tails.any (fitsIgnoringCase parts)

/-- Whether a text matches a pattern in any case of its letters. The escape character is
the one that the pattern is written with, so it has a case of its own. -/
def matchesIgnoringCase? (escape : Option Char) (pattern text : String) : Option Bool :=
  (read escape pattern.toList).map fun parts => fitsIgnoringCase parts text.toList

example : matchesIgnoringCase? (some '!') "50!%_A" "50%xa" = some true := by decide +kernel

/-- In lower case a pattern has its escape character where it has it as written, and
nowhere else. -/
def KeepsEscape (escape : Option Char) (pattern : List Char) : Prop :=
  ∀ c ∈ pattern, escape = some c.toLower ↔ escape = some c

instance (escape : Option Char) (pattern : List Char) : Decidable (KeepsEscape escape pattern) :=
  List.decidableBAll _ _

theorem fits_lower (parts : List Part) (text : List Char) :
    fits (parts.map Part.lower) (text.map Char.toLower) = fitsIgnoringCase parts text := by
  induction parts generalizing text with
  | nil => simp [fits, fitsIgnoringCase]
  | cons part parts ih =>
      cases part with
      | char c =>
          rw [List.map_cons, Part.lower, fits, fitsIgnoringCase, List.head?_map, ← List.map_tail,
            ih]
      | one =>
          rw [List.map_cons, Part.lower, fits, fitsIgnoringCase, List.isEmpty_map, ← List.map_tail,
            ih]
      | any =>
          rw [List.map_cons, Part.lower, fits, fitsIgnoringCase, List.map_tails, List.any_map]
          exact congrArg text.tails.any (funext ih)

/-- The wildcards are no letters, so a character is one in lower case if it was one. -/
theorem Part.lower_ofChar (c : Char) : (Part.ofChar c).lower = .ofChar c.toLower := by
  have hpercent := Text.toLower_eq_iff (e := '%') rfl c
  have hunderscore := Text.toLower_eq_iff (e := '_') rfl c
  unfold Part.ofChar
  simp only [hpercent, hunderscore]
  split
  · rfl
  · split
    · rfl
    · rfl

/-- Reading follows the escape characters two by two, so what is left to read keeps them
as well. -/
theorem read_lower {escape : Option Char} {chars : List Char} (h : KeepsEscape escape chars) :
    read escape (chars.map Char.toLower) = (read escape chars).map (List.map Part.lower) := by
  fun_induction read escape chars with
  | case1 => rfl
  | case2 c hc =>
      have hlower := (h c List.mem_cons_self).mpr hc
      simp [read, hlower]
  | case3 c hc =>
      have hlower := (h c List.mem_cons_self).not.mpr hc
      simp [read, hlower, Part.lower_ofChar]
  | case4 c d rest hc ih =>
      have hlower := (h c List.mem_cons_self).mpr hc
      have hrest : KeepsEscape escape rest := fun c' hc' => h c' (by simp [hc'])
      rw [List.map_cons, List.map_cons, read, if_pos hlower, ih hrest, Option.map_map,
        Option.map_map]
      rfl
  | case5 c d rest hc ih =>
      have hlower := (h c List.mem_cons_self).not.mpr hc
      have hrest : KeepsEscape escape (d :: rest) := fun c' hc' => h c' (List.mem_cons_of_mem c hc')
      have hparts (parts : List Part) :
          Part.ofChar c.toLower :: parts.map Part.lower =
            (Part.ofChar c :: parts).map Part.lower := by
        rw [List.map_cons, Part.lower_ofChar]
      rw [List.map_cons, List.map_cons, read, if_neg hlower, ← List.map_cons, ih hrest,
        Option.map_map, Option.map_map]
      exact congrArg (Option.map · _) (funext hparts)

/-- Comparing in lower case ignores case where the escape characters stay in place. -/
theorem matches?_lower {escape : Option Char} {pattern : String}
    (h : KeepsEscape escape pattern.toList) (text : String) :
    matches? escape (Text.lower pattern) (Text.lower text) =
      matchesIgnoringCase? escape pattern text := by
  have hfits (parts : List Part) := fits_lower parts text.toList
  rw [matches?, matchesIgnoringCase?, Text.toList_lower, Text.toList_lower, read_lower h,
    Option.map_map]
  exact congrArg (Option.map · _) (funext hfits)

/-- An escape character that is no letter stays in place in every pattern. -/
theorem keepsEscape_of_not_isAlpha {escape : Option Char}
    (h : ∀ e, escape = some e → e.isAlpha = false) (pattern : List Char) :
    KeepsEscape escape pattern := by
  intro c _
  cases escape with
  | none => exact iff_of_false nofun nofun
  | some e =>
      rw [Option.some_inj, Option.some_inj, eq_comm, Text.toLower_eq_iff (h e rfl), eq_comm]

/-- One character cannot be read if it escapes what should follow it. -/
theorem read_singleton_eq_none_iff {escape : Option Char} {c : Char} :
    read escape [c] = none ↔ escape = some c := by
  simp [read]

/-- Reading tells an escape character from others, so it has to be in place already for
the patterns of one character. -/
theorem escape_iff_of_matches {escape : Option Char} {c : Char} {text : String}
    (h : matches? escape (Text.lower (.singleton c)) (Text.lower text) =
      matchesIgnoringCase? escape (.singleton c) text) :
    escape = some c.toLower ↔ escape = some c := by
  have hnone : matches? escape (Text.lower (.singleton c)) (Text.lower text) = none ↔
      matchesIgnoringCase? escape (.singleton c) text = none := by rw [h]
  rw [matches?, matchesIgnoringCase?, Option.map_eq_none_iff, Option.map_eq_none_iff,
    Text.toList_lower, String.toList_singleton] at hnone
  rwa [← read_singleton_eq_none_iff, ← read_singleton_eq_none_iff]

/-- Comparing in lower case ignores case in all patterns exactly if no letter escapes. -/
theorem matches?_lower_iff {escape : Option Char} :
    (∀ pattern text, matches? escape (Text.lower pattern) (Text.lower text) =
        matchesIgnoringCase? escape pattern text) ↔
      ∀ e, escape = some e → e.isAlpha = false := by
  constructor
  · rintro hall e rfl
    by_contra hletter
    obtain ⟨c, hc⟩ := Text.exists_toLower_of_isAlpha (Bool.not_eq_false _ ▸ hletter)
    have hescape := escape_iff_of_matches (hall (.singleton c) "")
    rw [Option.some_inj, Option.some_inj, eq_comm, eq_comm (a := e)] at hescape
    exact hc hescape
  · intro hletter pattern text
    exact matches?_lower (keepsEscape_of_not_isAlpha hletter _) text

/-- The escape character of a pattern as an expression: a literal of this character. -/
def escapeLiteral (escape : Option Char) : Option Expr :=
  escape.map fun e => .literal (.string (.singleton e))

/-- What is written behind the operator of a match in lower case: the pattern, and its
escape character or an empty one. -/
def lowered (escape : Option Char) (pattern : String) : String :=
  Text.literal pattern ++ (")" ++ (" escape " ++ Text.literal (escape.elim "" .singleton)))

/-- Whether a match in lower case is true of a text, by what is written behind its
operator: a literal in lower case, and perhaps an escape character as it is. -/
def matchesLowered? (written text : String) : Option Bool :=
  match Piece.scan written with
  | some (.literal pattern :: .char ')' :: behind) =>
      (escapeOf behind).bind fun escape =>
        matches? escape (Text.lower (.ofList pattern)) (Text.lower text)
  | _ => none

theorem escapeOf_clause (escape : Option Char) :
    escapeOf (" escape ".toList.map .char ++ [.literal (escape.elim "" String.singleton).toList]) =
      some escape := by
  rw [escapeOf, if_neg (by simp), List.dropLast_concat, if_pos rfl, List.getLast?_concat]
  cases escape with
  | none => rfl
  | some e => rw [Option.elim_some, String.toList_singleton]

theorem matchesLowered?_lowered (escape : Option Char) (pattern text : String) :
    matchesLowered? (lowered escape pattern) text =
      matches? escape (Text.lower pattern) (Text.lower text) := by
  have hclause : Piece.scan (")" ++ (" escape " ++ Text.literal (escape.elim "" .singleton))) =
      some (.char ')' :: (" escape ".toList.map .char ++
        [.literal (escape.elim "" String.singleton).toList])) :=
    Piece.scan_word_append rfl (Piece.scan_word_append rfl (Piece.scan_literal _))
  rw [matchesLowered?, lowered,
    Piece.scan_literal_append pattern (by simp [Text.singleQuote]) hclause]
  change ((escapeOf (" escape ".toList.map .char ++
    [.literal (escape.elim "" String.singleton).toList])).bind fun escape =>
      matches? escape (Text.lower (.ofList pattern.toList)) (Text.lower text)) = _
  rw [String.ofList_toList, escapeOf_clause, Option.bind_some]

end Pattern

open Rendering (emit)

namespace Like

theorem render_lowered {t : Translator} (ht : t.style = .standard)
    (hfeature : t.supports .caseInsensitiveLike = false) (subject : Expr) (pattern : String)
    (escape : Option Char) (negated : Bool) :
    (Like.mk subject (.literal (.string pattern)) (Pattern.escapeLiteral escape)
        negated false).render t =
      (do
        emit "lower("
        subject.render t
        emit (if negated then ") not like lower(" else ") like lower(")
        emit (Pattern.lowered escape pattern)) := by
  have hclause : Translator.escapeClause (Expr.rendering? t (Pattern.escapeLiteral escape)) =
      emit (" escape " ++ Text.literal (escape.elim "" .singleton)) := by
    rw [← Rendering.emit_seq]
    cases escape with
    | none => rfl
    | some e =>
        rw [Pattern.escapeLiteral, Option.map_some, Expr.rendering?, Expr.render]
        rfl
  have hstyle : t.style = .standard ∧ (!false) = true ∧ (!t.supports .caseInsensitiveLike) = true :=
    ⟨ht, rfl, by rw [hfeature]; rfl⟩
  rw [render, Translator.like, if_pos hstyle, hclause, Expr.render, Rendering.emit_seq,
    Rendering.emit_seq]
  rfl

/-- Without an operator that ignores case, a match with a literal pattern compares the
lower case of both sides. That ignores case in a pattern that keeps its escape character
in lower case. It does so in all patterns exactly if the escape character is no letter. -/
theorem lowered_match_ignores_case (t : Translator) (ht : t.style = .standard)
    (hfeature : t.supports .caseInsensitiveLike = false) (subject : Expr) (negated : Bool)
    (escape : Option Char) :
    ∃ written : String → String,
      (∀ pattern, (Like.mk subject (.literal (.string pattern)) (Pattern.escapeLiteral escape)
          negated false).render t =
        (do
          emit "lower("
          subject.render t
          emit (if negated then ") not like lower(" else ") like lower(")
          emit (written pattern))) ∧
      (∀ pattern text, Pattern.KeepsEscape escape pattern.toList →
        Pattern.matchesLowered? (written pattern) text =
          Pattern.matchesIgnoringCase? escape pattern text) ∧
      ((∀ pattern text, Pattern.matchesLowered? (written pattern) text =
          Pattern.matchesIgnoringCase? escape pattern text) ↔
        ∀ e, escape = some e → e.isAlpha = false) := by
  refine ⟨Pattern.lowered escape, fun pattern => render_lowered ht hfeature _ _ _ _, ?_, ?_⟩
  · intro pattern text h
    rw [Pattern.matchesLowered?_lowered, Pattern.matches?_lower h]
  · simp only [Pattern.matchesLowered?_lowered]
    exact Pattern.matches?_lower_iff

/-- A small letter that escapes, in a pattern without its capital. -/
theorem lowered_match_ignores_case_letter :
    let t : Translator := ⟨.spanner {}, .standard⟩
    let subject := Expr.column none "a"
    let pattern := "50x%_Ab"
    t.style = .standard ∧ t.supports .caseInsensitiveLike = false ∧
    Pattern.KeepsEscape (some 'x') pattern.toList ∧
    ∃ written : String → String,
      (Like.mk subject (.literal (.string pattern)) (some (.literal (.string "x")))
          true false).render t =
        (do
          emit "lower("
          subject.render t
          emit ") not like lower("
          emit (written pattern)) ∧
      Pattern.matchesIgnoringCase? (some 'x') pattern "50%xaB" = some true ∧
      ∀ text, Pattern.matchesLowered? (written pattern) text =
        Pattern.matchesIgnoringCase? (some 'x') pattern text := by
  intro t subject pattern
  have hkeeps : Pattern.KeepsEscape (some 'x') pattern.toList := by decide +kernel
  obtain ⟨written, hrender, hkept, _⟩ :=
    lowered_match_ignores_case t rfl (by decide) subject true (some 'x')
  exact ⟨rfl, by decide, hkeeps, written, hrender pattern, by decide +kernel,
    fun text => hkept pattern text hkeeps⟩

/-- Escaping with a capital letter is lost, so a percent sign becomes a wildcard, and
escaping with a small letter starts at its capital, so the pattern is cut off. -/
theorem lowered_match_loses_escape :
    let t : Translator := ⟨.spanner {}, .standard⟩
    let l : Like :=
      ⟨.column none "a", .literal (.string "X%"), some (.literal (.string "X")), false, false⟩
    let l' : Like :=
      ⟨.column none "a", .literal (.string "X"), some (.literal (.string "x")), false, false⟩
    l.render t =
        (do emit "lower("; l.subject.render t; emit ") like lower("; emit "'X%') escape 'X'") ∧
      Pattern.matchesLowered? "'X%') escape 'X'" "xy" = some true ∧
      Pattern.matchesIgnoringCase? (some 'X') "X%" "xy" = some false ∧
      l'.render t =
        (do emit "lower("; l'.subject.render t; emit ") like lower("; emit "'X') escape 'x'") ∧
      Pattern.matchesLowered? "'X') escape 'x'" "x" = none ∧
      Pattern.matchesIgnoringCase? (some 'x') "X" "x" = some true := by
  intro t l l'
  have hcapital : Pattern.lowered (some 'X') "X%" = "'X%') escape 'X'" := by decide +kernel
  have hsmall : Pattern.lowered (some 'x') "X" = "'X') escape 'x'" := by decide +kernel
  refine ⟨?_, by decide +kernel, by decide +kernel, ?_, by decide +kernel, by decide +kernel⟩
  · rw [← hcapital]
    exact render_lowered rfl (by decide) l.subject "X%" (some 'X') false
  · rw [← hsmall]
    exact render_lowered rfl (by decide) l'.subject "X" (some 'x') false

end Like

end SqlBackend
