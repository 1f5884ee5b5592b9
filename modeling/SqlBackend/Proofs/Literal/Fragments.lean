import SqlBackend.Proofs.Function.Tame
import SqlBackend.Proofs.Literal.Writing
import SqlBackend.Proofs.Predicate.Words
import SqlBackend.Proofs.Render.Operands

/-! # Fragments that differ in their literals

Templates and formulas put fragments together. A tame template has a character
between any two arguments and a formula a word between any two operands, so
texts of one script are made of texts of one script.
-/

namespace SqlBackend

/-- Fragments that may stand where only words touch them. -/
def Comparison.Fragments (C : Comparison) (f g : Fragment) : Prop := C.Texts .any f.text g.text

/-- Lists that belong together are the two sides of a list of pairs. -/
theorem exists_pairs {α β : Type} {R : α → β → Prop} {xs : List α} {ys : List β}
    (h : List.Forall₂ R xs ys) :
    ∃ pairs : List (α × β), xs = pairs.map Prod.fst ∧ ys = pairs.map Prod.snd ∧
      ∀ p ∈ pairs, R p.1 p.2 := by
  refine ⟨xs.zip ys, ?_, ?_, fun p hp => List.forall₂_zip h hp⟩
  · rw [List.map_fst_zip h.length_eq.le]
  · rw [List.map_snd_zip h.length_eq.ge]

/-- So are lists of such lists. -/
theorem exists_pairs_of_rows {α β : Type} {R : α → β → Prop} {xss : List (List α)}
    {yss : List (List β)} (h : List.Forall₂ (List.Forall₂ R) xss yss) :
    ∃ rows : List (List (α × β)), xss = rows.map (List.map Prod.fst) ∧
      yss = rows.map (List.map Prod.snd) ∧ ∀ row ∈ rows, ∀ p ∈ row, R p.1 p.2 := by
  induction h with
  | nil => exact ⟨[], rfl, rfl, by simp⟩
  | cons hrow _ ih =>
      obtain ⟨row, rfl, rfl, hpairs⟩ := exists_pairs hrow
      obtain ⟨rows, rfl, rfl, hrows⟩ := ih
      exact ⟨row :: rows, rfl, rfl, List.forall_mem_cons.mpr ⟨hpairs, hrows⟩⟩

theorem forall₂_zip_zip {α β : Type} {P : α → α → Prop} {Q : β → β → Prop} {xs xs' : List α}
    {ys ys' : List β} (hxs : List.Forall₂ P xs xs') (hys : List.Forall₂ Q ys ys') :
    List.Forall₂ (fun p q => P p.1 q.1 ∧ Q p.2 q.2) (xs.zip ys) (xs'.zip ys') := by
  induction hxs generalizing ys ys' with
  | nil => exact .nil
  | cons hx _ ih =>
      cases hys with
      | nil => exact .nil
      | cons hy hrest => exact .cons ⟨hx, hy⟩ (ih hrest)

namespace Comparison

variable {C : Comparison} {f f' g g' : Fragment} {fs fs' : List Fragment} {w : String}

namespace Fragments

theorem empty : C.Fragments {} {} := Texts.empty

theorem ofText (h : Script.isWord w = true) : C.Fragments (.ofText w) (.ofText w) :=
  (Texts.word (Script.word_of_isWord h)).any

/-- Two fragments with a word between them. -/
theorem infix_word (hf : C.Fragments f f') (hw : Script.isWord w = true) (hg : C.Fragments g g') :
    C.Fragments (f ++ .ofText w ++ g) (f' ++ .ofText w ++ g') := by
  rw [Fragment.append_assoc, Fragment.append_assoc]
  exact Texts.append hf (Texts.word_append (Script.word_of_isWord hw) hg)

theorem word_append (hw : Script.isWord w = true) (hf : C.Fragments f f') :
    C.Fragments (.ofText w ++ f) (.ofText w ++ f') :=
  (Texts.word_append (Script.word_of_isWord hw) hf).any

theorem append_word (hf : C.Fragments f f') (hw : Script.isWord w = true) :
    C.Fragments (f ++ .ofText w) (f' ++ .ofText w) :=
  Texts.append hf (.word (Script.word_of_isWord hw))

theorem joined (hw : Script.isWord w = true) (h : List.Forall₂ C.Fragments fs fs') :
    C.Fragments (.joined w fs) (.joined w fs') := by
  induction h with
  | nil => exact empty
  | cons hf hrest ih =>
      cases hrest with
      | nil => exact hf
      | cons => exact hf.infix_word hw ih

theorem parenthesized (h : C.Fragments f f') : C.Fragments f.parenthesized f'.parenthesized :=
  (h.word_append rfl).append_word rfl

end Fragments

/-- A character of a tame template is a word. -/
theorem word_char {c : Char} (h : (TemplatePiece.char c).isNeutral = true) :
    Script.Word C.noComments (String.singleton c) := by
  refine Script.Neutral.word ?_ (by simp [Script.ofText])
  intro d hd
  have hdc : d = c := by simpa using hd
  exact Mark.isNeutral_of_strict (hdc ▸ h)

/-- What a piece of a tame template stands for. -/
theorem fragments_expand (h : List.Forall₂ C.Fragments fs fs') (p : TemplatePiece)
    (hp : p.isNeutral = true) : C.Fragments (p.expand fs) (p.expand fs') := by
  match p with
  | .char c => exact (Texts.word (word_char hp)).any
  | .argument 0 => exact .empty
  | .argument (n + 1) =>
      obtain ⟨pairs, rfl, rfl, hpairs⟩ := exists_pairs h
      simp only [TemplatePiece.expand, List.getElem?_map]
      cases hn : pairs[n]? with
      | none => exact .empty
      | some pair => exact hpairs pair (List.mem_of_getElem? hn)
  | .allArguments => exact .joined rfl h

/-- Behind an argument of a tame template the rest starts with a character, so it
may touch the argument. -/
theorem texts_expand_pieces (h : List.Forall₂ C.Fragments fs fs') {pieces : List TemplatePiece}
    (htame : TemplatePiece.Tame pieces) : ∃ start : Start,
      (pieces.head?.all TemplatePiece.isChar = true → start = .neutral) ∧
      C.Texts start
        (pieces.foldr (fun piece rest => TemplatePiece.expand fs piece ++ rest) {}).text
        (pieces.foldr (fun piece rest => TemplatePiece.expand fs' piece ++ rest) {}).text := by
  -- What the induction carries is the first piece: a character may touch what stands before it.
  induction pieces with
  | nil => exact ⟨.neutral, fun _ => rfl, .empty⟩
  | cons p rest ih =>
      obtain ⟨hp, hneutral⟩ := List.forall_mem_cons.mp htame.neutral
      obtain ⟨start, hstart, htexts⟩ := ih ⟨hneutral, htame.apart.tail⟩
      by_cases hchar : p.isChar = true
      · obtain ⟨c, rfl⟩ : ∃ c, p = .char c := by
          cases p with
          | char c => exact ⟨c, rfl⟩
          | argument | allArguments => cases hchar
        exact ⟨.neutral, fun _ => rfl, Texts.word_append (word_char hp) htexts⟩
      · -- Behind an argument a tame template goes on with a character.
        have hrest : rest.head?.all TemplatePiece.isChar = true := by
          cases rest with
          | nil => rfl
          | cons q rest =>
              have hapart := (List.isChain_cons_cons.mp htame.apart).1
              simpa [hchar] using hapart
        rw [hstart hrest] at htexts
        exact ⟨.any, fun hhead => absurd (by simpa using hhead) hchar,
          Texts.append (fragments_expand h p hp) htexts⟩

theorem fragments_expandTemplate (h : List.Forall₂ C.Fragments fs fs') {template : String}
    (htame : TemplatePiece.Tame (TemplatePiece.ofChars template.toList)) :
    C.Fragments (expandTemplate template fs) (expandTemplate template fs') := by
  obtain ⟨_, _, htexts⟩ := texts_expand_pieces h htame
  exact htexts.any

end Comparison

namespace Formula

variable {C : Comparison}

mutual

/-- A formula over pairs of fragments has two texts, of one script if those of
each pair are. -/
theorem fragments_alike : ∀ f : Formula (Fragment × Fragment),
    f.Over (fun p => C.Fragments p.1 p.2) →
    C.Fragments (f.map Prod.fst).fragment (f.map Prod.snd).fragment
  | .comparison op left right, h => by
      have hop : Script.isWord (" " ++ op.text ++ " ") = true := by cases op <;> rfl
      exact h.1.infix_word hop h.2
  | .isNull operand, h => h.append_word rfl
  | .negation inner, h => (fragments_alike inner h).word_append rfl
  | .all parts, h => .joined rfl (fragments_alike_all parts h)
  | .any parts, h => .joined rfl (fragments_alike_all parts h)
  | .group inner, h => (fragments_alike inner h).parenthesized
  | .isTrue condition negated, h => by
      refine ((fragments_alike condition h).word_append rfl).append_word ?_
      cases negated <;> rfl

theorem fragments_alike_all : ∀ parts : List (Formula (Fragment × Fragment)),
    OverAll (fun p => C.Fragments p.1 p.2) parts →
    List.Forall₂ C.Fragments (fragments (mapAll Prod.fst parts)) (fragments (mapAll Prod.snd parts))
  | [], _ => .nil
  | part :: rest, h => .cons (fragments_alike part h.1) (fragments_alike_all rest h.2)

end

end Formula

namespace RowPredicate

variable {C : Comparison} {left left' right right' row row' : List Fragment}

theorem native_alike (op : BinaryOp) (hleft : List.Forall₂ C.Fragments left left')
    (hright : List.Forall₂ C.Fragments right right') :
    C.Fragments (native op left right) (native op left' right') := by
  have hop : Script.isWord (" " ++ op.text ++ " ") = true := by cases op <;> rfl
  have hl := (Comparison.Fragments.joined rfl hleft (w := ", ")).parenthesized
  have hr := (Comparison.Fragments.joined rfl hright (w := ", ")).parenthesized
  exact hl.infix_word hop hr

/-- Both sides of lists of pairs are compared alike. -/
theorem comparison_alike (op : BinaryOp) (hleft : List.Forall₂ C.Fragments left left')
    (hright : List.Forall₂ C.Fragments right right') :
    C.Fragments (comparison op (left.zip right)).fragment
      (comparison op (left'.zip right')).fragment := by
  obtain ⟨ls, rfl, rfl, hls⟩ := exists_pairs hleft
  obtain ⟨rs, rfl, rfl, hrs⟩ := exists_pairs hright
  rw [List.zip_map, List.zip_map, ← map_comparison, ← map_comparison]
  exact Formula.fragments_alike _ (comparison_over (zip_over hls hrs))

theorem member_alike {rows rows' : List (List Fragment)} (negated : Bool)
    (hrow : List.Forall₂ C.Fragments row row')
    (hrows : List.Forall₂ (List.Forall₂ C.Fragments) rows rows') :
    C.Fragments (member row rows negated).fragment (member row' rows' negated).fragment := by
  obtain ⟨elements, rfl, rfl, helements⟩ := exists_pairs hrow
  obtain ⟨candidates, rfl, rfl, hcandidates⟩ := exists_pairs_of_rows hrows
  rw [← map_member, ← map_member]
  exact Formula.fragments_alike _ (member_over helements hcandidates)

theorem distinct_alike {f f' g g' : Fragment} (negated : Bool) (hf : C.Fragments f f')
    (hg : C.Fragments g g') :
    C.Fragments (distinct f g negated).fragment (distinct f' g' negated).fragment := by
  have hpairs := Formula.fragments_alike (C := C) (distinct (f, f') (g, g') negated)
    (distinct_over hf hg)
  rwa [map_distinct, map_distinct] at hpairs

end RowPredicate

end SqlBackend
