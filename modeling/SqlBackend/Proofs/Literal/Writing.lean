import SqlBackend.Proofs.Literal.Alike
import SqlBackend.Proofs.Literal.Script
import SqlBackend.Render.Rendering

/-! # Renderings that differ in their literals

Two renderings are compared step by step: both end in the same error, or both
write texts of one script. Most clauses start with a word, so they may be
written behind anything; an operand is anything, so only a word may touch it.
-/

namespace SqlBackend

open Rendering (emit emitFragment fail ofExcept detached)

/-- What two renderings are compared by. -/
structure Comparison where
  /-- Which contents of string literals belong together. -/
  related : LiteralUse → String → String → Prop
  /-- The rules that both renderings follow. -/
  style : RenderingStyle
  /-- Whether no comment may start outside literals. -/
  noComments : Bool

/-- The literals that may be written: those of the statements, patterns with
their backslashes doubled where the rules ask for it, and the fixed literals
that the rules for patterns need. -/
inductive Comparison.Admits (C : Comparison) : LiteralSource → Prop where
  | value {a b : String} (h : C.related .value a b) : C.Admits (.content a b)
  | pattern {a b : String} (h : C.related .pattern a b)
      (hstyle : C.style ≠ .spanner .reescapeBackslash) : C.Admits (.content a b)
  | reescaped {a b : String} (h : C.related .pattern a b)
      (hstyle : C.style = .spanner .reescapeBackslash) : C.Admits (.reescaped a b)
  | fixed {text : String} (h : text ∈ ["", "\\", "\\\\"]) : C.Admits (.fixed text)

/-- Both texts are those of the script. -/
structure Script.Spells (C : Comparison) (script : Script) (a b : String) : Prop where
  clean : script.Clean C.noComments
  admitted : ∀ source, .literal source ∈ script → C.Admits source
  first : a.toList = script.chars .first
  second : b.toList = script.chars .second

namespace Script

variable {C : Comparison} {script script' : Script} {a b a' b' : String}

theorem Spells.append (h : script.Spells C a b) (h' : script'.Spells C a' b')
    (hjoin : script.Closes C.noComments ∨ script'.Opens C.noComments) :
    (script ++ script').Spells C (a ++ a') (b ++ b') where
  clean := h.clean.append h'.clean hjoin
  admitted source hs := (List.mem_append.mp hs).elim (h.admitted source) (h'.admitted source)
  first := by rw [String.toList_append, chars_append, h.first, h'.first]
  second := by rw [String.toList_append, chars_append, h.second, h'.second]

theorem spells_ofText (h : (ofText a).Clean C.noComments) : (ofText a).Spells C a a where
  clean := h
  admitted source hs := absurd hs (literal_not_mem_ofText source a)
  first := (chars_ofText .first a).symm
  second := (chars_ofText .second a).symm

end Script

/-- What may stand before a text: anything, or only a word. -/
inductive Start where
  | neutral
  | any

def Start.Fits (noComments : Bool) : Start → Script → Prop
  | neutral, script => script.Opens noComments
  | any, _ => True

namespace Comparison

/-- Two texts of one script. -/
def Texts (C : Comparison) (start : Start) (a b : String) : Prop :=
  ∃ script : Script, start.Fits C.noComments script ∧ script.Spells C a b

namespace Texts

variable {C : Comparison} {start : Start} {a b a' b' w : String}

theorem any (h : C.Texts start a b) : C.Texts .any a b := by
  obtain ⟨script, _, hspells⟩ := h
  exact ⟨script, trivial, hspells⟩

theorem empty : C.Texts start "" "" := by
  refine ⟨[], ?_, .nil, by simp, rfl, rfl⟩
  cases start with
  | neutral => simp [Start.Fits, Script.Opens]
  | any => trivial

theorem append (h : C.Texts start a b) (h' : C.Texts .neutral a' b') :
    C.Texts start (a ++ a') (b ++ b') := by
  obtain ⟨script, hstart, hspells⟩ := h
  obtain ⟨script', hopens, hspells'⟩ := h'
  refine ⟨script ++ script', ?_, hspells.append hspells' (.inr hopens)⟩
  cases start with
  | neutral => exact Script.Opens.append hstart hopens
  | any => trivial

theorem word (h : Script.Word C.noComments w) : C.Texts .neutral w w :=
  ⟨.ofText w, h.opens, Script.spells_ofText h.clean⟩

/-- Behind a word anything may stand. -/
theorem word_append (hword : Script.Word C.noComments w) (h : C.Texts start a b) :
    C.Texts .neutral (w ++ a) (w ++ b) := by
  obtain ⟨script, _, hspells⟩ := h
  exact ⟨.ofText w ++ script, Script.opens_append_of_ne_nil hword.opens hword.nonempty,
    (Script.spells_ofText hword.clean).append hspells (.inl hword.closes)⟩

theorem neutral (h : Script.Neutral C.noComments a) : C.Texts .neutral a a := by
  by_cases hnil : Script.ofText a = []
  · have ha : a = "" := String.toList_eq_nil_iff.mp (List.map_eq_nil_iff.mp hnil)
    rw [ha]
    exact empty
  · exact word (h.word hnil)

/-- A character by itself may stand where only words touch it. -/
theorem char {c : Char} (hc : c ≠ Text.singleQuote) :
    C.Texts .any (String.singleton c) (String.singleton c) := by
  have hscript : Script.ofText (String.singleton c) = [.char c] := by simp [Script.ofText]
  refine ⟨_, trivial, Script.spells_ofText ⟨?_, ?_⟩⟩
  · rw [hscript]
    simpa using hc
  · rw [hscript]
    exact List.isChain_singleton _

theorem literal (source : LiteralSource) (h : C.Admits source) :
    C.Texts .any (Text.literal (source.text .first)) (Text.literal (source.text .second)) := by
  refine ⟨[.literal source], trivial, ⟨by simp, List.isChain_singleton _⟩, ?_, ?_, ?_⟩
  · intro other hother
    cases List.mem_singleton.mp hother
    exact h
  · simp [Script.chars, Mark.chars]
  · simp [Script.chars, Mark.chars]

end Texts

end Comparison

namespace Rendering

variable {α β : Type} {C : Comparison} {start : Start}

/-- The same error, or results that belong together. -/
inductive SameEnd (R : α → α → Prop) : Except Error α → Except Error α → Prop where
  | ok {a b : α} (h : R a b) : SameEnd R (.ok a) (.ok b)
  | error (e : Error) : SameEnd R (.error e) (.error e)

/-- Both renderings leave the text as it is and end alike. -/
def Silent (R : α → α → Prop) (r r' : Rendering α) : Prop :=
  ∀ before before', SameEnd R (r.run before).1 (r'.run before').1 ∧
    (r.run before).2.text = before.text ∧ (r'.run before').2.text = before'.text

/-- Both renderings end in the same way, and if they do not fail they write texts
of one script. -/
def Alike (C : Comparison) (start : Start) (r r' : Rendering Unit) : Prop :=
  ∀ before before', (r.run before).1 = (r'.run before').1 ∧
    ((r.run before).1 = .ok () → ∃ a b, C.Texts start a b ∧
      (r.run before).2.text = before.text ++ a ∧ (r'.run before').2.text = before'.text ++ b)

namespace Silent

variable {R : α → α → Prop} {Q : β → β → Prop} {r r' : Rendering α}

theorem pure {a b : α} (h : R a b) : Silent R (Pure.pure a) (Pure.pure b) :=
  fun _ _ => ⟨.ok h, rfl, rfl⟩

theorem ofExcept {x y : Except Error α} (h : SameEnd R x y) :
    Silent R (Rendering.ofExcept x) (Rendering.ofExcept y) :=
  fun _ _ => ⟨h, rfl, rfl⟩

/-- The same outcome on both sides. -/
theorem ofExcept_self (x : Except Error α) (h : ∀ a, x = .ok a → R a a) :
    Silent R (Rendering.ofExcept x) (Rendering.ofExcept x) := by
  apply ofExcept
  cases x with
  | ok a => exact .ok (h a rfl)
  | error e => exact .error e

theorem fail (e : Error) : Silent R (Rendering.fail e) (Rendering.fail e) := ofExcept (.error e)

theorem bind {f f' : α → Rendering β} (h : Silent R r r')
    (hf : ∀ a b, R a b → Silent Q (f a) (f' b)) : Silent Q (r >>= f) (r' >>= f') := by
  intro before before'
  obtain ⟨hend, htext, htext'⟩ := h before before'
  rw [run_bind, run_bind]
  revert hend htext htext'
  rcases r.run before with ⟨x, o⟩
  rcases r'.run before' with ⟨y, o'⟩
  intro hend htext htext'
  cases hend with
  | error e => exact ⟨.error e, htext, htext'⟩
  | ok hab =>
      obtain ⟨hend, hlast, hlast'⟩ := hf _ _ hab o o'
      exact ⟨hend, hlast.trans htext, hlast'.trans htext'⟩

/-- What is written behind a silent part is all that is written. -/
theorem bind_alike {f f' : α → Rendering Unit} (h : Silent R r r')
    (hf : ∀ a b, R a b → Alike C start (f a) (f' b)) : Alike C start (r >>= f) (r' >>= f') := by
  intro before before'
  obtain ⟨hend, htext, htext'⟩ := h before before'
  rw [run_bind, run_bind]
  revert hend htext htext'
  rcases r.run before with ⟨x, o⟩
  rcases r'.run before' with ⟨y, o'⟩
  intro hend htext htext'
  cases hend with
  | error e => exact ⟨rfl, by simp⟩
  | ok hab =>
      change o.text = before.text at htext
      change o'.text = before'.text at htext'
      rw [← htext, ← htext']
      exact hf _ _ hab o o'

theorem map {f : α → β} (h : Silent R r r') (hf : ∀ a b, R a b → Q (f a) (f b)) :
    Silent Q (f <$> r) (f <$> r') := by
  intro before before'
  obtain ⟨hend, htext, htext'⟩ := h before before'
  rw [run_map, run_map]
  refine ⟨?_, htext, htext'⟩
  revert hend
  generalize (r.run before).1 = x, (r'.run before').1 = y
  rintro (hab | e)
  · exact .ok (hf _ _ hab)
  · exact .error e

theorem when {condition : Bool} {s s' : Rendering Unit} (h : Silent Eq s s') :
    Silent Eq (Rendering.when condition s) (Rendering.when condition s') := by
  cases condition with
  | true => exact h
  | false => exact pure rfl

theorem sequence {rs rs' : List (Rendering α)} (h : List.Forall₂ (Silent R) rs rs') :
    Silent (List.Forall₂ R) (Rendering.sequence rs) (Rendering.sequence rs') := by
  induction h with
  | nil => exact pure .nil
  | cons hr _ ih => exact hr.bind fun _ _ hab => ih.bind fun _ _ hrest => pure (.cons hab hrest)

end Silent

namespace Alike

variable {r r' s s' : Rendering Unit} {w : String} {rs rs' : List (Rendering Unit)}
  {o o' : Option (Rendering Unit)}

theorem any (h : Alike C start r r') : Alike C .any r r' := by
  intro before before'
  obtain ⟨hend, hwritten⟩ := h before before'
  refine ⟨hend, fun hok => ?_⟩
  obtain ⟨a, b, htexts, ha, hb⟩ := hwritten hok
  exact ⟨a, b, htexts.any, ha, hb⟩

theorem done : Alike C start (Pure.pure ()) (Pure.pure ()) :=
  fun _ _ => ⟨rfl, fun _ => ⟨"", "", .empty, by simp, by simp⟩⟩

theorem ofSilent {R : Unit → Unit → Prop} (h : Silent R r r') : Alike C start r r' := by
  have hdone : Alike C start _ _ := h.bind_alike fun _ _ _ => done
  simpa using hdone

theorem fail (e : Error) : Alike C start (Rendering.fail e) (Rendering.fail e) :=
  ofSilent (R := Eq) (.fail e)

theorem emitFragment {f g : Fragment} (h : C.Texts start f.text g.text) :
    Alike C start (Rendering.emitFragment f) (Rendering.emitFragment g) :=
  fun _ _ => ⟨rfl, fun _ => ⟨f.text, g.text, h, rfl, rfl⟩⟩

theorem emit {a b : String} (h : C.Texts start a b) :
    Alike C start (Rendering.emit a) (Rendering.emit b) :=
  fun _ _ => ⟨rfl, fun _ => ⟨a, b, h, rfl, rfl⟩⟩

theorem affect (table : String) :
    Alike C start (Rendering.affect table) (Rendering.affect table) :=
  fun _ _ => ⟨rfl, fun _ => ⟨"", "", .empty, rfl, rfl⟩⟩

/-- Two parts in a row, given how their texts are joined. -/
theorem bind {first second : Start} (h : Alike C first r r') (h' : Alike C second s s')
    (hjoin : ∀ a b c d, C.Texts first a b → C.Texts second c d →
      C.Texts start (a ++ c) (b ++ d)) :
    Alike C start (r >>= fun _ => s) (r' >>= fun _ => s') := by
  intro before before'
  obtain ⟨hend, hwritten⟩ := h before before'
  rw [run_bind, run_bind]
  revert hend hwritten
  rcases r.run before with ⟨x, p⟩
  rcases r'.run before' with ⟨y, p'⟩
  rintro ⟨rfl⟩ hwritten
  cases x with
  | error e => exact ⟨rfl, by simp⟩
  | ok _ =>
      obtain ⟨a, b, hfirst, ha, hb⟩ := hwritten rfl
      -- The second part is written behind the outputs that the first one left.
      obtain ⟨hlast, hmore⟩ := h' p p'
      refine ⟨hlast, fun hok => ?_⟩
      obtain ⟨c, d, hsecond, hc, hd⟩ := hmore hok
      refine ⟨a ++ c, b ++ d, hjoin a b c d hfirst hsecond, ?_, ?_⟩
      · rw [← String.append_assoc, ← ha]
        exact hc
      · rw [← String.append_assoc, ← hb]
        exact hd

theorem seq (h : Alike C start r r') (h' : Alike C .neutral s s') :
    Alike C start (r >>= fun _ => s) (r' >>= fun _ => s') :=
  h.bind h' fun _ _ _ _ => .append

theorem word (h : Script.isWord w = true) :
    Alike C .neutral (Rendering.emit w) (Rendering.emit w) :=
  emit (.word (Script.word_of_isWord h))

/-- A text before a part, given how it is joined with what the part writes. -/
theorem emit_seq {first : Start} (h : Alike C first s s')
    (hjoin : ∀ before a b, (s.run before).1 = .ok () →
      (s.run before).2.text = before.text ++ a → C.Texts first a b →
      C.Texts start (w ++ a) (w ++ b)) :
    Alike C start (Rendering.emit w >>= fun _ => s) (Rendering.emit w >>= fun _ => s') := by
  intro before before'
  obtain ⟨hend, hwritten⟩ := h (before ++ .ofText w) (before' ++ .ofText w)
  refine ⟨hend, fun hok => ?_⟩
  obtain ⟨a, b, htexts, ha, hb⟩ := hwritten hok
  refine ⟨w ++ a, w ++ b, hjoin _ a b hok ha htexts, ?_, ?_⟩
  · rw [← String.append_assoc]
    exact ha
  · rw [← String.append_assoc]
    exact hb

/-- Behind a word anything may be written. -/
theorem word_seq (hw : Script.isWord w = true) (h : Alike C start s s') :
    Alike C .neutral (Rendering.emit w >>= fun _ => s) (Rendering.emit w >>= fun _ => s') :=
  h.emit_seq fun _ _ _ _ _ htexts => htexts.word_append (Script.word_of_isWord hw)

theorem when {condition : Bool} (h : Alike C start r r') :
    Alike C start (Rendering.when condition r) (Rendering.when condition r') := by
  cases condition with
  | true => exact h
  | false => exact done

/-- A word that is written under a condition only does not hide what follows. -/
theorem when_word_seq {condition : Bool} (hw : Script.isWord w = true) (h : Alike C .any s s') :
    Alike C .any (Rendering.when condition (Rendering.emit w) >>= fun _ => s)
      (Rendering.when condition (Rendering.emit w) >>= fun _ => s') := by
  cases condition with
  | true => exact (h.word_seq hw).any
  | false => exact h

theorem optional (hw : Script.isWord w = true) (h : Option.Rel (Alike C start) o o') :
    Alike C .neutral (Rendering.optional w o) (Rendering.optional w o') := by
  cases h with
  | none => exact done
  | some h => exact h.word_seq hw

/-- A part without a word before it has to start with one itself. -/
theorem optional_bare (h : Option.Rel (Alike C .neutral) o o') :
    Alike C .neutral (Rendering.optional "" o) (Rendering.optional "" o') := by
  cases h with
  | none => exact done
  | some h => exact (emit .empty).seq h

theorem separated (hw : Script.isWord w = true) (h : List.Forall₂ (Alike C start) rs rs') :
    Alike C start (Rendering.separated w rs) (Rendering.separated w rs') := by
  induction h with
  | nil => exact done
  | cons hr hrest ih =>
      cases hrest with
      | nil => exact hr
      | cons => exact hr.seq (ih.word_seq hw)

theorem separated_bare (h : List.Forall₂ (Alike C .neutral) rs rs') :
    Alike C .neutral (Rendering.separated "" rs) (Rendering.separated "" rs') := by
  induction h with
  | nil => exact done
  | cons hr hrest ih =>
      cases hrest with
      | nil => exact hr
      | cons => exact hr.seq ((emit .empty).seq ih)

theorem listed (hw : Script.isWord w = true) (h : List.Forall₂ (Alike C start) rs rs') :
    Alike C .neutral (Rendering.listed w rs) (Rendering.listed w rs') := by
  cases h with
  | nil => exact done
  | cons hr hrest => exact (separated rfl (.cons hr hrest)).word_seq hw

/-- Rendered apart, texts of one script become fragments of one script. -/
theorem detached (h : Alike C start r r') :
    Silent (fun f g => C.Texts start f.text g.text) r.detached r'.detached := by
  intro before before'
  refine ⟨?_, rfl, rfl⟩
  obtain ⟨hend, hwritten⟩ := h { before with text := "", parameters := 0 }
    { before' with text := "", parameters := 0 }
  change SameEnd _ (Except.map _ (r.run { before with text := "", parameters := 0 }).1)
    (Except.map _ (r'.run { before' with text := "", parameters := 0 }).1)
  rw [← hend]
  cases hx : (r.run { before with text := "", parameters := 0 }).1 with
  | error e => exact .error e
  | ok _ =>
      obtain ⟨a, b, htexts, ha, hb⟩ := hwritten hx
      rw [String.empty_append] at ha hb
      refine .ok ?_
      change C.Texts start (r.run _).2.text (r'.run _).2.text
      rwa [ha, hb]

theorem detached? (h : Option.Rel (Alike C start) o o') :
    Silent (Option.Rel fun f g => C.Texts start f.text g.text) (Rendering.detached? o)
      (Rendering.detached? o') := by
  cases h with
  | none => exact .pure .none
  | some h => exact h.detached.map fun _ _ hfg => .some hfg

theorem fragments (h : List.Forall₂ (Alike C start) rs rs') :
    Silent (List.Forall₂ fun f g => C.Texts start f.text g.text) (Rendering.fragments rs)
      (Rendering.fragments rs') := by
  apply Silent.sequence
  rw [List.forall₂_map_left_iff, List.forall₂_map_right_iff]
  exact h.imp fun _ _ hr => hr.detached

end Alike

end Rendering

end SqlBackend
