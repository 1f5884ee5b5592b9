import SqlBackend.Render.Query

/-! # Disciplines of rendering

A discipline is a property of renderings that holds of the single steps and is
kept when renderings are put one behind the other. Whatever a translator writes
is put together from few steps, so a discipline holds of every query as soon as
it holds of those. The steps differ in what they write: fixed words, which hold
no question mark, texts of the statement, type names, templates of functions and placeholders.
-/

namespace SqlBackend

open Rendering (emit emitFragment ofExcept fail detached)

/-- What a backend can do about a need. -/
def Dialect.grants (d : Dialect) : Need → Bool
  | .feature f => d.supports f
  | .lockTimeout => d.locking.connectionTimeout = .query

/-- Whether a text is free of question marks, as the fixed words of all clauses are. -/
def isWords (s : String) : Bool := s.toList.all (· ≠ '?')

/-- A property of renderings, together with a property of their results. -/
structure Discipline (t : Translator) where
  /-- The characters that may stand in texts. -/
  char : Char → Prop
  /-- The fragments that may be written. -/
  fragment : Fragment → Prop
  /-- The errors that may end a rendering. -/
  error : Error → Prop
  holds : {α : Type} → (α → Prop) → Rendering α → Prop
  char_of_ne : ∀ {c : Char}, c ≠ '?' → char c
  char_type : ∀ target, ∀ c ∈ (t.dialect.types.castSpelling target).toList, char c
  char_template : ∀ f ∈ t.dialect.functions.functions, ∀ p ∈ f.patterns, ∀ c,
    .char c ∈ TemplatePiece.ofChars p.template.toList → char c
  fragment_text : ∀ {s : String}, (∀ c ∈ s.toList, char c) → fragment (.ofText s)
  fragment_append : ∀ {f g : Fragment}, fragment f → fragment g → fragment (f ++ g)
  fragment_parameter : fragment ⟨Dialect.placeholder, 1⟩
  error_argument : ∀ fault, error (.illegalArgument fault)
  error_function : ∀ name, error (.unknownFunction name)
  error_need : ∀ need, t.dialect.grants need = false → error (t.dialect.unsupported need)
  holds_pure : ∀ {α : Type} {P : α → Prop} {a : α}, P a → holds P (pure a)
  holds_bind : ∀ {α β : Type} {P : α → Prop} {Q : β → Prop} {r : Rendering α}
    {f : α → Rendering β}, holds P r → (∀ a, P a → holds Q (f a)) → holds Q (r >>= f)
  holds_emitFragment : ∀ {f : Fragment}, fragment f → holds (fun _ => True) (emitFragment f)
  holds_ofExcept : ∀ {α : Type} {P : α → Prop} {r : Except Error α},
    (∀ a, r = .ok a → P a) → (∀ e, r = .error e → error e) → holds P (ofExcept r)

/-- A discipline that is also kept by rendering apart from the text. -/
structure QueryDiscipline (t : Translator) extends Discipline t where
  holds_detached : ∀ {r : Rendering Unit}, holds (fun _ => True) r → holds fragment (detached r)

namespace Discipline

variable {t : Translator} (D : Discipline t) {α β : Type}

def text (s : String) : Prop := ∀ c ∈ s.toList, D.char c

def writes (r : Rendering Unit) : Prop := D.holds (fun _ => True) r

theorem text_words {s : String} (h : isWords s = true) : D.text s := by
  intro c hc
  apply D.char_of_ne
  simpa using List.all_eq_true.mp h c hc

theorem text_append {a b : String} (ha : D.text a) (hb : D.text b) : D.text (a ++ b) := by
  intro c hc
  rw [String.toList_append, List.mem_append] at hc
  exact hc.elim (ha c) (hb c)

theorem holds_seq {P : α → Prop} {r : Rendering Unit} {s : Rendering α} (hr : D.writes r)
    (hs : D.holds P s) : D.holds P (r >>= fun _ => s) :=
  D.holds_bind hr fun _ _ => hs

theorem writes_done : D.writes (pure ()) := D.holds_pure trivial

theorem writes_emit {s : String} (h : D.text s) : D.writes (emit s) :=
  D.holds_emitFragment (D.fragment_text h)

/-- Fixed words may always be written. -/
theorem writes_words {s : String} (h : isWords s = true) : D.writes (emit s) :=
  D.writes_emit (D.text_words h)

theorem holds_fail {P : α → Prop} {e : Error} (he : D.error e) : D.holds P (fail e) :=
  D.holds_ofExcept (by simp) (by simpa using he)

theorem writes_require (feature : Feature) : D.writes (t.require feature) := by
  refine D.holds_ofExcept (fun _ _ => trivial) ?_
  intro e he
  rw [Dialect.require] at he
  split at he
  next => cases he
  next hs =>
    cases he
    exact D.error_need _ (by simpa [Dialect.grants] using hs)

theorem writes_when {condition : Bool} {r : Rendering Unit} (hr : condition = true → D.writes r) :
    D.writes (Rendering.when condition r) := by
  unfold Rendering.when
  split
  next h => exact hr h
  next => exact D.writes_done

theorem writes_optional {lead : String} {o : Option (Rendering Unit)} (hlead : isWords lead = true)
    (ho : ∀ r ∈ o, D.writes r) : D.writes (Rendering.optional lead o) := by
  cases o with
  | none => exact D.writes_done
  | some r => exact D.holds_seq (D.writes_words hlead) (ho r rfl)

theorem writes_separated {separator : String} {rs : List (Rendering Unit)}
    (hseparator : isWords separator = true) (hrs : ∀ r ∈ rs, D.writes r) :
    D.writes (Rendering.separated separator rs) := by
  induction rs with
  | nil => exact D.writes_done
  | cons r rest ih =>
      have hr : D.writes r := hrs r (by simp)
      have hrest := ih fun s hs => hrs s (by simp [hs])
      cases rest with
      | nil => exact hr
      | cons s rest => exact D.holds_seq hr (D.holds_seq (D.writes_words hseparator) hrest)

theorem writes_listed {lead : String} {rs : List (Rendering Unit)} (hlead : isWords lead = true)
    (hrs : ∀ r ∈ rs, D.writes r) : D.writes (Rendering.listed lead rs) := by
  unfold Rendering.listed
  split
  · exact D.writes_done
  · exact D.holds_seq (D.writes_words hlead) (D.writes_separated rfl hrs)

theorem holds_sequence {P : α → Prop} {rs : List (Rendering α)} (hrs : ∀ r ∈ rs, D.holds P r) :
    D.holds (fun as => ∀ a ∈ as, P a) (Rendering.sequence rs) := by
  induction rs with
  | nil => exact D.holds_pure (by simp)
  | cons r rest ih =>
      refine D.holds_bind (hrs r (by simp)) fun a ha => ?_
      refine D.holds_bind (ih fun s hs => hrs s (by simp [hs])) fun as has => ?_
      exact D.holds_pure (by simpa using ⟨ha, has⟩)

theorem fragment_empty : D.fragment {} := D.fragment_text (by simp)

/-- Fixed words may stand in every fragment. -/
theorem fragment_words {s : String} (h : isWords s = true) : D.fragment (.ofText s) :=
  D.fragment_text (D.text_words h)

theorem fragment_joined {separator : String} {fs : List Fragment}
    (hseparator : isWords separator = true) (hfs : ∀ f ∈ fs, D.fragment f) :
    D.fragment (.joined separator fs) := by
  induction fs with
  | nil => exact D.fragment_empty
  | cons f rest ih =>
      have hf : D.fragment f := hfs f (by simp)
      have hrest := ih fun g hg => hfs g (by simp [hg])
      cases rest with
      | nil => exact hf
      | cons g rest =>
          exact D.fragment_append (D.fragment_append hf (D.fragment_words hseparator)) hrest

theorem fragment_parenthesized {f : Fragment} (hf : D.fragment f) :
    D.fragment f.parenthesized :=
  D.fragment_append (D.fragment_append (D.fragment_words rfl) hf)
    (D.fragment_words rfl)

end Discipline

namespace QueryDiscipline

variable {t : Translator} (D : QueryDiscipline t)

theorem holds_detached? {o : Option (Rendering Unit)} (ho : ∀ r ∈ o, D.writes r) :
    D.holds (fun found => ∀ f ∈ found, D.fragment f) (Rendering.detached? o) := by
  cases o with
  | none => exact D.holds_pure (by simp)
  | some r =>
      exact D.holds_bind (D.holds_detached (ho r rfl)) fun f hf => D.holds_pure (by simpa using hf)

theorem holds_fragments {rs : List (Rendering Unit)} (hrs : ∀ r ∈ rs, D.writes r) :
    D.holds (fun fs => ∀ f ∈ fs, D.fragment f) (Rendering.fragments rs) := by
  apply D.holds_sequence
  intro s hs
  obtain ⟨r, hr, rfl⟩ := List.mem_map.mp hs
  exact D.holds_detached (hrs r hr)

end QueryDiscipline

end SqlBackend
