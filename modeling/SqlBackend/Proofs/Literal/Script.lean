import Mathlib.Data.List.Chain
import SqlBackend.Proofs.Literal.Scan

/-! # Scripts of texts

A script says which characters of a text stand outside literals and where the
literals come from, for two texts at once. Both texts are scanned back into the
script, provided that no two literals touch: between them the closing and the
opening quote would be read as one quote of a longer literal.
-/

namespace SqlBackend

/-- The first or the second of two texts. -/
inductive Side where
  | first
  | second

def Side.of {α : Type} : Side → α → α → α
  | first, a, _ => a
  | second, _, b => b

/-- Where the content of a literal comes from: from two statements, from patterns
of two statements with their backslashes doubled, or from neither. -/
inductive LiteralSource where
  | content (first second : String)
  | reescaped (first second : String)
  | fixed (text : String)

def LiteralSource.text (side : Side) : LiteralSource → String
  | content a b => side.of a b
  | reescaped a b => Text.doubled '\\' (side.of a b)
  | fixed s => s

/-- A part of two texts that differ in their literals only. -/
inductive Mark where
  | char (c : Char)
  | literal (source : LiteralSource)

namespace Mark

/-- The characters that the part has on one side. -/
def chars (side : Side) : Mark → List Char
  | char c => [c]
  | literal source => (Text.literal (source.text side)).toList

def piece (side : Side) : Mark → Piece
  | char c => .char c
  | literal source => .literal (source.text side).toList

/-- Two characters that start a comment. -/
def startsComment (c d : Char) : Bool := c = '-' && d = '-' || c = '/' && d = '*'

/-- Whether one part may stand directly before another. Literals may not touch
each other; with `noComments`, two characters may not start a comment. -/
def mayPrecede (noComments : Bool) : Mark → Mark → Bool
  | literal _, literal _ => false
  | char c, char d => !(noComments && startsComment c d)
  | _, _ => true

/-- Next to a neutral part anything may stand. -/
def isNeutral (noComments : Bool) : Mark → Bool
  | char c => c ≠ Text.singleQuote && !(noComments && (c = '-' || c = '/' || c = '*'))
  | literal _ => false

variable {noComments : Bool} {a b : Mark}

/-- What may touch where no comment may start may touch anywhere. -/
theorem mayPrecede_of_strict (h : a.mayPrecede true b = true) :
    a.mayPrecede noComments b = true := by
  cases noComments with
  | true => exact h
  | false =>
      cases a with
      | char c => cases b <;> rfl
      | literal => cases b with
        | char d => rfl
        | literal => cases h

theorem isNeutral_of_strict (h : a.isNeutral true = true) : a.isNeutral noComments = true := by
  cases noComments with
  | true => exact h
  | false =>
      cases a with
      | literal => cases h
      | char c =>
          simp only [isNeutral, Bool.and_eq_true] at h
          simp only [isNeutral, Bool.and_eq_true, Bool.false_and, Bool.not_false, and_true]
          exact h.1

theorem isNeutral_of_forall_ne {c : Char}
    (h : ∀ d ∈ [Text.singleQuote, '-', '/', '*'], c ≠ d) : (char c).isNeutral noComments = true := by
  simp [isNeutral, h]

/-- The characters of a class without quotes and signs of comments are neutral. -/
theorem isNeutral_of_class {p : Char → Bool} {c : Char}
    (hclass : [Text.singleQuote, '-', '/', '*'].any p = false) (hc : p c = true) :
    (char c).isNeutral noComments = true := by
  apply isNeutral_of_forall_ne
  rintro d hd rfl
  have hoff := List.any_eq_false.mp hclass c hd
  exact hoff hc

theorem mayPrecede_of_isNeutral_left (h : a.isNeutral noComments = true) :
    a.mayPrecede noComments b = true := by
  cases a with
  | literal => cases h
  | char c =>
      cases b with
      | literal => rfl
      | char d =>
          cases noComments with
          | false => rfl
          | true =>
              simp only [isNeutral, Bool.and_eq_true, Bool.not_eq_true', Bool.or_eq_false_iff,
                decide_eq_false_iff_not, Bool.true_and] at h
              simp [mayPrecede, startsComment, h]

theorem mayPrecede_of_isNeutral_right (h : b.isNeutral noComments = true) :
    a.mayPrecede noComments b = true := by
  cases b with
  | literal => cases h
  | char d =>
      cases a with
      | literal => rfl
      | char c =>
          cases noComments with
          | false => rfl
          | true =>
              simp only [isNeutral, Bool.and_eq_true, Bool.not_eq_true', Bool.or_eq_false_iff,
                decide_eq_false_iff_not, Bool.true_and] at h
              simp [mayPrecede, startsComment, h]

end Mark

/-- The parts of two texts in their order. -/
abbrev Script := List Mark

namespace Script

/-- The text on one side. -/
def chars (side : Side) (script : Script) : List Char := script.flatMap (Mark.chars side)

/-- The script of a text without literals. -/
def ofText (text : String) : Script := text.toList.map .char

/-- No quote stands outside literals, and no two parts touch that may not. -/
structure Clean (noComments : Bool) (script : Script) : Prop where
  unquoted : ∀ c, .char c ∈ script → c ≠ Text.singleQuote
  chain : script.IsChain fun a b => a.mayPrecede noComments b = true

/-- Anything may stand before the script. -/
def Opens (noComments : Bool) (script : Script) : Prop :=
  ∀ m ∈ script.head?, m.isNeutral noComments = true

/-- Anything may stand behind the script. -/
def Closes (noComments : Bool) (script : Script) : Prop :=
  ∀ m ∈ script.getLast?, m.isNeutral noComments = true

variable {noComments : Bool} {a b : Script}

@[simp] theorem chars_append (side : Side) (a b : Script) :
    chars side (a ++ b) = chars side a ++ chars side b := List.flatMap_append

@[simp] theorem chars_ofText (side : Side) (text : String) :
    chars side (ofText text) = text.toList := by
  simp only [chars, ofText]
  induction text.toList with
  | nil => rfl
  | cons c rest ih => simp [Mark.chars, ih]

theorem literal_not_mem_ofText (source : LiteralSource) (text : String) :
    .literal source ∉ ofText text := by
  simp [ofText]

theorem Clean.nil : Clean noComments [] := ⟨by simp, List.isChain_nil⟩

theorem Clean.append (ha : Clean noComments a) (hb : Clean noComments b)
    (h : Closes noComments a ∨ Opens noComments b) : Clean noComments (a ++ b) where
  unquoted c hc := (List.mem_append.mp hc).elim (ha.unquoted c) (hb.unquoted c)
  chain := by
    refine List.isChain_append.mpr ⟨ha.chain, hb.chain, ?_⟩
    intro x hx y hy
    rcases h with h | h
    · exact Mark.mayPrecede_of_isNeutral_left (h x hx)
    · exact Mark.mayPrecede_of_isNeutral_right (h y hy)

theorem Opens.append (ha : Opens noComments a) (hb : Opens noComments b) :
    Opens noComments (a ++ b) := by
  cases a with
  | nil => exact hb
  | cons m rest => exact ha

theorem opens_append_of_ne_nil (ha : Opens noComments a) (hne : a ≠ []) :
    Opens noComments (a ++ b) := by
  cases a with
  | nil => exact absurd rfl hne
  | cons m rest => exact ha

/-- Behind a literal no quote follows that could be taken for a part of it. -/
theorem Clean.head_chars {m : Mark} (h : Clean noComments (m :: a)) (hm : ∃ s, m = .literal s)
    (side : Side) : (chars side a).head? ≠ some Text.singleQuote := by
  obtain ⟨source, rfl⟩ := hm
  cases a with
  | nil => simp [chars]
  | cons next rest =>
      cases next with
      | literal => cases (List.isChain_cons_cons.mp h.chain).1
      | char c =>
          have hc := h.unquoted c (by simp)
          simpa [chars, Mark.chars] using hc

/-- Both texts of a clean script are scanned back into its parts. -/
theorem Clean.scanFrom {script : Script} (h : Clean noComments script) (side : Side) :
    Piece.scanFrom .outside (script.chars side) = some (script.map (Mark.piece side)) := by
  induction script with
  | nil => rfl
  | cons m rest ih =>
      have hrest : Clean noComments rest :=
        ⟨fun c hc => h.unquoted c (List.mem_cons_of_mem m hc), h.chain.tail⟩
      have hchars : chars side (m :: rest) = m.chars side ++ chars side rest := List.flatMap_cons
      cases m with
      | char c =>
          have hc : c ≠ Text.singleQuote := h.unquoted c (by simp)
          rw [hchars, Mark.chars, List.singleton_append, Piece.scanFrom, if_neg hc, ih hrest]
          rfl
      | literal source =>
          -- The quote that closes the literal is not doubled by what follows.
          rw [hchars, Mark.chars, Piece.scanFrom_literal _ (h.head_chars ⟨source, rfl⟩ side),
            ih hrest]
          rfl

/-- A word holds no literal, and anything may stand before it and behind it. -/
structure Word (noComments : Bool) (word : String) : Prop where
  nonempty : ofText word ≠ []
  clean : (ofText word).Clean noComments
  opens : (ofText word).Opens noComments
  closes : (ofText word).Closes noComments

/-- Whether a text is a word also where no comment may start. -/
def isWord (word : String) : Bool :=
  (ofText word).head?.any (Mark.isNeutral true) &&
    (ofText word).getLast?.any (Mark.isNeutral true) &&
    word.toList.all (· ≠ Text.singleQuote) &&
    decide ((ofText word).IsChain fun a b => a.mayPrecede true b = true)

theorem word_of_isWord {word : String} (h : isWord word = true) : Word noComments word := by
  simp only [isWord, Bool.and_eq_true, decide_eq_true_eq, List.all_eq_true] at h
  obtain ⟨⟨⟨hhead, hlast⟩, hquotes⟩, hchain⟩ := h
  refine ⟨?_, ⟨?_, ?_⟩, ?_, ?_⟩
  · intro hnil
    simp [hnil] at hhead
  · intro c hc
    obtain ⟨_, hd, ⟨rfl⟩⟩ := List.mem_map.mp hc
    exact hquotes c hd
  · exact hchain.imp fun _ _ => Mark.mayPrecede_of_strict
  · intro m hm
    rw [Option.mem_def.mp hm] at hhead
    exact Mark.isNeutral_of_strict hhead
  · intro m hm
    rw [Option.mem_def.mp hm] at hlast
    exact Mark.isNeutral_of_strict hlast

/-- All characters of a text are neutral, as those of names are. -/
def Neutral (noComments : Bool) (text : String) : Prop :=
  ∀ c ∈ text.toList, (Mark.char c).isNeutral noComments = true

theorem neutral_of_not_mem {text : String} (h : Text.singleQuote ∉ text.toList) :
    Neutral false text := by
  intro c hc
  have hne : c ≠ Text.singleQuote := fun hquote => h (hquote ▸ hc)
  simp [Mark.isNeutral, hne]

theorem Neutral.not_mem {text : String} (h : Neutral noComments text) :
    Text.singleQuote ∉ text.toList := by
  intro hmem
  have hneutral := h _ hmem
  simp [Mark.isNeutral] at hneutral

theorem Neutral.append {a b : String} (ha : Neutral noComments a) (hb : Neutral noComments b) :
    Neutral noComments (a ++ b) := by
  intro c hc
  rw [String.toList_append, List.mem_append] at hc
  exact hc.elim (ha c) (hb c)

theorem Neutral.word {text : String} (h : Neutral noComments text) (hne : ofText text ≠ []) :
    Word noComments text := by
  have hmark : ∀ m ∈ ofText text, m.isNeutral noComments = true := by
    intro m hm
    obtain ⟨c, hc, rfl⟩ := List.mem_map.mp hm
    exact h c hc
  refine ⟨hne, ⟨?_, ?_⟩, fun m hm => hmark m (List.mem_of_mem_head? hm),
    fun m hm => hmark m (List.mem_of_mem_getLast? hm)⟩
  · intro c hc
    have hneutral := hmark _ hc
    simp only [Mark.isNeutral, Bool.and_eq_true, decide_eq_true_eq] at hneutral
    exact hneutral.1
  · refine (List.pairwise_of_forall_mem_list fun a ha b _ => ?_).isChain
    exact Mark.mayPrecede_of_isNeutral_left (hmark a ha)

end Script

end SqlBackend
