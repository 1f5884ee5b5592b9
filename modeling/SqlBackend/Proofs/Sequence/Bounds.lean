import Mathlib.Algebra.Ring.Int.Defs
import Mathlib.Data.Int.Order.Basic
import SqlBackend.Proofs.Decimal.Characters
import SqlBackend.Proofs.Text.Parts
import SqlBackend.Sequence
import Std.Data.String.ToInt

/-! # Bounds of sequences

An ascending sequence counts from one and a descending one from minus one, unless the
statement that creates it says otherwise. A start value beyond that is refused by the
backend, so it has to be made the bound. What a statement says is read off its words. The
direction is that of the increment asked for, also where a statement does not say it.
-/

namespace SqlBackend

namespace Text

/-- The words of a text in which each stands behind a blank. -/
def words? (text : String) : Option (List String) :=
  match split ' ' text.toList with
  | [] :: words => some (words.map String.ofList)
  | _ => none

/-- The text of some words, each behind a blank. -/
def spaced (words : List String) : String := String.join (words.map (" " ++ ·))

theorem spaced_append (first rest : List String) :
    spaced (first ++ rest) = spaced first ++ spaced rest := by
  simp [spaced]

theorem words?_spaced {words : List String} (h : ∀ word ∈ words, ' ' ∉ word.toList) :
    words? (spaced words) = some words := by
  have hsplit : split ' ' (spaced words).toList = [] :: words.map String.toList := by
    rw [spaced, String.toList_join]
    induction words with
    | nil => rfl
    | cons word rest ih =>
        obtain ⟨hword, hrest⟩ := List.forall_mem_cons.mp h
        have hblank : (" " ++ word).toList = ' ' :: word.toList := by simp
        rw [List.map_cons, List.flatMap_cons, hblank, List.cons_append, split, if_pos rfl,
          split_append hword, ih hrest, List.modifyHead_cons, List.append_nil]
        rfl
  simp [words?, hsplit, Function.comp_def]

end Text

/-- What a statement says of the sequence that it creates. -/
structure SequenceOptions where
  minimum : Option Int := none
  maximum : Option Int := none
  start : Option Int := none
  increment : Option Int := none
deriving DecidableEq, Repr

namespace SequenceOptions

/-- Reads the options off their words. -/
def ofWords? : List String → Option SequenceOptions
  | [] => some {}
  | "minvalue" :: n :: rest => do
      let minimum ← n.toInt?
      let options ← ofWords? rest
      return { options with minimum }
  | "maxvalue" :: n :: rest => do
      let maximum ← n.toInt?
      let options ← ofWords? rest
      return { options with maximum }
  | "start" :: "with" :: n :: rest => do
      let start ← n.toInt?
      let options ← ofWords? rest
      return { options with start }
  | "start" :: "counter" :: "with" :: n :: rest => do
      let start ← n.toInt?
      let options ← ofWords? rest
      return { options with start }
  | "increment" :: "by" :: n :: rest => do
      let increment ← n.toInt?
      let options ← ofWords? rest
      return { options with increment }
  | _ => none

/-- Reads the options off the text behind the name of a sequence. -/
def read? (text : String) : Option SequenceOptions := (Text.words? text).bind ofWords?

/-- The least value of a sequence of numbers of sixty-four bits. -/
def lowest (o : SequenceOptions) (increment : Int) : Int :=
  o.minimum.getD (if 0 < increment then 1 else -2 ^ 63)

/-- The greatest value of a sequence of numbers of sixty-four bits. -/
def highest (o : SequenceOptions) (increment : Int) : Int :=
  o.maximum.getD (if 0 < increment then 2 ^ 63 - 1 else -1)

/-- The value is within the bounds of a sequence that counts by `increment`. -/
def Admits (o : SequenceOptions) (increment value : Int) : Prop :=
  o.lowest increment ≤ value ∧ value ≤ o.highest increment

instance (o : SequenceOptions) (increment value : Int) : Decidable (o.Admits increment value) :=
  inferInstanceAs (Decidable (_ ∧ _))

end SequenceOptions

namespace SequenceSyntax

variable (s : SequenceSyntax)

/-- What is said of a sequence that is created from a start value. -/
def options (start increment : Int) : SequenceOptions where
  minimum := if s.bindsStart = true ∧ 0 < increment ∧ start ≤ 0 then some start else none
  maximum := if s.bindsStart = true ∧ increment < 0 ∧ 0 ≤ start then some start else none
  start := some start
  increment := if s.bitReversed then none else some increment

/-- The keywords of a start value. -/
def startKeywords : List String :=
  if s.bitReversed then ["start", "counter", "with"] else ["start", "with"]

/-- The words of an option, none where there is no value for it. -/
def optionWords (keywords : List String) (value : Option Int) : List String :=
  value.elim [] fun n => keywords ++ [toString n]

/-- The words that say what is said of a sequence. -/
def words (o : SequenceOptions) : List String :=
  optionWords ["minvalue"] o.minimum ++ (optionWords ["maxvalue"] o.maximum ++
    (optionWords s.startKeywords o.start ++ (optionWords ["increment", "by"] o.increment ++ [])))

/-- An option that is read by its keywords and a number is read off its words. -/
theorem ofWords?_optionWords (keywords : List String)
    (set : Option Int → SequenceOptions → SequenceOptions)
    (hread : ∀ (n : Int) (rest : List String), SequenceOptions.ofWords?
      (keywords ++ [toString n] ++ rest) =
        (SequenceOptions.ofWords? rest).bind fun o => some (set (some n) o))
    {rest : List String} {o : SequenceOptions} (hrest : SequenceOptions.ofWords? rest = some o)
    (hnone : set none o = o) (value : Option Int) :
    SequenceOptions.ofWords? (optionWords keywords value ++ rest) = some (set value o) := by
  cases value with
  | none => rwa [hnone]
  | some n =>
      rw [optionWords, Option.elim_some, hread, hrest]
      rfl

theorem ofWords?_words (o : SequenceOptions) : SequenceOptions.ofWords? (s.words o) = some o := by
  -- Each option is put in front of the ones that are read already, so the last comes first.
  have hnothing : SequenceOptions.ofWords? [] = some {} := rfl
  have hincrement := ofWords?_optionWords ["increment", "by"]
    (fun value o => { o with increment := value })
    (fun n rest => by simp [SequenceOptions.ofWords?]) hnothing rfl o.increment
  have hstart := ofWords?_optionWords s.startKeywords (fun value o => { o with start := value })
    (fun n rest => by
      unfold startKeywords
      cases s.bitReversed <;> simp [SequenceOptions.ofWords?])
    hincrement rfl o.start
  have hmaximum := ofWords?_optionWords ["maxvalue"] (fun value o => { o with maximum := value })
    (fun n rest => by simp [SequenceOptions.ofWords?]) hstart rfl o.maximum
  exact ofWords?_optionWords ["minvalue"] (fun value o => { o with minimum := value })
    (fun n rest => by simp [SequenceOptions.ofWords?]) hmaximum rfl o.minimum

theorem blank_not_mem_optionWords {keywords : List String} {value : Option Int}
    (hkeywords : ∀ keyword ∈ keywords, ' ' ∉ keyword.toList) :
    ∀ word ∈ optionWords keywords value, ' ' ∉ word.toList := by
  cases value with
  | none => exact nofun
  | some n =>
      have hnumber : ' ' ∉ (toString n).toList := fun hblank =>
        absurd (Decimal.isNumberChar_of_mem_int hblank) (by decide)
      intro word hword
      rcases List.mem_append.mp hword with hkeyword | hvalue
      · exact hkeywords word hkeyword
      · rwa [List.mem_singleton.mp hvalue]

theorem blank_not_mem_words (o : SequenceOptions) : ∀ word ∈ s.words o, ' ' ∉ word.toList := by
  have hstart : ∀ keyword ∈ s.startKeywords, ' ' ∉ keyword.toList := by
    unfold startKeywords
    cases s.bitReversed <;> decide
  simp only [words, List.forall_mem_append]
  exact ⟨blank_not_mem_optionWords (by decide), blank_not_mem_optionWords (by decide),
    blank_not_mem_optionWords hstart, blank_not_mem_optionWords (by decide), nofun⟩

/-- The options are what is read off their words. -/
theorem read?_spaced_words (o : SequenceOptions) :
    SequenceOptions.read? (Text.spaced (s.words o)) = some o := by
  rw [SequenceOptions.read?, Text.words?_spaced (s.blank_not_mem_words o), Option.bind_some,
    ofWords?_words]

/-- The bounds that are written are those of the options. -/
theorem bound_eq (start increment : Int) :
    s.bound start increment =
      Text.spaced (optionWords ["minvalue"] (s.options start increment).minimum) ++
        Text.spaced (optionWords ["maxvalue"] (s.options start increment).maximum) := by
  unfold bound options
  cases s.bindsStart with
  | false => rfl
  | true =>
    by_cases hup : 0 < increment
    · have hdown : ¬increment < 0 := by omega
      by_cases hlow : start ≤ 0 <;>
        simp [hup, hdown, hlow, optionWords, Text.spaced, ← String.append_assoc]
    · by_cases hdown : increment < 0 ∧ 0 ≤ start <;>
        simp [hup, hdown, optionWords, Text.spaced, ← String.append_assoc]

/-- Behind its name a sequence is created with the words of its options. -/
theorem createFrom_eq {start increment : Int} (name : String) (h : increment ≠ 0) :
    s.createFrom name start increment =
      .ok (s.create name ++ Text.spaced (s.words (s.options start increment))) := by
  unfold createFrom
  simp only [if_neg h, words, Text.spaced_append, bound_eq]
  unfold options startKeywords
  cases s.bitReversed <;> simp [optionWords, Text.spaced, ← String.append_assoc]

variable {s : SequenceSyntax} {start increment n : Int}

/-- A bound is a start value that the sequence would not reach by itself. -/
theorem mem_minimum_options (h : n ∈ (s.options start increment).minimum) :
    n = start ∧ start < ({} : SequenceOptions).lowest increment := by
  obtain ⟨⟨_, hup, hlow⟩, hn⟩ := Option.mem_ite_none_right.mp h
  refine ⟨(Option.mem_some.mp hn).symm, ?_⟩
  rw [SequenceOptions.lowest, Option.getD_none, if_pos hup]
  omega

theorem mem_maximum_options (h : n ∈ (s.options start increment).maximum) :
    n = start ∧ ({} : SequenceOptions).highest increment < start := by
  obtain ⟨⟨_, hdown, hhigh⟩, hn⟩ := Option.mem_ite_none_right.mp h
  refine ⟨(Option.mem_some.mp hn).symm, ?_⟩
  rw [SequenceOptions.highest, Option.getD_none, if_neg (by omega)]
  omega

/-- A start value is within the bounds if it is made the bound where it has to be. -/
theorem options_admits_iff (hleast : -2 ^ 63 ≤ start) (hgreatest : start < 2 ^ 63)
    (h : increment ≠ 0) :
    (s.options start increment).Admits increment start ↔
      s.bindsStart = true ∨ ({} : SequenceOptions).Admits increment start := by
  unfold SequenceOptions.Admits SequenceOptions.lowest SequenceOptions.highest options
  cases s.bindsStart with
  | false => simp
  | true =>
    rcases lt_or_gt_of_ne h with hdown | hup
    · have hnot : ¬0 < increment := by omega
      by_cases hhigh : 0 ≤ start <;> simp [hdown, hnot, hhigh] <;> omega
    · have hnot : ¬increment < 0 := by omega
      by_cases hlow : start ≤ 0 <;> simp [hup, hnot, hlow] <;> omega

/-- Only an increment of zero is refused. Any other sequence is created with options that
are read off its statement: its start value, its increment unless that is not written, and
no bound but the start value where the sequence would not reach it by itself. The start
value is within the bounds if the backend has it made a bound, and otherwise only if it is
one that the sequence has by itself. -/
theorem created_sequence_starts_in_bounds (s : SequenceSyntax) (name : String)
    (start increment : Int64) :
    let unbounded : SequenceOptions := {}
    (s.createFrom name start.toInt increment.toInt = .error (.mapping (.zeroIncrement name)) ↔
      increment = 0) ∧
    (increment ≠ 0 → ∃ text o,
      s.createFrom name start.toInt increment.toInt = .ok (s.create name ++ text) ∧
      SequenceOptions.read? text = some o ∧
      o.start = some start.toInt ∧
      o.increment = (if s.bitReversed then none else some increment.toInt) ∧
      (∀ n ∈ o.minimum, n = start.toInt ∧ start.toInt < unbounded.lowest increment.toInt) ∧
      (∀ n ∈ o.maximum, n = start.toInt ∧ unbounded.highest increment.toInt < start.toInt) ∧
      (unbounded.Admits increment.toInt start.toInt → o.minimum = none ∧ o.maximum = none) ∧
      (o.Admits increment.toInt start.toInt ↔
        s.bindsStart = true ∨ unbounded.Admits increment.toInt start.toInt)) := by
  intro unbounded
  have hzero : increment.toInt = 0 ↔ increment = 0 := by
    rw [← Int64.toInt_zero, Int64.toInt_inj]
  refine ⟨?_, fun h => ?_⟩
  · constructor
    · intro herror
      by_contra h
      rw [s.createFrom_eq name (mt hzero.mp h)] at herror
      cases herror
    · intro h
      rw [createFrom, if_pos (hzero.mpr h)]
  · have hincrement : increment.toInt ≠ 0 := mt hzero.mp h
    refine ⟨_, s.options start.toInt increment.toInt, s.createFrom_eq name hincrement,
      s.read?_spaced_words _, rfl, rfl, fun _ => mem_minimum_options,
      fun _ => mem_maximum_options, ?_,
      options_admits_iff start.le_toInt start.toInt_lt hincrement⟩
    rintro ⟨hlowest, hhighest⟩
    simp only [Option.eq_none_iff_forall_not_mem]
    exact ⟨fun _ hn => (mem_minimum_options hn).2.not_ge hlowest,
      fun _ hn => (mem_maximum_options hn).2.not_ge hhighest⟩

/-- A sequence that counts down from a positive number. -/
theorem created_sequence_starts_in_bounds_descending :
    (-2 : Int64) ≠ 0 ∧
      spanner.createFrom "seq" 3 (-2) =
        .ok "create sequence seq bit_reversed_positive maxvalue 3 start counter with 3" ∧
      ∃ text o, spanner.createFrom "seq" 3 (-2) = .ok (spanner.create "seq" ++ text) ∧
        SequenceOptions.read? text = some o ∧ o.start = some 3 ∧ o.Admits (-2) 3 := by
  have hincrement : (-2 : Int64) ≠ 0 := by decide
  obtain ⟨_, hcreated⟩ := created_sequence_starts_in_bounds spanner "seq" 3 (-2)
  obtain ⟨text, o, hcreate, hread, hstart, _, _, _, _, hadmits⟩ := hcreated hincrement
  exact ⟨hincrement, by decide +kernel, text, o, hcreate, hread, hstart, hadmits.mpr (.inl rfl)⟩

/-- Where no bound is written, a start value of zero is below the least one. -/
theorem created_sequence_starts_below_bound :
    let text := " start with 0 increment by 1"
    let o : SequenceOptions := { start := some 0, increment := some 1 }
    (1 : Int64) ≠ 0 ∧ postgres.createFrom "s" 0 1 = .ok (postgres.create "s" ++ text) ∧
      SequenceOptions.read? text = some o ∧ ¬o.Admits 1 0 := by
  intro text o
  have htext : Text.spaced (postgres.words o) = text := by decide +kernel
  refine ⟨by decide, by decide +kernel, ?_, by decide⟩
  rw [← htext]
  exact postgres.read?_spaced_words o

end SequenceSyntax

end SqlBackend
