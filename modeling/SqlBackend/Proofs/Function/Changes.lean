import Mathlib.Data.Set.Card
import SqlBackend.Function.Registry
import SqlBackend.Proofs.Entry.Last

/-! # Functions after a history of changes

Functions are registered, registered once more by a second name, and removed. Each change has
an effect on one key at most: it puts a function there, or none. What is under a key in the end
is what the last change with an effect on it put there, in whatever case names are spelled.
-/

namespace SqlBackend.Registry

open Entry (Last last? last?_eq_some_iff last?_eq_none_iff)

/-- What can be done to the functions of a backend. -/
inductive Change where
  | register (f : SqlFunction)
  | registerAlias (name target : String)
  | unregister (name : String)

variable {r : Registry} {change : Change} {changes earlier later : List Change} {f : SqlFunction}
  {name target key : String}

def apply (r : Registry) : Change → Registry
  | .register f => r.register f
  | .registerAlias name target => r.registerAlias name target
  | .unregister name => (r.unregister name).2

def applyAll (r : Registry) (changes : List Change) : Registry := changes.foldl apply r

/-- The key that a change has an effect on, and what it puts there. A second name for what is
not there has no effect. -/
def effect? (r : Registry) : Change → Option (String × Option SqlFunction)
  | .register f => some (f.key, some f)
  | .registerAlias name target =>
      (r.find? target).map fun f => (Text.lower name, some { f with name })
  | .unregister name => some (Text.lower name, none)

/-- The effects of changes that are made one after the other. -/
def effects (r : Registry) : List Change → List (String × Option SqlFunction)
  | [] => []
  | change :: rest => (r.effect? change).toList ++ (r.apply change).effects rest

/-- The changes, made where nothing was registered, leave the function under the key: the last
effect on the key put it there. -/
def Leaves (changes : List Change) (key : String) (f : SqlFunction) : Prop :=
  Last (empty.effects changes) key (some f)

theorem applyAll_cons (r : Registry) (change : Change) (rest : List Change) :
    r.applyAll (change :: rest) = (r.apply change).applyAll rest := rfl

theorem applyAll_append (r : Registry) (earlier later : List Change) :
    r.applyAll (earlier ++ later) = (r.applyAll earlier).applyAll later :=
  List.foldl_append

theorem find?_congr {other : String} (h : Text.lower name = Text.lower other) :
    r.find? name = r.find? other := by
  rw [find?, find?, h]

/-- A change puts what it has for a key there, and leaves the other keys alone. -/
theorem find?_apply (r : Registry) (change : Change) (name : String) :
    (r.apply change).find? name =
      (last? (r.effect? change).toList (Text.lower name)).getD (r.find? name) := by
  cases change with
  | register f =>
      rw [apply, find?_register, effect?, Option.toList_some, Entry.last?_singleton]
      split <;> rfl
  | registerAlias second target =>
      rw [apply, registerAlias, effect?]
      cases r.find? target with
      | none => rfl
      | some f =>
          rw [Option.map_some, Option.toList_some, Entry.last?_singleton, find?_register]
          split <;> simp_all [SqlFunction.key]
  | unregister removed =>
      rw [apply, unregister, find?_erase, effect?, Option.toList_some, Entry.last?_singleton]
      split <;> rfl

/-- After changes a key holds what the last effect on it put there, and what it held before if
there was no effect on it. -/
theorem find?_applyAll (r : Registry) (changes : List Change) (name : String) :
    (r.applyAll changes).find? name =
      (last? (r.effects changes) (Text.lower name)).getD (r.find? name) := by
  induction changes generalizing r with
  | nil => rfl
  | cons change rest ih =>
      rw [applyAll_cons, ih, find?_apply, effects, Entry.last?_append]
      cases last? ((r.apply change).effects rest) (Text.lower name) <;> rfl

theorem find?_eq_some_iff_leaves :
    (empty.applyAll changes).find? name = some f ↔ Leaves changes (Text.lower name) f := by
  have hempty : empty.find? name = none := rfl
  rw [find?_applyAll, hempty, Leaves, ← last?_eq_some_iff]
  cases last? (empty.effects changes) (Text.lower name) <;> simp

/-- What a change puts under a key has this key by its name. -/
theorem key_of_effect? (h : r.effect? change = some (key, some f)) : f.key = key := by
  cases change with
  | register g =>
      cases h
      rfl
  | registerAlias name target =>
      obtain ⟨g, _, heq⟩ := Option.map_eq_some_iff.mp h
      cases heq
      rfl
  | unregister name => cases h

theorem key_of_mem_effects (h : (key, some f) ∈ r.effects changes) : f.key = key := by
  induction changes generalizing r with
  | nil => cases h
  | cons change rest ih =>
      rcases List.mem_append.mp h with h | h
      · exact key_of_effect? (Option.mem_toList.mp h)
      · exact ih h

theorem Leaves.key_eq (h : Leaves changes key f) : f.key = key := by
  obtain ⟨earlier, later, heffects, -⟩ := h
  have hmem : (key, some f) ∈ empty.effects changes := by
    rw [heffects]
    exact List.mem_append_right earlier List.mem_cons_self
  exact key_of_mem_effects hmem

theorem mem_functions_iff : f ∈ r.functions ↔ r.find? f.name = some f := by
  rw [find?_eq_some_iff]
  exact (and_iff_left rfl).symm

/-- There are as many functions as keys that changes leave a function under. -/
theorem encard_leaves (changes : List Change) :
    {key | ∃ f, Leaves changes key f}.encard = (empty.applyAll changes).size := by
  have hkeys : {key | ∃ f, Leaves changes key f} =
      ((empty.applyAll changes).functions.map SqlFunction.key).toFinset := by
    ext key
    simp only [Set.mem_ofPred_eq, List.coe_toFinset, List.mem_map]
    constructor
    · rintro ⟨f, h⟩
      obtain rfl := h.key_eq
      exact ⟨f, mem_functions_iff.mpr (find?_eq_some_iff_leaves.mpr h), rfl⟩
    · rintro ⟨f, hf, rfl⟩
      exact ⟨f, find?_eq_some_iff_leaves.mp (mem_functions_iff.mp hf)⟩
  rw [hkeys, Set.encard_coe_eq_coe_finsetCard, List.toFinset_card_of_nodup (distinct _),
    List.length_map]
  rfl

/-- A second name keeps what its target was when it was given, as long as no change has an
effect on its own key. -/
theorem find?_registerAlias (htarget : r.find? target = some f)
    (hlater : ∀ effect ∈ (r.registerAlias name target).effects later,
      effect.1 ≠ Text.lower name) :
    (r.applyAll (.registerAlias name target :: later)).find? name = some { f with name } := by
  have hnone := last?_eq_none_iff.mpr hlater
  rw [applyAll_cons, find?_applyAll]
  rw [apply, hnone, Option.getD_none, registerAlias, htarget]
  exact (find?_register _ _ _).trans (if_pos rfl)

theorem unregister_eq_true_iff :
    ((empty.applyAll changes).unregister name).1 = true ↔
      ∃ f, Leaves changes (Text.lower name) f := by
  rw [unregister, contains, Option.isSome_iff_exists]
  exact exists_congr fun f => find?_eq_some_iff_leaves

/-- The functions of a backend are those that the changes leave under some key. A name finds
what is left under its key, in whatever case it is spelled; a second name finds what its target
was when it was given; and keys that hold a function are told by removing it and counted. -/
theorem changes_tell_functions (changes : List Change) :
    (∀ f, f ∈ (empty.applyAll changes).functions ↔ ∃ key, Leaves changes key f) ∧
      (∀ key f, Leaves changes key f → Text.lower f.name = key) ∧
      (∀ name f, (empty.applyAll changes).find? name = some f ↔
        Leaves changes (Text.lower name) f) ∧
      (∀ name other, Text.lower name = Text.lower other →
        (empty.applyAll changes).find? name = (empty.applyAll changes).find? other) ∧
      (∀ earlier name target later f, changes = earlier ++ .registerAlias name target :: later →
        (empty.applyAll earlier).find? target = some f →
        (∀ effect ∈ (empty.applyAll (earlier ++ [.registerAlias name target])).effects later,
          effect.1 ≠ Text.lower name) →
        (empty.applyAll changes).find? name = some { f with name }) ∧
      (∀ name, ((empty.applyAll changes).unregister name).1 = true ↔
        ∃ f, Leaves changes (Text.lower name) f) ∧
      {key | ∃ f, Leaves changes key f}.encard = (empty.applyAll changes).size := by
  refine ⟨fun f => ⟨fun hf => ?_, ?_⟩, fun key f => Leaves.key_eq,
    fun name f => find?_eq_some_iff_leaves, fun name other => find?_congr, ?_,
    fun name => unregister_eq_true_iff, encard_leaves changes⟩
  · exact ⟨f.key, find?_eq_some_iff_leaves.mp (mem_functions_iff.mp hf)⟩
  · rintro ⟨key, h⟩
    obtain rfl := h.key_eq
    exact mem_functions_iff.mpr (find?_eq_some_iff_leaves.mpr h)
  · rintro earlier name target later f rfl htarget hlater
    rw [applyAll_append] at hlater ⊢
    exact find?_registerAlias htarget hlater

/-- The second name stays what the first one was, though that is registered anew. -/
theorem changes_tell_functions_second_name :
    let changes : List Change := [.register (.named "LOWER"), .registerAlias "Lcase" "Lower",
      .register (.templated "lower" 1 "down(?1)"), .unregister "upper"]
    (empty.applyAll changes).find? "LCASE" =
        some { SqlFunction.named "LOWER" with name := "Lcase" } ∧
      Leaves changes "lcase" { SqlFunction.named "LOWER" with name := "Lcase" } ∧
      Text.lower "Lcase" = "lcase" := by
  intro changes
  obtain ⟨-, hkey, hfind, hcase, halias, -, -⟩ := changes_tell_functions changes
  have hfound := halias [.register (.named "LOWER")] "Lcase" "Lower" _ _ rfl rfl (by decide)
  have hleaves := (hfind "Lcase" _).mp hfound
  exact ⟨(hcase "LCASE" "Lcase" (by decide)).trans hfound, hleaves, hkey _ _ hleaves⟩

end SqlBackend.Registry
