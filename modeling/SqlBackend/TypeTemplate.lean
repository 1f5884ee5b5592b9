import SqlBackend.SqlType
import SqlBackend.Text.Replace

/-! # Type templates

The spelling of a type may contain `$l`, `$p` and `$s` for the length, the
precision and the scale. Sizes that are not declared are written with their
defaults. For some types the spelling depends on the declared capacity: the
least bound that still holds it decides.
-/

namespace SqlBackend

def defaultLength : Nat := 255

def defaultPrecision : Nat := 38

def defaultScale : Nat := 2

/-- The template with the size put in: first the length, then the precision,
then the scale. -/
def expandTypeTemplate (template : String) (size : Size) : String :=
  let length := toString (size.length.getD defaultLength)
  let precision := toString (size.precision.getD defaultPrecision)
  let scale := toString (size.scale.getD defaultScale)
  Text.replace (Text.replace (Text.replace template "$l" length) "$p" precision) "$s" scale

/-- Templates by capacity, and one for capacities beyond every bound. -/
structure ByCapacity where
  bounds : List (Nat × String)
  fallback : String
deriving DecidableEq, Repr

namespace ByCapacity

def ofFallback (fallback : String) : ByCapacity := ⟨[], fallback⟩

/-- Puts an entry behind all entries whose bound is not greater. -/
def insertBound (entry : Nat × String) : List (Nat × String) → List (Nat × String)
  | [] => [entry]
  | first :: rest =>
      if entry.1 < first.1 then entry :: first :: rest else first :: insertBound entry rest

/-- Adds a template for capacities up to `bound`. Among equal bounds the one
added first stays in front. -/
def withCapacity (t : ByCapacity) (bound : Nat) (template : String) : ByCapacity :=
  { t with bounds := insertBound (bound, template) t.bounds }

/-- The template for a capacity; an unknown capacity takes the fallback. -/
def templateFor (t : ByCapacity) : Option Nat → String
  | none => t.fallback
  | some capacity =>
      match t.bounds.find? fun entry => capacity ≤ entry.1 with
      | some entry => entry.2
      | none => t.fallback

theorem mem_insertBound {entry x : Nat × String} {bounds : List (Nat × String)} :
    x ∈ insertBound entry bounds ↔ x = entry ∨ x ∈ bounds := by
  induction bounds with
  | nil => simp [insertBound]
  | cons first rest ih =>
    simp only [insertBound]
    split
    · simp
    · simp only [List.mem_cons, ih]
      exact or_left_comm

/-- Entries stay sorted by their bounds. -/
theorem insertBound_sorted {entry : Nat × String} {bounds : List (Nat × String)}
    (h : bounds.Pairwise (·.1 ≤ ·.1)) : (insertBound entry bounds).Pairwise (·.1 ≤ ·.1) := by
  induction bounds with
  | nil => simp [insertBound]
  | cons first rest ih =>
    obtain ⟨hfirst, hrest⟩ := List.pairwise_cons.mp h
    simp only [insertBound]
    split
    · next hlt =>
      refine List.pairwise_cons.mpr ⟨?_, h⟩
      intro x hx
      rcases List.mem_cons.mp hx with rfl | hx
      · omega
      · have := hfirst x hx
        omega
    · next hlt =>
      refine List.pairwise_cons.mpr ⟨?_, ih hrest⟩
      intro x hx
      rcases mem_insertBound.mp hx with rfl | hx
      · omega
      · exact hfirst x hx

end ByCapacity

end SqlBackend
