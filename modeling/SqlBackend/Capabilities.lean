import SqlBackend.Feature

/-! # Capability records

A backend is described by the set of features it supports: a base record and a
list of switches on top of it. Of several switches for one feature the last
one counts.
-/

namespace SqlBackend

/-- The features a backend supports. -/
structure Capabilities where
  supports : Feature → Bool

namespace Capabilities

def none : Capabilities := ⟨fun _ => false⟩

def ofList (features : List Feature) : Capabilities := ⟨fun f => features.contains f⟩

/-- PostgreSQL has every feature but cursors as parameters. -/
def postgres : Capabilities := ⟨fun f => f ≠ .refCursor⟩

/-- The record with one feature switched on or off. -/
def set (c : Capabilities) (feature : Feature) (enabled : Bool) : Capabilities :=
  ⟨fun f => if f = feature then enabled else c.supports f⟩

/-- Applies switches in order. -/
def withOverrides (c : Capabilities) (overrides : List (Feature × Bool)) : Capabilities :=
  overrides.foldl (fun record entry => record.set entry.1 entry.2) c

/-- The supported features, in the order in which features are listed. -/
def features (c : Capabilities) : List Feature := Feature.all.filter c.supports

@[ext] theorem ext {c d : Capabilities} (h : ∀ f, c.supports f = d.supports f) : c = d := by
  cases c
  cases d
  congr
  exact funext h

@[simp] theorem supports_set (c : Capabilities) (feature f : Feature) (enabled : Bool) :
    (c.set feature enabled).supports f = if f = feature then enabled else c.supports f := rfl

theorem withOverrides_append (c : Capabilities) (first second : List (Feature × Bool)) :
    c.withOverrides (first ++ second) = (c.withOverrides first).withOverrides second := by
  simp [withOverrides]

end Capabilities

end SqlBackend
