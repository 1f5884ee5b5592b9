import SqlBackend.Capabilities
import SqlBackend.Proofs.Entry.Last

/-! # Switches on top of a record

What a feature is switched to last is all that its switches leave behind. So switches of one
feature after those of another can change places with them, and doing all of them once more
changes nothing.
-/

namespace SqlBackend.Capabilities

open Entry (Last last? last?_eq_some_iff last?_eq_none_iff)

variable {overrides others : List (Feature × Bool)}

/-- A feature is as it was switched last, and as it was before if it was not switched. -/
theorem supports_withOverrides (c : Capabilities) (overrides : List (Feature × Bool))
    (f : Feature) :
    (c.withOverrides overrides).supports f = (last? overrides f).getD (c.supports f) := by
  induction overrides generalizing c with
  | nil => rfl
  | cons entry rest ih =>
      have hstep : c.withOverrides (entry :: rest) =
          (c.set entry.1 entry.2).withOverrides rest := rfl
      rw [hstep, ih, supports_set, Entry.last?_cons]
      by_cases h : entry.1 = f
      · cases last? rest f <;> simp [h]
      · cases last? rest f <;> simp [h, Ne.symm h]

/-- Only what the features are switched to last makes a difference. -/
theorem withOverrides_congr (c : Capabilities)
    (h : ∀ f, last? overrides f = last? others f) :
    c.withOverrides overrides = c.withOverrides others := by
  ext f
  rw [supports_withOverrides, supports_withOverrides, h]

/-- The switches of a feature keep their order; those of others may stand anywhere. -/
theorem withOverrides_of_filter_eq (c : Capabilities)
    (h : ∀ f, overrides.filter (·.1 = f) = others.filter (·.1 = f)) :
    c.withOverrides overrides = c.withOverrides others := by
  apply c.withOverrides_congr
  intro f
  rw [← Entry.last?_filter, h, Entry.last?_filter]

theorem withOverrides_self (c : Capabilities) (overrides : List (Feature × Bool)) :
    (c.withOverrides overrides).withOverrides overrides = c.withOverrides overrides := by
  rw [← withOverrides_append]
  apply c.withOverrides_congr
  intro f
  rw [Entry.last?_append, Option.or_self]

/-- The last switch of a feature decides on it. Hence two lists of switches act as one, a list
acts once only, and the switches of different features may be put in any order. -/
theorem last_switch_decides (c : Capabilities) (overrides : List (Feature × Bool)) :
    (∀ f, (c.withOverrides overrides).supports f = true ↔
      Last overrides f true ∨ (∀ entry ∈ overrides, entry.1 ≠ f) ∧ c.supports f = true) ∧
      (∀ others, (c.withOverrides overrides).withOverrides others =
        c.withOverrides (overrides ++ others)) ∧
      (c.withOverrides overrides).withOverrides overrides = c.withOverrides overrides ∧
      ∀ others, (∀ f, others.filter (·.1 = f) = overrides.filter (·.1 = f)) →
        c.withOverrides others = c.withOverrides overrides := by
  refine ⟨fun f => ?_, fun others => (c.withOverrides_append overrides others).symm,
    c.withOverrides_self overrides, fun others => c.withOverrides_of_filter_eq⟩
  rw [supports_withOverrides, ← last?_eq_some_iff, ← last?_eq_none_iff]
  cases last? overrides f <;> simp

/-- Lateral joins are switched off and on again, around a switch of cursors that may as well
come first. -/
theorem last_switch_decides_lateral :
    (postgres.withOverrides [(.lateral, false), (.refCursor, true), (.lateral, true)]).supports
        .lateral = true ∧
      postgres.withOverrides [(.refCursor, true), (.lateral, false), (.lateral, true)] =
        postgres.withOverrides [(.lateral, false), (.refCursor, true), (.lateral, true)] := by
  obtain ⟨hsupports, -, -, horder⟩ :=
    last_switch_decides postgres [(.lateral, false), (.refCursor, true), (.lateral, true)]
  refine ⟨(hsupports .lateral).mpr (.inl ?_), horder _ fun f => by cases f <;> rfl⟩
  exact ⟨[(.lateral, false), (.refCursor, true)], [], rfl, List.forall_mem_nil _⟩

end SqlBackend.Capabilities
