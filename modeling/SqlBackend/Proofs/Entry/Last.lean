/-! # The last entry of a key

Where entries are made one after the other, the last one that is made for a key is the one
that counts for it.
-/

namespace SqlBackend.Entry

variable {κ α : Type} [DecidableEq κ] {entries others earlier later : List (κ × α)} {key : κ}
  {value : α}

/-- The value stands in the last entry of the key. -/
def Last (entries : List (κ × α)) (key : κ) (value : α) : Prop :=
  ∃ earlier later, entries = earlier ++ (key, value) :: later ∧ ∀ entry ∈ later, entry.1 ≠ key

/-- What stands in the last entry of the key, if the key has an entry. -/
def last? (entries : List (κ × α)) (key : κ) : Option α := entries.reverse.lookup key

@[simp] theorem last?_singleton (entry : κ × α) (key : κ) :
    last? [entry] key = if entry.1 = key then some entry.2 else none := by
  obtain ⟨k, a⟩ := entry
  by_cases h : k = key
  · simp [last?, h]
  · have hne : (key == k) = false := by simpa using Ne.symm h
    simp [last?, List.lookup_cons, hne, h]

/-- Later entries come first. -/
theorem last?_append (earlier later : List (κ × α)) (key : κ) :
    last? (earlier ++ later) key = (last? later key).or (last? earlier key) := by
  rw [last?, List.reverse_append, List.lookup_append]
  rfl

theorem last?_cons (entry : κ × α) (entries : List (κ × α)) (key : κ) :
    last? (entry :: entries) key =
      (last? entries key).or (if entry.1 = key then some entry.2 else none) := by
  rw [← List.singleton_append, last?_append, last?_singleton]

theorem last?_eq_some_iff : last? entries key = some value ↔ Last entries key value := by
  rw [last?, List.lookup_eq_some_iff]
  simp only [bne_iff_ne]
  constructor
  · rintro ⟨later, earlier, hentries, hlater⟩
    refine ⟨earlier.reverse, later.reverse, ?_, ?_⟩
    · simpa using congrArg List.reverse hentries
    · exact fun entry hentry => (hlater entry (List.mem_reverse.mp hentry)).symm
  · rintro ⟨earlier, later, rfl, hlater⟩
    refine ⟨later.reverse, earlier.reverse, by simp, ?_⟩
    exact fun entry hentry => (hlater entry (List.mem_reverse.mp hentry)).symm

theorem last?_eq_none_iff : last? entries key = none ↔ ∀ entry ∈ entries, entry.1 ≠ key := by
  rw [last?, List.lookup_eq_none_iff]
  simp only [List.mem_reverse, bne_iff_ne, ne_comm]

/-- The entries of other keys make no difference. -/
theorem last?_filter (entries : List (κ × α)) (key : κ) :
    last? (entries.filter (·.1 = key)) key = last? entries key := by
  induction entries with
  | nil => rfl
  | cons entry rest ih =>
      by_cases h : entry.1 = key <;> simp [last?_cons, h, ih]

end SqlBackend.Entry
