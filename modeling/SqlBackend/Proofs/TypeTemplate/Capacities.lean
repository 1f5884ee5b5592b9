import Mathlib.Data.List.Induction
import Mathlib.Data.List.Sort
import SqlBackend.TypeTemplate

/-! # Templates by capacity

Templates are given one after the other, each with a bound. They are kept sorted by their
bounds, and those of one bound in the order in which they were given, so the first one that
holds a capacity has the least such bound and was given first of those with it. Where no two
bounds are the same the order in which the templates were given makes no difference.
-/

namespace SqlBackend.ByCapacity

variable {fallback : String} {calls others bounds : List (Nat × String)} {entry : Nat × String}
  {capacity bound : Nat}

/-- The templates that are given call by call. -/
def ofCalls (fallback : String) (calls : List (Nat × String)) : ByCapacity :=
  calls.foldl (fun t call => t.withCapacity call.1 call.2) (ofFallback fallback)

theorem ofCalls_concat (fallback : String) (calls : List (Nat × String)) (call : Nat × String) :
    ofCalls fallback (calls ++ [call]) =
      (ofCalls fallback calls).withCapacity call.1 call.2 := by
  rw [ofCalls, List.foldl_append]
  rfl

/-- A call decides on a capacity if it has the least bound that holds the capacity, and no call
before it has the same bound. -/
def Decides (calls : List (Nat × String)) (capacity : Nat) (entry : Nat × String) : Prop :=
  ∃ earlier later, calls = earlier ++ entry :: later ∧ capacity ≤ entry.1 ∧
    (∀ call ∈ calls, capacity ≤ call.1 → entry.1 ≤ call.1) ∧ ∀ call ∈ earlier, call.1 ≠ entry.1

/-- An entry goes behind all others of its bound. -/
theorem filter_insertBound (h : bounds.Pairwise (·.1 ≤ ·.1)) :
    (insertBound entry bounds).filter (·.1 = bound) =
      bounds.filter (·.1 = bound) ++ [entry].filter (·.1 = bound) := by
  induction bounds with
  | nil => simp [insertBound]
  | cons first rest ih =>
      obtain ⟨hfirst, hrest⟩ := List.pairwise_cons.mp h
      rw [insertBound]
      split
      next hlt =>
        by_cases hentry : entry.1 = bound
        · -- Every other bound is greater, so none of them is the bound of the entry.
          have hnone : (first :: rest).filter (·.1 = bound) = [] := by
            rw [List.filter_eq_nil_iff]
            intro other hother
            rcases List.mem_cons.mp hother with rfl | hother
            · simpa using by omega
            · have := hfirst other hother
              simpa using by omega
          rw [← List.singleton_append, List.filter_append, hnone, List.append_nil, List.nil_append]
        · simp [hentry]
      next hle =>
        rw [List.filter_cons, List.filter_cons, ih hrest]
        split <;> rfl

/-- The templates are kept sorted by their bounds. -/
theorem bounds_sorted (fallback : String) (calls : List (Nat × String)) :
    (ofCalls fallback calls).bounds.Pairwise (·.1 ≤ ·.1) := by
  induction calls using List.reverseRecOn with
  | nil => exact List.Pairwise.nil
  | append_singleton calls call ih =>
      rw [ofCalls_concat]
      exact insertBound_sorted ih

/-- The templates of one bound are kept in the order in which they were given. -/
theorem filter_bounds (fallback : String) (calls : List (Nat × String)) (bound : Nat) :
    (ofCalls fallback calls).bounds.filter (·.1 = bound) = calls.filter (·.1 = bound) := by
  induction calls using List.reverseRecOn with
  | nil => rfl
  | append_singleton calls call ih =>
      rw [ofCalls_concat, withCapacity, filter_insertBound (bounds_sorted fallback calls), ih,
        List.filter_append]

theorem mem_iff_of_filter_eq
    (hsame : ∀ bound, bounds.filter (·.1 = bound) = others.filter (·.1 = bound)) :
    entry ∈ bounds ↔ entry ∈ others := by
  simpa using congrArg (entry ∈ ·) (hsame entry.1)

theorem mem_bounds_iff (fallback : String) :
    entry ∈ (ofCalls fallback calls).bounds ↔ entry ∈ calls :=
  mem_iff_of_filter_eq (filter_bounds fallback calls)

/-- Sorted templates are the same if those of each bound are. -/
theorem eq_of_filter_eq (hsorted : bounds.Pairwise (·.1 ≤ ·.1))
    (hsorted' : others.Pairwise (·.1 ≤ ·.1))
    (hsame : ∀ bound, bounds.filter (·.1 = bound) = others.filter (·.1 = bound)) :
    bounds = others := by
  induction bounds generalizing others with
  | nil =>
      have hnone : ∀ x, x ∉ others := fun x hx =>
        List.not_mem_nil ((mem_iff_of_filter_eq hsame).mpr hx)
      exact (List.eq_nil_iff_forall_not_mem.mpr hnone).symm
  | cons first rest ih =>
      have hfirst := (mem_iff_of_filter_eq hsame).mp List.mem_cons_self
      cases others with
      | nil => exact absurd hfirst List.not_mem_nil
      | cons first' rest' =>
          have hfirst' := (mem_iff_of_filter_eq hsame).mpr List.mem_cons_self
          rw [List.pairwise_cons] at hsorted hsorted'
          have hle : first.1 ≤ first'.1 := by
            rcases List.mem_cons.mp hfirst' with heq | hrest
            · exact (congrArg Prod.fst heq).ge
            · exact hsorted.1 first' hrest
          have hle' : first'.1 ≤ first.1 := by
            rcases List.mem_cons.mp hfirst with heq | hrest
            · exact (congrArg Prod.fst heq).ge
            · exact hsorted'.1 first hrest
          -- The heads have the same bound, so each is the first template of it.
          have heads := hsame first.1
          rw [List.filter_cons_of_pos (by simp),
            List.filter_cons_of_pos (by simpa using Nat.le_antisymm hle' hle)] at heads
          obtain ⟨rfl, -⟩ := List.cons.inj heads
          have htails (bound : Nat) : rest.filter (·.1 = bound) = rest'.filter (·.1 = bound) := by
            have := hsame bound
            by_cases hbound : first.1 = bound <;> simpa [hbound] using this
          rw [ih hsorted.2 hsorted'.2 htails]

/-- Sorting by the bounds keeps the order of the templates of one bound. -/
theorem filter_mergeSort (bounds : List (Nat × String)) (bound : Nat) :
    (bounds.mergeSort (·.1 ≤ ·.1)).filter (·.1 = bound) = bounds.filter (·.1 = bound) := by
  have hpairwise : (bounds.filter (·.1 = bound)).Pairwise
      fun first second => decide (first.1 ≤ second.1) = true := by
    rw [List.pairwise_filter]
    refine List.pairwise_of_forall fun first second hfirst hsecond => ?_
    simp only [decide_eq_true_eq] at hfirst hsecond ⊢
    omega
  have hsublist := (List.sublist_mergeSort
    (fun first second third h h' => by simp only [decide_eq_true_eq] at h h' ⊢; omega)
    (fun first second => by simpa using Nat.le_total first.1 second.1) hpairwise
    List.filter_sublist).filter (·.1 = bound)
  simp only [List.filter_filter, Bool.and_self] at hsublist
  exact (hsublist.eq_of_length ((List.mergeSort_perm bounds _).filter _).length_eq.symm).symm

/-- Putting a template among the sorted ones is putting it at the end and sorting again. -/
theorem insertBound_eq_mergeSort (h : bounds.Pairwise (·.1 ≤ ·.1)) :
    insertBound entry bounds = (bounds ++ [entry]).mergeSort (·.1 ≤ ·.1) := by
  refine eq_of_filter_eq (insertBound_sorted h) ?_ fun bound => ?_
  · exact List.pairwise_mergeSort' _ _
  · rw [filter_insertBound h, filter_mergeSort, List.filter_append]

/-- The call that decides is the first one with its bound. -/
theorem Decides.find?_eq (h : Decides calls capacity entry) :
    calls.find? (·.1 = entry.1) = some entry := by
  obtain ⟨earlier, later, hcalls, -, -, hfirst⟩ := h
  exact List.find?_eq_some_iff_append.mpr
    ⟨by simp, earlier, later, hcalls, fun call hcall => by simpa using hfirst call hcall⟩

theorem Decides.mem (h : Decides calls capacity entry) : entry ∈ calls :=
  List.mem_of_find?_eq_some h.find?_eq

/-- At most one call decides. -/
theorem Decides.unique {entry' : Nat × String} (h : Decides calls capacity entry)
    (h' : Decides calls capacity entry') : entry = entry' := by
  have hsame : entry.1 = entry'.1 := by
    have hmem := h.mem
    have hmem' := h'.mem
    obtain ⟨-, -, -, hholds, hleast, -⟩ := h
    obtain ⟨-, -, -, hholds', hleast', -⟩ := h'
    exact Nat.le_antisymm (hleast entry' hmem' hholds') (hleast' entry hmem hholds)
  have hfound := h.find?_eq
  rw [hsame, h'.find?_eq] at hfound
  exact (Option.some.inj hfound).symm

/-- What is found among the sorted templates decides among the calls. -/
theorem decides_of_find?
    (h : (ofCalls fallback calls).bounds.find? (capacity ≤ ·.1) = some entry) :
    Decides calls capacity entry := by
  obtain ⟨hholds, front, back, hbounds, hfront⟩ := List.find?_eq_some_iff_append.mp h
  have hsorted := bounds_sorted fallback calls
  rw [hbounds, List.pairwise_append, List.pairwise_cons] at hsorted
  obtain ⟨-, ⟨hback, -⟩, -⟩ := hsorted
  have hleast : ∀ call ∈ calls, capacity ≤ call.1 → entry.1 ≤ call.1 := by
    intro call hcall hle
    have hmem := (mem_bounds_iff fallback).mpr hcall
    rw [hbounds, List.mem_append, List.mem_cons] at hmem
    rcases hmem with hmem | rfl | hmem
    · exact absurd hle (by simpa using hfront call hmem)
    · exact Nat.le_refl _
    · exact hback call hmem
  -- Among the sorted templates it is the first of its bound, so it is so among the calls.
  have hfirst : calls.find? (·.1 = entry.1) = some entry := by
    rw [← List.head?_filter, ← filter_bounds fallback, List.head?_filter, hbounds]
    refine List.find?_eq_some_iff_append.mpr ⟨by simp, front, back, rfl, fun other hother => ?_⟩
    have hbelow : ¬capacity ≤ other.1 := by simpa using hfront other hother
    have : capacity ≤ entry.1 := by simpa using hholds
    simpa using by omega
  obtain ⟨-, earlier, later, hcalls, hearlier⟩ := List.find?_eq_some_iff_append.mp hfirst
  exact ⟨earlier, later, hcalls, by simpa using hholds, hleast,
    fun call hcall => by simpa using hearlier call hcall⟩

theorem find?_bounds_eq_none_iff :
    (ofCalls fallback calls).bounds.find? (capacity ≤ ·.1) = none ↔
      ∀ call ∈ calls, call.1 < capacity := by
  simp [List.find?_eq_none, mem_bounds_iff]

/-- Either a call decides on a capacity, or the capacity is beyond every bound. -/
theorem decides_or_beyond (calls : List (Nat × String)) (capacity : Nat) :
    (∃ entry, Decides calls capacity entry) ∨ ∀ call ∈ calls, call.1 < capacity := by
  rcases hfound : (ofCalls "" calls).bounds.find? (capacity ≤ ·.1) with _ | entry
  · exact .inr (find?_bounds_eq_none_iff.mp hfound)
  · exact .inl ⟨entry, decides_of_find? hfound⟩

/-- The call that decides gives the template. -/
theorem templateFor_of_decides (h : Decides calls capacity entry) :
    (ofCalls fallback calls).templateFor (some capacity) = entry.2 := by
  rcases hfound : (ofCalls fallback calls).bounds.find? (capacity ≤ ·.1) with _ | found
  · have hbelow := find?_bounds_eq_none_iff.mp hfound entry h.mem
    obtain ⟨-, -, -, hholds, -, -⟩ := h
    omega
  · rw [h.unique (decides_of_find? hfound), templateFor, hfound]

theorem fallback_ofCalls (fallback : String) (calls : List (Nat × String)) :
    (ofCalls fallback calls).fallback = fallback := by
  induction calls using List.reverseRecOn with
  | nil => rfl
  | append_singleton calls call ih =>
      rw [ofCalls_concat]
      exact ih

/-- A capacity beyond every bound takes the fallback. -/
theorem templateFor_of_beyond (h : ∀ call ∈ calls, call.1 < capacity) :
    (ofCalls fallback calls).templateFor (some capacity) = fallback := by
  rw [templateFor, find?_bounds_eq_none_iff.mpr h, fallback_ofCalls]

/-- With bounds that differ, the call that decides does so in every order of the calls. -/
theorem Decides.of_perm (h : Decides calls capacity entry) (hnodup : (calls.map (·.1)).Nodup)
    (hperm : others.Perm calls) : Decides others capacity entry := by
  obtain ⟨earlier, later, hothers⟩ := List.append_of_mem (hperm.mem_iff.mpr h.mem)
  have hnodup' : (others.map (·.1)).Nodup := (hperm.map _).nodup_iff.mpr hnodup
  obtain ⟨-, -, -, hholds, hleast, -⟩ := h
  refine ⟨earlier, later, hothers, hholds, fun call hcall => hleast call (hperm.mem_iff.mp hcall),
    fun call hcall hsame => ?_⟩
  rw [hothers, List.map_append, List.map_cons] at hnodup'
  exact (List.nodup_append.mp hnodup').2.2 call.1 (List.mem_map_of_mem hcall) entry.1
    List.mem_cons_self hsame

/-- With bounds that differ, the order of the calls makes no difference. -/
theorem templateFor_of_perm (hnodup : (calls.map (·.1)).Nodup) (hperm : others.Perm calls)
    (capacity? : Option Nat) :
    (ofCalls fallback others).templateFor capacity? =
      (ofCalls fallback calls).templateFor capacity? := by
  match capacity? with
  | none => exact (fallback_ofCalls fallback others).trans (fallback_ofCalls fallback calls).symm
  | some capacity =>
      rcases decides_or_beyond calls capacity with ⟨entry, hdecides⟩ | hbeyond
      · rw [templateFor_of_decides hdecides, templateFor_of_decides (hdecides.of_perm hnodup hperm)]
      · rw [templateFor_of_beyond hbeyond,
          templateFor_of_beyond fun call hcall => hbeyond call (hperm.mem_iff.mp hcall)]

/-- The first template with the least bound that holds a capacity is the one for it. Without
a capacity, and beyond every bound, it is the fallback. The order in which the templates were
given matters for equal bounds only. To give one more is to put it behind the others and sort
them all again, with equal bounds in the order in which they stand. -/
theorem least_bound_decides (fallback : String) (calls : List (Nat × String)) :
    (ofCalls fallback calls).templateFor none = fallback ∧
      (∀ capacity entry, Decides calls capacity entry →
        (ofCalls fallback calls).templateFor (some capacity) = entry.2) ∧
      (∀ capacity, (∀ call ∈ calls, call.1 < capacity) →
        (ofCalls fallback calls).templateFor (some capacity) = fallback) ∧
      (∀ capacity, (∃ entry, Decides calls capacity entry) ∨
        ∀ call ∈ calls, call.1 < capacity) ∧
      ((calls.map (·.1)).Nodup → ∀ others, others.Perm calls → ∀ capacity?,
        (ofCalls fallback others).templateFor capacity? =
          (ofCalls fallback calls).templateFor capacity?) ∧
      ∀ bound template, ((ofCalls fallback calls).withCapacity bound template).bounds =
        ((ofCalls fallback calls).bounds ++ [(bound, template)]).mergeSort (·.1 ≤ ·.1) :=
  ⟨fallback_ofCalls fallback calls, fun _ _ => templateFor_of_decides,
    fun _ => templateFor_of_beyond, decides_or_beyond calls,
    fun hnodup _ hperm capacity? => templateFor_of_perm hnodup hperm capacity?,
    fun _ _ => insertBound_eq_mergeSort (bounds_sorted fallback calls)⟩

/-- The bound that was given last holds the capacity with less to spare, and of the two with
that bound the first one counts. Without the second one the order of the calls can be turned. -/
theorem least_bound_decides_floats :
    let calls := [(53, "double precision"), (24, "real"), (24, "single")]
    (ofCalls "float($p)" calls).templateFor (some 10) = "real" ∧
      (ofCalls "float($p)" calls).templateFor (some 60) = "float($p)" ∧
      (ofCalls "float($p)" [(24, "real"), (53, "double precision")]).templateFor (some 25) =
        (ofCalls "float($p)" [(53, "double precision"), (24, "real")]).templateFor (some 25) := by
  obtain ⟨-, hdecides, hbeyond, -⟩ := least_bound_decides "float($p)"
    [(53, "double precision"), (24, "real"), (24, "single")]
  obtain ⟨-, -, -, -, hperm, -⟩ := least_bound_decides "float($p)"
    [(53, "double precision"), (24, "real")]
  refine ⟨hdecides 10 (24, "real") ?_, hbeyond 60 (by decide), ?_⟩
  · exact ⟨[(53, "double precision")], [(24, "single")], rfl, by decide, by decide, by decide⟩
  · exact hperm (by decide) _ (List.Perm.swap _ _ _) _

end SqlBackend.ByCapacity
