import SqlBackend.Proofs.Function.Copies

/-! # Which arguments a call contains

A call contains the arguments that its template copies, each as it is. Of all other
arguments it does not matter what they are: the template leaves them out.
-/

namespace SqlBackend

/-- The part stands somewhere in the whole. -/
def Fragment.Contains (whole part : Fragment) : Prop :=
  ∃ front back, whole = front ++ part ++ back

namespace Fragment.Contains

variable {whole part : Fragment}

theorem refl (f : Fragment) : f.Contains f := ⟨{}, {}, by simp⟩

theorem append_left (h : whole.Contains part) (f : Fragment) : (f ++ whole).Contains part := by
  obtain ⟨front, back, rfl⟩ := h
  exact ⟨f ++ front, back, by simp only [append_assoc]⟩

theorem append_right (h : whole.Contains part) (f : Fragment) : (whole ++ f).Contains part := by
  obtain ⟨front, back, rfl⟩ := h
  exact ⟨front, back ++ f, by simp only [append_assoc]⟩

theorem trans {middle : Fragment} (h : whole.Contains middle) (hpart : middle.Contains part) :
    whole.Contains part := by
  obtain ⟨front, back, rfl⟩ := h
  exact (hpart.append_left front).append_right back

theorem joined {separator : String} {fs : List Fragment} (h : part ∈ fs) :
    (joined separator fs).Contains part := by
  induction fs with
  | nil => cases h
  | cons f rest ih =>
      cases rest with
      | nil =>
          rw [List.mem_singleton.mp h]
          exact refl _
      | cons g rest =>
          rcases List.mem_cons.mp h with rfl | hrest
          · exact ((refl _).append_right _).append_right _
          · exact (ih hrest).append_left _

end Fragment.Contains

/-- The places of the arguments that a template copies when it is given so many. -/
def copiedPlaces (template : String) (count : Nat) : List Nat :=
  (TemplatePiece.ofChars template.toList).flatMap (·.copied count)

theorem TemplatePiece.contains_expand {piece : TemplatePiece} {args : List Fragment} {i : Nat}
    (hi : i ∈ piece.copied args.length) {a : Fragment} (ha : args[i]? = some a) :
    (piece.expand args).Contains a := by
  cases piece with
  | char c => cases hi
  | argument position =>
      cases position with
      | zero => cases hi
      | succ n =>
          obtain rfl := List.mem_singleton.mp hi
          rw [expand, ha]
          exact .refl a
  | allArguments => exact .joined (List.mem_of_getElem? ha)

theorem TemplatePiece.expand_congr {piece : TemplatePiece} {args others : List Fragment}
    (hlength : args.length = others.length)
    (h : ∀ i ∈ piece.copied args.length, args[i]? = others[i]?) :
    piece.expand args = piece.expand others := by
  cases piece with
  | char c => rfl
  | argument position =>
      cases position with
      | zero => rfl
      | succ n => rw [expand, expand, h n (List.mem_singleton_self n)]
  | allArguments =>
      have hsame : args = others := by
        apply List.ext_getElem?
        intro i
        by_cases hi : i < args.length
        · exact h i (List.mem_range.mpr hi)
        · rw [List.getElem?_eq_none (by omega), List.getElem?_eq_none (by omega)]
      rw [hsame]

/-- An argument that the template copies is in the call. -/
theorem contains_expandTemplate {template : String} {args : List Fragment} {i : Nat}
    (hi : i ∈ copiedPlaces template args.length) {a : Fragment} (ha : args[i]? = some a) :
    (expandTemplate template args).Contains a := by
  unfold copiedPlaces at hi
  unfold expandTemplate
  generalize TemplatePiece.ofChars template.toList = pieces at hi
  induction pieces with
  | nil => cases hi
  | cons piece rest ih =>
      rw [List.flatMap_cons, List.mem_append] at hi
      rcases hi with hpiece | hrest
      · exact (piece.contains_expand hpiece ha).append_right _
      · exact (ih hrest).append_left _

/-- Arguments that the template does not copy may be any others. -/
theorem expandTemplate_congr {template : String} {args others : List Fragment}
    (hlength : args.length = others.length)
    (h : ∀ i ∈ copiedPlaces template args.length, args[i]? = others[i]?) :
    expandTemplate template args = expandTemplate template others := by
  unfold copiedPlaces at h
  unfold expandTemplate
  generalize TemplatePiece.ofChars template.toList = pieces at h
  induction pieces with
  | nil => rfl
  | cons piece rest ih =>
      rw [List.flatMap_cons] at h
      have hpiece := piece.expand_congr hlength fun i hi => h i (List.mem_append_left _ hi)
      have hrest := ih fun i hi => h i (List.mem_append_right _ hi)
      rw [List.foldr_cons, List.foldr_cons, hpiece, hrest]

namespace Registry

variable {r : Registry} {name : String} {count : Nat}

/-- The pattern by which a function is called with so many arguments. -/
def pattern? (r : Registry) (name : String) (count : Nat) : Option CallPattern :=
  (r.find? name).bind fun f => f.patterns.find? (·.arity.accepts count)

/-- The places of the arguments that a call of a function copies. -/
def copiedPlaces (r : Registry) (name : String) (count : Nat) : List Nat :=
  (r.pattern? name count).elim [] fun p => SqlBackend.copiedPlaces p.template count

theorem call_eq_ok_iff {args : List Fragment} {called : Fragment} :
    r.call name args = .ok called ↔
      ∃ p, r.pattern? name args.length = some p ∧ expandTemplate p.template args = called := by
  unfold call SqlFunction.call pattern?
  cases r.find? name with
  | none => simp
  | some f => cases hp : f.patterns.find? (·.arity.accepts args.length) <;> simp [hp]

/-- Whether a call succeeds depends on the number of its arguments only, and what it is
on those that are copied. -/
theorem call_congr {args others : List Fragment} {called : Fragment}
    (hlength : args.length = others.length)
    (h : ∀ i ∈ r.copiedPlaces name args.length, args[i]? = others[i]?)
    (hcall : r.call name args = .ok called) : r.call name others = .ok called := by
  obtain ⟨p, hp, rfl⟩ := call_eq_ok_iff.mp hcall
  rw [copiedPlaces, hp] at h
  exact call_eq_ok_iff.mpr ⟨p, hlength ▸ hp, (expandTemplate_congr hlength h).symm⟩

theorem contains_of_call {args : List Fragment} {called : Fragment}
    (hcall : r.call name args = .ok called) {i : Nat} (hi : i ∈ r.copiedPlaces name args.length)
    {a : Fragment} (ha : args[i]? = some a) : called.Contains a := by
  obtain ⟨p, hp, rfl⟩ := call_eq_ok_iff.mp hcall
  rw [copiedPlaces, hp] at hi
  exact contains_expandTemplate hi ha

/-- The functions of PostgreSQL and of Spanner are called with all their arguments. -/
theorem CopiesEach.mem_copiedPlaces (h : r.CopiesEach) {args : List Fragment} {called : Fragment}
    (hcall : r.call name args = .ok called) {i : Nat} (hi : i < args.length) :
    i ∈ r.copiedPlaces name args.length := by
  obtain ⟨p, hp, _⟩ := call_eq_ok_iff.mp hcall
  rw [copiedPlaces, hp]
  obtain ⟨f, hf, hfind⟩ := Option.bind_eq_some_iff.mp hp
  have hcopies := h f (List.mem_of_find?_eq_some hf) p (List.mem_of_find?_eq_some hfind)
  have haccepts : p.arity.accepts args.length = true := by simpa using List.find?_some hfind
  exact (p.copiesEach_of_accepts hcopies haccepts).mem_iff.mpr (List.mem_range.mpr hi)

end Registry

end SqlBackend
