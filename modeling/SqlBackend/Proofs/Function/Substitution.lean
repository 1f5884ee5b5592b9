import SqlBackend.Proofs.Function.Copies

/-! # What a template makes of its arguments

Which arguments a template puts where is settled by the template and by how many arguments
there are. So a call is the template's own text with the arguments in between, whatever is in
them, and a template that is cut anywhere but behind a question mark is two templates.
-/

namespace SqlBackend

/-- A part of a call: text that the template brings, or the argument at a place. -/
inductive CallPart where
  | own (text : String)
  | argument (place : Nat)

def CallPart.fill (args : List Fragment) : CallPart → Fragment
  | own text => .ofText text
  | argument place => args[place]?.getD {}

def CallPart.place? : CallPart → Option Nat
  | own _ => none
  | argument place => some place

/-- The fragments one behind the other. -/
def Fragment.concat (fs : List Fragment) : Fragment := fs.foldr (· ++ ·) {}

namespace TemplatePiece

/-- What a part of a template stands for when there are so many arguments. -/
def parts (count : Nat) : TemplatePiece → List CallPart
  | char c => [.own (String.singleton c)]
  | argument 0 => []
  | argument (n + 1) => if n < count then [.argument n] else []
  | allArguments => ((List.range count).map .argument).intersperse (.own ", ")

end TemplatePiece

/-- The parts of a call with so many arguments. -/
def callParts (template : String) (count : Nat) : List CallPart :=
  (TemplatePiece.ofChars template.toList).flatMap (·.parts count)

/-- The places that two neighbouring characters of a template select among so many arguments. -/
def selectedBy (count : Nat) (pair : Char × Char) : List Nat :=
  if pair = ('?', '*') then List.range count
  else if pair.1 = '?' ∧ pair.2.isDigit = true ∧ 0 < Decimal.digitValue pair.2 ∧
      Decimal.digitValue pair.2 ≤ count then [Decimal.digitValue pair.2 - 1]
  else []

/-- The places of the arguments that a template selects, as often as it does and in order. -/
def selectedPlaces (template : String) (count : Nat) : List Nat :=
  (template.toList.zip template.toList.tail).flatMap (selectedBy count)

namespace Fragment

@[simp] theorem concat_cons (f : Fragment) (fs : List Fragment) :
    concat (f :: fs) = f ++ concat fs := rfl

theorem concat_append (fs gs : List Fragment) : concat (fs ++ gs) = concat fs ++ concat gs := by
  induction fs with
  | nil => exact (empty_append _).symm
  | cons f rest ih => rw [List.cons_append, concat_cons, concat_cons, ih, append_assoc]

theorem joined_places (separator : String) (args : List Fragment) (places : List Nat) :
    joined separator (places.map fun i => args[i]?.getD {}) =
      concat (((places.map CallPart.argument).intersperse (.own separator)).map
        (CallPart.fill args)) := by
  induction places with
  | nil => rfl
  | cons i rest ih =>
      cases rest with
      | nil => exact (append_empty _).symm
      | cons j rest =>
          simp only [List.map_cons, List.intersperse_cons_cons, joined, concat_cons] at ih ⊢
          rw [ih, append_assoc]
          rfl

end Fragment

namespace TemplatePiece

variable {args : List Fragment} {count : Nat}

theorem expand_eq_concat (args : List Fragment) (piece : TemplatePiece) :
    piece.expand args = .concat ((piece.parts args.length).map (CallPart.fill args)) := by
  cases piece with
  | char c => exact (Fragment.append_empty _).symm
  | argument position =>
      cases position with
      | zero => rfl
      | succ n =>
          rw [parts, expand]
          split
          next => exact (Fragment.append_empty _).symm
          next hn => rw [List.getElem?_eq_none (Nat.le_of_not_lt hn)]; rfl
  | allArguments =>
      rw [expand, parts, ← Fragment.joined_places, Fragment.map_range_getD]

/-- No placeholder begins in the front and ends in the back. -/
def Apart (front back : List Char) : Prop :=
  front.getLast? = some '?' → ∀ c ∈ back.head?, c ≠ '*' ∧ c.isDigit = false

theorem Apart.tail {c : Char} {front back : List Char} (h : Apart (c :: front) back) :
    Apart front back :=
  fun hlast => h (List.mem_getLast?_cons hlast)

/-- A template is read in two parts where it is cut, unless that is inside a placeholder. -/
theorem ofChars_append {front back : List Char} (h : Apart front back) :
    ofChars (front ++ back) = ofChars front ++ ofChars back := by
  induction front using ofChars.induct with
  | case1 => rfl
  | case2 c =>
      cases back with
      | nil => rfl
      | cons d rest =>
          by_cases hc : c = '?'
          · subst hc
            obtain ⟨hstar, hdigit⟩ := h rfl d rfl
            simp [ofChars, hstar, hdigit]
          · exact ofChars_cons_of_ne hc (d :: rest)
  | case3 rest ih => simp [ofChars, ih h.tail.tail]
  | case4 d rest hstar hdigit ih => simp [ofChars, hstar, hdigit, ih h.tail.tail]
  | case5 d rest hstar hdigit ih =>
      have hrest := ih h.tail
      rw [List.cons_append] at hrest
      simp [ofChars, hstar, hdigit, hrest]
  | case6 c d rest hc ih =>
      rw [List.cons_append, ofChars_cons_of_ne hc, ofChars_cons_of_ne hc, ih h.tail,
        List.cons_append]

end TemplatePiece

variable {template front back : String} {args : List Fragment} {count : Nat}

theorem expandTemplate_eq_concat (template : String) (args : List Fragment) :
    expandTemplate template args =
      .concat ((callParts template args.length).map (CallPart.fill args)) := by
  unfold expandTemplate callParts
  induction TemplatePiece.ofChars template.toList with
  | nil => rfl
  | cons piece rest ih =>
      rw [List.foldr_cons, ih, piece.expand_eq_concat, List.flatMap_cons, List.map_append,
        Fragment.concat_append]

theorem expandTemplate_append_of_apart (h : TemplatePiece.Apart front.toList back.toList)
    (args : List Fragment) :
    expandTemplate (front ++ back) args =
      expandTemplate front args ++ expandTemplate back args := by
  simp only [expandTemplate_eq_concat, callParts]
  rw [String.toList_append, TemplatePiece.ofChars_append h, List.flatMap_append, List.map_append,
    Fragment.concat_append]

/-- Text without question marks stands for itself. -/
theorem expandTemplate_of_not_mem (h : '?' ∉ template.toList) (args : List Fragment) :
    expandTemplate template args = .ofText template := by
  have hpieces := TemplatePiece.ofChars_append_of_not_mem h []
  rw [List.append_nil, TemplatePiece.ofChars, List.append_nil] at hpieces
  have hchars (chars : List Char) :
      (chars.map TemplatePiece.char).foldr (fun piece rest => piece.expand args ++ rest) {} =
        Fragment.ofText (String.ofList chars) := by
    induction chars with
    | nil => rfl
    | cons c rest ih =>
        rw [List.map_cons, List.foldr_cons, ih]
        refine Fragment.ext ?_ rfl
        rw [← String.toList_inj]
        simp [TemplatePiece.expand]
  rw [expandTemplate, hpieces, hchars, String.ofList_toList]

/-- A question mark and the character that makes it a placeholder. -/
def placeholder (c : Char) : String := String.ofList ['?', c]

/-- A placeholder is read by itself, whatever stands around it. -/
theorem expandTemplate_around (front back : String) {c : Char} (hc : c ≠ '?')
    (args : List Fragment) :
    expandTemplate (front ++ placeholder c ++ back) args =
      expandTemplate front args ++ expandTemplate (placeholder c) args ++
        expandTemplate back args := by
  have hfront : TemplatePiece.Apart front.toList (placeholder c).toList := by
    intro _ d hd
    rw [placeholder, String.toList_ofList] at hd
    cases hd
    decide
  have hback : TemplatePiece.Apart (front ++ placeholder c).toList back.toList := by
    intro hlast
    rw [String.toList_append, placeholder, String.toList_ofList] at hlast
    exact absurd (by simpa using hlast) hc
  rw [expandTemplate_append_of_apart hback, expandTemplate_append_of_apart hfront]

theorem ne_of_isDigit {digit c : Char} (hdigit : digit.isDigit = true) (hc : c.isDigit = false) :
    digit ≠ c := by
  rintro rfl
  rw [hc] at hdigit
  cases hdigit

theorem expandTemplate_placeholder {digit : Char} (hdigit : digit.isDigit = true)
    (args : List Fragment) :
    expandTemplate (placeholder digit) args =
      (TemplatePiece.argument (Decimal.digitValue digit)).expand args := by
  have hstar : digit ≠ '*' := ne_of_isDigit hdigit rfl
  simp [expandTemplate, placeholder, TemplatePiece.ofChars, hstar, hdigit]

theorem expand_argument_of_beyond {position : Nat} (h : position = 0 ∨ args.length < position) :
    (TemplatePiece.argument position).expand args = {} := by
  rcases h with rfl | h
  · rfl
  · obtain ⟨n, rfl⟩ := Nat.exists_eq_succ_of_ne_zero (Nat.ne_zero_of_lt h)
    rw [TemplatePiece.expand, List.getElem?_eq_none (Nat.le_of_lt_succ h)]
    rfl

theorem expand_argument {position : Nat} {a : Fragment} (hposition : 0 < position)
    (ha : args[position - 1]? = some a) : (TemplatePiece.argument position).expand args = a := by
  obtain ⟨n, rfl⟩ := Nat.exists_eq_succ_of_ne_zero (Nat.ne_zero_of_lt hposition)
  rw [Nat.succ_sub_one] at ha
  rw [TemplatePiece.expand, ha]
  rfl

theorem expandTemplate_star (args : List Fragment) :
    expandTemplate (placeholder '*') args = .joined ", " args := by
  simp [expandTemplate, placeholder, TemplatePiece.ofChars, TemplatePiece.expand]

/-- The parameters of a call are those of the arguments in it. -/
theorem parameters_concat_fill (args : List Fragment) (parts : List CallPart) :
    (Fragment.concat (parts.map (CallPart.fill args))).parameters =
      ((parts.filterMap CallPart.place?).map fun i => (args[i]?.getD {}).parameters).sum := by
  induction parts with
  | nil => rfl
  | cons part rest ih =>
      rw [List.map_cons, Fragment.concat_cons, Fragment.parameters_append, ih]
      cases part with
      | own text => exact Nat.zero_add _
      | argument place => rfl

theorem filterMap_place?_intersperse (separator : String) (places : List Nat) :
    ((places.map CallPart.argument).intersperse (.own separator)).filterMap CallPart.place? =
      places := by
  induction places with
  | nil => rfl
  | cons i rest ih =>
      cases rest with
      | nil => rfl
      | cons j rest => exact congrArg (i :: ·) ih

/-- Only a question mark selects something. -/
theorem flatMap_selectedBy_cons {c : Char} (hc : c ≠ '?') (count : Nat) (chars : List Char) :
    ((c :: chars).zip chars).flatMap (selectedBy count) =
      (chars.zip chars.tail).flatMap (selectedBy count) := by
  cases chars with
  | nil => rfl
  | cons d rest => simp [selectedBy, hc]

theorem selectedBy_digit {digit : Char} (hdigit : digit.isDigit = true) (count : Nat) :
    selectedBy count ('?', digit) =
      ((TemplatePiece.argument (Decimal.digitValue digit)).parts count).filterMap
        CallPart.place? := by
  have hstar : digit ≠ '*' := ne_of_isDigit hdigit rfl
  cases hvalue : Decimal.digitValue digit with
  | zero => simp [selectedBy, TemplatePiece.parts, hstar, hvalue]
  | succ n =>
      have hselected : selectedBy count ('?', digit) = if n < count then [n] else [] := by
        simp only [selectedBy, Prod.mk.injEq, hstar, and_false, if_false, hdigit, hvalue,
          Nat.add_one_le_iff, Nat.succ_pos, true_and, Nat.add_sub_cancel]
      rw [hselected, TemplatePiece.parts]
      split <;> rfl

/-- A question mark and what follows it select what the placeholder stands for. -/
theorem filterMap_place?_callParts (template : String) (count : Nat) :
    (callParts template count).filterMap CallPart.place? = selectedPlaces template count := by
  rw [callParts, selectedPlaces, List.filterMap_flatMap]
  induction template.toList using TemplatePiece.ofChars.induct with
  | case1 => rfl
  | case2 c => rfl
  | case3 rest ih =>
      rw [List.tail_cons, List.zip_cons_cons, List.flatMap_cons,
        flatMap_selectedBy_cons (by decide), ← ih]
      simp [TemplatePiece.ofChars, TemplatePiece.parts, selectedBy, filterMap_place?_intersperse]
  | case4 d rest hstar hdigit ih =>
      have hmark : d ≠ '?' := ne_of_isDigit hdigit rfl
      rw [List.tail_cons, List.zip_cons_cons, List.flatMap_cons, flatMap_selectedBy_cons hmark,
        ← ih, selectedBy_digit hdigit]
      simp [TemplatePiece.ofChars, hstar, hdigit]
  | case5 d rest hstar hdigit ih =>
      rw [List.tail_cons] at ih
      rw [List.tail_cons, List.zip_cons_cons, List.flatMap_cons, ← ih]
      simp [TemplatePiece.ofChars, TemplatePiece.parts, selectedBy, hstar, hdigit, CallPart.place?]
  | case6 c d rest hc ih =>
      rw [List.tail_cons, flatMap_selectedBy_cons hc, ← ih, TemplatePiece.ofChars_cons_of_ne hc]
      rfl

theorem lt_of_mem_selectedPlaces {i : Nat} (h : i ∈ selectedPlaces template count) : i < count := by
  obtain ⟨pair, -, hi⟩ := List.mem_flatMap.mp h
  unfold selectedBy at hi
  split at hi
  · exact List.mem_range.mp hi
  · split at hi
    next hselected =>
      rw [List.mem_singleton.mp hi]
      omega
    next => cases hi

/-- The parts of a call depend on the template and on the number of arguments, and the arguments
are put into them as they are. The template can be cut wherever it does not end in a question
mark. The parameters are those of the arguments that neighbouring characters select, and a
placeholder without an argument stands for nothing. -/
theorem templates_substitute_arguments (template : String) (args : List Fragment) :
    expandTemplate template args =
        .concat ((callParts template args.length).map (CallPart.fill args)) ∧
      (callParts template args.length).filterMap CallPart.place? =
        selectedPlaces template args.length ∧
      (∀ i ∈ selectedPlaces template args.length, i < args.length) ∧
      (expandTemplate template args).parameters =
        ((selectedPlaces template args.length).map fun i => (args[i]?.getD {}).parameters).sum ∧
      (∀ back, template.toList.getLast? ≠ some '?' →
        expandTemplate (template ++ back) args =
          expandTemplate template args ++ expandTemplate back args) ∧
      (∀ back digit, digit.isDigit = true →
        Decimal.digitValue digit = 0 ∨ args.length < Decimal.digitValue digit →
        expandTemplate (template ++ placeholder digit ++ back) args =
          expandTemplate template args ++ expandTemplate back args) ∧
      (∀ back digit a, digit.isDigit = true → 0 < Decimal.digitValue digit →
        args[Decimal.digitValue digit - 1]? = some a →
        expandTemplate (template ++ placeholder digit ++ back) args =
          expandTemplate template args ++ a ++ expandTemplate back args) ∧
      ∀ back, expandTemplate (template ++ placeholder '*' ++ back) args =
        expandTemplate template args ++ .joined ", " args ++ expandTemplate back args := by
  have hmark {digit : Char} (hdigit : digit.isDigit = true) : digit ≠ '?' :=
    ne_of_isDigit hdigit rfl
  refine ⟨expandTemplate_eq_concat template args, filterMap_place?_callParts template args.length,
    fun i => lt_of_mem_selectedPlaces, ?_, ?_, ?_, ?_, ?_⟩
  · rw [expandTemplate_eq_concat, parameters_concat_fill, filterMap_place?_callParts]
  · intro back hlast
    exact expandTemplate_append_of_apart (fun h => absurd h hlast) args
  · intro back digit hdigit hbeyond
    rw [expandTemplate_around template back (hmark hdigit), expandTemplate_placeholder hdigit,
      expand_argument_of_beyond hbeyond, Fragment.append_empty]
  · intro back digit a hdigit hvalue ha
    rw [expandTemplate_around template back (hmark hdigit), expandTemplate_placeholder hdigit,
      expand_argument hvalue ha]
  · intro back
    rw [expandTemplate_around template back (by decide), expandTemplate_star]

/-- A question mark of the template's own, an argument that looks like a placeholder, a digit
behind its place and a place without an argument. -/
theorem templates_substitute_arguments_lookalike :
    let args : List Fragment := [⟨"?2", 1⟩, ⟨"x", 0⟩]
    expandTemplate ("f(?" ++ placeholder '1' ++ "0)") args =
        expandTemplate "f(?" args ++ ⟨"?2", 1⟩ ++ expandTemplate "0)" args ∧
      expandTemplate ("f(?" ++ placeholder '3' ++ "0)") args =
        expandTemplate "f(?" args ++ expandTemplate "0)" args ∧
      expandTemplate ("f(?1, " ++ "?*)") args =
        expandTemplate "f(?1, " args ++ expandTemplate "?*)" args ∧
      (expandTemplate "f(?1, ?*)" args).parameters = 2 ∧ 1 < args.length := by
  intro args
  obtain ⟨-, -, -, -, -, hbeyond, harg, -⟩ := templates_substitute_arguments "f(?" args
  obtain ⟨-, -, -, -, happend, -⟩ := templates_substitute_arguments "f(?1, " args
  obtain ⟨-, -, hplaces, hparameters, -⟩ := templates_substitute_arguments "f(?1, ?*)" args
  exact ⟨harg "0)" '1' _ rfl (by decide) rfl, hbeyond "0)" '3' rfl (by decide),
    happend "?*)" (by decide), hparameters.trans rfl, hplaces 1 (by decide)⟩

end SqlBackend
