import SqlBackend.Proofs.Literal.Scan

/-! # Nesting of brackets

Brackets count outside string literals only. A reader that goes through a text from
left to right has to remember two things: whether it is inside a literal, and how
many brackets are open. What a text does to the second is the same behind any
number of further open brackets, so texts can be looked at one by one and put
behind each other afterwards.
-/

namespace SqlBackend

namespace Piece

/-- Every bracket outside literals closes one that is open, and none is left open. -/
structure WellBracketed (pieces : List Piece) : Prop where
  opened : ∀ front, front <+: pieces → front.count (char ')') ≤ front.count (char '(')
  closed : pieces.count (char '(') = pieces.count (char ')')

end Piece

/-- Where a reader of brackets stands: in a literal or outside, and behind so many
brackets that are open. -/
structure Nesting where
  quoted : Bool
  depth : Nat
deriving DecidableEq, Repr

namespace Nesting

/-- Reads a character. Two quotes in a row leave and enter a literal again, so a
doubled quote needs no rule of its own. Fails at a bracket that closes nothing. -/
def step (n : Nesting) (c : Char) : Option Nesting :=
  if c = Text.singleQuote then some ⟨!n.quoted, n.depth⟩
  else if n.quoted then some n
  else if c = '(' then some ⟨false, n.depth + 1⟩
  else if c = ')' then
    match n.depth with
    | 0 => none
    | depth + 1 => some ⟨false, depth⟩
  else some n

def read (n : Nesting) (chars : List Char) : Option Nesting := chars.foldlM step n

/-- Outside literals the text leads from `a` open brackets to `b` open ones, and
never closes one of those around it. -/
def Leads (a b : Nat) (text : String) : Prop :=
  ∀ around, read ⟨false, around + a⟩ text.toList = some ⟨false, around + b⟩

/-- The text closes what it opens and nothing else. -/
abbrev Balanced (text : String) : Prop := Leads 0 0 text

/-- The characters that a reader of brackets looks at. -/
def isMark (c : Char) : Bool := c = Text.singleQuote || c = '(' || c = ')'

theorem read_cons (n : Nesting) (c : Char) (rest : List Char) :
    read n (c :: rest) = (step n c).bind fun m => read m rest := by
  rw [read, List.foldlM_cons]
  rfl

theorem read_append (n : Nesting) (a b : List Char) :
    read n (a ++ b) = (read n a).bind fun m => read m b := by
  rw [read, List.foldlM_append]
  rfl

theorem step_of_not_mark {c : Char} (h : isMark c = false) (n : Nesting) : step n c = some n := by
  simp only [isMark, Bool.or_eq_false_iff, decide_eq_false_iff_not] at h
  simp [step, h]

/-- Only quotes and brackets matter. -/
theorem read_filter (n : Nesting) (chars : List Char) :
    read n (chars.filter isMark) = read n chars := by
  induction chars generalizing n with
  | nil => rfl
  | cons c rest ih =>
      by_cases hc : isMark c = true
      · rw [List.filter_cons_of_pos hc, read_cons, read_cons]
        congr 1
        funext m
        exact ih m
      · rw [List.filter_cons_of_neg hc, read_cons,
          step_of_not_mark (Bool.not_eq_true _ ▸ hc), Option.bind_some, ih]

theorem isMark_eq_false {c : Char} (hquote : c ≠ Text.singleQuote) (hopening : c ≠ '(')
    (hclosing : c ≠ ')') : isMark c = false := by
  simp [isMark, hquote, hopening, hclosing]

/-- Brackets that are open around a text stay open. -/
theorem step_around {n m : Nesting} {c : Char} (h : step n c = some m) (around : Nat) :
    step ⟨n.quoted, around + n.depth⟩ c = some ⟨m.quoted, around + m.depth⟩ := by
  obtain ⟨quoted, depth⟩ := n
  by_cases hquote : c = Text.singleQuote
  · rw [step, if_pos hquote] at h ⊢
    cases h
    rfl
  · cases quoted with
    | true =>
        rw [step, if_neg hquote] at h ⊢
        cases h
        rfl
    | false =>
        by_cases hopening : c = '('
        · subst hopening
          cases h
          rfl
        · by_cases hclosing : c = ')'
          · subst hclosing
            cases depth with
            | zero => cases h
            | succ depth =>
                cases h
                rfl
          · have hplain := isMark_eq_false hquote hopening hclosing
            rw [step_of_not_mark hplain] at h ⊢
            cases h
            rfl

theorem read_around {n m : Nesting} {chars : List Char} (h : read n chars = some m)
    (around : Nat) :
    read ⟨n.quoted, around + n.depth⟩ chars = some ⟨m.quoted, around + m.depth⟩ := by
  induction chars generalizing n with
  | nil =>
      cases h
      rfl
  | cons c rest ih =>
      rw [read_cons] at h ⊢
      obtain ⟨k, hk, hrest⟩ := Option.bind_eq_some_iff.mp h
      rw [step_around hk, Option.bind_some]
      exact ih hrest

/-- What a text does to the brackets can be computed behind none. -/
theorem leads_of_read {a b : Nat} {text : String}
    (h : read ⟨false, a⟩ text.toList = some ⟨false, b⟩) : Leads a b text :=
  fun around => read_around h around

namespace Leads

variable {a b c : Nat} {s t : String}

theorem append (hs : Leads a b s) (ht : Leads b c t) : Leads a c (s ++ t) := by
  intro around
  rw [String.toList_append, read_append, hs around, Option.bind_some]
  exact ht around

theorem deeper (h : Leads a b s) : Leads (a + 1) (b + 1) s := by
  intro around
  have hinner := h (around + 1)
  rwa [Nat.add_right_comm, Nat.add_right_comm around 1 b] at hinner

end Leads

theorem balanced_of_forall {text : String} (h : ∀ c ∈ text.toList, isMark c = false) :
    Balanced text := by
  have hnone : text.toList.filter isMark = [] :=
    List.filter_eq_nil_iff.mpr fun c hc => by simp [h c hc]
  intro around
  rw [← read_filter, hnone]
  rfl

/-- In a literal the doubled quotes lead out of it and back. -/
theorem read_doubleMarks (depth : Nat) (content : List Char) :
    read ⟨true, depth⟩ (Text.doubleMarks Text.singleQuote content) = some ⟨true, depth⟩ := by
  induction content with
  | nil => rfl
  | cons c rest ih =>
      by_cases hc : c = Text.singleQuote
      · simp [Text.doubleMarks, hc, read_cons, step, ih]
      · simp [Text.doubleMarks, hc, read_cons, step, ih]

/-- Whatever stands in a literal, it opens and closes nothing. -/
theorem balanced_literal (content : String) : Balanced (Text.literal content) := by
  intro around
  have hquote : "'".toList = [Text.singleQuote] := rfl
  have hopen : step ⟨false, around + 0⟩ Text.singleQuote = some ⟨true, around⟩ := rfl
  simp only [Text.literal, String.toList_append, Text.toList_doubled, hquote, List.cons_append,
    List.nil_append]
  rw [read_cons, hopen, Option.bind_some, read_append, read_doubleMarks]
  rfl

end Nesting

namespace Piece

/-- Behind `a` open brackets the pieces close none that is not open and leave `b`. -/
structure Descends (a b : Nat) (pieces : List Piece) : Prop where
  opened : ∀ front, front <+: pieces → front.count (char ')') ≤ a + front.count (char '(')
  closed : a + pieces.count (char '(') = b + pieces.count (char ')')

namespace Descends

variable {a b : Nat} {pieces : List Piece}

theorem nil : Descends a a [] := by
  refine ⟨?_, rfl⟩
  intro front hfront
  rw [List.prefix_nil.mp hfront]
  exact Nat.zero_le _

/-- One more piece in front, which leads from `a` open brackets to `b`. -/
theorem cons {c : Nat} {p : Piece} (h : Descends b c pieces)
    (hstep : a + [p].count (char '(') = b + [p].count (char ')')) :
    Descends a c (p :: pieces) := by
  constructor
  · intro front hfront
    cases front with
    | nil => exact Nat.zero_le _
    | cons q front =>
        obtain ⟨rfl, hrest⟩ := List.cons_prefix_cons.mp hfront
        have hopened := h.opened front hrest
        rw [List.count_cons (l := front), List.count_cons (l := front)]
        rw [List.count_singleton, List.count_singleton] at hstep
        omega
  · have hclosed := h.closed
    rw [List.count_cons (l := pieces), List.count_cons (l := pieces)]
    rw [List.count_singleton, List.count_singleton] at hstep
    omega

theorem literal (h : Descends a b pieces) (content : List Char) :
    Descends a b (Piece.literal content :: pieces) := h.cons (by simp)

end Descends

/-- Outside literals a character moves the depth as it counts. -/
theorem exists_of_step {depth : Nat} {c : Char} {n : Nesting} (hquote : c ≠ Text.singleQuote)
    (h : Nesting.step ⟨false, depth⟩ c = some n) :
    ∃ next, n = ⟨false, next⟩ ∧
      depth + [char c].count (char '(') = next + [char c].count (char ')') := by
  by_cases hopening : c = '('
  · subst hopening
    cases h
    exact ⟨depth + 1, rfl, by simp⟩
  · by_cases hclosing : c = ')'
    · subst hclosing
      cases depth with
      | zero => cases h
      | succ depth =>
          cases h
          exact ⟨depth, rfl, by simp⟩
    · rw [Nesting.step_of_not_mark (Nesting.isMark_eq_false hquote hopening hclosing)] at h
      cases h
      exact ⟨depth, rfl, by simp [hopening, hclosing]⟩

/-- Whether a reader at that place is inside a literal. Behind a quote in a literal
it counts as outside, which a second quote puts right. -/
def Place.quoted : Place → Bool
  | .inside _ => true
  | .outside | .atQuote _ => false

/-- A reader of brackets goes through the same literals as the scanner. -/
theorem exists_scanFrom_of_read {chars : List Char} {p : Place} {a b : Nat}
    (h : Nesting.read ⟨p.quoted, a⟩ chars = some ⟨false, b⟩) :
    ∃ pieces, scanFrom p chars = some pieces ∧ Descends a b pieces := by
  induction chars generalizing p a with
  | nil =>
      cases p with
      | outside =>
          cases h
          exact ⟨[], rfl, .nil⟩
      | inside content => cases h
      | atQuote content =>
          cases h
          exact ⟨[.literal content], rfl, Descends.nil.literal content⟩
  | cons c rest ih =>
      rw [Nesting.read_cons] at h
      obtain ⟨n, hstep, hrest⟩ := Option.bind_eq_some_iff.mp h
      by_cases hquote : c = Text.singleQuote
      · -- A quote changes sides and leaves the brackets alone.
        rw [Nesting.step, if_pos hquote] at hstep
        cases hstep
        cases p with
        | outside =>
            rw [scanFrom, if_pos hquote]
            exact ih hrest
        | inside content =>
            rw [scanFrom, if_pos hquote]
            exact ih (p := .atQuote content) hrest
        | atQuote content =>
            rw [scanFrom, if_pos hquote]
            exact ih (p := .inside (content ++ [c])) hrest
      · cases p with
        | inside content =>
            rw [Nesting.step, if_neg hquote] at hstep
            cases hstep
            rw [scanFrom, if_neg hquote]
            exact ih (p := .inside (content ++ [c])) hrest
        | outside =>
            obtain ⟨next, rfl, hcount⟩ := exists_of_step hquote hstep
            obtain ⟨pieces, hscan, hdescends⟩ := ih (p := .outside) hrest
            refine ⟨char c :: pieces, ?_, hdescends.cons hcount⟩
            rw [scanFrom, if_neg hquote, hscan, Option.map_some]
        | atQuote content =>
            obtain ⟨next, rfl, hcount⟩ := exists_of_step hquote hstep
            obtain ⟨pieces, hscan, hdescends⟩ := ih (p := .outside) hrest
            refine ⟨.literal content :: char c :: pieces, ?_, (hdescends.cons hcount).literal content⟩
            rw [scanFrom, if_neg hquote, hscan, Option.map_some]

/-- The pieces of a balanced text are well bracketed. -/
theorem exists_scan_of_balanced {text : String} (h : Nesting.Balanced text) :
    ∃ pieces, scan text = some pieces ∧ WellBracketed pieces := by
  obtain ⟨pieces, hscan, hdescends⟩ := exists_scanFrom_of_read (p := .outside) (h 0)
  refine ⟨pieces, hscan, ?_, ?_⟩
  · intro front hfront
    simpa using hdescends.opened front hfront
  · simpa using hdescends.closed

end Piece

end SqlBackend
