import Mathlib.Data.List.Forall2
import SqlBackend.Proofs.Text.Quotation

/-! # Reading calls

An expression of calls is made of words, string literals and functions of such expressions.
It is read from its first character on, and reading stops where the expression ends. A call
is read off its name and the texts of its arguments, whatever follows it.
-/

namespace SqlBackend

/-- An expression of calls. -/
inductive CallExpr where
  /-- A column or a placeholder. -/
  | word (text : String)
  | literal (content : String)
  | call (function : String) (args : List CallExpr)

namespace CallExpr

/-- Whether the character is part of a word. -/
def isWordChar (c : Char) : Bool :=
  !(c = '(' || c = ')' || c = ',' || c = Text.singleQuote)

mutual

/-- Reads an expression. The number bounds how often a reader may call another one. -/
def read : Nat → List Char → Option (CallExpr × List Char)
  | 0, _ => none
  | fuel + 1, chars =>
      if chars.head? = some Text.singleQuote then
        (Text.readQuotation Text.singleQuote chars).map fun read =>
          (.literal (.ofList read.1), read.2)
      else
        let word := String.ofList (chars.takeWhile isWordChar)
        match chars.dropWhile isWordChar with
        | '(' :: rest => (readArgs fuel rest).map fun read => (.call word read.1, read.2)
        | rest => if word = "" then none else some (.word word, rest)

/-- Reads the arguments of a call up to its end. -/
def readArgs : Nat → List Char → Option (List CallExpr × List Char)
  | 0, _ => none
  | fuel + 1, chars => do
      let (arg, rest) ← read fuel chars
      match rest with
      | ',' :: rest => (readArgs fuel rest).map fun read => (arg :: read.1, read.2)
      | ')' :: rest => some ([arg], rest)
      | _ => none

end

/-- Reads a text that is one expression. Every call of a reader takes a character. -/
def read? (text : String) : Option CallExpr := do
  let (e, rest) ← read text.toList.length text.toList
  if rest.isEmpty then some e else none

/-- What may follow an expression: nothing, another argument or the end of the call. -/
def Ends (rest : List Char) : Prop := ∀ c ∈ rest.head?, c = ',' ∨ c = ')'

theorem Ends.cons {c : Char} (h : c = ',' ∨ c = ')') (rest : List Char) : Ends (c :: rest) := by
  intro d hd
  rwa [← Option.mem_some.mp hd]

theorem Ends.not_isWordChar {rest : List Char} (h : Ends rest) :
    ∀ c ∈ rest.head?, isWordChar c = false := by
  intro c hc
  rcases h c hc with rfl | rfl <;> decide

/-- In front of any end the text is read as the expression. -/
def Reads (text : List Char) (e : CallExpr) : Prop :=
  ∀ fuel rest, text.length ≤ fuel → Ends rest → read fuel (text ++ rest) = some (e, rest)

theorem read?_of_reads {text : String} {e : CallExpr} (h : Reads text.toList e) :
    read? text = some e := by
  have hread := h text.toList.length [] (Nat.le_refl _) nofun
  rw [List.append_nil] at hread
  simp [read?, hread]

/-- A text that is read as one word. -/
structure IsWord (text : String) : Prop where
  nonempty : text ≠ ""
  chars : text.toList.all isWordChar = true

namespace IsWord

variable {word : String} (hword : IsWord word) {rest : List Char}
include hword

theorem length_pos : 0 < word.toList.length :=
  List.length_pos_iff.mpr (mt String.toList_eq_nil_iff.mp hword.nonempty)

theorem takeWhile_append (hrest : ∀ c ∈ rest.head?, isWordChar c = false) :
    (word.toList ++ rest).takeWhile isWordChar = word.toList := by
  rw [List.takeWhile_append_of_pos (List.all_eq_true.mp hword.chars)]
  cases rest with
  | nil => simp
  | cons c rest => simp [hrest c rfl]

theorem dropWhile_append (hrest : ∀ c ∈ rest.head?, isWordChar c = false) :
    (word.toList ++ rest).dropWhile isWordChar = rest := by
  rw [List.dropWhile_append_of_pos (List.all_eq_true.mp hword.chars)]
  cases rest with
  | nil => rfl
  | cons c rest => simp [hrest c rfl]

theorem head?_append_ne (rest : List Char) :
    (word.toList ++ rest).head? ≠ some Text.singleQuote := by
  obtain ⟨c, chars, hcons⟩ := List.exists_cons_of_length_pos hword.length_pos
  have hfirst : isWordChar c = true :=
    List.all_eq_true.mp hword.chars c (hcons ▸ List.mem_cons_self)
  rw [hcons, List.cons_append, List.head?_cons]
  intro hquote
  rw [Option.some.inj hquote] at hfirst
  exact absurd hfirst (by decide)

/-- In front of an end a word is an expression. -/
theorem reads : Reads word.toList (.word word) := by
  intro fuel rest hfuel hends
  have hstop := hends.not_isWordChar
  cases fuel with
  | zero => exact absurd hfuel (Nat.not_le.mpr hword.length_pos)
  | succ fuel =>
      rw [read, if_neg (hword.head?_append_ne rest), hword.takeWhile_append hstop,
        hword.dropWhile_append hstop, String.ofList_toList]
      dsimp only
      split
      next => exact absurd (hends '(' rfl) (by decide)
      next => rw [if_neg hword.nonempty]

/-- In front of an opening bracket it is the name of a function. -/
theorem read_call (fuel : Nat) (rest : List Char) :
    read (fuel + 1) (word.toList ++ '(' :: rest) =
      (readArgs fuel rest).map fun read => (.call word read.1, read.2) := by
  have hstop : ∀ c ∈ ('(' :: rest).head?, isWordChar c = false := by
    intro c hc
    rw [← Option.mem_some.mp hc]
    decide
  rw [read, if_neg (hword.head?_append_ne _), hword.takeWhile_append hstop,
    hword.dropWhile_append hstop, String.ofList_toList]
  rfl

end IsWord

theorem reads_literal {content : String} (h : Text.singleQuote ∉ content.toList) :
    Reads (Text.singleQuote :: content.toList ++ [Text.singleQuote]) (.literal content) := by
  intro fuel rest hfuel hends
  have hquote : rest.head? ≠ some Text.singleQuote := fun hhead =>
    absurd (hends _ hhead) (by decide)
  have hread := (Text.readQuotation_iff hquote).mpr h
  have hopening : (Text.singleQuote :: content.toList ++ Text.singleQuote :: rest).head? =
      some Text.singleQuote := rfl
  cases fuel with
  | zero => cases hfuel
  | succ fuel =>
      rw [List.append_assoc, List.singleton_append, read, if_pos hopening, hread, Option.map_some,
        String.ofList_toList]

/-- Arguments are read one after the other, with a comma between them. -/
theorem readArgs_of_reads {texts : List (List Char)} {args : List CallExpr}
    (h : List.Forall₂ Reads texts args) (hnonempty : args ≠ []) {fuel : Nat} {rest : List Char}
    (hfuel : ([','].intercalate texts).length < fuel) :
    readArgs fuel ([','].intercalate texts ++ ')' :: rest) = some (args, rest) := by
  induction h generalizing fuel with
  | nil => exact absurd rfl hnonempty
  | @cons text arg texts args harg hargs ih =>
      cases fuel with
      | zero => cases hfuel
      | succ fuel =>
          cases hargs with
          | nil =>
              rw [List.intercalate_singleton] at hfuel ⊢
              rw [readArgs, harg fuel _ (Nat.le_of_lt_succ hfuel) (.cons (.inr rfl) rest)]
              rfl
          | @cons next _ others _ hnext hothers =>
              -- A comma ends this argument, and the others are read behind it.
              rw [List.intercalate_cons_cons] at hfuel ⊢
              simp only [List.length_append, List.length_singleton] at hfuel
              have hlater : readArgs fuel ([','].intercalate (next :: others) ++ ')' :: rest) =
                  some (_, rest) := ih (List.cons_ne_nil _ _) (by omega)
              rw [List.append_assoc, List.append_assoc, List.singleton_append, readArgs,
                harg fuel _ (by omega) (.cons (.inl rfl) _)]
              simp [hlater]

/-- A call is read off its name and its arguments. -/
theorem reads_call {function : String} {texts : List (List Char)} {args : List CallExpr}
    (hfunction : IsWord function) (hargs : List.Forall₂ Reads texts args) (hnonempty : args ≠ []) :
    Reads (function.toList ++ '(' :: [','].intercalate texts ++ [')']) (.call function args) := by
  intro fuel rest hfuel hends
  simp only [List.length_append, List.length_cons, List.length_nil] at hfuel
  cases fuel with
  | zero => cases hfuel
  | succ fuel =>
      rw [List.append_assoc, List.append_assoc, List.cons_append, List.singleton_append,
        hfunction.read_call, readArgs_of_reads hargs hnonempty (by omega)]
      rfl

end CallExpr

end SqlBackend
