import Mathlib.Data.List.Forall2
import SqlBackend.Text.Ascii

/-! # Letters in lower case

Only the capital letters of ASCII have another character as their lower case, and that
is a letter again. So no character becomes one that is not a letter, and every letter
stands for itself and for one that it is not equal to. A text becomes a word in lower case
exactly if it is that word in any case of its letters.
-/

namespace SqlBackend.Text

theorem isUpper_iff {c : Char} : c.isUpper = true ↔ 65 ≤ c.toNat ∧ c.toNat ≤ 90 :=
  decide_eq_true_iff

theorem isLower_iff {c : Char} : c.isLower = true ↔ 97 ≤ c.toNat ∧ c.toNat ≤ 122 :=
  Bool.and_eq_true_iff.trans (and_congr decide_eq_true_iff decide_eq_true_iff)

theorem isAlpha_iff {c : Char} :
    c.isAlpha = true ↔ (65 ≤ c.toNat ∧ c.toNat ≤ 90) ∨ (97 ≤ c.toNat ∧ c.toNat ≤ 122) :=
  Bool.or_eq_true_iff.trans (or_congr isUpper_iff isLower_iff)

/-- The small letters are in the order of the capital ones, 32 places behind them. -/
theorem toNat_toLower (c : Char) :
    c.toLower.toNat = if 65 ≤ c.toNat ∧ c.toNat ≤ 90 then c.toNat + 32 else c.toNat := by
  unfold Char.toLower
  split
  next h =>
    have hrange : 65 ≤ c.toNat ∧ c.toNat ≤ 90 := h
    rw [if_pos hrange, ← Char.toNat_val, UInt32.toNat_add, Char.toNat_val]
    exact Nat.mod_eq_of_lt (by simp; omega)
  next h =>
    have hrange : ¬(65 ≤ c.toNat ∧ c.toNat ≤ 90) := h
    rw [if_neg hrange]

theorem toNat_toUpper (c : Char) :
    c.toUpper.toNat = if 97 ≤ c.toNat ∧ c.toNat ≤ 122 then c.toNat - 32 else c.toNat := by
  unfold Char.toUpper
  split
  next h =>
    have hrange : 97 ≤ c.toNat ∧ c.toNat ≤ 122 := h
    rw [if_pos hrange, ← Char.toNat_val, UInt32.toNat_add, Char.toNat_val]
    simp
    omega
  next h =>
    have hrange : ¬(97 ≤ c.toNat ∧ c.toNat ≤ 122) := h
    rw [if_neg hrange]

theorem toLower_eq_self_iff {c : Char} : c.toLower = c ↔ c.isUpper = false := by
  rw [← Char.toNat_inj, toNat_toLower, ← Bool.not_eq_true, isUpper_iff]
  split <;> omega

/-- Nothing else becomes a character that is no letter. -/
theorem toLower_eq_iff {e : Char} (he : e.isAlpha = false) (c : Char) : c.toLower = e ↔ c = e := by
  rw [← Bool.not_eq_true, isAlpha_iff] at he
  rw [← Char.toNat_inj, ← Char.toNat_inj, toNat_toLower]
  split <;> omega

/-- A capital letter is lost in lower case, and a small one is there for its capital too. -/
theorem exists_toLower_of_isAlpha {e : Char} (he : e.isAlpha = true) :
    ∃ c : Char, ¬(c.toLower = e ↔ c = e) := by
  rw [isAlpha_iff] at he
  refine ⟨e.toUpper, ?_⟩
  rw [← Char.toNat_inj, ← Char.toNat_inj, toNat_toLower, toNat_toUpper]
  split_ifs <;> omega

/-- A text is in lower case if it has no capital letters. -/
theorem lower_eq_self_iff {text : String} :
    lower text = text ↔ ∀ c ∈ text.toList, c.isUpper = false := by
  have hmap : text.toList.map Char.toLower = text.toList.map id ↔
      ∀ c ∈ text.toList, c.isUpper = false := by
    rw [List.map_inj_left]
    exact forall₂_congr fun _ _ => toLower_eq_self_iff
  rwa [List.map_id, ← toList_lower, String.toList_inj] at hmap

/-- A character that is no capital is the lower case of itself and of its capital. -/
theorem toLower_eq_iff_of_isUpper {w : Char} (hw : w.isUpper = false) (c : Char) :
    c.toLower = w ↔ c = w ∨ c = w.toUpper := by
  rw [← Bool.not_eq_true, isUpper_iff] at hw
  simp only [← Char.toNat_inj, toNat_toLower, toNat_toUpper]
  split_ifs <;> omega

/-- The text is the word with each of its letters in either case. -/
def InAnyCase (word text : String) : Prop :=
  List.Forall₂ (fun w c => c = w ∨ c = w.toUpper) word.toList text.toList

theorem map_toLower_eq_iff {word chars : List Char} (hword : ∀ w ∈ word, w.isUpper = false) :
    chars.map Char.toLower = word ↔
      List.Forall₂ (fun w c => c = w ∨ c = w.toUpper) word chars := by
  induction word generalizing chars with
  | nil => rw [List.map_eq_nil_iff, List.forall₂_nil_left_iff]
  | cons w rest ih =>
      obtain ⟨hw, hrest⟩ := List.forall_mem_cons.mp hword
      cases chars with
      | nil => exact iff_of_false nofun nofun
      | cons c chars =>
          rw [List.map_cons, List.cons.injEq, List.forall₂_cons, ih hrest,
            toLower_eq_iff_of_isUpper hw]

theorem lower_eq_iff {word text : String} (hword : ∀ w ∈ word.toList, w.isUpper = false) :
    lower text = word ↔ InAnyCase word text := by
  rw [← String.toList_inj, toList_lower, map_toLower_eq_iff hword, InAnyCase]

end SqlBackend.Text
