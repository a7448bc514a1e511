import Mathlib.Data.List.DropRight
import TemplateFill.Text.Blank

/-!
# Blanks at the ends of a text

Trimming takes blanks away at either end, in any order. What has been trimmed is not trimmed any
further, and nothing is taken away behind the last or before the first character that is no blank.
-/

namespace TemplateFill.Text

variable {c : Char}

theorem trimEnd_eq_rdropWhile (s : List Char) : trimEnd s = s.rdropWhile isBlank := rfl

theorem trimEnd_trimEnd (s : List Char) : trimEnd (trimEnd s) = trimEnd s :=
  List.rdropWhile_idempotent isBlank s

theorem trimStart_cons_of_not_blank (noBlank : isBlank c = false) (s : List Char) :
    trimStart (c :: s) = c :: s := by
  rw [trimStart, List.dropWhile_cons_of_neg (by simp [noBlank])]

theorem trimEnd_concat_of_blank (blank : isBlank c) (s : List Char) :
    trimEnd (s ++ [c]) = trimEnd s := by
  rw [trimEnd_eq_rdropWhile, List.rdropWhile_concat_pos _ _ _ blank]
  rfl

theorem trimEnd_concat_of_not_blank (noBlank : isBlank c = false) (s : List Char) :
    trimEnd (s ++ [c]) = s ++ [c] := by
  rw [trimEnd_eq_rdropWhile, List.rdropWhile_concat_neg _ _ _ (by simp [noBlank])]

/-- A character goes if it is a blank with nothing but blanks behind it. -/
theorem trimEnd_cons (c : Char) (s : List Char) :
    trimEnd (c :: s) = if isBlank c && (trimEnd s).isEmpty then [] else c :: trimEnd s := by
  induction s using List.reverseRecOn with
  | nil =>
    rw [trimEnd_eq_rdropWhile, List.rdropWhile_singleton]
    cases isBlank c <;> rfl
  | append_singleton s d ih =>
    cases blank : isBlank d with
    | true =>
      rw [← List.cons_append, trimEnd_concat_of_blank blank, trimEnd_concat_of_blank blank]
      exact ih
    | false =>
      rw [← List.cons_append, trimEnd_concat_of_not_blank blank,
        trimEnd_concat_of_not_blank blank]
      simp

theorem trimEnd_cons_of_not_blank (noBlank : isBlank c = false) (s : List Char) :
    trimEnd (c :: s) = c :: trimEnd s := by
  rw [trimEnd_cons, noBlank]
  rfl

/-- The two ends are trimmed independently of each other. -/
theorem trimStart_trimEnd (s : List Char) : trimStart (trimEnd s) = trim s := by
  induction s with
  | nil => rfl
  | cons c s ih =>
    cases blank : isBlank c with
    | false =>
      rw [trim, trimStart_cons_of_not_blank blank, trimEnd_cons_of_not_blank blank,
        trimStart_cons_of_not_blank blank]
    | true =>
      have shorter : trim (c :: s) = trim s := by
        rw [trim, trimStart, List.dropWhile_cons_of_pos blank]
        rfl
      rw [shorter, ← ih, trimEnd_cons, blank, Bool.true_and]
      split
      · rename_i isEmpty
        rw [List.isEmpty_iff.mp isEmpty]
      · rw [trimStart, List.dropWhile_cons_of_pos blank]
        rfl

theorem trim_trimEnd (s : List Char) : trim (trimEnd s) = trim s := by
  rw [trim, trimStart_trimEnd, trim, trimEnd_trimEnd]

theorem trim_trim (s : List Char) : trim (trim s) = trim s := by
  have again : trimStart (trimStart s) = trimStart s := List.dropWhile_idempotent isBlank s
  calc trim (trim s) = trim (trimStart s) := trim_trimEnd (trimStart s)
    _ = trim s := by rw [trim, again, trim]

theorem trim_cons_of_blank (blank : isBlank c) (s : List Char) : trim (c :: s) = trim s := by
  rw [trim, trimStart, List.dropWhile_cons_of_pos blank]
  rfl

theorem trim_concat_of_blank (blank : isBlank c) (s : List Char) : trim (s ++ [c]) = trim s := by
  rw [← trim_trimEnd, trimEnd_concat_of_blank blank, trim_trimEnd]

theorem trim_cons_of_not_blank (noBlank : isBlank c = false) (s : List Char) :
    trim (c :: s) = c :: trimEnd s := by
  rw [trim, trimStart_cons_of_not_blank noBlank, trimEnd_cons_of_not_blank noBlank]

/-- A text without blanks at its ends stays as it is. -/
theorem trim_eq_self {s : List Char} (first : ∀ c ∈ s.head?, isBlank c = false)
    (last : ∀ c ∈ s.getLast?, isBlank c = false) : trim s = s := by
  cases s with
  | nil => rfl
  | cons c s =>
    have noBlank : isBlank c = false := first c rfl
    rw [trim, trimStart_cons_of_not_blank noBlank, trimEnd_eq_rdropWhile,
      List.rdropWhile_eq_self_iff]
    intro nonempty
    rw [last _ (List.getLast?_eq_getLast_of_ne_nil nonempty)]
    exact Bool.false_ne_true

/-! ### Letters -/

/-- What is left of a text if all of its blanks are taken away. -/
def letters (s : List Char) : List Char := s.filter (!isBlank ·)

@[simp] theorem letters_append (s t : List Char) : letters (s ++ t) = letters s ++ letters t :=
  List.filter_append ..

theorem letters_eq_nil_iff {s : List Char} : letters s = [] ↔ s.all isBlank := by
  simp [letters]

theorem letters_flatMap {α : Type} (f : α → List Char) (xs : List α) :
    letters (xs.flatMap f) = xs.flatMap fun x => letters (f x) :=
  List.filter_flatMap

theorem letters_trimStart (s : List Char) : letters (trimStart s) = letters s := by
  induction s with
  | nil => rfl
  | cons c s ih =>
    cases blank : isBlank c with
    | false => rw [trimStart_cons_of_not_blank blank]
    | true =>
      rw [trimStart, List.dropWhile_cons_of_pos blank]
      exact ih.trans (List.filter_cons_of_neg (by simp [blank])).symm

/-- Trimming takes no letter away. -/
theorem letters_trim (s : List Char) : letters (trim s) = letters s := by
  have trimEnd_eq (s : List Char) : trimEnd s = (trimStart s.reverse).reverse := rfl
  rw [trim, trimEnd_eq, letters, List.filter_reverse]
  calc (letters (trimStart (trimStart s).reverse)).reverse
      = (letters (trimStart s).reverse).reverse := by rw [letters_trimStart]
    _ = letters (trimStart s) := by rw [letters, List.filter_reverse, List.reverse_reverse]; rfl
    _ = letters s := letters_trimStart s

end TemplateFill.Text
