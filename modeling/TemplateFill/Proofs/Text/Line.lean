import TemplateFill.Text.Line
import TemplateFill.Xml.Character

/-!
# What is in the lines of a text

Cutting a text into lines takes its breaks away and nothing else. So a document can hold all lines
of a text if and only if it can hold the text.
-/

namespace TemplateFill.Text

theorem flatten_cutAt (sep : Char) (s : List Char) :
    (cutAt sep s).flatten = s.filter (· ≠ sep) := by
  induction s with
  | nil => rfl
  | cons c rest ih =>
    rw [cutAt]
    split
    · rename_i same
      rw [List.flatten_cons, List.nil_append, ih, List.filter_cons_of_neg (by simpa using same)]
    · rename_i other
      rw [List.filter_cons_of_pos (by simpa using other), ← ih]
      cases cutAt sep rest with
      | nil => rfl
      | cons piece pieces => rfl

theorem cutAt_eq_splitOn (sep : Char) (s : List Char) : cutAt sep s = s.splitOn sep := by
  induction s with
  | nil => rfl
  | cons c rest ih =>
    rw [cutAt, ih, List.splitOn, List.splitOn, List.splitOnP_cons_eq_if_modifyHead]
    simp only [beq_iff_eq]
    split
    · rfl
    · cases pieces : rest.splitOnP (· == sep) with
      | nil => exact absurd pieces (List.splitOnP_ne_nil _ _)
      | cons piece others => rfl

/-- The lines of a text with line feeds between them are the text with its breaks written as line
feeds. -/
theorem intercalate_splitLines (value : String) :
    "\n".intercalate (splitLines value) = String.ofList (normalizeBreaks value.toList) := by
  have same : String.toList ∘ String.ofList = id := funext fun s => String.toList_ofList
  rw [← String.toList_inj, String.toList_intercalate, splitLines, List.map_map, same, List.map_id,
    cutAt_eq_splitOn]
  exact (List.intercalate_splitOn '\n').trans String.toList_ofList.symm

def isBreak (c : Char) : Bool := c = '\r' || c = '\n'

/-- Every break is written as line feeds, and what is no break stays. -/
theorem filter_normalizeBreaks (s : List Char) :
    (normalizeBreaks s).filter (· ≠ '\n') = s.filter (!isBreak ·) := by
  fun_induction normalizeBreaks s with
  | case1 => rfl
  | case2 rest ih => simpa [isBreak] using ih
  | case3 rest ih => simpa [isBreak] using ih
  | case4 c rest _ _ ih =>
    by_cases isReturn : c = '\r'
    · simpa [isReturn, isBreak] using ih
    · by_cases isFeed : c = '\n'
      · simpa [isFeed, isBreak] using ih
      · simpa [isReturn, isFeed, isBreak] using ih

theorem flatten_lines (s : List Char) :
    (cutAt '\n' (normalizeBreaks s)).flatten = s.filter (!isBreak ·) := by
  rw [flatten_cutAt, filter_normalizeBreaks]

open Xml (isWritable isWritableText)

theorem isWritable_of_isBreak {c : Char} (breaks : isBreak c) : isWritable c := by
  rcases Bool.or_eq_true_iff.mp breaks with isReturn | isFeed
  · rw [of_decide_eq_true isReturn]
    rfl
  · rw [of_decide_eq_true isFeed]
    rfl

/-- A document can hold the lines of a text if and only if it can hold the text. -/
theorem isWritableText_splitLines (value : String) :
    (∀ line ∈ splitLines value, isWritableText line) ↔ isWritableText value := by
  have each : (∀ line ∈ splitLines value, isWritableText line) ↔
      ∀ c ∈ (cutAt '\n' (normalizeBreaks value.toList)).flatten, isWritable c := by
    simp only [splitLines, List.forall_mem_map, isWritableText, String.toList_ofList,
      List.all_eq_true, List.mem_flatten, forall_exists_index, and_imp]
    exact ⟨fun all c line member within => all line member c within,
      fun all line member c within => all c line member within⟩
  rw [each, flatten_lines, isWritableText, List.all_eq_true]
  refine ⟨fun all c member => ?_, fun all c member => all c (List.mem_filter.mp member).1⟩
  cases breaks : isBreak c with
  | true => exact isWritable_of_isBreak breaks
  | false => exact all c (List.mem_filter.mpr ⟨member, by rw [breaks]; rfl⟩)

end TemplateFill.Text
