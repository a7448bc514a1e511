import TemplateFill.Proofs.Text.Line

/-!
# Lines with breaks between them

Lines that are put together with breaks between them are found again when the text is cut, whichever
convention writes the breaks. In the lines of any text no part of a break is left.

A break of two characters holds the breaks of one. That two breaks of one convention are not taken
for another one, even with nothing between them, is a fact about what may follow a break.
-/

namespace TemplateFill.Text

/-- The conventions for the break between two lines. -/
inductive LineBreak where
  | feed
  | returnFeed
  | feedReturn
  | carriageReturn
  deriving Repr, DecidableEq

namespace LineBreak

def chars : LineBreak → List Char
  | .feed => ['\n']
  | .returnFeed => ['\r', '\n']
  | .feedReturn => ['\n', '\r']
  | .carriageReturn => ['\r']

def text (lineBreak : LineBreak) : String := String.ofList lineBreak.chars

end LineBreak

variable {c : Char} {s rest : List Char} {lines : List (List Char)}

theorem noBreak_iff : isBreak c = false ↔ c ≠ '\r' ∧ c ≠ '\n' := by
  rw [isBreak, Bool.or_eq_false_iff, decide_eq_false_iff_not, decide_eq_false_iff_not]

theorem normalizeBreaks_cons (noBreak : isBreak c = false) :
    normalizeBreaks (c :: rest) = c :: normalizeBreaks rest := by
  obtain ⟨noReturn, noFeed⟩ := noBreak_iff.mp noBreak
  rw [normalizeBreaks, if_neg noReturn]
  · intro _ isReturn _
    exact noReturn isReturn
  · intro _ isFeed _
    exact noFeed isFeed

theorem normalizeBreaks_append (unbroken : ∀ c ∈ s, isBreak c = false) :
    normalizeBreaks (s ++ rest) = s ++ normalizeBreaks rest := by
  induction s with
  | nil => rfl
  | cons c s ih =>
    obtain ⟨first, others⟩ := List.forall_mem_cons.mp unbroken
    rw [List.cons_append, normalizeBreaks_cons first, ih others, List.cons_append]

/-- A break is written as one line feed if the next character belongs to no break or begins another
one of the same convention. -/
theorem normalizeBreaks_break (lineBreak : LineBreak)
    (next : ∀ c ∈ rest.head?, isBreak c → some c = lineBreak.chars.head?) :
    normalizeBreaks (lineBreak.chars ++ rest) = '\n' :: normalizeBreaks rest := by
  cases lineBreak with
  | returnFeed => rfl
  | feedReturn => rfl
  | feed =>
    change normalizeBreaks ('\n' :: rest) = _
    rw [normalizeBreaks, if_neg (by decide)]
    · intro _ isReturn _
      exact absurd isReturn (by decide)
    · rintro after - rfl
      exact absurd (next '\r' rfl rfl) (by decide)
  | carriageReturn =>
    change normalizeBreaks ('\r' :: rest) = _
    rw [normalizeBreaks, if_pos rfl]
    · rintro after - rfl
      exact absurd (next '\n' rfl rfl) (by decide)
    · intro _ isFeed _
      exact absurd isFeed (by decide)

/-- What begins with a break, where lines without breaks are put together, begins with the one that
is put between them. -/
theorem head_intercalate (lineBreak : LineBreak) (unbroken : ∀ s ∈ lines, ∀ c ∈ s, isBreak c = false) :
    ∀ c ∈ (lineBreak.chars.intercalate lines).head?,
      isBreak c → some c = lineBreak.chars.head? := by
  intro c isHead breaks
  match lines with
  | [] => cases isHead
  | [line] =>
    rw [List.intercalate_singleton] at isHead
    have noBreak := unbroken line List.mem_cons_self c (List.mem_of_head? isHead)
    rw [breaks] at noBreak
    cases noBreak
  | [] :: line :: rest =>
    rw [List.intercalate_cons_cons, List.nil_append] at isHead
    cases lineBreak <;> exact isHead.symm
  | (first :: s) :: line :: rest =>
    rw [List.intercalate_cons_cons] at isHead
    cases isHead
    have noBreak := unbroken (c :: s) List.mem_cons_self c List.mem_cons_self
    rw [breaks] at noBreak
    cases noBreak

theorem normalizeBreaks_intercalate (lineBreak : LineBreak)
    (unbroken : ∀ s ∈ lines, ∀ c ∈ s, isBreak c = false) :
    normalizeBreaks (lineBreak.chars.intercalate lines) = ['\n'].intercalate lines := by
  induction lines with
  | nil => rfl
  | cons line rest ih =>
    obtain ⟨first, others⟩ := List.forall_mem_cons.mp unbroken
    by_cases last : rest = []
    · rw [last, List.intercalate_singleton, List.intercalate_singleton]
      have whole : normalizeBreaks (line ++ []) = line ++ [] := normalizeBreaks_append first
      rwa [List.append_nil] at whole
    · rw [List.intercalate_cons_of_ne_nil last, List.intercalate_cons_of_ne_nil last,
        List.append_assoc, normalizeBreaks_append first,
        normalizeBreaks_break lineBreak (head_intercalate lineBreak others), ih others,
        List.append_assoc]
      rfl

/-! ### Whole texts -/

/-- Lines without breaks are found again in the text that they make with the breaks of any convention
between them. -/
theorem splitLines_intercalate (lineBreak : LineBreak) {lines : List String}
    (nonempty : lines ≠ []) (unbroken : ∀ line ∈ lines, ∀ c ∈ line.toList, isBreak c = false) :
    splitLines (lineBreak.text.intercalate lines) = lines := by
  have apart : ∀ s ∈ lines.map String.toList, '\n' ∉ s := by
    intro s member within
    obtain ⟨line, isLine, rfl⟩ := List.mem_map.mp member
    exact absurd (unbroken line isLine '\n' within) (by decide)
  have same : String.ofList ∘ String.toList = id := funext fun line => String.ofList_toList
  rw [splitLines, String.toList_intercalate, LineBreak.text, String.toList_ofList,
    normalizeBreaks_intercalate lineBreak (by simpa using unbroken), cutAt_eq_splitOn,
    List.splitOn_intercalate '\n' apart (by simpa using nonempty), List.map_map, same, List.map_id]

variable (value : String)

theorem noBreak_of_mem_splitLines :
    ∀ line ∈ splitLines value, ∀ c ∈ line.toList, isBreak c = false := by
  intro line member c within
  obtain ⟨s, isPiece, rfl⟩ := List.mem_map.mp member
  rw [String.toList_ofList] at within
  have inFlat := List.mem_flatten.mpr ⟨s, isPiece, within⟩
  rw [flatten_lines, List.mem_filter, Bool.not_eq_true'] at inFlat
  exact inFlat.2

theorem join_splitLines :
    String.join (splitLines value) = String.ofList (value.toList.filter (!isBreak ·)) := by
  have same : String.toList ∘ String.ofList = id := funext fun s => String.toList_ofList
  rw [← String.toList_inj, String.toList_join, String.toList_ofList, splitLines, List.flatMap_def,
    List.map_map, same, List.map_id, flatten_lines]

/-- Cutting into lines undoes putting lines together, in every convention for their breaks. It leaves
no part of a break in the lines of any text, and the lines, one after the other, are the text
without its breaks. -/
theorem splitLines_undoes_breaks :
    (∀ (lineBreak : LineBreak) (lines : List String), lines ≠ [] →
      (∀ line ∈ lines, ∀ c ∈ line.toList, isBreak c = false) →
        splitLines (lineBreak.text.intercalate lines) = lines) ∧
    ∀ value : String,
      (∀ line ∈ splitLines value, ∀ c ∈ line.toList, isBreak c = false) ∧
      String.join (splitLines value) = String.ofList (value.toList.filter (!isBreak ·)) :=
  ⟨fun lineBreak _ nonempty unbroken => splitLines_intercalate lineBreak nonempty unbroken,
    fun value => ⟨noBreak_of_mem_splitLines value, join_splitLines value⟩⟩

/-- Empty lines at both ends and between two breaks are found again. -/
theorem splitLines_undoes_breaks_of_empty :
    (["", "a", "", ""] ≠ [] ∧ ∀ line ∈ ["", "a", "", ""], ∀ c ∈ line.toList, isBreak c = false) ∧
    splitLines (LineBreak.feedReturn.text.intercalate ["", "a", "", ""]) = ["", "a", "", ""] := by
  have unbroken : ∀ line ∈ ["", "a", "", ""], ∀ c ∈ line.toList, isBreak c = false := by
    simp [isBreak]
  exact ⟨⟨by decide, unbroken⟩,
    splitLines_undoes_breaks.1 .feedReturn ["", "a", "", ""] (by decide) unbroken⟩

end TemplateFill.Text
