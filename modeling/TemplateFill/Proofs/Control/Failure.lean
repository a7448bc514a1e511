import TemplateFill.Proofs.Control.LastWrite
import TemplateFill.Proofs.Text.Line

/-!
# A text that is not written

A plain text that is refused leaves its control alone. A text that breaks does not: the content
area is cleared before it is written into, and a text that no document can hold stops the writing
after that.
-/

namespace TemplateFill.Control

open Xml

variable {node content area : Node} {lines : List String} {fault : Option Fault}

/-- The lines of a value can be written if and only if the value can. -/
theorem faultOf_segments (replaceLineBreaks : Bool) (value : String) :
    faultOf (segments replaceLineBreaks value) = none ↔ isWritableText value := by
  rw [faultOf_eq_none_iff, segments]
  split
  · exact Text.isWritableText_splitLines value
  · exact List.forall_mem_singleton

/-- A value that can be written breaks nothing, and any other is told to be unwritable. -/
theorem faultOf_segments_of_unwritable {replaceLineBreaks : Bool} {value : String}
    (unwritable : ¬ isWritableText value) :
    faultOf (segments replaceLineBreaks value) = some .unwritableText := by
  have broken := mt (faultOf_segments replaceLineBreaks value).mp unwritable
  rw [faultOf] at broken ⊢
  split
  · rename_i all
    exact absurd (if_pos all) broken
  · rfl

/-! ### Areas that take a text -/

/-- An area has a place for a text: there is a run, or a paragraph that can get one. -/
def HasPlace (content : Node) : Prop :=
  content.named Word.run ≠ [] ∨ content.named Word.paragraph ≠ []

theorem named_keepFirst_eq_nil_iff (isArea : content.isNamed Word.controlContent) :
    (content.keepFirst Word.run false).1.named Word.run = [] ↔ content.named Word.run = [] := by
  have other : content.isNamed Word.run = false := Node.isNamed_apart (by decide) _ isArea
  have length := Node.length_named_keepFirst other
  rw [← List.length_eq_zero_iff, ← List.length_eq_zero_iff, length]
  omega

theorem writeArea_eq_none_iff (isArea : content.isNamed Word.controlContent) :
    writeArea lines content = none ↔ ¬ HasPlace content := by
  rw [HasPlace, not_or, not_not, not_not, ← named_keepFirst_eq_nil_iff isArea, writeArea]
  cases (content.keepFirst Word.run false).1.named Word.run with
  | cons run rest => simp
  | nil => simp

theorem writeArea_fault (isWritten : writeArea lines content = some (area, fault)) :
    fault = faultOf lines := by
  rw [writeArea] at isWritten
  split at isWritten
  · cases isWritten
    exact writeRun_fault lines _
  · split at isWritten
    · cases isWritten
    · cases isWritten
      exact writeRun_fault lines _

/-! ### Outcomes -/

/-- A control takes a text: its content area has a place for one, and no more than one
paragraph. -/
def TakesText (node : Node) : Prop :=
  ∃ content, content? node = some content ∧ (content.named Word.paragraph).length ≤ 1 ∧
    HasPlace content

/-- A control that takes no text refuses every one, and stays as it is. -/
theorem fillPlainText_of_not_takesText (closed : ¬ TakesText node) (tag : String)
    (replaceLineBreaks : Bool) (value : String) :
    ∃ problem, fillPlainText tag replaceLineBreaks value node = (node, .refused problem) := by
  rw [fillPlainText_eq]
  cases isContent : content? node with
  | none => exact ⟨_, rfl⟩
  | some content =>
    simp only
    split
    · exact ⟨_, rfl⟩
    · rename_i few
      have isArea : content.isNamed Word.controlContent := List.find?_some isContent
      have full : writeArea (segments replaceLineBreaks value) content = none :=
        (writeArea_eq_none_iff isArea).mpr fun place =>
          closed ⟨content, isContent, Nat.le_of_not_lt few, place⟩
      rw [full]
      exact ⟨_, rfl⟩

/-- A control that takes a text gets it into its content area, and is finished as far as the
text could be written. -/
theorem fillPlainText_of_takesText (takes : TakesText node) (tag : String)
    (replaceLineBreaks : Bool) (value : String) :
    ∃ area, area.isNamed Word.controlContent ∧ fillPlainText tag replaceLineBreaks value node =
      finishPlainText node area (faultOf (segments replaceLineBreaks value)) := by
  obtain ⟨content, isContent, few, place⟩ := takes
  have isArea : content.isNamed Word.controlContent := List.find?_some isContent
  rw [fillPlainText_eq, isContent]
  simp only
  rw [if_neg (Nat.not_lt.mpr few)]
  cases isWritten : writeArea (segments replaceLineBreaks value) content with
  | none => exact absurd place ((writeArea_eq_none_iff isArea).mp isWritten)
  | some result =>
    obtain ⟨area, fault⟩ := result
    exact ⟨area, isNamed_writeArea isArea isWritten, by rw [writeArea_fault isWritten]⟩

/-- A plain text that is refused leaves the control as it is, and so does one that a document can
hold and that is not written. Only a text that no document can hold breaks, and it does so in
every control that takes texts. Then the content area may be another one, but nothing else of the
control is, and it is read as before. -/
theorem fillPlainText_unfilled (tag : String) (replaceLineBreaks : Bool) (value : String)
    (node : Node) :
    let result := fillPlainText tag replaceLineBreaks value node
    (∀ problem, result.2 = .refused problem → result.1 = node) ∧
    (isWritableText value → result.2 ≠ .done → result.1 = node) ∧
    ((∃ cause, result.2 = .broken cause) ↔ TakesText node ∧ ¬ isWritableText value) ∧
    ∀ cause, result.2 = .broken cause → cause = .unwritableText ∧
      (∃ area, result.1 = node.replaceChild Word.controlContent area) ∧
      properties? result.1 = properties? node ∧ read result.1 = read node := by
  intro result
  by_cases takes : TakesText node
  · obtain ⟨area, isArea, isFinished⟩ :=
      fillPlainText_of_takesText takes tag replaceLineBreaks value
    have isResult : result = _ := isFinished
    by_cases writable : isWritableText value
    · rw [(faultOf_segments replaceLineBreaks value).mpr writable] at isResult
      have done : result.2 = .done := congrArg Prod.snd isResult
      rw [done]
      simp [writable]
    · rw [faultOf_segments_of_unwritable writable] at isResult
      have broken : result.2 = .broken .unwritableText := congrArg Prod.snd isResult
      have left : result.1 = node.replaceChild Word.controlContent area :=
        congrArg Prod.fst isResult
      rw [broken, left]
      refine ⟨nofun, fun isWritable => absurd isWritable writable, ?_, ?_⟩
      · exact iff_of_true ⟨.unwritableText, rfl⟩ ⟨takes, writable⟩
      · rintro cause ⟨rfl⟩
        exact ⟨rfl, ⟨area, rfl⟩, properties?_replaceContent isArea node,
          read_replaceContent isArea node⟩
  · obtain ⟨problem, isResult⟩ := fillPlainText_of_not_takesText takes tag replaceLineBreaks value
    have refused : result.2 = .refused problem := congrArg Prod.snd isResult
    have left : result.1 = node := congrArg Prod.fst isResult
    rw [refused, left]
    simp [takes]

def shown : Node :=
  .plain Word.control [] [
    .plain Word.controlProperties [] [
      .plain Word.controlTag [(Word.value, "a")] [], .plain Word.plainTextMark [] []],
    .plain Word.controlContent [] [.plain Word.run []
      [(Node.plain Word.runText [] []).setText "old"]]]

def emptied : Node :=
  .plain Word.control [] [
    .plain Word.controlProperties [] [
      .plain Word.controlTag [(Word.value, "a")] [], .plain Word.plainTextMark [] []],
    .plain Word.controlContent [] [.plain Word.run [] [.plain Word.runText [] []]]]

/-- A control character is not written, but the text before it is gone. -/
theorem controlCharacter_empties :
    (read shown).kind = .plainText ∧
      fillPlainText "a" false "\x01" shown = (emptied, .broken .unwritableText) ∧
      emptied ≠ shown := by
  refine ⟨by decide, rfl, fun same => ?_⟩
  have texts : emptied.elements.map Node.text = shown.elements.map Node.text := by rw [same]
  exact absurd texts (by decide)

end TemplateFill.Control
