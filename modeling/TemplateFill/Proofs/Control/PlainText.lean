import TemplateFill.Control.PlainText
import TemplateFill.Proofs.Xml.First

/-!
# The area of a plain text

What a plain text does to its control comes down to what it does to the content area: a run is
written, the only one that is left or a new one, and the rest of the area stays around it.
-/

namespace TemplateFill.Control

open Xml

/-- An area in which the runs are another one. -/
def withRun (area run : Node) : Node := area.mapNamed Word.run fun _ => run

/-- An area in which a run stands at the end of each paragraph. -/
def withNewRun (area run : Node) : Node := area.mapNamed Word.paragraph (·.append run)

/-- An area after lines were written into it; `none` if there is no run and no paragraph. -/
def writeArea (lines : List String) (content : Node) : Option (Node × Option Fault) :=
  let pruned := (content.keepFirst Word.run false).1
  match pruned.named Word.run with
  | run :: _ => some (withRun pruned (writeRun lines run).1, (writeRun lines run).2)
  | [] =>
    if (content.named Word.paragraph).isEmpty then none
    else
      some (withNewRun pruned (writeRun lines (Word.makeRun [])).1,
        (writeRun lines (Word.makeRun [])).2)

theorem fillPlainText_eq (tag : String) (replaceLineBreaks : Bool) (value : String)
    (node : Node) :
    fillPlainText tag replaceLineBreaks value node =
      match content? node with
      | none => (node, .refused (.noContent tag))
      | some content =>
        if 1 < (content.named Word.paragraph).length then (node, .refused (.manyParagraphs tag))
        else
          match writeArea (segments replaceLineBreaks value) content with
          | none => (node, .refused (.noParagraph tag))
          | some (area, fault) => finishPlainText node area fault := by
  unfold fillPlainText writeArea
  cases content? node with
  | none => rfl
  | some content =>
    simp only
    split
    · rfl
    · cases (content.keepFirst Word.run false).1.named Word.run with
      | cons run rest => rfl
      | nil =>
        simp only
        split
        · rfl
        · rfl

end TemplateFill.Control
