import TemplateFill.Control.PlainText
import TemplateFill.Block.Rendering

/-!
# Rich text

Blocks replace the content of a control. Inside a paragraph they become runs of the content
area. Elsewhere they become paragraphs, of the first table cell in the content area if there
is one, and a cell is never left without a paragraph.
-/

namespace TemplateFill.Control

open Xml

/-- Replace the content of an element, except for the properties of a cell. -/
def replaceContent (content : List Node) (node : Node) : Node :=
  node.withChildren (node.childrenNamed Word.cellProperties ++ content)

def ensureParagraph (cell : Node) : Node :=
  if (cell.child? Word.paragraph).isSome then cell
  else cell.append (Word.makeParagraph [])

/-- Put what blocks have become into a content area. -/
def placeRendered (inParagraph : Bool) (rendered : List Node) (content : Node) : Node :=
  if inParagraph then replaceContent rendered content
  else
    match Node.updateFirstOf? Word.cell
        (fun cell => ensureParagraph (replaceContent rendered cell)) content.children with
    | some children => content.withChildren children
    | none => replaceContent rendered content

/-- Whether a control is one for plain text, at whatever depth it says so. -/
def isPlainTextOnly (node : Node) : Bool := node.elements.any (·.isNamed Word.plainTextMark)

/-- Write what blocks have become into a rich text control with the given content area. -/
def fillRichText (inParagraph : Bool) (rendered : List Node) (content node : Node) : Node :=
  unmark (node.replaceChild Word.controlContent (placeRendered inParagraph rendered content))

end TemplateFill.Control
