import TemplateFill.Problem
import TemplateFill.Text.Line
import TemplateFill.Xml.Character

/-!
# Plain text

A plain text is written into a single run of the content area, the first one; all other runs
go. The run keeps its first text piece and gets the value there, in one piece or with a break
between lines. Writing stops at a line that a document cannot hold, and what was done before
stays done.
-/

namespace TemplateFill.Control

open Xml

def segments (replaceLineBreaks : Bool) (value : String) : List String :=
  if replaceLineBreaks then Text.splitLines value else [value]

/-- The pieces of the lines after the first, each behind a break. A line that cannot be
written leaves its break. -/
def furtherLines : List String → List Node × Option Fault
  | [] => ([], none)
  | line :: rest =>
    if isWritableText line then
      let (pieces, fault) := furtherLines rest
      (Word.makeBreak :: Word.makeText line :: pieces, fault)
    else ([Word.makeBreak], some .unwritableText)

/-- Write lines into a text piece: the first one into the piece itself. -/
def writeInto (piece : Node) (first : String) (rest : List String) : List Node × Option Fault :=
  if isWritableText first then
    let (pieces, fault) := furtherLines rest
    ((piece.setText first).setAttribute Word.spaceMode "preserve" :: pieces, fault)
  else ([piece.setText ""], some .unwritableText)

/-- Whether a node is a text piece or a break. -/
def isPiece (node : Node) : Bool :=
  node.isNamed Word.runText || node.isNamed Word.lineBreak || node.isNamed Word.carriageReturn

/-- The content of a run after writing: the first text piece is written into and the other
pieces and breaks are gone; without a text piece the lines go to the end. -/
def writeContent (first : String) (rest : List String) (content : List Node) :
    List Node × Option Fault :=
  match content.span fun node => !node.isNamed Word.runText with
  | (before, piece :: after) =>
    let (pieces, fault) := writeInto piece first rest
    (before.filter (!isPiece ·) ++ pieces ++ after.filter (!isPiece ·), fault)
  | (before, []) =>
    let kept := before.filter (!isPiece ·)
    if isWritableText first then
      let (pieces, fault) := furtherLines rest
      (kept ++ Word.makeText first :: pieces, fault)
    else (kept, some .unwritableText)

def writeRun (lines : List String) (run : Node) : Node × Option Fault :=
  match lines with
  | [] => (run, none)
  | first :: rest =>
    let (content, fault) := writeContent first rest run.children
    (run.withChildren content, fault)

def isPlaceholderStyle (node : Node) : Bool :=
  node.isNamed Word.runStyle && node.attribute? Word.value == some Word.placeholderStyle

/-- A control that no longer shows a placeholder. -/
def unmark (node : Node) : Node :=
  match properties? node with
  | none => node
  | some properties =>
    node.replaceChild Word.controlProperties
      (properties.removeChildren (·.isNamed Word.placeholderMark))

/-- The control after its content area was written: a completed text takes away what marked
the placeholder. -/
def finishPlainText (node content : Node) : Option Fault → Node × Outcome
  | some fault => (node.replaceChild Word.controlContent content, .broken fault)
  | none =>
    (unmark (node.replaceChild Word.controlContent (content.prune isPlaceholderStyle)), .done)

def fillPlainText (tag : String) (replaceLineBreaks : Bool) (value : String) (node : Node) :
    Node × Outcome :=
  match content? node with
  | none => (node, .refused (.noContent tag))
  | some content =>
    let paragraphs := content.named Word.paragraph
    let lines := segments replaceLineBreaks value
    if 1 < paragraphs.length then (node, .refused (.manyParagraphs tag))
    else
      let pruned := (content.keepFirst Word.run false).1
      match pruned.named Word.run with
      | run :: _ =>
        let (run, fault) := writeRun lines run
        finishPlainText node (pruned.mapNamed Word.run fun _ => run) fault
      | [] =>
        if paragraphs.isEmpty then (node, .refused (.noParagraph tag))
        else
          let (run, fault) := writeRun lines (Word.makeRun [])
          finishPlainText node (pruned.mapNamed Word.paragraph (·.append run)) fault

end TemplateFill.Control
