import TemplateFill.Options
import TemplateFill.Word.Highlight
import TemplateFill.Block.Rendering

/-!
# Reports

A report is a numbered list of problems in front of the body. A problem of a control that is
in the body is a link: the control gets a bookmark around it and its runs are highlighted.
-/

namespace TemplateFill

open Xml

/-- A problem to be reported, and the element it is about. -/
structure Record where
  message : String
  subject : Option Lineage
  deriving Repr, DecidableEq

namespace Report

/-- A report under way: the body, the paragraphs of the list, and the next bookmark id. -/
structure Draft where
  body : Node
  paragraphs : List Node
  nextId : Int

def bookmarkName (number : Nat) : String := s!"_json2docx_error_{number}"

/-- The largest numeric id of the bookmarks in a body, or minus one. -/
def largestBookmark (body : Node) : Except Fault Int := do
  let ids := (body.named Word.bookmarkStart).map fun node =>
    (node.attribute? Word.identifier).getD ""
  let numeric := ids.filter fun id => !id.isEmpty && id.toList.all Text.isDigitLike
  let values ← numeric.mapM fun id => (Number.readNumeral 10 id).mapError Fault.numeral
  return values.foldl max (-1)

def heading (text : String) : Except Fault Node := do
  return Word.makeParagraph [Word.emboldenRun (← Block.textRun text)]

def isAttached (body : Node) (lineage : Lineage) : Bool :=
  !lineage.isEmpty && (Node.elementsOf body.children).any (·.lineage == lineage)

/-- Put a bookmark around a highlighted node. -/
def bookmarked (id name color : String) (node : Node) : List Node :=
  [.plain Word.bookmarkStart [(Word.identifier, id), (.word "name", name)] [],
    Word.highlight color node,
    .plain Word.bookmarkEnd [(Word.identifier, id)] []]

def linkParagraph (name : String) (run : Node) : Node :=
  Word.makeParagraph
    [.plain Word.hyperlink [(.word "anchor", name), (.word "history", "1")] [run]]

/-- Put the next bookmark around the element of a lineage, unless its id is too large to be
written. -/
def mark (color name : String) (lineage : Lineage) (draft : Draft) : Except Fault Draft := do
  let id ← (Number.writeNumeral draft.nextId).mapError Fault.numeral
  return { draft with
    body := draft.body.expand lineage (bookmarked id name color)
    nextId := draft.nextId + 1 }

/-- Put a paragraph behind the list, unless a document cannot hold its text. -/
def addParagraph (text : String) (around : Node → Node) (draft : Draft) :
    Draft × Option Fault :=
  match Block.textRun text with
  | .error fault => (draft, some fault)
  | .ok run => ({ draft with paragraphs := draft.paragraphs ++ [around run] }, none)

/-- Report one record. The bookmark stays even if the text cannot be written. -/
def addRecord (color : String) (number : Nat) (record : Record) (draft : Draft) :
    Draft × Option Fault :=
  let text := s!"{number}. " ++ record.message
  let name := bookmarkName number
  match record.subject.filter (isAttached draft.body) with
  | none => addParagraph text (fun run => Word.makeParagraph [run]) draft
  | some lineage =>
    match mark color name lineage draft with
    | .error fault => (draft, some fault)
    | .ok marked => addParagraph text (linkParagraph name) marked

/-- Report records that are numbered from `number` on, until one cannot be written. -/
def addRecords (color : String) : Nat → List Record → Draft → Draft × Option Fault
  | _, [], draft => (draft, none)
  | number, record :: rest, draft =>
    match addRecord color number record draft with
    | (draft, some fault) => (draft, some fault)
    | (draft, none) => addRecords color (number + 1) rest draft

/-- What a report needs before its first record. -/
def begin (options : Options) (body : Node) : Except Fault (String × Draft) := do
  let color ← Word.readColor options.errorColor
  let largest ← largestBookmark body
  let heading ← heading options.errorHeading
  return (color, ⟨body, [heading], largest + 1⟩)

/-- Put a report of some records in front of a body, if the options ask for it and there is
something to report. A fault leaves the body as it is by then, without the list. -/
def render (options : Options) (records : List Record) (body : Node) : Node × Option Fault :=
  if !options.showErrors || records.isEmpty then (body, none)
  else
    match begin options body with
    | .error fault => (body, some fault)
    | .ok (color, draft) =>
      match addRecords color 1 records draft with
      | (draft, some fault) => (draft.body, some fault)
      | (draft, none) => (draft.body.insertFirst draft.paragraphs, none)

end Report

end TemplateFill
