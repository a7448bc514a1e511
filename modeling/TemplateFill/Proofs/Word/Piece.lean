import Mathlib.Data.List.Basic
import TemplateFill.Proofs.Xml.Elements
import TemplateFill.Word.Vocabulary

/-!
# Reading runs

A reader of a document goes through its text pieces and breaks, wherever they stand, and takes a
break for a line feed.
-/

namespace TemplateFill.Word

open Xml

/-- What a reader finds in a run. -/
inductive Piece where
  | text (content : String)
  | lineBreak
  | carriageReturn
  deriving Repr, DecidableEq

/-- What an element is to a reader, if it is a text piece or a break. -/
def readPiece? (node : Node) : Option Piece :=
  if node.isNamed runText then some (.text node.text)
  else if node.isNamed lineBreak then some .lineBreak
  else if node.isNamed carriageReturn then some .carriageReturn
  else none

/-- The pieces among and below some nodes in document order. -/
def pieces (nodes : List Node) : List Piece := (Node.elementsOf nodes).filterMap readPiece?

def Piece.reading : Piece → String
  | .text content => content
  | .lineBreak => "\n"
  | .carriageReturn => "\n"

def reading (nodes : List Node) : String := String.join ((pieces nodes).map Piece.reading)

theorem pieces_append (first second : List Node) :
    pieces (first ++ second) = pieces first ++ pieces second := by
  rw [pieces, Node.elementsOf_append, List.filterMap_append]
  rfl

theorem pieces_cons (node : Node) (rest : List Node) :
    pieces (node :: rest) = pieces [node] ++ pieces rest := pieces_append [node] rest

/-- What is no piece itself reads as what is in it. -/
theorem pieces_of_none {node : Node} (none : readPiece? node = none) :
    pieces [node] = pieces node.children := by
  rw [pieces, Node.elementsOf_singleton]
  cases node with
  | element => exact List.filterMap_cons_none none
  | aside content tail => rfl

/-! ### Texts and breaks -/

/-- A text piece that holds a line and keeps its blanks. -/
structure HoldsLine (line : String) (node : Node) : Prop where
  isText : node.isNamed runText
  content : node.text = line
  childless : node.children = []
  keepsBlanks : node.attribute? spaceMode = some "preserve"

theorem holdsLine_makeText (line : String) : HoldsLine line (makeText line) where
  isText := rfl
  content := rfl
  childless := rfl
  keepsBlanks := rfl

theorem HoldsLine.readPiece? {line : String} {node : Node} (holds : HoldsLine line node) :
    readPiece? node = some (.text line) := by
  rw [Word.readPiece?, if_pos holds.isText, holds.content]

theorem HoldsLine.elements {line : String} {node : Node} (holds : HoldsLine line node) :
    node.elements = [node] := by
  have childless := holds.childless
  obtain ⟨lineage, traits, children, rfl⟩ := Node.exists_of_isNamed holds.isText
  rw [Node.elements, show children = _ from childless]
  rfl

theorem pieces_makeText (line : String) : pieces [makeText line] = [.text line] := by
  rw [pieces, Node.elementsOf_singleton, (holdsLine_makeText line).elements]
  exact List.filterMap_cons_some (holdsLine_makeText line).readPiece?

theorem pieces_textRun (line : String) : pieces [makeRun [makeText line]] = [.text line] :=
  (pieces_of_none rfl).trans (pieces_makeText line)

theorem pieces_breakRun : pieces [makeRun [makeBreak]] = [.lineBreak] := rfl

/-! ### Lines -/

def linePieces (lines : List String) : List Piece := (lines.map .text).intersperse .lineBreak

theorem linePieces_cons_cons (first next : String) (rest : List String) :
    linePieces (first :: next :: rest) = .text first :: .lineBreak :: linePieces (next :: rest) :=
  List.intersperse_cons_cons

/-- A break stands before every line but the first. -/
theorem linePieces_cons (first : String) (rest : List String) :
    linePieces (first :: rest) =
      .text first :: rest.flatMap fun line => [.lineBreak, .text line] := by
  induction rest generalizing first with
  | nil => rfl
  | cons next others ih => rw [linePieces_cons_cons, ih, List.flatMap_cons]; rfl

/-- Lines with breaks between them read as the lines with line feeds between them. -/
theorem join_linePieces : (lines : List String) →
    String.join ((linePieces lines).map Piece.reading) = "\n".intercalate lines
  | [] => rfl
  | [line] => by
    rw [String.intercalate_singleton, linePieces_cons]
    exact String.join_cons.trans (String.append_empty)
  | first :: next :: rest => by
    rw [linePieces_cons_cons, List.map_cons, List.map_cons, String.join_cons, String.join_cons,
      join_linePieces (next :: rest), String.intercalate_cons_cons, String.append_assoc]
    rfl

end TemplateFill.Word
