import TemplateFill.Block.Basic
import TemplateFill.Xml.Character

/-!
# Rendering blocks

Blocks become paragraphs, or runs separated by line breaks where paragraphs cannot stand.
Only paragraphs can be list items.
-/

namespace TemplateFill.Block

open Xml

/-- A run with a text, unless a document cannot hold it. -/
def textRun (text : String) : Except Fault Node :=
  if isWritableText text then .ok (Word.makeRun [Word.makeText text])
  else .error .unwritableText

/-- The paragraph properties that make a list item. -/
def itemProperties (place : Place) : Except Number.NumeralFault Node := do
  let level ← Word.makeNumberSetting Word.listLevel place.level
  let list ← Word.makeNumberSetting Word.listInstanceId place.list
  return .plain Word.paragraphProperties [] [.plain (.word "numPr") [] [level, list]]

def toParagraph (block : Block) : Except Fault Node := do
  let properties ← (block.place.mapM itemProperties).mapError Fault.numeral
  return Word.makeParagraph (properties.toList ++ [← textRun block.text])

def toParagraphs (blocks : List Block) : Except Fault (List Node) := blocks.mapM toParagraph

def toRuns (blocks : List Block) : Except Fault (List Node) := do
  return (← blocks.mapM fun block => textRun block.text).intersperse
    (Word.makeRun [Word.makeBreak])

/-- What some blocks become, inside a paragraph or elsewhere. -/
def render (inParagraph : Bool) (blocks : List Block) : Except Fault (List Node) :=
  if inParagraph then toRuns blocks else toParagraphs blocks

end TemplateFill.Block
