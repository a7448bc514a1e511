import TemplateFill.Html.Token
import TemplateFill.Numbering.Allocator
import TemplateFill.Fault

/-!
# Blocks

What is left of a page text is a sequence of blocks: plain paragraphs and list items. A
paragraph, an item and a line break start a new block, and so do the beginning and the end of
a list. A list inside a list adds a level to it and is no list of its own. Everything else is
dropped and its text kept.
-/

namespace TemplateFill

open TemplateFill.Numbering (Format AbstractList ListInstance Allocator)

/-- Where a list item belongs. -/
structure Block.Place where
  list : Int
  level : Int
  deriving Repr, DecidableEq

/-- A paragraph of text. -/
structure Block where
  text : String
  place : Option Block.Place
  deriving Repr, DecidableEq

namespace Block

def startsBlock (name : String) : Bool := name == "p" || name == "li" || name == "br"

def listFormat? (name : String) : Option Format :=
  match name with
  | "ul" => some .bullet
  | "ol" => some .decimal
  | _ => none

/-- A conversion under way: the blocks so far, the text of the next one, the list that is
open with its level, and the allocator. -/
structure Conversion where
  blocks : List Block
  pending : List Char
  place : Option Place
  allocator : Allocator

namespace Conversion

/-- End the pending block; a blank one is dropped. -/
def flush (conversion : Conversion) : Conversion :=
  match Text.trim conversion.pending with
  | [] => { conversion with pending := [] }
  | text =>
    { conversion with
      blocks := conversion.blocks ++ [⟨String.ofList text, conversion.place⟩]
      pending := [] }

/-- Add a string to the pending block. A blank one counts as a space, and as nothing behind
a space. -/
def addString (s : List Char) (conversion : Conversion) : Conversion :=
  if s.all Text.isBlank then
    if conversion.pending.getLast? = some ' ' then conversion
    else { conversion with pending := conversion.pending ++ [' '] }
  else { conversion with pending := conversion.pending ++ s }

/-- Open a list, or a further level of the open one. -/
def openList (format : Format) (conversion : Conversion) : Conversion :=
  match conversion.place with
  | none =>
    let (list, allocator) := conversion.allocator.allocate format
    { conversion with place := some ⟨list.id, 0⟩, allocator := allocator }
  | some place => { conversion with place := some { place with level := place.level + 1 } }

/-- Close the innermost level of the open list. -/
def closeList (conversion : Conversion) : Conversion :=
  match conversion.place with
  | none => conversion
  | some place =>
    { conversion with
      place := if place.level < 1 then none else some { place with level := place.level - 1 } }

def step (conversion : Conversion) : Html.Token → Conversion
  | .string s => conversion.addString s.toList
  | .opening name =>
    match listFormat? name with
    | some format => conversion.flush.openList format
    | none => if startsBlock name then conversion.flush else conversion
  | .closing name =>
    if (listFormat? name).isSome && conversion.place.isSome then conversion.flush.closeList
    else conversion

def run (tokens : List Html.Token) (allocator : Allocator) : Conversion :=
  (tokens.foldl step ⟨[], [], none, allocator⟩).flush

end Conversion

/-- The blocks of a page text, and the allocator after its lists were allocated. -/
def convert (html : String) (allocator : Allocator) :
    Except Fault (List Block × Allocator) := do
  let tokens ← (Html.tokenize html).mapError Fault.ofScan
  let conversion := Conversion.run tokens allocator
  return (conversion.blocks, conversion.allocator)

/-- What a page text gives: its blocks, and the lists that were allocated for it. -/
structure Result where
  blocks : List Block
  abstracts : List AbstractList
  instances : List ListInstance
  deriving Repr, DecidableEq

/-- Convert a page text with an allocator that may have handed out lists before. The result has
only those that were handed out since. -/
def convertPage (html : String) (allocator : Allocator) : Except Fault (Result × Allocator) := do
  let (blocks, after) ← convert html allocator
  return (⟨blocks, after.abstracts.drop allocator.abstracts.length,
    after.instances.drop allocator.instances.length⟩, after)

end Block

end TemplateFill
