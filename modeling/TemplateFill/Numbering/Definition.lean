import TemplateFill.Word.Vocabulary
import TemplateFill.Text.Quoted

/-!
# List definitions

A list has two parts: an abstract list lays down how each of nine levels looks, and an
instance of it is what paragraphs belong to.
-/

namespace TemplateFill.Numbering

open Xml

/-- How the items of a list are marked. -/
inductive Format where
  | bullet
  | decimal
  deriving Repr, DecidableEq

namespace Format

def name : Format → String
  | .bullet => "bullet"
  | .decimal => "decimal"

def ofName? (name : String) : Option Format := [bullet, decimal].find? (·.name == name)

def unknown (name : String) : String := Text.quoted name ++ " is not a valid NumberFormat"

/-- The marks of bullet lists, which repeat every three levels. -/
def bulletAt (level : Int) : String :=
  match level.emod 3 with
  | 0 => "•"
  | 1 => "◦"
  | _ => "·"

/-- The mark of an item of a level. That of a numbered list refers to the level by its
number, counted from one. -/
def levelText (format : Format) (level : Int) : Except Number.NumeralFault String :=
  match format with
  | .bullet => .ok (bulletAt level)
  | .decimal => do return s!"%{← Number.writeNumeral (level + 1)}."

end Format

structure AbstractList where
  id : Int
  format : Format
  deriving Repr, DecidableEq

structure ListInstance where
  id : Int
  abstractId : Int
  deriving Repr, DecidableEq

def levelCount : Nat := 9

def indentPerLevel : Nat := 720

/-- How far the mark of an item hangs out. -/
def hangingIndent : Nat := 360

def levelNode (format : Format) (level : Nat) : Except Number.NumeralFault Node := do
  return .plain (.word "lvl") [(Word.listLevel, toString level)]
    [Word.makeSetting (.word "start") "1",
      Word.makeSetting (.word "numFmt") format.name,
      Word.makeSetting (.word "lvlText") (← format.levelText level),
      .plain Word.paragraphProperties []
        [.plain (.word "ind")
          [(.word "left", toString (indentPerLevel * (level + 1))),
            (.word "hanging", toString hangingIndent)] []]]

/-- The element of an abstract list, unless its id is too large to be written. -/
def AbstractList.toNode (list : AbstractList) : Except Number.NumeralFault Node := do
  let id ← Number.writeNumeral list.id
  let levels ← (List.range levelCount).mapM (levelNode list.format)
  return .plain Word.abstractList [(Word.abstractListId, id)] levels

/-- The element of an instance, unless an id is too large to be written. -/
def ListInstance.toNode (list : ListInstance) : Except Number.NumeralFault Node := do
  let id ← Number.writeNumeral list.id
  let reference ← Word.makeNumberSetting Word.abstractListId list.abstractId
  return .plain Word.listInstance [(Word.listInstanceId, id)] [reference]

end TemplateFill.Numbering
