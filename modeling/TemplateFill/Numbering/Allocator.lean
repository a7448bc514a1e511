import TemplateFill.Numbering.Definition
import TemplateFill.Number.Numeral

/-!
# Allocating lists

An allocator hands out ids for new lists and keeps what it has handed out. Seeded from the
definitions that a document has, it starts above every id in use, so that new ids collide
neither with old ones nor with each other.
-/

namespace TemplateFill.Numbering

open Xml

/-- The next ids, and the lists allocated so far. -/
structure Allocator where
  nextAbstract : Int
  nextInstance : Int
  abstracts : List AbstractList
  instances : List ListInstance
  deriving Repr, DecidableEq

namespace Allocator

/-- An allocator that has not handed out anything. -/
def fresh (nextAbstract nextInstance : Int) : Allocator := ⟨nextAbstract, nextInstance, [], []⟩

/-- The allocator for a document without lists. -/
def empty : Allocator := fresh 0 1

/-- Allocate an abstract list and an instance of it. -/
def allocate (format : Format) (allocator : Allocator) : ListInstance × Allocator :=
  let list : ListInstance := ⟨allocator.nextInstance, allocator.nextAbstract⟩
  (list,
    { nextAbstract := allocator.nextAbstract + 1
      nextInstance := allocator.nextInstance + 1
      abstracts := allocator.abstracts ++ [⟨allocator.nextAbstract, format⟩]
      instances := allocator.instances ++ [list] })

/-- Whether an attribute is taken for an id: digits of any kind behind any number of minus
signs. -/
def looksLikeId (text : String) : Bool :=
  let digits := text.toList.dropWhile (· = '-')
  !digits.isEmpty && digits.all Text.isDigitLike

def readIds (name : Name) (nodes : List Node) : Except Number.NumeralFault (List Int) :=
  ((nodes.map fun node => (node.attribute? name).getD "").filter looksLikeId).mapM
    (Number.readNumeral 10)

/-- The largest id, or a default if there is none. -/
def largest (default : Int) : List Int → Int
  | [] => default
  | id :: ids => ids.foldl max id

/-- The allocator that starts above every id below the root of the list definitions. -/
def ofNumbering : Option Node → Except Number.NumeralFault Allocator
  | none => .ok empty
  | some root => do
    let abstracts ← readIds Word.abstractListId (root.named Word.abstractList)
    let instances ← readIds Word.listInstanceId (root.named Word.listInstance)
    return fresh (largest (-1) abstracts + 1) (largest 0 instances + 1)

end Allocator

end TemplateFill.Numbering
