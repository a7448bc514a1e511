import TemplateFill.Numbering.Definition

/-!
# Merging definitions

New definitions join the ones of a document as two blocks, one of abstract lists and one of
instances, each behind the last old element of its kind. Abstract lists have to stand before
all instances, so where there are no old ones they go before the first instance. A definition
that cannot be written ends the merge; the ones before it stay.
-/

namespace TemplateFill.Numbering

open Xml

/-- Put a block behind the last node that satisfies `p`; `none` if there is none. -/
def insertAfterLast? (p : Node → Bool) (block : List Node) : List Node → Option (List Node)
  | [] => none
  | node :: rest =>
    match insertAfterLast? p block rest with
    | some inserted => some (node :: inserted)
    | none => if p node then some (node :: (block ++ rest)) else none

/-- Put a block before the first node that satisfies `p`; `none` if there is none. -/
def insertBeforeFirst? (p : Node → Bool) (block : List Node) : List Node → Option (List Node)
  | [] => none
  | node :: rest =>
    if p node then some (block ++ node :: rest)
    else (insertBeforeFirst? p block rest).map (node :: ·)

/-- Put a block of abstract lists in its place. -/
def insertAbstracts (block nodes : List Node) : List Node :=
  match insertAfterLast? (·.isNamed Word.abstractList) block nodes with
  | some inserted => inserted
  | none =>
    (insertBeforeFirst? (·.isNamed Word.listInstance) block nodes).getD (nodes ++ block)

def insertInstances (block nodes : List Node) : List Node :=
  (insertAfterLast? (·.isNamed Word.listInstance) block nodes).getD (nodes ++ block)

/-- The elements up to the first one that cannot be written, and why it cannot. -/
def takeWritten : List (Except Number.NumeralFault Node) → List Node × Option Number.NumeralFault
  | [] => ([], none)
  | .error fault :: _ => ([], some fault)
  | .ok node :: rest =>
    let (nodes, fault) := takeWritten rest
    (node :: nodes, fault)

/-- Merge new definitions into the element that holds the old ones. -/
def merge (abstracts : List AbstractList) (instances : List ListInstance) (root : Node) :
    Node × Option Number.NumeralFault :=
  let (block, fault) := takeWritten (abstracts.map (·.toNode))
  let begun := insertAbstracts block root.children
  match fault with
  | some fault => (root.withChildren begun, some fault)
  | none =>
    let (block, fault) := takeWritten (instances.map (·.toNode))
    (root.withChildren (insertInstances block begun), fault)

end TemplateFill.Numbering
