import TemplateFill.Options
import TemplateFill.Problem
import TemplateFill.Control.RichText
import TemplateFill.Numbering.Merge

/-!
# Progress of a walk

A walk over a template carries along the lists that its rich texts have made, the problems
that it has found, and notices of what it did.
-/

namespace TemplateFill.Walk

open Xml
open TemplateFill.Numbering (Allocator)

structure Finding where
  problem : Problem
  subject : Lineage

/-- What a walk tells about. -/
inductive Notice where
  | processing (tag : String)
  | writing (tag : String) (value : Datum)
  | converted (blocks : Nat)
  | addedNumbering
  | repeated (tag : String) (items : Nat)
  | removed (tag : String)
  | found (problem : Problem)
  | filled (problems : Nat)

/-- Where the lists of rich texts go: to the definitions of a document, which may have none
yet, or to an allocator if there is no document. -/
inductive ListStore where
  | document (numbering : Option Node)
  | free (allocator : Allocator)

namespace ListStore

/-- The allocator for the next rich text. -/
def allocator? : ListStore → Except Fault Allocator
  | .document numbering => (Allocator.ofNumbering numbering).mapError .numeral
  | .free allocator => .ok allocator

def convert (value : Datum) (lists : ListStore) : Except Fault (List Block × Allocator) := do
  let allocator ← lists.allocator?
  let text ← Scope.stringify value
  Block.convert text allocator

/-- Whether keeping the lists of an allocator gives a document its first definitions. -/
def lacksRoot (allocator : Allocator) : ListStore → Bool
  | .document none => !(allocator.abstracts.isEmpty && allocator.instances.isEmpty)
  | _ => false

/-- Keep the lists of an allocator that the store has given out before, as far as they can be
written. -/
def keep (allocator : Allocator) : ListStore → ListStore × Option Number.NumeralFault
  | .document numbering =>
    if allocator.abstracts.isEmpty && allocator.instances.isEmpty then
      (.document numbering, none)
    else
      let root := numbering.getD (.plain Word.numbering [] [])
      let (merged, fault) := Numbering.merge allocator.abstracts allocator.instances root
      (.document (some merged), fault)
  | .free _ => (.free allocator, none)

end ListStore

/-- How far a walk has come. -/
structure Progress where
  lists : ListStore
  findings : List Finding
  notices : List Notice

def Progress.start (lists : ListStore) : Progress := ⟨lists, [], []⟩

end Walk

/-- A walk, which changes the progress. -/
abbrev Walk := StateM Walk.Progress

namespace Walk

open Xml

def tell (notice : Notice) : Walk Unit :=
  modify fun progress => { progress with notices := progress.notices ++ [notice] }

def note (subject : Lineage) (problem : Problem) : Walk Unit :=
  modify fun progress =>
    { progress with
      findings := progress.findings ++ [⟨problem, subject⟩]
      notices := progress.notices ++ [.found problem] }

def noteOutcome (subject : Lineage) (tag : String) (outcome : Outcome) : Walk Unit :=
  match outcome.problem? tag with
  | none => pure ()
  | some problem => note subject problem

/-- What surrounds a node: the name of its parent, if it has one, and whether it is inside a
paragraph. -/
structure Place where
  parent : Option Name
  inParagraph : Bool
  deriving Repr, DecidableEq

namespace Place

/-- The place of a node without a parent. -/
def outside : Place := ⟨none, false⟩

/-- Elements that hold paragraphs. What is in them is not inside a paragraph around them. -/
def blockContainers : List Name := [Word.body, Word.cell, Word.textBox]

def enter (name : Name) (place : Place) : Place :=
  ⟨some name,
    if name = Word.paragraph then true
    else if blockContainers.contains name then false
    else place.inParagraph⟩

/-- The place of the children of a root, which has no parent itself. -/
def ofRoot (root : Node) : Place :=
  match root.name? with
  | some name => outside.enter name
  | none => outside

end Place

end Walk

end TemplateFill
