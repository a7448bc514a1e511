import TemplateFill.Word.Vocabulary
import TemplateFill.Fault

/-!
# Highlighting

Runs are made bold and given a color through their properties. The elements among the
properties of a run have a fixed order, and new ones go to their place in it.

The runs of a tree are highlighted one after the other, and the next one is looked up before a run is
highlighted. If it goes away together with an old color of the run, nothing more is highlighted.
-/

namespace TemplateFill.Word

open Xml

abbrev boldMark : Name := .word "b"

abbrev colorMark : Name := .word "color"

/-- The elements of run properties in their order. -/
def propertyOrder : List String :=
  ["rStyle", "rFonts", "b", "bCs", "i", "iCs", "caps", "smallCaps", "strike", "dstrike",
    "outline", "shadow", "emboss", "imprint", "noProof", "snapToGrid", "vanish", "webHidden",
    "color", "spacing", "w", "kern", "position", "sz", "szCs", "highlight", "u", "effect",
    "bdr", "shd", "fitText", "vertAlign", "rtl", "cs", "em", "lang", "eastAsianLayout",
    "specVanish", "oMath"]

/-- The elements that come after one of a name. -/
def successors (base : String) : List String := (propertyOrder.dropWhile (· != base)).drop 1

def insertBefore (name : Name) (node : Node) : List Node → List Node
  | [] => []
  | item :: rest =>
    if item.isNamed name then node :: item :: rest else item :: insertBefore name node rest

/-- Put a property in its place: before the first element of the first kind among its
successors that is there, or else at the end. -/
def insertProperty (base : String) (node properties : Node) : Node :=
  match (successors base).find? fun later => (properties.child? (.word later)).isSome with
  | some later => properties.withChildren (insertBefore (.word later) node properties.children)
  | none => properties.append node

/-- Remove the attribute that may switch a property off. -/
def switchOn : Node → Node
  | .element name lineage traits children =>
    .element name lineage { traits with attributes := traits.attributes.erase value } children
  | node => node

def embolden (properties : Node) : Node :=
  match properties.child? boldMark with
  | some bold => properties.replaceChild boldMark (switchOn bold)
  | none => insertProperty "b" (.plain boldMark [] []) properties

/-- Give properties a color in place of any other. -/
def recolor (color : String) (properties : Node) : Node :=
  insertProperty "color" (makeSetting colorMark color)
    (properties.removeChildren (·.isNamed colorMark))

/-- Change the properties of a run. New ones come first in it. -/
def updateProperties (f : Node → Node) (node : Node) : Node :=
  match node.child? runProperties with
  | some properties => node.replaceChild runProperties (f properties)
  | none => node.insertFirst [f (.plain runProperties [] [])]

def emboldenRun (node : Node) : Node := updateProperties embolden node

def highlightRun (color : String) (node : Node) : Node :=
  updateProperties (fun properties => recolor color (embolden properties)) node

def holdsRun (node : Node) : Bool := node.elements.any (·.isNamed run)

/-- Whether the first run in the content of a run is in one of the colors that are taken out. -/
def losesNext (content : List Node) : Bool :=
  match content.find? fun x => x.isNamed runProperties || holdsRun x with
  | some x => x.isNamed runProperties && (x.children.find? holdsRun).any (·.isNamed colorMark)
  | none => false

/-- Where nodes stand: in a run up to its properties, among these, or anywhere else. -/
inductive Part where
  | run
  | properties
  | other
  deriving Repr, DecidableEq

/-- Where the children of an element stand. -/
def Part.enter (part : Part) (name : Name) : Part :=
  if name = Word.run then .run
  else if part = .run && name = runProperties then .properties
  else .other

/-- Where the nodes behind a node stand. Further properties of a run are nothing special. -/
def Part.pass (part : Part) (node : Node) : Part :=
  if part = .run && node.isNamed runProperties then .other else part

mutual

/-- Highlight the runs of a tree while there is a next one. What comes back says whether there still
is. Old colors are passed over, because they are taken out when the run that they belong to is
highlighted. -/
def light (color : String) (part : Part) : Node → Bool → Node × Bool
  | .element name lineage traits children, true =>
    if name = run then
      if losesNext children then
        (highlightRun color (.element name lineage traits children), false)
      else
        let (content, goesOn) := lightAll color .run children true
        (highlightRun color (.element name lineage traits content), goesOn)
    else
      let (content, goesOn) := lightAll color (part.enter name) children true
      (.element name lineage traits content, goesOn)
  | node, goesOn => (node, goesOn)

/-- Highlight the runs of several trees while there is a next one. -/
def lightAll (color : String) (part : Part) : List Node → Bool → List Node × Bool
  | [], goesOn => ([], goesOn)
  | node :: rest, goesOn =>
    let (first, goesOn) :=
      if part = .properties && node.isNamed colorMark then (node, goesOn)
      else light color part node goesOn
    let (others, goesOn) := lightAll color (part.pass node) rest goesOn
    (first :: others, goesOn)

end

def highlight (color : String) (node : Node) : Node := (light color .other node true).1

/-- A color from the hexadecimal numbers of its red, its green and, in all of the rest, its
blue part. The result has two digits for each. -/
def readColor (text : String) : Except Fault String := do
  let s := text.toList
  let parts := [s.take 2, (s.drop 2).take 2, s.drop 4]
  let values ← parts.mapM fun part =>
    (Number.readNumeral 16 (String.ofList part)).mapError Fault.numeral
  if values.any fun n => n < 0 || 255 < n then throw .colorRange
  return String.ofList (values.flatMap fun n => (Text.hexDigits 2 n.toNat).map Char.toUpper)

end TemplateFill.Word
