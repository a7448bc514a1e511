import TemplateFill.Control.Basic
import TemplateFill.Numbering.Definition
import TemplateFill.Xml.Document
import TemplateFill.Xml.Reader

/-!
# Packages

A template comes as an archive of members. Two of them matter: the main document, and the
definitions of its lists if it has any. Opening reads both; it fails if there is no archive,
if the archive is no package, or if its main document is of another type. What happens to be
in the main document is not looked at: that it is a document, and that it has a body, is only
found out when the body is asked for.

An archive that breaks elsewhere is set aside: one whose table of content types or whose
relationships are malformed or lead to no member, or whose members cannot be read.
-/

namespace TemplateFill

open Xml

structure Member where
  name : String
  text : String
  deriving Repr, DecidableEq

structure Parts where
  /-- The content type of the main document. -/
  contentType : String
  /-- The text of the main document. -/
  document : String
  /-- The definitions of the lists. -/
  numbering : Option Member
  deriving Repr, DecidableEq

namespace Parts

def wordType (kind : String) : String :=
  "application/vnd.openxmlformats-officedocument.wordprocessingml." ++ kind ++ "+xml"

def mainType : String := wordType "document.main"

/-- The content types of members that are read as markup wherever they stand. -/
def markupTypes : List String :=
  "application/vnd.openxmlformats-package.core-properties+xml" :: mainType ::
    ["comments", "footer", "header", "numbering", "settings", "styles"].map wordType

/-- The names of the members, sorted. The main document has relationships to its definitions
alone, and a list of them only if it has any. -/
def memberNames (parts : Parts) : List String :=
  let frame := ["[Content_Types].xml", "_rels/.rels"]
  match parts.numbering with
  | none => frame ++ ["word/document.xml"]
  | some definitions =>
    frame ++ ["word/_rels/document.xml.rels", "word/document.xml", definitions.name]

end Parts

/-- What a template may turn out to be, if it does not break in between. -/
inductive Container where
  /-- No archive. -/
  | loose
  /-- An archive without a table of content types. -/
  | archive
  | package (parts : Parts)
  deriving Repr, DecidableEq

inductive Origin where
  | octets
  | path (file : String)
  deriving Repr, DecidableEq

def Origin.label : Origin → String
  | .octets => "<stream>"
  | .path file => file

structure Package where
  /-- The root of the main document. -/
  document : Node
  /-- The member that holds the definitions of lists, and its root. -/
  numbering : Option (String × Node)

namespace Package

/-- Why a template cannot be opened or filled. -/
inductive Rejection where
  | notArchive (origin : Origin)
  | noContentTypes
  | wrongType (origin : Origin) (contentType : String)
  /-- The text of a member is no markup. -/
  | malformed
  /-- The root of the main document is not the element that has a body. -/
  | foreignRoot (name : Option Name)
  | noBody
  deriving Repr, DecidableEq

def Rejection.message : Rejection → String
  | .notArchive .octets => "cannot open Word document: File is not a zip file"
  | .notArchive (.path file) => s!"cannot open Word document: Package not found at '{file}'"
  | .noContentTypes =>
    "cannot open Word document: " ++
      "\"There is no item named '[Content_Types].xml' in the archive\""
  | .wrongType origin contentType =>
    s!"cannot open Word document: file '{origin.label}' is not a Word file, " ++
      s!"content type is '{contentType}'"
  | .malformed => "the document is not well formed"
  | .foreignRoot _ => "the main document is no document"
  | .noBody => "Invalid document format. The document is lacking its main part."

/-- Whether a rejection is an answer about the template. Malformed markup and a foreign root are
faults of their own. -/
def Rejection.isRefusal : Rejection → Bool
  | .malformed => false
  | .foreignRoot _ => false
  | _ => true

def readMember (text : String) : Except Rejection Node :=
  match readDocument? text with
  | some root => .ok root
  | none => .error .malformed

/-- Open the parts of a package. The members are read before the type of the main document
is checked, but a main document of a type that is not known for markup is not read at all. -/
def ofParts (origin : Origin) (parts : Parts) : Except Rejection Package := do
  let numbering ← parts.numbering.mapM fun member => do
    return (member.name, ← readMember member.text)
  if !Parts.markupTypes.contains parts.contentType then
    throw (.wrongType origin parts.contentType)
  let document ← readMember parts.document
  if parts.contentType != Parts.mainType then throw (.wrongType origin parts.contentType)
  return ⟨(Control.enroll 0 document).1, numbering⟩

def ofContainer (origin : Origin) : Container → Except Rejection Package
  | .loose => .error (.notArchive origin)
  | .archive => .error .noContentTypes
  | .package parts => ofParts origin parts

def body (package : Package) : Except Rejection Node :=
  if package.document.isNamed Word.document then
    match package.document.child? Word.body with
    | some body => .ok body
    | none => .error .noBody
  else .error (.foreignRoot package.document.name?)

def withBody (body : Node) (package : Package) : Package :=
  { package with document := package.document.replaceChild Word.body body }

def definitions (package : Package) : Option Node := package.numbering.map (·.2)

/-- The member that is added for definitions to a package that has none. -/
def newNumberingMember : String := "word/numbering1.xml"

def withDefinitions (root : Option Node) (package : Package) : Package :=
  let name := (package.numbering.map (·.1)).getD newNumberingMember
  { package with numbering := root.map (name, ·) }

def toParts (package : Package) : Parts :=
  ⟨Parts.mainType, writeDocument package.document,
    package.numbering.map fun (name, root) => ⟨name, writeDocument root⟩⟩

/-- Whether a template can be opened and has a body. What is no refusal is no answer either. -/
def isUsable (origin : Origin) (container : Container) : Except Rejection Bool :=
  match ofContainer origin container >>= body with
  | .ok _ => .ok true
  | .error cause => if cause.isRefusal then .ok false else .error cause

end Package

end TemplateFill
