import TemplateFill.Data.Reader
import TemplateFill.Data.Encoding
import TemplateFill.Path

/-!
# Loading data

The data that fills a template comes as a value, as a data text, as the octets of one, or
from a file. Whatever the source, its root has to be an object. A file is always UTF-8 and
its line breaks are read as line feeds; octets may be in any encoding that a data text
shows.
-/

namespace TemplateFill.Data

/-- Where data comes from. A path that does not lead to a file has no octets. -/
inductive Source where
  | value (value : Json)
  | text (text : String)
  | octets (octets : List UInt8)
  | file (path : Path) (octets : Option (List UInt8))

inductive LoadFault where
  /-- The path leads to no file. -/
  | noFile (cause : PathFault) (path : Path)
  /-- The text is not a data text. -/
  | invalid (words : String)
  /-- The text is nested too deeply to be read. -/
  | tooDeep (words : String)
  /-- The root is a value of this kind instead of an object. -/
  | notObject (kind : String)
  /-- The file is not UTF-8. -/
  | undecodable (fault : DecodeFault)

def LoadFault.message : LoadFault → String
  | .noFile .holdsNull path => path.fault .holdsNull
  | .noFile cause path => "cannot read data file: " ++ path.fault cause
  | .invalid words => "invalid JSON data: " ++ words
  | .tooDeep words => words
  | .notObject kind => "data root must be a JSON object, got " ++ kind
  | .undecodable fault => fault.message

def LoadFault.ofFailure (s : List Char) (failure : ReadFailure) : LoadFault :=
  match failure.fault with
  | .tooDeep _ => .tooDeep (failure.message s)
  | _ => .invalid (failure.message s)

/-- The value that a reader finds in a text. -/
def loadBy (read : List Char → Reading Json) (s : List Char) : Except LoadFault Json :=
  (read s).mapError (.ofFailure s)

def loadChars [Room] (s : List Char) : Except LoadFault Json := loadBy readChars s

/-- Why a path does not lead to a file, where there are none. -/
def whyNoFile (path : Path) : PathFault :=
  match path.reach Path.placeAmongFolders with
  | .ok place => if place.isAbove then .isFolder else .missing
  | .error cause => cause

/-- The value that a source holds, whatever its kind. The mark in front of octets goes with
their encoding, so a second one is not looked for. -/
def Source.root [Room] : Source → Except LoadFault Json
  | .value (.text s) => loadChars s.toList
  | .value v => .ok v
  | .text s => loadChars s.toList
  | .octets bytes =>
    match decodeDataText bytes with
    | .ok s => loadBy readRoot s
    | .error fault => .error (.invalid fault.message)
  | .file path none => .error (.noFile (whyNoFile path) path)
  | .file _ (some bytes) =>
    match decodeUtf8 false bytes with
    | .ok s => loadChars (Text.unifyBreaks s)
    | .error fault => .error (.undecodable fault)

def Source.load [Room] (source : Source) : Except LoadFault Json := do
  match ← source.root with
  | .object members => return .object members
  | v => throw (.notObject v.kindName)

end TemplateFill.Data
