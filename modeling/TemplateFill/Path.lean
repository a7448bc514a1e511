import TemplateFill.Text.Line
import TemplateFill.Text.Quoted

/-!
# Paths

A path is a list of names behind one or two slashes or none. Empty names and single dots
say nothing and are left out, so a path has one written form. Double dots stay, because what
they mean depends on the folders that there are.
-/

namespace TemplateFill

/-- Why a path leads to no file, or why nothing can be written to it. -/
inductive PathFault where
  | missing
  /-- A file stands where a folder is needed. -/
  | fileInTheWay
  /-- The path goes on behind a file. -/
  | notFolder
  | isFolder
  | tooLong
  /-- There is a null character in the path, which would end it. -/
  | holdsNull
  deriving Repr, DecidableEq

structure Path where
  /-- The slashes it begins with. -/
  root : String
  names : List String
  deriving Repr, DecidableEq

namespace Path

/-- The slashes at the front of a written path. Three and more are as good as one. -/
def rootOf (s : List Char) : String :=
  match (s.takeWhile (· = '/')).length with
  | 0 => ""
  | 2 => "//"
  | _ => "/"

def read (text : String) : Path :=
  let names := (Text.cutAt '/' text.toList).filter fun name => name != [] && name != ['.']
  ⟨rootOf text.toList, names.map String.ofList⟩

def text (path : Path) : String :=
  if path.root.isEmpty && path.names.isEmpty then "."
  else path.root ++ "/".intercalate path.names

/-- A name without its extension, which begins at the last dot. A dot at either end of the
name begins none. -/
def stem (name : List Char) : List Char :=
  match name.reverse.takeWhile (· != '.'), name.reverse.dropWhile (· != '.') with
  | _ :: _, _ :: c :: front => (c :: front).reverse
  | _, _ => name

def withExtension (extension : String) (path : Path) : Path :=
  match path.names.getLast? with
  | none => path
  | some name =>
    { path with
      names := path.names.dropLast ++ [String.ofList (stem name.toList) ++ extension] }

/-- The wording of a fault: the number of its cause, the cause, and the path. -/
def fault (cause : PathFault) (path : Path) : String :=
  let numbered (number : Nat) (words : String) : String :=
    s!"[Errno {number}] {words}: {Text.quoted path.text}"
  match cause with
  | .missing => numbered 2 "No such file or directory"
  | .fileInTheWay => numbered 17 "File exists"
  | .notFolder => numbered 20 "Not a directory"
  | .isFolder => numbered 21 "Is a directory"
  | .tooLong => numbered 36 "File name too long"
  | .holdsNull => "embedded null byte"

/-! ### Following a path -/

/-- What stands at a place. -/
inductive Place where
  | folder
  | file
  | nothing
  deriving Repr, DecidableEq

/-- Whether a path only goes up from the working folder, or from the root, where it stays. -/
def isAbove (path : Path) : Bool := path.names.all (· == "..")

/-- The folder around a folder. The one around the root is the root itself. -/
def up (path : Path) : Path :=
  if !path.isAbove then { path with names := path.names.dropLast }
  else if path.root.isEmpty then { path with names := path.names ++ [".."] }
  else path

/-- The longest written path, in octets. -/
def lengthLimit : Nat := 4095

def nameLimit : Nat := 255

/-- Follow names from a folder on. Every name but the last has to be one of a folder. -/
def follow (placeAt : Path → Place) (here : Path) : List String → Except PathFault Path
  | [] => .ok here
  | ".." :: rest => follow placeAt here.up rest
  | name :: rest =>
    let there := { here with names := here.names ++ [name] }
    if nameLimit < name.utf8ByteSize then .error .tooLong
    else if rest.isEmpty then .ok there
    else
      match placeAt there with
      | .folder => follow placeAt there rest
      | .file => .error .notFolder
      | .nothing => .error .missing

/-- Where a path leads. Double dots are left only in front, where the path goes up further than
is known. -/
def reach (placeAt : Path → Place) (path : Path) : Except PathFault Path :=
  if path.text.toList.contains '\x00' then .error .holdsNull
  else if lengthLimit < path.text.utf8ByteSize then .error .tooLong
  else follow placeAt ⟨path.root, []⟩ path.names

/-- Where a path would lead if there were only the working folder and those above it. -/
def placeAmongFolders (path : Path) : Place := if path.isAbove then .folder else .nothing

end Path

end TemplateFill
