import TemplateFill.Package
import TemplateFill.Path

/-!
# Folders

A folder is known by the files in it and in the folders below it. A path leads to a file if
every folder on the way is one that holds something.
-/

namespace TemplateFill.CommandLine

/-- A file: its octets, and what it is as a template. -/
structure File where
  octets : List UInt8
  container : Container

abbrev Folder := List (Path × File)

namespace Folder

/-- What stands at a path in which double dots are only in front. -/
def placeAt (folder : Folder) (path : Path) : Path.Place :=
  if path.isAbove then .folder
  else if folder.any (·.1 == path) then .file
  else if folder.any fun (file, _) =>
      file.root == path.root && path.names.isPrefixOf file.names.dropLast then .folder
  else .nothing

/-- The file that a path leads to, if there is one. That a path is too long is a fault of its
own. -/
def file? (folder : Folder) (path : Path) : Except PathFault (Option File) :=
  match path.reach folder.placeAt with
  | .ok place => .ok (List.lookup place folder)
  | .error .tooLong => .error .tooLong
  | .error _ => .ok none

/-! ### Writing

Folders that are missing on the way to a new file are made.
-/

/-- The folders on the way to a path, the outermost first. -/
def ancestors (path : Path) : List Path :=
  (List.range (path.names.length - 1)).map fun i => { path with names := path.names.take (i + 1) }

/-- What is in the way of making the folders around a path, and the path at which it shows, given
whether all folders so far are there. -/
def wayFault? (folder : Folder) (parent : Path) (isThere : Bool) :
    List Path → Option (PathFault × Path)
  | [] => none
  | ancestor :: rest =>
    match ancestor.reach fun _ => .folder with
    | .error cause => some (cause, if isThere then parent else ancestor)
    | .ok place =>
      match folder.placeAt place with
      | .folder => folder.wayFault? parent isThere rest
      | .nothing => folder.wayFault? parent false rest
      | .file => some (if rest.isEmpty then .fileInTheWay else .notFolder, parent)

/-- Why a file cannot be written to a path, and the path at which it shows. -/
def targetFault? (folder : Folder) (path : Path) : Option (PathFault × Path) :=
  let parent := { path with names := path.names.dropLast }
  match folder.wayFault? parent true (ancestors path) with
  | some fault => some fault
  | none =>
    match path.reach fun _ => .folder with
    | .error cause => some (cause, path)
    | .ok place => if folder.placeAt place = .folder then some (.isFolder, path) else none

end Folder

end TemplateFill.CommandLine
