import TemplateFill.CommandLine.Run

/-!
# The program

The outer layer of the command line: it reads the two files, runs, prints, and writes what
has been filled. Archives are packed and unpacked elsewhere, so a template is the folder
of its members here, and the filled one is written as such a folder.
-/

open TemplateFill TemplateFill.CommandLine

def readText? (path : String) : IO (Option String) := do
  try return some (← IO.FS.readFile path)
  catch _ => return none

def readOctets? (path : String) : IO (Option (List UInt8)) := do
  try return some (← IO.FS.readBinFile path).toList
  catch _ => return none

def readContainer (path : String) : IO Container := do
  match ← readText? s!"{path}/word/document.xml" with
  | none => return .loose
  | some document =>
    let name := "word/numbering.xml"
    let numbering ← readText? s!"{path}/{name}"
    return .package ⟨Parts.mainType, document, numbering.map (⟨name, ·⟩)⟩

def readEntry (written : String) : IO (List (Path × File)) := do
  let path := Path.read written
  let octets ← readOctets? path.text
  let container ← readContainer path.text
  match octets, container with
  | none, .loose => return []
  | _, _ => return [(path, ⟨octets.getD [], container⟩)]

def writePackage (path : Path) (package : Package) : IO Unit := do
  let parts := package.toParts
  let members := ⟨"word/document.xml", parts.document⟩ :: parts.numbering.toList
  IO.FS.createDirAll s!"{path.text}/word"
  for member in members do
    IO.FS.writeFile s!"{path.text}/{member.name}" member.text

/-- Run the program on the words of a command line. -/
def main (words : List String) : IO UInt32 := do
  match Arguments.read words with
  | .error ending =>
    IO.print ending.output
    IO.eprint ending.errors
    return UInt32.ofNat ending.code
  | .ok arguments =>
    let files := (← readEntry arguments.template) ++ (← readEntry arguments.data)
    match arguments.run files with
    | .error cause =>
      IO.eprintln cause.message
      return 1
    | .ok outcome =>
      if let some (path, package) := outcome.written then writePackage path package
      IO.eprint outcome.log
      IO.print outcome.output
      return UInt32.ofNat outcome.code
