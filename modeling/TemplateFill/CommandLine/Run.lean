import TemplateFill.CommandLine.Arguments
import TemplateFill.CommandLine.Folder
import TemplateFill.CommandLine.Log

/-!
# Running the command line

A run takes two files, fills the one with the other, and writes a
third one. It looks for both files before it reads either.
-/

namespace TemplateFill.CommandLine

structure Outcome where
  code : Nat
  /-- What is printed. -/
  output : String
  /-- What is printed about mistakes and progress. -/
  log : String
  written : Option (Path × Package)

/-- Why a run breaks off. -/
inductive Failure where
  | population (cause : Population.Failure)
  /-- A path cannot be followed, or not be written to. -/
  | noAccess (cause : PathFault) (path : Path)

def Failure.message : Failure → String
  | .population cause => cause.message
  | .noAccess cause path => path.fault cause

namespace Arguments

def options (arguments : Arguments) : Options :=
  { Options.standard with
    replaceLineBreaks := arguments.lineBreaks
    showErrors := arguments.showErrors }

def least (arguments : Arguments) : Level :=
  if arguments.quiet then .error else if arguments.verbose then .debug else .info

def target (arguments : Arguments) : Path :=
  match arguments.output with
  | none | some "" => (Path.read arguments.template).withExtension ".filled.docx"
  | some output => Path.read output

def stop (arguments : Arguments) (entries : List Entry) (reason : String) : Outcome :=
  ⟨1, "", showLog arguments.least (entries ++ [⟨.error, reason⟩]), none⟩

def opening (arguments : Arguments) : List Entry :=
  [⟨.debug, "Template: " ++ (Path.read arguments.template).text⟩,
    ⟨.debug, "Data:     " ++ (Path.read arguments.data).text⟩,
    ⟨.debug, "Output:   " ++ arguments.target.text⟩]

def succeed (arguments : Arguments) (outcome : Population.Outcome) : Outcome :=
  let problems := outcome.problems.length
  let isStrictFailure := arguments.strict && problems != 0
  let verdict : List Entry :=
    if isStrictFailure then [⟨.error, s!"{problems} placeholder error(s)"⟩] else []
  let entries := arguments.opening ++ outcome.notices.map .ofNotice ++ verdict
  ⟨if isStrictFailure then 1 else 0,
    if arguments.quiet then "" else "Populated: " ++ arguments.target.text ++ "\n",
    showLog arguments.least entries, some (arguments.target, outcome.package)⟩

def find (folder : Folder) (path : Path) : Except Failure (Option File) :=
  (folder.file? path).mapError (.noAccess · path)

/-- The outcome of a run that fills a template, if there is a place for it. -/
def deliver (arguments : Arguments) (folder : Folder) (outcome : Population.Outcome) :
    Except Failure Outcome :=
  match folder.targetFault? arguments.target with
  | some (cause, path) => .error (.noAccess cause path)
  | none => .ok (arguments.succeed outcome)

/-- Run the command line in a folder. A refused template or data object is an outcome, every
other failure is not. -/
def run (arguments : Arguments) (folder : Folder) : Except Failure Outcome := do
  let template := Path.read arguments.template
  let data := Path.read arguments.data
  match ← find folder template with
  | none => return arguments.stop [] ("File not found: " ++ template.text)
  | some templateFile =>
    match ← find folder data with
    | none => return arguments.stop [] ("File not found: " ++ data.text)
    | some dataFile =>
      match Population.populate arguments.options (.path template.text) templateFile.container
          (.file data (some dataFile.octets)) with
      | .ok outcome => arguments.deliver folder outcome
      | .error cause =>
        if cause.isRefusal then return arguments.stop arguments.opening cause.message
        else throw (.population cause)

end Arguments

end TemplateFill.CommandLine
