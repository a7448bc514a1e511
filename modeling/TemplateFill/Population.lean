import TemplateFill.Data.Source
import TemplateFill.Package
import TemplateFill.Report
import TemplateFill.Walk.Basic

/-!
# Population

To populate a template is to load the data, open the template, walk over its body, and put
the report of the problems in front. Problems do not stop a population; it fails only if
there is no data object, no usable template, or no way to write the report.
-/

namespace TemplateFill

open Xml

namespace Population

def records (findings : List Walk.Finding) : List Record :=
  findings.map fun finding => ⟨finding.problem.message, some finding.subject⟩

/-- Fill a body, which has no parent here, and report the problems. -/
def fillBody (options : Options) (data : Datum) (lists : Walk.ListStore) (body : Node) :
    Except Fault (Node × Walk.Progress) :=
  let (filled, progress) := Walk.populate options body data (.start lists)
  match Report.render options (records progress.findings) filled with
  | (_, some fault) => .error fault
  | (reported, none) =>
    let notices := progress.notices ++ [.filled progress.findings.length]
    .ok (reported, { progress with notices := notices })

inductive Failure where
  | data (cause : Data.LoadFault)
  | template (cause : Package.Rejection)
  | report (cause : Fault)

def Failure.message : Failure → String
  | .data cause => cause.message
  | .template cause => cause.message
  | .report cause => cause.message

/-- Whether a failure is blamed on the input. The others are faults of processing: markup or
octets that cannot be read, data that is nested too deeply, a main document of another kind, and a
report that cannot be written. -/
def Failure.isRefusal : Failure → Bool
  | .data (.undecodable _) => false
  | .data (.noFile .holdsNull _) => false
  | .data (.tooDeep _) => false
  | .data _ => true
  | .template cause => cause.isRefusal
  | .report _ => false

/-- A filled package, the wordings of the problems met, and what there is to tell. -/
structure Outcome where
  package : Package
  problems : List String
  notices : List Walk.Notice

def fillPackage (options : Options) (data : Datum) (package : Package) :
    Except Failure Outcome := do
  let body ← package.body.mapError .template
  let (filled, progress) ←
    (fillBody options data (.document package.definitions) body).mapError .report
  let definitions :=
    match progress.lists with
    | .document root => root
    | .free _ => package.definitions
  return ⟨(package.withBody filled).withDefinitions definitions,
    progress.findings.map (·.problem.message), progress.notices⟩

/-- Populate a template. The data is loaded before the template is opened. -/
def populate (options : Options) (origin : Origin) (template : Container)
    (source : Data.Source) : Except Failure Outcome := do
  let data ← source.load.mapError .data
  let package ← (Package.ofContainer origin template).mapError .template
  fillPackage options (.ofJson data) package

end Population

end TemplateFill
