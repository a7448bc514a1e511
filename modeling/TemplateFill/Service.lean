import TemplateFill.Population
import TemplateFill.Text.Percent

/-!
# The service

What a service that populates uploaded templates answers. An upload that is refused is a bad
request; every other failure is left to whoever serves it.
-/

namespace TemplateFill

def version : String := "0.1.0"

namespace Service

structure Health where
  status : String
  version : String
  deriving Repr, DecidableEq

def health : Health := ⟨"ok", TemplateFill.version⟩

def mediaType : String :=
  "application/vnd.openxmlformats-officedocument.wordprocessingml.document"

/-- The header that names a download. A name in ASCII is quoted as it is, every other one is
percent encoded. -/
def contentDisposition (name : String) : String :=
  if name.toList.all (·.toNat < 0x80) then s!"attachment; filename=\"{name}\""
  else "attachment; filename*=UTF-8''" ++ Text.percentEncode name

/-- A text up to its last dot, or all of it if it has none. -/
def beforeLastDot (s : List Char) : List Char :=
  match s.reverse.dropWhile (· != '.') with
  | [] => s
  | _ :: front => front.reverse

def downloadName (upload : Option String) : String :=
  let name := upload.getD ""
  let given := if name.isEmpty then "document.docx" else name
  String.ofList (beforeLastDot given.toList) ++ ".filled.docx"

/-- A filled template on its way back. -/
structure Delivery where
  package : Package
  disposition : String
  problems : Nat

inductive Failure where
  /-- The upload is refused. -/
  | badRequest (detail : String)
  | broken (cause : Population.Failure)

def populate (options : Options) (upload : Option String) (template : Container)
    (data : String) : Except Failure Delivery :=
  match Population.populate options .octets template (.text data) with
  | .ok outcome =>
    .ok ⟨outcome.package, contentDisposition (downloadName upload), outcome.problems.length⟩
  | .error cause =>
    if cause.isRefusal then .error (.badRequest cause.message) else .error (.broken cause)

def validate (template : Container) : Except Package.Rejection Bool :=
  Package.isUsable .octets template

end Service

end TemplateFill
