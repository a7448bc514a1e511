import TemplateFill.Text.CodePage
import TemplateFill.Xml.Character

/-!
# Declarations of markup

A document may begin with a declaration: the version of the markup, then perhaps the encoding,
then perhaps whether the document stands alone. A byte order mark may stand in front of it and
settles the encoding. Without the mark the octets of the document are read in the encoding that
is declared.
-/

namespace TemplateFill.Xml

/-- What a document says of itself at its front. -/
structure Declaration where
  encoding? : Option String
  isStandalone : Bool
  deriving Repr, DecidableEq

namespace Declaration

def absent : Declaration := ⟨none, false⟩

/-- Whether this is the number of a version that can be read: the first one, with any
revision. -/
def isVersion : List Char → Bool
  | '1' :: '.' :: revision => revision.all Char.isDigit
  | _ => false

def isEncodingName : List Char → Bool
  | [] => false
  | c :: rest =>
    c.isAlpha && rest.all fun c => c.isAlphanum || c = '.' || c = '_' || c = '-'

/-- The quoted value behind a word and an equals sign, and what follows it. -/
def takeSetting? (word : String) (s : List Char) : Option (List Char × List Char) := do
  match skipSpace (← afterWord? word s) with
  | '=' :: rest => takeQuoted? (skipSpace rest)
  | _ => none

/-- The further settings behind blanks; `none` if the declaration ends here. A setting has to
be separated from what is in front of it. -/
def furtherSettings? (s : List Char) : Option (Option (List Char)) :=
  match afterWord? "?>" s with
  | some _ => some none
  | none => (afterSpace? s).map some

/-- Whether the document stands alone, and what follows it. Nothing else is left to be
said. -/
def takeStandalone? (s : List Char) : Option (Bool × List Char) := do
  let (isStandalone, rest) ←
    match afterWord? "standalone" s with
    | none => pure (false, s)
    | some _ => do
      let (value, rest) ← takeSetting? "standalone" s
      match String.ofList value with
      | "yes" => pure (true, rest)
      | "no" => pure (false, rest)
      | _ => none
  return (isStandalone, ← afterWord? "?>" (skipSpace rest))

/-- The encoding and whether the document stands alone, and what follows them. -/
def takeEncoding? (s : List Char) : Option (Declaration × List Char) :=
  match afterWord? "encoding" s with
  | none => do
    let (isStandalone, rest) ← takeStandalone? s
    return (⟨none, isStandalone⟩, rest)
  | some _ => do
    let (name, rest) ← takeSetting? "encoding" s
    if !isEncodingName name then none
    let encoding := String.ofList name
    match ← furtherSettings? rest with
    | none => return (⟨some encoding, false⟩, ← afterWord? "?>" rest)
    | some settings => do
      let (isStandalone, rest) ← takeStandalone? settings
      return (⟨some encoding, isStandalone⟩, rest)

/-- The declaration at the front of a document, and what follows it. -/
def take? (s : List Char) : Option (Declaration × List Char) :=
  match (afterWord? "<?xml" s).bind afterSpace? with
  | none => some (absent, s)
  | some settings => do
    let (version, rest) ← takeSetting? "version" settings
    if !isVersion version then none
    match ← furtherSettings? rest with
    | none => return (absent, ← afterWord? "?>" rest)
    | some settings => takeEncoding? settings

def byteOrderMark : Char := Char.ofNat 0xFEFF

/-- The names of the encoding in which a document is read if it does not say anything. -/
def utf8Names : List String := ["utf-8", "utf8"]

/-- Read some text again in another encoding than it was read in. -/
def decodeAgain? (encoding : String) (s : List Char) : Option (List Char) :=
  if utf8Names.contains encoding.toLower then some s
  else Text.CodePage.decodeNamed? encoding (s.flatMap String.utf8EncodeChar)

/-- Read the front of a document: whether it stands alone, and what follows its declaration. -/
def open? (s : List Char) : Option (Bool × List Char) :=
  match s with
  | [] => none
  | c :: rest => do
    if c = byteOrderMark then
      let (declaration, rest) ← take? rest
      return (declaration.isStandalone, rest)
    else
      let (declaration, rest) ← take? s
      match declaration.encoding? with
      | none => return (declaration.isStandalone, rest)
      | some encoding => return (declaration.isStandalone, ← decodeAgain? encoding rest)

end Declaration

end TemplateFill.Xml
