import TemplateFill.Xml.Doctype

/-!
# Declarations

The type of a document is read from its declarations, one after the other. An element, a notation
and the alternatives of an attribute are declared only once, a value by default is one that the
attribute can have, and no element has two attributes that are ids.
-/

namespace TemplateFill.Xml

namespace Doctype

def isPublicChar (c : Char) : Bool :=
  c.isAlphanum || c = '\n' || c = '\r' || " -'()+,./:=?;!*#@$_%".contains c

/-- A quoted text of writable characters, and what follows it. -/
def takeLiteral? (s : List Char) : Option (List Char × List Char) := do
  let (content, rest) ← takeQuoted? s
  if content.all isWritable then return (content, rest) else none

/-- Pass over blanks and a public identifier. -/
def afterPublic? (s : List Char) : Option (List Char) := do
  let (identifier, rest) ← takeQuoted? (← afterSpace? s)
  if identifier.all isPublicChar then return rest else none

/-- Pass over blanks and a system identifier. -/
def afterSystem? (s : List Char) : Option (List Char) := do
  return (← takeLiteral? (← afterSpace? s)).2

/-- Pass over an external identifier: a system identifier, or a public one and a system one. -/
def afterExternal? (s : List Char) : Option (List Char) :=
  match afterWord? "SYSTEM" s, afterWord? "PUBLIC" s with
  | some rest, _ => afterSystem? rest
  | none, some rest => do afterSystem? (← afterPublic? rest)
  | none, none => none

/-- Pass over a mark of how often a part may occur. -/
def skipOccurrence : List Char → List Char
  | [] => []
  | c :: rest => if c = '?' || c = '*' || c = '+' then rest else c :: rest

mutual

/-- Pass over a part of a content model: a name or a group. -/
def afterPart? : Nat → List Char → Option (List Char)
  | 0, _ => none
  | bound + 1, '(' :: rest => do
    let rest ← afterPart? bound (skipSpace rest)
    return skipOccurrence (← afterParts? bound none (skipSpace rest))
  | _, s => do return skipOccurrence (← takeName? s).2

/-- Pass over the further parts of a group and the bracket that closes it. All parts are
separated by the same mark. -/
def afterParts? : Nat → Option Char → List Char → Option (List Char)
  | _, _, ')' :: rest => some rest
  | bound + 1, mark, c :: rest => do
    if !(c = ',' || c = '|') || mark.any (· != c) then none
    let rest ← afterPart? bound (skipSpace rest)
    afterParts? bound (some c) (skipSpace rest)
  | _, _, _ => none

end

/-- The names of a group, each behind a bar, up to the bracket that closes it. -/
def takeNames? (takeOne : List Char → Option (String × List Char)) :
    Nat → List Char → Option (List String × List Char)
  | bound + 1, '|' :: rest => do
    let (name, rest) ← takeOne (skipSpace rest)
    let (names, rest) ← takeNames? takeOne bound (skipSpace rest)
    return (name :: names, rest)
  | _, ')' :: rest => some ([], rest)
  | _, _ => none

def afterName? (s : List Char) : Option (List Char) := (takeName? s).map (·.2)

/-- A word of name characters, with which no name need begin, and what follows it. -/
def takeWord? (s : List Char) : Option (String × List Char) :=
  let isPart (c : Char) : Bool := continuesName c || c = ':'
  let rest := s.dropWhile isPart
  if rest.length < s.length then some (String.ofList (s.takeWhile isPart), rest) else none

/-- What an element may contain, and what follows it. -/
def takeContentModel? (s : List Char) : Option (ContentModel × List Char) :=
  match afterWord? "EMPTY" s, afterWord? "ANY" s, s with
  | some rest, _, _ => some (.mixed, rest)
  | _, some rest, _ => some (.mixed, rest)
  | _, _, '(' :: inside =>
    match afterWord? "#PCDATA" (skipSpace inside) with
    | none => (afterPart? (s.length + 1) s).map (.elements, ·)
    | some rest =>
      match skipSpace rest with
      | ')' :: '*' :: rest => some (.mixed, rest)
      | ')' :: rest => some (.mixed, rest)
      | rest =>
        match takeNames? takeName? rest.length rest with
        | some (_, '*' :: rest) => some (.mixed, rest)
        | _ => none
  | _, _, _ => none

/-- Pass over the bracket that ends a declaration. -/
def afterEnd? (s : List Char) : Option (List Char) :=
  match skipSpace s with
  | '>' :: rest => some rest
  | _ => none

/-- The text of an entity: references by number are resolved, others stay. -/
def entityText? : Nat → List Char → Option (List Char)
  | _, [] => some []
  | 0, _ => none
  | _, '%' :: _ => none
  | bound + 1, '&' :: '#' :: rest => do
    let (number, rest) ← splitAtMark? [';'] rest
    return (← characterOfNumber? number) :: (← entityText? bound rest)
  | bound + 1, '&' :: rest => do
    let (_, after) ← takeReference? rest
    let reference := rest.take (rest.length - after.length)
    return '&' :: reference ++ (← entityText? bound after)
  | bound + 1, c :: rest => (entityText? bound rest).map (c :: ·)

def takeEntityValue? (isParameter : Bool) (s : List Char) :
    Option (EntityValue × List Char) :=
  match takeLiteral? s with
  | some (literal, rest) => do
    let content ← entityText? literal.length (Text.unifyBreaks literal)
    return (.text content, rest)
  | none => do
    let rest ← afterExternal? s
    match if isParameter then none else afterWord? "NDATA" (skipSpace rest) with
    | none => return (.outside, rest)
    | some after => do
      let _ ← afterSpace? rest
      return (.foreign, ← afterName? (← afterSpace? after))

/-- The declaration of an entity, read behind its opening word. -/
def takeEntity? (doctype : Doctype) (s : List Char) : Option (Doctype × List Char) := do
  let s ← afterSpace? s
  let (isParameter, s) ←
    match s with
    | '%' :: rest => do pure (true, ← afterSpace? rest)
    | s => pure (false, s)
  let (name, s) ← takeName? s
  if name.contains ':' then none
  let (value, s) ← takeEntityValue? isParameter (← afterSpace? s)
  let rest ← afterEnd? s
  if isParameter then
    return ({ doctype with parameters := doctype.parameters ++ [(name, value)] }, rest)
  else return ({ doctype with entities := doctype.entities ++ [(name, value)] }, rest)

/-- The kinds of values that have a word for them. No word comes before a longer one. -/
def kindWords : List (String × ValueKind) :=
  [("CDATA", .text), ("IDREFS", .names), ("IDREF", .name), ("ID", .id), ("ENTITIES", .names),
   ("ENTITY", .name), ("NMTOKENS", .words), ("NMTOKEN", .word)]

/-- Pass over the alternatives of an attribute, read behind their opening bracket. No two are
the same. -/
def afterAlternatives? (takeOne : List Char → Option (String × List Char)) (s : List Char) :
    Option (List Char) := do
  let (first, rest) ← takeOne (skipSpace s)
  let (more, rest) ← takeNames? takeOne rest.length (skipSpace rest)
  if (first :: more).Nodup then return rest else none

def takeKind? (s : List Char) : Option (ValueKind × List Char) :=
  match kindWords.findSome? fun (word, kind) => (afterWord? word s).map (kind, ·),
    afterWord? "NOTATION" s, s with
  | some found, _, _ => some found
  | _, some rest, _ =>
    match afterSpace? rest with
    | some ('(' :: rest) => (afterAlternatives? takeName? rest).map (.name, ·)
    | _ => none
  | _, _, '(' :: rest => (afterAlternatives? takeWord? rest).map (.words, ·)
  | _, _, _ => none

/-- The value by default of an attribute, if it has one, and what follows it. -/
def takeDefault? (doctype : Doctype) (s : List Char) : Option (Option String × List Char) :=
  match afterWord? "#REQUIRED" s, afterWord? "#IMPLIED" s, afterWord? "#FIXED" s with
  | some rest, _, _ => some (none, rest)
  | _, some rest, _ => some (none, rest)
  | _, _, some rest => do takeValue (← afterSpace? rest)
  | _, _, _ => takeValue s
where
  /-- A quoted value. -/
  takeValue (s : List Char) : Option (Option String × List Char) := do
    let (raw, rest) ← takeQuoted? s
    return (some (← doctype.readDefault? raw), rest)

/-- The document type with one more rule, of which only the first for an attribute counts. The
value by default has to be of its kind, and an element has at most one attribute whose values
are ids. -/
def addRule? (doctype : Doctype) (rule : AttributeRule) : Option Doctype :=
  let isOther (known : AttributeRule) : Bool :=
    rule.kind = .id && known.kind = .id && known.element == rule.element
  if (rule.name == idAttribute && rule.kind != .id) || rule.value?.any (!rule.kind.admits ·) then
    none
  else if (doctype.rule? rule.element rule.name).isSome then some doctype
  else if doctype.rules.any isOther then none
  else some { doctype with rules := doctype.rules ++ [rule] }

/-- The rules for the attributes of an element, read behind its name. -/
def takeRules? (element : String) : Nat → Doctype → List Char → Option (Doctype × List Char)
  | 0, _, _ => none
  | bound + 1, doctype, s =>
    match skipSpace s with
    | '>' :: rest => some (doctype, rest)
    | _ => do
      let (name, s) ← takeName? (← afterSpace? s)
      let (kind, s) ← takeKind? (← afterSpace? s)
      let (value?, s) ← takeDefault? doctype (← afterSpace? s)
      let rule := ⟨element, name, kind, value?.map kind.tidy⟩
      takeRules? element bound (← doctype.addRule? rule) s

/-- The declaration of the attributes of an element, read behind its opening word. -/
def takeAttributes? (doctype : Doctype) (s : List Char) : Option (Doctype × List Char) := do
  let (element, s) ← takeName? (← afterSpace? s)
  takeRules? element s.length doctype s

/-- The declaration of an element, read behind its opening word. -/
def takeElement? (doctype : Doctype) (s : List Char) : Option (Doctype × List Char) := do
  let (name, s) ← takeName? (← afterSpace? s)
  let (model, s) ← takeContentModel? (← afterSpace? s)
  let rest ← afterEnd? s
  if (doctype.elements.lookup name).isSome then none
  else return ({ doctype with elements := doctype.elements ++ [(name, model)] }, rest)

/-- The declaration of a notation, read behind its opening word. A public identifier is enough
for it. -/
def takeNotation? (doctype : Doctype) (s : List Char) : Option (Doctype × List Char) := do
  let (name, s) ← takeName? (← afterSpace? s)
  let s ← afterSpace? s
  let rest ←
    match afterWord? "PUBLIC" s with
    | none => do afterEnd? (← afterExternal? s)
    | some rest => do
      let rest ← afterPublic? rest
      afterEnd? ((afterSystem? rest).getD rest)
  if doctype.notations.contains name then none
  else return ({ doctype with notations := doctype.notations ++ [name] }, rest)

/-- Pass over a comment, read behind its opening. Two hyphens can only stand at its end. -/
def takeComment? (s : List Char) : Option (List Char × List Char) := do
  let (content, rest) ← splitAtMark? ['-', '-'] s
  match rest with
  | '>' :: rest => if content.all isWritable then return (content, rest) else none
  | _ => none

/-- The target and the content of an instruction, read behind its opening, and what follows it.
No instruction is for markup itself, and its target has no colon. -/
def takeInstruction? (s : List Char) : Option (String × List Char × List Char) := do
  let (target, rest) ← takeName? s
  if target.toLower == "xml" || target.contains ':' then none
  let (content, after) ← splitAtMark? ['?', '>'] rest
  if content.head?.any (!isSpace ·) || !content.all isWritable then none
  return (target, skipSpace content, after)

/-- One declaration, comment or instruction, and what follows it. -/
def takeDeclaration? (doctype : Doctype) (s : List Char) : Option (Doctype × List Char) :=
  match afterWord? "<!ELEMENT" s, afterWord? "<!ATTLIST" s, afterWord? "<!ENTITY" s,
    afterWord? "<!NOTATION" s with
  | some rest, _, _, _ => takeElement? doctype rest
  | _, some rest, _, _ => takeAttributes? doctype rest
  | _, _, some rest, _ => takeEntity? doctype rest
  | _, _, _, some rest => takeNotation? doctype rest
  | _, _, _, _ =>
    match afterWord? "<!--" s, afterWord? "<?" s with
    | some rest, _ => (takeComment? rest).map fun (_, rest) => (doctype, rest)
    | _, some rest => (takeInstruction? rest).map fun (_, _, rest) => (doctype, rest)
    | _, _ => none

/-- The declarations up to the closing bracket. An entity that stands for declarations is
replaced by them, if they are known. The first argument bounds the number of steps. -/
def takeDeclarations? : Nat → Doctype → List Char → Option (Doctype × List Char)
  | 0, _, _ => none
  | bound + 1, doctype, s =>
    match skipSpace s with
    | ']' :: rest => some (doctype, rest)
    | '%' :: rest => do
      let (name, rest) ← takeName? rest
      match rest with
      | ';' :: rest =>
        let opened := { doctype with isOpen := true }
        match doctype.parameters.lookup name with
        | some (.text content) => takeDeclarations? bound opened (content ++ ' ' :: rest)
        | some _ => takeDeclarations? bound opened rest
        | none => if opened.isStrict then none else takeDeclarations? bound opened rest
      | _ => none
    | s => do
      let (doctype, rest) ← takeDeclaration? doctype s
      takeDeclarations? bound doctype rest

/-- How many steps beyond the length of the text the entities in it may take. -/
def declarationLimit : Nat := 1000

/-- The document type, read behind its opening word, and what follows it. -/
def take? (isStandalone : Bool) (s : List Char) : Option (Doctype × List Char) := do
  let s := skipSpace (← afterName? (← afterSpace? s))
  let (isOpen, s) ←
    match afterWord? "SYSTEM" s, afterWord? "PUBLIC" s with
    | none, none => pure (false, s)
    | _, _ => do pure (true, skipSpace (← afterExternal? s))
  let doctype := { empty isStandalone with isOpen := isOpen }
  match s with
  | '[' :: rest => do
    let (doctype, rest) ← takeDeclarations? (rest.length + declarationLimit) doctype rest
    return (doctype, ← afterEnd? rest)
  | '>' :: rest => return (doctype, rest)
  | _ => none

end Doctype

end TemplateFill.Xml
