import TemplateFill.Query.Fault

/-!
# Reading queries

Operators are read by binding power: an operand is followed by operators for as long as
they bind more strongly than the context does. What follows a projection belongs to its
items, up to an operator that ends projections. Readers of parts call each other for parts
inside of parts, and there must be room for that; what stands side by side takes none.
-/

namespace TemplateFill.Query

open Data (Json)

/-- How strongly a token binds what stands before it. -/
def TokenKind.power : TokenKind → Nat
  | .pipe => 1
  | .or => 2
  | .and => 3
  | .equal | .notEqual | .less | .lessEqual | .greater | .greaterEqual => 5
  | .flatten => 9
  | .star => 20
  | .filter => 21
  | .dot => 40
  | .not => 45
  | .lbrace => 50
  | .lbracket => 55
  | .lparen => 60
  | _ => 0

/-- Tokens that bind less strongly than this end a projection. -/
def projectionEnd : Nat := 10

def TokenKind.relation? : TokenKind → Option Relation
  | .equal => some .equal
  | .notEqual => some .notEqual
  | .less => some .less
  | .lessEqual => some .lessEqual
  | .greater => some .greater
  | .greaterEqual => some .greaterEqual
  | _ => none

/-- A place in the token list: the token before it and the tokens from it on, of which the
last is the end token. -/
structure Cursor where
  before : Token
  current : Token
  after : List Token

/-- The next place. There is none behind the end token, which is passed again. -/
def Cursor.advance (here : Cursor) : Cursor :=
  match here.after with
  | [] => ⟨here.current, here.current, []⟩
  | next :: after => ⟨here.current, next, after⟩

def Cursor.kind (here : Cursor) : TokenKind := here.current.kind

def Cursor.nextKind (here : Cursor) : TokenKind :=
  match here.after with
  | [] => here.current.kind
  | next :: _ => next.kind

abbrev Parsing := Except Fault

def Cursor.refuse (here : Cursor) (words : String) : Parsing α :=
  .error (.refusal (.unexpected words here.current))

/-- Blame the current token for not being one of those named; at the end of the text the
query is incomplete instead. -/
def Cursor.refuseFor (here : Cursor) (expected : String) : Parsing α :=
  if here.kind = .eof then .error (.refusal .incomplete)
  else here.refuse s!"Expecting: {expected}, got: {here.kind.name}"

def Cursor.expect (here : Cursor) (kind : TokenKind) : Parsing Cursor :=
  if here.kind = kind then .ok here.advance else here.refuseFor kind.name

def Token.text (token : Token) : String :=
  match token.value with
  | .text s => s
  | _ => ""

def Token.number (token : Token) : Int :=
  match token.value with
  | .int n => n
  | _ => 0

/-- The bounds of a slice up to its closing bracket. `colons` counts the colons passed. -/
def sliceParts : Nat → Nat → Option Int × Option Int × Option Int → Cursor →
    Parsing ((Option Int × Option Int × Option Int) × Cursor)
  | 0, _, _, here => here.refuse "syntax error"
  | bound + 1, colons, parts, here =>
    match here.kind with
    | .rbracket => .ok (parts, here)
    | .colon =>
      if colons = 2 then here.refuse "syntax error"
      else sliceParts bound (colons + 1) parts here.advance
    | .number =>
      let n := some here.current.number
      let (start, stop, step) := parts
      let parts := match colons with
        | 0 => (n, stop, step)
        | 1 => (start, n, step)
        | _ => (start, stop, n)
      sliceParts bound colons parts here.advance
    | _ => here.refuse "syntax error"

/-- A position or a slice, up to and with its closing bracket. -/
def bracketed (here : Cursor) : Parsing (Query × Cursor) :=
  if here.kind = .colon || here.nextKind = .colon then do
    let ((start, stop, step), here) ← sliceParts (here.after.length + 2) 0 (none, none, none) here
    return (.slice start stop step, ← here.expect .rbracket)
  else do
    let position := here.current.number
    return (.index position, ← here.advance.expect .rbracket)

/-- How many tokens are left, the current one included. -/
def Cursor.size (here : Cursor) : Nat := here.after.length + 1

def tooDeep : Parsing α := .error (.breakdown .tooDeep)

def isBracketChain : Query → Bool
  | .chain .bracket _ _ => true
  | _ => false

def isSlice : Query → Bool
  | .slice .. => true
  | _ => false

/-! ### Parts side by side

Each of these is given the readers of its parts. The number bounds their count; that of the tokens
left is enough. -/

/-- The operators after an operand, as long as they bind more strongly than `power`. -/
def operators (operator : Query → Cursor → Parsing (Query × Cursor)) (power : Nat) :
    Nat → Query → Cursor → Parsing (Query × Cursor)
  | 0, _, here => here.refuse "syntax error"
  | bound + 1, left, here =>
    if power < here.kind.power then do
      let (left, here) ← operator left here
      operators operator power bound left here
    else .ok (left, here)

/-- The items of a list constructor, after those already read, up to and with its closing
bracket. -/
def items (expression : Cursor → Parsing (Query × Cursor)) :
    Nat → List Query → Cursor → Parsing (Query × Cursor)
  | 0, _, here => here.refuse "syntax error"
  | bound + 1, found, here => do
    let (item, here) ← expression here
    if here.kind = .rbracket then return (.listOf (found ++ [item]), here.advance)
    else items expression bound (found ++ [item]) (← here.expect .comma)

/-- The members of an object constructor, after those already read, up to and with its
closing brace. A comma between two members may be missing. -/
def members (expression : Cursor → Parsing (Query × Cursor)) :
    Nat → List (String × Query) → Cursor → Parsing (Query × Cursor)
  | 0, _, here => here.refuse "syntax error"
  | bound + 1, found, here =>
    if here.kind = .quotedIdentifier || here.kind = .unquotedIdentifier then do
      let name := here.current.text
      let here ← here.advance.expect .colon
      let (value, here) ← expression here
      let found := found ++ [(name, value)]
      match here.kind with
      | .rbrace => return (.objectOf found, here.advance)
      | .comma => members expression bound found here.advance
      | _ => members expression bound found here
    else here.refuseFor "['quoted_identifier', 'unquoted_identifier']"

/-- The arguments of a call, after those already read, up to and with its closing
parenthesis. A comma between two arguments may be missing. -/
def arguments (expression : Cursor → Parsing (Query × Cursor)) :
    Nat → List Query → Cursor → Parsing (List Query × Cursor)
  | 0, _, here => here.refuse "syntax error"
  | bound + 1, found, here =>
    if here.kind = .rparen then .ok (found, here.advance)
    else do
      let (argument, here) ← expression here
      let here := if here.kind = .comma then here.advance else here
      arguments expression bound (found ++ [argument]) here

/-- A filter whose opening has been passed. -/
def filter (expression projected : Cursor → Parsing (Query × Cursor)) (left : Query)
    (here : Cursor) : Parsing (Query × Cursor) := do
  let (condition, here) ← expression here
  let here ← here.expect .rbracket
  if here.kind = .flatten then return (.filterProjection left .current condition, here)
  else
    let (item, here) ← projected here
    return (.filterProjection left item condition, here)

/-! ### Parts inside each other

The first argument is the room that is left, of which each reader takes one. -/

mutual

/-- An operand and the operators that bind it more strongly than `power`. -/
def expression : Nat → Nat → Cursor → Parsing (Query × Cursor)
  | 0, _, _ => tooDeep
  | room + 1, power, here => do
    let (left, here) ← operand room here.current here.advance
    operators (fun left here => operator room left here) power here.size left here

/-- An operand that begins with the given token, which has been passed. -/
def operand : Nat → Token → Cursor → Parsing (Query × Cursor)
  | 0, _, _ => tooDeep
  | room + 1, token, here =>
    match token.kind with
    | .literal => .ok (.literal token.value, here)
    | .unquotedIdentifier => .ok (.field token.text, here)
    | .quotedIdentifier =>
      if here.kind = .lparen then
        .error (.refusal (.unexpected "Quoted identifier not allowed for function names."
          { here.current with start := 0 }))
      else .ok (.field token.text, here)
    | .star =>
      if here.kind = .rbracket then .ok (.memberProjection .current .current, here)
      else do
        let (item, here) ← projected room TokenKind.star.power here
        return (.memberProjection .current item, here)
    | .filter => filtered room here
    | .lbrace => memberList room here
    | .lparen => do
      let (inner, here) ← expression room 0 here
      return (inner, ← here.expect .rparen)
    | .flatten => do
      let (item, here) ← projected room TokenKind.flatten.power here
      return (.projection (.flatten .current) item, here)
    | .not => do
      let (inner, here) ← expression room TokenKind.not.power here
      return (.negation inner, here)
    | .lbracket =>
      if here.kind = .number || here.kind = .colon then do
        let (part, here) ← bracketed here
        sliced room .current part here
      else if here.kind = .star && here.nextKind = .rbracket then do
        let (item, here) ← projected room TokenKind.star.power here.advance.advance
        return (.projection .current item, here)
      else itemList room here
    | .current => .ok (.current, here)
    | .reference => do
      let (target, here) ← expression room TokenKind.reference.power here
      return (.reference target, here)
    | .eof => .error (.refusal .incomplete)
    | _ => .error (.refusal (.unexpected "invalid token" token))

/-- The operator at the current token, applied to what stands before it. -/
def operator : Nat → Query → Cursor → Parsing (Query × Cursor)
  | 0, _, _ => tooDeep
  | room + 1, left, here =>
    let next := here.advance
    match here.kind with
    | .dot =>
      if next.kind = .star then do
        let (item, here) ← projected room TokenKind.dot.power next.advance
        return (.memberProjection left item, here)
      else do
        let (right, here) ← member room TokenKind.dot.power next
        return (.chain .member left right, here)
    | .pipe => do
      let (right, here) ← expression room TokenKind.pipe.power next
      return (.chain .pipe left right, here)
    | .or => do
      let (right, here) ← expression room TokenKind.or.power next
      return (.either left right, here)
    | .and => do
      let (right, here) ← expression room TokenKind.and.power next
      return (.both left right, here)
    | .lparen =>
      match left with
      | .field name => do
        let (found, here) ← arguments (fun here => expression room 0 here) next.size [] next
        return (.call name found, here)
      | _ =>
        .error (.refusal
          (.unexpected s!"Invalid function name '{here.before.shown}'" here.before))
    | .filter =>
      filter (fun here => expression room 0 here)
        (fun here => projected room TokenKind.filter.power here) left next
    | .flatten => do
      let (item, here) ← projected room TokenKind.flatten.power next
      return (.projection (.flatten left) item, here)
    | .lbracket =>
      if next.kind = .number || next.kind = .colon then do
        let (part, here) ← bracketed next
        if isBracketChain left then return (.chain .bracket left part, here)
        else sliced room left part here
      else do
        let here ← next.expect .star
        let here ← here.expect .rbracket
        let (item, here) ← projected room TokenKind.star.power here
        return (.projection left item, here)
    | kind =>
      match kind.relation? with
      | some relation => compared room relation kind.power left next
      | none => here.refuse "invalid token"

/-- A comparison whose sign has been passed. -/
def compared : Nat → Relation → Nat → Query → Cursor → Parsing (Query × Cursor)
  | 0, _, _, _, _ => tooDeep
  | room + 1, relation, power, left, here => do
    let (right, here) ← expression room power here
    return (.compare relation left right, here)

/-- A position or a slice applied to what stands before it; a slice starts a projection. -/
def sliced : Nat → Query → Query → Cursor → Parsing (Query × Cursor)
  | 0, _, _, _ => tooDeep
  | room + 1, left, part, here =>
    if isSlice part then do
      let (item, here) ← projected room TokenKind.star.power here
      return (.projection (.chain .bracket left part) item, here)
    else .ok (.chain .bracket left part, here)

def filtered : Nat → Cursor → Parsing (Query × Cursor)
  | 0, _ => tooDeep
  | room + 1, here =>
    filter (fun here => expression room 0 here)
      (fun here => projected room TokenKind.filter.power here) .current here

def projected : Nat → Nat → Cursor → Parsing (Query × Cursor)
  | 0, _, _ => tooDeep
  | room + 1, power, here =>
    if here.kind.power < projectionEnd then .ok (.current, here)
    else if here.kind = .lbracket || here.kind = .filter then expression room power here
    else if here.kind = .dot then member room power here.advance
    else here.refuse "syntax error"

def member : Nat → Nat → Cursor → Parsing (Query × Cursor)
  | 0, _, _ => tooDeep
  | room + 1, power, here =>
    match here.kind with
    | .quotedIdentifier | .unquotedIdentifier | .star => expression room power here
    | .lbracket => itemList room here.advance
    | .lbrace => memberList room here.advance
    | kind =>
      here.refuse <|
        "Expecting: ['quoted_identifier', 'unquoted_identifier', 'lbracket', 'lbrace'], " ++
          s!"got: {kind.name}"

/-- A list constructor whose opening has been passed. -/
def itemList : Nat → Cursor → Parsing (Query × Cursor)
  | 0, _ => tooDeep
  | room + 1, here => items (fun here => expression room 0 here) here.size [] here

/-- An object constructor whose opening has been passed. -/
def memberList : Nat → Cursor → Parsing (Query × Cursor)
  | 0, _ => tooDeep
  | room + 1, here => members (fun here => expression room 0 here) here.size [] here

end

def ofTokens [Room] : List Token → Parsing Query
  | [] => .error (.refusal .incomplete)
  | first :: after => do
    let (query, here) ← expression (Room.parsing + 4) 0 ⟨first, first, after⟩
    if here.kind = .eof then return query
    else here.refuse s!"Unexpected token: {here.current.shown}"

def parse [Room] (text : String) : Parsing Query :=
  let s := text.toList
  if s.isEmpty then .error (.refusal .empty)
  else
    match tokens s with
    | .error ⟨.numeral fault, _⟩ => .error (.breakdown (.numeral fault))
    | .error ⟨.tooDeep kind, _⟩ => .error (.breakdown (.unread (.tooDeep kind)))
    | .error ⟨fault, rest⟩ => .error (.refusal (.unreadable fault (s.length - rest.length)))
    | .ok found => ofTokens found

end TemplateFill.Query
