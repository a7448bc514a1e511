import TemplateFill.Data.Reader

/-!
# Tokens of queries

A query text is a sequence of tokens with blanks between them. A backslash inside a
delimited token lets the next character through. A literal in backquotes is a data text,
or failing that the inside of one; a name in double quotes is always the inside of one;
a text in single quotes means itself.
-/

namespace TemplateFill.Query

open Data (Json)

inductive TokenKind where
  | dot
  | star
  | rbracket
  | comma
  | colon
  | current
  | lparen
  | rparen
  | lbrace
  | rbrace
  | lbracket
  | flatten
  | filter
  | unquotedIdentifier
  | quotedIdentifier
  | literal
  | number
  | or
  | pipe
  | and
  | reference
  | lessEqual
  | less
  | greaterEqual
  | greater
  | notEqual
  | not
  | equal
  | eof
  deriving Repr, DecidableEq

def TokenKind.name : TokenKind → String
  | .dot => "dot"
  | .star => "star"
  | .rbracket => "rbracket"
  | .comma => "comma"
  | .colon => "colon"
  | .current => "current"
  | .lparen => "lparen"
  | .rparen => "rparen"
  | .lbrace => "lbrace"
  | .rbrace => "rbrace"
  | .lbracket => "lbracket"
  | .flatten => "flatten"
  | .filter => "filter"
  | .unquotedIdentifier => "unquoted_identifier"
  | .quotedIdentifier => "quoted_identifier"
  | .literal => "literal"
  | .number => "number"
  | .or => "or"
  | .pipe => "pipe"
  | .and => "and"
  | .reference => "expref"
  | .lessEqual => "lte"
  | .less => "lt"
  | .greaterEqual => "gte"
  | .greater => "gt"
  | .notEqual => "ne"
  | .not => "not"
  | .equal => "eq"
  | .eof => "eof"

/-- A token: its kind, the value it carries, and the offset at which it starts. -/
structure Token where
  kind : TokenKind
  value : Json
  start : Nat

inductive TokenFault where
  /-- No token begins like this. -/
  | unknown (text : String)
  /-- A delimited token does not end. -/
  | unclosed (delimiter : Char)
  /-- The inside of a quoted name is not one of a data text. -/
  | badName (words : String)
  /-- A literal is neither a data text nor the inside of one. -/
  | badLiteral (text : String)
  /-- A number is too long. -/
  | numeral (fault : Number.NumeralFault)
  /-- A literal is nested too deeply. -/
  | tooDeep (kind : String)
  deriving Repr, DecidableEq

/-- A fault with the text that was left where it is blamed. -/
structure TokenFailure where
  fault : TokenFault
  rest : List Char
  deriving Repr, DecidableEq

def isNameStart (c : Char) : Bool := c.isAlpha || c = '_'

def isNamePart (c : Char) : Bool := c.isAlphanum || c = '_'

/-- The text up to the delimiter, with its backslashes, and what follows the delimiter. -/
def takeDelimited? (delimiter : Char) : List Char → Option (List Char × List Char)
  | [] => none
  | ['\\'] => none
  | '\\' :: c :: rest =>
    (takeDelimited? delimiter rest).map fun (cs, rest) => ('\\' :: c :: cs, rest)
  | c :: rest =>
    if c = delimiter then some ([], rest)
    else (takeDelimited? delimiter rest).map fun (cs, rest) => (c :: cs, rest)

def unescape (delimiter : Char) : List Char → List Char
  | [] => []
  | [c] => [c]
  | c :: d :: rest =>
    if c = '\\' && d = delimiter then d :: unescape delimiter rest
    else c :: unescape delimiter (d :: rest)

/-- The words of a data text's failure, up to the first colon. -/
def failureWords (text : List Char) (failure : Data.ReadFailure) : String :=
  String.ofList ((failure.message text).toList.takeWhile (· ≠ ':'))

def readName [Room] (inside : List Char) : Except TokenFault Json :=
  let text := ['"'] ++ inside ++ ['"']
  (Data.readChars text).mapError fun failure => .badName (failureWords text failure)

def readLiteral [Room] (inside : List Char) : Except TokenFault Json :=
  let text := unescape '\x60' inside
  match Data.readChars text with
  | .ok value => .ok value
  | .error ⟨.tooDeep kind, _⟩ => .error (.tooDeep kind)
  | .error _ =>
    match Data.readChars (['"'] ++ Text.trimStart text ++ ['"']) with
    | .ok value => .ok value
    | .error _ => .error (.badLiteral (String.ofList text))

def simpleKind? : Char → Option TokenKind
  | '.' => some .dot
  | '*' => some .star
  | ']' => some .rbracket
  | ',' => some .comma
  | ':' => some .colon
  | '@' => some .current
  | '(' => some .lparen
  | ')' => some .rparen
  | '\x7b' => some .lbrace
  | '\x7d' => some .rbrace
  | _ => none

/-- The tokens that one character begins and a second may complete: the second character,
the kind with it, and the kind without it. -/
def pairKind? : Char → Option (Char × TokenKind × TokenKind)
  | '|' => some ('|', .or, .pipe)
  | '&' => some ('&', .and, .reference)
  | '<' => some ('=', .lessEqual, .less)
  | '>' => some ('=', .greaterEqual, .greater)
  | '!' => some ('=', .notEqual, .not)
  | _ => none

/-- A token that has been recognised, before it is given its place. -/
structure Lexeme where
  kind : TokenKind
  value : Json
  rest : List Char

/-- A delimited token: `make` turns its inside into a value. -/
def delimited (kind : TokenKind) (delimiter : Char) (make : List Char → Except TokenFault Json)
    (opening rest : List Char) : Except TokenFailure Lexeme :=
  match takeDelimited? delimiter rest with
  | none => .error ⟨.unclosed delimiter, opening⟩
  | some (inside, rest) =>
    match make inside with
    | .ok value => .ok ⟨kind, value, rest⟩
    | .error fault => .error ⟨fault, opening⟩

/-- A number: digits, or a minus with at least one digit. -/
def numberLexeme (s : List Char) : Except TokenFailure Lexeme :=
  let (negative, body) := match s with
    | '-' :: rest => (true, rest)
    | _ => (false, s)
  let digits := body.takeWhile Data.isAsciiDigit
  if digits.isEmpty then .error ⟨.unknown "'-'", s⟩
  else if Number.digitLimit < digits.length then .error ⟨.numeral (.tooLong digits.length), s⟩
  else
    let value : Int := Data.valueOfDigits digits
    .ok ⟨.number, .int (if negative then -value else value), body.dropWhile Data.isAsciiDigit⟩

/-- The token at the front of a text that does not begin with a blank. A single equals sign
is none. -/
def lexeme [Room] (c : Char) (rest : List Char) : Except TokenFailure Lexeme :=
  let s := c :: rest
  let word (kind : TokenKind) (text : List Char) (rest : List Char) : Except TokenFailure Lexeme :=
    .ok ⟨kind, .text (String.ofList text), rest⟩
  match simpleKind? c with
  | some kind => word kind [c] rest
  | none =>
    match pairKind? c with
    | some (second, long, short) =>
      match rest with
      | d :: rest' => if d = second then word long [c, d] rest' else word short [c] rest
      | [] => word short [c] []
    | none =>
      if isNameStart c then
        word .unquotedIdentifier (s.takeWhile isNamePart) (s.dropWhile isNamePart)
      else if c = '[' then
        match rest with
        | ']' :: rest => word .flatten ['[', ']'] rest
        | '?' :: rest => word .filter ['[', '?'] rest
        | _ => word .lbracket ['['] rest
      else if c = '\'' then
        delimited .literal '\''
          (fun inside => .ok (.text (String.ofList (unescape '\'' inside)))) s rest
      else if c = '\x60' then delimited .literal '\x60' readLiteral s rest
      else if c = '"' then delimited .quotedIdentifier '"' readName s rest
      else if c = '-' || Data.isAsciiDigit c then numberLexeme s
      else if c = '=' then
        match rest with
        | '=' :: rest => word .equal ['=', '='] rest
        | _ => .error ⟨.unknown "'='", s⟩
      else .error ⟨.unknown (String.ofList [c]), s⟩

/-- The tokens of a text, closed by the end token. `total` is the length of the whole text;
the first argument bounds the number of steps. -/
def tokensFrom [Room] (total : Nat) : Nat → List Char → Except TokenFailure (List Token)
  | 0, _ => .ok []
  | _ + 1, [] => .ok [⟨.eof, .text "", total⟩]
  | bound + 1, c :: rest =>
    if Data.isSpace c then tokensFrom total bound rest
    else do
      let found ← lexeme c rest
      let tokens ← tokensFrom total bound found.rest
      return ⟨found.kind, found.value, total - (rest.length + 1)⟩ :: tokens

def tokens [Room] (s : List Char) : Except TokenFailure (List Token) :=
  tokensFrom s.length (s.length + 1) s

end TemplateFill.Query
