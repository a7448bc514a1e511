import TemplateFill.Xml.Character

/-!
# Identifiers

The identifier of a name space is a reference to a resource: a scheme, an authority behind two
slashes, a path, a query and a fragment, of which only the path has to be there and may be
empty. Only ASCII characters stand for themselves; all others are written as octets behind
percent signs.
-/

namespace TemplateFill.Xml.Identifier

/-- Whether a character is among the letters, digits and marks that never have a meaning of
their own. -/
def isUnreserved (c : Char) : Bool := c.isAlphanum || "-._~".toList.contains c

/-- Whether a character can separate parts of a segment. -/
def isSeparator (c : Char) : Bool := "!$&'()*+,;=".toList.contains c

/-- Whether a character can be in a segment of a path, taken for itself. -/
def isSegmentChar (c : Char) : Bool :=
  isUnreserved c || isSeparator c || c = ':' || c = '@'

def isHexDigit (c : Char) : Bool :=
  c.isDigit || ('a' ≤ c && c ≤ 'f') || ('A' ≤ c && c ≤ 'F')

/-- Whether a text consists of some characters and of octets behind percent signs. -/
def isMadeOf (allowed : Char → Bool) : List Char → Bool
  | [] => true
  | '%' :: high :: low :: rest => isHexDigit high && isHexDigit low && isMadeOf allowed rest
  | c :: rest => allowed c && isMadeOf allowed rest

/-- Cut a text in front of the first character of a kind. -/
def cutBefore (isEnd : Char → Bool) (s : List Char) : List Char × List Char :=
  (s.takeWhile (!isEnd ·), s.dropWhile (!isEnd ·))

def isScheme : List Char → Bool
  | [] => false
  | c :: rest => c.isAlpha && rest.all fun c => c.isAlphanum || "+-.".toList.contains c

/-- The highest number behind a host. -/
def numberLimit : Nat := 2147483647

/-- Whether a text is a number that can stand behind a host. -/
def isHostNumber (s : List Char) : Bool :=
  !s.isEmpty && s.all Char.isDigit &&
    s.foldl (fun n c => n * 10 + (c.toNat - '0'.toNat)) 0 ≤ numberLimit

def isHostChar (c : Char) : Bool := isUnreserved c || isSeparator c

/-- Whether a text is a host and perhaps a number. A host in brackets may hold anything. -/
def isPlace (s : List Char) : Bool :=
  match s with
  | '[' :: inside =>
    match cutBefore (· = ']') inside with
    | (_, [']']) => true
    | (_, ']' :: ':' :: number) => isHostNumber number
    | _ => false
  | s =>
    match cutBefore (· = ':') s with
    | (host, []) => isMadeOf isHostChar host
    | (host, _ :: number) => isMadeOf isHostChar host && isHostNumber number

/-- Whether a text is an authority: a place, perhaps behind the name of a user. -/
def isAuthority (s : List Char) : Bool :=
  match cutBefore (· = '@') s with
  | (_, []) => isPlace s
  | (user, _ :: place) =>
    isMadeOf (fun c => isHostChar c || c = ':') user && isPlace place

def isPath (s : List Char) : Bool := isMadeOf (fun c => isSegmentChar c || c = '/') s

/-- Whether a text is an authority behind two slashes and a path behind it, or only a path. -/
def isHierarchy (s : List Char) : Bool :=
  match s with
  | '/' :: '/' :: rest =>
    let (authority, path) := cutBefore (· = '/') rest
    isAuthority authority && isPath path
  | s => isPath s

/-- Whether a text without query and fragment has a scheme in front, or none in a form that
cannot be taken for one. -/
def isLocation (s : List Char) : Bool :=
  match cutBefore (· = ':') s with
  | (_, []) => isHierarchy s
  | (front, _ :: rest) =>
    (isScheme front && isHierarchy rest) || (front.contains '/' && isHierarchy s)

def isValid (s : List Char) : Bool :=
  let (front, fragment) := cutBefore (· = '#') s
  let (location, query) := cutBefore (· = '?') front
  isLocation location &&
    isMadeOf (fun c => isSegmentChar c || c = '/' || c = '?') (query.drop 1) &&
    isMadeOf (fun c => isSegmentChar c || "/?[]".toList.contains c) (fragment.drop 1)

end TemplateFill.Xml.Identifier
