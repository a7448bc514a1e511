import TemplateFill.CommandLine.Switch
import TemplateFill.Text.Digit
import TemplateFill.Text.Quoted

/-!
# Words of a command line

Every word of a command line is classified before any of them is acted upon. A word that
begins with a dash uses a switch if it spells one, or begins the long spelling of exactly
one, or begins with a short one; the value of a switch may be glued to it. A negative number
and a word with a space in it are plain words in spite of their dash. Behind the separator
all words are plain.
-/

namespace TemplateFill.CommandLine

structure Use where
  spelling : String
  switch : Switch
  /-- The value that is part of the word. -/
  glued : Option String
  deriving Repr, DecidableEq

inductive Word where
  /-- Two dashes alone. -/
  | separator
  | plain (text : String)
  | use (text : String) (use : Use)
  /-- A word like a switch that is none. -/
  | unknown (text : String)
  deriving Repr, DecidableEq

def separatorText : String := "--"

def Word.text : Word → String
  | .separator => separatorText
  | .plain text => text
  | .use text _ => text
  | .unknown text => text

inductive Complaint where
  | ambiguous (text : String) (spellings : List String)
  /-- The value of a switch is missing. -/
  | noValue (switch : Switch)
  /-- A value is glued to a switch that takes none. -/
  | ignoredValue (switch : Switch) (glued : String)
  | conflict (switch other : Switch)
  | missing (arguments : List String)
  | unrecognized (words : List String)
  deriving Repr, DecidableEq

def Complaint.message : Complaint → String
  | .ambiguous text spellings =>
    s!"ambiguous option: {text} could match " ++ ", ".intercalate spellings
  | .noValue switch => s!"argument {switch.label}: expected one argument"
  | .ignoredValue switch glued =>
    s!"argument {switch.label}: ignored explicit argument " ++ Text.quoted glued
  | .conflict switch other => s!"argument {switch.label}: not allowed with argument {other.label}"
  | .missing arguments =>
    "the following arguments are required: " ++ ", ".intercalate arguments
  | .unrecognized words => "unrecognized arguments: " ++ " ".intercalate words

/-- Whether a word is a number behind a dash: some digits, or some digits behind a point. One
line break at the end does not count. -/
def isNegativeNumber (s : List Char) : Bool :=
  match s with
  | '-' :: rest =>
    let number := if rest.getLast? = some '\n' then rest.dropLast else rest
    match number.dropWhile Text.isDecimalDigit with
    | [] => !number.isEmpty
    | '.' :: digits => !digits.isEmpty && digits.all Text.isDecimalDigit
    | _ => false
  | _ => false

/-- The spelling in a word and the value glued to it by an equals sign. -/
def splitGlued (s : List Char) : String × Option String :=
  match s.dropWhile (· != '=') with
  | [] => (String.ofList s, none)
  | _ :: glued => (String.ofList (s.takeWhile (· != '=')), some (String.ofList glued))

/-- The switches that a word may mean although it does not spell them. -/
def candidates (s : List Char) : List Use :=
  match s with
  | '-' :: '-' :: _ =>
    let (start, glued) := splitGlued s
    (Switch.spellings.filter fun (spelling, _) => start.toList.isPrefixOf spelling.toList).map
      fun (spelling, switch) => ⟨spelling, switch, glued⟩
  | '-' :: letter :: glued =>
    let spelling := String.ofList ['-', letter]
    ((Switch.ofSpelling? spelling).map fun switch =>
      ⟨spelling, switch, some (String.ofList glued)⟩).toList
  | _ => []

/-- The use of the switch that a word spells, with or without a glued value. -/
def spelled? (text : String) : Option Use :=
  match Switch.ofSpelling? text, splitGlued text.toList with
  | some switch, _ => some ⟨text, switch, none⟩
  | none, (spelling, some glued) =>
    (Switch.ofSpelling? spelling).map fun switch => ⟨spelling, switch, some glued⟩
  | none, _ => none

def classify (text : String) : Except Complaint Word :=
  match text.toList with
  | '-' :: c :: rest =>
    match spelled? text, candidates ('-' :: c :: rest) with
    | some use, _ => .ok (.use text use)
    | none, [use] => .ok (.use text use)
    | none, [] =>
      if isNegativeNumber ('-' :: c :: rest) || (c :: rest).contains ' ' then .ok (.plain text)
      else .ok (.unknown text)
    | none, uses => .error (.ambiguous text (uses.map (·.spelling)))
  | _ => .ok (.plain text)

def classifyAll : List String → Except Complaint (List Word)
  | [] => .ok []
  | text :: rest =>
    if text == separatorText then .ok (.separator :: rest.map .plain)
    else do return (← classify text) :: (← classifyAll rest)

end TemplateFill.CommandLine
