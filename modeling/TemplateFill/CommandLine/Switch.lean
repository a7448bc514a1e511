/-!
# Switches

The switches of the command line, their spellings, and the texts that explain them.
-/

namespace TemplateFill.CommandLine

inductive Switch where
  | help
  | output
  | showErrors
  | lineBreaks
  | strict
  | verbose
  | quiet
  | version
  deriving Repr, DecidableEq

namespace Switch

def spellings : List (String × Switch) :=
  [("-h", help), ("--help", help), ("-o", output), ("--output", output),
    ("--show-errors", showErrors), ("--line-breaks", lineBreaks), ("--strict", strict),
    ("-v", verbose), ("--verbose", verbose), ("-q", quiet), ("--quiet", quiet),
    ("--version", version)]

def ofSpelling? (spelling : String) : Option Switch := spellings.lookup spelling

/-- The spellings of a switch, as messages show them. -/
def label (switch : Switch) : String :=
  "/".intercalate ((spellings.filter (·.2 == switch)).map (·.1))

def takesValue (switch : Switch) : Bool := switch == output

end Switch

def programName : String := "json2docx"

def usage : String :=
  "usage: json2docx [-h] [-o OUTPUT] [--show-errors] [--line-breaks] [--strict]\n" ++
    "                 [-v | -q] [--version]\n" ++
    "                 template data\n"

def help : String :=
  usage ++
    "\nFill the content controls of a Word template with JSON data.\n" ++
    "\npositional arguments:\n" ++
    "  template              Path to the .docx template.\n" ++
    "  data                  Path to the JSON data file.\n" ++
    "\noptions:\n" ++
    "  -h, --help            show this help message and exit\n" ++
    "  -o OUTPUT, --output OUTPUT\n" ++
    "                        Output .docx path. Defaults to <template>.filled.docx.\n" ++
    "  --show-errors         Prepend a linked list of template errors to the output\n" ++
    "                        document.\n" ++
    "  --line-breaks         Write line breaks in plain-text values as Word line\n" ++
    "                        breaks.\n" ++
    "  --strict              Exit with status 1 if any placeholder could not be\n" ++
    "                        populated.\n" ++
    "  -v, --verbose         Print debug information.\n" ++
    "  -q, --quiet           Print errors only.\n" ++
    "  --version             show program's version number and exit\n"

end TemplateFill.CommandLine
