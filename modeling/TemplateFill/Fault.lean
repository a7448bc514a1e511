import TemplateFill.Query.Fault
import TemplateFill.Html.Event

/-!
# Faults of processing

What can go wrong inside an operation although its inputs are well formed: a query breaks
down on the values it meets, a number or a reference cannot be written, a numeral cannot be
read, a page text is rejected, a color does not exist, or a text holds characters that no
document can hold.
-/

namespace TemplateFill

/-- Why an operation stops. -/
inductive Fault where
  /-- A query has no result. -/
  | breakdown (cause : Query.Breakdown)
  /-- A value has no text. -/
  | obstacle (cause : Datum.Obstacle)
  /-- A numeral is not read. -/
  | numeral (cause : Number.NumeralFault)
  /-- A page text cannot be read. -/
  | rejectedMarkup (cause : Html.Rejection)
  /-- A part of a color is out of range. -/
  | colorRange
  /-- A text holds characters that a document cannot hold. -/
  | unwritableText

def Fault.ofScan : Html.ScanFault → Fault
  | .rejection cause => .rejectedMarkup cause
  | .numeral cause => .numeral cause

def Fault.message : Fault → String
  | .breakdown cause => cause.message
  | .obstacle cause => cause.message
  | .numeral cause => cause.message
  | .rejectedMarkup cause =>
    "The markup you provided was rejected by the parser. Trying a different parser or a " ++
      "different encoding may help.\n\nOriginal exception(s) from parser:\n " ++ cause.words
  | .colorRange => "RGBColor() takes three integer values 0-255"
  | .unwritableText =>
    "All strings must be XML compatible: Unicode or ASCII, " ++
      "no NULL bytes or control characters"

end TemplateFill
