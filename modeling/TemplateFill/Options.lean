/-!
# Options

The switches of filling a template.
-/

namespace TemplateFill

/-- How a template is filled and its problems are reported. -/
structure Options where
  /-- Write line breaks of plain text as breaks of the document. -/
  replaceLineBreaks : Bool
  /-- Put a list of the problems in front of the document. -/
  showErrors : Bool
  /-- The heading of that list. -/
  errorHeading : String
  /-- The color of controls with problems, as three hexadecimal numbers. -/
  errorColor : String
  deriving Repr, DecidableEq

def Options.standard : Options := ⟨false, false, "Template errors", "FF0000"⟩

end TemplateFill
