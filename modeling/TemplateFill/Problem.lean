import TemplateFill.Condition
import TemplateFill.Control.Basic

/-!
# Problems

Filling a control either succeeds or leaves a problem. A problem never stops the controls
next to it from being filled.
-/

namespace TemplateFill

/-- Why a control was not filled, or not as it should be. -/
inductive Problem where
  /-- The control cannot take data. -/
  | unsupported (obstacle : Control.Obstacle)
  /-- The tag is no query, or a query that misuses a function. -/
  | lookup (cause : Scope.LookupFault) (tag : String)
  /-- The tag selects nothing. -/
  | noData (tag : String)
  /-- An operation stopped. -/
  | fault (cause : Fault) (tag : String)
  /-- A repeating section has a condition. -/
  | conditionalSection (tag : String)
  /-- A condition is badly formed. -/
  | badCondition (text : String) (complaint : Condition.Complaint)
  /-- There is no content area. -/
  | noContent (tag : String)
  | manyParagraphs (tag : String)
  /-- There is neither a run nor a paragraph to put one into. -/
  | noParagraph (tag : String)
  /-- A page is meant for a plain text control. -/
  | plainTextControl (tag : String)
  /-- A repeating section needs a list. -/
  | notList (tag : String)
  /-- A repeating section has nothing to repeat. -/
  | noItem (tag : String)
  /-- What a repeating section repeats is no control. -/
  | wrongItem (tag : String)
  /-- An item for a repeating section is no object. -/
  | notObject (shown tag : String)

def Problem.message : Problem → String
  | .unsupported obstacle => obstacle.message
  | .lookup cause tag =>
    "An error '" ++ cause.message ++ s!"' occurred while fetching data from '{tag}'"
  | .noData tag => s!"No data matched placeholder '{tag}'"
  | .fault cause tag => "An error '" ++ cause.message ++ s!"' occurred while processing '{tag}'"
  | .conditionalSection tag =>
    s!"Conditional tag '{tag}' can be applied only on plain or " ++
      "rich text, but is applied on repeating section"
  | .badCondition text complaint =>
    s!"Failed to evaluate visibility condition '{text}'. Error: '" ++
      complaint.message ++ "'"
  | .noContent tag => s!"Placeholder '{tag}' doesn't have any content area"
  | .manyParagraphs tag => s!"Placeholder '{tag}' has more than one paragraph"
  | .noParagraph tag => s!"Placeholder '{tag}' does not have a correct structure"
  | .plainTextControl tag =>
    s!"HTML '{tag}' cannot be written to PlainText control. Use Rich Text Control instead"
  | .notList tag =>
    s!"The value of '{tag}' parameter is not an array. " ++
      "Parameter mapped to a repeating section can only be an array"
  | .noItem tag =>
    s!"Encountered repeating '{tag}' with no content area for " ++
      "repeating item. It will be skipped"
  | .wrongItem tag =>
    s!"Encountered repeating '{tag}' with wrong element instead of " ++
      "repeating item. It will be skipped"
  | .notObject shown tag =>
    s!"Element '{shown}' in '{tag}' is not an object. " ++
      "It should be an object in '\x7b\x7d' braces"

inductive Outcome where
  | done
  /-- The control does not fit. -/
  | refused (problem : Problem)
  /-- An operation stopped midway. -/
  | broken (cause : Fault)

def Outcome.problem? (tag : String) : Outcome → Option Problem
  | .done => none
  | .refused problem => some problem
  | .broken cause => some (.fault cause tag)

end TemplateFill
