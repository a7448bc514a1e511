/-!
# Asides

An aside stands among the elements of a document and is none of them: a comment, an instruction,
or a reference to an entity that is not followed.
-/

namespace TemplateFill.Xml

/-- What is neither an element nor text. -/
inductive Aside where
  | comment (content : String)
  | instruction (target content : String)
  | reference (entity : String)
  deriving Repr, DecidableEq, Inhabited

namespace Aside

def referenceText (entity : String) : String := "&" ++ entity ++ ";"

/-- An aside as it is shown: whatever it is, it looks like a comment. -/
def shown (aside : Aside) : String :=
  let content :=
    match aside with
    | .comment content => content
    | .instruction _ content => content
    | .reference entity => referenceText entity
  "<!--" ++ content ++ "-->"

def written (aside : Aside) : String :=
  match aside with
  | .comment content => "<!--" ++ content ++ "-->"
  | .instruction target content =>
    "<?" ++ target ++ (if content.isEmpty then "" else " " ++ content) ++ "?>"
  | .reference entity => referenceText entity

end Aside

end TemplateFill.Xml
