/-!
# Start tags

The start of an element as it is written, together with what the type of the document declares for
the element. All names are as written.
-/

namespace TemplateFill.Xml

/-- What an element may contain: elements only, so that blanks between them are layout, or text
too. -/
inductive ContentModel where
  | elements
  | mixed
  deriving Repr, DecidableEq

structure WrittenAttribute where
  name : String
  value : String
  /-- The source of the value, if it refers to entities. -/
  source? : Option String
  deriving Repr, DecidableEq

structure StartTag where
  name : String
  attributes : List WrittenAttribute
  /-- The attributes that are declared for the element, with their values by default. -/
  declared : List (String × Option String)
  /-- What is declared of its content. -/
  model? : Option ContentModel
  /-- The values that tell the element from all others. A value that refers to entities does
  not. -/
  ids : List String
  deriving Repr, DecidableEq

namespace StartTag

def written (tag : StartTag) : List (String × String) :=
  tag.attributes.map fun entry => (entry.name, entry.value)

/-- The attributes that are not written but have a value by default. -/
def presumed (tag : StartTag) : List (String × String) :=
  tag.declared.filterMap fun (name, value?) =>
    if tag.attributes.any (·.name == name) then none else value?.map (name, ·)

end StartTag

end TemplateFill.Xml
