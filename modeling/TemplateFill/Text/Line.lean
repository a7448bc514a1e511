/-!
# Line breaks

A text is cut into lines at every line break, whichever convention wrote it: a
line feed, a carriage return, or the two together in either order. Where several
breaks follow each other the longest one that starts first is taken, so that
`"\r\n"` is one break and `"\n\n"` are two.
-/

namespace TemplateFill.Text

/-- Write every line break as a single line feed. -/
def normalizeBreaks : List Char → List Char
  | [] => []
  | '\r' :: '\n' :: rest => '\n' :: normalizeBreaks rest
  | '\n' :: '\r' :: rest => '\n' :: normalizeBreaks rest
  | c :: rest => (if c = '\r' then '\n' else c) :: normalizeBreaks rest

/-- Write a carriage return, and one that a line feed follows together with it, as a line
feed. -/
def unifyBreaks : List Char → List Char
  | [] => []
  | '\r' :: '\n' :: rest => '\n' :: unifyBreaks rest
  | c :: rest => (if c = '\r' then '\n' else c) :: unifyBreaks rest

/-- Cut at every occurrence of `sep`. There is always at least one piece. -/
def cutAt (sep : Char) : List Char → List (List Char)
  | [] => [[]]
  | c :: rest =>
    if c = sep then [] :: cutAt sep rest
    else
      match cutAt sep rest with
      | [] => [[c]]
      | piece :: pieces => (c :: piece) :: pieces

/-- The lines of a text, without their breaks. -/
def splitLines (s : String) : List String :=
  (cutAt '\n' (normalizeBreaks s.toList)).map String.ofList

end TemplateFill.Text
