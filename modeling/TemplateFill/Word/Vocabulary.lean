import TemplateFill.Number.Numeral
import TemplateFill.Xml.Node

/-!
# The vocabulary of word processing documents

The elements and attributes that take part in filling a template, and the builders of the
small pieces that are written into one.
-/

namespace TemplateFill.Word

open Xml

/-! ### Content controls -/

abbrev control : Name := .word "sdt"
abbrev controlProperties : Name := .word "sdtPr"
abbrev controlContent : Name := .word "sdtContent"
abbrev controlTag : Name := .word "tag"
abbrev identifier : Name := .word "id"
abbrev plainTextMark : Name := .word "text"
abbrev placeholderMark : Name := .word "showingPlcHdr"
abbrev repeatingSectionMark : Name := ⟨.word2012, "repeatingSection"⟩

/-! ### Text -/

abbrev document : Name := .word "document"
abbrev body : Name := .word "body"
abbrev paragraph : Name := .word "p"
abbrev paragraphProperties : Name := .word "pPr"
abbrev run : Name := .word "r"
abbrev runProperties : Name := .word "rPr"
abbrev runStyle : Name := .word "rStyle"
abbrev runText : Name := .word "t"
abbrev lineBreak : Name := .word "br"
abbrev carriageReturn : Name := .word "cr"
abbrev cell : Name := .word "tc"
abbrev cellProperties : Name := .word "tcPr"
abbrev textBox : Name := .word "txbxContent"
abbrev bookmarkStart : Name := .word "bookmarkStart"
abbrev bookmarkEnd : Name := .word "bookmarkEnd"
abbrev hyperlink : Name := .word "hyperlink"

/-! ### Lists -/

abbrev numbering : Name := .word "numbering"
abbrev abstractList : Name := .word "abstractNum"
abbrev listInstance : Name := .word "num"
abbrev abstractListId : Name := .word "abstractNumId"
abbrev listInstanceId : Name := .word "numId"
abbrev listLevel : Name := .word "ilvl"

/-! ### Attributes -/

abbrev value : Name := .word "val"
abbrev spaceMode : Name := ⟨.xml, "space"⟩

def placeholderStyle : String := "PlaceholderText"

/-! ### Builders -/

/-- A text piece whose outer blanks are kept. -/
def makeText (content : String) : Node :=
  (Node.plain runText [(spaceMode, "preserve")] []).setText content

def makeRun (pieces : List Node) : Node := .plain run [] pieces

def makeBreak : Node := .plain lineBreak [] []

def makeSetting (name : Name) (setting : String) : Node := .plain name [(value, setting)] []

def makeNumberSetting (name : Name) (n : Int) : Except Number.NumeralFault Node :=
  (Number.writeNumeral n).map (makeSetting name)

def makeParagraph (content : List Node) : Node := .plain paragraph [] content

end TemplateFill.Word
