/-!
# Code pages

A code page reads every octet as one character. The octets below 0x80 are the same characters
in all of them; of the others a page lists those that are not simply the character with that
number.
-/

namespace TemplateFill.Text

/-- A way to read an octet as a character. -/
structure CodePage where
  /-- What the page is called, in small letters. -/
  names : List String
  /-- Runs of characters, each with the octet that stands for its first one. -/
  runs : List (Nat × String)
  deriving Repr, DecidableEq

namespace CodePage

/-- Holds the place of an octet that stands for no character. -/
def vacant : Char := Char.ofNat 0xFFFD

def character? (page : CodePage) (octet : UInt8) : Option Char :=
  let n := octet.toNat
  let listed := page.runs.findSome? fun (first, run) =>
    if first ≤ n then run.toList[n - first]? else none
  let c := listed.getD (Char.ofNat n)
  if c = vacant then none else some c

def decode? (page : CodePage) (octets : List UInt8) : Option (List Char) :=
  octets.mapM page.character?

/-! ### The pages -/

def latin1 : CodePage :=
  ⟨["iso-8859-1", "iso_8859-1", "iso8859-1", "iso-ir-100", "iso-latin-1", "latin1", "l1", "cp819",
    "ibm819", "csisolatin1"], []⟩

def latin2 : CodePage :=
  ⟨["iso-8859-2", "iso_8859-2", "iso8859-2", "iso-ir-101", "iso-latin-2", "latin2", "l2",
    "csisolatin2"],
   [(0xA1, "Ą˘Ł¤ĽŚ§¨ŠŞŤŹ\u00adŽŻ°ą˛ł´ľśˇ¸šşťź˝žżŔÁÂĂÄĹĆÇČÉĘËĚÍÎĎĐŃŇÓÔŐÖ×ŘŮÚŰÜÝŢß"),
    (0xE0, "ŕáâăäĺćçčéęëěíîďđńňóôőö÷řůúűüýţ˙")]⟩

def latinCyrillic : CodePage :=
  ⟨["iso-8859-5", "iso_8859-5", "iso8859-5", "iso-ir-144", "cyrillic", "csisolatincyrillic"],
   [(0xA1, "ЁЂЃЄЅІЇЈЉЊЋЌ\u00adЎЏАБВГДЕЖЗИЙКЛМНОПРСТУФХЦЧШЩЪЫЬЭЮЯ"),
    (0xD0, "абвгдежзийклмнопрстуфхцчшщъыьэюя№ёђѓєѕіїјљњћќ§ўџ")]⟩

def latinGreek : CodePage :=
  ⟨["iso-8859-7", "iso_8859-7", "iso8859-7", "iso-ir-126", "greek", "greek8", "ecma-118",
    "elot_928", "csisolatingreek"],
   [(0xA1, "‘’"), (0xA4, "€₯"), (0xAA, "ͺ"), (0xAE, "\ufffd―"),
    (0xB4, "΄΅Ά·ΈΉΊ»Ό½ΎΏΐΑΒΓΔΕΖΗΘΙΚΛΜΝΞΟΠΡ\ufffdΣΤΥΦΧΨΩΪΫάέήί"),
    (0xE0, "ΰαβγδεζηθικλμνξοπρςστυφχψωϊϋόύώ\ufffd")]⟩

/-- Western Europe with the letters of Turkish. -/
def latin5 : CodePage :=
  ⟨["iso-8859-9", "iso_8859-9", "iso8859-9", "iso-ir-148", "iso-latin-5", "latin5", "l5",
    "csisolatin5"],
   [(0xD0, "Ğ"), (0xDD, "İŞ"), (0xF0, "ğ"), (0xFD, "ış")]⟩

/-- Western Europe with the sign of the euro. -/
def latin9 : CodePage :=
  ⟨["iso-8859-15", "iso_8859-15", "iso8859-15", "iso-ir-203", "latin-9"],
   [(0xA4, "€"), (0xA6, "Š"), (0xA8, "š"), (0xB4, "Ž"), (0xB8, "ž"), (0xBC, "ŒœŸ")]⟩

/-- Central Europe, with marks in place of controls. -/
def windows1250 : CodePage :=
  ⟨["windows-1250", "cp1250", "ms-ee"],
   [(0x80, "€\ufffd‚\ufffd„…†‡\ufffd‰Š‹ŚŤŽŹ\ufffd‘’“”•–—\ufffd™š›śťžź"),
    (0xA0, "\u00a0ˇ˘Ł¤Ą¦§¨©Ş«¬\u00ad®Ż°±˛ł´µ¶·¸ąş»Ľ˝ľżŔÁÂĂÄĹĆÇČÉĘËĚÍÎĎĐŃŇÓÔŐÖ×ŘŮÚŰÜÝŢß"),
    (0xE0, "ŕáâăäĺćçčéęëěíîďđńňóôőö÷řůúűüýţ˙")]⟩

/-- Cyrillic letters, with marks in place of controls. -/
def windows1251 : CodePage :=
  ⟨["windows-1251", "cp1251", "ms-cyrl"],
   [(0x80, "ЂЃ‚ѓ„…†‡€‰Љ‹ЊЌЋЏђ‘’“”•–—\ufffd™љ›њќћџ\u00a0ЎўЈ¤Ґ¦§Ё©Є«¬\u00ad®Ї°±Ііґµ¶·ё№є»јЅѕї"),
    (0xC0, "АБВГДЕЖЗИЙКЛМНОПРСТУФХЦЧШЩЪЫЬЭЮЯабвгдежзийклмнопрстуфхцчшщъыьэюя")]⟩

/-- Western Europe, with marks in place of controls. -/
def windows1252 : CodePage :=
  ⟨["windows-1252", "cp1252", "ms-ansi"],
   [(0x80, "€\ufffd‚ƒ„…†‡ˆ‰Š‹Œ\ufffdŽ\ufffd\ufffd‘’“”•–—˜™š›œ\ufffdžŸ")]⟩

/-- Western Europe with the letters of Turkish, with marks in place of controls. -/
def windows1254 : CodePage :=
  ⟨["windows-1254", "cp1254", "ms-turk"],
   [(0x80, "€\ufffd‚ƒ„…†‡ˆ‰Š‹Œ\ufffd\ufffd\ufffd\ufffd‘’“”•–—˜™š›œ\ufffd\ufffdŸ"),
    (0xD0, "Ğ"), (0xDD, "İŞ"), (0xF0, "ğ"), (0xFD, "ış")]⟩

/-- Russian letters, in the order of the Latin ones that sound alike. -/
def koi8r : CodePage :=
  ⟨["koi8-r", "cskoi8r"],
   [(0x80, "─│┌┐└┘├┤┬┴┼▀▄█▌▐░▒▓⌠■∙√≈≤≥\u00a0⌡°²·÷═║╒ё╓╔╕╖╗╘╙╚╛╜╝╞╟╠╡Ё╢╣╤╥╦╧╨╩╪╫╬©"),
    (0xC0, "юабцдефгхийклмнопярстужвьызшэщчъЮАБЦДЕФГХИЙКЛМНОПЯРСТУЖВЬЫЗШЭЩЧЪ")]⟩

/-- The letters of Ukrainian added to those of Russian. -/
def koi8u : CodePage :=
  ⟨["koi8-u"],
   [(0x80, "─│┌┐└┘├┤┬┴┼▀▄█▌▐░▒▓⌠■∙√≈≤≥\u00a0⌡°²·÷═║╒ёє╔ії╗╘╙╚╛ґ╝╞╟╠╡ЁЄ╣ІЇ╦╧╨╩╪Ґ╬©"),
    (0xC0, "юабцдефгхийклмнопярстужвьызшэщчъЮАБЦДЕФГХИЙКЛМНОПЯРСТУЖВЬЫЗШЭЩЧЪ")]⟩

def ibm866 : CodePage :=
  ⟨["ibm866", "cp866", "866", "csibm866"],
   [(0x80, "АБВГДЕЖЗИЙКЛМНОПРСТУФХЦЧШЩЪЫЬЭЮЯабвгдежзийклмноп░▒▓│┤╡╢╖╕╣║╗╝╜╛┐"),
    (0xC0, "└┴┬├─┼╞╟╚╔╩╦╠═╬╧╨╤╥╙╘╒╓╫╪┘┌█▄▌▐▀рстуфхцчшщъыьэюяЁёЄєЇїЎў°∙·√№¤■\u00a0")]⟩

def all : List CodePage :=
  [latin1, latin2, latinCyrillic, latinGreek, latin5, latin9, windows1250, windows1251,
   windows1252, windows1254, koi8r, koi8u, ibm866]

/-- Names of encodings in which octets below 0x80 are ASCII and the others are not known
here. -/
def asciiNames : List String :=
  ["us-ascii", "ascii", "iso646-us", "iso-ir-6", "cp367", "ibm367", "us", "csascii", "utf-7",
   "iso-8859-3", "iso-8859-4", "iso-8859-6", "iso-8859-8", "iso-8859-10", "iso-8859-11",
   "iso-8859-13", "iso-8859-14", "iso-8859-16", "windows-1253", "windows-1255", "windows-1256",
   "windows-1257", "windows-1258", "windows-874", "cp437", "cp850", "cp852", "cp855", "cp862",
   "cp874", "cp1253", "cp1255", "cp1256", "cp1257", "cp1258", "macintosh", "tis-620", "shift_jis",
   "shift-jis", "sjis", "cp932", "windows-31j", "euc-jp", "eucjp", "iso-2022-jp", "euc-kr",
   "euckr", "cp949", "uhc", "gb2312", "euc-cn", "gbk", "cp936", "gb18030", "big5", "big-5",
   "big5-hkscs", "cp950", "euc-tw"]

def asciiCharacter? (octet : UInt8) : Option Char :=
  if octet.toNat < 0x80 then some (Char.ofNat octet.toNat) else none

/-- The characters of some octets in the encoding of a name. `none` if the encoding or one of
the characters is not known. -/
def decodeNamed? (name : String) (octets : List UInt8) : Option (List Char) :=
  let name := name.toLower
  match all.find? (·.names.contains name) with
  | some page => page.decode? octets
  | none => if asciiNames.contains name then octets.mapM asciiCharacter? else none

end CodePage

end TemplateFill.Text
