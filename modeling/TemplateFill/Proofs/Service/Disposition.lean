import TemplateFill.Proofs.Service.Header
import TemplateFill.Service

/-!
# The name of a download

A reader of the header that names a download finds the name in it, and nothing else, if the name is
percent encoded. A name in ASCII is not: it is quoted as it is, so it is found only if all of its
characters stand for themselves in quotes.
-/

namespace TemplateFill.Service

open Header

variable (reader : Reader)

/-- The header that says that a document with a name is to be downloaded, and nothing else. -/
def download (name : String) : Header.Value := ⟨"attachment", [⟨"filename", name⟩]⟩

/-! ### Reading the parameter -/

theorem takeParameter?_quoted (s : List Char) :
    reader.takeParameter? ("filename=\"".toList ++ s) =
      (reader.takeQuoted? s).map fun (value, rest) => (⟨"filename", String.ofList value⟩, rest) := rfl

theorem takeParameter?_encoded (s : List Char) :
    reader.takeParameter? ("filename*=UTF-8''".toList ++ s) =
      ((reader.takeOctets? s).bind fun (octets, rest) =>
        (Data.decodeUtf8 false octets).toOption.map (·, rest)).map
          fun (value, rest) => (⟨"filename", String.ofList value⟩, rest) := rfl

theorem read?_attachment {s : List Char} (noGap : s.dropWhile isGap = s) :
    reader.read? (String.ofList ("attachment; ".toList ++ s)) =
      (reader.takeParameter? s).bind fun (parameter, left) =>
        (reader.readParameters? left).map fun others => ⟨"attachment", parameter :: others⟩ := by
  have word : ("attachment; ".toList ++ s).takeWhile isWordChar = "attachment".toList := rfl
  have behind : ("attachment; ".toList ++ s).drop "attachment".toList.length = ';' :: ' ' :: s := rfl
  have gap : (' ' :: s).dropWhile isGap = s := (List.dropWhile_cons_of_pos rfl).trans noGap
  rw [Reader.read?, String.toList_ofList, word, behind, Reader.readParameters?_cons, gap]
  cases reader.takeParameter? s with
  | none => rfl
  | some taken =>
    simp only [Option.bind_some, Option.map_map]
    rfl

/-! ### Names -/

/-- A quoted name is found if all its characters stand for themselves. -/
theorem reads_quoted_iff (name : String) :
    reader.read? (s!"attachment; filename=\"{name}\"") = some (download name) ↔
      ∀ c ∈ name.toList, reader.IsPlain c := by
  have text : s!"attachment; filename=\"{name}\"" =
      String.ofList ("attachment; ".toList ++ ("filename=\"".toList ++ (name.toList ++ ['"']))) := by
    rw [← String.toList_inj]
    simp [toString]
  rw [text, read?_attachment reader rfl, takeParameter?_quoted]
  constructor
  · intro isRead
    obtain ⟨⟨parameter, left⟩, isTaken, isRead⟩ := Option.bind_eq_some_iff.mp isRead
    obtain ⟨⟨value, rest⟩, isQuoted, same⟩ := Option.map_eq_some_iff.mp isTaken
    cases same
    obtain ⟨others, -, same⟩ := Option.map_eq_some_iff.mp isRead
    obtain rfl : value = name.toList := by
      have names := congrArg (·.parameters.head?.map (·.value)) same
      simpa [download, ← String.toList_inj] using names
    -- the value is as long as what stands in the quotes, so nothing in it was escaped
    rcases Reader.takeQuoted?_eq_some isQuoted with ⟨-, plain⟩ | shorter
    · exact plain
    · rw [List.length_append, List.length_singleton] at shorter
      omega
  · intro plain
    rw [Reader.takeQuoted?_append plain]
    simp only [Option.map_some, Option.bind_some, Reader.readParameters?_nil, String.ofList_toList]
    rfl

/-- An encoded name is found if the characters that stand as they are in the encoding stand for
themselves. -/
theorem reads_encoded_iff (name : String) :
    reader.read? ("attachment; filename*=UTF-8''" ++ Text.percentEncode name) =
        some (download name) ↔
      ∀ c ∈ name.toList, Text.isUnreserved c → reader.isEncodable c := by
  have text : "attachment; filename*=UTF-8''" ++ Text.percentEncode name =
      String.ofList ("attachment; ".toList ++
        ("filename*=UTF-8''".toList ++ name.toList.flatMap Text.percentChar)) := by
    rw [← String.toList_inj, Text.percentEncode]
    simp
  have isAll : (name.toList.all fun c => !Text.isUnreserved c || reader.isEncodable c) ↔
      ∀ c ∈ name.toList, Text.isUnreserved c → reader.isEncodable c := by
    simp only [List.all_eq_true, Bool.or_eq_true, Bool.not_eq_true', Bool.eq_false_iff, imp_iff_not_or]
  rw [text, read?_attachment reader rfl, takeParameter?_encoded, Reader.takeOctets?_encoded, ← isAll]
  split
  · next encodable =>
    refine iff_of_true ?_ encodable
    simp only [Option.bind_some, Data.decodeUtf8_octetsOf, Except.toOption, Option.map_some,
      Reader.readParameters?_nil, String.ofList_toList]
    rfl
  · next other => exact iff_of_false nofun other

/-- Which names a reader finds depends on how the header gives them. -/
theorem reads_contentDisposition_iff (name : String) :
    reader.read? (contentDisposition name) = some (download name) ↔
      if name.toList.all (·.toNat < 0x80) then ∀ c ∈ name.toList, reader.IsPlain c
      else ∀ c ∈ name.toList, Text.isUnreserved c → reader.isEncodable c := by
  unfold contentDisposition
  split
  · exact reads_quoted_iff reader name
  · exact reads_encoded_iff reader name

/-- To the most lenient reader all characters are plain but the two that are never. -/
theorem isPlain_lenient_iff {c : Char} : lenient.IsPlain c ↔ c ≠ '"' ∧ c ≠ '\\' :=
  ⟨fun plain => ⟨plain.noQuote, plain.noEscape⟩, fun ⟨noQuote, noEscape⟩ => ⟨noQuote, noEscape, rfl⟩⟩

theorem forall_isPlain_lenient_iff {s : List Char} :
    (∀ c ∈ s, lenient.IsPlain c) ↔ '"' ∉ s ∧ '\\' ∉ s := by
  simp only [isPlain_lenient_iff]
  constructor
  · intro plain
    exact ⟨fun quote => (plain _ quote).1 rfl, fun escape => (plain _ escape).2 rfl⟩
  · rintro ⟨noQuote, noEscape⟩ c isIn
    exact ⟨ne_of_mem_of_not_mem isIn noQuote, ne_of_mem_of_not_mem isIn noEscape⟩

/-- Of what stands as it is in a percent encoding, only a slash does not stand for itself to the
strict reader. -/
theorem isEncodable_strict_iff {c : Char} (unreserved : Text.isUnreserved c) :
    strict.isEncodable c ↔ c ≠ '/' := by
  constructor
  · rintro encodable rfl
    exact absurd encodable (by decide)
  · intro noSlash
    simp only [Text.isUnreserved, Bool.or_eq_true, decide_eq_true_eq, noSlash, or_false] at unreserved
    rcases unreserved with (((isLetter | rfl) | rfl) | rfl) | rfl
    · have noMark : c ∉ ['%', '\'', '*'] := by
        intro isMark
        have isNot := List.all_eq_true.mp (show ['%', '\'', '*'].all (!·.isAlphanum) from rfl) c isMark
        rw [isLetter] at isNot
        cases isNot
      have isWord : isWordChar c := Bool.or_eq_true_iff.mpr (.inl isLetter)
      exact Bool.and_eq_true_iff.mpr ⟨isWord, by simpa using noMark⟩
    all_goals rfl

theorem strict_reads_contentDisposition_iff (name : String) :
    strict.read? (contentDisposition name) = some (download name) ↔
      if name.toList.all (·.toNat < 0x80) then ∀ c ∈ name.toList, strict.IsPlain c
      else '/' ∉ name.toList := by
  rw [reads_contentDisposition_iff]
  split
  · exact Iff.rfl
  · constructor
    · intro encodable isIn
      exact (isEncodable_strict_iff rfl).mp (encodable '/' isIn rfl) rfl
    · intro noSlash c isIn unreserved
      exact (isEncodable_strict_iff unreserved).mpr (ne_of_mem_of_not_mem isIn noSlash)

/-- A reader finds the name of a download in the header, and nothing else, if and only if all
characters of the name are plain in quotes, if it is in ASCII, and otherwise those that are not
percent encoded stand for themselves. To the most lenient reader only names in ASCII with a quotation
mark or a backslash are lost, to the strict one also those in ASCII with a control and others with a
slash. -/
theorem contentDisposition_names_iff (name : String) :
    (∀ reader : Reader, reader.read? (contentDisposition name) = some (download name) ↔
      if name.toList.all (·.toNat < 0x80) then ∀ c ∈ name.toList, reader.IsPlain c
      else ∀ c ∈ name.toList, Text.isUnreserved c → reader.isEncodable c) ∧
    (lenient.read? (contentDisposition name) = some (download name) ↔
      ¬ (name.toList.all (·.toNat < 0x80) ∧ ('"' ∈ name.toList ∨ '\\' ∈ name.toList))) ∧
    (strict.read? (contentDisposition name) = some (download name) ↔
      if name.toList.all (·.toNat < 0x80) then ∀ c ∈ name.toList, strict.IsPlain c
      else '/' ∉ name.toList) := by
  refine ⟨fun reader => reads_contentDisposition_iff reader name, ?_,
    strict_reads_contentDisposition_iff name⟩
  rw [reads_contentDisposition_iff]
  split
  · next inAscii =>
    rw [forall_isPlain_lenient_iff]
    simp only [inAscii, true_and, not_or]
  · next notAscii =>
    refine iff_of_true (fun _ _ _ => rfl) ?_
    rintro ⟨inAscii, -⟩
    exact notAscii inAscii

/-- A quotation mark in a name ends the value, and what stands behind it is no parameter. -/
theorem name_with_quotationMark_is_lost :
    lenient.read? (contentDisposition "a\"b") ≠ some (download "a\"b") := by
  intro isRead
  have plain := (reads_quoted_iff lenient "a\"b").mp isRead
  exact (plain '"' (by decide)).noQuote rfl

end TemplateFill.Service
