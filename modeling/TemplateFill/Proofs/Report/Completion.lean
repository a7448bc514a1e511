import TemplateFill.Proofs.Number.Numeral
import TemplateFill.Proofs.Report.Linking

/-!
# Whether a report is written

Problems do not stop a population, but the report of them may: it counts on from the ids of the
bookmarks that are there, and it repeats the messages. It is written exactly if every id that
looks like a number is one, and a document can hold every message.
-/

namespace TemplateFill.Report

open Xml
open TemplateFill.Walk

/-! ### Colors -/

def hexDigits : List Char := "0123456789abcdefABCDEF".toList

theorem digitIn?_of_hexDigit {c : Char} (hex : c ∈ hexDigits) :
    (Number.digitIn? 16 c).isSome ∧ Number.isPadding c = false ∧
      c ≠ '-' ∧ c ≠ '+' ∧ c ≠ 'x' ∧ c ≠ 'X' := by
  -- a list is gone through, because there are too many characters
  have each : hexDigits.all fun c => decide ((Number.digitIn? 16 c).isSome ∧
      Number.isPadding c = false ∧ c ≠ '-' ∧ c ≠ '+' ∧ c ≠ 'x' ∧ c ≠ 'X') := by decide +kernel
  exact of_decide_eq_true (List.all_eq_true.mp each c hex)

/-- Two hexadecimal digits are a part of a color. -/
theorem readNumeral_of_hexDigits {a b : Char} (first : a ∈ hexDigits) (second : b ∈ hexDigits) :
    ∃ n : Int, Number.readNumeral 16 (String.ofList [a, b]) = .ok n ∧ 0 ≤ n ∧ n ≤ 255 := by
  obtain ⟨isFirst, noPadding, noMinus, noPlus, -⟩ := digitIn?_of_hexDigit first
  obtain ⟨isSecond, -, -, -, noMark, noCapital⟩ := digitIn?_of_hexDigit second
  obtain ⟨high, isHigh⟩ := Option.isSome_iff_exists.mp isFirst
  obtain ⟨low, isLow⟩ := Option.isSome_iff_exists.mp isSecond
  have below {c : Char} {value : Nat} (found : Number.digitIn? 16 c = some value) : value < 16 :=
    of_decide_eq_true (Option.filter_eq_some_iff.mp found).2
  have small := below isHigh
  have smaller := below isLow
  have noSign : Number.splitSign [a, b] = (false, [a, b]) := by
    unfold Number.splitSign
    split
    · exact absurd (List.cons.inj ‹_›).1 noMinus
    · exact absurd (List.cons.inj ‹_›).1 noPlus
    · rfl
  have unmarked : Number.skipBaseMark 16 [a, b] = [a, b] := by
    simp [Number.skipBaseMark, noMark, noCapital]
  have taken : Number.takeDigits? 16 [a, b] = some ([high, low], []) := by
    rw [Number.takeDigits?_of_all (List.cons_ne_nil a [b])]
    · simp [isHigh, isLow]
    · intro c member
      rcases List.mem_cons.mp member with rfl | member
      · exact isFirst
      · rw [List.mem_singleton.mp member]
        exact isSecond
  refine ⟨(high * 16 + low : Nat), ?_, by omega, by omega⟩
  rw [Number.readNumeral]
  simp only [String.toList_ofList, Number.dropWhile_isPadding _ noPadding, noSign, unmarked, taken]
  simp [Number.ofDigits]

/-- Six hexadecimal digits are a color. -/
theorem exists_readColor {text : String} (six : text.toList.length = 6)
    (hex : ∀ c ∈ text.toList, c ∈ hexDigits) : ∃ hue, Word.readColor text = .ok hue := by
  obtain ⟨a, b, c, d, e, f, whole⟩ : ∃ a b c d e f, text.toList = [a, b, c, d, e, f] := by
    match text.toList, six with
    | [a, b, c, d, e, f], _ => exact ⟨a, b, c, d, e, f, rfl⟩
  rw [whole] at hex
  simp only [List.forall_mem_cons] at hex
  obtain ⟨isA, isB, isC, isD, isE, isF, -⟩ := hex
  obtain ⟨red, readRed, _, _⟩ := readNumeral_of_hexDigits isA isB
  obtain ⟨green, readGreen, _, _⟩ := readNumeral_of_hexDigits isC isD
  obtain ⟨blue, readBlue, _, _⟩ := readNumeral_of_hexDigits isE isF
  have inRange : ([red, green, blue].any fun n => decide (n < 0) || decide (255 < n)) = false := by
    rw [List.any_eq_false]
    simp only [List.forall_mem_cons, Bool.or_eq_true, decide_eq_true_eq]
    refine ⟨by omega, by omega, by omega, List.forall_mem_nil _⟩
  refine ⟨String.ofList ([red, green, blue].flatMap fun n =>
    (Text.hexDigits 2 n.toNat).map Char.toUpper), ?_⟩
  simp only [Word.readColor, whole, List.take, List.drop, List.mapM_cons, List.mapM_nil, readRed,
    readGreen, readBlue]
  exact if_neg (ne_true_of_eq_false inRange)

/-! ### Ids of bookmarks -/

def bookmarkIds (body : Node) : List String :=
  (body.named Word.bookmarkStart).map fun node => (node.attribute? Word.identifier).getD ""

/-- An id that is a numeral if it looks like one. -/
def IsCountable (id : String) : Prop :=
  (∀ c ∈ id.toList, Text.isDigitLike c) →
    (∀ c ∈ id.toList, Text.isDecimalDigit c) ∧ id.toList.length ≤ Number.digitLimit

instance (id : String) : Decidable (IsCountable id) :=
  inferInstanceAs (Decidable (_ → _))

/-- The largest id is found if all ids can be read that look like numerals. -/
theorem largestBookmark_returns_iff (body : Node) :
    (∃ largest, largestBookmark body = .ok largest) ↔ ∀ id ∈ bookmarkIds body, IsCountable id := by
  have readable {id : String} (looks : (!id.isEmpty && id.toList.all Text.isDigitLike) = true) :
      (∃ n, Number.readNumeral 10 id = .ok n) ↔ IsCountable id := by
    rw [Bool.and_eq_true, Bool.not_eq_true', List.all_eq_true] at looks
    have nonempty : id.toList ≠ [] := by simpa using looks.1
    rw [Number.readNumeral_returns_iff nonempty looks.2, IsCountable]
    exact ⟨fun isRead _ => isRead, fun isRead => isRead looks.2⟩
  constructor
  · rintro ⟨largest, found⟩ id isId digitLike
    obtain ⟨values, read, -⟩ := bind_eq_ok found
    by_cases empty : id.toList = []
    · rw [empty]
      exact ⟨List.forall_mem_nil _, Nat.zero_le _⟩
    have looks : (!id.isEmpty && id.toList.all Text.isDigitLike) = true := by
      rw [Bool.and_eq_true, Bool.not_eq_true', List.all_eq_true]
      exact ⟨by simpa using empty, digitLike⟩
    obtain ⟨n, -, isRead⟩ := exists_right_of_mem (forall₂_of_mapM read)
      (List.mem_filter.mpr ⟨isId, looks⟩)
    exact (readable looks).mp ⟨n, mapError_eq_ok isRead⟩ digitLike
  · intro countable
    have each : ∀ id ∈ (bookmarkIds body).filter fun id =>
        !id.isEmpty && id.toList.all Text.isDigitLike,
        ∃ n, (Number.readNumeral 10 id).mapError Fault.numeral = .ok n := by
      intro id member
      obtain ⟨isId, looks⟩ := List.mem_filter.mp member
      obtain ⟨n, isRead⟩ := (readable looks).mpr (countable id isId)
      exact ⟨n, by rw [isRead]; rfl⟩
    obtain ⟨values, read⟩ := exists_mapM_eq_ok each
    refine ⟨values.foldl max (-1), ?_⟩
    change (List.mapM _ ((bookmarkIds body).filter _) >>= _) = _
    rw [read]
    rfl

theorem le_foldl_max (values : List Int) (first : Int) : first ≤ values.foldl max first := by
  induction values generalizing first with
  | nil => exact Int.le_refl first
  | cons value rest ih => exact Int.le_trans (Int.le_max_left first value) (ih _)

theorem largestBookmark_ge {body : Node} {largest : Int}
    (found : largestBookmark body = .ok largest) : -1 ≤ largest := by
  obtain ⟨values, -, isLargest⟩ := bind_eq_ok found
  cases isLargest
  exact le_foldl_max values (-1)

/-! ### Messages -/

variable {hue text : String} {number : Nat} {record : Record} {records : List Record}
  {draft after : Draft} {options : Options} {body : Node}

/-- The number in front of a message can always be written. -/
theorem isWritableText_numbered (number : Nat) (record : Record) :
    isWritableText (numberedText number record) = isWritableText record.message := by
  have digits : (Nat.toDigits 10 number).all isWritable := by
    refine List.all_eq_true.mpr fun c member => ?_
    have bounds := Number.toNat_of_isDigit
      (Nat.isDigit_of_mem_toDigits (by decide) (by decide) member)
    simp only [isWritable, Bool.or_eq_true, Bool.and_eq_true, decide_eq_true_eq, bne_iff_ne]
    omega
  have whole : (numberedText number record).toList =
      Nat.toDigits 10 number ++ ('.' :: ' ' :: record.message.toList) := by
    rw [← Nat.toList_repr]
    simp [numberedText, toString]
  rw [isWritableText, whole, List.all_append, digits, Bool.true_and]
  rfl

theorem isWritableText_of_textRun {run : Node} (made : Block.textRun text = .ok run) :
    isWritableText text := by
  unfold Block.textRun at made
  split at made
  · assumption
  · cases made

theorem addParagraph_of_writable (around : Node → Node) (draft : Draft)
    (writable : isWritableText text) : ∃ run, addParagraph text around draft =
      ({ draft with paragraphs := draft.paragraphs ++ [around run] }, none) := by
  refine ⟨Word.makeRun [Word.makeText text], ?_⟩
  rw [addParagraph, Block.textRun, if_pos writable]

/-! ### Records -/

/-- The message of a record that was added is in the list, so it can be written. -/
theorem isWritableText_of_addRecord (done : addRecord hue number record draft = (after, none)) :
    isWritableText record.message := by
  rw [← isWritableText_numbered number]
  obtain ⟨run, made, -⟩ := addRecord_eq_none done
  exact isWritableText_of_textRun made

/-- A record can be added if its message and the next id can be written. It takes one id at
most. -/
theorem exists_addRecord (hue : String) (number : Nat) (writable : isWritableText record.message)
    (fits : Number.isOverLimit draft.nextId = false) :
    ∃ after, addRecord hue number record draft = (after, none) ∧
      draft.nextId ≤ after.nextId ∧ after.nextId ≤ draft.nextId + 1 := by
  rw [← isWritableText_numbered number] at writable
  unfold addRecord
  simp only
  split
  · obtain ⟨run, done⟩ := addParagraph_of_writable (fun run => Word.makeParagraph [run]) draft
      writable
    exact ⟨_, done, Int.le_refl _, Int.le.intro 1 rfl⟩
  · rename_i lineage _
    have marked : ∃ id, mark hue (bookmarkName number) lineage draft = .ok { draft with
        body := draft.body.expand lineage (bookmarked id (bookmarkName number) hue)
        nextId := draft.nextId + 1 } := by
      refine ⟨toString draft.nextId, ?_⟩
      rw [mark, Number.writeNumeral, if_neg (ne_true_of_eq_false fits)]
      rfl
    obtain ⟨id, isMarked⟩ := marked
    obtain ⟨run, done⟩ := addParagraph_of_writable (linkParagraph (bookmarkName number)) _ writable
    rw [isMarked]
    exact ⟨_, done, Int.le.intro 1 rfl, Int.le_refl _⟩

/-- Records can be added if their messages can be written and there are ids enough. -/
theorem exists_addRecords (hue : String) (number : Nat) (draft : Draft)
    (writable : ∀ record ∈ records, isWritableText record.message)
    (natural : 0 ≤ draft.nextId)
    (fits : draft.nextId + records.length ≤ Number.tenTo Number.digitLimit) :
    ∃ after, addRecords hue number records draft = (after, none) := by
  induction records generalizing number draft with
  | nil => exact ⟨draft, rfl⟩
  | cons record rest ih =>
    rw [List.length_cons] at fits
    have inLimit : Number.isOverLimit draft.nextId = false := by
      rw [Number.isOverLimit, decide_eq_false_iff_not]
      omega
    obtain ⟨middle, first, atLeast, atMost⟩ :=
      exists_addRecord hue number (writable record List.mem_cons_self) inLimit
    obtain ⟨after, others⟩ := ih (number + 1) middle
      (fun other member => writable other (List.mem_cons_of_mem _ member)) (by omega) (by omega)
    refine ⟨after, ?_⟩
    rw [addRecords, first]
    exact others

/-- The messages of records that were added can be written. -/
theorem writable_of_addRecords {number : Nat} {draft : Draft}
    (done : addRecords hue number records draft = (after, none)) :
    ∀ record ∈ records, isWritableText record.message := by
  induction records generalizing number draft with
  | nil => exact List.forall_mem_nil _
  | cons record rest ih =>
    rw [addRecords] at done
    split at done
    · cases done
    · rename_i middle first
      exact List.forall_mem_cons.mpr ⟨isWritableText_of_addRecord first, ih done⟩

/-! ### A whole report -/

/-- The options of a report can be used: the color has six hexadecimal digits, and a document
can hold the heading. -/
structure IsUsable (options : Options) : Prop where
  six : options.errorColor.toList.length = 6
  hex : ∀ c ∈ options.errorColor.toList, c ∈ hexDigits
  heading : isWritableText options.errorHeading

/-- A report that is asked for is written if and only if the ids that look like numerals are,
and the messages can be written. The ids in the body have to leave room for one more for each
record. -/
theorem render_returns_iff (usable : IsUsable options) (shows : options.showErrors)
    (some : records ≠ [])
    (room : ∀ largest, largestBookmark body = .ok largest →
      Number.isOverLimit (largest + records.length) = false) :
    (∃ reported, render options records body = (reported, none)) ↔
      (∀ id ∈ bookmarkIds body, IsCountable id) ∧
        ∀ record ∈ records, isWritableText record.message := by
  rw [← largestBookmark_returns_iff]
  have asked : ¬ (!options.showErrors || records.isEmpty) = true := by simp [shows, some]
  rw [render, if_neg asked]
  constructor
  · rintro ⟨reported, done⟩
    split at done
    · cases done
    · rename_i hue draft begun
      obtain ⟨_, -, begun⟩ := bind_eq_ok begun
      obtain ⟨largest, found, -⟩ := bind_eq_ok begun
      split at done
      · cases done
      · rename_i after added
        exact ⟨⟨largest, found⟩, writable_of_addRecords added⟩
  · rintro ⟨⟨largest, found⟩, writable⟩
    obtain ⟨hue, isHue⟩ := exists_readColor usable.six usable.hex
    have begun : ∃ title, begin options body = .ok (hue, ⟨body, [title], largest + 1⟩) := by
      refine ⟨Word.makeParagraph [Word.emboldenRun
        (Word.makeRun [Word.makeText options.errorHeading])], ?_⟩
      rw [begin, isHue, found, heading, Block.textRun, if_pos usable.heading]
      rfl
    obtain ⟨title, isBegun⟩ := begun
    have natural := largestBookmark_ge found
    have inLimit := room largest found
    rw [Number.isOverLimit, decide_eq_false_iff_not] at inLimit
    obtain ⟨after, added⟩ := exists_addRecords hue 1 ⟨body, [title], largest + 1⟩
      writable (by simp only; omega) (by simp only; omega)
    rw [isBegun]
    simp only [added]
    exact ⟨_, rfl⟩

section Packages

variable {data : Datum} {package : Package} {reported : Node}

def walked (options : Options) (data : Datum) (package : Package) (body : Node) :
    Node × Progress :=
  Walk.populate options body data (.start (.document package.definitions))

theorem fillPackage_of_report (isBody : package.body = .ok body)
    (done : render options (Population.records (walked options data package body).2.findings)
      (walked options data package body).1 = (reported, none)) :
    ∃ outcome, Population.fillPackage options data package = .ok outcome ∧
      outcome.problems = (walked options data package body).2.findings.map (·.problem.message) := by
  have written : Population.fillBody options data (.document package.definitions) body =
      .ok (reported, { (walked options data package body).2 with
        notices := (walked options data package body).2.notices ++
          [.filled (walked options data package body).2.findings.length] }) := by
    rw [Population.fillBody]
    unfold walked at done ⊢
    generalize Walk.populate options body data _ = result at done ⊢
    obtain ⟨filled, progress⟩ := result
    simp only [done]
  simp only [Population.fillPackage, isBody, written, Except.mapError, bind, Except.bind]
  exact ⟨_, rfl, rfl⟩

theorem fillPackage_of_fault {fault : Fault} (isBody : package.body = .ok body)
    (failed : render options (Population.records (walked options data package body).2.findings)
      (walked options data package body).1 = (reported, some fault)) :
    Population.fillPackage options data package = .error (.report fault) := by
  have unwritten : Population.fillBody options data (.document package.definitions) body =
      .error fault := by
    rw [Population.fillBody]
    unfold walked at failed
    generalize Walk.populate options body data _ = result at failed ⊢
    obtain ⟨filled, progress⟩ := result
    simp only [failed]
  simp only [Population.fillPackage, isBody, unwritten, Except.mapError, bind, Except.bind]

/-- A package with a body is filled, and its problems are told, if and only if no report is
asked for, or there is nothing to report, or all ids that look like numerals are, and the
messages can be written. The ids have to leave room for one more for each problem. -/
theorem fillPackage_returns_iff (options : Options) (data : Datum) (package : Package) (body : Node)
    (isBody : package.body = .ok body) (usable : IsUsable options) :
    let result := walked options data package body
    (∀ largest, largestBookmark result.1 = .ok largest →
      Number.isOverLimit (largest + result.2.findings.length) = false) →
    ((∃ outcome, Population.fillPackage options data package = .ok outcome ∧
      outcome.problems = result.2.findings.map (·.problem.message)) ↔
    (options.showErrors → result.2.findings ≠ [] →
      (∀ id ∈ bookmarkIds result.1, IsCountable id) ∧
        ∀ finding ∈ result.2.findings, isWritableText finding.problem.message)) := by
  intro result room
  have returns : (∃ outcome, Population.fillPackage options data package = .ok outcome ∧
      outcome.problems = result.2.findings.map (·.problem.message)) ↔
      ∃ reported, render options (Population.records result.2.findings) result.1 =
        (reported, none) := by
    constructor
    · rintro ⟨outcome, filled, -⟩
      cases rendered : render options (Population.records result.2.findings) result.1 with
      | mk reported fault? =>
        cases fault? with
        | none => exact ⟨reported, rfl⟩
        | some fault =>
          rw [fillPackage_of_fault isBody rendered] at filled
          cases filled
    · exact fun ⟨reported, done⟩ => fillPackage_of_report isBody done
  rw [returns]
  by_cases asked : options.showErrors ∧ result.2.findings ≠ []
  · have many : Population.records result.2.findings ≠ [] := by
      simpa [Population.records] using asked.2
    rw [render_returns_iff usable asked.1 many (by simpa [Population.records] using room)]
    have messages : (∀ record ∈ Population.records result.2.findings,
        isWritableText record.message) ↔
        ∀ finding ∈ result.2.findings, isWritableText finding.problem.message :=
      List.forall_mem_map
    rw [messages]
    exact ⟨fun written _ _ => written, fun written => written asked.1 asked.2⟩
  · have idle : (!options.showErrors || (Population.records result.2.findings).isEmpty) = true := by
      rw [not_and_or, not_not] at asked
      rw [Bool.or_eq_true, Bool.not_eq_true']
      refine asked.imp (by simp) fun nothing => ?_
      rw [nothing]
      rfl
    refine ⟨fun _ shows some => absurd ⟨shows, some⟩ asked, fun _ => ?_⟩
    exact ⟨result.1, by rw [render, if_pos idle]⟩

theorem isUsable_reporting : IsUsable reporting where
  six := rfl
  hex := by
    have each : reporting.errorColor.toList.all fun c => decide (c ∈ hexDigits) := by decide
    exact fun c member => of_decide_eq_true (List.all_eq_true.mp each c member)
  heading := by decide

def packageOf (body : Node) : Package := ⟨.plain (.word "document") [] [body], none⟩

/-- The control without a tag is reported. -/
theorem untaggedBody_returns :
    ∃ outcome, Population.fillPackage reporting (.object [])
      (packageOf (Control.enroll 0 untaggedBody).1) = .ok outcome ∧
      outcome.problems = [(Problem.unsupported .untagged).message] := by
  let body := (Control.enroll 0 untaggedBody).1
  have left : (walked reporting (.object []) (packageOf body) body).1 =
      .plain Word.body [] [untaggedControl [0]] := populate_untagged.1
  have found : (walked reporting (.object []) (packageOf body) body).2.findings =
      [⟨.unsupported .untagged, [0]⟩] := populate_untagged.2
  have returns :=
    fillPackage_returns_iff reporting (.object []) (packageOf body) body rfl isUsable_reporting
  simp only [left, found] at returns
  refine (returns ?_).mpr fun _ _ => ⟨by decide +kernel, by decide +kernel⟩
  intro largest isLargest
  have noBookmark : largestBookmark (.plain Word.body [] [untaggedControl [0]]) = .ok (-1) := rfl
  cases noBookmark.symm.trans isLargest
  decide +kernel

/-- A bookmark whose id looks like a numeral but is none. -/
def strayBookmark : Node := .plain Word.bookmarkStart [(Word.identifier, "²")] []

def strayBody : Node := .plain Word.body [] [strayBookmark, untaggedControl [0]]

theorem walked_stray :
    (walked reporting (.object []) (packageOf strayBody) strayBody).1 = strayBody ∧
      (walked reporting (.object []) (packageOf strayBody) strayBody).2.findings =
        [⟨.unsupported .untagged, [0]⟩] := by
  have below : effect (populateAll reporting (.ofRoot strayBody) (.object [])
      [strayBookmark, untaggedControl [0]]) (.document none) =
      ⟨[strayBookmark, untaggedControl [0]], .document none, [⟨.unsupported .untagged, [0]⟩]⟩ := by
    rw [effect_populateAll_cons, strayBookmark, Node.plain,
      effect_populateNode_element (by decide)]
    simp only [effect_populateAll_nil, effect_untagged]
    rfl
  exact ⟨congrArg (fun after : Effect (List Node) => strayBody.withChildren after.value) below,
    congrArg Effect.findings below⟩

/-- The control of that body is found to have no tag, which can be told, but there is neither a
report nor an outcome, because of the id of the bookmark. -/
theorem strayBody_fails :
    IsUsable reporting ∧ (packageOf strayBody).body = .ok strayBody ∧
      Population.fillPackage reporting (.object []) (packageOf strayBody) =
        .error (.report (.numeral (.malformed 10 "²"))) := by
  obtain ⟨left, found⟩ := walked_stray
  have unbegun : begin reporting strayBody = .error (.numeral (.malformed 10 "²")) := rfl
  have failed : render reporting (Population.records
      (walked reporting (.object []) (packageOf strayBody) strayBody).2.findings)
      (walked reporting (.object []) (packageOf strayBody) strayBody).1 =
      (strayBody, some (.numeral (.malformed 10 "²"))) := by
    rw [left, found, render, if_neg (by decide), unbegun]
  have opened : (packageOf strayBody).body = .ok strayBody := rfl
  exact ⟨isUsable_reporting, opened, fillPackage_of_fault opened failed⟩

end Packages

end TemplateFill.Report
