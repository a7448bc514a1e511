import Mathlib.Data.List.Nodup
import TemplateFill.Proofs.Report.Bracketing
import TemplateFill.Proofs.Report.Completion
import TemplateFill.Proofs.Word.Piece

/-!
# Reports annotate a body

A report goes through its records and changes the body for each of them. What comes of it does not
depend on how the records are mixed: every element that records are about has the bookmarks of all
of these records around it, all runs in it are highlighted, and nothing else is changed.
-/

namespace TemplateFill.Report

open Xml

variable {marks : List Mark} {mark : Mark} {hue : String} {body : Node} {nodes : List Node}
  {record : Record} {records : List Record} {lineage : Lineage} {all : Lineage → Bool}

/-! ### Elements of a body -/

/-- No two elements among and below some nodes have the same identity, unless nobody refers to
them. -/
def ToldApart (nodes : List Node) : Prop := (lineages (!·.isEmpty) nodes).Nodup

instance (nodes : List Node) : Decidable (ToldApart nodes) :=
  inferInstanceAs (Decidable (List.Nodup _))

theorem lineages_le_one (apart : ToldApart nodes) (named : lineage ≠ []) :
    (lineages (· == lineage) nodes).length ≤ 1 := by
  have isNamed : (!lineage.isEmpty) = true := by simpa using named
  have same : lineages (· == lineage) nodes =
      (lineages (!·.isEmpty) nodes).filter (· == lineage) := by
    rw [lineages, lineages, List.filter_filter]
    refine List.filter_congr fun own _ => ?_
    cases isOwn : own == lineage with
    | false => rfl
    | true => rw [beq_iff_eq.mp isOwn, isNamed]; rfl
  rw [same, ← List.countP_eq_length_filter]
  exact List.nodup_iff_count.mp apart lineage

theorem isAttached_iff_lineages : isAttached body lineage ↔
    lineage ≠ [] ∧ lineages (· == lineage) body.children ≠ [] := by
  rw [isAttached, Bool.and_eq_true, List.any_eq_true, lineages_ne_nil_iff]
  simp

/-- Whether an element is what a record is about. -/
def isRecorded (records : List Record) (lineage : Lineage) : Bool :=
  !lineage.isEmpty && records.any (·.subject == some lineage)

/-- Highlighting leaves what is recorded where it is, and so do bookmarks. -/
theorem lineages_highlighted (clear : AreClear all nodes)
    (areMarked : ∀ own, isMarked marks own → all own) (isOwn : all lineage) (isNamed : lineage ≠ []) :
    lineages (· == lineage) (nodes.map (mapRuns (isMarked marks) (Word.lit hue) false)) =
      lineages (· == lineage) nodes := by
  have own (other : Lineage) (same : (other == lineage) = true) : all other := by
    rwa [beq_iff_eq.mp same]
  exact lineages_map (beq_false_of_ne isNamed.symm) fun node member =>
    clear.clears member areMarked own

theorem lineages_annotate (clear : AreClear all nodes)
    (areMarked : ∀ own, isMarked marks own → all own) (isOwn : all lineage) (isNamed : lineage ≠ []) :
    lineages (· == lineage) (annotate hue marks nodes) = lineages (· == lineage) nodes := by
  have unnamed : (([] : Lineage) == lineage) = false := beq_false_of_ne isNamed.symm
  rw [annotate, lineages_bracketAll unnamed, lineages_highlighted clear areMarked isOwn isNamed]

theorem children_annotate (hue : String) (marks : List Mark) (body : Node) :
    (body.withChildren (annotate hue marks body.children)).children =
      annotate hue marks body.children := by
  cases body <;> rfl

theorem isAttached_annotate (clear : AreClear all body.children)
    (areMarked : ∀ own, isMarked marks own → all own) (isOwn : lineage ≠ [] → all lineage) :
    isAttached (body.withChildren (annotate hue marks body.children)) lineage =
      isAttached body lineage := by
  rw [Bool.eq_iff_iff, isAttached_iff_lineages, isAttached_iff_lineages, children_annotate]
  refine and_congr_right fun isNamed => ?_
  rw [lineages_annotate clear areMarked (isOwn isNamed) isNamed]

/-! ### Records -/

/-- The entry of a record in a list: its number and its message, and a link if its element is in the
body. -/
def entry (body : Node) (number : Nat) (record : Record) : Node :=
  let run := Word.makeRun [Word.makeText (numberedText number record)]
  match record.subject.filter (isAttached body) with
  | none => Word.makeParagraph [run]
  | some _ => linkParagraph (bookmarkName number) run

def entriesFrom (body : Node) (number : Nat) (records : List Record) : List Node :=
  (records.zipIdx number).map fun numbered => entry body numbered.2 numbered.1

theorem entriesFrom_cons (body : Node) (number : Nat) (record : Record) (rest : List Record) :
    entriesFrom body number (record :: rest) =
      entry body number record :: entriesFrom body (number + 1) rest := rfl

/-- The bookmarks of records that are numbered from some number on, if the ids from another number on
are free. -/
def marksFrom (body : Node) : Nat → Int → List Record → List Mark
  | _, _, [] => []
  | number, next, record :: rest =>
    match record.subject.filter (isAttached body) with
    | none => marksFrom body (number + 1) next rest
    | some lineage =>
      ⟨number, lineage, toString next⟩ :: marksFrom body (number + 1) (next + 1) rest

section Drafts

variable {number : Nat} {list : List Node} {next : Int}

theorem addRecord_of_none (nothing : record.subject.filter (isAttached body) = none)
    (writable : isWritableText record.message) :
    addRecord hue number record ⟨body, list, next⟩ = (⟨body, list ++
      [Word.makeParagraph [Word.makeRun [Word.makeText (numberedText number record)]]], next⟩, none) := by
  rw [← isWritableText_numbered number] at writable
  have text : s!"{number}. " ++ record.message = numberedText number record := rfl
  rw [addRecord, nothing]
  simp only [text, addParagraph, Block.textRun, if_pos writable]

theorem addRecord_of_some (isSubject : record.subject.filter (isAttached body) = some lineage)
    (writable : isWritableText record.message) (fits : Number.isOverLimit next = false) :
    addRecord hue number record ⟨body, list, next⟩ =
      (⟨body.expand lineage (bookmarked (toString next) (bookmarkName number) hue),
        list ++ [linkParagraph (bookmarkName number)
          (Word.makeRun [Word.makeText (numberedText number record)])], next + 1⟩, none) := by
  rw [← isWritableText_numbered number] at writable
  have text : s!"{number}. " ++ record.message = numberedText number record := rfl
  rw [addRecord, isSubject]
  simp only [text, Report.mark, Number.writeNumeral, fits, addParagraph, Block.textRun, if_pos writable]
  rfl

end Drafts

theorem expand_annotate (named : IsNamed (marks ++ [mark])) (apart : ToldApart body.children)
    (clear : AreClear all body.children)
    (areMarked : ∀ own, isMarked (marks ++ [mark]) own → all own) :
    (body.withChildren (annotate hue marks body.children)).expand mark.lineage
        (bookmarked mark.id (bookmarkName mark.number) hue) =
      body.withChildren (annotate hue (marks ++ [mark]) body.children) := by
  have isNew : mark.lineage ≠ [] := named mark (List.mem_append_right _ List.mem_cons_self)
  have annotated := expandAll_annotate hue named (clear.mono areMarked)
    (lineages_le_one apart isNew)
  cases body with
  | element name own traits children =>
    exact congrArg (Node.element name own traits) annotated
  | aside content tail => rfl

/-- The bookmark of a record, if its element is in the body. -/
def markOf (body : Node) (number : Nat) (next : Int) (record : Record) : List Mark :=
  match record.subject.filter (isAttached body) with
  | none => []
  | some lineage => [⟨number, lineage, toString next⟩]

theorem marksFrom_cons (body : Node) (number : Nat) (next : Int) (record : Record)
    (rest : List Record) : marksFrom body number next (record :: rest) =
      markOf body number next record ++
        marksFrom body (number + 1) (next + (markOf body number next record).length) rest := by
  rw [marksFrom, markOf]
  cases record.subject.filter (isAttached body) with
  | none => simp
  | some lineage => rfl

theorem length_markOf_le (body : Node) (number : Nat) (next : Int) (record : Record) :
    (markOf body number next record).length ≤ 1 := by
  unfold markOf
  split
  · exact Nat.zero_le _
  · exact Nat.le_refl _

theorem of_mem_markOf {number : Nat} {next : Int} (member : mark ∈ markOf body number next record) :
    (record.subject = some mark.lineage ∧ isAttached body mark.lineage) ∧ mark.id = toString next := by
  unfold markOf at member
  split at member
  · cases member
  · rename_i lineage isSubject
    rw [List.mem_singleton.mp member]
    exact ⟨Option.filter_eq_some_iff.mp isSubject, rfl⟩

/-- Bookmarks go around known elements. -/
structure Tracks (all : Lineage → Bool) (marks : List Mark) : Prop where
  named : IsNamed marks
  known : ∀ own, isMarked marks own → all own

theorem Tracks.append_markOf (tracks : Tracks all marks)
    (recorded : ∀ own, record.subject = some own → own ≠ [] → all own) (number : Nat) (next : Int) :
    Tracks all (marks ++ markOf body number next record) := by
  have new (mark : Mark) (member : mark ∈ markOf body number next record) :
      mark.lineage ≠ [] ∧ all mark.lineage := by
    obtain ⟨⟨isSubject, isThere⟩, -⟩ := of_mem_markOf member
    have isNamed := (isAttached_iff_lineages.mp isThere).1
    exact ⟨isNamed, recorded _ isSubject isNamed⟩
  constructor
  · intro mark member
    rcases List.mem_append.mp member with isOld | isNew
    · exact tracks.named mark isOld
    · exact (new mark isNew).1
  · intro own marked
    obtain ⟨mark, member, isOwn⟩ := List.any_eq_true.mp marked
    rcases List.mem_append.mp member with isOld | isNew
    · exact tracks.known own (List.any_eq_true.mpr ⟨mark, isOld, isOwn⟩)
    · rw [← beq_iff_eq.mp isOwn]
      exact (new mark isNew).2

/-- What a record does to a body that is annotated: it adds its bookmark if its element is there, and
its entry to the list. -/
theorem addRecord_annotates (hue : String) (number : Nat) {next : Int}
    (apart : ToldApart body.children) (clear : AreClear all body.children) (tracks : Tracks all marks)
    (recorded : ∀ own, record.subject = some own → own ≠ [] → all own)
    (writable : isWritableText record.message) (fits : Number.isOverLimit next = false)
    (list : List Node) :
    addRecord hue number record ⟨body.withChildren (annotate hue marks body.children), list, next⟩ =
      (⟨body.withChildren (annotate hue (marks ++ markOf body number next record) body.children),
        list ++ [entry body number record], next + (markOf body number next record).length⟩, none) := by
  have same : record.subject.filter (isAttached
      (body.withChildren (annotate hue marks body.children))) =
      record.subject.filter (isAttached body) := by
    cases subject : record.subject with
    | none => rfl
    | some own =>
      rw [Option.filter, Option.filter, isAttached_annotate clear tracks.known (recorded own subject)]
  have more : Tracks all (marks ++ markOf body number next record) :=
    tracks.append_markOf recorded number next
  cases isSubject : record.subject.filter (isAttached body) with
  | none =>
    have noMark : markOf body number next record = [] := by rw [markOf, isSubject]
    have isEntry : entry body number record = Word.makeParagraph
        [Word.makeRun [Word.makeText (numberedText number record)]] := by
      rw [entry, isSubject]
    rw [addRecord_of_none (same.trans isSubject) writable, noMark, isEntry, List.append_nil]
    simp
  | some lineage =>
    have isMark : markOf body number next record = [⟨number, lineage, toString next⟩] := by
      rw [markOf, isSubject]
    have isEntry : entry body number record = linkParagraph (bookmarkName number)
        (Word.makeRun [Word.makeText (numberedText number record)]) := by
      rw [entry, isSubject]
    rw [isMark] at more ⊢
    rw [addRecord_of_some (same.trans isSubject) writable fits, isEntry,
      ← expand_annotate more.named apart clear more.known]
    rfl

/-- Records add the bookmarks of all elements that are there, and an entry each. -/
theorem addRecords_annotates (hue : String) (apart : ToldApart body.children)
    (clear : AreClear all body.children) (records : List Record) :
    ∀ (number : Nat) (next : Int) (marks : List Mark) (list : List Node),
      (∀ record ∈ records, isWritableText record.message) →
      (∀ record ∈ records, ∀ own, record.subject = some own → own ≠ [] → all own) →
      Tracks all marks → 0 ≤ next → next + records.length ≤ Number.tenTo Number.digitLimit →
      ∃ last, addRecords hue number records
          ⟨body.withChildren (annotate hue marks body.children), list, next⟩ =
        (⟨body.withChildren (annotate hue (marks ++ marksFrom body number next records) body.children),
          list ++ entriesFrom body number records, last⟩, none) := by
  induction records with
  | nil =>
    intro number next marks list _ _ _ _ _
    refine ⟨next, ?_⟩
    rw [marksFrom, List.append_nil, entriesFrom, List.zipIdx_nil, List.map_nil, List.append_nil]
    rfl
  | cons record rest ih =>
    intro number next marks list writable recorded tracks natural fits
    rw [List.length_cons] at fits
    rw [List.forall_mem_cons] at writable recorded
    have inLimit : Number.isOverLimit next = false := by
      rw [Number.isOverLimit, decide_eq_false_iff_not]
      omega
    have most := length_markOf_le body number next record
    have step := addRecord_annotates hue number apart clear tracks recorded.1 writable.1 inLimit list
    obtain ⟨last, others⟩ := ih (number + 1) (next + (markOf body number next record).length)
      (marks ++ markOf body number next record) (list ++ [entry body number record]) writable.2 recorded.2
      (tracks.append_markOf recorded.1 number next) (by omega) (by omega)
    refine ⟨last, ?_⟩
    rw [addRecords, step]
    simp only
    rw [others, marksFrom_cons, entriesFrom_cons, List.append_assoc, List.append_assoc]
    rfl

/-! ### Ids -/

/-- A bookmark belongs to a record whose element is in the body, and its id is one of those that were
free. -/
theorem exists_of_mem_marksFrom (records : List Record) : ∀ number next,
    ∀ mark ∈ marksFrom body number next records,
      (∃ record ∈ records, record.subject = some mark.lineage ∧ isAttached body mark.lineage) ∧
        ∃ k : Int, next ≤ k ∧ k < next + records.length ∧ mark.id = toString k := by
  induction records with
  | nil => exact fun _ _ _ member => absurd member List.not_mem_nil
  | cons record rest ih =>
    intro number next mark member
    rw [marksFrom_cons, List.mem_append] at member
    rw [List.length_cons]
    rcases member with own | later
    · obtain ⟨about, isId⟩ := of_mem_markOf own
      exact ⟨⟨record, List.mem_cons_self, about⟩, next, Int.le_refl _, by omega, isId⟩
    · have most := length_markOf_le body number next record
      obtain ⟨⟨other, isIn, about⟩, k, above, below, isId⟩ := ih _ _ mark later
      exact ⟨⟨other, List.mem_cons_of_mem _ isIn, about⟩, k, by omega, by omega, isId⟩

theorem isNamed_marksFrom (number : Nat) (next : Int) :
    IsNamed (marksFrom body number next records) := by
  intro mark member
  obtain ⟨⟨_, _, _, isThere⟩, _⟩ := exists_of_mem_marksFrom records _ _ mark member
  exact (isAttached_iff_lineages.mp isThere).1

theorem isRecorded_of_isMarked {number : Nat} {next : Int}
    (marked : isMarked (marksFrom body number next records) lineage) :
    isRecorded records lineage := by
  obtain ⟨mark, member, isOwn⟩ := List.any_eq_true.mp marked
  obtain ⟨⟨record, isIn, isSubject, -⟩, -⟩ := exists_of_mem_marksFrom records _ _ mark member
  have named := isNamed_marksFrom _ _ mark member
  rw [beq_iff_eq.mp isOwn] at isSubject named
  rw [isRecorded, Bool.and_eq_true, List.any_eq_true]
  exact ⟨by simpa using named, record, isIn, beq_iff_eq.mpr isSubject⟩

theorem nodup_marksFrom (records : List Record) : ∀ number next,
    ((marksFrom body number next records).map Mark.id).Nodup := by
  induction records with
  | nil => exact fun _ _ => List.nodup_nil
  | cons record rest ih =>
    intro number next
    rw [marksFrom]
    split
    · exact ih _ _
    · rw [List.map_cons, List.nodup_cons]
      refine ⟨fun again => ?_, ih _ _⟩
      obtain ⟨mark, member, isId⟩ := List.mem_map.mp again
      obtain ⟨-, k, above, -, isNumeral⟩ := exists_of_mem_marksFrom rest _ _ mark member
      have same := Number.toString_injective (isNumeral.symm.trans isId)
      omega

def attachedFrom (body : Node) (number : Nat) (records : List Record) : List (Nat × Lineage) :=
  (records.zipIdx number).filterMap fun numbered =>
    (numbered.1.subject.filter (isAttached body)).map (numbered.2, ·)

theorem map_marksFrom (records : List Record) : ∀ number next,
    (marksFrom body number next records).map (fun mark => (mark.number, mark.lineage)) =
      attachedFrom body number records := by
  induction records with
  | nil => exact fun _ _ => rfl
  | cons record rest ih =>
    intro number next
    rw [marksFrom, attachedFrom, List.zipIdx_cons, List.filterMap_cons]
    split
    · rename_i nothing
      simp only [nothing]
      exact ih _ _
    · rename_i lineage isSubject
      simp only [isSubject]
      rw [List.map_cons, ih]
      rfl

theorem le_foldl_max_of_mem {values : List Int} {n : Int} (member : n ∈ values) (first : Int) :
    n ≤ values.foldl max first := by
  induction values generalizing first with
  | nil => cases member
  | cons value rest ih =>
    rcases List.mem_cons.mp member with rfl | later
    · exact Int.le_trans (Int.le_max_right first n) (le_foldl_max rest _)
    · exact ih later _

/-- Numerals above the largest id are no ids. -/
theorem fresh_of_largest {largest k : Int} (found : largestBookmark body = .ok largest)
    (natural : 0 ≤ k) (above : largest < k) (fits : Number.isOverLimit k = false) :
    toString k ∉ bookmarkIds body := by
  intro member
  have digits : ∀ c ∈ (toString k).toList, c.isDigit := by
    rw [Number.toList_toString, if_neg (by omega), List.nil_append]
    exact fun c isIn => Nat.isDigit_of_mem_toDigits (by decide) (by decide) isIn
  have looks : (!(toString k).isEmpty && (toString k).toList.all Text.isDigitLike) = true := by
    have something : (toString k).toList ≠ [] := by
      rw [Number.toList_toString, if_neg (by omega), List.nil_append]
      exact Nat.toDigits_ne_nil
    rw [Bool.and_eq_true, List.all_eq_true]
    exact ⟨by simpa using something, fun c isIn => Number.isDigitLike_of_isDigit (digits c isIn)⟩
  obtain ⟨values, read, isLargest⟩ := bind_eq_ok found
  obtain ⟨n, isValue, isRead⟩ := exists_right_of_mem (forall₂_of_mapM read)
    (List.mem_filter.mpr ⟨member, looks⟩)
  have isNumber := mapError_eq_ok isRead
  rw [Number.readNumeral_toString, if_neg (ne_true_of_eq_false fits)] at isNumber
  cases isNumber
  cases isLargest
  have atMost := le_foldl_max_of_mem isValue (-1)
  omega

def uses (kind : Name) (id : String) (x : Node) : Bool :=
  x.isNamed kind && x.attribute? Word.identifier == some id

/-- How often an id is used by the elements of a kind. -/
def timesUsed (kind : Name) (id : String) (nodes : List Node) : Nat :=
  (Node.elementsOf nodes).countP (uses kind id)

theorem timesUsed_eq_zero_iff {kind : Name} {id : String} : timesUsed kind id nodes = 0 ↔
    ∀ x ∈ Node.elementsOf nodes, x.isNamed kind → x.attribute? Word.identifier ≠ some id := by
  simp [timesUsed, uses]

theorem timesUsed_of_fresh {id : String} (fresh : id ∉ bookmarkIds body) :
    timesUsed Word.bookmarkStart id body.children = 0 := by
  rw [timesUsed_eq_zero_iff]
  intro x inside isStart isId
  refine fresh (List.mem_map.mpr ⟨x, List.mem_filter.mpr ⟨?_, isStart⟩, ?_⟩)
  · exact Node.mem_elements_of_children inside
  · rw [isId]
    rfl

/-- Highlighting uses no ids. -/
theorem timesUsed_map {chosen : Lineage → Bool} {kind : Name} {id : String}
    (isKind : kind ∈ [Word.bookmarkStart, Word.bookmarkEnd]) (unused : timesUsed kind id nodes = 0) :
    timesUsed kind id (nodes.map (mapRuns chosen (Word.lit hue) false)) = 0 := by
  have noMark {x : Node} (named : x.isNamed kind) : ¬ Word.IsMark x := by
    rintro ⟨own, isMark, isOwn⟩
    rw [Node.eq_of_isNamed isOwn named] at isMark
    have apart : ∀ kind ∈ [Word.bookmarkStart, Word.bookmarkEnd],
        kind ∉ [Word.runProperties, Word.boldMark, Word.colorMark] := by decide
    exact apart kind isKind isMark
  rw [timesUsed_eq_zero_iff] at unused ⊢
  intro x inside named
  rcases stems_map (fun node _ => stems_mapRuns node false) x inside with
    ⟨-, isMark⟩ | ⟨y, isThere, -, sameName, same⟩
  · exact absurd isMark (noMark named)
  · rw [Node.attribute?, ← same.resolve_right (noMark named), ← Node.attribute?]
    exact unused y isThere (by rwa [Node.isNamed, sameName])

theorem countP_marksOf (distinct : (marks.map Mark.id).Nodup) {mark : Mark} (member : mark ∈ marks)
    (own : Lineage) : (marksOf marks own).countP (·.id == mark.id) =
      if own = mark.lineage then 1 else 0 := by
  have counted : (marksOf marks own).countP (·.id == mark.id) =
      ((marksOf marks own).map Mark.id).count mark.id := by
    rw [List.count, List.countP_map]
    rfl
  have fewer : ((marksOf marks own).map Mark.id).Nodup :=
    distinct.sublist (List.Sublist.map _ (List.filter_sublist))
  rw [counted]
  split
  · rename_i isOwn
    refine List.count_eq_one_of_mem fewer (List.mem_map_of_mem (List.mem_filter.mpr ⟨member, ?_⟩))
    rw [isOwn, beq_self_eq_true]
  · rename_i isOther
    rw [List.count_eq_zero]
    intro again
    obtain ⟨other, among, sameId⟩ := List.mem_map.mp again
    obtain ⟨isIn, isOwn⟩ := List.mem_filter.mp among
    obtain rfl := List.inj_on_of_nodup_map distinct isIn member sameId
    exact isOther (beq_iff_eq.mp isOwn).symm

/-- The id of a bookmark is used once more at the beginning and at the end of it. -/
theorem timesUsed_bracketAll {kind : Name} (isKind : kind ∈ [Word.bookmarkStart, Word.bookmarkEnd])
    (distinct : (marks.map Mark.id).Nodup) (named : IsNamed marks) {mark : Mark} (member : mark ∈ marks)
    (nodes : List Node) : timesUsed kind mark.id (bracketAll marks nodes) =
      timesUsed kind mark.id nodes + (lineages (· == mark.lineage) nodes).length := by
  refine countP_bracketAll (fun x => ?_) (named mark member) (fun own => ?_) nodes
  · rw [uses, Node.isNamed, name?_bracket, Node.attribute?, attributes_bracket]
    rfl
  · have each := countP_marksOf distinct member own
    rw [openings, closings, List.countP_map, List.countP_map, List.countP_reverse, ← each]
    have begins (own : List Mark) : own.countP (uses Word.bookmarkStart mark.id ∘ Mark.opening) +
        own.countP (uses Word.bookmarkStart mark.id ∘ Mark.closing) =
          own.countP (·.id == mark.id) := by
      have nothing : own.countP (uses Word.bookmarkStart mark.id ∘ Mark.closing) = 0 :=
        List.countP_eq_zero.mpr fun other _ => Bool.false_ne_true
      rw [nothing]
      rfl
    have ends (own : List Mark) : own.countP (uses Word.bookmarkEnd mark.id ∘ Mark.opening) +
        own.countP (uses Word.bookmarkEnd mark.id ∘ Mark.closing) =
          own.countP (·.id == mark.id) := by
      have nothing : own.countP (uses Word.bookmarkEnd mark.id ∘ Mark.opening) = 0 :=
        List.countP_eq_zero.mpr fun other _ => Bool.false_ne_true
      rw [nothing, Nat.zero_add]
      rfl
    rcases List.mem_cons.mp isKind with rfl | isEnd
    · exact begins _
    · rw [List.mem_singleton.mp isEnd]
      exact ends _

/-! ### A whole report -/

def title (text : String) : Node :=
  Word.makeParagraph [Word.emboldenRun (Word.makeRun [Word.makeText text])]

def listOf (options : Options) (records : List Record) (body : Node) : List Node :=
  title options.errorHeading :: entriesFrom body 1 records

def readings (options : Options) (records : List Record) : List String :=
  options.errorHeading :: (records.zipIdx 1).map fun numbered => numberedText numbered.2 numbered.1

/-- Nodes, if bold and color are disregarded in the runs of marked elements. -/
def disregarded (marks : List Mark) (nodes : List Node) : List Node :=
  nodes.map (mapRuns (isMarked marks) Word.unlit false)

/-- What a report makes of the content of a body, apart from the list. -/
structure IsAnnotated (hue : String) (records : List Record) (body : Node) (marks : List Mark)
    (nodes : List Node) : Prop where
  /-- The records whose element is in the body have a bookmark each, and no other record has one. -/
  own : marks.map (fun mark => (mark.number, mark.lineage)) = attachedFrom body 1 records
  distinct : (marks.map Mark.id).Nodup
  fresh : ∀ mark ∈ marks, mark.id ∉ bookmarkIds body
  /-- Every bookmark begins once. It ends once, unless there was a stray end of its id. -/
  once : ∀ kind ∈ [Word.bookmarkStart, Word.bookmarkEnd], ∀ mark ∈ marks,
    timesUsed kind mark.id body.children = 0 → timesUsed kind mark.id nodes = 1
  /-- The bookmarks of an element stand around it, and its runs are highlighted. -/
  around : ∀ mark ∈ marks, ∃ control,
    (Node.elementsOf nodes).filter (·.lineage == mark.lineage) = [control] ∧
    StandTogether (openings marks mark.lineage ++ control :: closings marks mark.lineage) nodes ∧
    ∀ run ∈ control.elements, run.isNamed Word.run → Word.IsLit hue run
  /-- The bookmarks are well bracketed. Without them, and but for bold and color, the content is what it
  was. -/
  kept : ∃ left, takeOutOf (marks.map Mark.id) [] nodes = some left ∧
    disregarded marks left = disregarded marks body.children

theorem reading_title (text : String) : Word.reading [title text] = text := by
  have isTitle : title text = Word.makeParagraph [Word.makeRun
      [.plain Word.runProperties [] [.plain Word.boldMark [] []], Word.makeText text]] := rfl
  have isText : Word.pieces [title text] = [.text text] := by
    rw [isTitle, Word.pieces_of_none rfl]
    refine (Word.pieces_of_none rfl).trans ((Word.pieces_cons _ _).trans ?_)
    rw [Word.pieces_makeText]
    rfl
  rw [Word.reading, isText]
  exact String.join_cons.trans String.append_empty

theorem reading_entry (body : Node) (number : Nat) (record : Record) :
    Word.reading [entry body number record] = numberedText number record := by
  have run : Word.pieces [Word.makeRun [Word.makeText (numberedText number record)]] =
      [.text (numberedText number record)] := Word.pieces_textRun _
  have reads (paragraph : Node)
      (isText : Word.pieces [paragraph] = [.text (numberedText number record)]) :
      Word.reading [paragraph] = numberedText number record := by
    rw [Word.reading, isText]
    exact String.join_cons.trans String.append_empty
  refine reads _ ?_
  unfold entry
  split
  · exact (Word.pieces_of_none rfl).trans run
  · exact (Word.pieces_of_none rfl).trans ((Word.pieces_of_none rfl).trans run)

theorem reading_listOf (options : Options) (records : List Record) (body : Node) :
    (listOf options records body).map (fun paragraph => Word.reading [paragraph]) =
      readings options records := by
  rw [listOf, List.map_cons, reading_title, readings, entriesFrom, List.map_map]
  exact congrArg _ (List.map_congr_left fun numbered _ => reading_entry body numbered.2 numbered.1)

theorem filter_eq_singleton (single : (lineages (· == lineage) nodes).length = 1) {x : Node}
    (inside : x ∈ Node.elementsOf nodes) (isOwn : x.lineage = lineage) :
    (Node.elementsOf nodes).filter (·.lineage == lineage) = [x] := by
  rw [lineages, List.filter_map, List.length_map] at single
  obtain ⟨only, isOnly⟩ := List.length_eq_one_iff.mp single
  have isIn : x ∈ (Node.elementsOf nodes).filter (·.lineage == lineage) :=
    List.mem_filter.mpr ⟨inside, beq_iff_eq.mpr isOwn⟩
  have same : (Node.elementsOf nodes).filter (·.lineage == lineage) = [only] := isOnly
  rw [same] at isIn ⊢
  rw [List.mem_singleton.mp isIn]

theorem opened_eq_none {ids : List String} {x : Node} (inside : x ∈ Node.elementsOf nodes)
    (unused : ∀ id ∈ ids, timesUsed Word.bookmarkStart id nodes = 0) : opened ids x = none := by
  unfold opened
  split
  · rename_i isStart
    rw [Option.filter_eq_none_iff]
    intro id isId isIn
    have isOne : id ∈ ids := by simpa using isIn
    exact timesUsed_eq_zero_iff.mp (unused id isOne) x inside isStart isId
  · rfl

/-- The only element of a lineage stands between its bookmarks, and its runs are highlighted. -/
theorem exists_between (tracks : Tracks all marks) (clear : AreClear all nodes)
    (marked : isMarked marks lineage) (isNamed : lineage ≠ [])
    (single : (lineages (· == lineage) nodes).length = 1) :
    ∃ control, (Node.elementsOf (annotate hue marks nodes)).filter (·.lineage == lineage) = [control] ∧
      StandTogether (openings marks lineage ++ control :: closings marks lineage)
        (annotate hue marks nodes) ∧
      ∀ run ∈ control.elements, run.isNamed Word.run → Word.IsLit hue run := by
  have known := tracks.known lineage marked
  have lit : (lineages (· == lineage)
      (nodes.map (mapRuns (isMarked marks) (Word.lit hue) false))).length = 1 := by
    rw [lineages_highlighted clear tracks.known known isNamed, single]
  obtain ⟨x, inside, isX⟩ := lineages_ne_nil_iff.mp (List.ne_nil_of_length_eq_add_one lit)
  have isOwn : x.lineage = lineage := beq_iff_eq.mp isX
  have there : bracket marks x ∈ Node.elementsOf (annotate hue marks nodes) :=
    mem_elementsOf_bracketAll inside marks
  have still : (bracket marks x).lineage = lineage := (lineage_bracket x).trans isOwn
  have alone : (lineages (· == lineage) (annotate hue marks nodes)).length = 1 := by
    rw [lineages_annotate clear tracks.known known isNamed, single]
  refine ⟨bracket marks x, filter_eq_singleton alone there still,
    isOwn ▸ standTogether_bracketAll inside marks, ?_⟩
  rw [annotate, ← map_bracketAll_of_clear tracks.named clear tracks.known tracks.known] at there
  obtain ⟨_, among, within⟩ := Node.mem_elementsOf_iff.mp there
  obtain ⟨node, -, rfl⟩ := List.mem_map.mp among
  exact isLit_of_chosen node false _ within (still ▸ marked)

/-- The content of a body is annotated with the bookmarks of records. -/
theorem isAnnotated_annotate (apart : ToldApart body.children)
    (clear : AreClear (isRecorded records) body.children) {next : Int}
    (fresh : ∀ mark ∈ marksFrom body 1 next records, mark.id ∉ bookmarkIds body) :
    IsAnnotated hue records body (marksFrom body 1 next records)
      (annotate hue (marksFrom body 1 next records) body.children) := by
  generalize isWhole : marksFrom body 1 next records = marks at fresh ⊢
  have tracks : Tracks (isRecorded records) marks := by
    subst isWhole
    exact ⟨isNamed_marksFrom 1 next, fun own => isRecorded_of_isMarked⟩
  have distinct : (marks.map Mark.id).Nodup := isWhole ▸ nodup_marksFrom records 1 next
  have marked (mark : Mark) (member : mark ∈ marks) : isMarked marks mark.lineage :=
    List.any_eq_true.mpr ⟨mark, member, beq_self_eq_true _⟩
  -- the element of a bookmark is in the body, and there is no other one like it
  have single : ∀ mark ∈ marks, (lineages (· == mark.lineage) body.children).length = 1 := by
    intro mark member
    have most := lineages_le_one apart (tracks.named mark member)
    rw [← isWhole] at member
    obtain ⟨⟨_, _, _, attached⟩, _⟩ := exists_of_mem_marksFrom records _ _ mark member
    have some := List.length_pos_of_ne_nil (isAttached_iff_lineages.mp attached).2
    omega
  constructor
  · rw [← isWhole, map_marksFrom]
  · exact distinct
  · exact fresh
  · intro kind isKind mark member unused
    rw [annotate, timesUsed_bracketAll isKind distinct tracks.named member, timesUsed_map isKind unused,
      lineages_highlighted clear tracks.known (tracks.known _ (marked mark member))
        (tracks.named mark member), single mark member]
  · intro mark member
    exact exists_between tracks clear (marked mark member) (tracks.named mark member)
      (single mark member)
  · refine ⟨_, takeOutOf_bracketAll tracks.named _ fun x inside => opened_eq_none inside ?_, ?_⟩
    · intro id isId
      obtain ⟨mark, member, rfl⟩ := List.mem_map.mp isId
      exact timesUsed_map (by simp) (timesUsed_of_fresh (fresh mark member))
    · rw [disregarded, List.map_map]
      exact List.map_congr_left fun node _ =>
        mapRuns_absorb (Word.unlit_lit hue) (fun _ chosen => chosen) node false false id

/-- In a body that tells its elements apart, a report of records that can be written is written: a list
with a heading and the records is put in front of the body, and the body is annotated with a bookmark
for every record whose element is in it. No recorded element may be in a color of a run that is
highlighted, or be a property that highlighting may put something in front of, and no color of such a
run may hold the run after it. -/
theorem render_annotates (options : Options) (records : List Record) (body : Node) (hue : String)
    (asked : options.showErrors) (nonempty : records ≠ [])
    (isHue : Word.readColor options.errorColor = .ok hue)
    (heading : isWritableText options.errorHeading)
    (messages : ∀ record ∈ records, isWritableText record.message)
    (countable : ∀ id ∈ bookmarkIds body, IsCountable id)
    (room : ∀ largest, largestBookmark body = .ok largest →
      Number.isOverLimit (largest + records.length) = false)
    (apart : ToldApart body.children) (clear : AreClear (isRecorded records) body.children) :
    ∃ marks nodes,
      render options records body =
        ((body.withChildren nodes).insertFirst (listOf options records body), none) ∧
      (listOf options records body).map (fun paragraph => Word.reading [paragraph]) =
        readings options records ∧
      IsAnnotated hue records body marks nodes := by
  obtain ⟨largest, found⟩ := (largestBookmark_returns_iff body).mpr countable
  have natural := largestBookmark_ge found
  have inLimit := room largest found
  rw [Number.isOverLimit, decide_eq_false_iff_not] at inLimit
  have begun : begin options body = .ok (hue, ⟨body, [title options.errorHeading], largest + 1⟩) := by
    rw [begin, isHue, found, Report.heading, Block.textRun, if_pos heading]
    rfl
  have recorded : ∀ record ∈ records, ∀ own, record.subject = some own → own ≠ [] →
      isRecorded records own := by
    intro record member own isSubject isNamed
    rw [isRecorded, Bool.and_eq_true, List.any_eq_true]
    exact ⟨by simpa using isNamed, record, member, beq_iff_eq.mpr isSubject⟩
  obtain ⟨last, done⟩ := addRecords_annotates hue apart clear records 1 (largest + 1) []
    [title options.errorHeading] messages recorded
    ⟨List.forall_mem_nil _, fun _ marked => absurd marked Bool.false_ne_true⟩ (by omega) (by omega)
  rw [annotate_nil, Node.withChildren_children, List.nil_append] at done
  have fresh : ∀ mark ∈ marksFrom body 1 (largest + 1) records, mark.id ∉ bookmarkIds body := by
    intro mark member
    obtain ⟨-, k, above, below, isId⟩ := exists_of_mem_marksFrom records _ _ mark member
    have fits : Number.isOverLimit k = false := by
      rw [Number.isOverLimit, decide_eq_false_iff_not]
      omega
    rw [isId]
    exact fresh_of_largest found (by omega) (by omega) fits
  refine ⟨_, _, ?_, reading_listOf options records body, isAnnotated_annotate apart clear fresh⟩
  have isAsked : ¬ (!options.showErrors || records.isEmpty) = true := by simp [asked, nonempty]
  rw [render, if_neg isAsked, begun]
  simp only [done]
  rfl

/-- A body with a bookmark and a control, whose run has another one among its properties. Next to the
run there is one more control. -/
def nestedBody : Node :=
  .plain Word.body []
    [.plain Word.bookmarkStart [(Word.identifier, "7")] [],
      .plain Word.control []
        [.plain Word.run []
          [.plain Word.runProperties []
            [.plain Word.boldMark [(Word.value, "0")] [], .plain Word.control [] []],
            Word.makeText "a"],
          .plain Word.control [] [Word.makeRun [Word.makeText "b"]]]]

/-- Records about all controls of that body, about one of them twice, and about nothing in it. -/
def nestedRecords : List Record :=
  [⟨"a", some [0]⟩, ⟨"b", some [1]⟩, ⟨"c", some [0]⟩, ⟨"d", none⟩, ⟨"e", some [5]⟩, ⟨"f", some [2]⟩]

theorem nestedBody_annotated :
    let body := (Control.enroll 0 nestedBody).1
    attachedFrom body 1 nestedRecords = [(1, [0]), (2, [1]), (3, [0]), (6, [2])] ∧
    ∃ marks nodes,
      render reporting nestedRecords body =
        ((body.withChildren nodes).insertFirst (listOf reporting nestedRecords body), none) ∧
      (listOf reporting nestedRecords body).map (fun paragraph => Word.reading [paragraph]) =
        readings reporting nestedRecords ∧
      IsAnnotated "FF0000" nestedRecords body marks nodes := by
  intro body
  have largest : largestBookmark body = .ok 7 := rfl
  refine ⟨by decide +kernel, render_annotates reporting nestedRecords body "FF0000" rfl (by decide) rfl
    (by decide +kernel) (by decide +kernel) ((largestBookmark_returns_iff body).mp ⟨7, largest⟩)
    (fun found isLargest => ?_) (by decide +kernel) (by decide +kernel)⟩
  rw [largest] at isLargest
  cases isLargest
  decide +kernel

/-- A body with a control that has two runs. The first of them has one more run in its color. -/
def crowdedBody : Node :=
  .plain Word.body []
    [.plain Word.control []
      [.plain Word.run []
          [.plain Word.runProperties [] [.plain Word.colorMark [] [.plain Word.run [] []]]],
        .plain Word.run [] []]]

/-- A control in the color of a run is gone when the run is highlighted for a record before its own.
If there is a run in the color, nothing is highlighted behind it. -/
theorem coloredBodies_unfinished :
    (let body := (Control.enroll 0 coloredBody).1
     let records : List Record := [⟨"a", some [0]⟩, ⟨"b", some [1]⟩]
     let result := render reporting records body
     (∀ record ∈ records, isWritableText record.message) ∧ bookmarkIds body = [] ∧
       isAttached body [0] ∧ isAttached body [1] ∧ result.2.isNone ∧ bookmarkIds result.1 = ["0"]) ∧
    (let body := (Control.enroll 0 crowdedBody).1
     let records : List Record := [⟨"a", some [0]⟩]
     let result := render reporting records body
     (∀ record ∈ records, isWritableText record.message) ∧ bookmarkIds body = [] ∧
       isAttached body [0] ∧ result.2.isNone ∧
       ∃ control ∈ Node.elementsOf result.1.children, control.lineage = [0] ∧
         ∃ run ∈ control.children, run.isNamed Word.run ∧ run.child? Word.runProperties = none) := by
  decide +kernel

end TemplateFill.Report
