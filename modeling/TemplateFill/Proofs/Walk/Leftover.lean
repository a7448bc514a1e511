import TemplateFill.Proofs.Numbering.Room
import TemplateFill.Proofs.Walk.Series

/-!
# Lists left behind

A rich text is converted first, then its lists are kept, and only then its blocks are written. If
that stops midway the control stays as it is and has a problem, but the lists stay in their store,
where no paragraph belongs to them. This is what can be left behind, and nothing else is.
-/

namespace TemplateFill.Walk

open Xml
open TemplateFill.Numbering (Allocator Format)

variable {options : Options} {place : Place} {scope value : Datum} {lists : ListStore}
  {node : Node} {inParagraph : Bool} {start : Allocator}

/-! ### Stores with room -/

/-- The definitions of a document are below a root element, if there are any. -/
def ListStore.IsRooted : ListStore → Prop
  | .document numbering => ∀ root, numbering = some root → root.name?.isSome
  | .free _ => True

/-- Whether the first list that an allocator hands out can be kept: a document has room for ids
with few enough digits. -/
def ListStore.hasRoom (start : Allocator) : ListStore → Bool
  | .document _ => !Number.isOverLimit start.nextAbstract
  | .free _ => true

/-- Keeping one list or more changes a store if and only if there is room for the first. -/
theorem keep_eq_self_iff (rooted : lists.IsRooted) (isStart : lists.allocator? = .ok start)
    (format : Format) (formats : List Format) :
    (lists.keep (start.allocateAll (format :: formats))).1 = lists ↔
      lists.hasRoom start = false := by
  cases lists with
  | free allocator =>
    cases isStart
    have changed : start.allocateAll (format :: formats) ≠ start := by
      intro same
      have ids := congrArg Allocator.nextInstance same
      rw [Allocator.allocateAll_nextInstance, List.length_cons] at ids
      omega
    simp [ListStore.keep, ListStore.hasRoom, changed]
  | document numbering =>
    have seeded := Allocator.isSeeded_of_ofNumbering (mapError_eq_ok isStart)
    rw [ListStore.hasRoom, Bool.not_eq_false']
    unfold ListStore.keep
    simp only [Allocator.allocateAll, seeded.abstracts, seeded.instances, List.nil_append]
    rw [if_neg (by simp [Allocator.definitionsFrom])]
    cases numbering with
    | none =>
      cases isStart
      have room : Number.isOverLimit Allocator.empty.nextAbstract = false :=
        Number.isOverLimit_of_digit (by decide)
      simp [room]
    | some root =>
      rw [← Numbering.merge_eq_self_iff (rooted root rfl) start.nextAbstract format formats
        (Allocator.instancesFrom start.nextInstance start.nextAbstract (format :: formats))]
      simp

/-- The lists of a page change the store that they are kept in if there is one and the store has
room for it. -/
theorem keep_converted {blocks : List Block} {allocator : Allocator} (rooted : lists.IsRooted)
    (isStart : lists.allocator? = .ok start)
    (converted : lists.convert value = .ok (blocks, allocator)) :
    (lists.keep allocator).1 ≠ lists ↔ holdsList value ∧ lists.hasRoom start := by
  obtain ⟨first, text, forest, isFirst, isText, isForest, -, rfl⟩ := convert_eq_ok converted
  obtain rfl : first = start := by
    rw [isStart] at isFirst
    exact (Except.ok.inj isFirst).symm
  have holds : holdsList value = !(Block.outermostListsOf forest).isEmpty := by
    simp only [holdsList, isText, isForest]
  rw [holds]
  cases isLists : Block.outermostListsOf forest with
  | nil => simp [keep_start isStart]
  | cons format formats =>
    rw [ne_eq, keep_eq_self_iff rooted isStart, Bool.not_eq_false]
    simp

/-! ### Texts that are given up -/

/-- The lists of a value are kept, but it cannot be written to the end: there is no room for all of
its lists, or a block cannot be written. -/
structure StopsMidway (inParagraph : Bool) (value : Datum) (lists : ListStore) : Prop where
  holdsList : holdsList value
  stops : ∃ start blocks allocator, lists.allocator? = .ok start ∧ lists.hasRoom start ∧
    lists.convert value = .ok (blocks, allocator) ∧
    ((lists.keep allocator).2 ≠ none ∨ ∃ block ∈ blocks, ¬ block.IsWritable inParagraph)

/-- A value is given up with its lists kept if and only if it stops midway. -/
theorem rendering_stopped_iff (rooted : lists.IsRooted) :
    ((∀ nodes, (rendering inParagraph value lists).1 ≠ .ok nodes) ∧
      (rendering inParagraph value lists).2 ≠ lists) ↔ StopsMidway inParagraph value lists := by
  unfold rendering
  cases converted : lists.convert value with
  | error cause =>
    constructor
    · rintro ⟨-, changed⟩
      exact absurd rfl changed
    · rintro ⟨-, -, blocks, allocator, -, -, isConverted, -⟩
      rw [converted] at isConverted
      cases isConverted
  | ok result =>
    obtain ⟨blocks, allocator⟩ := result
    obtain ⟨start, -, -, isStart, -, -, -, -⟩ := convert_eq_ok converted
    have stops : StopsMidway inParagraph value lists ↔ (lists.keep allocator).1 ≠ lists ∧
        ((lists.keep allocator).2 ≠ none ∨ ∃ block ∈ blocks, ¬ block.IsWritable inParagraph) := by
      rw [keep_converted rooted isStart converted]
      constructor
      · rintro ⟨holds, first, _, _, isFirst, room, isConverted, stops⟩
        rw [converted] at isConverted
        rw [isStart] at isFirst
        cases isConverted
        cases isFirst
        exact ⟨⟨holds, room⟩, stops⟩
      · rintro ⟨⟨holds, room⟩, stops⟩
        exact ⟨holds, start, blocks, allocator, isStart, room, converted, stops⟩
    have writable := Block.render_returns_iff inParagraph blocks
    rw [stops]
    dsimp only
    cases isKept : lists.keep allocator with
    | mk kept fault =>
      cases fault with
      | some cause => simp
      | none =>
        have given : (∀ nodes, Block.render inParagraph blocks ≠ .ok nodes) ↔
            ∃ block ∈ blocks, ¬ block.IsWritable inParagraph := by
          rw [← not_exists, writable]
          simp
        simp [given, and_comm]

/-- The lists after a page are those that could be kept, whether it is written or not. -/
theorem rendering_keeps {blocks : List Block} {allocator : Allocator}
    (converted : lists.convert value = .ok (blocks, allocator)) :
    (rendering inParagraph value lists).2 = (lists.keep allocator).1 := by
  unfold rendering
  rw [converted]
  dsimp only
  cases lists.keep allocator with
  | mk kept fault => cases fault <;> rfl

/-! ### Rich text controls -/

/-- The value that is written into a rich text control without a condition, if any: the control has
a content area and does not say that it is for plain text, and its tag selects something. -/
def writtenValue? (scope : Datum) (node : Node) : Option Datum :=
  if Control.isPlainTextOnly node || (Control.content? node).isNone then none
  else
    match Scope.resolve scope (Control.read node).label with
    | .ok found => found
    | .error _ => none

theorem writtenValue?_eq_some (isValue : writtenValue? scope node = some value) :
    Control.isPlainTextOnly node = false ∧ (∃ content, Control.content? node = some content) ∧
      Scope.resolve scope (Control.read node).label = .ok (some value) := by
  unfold writtenValue? at isValue
  split at isValue
  · cases isValue
  · rename_i takes
    rw [Bool.not_eq_true, Bool.or_eq_false_iff, Option.isNone_eq_false_iff,
      Option.isSome_iff_exists] at takes
    refine ⟨takes.1, takes.2, ?_⟩
    split at isValue
    · rename_i found isFound
      rw [isFound, isValue]
    · cases isValue

section Control

variable (options : Options) (place : Place) (lists : ListStore)

theorem effect_of_no_value (isRich : (Control.read node).kind = .richText)
    (unconditional : (Control.read node).condition? = none)
    (noValue : writtenValue? scope node = none) :
    ∃ problem, effect (populateControl options place scope node) lists =
      ⟨[node], lists, [⟨problem, node.lineage⟩]⟩ := by
  have refused : ∃ problem, course options place scope lists node = .refused problem := by
    rw [course, isRich, unconditional]
    rw [writtenValue?] at noValue
    cases found : Scope.resolve scope (Control.read node).label with
    | error fault => cases fault <;> exact ⟨_, rfl⟩
    | ok selected =>
      cases selected with
      | none => exact ⟨_, rfl⟩
      | some value =>
        simp only [lookupCourse, richTextCourse]
        rw [found] at noValue
        cases plain : Control.isPlainTextOnly node with
        | true => exact ⟨_, rfl⟩
        | false =>
          cases area : Control.content? node with
          | none => exact ⟨_, rfl⟩
          | some content =>
            rw [plain, area] at noValue
            cases noValue
  obtain ⟨problem, isRefused⟩ := refused
  rw [effect_populateControl, isRefused]
  exact ⟨problem, rfl⟩

theorem effect_of_value (isRich : (Control.read node).kind = .richText)
    (unconditional : (Control.read node).condition? = none)
    (isValue : writtenValue? scope node = some value) :
    let after := effect (populateControl options place scope node) lists
    after.lists = (rendering place.inParagraph value lists).2 ∧
      match (rendering place.inParagraph value lists).1 with
      | .ok _ => after.findings = []
      | .error cause => after.value = [node] ∧
          after.findings = [⟨.fault cause (Control.read node).label, node.lineage⟩] := by
  obtain ⟨noPlain, ⟨content, isContent⟩, isFound⟩ := writtenValue?_eq_some isValue
  rw [effect_populateControl, course, isRich, unconditional]
  simp only [isFound, lookupCourse, richTextCourse, noPlain, isContent, Bool.false_eq_true,
    if_false]
  cases rendering place.inParagraph value lists with
  | mk result kept => cases result <;> simp [follow]

/-- A rich text control with a problem stays as it is, and that problem is all that is found. -/
theorem effect_of_problem (isRich : (Control.read node).kind = .richText)
    (unconditional : (Control.read node).condition? = none)
    (found : (effect (populateControl options place scope node) lists).findings ≠ []) :
    (effect (populateControl options place scope node) lists).value = [node] ∧
      ∃ problem, (effect (populateControl options place scope node) lists).findings =
        [⟨problem, node.lineage⟩] := by
  cases isValue : writtenValue? scope node with
  | none =>
    obtain ⟨problem, refused⟩ :=
      effect_of_no_value options place lists isRich unconditional isValue
    rw [refused]
    exact ⟨rfl, problem, rfl⟩
  | some value =>
    obtain ⟨-, isWritten⟩ := effect_of_value options place lists isRich unconditional isValue
    cases result : (rendering place.inParagraph value lists).1 with
    | error cause =>
      rw [result] at isWritten
      exact ⟨isWritten.1, _, isWritten.2⟩
    | ok nodes =>
      rw [result] at isWritten
      exact absurd isWritten found

/-- It leaves lists behind if and only if its value stops midway. -/
theorem effect_leaves_iff (rooted : lists.IsRooted) (isRich : (Control.read node).kind = .richText)
    (unconditional : (Control.read node).condition? = none) :
    (effect (populateControl options place scope node) lists).findings ≠ [] ∧
        (effect (populateControl options place scope node) lists).lists ≠ lists ↔
      ∃ value, writtenValue? scope node = some value ∧
        StopsMidway place.inParagraph value lists := by
  cases isValue : writtenValue? scope node with
  | none =>
    obtain ⟨problem, refused⟩ :=
      effect_of_no_value options place lists isRich unconditional isValue
    simp [refused]
  | some value =>
    obtain ⟨isKept, isWritten⟩ :=
      effect_of_value options place lists isRich unconditional isValue
    have only : (∃ other, some value = some other ∧ StopsMidway place.inParagraph other lists) ↔
        StopsMidway place.inParagraph value lists := by
      simp
    rw [only, ← rendering_stopped_iff rooted, isKept]
    cases result : (rendering place.inParagraph value lists).1 with
    | error cause =>
      rw [result] at isWritten
      simp [isWritten.2]
    | ok nodes =>
      rw [result] at isWritten
      have noFinding :
          (effect (populateControl options place scope node) lists).findings = [] := isWritten
      simp [noFinding]

/-- A conditional control writes nothing itself. -/
theorem effect_of_condition {condition : String} (isRich : (Control.read node).kind = .richText)
    (conditional : (Control.read node).condition? = some condition) :
    let after := effect (populateControl options place scope node) lists
    let below := effect (populateAll options (place.enter Word.control) scope node.children) lists
    after.lists = lists ∧ (after.value = [node] ∨ after.value = hide place node) ∨
      after.lists = below.lists ∧ after.value = [node.withChildren below.value] := by
  intro after below
  have isAfter : after = follow options place scope lists node (conditionCourse condition
      (Control.read node).label (Condition.evaluate condition scope)) := by
    change effect (populateControl options place scope node) lists = _
    rw [effect_populateControl, course, isRich, conditional]
    rfl
  rw [isAfter]
  cases Condition.evaluate condition scope with
  | error cause => exact .inl ⟨rfl, .inl rfl⟩
  | ok verdict =>
    obtain ⟨holds, complaint⟩ := verdict
    cases complaint with
    | some complaint => exact .inr ⟨rfl, rfl⟩
    | none =>
      cases holds with
      | true => exact .inr ⟨rfl, rfl⟩
      | false => exact .inl ⟨rfl, .inr rfl⟩

end Control

/-- A rich text control that has a problem stays as it is, and its problem is all that is found. It
leaves lists behind if and only if its value stops midway; then they are those that could be kept of
the whole page. A conditional control writes nothing itself: what becomes of the lists is up to the
controls below it. -/
theorem populateControl_leaves_lists (options : Options) (place : Place) (scope : Datum)
    (rooted : lists.IsRooted) (isRich : (Control.read node).kind = .richText) :
    let after := effect (populateControl options place scope node) lists
    let below := effect (populateAll options (place.enter Word.control) scope node.children) lists
    ((Control.read node).condition? = none →
      (after.findings ≠ [] →
        after.value = [node] ∧ ∃ problem, after.findings = [⟨problem, node.lineage⟩]) ∧
      (after.findings ≠ [] ∧ after.lists ≠ lists ↔
        ∃ value, writtenValue? scope node = some value ∧
          StopsMidway place.inParagraph value lists) ∧
      (∀ value blocks allocator, writtenValue? scope node = some value →
        lists.convert value = .ok (blocks, allocator) →
        after.lists = (lists.keep allocator).1)) ∧
    (∀ condition, (Control.read node).condition? = some condition →
      after.lists = lists ∧ (after.value = [node] ∨ after.value = hide place node) ∨
        after.lists = below.lists ∧ after.value = [node.withChildren below.value]) := by
  intro after below
  constructor
  · intro unconditional
    refine ⟨?_, ?_, ?_⟩
    · intro found
      exact effect_of_problem options place lists isRich unconditional found
    · exact effect_leaves_iff options place lists rooted isRich unconditional
    · intro value blocks allocator isValue converted
      rw [← rendering_keeps converted]
      exact (effect_of_value options place lists isRich unconditional isValue).1
  · intro condition conditional
    exact effect_of_condition options place lists isRich conditional

/-- A tag that selects nothing leaves the document without definitions. -/
theorem missingValue_leaves_no_list :
    let after := effect (populateControl .standard .outside (.object []) sampleControl)
      (.document none)
    after.value = [sampleControl] ∧ after.findings ≠ [] ∧ after.lists = .document none := by
  intro after
  have isRich : (Control.read sampleControl).kind = .richText := by decide
  have unconditional : (Control.read sampleControl).condition? = none := by decide
  have noValue : writtenValue? (.object []) sampleControl = none := by
    rw [← Option.isNone_iff_eq_none]
    decide +kernel
  have found : after.findings ≠ [] := by
    obtain ⟨problem, isAfter⟩ := effect_of_no_value .standard .outside (.document none) isRich
      unconditional noValue
    change (effect _ _).findings ≠ []
    rw [isAfter]
    exact List.cons_ne_nil _ _
  have rooted : (ListStore.document none).IsRooted := nofun
  obtain ⟨laws, -⟩ :=
    populateControl_leaves_lists .standard .outside (.object []) rooted isRich
  obtain ⟨stays, leaves, -⟩ := laws unconditional
  refine ⟨(stays found).1, found, ?_⟩
  by_contra changed
  obtain ⟨value, isValue, -⟩ := leaves.mp ⟨found, changed⟩
  rw [noValue] at isValue
  cases isValue

/-- Whether a control is given up and leaves definitions in a document that had none. -/
def Course.leavesDefinitions : Course → Bool
  | .written _ (some _) (.document (some root)) _ => !root.children.isEmpty
  | _ => false

/-- A character that no document can hold stops a list behind its definition: the control has a
problem and stays as it is, and the document has got the definition of a list. -/
theorem controlCharacter_leaves_list :
    let scope := Datum.object [(.text "a", .text "<ul>\x01")]
    let after := effect (populateControl .standard .outside scope sampleControl) (.document none)
    after.value = [sampleControl] ∧ after.findings.length = 1 ∧
      ∃ root, after.lists = .document (some root) ∧ root.children ≠ [] := by
  intro scope after
  have isRich : (Control.read sampleControl).kind = .richText := by decide
  have unconditional : (Control.read sampleControl).condition? = none := by decide
  have stops :
      (course .standard .outside scope (.document none) sampleControl).leavesDefinitions := by
    decide +kernel
  unfold Course.leavesDefinitions at stops
  split at stops
  · rename_i left problem root items isCourse
    have isAfter : after =
        ⟨[left], .document (some root), [⟨problem, sampleControl.lineage⟩]⟩ := by
      change effect _ _ = _
      rw [effect_populateControl, isCourse]
      rfl
    have found : after.findings ≠ [] := by
      rw [isAfter]
      exact List.cons_ne_nil _ _
    obtain ⟨stays, -⟩ :=
      effect_of_problem .standard .outside (.document none) isRich unconditional found
    refine ⟨stays, by rw [isAfter]; rfl, root, by rw [isAfter], ?_⟩
    simpa using stops
  · cases stops

end TemplateFill.Walk
