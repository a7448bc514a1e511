import TemplateFill.Proofs.Block.Rendering
import TemplateFill.Proofs.Numbering.Allocation
import TemplateFill.Proofs.Numbering.Merge
import TemplateFill.Proofs.Xml.Overwriting

/-!
# Room for lists

A merge writes new definitions in their order and stops at the first one whose id has too many
digits. So it leaves the old ones alone if and only if there is no room for the id of the first.
-/

namespace TemplateFill.Numbering

open Xml

theorem levelNode_returns (format : Format) {level : Nat} (inside : level ∈ List.range levelCount) :
    ∃ node, levelNode format level = .ok node := by
  cases format with
  | bullet => exact ⟨_, rfl⟩
  | decimal =>
    have below : level < 9 := List.mem_range.mp inside
    have short : Number.isOverLimit (level + 1) = false := Number.isOverLimit_of_digit (by omega)
    obtain ⟨text, written⟩ := (Number.writeNumeral_returns_iff _).mpr short
    rw [levelNode, Format.levelText, written]
    exact ⟨_, rfl⟩

/-- An abstract list can be written if there is room for its id. -/
theorem AbstractList.toNode_returns_iff (list : AbstractList) :
    (∃ node, list.toNode = .ok node) ↔ Number.isOverLimit list.id = false := by
  rw [← Number.writeNumeral_returns_iff]
  constructor
  · rintro ⟨node, made⟩
    obtain ⟨text, written, -⟩ := bind_eq_ok made
    exact ⟨text, written⟩
  · rintro ⟨text, written⟩
    obtain ⟨levels, made⟩ := mapM_returns_iff.mpr fun level => levelNode_returns list.format
    rw [toNode, written, made]
    exact ⟨_, rfl⟩

/-- An instance can be written if there is room for its id and for that of its abstract list. -/
theorem ListInstance.toNode_returns_iff (list : ListInstance) :
    (∃ node, list.toNode = .ok node) ↔
      Number.isOverLimit list.id = false ∧ Number.isOverLimit list.abstractId = false := by
  rw [← Number.writeNumeral_returns_iff,
    ← Word.makeNumberSetting_returns_iff Word.abstractListId]
  constructor
  · rintro ⟨node, made⟩
    obtain ⟨text, written, made⟩ := bind_eq_ok made
    obtain ⟨setting, referred, -⟩ := bind_eq_ok made
    exact ⟨⟨text, written⟩, setting, referred⟩
  · rintro ⟨⟨text, written⟩, setting, referred⟩
    rw [toNode, written, referred]
    exact ⟨_, rfl⟩

theorem takeWritten_eq_none_iff {α : Type} (toNode : α → Except Number.NumeralFault Node)
    (definitions : List α) :
    (takeWritten (definitions.map toNode)).2 = none ↔
      ∀ definition ∈ definitions, ∃ node, toNode definition = .ok node := by
  induction definitions with
  | nil => simp [takeWritten]
  | cons definition rest ih =>
    rw [List.map_cons, List.forall_mem_cons]
    cases made : toNode definition with
    | error fault => simp [takeWritten]
    | ok node =>
      rw [takeWritten, ih]
      simp

/-- A merge returns if and only if there is room for all ids. -/
theorem merge_returns_iff (abstracts : List AbstractList) (instances : List ListInstance)
    (root : Node) :
    (merge abstracts instances root).2 = none ↔
      (∀ list ∈ abstracts, Number.isOverLimit list.id = false) ∧
      ∀ list ∈ instances,
        Number.isOverLimit list.id = false ∧ Number.isOverLimit list.abstractId = false := by
  simp only [← AbstractList.toNode_returns_iff, ← ListInstance.toNode_returns_iff,
    ← takeWritten_eq_none_iff]
  unfold merge
  generalize takeWritten (abstracts.map (·.toNode)) = written
  obtain ⟨block, fault⟩ := written
  cases fault with
  | some fault => simp
  | none => simp

/-- Nothing is written of some lists if there is no room for the first one. -/
theorem takeWritten_of_full (list : AbstractList) (rest : List AbstractList)
    (full : Number.isOverLimit list.id) :
    ∃ fault, takeWritten ((list :: rest).map (·.toNode)) = ([], some fault) := by
  rw [List.map_cons]
  cases made : list.toNode with
  | error fault => exact ⟨fault, rfl⟩
  | ok node =>
    have room := list.toNode_returns_iff.mp ⟨node, made⟩
    rw [full] at room
    cases room

/-- Something is written if there is room for the first one. -/
theorem takeWritten_of_room (list : AbstractList) (rest : List AbstractList)
    (room : Number.isOverLimit list.id = false) :
    (takeWritten ((list :: rest).map (·.toNode))).1 ≠ [] := by
  obtain ⟨node, made⟩ := list.toNode_returns_iff.mpr room
  rw [List.map_cons, made, takeWritten]
  exact List.cons_ne_nil _ _

/-- A merge adds what could be written of the abstract lists, and instances only behind all of
them. -/
theorem merge_adds (abstracts : List AbstractList) (instances : List ListInstance) (root : Node) :
    ∃ more children, (merge abstracts instances root).1 = root.withChildren children ∧
      Adds root.children ((takeWritten (abstracts.map (·.toNode))).1 ++ more) children ∧
      ((takeWritten (abstracts.map (·.toNode))).2 ≠ none → more = []) := by
  unfold merge
  generalize takeWritten (abstracts.map (·.toNode)) = written
  obtain ⟨block, fault⟩ := written
  cases fault with
  | some fault =>
    refine ⟨[], _, rfl, ?_, fun _ => rfl⟩
    rw [List.append_nil]
    exact adds_insertAbstracts block root.children
  | none =>
    refine ⟨_, _, rfl, (adds_insertAbstracts _ _).trans (adds_insertInstances _ _), ?_⟩
    exact fun faulty => absurd rfl faulty

theorem withChildren_eq_self_iff {root : Node} {block children : List Node}
    (isElement : root.name?.isSome) (adds : Adds root.children block children) :
    root.withChildren children = root ↔ block = [] := by
  have length := adds.2.length_eq
  rw [List.length_append] at length
  constructor
  · intro same
    have isOld := congrArg Node.children same
    rw [Node.children_withChildren isElement] at isOld
    rw [isOld] at length
    exact List.eq_nil_of_length_eq_zero (by omega)
  · rintro rfl
    rw [← adds.1.eq_of_length (by simpa using length.symm)]
    exact Node.withChildren_children root

/-- A merge of one list or more changes nothing if and only if there is no room for the first. -/
theorem merge_eq_self_iff {root : Node} (isElement : root.name?.isSome) (first : Int)
    (format : Format) (formats : List Format) (instances : List ListInstance) :
    (merge (Allocator.definitionsFrom first (format :: formats)) instances root).1 = root ↔
      Number.isOverLimit first := by
  obtain ⟨more, children, isMerged, adds, complete⟩ :=
    merge_adds (Allocator.definitionsFrom first (format :: formats)) instances root
  rw [isMerged, withChildren_eq_self_iff isElement adds, List.append_eq_nil_iff]
  rw [Allocator.definitionsFrom] at complete ⊢
  cases full : Number.isOverLimit first with
  | true =>
    obtain ⟨fault, stopped⟩ := takeWritten_of_full ⟨first, format⟩
      (Allocator.definitionsFrom (first + 1) formats) full
    rw [stopped] at complete ⊢
    have faulty : some fault ≠ none := Option.some_ne_none fault
    exact ⟨fun _ => rfl, fun _ => ⟨rfl, complete faulty⟩⟩
  | false =>
    have written := takeWritten_of_room ⟨first, format⟩
      (Allocator.definitionsFrom (first + 1) formats) full
    exact ⟨fun nothing => absurd nothing.1 written, fun limit => absurd limit Bool.false_ne_true⟩

end TemplateFill.Numbering
