import TemplateFill.Proofs.Numbering.Written

/-!
# What a merge adds

A merge puts two blocks of definitions between the old ones and takes nothing away. The old
definitions keep their order, the new ones are among those that were asked for, from the first
one on, and unless there is a fault they are all of them.
-/

namespace TemplateFill.Numbering

open Xml

/-! ### Blocks -/

theorem insertAfterLast?_eq_some {p : Node → Bool} {block nodes inserted : List Node}
    (h : insertAfterLast? p block nodes = some inserted) :
    ∃ before last after, nodes = before ++ last :: after ∧ p last ∧
      inserted = before ++ last :: (block ++ after) := by
  induction nodes generalizing inserted with
  | nil => cases h
  | cons node rest ih =>
    rw [insertAfterLast?] at h
    split at h
    · rename_i others later
      cases h
      obtain ⟨before, last, after, rfl, isLast, rfl⟩ := ih later
      exact ⟨node :: before, last, after, rfl, isLast, rfl⟩
    · split at h
      · rename_i isLast
        cases h
        exact ⟨[], node, rest, rfl, isLast, rfl⟩
      · cases h

theorem insertAfterLast?_eq_none {p : Node → Bool} {block nodes : List Node}
    (h : insertAfterLast? p block nodes = none) : ∀ node ∈ nodes, ¬ p node := by
  induction nodes with
  | nil => exact nofun
  | cons node rest ih =>
    rw [insertAfterLast?] at h
    split at h
    · cases h
    · rename_i later
      split at h
      · cases h
      · exact List.forall_mem_cons.mpr ⟨‹_›, ih later⟩

theorem insertBeforeFirst?_eq_some {p : Node → Bool} {block nodes inserted : List Node}
    (h : insertBeforeFirst? p block nodes = some inserted) :
    ∃ before first after, nodes = before ++ first :: after ∧ p first ∧
      (∀ node ∈ before, ¬ p node) ∧ inserted = before ++ (block ++ first :: after) := by
  induction nodes generalizing inserted with
  | nil => cases h
  | cons node rest ih =>
    rw [insertBeforeFirst?] at h
    split at h
    · rename_i isFirst
      cases h
      exact ⟨[], node, rest, rfl, isFirst, nofun, rfl⟩
    · obtain ⟨others, later, rfl⟩ := Option.map_eq_some_iff.mp h
      obtain ⟨before, first, after, rfl, isFirst, none, rfl⟩ := ih later
      exact ⟨node :: before, first, after, rfl, isFirst, List.forall_mem_cons.mpr ⟨‹_›, none⟩, rfl⟩

theorem insertBeforeFirst?_eq_none {p : Node → Bool} {block nodes : List Node}
    (h : insertBeforeFirst? p block nodes = none) : ∀ node ∈ nodes, ¬ p node := by
  induction nodes with
  | nil => exact nofun
  | cons node rest ih =>
    rw [insertBeforeFirst?] at h
    split at h
    · cases h
    · exact List.forall_mem_cons.mpr ⟨‹_›, ih (Option.map_eq_none_iff.mp h)⟩

/-- Abstract lists go behind an old one, else before the first instance, else to the end. -/
theorem insertAbstracts_place (block nodes : List Node) :
    (∃ before last after, nodes = before ++ last :: after ∧ last.isNamed Word.abstractList ∧
      insertAbstracts block nodes = before ++ last :: (block ++ after)) ∨
    (∃ before first after, nodes = before ++ first :: after ∧ first.isNamed Word.listInstance ∧
      (∀ node ∈ before, ¬ node.isNamed Word.listInstance) ∧
      (∀ node ∈ nodes, ¬ node.isNamed Word.abstractList) ∧
      insertAbstracts block nodes = before ++ (block ++ first :: after)) ∨
    (∀ node ∈ nodes, ¬ node.isNamed Word.abstractList) ∧
      (∀ node ∈ nodes, ¬ node.isNamed Word.listInstance) ∧
      insertAbstracts block nodes = nodes ++ block := by
  rw [insertAbstracts]
  split
  · rename_i inserted h
    obtain ⟨before, last, after, whole, isLast, rfl⟩ := insertAfterLast?_eq_some h
    exact .inl ⟨before, last, after, whole, isLast, rfl⟩
  · rename_i h
    have noAbstract := insertAfterLast?_eq_none h
    cases found : insertBeforeFirst? (·.isNamed Word.listInstance) block nodes with
    | some inserted =>
      obtain ⟨before, first, after, whole, isFirst, none, rfl⟩ := insertBeforeFirst?_eq_some found
      exact .inr (.inl ⟨before, first, after, whole, isFirst, none, noAbstract, rfl⟩)
    | none => exact .inr (.inr ⟨noAbstract, insertBeforeFirst?_eq_none found, rfl⟩)

/-- Instances go behind an old one, else to the end. -/
theorem insertInstances_place (block nodes : List Node) :
    (∃ before last after, nodes = before ++ last :: after ∧ last.isNamed Word.listInstance ∧
      insertInstances block nodes = before ++ last :: (block ++ after)) ∨
    (∀ node ∈ nodes, ¬ node.isNamed Word.listInstance) ∧
      insertInstances block nodes = nodes ++ block := by
  rw [insertInstances]
  cases h : insertAfterLast? (·.isNamed Word.listInstance) block nodes with
  | some inserted =>
    obtain ⟨before, last, after, whole, isLast, rfl⟩ := insertAfterLast?_eq_some h
    exact .inl ⟨before, last, after, whole, isLast, rfl⟩
  | none => exact .inr ⟨insertAfterLast?_eq_none h, rfl⟩

/-- Abstract lists are put between the old nodes. -/
theorem insertAbstracts_eq (block nodes : List Node) :
    ∃ before after, nodes = before ++ after ∧
      insertAbstracts block nodes = before ++ block ++ after := by
  rcases insertAbstracts_place block nodes with ⟨before, last, after, whole, -, inserted⟩ |
    ⟨before, first, after, whole, -, -, -, inserted⟩ | ⟨-, -, inserted⟩
  · exact ⟨before ++ [last], after, by simpa using whole, by simpa using inserted⟩
  · exact ⟨before, first :: after, whole, by simpa using inserted⟩
  · exact ⟨nodes, [], by simp, by simpa using inserted⟩

/-- Instances are put between the old nodes. -/
theorem insertInstances_eq (block nodes : List Node) :
    ∃ before after, nodes = before ++ after ∧
      insertInstances block nodes = before ++ block ++ after := by
  rcases insertInstances_place block nodes with ⟨before, last, after, whole, -, inserted⟩ |
    ⟨-, inserted⟩
  · exact ⟨before ++ [last], after, by simpa using whole, by simpa using inserted⟩
  · exact ⟨nodes, [], by simp, by simpa using inserted⟩

theorem insertInstances_nil (nodes : List Node) : insertInstances [] nodes = nodes := by
  obtain ⟨before, after, whole, inserted⟩ := insertInstances_eq [] nodes
  rw [inserted, List.append_nil, whole]

/-- Among some nodes there are those of a list, in the same order, and beside them those of
another list. -/
def Adds (old block new : List Node) : Prop := old.Sublist new ∧ new.Perm (old ++ block)

theorem adds_between (before block after : List Node) :
    Adds (before ++ after) block (before ++ block ++ after) := by
  constructor
  · rw [List.append_assoc]
    exact (List.sublist_append_right _ _).append_left _
  · rw [List.append_assoc, List.append_assoc]
    exact List.perm_append_comm.append_left _

theorem Adds.trans {old block middle more new : List Node} (first : Adds old block middle)
    (second : Adds middle more new) : Adds old (block ++ more) new := by
  refine ⟨first.1.trans second.1, second.2.trans ?_⟩
  rw [← List.append_assoc]
  exact first.2.append_right _

theorem adds_insertAbstracts (block nodes : List Node) :
    Adds nodes block (insertAbstracts block nodes) := by
  obtain ⟨before, after, rfl, inserted⟩ := insertAbstracts_eq block nodes
  rw [inserted]
  exact adds_between before block after

theorem adds_insertInstances (block nodes : List Node) :
    Adds nodes block (insertInstances block nodes) := by
  obtain ⟨before, after, rfl, inserted⟩ := insertInstances_eq block nodes
  rw [inserted]
  exact adds_between before block after

/-! ### Written blocks -/

/-- Elements stand for definitions, from the first one on; for all of them if the block is
complete. -/
def Writes {α : Type} (isWrittenAs : α → Node → Prop) (definitions : List α) (block : List Node)
    (isComplete : Bool) : Prop :=
  ∃ used rest, definitions = used ++ rest ∧ List.Forall₂ isWrittenAs used block ∧
    (isComplete → rest = [])

theorem writes_takeWritten {α : Type} {isWrittenAs : α → Node → Prop}
    {toNode : α → Except Number.NumeralFault Node}
    (written : ∀ definition node, toNode definition = .ok node → isWrittenAs definition node)
    (definitions : List α) :
    Writes isWrittenAs definitions (takeWritten (definitions.map toNode)).1
      (takeWritten (definitions.map toNode)).2.isNone := by
  induction definitions with
  | nil => exact ⟨[], [], rfl, .nil, fun _ => rfl⟩
  | cons definition rest ih =>
    rw [List.map_cons]
    cases h : toNode definition with
    | error fault => exact ⟨[], definition :: rest, rfl, .nil, fun none => by cases none⟩
    | ok node =>
      obtain ⟨used, others, all, each, complete⟩ := ih
      exact ⟨definition :: used, others, congrArg (definition :: ·) all,
        .cons (written definition node h) each, complete⟩

/-- A merge inserts two blocks, one of each kind. If there is a fault before the instances, their
block is empty. -/
theorem merge_inserts (abstracts : List AbstractList) (instances : List ListInstance)
    (root : Node) :
    ∃ definitions listInstances,
      (merge abstracts instances root).1 = root.withChildren
        (insertInstances listInstances (insertAbstracts definitions root.children)) ∧
      Writes AbstractList.IsWrittenAs abstracts definitions
        (merge abstracts instances root).2.isNone ∧
      Writes ListInstance.IsWrittenAs instances listInstances
        (merge abstracts instances root).2.isNone := by
  have first : Writes AbstractList.IsWrittenAs abstracts _ _ :=
    writes_takeWritten (fun _ _ => AbstractList.isWrittenAs_of_toNode) abstracts
  have second : Writes ListInstance.IsWrittenAs instances _ _ :=
    writes_takeWritten (fun _ _ => ListInstance.isWrittenAs_of_toNode) instances
  unfold merge
  generalize takeWritten (abstracts.map (·.toNode)) = written at first ⊢
  obtain ⟨definitions, fault⟩ := written
  cases fault with
  | some fault =>
    refine ⟨definitions, [], ?_, first, ⟨[], instances, rfl, .nil, by simp⟩⟩
    rw [insertInstances_nil]
  | none =>
    obtain ⟨used, rest, all, each, complete⟩ := first
    exact ⟨definitions, _, rfl, ⟨used, rest, all, each, fun _ => complete rfl⟩, second⟩

/-- A merge adds two blocks to the old definitions, one of each kind. -/
theorem merge_eq (abstracts : List AbstractList) (instances : List ListInstance) (root : Node) :
    ∃ definitions listInstances children,
      (merge abstracts instances root).1 = root.withChildren children ∧
      Adds root.children (definitions ++ listInstances) children ∧
      Writes AbstractList.IsWrittenAs abstracts definitions
        (merge abstracts instances root).2.isNone ∧
      Writes ListInstance.IsWrittenAs instances listInstances
        (merge abstracts instances root).2.isNone := by
  obtain ⟨definitions, listInstances, merged, first, second⟩ :=
    merge_inserts abstracts instances root
  exact ⟨definitions, listInstances, _, merged,
    (adds_insertAbstracts _ _).trans (adds_insertInstances _ _), first, second⟩

/-! ### Ids -/

theorem idsIn_append (element id : Name) (first second : List Node) :
    idsIn element id (first ++ second) = idsIn element id first ++ idsIn element id second := by
  simp [idsIn, Node.elementsOf_append]

theorem idsIn_cons (element id : Name) (node : Node) (rest : List Node) :
    idsIn element id (node :: rest) = idsIn element id [node] ++ idsIn element id rest :=
  idsIn_append element id [node] rest

theorem idsIn_perm (element id : Name) {first second : List Node} (same : first.Perm second) :
    (idsIn element id first).Perm (idsIn element id second) := by
  unfold idsIn
  rw [Node.elementsOf_eq_flatMap, Node.elementsOf_eq_flatMap]
  exact ((same.flatMap_right _).filter _).filterMap _

theorem idsIn_element (element id name : Name) (lineage : Lineage) (traits : Traits)
    (children : List Node) :
    idsIn element id [.element name lineage traits children] =
      (if name = element then (traits.attributes.lookup id).toList else []) ++
        idsIn element id children := by
  have own : (Node.element name lineage traits children).attribute? id =
      traits.attributes.lookup id := rfl
  change (List.filter _ (_ :: (Node.elementsOf children ++ []))).filterMap _ = _
  rw [List.append_nil]
  by_cases named : name = element
  · rw [if_pos named, List.filter_cons_of_pos (by simp [Node.isNamed, Node.name?, named]),
      List.filterMap_cons, own]
    cases traits.attributes.lookup id <;> rfl
  · rw [if_neg named, List.filter_cons_of_neg (by simp [Node.isNamed, Node.name?, named])]
    rfl

/-- A root with other content has the ids of the block besides its own ones. -/
theorem idsIn_withChildren (element id : Name) {root : Node} (isElement : root.name?.isSome)
    {block children : List Node} (adds : Adds root.children block children) :
    (idsIn element id [root.withChildren children]).Perm
      (idsIn element id [root] ++ idsIn element id block) := by
  cases root with
  | element name lineage traits old =>
    have inside := idsIn_perm element id adds.2
    rw [idsIn_append] at inside
    rw [Node.withChildren, idsIn_element, idsIn_element, List.append_assoc]
    exact inside.append_left _
  | aside content tail => cases isElement

/-- The ids of a written block are the numerals of what it stands for. -/
theorem abstractIds_of_written {used : List AbstractList} {block : List Node}
    (each : List.Forall₂ AbstractList.IsWrittenAs used block) :
    idsIn Word.abstractList Word.abstractListId block = (used.map (·.id)).map toString ∧
      idsIn Word.listInstance Word.listInstanceId block = [] := by
  induction each with
  | nil => exact ⟨rfl, rfl⟩
  | cons written _ ih =>
    rw [idsIn_cons, idsIn_cons Word.listInstance, written.abstractIds, written.instanceIds, ih.1,
      ih.2]
    exact ⟨rfl, rfl⟩

theorem instanceIds_of_written {used : List ListInstance} {block : List Node}
    (each : List.Forall₂ ListInstance.IsWrittenAs used block) :
    idsIn Word.abstractList Word.abstractListId block = [] ∧
      idsIn Word.listInstance Word.listInstanceId block = (used.map (·.id)).map toString := by
  induction each with
  | nil => exact ⟨rfl, rfl⟩
  | cons written _ ih =>
    rw [idsIn_cons, idsIn_cons Word.listInstance, written.abstractIds, written.instanceIds, ih.1,
      ih.2]
    exact ⟨rfl, rfl⟩

end TemplateFill.Numbering
