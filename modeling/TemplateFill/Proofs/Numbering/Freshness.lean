import Mathlib.Data.List.Nodup
import TemplateFill.Proofs.Numbering.Allocation
import TemplateFill.Proofs.Numbering.Merge

/-!
# Fresh ids

An allocator starts above all ids of a document, so that a merge of what it handed out gives
no id twice. An id that was skipped when the allocator was seeded is no numeral that could be
handed out. Whatever an id leads to, it still leads to after a merge.
-/

namespace TemplateFill.Numbering

open Xml
open Number (readNumeral_toString toString_injective)

/-! ### Ids in use -/

theorem le_foldl_max (start : Int) (ids : List Int) :
    start ≤ ids.foldl max start ∧ ∀ id ∈ ids, id ≤ ids.foldl max start := by
  induction ids generalizing start with
  | nil => exact ⟨Int.le_refl _, fun _ member => nomatch member⟩
  | cons first rest ih =>
    obtain ⟨above, each⟩ := ih (max start first)
    rw [List.foldl_cons]
    refine ⟨by omega, fun id member => ?_⟩
    rcases List.mem_cons.mp member with rfl | later
    · omega
    · exact each id later

namespace Allocator

theorem le_largest (default : Int) {ids : List Int} {id : Int} (member : id ∈ ids) :
    id ≤ largest default ids := by
  cases ids with
  | nil => cases member
  | cons first rest =>
    obtain ⟨above, each⟩ := le_foldl_max first rest
    rcases List.mem_cons.mp member with rfl | later
    · exact above
    · exact each id later

/-- If the ids of some elements are read, each of them that is a numeral is among them. -/
theorem mem_of_readIds {element id : Name} {root : Node} {ids : List Int}
    (read : readIds id (root.named element) = .ok ids) {m : Int}
    (inUse : toString m ∈ idsIn element id [root]) : m ∈ ids := by
  obtain ⟨node, named, isId⟩ := List.mem_filterMap.mp inUse
  rw [Node.elementsOf_singleton] at named
  have isRead : toString m ∈
      ((root.named element).map fun node => (node.attribute? id).getD "").filter looksLikeId := by
    refine List.mem_filter.mpr ⟨List.mem_map.mpr ⟨node, named, ?_⟩, looksLikeId_toString m⟩
    rw [isId]
    rfl
  obtain ⟨value, among, isValue⟩ := exists_right_of_mem (forall₂_of_mapM read) isRead
  rw [readNumeral_toString] at isValue
  split at isValue
  · cases isValue
  · cases isValue
    exact among

/-- An allocator that was seeded has handed out nothing and starts above all ids in use. -/
structure IsSeeded (numbering : Option Node) (start : Allocator) : Prop where
  abstracts : start.abstracts = []
  instances : start.instances = []
  aboveAbstracts : ∀ m : Int,
    toString m ∈ idsIn Word.abstractList Word.abstractListId numbering.toList →
      m < start.nextAbstract
  aboveInstances : ∀ m : Int,
    toString m ∈ idsIn Word.listInstance Word.listInstanceId numbering.toList →
      m < start.nextInstance

theorem isSeeded_of_ofNumbering {numbering : Option Node} {start : Allocator}
    (seeded : ofNumbering numbering = .ok start) : IsSeeded numbering start := by
  cases numbering with
  | none =>
    cases seeded
    exact ⟨rfl, rfl, fun _ inUse => (List.not_mem_nil inUse).elim,
      fun _ inUse => (List.not_mem_nil inUse).elim⟩
  | some root =>
    rw [ofNumbering] at seeded
    cases abstracts : readIds Word.abstractListId (root.named Word.abstractList) with
    | error fault =>
      rw [abstracts] at seeded
      cases seeded
    | ok abstractIds =>
      cases instances : readIds Word.listInstanceId (root.named Word.listInstance) with
      | error fault =>
        rw [abstracts, instances] at seeded
        cases seeded
      | ok instanceIds =>
        rw [abstracts, instances] at seeded
        cases seeded
        refine ⟨rfl, rfl, fun m inUse => ?_, fun m inUse => ?_⟩
        · exact Int.lt_add_one_of_le (le_largest (-1) (mem_of_readIds abstracts inUse))
        · exact Int.lt_add_one_of_le (le_largest 0 (mem_of_readIds instances inUse))

end Allocator

/-! ### Well-numbered definitions -/

/-- A root element, if there is one, below which the ids of the definitions are pairwise
distinct. -/
structure WellNumbered (numbering : Option Node) : Prop where
  isElement : ∀ root ∈ numbering, root.name?.isSome
  abstracts : (idsIn Word.abstractList Word.abstractListId numbering.toList).Nodup
  instances : (idsIn Word.listInstance Word.listInstanceId numbering.toList).Nodup

/-- The old definitions are still there, unchanged and in the same order. -/
def Extends : Option Node → Option Node → Prop
  | none, _ => True
  | some old, new => ∃ children, new = some (old.withChildren children) ∧
    old.children.Sublist children

theorem Extends.refl (numbering : Option Node) : Extends numbering numbering := by
  cases numbering with
  | none => trivial
  | some root => exact ⟨root.children, by cases root <;> rfl, .refl _⟩

theorem Extends.trans {first second third : Option Node} (h : Extends first second)
    (onward : Extends second third) : Extends first third := by
  cases first with
  | none => trivial
  | some old =>
    obtain ⟨middle, rfl, before⟩ := h
    obtain ⟨new, rfl, after⟩ := onward
    refine ⟨new, by cases old <;> rfl, ?_⟩
    cases old with
    | element name lineage traits children => exact before.trans after
    | aside content tail => exact List.nil_sublist _

/-- Consecutive ids from a number on are new if all ids in use are below it. -/
theorem nodup_append_fresh {used : List String} {next : Int} {ids : List Int}
    (distinct : used.Nodup) (fresh : ∀ m : Int, toString m ∈ used → m < next)
    (above : ∀ id ∈ ids, next ≤ id) (different : ids.Nodup) :
    (used ++ ids.map toString).Nodup := by
  refine List.nodup_append.mpr ⟨distinct, ?_, ?_⟩
  · exact List.Nodup.map (fun _ _ => toString_injective) different
  · rintro _ inUse _ new rfl
    obtain ⟨id, member, rfl⟩ := List.mem_map.mp new
    have below := fresh id inUse
    have atLeast := above id member
    omega

/-! ### What an id leads to -/

def withId (element id : Name) (value : String) (numbering : Option Node) : List Node :=
  (Node.elementsOf numbering.toList).filter fun node =>
    node.isNamed element && node.attribute? id == some value

/-- An id is that of exactly one instance, which refers to exactly one abstract list, which has
one format on all of its levels. -/
def Resolves (numbering : Option Node) (id : String) (format : Format) : Prop :=
  ∃ listInstance abstractId definition,
    withId Word.listInstance Word.listInstanceId id numbering = [listInstance] ∧
    references listInstance = [abstractId] ∧
    withId Word.abstractList Word.abstractListId abstractId numbering = [definition] ∧
    levelFormats definition = List.replicate levelCount format.name

/-- The chain from an id to a format stands right below the root. -/
def Defines (numbering : Option Node) (id : String) (format : Format) : Prop :=
  ∃ root ∈ numbering, ∃ listInstance ∈ root.children, ∃ definition ∈ root.children,
    ∃ abstractId,
      listInstance.isNamed Word.listInstance ∧
      listInstance.attribute? Word.listInstanceId = some id ∧
      references listInstance = [abstractId] ∧
      definition.isNamed Word.abstractList ∧
      definition.attribute? Word.abstractListId = some abstractId ∧
      levelFormats definition = List.replicate levelCount format.name

theorem Defines.extends {old new : Option Node} {id : String} {format : Format}
    (defines : Defines old id format) (isElement : ∀ root ∈ old, root.name?.isSome)
    (h : Extends old new) : Defines new id format := by
  obtain ⟨root, isRoot, listInstance, first, definition, second, abstractId, chain⟩ := defines
  cases isRoot
  obtain ⟨children, rfl, kept⟩ := h
  cases root with
  | element name lineage traits old =>
    exact ⟨_, rfl, listInstance, kept.subset first, definition, kept.subset second, abstractId,
      chain⟩
  | aside content tail => cases first

/-- If all values are distinct, only one item has the value that it has. -/
theorem filter_eq_singleton {α β : Type} [DecidableEq β] {f : α → Option β} {xs : List α} {x : α}
    {y : β} (distinct : (xs.filterMap f).Nodup) (member : x ∈ xs) (value : f x = some y) :
    xs.filter (f · == some y) = [x] := by
  induction xs with
  | nil => cases member
  | cons first rest ih =>
    rcases List.mem_cons.mp member with rfl | later
    · rw [List.filterMap_cons_some value, List.nodup_cons] at distinct
      rw [List.filter_cons_of_pos (by simp [value]), List.filter_eq_nil_iff.mpr]
      intro other among same
      exact distinct.1 (List.mem_filterMap.mpr ⟨other, among, by simpa using same⟩)
    · cases isFirst : f first with
      | none =>
        rw [List.filterMap_cons_none isFirst] at distinct
        rw [List.filter_cons_of_neg (by simp [isFirst])]
        exact ih distinct later
      | some other =>
        rw [List.filterMap_cons_some isFirst, List.nodup_cons] at distinct
        have differs : other ≠ y := by
          rintro rfl
          exact distinct.1 (List.mem_filterMap.mpr ⟨x, later, value⟩)
        rw [List.filter_cons_of_neg (by simp [isFirst, differs])]
        exact ih distinct.2 later

theorem length_withId (element id : Name) (value : String) (numbering : Option Node) :
    (withId element id value numbering).length =
      (idsIn element id numbering.toList).count value := by
  unfold withId idsIn
  rw [← List.countP_eq_length_filter, List.count_eq_countP, List.countP_filterMap,
    List.countP_filter]
  congr 1
  funext node
  cases node.attribute? id <;> simp [Bool.and_comm]

/-- An element with an id is the only one with it if the id is there no more than once. -/
theorem withId_eq_singleton {element id : Name} {value : String} {numbering : Option Node}
    {node : Node} (once : (idsIn element id numbering.toList).count value ≤ 1)
    (among : node ∈ Node.elementsOf numbering.toList) (named : node.isNamed element)
    (isId : node.attribute? id = some value) :
    withId element id value numbering = [node] := by
  have member : node ∈ withId element id value numbering :=
    List.mem_filter.mpr ⟨among, by simp [named, isId]⟩
  have present := List.length_pos_of_mem member
  rw [← length_withId] at once
  obtain ⟨other, only⟩ := List.length_eq_one_iff.mp (Nat.le_antisymm once present)
  rw [only] at member ⊢
  rw [List.mem_singleton.mp member]

theorem mem_elementsOf_child {name : Name} {root child : Node} (below : child ∈ root.children)
    (named : child.isNamed name) : child ∈ Node.elementsOf [root] :=
  Node.mem_elementsOf (List.mem_singleton_self root) (Node.mem_elements_of_children
    (Node.mem_elementsOf below (Node.mem_elements_self (Node.isElement_of_isNamed named))))

/-- Where all ids are distinct, a chain below the root is the only one. -/
theorem Defines.resolves {numbering : Option Node} {id : String} {format : Format}
    (defines : Defines numbering id format) (wellNumbered : WellNumbered numbering) :
    Resolves numbering id format := by
  obtain ⟨root, isRoot, listInstance, first, definition, second, abstractId, isInstance,
    instanceId, reference, isAbstract, definitionId, formats⟩ := defines
  cases isRoot
  exact ⟨listInstance, abstractId, definition,
    withId_eq_singleton (List.nodup_iff_count_le_one.mp wellNumbered.instances id)
      (mem_elementsOf_child first isInstance) isInstance instanceId,
    reference,
    withId_eq_singleton (List.nodup_iff_count_le_one.mp wellNumbered.abstracts abstractId)
      (mem_elementsOf_child second isAbstract) isAbstract definitionId,
    formats⟩

/-- The abstract lists that an id leads to, from the instances that have it on. -/
def definitionsOf (numbering : Option Node) (id : String) : List Node :=
  (withId Word.listInstance Word.listInstanceId id numbering).flatMap fun listInstance =>
    (references listInstance).flatMap fun abstractId =>
      withId Word.abstractList Word.abstractListId abstractId numbering

/-- The old ids may be there several times, but not among the new ones. -/
theorem count_append_fresh {used : List String} {next : Int} {ids : List Int}
    (fresh : ∀ m : Int, toString m ∈ used → m < next) (different : ids.Nodup) {id : Int}
    (isNew : next ≤ id) : (used ++ ids.map toString).count (toString id) ≤ 1 := by
  have absent : toString id ∉ used := by
    intro inUse
    have below := fresh id inUse
    omega
  have distinct : (ids.map toString).Nodup := different.map fun _ _ => toString_injective
  rw [List.count_append, List.count_eq_zero_of_not_mem absent, Nat.zero_add]
  exact List.nodup_iff_count_le_one.mp distinct _

/-! ### Merging what was allocated -/

/-- The root that is merged into: the old one, or a new one without definitions. -/
abbrev rootOf (numbering : Option Node) : Node := numbering.getD (.plain Word.numbering [] [])

theorem WellNumbered.rootOf {numbering : Option Node} (wellNumbered : WellNumbered numbering) :
    WellNumbered (some (rootOf numbering)) := by
  cases numbering with
  | none => exact ⟨fun _ isRoot => by cases isRoot; rfl, List.nodup_nil, List.nodup_nil⟩
  | some root => exact wellNumbered

theorem Allocator.IsSeeded.rootOf {numbering : Option Node} {start : Allocator}
    (seeded : start.IsSeeded numbering) :
    start.IsSeeded (some (Numbering.rootOf numbering)) := by
  cases numbering with
  | none =>
    exact ⟨seeded.abstracts, seeded.instances, fun _ inUse => (List.not_mem_nil inUse).elim,
      fun _ inUse => (List.not_mem_nil inUse).elim⟩
  | some root => exact seeded

/-- What was handed out first has consecutive ids as well. -/
theorem ids_of_prefix {α : Type} {id : α → Int} {all used rest : List α} {first : Int} {n : Nat}
    (ids : all.map id = Allocator.idsFrom first n) (parts : all = used ++ rest) :
    (∀ i ∈ used.map id, first ≤ i) ∧ (used.map id).Nodup := by
  have isPrefix : (used.map id).Sublist (Allocator.idsFrom first n) := by
    rw [← ids, parts, List.map_append]
    exact List.sublist_append_left _ _
  exact ⟨fun i member => Allocator.le_of_mem_idsFrom (isPrefix.subset member),
    (Allocator.nodup_idsFrom first n).sublist isPrefix⟩

section Merge

variable {root : Node} {start : Allocator} (formats : List Format)

abbrev mergeAllocated (start : Allocator) (formats : List Format) (root : Node) :
    Node × Option Number.NumeralFault :=
  merge (Allocator.definitionsFrom start.nextAbstract formats)
    (Allocator.instancesFrom start.nextInstance start.nextAbstract formats) root

/-- Besides the old ids a merged root has new ones, each of them once. -/
theorem ids_merge (start : Allocator) (isElement : root.name?.isSome) :
    ∃ abstracts instances : List Int,
      ((idsIn Word.abstractList Word.abstractListId [(mergeAllocated start formats root).1]).Perm
          (idsIn Word.abstractList Word.abstractListId [root] ++ abstracts.map toString) ∧
        (∀ id ∈ abstracts, start.nextAbstract ≤ id) ∧ abstracts.Nodup) ∧
      (idsIn Word.listInstance Word.listInstanceId [(mergeAllocated start formats root).1]).Perm
          (idsIn Word.listInstance Word.listInstanceId [root] ++ instances.map toString) ∧
        (∀ id ∈ instances, start.nextInstance ≤ id) ∧ instances.Nodup := by
  obtain ⟨definitions, listInstances, children, isMerged, adds,
    ⟨abstracts, laterAbstracts, partsAbstracts, eachAbstract, -⟩,
    ⟨instances, laterInstances, partsInstances, eachInstance, -⟩⟩ :=
    merge_eq (Allocator.definitionsFrom start.nextAbstract formats)
      (Allocator.instancesFrom start.nextInstance start.nextAbstract formats) root
  obtain ⟨ofAbstracts, noInstances⟩ := abstractIds_of_written eachAbstract
  obtain ⟨noAbstracts, ofInstances⟩ := instanceIds_of_written eachInstance
  rw [mergeAllocated, isMerged]
  refine ⟨_, _, ⟨?_, ids_of_prefix (Allocator.ids_definitionsFrom _ _) partsAbstracts⟩, ?_,
    ids_of_prefix (Allocator.ids_instancesFrom _ _ _) partsInstances⟩
  · have ids := idsIn_withChildren Word.abstractList Word.abstractListId isElement adds
    rwa [idsIn_append, ofAbstracts, noAbstracts, List.append_nil] at ids
  · have ids := idsIn_withChildren Word.listInstance Word.listInstanceId isElement adds
    rwa [idsIn_append, noInstances, ofInstances, List.nil_append] at ids

theorem wellNumbered_merge (wellNumbered : WellNumbered (some root))
    (seeded : start.IsSeeded (some root)) :
    WellNumbered (some (mergeAllocated start formats root).1) := by
  have isElement := wellNumbered.isElement root rfl
  obtain ⟨abstracts, instances, ⟨ofAbstracts, aboveAbstracts, differAbstracts⟩, ofInstances,
    aboveInstances, differInstances⟩ := ids_merge formats start isElement
  obtain ⟨definitions, listInstances, children, isMerged, -⟩ :=
    merge_eq (Allocator.definitionsFrom start.nextAbstract formats)
      (Allocator.instancesFrom start.nextInstance start.nextAbstract formats) root
  refine ⟨?_, ?_, ?_⟩
  · rintro _ ⟨⟩
    rw [mergeAllocated, isMerged]
    cases root <;> exact isElement
  · exact ofAbstracts.nodup_iff.mpr (nodup_append_fresh wellNumbered.abstracts
      seeded.aboveAbstracts aboveAbstracts differAbstracts)
  · exact ofInstances.nodup_iff.mpr (nodup_append_fresh wellNumbered.instances
      seeded.aboveInstances aboveInstances differInstances)

theorem extends_merge (numbering : Option Node) :
    Extends numbering (some (mergeAllocated start formats (rootOf numbering)).1) := by
  cases numbering with
  | none => trivial
  | some root =>
    obtain ⟨definitions, listInstances, children, isMerged, adds, -⟩ :=
      merge_eq (Allocator.definitionsFrom start.nextAbstract formats)
        (Allocator.instancesFrom start.nextInstance start.nextAbstract formats) root
    exact ⟨children, congrArg some isMerged, adds.1⟩

/-- A merge without fault writes the two parts of every list that was allocated. -/
theorem written_merge (isElement : root.name?.isSome)
    (faultless : (mergeAllocated start formats root).2 = none) {i : Nat} {format : Format}
    (isFormat : formats[i]? = some format) :
    ∃ definition ∈ (mergeAllocated start formats root).1.children,
      ∃ listInstance ∈ (mergeAllocated start formats root).1.children,
        AbstractList.IsWrittenAs ⟨start.nextAbstract + i, format⟩ definition ∧
        ListInstance.IsWrittenAs ⟨start.nextInstance + i, start.nextAbstract + i⟩
          listInstance := by
  obtain ⟨definitions, listInstances, children, isMerged, adds,
    ⟨abstracts, laterAbstracts, partsAbstracts, eachAbstract, allAbstracts⟩,
    ⟨instances, laterInstances, partsInstances, eachInstance, allInstances⟩⟩ :=
    merge_eq (Allocator.definitionsFrom start.nextAbstract formats)
      (Allocator.instancesFrom start.nextInstance start.nextAbstract formats) root
  obtain rfl := allAbstracts (by rw [faultless]; rfl)
  obtain rfl := allInstances (by rw [faultless]; rfl)
  rw [List.append_nil] at partsAbstracts partsInstances
  have isAbstract : (⟨start.nextAbstract + i, format⟩ : AbstractList) ∈ abstracts := by
    rw [← partsAbstracts]
    exact List.mem_of_getElem? (by rw [Allocator.definitionsFrom_getElem?, isFormat]; rfl)
  have isInstance : (⟨start.nextInstance + i, start.nextAbstract + i⟩ : ListInstance) ∈
      instances := by
    rw [← partsInstances]
    exact List.mem_of_getElem? (by rw [Allocator.instancesFrom_getElem?, isFormat]; rfl)
  obtain ⟨definition, first, isDefinition⟩ := exists_right_of_mem eachAbstract isAbstract
  obtain ⟨listInstance, second, isListInstance⟩ := exists_right_of_mem eachInstance isInstance
  have below {node : Node} (new : node ∈ definitions ++ listInstances) :
      node ∈ (root.withChildren children).children := by
    have among : node ∈ children := adds.2.mem_iff.mpr (List.mem_append_right _ new)
    cases root with
    | element => exact among
    | aside content tail => cases isElement
  rw [mergeAllocated, isMerged]
  exact ⟨definition, below (List.mem_append_left _ first), listInstance,
    below (List.mem_append_right _ second), isDefinition, isListInstance⟩

/-- A merge without fault defines every list that was allocated. -/
theorem defines_merge (isElement : root.name?.isSome)
    (faultless : (mergeAllocated start formats root).2 = none) {i : Nat} {format : Format}
    (isFormat : formats[i]? = some format) :
    Defines (some (mergeAllocated start formats root).1) (toString (start.nextInstance + i))
      format := by
  obtain ⟨definition, first, listInstance, second, isDefinition, isListInstance⟩ :=
    written_merge formats isElement faultless isFormat
  exact ⟨_, rfl, listInstance, second, definition, first, toString (start.nextAbstract + i),
    isListInstance.named, isListInstance.id, isListInstance.reference, isDefinition.named,
    isDefinition.id, isDefinition.formats⟩

/-- Whatever ids the old definitions have, after a merge without fault the id of a list that was
allocated leads to one abstract list, which is that of the list. -/
theorem definitionsOf_merge (isElement : root.name?.isSome) (seeded : start.IsSeeded (some root))
    (faultless : (mergeAllocated start formats root).2 = none) {i : Nat} {format : Format}
    (isFormat : formats[i]? = some format) :
    ∃ definition,
      definitionsOf (some (mergeAllocated start formats root).1)
          (toString (start.nextInstance + i)) = [definition] ∧
        AbstractList.IsWrittenAs ⟨start.nextAbstract + i, format⟩ definition := by
  obtain ⟨definition, first, listInstance, second, isDefinition, isListInstance⟩ :=
    written_merge formats isElement faultless isFormat
  obtain ⟨abstracts, instances, ⟨ofAbstracts, -, differAbstracts⟩, ofInstances, -,
    differInstances⟩ := ids_merge formats start isElement
  have newInstance : start.nextInstance ≤ start.nextInstance + i := by omega
  have newAbstract : start.nextAbstract ≤ start.nextAbstract + i := by omega
  have instanceOnce := count_append_fresh seeded.aboveInstances differInstances newInstance
  have abstractOnce := count_append_fresh seeded.aboveAbstracts differAbstracts newAbstract
  rw [Option.toList_some, ← ofInstances.count_eq] at instanceOnce
  rw [Option.toList_some, ← ofAbstracts.count_eq] at abstractOnce
  have onlyInstance : withId _ _ _ (some (mergeAllocated start formats root).1) = [listInstance] :=
    withId_eq_singleton instanceOnce (mem_elementsOf_child second isListInstance.named)
      isListInstance.named isListInstance.id
  have onlyDefinition : withId _ _ _ (some (mergeAllocated start formats root).1) = [definition] :=
    withId_eq_singleton abstractOnce (mem_elementsOf_child first isDefinition.named)
      isDefinition.named isDefinition.id
  refine ⟨definition, ?_, isDefinition⟩
  rw [definitionsOf, onlyInstance, List.flatMap_singleton, isListInstance.reference,
    List.flatMap_singleton, onlyDefinition]

end Merge

end TemplateFill.Numbering
