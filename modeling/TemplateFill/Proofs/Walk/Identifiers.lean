import TemplateFill.Proofs.Walk.Erasure
import TemplateFill.Proofs.Walk.Identity

/-!
# The ids of controls

An id stands in the properties of a control, and no two controls of a document may have the same.
Nothing that a walk puts in is an id, and what a section repeats has lost its own. So the ids that
are left are some of those that were there, in their order, and there are none in copies.
-/

namespace TemplateFill.Walk

open Xml

variable {name : Name} {nodes left rest others : List Node} {node : Node}

def idValues (nodes : List Node) : List String :=
  (nodes.filter (·.isNamed Word.identifier)).filterMap (·.attribute? Word.value)

/-- The ids in the properties of controls, among and below some nodes, in document order. -/
def controlIds (nodes : List Node) : List String :=
  ((Node.elementsOf nodes).filter (·.isNamed Word.controlProperties)).flatMap
    fun properties => idValues properties.children

/-- Whatever is a copy, which its lineage tells, holds no ids. -/
def PureCopies (nodes : List Node) : Prop :=
  ∀ x ∈ Node.elementsOf nodes, 1 < x.lineage.length → Node.tally Word.identifier [x] = 0

/-! ### Counting ids -/

theorem idValues_append (nodes rest : List Node) :
    idValues (nodes ++ rest) = idValues nodes ++ idValues rest := by
  rw [idValues, List.filter_append, List.filterMap_append]
  rfl

theorem controlIds_append (nodes rest : List Node) :
    controlIds (nodes ++ rest) = controlIds nodes ++ controlIds rest := by
  rw [controlIds, Node.elementsOf_append, List.filter_append, List.flatMap_append]
  rfl

theorem controlIds_element (name : Name) (lineage : Lineage) (traits : Traits)
    (children : List Node) : controlIds [.element name lineage traits children] =
      (if name = Word.controlProperties then idValues children else []) ++ controlIds children := by
  rw [controlIds, Node.elementsOf_singleton, Node.elements,
    List.filter_cons]
  simp only [Node.isNamed_iff, Node.name?, Option.some.injEq]
  split
  · rfl
  · rfl

theorem tally_bare (name : Name) (nodes : List Node) :
    Node.tally name (nodes.map Node.bare) = Node.tally name nodes := by
  rw [Node.tally, Node.elementsOf_bare, List.countP_map]
  exact congrArg (List.countP · _) (funext (Node.isNamed_bare name))

theorem tally_copy (name : Name) (index : Nat) (node : Node) :
    Node.tally name [node.copy index] = Node.tally name [node] := by
  rw [← tally_bare name [node.copy index], List.map_singleton, Node.bare_copy,
    ← List.map_singleton, tally_bare]

/-- Removing all elements of a name leaves none of them. -/
theorem tally_prune (name : Name) (node : Node) :
    Node.tally name (node.prune (·.isNamed name)).children = 0 := by
  induction node using Node.induction with
  | element own lineage traits children ih =>
    rw [Node.tally_eq_zero_iff]
    intro x inside
    rw [Node.prune, Node.children, Node.pruneAll_eq] at inside
    obtain ⟨_, isPruned, within⟩ := Node.mem_elementsOf_iff.mp inside
    obtain ⟨child, among, rfl⟩ := List.mem_map.mp isPruned
    obtain ⟨member, other⟩ := List.mem_filter.mp among
    have none : Node.tally name [child.prune (·.isNamed name)] = 0 := by
      rw [Node.tally_singleton, ih child member, Node.isNamed, Node.name?_prune]
      simpa [Node.isNamed] using other
    exact Node.tally_eq_zero_iff.mp none x (Node.mem_elementsOf (List.mem_singleton_self _) within)
  | aside content tail => rfl

/-! ### Ids that are kept -/

/-- Of the ids of some nodes, those that are left stay in their order, none are put in where there
was none, and copies still hold none. -/
structure KeepsIds (nodes left : List Node) : Prop where
  own : (idValues left).Sublist (idValues nodes)
  below : (controlIds left).Sublist (controlIds nodes)
  lacks : Node.tally Word.identifier nodes = 0 → Node.tally Word.identifier left = 0
  copies : PureCopies nodes → PureCopies left

theorem PureCopies.subset (h : PureCopies nodes) (fewer : left ⊆ nodes) : PureCopies left := by
  intro x inside
  obtain ⟨node, among, within⟩ := Node.mem_elementsOf_iff.mp inside
  exact h x (Node.mem_elementsOf (fewer among) within)

theorem PureCopies.append (h : PureCopies nodes) (onward : PureCopies rest) :
    PureCopies (nodes ++ rest) := by
  intro x inside
  rw [Node.elementsOf_append] at inside
  rcases List.mem_append.mp inside with here | later
  · exact h x here
  · exact onward x later

namespace KeepsIds

theorem refl (nodes : List Node) : KeepsIds nodes nodes :=
  ⟨List.Sublist.refl _, List.Sublist.refl _, id, id⟩

theorem append (first : KeepsIds nodes left) (onward : KeepsIds rest others) :
    KeepsIds (nodes ++ rest) (left ++ others) := by
  constructor
  · rw [idValues_append, idValues_append]
    exact first.own.append onward.own
  · rw [controlIds_append, controlIds_append]
    exact first.below.append onward.below
  · rw [Node.tally_append, Node.tally_append]
    intro none
    have here := first.lacks (Nat.eq_zero_of_add_eq_zero_right none)
    have later := onward.lacks (Nat.eq_zero_of_add_eq_zero_left none)
    rw [here, later]
  · intro copies
    exact (first.copies (copies.subset (List.subset_append_left _ _))).append
      (onward.copies (copies.subset (List.subset_append_right _ _)))

theorem cons (first : KeepsIds [node] left) (onward : KeepsIds rest others) :
    KeepsIds (node :: rest) (left ++ others) := append first onward

theorem keep (onward : KeepsIds rest others) : KeepsIds (node :: rest) (node :: others) :=
  append (refl [node]) onward

/-- What holds no ids keeps those that it has. -/
theorem of_lacks (nodes : List Node) (none : Node.tally Word.identifier left = 0) :
    KeepsIds nodes left := by
  have free := Node.tally_eq_zero_iff.mp none
  have own : ∀ nodes, (∀ x ∈ nodes, ¬ x.isNamed Word.identifier) → idValues nodes = [] := by
    intro nodes free
    rw [idValues, List.filter_eq_nil_iff.mpr free, List.filterMap_nil]
  have among {nodes : List Node} (free : ∀ x ∈ Node.elementsOf nodes, ¬ x.isNamed Word.identifier) :
      ∀ x ∈ nodes, ¬ x.isNamed Word.identifier := fun x member named =>
    free x (Node.mem_elementsOf member
      (Node.mem_elements_self (Node.isElement_of_isNamed named))) named
  have below : controlIds left = [] := by
    rw [controlIds, List.flatMap_eq_nil_iff]
    intro properties member
    refine own _ (among fun x inside => free x ?_)
    exact Node.mem_elementsOf_trans (List.mem_filter.mp member).1
      (Node.mem_elements_of_children inside)
  refine ⟨?_, ?_, fun _ => none, fun _ x inside _ => ?_⟩
  · rw [own left (among free)]
    exact List.nil_sublist _
  · rw [below]
    exact List.nil_sublist _
  · rw [Node.tally_eq_zero_iff]
    intro y within
    rw [Node.elementsOf_singleton] at within
    exact free y (Node.mem_elementsOf_trans inside within)

/-- An element around new content, with other traits only if it is no id. -/
theorem element {lineage : Lineage} {before after : Traits} {children inside : List Node}
    (same : after = before ∨ name ≠ Word.identifier) (below : KeepsIds children inside) :
    KeepsIds [.element name lineage before children] [.element name lineage after inside] := by
  constructor
  · rw [idValues, idValues, List.filter_cons, List.filter_cons]
    simp only [Node.isNamed_iff, Node.name?, Option.some.injEq]
    by_cases isId : name = Word.identifier
    · obtain rfl := same.resolve_right (not_not_intro isId)
      rw [if_pos isId, if_pos isId]
      exact List.Sublist.refl _
    · rw [if_neg isId, if_neg isId]
  · rw [controlIds_element, controlIds_element]
    refine List.Sublist.append ?_ below.below
    split
    · exact below.own
    · exact List.Sublist.refl _
  · rw [Node.tally_singleton, Node.tally_singleton]
    intro none
    have inside := below.lacks (Nat.eq_zero_of_add_eq_zero_left none)
    have here := Nat.eq_zero_of_add_eq_zero_right none
    exact Nat.add_eq_zero_iff.mpr ⟨here, inside⟩
  · intro copies x member isCopy
    rw [Node.elementsOf_singleton] at member
    rcases Node.mem_elements_element.mp member with rfl | within
    · have none := copies _ (List.mem_append_left _ List.mem_cons_self) isCopy
      rw [Node.tally_singleton] at none ⊢
      have inside := below.lacks (Nat.eq_zero_of_add_eq_zero_left none)
      have here := Nat.eq_zero_of_add_eq_zero_right none
      exact Nat.add_eq_zero_iff.mpr ⟨here, inside⟩
    · refine below.copies (fun y under => copies y ?_) x within isCopy
      exact List.mem_append_left _ (List.mem_cons_of_mem _ under)

theorem withChildren (node : Node) (below : KeepsIds node.children left) :
    KeepsIds [node] [node.withChildren left] := by
  cases node with
  | element name lineage traits children => exact element (.inl rfl) below
  | aside content tail => exact refl _

theorem replaceFirst {p : Node → Bool} {old new : Node} (isFirst : nodes.find? p = some old)
    (here : KeepsIds [old] [new]) : KeepsIds nodes (Node.replaceFirst p new nodes) := by
  induction nodes with
  | nil => cases isFirst
  | cons first rest ih =>
    rw [Node.replaceFirst]
    by_cases satisfies : p first
    · rw [List.find?_cons_of_pos satisfies] at isFirst
      rw [Option.some.inj isFirst, if_pos (Option.some.inj isFirst ▸ satisfies)]
      exact here.cons (refl rest)
    · rw [List.find?_cons_of_neg satisfies] at isFirst
      rw [if_neg satisfies]
      exact keep (ih isFirst)

end KeepsIds

theorem Pared.keepsIds {written : List Name} {place : Place}
    (pared : Pared written place nodes left) (never : Word.identifier ∉ written) :
    KeepsIds nodes left := by
  induction pared with
  | nil => exact .refl []
  | @drop _ node rest left _ _ ih =>
    have dropped : KeepsIds [node] [] := .of_lacks _ rfl
    exact dropped.cons ih
  | keep same _ _ ihBelow ih =>
    have other : _ ∨ _ ≠ Word.identifier := same.imp_right fun changed isId => never (isId ▸ changed)
    exact (KeepsIds.element other ihBelow).cons ih
  | leaf _ _ ih => exact .keep ih
  | @add _ node _ _ added _ ih =>
    have none : Node.tally Word.identifier [node] = 0 := by
      rw [Node.tally_eq_zero_iff]
      intro x inside
      rw [Node.elementsOf_singleton] at inside
      exact added.isMadeOf.none_named never x inside
    exact (KeepsIds.of_lacks [] none).append ih

theorem keepsIds_withItems {items : List Node} (none : Node.tally Word.identifier items = 0)
    (node : Node) : KeepsIds [node] [withItems items node] := by
  unfold withItems
  split
  · exact .refl _
  · rename_i content isContent
    exact .withChildren node
      (.replaceFirst isContent (.withChildren content (.of_lacks _ none)))

/-! ### The walk -/

/-- What a section repeats has no ids. -/
theorem tally_sectionItem {tag : String} {item : Node} (isItem : sectionItem tag node = .ok item) :
    Node.tally Word.identifier [item] = 0 := by
  obtain ⟨content, child, -, -, isControl, rfl⟩ := sectionItem_eq_ok isItem
  have other : child.isNamed Word.identifier = false := by
    rw [Node.isNamed, Node.isNamed_iff.mp isControl]
    rfl
  rw [Node.tally_singleton, tally_prune, Node.isNamed, Node.name?_prune, ← Node.isNamed, other]
  rfl

mutual

theorem Settles.keepsIds {options : Options} {place : Place} {scope : Datum}
    {lists kept : ListStore} {node : Node} {account : Account} {left : List Node}
    (isControl : Control.isControl node) :
    Settles options place scope lists node account left kept → KeepsIds [node] left
  | .refused _ => .refl _
  | .broken h => (pared_written isControl h).keepsIds (by cases place.inParagraph <;> decide)
  | .filled h => (pared_written isControl h).keepsIds (by cases place.inParagraph <;> decide)
  | .removed _ _ => by
    split
    · exact .of_lacks _ rfl
    · exact .of_lacks _ rfl
  | .shown _ below => .withChildren node below.keepsIds
  | .repeated h below => keepsIds_withItems (below.lacksIds (tally_sectionItem (course_holds h))) node

/-- The ids of nodes are kept in what is left of them. -/
theorem SettlesAll.keepsIds {options : Options} {place : Place} {scope : Datum}
    {lists kept : ListStore} {nodes left : List Node} {accounts : List Account} :
    SettlesAll options place scope lists nodes accounts left kept → KeepsIds nodes left
  | .nil => .refl _
  | .control isControl first onward => (first.keepsIds isControl).cons onward.keepsIds
  | .element _ first onward => (KeepsIds.element (.inl rfl) first.keepsIds).cons onward.keepsIds
  | .leaf _ onward => .keep onward.keepsIds

theorem SettlesItems.lacksIds {options : Options} {place : Place} {tag : String} {item : Node}
    {index : Nat} {lists kept : ListStore} {values : List Datum} {entries : List Entry}
    {copies : List Node} {fault : Option Fault}
    (none : Node.tally Word.identifier [item] = 0) :
    SettlesItems options place tag item index lists values entries copies fault kept →
      Node.tally Word.identifier copies = 0
  | .done => rfl
  | .copied first onward => by
    have copied := (tally_copy Word.identifier index item).trans none
    have here := (KeepsIds.withChildren (item.copy index) first.keepsIds).lacks copied
    rw [Node.tally_cons, here, onward.lacksIds none]
  | .rejected _ _ onward => onward.lacksIds none
  | .stopped _ _ => rfl

end

/-! ### Numbered controls -/

theorem idValues_bare (nodes : List Node) : idValues (nodes.map Node.bare) = idValues nodes := by
  rw [idValues, Node.filter_bare (Node.isNamed_bare _), List.filterMap_map]
  exact congrArg (List.filterMap · _) (funext (Node.attribute?_bare _))

theorem controlIds_bare (nodes : List Node) : controlIds (nodes.map Node.bare) = controlIds nodes := by
  rw [controlIds, Node.elementsOf_bare, Node.filter_bare (Node.isNamed_bare _), List.flatMap_map]
  refine List.flatMap_congr fun properties _ => ?_
  rw [Node.children_bare, idValues_bare]

theorem controlIds_enroll (next : Nat) (node : Node) :
    controlIds [(Control.enroll next node).1] = controlIds [node] := by
  rw [← controlIds_bare, List.map_singleton, Control.bare_enroll, ← List.map_singleton,
    controlIds_bare]

/-- A numbered control has one number, and is no copy. -/
theorem pureCopies_enroll (next : Nat) (node : Node) :
    PureCopies [(Control.enroll next node).1] := by
  intro x inside isCopy
  have tagged : isTag (key x) := by
    cases isLineage : x.lineage with
    | nil =>
      rw [isLineage] at isCopy
      exact absurd isCopy (Nat.not_lt_zero 1)
    | cons first others => simp [isTag, key, isLineage]
  obtain ⟨count, -, isNumbered⟩ := tags_enroll next node
  have among := mem_tags inside tagged
  rw [isNumbered] at among
  obtain ⟨n, -, isKey⟩ := List.mem_map.mp among
  have isLineage : [n] = x.lineage := congrArg Prod.snd isKey
  rw [← isLineage] at isCopy
  exact absurd isCopy (Nat.lt_irrefl 1)

theorem populate_keepsIds (options : Options) (root : Node) (scope : Datum) (progress : Progress) :
    KeepsIds [root] [(populate options root scope progress).1] := by
  obtain ⟨accounts, only, -⟩ := settledOn_populate options root scope progress.lists
  have settled := (only _ _ _).mpr ⟨rfl, rfl, rfl⟩
  rw [(incremental_populate options root scope).value_eq, effect_populate]
  exact .withChildren root settled.keepsIds

/-- Whatever a section has made of its item, there are no ids in it. -/
theorem populateItems_lacksIds (options : Options) (place : Place) {tag : String} {node item : Node}
    (isItem : sectionItem tag node = .ok item) (subject : Lineage) (index : Nat)
    (values : List Datum) (progress : Progress) : Node.tally Word.identifier
      (populateItems options place.ofItem tag subject item index values progress).1.1 = 0 := by
  obtain ⟨entries, only, -⟩ :=
    (settledOn_walk options).2.2.2 place.ofItem tag subject item index values rfl progress.lists
  have settled := (only _ _ _).mpr ⟨rfl, rfl, rfl⟩
  rw [(incremental_populateItems options place.ofItem tag subject item index values).value_eq]
  exact settled.lacksIds (tally_sectionItem isItem)

/-- Control ids stay apart: if those of a template are, those of what is left are too, whatever is
repeated how often. Everything that is a copy holds none, neither when it was made nor in the end. -/
theorem populate_keeps_ids_apart (options : Options) (next : Nat) (bare : Node) (scope : Datum)
    (progress : Progress) (distinct : (controlIds [bare]).Nodup) :
    let left := (populate options (Control.enroll next bare).1 scope progress).1
    (controlIds [left]).Nodup ∧ PureCopies [left] ∧
      ∀ (place : Place) (tag : String) (node item : Node) (values : List Datum)
        (progress : Progress), sectionItem tag node = .ok item → Node.tally Word.identifier
          (populateItems options place.ofItem tag node.lineage item 0 values progress).1.1 = 0 := by
  have kept := populate_keepsIds options (Control.enroll next bare).1 scope progress
  have fewer := kept.below
  rw [controlIds_enroll] at fewer
  refine ⟨distinct.sublist fewer, kept.copies (pureCopies_enroll next bare), ?_⟩
  intro place tag node item values progress isItem
  exact populateItems_lacksIds options place isItem node.lineage 0 values progress

def identified (id tag : String) (marks content : List Node) : Node :=
  .plain Word.control []
    [.plain Word.controlProperties []
        ([.plain Word.identifier [(Word.value, id)] [],
          .plain Word.controlTag [(Word.value, tag)] []] ++ marks),
      .plain Word.controlContent [] content]

/-- A body with a section that repeats a control around another one, and a control beside it, which
all have ids. -/
def identifiedBody : Node :=
  .plain Word.body []
    [identified "1" "a" [.plain Word.repeatingSectionMark [] []]
        [identified "2" "b" [] [identified "3" "c" [] []]],
      identified "4" "d" [] [Word.makeParagraph []]]

/-- In that body the ids stay apart for two objects. -/
theorem populate_keeps_ids_of_items :
    let scope := Datum.object [(.text "a", .list [.object [], .object []])]
    let left := (populate .standard (Control.enroll 0 identifiedBody).1 scope
      (.start (.document none))).1
    (controlIds [identifiedBody]).Nodup ∧ (controlIds [left]).Nodup ∧ PureCopies [left] := by
  intro scope
  have distinct : (controlIds [identifiedBody]).Nodup := by decide +kernel
  obtain ⟨apart, pure, -⟩ := populate_keeps_ids_apart .standard 0 identifiedBody scope
    (.start (.document none)) distinct
  exact ⟨distinct, apart, pure⟩

end TemplateFill.Walk
