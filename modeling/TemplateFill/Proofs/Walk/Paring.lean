import TemplateFill.Proofs.Walk.Editing
import TemplateFill.Proofs.Walk.Nesting
import TemplateFill.Proofs.Xml.First

/-!
# Pared trees

To write into a control is to pare it: everything may be removed, and nodes that nobody refers
to are put in where they may stand, made of elements of a few names.
-/

namespace TemplateFill.Walk

open Xml

/-- A node is made of elements of some names that nobody refers to. -/
def IsMadeOf (written : List Name) (node : Node) : Prop :=
  ∀ x ∈ node.elements, x.lineage = [] ∧ ∃ name ∈ written, x.isNamed name

theorem IsMadeOf.mono {written more : List Name} {node : Node} (h : IsMadeOf written node)
    (subset : written ⊆ more) : IsMadeOf more node := by
  intro x inside
  obtain ⟨unnamed, name, isWritten, named⟩ := h x inside
  exact ⟨unnamed, name, subset isWritten, named⟩

/-- What is made of other elements has none of a name. -/
theorem IsMadeOf.none_named {written : List Name} {node : Node} {name : Name}
    (h : IsMadeOf written node) (unwritten : name ∉ written) :
    ∀ x ∈ node.elements, ¬ x.isNamed name := by
  intro x inside named
  obtain ⟨-, other, isWritten, isNamed⟩ := h x inside
  exact unwritten (Node.eq_of_isNamed named isNamed ▸ isWritten)

/-- A node may be put in at a place: it is made of what is written, and the place admits it. -/
structure Place.Takes (place : Place) (written : List Name) (node : Node) : Prop where
  admits : place.Admits node
  isMadeOf : IsMadeOf written node

def paring (written : List Name) : Rules :=
  ⟨fun _ => True, (· ∈ written), fun place node => place.Takes written node⟩

/-- Nodes at a place are pared to others. -/
abbrev Pared (written : List Name) : Place → List Node → List Node → Prop :=
  Edited (paring written)

/-- What an edit leaves of an element: its name and its lineage. -/
def key (node : Node) : Option Name × Lineage := (node.name?, node.lineage)

theorem key_element (name : Name) (lineage : Lineage) (traits : Traits)
    (children : List Node) : key (.element name lineage traits children) = (some name, lineage) :=
  rfl

namespace Pared

variable {written : List Name} {place : Place} {nodes left rest others : List Node} {node x : Node}

theorem of_sublist (h : left.Sublist nodes) : Pared written place nodes left := by
  induction h with
  | slnil => exact .nil
  | cons node _ ih => exact .drop trivial ih
  | cons_cons node _ ih => exact (Edited.refl node place).append ih

theorem mono {more : List Name} (pared : Pared written place nodes left) (subset : written ⊆ more) :
    Pared more place nodes left :=
  Edited.mono pared
    ⟨id, (subset ·), fun added => ⟨added.admits, added.isMadeOf.mono subset⟩⟩

/-! ### What paring keeps -/

/-- Where nodes may stand, pared ones may stand too. -/
theorem admitsAll (pared : Pared written place nodes left) :
    place.AdmitsAll nodes → place.AdmitsAll left := by
  induction pared with
  | nil => exact id
  | drop _ _ ih => exact fun admitted => ih admitted.2
  | keep _ _ _ ihBelow ih => exact fun admitted =>
      ⟨⟨admitted.1.1, ihBelow admitted.1.2⟩, ih admitted.2⟩
  | leaf isLeaf _ ih => exact fun admitted => ⟨admitted.1, ih admitted.2⟩
  | add added _ ih => exact fun admitted => ⟨added.admits, ih admitted⟩

theorem admits (pared : Pared written place [node] [x]) (admitted : place.Admits node) :
    place.Admits x := (pared.admitsAll ⟨admitted, trivial⟩).1

/-- Whatever is in a pared tree was there before, or was put in. -/
theorem mem_elements (pared : Pared written place nodes left) (member : x ∈ Node.elementsOf left) :
    (∃ before ∈ Node.elementsOf nodes, key x = key before) ∨
      (x.lineage = [] ∧ ∃ name ∈ written, x.isNamed name) := by
  induction pared with
  | nil => cases member
  | drop _ _ ih =>
    refine (ih member).imp_left ?_
    rintro ⟨before, among, same⟩
    exact ⟨before, List.mem_append_right _ among, same⟩
  | keep _ _ _ ihBelow ih =>
    rcases List.mem_append.mp member with here | later
    · rcases Node.mem_elements_element.mp here with rfl | inside
      · exact .inl ⟨_, List.mem_append_left _ List.mem_cons_self, rfl⟩
      · refine (ihBelow inside).imp_left ?_
        rintro ⟨before, among, same⟩
        exact ⟨before, List.mem_append_left _ (List.mem_cons_of_mem _ among), same⟩
    · refine (ih later).imp_left ?_
      rintro ⟨before, among, same⟩
      exact ⟨before, List.mem_append_right _ among, same⟩
  | leaf isLeaf _ ih =>
    rcases List.mem_append.mp member with here | later
    · rw [Node.elements_of_leaf isLeaf] at here
      cases here
    · refine (ih later).imp_left ?_
      rintro ⟨before, among, same⟩
      exact ⟨before, List.mem_append_right _ among, same⟩
  | add added _ ih =>
    rcases List.mem_append.mp member with here | later
    · exact .inr (added.isMadeOf x here)
    · exact ih later

/-- No element becomes more of what is never put in, and those that are left stay in their
order. -/
theorem sublist_keys (pared : Pared written place nodes left) {p : Option Name × Lineage → Bool}
    (never : ∀ name ∈ written, p (some name, []) = false) :
    (((Node.elementsOf left).map key).filter p).Sublist
      (((Node.elementsOf nodes).map key).filter p) := by
  induction pared with
  | nil => exact .slnil
  | drop _ _ ih =>
    rw [Node.elementsOf, List.map_append, List.filter_append]
    exact List.sublist_append_of_sublist_right ih
  | keep _ _ _ ihBelow ih =>
    simp only [Node.elementsOf, Node.elements, List.map_append, List.filter_append]
    refine List.Sublist.append ?_ ih
    simp only [List.map_cons, List.filter_cons, key_element]
    split
    · exact ihBelow.cons_cons _
    · exact ihBelow
  | leaf _ _ ih =>
    simp only [Node.elementsOf, List.map_append, List.filter_append]
    exact (List.Sublist.refl _).append ih
  | @add place node _ _ added _ ih =>
    have nothing : (node.elements.map key).filter p = [] := by
      rw [List.filter_eq_nil_iff]
      intro k isKey
      obtain ⟨x, inside, rfl⟩ := List.mem_map.mp isKey
      obtain ⟨unnamed, name, isWritten, named⟩ := added.isMadeOf x inside
      rw [key, unnamed, Node.isNamed_iff.mp named, never name isWritten]
      exact Bool.false_ne_true
    rw [Node.elementsOf, List.map_append, List.filter_append, nothing]
    exact ih

/-- There are no more elements of a name that is never put in. -/
theorem tally_le {name : Name} (pared : Pared written place nodes left) (never : name ∉ written) :
    Node.tally name left ≤ Node.tally name nodes := by
  have fewer := pared.sublist_keys (p := fun key => key.1 == some name) (by
    intro other isWritten
    have differs : other ≠ name := fun same => never (same ▸ isWritten)
    simpa using differs)
  have count (nodes : List Node) : Node.tally name nodes =
      (((Node.elementsOf nodes).map key).filter fun key => key.1 == some name).length := by
    rw [← List.countP_eq_length_filter, List.countP_map]
    rfl
  rw [count, count]
  exact fewer.length_le

/-! ### Paring twice -/

theorem takes_of_takes (pared : Pared written place [node] left)
    (taken : place.Takes written node) : ∀ x ∈ left, place.Takes written x := by
  intro x member
  refine ⟨Place.admitsAll_iff.mp (pared.admitsAll ⟨taken.admits, trivial⟩) x member, ?_⟩
  intro y inside
  rcases pared.mem_elements (Node.mem_elementsOf member inside) with ⟨before, among, same⟩ | written
  · rw [Node.elementsOf_singleton] at among
    obtain ⟨unnamed, name, isWritten, named⟩ := taken.isMadeOf before among
    obtain ⟨sameName, sameLineage⟩ := Prod.mk.inj same
    exact ⟨sameLineage.trans unnamed, name, isWritten,
      Node.isNamed_iff.mpr (sameName.trans (Node.isNamed_iff.mp named))⟩
  · exact written

theorem isClosed_paring : (paring written).IsClosed :=
  ⟨fun _ _ => trivial, fun pared taken => takes_of_takes pared taken⟩

/-- To pare what was pared is to pare. -/
theorem again {further : List Node} (first : Pared written place nodes left)
    (second : Pared written place left further) : Pared written place nodes further :=
  first.trans isClosed_paring second

end Pared

end TemplateFill.Walk
