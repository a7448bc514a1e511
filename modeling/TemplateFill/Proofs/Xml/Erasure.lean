import Mathlib.Data.List.Basic
import Mathlib.Data.List.TakeWhile
import TemplateFill.Control.Basic
import TemplateFill.Proofs.Xml.Overwriting

/-!
# Nodes without their lineages

Lineages tell elements apart that look alike. They are no part of a document, and what looks at
nodes or rebuilds them does not read them: it makes no difference whether they are forgotten
before or after. Numbering and copying only give new ones.
-/

namespace TemplateFill.Xml.Node

/-- Forget the lineage of a single element. -/
def dropLineage : Node → Node
  | .element name _ traits children => .element name [] traits children
  | node => node

def bare : Node → Node := mapElements dropLineage

variable {node child new : Node} {nodes : List Node} {name : Name}

theorem bare_element (name : Name) (lineage : Lineage) (traits : Traits)
    (children : List Node) : (element name lineage traits children).bare =
      element name [] traits (children.map bare) := by
  rw [bare, mapElements, mapAllElements_eq]
  rfl

@[simp] theorem name?_bare (node : Node) : node.bare.name? = node.name? := by
  cases node <;> rfl

@[simp] theorem isNamed_bare (name : Name) (node : Node) :
    node.bare.isNamed name = node.isNamed name := by
  rw [isNamed, name?_bare, isNamed]

@[simp] theorem attribute?_bare (name : Name) (node : Node) :
    node.bare.attribute? name = node.attribute? name := by
  cases node <;> rfl

@[simp] theorem children_bare (node : Node) : node.bare.children = node.children.map bare := by
  cases node with
  | element name lineage traits children => rw [bare_element]; rfl
  | aside content tail => rfl

theorem bare_withChildren (node : Node) (children : List Node) :
    (node.withChildren children).bare = node.bare.withChildren (children.map bare) := by
  cases node with
  | element name lineage traits others => rw [withChildren, bare_element, bare_element]; rfl
  | aside content tail => rfl

theorem bare_setAttribute (key : Name) (value : String) (node : Node) :
    (node.setAttribute key value).bare = node.bare.setAttribute key value := by
  cases node with
  | element name lineage traits children => rw [setAttribute, bare_element, bare_element]; rfl
  | aside content tail => rfl

theorem bare_bare (node : Node) : node.bare.bare = node.bare := by
  induction node using Node.induction with
  | element name lineage traits children ih =>
    rw [bare_element, bare_element, List.map_map]
    exact congrArg _ (List.map_congr_left ih)
  | aside content tail => rfl

/-- A copy is told from its model by lineages alone. -/
theorem bare_copy (index : Nat) (node : Node) : (node.copy index).bare = node.bare := by
  induction node using Node.induction with
  | element name lineage traits children ih =>
    rw [copy, mapElements, extendLineage, bare_element, bare_element, mapAllElements_eq,
      List.map_map]
    exact congrArg _ (List.map_congr_left ih)
  | aside content tail => rfl

/-! ### What is below a node -/

section Below

theorem elements_bare (node : Node) : node.bare.elements = node.elements.map bare := by
  induction node using Node.induction with
  | element name lineage traits children ih =>
    rw [bare_element, elements, elements, List.map_cons, bare_element, elementsOf_eq_flatMap,
      elementsOf_eq_flatMap, List.flatMap_map, List.map_flatMap]
    congr 1
    exact List.flatMap_congr ih
  | aside content tail => rfl

theorem elementsOf_bare (nodes : List Node) :
    elementsOf (nodes.map bare) = (elementsOf nodes).map bare := by
  rw [elementsOf_eq_flatMap, elementsOf_eq_flatMap, List.flatMap_map, List.map_flatMap]
  exact List.flatMap_congr fun node _ => elements_bare node

variable {p : Node → Bool}

theorem filter_bare (ignores : ∀ x : Node, p x.bare = p x) (nodes : List Node) :
    (nodes.map bare).filter p = (nodes.filter p).map bare := by
  rw [List.filter_map]
  exact congrArg _ (List.filter_congr fun x _ => ignores x)

theorem find?_bare (ignores : ∀ x : Node, p x.bare = p x) (nodes : List Node) :
    (nodes.map bare).find? p = (nodes.find? p).map bare := by
  rw [List.find?_map]
  exact congrArg (fun q => (nodes.find? q).map bare) (funext ignores)

theorem any_bare (ignores : ∀ x : Node, p x.bare = p x) (nodes : List Node) :
    (nodes.map bare).any p = nodes.any p := by
  rw [List.any_map]
  exact congrArg nodes.any (funext ignores)

theorem named_bare (name : Name) (node : Node) :
    node.bare.named name = (node.named name).map bare := by
  rw [named, elements_bare, filter_bare (isNamed_bare name)]
  rfl

theorem child?_bare (name : Name) (node : Node) :
    node.bare.child? name = (node.child? name).map bare := by
  rw [child?, children_bare, find?_bare (isNamed_bare name)]
  rfl

theorem childrenNamed_bare (name : Name) (node : Node) :
    node.bare.childrenNamed name = (node.childrenNamed name).map bare := by
  rw [childrenNamed, children_bare, filter_bare (isNamed_bare name)]
  rfl

end Below

/-! ### What is rebuilt -/

section Rebuilt

variable {p : Node → Bool}

theorem bare_prune (ignores : ∀ x : Node, p x.bare = p x) (node : Node) :
    (node.prune p).bare = node.bare.prune p := by
  induction node using Node.induction with
  | element name lineage traits children ih =>
    have kept : (children.map bare).filter (!p ·) = (children.filter (!p ·)).map bare :=
      filter_bare (fun x => by rw [ignores]) children
    rw [prune, bare_element, bare_element, prune, pruneAll_eq, pruneAll_eq, kept, List.map_map,
      List.map_map]
    exact congrArg _ (List.map_congr_left fun child member =>
      ih child (List.mem_filter.mp member).1)
  | aside content tail => rfl

theorem bare_replaceFirst (ignores : ∀ x : Node, p x.bare = p x) (new : Node) (nodes : List Node) :
    (replaceFirst p new nodes).map bare = replaceFirst p new.bare (nodes.map bare) := by
  induction nodes with
  | nil => rfl
  | cons first rest ih =>
    rw [replaceFirst, List.map_cons, replaceFirst, ignores]
    split
    · rfl
    · rw [List.map_cons, ih]

theorem bare_replaceChild (node : Node) (name : Name) (new : Node) :
    (node.replaceChild name new).bare = node.bare.replaceChild name new.bare := by
  rw [replaceChild, bare_withChildren, bare_replaceFirst (isNamed_bare name), replaceChild,
    children_bare]

theorem bare_removeChildren (ignores : ∀ x : Node, p x.bare = p x) (node : Node) :
    (node.removeChildren p).bare = node.bare.removeChildren p := by
  rw [removeChildren, bare_withChildren, removeChildren, children_bare,
    filter_bare (p := (!p ·)) fun x => by rw [ignores]]

theorem bare_append (node child : Node) : (node.append child).bare = node.bare.append child.bare := by
  rw [append, bare_withChildren, append, children_bare, List.map_append]
  rfl

theorem bare_setText (content : String) (node : Node) :
    (node.setText content).bare = node.bare.setText content := by
  cases node with
  | element name lineage traits children => rw [setText, bare_element, bare_element]; rfl
  | aside content tail => rfl

/-- Rebuilding the elements of a name, in a way that does not read lineages either. -/
theorem bare_mapNamed {f g : Node → Node} (commutes : ∀ x : Node, (f x).bare = g x.bare)
    (node : Node) : (node.mapNamed name f).bare = node.bare.mapNamed name g := by
  induction node using Node.induction with
  | element own lineage traits children ih =>
    have below : (children.map (mapNamed name f)).map bare =
        (children.map bare).map (mapNamed name g) := by
      rw [List.map_map, List.map_map]
      exact List.map_congr_left ih
    rw [mapNamed_element, bare_element, mapNamed_element, ← below]
    split
    · rw [commutes, bare_element]
    · rw [bare_element]
  | aside content tail => rfl

mutual

theorem keepFirst_bare (name : Name) (seen : Bool) : (node : Node) →
    node.bare.keepFirst name seen =
      ((node.keepFirst name seen).1.bare, (node.keepFirst name seen).2)
  | .element own lineage traits children => by
    rw [bare_element, keepFirst, keepFirst, keepFirstOf_bare name seen children]
    simp only [bare_element]
  | .aside _ _ => rfl

theorem keepFirstOf_bare (name : Name) (seen : Bool) : (nodes : List Node) →
    keepFirstOf name seen (nodes.map bare) =
      ((keepFirstOf name seen nodes).1.map bare, (keepFirstOf name seen nodes).2)
  | [] => rfl
  | node :: rest => by
    rw [List.map_cons, keepFirstOf, keepFirstOf, isNamed_bare]
    split
    · exact keepFirstOf_bare name seen rest
    · rw [keepFirst_bare name _ node]
      simp only
      rw [keepFirstOf_bare name _ rest]
      rfl

end

mutual

theorem updateFirst?_bare {f : Node → Node} (commutes : ∀ x : Node, (f x).bare = f x.bare) :
    (node : Node) → node.bare.updateFirst? name f = (node.updateFirst? name f).map bare
  | .element own lineage traits children => by
    rw [bare_element, updateFirst?, updateFirst?]
    split
    · rw [Option.map_some, commutes, bare_element]
    · rw [updateFirstOf?_bare commutes children, Option.map_map, Option.map_map]
      exact congrArg (Option.map · _) (funext fun inside => (bare_element _ _ _ _).symm)
  | .aside _ _ => rfl

theorem updateFirstOf?_bare {f : Node → Node} (commutes : ∀ x : Node, (f x).bare = f x.bare) :
    (nodes : List Node) →
      updateFirstOf? name f (nodes.map bare) = (updateFirstOf? name f nodes).map (List.map bare)
  | [] => rfl
  | node :: rest => by
    rw [List.map_cons, updateFirstOf?, updateFirstOf?, updateFirst?_bare commutes node]
    cases node.updateFirst? name f with
    | some updated => rfl
    | none =>
      rw [Option.map_none]
      simp only
      rw [updateFirstOf?_bare commutes rest, Option.map_map, Option.map_map]
      rfl

end

end Rebuilt

end TemplateFill.Xml.Node

namespace TemplateFill.Control

open Xml

mutual

/-- Numbering controls only gives lineages. -/
theorem bare_enroll (next : Nat) : (node : Node) → (enroll next node).1.bare = node.bare
  | .element name lineage traits children => by
    rw [enroll]
    split
    · rw [Node.bare_element, Node.bare_element, bare_enrollAll (next + 1) children]
    · rw [Node.bare_element, Node.bare_element, bare_enrollAll next children]
  | .aside _ _ => rfl

theorem bare_enrollAll (next : Nat) : (nodes : List Node) →
    (enrollAll next nodes).1.map Node.bare = nodes.map Node.bare
  | [] => rfl
  | node :: rest => by
    rw [enrollAll, List.map_cons, List.map_cons, bare_enroll next node, bare_enrollAll _ rest]

end

end TemplateFill.Control
