import TemplateFill.Numbering.Merge
import TemplateFill.Proofs.Number.Numeral
import TemplateFill.Proofs.Traversal
import TemplateFill.Proofs.Xml.Elements

/-!
# Written definitions

What a definition looks like if it could be written: its id is the numeral of its number, an
instance refers to the numeral of its abstract list, and an abstract list declares its levels one
by one and has its format on every one of them.
-/

namespace TemplateFill.Numbering

open Xml
open Number (writeNumeral_eq_ok)

/-- The elements of a name among and below some nodes that have an attribute of a name, by its
values. -/
def idsIn (element id : Name) (nodes : List Node) : List String :=
  ((Node.elementsOf nodes).filter (·.isNamed element)).filterMap (·.attribute? id)

def levelFormats (definition : Node) : List String :=
  (definition.named (.word "numFmt")).filterMap (·.attribute? Word.value)

def levelNumbers (definition : Node) : List String :=
  (definition.childrenNamed (.word "lvl")).filterMap (·.attribute? Word.listLevel)

/-- The ids of abstract lists that an instance refers to. -/
def references (listInstance : Node) : List String :=
  (listInstance.childrenNamed Word.abstractListId).filterMap (·.attribute? Word.value)

/-- A level has its number, says its format and defines nothing itself. -/
theorem levelNode_eq_ok {format : Format} {level : Nat} {node : Node}
    (written : levelNode format level = .ok node) :
    node.isNamed (.word "lvl") ∧ node.attribute? Word.listLevel = some (toString level) ∧
      (node.named (.word "numFmt")).filterMap (·.attribute? Word.value) = [format.name] ∧
      node.elements.filter (·.isNamed Word.abstractList) = [] ∧
      node.elements.filter (·.isNamed Word.listInstance) = [] := by
  obtain ⟨text, -, written⟩ := bind_eq_ok written
  cases written
  exact ⟨rfl, rfl, rfl, rfl, rfl⟩

/-- An element stands for an abstract list. -/
structure AbstractList.IsWrittenAs (list : AbstractList) (node : Node) : Prop where
  named : node.isNamed Word.abstractList
  id : node.attribute? Word.abstractListId = some (toString list.id)
  formats : levelFormats node = List.replicate levelCount list.format.name
  levels : levelNumbers node = (List.range levelCount).map toString
  abstractIds : idsIn Word.abstractList Word.abstractListId [node] = [toString list.id]
  instanceIds : idsIn Word.listInstance Word.listInstanceId [node] = []

theorem filter_elementsOf_eq_nil {name : Name} {nodes : List Node}
    (absent : ∀ node ∈ nodes, node.elements.filter (·.isNamed name) = []) :
    (Node.elementsOf nodes).filter (·.isNamed name) = [] := by
  rw [Node.elementsOf_eq_flatMap, List.filter_flatMap, List.flatMap_eq_nil_iff]
  exact absent

/-- Nine levels say the format nine times. -/
theorem formats_of_levels {format : Format} {numbers : List Nat} {levels : List Node}
    (made : numbers.mapM (levelNode format) = .ok levels) :
    ((Node.elementsOf levels).filter (·.isNamed (.word "numFmt"))).filterMap
        (·.attribute? Word.value) =
      List.replicate numbers.length format.name := by
  have each := forall₂_of_mapM made
  clear made
  induction each with
  | nil => rfl
  | cons isLevel _ ih =>
    rw [Node.elementsOf, List.filter_append, List.filterMap_append, ih, List.length_cons,
      List.replicate_succ]
    exact congrArg (· ++ _) (levelNode_eq_ok isLevel).2.2.1

/-- Levels are numbered one by one. -/
theorem numbers_of_levels {format : Format} {numbers : List Nat} {levels : List Node}
    (made : numbers.mapM (levelNode format) = .ok levels) :
    (levels.filter (·.isNamed (.word "lvl"))).filterMap (·.attribute? Word.listLevel) =
      numbers.map toString := by
  have each := forall₂_of_mapM made
  clear made
  induction each with
  | nil => rfl
  | cons isLevel _ ih =>
    obtain ⟨named, number, -⟩ := levelNode_eq_ok isLevel
    rw [List.filter_cons_of_pos named, List.filterMap_cons_some number, ih, List.map_cons]

theorem AbstractList.isWrittenAs_of_toNode {list : AbstractList} {node : Node}
    (written : list.toNode = .ok node) : list.IsWrittenAs node := by
  obtain ⟨text, isId, written⟩ := bind_eq_ok written
  obtain ⟨levels, made, written⟩ := bind_eq_ok written
  cases written
  obtain ⟨rfl, -⟩ := writeNumeral_eq_ok isId
  have each (level : Node) (member : level ∈ levels) :
      level.elements.filter (·.isNamed Word.abstractList) = [] ∧
        level.elements.filter (·.isNamed Word.listInstance) = [] := by
    obtain ⟨number, -, isLevel⟩ := exists_left_of_mem (forall₂_of_mapM made) member
    exact (levelNode_eq_ok isLevel).2.2.2
  have noAbstract := filter_elementsOf_eq_nil fun level member => (each level member).1
  have noInstance := filter_elementsOf_eq_nil fun level member => (each level member).2
  refine ⟨rfl, rfl, formats_of_levels made, numbers_of_levels made, ?_, ?_⟩
  · change (List.filter _ (_ :: (Node.elementsOf levels ++ []))).filterMap _ = _
    rw [List.append_nil, List.filter_cons_of_pos rfl, noAbstract]
    rfl
  · change (List.filter _ (_ :: (Node.elementsOf levels ++ []))).filterMap _ = _
    rw [List.append_nil, List.filter_cons_of_neg (by simp [Node.isNamed, Node.name?]), noInstance]
    rfl

structure ListInstance.IsWrittenAs (list : ListInstance) (node : Node) : Prop where
  named : node.isNamed Word.listInstance
  id : node.attribute? Word.listInstanceId = some (toString list.id)
  reference : references node = [toString list.abstractId]
  abstractIds : idsIn Word.abstractList Word.abstractListId [node] = []
  instanceIds : idsIn Word.listInstance Word.listInstanceId [node] = [toString list.id]

theorem ListInstance.isWrittenAs_of_toNode {list : ListInstance} {node : Node}
    (written : list.toNode = .ok node) : list.IsWrittenAs node := by
  obtain ⟨text, isId, written⟩ := bind_eq_ok written
  obtain ⟨setting, isSetting, written⟩ := bind_eq_ok written
  obtain ⟨abstractText, isReference, rfl⟩ := map_eq_ok isSetting
  cases written
  obtain ⟨rfl, -⟩ := writeNumeral_eq_ok isId
  obtain ⟨rfl, -⟩ := writeNumeral_eq_ok isReference
  exact ⟨rfl, rfl, rfl, rfl, rfl⟩

end TemplateFill.Numbering
