import Mathlib.Logic.Basic
import TemplateFill.Proofs.Xml.Rebuilding
import TemplateFill.Walk.Progress

/-!
# Paragraphs in paragraphs

A paragraph must not stand inside another one, unless an element that holds paragraphs stands
between them. This is said of a whole tree, and again of a node at the place where it stands;
the second way only looks at one element at a time.
-/

namespace TemplateFill.Walk

open Xml

/-- Something stands below a node, and nothing that holds paragraphs stands between them. -/
inductive StandsIn (x : Node) : Node → Prop
  | child {node} (member : x ∈ node.children) : StandsIn x node
  | deeper {node between} (member : between ∈ node.children)
      (isOpen : ∀ name ∈ Place.blockContainers, ¬ between.isNamed name)
      (below : StandsIn x between) : StandsIn x node

/-- No paragraph of a tree stands in another one. -/
def ParagraphsApart (root : Node) : Prop :=
  ∀ paragraph ∈ root.elements, paragraph.isNamed Word.paragraph →
    ∀ x, StandsIn x paragraph → ¬ x.isNamed Word.paragraph

mutual

/-- A node may stand at a place: there is no paragraph in a paragraph then. -/
def Place.Admits (place : Place) : Node → Prop
  | .element name _ _ children =>
    ¬(place.inParagraph ∧ name = Word.paragraph) ∧ (place.enter name).AdmitsAll children
  | _ => True

def Place.AdmitsAll (place : Place) : List Node → Prop
  | [] => True
  | node :: rest => place.Admits node ∧ place.AdmitsAll rest

end

mutual

/-- To see whether a node may stand at a place, each element is looked at once. -/
def Place.decideAdmits (place : Place) : (node : Node) → Decidable (place.Admits node)
  | .element name _ _ children =>
    have := (place.enter name).decideAdmitsAll children
    inferInstanceAs (Decidable (¬(place.inParagraph ∧ name = Word.paragraph) ∧ _))
  | .aside _ _ => .isTrue trivial

def Place.decideAdmitsAll (place : Place) : (nodes : List Node) → Decidable (place.AdmitsAll nodes)
  | [] => .isTrue trivial
  | node :: rest =>
    have := place.decideAdmits node
    have := place.decideAdmitsAll rest
    inferInstanceAs (Decidable (_ ∧ _))

end

instance (place : Place) (nodes : List Node) : Decidable (place.AdmitsAll nodes) :=
  place.decideAdmitsAll nodes

namespace Place

variable {place : Place} {node : Node} {nodes : List Node}

theorem admitsAll_iff : place.AdmitsAll nodes ↔ ∀ node ∈ nodes, place.Admits node := by
  induction nodes with
  | nil => simp [AdmitsAll]
  | cons first rest ih => simp [AdmitsAll, ih]

theorem admitsAll_append {others : List Node} :
    place.AdmitsAll (nodes ++ others) ↔ place.AdmitsAll nodes ∧ place.AdmitsAll others := by
  simp only [admitsAll_iff, List.forall_mem_append]

theorem AdmitsAll.subset {others : List Node} (h : place.AdmitsAll nodes)
    (fewer : others ⊆ nodes) : place.AdmitsAll others :=
  admitsAll_iff.mpr fun node member => admitsAll_iff.mp h node (fewer member)

theorem admits_leaf (leaf : node.name? = none) : place.Admits node := by
  cases node with
  | element => cases leaf
  | aside content tail => trivial

end Place

/-! ### The two ways agree -/

/-- Nothing that stands in a node is a paragraph. -/
def HoldsNoParagraph (node : Node) : Prop := ∀ x, StandsIn x node → ¬ x.isNamed Word.paragraph

/-- What a place asks of a node in a paragraph: neither the node itself is a paragraph nor, if
nothing hides it, what stands in it. -/
def Place.IsFree (place : Place) (node : Node) : Prop :=
  place.inParagraph → ¬ node.isNamed Word.paragraph ∧
    ((∀ name ∈ Place.blockContainers, ¬ node.isNamed name) → HoldsNoParagraph node)

theorem inParagraph_enter {place : Place} {name : Name} : (place.enter name).inParagraph ↔
    name = Word.paragraph ∨ (place.inParagraph ∧ name ∉ Place.blockContainers) := by
  by_cases paragraph : name = Word.paragraph
  · simp [Place.enter, paragraph]
  · by_cases container : name ∈ Place.blockContainers
    · simp [Place.enter, paragraph, container]
    · simp [Place.enter, paragraph, container]

theorem holdsNoParagraph_iff {node : Node} : HoldsNoParagraph node ↔
    ∀ child ∈ node.children, ¬ child.isNamed Word.paragraph ∧
      ((∀ name ∈ Place.blockContainers, ¬ child.isNamed name) → HoldsNoParagraph child) := by
  constructor
  · intro none child member
    exact ⟨none child (.child member), fun isOpen x below => none x (.deeper member isOpen below)⟩
  · intro each x stands
    cases stands with
    | child member => exact (each x member).1
    | deeper member isOpen below => exact (each _ member).2 isOpen x below

theorem isFree_children_iff (place : Place) (node : Node) :
    (∀ child ∈ node.children, place.IsFree child) ↔
      (place.inParagraph → HoldsNoParagraph node) := by
  rw [holdsNoParagraph_iff]
  exact ⟨fun each inside child member => each child member inside,
    fun all child member inside => all inside child member⟩

theorem paragraphsApart_element {name : Name} {lineage : Lineage} {traits : Traits}
    {children : List Node} : ParagraphsApart (.element name lineage traits children) ↔
      (name = Word.paragraph → HoldsNoParagraph (.element name lineage traits children)) ∧
        ∀ child ∈ children, ParagraphsApart child := by
  constructor
  · intro apart
    refine ⟨fun isParagraph => apart _ List.mem_cons_self ?_, fun child member x inside => ?_⟩
    · rw [isParagraph]
      rfl
    · exact apart x (List.mem_cons_of_mem _ (Node.mem_elementsOf member inside))
  · rintro ⟨here, below⟩ x member named
    rcases Node.mem_elements_element.mp member with rfl | inside
    · exact here (Option.some.inj (Node.isNamed_iff.mp named))
    · obtain ⟨child, among, within⟩ := Node.mem_elementsOf_iff.mp inside
      exact below child among x within named

theorem not_standsIn_leaf {node x : Node} (leaf : node.children = []) : ¬ StandsIn x node := by
  intro stands
  cases stands with
  | child member => simp [leaf] at member
  | deeper member => simp [leaf] at member

theorem admits_iff_leaf {place : Place} {node : Node} (leaf : node.name? = none) :
    place.Admits node ↔ place.IsFree node ∧ ParagraphsApart node := by
  have unnamed (name : Name) : ¬ node.isNamed name := by simp [Node.isNamed, leaf]
  refine iff_of_true (Place.admits_leaf leaf) ⟨fun _ => ⟨unnamed _, fun _ x stands => ?_⟩, ?_⟩
  · exact absurd stands (not_standsIn_leaf (Node.children_of_leaf leaf))
  · intro x member
    rw [Node.elements_of_leaf leaf] at member
    cases member

/-- A node may stand at a place if its own paragraphs are apart and the place is free for it. -/
theorem admits_iff (node : Node) : ∀ place : Place,
    place.Admits node ↔ place.IsFree node ∧ ParagraphsApart node := by
  induction node using Node.induction with
  | element name lineage traits children ih =>
    intro place
    have named {other : Name} : (Node.element name lineage traits children).isNamed other ↔
        name = other := by
      rw [Node.isNamed_iff]
      exact Option.some_inj
    have below : (place.enter name).AdmitsAll children ↔
        (∀ child ∈ children, (place.enter name).IsFree child) ∧
          ∀ child ∈ children, ParagraphsApart child := by
      rw [Place.admitsAll_iff, ← forall₂_and]
      exact forall₂_congr fun child member => ih child member _
    have inside := isFree_children_iff (place.enter name) (.element name lineage traits children)
    rw [Place.Admits, below, paragraphsApart_element]
    simp only [Node.children, inParagraph_enter] at inside
    rw [inside, Place.IsFree]
    simp only [named]
    have container : (∀ other ∈ Place.blockContainers, ¬ name = other) ↔
        name ∉ Place.blockContainers := by
      exact ⟨fun none member => none name member rfl, fun none _ member same => none (same ▸ member)⟩
    rw [container]
    grind
  | aside content tail => exact fun place => admits_iff_leaf rfl

/-- The paragraphs of a tree are apart if its content may stand in its root. -/
theorem paragraphsApart_iff (root : Node) :
    ParagraphsApart root ↔ (Place.ofRoot root).AdmitsAll root.children := by
  have free : Place.outside.IsFree root := fun inside => nomatch inside
  have whole := admits_iff root Place.outside
  rw [and_iff_right free] at whole
  rw [← whole]
  cases root with
  | element name lineage traits children => simp [Place.Admits, Place.ofRoot, Node.name?,
      Node.children, Place.outside]
  | aside content tail => exact iff_of_true trivial trivial

instance (root : Node) : Decidable (ParagraphsApart root) :=
  decidable_of_iff _ (paragraphsApart_iff root).symm

end TemplateFill.Walk
