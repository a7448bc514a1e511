import Mathlib.Data.List.Find
import TemplateFill.Proofs.Xml.Overwriting
import TemplateFill.Word.Highlight

/-!
# What highlighting does to a run

The properties of a run are painted: they get a mark for bold and one for the color in their places.
All of it goes by the names of the children, so that painting can be swapped with whatever keeps
names, and what is read off the other children, in order, is the same as before.
-/

namespace TemplateFill.Word

open Xml

variable {hue : String} {nodes front : List Node} {node x : Node} {name : Name}

/-! ### Placing a property -/

def place (base : String) (new : Node) (nodes : List Node) : List Node :=
  match (successors base).find? fun later => (nodes.find? (·.isNamed (.word later))).isSome with
  | some later => insertBefore (.word later) new nodes
  | none => nodes ++ [new]

theorem insertProperty_eq (base : String) (new properties : Node) :
    insertProperty base new properties =
      properties.withChildren (place base new properties.children) := by
  unfold insertProperty place Node.child?
  cases (successors base).find? fun later =>
    (properties.children.find? (·.isNamed (.word later))).isSome with
  | none => rfl
  | some later => rfl

theorem exists_insertBefore (new : Node) : (∃ x ∈ nodes, x.isNamed name) →
    ∃ front rest, nodes = front ++ rest ∧ insertBefore name new nodes = front ++ new :: rest := by
  induction nodes with
  | nil => exact fun ⟨_, member, _⟩ => absurd member List.not_mem_nil
  | cons item rest ih =>
    rintro ⟨x, member, named⟩
    by_cases here : item.isNamed name
    · exact ⟨[], item :: rest, rfl, if_pos here⟩
    · have later : x ∈ rest := by
        rcases List.mem_cons.mp member with rfl | later
        · exact absurd named here
        · exact later
      obtain ⟨front, others, rfl, isPlaced⟩ := ih ⟨x, later, named⟩
      refine ⟨item :: front, others, rfl, ?_⟩
      rw [insertBefore, if_neg here, isPlaced]
      rfl

/-- A property that is placed stands between the others, wherever that is. -/
theorem exists_place (base : String) (new : Node) (nodes : List Node) :
    ∃ front rest, nodes = front ++ rest ∧ place base new nodes = front ++ new :: rest := by
  unfold place
  split
  · rename_i later found
    have isThere : (nodes.find? (·.isNamed (.word later))).isSome :=
      List.find?_some (p := fun later => (nodes.find? (·.isNamed (.word later))).isSome) found
    obtain ⟨x, isFirst⟩ := Option.isSome_iff_exists.mp isThere
    have member := List.mem_of_find?_eq_some isFirst
    have named := List.find?_some isFirst
    exact exists_insertBefore new ⟨x, member, named⟩
  · exact ⟨nodes, [], (List.append_nil nodes).symm, rfl⟩

theorem flatMap_place {β : Type} (g : Node → List β) {new : Node} (nothing : g new = [])
    (base : String) (nodes : List Node) : (place base new nodes).flatMap g = nodes.flatMap g := by
  obtain ⟨front, rest, rfl, isPlaced⟩ := exists_place base new nodes
  rw [isPlaced, List.flatMap_append, List.flatMap_append, List.flatMap_cons, nothing, List.nil_append]

theorem filter_place {p : Node → Bool} {new : Node} (other : p new = false) (base : String)
    (nodes : List Node) : (place base new nodes).filter p = nodes.filter p := by
  obtain ⟨front, rest, rfl, isPlaced⟩ := exists_place base new nodes
  rw [isPlaced, List.filter_append, List.filter_append, List.filter_cons_of_neg (by simp [other])]

theorem mem_place {base : String} {new : Node} (member : x ∈ place base new nodes) :
    x = new ∨ x ∈ nodes := by
  obtain ⟨front, rest, rfl, isPlaced⟩ := exists_place base new nodes
  rw [isPlaced, List.mem_append, List.mem_cons] at member
  rw [List.mem_append]
  tauto

/-! ### Painting -/

/-- Properties with a mark for bold that is on. -/
def boldened (nodes : List Node) : List Node :=
  match nodes.find? (·.isNamed boldMark) with
  | some mark => Node.replaceFirst (·.isNamed boldMark) (switchOn mark) nodes
  | none => place "b" (.plain boldMark [] []) nodes

def colored (hue : String) (nodes : List Node) : List Node :=
  place "color" (makeSetting colorMark hue) (nodes.filter (!·.isNamed colorMark))

def painted (hue : String) (nodes : List Node) : List Node := colored hue (boldened nodes)

def paint (hue : String) (properties : Node) : Node :=
  properties.withChildren (painted hue properties.children)

theorem embolden_eq (properties : Node) :
    embolden properties = properties.withChildren (boldened properties.children) := by
  unfold embolden boldened Node.child?
  cases properties.children.find? (·.isNamed boldMark) with
  | none => exact insertProperty_eq _ _ _
  | some mark => rfl

theorem paint_eq (hue : String) (properties : Node) :
    paint hue properties = recolor hue (embolden properties) := by
  rw [embolden_eq, recolor, insertProperty_eq]
  cases properties <;> rfl

theorem replaceFirst_append {p : Node → Bool} (misses : ∀ y ∈ front, p y = false) (fits : p x)
    (new : Node) (rest : List Node) :
    Node.replaceFirst p new (front ++ x :: rest) = front ++ new :: rest := by
  induction front with
  | nil => exact if_pos fits
  | cons first others ih =>
    rw [List.forall_mem_cons] at misses
    rw [List.cons_append, Node.replaceFirst, if_neg (by simp [misses.1]), ih misses.2]
    rfl

theorem find?_of_first (misses : ∀ y ∈ front, y.isNamed name = false) (named : x.isNamed name)
    (rest : List Node) : (front ++ x :: rest).find? (·.isNamed name) = some x :=
  List.find?_eq_some_iff_append.mpr ⟨named, front, rest, rfl, by simpa using misses⟩

theorem boldened_of_first (misses : ∀ y ∈ front, y.isNamed boldMark = false)
    (named : x.isNamed boldMark) (rest : List Node) :
    boldened (front ++ x :: rest) = front ++ switchOn x :: rest := by
  rw [boldened, find?_of_first misses named]
  exact replaceFirst_append misses named _ _

theorem boldened_of_none (misses : ∀ y ∈ nodes, y.isNamed boldMark = false) :
    boldened nodes = place "b" (.plain boldMark [] []) nodes := by
  have found : nodes.find? (·.isNamed boldMark) = none := by simpa using misses
  rw [boldened, found]

/-- Nodes either have a first one of a name, or none. -/
theorem first_or_none (name : Name) (nodes : List Node) :
    (∃ front first rest, nodes = front ++ first :: rest ∧ first.isNamed name ∧
      ∀ y ∈ front, y.isNamed name = false) ∨ ∀ y ∈ nodes, y.isNamed name = false := by
  cases found : nodes.find? (·.isNamed name) with
  | none => exact .inr (by simpa using found)
  | some first =>
    obtain ⟨named, front, rest, rfl, misses⟩ := List.find?_eq_some_iff_append.mp found
    exact .inl ⟨front, first, rest, rfl, named, by simpa using misses⟩

@[simp] theorem name?_switchOn (node : Node) : (switchOn node).name? = node.name? := by
  cases node <;> rfl

theorem mem_boldened (member : x ∈ boldened nodes) : x = .plain boldMark [] [] ∨ x ∈ nodes ∨
    ∃ mark ∈ nodes, mark.isNamed boldMark ∧ x = switchOn mark := by
  rcases first_or_none boldMark nodes with ⟨front, mark, rest, rfl, named, first⟩ | none
  · rw [boldened_of_first first named, List.mem_append, List.mem_cons] at member
    rcases member with before | rfl | later
    · exact .inr (.inl (List.mem_append_left _ before))
    · exact .inr (.inr ⟨mark, List.mem_append_right _ List.mem_cons_self, named, rfl⟩)
    · exact .inr (.inl (List.mem_append_right _ (List.mem_cons_of_mem _ later)))
  · rw [boldened_of_none none] at member
    exact (mem_place member).imp_right .inl

/-- What is painted is bold or the color, or it was there. -/
theorem mem_painted (member : x ∈ painted hue nodes) :
    x = makeSetting colorMark hue ∨ x = .plain boldMark [] [] ∨ x ∈ nodes ∨
      ∃ mark ∈ nodes, mark.isNamed boldMark ∧ x = switchOn mark := by
  rcases mem_place member with isColor | among
  · exact .inl isColor
  · exact .inr (mem_boldened (List.mem_filter.mp among).1)

theorem flatMap_boldened {β : Type} (g : Node → List β) (noMark : g (.plain boldMark [] []) = [])
    (switched : ∀ mark ∈ nodes, mark.isNamed boldMark → g (switchOn mark) = g mark) :
    (boldened nodes).flatMap g = nodes.flatMap g := by
  rcases first_or_none boldMark nodes with ⟨front, mark, rest, rfl, named, first⟩ | none
  · have same := switched mark (List.mem_append_right _ List.mem_cons_self) named
    rw [boldened_of_first first named, List.flatMap_append, List.flatMap_append, List.flatMap_cons,
      List.flatMap_cons, same]
  · rw [boldened_of_none none, flatMap_place g noMark]

/-- Painting is seen by nothing that passes over the marks it puts in, the colors it takes out, and
the switch of the mark for bold. -/
theorem flatMap_painted {β : Type} (g : Node → List β) (noMark : g (.plain boldMark [] []) = [])
    (noColor : g (makeSetting colorMark hue) = [])
    (switched : ∀ mark ∈ nodes, mark.isNamed boldMark → g (switchOn mark) = g mark)
    (colors : ∀ x ∈ nodes, x.isNamed colorMark → g x = []) :
    (painted hue nodes).flatMap g = nodes.flatMap g := by
  rw [painted, colored, flatMap_place g noColor, ← flatMap_boldened g noMark switched]
  refine Node.flatMap_filter fun x member dropped => ?_
  have isColor : x.isNamed colorMark := by simpa using dropped
  rcases mem_boldened member with rfl | among | ⟨mark, among, named, rfl⟩
  · exact noMark
  · exact colors x among isColor
  · rw [Node.isNamed, name?_switchOn, ← Node.isNamed] at isColor
    exact absurd (Node.eq_of_isNamed named isColor) (by decide)

/-! ### Rebuilding

A rebuilding that keeps names can be swapped with painting, even if it puts nodes beside others.
-/

variable {φ : Node → Node} {before after : Node → List Node}

theorem isNamed_of_name (names : ∀ x, (φ x).name? = x.name?) (name : Name) (x : Node) :
    (φ x).isNamed name = x.isNamed name := by
  rw [Node.isNamed, names, Node.isNamed]

theorem find?_map_isNamed (names : ∀ x, (φ x).name? = x.name?) (name : Name) (nodes : List Node) :
    (nodes.map φ).find? (·.isNamed name) = (nodes.find? (·.isNamed name)).map φ := by
  rw [List.find?_map]
  congr 1
  congr 1
  exact funext (isNamed_of_name names name)

/-- What is left in the place of a node, between the nodes that are put beside it. -/
def around (before after : Node → List Node) (φ : Node → Node) (x : Node) : List Node :=
  before x ++ φ x :: after x

theorem flatMap_around_nil (φ : Node → Node) (nodes : List Node) :
    nodes.flatMap (around (fun _ => []) (fun _ => []) φ) = nodes.map φ :=
  List.map_eq_flatMap.symm

/-- The names that highlighting looks for. -/
def kinds : List Name := runProperties :: propertyOrder.map .word

/-- What a rebuilding does not disturb: the names that highlighting looks for, what it puts in, and the
switch for bold. -/
structure Rebuilds (before after : Node → List Node) (φ : Node → Node) : Prop where
  name : ∀ x, (φ x).name? = x.name?
  leaf : ∀ x, x.name? = none → φ x = x
  beside : ∀ x, ∀ y ∈ before x ++ after x, ∀ own ∈ kinds, y.isNamed own = false
  mark : around before after φ (.plain boldMark [] []) = [.plain boldMark [] []]
  color : ∀ hue, around before after φ (makeSetting colorMark hue) = [makeSetting colorMark hue]
  switch : ∀ mark, mark.isNamed boldMark → before (switchOn mark) = before mark ∧
    after (switchOn mark) = after mark ∧ φ (switchOn mark) = switchOn (φ mark)

/-- Properties that highlighting may take out, or put something in front of. -/
def isDisplaced (x : Node) : Bool := (successors "b").any fun later => x.isNamed (.word later)

theorem isDisplaced_of_color (isColor : x.isNamed colorMark) : isDisplaced x :=
  List.any_eq_true.mpr ⟨"color", by decide, isColor⟩

namespace Rebuilds

theorem misses_beside (keeps : Rebuilds before after φ) (isKind : name ∈ kinds) (x : Node) :
    (∀ y ∈ before x, y.isNamed name = false) ∧ ∀ y ∈ after x, y.isNamed name = false :=
  ⟨fun y member => keeps.beside x y (List.mem_append_left _ member) name isKind,
    fun y member => keeps.beside x y (List.mem_append_right _ member) name isKind⟩

theorem misses_around (keeps : Rebuilds before after φ) (isKind : name ∈ kinds)
    (other : x.isNamed name = false) : ∀ y ∈ around before after φ x, y.isNamed name = false := by
  intro y isIn
  rw [around, List.mem_append, List.mem_cons] at isIn
  rcases isIn with inFront | rfl | behind
  · exact (keeps.misses_beside isKind x).1 y inFront
  · rw [isNamed_of_name keeps.name, other]
  · exact (keeps.misses_beside isKind x).2 y behind

theorem misses (keeps : Rebuilds before after φ) (isKind : name ∈ kinds)
    (none : ∀ y ∈ nodes, y.isNamed name = false) :
    ∀ y ∈ nodes.flatMap (around before after φ), y.isNamed name = false := by
  intro y member
  obtain ⟨x, among, isIn⟩ := List.mem_flatMap.mp member
  exact keeps.misses_around isKind (none x among) y isIn

/-- The first node of a name is behind others that do not have it. -/
theorem misses_front (keeps : Rebuilds before after φ) (isKind : name ∈ kinds)
    (none : ∀ y ∈ front, y.isNamed name = false) (x : Node) :
    ∀ y ∈ front.flatMap (around before after φ) ++ before x, y.isNamed name = false := by
  intro y member
  rcases List.mem_append.mp member with inFront | isBefore
  · exact keeps.misses isKind none y inFront
  · exact (keeps.misses_beside isKind x).1 y isBefore

theorem split (before after : Node → List Node) (φ : Node → Node) (front rest : List Node) (x : Node) :
    (front ++ x :: rest).flatMap (around before after φ) =
      (front.flatMap (around before after φ) ++ before x) ++
        φ x :: (after x ++ rest.flatMap (around before after φ)) := by
  simp [around]

theorem find?_flatMap (keeps : Rebuilds before after φ) (isKind : name ∈ kinds) (nodes : List Node) :
    (nodes.flatMap (around before after φ)).find? (·.isNamed name) =
      (nodes.find? (·.isNamed name)).map φ := by
  rcases first_or_none name nodes with ⟨front, x, rest, rfl, named, first⟩ | none
  · have still : (φ x).isNamed name := by rwa [isNamed_of_name keeps.name]
    rw [split, find?_of_first (keeps.misses_front isKind first x) still, find?_of_first first named]
    rfl
  · have nothing : nodes.find? (·.isNamed name) = Option.none := by simpa using none
    have still := keeps.misses isKind none
    rw [nothing, Option.map_none, List.find?_eq_none]
    exact fun y member => ne_true_of_eq_false (still y member)

end Rebuilds

theorem insertBefore_append (misses : ∀ y ∈ front, y.isNamed name = false) (new : Node)
    (rest : List Node) : insertBefore name new (front ++ rest) = front ++ insertBefore name new rest := by
  induction front with
  | nil => rfl
  | cons first others ih =>
    rw [List.forall_mem_cons] at misses
    rw [List.cons_append, insertBefore, if_neg (by simp [misses.1]), ih misses.2]
    rfl

/-- A property finds the same place in rebuilt properties, if nothing is put beside one that it may be
placed in front of. -/
theorem place_flatMap (keeps : Rebuilds before after φ) {base : String} {new : Node}
    (stays : around before after φ new = [new])
    (areKinds : ∀ later ∈ successors base, .word later ∈ kinds)
    (alone : ∀ x ∈ nodes, ∀ later ∈ successors base, x.isNamed (.word later) →
      before x = [] ∧ after x = []) :
    place base new (nodes.flatMap (around before after φ)) =
      (place base new nodes).flatMap (around before after φ) := by
  have inserted {later : String} (isLater : later ∈ successors base) :
      insertBefore (.word later) new (nodes.flatMap (around before after φ)) =
        (insertBefore (.word later) new nodes).flatMap (around before after φ) := by
    have isKind := areKinds later isLater
    rcases first_or_none (.word later) nodes with ⟨front, x, rest, rfl, named, first⟩ | none
    · obtain ⟨noneBefore, noneAfter⟩ := alone x (List.mem_append_right _ List.mem_cons_self) later
        isLater named
      have still : (φ x).isNamed (.word later) := by rwa [isNamed_of_name keeps.name]
      rw [Rebuilds.split, insertBefore_append (keeps.misses_front isKind first x),
        insertBefore_append first, insertBefore, if_pos still, insertBefore, if_pos named,
        List.flatMap_append, List.flatMap_cons, List.flatMap_cons, stays, noneBefore, noneAfter,
        around, noneBefore, noneAfter]
      simp
    · have nowhere {others : List Node} (misses : ∀ y ∈ others, y.isNamed (.word later) = false) :
          insertBefore (.word later) new others = others := by
        have through := insertBefore_append misses new []
        rwa [List.append_nil, insertBefore, List.append_nil] at through
      rw [nowhere none, nowhere (keeps.misses isKind none)]
  have same : (successors base).find? (fun later =>
      ((nodes.flatMap (around before after φ)).find? (·.isNamed (.word later))).isSome) =
      (successors base).find? fun later => (nodes.find? (·.isNamed (.word later))).isSome := by
    refine List.find?_congr fun later isLater => ?_
    rw [keeps.find?_flatMap (areKinds later isLater), Option.isSome_map]
  unfold place
  rw [same]
  split
  · rename_i later found
    exact inserted (List.mem_of_find?_eq_some found)
  · rw [List.flatMap_append, List.flatMap_singleton, stays]

theorem boldened_flatMap (keeps : Rebuilds before after φ)
    (alone : ∀ x ∈ nodes, isDisplaced x → before x = [] ∧ after x = []) :
    boldened (nodes.flatMap (around before after φ)) =
      (boldened nodes).flatMap (around before after φ) := by
  have isKind : boldMark ∈ kinds := by decide
  rcases first_or_none boldMark nodes with ⟨front, mark, rest, rfl, named, first⟩ | none
  · have still : (φ mark).isNamed boldMark := by rwa [isNamed_of_name keeps.name]
    obtain ⟨sameBefore, sameAfter, switched⟩ := keeps.switch mark named
    rw [Rebuilds.split, boldened_of_first (keeps.misses_front isKind first mark) still,
      boldened_of_first first named, Rebuilds.split, sameBefore, sameAfter, switched]
  · rw [boldened_of_none none, boldened_of_none (keeps.misses isKind none)]
    refine place_flatMap keeps keeps.mark (by decide) fun x member later isLater named => ?_
    exact alone x member (List.any_eq_true.mpr ⟨later, isLater, named⟩)

theorem colored_flatMap (keeps : Rebuilds before after φ) (hue : String)
    (alone : ∀ x ∈ nodes, isDisplaced x → before x = [] ∧ after x = []) :
    colored hue (nodes.flatMap (around before after φ)) =
      (colored hue nodes).flatMap (around before after φ) := by
  have dropped : (nodes.flatMap (around before after φ)).filter (!·.isNamed colorMark) =
      (nodes.filter (!·.isNamed colorMark)).flatMap (around before after φ) := by
    rw [List.filter_flatMap, ← Node.flatMap_filter (q := (!·.isNamed colorMark))]
    · refine List.flatMap_congr fun x member => List.filter_eq_self.mpr fun y isIn => ?_
      have other : x.isNamed colorMark = false := by simpa using (List.mem_filter.mp member).2
      rw [keeps.misses_around (by decide) other y isIn]
      rfl
    · intro x member isDropped
      have isColor : x.isNamed colorMark := by simpa using isDropped
      obtain ⟨noneBefore, noneAfter⟩ := alone x member (isDisplaced_of_color isColor)
      have still : (φ x).isNamed colorMark := by rwa [isNamed_of_name keeps.name]
      rw [around, noneBefore, noneAfter, List.nil_append, List.filter_cons_of_neg (by simp [still])]
      rfl
  rw [colored, dropped, colored]
  refine place_flatMap keeps (keeps.color hue) (by decide) fun x member later isLater named => ?_
  have isAfter : later ∈ successors "b" := by
    have fewer : ∀ later ∈ successors "color", later ∈ successors "b" := by decide
    exact fewer later isLater
  exact alone x (List.mem_filter.mp member).1 (List.any_eq_true.mpr ⟨later, isAfter, named⟩)

/-- Painting and rebuilding can be swapped, if nothing is put beside a property that painting may take
out, or put something in front of. -/
theorem painted_flatMap (keeps : Rebuilds before after φ) (hue : String)
    (alone : ∀ x ∈ nodes, isDisplaced x → before x = [] ∧ after x = []) :
    painted hue (nodes.flatMap (around before after φ)) =
      (painted hue nodes).flatMap (around before after φ) := by
  rw [painted, boldened_flatMap keeps alone, colored_flatMap keeps hue]
  · rfl
  · intro x member displaced
    rcases mem_boldened member with rfl | among | ⟨mark, -, named, rfl⟩
    · exact absurd displaced (by decide)
    · exact alone x among displaced
    · obtain ⟨later, isLater, isNext⟩ := List.any_eq_true.mp displaced
      rw [Node.isNamed, name?_switchOn, ← Node.isNamed] at isNext
      have others : ∀ later ∈ successors "b", Name.word later ≠ boldMark := by decide
      exact absurd (Node.eq_of_isNamed isNext named) (others later isLater)

/-! ### What is painted -/

theorem switchOn_switchOn (node : Node) : switchOn (switchOn node) = switchOn node := by
  cases node with
  | element name lineage traits children =>
    simp [switchOn, Attributes.erase, Attributes.without]
  | aside content tail => rfl

theorem filter_of_misses (misses : ∀ y ∈ nodes, y.isNamed name = false) :
    nodes.filter (·.isNamed name) = [] :=
  List.filter_eq_nil_iff.mpr fun y member => ne_true_of_eq_false (misses y member)

/-- The first mark for bold is on. -/
theorem filter_boldened (nodes : List Node) :
    ∃ mark others, (boldened nodes).filter (·.isNamed boldMark) = mark :: others ∧
      switchOn mark = mark := by
  rcases first_or_none boldMark nodes with ⟨front, mark, rest, rfl, named, first⟩ | none
  · have still : (switchOn mark).isNamed boldMark := by
      rwa [Node.isNamed, name?_switchOn, ← Node.isNamed]
    refine ⟨switchOn mark, rest.filter (·.isNamed boldMark), ?_, switchOn_switchOn mark⟩
    rw [boldened_of_first first named, List.filter_append, filter_of_misses first, List.nil_append,
      List.filter_cons_of_pos still]
  · obtain ⟨front, rest, rfl, isPlaced⟩ := exists_place "b" (.plain boldMark [] []) nodes
    have nothing := filter_of_misses none
    rw [List.filter_append, List.append_eq_nil_iff] at nothing
    refine ⟨.plain boldMark [] [], [], ?_, rfl⟩
    rw [boldened_of_none none, isPlaced, List.filter_append, nothing.1, List.nil_append,
      List.filter_cons_of_pos rfl, nothing.2]

theorem boldened_of_filter {mark : Node} {others : List Node}
    (isFirst : nodes.filter (·.isNamed boldMark) = mark :: others) (isOn : switchOn mark = mark) :
    boldened nodes = nodes := by
  rcases first_or_none boldMark nodes with ⟨front, first, rest, rfl, named, misses⟩ | none
  · rw [List.filter_append, filter_of_misses misses, List.nil_append,
      List.filter_cons_of_pos named] at isFirst
    cases isFirst
    rw [boldened_of_first misses named, isOn]
  · rw [filter_of_misses none] at isFirst
    cases isFirst

/-- A color changes no other property. -/
theorem filter_colored (hue : String) (nodes : List Node) (other : name ≠ colorMark) :
    (colored hue nodes).filter (·.isNamed name) = nodes.filter (·.isNamed name) := by
  have misses : (makeSetting colorMark hue).isNamed name = false := by
    rw [Bool.eq_false_iff]
    exact fun named => other (Node.eq_of_isNamed named rfl)
  rw [colored, filter_place misses, List.filter_filter]
  refine List.filter_congr fun x _ => ?_
  cases named : x.isNamed name with
  | false => rfl
  | true => rw [Node.isNamed_apart other x named]; rfl

theorem colored_colored (hue : String) (nodes : List Node) :
    colored hue (colored hue nodes) = colored hue nodes := by
  have isColor : (!(makeSetting colorMark hue).isNamed colorMark) = false := rfl
  have again : (colored hue nodes).filter (!·.isNamed colorMark) =
      nodes.filter (!·.isNamed colorMark) := by
    rw [colored, filter_place isColor, List.filter_filter]
    simp only [Bool.and_self]
  rw [colored, again]
  rfl

/-- What is painted stays as it is when it is painted again. -/
theorem painted_painted (hue : String) (nodes : List Node) :
    painted hue (painted hue nodes) = painted hue nodes := by
  obtain ⟨mark, others, isFirst, isOn⟩ := filter_boldened nodes
  have still : boldened (painted hue nodes) = painted hue nodes :=
    boldened_of_filter ((filter_colored hue _ (by decide)).trans isFirst) isOn
  rw [painted, still, painted, colored_colored]

/-- Properties whose first mark for bold states nothing that may switch it off, and that have one
color. -/
structure IsPainted (hue : String) (nodes : List Node) : Prop where
  bold : ∃ mark others, nodes.filter (·.isNamed boldMark) = mark :: others ∧
    mark.attributes.stated.lookup value = none
  color : nodes.filter (·.isNamed colorMark) = [makeSetting colorMark hue]

theorem lookup_without (name : Name) (entries : List (Name × String)) :
    (Attributes.without name entries).lookup name = none := by
  rw [List.lookup_eq_none_iff]
  intro entry member
  rw [bne_comm]
  exact (List.mem_filter.mp member).2

theorem isPainted_painted (hue : String) (nodes : List Node) : IsPainted hue (painted hue nodes) where
  bold := by
    obtain ⟨mark, others, isFirst, isOn⟩ := filter_boldened nodes
    refine ⟨mark, others, (filter_colored hue _ (by decide)).trans isFirst, ?_⟩
    rw [← isOn]
    cases mark with
    | element => exact lookup_without value _
    | aside content tail => rfl
  color := by
    obtain ⟨front, rest, isWhole, isPlaced⟩ :=
      exists_place "color" (makeSetting colorMark hue) ((boldened nodes).filter (!·.isNamed colorMark))
    have nothing : (front ++ rest).filter (·.isNamed colorMark) = [] := by
      rw [← isWhole, List.filter_filter]
      simp
    rw [List.filter_append, List.append_eq_nil_iff] at nothing
    rw [painted, colored, isPlaced, List.filter_append, nothing.1, List.nil_append,
      List.filter_cons_of_pos rfl, nothing.2]

/-- It does not matter to painting what becomes of old colors. -/
theorem painted_map_congr {φ ψ : Node → Node}
    (left : Rebuilds (fun _ => []) (fun _ => []) φ) (right : Rebuilds (fun _ => []) (fun _ => []) ψ)
    (same : ∀ x, x.isNamed colorMark = false → φ x = ψ x) (hue : String) (nodes : List Node) :
    painted hue (nodes.map φ) = painted hue (nodes.map ψ) := by
  have swapped {φ : Node → Node} (keeps : Rebuilds (fun _ => []) (fun _ => []) φ) :
      painted hue (nodes.map φ) = (painted hue nodes).map φ := by
    have through := painted_flatMap keeps hue fun x (_ : x ∈ nodes) _ => ⟨rfl, rfl⟩
    rwa [flatMap_around_nil, flatMap_around_nil] at through
  rw [swapped left, swapped right]
  refine List.map_congr_left fun x member => ?_
  cases isColor : x.isNamed colorMark with
  | false => exact same x isColor
  | true =>
    have among : x ∈ (painted hue nodes).filter (·.isNamed colorMark) :=
      List.mem_filter.mpr ⟨member, isColor⟩
    rw [(isPainted_painted hue nodes).color] at among
    rw [List.mem_singleton.mp among]
    exact (List.singleton_inj.mp (left.color hue)).trans (List.singleton_inj.mp (right.color hue)).symm

/-- A rebuilding that passes over old colors. -/
theorem Rebuilds.pass {φ : Node → Node} (keeps : Rebuilds (fun _ => []) (fun _ => []) φ) :
    Rebuilds (fun _ => []) (fun _ => []) fun x => if x.isNamed colorMark then x else φ x where
  name x := by split <;> simp only [keeps.name]
  leaf x leaf := by split <;> simp only [keeps.leaf x leaf]
  beside _ _ member := absurd member List.not_mem_nil
  mark := keeps.mark
  color _ := rfl
  switch mark named := by
    have other (x : Node) (isBold : x.isNamed boldMark) : ¬ x.isNamed colorMark = true := by
      rw [Node.isNamed_apart (by decide) x isBold]
      exact Bool.false_ne_true
    have still : (switchOn mark).isNamed boldMark := by
      rwa [Node.isNamed, name?_switchOn, ← Node.isNamed]
    rw [if_neg (other mark named), if_neg (other _ still)]
    exact keeps.switch mark named

/-! ### Runs -/

/-- The content of a run whose properties are changed. -/
def updated (f : Node → Node) (nodes : List Node) : List Node :=
  match nodes.find? (·.isNamed runProperties) with
  | some properties => Node.replaceFirst (·.isNamed runProperties) (f properties) nodes
  | none => f (.plain runProperties [] []) :: nodes

variable {f : Node → Node}

theorem updateProperties_eq (f : Node → Node) (node : Node) :
    updateProperties f node = node.withChildren (updated f node.children) := by
  unfold updateProperties updated Node.child?
  cases node.children.find? (·.isNamed runProperties) with
  | none => rfl
  | some properties => rfl

theorem updated_of_first (misses : ∀ y ∈ front, y.isNamed runProperties = false)
    (named : x.isNamed runProperties) (rest : List Node) :
    updated f (front ++ x :: rest) = front ++ f x :: rest := by
  rw [updated, find?_of_first misses named]
  exact replaceFirst_append misses named _ _

theorem updated_of_none (misses : ∀ y ∈ nodes, y.isNamed runProperties = false) :
    updated f nodes = f (.plain runProperties [] []) :: nodes := by
  have found : nodes.find? (·.isNamed runProperties) = none := by simpa using misses
  rw [updated, found]

/-- A change of properties is seen by nothing that does not tell them from what they were. -/
theorem flatMap_updated {β : Type} (g : Node → List β)
    (same : ∀ properties, nodes.find? (·.isNamed runProperties) = some properties →
      g (f properties) = g properties)
    (nothing : g (f (.plain runProperties [] [])) = []) :
    (updated f nodes).flatMap g = nodes.flatMap g := by
  rcases first_or_none runProperties nodes with ⟨front, properties, rest, rfl, named, first⟩ | none
  · rw [updated_of_first first named, List.flatMap_append, List.flatMap_append, List.flatMap_cons,
      List.flatMap_cons, same properties (find?_of_first first named rest)]
  · rw [updated_of_none none, List.flatMap_cons, nothing, List.nil_append]

theorem mem_updated (member : x ∈ updated f nodes) :
    x = f (.plain runProperties [] []) ∨ x ∈ nodes ∨
      ∃ properties ∈ nodes, properties.isNamed runProperties ∧ x = f properties := by
  rcases first_or_none runProperties nodes with ⟨front, properties, rest, rfl, named, first⟩ | none
  · rw [updated_of_first first named, List.mem_append, List.mem_cons] at member
    rcases member with before | rfl | later
    · exact .inr (.inl (List.mem_append_left _ before))
    · exact .inr (.inr ⟨properties, List.mem_append_right _ List.mem_cons_self, named, rfl⟩)
    · exact .inr (.inl (List.mem_append_right _ (List.mem_cons_of_mem _ later)))
  · rw [updated_of_none none, List.mem_cons] at member
    exact member.imp_right .inl

theorem updated_updated (still : ∀ x, (f x).isNamed runProperties = x.isNamed runProperties)
    (again : ∀ x, f (f x) = f x) (nodes : List Node) :
    updated f (updated f nodes) = updated f nodes := by
  rcases first_or_none runProperties nodes with ⟨front, properties, rest, rfl, named, first⟩ | none
  · rw [updated_of_first first named, updated_of_first first (by rwa [still]), again]
  · have fresh : (f (.plain runProperties [] [])).isNamed runProperties := by rw [still]; rfl
    have changed := updated_of_first (f := f) (List.forall_mem_nil _) fresh nodes
    rw [List.nil_append, again] at changed
    rw [updated_of_none none]
    exact changed

/-- A change of properties and a rebuilding can be swapped if they can for properties. -/
theorem updated_flatMap (keeps : Rebuilds before after φ)
    (swaps : ∀ p, nodes.find? (·.isNamed runProperties) = some p →
      before (f p) = before p ∧ after (f p) = after p ∧ φ (f p) = f (φ p))
    (fresh : around before after φ (f (.plain runProperties [] [])) = [f (.plain runProperties [] [])]) :
    updated f (nodes.flatMap (around before after φ)) =
      (updated f nodes).flatMap (around before after φ) := by
  have isKind : runProperties ∈ kinds := List.mem_cons_self
  rcases first_or_none runProperties nodes with ⟨front, p, rest, rfl, named, first⟩ | none
  · have still : (φ p).isNamed runProperties := by rwa [isNamed_of_name keeps.name]
    obtain ⟨sameBefore, sameAfter, swapped⟩ := swaps p (find?_of_first first named rest)
    rw [Rebuilds.split, updated_of_first (keeps.misses_front isKind first p) still,
      updated_of_first first named, Rebuilds.split, sameBefore, sameAfter, swapped]
  · rw [updated_of_none none, updated_of_none (keeps.misses isKind none), List.flatMap_cons, fresh]
    rfl

/-! ### Painted runs -/

def lit (hue : String) (nodes : List Node) : List Node := updated (paint hue) nodes

theorem highlightRun_eq (hue : String) (node : Node) :
    highlightRun hue node = node.withChildren (lit hue node.children) := by
  have same : (fun properties => recolor hue (embolden properties)) = paint hue :=
    funext fun properties => (paint_eq hue properties).symm
  rw [highlightRun, same]
  exact updateProperties_eq (paint hue) node

@[simp] theorem name?_paint (hue : String) (node : Node) : (paint hue node).name? = node.name? :=
  Node.name?_withChildren _ _

theorem paint_paint (hue : String) (node : Node) : paint hue (paint hue node) = paint hue node := by
  cases node with
  | element name lineage traits children =>
    exact congrArg (Node.element name lineage traits) (painted_painted hue children)
  | aside content tail => rfl

/-- A run is not changed when it is highlighted again. -/
theorem lit_lit (hue : String) (nodes : List Node) : lit hue (lit hue nodes) = lit hue nodes := by
  refine updated_updated (fun x => ?_) (paint_paint hue) nodes
  rw [Node.isNamed, name?_paint, Node.isNamed]

/-- The properties of a run are painted. -/
def IsLit (hue : String) (node : Node) : Prop :=
  ∃ properties, node.child? runProperties = some properties ∧ IsPainted hue properties.children

theorem isLit_lit (name : Name) (lineage : Lineage) (traits : Traits) (hue : String)
    (nodes : List Node) : IsLit hue (.element name lineage traits (lit hue nodes)) := by
  have paints {properties : Node} (isProperties : properties.isNamed runProperties) :
      (paint hue properties).isNamed runProperties ∧
        IsPainted hue (paint hue properties).children := by
    obtain ⟨lineage, traits, children, rfl⟩ := Node.exists_of_isNamed isProperties
    exact ⟨rfl, isPainted_painted hue children⟩
  change ∃ properties, (lit hue nodes).find? (·.isNamed runProperties) = some properties ∧ _
  rcases first_or_none runProperties nodes with ⟨front, properties, rest, rfl, isIt, first⟩ | none
  · refine ⟨paint hue properties, ?_, (paints isIt).2⟩
    rw [lit, updated_of_first first isIt, find?_of_first first (paints isIt).1]
  · refine ⟨paint hue (.plain runProperties [] []), ?_, (paints rfl).2⟩
    rw [lit, updated_of_none none, List.find?_cons_of_pos (paints rfl).1]

/-! ### One run after the other -/

theorem holdsRun_element {lineage : Lineage} {traits : Traits} {children : List Node} :
    holdsRun (.element name lineage traits children) = (name == run || children.any holdsRun) := by
  have own : (Node.element name lineage traits children).isNamed run = (name == run) := rfl
  have below : (Node.elementsOf children).any (·.isNamed run) = children.any holdsRun := by
    rw [Node.elementsOf_eq_flatMap, List.any_flatMap]
    rfl
  rw [holdsRun, Node.elements, List.any_cons, own, below]

/-- The next run is in a color among the first properties, and there is none in front of it. -/
theorem losesNext_iff : losesNext nodes ↔ ∃ properties old,
    nodes.find? (·.isNamed runProperties) = some properties ∧
      nodes.find? (fun x => x.isNamed runProperties || holdsRun x) = some properties ∧
      properties.children.find? holdsRun = some old ∧ old.isNamed colorMark := by
  rw [losesNext]
  constructor
  · intro loses
    split at loses
    · rename_i properties found
      obtain ⟨isProperties, isIn⟩ := Bool.and_eq_true_iff.mp loses
      obtain ⟨old, isNext, isColor⟩ := (Option.any_eq_true _ _).mp isIn
      obtain ⟨-, front, rest, rfl, before⟩ := List.find?_eq_some_iff_append.mp found
      refine ⟨properties, old, find?_of_first (fun y member => ?_) isProperties rest, found, isNext,
        isColor⟩
      have neither := before y member
      rw [Bool.not_eq_true', Bool.or_eq_false_iff] at neither
      exact neither.1
    · cases loses
  · rintro ⟨properties, old, isFirst, found, isNext, isColor⟩
    have isProperties := List.find?_some isFirst
    rw [found]
    simp only [isNext, Option.any_some, isColor, Bool.and_true]
    exact isProperties

/-- A run that is highlighted has no old color. -/
theorem losesNext_lit (hue : String) (nodes : List Node) : losesNext (lit hue nodes) = false := by
  rw [Bool.eq_false_iff]
  intro loses
  obtain ⟨properties, old, isFirst, -, isNext, isColor⟩ := losesNext_iff.mp loses
  obtain ⟨found, isFound, painted⟩ := isLit_lit run [] (.ofList []) hue nodes
  obtain rfl : properties = found := Option.some.inj (isFirst.symm.trans isFound)
  have among : old ∈ properties.children.filter (·.isNamed colorMark) :=
    List.mem_filter.mpr ⟨List.mem_of_find?_eq_some isNext, isColor⟩
  rw [painted.color] at among
  have holds := List.find?_some isNext
  rw [List.mem_singleton.mp among] at holds
  cases holds

section Light

variable {part : Part} {goesOn : Bool} {lineage : Lineage} {traits : Traits} {rest children : List Node}

theorem light_run (loses : losesNext children = false) :
    light hue part (.element run lineage traits children) true =
      (highlightRun hue (.element run lineage traits (lightAll hue .run children true).1),
        (lightAll hue .run children true).2) := by
  rw [light, if_pos rfl, loses]
  rfl

theorem light_of_ne (other : name ≠ run) :
    light hue part (.element name lineage traits children) true =
      (.element name lineage traits (lightAll hue (part.enter name) children true).1,
        (lightAll hue (part.enter name) children true).2) := by
  rw [light, if_neg other]

@[simp] theorem lineage_highlight (hue : String) (node : Node) :
    (highlight hue node).lineage = node.lineage := by
  cases node with
  | element name lineage traits children =>
    have painted (children : List Node) :
        (highlightRun hue (.element name lineage traits children)).lineage = lineage := by
      rw [highlightRun_eq]
      rfl
    rw [highlight, light]
    split
    · split <;> exact painted _
    · rfl
  | aside content tail => rfl

/-- It only matters to the properties of a run that they are. -/
theorem light_part (passes : part ≠ .run ∨ node.isNamed runProperties = false) :
    light hue part node goesOn = light hue .other node goesOn := by
  cases node with
  | element name lineage traits children =>
    have own : (Node.element name lineage traits children).isNamed runProperties =
        (name == runProperties) := rfl
    rw [own, beq_eq_false_iff_ne] at passes
    have same : part.enter name = Part.other.enter name := by
      have neither : ¬ (part = .run && name = runProperties) = true := by
        rwa [Bool.and_eq_true, decide_eq_true_iff, decide_eq_true_iff, not_and_or]
      rw [Part.enter, Part.enter, if_neg neither]
      rfl
    cases goesOn <;> simp only [light, same]
  | aside content tail => cases goesOn <;> rfl

theorem lightAll_color (isColor : node.isNamed colorMark) :
    lightAll hue .properties (node :: rest) goesOn =
      (node :: (lightAll hue .properties rest goesOn).1, (lightAll hue .properties rest goesOn).2) := by
  rw [lightAll, isColor]
  rfl

theorem lightAll_cons (passes : part ≠ .properties ∨ node.isNamed colorMark = false) :
    lightAll hue part (node :: rest) goesOn =
      ((light hue part node goesOn).1 ::
          (lightAll hue (part.pass node) rest (light hue part node goesOn).2).1,
        (lightAll hue (part.pass node) rest (light hue part node goesOn).2).2) := by
  have enters : ¬ (part = .properties && node.isNamed colorMark) = true := by
    rw [Bool.and_eq_true, decide_eq_true_iff, not_and_or, Bool.not_eq_true]
    exact passes
  rw [lightAll, if_neg enters]

end Light

/-- An element of the kinds that highlighting puts in or changes. -/
def IsMark (x : Node) : Prop := ∃ own ∈ [runProperties, boldMark, colorMark], x.isNamed own

/-- An element is a new mark, or there is one like it: of its identity and its name, and with its
attributes unless it is a mark. -/
def Stems (nodes : List Node) (x : Node) : Prop :=
  (x.lineage = [] ∧ IsMark x) ∨
    ∃ y ∈ Node.elementsOf nodes, y.lineage = x.lineage ∧ y.name? = x.name? ∧
      (y.attributes = x.attributes ∨ IsMark x)

theorem Stems.subset {more : List Node} (stems : Stems nodes x)
    (fewer : Node.elementsOf nodes ⊆ Node.elementsOf more) : Stems more x :=
  stems.imp_right fun ⟨y, inside, same⟩ => ⟨y, fewer inside, same⟩

theorem IsMark.of_name {y : Node} (isMark : IsMark y) (same : y.name? = x.name?) : IsMark x := by
  obtain ⟨own, isKind, named⟩ := isMark
  exact ⟨own, isKind, by rwa [Node.isNamed, ← same]⟩

theorem Stems.trans {more : List Node} (stems : Stems nodes x)
    (each : ∀ y ∈ Node.elementsOf nodes, Stems more y) : Stems more x := by
  rcases stems with isNew | ⟨y, inside, sameLineage, sameName, same⟩
  · exact .inl isNew
  · rcases each y inside with ⟨isNew, isMark⟩ | ⟨z, isThere, ownLineage, ownName, own⟩
    · exact .inl ⟨sameLineage ▸ isNew, isMark.of_name sameName⟩
    · refine .inr ⟨z, isThere, ownLineage.trans sameLineage, ownName.trans sameName, ?_⟩
      rcases own with own | isMark
      · exact same.imp_left own.trans
      · exact .inr (isMark.of_name sameName)

theorem mem_elementsOf_painted (inside : x ∈ Node.elementsOf (painted hue nodes)) :
    x ∈ Node.elementsOf nodes ∨ IsMark x ∧ Stems nodes x := by
  obtain ⟨node, among, within⟩ := Node.mem_elementsOf_iff.mp inside
  rcases mem_painted among with rfl | rfl | isOld | ⟨mark, isOld, named, rfl⟩
  · have isMark : IsMark (makeSetting colorMark hue) := ⟨colorMark, by simp, rfl⟩
    rw [List.mem_singleton.mp within]
    exact .inr ⟨isMark, .inl ⟨rfl, isMark⟩⟩
  · have isMark : IsMark (.plain boldMark [] []) := ⟨boldMark, by simp, rfl⟩
    rw [List.mem_singleton.mp within]
    exact .inr ⟨isMark, .inl ⟨rfl, isMark⟩⟩
  · exact .inl (Node.mem_elementsOf isOld within)
  · obtain ⟨lineage, traits, children, rfl⟩ := Node.exists_of_isNamed named
    rcases Node.mem_elements_element.mp within with rfl | below
    · have isMark : IsMark (switchOn (.element boldMark lineage traits children)) :=
        ⟨boldMark, by simp, rfl⟩
      have there := Node.mem_elementsOf isOld (Node.mem_elements_self rfl)
      exact .inr ⟨isMark, .inr ⟨_, there, rfl, rfl, .inr isMark⟩⟩
    · exact .inl (Node.mem_elementsOf isOld (Node.mem_elements_of_children below))

/-- Where the elements of a highlighted run come from. -/
theorem mem_elementsOf_lit (inside : x ∈ Node.elementsOf (lit hue nodes)) :
    x ∈ Node.elementsOf nodes ∨ IsMark x ∧ Stems nodes x := by
  have painted {properties : Node} (named : properties.isNamed runProperties)
      (within : x ∈ (paint hue properties).elements) :
      x ∈ Node.elementsOf properties.children ∨ IsMark x ∧
        (Stems properties.children x ∨ x.lineage = properties.lineage ∧
          x.name? = properties.name? ∧ x.attributes = properties.attributes) := by
    obtain ⟨lineage, traits, children, rfl⟩ := Node.exists_of_isNamed named
    rcases Node.mem_elements_element.mp within with rfl | below
    · exact .inr ⟨⟨runProperties, by simp, rfl⟩, .inr ⟨rfl, rfl, rfl⟩⟩
    · exact (mem_elementsOf_painted below).imp_right fun ⟨isMark, stems⟩ => ⟨isMark, .inl stems⟩
  obtain ⟨node, among, within⟩ := Node.mem_elementsOf_iff.mp inside
  rcases mem_updated among with rfl | isOld | ⟨properties, isOld, named, rfl⟩
  · rcases painted rfl within with below | ⟨isMark, (⟨isNew, -⟩ | ⟨y, below, -⟩) | ⟨isNew, -⟩⟩
    · cases below
    · exact .inr ⟨isMark, .inl ⟨isNew, isMark⟩⟩
    · cases below
    · exact .inr ⟨isMark, .inl ⟨isNew, isMark⟩⟩
  · exact .inl (Node.mem_elementsOf isOld within)
  · have fewer : Node.elementsOf properties.children ⊆ Node.elementsOf nodes :=
      fun y below => Node.mem_elementsOf isOld (Node.mem_elements_of_children below)
    rcases painted named within with below | ⟨isMark, stems | ⟨own, same, attributes⟩⟩
    · exact .inl (fewer below)
    · exact .inr ⟨isMark, stems.subset fewer⟩
    · have there := Node.mem_elementsOf isOld (Node.mem_elements_self (Node.isElement_of_isNamed named))
      exact .inr ⟨isMark, .inr ⟨properties, there, own.symm, same.symm, .inl attributes.symm⟩⟩

/-! ### Disregarding bold and color -/

/-- An element that says nothing but its name, and that nobody refers to. -/
def isBlank : Node → Bool
  | .element _ lineage traits children =>
    lineage.isEmpty && traits == .ofList [] && children.isEmpty
  | _ => false

/-- A node, unless it is blank. -/
def unlessBlank (node : Node) : List Node := if isBlank node then [] else [node]

/-- What is left of a property if bold and color are disregarded. A mark for bold may say more than
whether it is on. -/
def plainProperty (node : Node) : List Node :=
  if node.isNamed colorMark then []
  else if node.isNamed boldMark then unlessBlank (switchOn node)
  else [node]

def plainProperties (properties : Node) : List Node :=
  unlessBlank (properties.withChildren (properties.children.flatMap plainProperty))

/-- The content of a run, if bold and color are disregarded. -/
def unlit : List Node → List Node
  | [] => []
  | node :: rest =>
    if node.isNamed runProperties then plainProperties node ++ rest else node :: unlit rest

theorem plainProperties_paint (hue : String) (node : Node) :
    plainProperties (paint hue node) = plainProperties node := by
  have same (nodes : List Node) :
      (painted hue nodes).flatMap plainProperty = nodes.flatMap plainProperty := by
    refine flatMap_painted plainProperty rfl rfl (fun mark _ named => ?_) fun x _ named => if_pos named
    have isNamed (own : Name) : (switchOn mark).isNamed own = mark.isNamed own := by
      rw [Node.isNamed, name?_switchOn, Node.isNamed]
    rw [plainProperty, plainProperty, isNamed, isNamed, switchOn_switchOn]
    have other : mark.isNamed colorMark = false := by
      rw [Node.isNamed_apart (by decide) mark named]
    rw [other, named]
    rfl
  cases node with
  | element name lineage traits children =>
    exact congrArg (fun left => unlessBlank (.element name lineage traits left)) (same children)
  | aside content tail => rfl

theorem unlit_of_first (misses : ∀ y ∈ front, y.isNamed runProperties = false)
    (named : x.isNamed runProperties) (rest : List Node) :
    unlit (front ++ x :: rest) = front ++ plainProperties x ++ rest := by
  induction front with
  | nil => exact if_pos named
  | cons first others ih =>
    rw [List.forall_mem_cons] at misses
    rw [List.cons_append, unlit, if_neg (by simp [misses.1]), ih misses.2]
    rfl

theorem unlit_of_none (misses : ∀ y ∈ nodes, y.isNamed runProperties = false) :
    unlit nodes = nodes := by
  induction nodes with
  | nil => rfl
  | cons first rest ih =>
    rw [List.forall_mem_cons] at misses
    rw [unlit, if_neg (by simp [misses.1]), ih misses.2]

/-- Highlighting changes nothing but bold and color. -/
theorem unlit_lit (hue : String) (nodes : List Node) : unlit (lit hue nodes) = unlit nodes := by
  rcases first_or_none runProperties nodes with ⟨front, properties, rest, rfl, named, first⟩ | none
  · have still : (paint hue properties).isNamed runProperties := by
      rwa [Node.isNamed, name?_paint, ← Node.isNamed]
    rw [lit, updated_of_first first named, unlit_of_first first still, unlit_of_first first named,
      plainProperties_paint]
  · have nothing : plainProperties (.plain runProperties [] []) = [] := rfl
    have isFresh : (paint hue (.plain runProperties [] [])).isNamed runProperties := rfl
    rw [lit, updated_of_none none, unlit, if_pos isFresh, plainProperties_paint, nothing,
      unlit_of_none none]
    rfl

end TemplateFill.Word
