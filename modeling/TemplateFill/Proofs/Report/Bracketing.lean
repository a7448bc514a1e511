import TemplateFill.Proofs.Report.Lighting
import TemplateFill.Proofs.Xml.Context
import TemplateFill.Report

/-!
# Bookmarks around elements

The bookmarks of a report stand in pairs around elements. An element may have several pairs, which
lie in each other in the order of their records, and elements with bookmarks may lie in each other.
Whoever takes out the pairs finds the elements as they were.
-/

namespace TemplateFill.Report

open Xml

/-- A bookmark of a report: the number of its record, the element it goes around, and its id. -/
structure Mark where
  number : Nat
  lineage : Lineage
  id : String
  deriving Repr, DecidableEq

namespace Mark

def opening (mark : Mark) : Node :=
  .plain Word.bookmarkStart [(Word.identifier, mark.id), (.word "name", bookmarkName mark.number)] []

def closing (mark : Mark) : Node := .plain Word.bookmarkEnd [(Word.identifier, mark.id)] []

def wrap (mark : Mark) (node : Node) : List Node := [mark.opening, node, mark.closing]

end Mark

variable {marks : List Mark} {mark : Mark} {hue : String} {within : Bool} {name : Name}
  {lineage : Lineage} {nodes : List Node} {node x : Node}

def marksOf (marks : List Mark) (lineage : Lineage) : List Mark :=
  marks.filter (·.lineage == lineage)

def openings (marks : List Mark) (lineage : Lineage) : List Node :=
  (marksOf marks lineage).map Mark.opening

/-- What ends behind an element. The last bookmark that begins is the first one to end. -/
def closings (marks : List Mark) (lineage : Lineage) : List Node :=
  (marksOf marks lineage).reverse.map Mark.closing

mutual

/-- Put bookmarks around elements below a node. -/
def bracket (marks : List Mark) : Node → Node
  | .element name lineage traits children =>
    .element name lineage traits (bracketAll marks children)
  | node => node

/-- Put bookmarks around elements among and below some nodes. -/
def bracketAll (marks : List Mark) : List Node → List Node
  | [] => []
  | node :: rest =>
    (openings marks node.lineage ++ bracket marks node :: closings marks node.lineage) ++
      bracketAll marks rest

end

theorem bracketAll_eq (marks : List Mark) (nodes : List Node) :
    bracketAll marks nodes = nodes.flatMap fun x =>
      openings marks x.lineage ++ bracket marks x :: closings marks x.lineage := by
  induction nodes with
  | nil => rfl
  | cons node rest ih => rw [bracketAll, ih, List.flatMap_cons]

@[simp] theorem name?_bracket (node : Node) : (bracket marks node).name? = node.name? := by
  cases node <;> rfl

@[simp] theorem lineage_bracket (node : Node) : (bracket marks node).lineage = node.lineage := by
  cases node <;> rfl

theorem bracket_leaf (leaf : node.name? = none) : bracket marks node = node := by
  cases node with
  | element => cases leaf
  | aside content tail => rfl

@[simp] theorem attributes_bracket (node : Node) :
    (bracket marks node).attributes = node.attributes := by
  cases node <;> rfl

@[simp] theorem children_bracket (node : Node) :
    (bracket marks node).children = bracketAll marks node.children := by
  cases node <;> rfl

def isMarked (marks : List Mark) (lineage : Lineage) : Bool := marks.any (·.lineage == lineage)

theorem marksOf_eq_nil (unmarked : isMarked marks lineage = false) : marksOf marks lineage = [] := by
  rw [marksOf, List.filter_eq_nil_iff]
  intro mark member isOwn
  rw [isMarked, List.any_eq_false] at unmarked
  exact unmarked mark member isOwn

theorem openings_eq_nil (unmarked : isMarked marks lineage = false) : openings marks lineage = [] := by
  rw [openings, marksOf_eq_nil unmarked, List.map_nil]

theorem closings_eq_nil (unmarked : isMarked marks lineage = false) : closings marks lineage = [] := by
  rw [closings, marksOf_eq_nil unmarked, List.reverse_nil, List.map_nil]

/-- Where no child has a bookmark, there is only more to do below them. -/
theorem bracketAll_of_unmarked (unmarked : ∀ x ∈ nodes, isMarked marks x.lineage = false) :
    bracketAll marks nodes = nodes.map (bracket marks) := by
  rw [bracketAll_eq, List.map_eq_flatMap]
  refine List.flatMap_congr fun x member => ?_
  rw [openings_eq_nil (unmarked x member), closings_eq_nil (unmarked x member), List.nil_append]

/-! ### Adding a bookmark -/

theorem lineages_le_of_mem (member : node ∈ nodes) (p : Lineage → Bool) :
    (lineages p [node]).length ≤ (lineages p nodes).length := by
  obtain ⟨front, rest, rfl⟩ := List.append_of_mem member
  rw [lineages_eq_flatMap p (front ++ node :: rest), List.flatMap_append, List.flatMap_cons,
    List.length_append, List.length_append]
  omega

theorem lineages_children_le (node : Node) (p : Lineage → Bool) :
    (lineages p node.children).length ≤ (lineages p [node]).length := by
  cases node with
  | element name lineage traits children =>
    rw [lineages_element, List.length_append]
    exact Nat.le_add_left _ _
  | aside content tail => exact Nat.le_refl _

/-- To bookmark an element is to highlight it and to put a bookmark around it. -/
theorem expandAll_bookmarked (mark : Mark) (hue : String) (nodes : List Node)
    (steady : ∀ node ∈ nodes, Steady (· == mark.lineage) false node) :
    Node.expandAll mark.lineage (bookmarked mark.id (bookmarkName mark.number) hue) nodes =
      Node.expandAll mark.lineage mark.wrap
        (nodes.map (mapRuns (· == mark.lineage) (Word.lit hue) false)) := by
  rw [← expandAll_highlight hue _ nodes steady, Node.expandAll_expandAll (Word.lineage_highlight hue)]
  rfl

theorem lineages_children_eq_nil {p : Lineage → Bool} (named : node.lineage ≠ []) (isOwn : p node.lineage)
    (single : (lineages p [node]).length ≤ 1) : lineages p node.children = [] := by
  cases node with
  | element name lineage traits children =>
    have here : p lineage := isOwn
    rw [lineages_element, if_pos here, List.length_append, List.length_singleton] at single
    have nothing : (lineages p children).length = 0 := by omega
    exact List.eq_nil_of_length_eq_zero nothing
  | aside content tail => exact absurd rfl named

theorem marksOf_append (marks : List Mark) (mark : Mark) :
    marksOf (marks ++ [mark]) mark.lineage = marksOf marks mark.lineage ++ [mark] := by
  simp [marksOf]

theorem marksOf_append_of_ne (marks : List Mark) (isOther : lineage ≠ mark.lineage) :
    marksOf (marks ++ [mark]) lineage = marksOf marks lineage := by
  simp [marksOf, isOther.symm]

/-- Where a bookmark does not go, it does not matter. -/
theorem bracket_append (named : mark.lineage ≠ []) (node : Node) :
    lineages (· == mark.lineage) node.children = [] →
      bracket (marks ++ [mark]) node = bracket marks node := by
  induction node using Node.induction with
  | element name lineage traits children ih =>
    intro nowhere
    rw [bracket, bracket, bracketAll_eq, bracketAll_eq]
    congr 1
    refine List.flatMap_congr fun child member => ?_
    have misses : lineages (· == mark.lineage) [child] = [] := by
      rw [lineages_eq_flatMap, List.flatMap_eq_nil_iff] at nowhere
      exact nowhere child member
    have isOther : child.lineage ≠ mark.lineage := by
      cases child with
      | element name own traits children =>
        rw [lineages_eq_nil_iff] at misses
        exact ne_of_beq_false (misses _ (List.mem_append_left _ List.mem_cons_self))
      | aside content tail => exact named.symm
    have below : lineages (· == mark.lineage) child.children = [] := by
      rw [lineages_eq_nil_iff] at misses ⊢
      exact fun x inside => misses x (List.mem_append_left _ (Node.mem_elements_of_children inside))
    rw [ih child member below, openings, openings, closings, closings, marksOf_append_of_ne _ isOther]
  | aside content tail => exact fun _ => rfl

/-- Elements without content that are no runs. -/
def AreBlank (nodes : List Node) : Prop :=
  ∀ x ∈ nodes, ∃ name attributes, name ≠ Word.run ∧ x = .plain name attributes []

theorem areBlank_openings (marks : List Mark) (lineage : Lineage) :
    AreBlank (openings marks lineage) := by
  intro x member
  obtain ⟨mark, -, rfl⟩ := List.mem_map.mp member
  exact ⟨_, _, by decide, rfl⟩

theorem areBlank_closings (marks : List Mark) (lineage : Lineage) :
    AreBlank (closings marks lineage) := by
  intro x member
  obtain ⟨mark, -, rfl⟩ := List.mem_map.mp member
  exact ⟨_, _, by decide, rfl⟩

theorem AreBlank.expand (blank : AreBlank nodes) (named : lineage ≠ []) (f : Node → List Node) :
    (nodes.flatMap fun x => if x.lineage = lineage then f x else [x.expand lineage f]) = nodes := by
  rw [← List.flatMap_singleton' nodes, List.flatMap_assoc]
  refine List.flatMap_congr fun x member => ?_
  obtain ⟨name, attributes, -, rfl⟩ := blank x member
  rw [List.flatMap_singleton]
  exact if_neg named.symm

theorem AreBlank.mapRuns {chosen : Lineage → Bool} {f : List Node → List Node}
    (blank : AreBlank nodes) (within : Bool) : nodes.map (mapRuns chosen f within) = nodes := by
  have each : ∀ x ∈ nodes, Report.mapRuns chosen f within x = id x := by
    intro x member
    obtain ⟨name, attributes, isOther, rfl⟩ := blank x member
    exact mapRuns_of_ne isOther
  exact (List.map_congr_left each).trans (List.map_id nodes)

/-- One more bookmark goes into those that an element has. -/
theorem expandAll_wrap (named : mark.lineage ≠ [])
    (nodes : List Node) (single : (lineages (· == mark.lineage) nodes).length ≤ 1) :
    Node.expandAll mark.lineage mark.wrap (bracketAll marks nodes) =
      bracketAll (marks ++ [mark]) nodes := by
  induction nodes using Node.forest_induction (fun node => node.lineage ≠ mark.lineage →
    (lineages (· == mark.lineage) node.children).length ≤ 1 →
      (bracket marks node).expand mark.lineage mark.wrap = bracket (marks ++ [mark]) node) with
  | forest nodes each =>
    rw [Node.expandAll_eq, bracketAll_eq, bracketAll_eq, List.flatMap_assoc]
    refine List.flatMap_congr fun node member => ?_
    have fewer := Nat.le_trans (lineages_le_of_mem member (· == mark.lineage)) single
    rw [List.flatMap_append, List.flatMap_cons, (areBlank_openings marks _).expand named,
      (areBlank_closings marks _).expand named, lineage_bracket]
    by_cases isOwn : node.lineage = mark.lineage
    · have nowhere : lineages (· == mark.lineage) node.children = [] :=
        lineages_children_eq_nil (isOwn ▸ named) (beq_iff_eq.mpr isOwn) fewer
      rw [if_pos isOwn, bracket_append named node nowhere, openings, openings, closings, closings,
        isOwn, marksOf_append, List.map_append, List.reverse_append, List.map_append]
      simp [Mark.wrap]
    · have below := Nat.le_trans (lineages_children_le node _) fewer
      rw [if_neg isOwn, each node member isOwn below, openings, openings, closings, closings,
        marksOf_append_of_ne _ isOwn]
      rfl
  | element name lineage traits children below _ single =>
    exact congrArg (Node.element name lineage traits) (below single)
  | leaf node leaf =>
    rw [bracket_leaf leaf, bracket_leaf leaf, Node.expand_of_leaf _ _ leaf]

/-! ### Bookmarks and highlights -/

/-- All bookmarks go around elements that are told from others. -/
def IsNamed (marks : List Mark) : Prop := ∀ mark ∈ marks, mark.lineage ≠ []

theorem IsNamed.unmarked (named : IsNamed marks) : isMarked marks [] = false := by
  rw [isMarked, List.any_eq_false]
  intro mark member isBlank
  exact named mark member (beq_iff_eq.mp isBlank)

/-- A new element gets no bookmarks. -/
theorem around_plain (named : IsNamed marks) (name : Name) (attributes : List (Name × String)) :
    Word.around (fun x => openings marks x.lineage) (fun x => closings marks x.lineage) (bracket marks)
      (.plain name attributes []) = [.plain name attributes []] := by
  change openings marks [] ++ _ :: closings marks [] = _
  rw [openings_eq_nil named.unmarked, closings_eq_nil named.unmarked]
  rfl

theorem rebuilds_bracket (named : IsNamed marks) :
    Word.Rebuilds (fun x => openings marks x.lineage) (fun x => closings marks x.lineage)
      (bracket marks) where
  name := name?_bracket
  leaf x isLeaf := by
    cases x with
    | element => cases isLeaf
    | aside content tail => rfl
  beside x y member := by
    rcases List.mem_append.mp member with opened | closed
    · obtain ⟨mark, -, rfl⟩ := List.mem_map.mp opened
      have apart : ∀ own ∈ Word.kinds, Word.bookmarkStart ≠ own := by decide
      exact fun own isKind => Node.isNamed_apart (apart own isKind) _ rfl
    · obtain ⟨mark, -, rfl⟩ := List.mem_map.mp closed
      have apart : ∀ own ∈ Word.kinds, Word.bookmarkEnd ≠ own := by decide
      exact fun own isKind => Node.isNamed_apart (apart own isKind) _ rfl
  mark := around_plain named _ _
  color _ := around_plain named _ _
  switch mark isMark := by
    obtain ⟨lineage, traits, children, rfl⟩ := Node.exists_of_isNamed isMark
    exact ⟨rfl, rfl, rfl⟩

theorem lineage_paint (hue : String) (node : Node) : (Word.paint hue node).lineage = node.lineage := by
  cases node <;> rfl

theorem bracket_paint (named : IsNamed marks) (isProperties : node.isNamed Word.runProperties)
    (unmarked : ∀ x ∈ node.children, Word.isDisplaced x → isMarked marks x.lineage = false) :
    bracket marks (Word.paint hue node) = Word.paint hue (bracket marks node) := by
  obtain ⟨lineage, traits, children, rfl⟩ := Node.exists_of_isNamed isProperties
  have same := Word.painted_flatMap (rebuilds_bracket named) hue fun x member displaced =>
    ⟨openings_eq_nil (unmarked x member displaced), closings_eq_nil (unmarked x member displaced)⟩
  change Node.element Word.runProperties lineage traits
      (bracketAll marks (Word.painted hue children)) =
    .element Word.runProperties lineage traits (Word.painted hue (bracketAll marks children))
  rw [bracketAll_eq, bracketAll_eq]
  exact congrArg _ same.symm

/-- A run can be highlighted before or after bookmarks are put in, unless one goes around a property
that highlighting may put something in front of. -/
theorem lit_bracketAll (named : IsNamed marks) (clear : IsClear (isMarked marks) nodes) :
    Word.lit hue (bracketAll marks nodes) = bracketAll marks (Word.lit hue nodes) := by
  have properties : bracket marks (Word.paint hue (.plain Word.runProperties [] [])) =
      Word.paint hue (.plain Word.runProperties [] []) :=
    bracket_paint named rfl (List.forall_mem_nil _)
  rw [bracketAll_eq, bracketAll_eq]
  refine Word.updated_flatMap (rebuilds_bracket named) (fun p found => ?_) ?_
  · rw [lineage_paint]
    exact ⟨rfl, rfl, bracket_paint named (List.find?_some found) fun x member =>
      (clear.properties p found x member).1⟩
  · change openings marks [] ++ _ :: closings marks [] = _
    rw [openings_eq_nil named.unmarked, closings_eq_nil named.unmarked, properties]
    rfl

theorem map_bracketAll {chosen : Lineage → Bool} (within : Bool)
    (each : ∀ node ∈ nodes, mapRuns chosen (Word.lit hue) within (bracket marks node) =
      bracket marks (mapRuns chosen (Word.lit hue) within node)) :
    (bracketAll marks nodes).map (mapRuns chosen (Word.lit hue) within) =
      bracketAll marks (nodes.map (mapRuns chosen (Word.lit hue) within)) := by
  rw [bracketAll_eq, bracketAll_eq, List.map_flatMap, List.flatMap_map]
  refine List.flatMap_congr fun node member => ?_
  rw [List.map_append, List.map_cons, (areBlank_openings marks _).mapRuns,
    (areBlank_closings marks _).mapRuns, each node member, lineage_mapRuns]

theorem mapRuns_bracket {chosen : Lineage → Bool} (named : IsNamed marks) (node : Node) : ∀ within,
    Clears chosen (isMarked marks) within node →
      mapRuns chosen (Word.lit hue) within (bracket marks node) =
        bracket marks (mapRuns chosen (Word.lit hue) within node) := by
  induction node using Node.induction with
  | element name lineage traits children ih =>
    intro within clears
    have below := map_bracketAll (within || chosen lineage) fun child member =>
      ih child member _ ((runsMeet_element.mp clears).2 child member)
    have swapped : runContent name (within || chosen lineage) (Word.lit hue) (bracketAll marks
        (children.map (mapRuns chosen (Word.lit hue) (within || chosen lineage)))) =
        bracketAll marks (runContent name (within || chosen lineage) (Word.lit hue)
          (children.map (mapRuns chosen (Word.lit hue) (within || chosen lineage)))) := by
      by_cases isRun : name = Word.run
      · subst isRun
        cases flag : within || chosen lineage with
        | true =>
          exact lit_bracketAll named (((runsMeet_element.mp clears).1 flag rfl).map named.unmarked)
        | false => rfl
      · rw [runContent_of_ne isRun, runContent_of_ne isRun]
    rw [bracket, mapRuns_element, mapRuns_element, below, swapped, bracket]
  | aside content tail => exact fun _ _ => rfl

/-! ### Annotated nodes -/

/-- Nodes with bookmarks around elements, and with the runs of these elements highlighted. -/
def annotate (hue : String) (marks : List Mark) (nodes : List Node) : List Node :=
  bracketAll marks (nodes.map (mapRuns (isMarked marks) (Word.lit hue) false))

/-- The runs of marked elements among and below some nodes are clear of marked elements. -/
def AreClear (marked : Lineage → Bool) (nodes : List Node) : Prop :=
  ∀ x ∈ Node.elementsOf nodes, marked x.lineage →
    ∀ run ∈ x.elements, run.isNamed Word.run → IsClear marked run.children

instance (marked : Lineage → Bool) (nodes : List Node) : Decidable (AreClear marked nodes) :=
  inferInstanceAs (Decidable (∀ x ∈ Node.elementsOf nodes, _ → ∀ run ∈ x.elements, _ → _))

theorem AreClear.mono {marked all : Lineage → Bool} (clear : AreClear all nodes)
    (fewer : ∀ lineage, marked lineage → all lineage) : AreClear marked nodes :=
  fun x inside isMarked run isIn isRun =>
    (clear x inside (fewer _ isMarked) run isIn isRun).mono fewer

theorem AreClear.clears {chosen marked all : Lineage → Bool} (clear : AreClear all nodes)
    (member : node ∈ nodes) (areChosen : ∀ lineage, chosen lineage → all lineage)
    (areMarked : ∀ lineage, marked lineage → all lineage) : Clears chosen marked false node := by
  intro x inside looked run isIn isRun
  have isChosen : chosen x.lineage := looked.resolve_left (by decide)
  exact (clear x (Node.mem_elementsOf member inside) (areChosen _ isChosen) run isIn isRun).mono areMarked

/-- Bookmarks can be put in before or after runs are highlighted. -/
theorem map_bracketAll_of_clear {chosen : Lineage → Bool} {all : Lineage → Bool} (named : IsNamed marks)
    (clear : AreClear all nodes) (areChosen : ∀ lineage, chosen lineage → all lineage)
    (areMarked : ∀ lineage, isMarked marks lineage → all lineage) :
    (bracketAll marks nodes).map (mapRuns chosen (Word.lit hue) false) =
      bracketAll marks (nodes.map (mapRuns chosen (Word.lit hue) false)) :=
  map_bracketAll false fun node member =>
    mapRuns_bracket named node false (clear.clears member areChosen areMarked)

theorem lineages_map {chosen marked : Lineage → Bool} (unnamed : marked [] = false)
    (clear : ∀ node ∈ nodes, Clears chosen marked false node) :
    lineages marked (nodes.map (mapRuns chosen (Word.lit hue) false)) = lineages marked nodes := by
  rw [lineages_eq_flatMap, lineages_eq_flatMap marked nodes, List.flatMap_map]
  exact List.flatMap_congr fun node member => lineages_mapRuns unnamed node _ (clear node member)

theorem isMarked_append (marks : List Mark) (mark : Mark) (lineage : Lineage) :
    isMarked (marks ++ [mark]) lineage = (lineage == mark.lineage || isMarked marks lineage) := by
  rw [isMarked, List.any_append, Bool.or_comm, List.any_cons, List.any_nil, Bool.or_false,
    Bool.beq_comm]
  rfl

theorem bracket_nil (node : Node) : bracket [] node = node := by
  induction node using Node.induction with
  | element name lineage traits children ih =>
    have same : bracketAll [] children = children := by
      rw [bracketAll_of_unmarked fun _ _ => rfl]
      exact (List.map_congr_left ih).trans (List.map_id children)
    rw [bracket, same]
  | aside content tail => rfl

/-- Without bookmarks, nodes are left as they are. -/
theorem annotate_nil (hue : String) (nodes : List Node) : annotate hue [] nodes = nodes := by
  have none (node : Node) : mapRuns (isMarked []) (Word.lit hue) false node = id node := by
    induction node using Node.induction with
    | element name lineage traits children ih =>
      have outside : (false || isMarked [] lineage) = false := rfl
      rw [mapRuns_element, outside, runContent_false, List.map_congr_left ih, List.map_id]
      rfl
    | aside content tail => rfl
  rw [annotate, bracketAll_of_unmarked fun _ _ => rfl, List.map_map]
  refine (List.map_congr_left fun node _ => ?_).trans (List.map_id nodes)
  rw [Function.comp_apply, bracket_nil, none]

/-! ### Bookmarks and the next run -/

theorem isNamed_of_mem_marks {own : Lineage} (member : x ∈ openings marks own ++ closings marks own) :
    ∃ name ∈ [Word.bookmarkStart, Word.bookmarkEnd], ∃ attributes, x = .plain name attributes [] := by
  rcases List.mem_append.mp member with opened | closed
  · obtain ⟨mark, -, rfl⟩ := List.mem_map.mp opened
    exact ⟨_, by simp, _, rfl⟩
  · obtain ⟨mark, -, rfl⟩ := List.mem_map.mp closed
    exact ⟨_, by simp, _, rfl⟩

theorem holdsRun_of_mem_marks {own : Lineage} (member : x ∈ openings marks own ++ closings marks own) :
    Word.holdsRun x = false := by
  obtain ⟨name, isKind, attributes, rfl⟩ := isNamed_of_mem_marks member
  have isOther : ∀ kind ∈ [Word.bookmarkStart, Word.bookmarkEnd], kind ≠ Word.run := by decide
  rw [Node.plain, Word.holdsRun_element, List.any_nil, Bool.or_false]
  exact beq_false_of_ne (isOther name isKind)

/-- What bookmarks do not have is found in the same places with them as without. -/
theorem find?_bracketAll {p : Node → Bool} (misses : ∀ own, ∀ x ∈ openings marks own ++ closings marks own,
      p x = false) (same : ∀ x ∈ nodes, p (bracket marks x) = p x) :
    (bracketAll marks nodes).find? p = (nodes.find? p).map (bracket marks) := by
  induction nodes with
  | nil => rfl
  | cons node rest ih =>
    obtain ⟨here, later⟩ := List.forall_mem_cons.mp same
    have nothing {block : List Node} (within : block ⊆ openings marks node.lineage ++
        closings marks node.lineage) : block.find? p = none :=
      List.find?_eq_none.mpr fun x member => ne_true_of_eq_false (misses _ x (within member))
    rw [bracketAll, List.find?_append, List.find?_append, nothing (List.subset_append_left _ _),
      Option.none_or, List.find?_cons, List.find?_cons, here, nothing (List.subset_append_right _ _)]
    cases p node with
    | true => rfl
    | false => rw [Option.none_or, ih later]

theorem holdsRun_bracket (node : Node) : Word.holdsRun (bracket marks node) = Word.holdsRun node := by
  induction node using Node.induction with
  | element name lineage traits children ih =>
    have below := find?_bracketAll (fun _ _ => holdsRun_of_mem_marks) ih
    rw [bracket, Word.holdsRun_element, Word.holdsRun_element]
    congr 1
    rw [← List.isSome_find?, ← List.isSome_find?, below, Option.isSome_map]
  | aside content tail => rfl

theorem losesNext_bracketAll (nodes : List Node) :
    Word.losesNext (bracketAll marks nodes) = Word.losesNext nodes := by
  have sameNames := Word.isNamed_of_name (φ := bracket marks) name?_bracket
  have misses : ∀ own, ∀ x ∈ openings marks own ++ closings marks own,
      (x.isNamed Word.runProperties || Word.holdsRun x) = false := by
    intro own x member
    obtain ⟨name, isKind, attributes, rfl⟩ := isNamed_of_mem_marks member
    have isOther : ∀ kind ∈ [Word.bookmarkStart, Word.bookmarkEnd], kind ≠ Word.runProperties := by
      decide
    rw [holdsRun_of_mem_marks member, Node.isNamed_apart (isOther name isKind) _
      (Node.isNamed_iff.mpr rfl), Bool.or_false]
  unfold Word.losesNext
  rw [find?_bracketAll misses fun x _ => by rw [sameNames, holdsRun_bracket]]
  cases nodes.find? fun x => x.isNamed Word.runProperties || Word.holdsRun x with
  | none => rfl
  | some properties =>
    rw [Option.map_some]
    simp only [sameNames]
    rw [children_bracket, find?_bracketAll (fun _ _ => holdsRun_of_mem_marks)
      fun x _ => holdsRun_bracket x]
    cases properties.children.find? Word.holdsRun with
    | none => rfl
    | some old => rw [Option.map_some, Option.any_some, Option.any_some, sameNames]

theorem steady_bracketAll {chosen : Lineage → Bool} {within : Bool}
    (each : ∀ x ∈ nodes, Steady chosen within (bracket marks x)) :
    ∀ x ∈ bracketAll marks nodes, Steady chosen within x := by
  intro x member
  rw [bracketAll_eq] at member
  obtain ⟨node, among, isIn⟩ := List.mem_flatMap.mp member
  have bookmark (isMark : x ∈ openings marks node.lineage ++ closings marks node.lineage) :
      Steady chosen within x := by
    obtain ⟨name, isKind, attributes, rfl⟩ := isNamed_of_mem_marks isMark
    have isOther : ∀ kind ∈ [Word.bookmarkStart, Word.bookmarkEnd], kind ≠ Word.run := by decide
    exact runsMeet_plain (isOther name isKind) attributes
  rcases List.mem_append.mp isIn with opened | rest
  · exact bookmark (List.mem_append_left _ opened)
  · rcases List.mem_cons.mp rest with rfl | closed
    · exact each node among
    · exact bookmark (List.mem_append_right _ closed)

/-- Bookmarks leave no run that loses the one after it. -/
theorem steady_bracket {chosen : Lineage → Bool} (node : Node) : ∀ within,
    Steady chosen within node → Steady chosen within (bracket marks node) := by
  induction node using Node.induction with
  | element name lineage traits children ih =>
    intro within steady
    obtain ⟨own, below⟩ := runsMeet_element.mp steady
    exact runsMeet_element.mpr
      ⟨fun looked isRun => (losesNext_bracketAll children).trans (own looked isRun),
        steady_bracketAll fun child member => ih child member _ (below child member)⟩
  | aside content tail => exact fun _ _ => runsMeet_leaf rfl

/-! ### One more bookmark -/

/-- Bookmarking one more element of annotated nodes annotates it as well. -/
theorem expandAll_annotate (hue : String) (named : IsNamed (marks ++ [mark]))
    (clear : AreClear (isMarked (marks ++ [mark])) nodes)
    (single : (lineages (· == mark.lineage) nodes).length ≤ 1) :
    Node.expandAll mark.lineage (bookmarked mark.id (bookmarkName mark.number) hue)
      (annotate hue marks nodes) = annotate hue (marks ++ [mark]) nodes := by
  have isNew : mark.lineage ≠ [] := named mark (List.mem_append_right _ List.mem_cons_self)
  have areOld : IsNamed marks := fun other member => named other (List.mem_append_left _ member)
  have fewer (lineage : Lineage) (isOld : isMarked marks lineage) :
      isMarked (marks ++ [mark]) lineage := by
    rw [isMarked_append, isOld, Bool.or_true]
  have own (lineage : Lineage) (isOwn : (lineage == mark.lineage) = true) :
      isMarked (marks ++ [mark]) lineage := by
    rw [isMarked_append, isOwn, Bool.true_or]
  have joined : mapRuns (· == mark.lineage) (Word.lit hue) false ∘
      mapRuns (isMarked marks) (Word.lit hue) false =
        mapRuns (isMarked (marks ++ [mark])) (Word.lit hue) false := by
    funext node
    rw [Function.comp_apply, mapRuns_join]
    exact congrArg (mapRuns · _ _ node) (funext fun lineage => (isMarked_append marks mark lineage).symm)
  have still : lineages (· == mark.lineage)
      (nodes.map (mapRuns (isMarked (marks ++ [mark])) (Word.lit hue) false)) =
        lineages (· == mark.lineage) nodes :=
    lineages_map (beq_false_of_ne isNew.symm) fun node member =>
      clear.clears member (fun _ isMarked => isMarked) own
  have steady : ∀ node ∈ (bracketAll marks nodes).map (mapRuns (isMarked marks) (Word.lit hue) false),
      Steady (· == mark.lineage) false node := by
    intro node member
    obtain ⟨old, among, rfl⟩ := List.mem_map.mp member
    refine .mapRuns old _ _ (steady_bracketAll (fun x isIn => ?_) old among)
    exact steady_bracket x _ ((clear.clears isIn own own).mono fun _ => IsClear.next)
  rw [annotate, ← map_bracketAll_of_clear areOld clear fewer fewer, expandAll_bookmarked _ _ _ steady,
    List.map_map, joined, map_bracketAll_of_clear areOld clear (fun _ isMarked => isMarked) fewer,
    expandAll_wrap isNew _ (still ▸ single)]
  rfl

/-! ### The elements of annotated nodes -/

theorem AreBlank.elementsOf (blank : AreBlank nodes) : Node.elementsOf nodes = nodes := by
  have each : ∀ x ∈ nodes, x.elements = [x] := by
    intro x member
    obtain ⟨name, attributes, -, rfl⟩ := blank x member
    rfl
  rw [Node.elementsOf_eq_flatMap, List.flatMap_congr each, List.flatMap_singleton']

theorem elementsOf_bracketAll (marks : List Mark) (nodes : List Node) :
    Node.elementsOf (bracketAll marks nodes) = nodes.flatMap fun x =>
      openings marks x.lineage ++ ((bracket marks x).elements ++ closings marks x.lineage) := by
  rw [Node.elementsOf_eq_flatMap, bracketAll_eq, List.flatMap_assoc]
  refine List.flatMap_congr fun x _ => ?_
  rw [List.flatMap_append, List.flatMap_cons, ← Node.elementsOf_eq_flatMap,
    ← Node.elementsOf_eq_flatMap, (areBlank_openings marks _).elementsOf,
    (areBlank_closings marks _).elementsOf]

theorem elements_bracket_element {traits : Traits} :
    (bracket marks (.element name lineage traits nodes)).elements =
      bracket marks (.element name lineage traits nodes) ::
        Node.elementsOf (bracketAll marks nodes) := rfl

/-- Bookmarks are no elements that anybody refers to. -/
theorem lineages_bracketAll {p : Lineage → Bool} (unnamed : p [] = false) (nodes : List Node) :
    lineages p (bracketAll marks nodes) = lineages p nodes := by
  have nothing {others : List Node} (blank : AreBlank others) :
      (others.map (·.lineage)).filter p = [] := by
    rw [List.filter_eq_nil_iff]
    intro lineage member
    obtain ⟨x, among, rfl⟩ := List.mem_map.mp member
    obtain ⟨name, attributes, -, rfl⟩ := blank x among
    exact ne_true_of_eq_false unnamed
  induction nodes using Node.forest_induction
    (fun node => lineages p [bracket marks node] = lineages p [node]) with
  | forest nodes each =>
    rw [lineages_eq_flatMap p nodes, lineages, elementsOf_bracketAll, List.map_flatMap,
      List.filter_flatMap]
    refine List.flatMap_congr fun node member => ?_
    rw [← each node member, lineages, Node.elementsOf_singleton, List.map_append, List.map_append,
      List.filter_append, List.filter_append, nothing (areBlank_openings marks _),
      nothing (areBlank_closings marks _), List.nil_append, List.append_nil]
  | element name lineage traits children below =>
    rw [bracket, lineages_element, lineages_element, below]
  | leaf node leaf => rw [bracket_leaf leaf]

theorem mem_elementsOf_bracketAll (inside : x ∈ Node.elementsOf nodes) (marks : List Mark) :
    bracket marks x ∈ Node.elementsOf (bracketAll marks nodes) := by
  have place {nodes : List Node} {node : Node} (member : node ∈ nodes)
      (within : bracket marks x ∈ (bracket marks node).elements) :
      bracket marks x ∈ Node.elementsOf (bracketAll marks nodes) := by
    rw [elementsOf_bracketAll]
    exact List.mem_flatMap.mpr
      ⟨node, member, List.mem_append_right _ (List.mem_append_left _ within)⟩
  have each (node : Node) : x ∈ node.elements → bracket marks x ∈ (bracket marks node).elements := by
    induction node using Node.induction with
    | element name lineage traits children ih =>
      intro within
      rw [elements_bracket_element]
      rcases Node.mem_elements_element.mp within with rfl | below
      · exact List.mem_cons_self
      · obtain ⟨child, member, isIn⟩ := Node.mem_elementsOf_iff.mp below
        exact List.mem_cons_of_mem _ (place member (ih child member isIn))
    | aside content tail => exact fun within => absurd within List.not_mem_nil
  obtain ⟨node, member, within⟩ := Node.mem_elementsOf_iff.mp inside
  exact place member (each node within)

/-- Elements of a kind are found as before, and once more around every element of a lineage if the
bookmarks of that element add one. -/
theorem countP_bracketAll {q : Node → Bool} (same : ∀ x, q (bracket marks x) = q x)
    (named : lineage ≠ []) (beside : ∀ own,
      (openings marks own).countP q + (closings marks own).countP q = if own = lineage then 1 else 0)
    (nodes : List Node) : (Node.elementsOf (bracketAll marks nodes)).countP q =
      (Node.elementsOf nodes).countP q + (lineages (· == lineage) nodes).length := by
  have own (node : Node) : (lineages (· == lineage) [node]).length =
      (lineages (· == lineage) node.children).length + if node.lineage = lineage then 1 else 0 := by
    cases node with
    | element name own traits children =>
      rw [lineages_element, List.length_append, Nat.add_comm, Node.lineage, Node.children]
      simp only [beq_iff_eq]
      split <;> rfl
    | aside content tail =>
      have isOther : (Node.aside content tail).lineage ≠ lineage := named.symm
      rw [if_neg isOther]
      rfl
  induction nodes using Node.forest_induction (fun node => (bracket marks node).elements.countP q =
    node.elements.countP q + (lineages (· == lineage) node.children).length) with
  | forest nodes each =>
    rw [elementsOf_bracketAll]
    induction nodes with
    | nil => rfl
    | cons node rest ih =>
      obtain ⟨here, later⟩ := List.forall_mem_cons.mp each
      rw [List.flatMap_cons, List.countP_append, List.countP_append, List.countP_append, ih later,
        here, lineages_eq_flatMap _ (node :: rest), List.flatMap_cons, ← lineages_eq_flatMap,
        List.length_append, own, ← beside node.lineage, Node.elementsOf, List.countP_append]
      omega
  | element name own traits children below =>
    rw [elements_bracket_element, List.countP_cons, same, below, Node.elements, List.countP_cons,
      Node.children]
    omega
  | leaf node leaf =>
    rw [bracket_leaf leaf, Node.elements_of_leaf leaf, Node.children_of_leaf leaf]
    rfl

/-- Some nodes stand next to each other in this order, among or below others. -/
def StandTogether (block nodes : List Node) : Prop :=
  block <:+: nodes ∨ ∃ parent ∈ Node.elementsOf nodes, block <:+: parent.children

/-- The bookmarks of an element stand around it, with nothing else between them. -/
theorem standTogether_bracketAll (inside : x ∈ Node.elementsOf nodes) (marks : List Mark) :
    StandTogether (openings marks x.lineage ++ bracket marks x :: closings marks x.lineage)
      (bracketAll marks nodes) := by
  have among {nodes : List Node} (member : x ∈ nodes) :
      openings marks x.lineage ++ bracket marks x :: closings marks x.lineage <:+:
        bracketAll marks nodes := by
    obtain ⟨front, rest, rfl⟩ := List.append_of_mem member
    rw [bracketAll_eq, List.flatMap_append, List.flatMap_cons]
    exact (List.infix_append' _ _ _)
  rcases Node.exists_parent inside with member | ⟨parent, isThere, member⟩
  · exact .inl (among member)
  · refine .inr ⟨bracket marks parent, mem_elementsOf_bracketAll isThere marks, ?_⟩
    rw [children_bracket]
    exact among member

/-! ### Taking bookmarks out -/

/-- The id of the bookmark that begins with a node, if it is one of some ids. -/
def opened (ids : List String) (node : Node) : Option String :=
  if node.isNamed Word.bookmarkStart then
    (node.attribute? Word.identifier).filter (ids.contains ·)
  else none

/-- Whether the bookmark of an id ends with a node that nobody refers to. -/
def closes (id : String) (node : Node) : Bool :=
  node.isNamed Word.bookmarkEnd && node.lineage.isEmpty && node.attribute? Word.identifier == some id

mutual

/-- Take the bookmarks of some ids out of a tree, if they are well bracketed. -/
def takeOut (ids : List String) : Node → Option Node
  | .element name lineage traits children =>
    (takeOutOf ids [] children).map (.element name lineage traits ·)
  | node => some node

/-- Take the bookmarks of some ids out of nodes that stand next to each other, and out of what is in
them. The stack holds the ids of the bookmarks that have begun, the last one first. A bookmark has
to end among the nodes where it began, and the last one that began has to end first. -/
def takeOutOf (ids : List String) : List String → List Node → Option (List Node)
  | [], [] => some []
  | _ :: _, [] => none
  | stack, node :: rest =>
    match opened ids node with
    | some id => takeOutOf ids (id :: stack) rest
    | none =>
      if stack.head?.any (closes · node) then takeOutOf ids stack.tail rest
      else do
        let node ← takeOut ids node
        let others ← takeOutOf ids stack rest
        return node :: others

end

variable {ids stack : List String}

theorem takeOutOf_opening {rest : List Node} (member : mark.id ∈ ids) :
    takeOutOf ids stack (mark.opening :: rest) = takeOutOf ids (mark.id :: stack) rest := by
  have isOpened : opened ids mark.opening = some mark.id := by
    have isId : mark.opening.attribute? Word.identifier = some mark.id := rfl
    refine (if_pos rfl).trans ?_
    rw [isId, Option.filter_some_pos]
    simpa using member
  cases stack <;> rw [takeOutOf, isOpened]

theorem takeOutOf_closing {rest : List Node} :
    takeOutOf ids (mark.id :: stack) (mark.closing :: rest) = takeOutOf ids stack rest := by
  have isClosed : closes mark.id mark.closing = true := by
    have isId : mark.closing.attribute? Word.identifier = some mark.id := rfl
    rw [closes, isId, beq_self_eq_true]
    rfl
  have notOpened : opened ids mark.closing = none := rfl
  rw [takeOutOf, notOpened]
  simp [isClosed]

theorem takeOutOf_openings (own : List Mark) (known : ∀ mark ∈ own, mark.id ∈ ids) (rest : List Node) :
    takeOutOf ids stack (own.map Mark.opening ++ rest) =
      takeOutOf ids ((own.map Mark.id).reverse ++ stack) rest := by
  induction own generalizing stack with
  | nil => rfl
  | cons mark others ih =>
    rw [List.forall_mem_cons] at known
    rw [List.map_cons, List.cons_append, takeOutOf_opening known.1, ih known.2, List.map_cons,
      List.reverse_cons, List.append_assoc, List.singleton_append]

theorem takeOutOf_closings (own : List Mark) (rest : List Node) :
    takeOutOf ids (own.map Mark.id ++ stack) (own.map Mark.closing ++ rest) =
      takeOutOf ids stack rest := by
  induction own with
  | nil => rfl
  | cons mark others ih =>
    rw [List.map_cons, List.map_cons, List.cons_append, List.cons_append, takeOutOf_closing, ih]

theorem takeOutOf_passed {rest left : List Node} (fresh : opened ids x = none)
    (stays : ∀ id, stack.head? = some id → closes id x = false) (below : takeOut ids x = some node)
    (onward : takeOutOf ids stack rest = some left) :
    takeOutOf ids stack (x :: rest) = some (node :: left) := by
  have passes : ¬ stack.head?.any (closes · x) = true := by
    cases top : stack.head? with
    | none => exact Bool.false_ne_true
    | some id => exact ne_true_of_eq_false (stays id top)
  cases stack <;>
    rw [takeOutOf, fresh] <;> simp only [if_neg passes, below, onward, Option.bind_eq_bind,
      Option.bind_some, Option.pure_def]

/-- Between its bookmarks an element is passed through. It does not end one of them itself, because it
is referred to. -/
theorem takeOutOf_between (own : List Mark) {rest left : List Node} (known : ∀ mark ∈ own, mark.id ∈ ids)
    (named : own ≠ [] → x.lineage ≠ []) (fresh : opened ids x = none)
    (below : takeOut ids x = some node) (onward : takeOutOf ids [] rest = some left) :
    takeOutOf ids [] (own.map Mark.opening ++ x :: own.reverse.map Mark.closing ++ rest) =
      some (node :: left) := by
  have closed : takeOutOf ids ((own.map Mark.id).reverse ++ [])
      (own.reverse.map Mark.closing ++ rest) = some left := by
    rw [← List.map_reverse, takeOutOf_closings, onward]
  rw [List.append_assoc, takeOutOf_openings own known, List.cons_append]
  refine takeOutOf_passed fresh (fun id top => ?_) below closed
  have something : own ≠ [] := by
    rintro rfl
    cases top
  have isNamed : x.lineage.isEmpty = false := by simpa using named something
  rw [closes, isNamed, Bool.and_false, Bool.false_and]

/-- Whoever takes out the bookmarks finds the nodes as they were. -/
theorem takeOutOf_bracketAll (named : IsNamed marks) (nodes : List Node)
    (fresh : ∀ x ∈ Node.elementsOf nodes, opened (marks.map Mark.id) x = none) :
    takeOutOf (marks.map Mark.id) [] (bracketAll marks nodes) = some nodes := by
  have known {lineage : Lineage} : ∀ mark ∈ marksOf marks lineage, mark.id ∈ marks.map Mark.id :=
    fun mark member => List.mem_map_of_mem (List.mem_filter.mp member).1
  have isNamed {lineage : Lineage} (some : marksOf marks lineage ≠ []) : lineage ≠ [] := by
    rintro rfl
    exact some (marksOf_eq_nil named.unmarked)
  induction nodes using Node.forest_induction (fun node =>
    (∀ x ∈ node.elements, opened (marks.map Mark.id) x = none) →
      takeOut (marks.map Mark.id) (bracket marks node) = some node) with
  | forest nodes each =>
    induction nodes with
    | nil => rfl
    | cons node rest ih =>
      obtain ⟨first, others⟩ := List.forall_mem_cons.mp each
      have onward := ih others fun x inside => fresh x (List.mem_append_right _ inside)
      have here (x : Node) (inside : x ∈ node.elements) := fresh x (List.mem_append_left _ inside)
      have isFresh : opened (marks.map Mark.id) (bracket marks node) = none := by
        cases node with
        | element name lineage traits children =>
          exact here (.element name lineage traits children) List.mem_cons_self
        | aside content tail => rfl
      refine takeOutOf_between (marksOf marks node.lineage) known (fun some => ?_) isFresh
        (first here) onward
      rw [lineage_bracket]
      exact isNamed some
  | element name lineage traits children below fresh =>
    rw [bracket, takeOut, below fun x inside => fresh x (List.mem_cons_of_mem _ inside)]
    rfl
  | leaf node leaf =>
    cases node with
    | element => cases leaf
    | aside content tail => rfl

end TemplateFill.Report
