import TemplateFill.Proofs.Control.Unmarking
import TemplateFill.Proofs.Walk.Erasure
import TemplateFill.Proofs.Walk.Placement

/-!
# Hidden content leaves no trace

A control that is hidden goes away together with what is in it, and before it goes nothing but its
properties is looked at. Two templates that only differ in such controls are therefore walked
alike, however the controls are repeated, and with whatever lists the walk began.

A control is looked at wherever the walk comes to it, with the scope that it has there. That is
what the relation between two such templates follows.
-/

namespace TemplateFill.Walk

open Xml

/-! ### Controls that lead further down -/

/-- A conditional control whose condition holds, or that there is something to complain about. -/
def IsShown (scope : Datum) (node : Node) : Prop :=
  (∀ obstacle, (Control.read node).kind ≠ .unsupported obstacle) ∧
    (Control.read node).kind ≠ .repeatingSection ∧
    ∃ condition verdict, (Control.read node).condition? = some condition ∧
      Condition.evaluate condition scope = .ok verdict ∧
        (verdict.holds ∨ verdict.complaint.isSome)

def IsRepeated (scope : Datum) (node : Node) (values : List Datum) : Prop :=
  (Control.read node).kind = .repeatingSection ∧ (Control.read node).condition? = none ∧
    Scope.resolve scope (Control.read node).label = .ok (some (.list values))

section Courses

variable {scope : Datum} {node other item : Node} {values : List Datum}

/-- What is complained about is decided by what is read of a control. -/
theorem course_of_isShown (isShown : IsShown scope node) :
    ∃ complaint, ∀ other, Control.read other = Control.read node →
      ∀ options place lists, course options place scope lists other = .shown complaint := by
  obtain ⟨supported, noSection, condition, verdict, conditional, evaluated, shows⟩ := isShown
  have judged : ∃ complaint,
      conditionCourse condition (Control.read node).label (.ok verdict) = .shown complaint := by
    simp only [conditionCourse]
    cases isBlamed : verdict.complaint with
    | some complaint => exact ⟨_, rfl⟩
    | none =>
      have holds : verdict.holds := by simpa [isBlamed] using shows
      exact ⟨none, if_pos holds⟩
  obtain ⟨complaint, isShown⟩ := judged
  refine ⟨complaint, fun other same options place lists => ?_⟩
  rw [course, same]
  split
  · rename_i obstacle unsupported
    exact absurd unsupported (supported obstacle)
  · rw [conditional]
    simp only [if_neg noSection, evaluated]
    exact isShown

theorem course_of_isRepeated (isRepeated : IsRepeated scope node values)
    (same : Control.read other = Control.read node)
    (isItem : sectionItem (Control.read node).label other = .ok item) (options : Options)
    (place : Place) (lists : ListStore) :
    course options place scope lists other = .repeated item values := by
  obtain ⟨isSection, unconditional, resolved⟩ := isRepeated
  rw [course, same, isSection, unconditional]
  simp only [resolved, lookupCourse, sectionCourse, isItem]

theorem isHidden_congr (same : Control.read other = Control.read node)
    (isHidden : IsHidden scope node) : IsHidden scope other := by
  rw [IsHidden, same]
  exact isHidden

end Courses

/-! ### Sections around other items -/

section Items

variable {node other : Node}

theorem read_withItems (items : List Node) (node : Node) :
    Control.read (withItems items node) = Control.read node := by
  rw [withItems]
  cases isContent : Control.content? node with
  | none => rfl
  | some content =>
    refine Control.read_replaceContent ?_ node
    have named : content.isNamed Word.controlContent := List.find?_some isContent
    rwa [Node.isNamed, Node.name?_withChildren]

theorem isControl_withItems (items : List Node) (node : Node) :
    Control.isControl (withItems items node) = Control.isControl node := by
  obtain ⟨children, same⟩ := SameElement.withItems items node
  rw [same, Control.isControl, Node.isNamed, Node.name?_withChildren]
  rfl

/-- A section can be emptied before it gets its items. -/
theorem withItems_emptied (items : List Node) (node : Node) :
    withItems items (withItems [] node) = withItems items node := by
  cases isContent : Control.content? node with
  | none =>
    have empty : withItems [] node = node := by rw [withItems, isContent]
    rw [empty]
  | some content =>
    have named : content.isNamed Word.controlContent := List.find?_some isContent
    have still : (content.withChildren []).isNamed Word.controlContent := by
      rwa [Node.isNamed, Node.name?_withChildren]
    have emptied : withItems [] node = node.replaceChild Word.controlContent
        (content.withChildren []) := by
      rw [withItems, isContent]
    have area : Control.content? (withItems [] node) = some (content.withChildren []) := by
      rw [emptied]
      exact Node.child?_replaceChild isContent still
    rw [withItems, area, emptied]
    simp only
    rw [Node.withChildren_withChildren, Node.replaceChild_replaceChild still, withItems,
      isContent]

variable (around : withItems [] node = withItems [] other)
include around

theorem withItems_congr (items : List Node) : withItems items node = withItems items other := by
  rw [← withItems_emptied, around, withItems_emptied]

theorem read_of_around : Control.read other = Control.read node := by
  rw [← read_withItems [] other, ← around, read_withItems]

theorem isControl_of_around (isControl : Control.isControl node) : Control.isControl other := by
  rwa [← isControl_withItems [] other, ← around, isControl_withItems]

end Items

/-! ### Templates that only differ in hidden controls -/

/-- Two rows of nodes are the same, except that the controls that are hidden where the walk comes
to them may differ in everything but their properties. Controls that the walk goes through have
the same properties, and a section differs for each of its objects in no other way. -/
inductive Twins : Datum → List Node → List Node → Prop
  | nil {scope} : Twins scope [] []
  | same {scope node rest others} (onward : Twins scope rest others) :
      Twins scope (node :: rest) (node :: others)
  | element {scope name lineage traits children inside rest others}
      (other : name ≠ Word.control) (below : Twins scope children inside)
      (onward : Twins scope rest others) :
      Twins scope (.element name lineage traits children :: rest)
        (.element name lineage traits inside :: others)
  | hidden {scope first second rest others} (isControl : Control.isControl first)
      (alsoControl : Control.isControl second) (isHidden : IsHidden scope first)
      (properties : Control.properties? second = Control.properties? first)
      (onward : Twins scope rest others) : Twins scope (first :: rest) (second :: others)
  | shown {scope node inside rest others} (isControl : Control.isControl node)
      (isShown : IsShown scope node)
      (properties : Control.properties? (node.withChildren inside) = Control.properties? node)
      (below : Twins scope node.children inside) (onward : Twins scope rest others) :
      Twins scope (node :: rest) (node.withChildren inside :: others)
  | repeated {scope first second item inside values rest others}
      (isControl : Control.isControl first) (isRepeated : IsRepeated scope first values)
      (isItem : sectionItem (Control.read first).label first = .ok item)
      (otherItem : sectionItem (Control.read first).label second = .ok (item.withChildren inside))
      (around : withItems [] first = withItems [] second)
      (each : ∀ members, .object members ∈ values → Twins (.object members) item.children inside)
      (onward : Twins scope rest others) : Twins scope (first :: rest) (second :: others)

section Walks

variable {options : Options} {place : Place} {scope : Datum} {node other : Node}
  {rest others : List Node}

/-- Rows are walked alike if their first nodes are and their rests are. -/
theorem Alike.cons
    (here : ∀ lists, Alike (effect (populateAll options place scope [node]) lists)
      (effect (populateAll options place scope [other]) lists))
    (onward : ∀ lists, Alike (effect (populateAll options place scope rest) lists)
      (effect (populateAll options place scope others) lists)) (lists : ListStore) :
    Alike (effect (populateAll options place scope (node :: rest)) lists)
      (effect (populateAll options place scope (other :: others)) lists) := by
  have first := here lists
  rw [effect_populateAll_singleton, effect_populateAll_singleton] at first
  have further := onward (effect (populateNode options place scope node) lists).lists
  rw [effect_populateAll_cons, effect_populateAll_cons]
  dsimp only
  rw [← first.lists]
  refine ⟨?_, further.lists, first.problems.append further.problems⟩
  rw [List.map_append, List.map_append, first.value, further.value]

theorem hide_congr (isInside : place.parent.isSome) (node other : Node) :
    hide place node = hide place other := by
  obtain ⟨parent, isParent⟩ := Option.isSome_iff_exists.mp isInside
  rw [hide, hide, isParent]

/-- Copies are walked alike if their models are. -/
theorem alike_copies {first second : Node} (index : Nat) (isInside : place.parent.isSome)
    (models : ∀ lists, Alike (effect (populateAll options place scope first.children) lists)
      (effect (populateAll options place scope second.children) lists)) (lists : ListStore) :
    Alike (effect (populateAll options place scope (first.copy index).children) lists)
      (effect (populateAll options place scope (second.copy index).children) lists) := by
  have same (node : Node) :
      (node.copy index).children.map Node.bare = node.children.map Node.bare := by
    rw [← Node.children_bare, Node.bare_copy, Node.children_bare]
  exact (alike_of_bare isInside (same first)).trans
    ((models lists).trans (alike_of_bare isInside (same second)).symm)

/-- The same values are put alike into items that are walked alike for every object. -/
theorem alike_items {item other : Node} {values : List Datum} (tag : String) (one two : Lineage)
    (isInside : place.parent.isSome)
    (shell : (item.withChildren []).bare = (other.withChildren []).bare)
    (each : ∀ members, .object members ∈ values → ∀ lists,
      Alike (effect (populateAll options place (.object members) item.children) lists)
        (effect (populateAll options place (.object members) other.children) lists))
    (index : Nat) (lists : ListStore) :
    let first := effect (populateItems options place tag one item index values) lists
    let second := effect (populateItems options place tag two other index values) lists
    Alike ⟨first.value.1, first.lists, first.findings⟩
        ⟨second.value.1, second.lists, second.findings⟩ ∧ first.value.2 = second.value.2 := by
  induction values generalizing index lists with
  | nil =>
    rw [effect_populateItems_nil, effect_populateItems_nil]
    exact ⟨.refl _, rfl⟩
  | cons value rest ih =>
    have onward := ih fun members member => each members (List.mem_cons_of_mem _ member)
    by_cases isObject : ∃ members, value = .object members
    · obtain ⟨members, rfl⟩ := isObject
      have here := alike_copies index isInside (each members List.mem_cons_self) lists
      rw [effect_populateItems_object, effect_populateItems_object]
      dsimp only
      rw [← here.lists]
      obtain ⟨others, fault⟩ := onward (index + 1)
        (effect (populateAll options place (.object members) (item.copy index).children) lists).lists
      refine ⟨⟨?_, others.lists, here.problems.append others.problems⟩, fault⟩
      have copies (inside : List Node) (node : Node) : ((node.copy index).withChildren inside).bare =
          (node.withChildren []).bare.withChildren (inside.map Node.bare) := by
        rw [Node.bare_withChildren, Node.bare_copy, Node.bare_withChildren,
          Node.withChildren_withChildren]
      rw [List.map_cons, List.map_cons, copies, copies, shell, here.value, others.value]
    · have noObject : ∀ members, value ≠ .object members := fun members same =>
        isObject ⟨members, same⟩
      cases isShown : Scope.stringify value with
      | error cause =>
        rw [effect_populateItems_unshown noObject isShown,
          effect_populateItems_unshown noObject isShown]
        exact ⟨.refl _, rfl⟩
      | ok shown =>
        obtain ⟨others, fault⟩ := onward (index + 1) lists
        rw [effect_populateItems_other noObject isShown,
          effect_populateItems_other noObject isShown]
        exact ⟨⟨others.value, others.lists, (SameProblems.about [_] one two).append others.problems⟩,
          fault⟩

/-- A section gets its items alike. -/
theorem alike_section {first second item other : Node} {values : List Datum}
    (isControl : Control.isControl first) (isRepeated : IsRepeated scope first values)
    (isItem : sectionItem (Control.read first).label first = .ok item)
    (otherItem : sectionItem (Control.read first).label second = .ok other)
    (around : withItems [] first = withItems [] second)
    (shell : (item.withChildren []).bare = (other.withChildren []).bare)
    (each : ∀ members, .object members ∈ values → ∀ lists,
      Alike (effect (populateAll options place.ofItem (.object members) item.children) lists)
        (effect (populateAll options place.ofItem (.object members) other.children) lists))
    (lists : ListStore) :
    Alike (effect (populateAll options place scope [first]) lists)
      (effect (populateAll options place scope [second]) lists) := by
  have same := read_of_around around
  obtain ⟨copies, fault⟩ := alike_items (Control.read first).label first.lineage second.lineage rfl
    shell each 0 lists
  rw [effect_populateAll_control isControl
      (course_of_isRepeated isRepeated rfl isItem options place lists),
    effect_populateAll_control (isControl_of_around around isControl)
      (course_of_isRepeated isRepeated same otherItem options place lists), follow, follow, same,
    ← fault]
  refine ⟨?_, copies.lists, copies.problems.append ?_⟩
  · have value := copies.value
    dsimp only at value
    rw [List.map_singleton, List.map_singleton, bare_withItems, value, ← bare_withItems,
      withItems_congr around]
  · cases (effect (populateItems options place.ofItem (Control.read first).label first.lineage item
        0 values) lists).value.2 with
    | none => rfl
    | some cause => rfl

/-- What differs only in hidden controls is walked alike. -/
theorem Twins.alike {nodes others : List Node} (twins : Twins scope nodes others)
    (isInside : place.parent.isSome) (lists : ListStore) :
    Alike (effect (populateAll options place scope nodes) lists)
      (effect (populateAll options place scope others) lists) := by
  induction twins generalizing place lists with
  | nil => exact .refl _
  | same _ ih => exact .cons (fun _ => .refl _) (ih isInside) lists
  | @element _ name _ _ _ _ _ _ other _ _ ihBelow ih =>
    refine .cons (fun lists => ?_) (ih isInside) lists
    have isBelow : (place.enter name).parent.isSome := rfl
    have below := ihBelow isBelow lists
    rw [effect_populateAll_element other, effect_populateAll_element other]
    refine ⟨?_, below.lists, below.problems⟩
    rw [List.map_singleton, List.map_singleton, Node.bare_element, Node.bare_element, below.value]
  | @hidden _ first second _ _ isControl alsoControl isHidden properties _ ih =>
    refine .cons (fun lists => ?_) (ih isInside) lists
    have alsoHidden := isHidden_congr (Control.read_congr properties) isHidden
    rw [effect_populateAll_control isControl (course_eq_hidden_iff.mpr isHidden),
      effect_populateAll_control alsoControl (course_eq_hidden_iff.mpr alsoHidden), follow, follow,
      hide_congr isInside first second]
    exact .refl _
  | @shown _ node inside _ _ isControl isShown properties _ _ ihBelow ih =>
    refine .cons (fun lists => ?_) (ih isInside) lists
    obtain ⟨complaint, isCourse⟩ := course_of_isShown isShown
    have alsoControl : Control.isControl (node.withChildren inside) := by
      rwa [Control.isControl, Node.isNamed, Node.name?_withChildren]
    have isElement := Node.isElement_of_isNamed isControl
    have isBelow : (place.enter Word.control).parent.isSome := rfl
    have below := ihBelow isBelow lists
    rw [effect_populateAll_control isControl (isCourse node rfl options place lists),
      effect_populateAll_control alsoControl
        (isCourse _ (Control.read_congr properties) options place lists), follow, follow,
      Node.children_withChildren isElement, Node.withChildren_withChildren]
    refine ⟨?_, below.lists, (SameProblems.about _ _ _).append below.problems⟩
    rw [List.map_singleton, List.map_singleton, Node.bare_withChildren, Node.bare_withChildren,
      below.value]
  | @repeated _ first second item inside _ _ _ isControl isRepeated isItem otherItem around _ _
      ihEach ih =>
    refine .cons (alike_section isControl isRepeated isItem otherItem around ?_ ?_) (ih isInside)
      lists
    · rw [Node.withChildren_withChildren]
    · intro members member lists
      have isElement := Node.isElement_of_isNamed (isControl_of_sectionItem isItem).1
      rw [Node.children_withChildren isElement]
      exact ihEach members member rfl lists

end Walks

/-- Roots of one name are populated alike if their children are walked alike. -/
theorem alike_populate {options : Options} {scope : Datum} {lists : ListStore} {name : Name}
    {first second : Node} (named : first.name? = some name) (alsoNamed : second.name? = some name)
    (shell : (first.withChildren []).bare = (second.withChildren []).bare)
    (below : Alike (effect (populateAll options (Place.outside.enter name) scope first.children) lists)
      (effect (populateAll options (Place.outside.enter name) scope second.children) lists)) :
    let one := populate options first scope (.start lists)
    let two := populate options second scope (.start lists)
    one.1.bare = two.1.bare ∧ one.2.lists = two.2.lists ∧
      SameProblems one.2.findings two.2.findings := by
  have walked (root : Node) (isNamed : root.name? = some name) :
      effect (populate options root scope) lists =
        let below :=
          effect (populateAll options (Place.outside.enter name) scope root.children) lists
        ⟨root.withChildren below.value, below.lists, below.findings⟩ := by
    rw [effect_populate, Place.ofRoot, isNamed]
  have left (root : Node) (inside : List Node) : (root.withChildren inside).bare =
      (root.withChildren []).bare.withChildren (inside.map Node.bare) := by
    rw [Node.bare_withChildren, Node.bare_withChildren, Node.withChildren_withChildren]
  change (effect (populate options first scope) lists).value.bare =
      (effect (populate options second scope) lists).value.bare ∧
    (effect (populate options first scope) lists).lists =
      (effect (populate options second scope) lists).lists ∧
    SameProblems (effect (populate options first scope) lists).findings
      (effect (populate options second scope) lists).findings
  rw [walked first named, walked second alsoNamed]
  dsimp only
  exact ⟨by rw [left first, left second, shell, below.value], below.lists, below.problems⟩

/-- Hidden controls leave no trace: two templates that only differ in them are left the same, with
the same lists and the same problems in the same order. -/
theorem populate_hides (options : Options) (scope : Datum) (lists : ListStore) (next another : Nat)
    (body : Node) (others : List Node) (twins : Twins scope body.children others) :
    let first := populate options (Control.enroll next body).1 scope (.start lists)
    let second :=
      populate options (Control.enroll another (body.withChildren others)).1 scope (.start lists)
    first.1.bare = second.1.bare ∧ first.2.lists = second.2.lists ∧
      first.2.findings.map Finding.problem = second.2.findings.map Finding.problem := by
  cases body with
  | element name lineage traits children =>
    have numbered (next : Nat) (node : Node) : (Control.enroll next node).1.children.map Node.bare =
        node.children.map Node.bare := by
      rw [← Node.children_bare, Control.bare_enroll, Node.children_bare]
    have sameName (next : Nat) (node : Node) : (Control.enroll next node).1.name? = node.name? := by
      rw [← Node.name?_bare, Control.bare_enroll, Node.name?_bare]
    have shell (next : Nat) (inside : List Node) :
        ((Control.enroll next (.element name lineage traits inside)).1.withChildren []).bare =
          .element name [] traits [] := by
      rw [Node.bare_withChildren, Control.bare_enroll, Node.bare_element]
      rfl
    refine alike_populate (sameName _ _) (sameName _ _)
      ((shell next children).trans (shell another others).symm) ?_
    have isInside : (Place.outside.enter name).parent.isSome := rfl
    have here := numbered next (.element name lineage traits children)
    have there := numbered another (.element name lineage traits others)
    exact (alike_of_bare isInside here).trans
      ((twins.alike isInside lists).trans (alike_of_bare isInside there).symm)
  | aside content tail => exact ⟨rfl, rfl, rfl⟩

def conditional (lineage : Lineage) (content : List Node) : Node :=
  .element Word.control lineage (.ofList [])
    [.plain Word.controlContent [] content,
      .plain Word.controlProperties [] [.plain Word.controlTag [(Word.value, "visible:b")] []]]

theorem isHidden_conditional {scope : Datum} (lineage : Lineage) (content : List Node)
    (evaluated : Condition.evaluate "b" scope = .ok ⟨false, none⟩) :
    IsHidden scope (conditional lineage content) := by
  have same : Control.read (conditional lineage content) = Control.read (conditional [] []) :=
    Control.read_congr rfl
  have isText : (Control.read (conditional [] [])).kind = .richText := by decide +kernel
  have isConditional : (Control.read (conditional [] [])).condition? = some "b" := by
    decide +kernel
  rw [IsHidden, same, isText]
  exact ⟨fun obstacle other => Control.Kind.noConfusion other,
    fun other => Control.Kind.noConfusion other, "b", isConditional, evaluated⟩

/-- A body whose only section repeats a control around that one. -/
def crowdBody (content : List Node) : Node :=
  .plain Word.body []
    [.plain Word.control []
      [.plain Word.controlProperties []
          [.plain Word.controlTag [(Word.value, "a")] [], .plain Word.repeatingSectionMark [] []],
        .plain Word.controlContent [] [.plain Word.control [] [conditional [] content]]]]

def crowd : List Datum := [.object [], .object [(.text "b", .int 0)]]

/-- A control without a tag would be a problem in every copy, if it was not hidden. -/
theorem populate_hides_untagged :
    let scope := Datum.object [(.text "a", .list crowd)]
    let others := (crowdBody [.plain Word.control [] []]).children
    let first :=
      populate .standard (Control.enroll 0 (crowdBody [])).1 scope (.start (.document none))
    let second := populate .standard (Control.enroll 0 ((crowdBody []).withChildren others)).1 scope
      (.start (.document none))
    Twins scope (crowdBody []).children others ∧ first.1.bare = second.1.bare ∧
      first.2.lists = second.2.lists ∧
      first.2.findings.map Finding.problem = second.2.findings.map Finding.problem := by
  intro scope others
  have hidden : ∀ members, .object members ∈ crowd →
      Condition.evaluate "b" (.object members) = .ok ⟨false, none⟩ := by
    intro members member
    rcases List.mem_cons.mp member with same | member
    · rw [same]
      with_unfolding_all rfl
    · rw [List.mem_singleton.mp member]
      with_unfolding_all rfl
  have isRepeated : IsRepeated scope
      (.plain Word.control []
        [.plain Word.controlProperties []
            [.plain Word.controlTag [(Word.value, "a")] [], .plain Word.repeatingSectionMark [] []],
          .plain Word.controlContent [] [.plain Word.control [] [conditional [] []]]]) crowd := by
    refine ⟨by decide +kernel, by decide +kernel, ?_⟩
    with_unfolding_all rfl
  have twins : Twins scope (crowdBody []).children others := by
    refine .repeated rfl isRepeated rfl rfl rfl (fun members member => ?_) .nil
    exact .hidden rfl rfl (isHidden_conditional [] [] (hidden members member)) rfl .nil
  exact ⟨twins, populate_hides .standard scope (.document none) 0 0 (crowdBody []) others twins⟩

/-! ### Properties that hold hidden controls -/

/-- A control that takes its tag from the content of a control in its properties. -/
def guided (outer inner : Lineage) (tag : String) : Node :=
  .element Word.control outer (.ofList [])
    [.plain Word.controlProperties []
      [conditional inner [.plain Word.controlTag [(Word.value, tag)] []]]]

def guidedBody (tag : String) : Node := .plain Word.body [] [guided [] [] tag]

/-- Data that hides the inner control. -/
def guidedScope : Datum := .object [(.text "a", .int 1)]

theorem course_guided_blamed (place : Place) (lists : ListStore) :
    course .standard place guidedScope lists (guided [0] [1] "visible:") =
      .shown (some (.badCondition "" .emptyOperand)) := by
  have kind : (Control.read (guided [0] [1] "visible:")).kind = .richText := by decide +kernel
  have isConditional : (Control.read (guided [0] [1] "visible:")).condition? = some "" := by
    decide +kernel
  have blamed : Condition.evaluate "" guidedScope = .ok (.blamed .emptyOperand) := by rfl
  rw [course, kind, isConditional]
  simp only [blamed]
  rfl

theorem course_guided_shown (place : Place) (lists : ListStore) :
    course .standard place guidedScope lists (guided [0] [1] "visible:a") = .shown none := by
  have kind : (Control.read (guided [0] [1] "visible:a")).kind = .richText := by decide +kernel
  have isConditional : (Control.read (guided [0] [1] "visible:a")).condition? = some "a" := by
    decide +kernel
  have evaluated : Condition.evaluate "a" guidedScope = .ok ⟨true, none⟩ := by rfl
  rw [course, kind, isConditional]
  simp only [evaluated]
  rfl

theorem effect_guided {complaint : Option Problem} (tag : String) (place : Place)
    (lists : ListStore)
    (h : course .standard place guidedScope lists (guided [0] [1] tag) = .shown complaint) :
    effect (populateAll .standard place guidedScope [guided [0] [1] tag]) lists =
      ⟨[.element Word.control [0] (.ofList []) [.plain Word.controlProperties [] []]], lists,
        complaint.toList.map fun problem => ⟨problem, [0]⟩⟩ := by
  have other : Word.controlProperties ≠ Word.control := by decide
  have evaluated : Condition.evaluate "b" guidedScope = .ok ⟨false, none⟩ := by
    with_unfolding_all rfl
  have inner (place : Place) (isInside : place.parent = some Word.controlProperties) :
      effect (populateAll .standard place guidedScope
        [conditional [1] [.plain Word.controlTag [(Word.value, tag)] []]]) lists =
          ⟨[], lists, []⟩ := by
    rw [effect_populateAll_control rfl
      (course_eq_hidden_iff.mpr (isHidden_conditional _ _ evaluated)), follow, hide, isInside]
    rfl
  rw [effect_populateAll_control rfl h, follow, guided, Node.children, Node.plain,
    effect_populateAll_element other, inner _ rfl, List.append_nil]
  rfl

/-- Two such bodies only differ in the content of a control that the walk comes to and hides, and
yet one of them has a problem: the tag of the outer control is looked for at any depth. -/
theorem guidedBodies_differ :
    let first := populate .standard (Control.enroll 0 (guidedBody "visible:")).1 guidedScope
      (.start (.document none))
    let second := populate .standard (Control.enroll 0 (guidedBody "visible:a")).1 guidedScope
      (.start (.document none))
    (∀ content, IsHidden guidedScope (conditional [1] content)) ∧
      first.1 = .plain Word.body []
        [.element Word.control [0] (.ofList []) [.plain Word.controlProperties [] []]] ∧
      second.1 = first.1 ∧ first.2.findings.map Finding.problem = [.badCondition "" .emptyOperand] ∧
      second.2.findings.map Finding.problem = [] := by
  have evaluated : Condition.evaluate "b" guidedScope = .ok ⟨false, none⟩ := by
    with_unfolding_all rfl
  have walked (tag : String) (complaint : Option Problem)
      (h : ∀ place lists, course .standard place guidedScope lists (guided [0] [1] tag) =
        .shown complaint) :
      effect (populate .standard (Control.enroll 0 (guidedBody tag)).1 guidedScope)
          (.document none) =
        ⟨.plain Word.body []
            [.element Word.control [0] (.ofList []) [.plain Word.controlProperties [] []]],
          .document none, complaint.toList.map fun problem => ⟨problem, [0]⟩⟩ := by
    have numbered : (Control.enroll 0 (guidedBody tag)).1 =
        .plain Word.body [] [guided [0] [1] tag] := rfl
    rw [numbered, effect_populate, Node.plain, Node.children, effect_guided tag _ _ (h _ _)]
    rfl
  have first := walked "visible:" _ course_guided_blamed
  have second := walked "visible:a" _ course_guided_shown
  refine ⟨fun content => isHidden_conditional _ content evaluated, congrArg Effect.value first, ?_,
    ?_, ?_⟩
  · exact (congrArg Effect.value second).trans (congrArg Effect.value first).symm
  · exact congrArg (List.map Finding.problem) (congrArg Effect.findings first)
  · exact congrArg (List.map Finding.problem) (congrArg Effect.findings second)

end TemplateFill.Walk
