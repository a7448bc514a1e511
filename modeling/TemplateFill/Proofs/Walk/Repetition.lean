import TemplateFill.Proofs.Control.LastWrite
import TemplateFill.Proofs.Control.RichText
import TemplateFill.Proofs.Walk.Composition
import TemplateFill.Proofs.Walk.Exclusion
import TemplateFill.Proofs.Walk.Lists

/-!
# Populating again

A walk over what a walk with the same data has left does the same again: it changes nothing and
finds the same problems, as long as nothing accumulates. Every control that is still there is read
as before and goes the same course, and what is written into it is there already. This also holds
of what was left half finished, because writing stops again where it has stopped before.
-/

namespace TemplateFill.Walk

open Xml

/-! ### What a walk visits -/

/-- Whether a walk goes on below a control because its condition says so. -/
def isShown (scope : Datum) (node : Node) : Bool :=
  match (Control.read node).kind with
  | .unsupported _ | .repeatingSection => false
  | .plainText | .richText =>
    match (Control.read node).condition?.map (Condition.evaluate · scope) with
    | some (.ok verdict) => verdict.holds || verdict.complaint.isSome
    | _ => false

mutual

/-- The controls that a walk visits in a tree without sections, in document order. -/
def visited (scope : Datum) : Node → List Node
  | .element name lineage traits children =>
    if name = Word.control then
      .element name lineage traits children ::
        if isShown scope (.element name lineage traits children) then
          visitedOf scope children
        else []
    else visitedOf scope children
  | _ => []

/-- The controls that a walk visits among and below some nodes. -/
def visitedOf (scope : Datum) : List Node → List Node
  | [] => []
  | node :: rest => visited scope node ++ visitedOf scope rest

end

/-- The value that a walk turns into the content of a rich text control. -/
def richValue? (scope : Datum) (node : Node) : Option Datum :=
  let control := Control.read node
  if control.kind = .richText ∧ control.condition? = none ∧
      Control.isPlainTextOnly node = false ∧ (Control.content? node).isSome then
    match Scope.resolve scope control.label with
    | .ok value => value
    | .error _ => none
  else none

/-- Templates in which nothing accumulates: no section repeats anything, no rich text that is
visited has lists, and what is removed in the course of writing holds nothing. -/
structure IsStationary (scope : Datum) (nodes : List Node) : Prop where
  noSections : ∀ x ∈ Control.all nodes, (Control.read x).kind ≠ .repeatingSection
  noLists : ∀ x ∈ visitedOf scope nodes, ∀ value ∈ richValue? scope x, holdsList value = false
  styles : ∀ x ∈ Node.elementsOf nodes, x.isNamed Word.runStyle → x.children = []
  marks : ∀ x ∈ Node.elementsOf nodes, x.isNamed Word.placeholderMark → x.children = []

/-- Moreover a control that is shown has no other control in its properties. Otherwise these could
change when the walk goes on below, and with them what the control takes. -/
structure IsRepeatable (scope : Datum) (nodes : List Node) : Prop
    extends IsStationary scope nodes where
  bare : ∀ x ∈ visitedOf scope nodes, isShown scope x →
    ∀ properties ∈ Control.properties? x, ControlFree properties.children

section Repeatable

variable {scope : Datum} {node : Node} {nodes left rest : List Node}

/-- Fewer nodes with fewer controls to visit. -/
theorem IsRepeatable.subset (h : IsRepeatable scope nodes)
    (fewer : Node.elementsOf left ⊆ Node.elementsOf nodes)
    (fewerVisits : visitedOf scope left ⊆ visitedOf scope nodes) : IsRepeatable scope left where
  noSections x inside := by
    obtain ⟨within, isControl⟩ := List.mem_filter.mp inside
    exact h.noSections x (List.mem_filter.mpr ⟨fewer within, isControl⟩)
  noLists x inside := h.noLists x (fewerVisits inside)
  styles x inside := h.styles x (fewer inside)
  marks x inside := h.marks x (fewer inside)
  bare x inside := h.bare x (fewerVisits inside)

theorem IsRepeatable.head (h : IsRepeatable scope (node :: rest)) : IsRepeatable scope [node] := by
  refine h.subset ?_ ?_
  · rw [Node.elementsOf_singleton, Node.elementsOf]
    exact List.subset_append_left _ _
  · rw [visitedOf, visitedOf, visitedOf, List.append_nil]
    exact List.subset_append_left _ _

theorem IsRepeatable.tail (h : IsRepeatable scope (node :: rest)) : IsRepeatable scope rest :=
  h.subset (List.subset_append_right _ _) (List.subset_append_right _ _)

variable {name : Name} {lineage : Lineage} {traits : Traits} {children : List Node}

theorem IsRepeatable.content (h : IsRepeatable scope [.element name lineage traits children])
    (walked : name = Word.control → isShown scope (.element name lineage traits children)) :
    IsRepeatable scope children := by
  refine h.subset ?_ ?_
  · rw [Node.elementsOf_singleton]
    exact List.subset_cons_self _ _
  · rw [visitedOf, visitedOf, List.append_nil, visited]
    split
    · rename_i isControl
      rw [if_pos (walked isControl)]
      exact List.subset_cons_self _ _
    · exact List.Subset.refl _

theorem mem_visitedOf_self (isControl : Control.isControl node) : node ∈ visitedOf scope [node] := by
  obtain ⟨lineage, traits, children, rfl⟩ := Node.exists_of_isNamed isControl
  rw [visitedOf, visited, if_pos rfl]
  exact List.mem_cons_self

theorem IsRepeatable.hasBareStyles (h : IsRepeatable scope [node]) :
    Control.HasBareStyles node := by
  intro x within
  rw [← Node.elementsOf_singleton] at within
  exact h.styles x within

theorem IsRepeatable.hasBareMarks (h : IsRepeatable scope [node]) : Control.HasBareMarks node := by
  intro properties isProperties x member isMark
  have isElement := Node.isElement_of_isNamed isMark
  have below : x ∈ Node.elementsOf properties.children :=
    Node.mem_elementsOf member (Node.mem_elements_self isElement)
  have within := Node.mem_elementsOf (List.mem_of_find?_eq_some isProperties)
    (Node.mem_elements_of_children below)
  exact h.marks x (Node.mem_elementsOf (List.mem_singleton_self node)
    (Node.mem_elements_of_children within)) isMark

end Repeatable

/-! ### Written again -/

section Written

variable {node : Node}

/-- A plain text is written as far as it was written before. -/
theorem plainTextCourse_again (styles : Control.HasBareStyles node) (options : Options)
    (tag : String) (value : Datum) (lists : ListStore) :
    ∃ left problem, plainTextCourse options tag value lists node = .written left problem lists [] ∧
      plainTextCourse options tag value lists left = .written left problem lists [] := by
  unfold plainTextCourse
  cases Scope.stringify value with
  | error cause => exact ⟨_, _, rfl, rfl⟩
  | ok text =>
    have again := Control.fillPlainText_again styles tag options.replaceLineBreaks text
    cases filled : Control.fillPlainText tag options.replaceLineBreaks text node with
    | mk left outcome =>
      rw [filled] at again
      exact ⟨left, outcome.problem? tag, by simp only [filled], by simp only [again]⟩

/-- A rich text is refused, or it is written without any new list, and may be written again. -/
theorem richTextCourse_again (isControl : Control.isControl node) {value : Datum}
    (none : Control.isPlainTextOnly node = false → (Control.content? node).isSome →
      holdsList value = false) (place : Place) (tag : String) (lists : ListStore) :
    (∃ problem, richTextCourse place tag value lists node = .refused problem) ∨
    ∃ left problem items,
      richTextCourse place tag value lists node = .written left problem lists items ∧
      richTextCourse place tag value lists left = .written left problem lists items := by
  unfold richTextCourse
  cases other : Control.isPlainTextOnly node with
  | true => exact .inl ⟨_, rfl⟩
  | false =>
    cases isContent : Control.content? node with
    | none => exact .inl ⟨_, rfl⟩
    | some content =>
      have kept := rendering_of_no_list (none other (by rw [isContent]; rfl)) place.inParagraph lists
      cases made : rendering place.inParagraph value lists with
      | mk result after =>
        rw [made] at kept
        obtain rfl : after = lists := kept
        cases result with
        | error cause =>
          refine .inr ⟨node, _, _, rfl, ?_⟩
          rw [other, isContent]
          rfl
        | ok rendered =>
          obtain ⟨blocks, isRendered⟩ := render_of_rendering made
          have stillOther := Control.isPlainTextOnly_fillRichText isControl isRendered isContent other
          refine .inr ⟨_, _, _, rfl, ?_⟩
          rw [stillOther, Control.content?_fillRichText isContent]
          simp only [Control.fillRichText_fillRichText isRendered isContent]
          rfl

end Written

/-! ### Properties of controls that are shown -/

section Properties

variable {scope : Datum} {parent : Option Name} {nodes left : List Node}

/-- Where no control is, everything stays as it is. -/
theorem Rebuilt.eq_of_free (rebuilt : Rebuilt scope parent nodes left) :
    ControlFree nodes → left = nodes := by
  induction rebuilt with
  | nil => exact fun _ => rfl
  | control isControl isShown same onward ih =>
    intro free
    refine absurd isControl (free _ ?_)
    exact Node.mem_elementsOf List.mem_cons_self
      (Node.mem_elements_self (Node.isElement_of_isNamed isControl))
  | hidden isControl isHidden onward ih =>
    intro free
    refine absurd isControl (free _ ?_)
    exact Node.mem_elementsOf List.mem_cons_self
      (Node.mem_elements_self (Node.isElement_of_isNamed isControl))
  | element other first onward ihFirst ih =>
    intro free
    have below := ihFirst fun x inside => free x
      (Node.mem_elementsOf List.mem_cons_self (Node.mem_elements_of_children inside))
    have others := ih fun x inside => free x (List.mem_append_right _ inside)
    rw [below, others]
  | leaf isLeaf onward ih =>
    intro free
    rw [ih fun x inside => free x (List.mem_append_right _ inside)]

/-- The first element of a name that no control and no paragraph has is found again, if no control
is in it. -/
theorem Rebuilt.find? {name : Name} {found : Node} (noControl : Word.control ≠ name)
    (noParagraph : Word.paragraph ≠ name) (free : ControlFree found.children)
    (rebuilt : Rebuilt scope parent nodes left) :
    nodes.find? (·.isNamed name) = some found → left.find? (·.isNamed name) = some found := by
  have passed {node : Node} (other : ¬ node.isNamed name) (rest : List Node) :
      (node :: rest).find? (·.isNamed name) = rest.find? (·.isNamed name) :=
    List.find?_cons_of_neg other
  have differs {node : Node} {own : Name} (named : node.isNamed own) (other : own ≠ name) :
      ¬ node.isNamed name := by
    rw [Node.isNamed_apart other node named]
    exact Bool.false_ne_true
  induction rebuilt with
  | nil => exact nofun
  | @control parent node left rest others isControl isShown same onward ih =>
    obtain ⟨children, rfl⟩ := same
    have stillControl : (node.withChildren children).isNamed Word.control := by
      rwa [Node.isNamed, Node.name?_withChildren]
    rw [passed (differs isControl noControl), passed (differs stillControl noControl)]
    exact ih
  | hidden isControl isHidden onward ih =>
    rw [passed (differs isControl noControl)]
    split
    · rw [List.singleton_append, passed (differs rfl noParagraph)]
      exact ih
    · exact ih
  | @element parent own lineage traits children inside rest others other first onward _ ih =>
    have isOwn (children : List Node) : (Node.element own lineage traits children).isNamed own :=
      Node.isNamed_iff.mpr rfl
    by_cases named : own = name
    · subst named
      have here (children rest : List Node) :
          (Node.element own lineage traits children :: rest).find? (·.isNamed own) =
            some (.element own lineage traits children) :=
        List.find?_cons_of_pos (isOwn children)
      intro isFirst
      rw [here] at isFirst
      obtain rfl := Option.some.inj isFirst
      rw [first.eq_of_free free, here]
    · rw [passed (differs (isOwn children) named), passed (differs (isOwn inside) named)]
      exact ih
  | leaf isLeaf onward ih =>
    have unnamed : ¬ Node.isNamed name _ := fun named => by
      rw [Node.isNamed_iff.mp named] at isLeaf
      cases isLeaf
    rw [passed unnamed, passed unnamed]
    exact ih

end Properties

/-! ### The second walk -/

/-- A walk leaves the lists as they are, and over what it has left it does the same again. -/
def IsSteady (options : Options) (place : Place) (scope : Datum) (lists : ListStore)
    (nodes : List Node) : Prop :=
  ∃ left findings, effect (populateAll options place scope nodes) lists = ⟨left, lists, findings⟩ ∧
    effect (populateAll options place scope left) lists = ⟨left, lists, findings⟩

section Steady

variable {options : Options} {place : Place} {scope : Datum} {lists : ListStore} {node : Node}
  {nodes rest : List Node}

theorem IsSteady.nil : IsSteady options place scope lists [] :=
  ⟨[], [], effect_populateAll_nil lists, effect_populateAll_nil lists⟩

theorem IsSteady.append (first : IsSteady options place scope lists nodes)
    (second : IsSteady options place scope lists rest) :
    IsSteady options place scope lists (nodes ++ rest) := by
  obtain ⟨left, findings, once, again⟩ := first
  obtain ⟨others, further, onceMore, againMore⟩ := second
  refine ⟨left ++ others, findings ++ further, ?_, ?_⟩
  · rw [effect_populateAll_append, once]
    simp only [onceMore]
  · rw [effect_populateAll_append, again]
    simp only [againMore]

theorem IsSteady.leaf (isLeaf : node.name? = none) : IsSteady options place scope lists [node] := by
  have once : effect (populateAll options place scope [node]) lists = ⟨[node], lists, []⟩ := by
    rw [effect_populateAll_singleton, effect_populateNode_leaf isLeaf]
  exact ⟨_, _, once, once⟩

theorem IsSteady.element {name : Name} (other : name ≠ Word.control) (lineage : Lineage)
    (traits : Traits) {children : List Node}
    (below : IsSteady options (place.enter name) scope lists children) :
    IsSteady options place scope lists [.element name lineage traits children] := by
  obtain ⟨left, findings, once, again⟩ := below
  refine ⟨[.element name lineage traits left], findings, ?_, ?_⟩
  · rw [effect_populateAll_element other, once]
  · rw [effect_populateAll_element other, again]

/-! ### Controls on their courses -/

section Courses

variable {problem : Option Problem} {left : Node} {items : List ListItem}

theorem steady_of_refused (isControl : Control.isControl node) {problem : Problem}
    (refused : course options place scope lists node = .refused problem) :
    IsSteady options place scope lists [node] :=
  ⟨_, _, effect_populateAll_control isControl refused, effect_populateAll_control isControl refused⟩

/-- Nothing is left of a hidden control that could be walked over, except at a place without a
parent, and there it is hidden again. -/
theorem steady_of_hidden (isControl : Control.isControl node)
    (hidden : course options place scope lists node = .hidden) :
    IsSteady options place scope lists [node] := by
  have once := effect_populateAll_control isControl hidden
  refine ⟨_, _, once, ?_⟩
  rw [follow, hide] at once
  rw [hide]
  split
  · rename_i outside
    rwa [outside] at once
  · split
    · have other : Word.paragraph ≠ Word.control := by decide
      rw [Word.makeParagraph, Node.plain, effect_populateAll_element other, effect_populateAll_nil]
    · exact effect_populateAll_nil lists

theorem steady_of_written (isControl : Control.isControl node)
    (once : course options place scope lists node = .written left problem lists items)
    (again : course options place scope lists left = .written left problem lists items) :
    IsSteady options place scope lists [node] := by
  obtain ⟨⟨children, rfl⟩, -⟩ := course_holds once
  have stillControl : Control.isControl (node.withChildren children) := by
    rwa [Control.isControl, Node.isNamed, Node.name?_withChildren]
  have same : (node.withChildren children).lineage = node.lineage := by cases node <;> rfl
  refine ⟨_, _, effect_populateAll_control isControl once, ?_⟩
  rw [effect_populateAll_control stillControl again, follow, same]

/-- A control that is shown is shown again, if what is in its properties has not changed. -/
theorem steady_of_shown (isControl : Control.isControl node)
    (once : course options place scope lists node = .shown problem)
    (again : ∀ left, Control.read left = Control.read node →
      course options place scope lists left = .shown problem)
    (bare : ∀ properties, Control.properties? node = some properties →
      ControlFree properties.children)
    (tagged : (Control.properties? node).isSome)
    (below : IsSteady options (place.enter Word.control) scope lists node.children) :
    IsSteady options place scope lists [node] := by
  obtain ⟨left, findings, walked, walkedAgain⟩ := below
  have isElement := Node.isElement_of_isNamed isControl
  have stillControl : Control.isControl (node.withChildren left) := by
    rwa [Control.isControl, Node.isNamed, Node.name?_withChildren]
  have same : (node.withChildren left).lineage = node.lineage := by cases node <;> rfl
  have sameRead : Control.read (node.withChildren left) = Control.read node := by
    obtain ⟨properties, isProperties⟩ := Option.isSome_iff_exists.mp tagged
    obtain ⟨accounts, only, -⟩ :=
      (settledOn_walk options).1 (place.enter Word.control) scope node.children rfl lists
    have rebuilt := ((only _ _ _).mpr ⟨rfl, rfl, rfl⟩).rebuilt
    rw [walked] at rebuilt
    have stays := rebuilt.find? (by decide) (by decide) (bare properties isProperties) isProperties
    refine Control.read_congr ?_
    rw [isProperties, Control.properties?, Node.child?, Node.children_withChildren isElement, stays]
  refine ⟨[node.withChildren left],
    (problem.toList.map fun problem => ⟨problem, node.lineage⟩) ++ findings, ?_, ?_⟩
  · rw [effect_populateAll_control isControl once, follow, walked]
  · rw [effect_populateAll_control stillControl (again _ sameRead), follow,
      Node.children_withChildren isElement, walkedAgain, Node.withChildren_withChildren, same]

end Courses

/-! ### Every control -/

def TakesText (kind : Control.Kind) : Prop := kind = .plainText ∨ kind = .richText

theorem course_of_takesText (isText : TakesText (Control.read node).kind) :
    course options place scope lists node =
      match (Control.read node).condition? with
      | some condition =>
        conditionCourse condition (Control.read node).label (Condition.evaluate condition scope)
      | none =>
        lookupCourse options place (Control.read node).kind (Control.read node).label lists node
          (Scope.resolve scope (Control.read node).label) := by
  rw [course]
  rcases isText with kind | kind <;> cases (Control.read node).condition? <;> simp [kind]

theorem isShown_of_takesText (isText : TakesText (Control.read node).kind) {condition : String}
    (conditional : (Control.read node).condition? = some condition)
    {verdict : Condition.Verdict}
    (evaluated : Condition.evaluate condition scope = .ok verdict) :
    isShown scope node = (verdict.holds || verdict.complaint.isSome) := by
  rw [isShown]
  rcases isText with kind | kind <;> simp [kind, conditional, evaluated]

theorem isSome_properties? (isText : TakesText (Control.read node).kind) :
    (Control.properties? node).isSome := by
  cases isProperties : Control.properties? node with
  | some properties => rfl
  | none =>
    rw [Control.read, isProperties] at isText
    rcases isText with kind | kind <;> cases kind

theorem steady_of_condition (isControl : Control.isControl node)
    (isText : TakesText (Control.read node).kind) {condition : String}
    (conditional : (Control.read node).condition? = some condition)
    (bare : isShown scope node → ∀ properties, Control.properties? node = some properties →
      ControlFree properties.children)
    (below : isShown scope node →
      IsSteady options (place.enter Word.control) scope lists node.children) :
    IsSteady options place scope lists [node] := by
  have taken (x : Node) (same : Control.read x = Control.read node) :
      course options place scope lists x = conditionCourse condition (Control.read node).label
        (Condition.evaluate condition scope) := by
    rw [course_of_takesText (by rwa [same]), same, conditional]
  cases evaluated : Condition.evaluate condition scope with
  | error cause =>
    rw [evaluated] at taken
    exact steady_of_refused isControl (taken node rfl)
  | ok verdict =>
    have walked := isShown_of_takesText isText conditional evaluated
    have tagged := isSome_properties? isText
    obtain ⟨holds, complaint⟩ := verdict
    rw [evaluated] at taken
    cases complaint with
    | some complaint =>
      rw [Option.isSome_some, Bool.or_true] at walked
      exact steady_of_shown isControl (taken node rfl) taken (bare walked) tagged (below walked)
    | none =>
      cases holds with
      | true =>
        rw [Bool.true_or] at walked
        exact steady_of_shown isControl (taken node rfl) taken (bare walked) tagged (below walked)
      | false => exact steady_of_hidden isControl (taken node rfl)

theorem read_written (bare : Control.HasBareMarks node) {problem : Option Problem} {left : Node}
    {kept : ListStore} {items : List ListItem}
    (h : course options place scope lists node = .written left problem kept items) :
    Control.read left = Control.read node := by
  have leaves : (course options place scope lists node).Leaves
      fun left => Control.read left = Control.read node :=
    course_leaves rfl (fun tag text => Control.read_fillPlainText bare tag _ text)
      fun content blocks rendered isContent made => Control.read_fillRichText bare isContent
  rwa [h] at leaves

theorem steady_of_lookup (isControl : Control.isControl node)
    (isText : TakesText (Control.read node).kind)
    (unconditional : (Control.read node).condition? = none)
    (styles : Control.HasBareStyles node) (bare : Control.HasBareMarks node)
    (noList : ∀ value, richValue? scope node = some value → holdsList value = false) :
    IsSteady options place scope lists [node] := by
  have taken (x : Node) (same : Control.read x = Control.read node) :
      course options place scope lists x = lookupCourse options place (Control.read node).kind
        (Control.read node).label lists x (Scope.resolve scope (Control.read node).label) := by
    rw [course_of_takesText (by rwa [same]), same, unconditional]
  have here := taken node rfl
  cases resolved : Scope.resolve scope (Control.read node).label with
  | error fault =>
    rw [resolved] at here
    cases fault <;> exact steady_of_refused isControl here
  | ok selected =>
    rw [resolved] at taken here
    cases selected with
    | none => exact steady_of_refused isControl here
    | some value =>
      rcases isText with kind | kind
      · rw [kind] at taken here
        obtain ⟨left, problem, once, again⟩ :=
          plainTextCourse_again styles options (Control.read node).label value lists
        have written := here.trans once
        exact steady_of_written isControl written
          ((taken left (read_written bare written)).trans again)
      · rw [kind] at taken here
        have none (other : Control.isPlainTextOnly node = false)
            (isContent : (Control.content? node).isSome) : holdsList value = false := by
          refine noList value ?_
          rw [richValue?, if_pos ⟨kind, unconditional, other, isContent⟩, resolved]
        rcases richTextCourse_again isControl none place (Control.read node).label lists with
          ⟨problem, refused⟩ | ⟨left, problem, items, once, again⟩
        · exact steady_of_refused isControl (here.trans refused)
        · have written := here.trans once
          exact steady_of_written isControl written
            ((taken left (read_written bare written)).trans again)

/-- A control is steady if what is below it is, where it is shown. -/
theorem IsSteady.control (isControl : Control.isControl node) (h : IsRepeatable scope [node])
    (below : isShown scope node →
      IsSteady options (place.enter Word.control) scope lists node.children) :
    IsSteady options place scope lists [node] := by
  have visits : node ∈ visitedOf scope [node] := mem_visitedOf_self isControl
  have isText (kind : TakesText (Control.read node).kind) :
      IsSteady options place scope lists [node] := by
    cases conditional : (Control.read node).condition? with
    | some condition =>
      exact steady_of_condition isControl kind conditional (h.bare node visits) below
    | none =>
      exact steady_of_lookup isControl kind conditional h.hasBareStyles h.hasBareMarks
        (h.noLists node visits)
  cases kind : (Control.read node).kind with
  | unsupported obstacle => exact steady_of_refused isControl (by rw [course, kind])
  | repeatingSection =>
    have inside : node ∈ Control.all [node] :=
      List.mem_filter.mpr ⟨Node.mem_elementsOf (List.mem_singleton_self node)
        (Node.mem_elements_self (Node.isElement_of_isNamed isControl)), isControl⟩
    exact absurd kind (h.noSections node inside)
  | plainText => exact isText (.inl kind)
  | richText => exact isText (.inr kind)

/-! ### Every tree -/

mutual

theorem steady_of_node (options : Options) (scope : Datum) (lists : ListStore) :
    (node : Node) → (place : Place) → IsRepeatable scope [node] →
      IsSteady options place scope lists [node]
  | .element name lineage traits children, place, h => by
    by_cases isControl : name = Word.control
    · refine .control (Node.isNamed_iff.mpr (congrArg some isControl)) h fun walked => ?_
      exact steady_of_nodes options scope lists children _ (h.content fun _ => walked)
    · refine .element isControl lineage traits ?_
      exact steady_of_nodes options scope lists children _
        (h.content fun same => absurd same isControl)
  | .aside _ _, _, _ => .leaf rfl

/-- By recursion on the trees, because without sections a walk only goes on into children. -/
theorem steady_of_nodes (options : Options) (scope : Datum) (lists : ListStore) :
    (nodes : List Node) → (place : Place) → IsRepeatable scope nodes →
      IsSteady options place scope lists nodes
  | [], _, _ => .nil
  | node :: rest, place, h => by
    have first := steady_of_node options scope lists node place h.head
    exact first.append (steady_of_nodes options scope lists rest place h.tail)

end

/-- Populating what was populated with the same data changes nothing: the tree and the lists stay
as they are, and the same problems are found in the same order. -/
theorem populate_again (options : Options) (root : Node) (scope : Datum) (lists : ListStore)
    (h : IsRepeatable scope root.children) :
    let first := populate options root scope (.start lists)
    let second := populate options first.1 scope (.start first.2.lists)
    first.2.lists = lists ∧ second.1 = first.1 ∧ second.2.lists = first.2.lists ∧
      second.2.findings = first.2.findings := by
  obtain ⟨left, findings, once, again⟩ :=
    steady_of_nodes options scope lists root.children (.ofRoot root) h
  have samePlace : Place.ofRoot (root.withChildren left) = Place.ofRoot root := by
    rw [Place.ofRoot, Node.name?_withChildren, Place.ofRoot]
  have first : effect (populate options root scope) lists =
      ⟨root.withChildren left, lists, findings⟩ := by
    rw [effect_populate, once]
  have second : effect (populate options (root.withChildren left) scope) lists =
      ⟨root.withChildren left, lists, findings⟩ := by
    cases root with
    | element name lineage traits children =>
      rw [effect_populate, samePlace, Node.children_withChildren rfl, again]
      rfl
    | aside content tail => exact first
  have isLeft : (populate options root scope (.start lists)).1 = root.withChildren left :=
    congrArg Effect.value first
  have kept : (populate options root scope (.start lists)).2.lists = lists :=
    congrArg Effect.lists first
  have found : (populate options root scope (.start lists)).2.findings = findings :=
    congrArg Effect.findings first
  simp only [isLeft, kept, found]
  exact ⟨trivial, congrArg Effect.value second, congrArg Effect.lists second,
    congrArg Effect.findings second⟩

end Steady

def placeholder (lineage : Lineage) (tag : String) (marks : List Node) : Node :=
  .element Word.control lineage (.ofList [])
    [.plain Word.controlProperties []
        ([.plain Word.controlTag [(Word.value, tag)] [], .plain Word.placeholderMark [] []] ++ marks),
      .plain Word.controlContent []
        [Word.makeParagraph
          [Word.makeRun
            [.plain Word.runProperties [] [Word.makeSetting Word.runStyle Word.placeholderStyle],
              Word.makeText "x"]]]]

/-- A body whose controls take a plain text, take a page, fail and are hidden. -/
def placeholderBody : Node :=
  .plain Word.body []
    [placeholder [0] "a" [.plain Word.plainTextMark [] []], placeholder [1] "b" [],
      placeholder [2] "c" [], placeholder [3] "visible:d" []]

def placeholderScope : Datum := .object [(.text "a", .int 1), (.text "b", .text "<p>x<p>y")]

theorem placeholderBody_isRepeatable :
    IsRepeatable placeholderScope placeholderBody.children where
  noSections := by decide +kernel
  noLists := by decide +kernel
  styles := by decide +kernel
  marks := by decide +kernel
  bare := by decide +kernel

/-- That body can be populated again. -/
theorem populate_placeholders_again :
    let first := populate .standard placeholderBody placeholderScope (.start (.document none))
    let second := populate .standard first.1 placeholderScope (.start first.2.lists)
    IsRepeatable placeholderScope placeholderBody.children ∧
      first.2.lists = .document none ∧ second.1 = first.1 ∧ second.2.lists = first.2.lists ∧
      second.2.findings = first.2.findings :=
  ⟨placeholderBody_isRepeatable,
    populate_again .standard placeholderBody placeholderScope _ placeholderBody_isRepeatable⟩

/-! ### Properties that change -/

def innerControl : Node :=
  .element Word.control [1] (.ofList [])
    [.plain Word.controlContent [] [.plain Word.controlTag [(Word.value, "visible:a")] []],
      .plain Word.controlProperties [] [.plain Word.controlTag [(Word.value, "visible:b")] []]]

/-- A control that takes its tag from what is in the content area of the inner one. -/
def outerControl : Node :=
  .element Word.control [0] (.ofList []) [.plain Word.controlProperties [] [innerControl]]

/-- The outer control without the inner one. -/
def untaggedShell : Node :=
  .element Word.control [0] (.ofList []) [.plain Word.controlProperties [] []]

def nestedBody : Node := .plain Word.body [] [outerControl]

/-- Data that shows the outer control and hides the inner one. -/
def nestedScope : Datum := .object [(.text "a", .int 1)]

theorem course_outer (place : Place) (lists : ListStore) :
    course .standard place nestedScope lists outerControl = .shown none := by
  have isText : TakesText (Control.read outerControl).kind := .inr (by decide +kernel)
  have conditional : (Control.read outerControl).condition? = some "a" := by decide +kernel
  have evaluated : Condition.evaluate "a" nestedScope = .ok ⟨true, none⟩ := by rfl
  rw [course_of_takesText isText, conditional]
  simp only [evaluated]
  rfl

theorem course_inner (place : Place) (lists : ListStore) :
    course .standard place nestedScope lists innerControl = .hidden := by
  have isText : TakesText (Control.read innerControl).kind := .inr (by decide +kernel)
  have conditional : (Control.read innerControl).condition? = some "b" := by decide +kernel
  have evaluated : Condition.evaluate "b" nestedScope = .ok ⟨false, none⟩ := by
    with_unfolding_all rfl
  rw [course_of_takesText isText, conditional]
  simp only [evaluated]
  rfl

theorem effect_outer (place : Place) (lists : ListStore) :
    effect (populateAll .standard place nestedScope [outerControl]) lists =
      ⟨[untaggedShell], lists, []⟩ := by
  have other : Word.controlProperties ≠ Word.control := by decide
  have inner (place : Place) (isInside : place.parent = some Word.controlProperties) :
      effect (populateAll .standard place nestedScope [innerControl]) lists = ⟨[], lists, []⟩ := by
    rw [effect_populateAll_control rfl (course_inner place lists), follow, hide, isInside]
    rfl
  rw [effect_populateAll_control rfl (course_outer place lists), follow, outerControl, Node.children,
    Node.plain, effect_populateAll_element other, inner _ rfl]
  rfl

theorem effect_untaggedShell (place : Place) (lists : ListStore) :
    effect (populateAll .standard place nestedScope [untaggedShell]) lists =
      ⟨[untaggedShell], lists, [⟨.unsupported .untagged, [0]⟩]⟩ :=
  effect_populateAll_control rfl rfl

/-- In that body nothing accumulates, and nevertheless the second walk finds a problem that the
first one has not found: the outer control has lost its tag together with the inner one. -/
theorem nestedBody_differs :
    let first := populate .standard nestedBody nestedScope (.start (.document none))
    let second := populate .standard first.1 nestedScope (.start first.2.lists)
    IsStationary nestedScope nestedBody.children ∧ first.2.findings = [] ∧
      second.2.findings = [⟨.unsupported .untagged, [0]⟩] := by
  have isStationary : IsStationary nestedScope nestedBody.children :=
    ⟨by decide +kernel, by decide +kernel, by decide +kernel, by decide +kernel⟩
  have once : effect (populate .standard nestedBody nestedScope) (.document none) =
      ⟨.plain Word.body [] [untaggedShell], .document none, []⟩ := by
    rw [effect_populate, nestedBody, Node.plain, Node.children, effect_outer]
    rfl
  have again : effect (populate .standard (.plain Word.body [] [untaggedShell]) nestedScope)
      (.document none) =
      ⟨.plain Word.body [] [untaggedShell], .document none, [⟨.unsupported .untagged, [0]⟩]⟩ := by
    rw [effect_populate, Node.plain, Node.children, effect_untaggedShell]
    rfl
  have isLeft : (populate .standard nestedBody nestedScope (.start (.document none))).1 =
      .plain Word.body [] [untaggedShell] := congrArg Effect.value once
  have kept : (populate .standard nestedBody nestedScope (.start (.document none))).2.lists =
      .document none := congrArg Effect.lists once
  simp only [isLeft, kept]
  exact ⟨isStationary, congrArg Effect.findings once, congrArg Effect.findings again⟩

end TemplateFill.Walk
