import TemplateFill.Proofs.Block.Piece
import TemplateFill.Proofs.Walk.Effect
import TemplateFill.Proofs.Xml.Elements

/-!
# What becomes of a control

Before a walk goes on below a control it is settled what becomes of the control: its kind, its
tag, its condition and the value it takes decide on one course out of five. The effect of
binding the control only depends on its course, and only two courses lead below it. Whatever
has to be said about all ways in which a control can fail is said here once.
-/

namespace TemplateFill.Walk

open Xml

/-- A list paragraph that a page text has become, with the format of the outermost list that
it comes from. -/
structure ListItem where
  paragraph : Node
  format : Numbering.Format

/-- The list paragraphs among what the pieces of a page have become. -/
def listItems (pieces : List Block.Piece) (rendered : List Node) : List ListItem :=
  (pieces.zip rendered).filterMap fun (piece, paragraph) =>
    piece.enclosure.map fun enclosure => ⟨paragraph, enclosure.format⟩

/-- The list paragraphs that a value has become. Inside a paragraph there are none. -/
def itemsMade (inParagraph : Bool) (value : Datum) (rendered : List Node) : List ListItem :=
  if inParagraph then []
  else
    match (Scope.stringify value).bind fun text =>
        (Html.readForest text).mapError Fault.ofScan with
    | .error _ => []
    | .ok forest => listItems (Block.spoken forest) rendered

/-- What becomes of a control. -/
inductive Course where
  /-- The control stays as it is and has a problem. -/
  | refused (problem : Problem)
  /-- The control is written into, with some list paragraphs. If that stops midway, there is a
  problem, and what was done stays done. -/
  | written (left : Node) (problem : Option Problem) (lists : ListStore) (items : List ListItem)
  /-- The condition does not hold. -/
  | hidden
  /-- The condition holds, or there is something to complain about. -/
  | shown (complaint : Option Problem)
  /-- The item of a section is repeated for some values. -/
  | repeated (item : Node) (values : List Datum)

def rendering (inParagraph : Bool) (value : Datum) (lists : ListStore) :
    Except Fault (List Node) × ListStore :=
  match lists.convert value with
  | .error cause => (.error cause, lists)
  | .ok (blocks, allocator) =>
    match lists.keep allocator with
    | (kept, some cause) => (.error (.numeral cause), kept)
    | (kept, none) => (Block.render inParagraph blocks, kept)

/-- What was rendered was converted and kept without a fault before. -/
theorem rendering_eq_ok {inParagraph : Bool} {value : Datum} {lists : ListStore}
    {rendered : List Node} (made : (rendering inParagraph value lists).1 = .ok rendered) :
    ∃ blocks allocator kept, lists.convert value = .ok (blocks, allocator) ∧
      lists.keep allocator = (kept, none) ∧ Block.render inParagraph blocks = .ok rendered ∧
      (rendering inParagraph value lists).2 = kept := by
  unfold rendering at made ⊢
  cases converted : lists.convert value with
  | error cause =>
    rw [converted] at made
    cases made
  | ok result =>
    obtain ⟨blocks, allocator⟩ := result
    simp only [converted] at made ⊢
    cases isKept : lists.keep allocator with
    | mk kept fault =>
      rw [isKept] at made
      cases fault with
      | some cause => cases made
      | none => exact ⟨blocks, allocator, kept, rfl, isKept, made, rfl⟩

def conditionCourse (condition tag : String) : Except Fault Condition.Verdict → Course
  | .error cause => .refused (.fault cause tag)
  | .ok verdict =>
    match verdict.complaint with
    | some complaint => .shown (some (.badCondition condition complaint))
    | none => if verdict.holds then .shown none else .hidden

def plainTextCourse (options : Options) (tag : String) (value : Datum) (lists : ListStore)
    (node : Node) : Course :=
  match Scope.stringify value with
  | .error cause => .written node (some (.fault cause tag)) lists []
  | .ok text =>
    let (filled, outcome) := Control.fillPlainText tag options.replaceLineBreaks text node
    .written filled (outcome.problem? tag) lists []

def richTextCourse (place : Place) (tag : String) (value : Datum) (lists : ListStore)
    (node : Node) : Course :=
  if Control.isPlainTextOnly node then .refused (.plainTextControl tag)
  else
    match Control.content? node with
    | none => .refused (.noContent tag)
    | some content =>
      match rendering place.inParagraph value lists with
      | (.error cause, kept) => .written node (some (.fault cause tag)) kept []
      | (.ok rendered, kept) =>
        .written (Control.fillRichText place.inParagraph rendered content node) none kept
          (itemsMade place.inParagraph value rendered)

/-- The course of a repeating section with a value. -/
def sectionCourse (tag : String) (value : Datum) (node : Node) : Course :=
  match value with
  | .list values =>
    match sectionItem tag node with
    | .error problem => .refused problem
    | .ok item => .repeated item values
  | _ => .refused (.notList tag)

def lookupCourse (options : Options) (place : Place) (kind : Control.Kind) (tag : String)
    (lists : ListStore) (node : Node) : Except Scope.LookupFault (Option Datum) → Course
  | .error (.refused query cause) => .refused (.lookup (.refused query cause) tag)
  | .error (.fault cause) => .refused (.fault cause tag)
  | .ok none => .refused (.noData tag)
  | .ok (some value) =>
    match kind with
    | .plainText => plainTextCourse options tag value lists node
    | .richText => richTextCourse place tag value lists node
    | _ => sectionCourse tag value node

def course (options : Options) (place : Place) (scope : Datum) (lists : ListStore)
    (node : Node) : Course :=
  let control := Control.read node
  match control.kind with
  | .unsupported obstacle => .refused (.unsupported obstacle)
  | kind =>
    match control.condition? with
    | some condition =>
      if kind = .repeatingSection then .refused (.conditionalSection control.label)
      else conditionCourse condition control.label (Condition.evaluate condition scope)
    | none =>
      lookupCourse options place kind control.label lists node
        (Scope.resolve scope control.label)

/-- What a control on its course leaves, if it is walked below it as far as the course says. -/
def follow (options : Options) (place : Place) (scope : Datum) (lists : ListStore) (node : Node) :
    Course → Effect (List Node)
  | .refused problem => ⟨[node], lists, [⟨problem, node.lineage⟩]⟩
  | .written left problem kept _ =>
    ⟨[left], kept, problem.toList.map fun problem => ⟨problem, node.lineage⟩⟩
  | .hidden => ⟨hide place node, lists, []⟩
  | .shown complaint =>
    let below := effect (populateAll options (place.enter Word.control) scope node.children) lists
    ⟨[node.withChildren below.value], below.lists,
      (complaint.toList.map fun problem => ⟨problem, node.lineage⟩) ++ below.findings⟩
  | .repeated item values =>
    let tag := (Control.read node).label
    let below :=
      effect (populateItems options place.ofItem tag node.lineage item 0 values) lists
    ⟨[withItems below.value.1 node], below.lists,
      below.findings ++ below.value.2.toList.map fun cause => ⟨.fault cause tag, node.lineage⟩⟩

/-! ### The writers follow their courses -/

section Follow

variable {options : Options} {place : Place} {scope : Datum} {node : Node}

theorem effect_writePlainText (tag : String) (value : Datum) (lists : ListStore) :
    effect (do return [← writePlainText options tag value node]) lists =
      follow options place scope lists node (plainTextCourse options tag value lists node) := by
  rw [effect_bind_pure, writePlainText, plainTextCourse]
  cases Scope.stringify value with
  | error cause => rfl
  | ok text =>
    simp only
    cases Control.fillPlainText tag options.replaceLineBreaks text node with
    | mk filled outcome => cases outcome <;> rfl

theorem effect_convertWith (inParagraph : Bool) (value : Datum) (lists store : ListStore) :
    effect (convertWith inParagraph value lists) store =
      ⟨(rendering inParagraph value lists).1,
        match lists.convert value with
        | .error _ => store
        | .ok _ => (rendering inParagraph value lists).2, []⟩ := by
  unfold convertWith rendering
  cases lists.convert value with
  | error cause => rfl
  | ok converted =>
    obtain ⟨blocks, allocator⟩ := converted
    simp only
    cases lists.keep allocator with
    | mk kept fault =>
      cases fault <;> cases lists.lacksRoot allocator <;> rfl

theorem effect_convertValue (inParagraph : Bool) (value : Datum) (lists : ListStore) :
    effect (convertValue inParagraph value) lists =
      ⟨(rendering inParagraph value lists).1, (rendering inParagraph value lists).2, []⟩ := by
  change effect (convertWith inParagraph value lists) lists = _
  rw [effect_convertWith]
  unfold rendering
  cases lists.convert value <;> rfl

theorem effect_writeRichText (tag : String) (value : Datum) (lists : ListStore) :
    effect (do return [← writeRichText place tag value node]) lists =
      follow options place scope lists node (richTextCourse place tag value lists node) := by
  rw [effect_bind_pure, writeRichText, richTextCourse]
  by_cases plain : Control.isPlainTextOnly node
  · rw [if_pos plain, if_pos plain]
    rfl
  · rw [if_neg plain, if_neg plain]
    cases Control.content? node with
    | none => rfl
    | some content =>
      simp only
      rw [effect_bind, effect_convertValue]
      · cases rendering place.inParagraph value lists with
        | mk rendered kept => cases rendered <;> rfl
      · intro rendered
        cases rendered
        · exact .noteThen _ _ _
        · exact .pure _

/-- A conditional control is complained about, and then shown or hidden. -/
theorem effect_judge (condition tag : String) (lists : ListStore) :
    effect (judge place tag condition scope node
        (populateAll options (place.enter Word.control) scope node.children)) lists =
      follow options place scope lists node
        (conditionCourse condition tag (Condition.evaluate condition scope)) := by
  have walked := incremental_populateAll options (place.enter Word.control) scope node.children
  rw [judge]
  cases Condition.evaluate condition scope with
  | error cause => rfl
  | ok verdict =>
    obtain ⟨holds, complaint⟩ := verdict
    cases complaint with
    | some complaint =>
      simp only [Option.isSome_some, Bool.or_true, if_true, conditionCourse, follow]
      rw [effect_bind _ fun _ => .bind walked fun _ => .pure _, effect_note, effect_bind_pure]
      rfl
    | none =>
      cases holds with
      | true =>
        simp only [Option.isSome_none, Bool.or_false, if_true, conditionCourse, follow]
        rw [effect_bind_pure]
        rfl
      | false => rfl

/-- A section repeats its item, and notes what ended the repetition. -/
theorem effect_repeatItem (value : Datum) (lists : ListStore) :
    effect (repeatItem (Control.read node).label value node fun item _ values =>
        populateItems options place.ofItem (Control.read node).label node.lineage item 0 values)
      lists =
      follow options place scope lists node
        (sectionCourse (Control.read node).label value node) := by
  cases value with
  | list values =>
    rw [repeatItem, sectionCourse]
    simp only
    split
    · rename_i problem noItem
      rw [noItem]
      rfl
    · rename_i item isItem
      rw [isItem]
      simp only [follow]
      rw [effect_bind]
      · cases (effect (populateItems options place.ofItem (Control.read node).label node.lineage
            item 0 values) lists).value with
        | mk copies fault => cases fault <;> rfl
      · rintro ⟨copies, fault⟩
        cases fault
        · exact .bind (.tell _) fun _ => .pure _
        · exact .bind (.note _ _) fun _ => .pure _
  | _ => rfl

/-- A control without a condition takes what its tag selects. -/
theorem effect_bindValue (kind : Control.Kind) (lists : ListStore) :
    effect (bindValue options place kind (Control.read node).label scope node
        fun item _ values =>
          populateItems options place.ofItem (Control.read node).label node.lineage item 0 values)
      lists =
      follow options place scope lists node
        (lookupCourse options place kind (Control.read node).label lists node
          (Scope.resolve scope (Control.read node).label)) := by
  rw [bindValue]
  cases Scope.resolve scope (Control.read node).label with
  | error fault => cases fault <;> rfl
  | ok selected =>
    cases selected with
    | none => rfl
    | some value =>
      cases kind with
      | plainText => exact effect_writePlainText _ value lists
      | richText => exact effect_writeRichText _ value lists
      | _ => exact effect_repeatItem value lists

/-- The effect of binding a control is that of following its course. -/
theorem effect_populateControl (lists : ListStore) :
    effect (populateControl options place scope node) lists =
      follow options place scope lists node (course options place scope lists node) := by
  have below := incremental_populateAll options (place.enter Word.control) scope node.children
  have items := incremental_populateItems options place.ofItem (Control.read node).label
    node.lineage
  have judged (condition : String) :
      Incremental (judge place (Control.read node).label condition scope node
        (populateAll options (place.enter Word.control) scope node.children)) :=
    incremental_judge below
  have bound (kind : Control.Kind) :
      Incremental (bindValue options place kind (Control.read node).label scope node
        fun item _ values => populateItems options place.ofItem (Control.read node).label
          node.lineage item 0 values) :=
    incremental_bindValue fun item _ values => items item 0 values
  rw [populateControl, course]
  cases (Control.read node).condition? with
  | some condition =>
    cases (Control.read node).kind with
    | unsupported obstacle => rfl
    | repeatingSection => rfl
    | _ =>
      exact (effect_tell_bind _ _ _ fun _ => judged condition).trans
        (effect_judge condition _ lists)
  | none =>
    cases (Control.read node).kind with
    | unsupported obstacle => rfl
    | _ =>
      exact (effect_tell_bind _ _ _ fun _ => bound _).trans (effect_bindValue _ lists)

end Follow

/-! ### The walk goes on

The other steps of a walk: over the nodes next to each other, into an element, and over the
values of a section.
-/

section Onward

variable {options : Options} {place : Place} {scope : Datum}

theorem effect_populateAll_nil (lists : ListStore) :
    effect (populateAll options place scope []) lists = ⟨[], lists, []⟩ := by
  rw [populateAll]
  rfl

theorem effect_populateAll_cons (node : Node) (rest : List Node) (lists : ListStore) :
    effect (populateAll options place scope (node :: rest)) lists =
      let here := effect (populateNode options place scope node) lists
      let others := effect (populateAll options place scope rest) here.lists
      ⟨here.value ++ others.value, others.lists, here.findings ++ others.findings⟩ := by
  have onward := incremental_populateAll options place scope rest
  rw [populateAll, effect_bind _ fun _ => .bind onward fun _ => .pure _]
  simp only [effect_bind_pure]

theorem effect_populateNode_control {node : Node} (isControl : Control.isControl node)
    (lists : ListStore) :
    effect (populateNode options place scope node) lists =
      effect (populateControl options place scope node) lists := by
  obtain ⟨lineage, traits, children, rfl⟩ := Node.exists_of_isNamed isControl
  rw [populateNode, if_pos rfl]

theorem effect_populateNode_element {name : Name} (other : name ≠ Word.control)
    (lineage : Lineage) (traits : Traits) (children : List Node) (lists : ListStore) :
    effect (populateNode options place scope (.element name lineage traits children)) lists =
      let below := effect (populateAll options (place.enter name) scope children) lists
      ⟨[.element name lineage traits below.value], below.lists, below.findings⟩ := by
  rw [populateNode, if_neg other, effect_bind_pure]

theorem effect_populateNode_leaf {node : Node} (leaf : node.name? = none) (lists : ListStore) :
    effect (populateNode options place scope node) lists = ⟨[node], lists, []⟩ := by
  cases node with
  | element name lineage traits children => simp [Node.name?] at leaf
  | aside content tail => rw [populateNode]; rfl; simp

theorem effect_populateAll_singleton (node : Node) (lists : ListStore) :
    effect (populateAll options place scope [node]) lists =
      effect (populateNode options place scope node) lists := by
  rw [effect_populateAll_cons]
  simp only [effect_populateAll_nil, List.append_nil]

/-- A single control follows its course. -/
theorem effect_populateAll_control {node : Node} {lists : ListStore} {taken : Course}
    (isControl : Control.isControl node)
    (h : course options place scope lists node = taken) :
    effect (populateAll options place scope [node]) lists =
      follow options place scope lists node taken := by
  rw [effect_populateAll_singleton, effect_populateNode_control isControl, effect_populateControl, h]

theorem effect_populateAll_element {name : Name} (other : name ≠ Word.control)
    (lineage : Lineage) (traits : Traits) (children : List Node) (lists : ListStore) :
    effect (populateAll options place scope [.element name lineage traits children]) lists =
      let below := effect (populateAll options (place.enter name) scope children) lists
      ⟨[.element name lineage traits below.value], below.lists, below.findings⟩ := by
  rw [effect_populateAll_singleton, effect_populateNode_element other]

theorem effect_populate (root : Node) (lists : ListStore) :
    effect (populate options root scope) lists =
      let below := effect (populateAll options (.ofRoot root) scope root.children) lists
      ⟨root.withChildren below.value, below.lists, below.findings⟩ := by
  rw [populate, effect_bind_pure]

variable {tag : String} {subject : Lineage} {item : Node} {index : Nat}

theorem effect_populateItems_nil (lists : ListStore) :
    effect (populateItems options place tag subject item index []) lists =
      ⟨([], none), lists, []⟩ := by
  rw [populateItems]
  rfl

theorem effect_populateItems_object (members : List (Atom × Datum)) (rest : List Datum)
    (lists : ListStore) :
    effect (populateItems options place tag subject item index (.object members :: rest)) lists =
      let model := item.copy index
      let below := effect (populateAll options place (.object members) model.children) lists
      let others :=
        effect (populateItems options place tag subject item (index + 1) rest) below.lists
      ⟨(model.withChildren below.value :: others.value.1, others.value.2), others.lists,
        below.findings ++ others.findings⟩ := by
  have onward := incremental_populateItems options place tag subject item (index + 1) rest
  rw [populateItems, effect_bind _ fun _ => .bind onward fun _ => .pure _]
  simp only [effect_bind_pure]

theorem effect_populateItems_unshown {value : Datum} {cause : Fault}
    (noObject : ∀ members, value ≠ .object members)
    (unshown : Scope.stringify value = .error cause) (rest : List Datum) (lists : ListStore) :
    effect (populateItems options place tag subject item index (value :: rest)) lists =
      ⟨([], some cause), lists, []⟩ := by
  rw [populateItems, unshown]
  · rfl
  · exact noObject

theorem effect_populateItems_other {value : Datum} {shown : String}
    (noObject : ∀ members, value ≠ .object members)
    (isShown : Scope.stringify value = .ok shown) (rest : List Datum) (lists : ListStore) :
    effect (populateItems options place tag subject item index (value :: rest)) lists =
      let others := effect (populateItems options place tag subject item (index + 1) rest) lists
      ⟨others.value, others.lists, ⟨.notObject shown tag, subject⟩ :: others.findings⟩ := by
  have onward := incremental_populateItems options place tag subject item (index + 1) rest
  rw [populateItems, isShown]
  · simp only
    rw [effect_bind _ fun _ => onward, effect_note]
    rfl
  · exact noObject

end Onward

end TemplateFill.Walk
