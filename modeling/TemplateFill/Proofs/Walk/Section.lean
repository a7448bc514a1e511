import TemplateFill.Proofs.Query.Plain
import TemplateFill.Proofs.Walk.Course
import TemplateFill.Proofs.Xml.Erasure

/-!
# What a section repeats

A section makes one copy of its item for each object among its values. Each copy is walked with
its object as the only scope, and all that it takes from the values before it are the lists that
they have left.
-/

namespace TemplateFill.Walk

open Xml
open Data (Json)

variable {options : Options} {place : Place} {scope : Datum} {tag : String} {subject : Lineage}
  {node item content child : Node} {lists : ListStore} {values : List Datum}

/-- What a section makes of one of its values, given the lists that the values before it have
left: an object fills a copy of the item, and any other value is a finding. -/
def stage (options : Options) (place : Place) (tag : String) (subject : Lineage) (item : Node)
    (number : Nat) (lists : ListStore) : Datum → Effect (List Node)
  | .object members =>
    let copy := item.copy number
    let below := effect (populateAll options place (.object members) copy.children) lists
    ⟨[copy.withChildren below.value], below.lists, below.findings⟩
  | value =>
    ⟨[], lists, (Scope.stringify value).toOption.toList.map fun shown =>
      ⟨.notObject shown tag, subject⟩⟩

/-- The lists that the first so many values of a section leave to the next one. -/
def listsBefore (options : Options) (place : Place) (tag : String) (subject : Lineage)
    (item : Node) (lists : ListStore) (values : List Datum) : Nat → ListStore
  | 0 => lists
  | number + 1 =>
    let before := listsBefore options place tag subject item lists values number
    match values[number]? with
    | some value => (stage options place tag subject item number before value).lists
    | none => before

/-- What a section makes of its values, each with its number. -/
def stageOf (options : Options) (place : Place) (tag : String) (subject : Lineage) (item : Node)
    (lists : ListStore) (values : List Datum) (entry : Datum × Nat) : Effect (List Node) :=
  stage options place tag subject item entry.2
    (listsBefore options place tag subject item lists values entry.2) entry.1

/-- A section can handle objects, and all other values that can be shown. -/
def IsHandled (value : Datum) : Prop :=
  (∃ members, value = .object members) ∨ ∃ shown, Scope.stringify value = .ok shown

/-- Plain data that is an object or can be shown is handled. -/
theorem isHandled_ofJson {v : Json}
    (handled : (∃ members, v = .object members) ∨ (Datum.ofJson v).fits Room.writing) :
    IsHandled (.ofJson v) := by
  rcases handled with ⟨members, rfl⟩ | fits
  · exact .inl ⟨_, rfl⟩
  · have plain := Datum.isPlain_ofJson v fun (_ : true) => Datum.fits_iff.mp fits
    exact .inr (plain.stringify_returns fun _ => Nat.le_refl _).exists_ok

/-- One step: a value is handled, and the others go on from there. -/
theorem effect_populateItems_cons {value : Datum} {number : Nat} (isHandled : IsHandled value)
    (rest : List Datum) (lists : ListStore) :
    effect (populateItems options place tag subject item number (value :: rest)) lists =
      let here := stage options place tag subject item number lists value
      let others :=
        effect (populateItems options place tag subject item (number + 1) rest) here.lists
      ⟨(here.value ++ others.value.1, others.value.2), others.lists,
        here.findings ++ others.findings⟩ := by
  cases value with
  | object members => exact effect_populateItems_object members rest lists
  | atom a =>
    obtain ⟨shown, isShown⟩ := isHandled.resolve_left nofun
    rw [effect_populateItems_other (fun members => Datum.noConfusion) isShown]
    simp [stage, isShown, Except.toOption]
  | list items =>
    obtain ⟨shown, isShown⟩ := isHandled.resolve_left nofun
    rw [effect_populateItems_other (fun members => Datum.noConfusion) isShown]
    simp [stage, isShown, Except.toOption]

/-- The run: the values are handled in order, each one with the lists of those before it. -/
theorem effect_populateItems_from (allHandled : ∀ v ∈ values, IsHandled v)
    (front rest : List Datum) (whole : values = front ++ rest) :
    let stageOf := stageOf options place tag subject item lists values
    effect (populateItems options place tag subject item front.length rest)
        (listsBefore options place tag subject item lists values front.length) =
      ⟨((rest.zipIdx front.length).flatMap fun entry => (stageOf entry).value, none),
        listsBefore options place tag subject item lists values values.length,
        (rest.zipIdx front.length).flatMap fun entry => (stageOf entry).findings⟩ := by
  intro stageOf
  induction rest generalizing front with
  | nil =>
    rw [List.append_nil] at whole
    rw [effect_populateItems_nil, whole]
    rfl
  | cons value rest ih =>
    have isHandled := allHandled value (whole ▸ List.mem_append_right _ List.mem_cons_self)
    have onward := ih (front ++ [value]) (by rw [whole, List.append_assoc, List.singleton_append])
    rw [List.length_append, List.length_singleton] at onward
    have here : values[front.length]? = some value := by
      rw [whole, List.getElem?_append_right (Nat.le_refl _), Nat.sub_self]
      rfl
    have left : listsBefore options place tag subject item lists values (front.length + 1) =
        (stageOf (value, front.length)).lists := by
      rw [listsBefore, here]
      rfl
    rw [left] at onward
    rw [effect_populateItems_cons isHandled, List.zipIdx_cons, List.flatMap_cons, List.flatMap_cons]
    exact congrArg (fun others : Effect (List Node × Option Fault) =>
      Effect.mk ((stageOf (value, front.length)).value ++ others.value.1, others.value.2)
        others.lists ((stageOf (value, front.length)).findings ++ others.findings)) onward

/-- All values of a section, the first one with the lists that the section begins with. -/
theorem effect_populateItems (allHandled : ∀ v ∈ values, IsHandled v) (lists : ListStore) :
    let stageOf := stageOf options place tag subject item lists values
    effect (populateItems options place tag subject item 0 values) lists =
      ⟨(values.zipIdx.flatMap fun entry => (stageOf entry).value, none),
        listsBefore options place tag subject item lists values values.length,
        values.zipIdx.flatMap fun entry => (stageOf entry).findings⟩ :=
  effect_populateItems_from allHandled [] values rfl

/-- The first thing in the content area of a control, if there is any. -/
def firstItem? (node : Node) : Option Node :=
  (Control.content? node).bind fun content => content.children.head?

theorem sectionItem_eq (tag : String) (node : Node) : sectionItem tag node =
    match firstItem? node with
    | none => .error (.noItem tag)
    | some child =>
      if Control.isControl child then .ok (child.prune (·.isNamed Word.identifier))
      else .error (.wrongItem tag) := by
  rw [sectionItem, firstItem?]
  cases Control.content? node with
  | none => rfl
  | some content => rfl

/-- What has become of a section that repeats an item for some values: the copies stand in the
content area, in the order of their objects, and every other value is a finding in its turn. The
copies differ in nothing but their lineages before they are walked. -/
structure Repeats (options : Options) (place : Place) (node content item : Node)
    (values : List Datum) (progress : Progress) (result : List Node × Progress) : Prop where
  children : result.1 = [node.replaceChild Word.controlContent (content.withChildren
    (values.zipIdx.flatMap fun entry =>
      (stageOf options place.ofItem (Control.read node).label node.lineage item progress.lists
        values entry).value))]
  lists : result.2.lists = listsBefore options place.ofItem (Control.read node).label node.lineage
    item progress.lists values values.length
  findings : result.2.findings = progress.findings ++ values.zipIdx.flatMap fun entry =>
    (stageOf options place.ofItem (Control.read node).label node.lineage item progress.lists
      values entry).findings
  alike : ∀ number, (item.copy number).bare = item.bare
  handled : ∀ v ∈ values, IsHandled v

/-- A control stays as it is, and has a problem. -/
def IsRefused (node : Node) (problem : Problem) (progress : Progress)
    (result : List Node × Progress) : Prop :=
  result.1 = [node] ∧ result.2.lists = progress.lists ∧
    result.2.findings = progress.findings ++ [⟨problem, node.lineage⟩]

/-- Binding a section that takes a value comes down to the course of the section. -/
theorem effect_section (isSection : (Control.read node).kind = .repeatingSection)
    (unconditional : (Control.read node).condition? = none) {value : Datum}
    (selected : Scope.resolve scope (Control.read node).label = .ok (some value))
    (lists : ListStore) :
    effect (populateControl options place scope node) lists =
      follow options place scope lists node
        (sectionCourse (Control.read node).label value node) := by
  rw [effect_populateControl, course]
  simp only [isSection, unconditional, selected]
  rfl

theorem isRefused_of_course {problem : Problem} {progress : Progress} {taken : Course}
    (followed : effect (populateControl options place scope node) progress.lists =
      follow options place scope progress.lists node taken) (refused : taken = .refused problem) :
    IsRefused node problem progress (populateControl options place scope node progress) := by
  have incremental := (incremental_walk options).2.2.1 place scope node
  rw [refused, follow] at followed
  refine ⟨?_, ?_, ?_⟩
  · rw [incremental.value_eq, followed]
  · rw [incremental.lists_eq, followed]
  · rw [incremental.findings_eq, followed]

theorem repeats_of_course {progress : Progress} (isContent : Control.content? node = some content)
    (allHandled : ∀ v ∈ values, IsHandled v)
    (followed : effect (populateControl options place scope node) progress.lists =
      follow options place scope progress.lists node
        (.repeated item values)) :
    Repeats options place node content item values progress
      (populateControl options place scope node progress) := by
  have incremental := (incremental_walk options).2.2.1 place scope node
  rw [follow, effect_populateItems allHandled] at followed
  refine ⟨?_, ?_, ?_, fun number => Node.bare_copy number item, allHandled⟩
  · rw [incremental.value_eq, followed]
    simp only [withItems, isContent]
  · rw [incremental.lists_eq, followed]
  · rw [incremental.findings_eq, followed]
    exact congrArg _ (List.append_nil _)

/-- A section that takes a list and begins with a control repeats that control for the objects in
the list. All other items can be shown in the problems that they become: their numbers have few
enough digits, and there is room for their nesting. A section that takes no list, or has nothing in
its content area, or something else than a control in front, stays as it is and has a problem. -/
theorem populateControl_repeats {value : Datum}
    (isSection : (Control.read node).kind = .repeatingSection)
    (unconditional : (Control.read node).condition? = none)
    (selected : Scope.resolve scope (Control.read node).label = .ok (some value))
    (progress : Progress) :
    let tag := (Control.read node).label
    let result := populateControl options place scope node progress
    (∀ items content child, value = .ofJson (.list items) →
      (∀ v ∈ items, (∃ members, v = .object members) ∨ (Datum.ofJson v).fits Room.writing) →
      Control.content? node = some content → firstItem? node = some child →
      Control.isControl child →
      Repeats options place node content (child.prune (·.isNamed Word.identifier))
        (items.map .ofJson) progress result) ∧
    ((∀ values, value ≠ .list values) → IsRefused node (.notList tag) progress result) ∧
    ∀ values, value = .list values →
      (firstItem? node = none → IsRefused node (.noItem tag) progress result) ∧
      ∀ child, firstItem? node = some child → Control.isControl child = false →
        IsRefused node (.wrongItem tag) progress result := by
  intro tag result
  have followed : effect (populateControl options place scope node) progress.lists = _ :=
    effect_section isSection unconditional selected progress.lists
  refine ⟨?_, ?_, ?_⟩
  · rintro items content child rfl handled isContent isFirst isControl
    have isItem : sectionItem tag node = .ok (child.prune (·.isNamed Word.identifier)) := by
      rw [sectionItem_eq, isFirst]
      exact if_pos isControl
    have taken : sectionCourse tag (.ofJson (.list items)) node =
        .repeated (child.prune (·.isNamed Word.identifier)) (items.map .ofJson) := by
      rw [Datum.ofJson, Datum.ofJsonItems_eq_map, sectionCourse]
      simp only [isItem]
    rw [taken] at followed
    have allHandled : ∀ v ∈ items.map Datum.ofJson, IsHandled v :=
      List.forall_mem_map.mpr fun v member => isHandled_ofJson (handled v member)
    exact repeats_of_course isContent allHandled followed
  · intro noList
    refine isRefused_of_course followed ?_
    cases value with
    | list values => exact absurd rfl (noList values)
    | _ => rfl
  · rintro values rfl
    refine ⟨fun nothing => isRefused_of_course followed ?_, fun child isFirst isOther => ?_⟩
    · rw [sectionCourse, sectionItem_eq, nothing]
    · refine isRefused_of_course followed ?_
      rw [sectionCourse, sectionItem_eq, isFirst]
      simp only
      rw [if_neg (Bool.eq_false_iff.mp isOther)]

/-- A row of a table of names: a control with an id around a paragraph. -/
def row : Node :=
  .plain Word.control []
    [.plain Word.controlProperties [] [.plain Word.identifier [(Word.value, "7")] []],
      .plain Word.controlContent [] [Word.makeParagraph []]]

/-- The content area of a section that repeats the row, with a remark behind it. -/
def rowsContent : Node := .plain Word.controlContent [] [row, Word.makeParagraph []]

def rows : Node :=
  .plain Word.control []
    [.plain Word.controlProperties []
        [.plain Word.controlTag [(Word.value, "rows")] [], .plain Word.repeatingSectionMark [] []],
      rowsContent]

/-- Two objects with a number between them. -/
def rowValues : List Json := [.object [], .int 3, .object []]

/-- No control is in a copy of the row, so that the walk leaves the copy as it is. -/
theorem effect_row (number : Nat) (lists : ListStore) :
    let copy := (row.prune (·.isNamed Word.identifier)).copy number
    effect (populateAll .standard place (.object []) copy.children) lists =
      ⟨copy.children, lists, []⟩ := by
  change effect (populateAll .standard place (.object []) [.plain Word.controlProperties [] [],
    .plain Word.controlContent [] [Word.makeParagraph []]]) lists = _
  simp only [Node.plain, Word.makeParagraph, effect_populateAll_cons, effect_populateAll_nil,
    effect_populateNode_element (show Word.controlProperties ≠ Word.control by decide),
    effect_populateNode_element (show Word.controlContent ≠ Word.control by decide),
    effect_populateNode_element (show Word.paragraph ≠ Word.control by decide),
    List.append_nil, List.singleton_append]
  rfl

theorem stage_row (number : Nat) (lists : ListStore) :
    stage .standard place tag subject (row.prune (·.isNamed Word.identifier)) number lists
        (.object []) =
      ⟨[(row.prune (·.isNamed Word.identifier)).copy number], lists, []⟩ :=
  congrArg (fun below : Effect (List Node) => Effect.mk
    [((row.prune (·.isNamed Word.identifier)).copy number).withChildren below.value]
    below.lists below.findings) (effect_row number lists)

/-- There are two rows for them, without their ids, and the number is a problem. -/
theorem populateControl_repeats_rows :
    let scope := Datum.ofJson (.object [("rows", .list rowValues)])
    let result := populateControl .standard .outside scope rows (.start (.document none))
    let item := row.prune (·.isNamed Word.identifier)
    result.1 = [rows.replaceChild Word.controlContent
      (rowsContent.withChildren [item.copy 0, item.copy 2])] ∧
    result.2.findings = [⟨.notObject "3" "rows", []⟩] := by
  intro scope result item
  have isSection : (Control.read rows).kind = .repeatingSection := by decide +kernel
  have unconditional : (Control.read rows).condition? = none := by decide +kernel
  have label : (Control.read rows).label = "rows" := by decide +kernel
  have selected : Scope.resolve scope (Control.read rows).label =
      .ok (some (.ofJson (.list rowValues))) := by
    rw [label]
    rfl
  have handled : ∀ v ∈ rowValues,
      (∃ members, v = .object members) ∨ (Datum.ofJson v).fits Room.writing :=
    List.forall_mem_cons.mpr ⟨.inl ⟨_, rfl⟩, List.forall_mem_cons.mpr ⟨.inr (by decide +kernel),
      List.forall_mem_singleton.mpr (.inl ⟨_, rfl⟩)⟩⟩
  have repeated : Repeats .standard .outside rows rowsContent item
      (rowValues.map .ofJson) (.start (.document none)) result :=
    (populateControl_repeats isSection unconditional selected _).1 rowValues rowsContent row rfl
      handled rfl rfl rfl
  have numeral : Scope.stringify (.int 3) = .ok "3" := by
    have written : Number.writeNumeral 3 = .ok "3" := by decide +kernel
    rw [Scope.stringify, written]
    rfl
  have number (lists : ListStore) : stage .standard Place.outside.ofItem "rows" [] item 1 lists
      (.int 3) = ⟨[], lists, [⟨.notObject "3" "rows", []⟩]⟩ := by
    simp only [stage, numeral]
    rfl
  have entries : (rowValues.map Datum.ofJson).zipIdx =
      [(.object [], 0), (.int 3, 1), (.object [], 2)] := rfl
  have lineage : rows.lineage = [] := rfl
  obtain ⟨children, -, findings, -, -⟩ := repeated
  simp only [entries, List.flatMap_cons, List.flatMap_nil, stageOf, label, lineage, stage_row,
    number, item] at children findings
  exact ⟨children, findings⟩

end TemplateFill.Walk
