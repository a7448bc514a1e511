import TemplateFill.Proofs.Condition.Lookup
import TemplateFill.Proofs.Walk.Section

/-!
# Sections for matches

A query that collects matches yields the list of them, but a single match stands for itself. A
section takes lists only. So a section whose tag is such a query has one copy for each match if
there are none, two or more, and a single match is no list to it.
-/

namespace TemplateFill.Walk

open Xml

variable {options : Options} {place : Place} {scope : Datum} {tag : String} {node content child :
  Node} {lists : ListStore} {found : List Datum}

/-! ### What the tag selects -/

/-- A tag is no key of the scope, and as a query that collects matches it finds some. -/
structure Collects (scope : Datum) (tag : String) (found : List Datum) : Prop where
  noKey : scope.member? tag = none
  search : ∃ text query, Scope.queryOf tag = some text ∧ Query.parse text = .ok query ∧
    query.isMultiMatch ∧ Query.search query scope = .ok (.list found)

def collected : List Datum → Datum
  | [only] => only
  | found => .list found

theorem collected_of_length (several : found.length ≠ 1) : collected found = .list found := by
  unfold collected
  split
  · exact absurd rfl several
  · rfl

theorem Collects.resolve (collects : Collects scope tag found) :
    Scope.resolve scope tag = .ok (some (collected found)) := by
  obtain ⟨noKey, text, query, isQuery, isParsed, isMulti, isFound⟩ := collects
  have unwrapped : Scope.unwrap query (.list found) = collected found := by
    match found with
    | [] | [only] | first :: second :: rest => simp [Scope.unwrap, isMulti, collected]
  rw [Condition.resolve_eq_select noKey isQuery, Condition.select_of_search isParsed isFound]
  exact congrArg (fun v => Except.ok (some v)) unwrapped

/-! ### Objects -/

variable {item : Node} {objects : List (List (Atom × Datum))} {progress : Progress}
  {result : List Node × Progress}

/-- What becomes of the content of the copy that is filled from an object: it is walked with the
object as the only scope, and with the lists that the objects before it have left. -/
def copyBelow (options : Options) (place : Place) (node item : Node) (lists : ListStore)
    (objects : List (List (Atom × Datum))) (entry : List (Atom × Datum) × Nat) :
    Effect (List Node) :=
  effect (populateAll options place.ofItem (.object entry.1) (item.copy entry.2).children)
    (listsBefore options place.ofItem (Control.read node).label node.lineage item lists
      (objects.map .object) entry.2)

/-- What has become of a section that repeats an item for objects: there is one copy for each of
them, in their order, and all findings are about what is in the copies. -/
structure RepeatsObjects (options : Options) (place : Place) (node content item : Node)
    (objects : List (List (Atom × Datum))) (progress : Progress)
    (result : List Node × Progress) : Prop where
  children : result.1 = [node.replaceChild Word.controlContent (content.withChildren
    (objects.zipIdx.map fun entry =>
      (item.copy entry.2).withChildren
        (copyBelow options place node item progress.lists objects entry).value))]
  findings : result.2.findings = progress.findings ++ objects.zipIdx.flatMap fun entry =>
    (copyBelow options place node item progress.lists objects entry).findings

theorem repeatsObjects_of_course (isContent : Control.content? node = some content)
    (followed : effect (populateControl options place scope node) progress.lists =
      follow options place scope progress.lists node (.repeated item (objects.map .object))) :
    RepeatsObjects options place node content item objects progress
      (populateControl options place scope node progress) := by
  have incremental := (incremental_walk options).2.2.1 place scope node
  have handled : ∀ v ∈ objects.map Datum.object, IsHandled v :=
    List.forall_mem_map.mpr fun members _ => .inl ⟨members, rfl⟩
  rw [follow, effect_populateItems handled] at followed
  simp only [List.zipIdx_map, List.flatMap_map] at followed
  constructor
  · rw [incremental.value_eq, followed]
    simp only [withItems, isContent]
    exact congrArg (fun copies => [node.replaceChild Word.controlContent (content.withChildren
      copies)]) List.map_eq_flatMap.symm
  · rw [incremental.findings_eq, followed]
    exact congrArg _ (List.append_nil _)

/-- A section whose tag is a query that collects matches, all of them objects, has one copy of its
item for each match, in their order, if there is none or more than one. A single match is no list
to the section: it stays as it is and has that problem. -/
theorem populateControl_repeats_matches (isSection : (Control.read node).kind = .repeatingSection)
    (unconditional : (Control.read node).condition? = none)
    (collects : Collects scope (Control.read node).label (objects.map .object))
    (isContent : Control.content? node = some content) (isFirst : firstItem? node = some child)
    (isControl : Control.isControl child) (progress : Progress) :
    let result := populateControl options place scope node progress
    (objects.length ≠ 1 → RepeatsObjects options place node content
      (child.prune (·.isNamed Word.identifier)) objects progress result) ∧
    (objects.length = 1 → IsRefused node (.notList (Control.read node).label) progress result) := by
  intro result
  have followed : effect (populateControl options place scope node) progress.lists = _ :=
    effect_section isSection unconditional collects.resolve progress.lists
  constructor
  · intro several
    have isItem : sectionItem (Control.read node).label node =
        .ok (child.prune (·.isNamed Word.identifier)) := by
      rw [sectionItem_eq, isFirst]
      exact if_pos isControl
    rw [collected_of_length (by rwa [List.length_map]), sectionCourse, isItem] at followed
    exact repeatsObjects_of_course isContent followed
  · intro single
    obtain ⟨members, rfl⟩ := List.length_eq_one_iff.mp single
    exact isRefused_of_course followed rfl

/-! ### Two matches and a single one -/

/-- A section that repeats the row for all items of a list. -/
def allRows : Node :=
  .plain Word.control []
    [.plain Word.controlProperties []
        [.plain Word.controlTag [(Word.value, "rows[*]")] [],
          .plain Word.repeatingSectionMark [] []],
      rowsContent]

def rowsScope (rows : List (List (Atom × Datum))) : Datum :=
  .object [(.text "rows", .list (rows.map .object))]

theorem allRows_isSection : (Control.read allRows).kind = .repeatingSection ∧
    (Control.read allRows).condition? = none ∧ (Control.read allRows).label = "rows[*]" := by
  decide +kernel

def isAllRows : Except Query.Fault Query → Bool
  | .ok (.projection (.field "rows") .current) => true
  | _ => false

theorem eq_of_isAllRows {parsed : Except Query.Fault Query} (found : isAllRows parsed) :
    parsed = .ok (.projection (.field "rows") .current) := by
  unfold isAllRows at found
  split at found
  · rfl
  · cases found

theorem parse_allRows : Query.parse "rows[*]" = .ok (.projection (.field "rows") .current) :=
  eq_of_isAllRows (by decide +kernel)

/-- The tag of that section is no key of a list of rows, and as a query it finds the rows. -/
theorem collects_allRows {rows : List (List (Atom × Datum))}
    (isFound : Query.search (.projection (.field "rows") .current) (rowsScope rows) =
      .ok (.list (rows.map .object))) :
    Collects (rowsScope rows) (Control.read allRows).label (rows.map .object) := by
  rw [allRows_isSection.2.2]
  exact ⟨rfl, "rows[*]", _, rfl, parse_allRows, rfl, isFound⟩

/-- Two matches give two copies, without their ids. -/
theorem populateControl_repeats_two_matches :
    let scope := rowsScope [[], []]
    let result := populateControl .standard .outside scope allRows (.start (.document none))
    let item := row.prune (·.isNamed Word.identifier)
    Collects scope (Control.read allRows).label [.object [], .object []] ∧
    result.1 = [allRows.replaceChild Word.controlContent
      (rowsContent.withChildren [item.copy 0, item.copy 1])] ∧
    result.2.findings = [] := by
  intro scope result item
  obtain ⟨isSection, unconditional, -⟩ := allRows_isSection
  have collects : Collects scope (Control.read allRows).label ([[], []].map .object) :=
    collects_allRows rfl
  have repeated : RepeatsObjects .standard .outside allRows rowsContent item [[], []]
      (.start (.document none)) result :=
    (populateControl_repeats_matches isSection unconditional collects rfl rfl rfl _).1 (by decide)
  obtain ⟨children, findings⟩ := repeated
  have entries : ([[], []] : List (List (Atom × Datum))).zipIdx = [([], 0), ([], 1)] := rfl
  simp only [entries, copyBelow, item, effect_row, List.map_cons, List.map_nil, List.flatMap_cons,
    List.flatMap_nil, List.append_nil] at children findings
  exact ⟨collects, children, findings⟩

/-- A single match is no list to the section, which stays as it is. -/
theorem singleMatch_is_refused :
    let scope := rowsScope [[]]
    let result := populateControl .standard .outside scope allRows (.start (.document none))
    Collects scope (Control.read allRows).label [.object []] ∧
    result.1 = [allRows] ∧ result.2.findings = [⟨.notList "rows[*]", []⟩] := by
  intro scope result
  obtain ⟨isSection, unconditional, label⟩ := allRows_isSection
  have collects : Collects scope (Control.read allRows).label [.object []] :=
    collects_allRows rfl
  have followed : effect (populateControl .standard .outside scope allRows) (.document none) = _ :=
    effect_section isSection unconditional collects.resolve (.document none)
  have refused : IsRefused allRows (.notList (Control.read allRows).label)
      (.start (.document none)) result := isRefused_of_course followed rfl
  obtain ⟨stays, -, found⟩ := refused
  rw [label] at found
  exact ⟨collects, stays, found⟩

end TemplateFill.Walk
