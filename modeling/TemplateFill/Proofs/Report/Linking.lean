import TemplateFill.Population
import TemplateFill.Proofs.Report.Dressing

/-!
# Every problem is linked

A report that is completed holds a link for every finding of a walk, and a bookmark of that name
stands around the control that the finding is about. Later bookmarks and highlights do not get
between a bookmark and its control, because all of them only dress the body.
-/

namespace TemplateFill.Report

open Xml
open TemplateFill.Walk

variable {place : Place} {nodes left : List Node} {node x : Node} {name : String}
  {lineage : Lineage}

/-! ### Bookmarks -/

/-- Among some siblings, a bookmark begins before the control of a lineage and ends behind it. -/
def StandsAround (name : String) (lineage : Lineage) (siblings : List Node) : Prop :=
  ∃ opening control closing id, [opening, control, closing].Sublist siblings ∧
    opening.isNamed Word.bookmarkStart ∧ opening.attribute? (.word "name") = some name ∧
    opening.attribute? Word.identifier = some id ∧ Control.isControl control ∧
    control.lineage = lineage ∧ closing.isNamed Word.bookmarkEnd ∧
    closing.attribute? Word.identifier = some id

/-- A bookmark stands around the control of a lineage, among or below some nodes. -/
def IsBookmarked (name : String) (lineage : Lineage) (nodes : List Node) : Prop :=
  StandsAround name lineage nodes ∨
    ∃ x ∈ Node.elementsOf nodes, StandsAround name lineage x.children

/-- An element that is no color stays, and with its attributes if it is not made bold. -/
theorem keeps_attribute {before after : Node} {own key : Name} (kept : dressing.Keeps before after)
    (named : before.isNamed own) (other : own ≠ bold) :
    after.attribute? key = before.attribute? key := by
  rcases kept.attributes with same | ⟨changed, isChanged, isBold⟩
  · rw [Node.attribute?, same]
    rfl
  · rw [Node.isNamed_iff] at named isChanged
    exact absurd ((Option.some.inj (named.symm.trans isChanged)).trans isBold) other

theorem StandsAround.dressed (around : StandsAround name lineage nodes)
    (dressed : Dressed place nodes left) : StandsAround name lineage left := by
  obtain ⟨opening, control, closing, id, among, isOpening, hasName, hasId, isControl, isOwn,
    isClosing, sameId⟩ := around
  have stays {x : Node} {own : Name} (named : x.isNamed own) (other : own ≠ color) :
      x.name?.isSome ∧ ¬ dressing.drops x := by
    refine ⟨Node.isElement_of_isNamed named, fun dropped => other ?_⟩
    exact Node.eq_of_isNamed named dropped.1
  obtain ⟨found, isFound, fits⟩ := dressed.exists_sublist among (by
    intro x member
    rcases List.mem_cons.mp member with rfl | member
    · exact stays isOpening (by decide)
    · rcases List.mem_cons.mp member with rfl | member
      · exact stays isControl (by decide)
      · rw [List.mem_singleton.mp member]
        exact stays isClosing (by decide))
  cases fits with
  | cons first fits =>
  cases fits with
  | cons second fits =>
  cases fits with
  | cons third fits =>
  cases fits
  refine ⟨_, _, _, id, isFound, ?_, ?_, ?_, ?_, ?_, ?_, ?_⟩
  · exact Node.isNamed_iff.mpr (first.name.trans (Node.isNamed_iff.mp isOpening))
  · rw [keeps_attribute first isOpening (by decide), hasName]
  · rw [keeps_attribute first isOpening (by decide), hasId]
  · exact Node.isNamed_iff.mpr (second.name.trans (Node.isNamed_iff.mp isControl))
  · rw [second.lineage, isOwn]
  · exact Node.isNamed_iff.mpr (third.name.trans (Node.isNamed_iff.mp isClosing))
  · rw [keeps_attribute third isClosing (by decide), sameId]

theorem StandsAround.tagged (around : StandsAround name lineage node.children) :
    tags [node] ≠ [] := by
  obtain ⟨opening, control, closing, id, among, -, -, -, isControl, -⟩ := around
  have member : control ∈ node.children := among.subset (by simp)
  have inside := Node.mem_elementsOf member (Node.mem_elements_self (Node.isElement_of_isNamed isControl))
  have tagged := (sublist_tags_children node).subset (mem_tags inside (isTag_of_isControl isControl))
  exact List.ne_nil_of_mem tagged

theorem exists_around_dressed (dressed : Dressed place nodes left) :
    (∃ x ∈ Node.elementsOf nodes, StandsAround name lineage x.children) →
      ∃ x ∈ Node.elementsOf left, StandsAround name lineage x.children := by
  induction dressed with
  | nil => exact id
  | drop dropped _ ih =>
    rintro ⟨x, inside, around⟩
    rcases List.mem_append.mp inside with here | later
    · have fewer := tags_subset_of_mem (Node.mem_elementsOf (List.mem_singleton_self _) here)
      rw [dropped.2] at fewer
      exact absurd (List.subset_nil.mp fewer) around.tagged
    · exact ih ⟨x, later, around⟩
  | keep _ below _ ihBelow ih =>
    rintro ⟨x, inside, around⟩
    rcases List.mem_append.mp inside with here | later
    · rcases Node.mem_elements_element.mp here with rfl | within
      · exact ⟨_, List.mem_append_left _ List.mem_cons_self, around.dressed below⟩
      · obtain ⟨y, among, stands⟩ := ihBelow ⟨x, within, around⟩
        exact ⟨y, List.mem_append_left _ (List.mem_cons_of_mem _ among), stands⟩
    · obtain ⟨y, among, stands⟩ := ih ⟨x, later, around⟩
      exact ⟨y, List.mem_append_right _ among, stands⟩
  | leaf isLeaf _ ih =>
    rintro ⟨x, inside, around⟩
    rw [Node.elementsOf, Node.elements_of_leaf isLeaf] at inside
    obtain ⟨y, among, stands⟩ := ih ⟨x, inside, around⟩
    exact ⟨y, List.mem_append_right _ among, stands⟩
  | add _ _ ih =>
    intro before
    obtain ⟨y, among, stands⟩ := ih before
    exact ⟨y, List.mem_append_right _ among, stands⟩

/-- Bookmarks stay around their controls. -/
theorem IsBookmarked.dressed (bookmarked : IsBookmarked name lineage nodes)
    (dressed : Dressed place nodes left) : IsBookmarked name lineage left :=
  bookmarked.imp (·.dressed dressed) (exists_around_dressed dressed)

/-! ### Marking -/

theorem dressed_bookmarked (id name hue : String) (node : Node) (bare : ColorsBare [node])
    (place : Place) : Dressed place [node] (bookmarked id name hue node) := by
  refine .add rfl ((painted_highlight hue node bare place).dressed.putBehind fun added member => ?_)
  rw [List.mem_singleton.mp member]
  rfl

theorem dressed_expandAll (id name hue : String) (lineage : Lineage)
    (each : ∀ node ∈ nodes, ∀ place, ColorsBare [node] →
      Dressed place [node] [node.expand lineage (bookmarked id name hue)])
    (bare : ColorsBare nodes) (place : Place) :
    Dressed place nodes (Node.expandAll lineage (bookmarked id name hue) nodes) := by
  rw [Node.expandAll_eq]
  refine .flatMap fun node member => ?_
  split
  · exact dressed_bookmarked id name hue node (bare.mem member) place
  · exact each node member place (bare.mem member)

theorem dressed_expand (id name hue : String) (lineage : Lineage) (node : Node) :
    ∀ place, ColorsBare [node] →
      Dressed place [node] [node.expand lineage (bookmarked id name hue)] := by
  induction node using Node.induction with
  | element own _ traits children ih =>
    intro place bare
    exact .keep (.inl rfl) (dressed_expandAll id name hue lineage ih bare.content _) .nil
  | aside content tail => exact fun place _ => .refl _ place

theorem StandsAround.sublist (around : StandsAround name lineage nodes)
    (more : nodes.Sublist left) : StandsAround name lineage left := by
  obtain ⟨opening, control, closing, id, among, fits⟩ := around
  exact ⟨opening, control, closing, id, among.trans more, fits⟩

/-- A control stays what it is when it is highlighted. -/
theorem key_highlight (hue : String) (isControl : Control.isControl node) :
    key (Word.highlight hue node) = key node := by
  obtain ⟨lineage, traits, children, rfl⟩ := Node.exists_of_isNamed isControl
  have noRun : Word.control ≠ Word.run := by decide
  rw [Word.highlight, Word.light, if_neg noRun]
  rfl

theorem standsAround_bookmarked (id name hue : String) (isControl : Control.isControl node) :
    StandsAround name node.lineage (bookmarked id name hue node) := by
  obtain ⟨sameName, sameLineage⟩ := Prod.mk.inj (key_highlight hue isControl)
  refine ⟨_, _, _, id, List.Sublist.refl _, rfl, rfl, rfl, ?_, sameLineage, rfl, rfl⟩
  exact Node.isNamed_iff.mpr (sameName.trans (Node.isNamed_iff.mp isControl))

/-- The control of a lineage has a bookmark around it once it is marked. -/
theorem isBookmarked_expand (id name hue : String) (node : Node) :
    (∃ x ∈ Node.elementsOf node.children, x.lineage = lineage) →
    (∀ x ∈ Node.elementsOf node.children, x.lineage = lineage → Control.isControl x) →
      IsBookmarked name lineage (node.expand lineage (bookmarked id name hue)).children := by
  induction node using Node.induction with
  | element own _ traits children ih =>
    rintro ⟨x, member, isOwn⟩ only
    obtain ⟨child, among, within⟩ := Node.mem_elementsOf_iff.mp member
    have isElement : child.name?.isSome := by
      cases child with
      | element => rfl
      | aside content tail => cases within
    have below := Node.mem_elementsOf among (Node.mem_elements_self isElement)
    change IsBookmarked name lineage (Node.expandAll lineage _ children)
    rw [Node.expandAll_eq]
    by_cases here : child.lineage = lineage
    · -- the bookmark is put around the child itself
      have around := standsAround_bookmarked id name hue (only child below here)
      obtain ⟨before, after, rfl⟩ := List.append_of_mem among
      left
      rw [here] at around
      refine around.sublist ?_
      rw [List.flatMap_append, List.flatMap_cons, if_pos here]
      exact List.sublist_append_of_sublist_right (List.sublist_append_left _ _)
    · -- the control is further down, and so is the bookmark
      have expanded : child.expand lineage (bookmarked id name hue) ∈ children.flatMap fun node =>
          if node.lineage = lineage then bookmarked id name hue node
          else [node.expand lineage (bookmarked id name hue)] := by
        refine List.mem_flatMap.mpr ⟨child, among, ?_⟩
        rw [if_neg here]
        exact List.mem_singleton_self _
      cases child with
      | aside content tail => cases within
      | element inner lineage' traits' inside' =>
      have isBelow : x ∈ Node.elementsOf inside' := by
        rcases Node.mem_elements_element.mp within with rfl | isBelow
        · exact absurd isOwn here
        · exact isBelow
      right
      rcases ih _ among ⟨x, isBelow, isOwn⟩ fun y isIn => only y
        (Node.mem_elementsOf among (List.mem_cons_of_mem _ isIn)) with around | ⟨y, isIn, around⟩
      · exact ⟨_, Node.mem_elementsOf expanded (Node.mem_elements_self rfl), around⟩
      · exact ⟨y, Node.mem_elementsOf expanded (Node.mem_elements_of_children isIn), around⟩
  | aside content tail => exact fun ⟨_, inside, _⟩ => nomatch inside

/-! ### Records -/

theorem hasControl_iff : HasControl nodes lineage ↔ (some Word.control, lineage) ∈ tags nodes := by
  constructor
  · rintro ⟨x, inside, isControl, rfl⟩
    have tagged := mem_tags inside (isTag_of_isControl isControl)
    rwa [key, Node.isNamed_iff.mp isControl] at tagged
  · intro member
    obtain ⟨x, inside, isKey⟩ := List.mem_map.mp (List.mem_filter.mp member).1
    obtain ⟨named, isOwn⟩ := Prod.mk.inj isKey
    exact ⟨x, inside, Node.isNamed_iff.mpr named, isOwn⟩

/-- A body in which every control can be linked. -/
structure IsReady (body : Node) : Prop where
  distinct : Distinct (tags body.children)
  bare : ColorsBare body.children

theorem IsReady.dressed {body after : Node} (ready : IsReady body)
    (dressed : Dressed place body.children after.children) : IsReady after :=
  ⟨by rw [dressed.tags_eq]; exact ready.distinct, dressed.colorsBare ready.bare⟩

def IsAbout (body : Node) (record : Record) : Prop :=
  ∃ lineage, record.subject = some lineage ∧ HasControl body.children lineage

theorem IsAbout.dressed {body after : Node} {record : Record} (about : IsAbout body record)
    (dressed : Dressed place body.children after.children) : IsAbout after record := by
  obtain ⟨lineage, isSubject, has⟩ := about
  refine ⟨lineage, isSubject, hasControl_iff.mpr ?_⟩
  rw [dressed.tags_eq]
  exact hasControl_iff.mp has

def numberedText (number : Nat) (record : Record) : String := s!"{number}. " ++ record.message

/-- A record is linked: there is a paragraph with its text that links to a bookmark, and the
bookmark stands around its control. -/
def IsLinked (number : Nat) (record : Record) (body : Node) (paragraphs : List Node) : Prop :=
  ∃ lineage run, record.subject = some lineage ∧
    Block.textRun (numberedText number record) = .ok run ∧
    linkParagraph (bookmarkName number) run ∈ paragraphs ∧
    IsBookmarked (bookmarkName number) lineage body.children

theorem IsLinked.dressed {number : Nat} {record : Record} {body after : Node}
    {paragraphs more : List Node} (linked : IsLinked number record body paragraphs)
    (dressed : Dressed place body.children after.children) (kept : paragraphs ⊆ more) :
    IsLinked number record after more := by
  obtain ⟨lineage, run, isSubject, made, member, marked⟩ := linked
  exact ⟨lineage, run, isSubject, made, kept member, marked.dressed dressed⟩

theorem isAttached_of_hasControl {body : Node} (named : lineage ≠ [])
    (has : HasControl body.children lineage) : isAttached body lineage := by
  obtain ⟨x, inside, -, rfl⟩ := has
  rw [isAttached, Bool.and_eq_true, List.any_eq_true]
  exact ⟨by simpa using named, x, inside, beq_self_eq_true _⟩

theorem addParagraph_eq_none {text : String} {around : Node → Node} {draft after : Draft}
    (done : addParagraph text around draft = (after, none)) :
    ∃ run, Block.textRun text = .ok run ∧
      after = { draft with paragraphs := draft.paragraphs ++ [around run] } := by
  unfold addParagraph at done
  split at done
  · cases done
  · rename_i run made
    cases done
    exact ⟨run, made, rfl⟩

theorem mark_eq_ok {hue name : String} {draft marked : Draft}
    (done : mark hue name lineage draft = .ok marked) :
    ∃ id, marked.body = draft.body.expand lineage (bookmarked id name hue) ∧
      marked.paragraphs = draft.paragraphs := by
  obtain ⟨id, -, made⟩ := bind_eq_ok done
  cases made
  exact ⟨id, rfl, rfl⟩

theorem children_expand (f : Node → List Node) (node : Node) :
    (node.expand lineage f).children = Node.expandAll lineage f node.children := by
  cases node <;> rfl

/-- A record that was added is in the list with its text, and if its control is in the body, there
is a bookmark around it. -/
theorem addRecord_eq_none {hue : String} {number : Nat} {record : Record} {draft after : Draft}
    (done : addRecord hue number record draft = (after, none)) :
    ∃ run, Block.textRun (numberedText number record) = .ok run ∧
      match record.subject.filter (isAttached draft.body) with
      | none => after.body = draft.body ∧
          after.paragraphs = draft.paragraphs ++ [Word.makeParagraph [run]]
      | some lineage =>
          after.paragraphs = draft.paragraphs ++ [linkParagraph (bookmarkName number) run] ∧
            ∃ id, after.body = draft.body.expand lineage (bookmarked id (bookmarkName number) hue) := by
  unfold addRecord at done
  simp only at done
  cases isSubject : record.subject.filter (isAttached draft.body) with
  | none =>
    rw [isSubject] at done
    obtain ⟨run, made, rfl⟩ := addParagraph_eq_none done
    exact ⟨run, made, rfl, rfl⟩
  | some lineage =>
    rw [isSubject] at done
    simp only at done
    split at done
    · cases done
    · rename_i marked isMarked
      obtain ⟨id, isBody, sameParagraphs⟩ := mark_eq_ok isMarked
      obtain ⟨run, made, rfl⟩ := addParagraph_eq_none done
      exact ⟨run, made, congrArg (· ++ _) sameParagraphs, id, isBody⟩

/-- Reporting a record dresses the body and links the record. -/
theorem addRecord_links {hue : String} {number : Nat} {record : Record} {draft after : Draft}
    (ready : IsReady draft.body) (about : IsAbout draft.body record)
    (done : addRecord hue number record draft = (after, none)) :
    (∀ place, Dressed place draft.body.children after.body.children) ∧
      draft.paragraphs ⊆ after.paragraphs ∧ IsLinked number record after.body after.paragraphs := by
  obtain ⟨lineage, isSubject, has⟩ := about
  have tagged := hasControl_iff.mp has
  have named : lineage ≠ [] := (ready.distinct.controls _ tagged).2
  have only : ∀ x ∈ Node.elementsOf draft.body.children, x.lineage = lineage →
      Control.isControl x := by
    intro x inside isOwn
    have isTagged : isTag (key x) := by simp [isTag, key, isOwn, named]
    exact Node.isNamed_iff.mpr (ready.distinct.controls _ (mem_tags inside isTagged)).1
  have attached := isAttached_of_hasControl named has
  obtain ⟨run, made, added⟩ := addRecord_eq_none done
  rw [isSubject, Option.filter_some_pos attached] at added
  obtain ⟨isList, id, isBody⟩ := added
  refine ⟨fun place => ?_, ?_, lineage, run, isSubject, made, ?_, ?_⟩
  · rw [isBody, children_expand]
    exact dressed_expandAll id _ hue lineage (fun node _ => dressed_expand id _ hue lineage node)
      ready.bare place
  · rw [isList]
    exact List.subset_append_left _ _
  · rw [isList]
    exact List.mem_append_right _ (List.mem_singleton_self _)
  · rw [isBody]
    obtain ⟨x, inside, -, isOwn⟩ := has
    exact isBookmarked_expand id _ hue draft.body ⟨x, inside, isOwn⟩ only

/-- What one record dresses and links, all records do, for later ones keep the links. -/
theorem addRecords_links {hue : String} {records : List Record} :
    ∀ {number : Nat} {draft after : Draft}, IsReady draft.body →
      (∀ record ∈ records, IsAbout draft.body record) →
      addRecords hue number records draft = (after, none) →
      (∀ place, Dressed place draft.body.children after.body.children) ∧
        draft.paragraphs ⊆ after.paragraphs ∧
        ∀ i record, records[i]? = some record →
          IsLinked (number + i) record after.body after.paragraphs := by
  induction records with
  | nil =>
    intro number draft after ready about done
    cases done
    exact ⟨fun place => .reflAll _, List.Subset.refl _, fun i record isAt => nomatch isAt⟩
  | cons record rest ih =>
    intro number draft after ready about done
    rw [addRecords] at done
    split at done
    · cases done
    · rename_i middle first
      obtain ⟨dressed, kept, linked⟩ := addRecord_links ready (about record List.mem_cons_self) first
      obtain ⟨onward, keptOnward, others⟩ := ih (ready.dressed (dressed .outside))
        (fun other member => (about other (List.mem_cons_of_mem _ member)).dressed (dressed .outside))
        done
      refine ⟨fun place => (dressed place).again (onward place), List.Subset.trans kept keptOnward, ?_⟩
      intro i other isAt
      cases i with
      | zero =>
        cases isAt
        exact linked.dressed (onward .outside) keptOnward
      | succ i =>
        have later := others i other isAt
        rwa [Nat.add_right_comm, Nat.add_assoc] at later

/-! ### A whole report -/

theorem IsBookmarked.sublist (marked : IsBookmarked name lineage nodes) (more : nodes.Sublist left) :
    IsBookmarked name lineage left := by
  rcases marked with around | ⟨x, inside, around⟩
  · exact .inl (around.sublist more)
  · obtain ⟨node, among, within⟩ := Node.mem_elementsOf_iff.mp inside
    exact .inr ⟨x, Node.mem_elementsOf (more.subset among) within, around⟩

theorem IsBookmarked.insertFirst {body : Node} {paragraphs : List Node}
    (marked : IsBookmarked name lineage body.children) :
    IsBookmarked name lineage (body.insertFirst paragraphs).children := by
  cases body with
  | element own mark traits children => exact marked.sublist (List.sublist_append_right _ _)
  | aside content tail => exact marked

/-- The list in front of a body keeps all links. -/
theorem IsLinked.insertFirst {number : Nat} {record : Record} {body : Node}
    {paragraphs : List Node} (linked : IsLinked number record body paragraphs)
    (isElement : body.name?.isSome) :
    IsLinked number record (body.insertFirst paragraphs) (body.insertFirst paragraphs).children := by
  obtain ⟨lineage, run, isSubject, made, member, marked⟩ := linked
  refine ⟨lineage, run, isSubject, made, ?_, marked.insertFirst⟩
  rw [Node.insertFirst, Node.children_withChildren isElement]
  exact List.mem_append_left _ member

/-- A report that is completed links all of its records. -/
theorem render_links {options : Options} {records : List Record} {body reported : Node}
    (ready : IsReady body) (about : ∀ record ∈ records, IsAbout body record)
    (shows : options.showErrors) (done : render options records body = (reported, none)) :
    ∀ i record, records[i]? = some record → IsLinked (i + 1) record reported reported.children := by
  intro i record isAt
  have member := List.mem_of_getElem? isAt
  have some : records.isEmpty = false := by
    cases records with
    | nil => cases member
    | cons => rfl
  unfold render at done
  rw [if_neg (by simp [shows, some])] at done
  split at done
  · cases done
  · rename_i hue draft begun
    obtain ⟨_, -, begun⟩ := bind_eq_ok begun
    obtain ⟨largest, -, begun⟩ := bind_eq_ok begun
    obtain ⟨title, -, begun⟩ := bind_eq_ok begun
    cases begun
    split at done
    · cases done
    · rename_i after isDone
      cases done
      obtain ⟨dressed, -, linked⟩ := addRecords_links ready about isDone
      have isLinked := linked i record isAt
      rw [Nat.add_comm] at isLinked
      obtain ⟨lineage, -, x, inside, -⟩ := (about record member).dressed (dressed .outside)
      exact isLinked.insertFirst (Node.isElement_of_children inside)

/-- Every finding of a walk over numbered controls is about exactly one control of what is left.
A report of the findings that is completed links each of them to a bookmark around its control,
unless some color holds a control. -/
theorem findings_are_linked (options : Options) (next : Nat) (bare : Node) (data : Datum)
    (lists : ListStore) :
    let body := (Control.enroll next bare).1
    let result := Walk.populate options body data (.start lists)
    (∀ finding ∈ result.2.findings, ∃ control, Control.isControl control ∧
      (Node.elementsOf result.1.children).filter (·.lineage == finding.subject) = [control]) ∧
    (Excludes color body.children → options.showErrors → ∀ reported,
      render options (Population.records result.2.findings) result.1 = (reported, none) →
      ∀ (i : Nat) finding, result.2.findings[i]? = some finding →
        ∃ run, Block.textRun (s!"{i + 1}. " ++ finding.problem.message) = .ok run ∧
          linkParagraph (bookmarkName (i + 1)) run ∈ reported.children ∧
          IsBookmarked (bookmarkName (i + 1)) finding.subject reported.children) := by
  intro body result
  have distinct := (populate_descends options body data lists).distinct (distinct_enroll next bare)
  have below : Distinct (tags result.1.children) := distinct.sublist (sublist_tags_children result.1)
  constructor
  · intro finding found
    obtain ⟨control, inside, isControl, isOwn⟩ := populate_hasControl options body data lists found
    rw [← isOwn]
    exact ⟨control, isControl, filter_lineage_eq below inside isControl⟩
  · intro excludes shows reported done i finding isAt
    have unwritten (inParagraph : Bool) : color ∉ textNames inParagraph := by
      cases inParagraph <;> decide
    have excluded := populate_excludes unwritten options body data lists excludes
    have ready : IsReady result.1 := ⟨below, colorsBare_of_excludes below excluded⟩
    have about : ∀ record ∈ Population.records result.2.findings, IsAbout result.1 record := by
      intro record member
      obtain ⟨finding, found, rfl⟩ := List.mem_map.mp member
      exact ⟨finding.subject, rfl, populate_hasControl options body data lists found⟩
    have isRecord : (Population.records result.2.findings)[i]? =
        some ⟨finding.problem.message, some finding.subject⟩ := by
      rw [Population.records, List.getElem?_map, isAt]
      rfl
    obtain ⟨lineage, run, isSubject, made, member, marked⟩ :=
      render_links ready about shows done i _ isRecord
    cases isSubject
    exact ⟨run, made, member, marked⟩

def reporting : Options := { Options.standard with showErrors := true }

def untaggedControl (lineage : Lineage) : Node := .element Word.control lineage (.ofList []) []

theorem effect_untagged (lineage : Lineage) (place : Place) (scope : Datum) (lists : ListStore) :
    effect (populateAll reporting place scope [untaggedControl lineage]) lists =
      ⟨[untaggedControl lineage], lists, [⟨.unsupported .untagged, lineage⟩]⟩ := by
  have refused : course reporting place scope lists (untaggedControl lineage) =
      .refused (.unsupported .untagged) := rfl
  exact effect_populateAll_control rfl refused

theorem completed_eq {result : Node × Option Fault} (completed : result.2.isNone) :
    result = (result.1, none) := Prod.ext rfl (Option.isNone_iff_eq_none.mp completed)

def untaggedBody : Node := .plain Word.body [] [untaggedControl []]

theorem populate_untagged :
    let result := Walk.populate reporting (Control.enroll 0 untaggedBody).1 (.object [])
      (.start (.document none))
    result.1 = .plain Word.body [] [untaggedControl [0]] ∧
      result.2.findings = [⟨.unsupported .untagged, [0]⟩] := by
  intro result
  have below := effect_untagged [0] (.ofRoot untaggedBody) (.object []) (.document none)
  exact ⟨congrArg (fun after : Effect (List Node) => untaggedBody.withChildren after.value) below,
    congrArg Effect.findings below⟩

/-- The control of that body is linked. -/
theorem untaggedBody_linked :
    let body := (Control.enroll 0 untaggedBody).1
    let result := Walk.populate reporting body (.object []) (.start (.document none))
    ∃ reported run, Excludes color body.children ∧
      render reporting (Population.records result.2.findings) result.1 = (reported, none) ∧
      linkParagraph (bookmarkName 1) run ∈ reported.children ∧
      IsBookmarked (bookmarkName 1) [0] reported.children := by
  intro body result
  have excludes : Excludes color body.children := by decide +kernel
  obtain ⟨isLeft, found⟩ := populate_untagged
  have completed : (render reporting (Population.records result.2.findings) result.1).2.isNone := by
    rw [found, isLeft]
    decide +kernel
  have linked := (findings_are_linked reporting 0 untaggedBody (.object []) (.document none)).2
    excludes rfl _ (completed_eq completed) 0 ⟨.unsupported .untagged, [0]⟩ (by rw [found]; rfl)
  obtain ⟨run, -, member, marked⟩ := linked
  exact ⟨_, run, excludes, completed_eq completed, member, marked⟩

/-- A conditional control that has nothing to compare, around a run whose color holds a control
without a tag. -/
def coloredControl (outer inner : Lineage) : Node :=
  .element Word.control outer (.ofList [])
    [.plain Word.controlProperties [] [.plain Word.controlTag [(Word.value, "visible:")] []],
      .plain Word.run [] [.plain Word.runProperties [] [.plain color [] [untaggedControl inner]]]]

def coloredBody : Node := .plain Word.body [] [coloredControl [] []]

def coloredFindings : List Finding :=
  [⟨.badCondition "" .emptyOperand, [0]⟩, ⟨.unsupported .untagged, [1]⟩]

theorem course_colored (place : Place) (lists : ListStore) :
    course reporting place (.object []) lists (coloredControl [0] [1]) =
      .shown (some (.badCondition "" .emptyOperand)) := by
  have kind : (Control.read (coloredControl [0] [1])).kind = .richText := by decide +kernel
  have conditional : (Control.read (coloredControl [0] [1])).condition? = some "" := by
    decide +kernel
  have blamed : Condition.evaluate "" (.object []) = .ok (.blamed .emptyOperand) := by rfl
  rw [course, kind, conditional]
  simp only [blamed]
  rfl

theorem effect_colored (place : Place) (lists : ListStore) :
    effect (populateAll reporting place (.object []) [coloredControl [0] [1]]) lists =
      ⟨[coloredControl [0] [1]], lists, coloredFindings⟩ := by
  rw [effect_populateAll_control rfl (course_colored place lists), follow]
  simp only [coloredControl, Node.children, Node.plain]
  rw [effect_populateAll_cons, effect_populateNode_element (by decide),
    effect_populateAll_element (by decide)]
  simp only [effect_populateAll_nil]
  rw [effect_populateAll_element (by decide), effect_populateAll_element (by decide),
    effect_populateAll_element (by decide)]
  simp only [effect_untagged]
  rfl

theorem populate_colored :
    let result := Walk.populate reporting (Control.enroll 0 coloredBody).1 (.object [])
      (.start (.document none))
    result.1 = (Control.enroll 0 coloredBody).1 ∧ result.2.findings = coloredFindings := by
  intro result
  have below := effect_colored (.ofRoot coloredBody) (.document none)
  exact ⟨congrArg (fun after : Effect (List Node) => coloredBody.withChildren after.value) below,
    congrArg Effect.findings below⟩

/-- In that body the second finding is not linked: its control goes away with the color when the
run is highlighted for the first finding. -/
theorem coloredBody_unlinked :
    let result := Walk.populate reporting (Control.enroll 0 coloredBody).1 (.object [])
      (.start (.document none))
    ∃ reported finding,
      render reporting (Population.records result.2.findings) result.1 = (reported, none) ∧
      result.2.findings[1]? = some finding ∧
      (∀ x ∈ Node.elementsOf reported.children, x.lineage ≠ finding.subject) ∧
      ∀ link ∈ reported.named Word.hyperlink,
        link.attribute? (.word "anchor") ≠ some (bookmarkName 2) := by
  obtain ⟨isLeft, found⟩ := populate_colored
  intro result
  have isResult : render reporting (Population.records result.2.findings) result.1 =
      render reporting (Population.records coloredFindings) (Control.enroll 0 coloredBody).1 := by
    rw [found, isLeft]
  have completed : (render reporting (Population.records coloredFindings)
      (Control.enroll 0 coloredBody).1).2.isNone := by decide +kernel
  refine ⟨_, ⟨.unsupported .untagged, [1]⟩, isResult.trans (completed_eq completed), ?_, ?_, ?_⟩
  · rw [found]
    rfl
  · decide +kernel
  · decide +kernel

end TemplateFill.Report
