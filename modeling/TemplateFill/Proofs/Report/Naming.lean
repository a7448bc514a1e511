import TemplateFill.Proofs.Number.Numeral
import TemplateFill.Proofs.Report.Linking

/-!
# What the anchors of a report name

A link of a report goes by the name of a bookmark. The names are numbered from one on in each
report, and every number is given once, so that a name is the name of one bookmark alone, unless
the body had a bookmark of that name before. Nothing keeps a second report of the same body from
giving the names of the first one again.
-/

namespace TemplateFill.Report

open Xml
open TemplateFill.Walk

variable {place : Place} {nodes left : List Node} {node x : Node} {name other hue : String}
  {lineage : Lineage} {written : List Name}

/-! ### Bookmarks of a name -/

def begins (name : String) (node : Node) : Bool :=
  node.isNamed Word.bookmarkStart && node.attribute? (.word "name") == some name

/-- How many bookmarks of a name begin among and below some nodes. -/
def timesBegun (name : String) (nodes : List Node) : Nat :=
  (Node.elementsOf nodes).countP (begins name)

theorem timesBegun_append (nodes rest : List Node) :
    timesBegun name (nodes ++ rest) = timesBegun name nodes + timesBegun name rest := by
  rw [timesBegun, Node.elementsOf_append, List.countP_append]
  rfl

theorem timesBegun_cons (node : Node) (rest : List Node) :
    timesBegun name (node :: rest) = timesBegun name [node] + timesBegun name rest :=
  timesBegun_append [node] rest

theorem timesBegun_element (own : Name) (lineage : Lineage) (traits : Traits)
    (children : List Node) : timesBegun name [.element own lineage traits children] =
      (if begins name (.element own lineage traits children) then 1 else 0) +
        timesBegun name children := by
  rw [timesBegun, Node.elementsOf_singleton, Node.elements, List.countP_cons, Nat.add_comm]
  rfl

/-- Where nothing that is written begins a bookmark, no bookmark begins. -/
theorem timesBegun_of_isMadeOf (never : Word.bookmarkStart ∉ written)
    (made : ∀ node ∈ nodes, IsMadeOf written node) : timesBegun name nodes = 0 := by
  rw [timesBegun, List.countP_eq_zero]
  intro x inside isOpening
  obtain ⟨node, member, within⟩ := Node.mem_elementsOf_iff.mp inside
  have isStart := ((Bool.and_eq_true _ _).mp isOpening).1
  exact (made node member).none_named never x within isStart

/-- Paring begins no bookmarks. -/
theorem timesBegun_pared (never : Word.bookmarkStart ∉ written)
    (pared : Pared written place nodes left) : timesBegun name left ≤ timesBegun name nodes := by
  induction pared with
  | nil => exact Nat.le_refl _
  | @drop _ node rest _ _ _ ih =>
    rw [timesBegun_cons node rest]
    omega
  | @keep _ own lineage before after children inside rest left same _ _ ihBelow ih =>
    rw [timesBegun_cons _ left, timesBegun_cons _ rest, timesBegun_element, timesBegun_element]
    have here : begins name (.element own lineage after inside) =
        begins name (.element own lineage before children) := by
      rcases same with rfl | changed
      · rfl
      · have different : (own == Word.bookmarkStart) = false :=
          beq_false_of_ne fun isStart => never (isStart ▸ changed)
        rw [begins, begins, Node.isNamed, Node.isNamed]
        change (own == _ && _) = (own == _ && _)
        rw [different, Bool.false_and, Bool.false_and]
    rw [here]
    omega
  | @leaf _ node rest left _ _ ih =>
    rw [timesBegun_cons node rest, timesBegun_cons node left]
    omega
  | @add _ node _ left added _ ih =>
    have nothing : timesBegun name [node] = 0 :=
      timesBegun_of_isMadeOf never fun x member => List.mem_singleton.mp member ▸ added.isMadeOf
    rw [timesBegun_cons node left]
    omega

/-- A control that is bookmarked has a bookmark of that name. -/
theorem IsBookmarked.timesBegun_pos (marked : IsBookmarked name lineage nodes) :
    0 < timesBegun name nodes := by
  have around {siblings : List Node} (stands : StandsAround name lineage siblings) :
      ∃ x ∈ siblings, x.name?.isSome ∧ begins name x := by
    obtain ⟨opening, control, closing, id, among, isOpening, hasName, -⟩ := stands
    refine ⟨opening, among.subset List.mem_cons_self, Node.isElement_of_isNamed isOpening, ?_⟩
    rw [begins, isOpening, hasName, Bool.true_and, beq_self_eq_true]
  rw [timesBegun, List.countP_pos_iff]
  rcases marked with stands | ⟨x, inside, stands⟩
  · obtain ⟨opening, member, isElement, isOpening⟩ := around stands
    exact ⟨opening, Node.mem_elementsOf member (Node.mem_elements_self isElement), isOpening⟩
  · obtain ⟨opening, member, isElement, isOpening⟩ := around stands
    refine ⟨opening, Node.mem_elementsOf_trans inside (Node.mem_elements_of_children ?_), isOpening⟩
    exact Node.mem_elementsOf member (Node.mem_elements_self isElement)

/-! ### Marking a control -/

/-- How often a name is given when the elements of a lineage get bookmarks of some name. -/
def timesGiven (other name : String) (lineage : Lineage) (nodes : List Node) : Nat :=
  if other = name then (Node.elementsOf nodes).countP (·.lineage == lineage) else 0

theorem timesGiven_cons (node : Node) (rest : List Node) :
    timesGiven other name lineage (node :: rest) =
      timesGiven other name lineage [node] + timesGiven other name lineage rest := by
  unfold timesGiven
  split
  · rw [← List.countP_append, ← Node.elementsOf_append]
    rfl
  · rfl

theorem timesGiven_children_le (node : Node) :
    timesGiven other name lineage node.children ≤ timesGiven other name lineage [node] := by
  unfold timesGiven
  split
  · rw [Node.elementsOf_singleton]
    cases node with
    | element own lineage traits children =>
      rw [Node.elements]
      exact (List.sublist_cons_self _ _).countP_le
    | aside content tail => exact Nat.le_refl _
  · exact Nat.le_refl 0

theorem le_timesGiven (named : lineage ≠ []) (isOwn : node.lineage = lineage) :
    (if other = name then 1 else 0) ≤ timesGiven other name lineage [node] := by
  have isElement : node.name?.isSome := by
    cases node with
    | element => rfl
    | aside content tail => exact absurd isOwn.symm named
  unfold timesGiven
  split
  · rw [Node.elementsOf_singleton, Nat.one_le_iff_ne_zero, ← Nat.pos_iff_ne_zero,
      List.countP_pos_iff]
    exact ⟨node, Node.mem_elements_self isElement, beq_iff_eq.mpr isOwn⟩
  · exact Nat.le_refl 0

/-- A bookmark begins once around a control. -/
theorem timesBegun_bookmarked (id : String) (bare : ColorsBare [node]) :
    timesBegun other (bookmarked id name hue node) ≤
      timesBegun other [node] + if other = name then 1 else 0 := by
  have highlighted : timesBegun other [Word.highlight hue node] ≤ timesBegun other [node] :=
    timesBegun_pared (by decide) (painted_highlight hue node bare .outside).pared
  have opening : timesBegun other [.plain Word.bookmarkStart
      [(Word.identifier, id), (.word "name", name)] []] = if other = name then 1 else 0 := by
    have isName : begins other (.plain Word.bookmarkStart
        [(Word.identifier, id), (.word "name", name)] []) = (some name == some other) := rfl
    rw [Node.plain, timesBegun_element, ← Node.plain, isName]
    by_cases same : other = name
    · rw [if_pos same, same, beq_self_eq_true, if_pos rfl]
      rfl
    · have different : (some name == some other) = false :=
        beq_false_of_ne fun equal => same (Option.some.inj equal).symm
      rw [if_neg same, different]
      rfl
  have closing : timesBegun other [.plain Word.bookmarkEnd [(Word.identifier, id)] []] = 0 := rfl
  rw [bookmarked, timesBegun_cons, timesBegun_cons (Word.highlight hue node), opening, closing]
  omega

theorem timesBegun_expandAll (id : String) (named : lineage ≠ [])
    (each : ∀ node ∈ nodes, ColorsBare [node] →
      timesBegun other [node.expand lineage (bookmarked id name hue)] ≤
        timesBegun other [node] + timesGiven other name lineage [node])
    (bare : ColorsBare nodes) :
    timesBegun other (Node.expandAll lineage (bookmarked id name hue) nodes) ≤
      timesBegun other nodes + timesGiven other name lineage nodes := by
  rw [Node.expandAll_eq]
  induction nodes with
  | nil => exact Nat.zero_le _
  | cons node rest ih =>
    have onward := ih (fun x member => each x (List.mem_cons_of_mem _ member))
      (bare.subset (List.subset_cons_self _ _))
    have bareHere : ColorsBare [node] := bare.mem List.mem_cons_self
    have here : timesBegun other (if node.lineage = lineage then bookmarked id name hue node
        else [node.expand lineage (bookmarked id name hue)]) ≤
          timesBegun other [node] + timesGiven other name lineage [node] := by
      split
      · rename_i isOwn
        have marked : timesBegun other (bookmarked id name hue node) ≤ _ :=
          timesBegun_bookmarked id bareHere
        exact Nat.le_trans marked (Nat.add_le_add_left (le_timesGiven named isOwn) _)
      · exact each node List.mem_cons_self bareHere
    rw [List.flatMap_cons, timesBegun_append, timesBegun_cons node rest, timesGiven_cons node rest]
    omega

/-- Bookmarks of a name begin where they are put, and nowhere else. -/
theorem timesBegun_expand (id : String) (named : lineage ≠ []) (node : Node) :
    ColorsBare [node] → timesBegun other [node.expand lineage (bookmarked id name hue)] ≤
      timesBegun other [node] + timesGiven other name lineage [node] := by
  induction node using Node.induction with
  | element own mark traits children ih =>
    intro bare
    have below : timesBegun other (Node.expandAll lineage (bookmarked id name hue) children) ≤
        timesBegun other children + timesGiven other name lineage children :=
      timesBegun_expandAll id named ih bare.content
    have fewer : timesGiven other name lineage children ≤ _ :=
      timesGiven_children_le (.element own mark traits children)
    have here (inside : List Node) : begins other (.element own mark traits inside) =
        begins other (.element own mark traits children) := rfl
    rw [Node.expand, timesBegun_element, timesBegun_element, here]
    omega
  | aside content tail => exact fun _ => Nat.le_add_right _ _

/-! ### Records -/

/-- Different numbers give different names. -/
theorem bookmarkName_injective {m n : Nat} (same : bookmarkName m = bookmarkName n) : m = n := by
  have letters := congrArg String.toList same
  unfold bookmarkName at letters
  rw [String.toList_append, String.toList_append] at letters
  have digits : toString (Int.ofNat m) = toString (Int.ofNat n) :=
    String.ext (List.append_cancel_left letters)
  exact Int.ofNat.inj (Number.toString_injective digits)

/-- Whether an element is in a body only depends on what is referred to there. -/
theorem isAttached_iff {body : Node} : isAttached body lineage ↔
    lineage ≠ [] ∧ ∃ tag ∈ tags body.children, tag.2 = lineage := by
  rw [isAttached, Bool.and_eq_true, List.any_eq_true]
  constructor
  · rintro ⟨named, x, inside, isOwn⟩
    obtain rfl := beq_iff_eq.mp isOwn
    have isNamed : x.lineage ≠ [] := by simpa using named
    have tagged : isTag (key x) := by simp [isTag, key, isNamed]
    exact ⟨isNamed, key x, mem_tags inside tagged, rfl⟩
  · rintro ⟨named, tag, member, rfl⟩
    obtain ⟨x, inside, rfl⟩ := List.mem_map.mp (List.mem_filter.mp member).1
    exact ⟨by simpa using named, x, inside, beq_self_eq_true _⟩

theorem isAttached_dressed {body after : Node}
    (dressed : Dressed place body.children after.children) : isAttached after = isAttached body := by
  funext lineage
  rw [Bool.eq_iff_iff, isAttached_iff, isAttached_iff, dressed.tags_eq]

/-- An entry of a list tells the text of a record. It is a link if the control of the record was in
the body; then a bookmark of the name that it links to stands around the control. -/
def Reports (number : Nat) (record : Record) (before after entry : Node) : Prop :=
  ∃ run, Block.textRun (numberedText number record) = .ok run ∧
    match record.subject.filter (isAttached before) with
    | none => entry = Word.makeParagraph [run]
    | some lineage => entry = linkParagraph (bookmarkName number) run ∧
        IsBookmarked (bookmarkName number) lineage after.children

theorem Reports.mono {number : Nat} {record : Record} {before after further entry : Node}
    (reports : Reports number record before after entry)
    (kept : ∀ name lineage, IsBookmarked name lineage after.children →
      IsBookmarked name lineage further.children) : Reports number record before further entry := by
  obtain ⟨run, made, fits⟩ := reports
  refine ⟨run, made, ?_⟩
  cases isSubject : record.subject.filter (isAttached before) with
  | none =>
    rw [isSubject] at fits
    exact fits
  | some lineage =>
    rw [isSubject] at fits
    exact ⟨fits.1, kept _ _ fits.2⟩

def entryNames : List Name := Word.paragraph :: Word.hyperlink :: runNames

theorem Reports.isMadeOf {number : Nat} {record : Record} {before after entry : Node}
    (reports : Reports number record before after entry) : IsMadeOf entryNames entry := by
  obtain ⟨run, made, fits⟩ := reports
  have isRun : IsMadeOf entryNames run := (isMadeOf_textRun made).mono (by decide)
  have around {inside : Node} (isInside : IsMadeOf entryNames inside) :
      IsMadeOf entryNames (Word.makeParagraph [inside]) :=
    isMadeOf_plain.mpr ⟨by decide, fun child member => List.mem_singleton.mp member ▸ isInside⟩
  cases isSubject : record.subject.filter (isAttached before) with
  | none =>
    rw [isSubject] at fits
    rw [fits]
    exact around isRun
  | some lineage =>
    rw [isSubject] at fits
    rw [fits.1]
    exact around (isMadeOf_plain.mpr
      ⟨by decide, fun child member => List.mem_singleton.mp member ▸ isRun⟩)

/-- What a record is about is a control, if it is in a body where only controls are referred to. -/
theorem hasControl_of_attached {body : Node} {record : Record} (ready : IsReady body)
    (isSubject : record.subject.filter (isAttached body) = some lineage) :
    record.subject = some lineage ∧ HasControl body.children lineage := by
  obtain ⟨own, attached⟩ := Option.filter_eq_some_iff.mp isSubject
  obtain ⟨named, tag, member, rfl⟩ := isAttached_iff.mp attached
  refine ⟨own, hasControl_iff.mpr ?_⟩
  rw [← (ready.distinct.controls tag member).1]
  exact member

/-- A control that is apart from all others gets one bookmark. -/
theorem timesGiven_le_one {body : Node} (ready : IsReady body)
    (has : HasControl body.children lineage) :
    timesGiven other name lineage body.children ≤ if other = name then 1 else 0 := by
  obtain ⟨x, inside, isControl, rfl⟩ := has
  unfold timesGiven
  split
  · rw [List.countP_eq_length_filter, filter_lineage_eq ready.distinct inside isControl]
    exact Nat.le_refl 1
  · exact Nat.le_refl 0

/-- Adding a record puts one entry behind the list, and begins a bookmark of no name but its own. -/
theorem addRecord_names {number : Nat} {record : Record} {draft after : Draft}
    (ready : IsReady draft.body) (done : addRecord hue number record draft = (after, none)) :
    (∀ place, Dressed place draft.body.children after.body.children) ∧
      (∃ entry, after.paragraphs = draft.paragraphs ++ [entry] ∧
        Reports number record draft.body after.body entry) ∧
      ∀ other, timesBegun other after.body.children ≤
        timesBegun other draft.body.children + if other = bookmarkName number then 1 else 0 := by
  obtain ⟨run, made, added⟩ := addRecord_eq_none done
  cases isSubject : record.subject.filter (isAttached draft.body) with
  | none =>
    rw [isSubject] at added
    obtain ⟨sameBody, isList⟩ := added
    rw [sameBody]
    refine ⟨fun place => .reflAll _, ⟨_, isList, run, made, ?_⟩, fun other => Nat.le_add_right _ _⟩
    rw [isSubject]
  | some lineage =>
    obtain ⟨own, has⟩ := hasControl_of_attached ready isSubject
    obtain ⟨dressed, -, _, _, same, -, -, marked⟩ := addRecord_links ready ⟨lineage, own, has⟩ done
    cases own.symm.trans same
    rw [isSubject] at added
    obtain ⟨isList, id, isBody⟩ := added
    refine ⟨dressed, ⟨_, isList, run, made, ?_⟩, fun other => ?_⟩
    · rw [isSubject]
      exact ⟨rfl, marked⟩
    · have named : lineage ≠ [] := (ready.distinct.controls _ (hasControl_iff.mp has)).2
      have most : timesGiven other (bookmarkName number) lineage draft.body.children ≤ _ :=
        timesGiven_le_one ready has
      have begun : timesBegun other after.body.children ≤ timesBegun other draft.body.children +
          timesGiven other (bookmarkName number) lineage draft.body.children := by
        rw [isBody, children_expand]
        exact timesBegun_expandAll id named (fun node _ => timesBegun_expand id named node) ready.bare
      omega

/-- Each of several records has its entry, and a bookmark of its name begins once at most. -/
theorem addRecords_names {records : List Record} :
    ∀ {number : Nat} {draft after : Draft}, IsReady draft.body →
      addRecords hue number records draft = (after, none) →
      (∀ place, Dressed place draft.body.children after.body.children) ∧
        (∃ entries, after.paragraphs = draft.paragraphs ++ entries ∧
          entries.length = records.length ∧ ∀ i record, records[i]? = some record →
            ∃ entry, entries[i]? = some entry ∧
              Reports (number + i) record draft.body after.body entry) ∧
        ∀ m, timesBegun (bookmarkName m) after.body.children ≤
          timesBegun (bookmarkName m) draft.body.children + if m < number then 0 else 1 := by
  induction records with
  | nil =>
    intro number draft after ready done
    cases done
    refine ⟨fun place => .reflAll _, ⟨[], (List.append_nil _).symm, rfl, fun i record isAt => ?_⟩,
      fun m => Nat.le_add_right _ _⟩
    cases isAt
  | cons record rest ih =>
    intro number draft after ready done
    rw [addRecords] at done
    split at done
    · cases done
    · rename_i middle first
      obtain ⟨dressed, ⟨entry, isFirst, reports⟩, begun⟩ := addRecord_names ready first
      obtain ⟨onward, ⟨entries, isList, sameLength, others⟩, begunOnward⟩ :=
        ih (ready.dressed (dressed .outside)) done
      refine ⟨fun place => (dressed place).again (onward place), ⟨entry :: entries, ?_, ?_, ?_⟩, ?_⟩
      · rw [isList, isFirst, List.append_assoc]
        rfl
      · rw [List.length_cons, List.length_cons, sameLength]
      · intro i other isAt
        cases i with
        | zero =>
          cases isAt
          exact ⟨entry, rfl, reports.mono fun _ _ marked => marked.dressed (onward .outside)⟩
        | succ i =>
          obtain ⟨further, isFurther, alsoReports⟩ := others i other isAt
          rw [Reports, isAttached_dressed (dressed .outside), Nat.add_right_comm, Nat.add_assoc]
            at alsoReports
          exact ⟨further, isFurther, alsoReports⟩
      · intro m
        have here := begun (bookmarkName m)
        have later := begunOnward m
        by_cases isOwn : m = number
        · rw [isOwn, if_pos rfl] at here
          rw [isOwn, if_pos (Nat.lt_succ_self number)] at later
          rw [isOwn, if_neg (Nat.lt_irrefl number)]
          omega
        · rw [if_neg fun same => isOwn (bookmarkName_injective same)] at here
          split at later <;> split <;> omega

/-! ### A whole report -/

def titleNames : List Name := Word.paragraph :: (runNames ++ paintNames)

theorem isMadeOf_heading {text : String} {title : Node} (made : heading text = .ok title) :
    IsMadeOf titleNames title := by
  obtain ⟨run, isRun, made⟩ := bind_eq_ok made
  cases made
  have plain := isMadeOf_textRun isRun
  have named : run.isNamed Word.run := by
    unfold Block.textRun at isRun
    split at isRun
    · cases isRun
      rfl
    · cases isRun
  have bare : ColorsBare [run] := colorsBare_of_untagged (isMadeOf_untagged plain (by decide))
  have bold : Painted .outside [run] [Word.emboldenRun run] :=
    painted_updateProperties named (fun _ isProperties _ _ => painted_embolden isProperties) bare
  have pared : Pared (runNames ++ paintNames) .outside [run] [Word.emboldenRun run] :=
    bold.pared.mono (List.subset_append_right _ _)
  have taken := (plain.mono (List.subset_append_left _ paintNames)).takes (by decide) .outside
  have isBold := (pared.takes_of_takes taken _ (List.mem_singleton_self _)).isMadeOf
  refine isMadeOf_plain.mpr ⟨by decide, fun child member => ?_⟩
  rw [List.mem_singleton.mp member]
  exact isBold.mono (List.subset_cons_self _ _)

theorem timesBegun_insertFirst {body : Node} {paragraphs : List Node}
    (nothing : timesBegun name paragraphs = 0) (isElement : body.name?.isSome) :
    timesBegun name (body.insertFirst paragraphs).children = timesBegun name body.children := by
  rw [Node.insertFirst, Node.children_withChildren isElement, timesBegun_append, nothing, Nat.zero_add]

theorem timesBegun_list {title : Node} {entries : List Node} (isTitle : IsMadeOf titleNames title)
    (areEntries : ∀ entry ∈ entries, IsMadeOf entryNames entry) :
    timesBegun name (title :: entries) = 0 := by
  have noTitle : Word.bookmarkStart ∉ titleNames := by decide
  have noEntry : Word.bookmarkStart ∉ entryNames := by decide
  have front : timesBegun name [title] = 0 :=
    timesBegun_of_isMadeOf noTitle fun node member => List.mem_singleton.mp member ▸ isTitle
  rw [timesBegun_cons, front, timesBegun_of_isMadeOf noEntry areEntries]

/-- Numbered controls can be reported, unless some color holds one. -/
theorem isReady_enroll (next : Nat) (bare : Node)
    (excludes : Excludes color (Control.enroll next bare).1.children) :
    IsReady (Control.enroll next bare).1 := by
  have distinct := (distinct_enroll next bare).sublist (sublist_tags_children _)
  exact ⟨distinct, colorsBare_of_excludes distinct excludes⟩

/-- In a report that is completed every record has its entry. A link goes to the bookmark around the
control of its record, and to no other bookmark, unless the body had one of that name before. -/
theorem render_anchors (options : Options) (records : List Record) (body reported : Node)
    (ready : IsReady body) (asked : options.showErrors) (nonempty : records ≠ [])
    (done : render options records body = (reported, none)) :
    ∃ (left title : Node) (entries : List Node),
      (∀ place, Dressed place body.children left.children) ∧
      reported = left.insertFirst (title :: entries) ∧ entries.length = records.length ∧
      ∀ (i : Nat) record, records[i]? = some record → ∃ entry,
        entries[i]? = some entry ∧ Reports (i + 1) record body reported entry ∧
        ∀ lineage, record.subject.filter (isAttached body) = some lineage →
          timesBegun (bookmarkName (i + 1)) body.children = 0 →
            timesBegun (bookmarkName (i + 1)) reported.children = 1 := by
  have isAsked : ¬ (!options.showErrors || records.isEmpty) = true := by simp [asked, nonempty]
  rw [render, if_neg isAsked] at done
  split at done
  · cases done
  · rename_i hue draft begun
    obtain ⟨_, -, begun⟩ := bind_eq_ok begun
    obtain ⟨largest, -, begun⟩ := bind_eq_ok begun
    obtain ⟨title, isTitle, begun⟩ := bind_eq_ok begun
    cases begun
    split at done
    · cases done
    · rename_i after isDone
      cases done
      obtain ⟨dressed, ⟨entries, isList, sameLength, each⟩, once⟩ := addRecords_names ready isDone
      have isWhole : after.paragraphs = title :: entries := isList
      rw [isWhole]
      have areEntries : ∀ entry ∈ entries, IsMadeOf entryNames entry := by
        intro entry member
        obtain ⟨i, inRange, rfl⟩ := List.getElem_of_mem member
        have isRecord : records[i]? = some records[i] :=
          List.getElem?_eq_getElem (sameLength ▸ inRange)
        obtain ⟨_, isEntry, reports⟩ := each i _ isRecord
        rw [List.getElem?_eq_getElem inRange] at isEntry
        cases isEntry
        exact reports.isMadeOf
      refine ⟨after.body, title, entries, dressed, rfl, sameLength, ?_⟩
      intro i record isAt
      obtain ⟨entry, isEntry, reports⟩ := each i record isAt
      rw [Nat.add_comm] at reports
      refine ⟨entry, isEntry, reports.mono fun _ _ marked => marked.insertFirst, ?_⟩
      intro lineage isSubject nothing
      obtain ⟨run, -, fits⟩ := reports
      rw [isSubject] at fits
      have atLeast := fits.2.timesBegun_pos
      have isElement : after.body.name?.isSome := by
        rw [timesBegun, List.countP_pos_iff] at atLeast
        obtain ⟨x, inside, -⟩ := atLeast
        exact Node.isElement_of_children inside
      have atMost := once (i + 1)
      rw [if_neg (by omega)] at atMost
      rw [timesBegun_insertFirst (timesBegun_list (isMadeOf_heading isTitle) areEntries) isElement]
      simp only [nothing] at atMost
      omega

/-- The anchor for the control of that body names one bookmark. -/
theorem untaggedBody_anchor :
    let body := (Control.enroll 0 untaggedBody).1
    let records : List Record := [⟨"No data", some [0]⟩]
    ∃ reported, render reporting records body = (reported, none) ∧
      timesBegun (bookmarkName 1) body.children = 0 ∧
      timesBegun (bookmarkName 1) reported.children = 1 := by
  intro body records
  have ready : IsReady body := isReady_enroll 0 untaggedBody (by decide +kernel)
  have completed : (render reporting records body).2.isNone := by decide +kernel
  have fresh : timesBegun (bookmarkName 1) body.children = 0 := by decide +kernel
  obtain ⟨left, title, entries, -, -, -, each⟩ :=
    render_anchors reporting records body _ ready rfl (List.cons_ne_nil _ _) (completed_eq completed)
  obtain ⟨entry, -, -, once⟩ := each 0 _ rfl
  exact ⟨_, completed_eq completed, fresh, once [0] (by decide +kernel) fresh⟩

/-- A report of a body that was reported before names its bookmark once more: the anchor of its link
is the name of two bookmarks. -/
theorem untaggedBody_anchors_again :
    let records : List Record := [⟨"No data", some [0]⟩]
    let first := render reporting records (Control.enroll 0 untaggedBody).1
    let second := render reporting records first.1
    first.2.isNone ∧ second.2.isNone ∧ timesBegun (bookmarkName 1) second.1.children = 2 ∧
      ((second.1.named Word.hyperlink).filterMap (·.attribute? (.word "anchor"))).head? =
        some (bookmarkName 1) := by
  decide +kernel

end TemplateFill.Report
