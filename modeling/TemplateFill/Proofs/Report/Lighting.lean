import TemplateFill.Proofs.Word.Highlight

/-!
# Highlighted runs

A report highlights the runs of one element after the other, and elements may lie in each other. In
the end the runs of all of them are highlighted, each of them once, whatever the order was. Nothing
but bold and color is changed.
-/

namespace TemplateFill.Report

open Xml

variable {chosen other marked : Lineage → Bool} {f : List Node → List Node} {within : Bool}
  {hue : String} {name : Name} {lineage : Lineage} {traits : Traits} {children nodes : List Node}
  {node x : Node}

/-- The content of an element, which is changed if the element is a run and the flag is set. -/
def runContent (name : Name) (inside : Bool) (f : List Node → List Node) (nodes : List Node) :
    List Node :=
  if inside && name == Word.run then f nodes else nodes

mutual

/-- Change the content of the runs that are chosen or in a chosen element, the inner ones first. The
flag says whether the tree is in a chosen element. -/
def mapRuns (chosen : Lineage → Bool) (f : List Node → List Node) (within : Bool) : Node → Node
  | .element name lineage traits children =>
    let inside := within || chosen lineage
    .element name lineage traits (runContent name inside f (mapRunsOf chosen f inside children))
  | node => node

/-- Change the content of runs among and below some nodes. -/
def mapRunsOf (chosen : Lineage → Bool) (f : List Node → List Node) (within : Bool) :
    List Node → List Node
  | [] => []
  | node :: rest => mapRuns chosen f within node :: mapRunsOf chosen f within rest

end

theorem mapRunsOf_eq (nodes : List Node) :
    mapRunsOf chosen f within nodes = nodes.map (mapRuns chosen f within) := by
  induction nodes with
  | nil => rfl
  | cons node rest ih => rw [mapRunsOf, ih, List.map_cons]

theorem mapRuns_element : mapRuns chosen f within (.element name lineage traits children) =
    .element name lineage traits (runContent name (within || chosen lineage) f
      (children.map (mapRuns chosen f (within || chosen lineage)))) := by
  rw [mapRuns, mapRunsOf_eq]

@[simp] theorem name?_mapRuns (node : Node) : (mapRuns chosen f within node).name? = node.name? := by
  cases node <;> rfl

@[simp] theorem lineage_mapRuns (node : Node) :
    (mapRuns chosen f within node).lineage = node.lineage := by
  cases node <;> rfl

theorem mapRuns_leaf (node : Node) (leaf : node.name? = none) :
    mapRuns chosen f within node = node := by
  cases node with
  | element => cases leaf
  | aside content tail => rfl

theorem runContent_run (f : List Node → List Node) (nodes : List Node) :
    runContent Word.run true f nodes = f nodes := rfl

theorem runContent_false (name : Name) (f : List Node → List Node) (nodes : List Node) :
    runContent name false f nodes = nodes := rfl

theorem runContent_of_ne (isOther : name ≠ Word.run) (inside : Bool) (f : List Node → List Node)
    (nodes : List Node) : runContent name inside f nodes = nodes := by
  refine if_neg ?_
  rw [Bool.and_eq_true, beq_iff_eq]
  exact fun both => isOther both.2

/-- An element that is no run is passed through. -/
theorem mapRuns_of_ne (isOther : name ≠ Word.run) :
    mapRuns chosen f within (.element name lineage traits children) =
      .element name lineage traits
        (children.map (mapRuns chosen f (within || chosen lineage))) := by
  rw [mapRuns_element, runContent_of_ne isOther]

/-! ### Swapping -/

theorem rebuilds_mapRuns (chosen : Lineage → Bool) (f : List Node → List Node) (within : Bool) :
    Word.Rebuilds (fun _ => []) (fun _ => []) (mapRuns chosen f within) where
  name := name?_mapRuns
  leaf := mapRuns_leaf
  beside _ _ member := absurd member List.not_mem_nil
  mark := congrArg (fun x => [x]) (mapRuns_of_ne (by decide))
  color _ := congrArg (fun x => [x]) (mapRuns_of_ne (by decide))
  switch mark named := by
    obtain ⟨lineage, traits, children, rfl⟩ := Node.exists_of_isNamed named
    refine ⟨rfl, rfl, ?_⟩
    rw [Word.switchOn, mapRuns_of_ne (by decide), mapRuns_of_ne (by decide)]
    rfl

theorem mapRuns_paint (named : node.isNamed Word.runProperties) :
    mapRuns chosen f within (Word.paint hue node) = Word.paint hue (mapRuns chosen f within node) := by
  obtain ⟨lineage, traits, children, rfl⟩ := Node.exists_of_isNamed named
  have same := Word.painted_flatMap (rebuilds_mapRuns chosen f (within || chosen lineage)) hue
    fun x (_ : x ∈ children) _ => ⟨rfl, rfl⟩
  rw [Word.flatMap_around_nil, Word.flatMap_around_nil] at same
  rw [mapRuns_of_ne (by decide)]
  change mapRuns chosen f within (.element _ lineage traits (Word.painted hue children)) =
    .element _ lineage traits (Word.painted hue (children.map _))
  rw [mapRuns_of_ne (by decide), same]

/-- Highlighting a run can be swapped with changes of runs in it. -/
theorem map_lit (nodes : List Node) : (Word.lit hue nodes).map (mapRuns chosen f within) =
    Word.lit hue (nodes.map (mapRuns chosen f within)) := by
  have properties : mapRuns chosen f within (Word.paint hue (.plain Word.runProperties [] [])) =
      Word.paint hue (.plain Word.runProperties [] []) :=
    (mapRuns_paint rfl).trans (congrArg (Word.paint hue) (mapRuns_of_ne (by decide)))
  rw [← Word.flatMap_around_nil, ← Word.flatMap_around_nil]
  refine (Word.updated_flatMap (rebuilds_mapRuns chosen f within) (fun p found => ?_) ?_).symm
  · exact ⟨rfl, rfl, mapRuns_paint (List.find?_some found)⟩
  · exact congrArg (fun x => [x]) properties

theorem map_runContent_lit (inside : Bool) (nodes : List Node) :
    (runContent name inside (Word.lit hue) nodes).map (mapRuns chosen f within) =
      runContent name inside (Word.lit hue) (nodes.map (mapRuns chosen f within)) := by
  unfold runContent
  split
  · exact map_lit nodes
  · rfl

/-! ### Runs and what is in them -/

/-- The contents of all runs that are chosen or in a chosen element meet a condition. The flag says
whether the tree is in a chosen element. -/
def RunsMeet (Q : List Node → Prop) (chosen : Lineage → Bool) (within : Bool) (node : Node) : Prop :=
  ∀ x ∈ node.elements, (within ∨ chosen x.lineage) →
    ∀ run ∈ x.elements, run.isNamed Word.run → Q run.children

variable {Q : List Node → Prop}

theorem runsMeet_element : RunsMeet Q chosen within (.element name lineage traits children) ↔
    ((within || chosen lineage) = true → name = Word.run → Q children) ∧
      ∀ child ∈ children, RunsMeet Q chosen (within || chosen lineage) child := by
  constructor
  · intro meet
    refine ⟨fun looked isRun => ?_, fun child member x inside looked run isIn isRun => ?_⟩
    · rw [Bool.or_eq_true] at looked
      exact meet _ List.mem_cons_self looked _ List.mem_cons_self
        (Node.isNamed_iff.mpr (congrArg some isRun))
    · have below : child.elements ⊆ (Node.element name lineage traits children).elements :=
        fun y isThere => List.mem_cons_of_mem _ (Node.mem_elementsOf member isThere)
      rw [Bool.or_eq_true, or_assoc] at looked
      rcases looked with isWithin | isChosen | isChosen
      · exact meet x (below inside) (.inl isWithin) run isIn isRun
      · exact meet _ List.mem_cons_self (.inr isChosen) run
          (below (Node.elements_subset child x inside isIn)) isRun
      · exact meet x (below inside) (.inr isChosen) run isIn isRun
  · rintro ⟨own, below⟩ x inside looked run isIn isRun
    rcases Node.mem_elements_element.mp inside with rfl | later
    · have here : (within || chosen lineage) = true := by rwa [Bool.or_eq_true]
      rcases Node.mem_elements_element.mp isIn with rfl | deeper
      · exact own here (Option.some.inj (Node.isNamed_iff.mp isRun))
      · obtain ⟨child, member, isThere⟩ := Node.mem_elementsOf_iff.mp deeper
        exact below child member run isThere (.inl here) run
          (Node.mem_elements_self (Node.isElement_of_isNamed isRun)) isRun
    · obtain ⟨child, member, isThere⟩ := Node.mem_elementsOf_iff.mp later
      refine below child member x isThere ?_ run isIn isRun
      exact looked.imp_left fun isWithin => by rw [isWithin, Bool.true_or]

theorem runsMeet_leaf (leaf : node.name? = none) : RunsMeet Q chosen within node := by
  intro x inside
  rw [Node.elements_of_leaf leaf] at inside
  cases inside

theorem RunsMeet.of_chosen (meet : RunsMeet Q chosen within node)
    (isChosen : chosen node.lineage = true) : RunsMeet Q chosen true node := by
  cases node with
  | element name lineage traits children =>
    obtain ⟨own, below⟩ := runsMeet_element.mp meet
    have here : chosen lineage = true := isChosen
    rw [here, Bool.or_true] at own below
    rw [runsMeet_element, Bool.true_or]
    exact ⟨own, below⟩
  | aside content tail => exact runsMeet_leaf rfl

theorem runsMeet_plain (isOther : name ≠ Word.run) (attributes : List (Name × String)) :
    RunsMeet Q chosen within (.plain name attributes []) :=
  runsMeet_element.mpr ⟨fun _ isRun => absurd isRun isOther, List.forall_mem_nil _⟩

theorem RunsMeet.mono {P : List Node → Prop} (meet : RunsMeet Q chosen within node)
    (weaker : ∀ nodes, Q nodes → P nodes) : RunsMeet P chosen within node :=
  fun x inside looked run isIn isRun => weaker _ (meet x inside looked run isIn isRun)

/-- No run loses the one after it when it is highlighted. -/
abbrev Steady (chosen : Lineage → Bool) (within : Bool) (node : Node) : Prop :=
  RunsMeet (fun content => Word.losesNext content = false) chosen within node

theorem holdsRun_mapRuns (node : Node) :
    ∀ within, Word.holdsRun (mapRuns chosen f within node) = Word.holdsRun node := by
  induction node using Node.induction with
  | element name lineage traits children ih =>
    intro within
    rw [mapRuns_element, Word.holdsRun_element, Word.holdsRun_element]
    by_cases isRun : name = Word.run
    · rw [isRun, beq_self_eq_true, Bool.true_or, Bool.true_or]
    · rw [runContent_of_ne isRun, List.any_map]
      congr 1
      rw [Bool.eq_iff_iff, List.any_eq_true, List.any_eq_true]
      exact exists_congr fun child => and_congr_right fun member => by
        rw [Function.comp_apply, ih child member]
  | aside content tail => exact fun _ => rfl

theorem losesNext_map (nodes : List Node) :
    Word.losesNext (nodes.map (mapRuns chosen f within)) = Word.losesNext nodes := by
  have sameRuns (within : Bool) :
      Word.holdsRun ∘ mapRuns chosen f within = Word.holdsRun :=
    funext fun x => holdsRun_mapRuns x within
  have sameNames := Word.isNamed_of_name (φ := mapRuns chosen f within) name?_mapRuns
  have same : (fun x => x.isNamed Word.runProperties || Word.holdsRun x) ∘ mapRuns chosen f within =
      fun x => x.isNamed Word.runProperties || Word.holdsRun x :=
    funext fun x => by rw [Function.comp_apply, sameNames, holdsRun_mapRuns]
  unfold Word.losesNext
  rw [List.find?_map, same]
  cases found : nodes.find? fun x => x.isNamed Word.runProperties || Word.holdsRun x with
  | none => rfl
  | some properties =>
    rw [Option.map_some]
    simp only [sameNames]
    cases isProperties : properties.isNamed Word.runProperties with
    | false => rfl
    | true =>
      obtain ⟨lineage, traits, children, rfl⟩ := Node.exists_of_isNamed isProperties
      rw [mapRuns_of_ne (by decide), Node.children, Node.children, List.find?_map, sameRuns]
      cases children.find? Word.holdsRun with
      | none => rfl
      | some old =>
        rw [Option.map_some, Option.any_some, Option.any_some,
          Word.isNamed_of_name name?_mapRuns]

theorem runsMeet_paint (named : node.isNamed Word.runProperties)
    (meet : RunsMeet Q chosen within node) : RunsMeet Q chosen within (Word.paint hue node) := by
  obtain ⟨lineage, traits, children, rfl⟩ := Node.exists_of_isNamed named
  have below := (runsMeet_element.mp meet).2
  refine runsMeet_element.mpr ⟨fun _ isRun => absurd isRun (by decide), fun x member => ?_⟩
  rcases Word.mem_painted member with rfl | rfl | isOld | ⟨mark, isOld, isMark, rfl⟩
  · exact runsMeet_plain (by decide) _
  · exact runsMeet_plain (by decide) _
  · exact below x isOld
  · obtain ⟨own, marks, inside, rfl⟩ := Node.exists_of_isNamed isMark
    exact runsMeet_element.mpr
      ⟨fun _ isRun => absurd isRun (by decide), (runsMeet_element.mp (below _ isOld)).2⟩

theorem runsMeet_lit (each : ∀ x ∈ nodes, RunsMeet Q chosen within x) :
    ∀ x ∈ Word.lit hue nodes, RunsMeet Q chosen within x := by
  intro x member
  rcases Word.mem_updated member with rfl | isOld | ⟨properties, isOld, named, rfl⟩
  · exact runsMeet_paint rfl (runsMeet_plain (by decide) _)
  · exact each x isOld
  · exact runsMeet_paint named (each properties isOld)

/-- Highlighting some runs leaves no run that loses the one after it. -/
theorem Steady.mapRuns (node : Node) : ∀ within again, Steady chosen within node →
    Steady chosen within (mapRuns other (Word.lit hue) again node) := by
  induction node using Node.induction with
  | element name lineage traits children ih =>
    intro within again steady
    obtain ⟨own, below⟩ := runsMeet_element.mp steady
    have each : ∀ x ∈ children.map (Report.mapRuns other (Word.lit hue) (again || other lineage)),
        Steady chosen (within || chosen lineage) x := by
      intro x member
      obtain ⟨child, among, rfl⟩ := List.mem_map.mp member
      exact ih child among _ _ (below child among)
    rw [mapRuns_element, Steady, runsMeet_element]
    unfold runContent
    split
    · exact ⟨fun _ _ => Word.losesNext_lit hue _, runsMeet_lit each⟩
    · exact ⟨fun looked isRun => (losesNext_map children).trans (own looked isRun), each⟩
  | aside content tail => exact fun _ _ _ => runsMeet_leaf rfl

/-! ### Highlighting an element -/

/-- Change a property of a run, unless it is an old color. -/
def passColor (f : Node → Node) (node : Node) : Node :=
  if node.isNamed Word.colorMark then node else f node

section Light

variable {f : Node → Node} {front : List Node}

theorem lightAll_other (each : ∀ node ∈ nodes, Word.light hue .other node true = (f node, true)) :
    Word.lightAll hue .other nodes true = (nodes.map f, true) := by
  induction nodes with
  | nil => rfl
  | cons node rest ih =>
    have onward := ih fun x member => each x (List.mem_cons_of_mem _ member)
    have next : Word.Part.other.pass node = .other := rfl
    rw [Word.lightAll_cons (.inl (by decide)), each node List.mem_cons_self, next, onward]
    rfl

theorem lightAll_properties
    (each : ∀ node ∈ nodes, Word.light hue .other node true = (f node, true)) :
    Word.lightAll hue .properties nodes true = (nodes.map (passColor f), true) := by
  induction nodes with
  | nil => rfl
  | cons node rest ih =>
    have onward := ih fun x member => each x (List.mem_cons_of_mem _ member)
    have next : Word.Part.properties.pass node = .properties := rfl
    cases isColor : node.isNamed Word.colorMark with
    | true =>
      rw [Word.lightAll_color isColor, onward, List.map_cons, passColor, if_pos isColor]
    | false =>
      have passed : passColor f node = f node := if_neg (ne_true_of_eq_false isColor)
      rw [Word.lightAll_cons (.inr isColor), Word.light_part (.inl (by decide)),
        each node List.mem_cons_self, next, onward, List.map_cons, passed]

/-- Up to its properties, what is in a run is nothing special. -/
theorem lightAll_run_append (each : ∀ node ∈ front, Word.light hue .other node true = (f node, true))
    (misses : ∀ node ∈ front, node.isNamed Word.runProperties = false) (nodes : List Node) :
    Word.lightAll hue .run (front ++ nodes) true =
      (front.map f ++ (Word.lightAll hue .run nodes true).1,
        (Word.lightAll hue .run nodes true).2) := by
  induction front with
  | nil => rfl
  | cons node rest ih =>
    rw [List.forall_mem_cons] at each misses
    have next : Word.Part.run.pass node = .run := by
      rw [Word.Part.pass, misses.1]
      rfl
    rw [List.cons_append, Word.lightAll_cons (.inl (by decide)), Word.light_part (.inr misses.1),
      each.1, next, ih each.2 misses.2]
    rfl

end Light

/-- A tree is highlighted to its end, also as the properties of a run. -/
def IsLitThrough (hue : String) (f : Node → Node) (node : Node) : Prop :=
  Word.light hue .other node true = (f node, true) ∧
    (node.isNamed Word.runProperties → Word.light hue .run node true =
      (node.withChildren (node.children.map (passColor f)), true))

theorem paint_passColor (named : node.isNamed Word.runProperties) :
    Word.paint hue (node.withChildren
        (node.children.map (passColor (mapRuns chosen f within)))) =
      Word.paint hue (node.withChildren (node.children.map (mapRuns chosen f within))) := by
  have keeps := rebuilds_mapRuns chosen f within
  have same := Word.painted_map_congr keeps.pass keeps (fun x other => if_neg (by simp [other])) hue
    node.children
  obtain ⟨lineage, traits, children, rfl⟩ := Node.exists_of_isNamed named
  exact congrArg (Node.element _ lineage traits) same

/-- A run is highlighted whether or not its old colors were passed over. -/
theorem lit_lightAll
    (each : ∀ node ∈ nodes, IsLitThrough hue (mapRuns chosen (Word.lit hue) true) node) :
    (Word.lightAll hue .run nodes true).2 = true ∧
      Word.lit hue (Word.lightAll hue .run nodes true).1 =
        Word.lit hue (nodes.map (mapRuns chosen (Word.lit hue) true)) := by
  have sameNames := Word.isNamed_of_name (φ := mapRuns chosen (Word.lit hue) true) name?_mapRuns
  rcases Word.first_or_none Word.runProperties nodes with ⟨front, p, rest, rfl, named, misses⟩ | none
  · rw [List.forall_mem_append, List.forall_mem_cons] at each
    obtain ⟨inFront, here, behind⟩ := each
    have content : Word.lightAll hue .run (p :: rest) true =
        (p.withChildren (p.children.map (passColor (mapRuns chosen (Word.lit hue) true))) ::
          rest.map (mapRuns chosen (Word.lit hue) true), true) := by
      have next : Word.Part.run.pass p = .other := by
        rw [Word.Part.pass, named]
        rfl
      rw [Word.lightAll_cons (.inl (by decide)), here.2 named, next,
        lightAll_other fun x member => (behind x member).1]
    have before : ∀ y ∈ front.map (mapRuns chosen (Word.lit hue) true),
        y.isNamed Word.runProperties = false := by
      intro y member
      obtain ⟨x, among, rfl⟩ := List.mem_map.mp member
      rw [sameNames, misses x among]
    have still : (p.withChildren (p.children.map
        (passColor (mapRuns chosen (Word.lit hue) true)))).isNamed Word.runProperties := by
      rwa [Node.isNamed, Node.name?_withChildren]
    have whole : mapRuns chosen (Word.lit hue) true p =
        p.withChildren (p.children.map (mapRuns chosen (Word.lit hue) true)) := by
      obtain ⟨lineage, traits, children, rfl⟩ := Node.exists_of_isNamed named
      exact mapRuns_of_ne (by decide)
    rw [lightAll_run_append (fun x member => (inFront x member).1) misses, content, List.map_append,
      List.map_cons]
    refine ⟨rfl, (Word.updated_of_first before still _).trans ?_⟩
    rw [paint_passColor named, ← whole]
    exact (Word.updated_of_first before (by rwa [sameNames]) _).symm
  · have content := lightAll_run_append (fun x member => (each x member).1) none []
    rw [List.append_nil] at content
    rw [content]
    exact ⟨rfl, congrArg (Word.lit hue) (List.append_nil _)⟩

/-- A tree is highlighted to its end if none of its runs loses the one after it. -/
theorem isLitThrough_mapRuns (hue : String) (node : Node) : Steady chosen true node →
    IsLitThrough hue (mapRuns chosen (Word.lit hue) true) node := by
  induction node using Node.induction with
  | element name lineage traits children ih =>
    intro steady
    obtain ⟨own, below⟩ := runsMeet_element.mp steady
    rw [Bool.true_or] at below
    have each := fun child member => ih child member (below child member)
    by_cases isRun : name = Word.run
    · subst isRun
      have content := lit_lightAll each
      refine ⟨?_, fun named => absurd (Option.some.inj (Node.isNamed_iff.mp named)) (by decide)⟩
      rw [Word.light_run (own rfl rfl), Word.highlightRun_eq, Node.children, content.1, content.2,
        mapRuns_element, Bool.true_or]
      rfl
    · refine ⟨?_, fun named => ?_⟩
      · have enters : Word.Part.other.enter name = .other := if_neg isRun
        rw [Word.light_of_ne isRun, enters, lightAll_other fun x member => (each x member).1,
          mapRuns_of_ne isRun, Bool.true_or]
      · have isProperties : name = Word.runProperties := Option.some.inj (Node.isNamed_iff.mp named)
        subst isProperties
        have enters : Word.Part.run.enter Word.runProperties = .properties := rfl
        rw [Word.light_of_ne isRun, enters, lightAll_properties fun x member => (each x member).1]
        rfl
  | aside content tail =>
    exact fun _ => ⟨rfl, fun named => absurd named Bool.false_ne_true⟩

theorem highlight_eq_mapRuns (steady : Steady chosen true node) (hue : String) :
    Word.highlight hue node = mapRuns chosen (Word.lit hue) true node :=
  congrArg Prod.fst (isLitThrough_mapRuns hue node steady).1

theorem mapRuns_chosen (isChosen : chosen node.lineage = true) (within : Bool) :
    mapRuns chosen f within node = mapRuns chosen f true node := by
  cases node with
  | element name lineage traits children =>
    have own : chosen lineage = true := isChosen
    rw [mapRuns, mapRuns, own, Bool.or_true, Bool.true_or]
  | aside content tail => rfl

/-- Highlighting the element of a lineage in its place, if no run of it loses the one after it. -/
theorem expandAll_highlight (hue : String) (lineage : Lineage) (nodes : List Node)
    (steady : ∀ node ∈ nodes, Steady (· == lineage) false node) :
    Node.expandAll lineage (fun x => [Word.highlight hue x]) nodes =
      nodes.map (mapRuns (· == lineage) (Word.lit hue) false) := by
  induction nodes using Node.forest_induction (fun node => node.lineage ≠ lineage →
    Steady (· == lineage) false node → node.expand lineage (fun x => [Word.highlight hue x]) =
      mapRuns (· == lineage) (Word.lit hue) false node) with
  | forest nodes each =>
    rw [Node.expandAll_eq, List.map_eq_flatMap]
    refine List.flatMap_congr fun node member => ?_
    split
    · rename_i isOwn
      have isChosen : (node.lineage == lineage) = true := beq_iff_eq.mpr isOwn
      rw [highlight_eq_mapRuns ((steady node member).of_chosen isChosen)]
      exact congrArg (fun x => [x]) (mapRuns_chosen isChosen false).symm
    · rename_i isOther
      rw [each node member isOther (steady node member)]
  | element name own traits children below isOther steady =>
    have outside : (false || (own == lineage)) = false := beq_false_of_ne isOther
    have inner := (runsMeet_element.mp steady).2
    rw [outside] at inner
    rw [Node.expand, below inner, mapRuns_element, outside, runContent_false]
  | leaf node leaf =>
    rw [Node.expand_of_leaf _ _ leaf, mapRuns_leaf node leaf]

/-! ### One pass after the other -/

/-- What is chosen in one pass or in another is highlighted by both of them. -/
theorem mapRuns_join (again : Bool) (node : Node) :
    mapRuns other (Word.lit hue) again (mapRuns chosen (Word.lit hue) within node) =
      mapRuns (fun lineage => other lineage || chosen lineage) (Word.lit hue) (again || within)
        node := by
  induction node using Node.induction generalizing within again with
  | element name lineage traits children ih =>
    have twice (first second : Bool) (nodes : List Node) :
        runContent name first (Word.lit hue) (runContent name second (Word.lit hue) nodes) =
          runContent name (first || second) (Word.lit hue) nodes := by
      by_cases isRun : name = Word.run
      · subst isRun
        cases first <;> cases second <;> simp [runContent_run, runContent_false, Word.lit_lit]
      · simp [runContent_of_ne isRun]
    have same : ((again || other lineage) || (within || chosen lineage)) =
        ((again || within) || (other lineage || chosen lineage)) := by
      ac_rfl
    have below : (children.map (mapRuns chosen (Word.lit hue) (within || chosen lineage))).map
        (mapRuns other (Word.lit hue) (again || other lineage)) =
        children.map (mapRuns (fun lineage => other lineage || chosen lineage) (Word.lit hue)
          ((again || within) || (other lineage || chosen lineage))) := by
      rw [List.map_map, ← same]
      exact List.map_congr_left fun child member => ih child member _
    rw [mapRuns_element, mapRuns_element, mapRuns_element, map_runContent_lit, twice, below, same]
  | aside content tail => rfl

/-- What does not tell a run from the same run highlighted, does not tell a tree from the same tree
with some of the runs highlighted that it looks at. -/
theorem mapRuns_absorb (absorbs : ∀ nodes, f (Word.lit hue nodes) = f nodes)
    (more : ∀ lineage, chosen lineage → other lineage) (node : Node) :
    ∀ again within : Bool, (within → again) →
      mapRuns other f again (mapRuns chosen (Word.lit hue) within node) =
        mapRuns other f again node := by
  induction node using Node.induction with
  | element name lineage traits children ih =>
    intro again within looked
    have inside : (within || chosen lineage) → (again || other lineage) := by
      rw [Bool.or_eq_true, Bool.or_eq_true]
      exact Or.imp looked (more lineage)
    have absorbed (nodes : List Node) :
        runContent name (again || other lineage) f
            (runContent name (within || chosen lineage) (Word.lit hue) nodes) =
          runContent name (again || other lineage) f nodes := by
      by_cases isRun : name = Word.run
      · subst isRun
        cases isLit : within || chosen lineage with
        | true => rw [inside isLit, runContent_run, runContent_run, runContent_run, absorbs]
        | false => rw [runContent_false]
      · simp only [runContent_of_ne isRun]
    have below : (children.map (mapRuns chosen (Word.lit hue) (within || chosen lineage))).map
        (mapRuns other f (again || other lineage)) =
        children.map (mapRuns other f (again || other lineage)) := by
      rw [List.map_map]
      exact List.map_congr_left fun child member => ih child member _ _ inside
    rw [mapRuns_element, mapRuns_element, mapRuns_element, map_runContent_lit, absorbed, below]
  | aside content tail => exact fun _ _ _ => rfl

/-! ### Where elements come from -/

theorem mem_elementsOf_runContent
    (inside : x ∈ Node.elementsOf (runContent name within (Word.lit hue) nodes)) :
    x ∈ Node.elementsOf nodes ∨ Word.IsMark x ∧ Word.Stems nodes x := by
  unfold runContent at inside
  split at inside
  · exact Word.mem_elementsOf_lit inside
  · exact .inl inside

theorem stems_map (each : ∀ node ∈ nodes, ∀ y ∈ (mapRuns chosen (Word.lit hue) within node).elements,
      Word.Stems [node] y) :
    ∀ y ∈ Node.elementsOf (nodes.map (mapRuns chosen (Word.lit hue) within)), Word.Stems nodes y := by
  intro y inside
  obtain ⟨_, among, isIn⟩ := Node.mem_elementsOf_iff.mp inside
  obtain ⟨node, member, rfl⟩ := List.mem_map.mp among
  refine (each node member y isIn).subset fun z isThere => ?_
  rw [Node.elementsOf_singleton] at isThere
  exact Node.mem_elementsOf member isThere

/-- The elements of a tree with highlighted runs are those of the tree, or marks. -/
theorem stems_mapRuns (node : Node) :
    ∀ within, ∀ x ∈ (mapRuns chosen (Word.lit hue) within node).elements, Word.Stems [node] x := by
  induction node using Node.induction with
  | element name lineage traits children ih =>
    intro within x inside
    rw [mapRuns_element] at inside
    have below (again : Bool) := stems_map fun child member => ih child member again
    have fewer : Node.elementsOf children ⊆
        Node.elementsOf [.element name lineage traits children] := fun y isThere =>
      Node.mem_elementsOf (List.mem_singleton_self _) (Node.mem_elements_of_children isThere)
    rcases Node.mem_elements_element.mp inside with rfl | isIn
    · exact .inr ⟨_, List.mem_append_left _ List.mem_cons_self, rfl, rfl, .inl rfl⟩
    · rcases mem_elementsOf_runContent isIn with isOld | ⟨-, stems⟩
      · exact (below _ x isOld).subset fewer
      · exact (stems.trans (below _)).subset fewer
  | aside content tail => exact fun _ _ member => absurd member List.not_mem_nil

/-! ### Highlighted elements -/

theorem isLit_of_true (node : Node) :
    ∀ x ∈ (mapRuns chosen (Word.lit hue) true node).elements, x.isNamed Word.run →
      Word.IsLit hue x := by
  induction node using Node.induction with
  | element name lineage traits children ih =>
    intro x inside isRun
    rw [mapRuns_element, Bool.true_or] at inside
    rcases Node.mem_elements_element.mp inside with rfl | isIn
    · have isOwn : name = Word.run := Option.some.inj (Node.isNamed_iff.mp isRun)
      subst isOwn
      exact Word.isLit_lit Word.run lineage traits hue _
    · rcases mem_elementsOf_runContent isIn with isOld | ⟨⟨own, isKind, named⟩, -⟩
      · obtain ⟨_, among, within⟩ := Node.mem_elementsOf_iff.mp isOld
        obtain ⟨child, member, rfl⟩ := List.mem_map.mp among
        exact ih child member x within isRun
      · rw [Node.eq_of_isNamed named isRun] at isKind
        exact absurd isKind (by decide)
  | aside content tail => exact fun _ member => absurd member List.not_mem_nil

/-- The runs of a chosen element are highlighted. -/
theorem isLit_of_chosen (node : Node) :
    ∀ within, ∀ x ∈ (mapRuns chosen (Word.lit hue) within node).elements, chosen x.lineage →
      ∀ run ∈ x.elements, run.isNamed Word.run → Word.IsLit hue run := by
  induction node using Node.induction with
  | element name lineage traits children ih =>
    intro within x inside isChosen run isIn isRun
    cases flag : within || chosen lineage with
    | true =>
      have all : mapRuns chosen (Word.lit hue) within (.element name lineage traits children) =
          mapRuns chosen (Word.lit hue) true (.element name lineage traits children) := by
        rw [mapRuns, mapRuns, flag, Bool.true_or]
      rw [all] at inside
      exact isLit_of_true _ run (Node.elements_subset _ x inside isIn) isRun
    | false =>
      rw [mapRuns_element, flag, runContent_false] at inside
      rcases Node.mem_elements_element.mp inside with rfl | below
      · rw [Bool.or_eq_false_iff] at flag
        rw [Node.lineage, flag.2] at isChosen
        cases isChosen
      · obtain ⟨_, among, within⟩ := Node.mem_elementsOf_iff.mp below
        obtain ⟨child, member, rfl⟩ := List.mem_map.mp among
        exact ih child member _ x within isChosen run isIn isRun
  | aside content tail => exact fun _ _ member => absurd member List.not_mem_nil

/-! ### What highlighting must not touch -/

/-- The marked identities among and below some nodes. -/
def lineages (marked : Lineage → Bool) (nodes : List Node) : List Lineage :=
  ((Node.elementsOf nodes).map (·.lineage)).filter marked

theorem lineages_eq_flatMap (marked : Lineage → Bool) (nodes : List Node) :
    lineages marked nodes = nodes.flatMap fun x => lineages marked [x] := by
  simp only [lineages, Node.elementsOf_singleton]
  rw [Node.elementsOf_eq_flatMap, List.map_flatMap, List.filter_flatMap]

theorem lineages_element : lineages marked [.element name lineage traits children] =
    (if marked lineage then [lineage] else []) ++ lineages marked children := by
  rw [lineages, Node.elementsOf_singleton, Node.elements, List.map_cons, List.filter_cons]
  change (if marked lineage then _ else _) = _
  split <;> rfl

theorem lineages_eq_nil_iff : lineages marked nodes = [] ↔
    ∀ x ∈ Node.elementsOf nodes, marked x.lineage = false := by
  simp [lineages]

theorem lineages_ne_nil_iff : lineages marked nodes ≠ [] ↔
    ∃ x ∈ Node.elementsOf nodes, marked x.lineage := by
  simp [lineages_eq_nil_iff]

/-- When a run with some content is highlighted, marked elements stay where they are, and so does the
run after it: they are in no color, which highlighting takes out, and no marked element is a property
that highlighting may put something in front of. -/
structure IsClear (marked : Lineage → Bool) (content : List Node) : Prop where
  next : Word.losesNext content = false
  properties : ∀ properties, content.find? (·.isNamed Word.runProperties) = some properties →
    ∀ x ∈ properties.children, (Word.isDisplaced x → marked x.lineage = false) ∧
      (x.isNamed Word.colorMark → lineages marked [x] = [])

instance (marked : Lineage → Bool) (content : List Node) : Decidable (IsClear marked content) :=
  decidable_of_iff (Word.losesNext content = false ∧
    ∀ properties ∈ content.find? (·.isNamed Word.runProperties),
      ∀ x ∈ properties.children, (Word.isDisplaced x → marked x.lineage = false) ∧
        (x.isNamed Word.colorMark → lineages marked [x] = []))
    ⟨fun ⟨next, properties⟩ => ⟨next, properties⟩, fun clear => ⟨clear.next, clear.properties⟩⟩

theorem IsClear.mono (clear : IsClear marked nodes)
    (fewer : ∀ lineage, other lineage → marked lineage) : IsClear other nodes := by
  have unmarked {lineage : Lineage} (none : marked lineage = false) : other lineage = false := by
    rw [Bool.eq_false_iff] at none ⊢
    exact fun isOther => none (fewer lineage isOther)
  refine ⟨clear.next, fun properties found x member => ?_⟩
  obtain ⟨beside, colors⟩ := clear.properties properties found x member
  refine ⟨fun displaced => unmarked (beside displaced), fun isColor => ?_⟩
  exact lineages_eq_nil_iff.mpr fun y inside =>
    unmarked (lineages_eq_nil_iff.mp (colors isColor) y inside)

theorem isDisplaced_mapRuns (node : Node) :
    Word.isDisplaced (mapRuns chosen f within node) = Word.isDisplaced node := by
  unfold Word.isDisplaced
  simp only [Word.isNamed_of_name name?_mapRuns]

theorem IsClear.map (clear : IsClear marked nodes) (unnamed : marked [] = false) :
    IsClear marked (nodes.map (mapRuns chosen (Word.lit hue) within)) := by
  refine ⟨(losesNext_map nodes).trans clear.next, fun properties found x member => ?_⟩
  rw [Word.find?_map_isNamed name?_mapRuns, Option.map_eq_some_iff] at found
  obtain ⟨before, isFirst, rfl⟩ := found
  have named : before.isNamed Word.runProperties := List.find?_some isFirst
  obtain ⟨lineage, traits, children, rfl⟩ := Node.exists_of_isNamed named
  rw [mapRuns_of_ne (by decide)] at member
  obtain ⟨old, isOld, rfl⟩ := List.mem_map.mp member
  obtain ⟨beside, colors⟩ := clear.properties _ isFirst old isOld
  rw [isDisplaced_mapRuns, lineage_mapRuns, Word.isNamed_of_name name?_mapRuns]
  refine ⟨beside, fun isColor => lineages_eq_nil_iff.mpr fun y inside => ?_⟩
  rw [Node.elementsOf_singleton] at inside
  rcases stems_mapRuns old _ y inside with ⟨isNew, -⟩ | ⟨z, isThere, same, -⟩
  · rwa [isNew]
  · rw [← same]
    exact lineages_eq_nil_iff.mp (colors isColor) z isThere

/-- The runs of chosen elements of a tree are clear. -/
abbrev Clears (chosen marked : Lineage → Bool) (within : Bool) (node : Node) : Prop :=
  RunsMeet (IsClear marked) chosen within node

theorem lineages_paint (unnamed : marked [] = false) (named : node.isNamed Word.runProperties)
    (colors : ∀ x ∈ node.children, x.isNamed Word.colorMark → lineages marked [x] = []) :
    lineages marked [Word.paint hue node] = lineages marked [node] := by
  obtain ⟨lineage, traits, children, rfl⟩ := Node.exists_of_isNamed named
  have blank (own : Name) (traits : Traits) :
      lineages marked [.element own [] traits []] = [] := by
    rw [lineages_element, unnamed]
    rfl
  have below : lineages marked (Word.painted hue children) = lineages marked children := by
    rw [lineages_eq_flatMap, lineages_eq_flatMap marked children]
    refine Word.flatMap_painted _ (blank _ _) (blank _ _) (fun mark _ isMark => ?_) colors
    obtain ⟨own, list, inside, rfl⟩ := Node.exists_of_isNamed isMark
    rw [Word.switchOn, lineages_element, lineages_element]
  change lineages marked [.element _ lineage traits (Word.painted hue children)] = _
  rw [lineages_element, lineages_element, below]

theorem lineages_lit (unnamed : marked [] = false) (clear : IsClear marked nodes) :
    lineages marked (Word.lit hue nodes) = lineages marked nodes := by
  rw [lineages_eq_flatMap, lineages_eq_flatMap marked nodes]
  refine Word.flatMap_updated _ (fun node found => ?_) ?_
  · exact lineages_paint unnamed (List.find?_some found) fun x member =>
      (clear.properties node found x member).2
  · rw [lineages_paint unnamed rfl (List.forall_mem_nil _), Node.plain, lineages_element,
      unnamed]
    rfl

/-- Highlighting leaves the marked elements where they are. -/
theorem lineages_mapRuns (unnamed : marked [] = false) (node : Node) : ∀ within,
    Clears chosen marked within node →
      lineages marked [mapRuns chosen (Word.lit hue) within node] = lineages marked [node] := by
  induction node using Node.induction with
  | element name lineage traits children ih =>
    intro within clears
    have below : lineages marked (children.map
        (mapRuns chosen (Word.lit hue) (within || chosen lineage))) = lineages marked children := by
      rw [lineages_eq_flatMap, lineages_eq_flatMap marked children, List.flatMap_map]
      exact List.flatMap_congr fun child member =>
        ih child member _ ((runsMeet_element.mp clears).2 child member)
    rw [mapRuns_element, lineages_element, lineages_element, ← below]
    congr 1
    by_cases isRun : name = Word.run
    · subst isRun
      cases flag : within || chosen lineage with
      | true => exact lineages_lit unnamed (((runsMeet_element.mp clears).1 flag rfl).map unnamed)
      | false => rfl
    · rw [runContent_of_ne isRun]
  | aside content tail => exact fun _ _ => rfl

end TemplateFill.Report
