import TemplateFill.Proofs.Control.Failure
import TemplateFill.Proofs.Xml.Context

/-!
# Where a plain text goes

A text goes into the first run of the content area, and all later runs are gone; if there is no
run, the only paragraph gets one. In both cases the run has a spot in the area, and what stands
around the spot stays. Where text pieces and breaks only stand in runs, there are none of them
around the spot, so that the run is all there is to be read.
-/

namespace TemplateFill.Control

open Xml

variable {node root content area run written x : Node} {nodes : List Node} {lines : List String}
  {context : Context}

/-! ### Legible areas -/

/-- Text pieces and breaks are children of runs, and nothing is in text pieces, except for their text,
and in elements that give a style to a run. -/
structure IsLegible (node : Node) : Prop where
  inRuns : ∀ x ∈ node.elements, ∀ child ∈ x.children, isPiece child → x.isNamed Word.run
  texts : ∀ x ∈ node.elements, x.isNamed Word.runText → x.children = []
  styles : ∀ x ∈ node.elements, x.isNamed Word.runStyle → x.children = []

theorem isPiece_congr {first second : Node} (same : first.name? = second.name?) :
    isPiece first = isPiece second := by
  simp only [isPiece, Node.isNamed, same]

theorem isPiece_withChildren (node : Node) (children : List Node) :
    isPiece (node.withChildren children) = isPiece node :=
  isPiece_congr (Node.name?_withChildren node children)

theorem IsLegible.of_mem (legible : IsLegible node) (inside : x ∈ node.elements) : IsLegible x := by
  have within := Node.elements_subset node x inside
  exact ⟨fun y below => legible.inRuns y (within below), fun y below => legible.texts y (within below),
    fun y below => legible.styles y (within below)⟩

/-- Whatever is removed, what is left of a legible tree is legible. -/
theorem IsLegible.prune (legible : IsLegible node) (p : Node → Bool) : IsLegible (node.prune p) := by
  have original {x : Node} (inside : x ∈ (node.prune p).elements) :
      ∃ y ∈ node.elements, y.name? = x.name? ∧
        ∀ child ∈ x.children, ∃ before ∈ y.children, child = before.prune p := by
    obtain ⟨y, within, rfl⟩ := List.mem_map.mp (Node.elements_prune_subset p node inside)
    refine ⟨y, within, (Node.name?_prune p y).symm, fun child member => ?_⟩
    rw [Node.prune_eq_withChildren] at member
    cases y with
    | element own lineage traits children =>
      obtain ⟨before, among, rfl⟩ := List.mem_map.mp member
      exact ⟨before, (List.mem_filter.mp among).1, rfl⟩
    | aside content tail => cases member
  have stillEmpty {name : Name} (empty : ∀ y ∈ node.elements, y.isNamed name → y.children = [])
      {x : Node} (inside : x ∈ (node.prune p).elements) (named : x.isNamed name) :
      x.children = [] := by
    obtain ⟨y, within, same, below⟩ := original inside
    rw [Node.isNamed, ← same] at named
    refine List.eq_nil_iff_forall_not_mem.mpr fun child member => ?_
    obtain ⟨before, among, -⟩ := below child member
    rw [empty y within named] at among
    cases among
  refine ⟨?_, fun x => stillEmpty legible.texts, fun x => stillEmpty legible.styles⟩
  intro x inside child member isPiece
  obtain ⟨y, within, same, below⟩ := original inside
  obtain ⟨before, among, rfl⟩ := below child member
  rw [isPiece_prune] at isPiece
  rw [Node.isNamed, ← same]
  exact legible.inRuns y within before among isPiece

theorem IsLegible.keepFirst (legible : IsLegible node) (name : Name) :
    IsLegible (node.keepFirst name false).1 := by
  have stillEmpty {own : Name} (empty : ∀ y ∈ node.elements, y.isNamed own → y.children = [])
      {x : Node} (inside : x ∈ (node.keepFirst name false).1.elements) (named : x.isNamed own) :
      x.children = [] := by
    obtain ⟨y, within, same, -, before, left⟩ := Node.exists_of_mem_keepFirst name false node inside
    rw [Node.isNamed, ← same] at named
    rw [left, empty y within named]
    rfl
  refine ⟨?_, fun x => stillEmpty legible.texts, fun x => stillEmpty legible.styles⟩
  intro x inside child member isPiece
  obtain ⟨y, within, same, -, before, left⟩ := Node.exists_of_mem_keepFirst name false node inside
  rw [left] at member
  obtain ⟨original, among, seen, rfl⟩ := Node.mem_keepFirstOf name member
  rw [isPiece_congr (Node.name?_keepFirst name seen original)] at isPiece
  rw [Node.isNamed, ← same]
  exact legible.inRuns y within original among isPiece

/-- Around and next to a spot without runs there is no piece. -/
theorem IsLegible.lacks (legible : IsLegible root) (noPiece : isPiece root = false)
    (isPlugged : [root] = context.plug nodes) (noRun : context.Lacks (·.isNamed Word.run)) :
    context.Lacks isPiece := by
  have parents := legible.inRuns
  rw [← Node.elementsOf_singleton, isPlugged] at parents
  refine (noRun.of_parents isPiece_withChildren parents fun top member => ?_).1
  rw [← isPlugged] at member
  rwa [List.mem_singleton.mp member]

/-- What a bare run holds besides pieces holds no pieces. -/
theorem IsLegible.isPiece_of_filter (legible : IsLegible run) (bare : IsBareRun run)
    (among : nodes ⊆ run.children) :
    ∀ x ∈ Node.elementsOf (nodes.filter (!isPiece ·)), isPiece x = false := by
  intro x inside
  have within {y : Node} (below : y ∈ Node.elementsOf (nodes.filter (!isPiece ·))) :
      y ∈ Node.elementsOf run.children := by
    obtain ⟨node, member, below⟩ := Node.mem_elementsOf_iff.mp below
    exact Node.mem_elementsOf (among (List.mem_filter.mp member).1) below
  rcases Node.exists_parent inside with member | ⟨parent, below, isChild⟩
  · simpa using (List.mem_filter.mp member).2
  · refine Bool.eq_false_iff.mpr fun isPiece => ?_
    have isRun := legible.inRuns parent (Node.mem_elements_of_children (within below)) x isChild isPiece
    exact Node.tally_eq_zero_iff.mp bare.2 parent (within below) isRun

/-! ### Places -/

/-- What goes from an area besides pieces: runs and the style of placeholder text. -/
def isDropped (node : Node) : Bool := node.isNamed Word.run || isPlaceholderStyle node

/-- A run was written into an area. It has taken the place of the first run, and differs from it in
pieces only; or it stands at the end of the paragraph, if there was no run. All other runs and the
style of placeholder text are gone, and nothing else. -/
inductive IsPlaced (content area written : Node) : Prop where
  | first (context : Context) (run : Node) (isRun : run.isNamed Word.run)
    (isFirst : context.IsFirst (·.isNamed Word.run)) (before : [content] = context.plug [run])
    (after : [area] = (context.prune isDropped).plug [written])
    (kept : written.prune isPiece = run.prune fun x => isDropped x || isPiece x)
  | new (context : Context) (paragraph : Node) (isParagraph : paragraph.isNamed Word.paragraph)
    (none : content.named Word.run = []) (before : [content] = context.plug [paragraph])
    (after : [area] =
      (context.prune isPlaceholderStyle).plug [(paragraph.prune isPlaceholderStyle).append written])
    (kept : written.prune isPiece = Word.makeRun [])

/-! ### Writing and removing -/

section Removing

variable {p : Node → Bool}

/-- Where pieces are removed, it does not matter what is written. -/
theorem prune_writeRun (covers : ∀ x, isPiece x → p x) (lines : List String) (run : Node) :
    (writeRun lines run).1.prune p = run.prune p := by
  have others (nodes : List Node) :
      Node.pruneAll p (nodes.filter (!isPiece ·)) = Node.pruneAll p nodes := by
    rw [Node.pruneAll_eq, Node.pruneAll_eq, List.filter_filter]
    congr 1
    refine List.filter_congr fun x _ => ?_
    cases removed : p x with
    | true => rfl
    | false =>
      have noPiece : isPiece x = false := Bool.eq_false_iff.mpr fun isPiece =>
        Bool.eq_false_iff.mp removed (covers x isPiece)
      rw [noPiece]
      rfl
  have gone {nodes : List Node} (all : ∀ x ∈ nodes, isPiece x) : Node.pruneAll p nodes = [] := by
    rw [Node.pruneAll_eq, List.map_eq_nil_iff, List.filter_eq_nil_iff]
    intro x member
    rw [covers x (all x member)]
    exact Bool.false_ne_true
  cases lines with
  | nil => rfl
  | cons first rest =>
    cases run with
    | element own lineage traits children =>
      refine congrArg (Node.element own lineage traits) ?_
      change Node.pruneAll p (writeContent first rest children).1 = Node.pruneAll p children
      rcases exists_textPiece_or_not children with ⟨before, piece, after, rfl, none, isText⟩ | none
      · obtain ⟨written, pieces, isWritten, named, all, -⟩ := exists_writeInto piece first rest
        have alsoPiece : isPiece written := by
          rw [isPiece_congr named]
          exact isPiece_of_isNamed isText
        rw [writeContent_of_piece none isText, isWritten, Node.pruneAll_append, Node.pruneAll_append,
          others, others, gone (List.forall_mem_cons.mpr ⟨alsoPiece, all⟩), Node.pruneAll_append,
          ← List.singleton_append, Node.pruneAll_append,
          gone (List.forall_mem_singleton.mpr (isPiece_of_isNamed isText)), List.append_nil]
        rfl
      · rw [writeContent_of_none none]
        split
        · have all : ∀ x ∈ Word.makeText first :: (furtherLines rest).1, isPiece x :=
            List.forall_mem_cons.mpr ⟨rfl, isPiece_furtherLines rest⟩
          rw [Node.pruneAll_append, others, gone all, List.append_nil]
        · exact others children
    | aside content tail => rfl

end Removing

/-! ### The place of a text -/

/-- Lines go to a bare run in a spot of an area, and pieces are only in it. -/
structure IsPlace (content : Node) (context : Context) (run : Node) : Prop where
  bare : IsBareRun run
  legible : IsLegible run
  noRun : context.Lacks (·.isNamed Word.run)
  noPiece : context.Lacks isPiece
  written : ∀ lines, ∃ area fault, writeArea lines content = some (area, fault) ∧
    [area.prune isPlaceholderStyle] = context.plug [(writeRun lines run).1] ∧
    IsPlaced content (area.prune isPlaceholderStyle) (writeRun lines run).1

theorem isDropped_withChildren (node : Node) (children : List Node) :
    isDropped (node.withChildren children) = isDropped node := by
  rw [isDropped, isDropped, Node.isNamed_withChildren, isPlaceholderStyle_withChildren]

/-- No element around something gives a style. -/
theorem IsLegible.isPlaceholderStyle_around (legible : IsLegible root)
    (isPlugged : [root] = context.plug nodes) (something : nodes ≠ []) :
    ∀ frame ∈ context, ∀ others, isPlaceholderStyle (frame.around others) = false := by
  intro frame member others
  obtain ⟨inner, some, inside⟩ := context.exists_mem_around something frame member
  rw [← isPlugged, Node.elementsOf_singleton] at inside
  have named : (frame.around others).isNamed frame.name := Frame.isNamed_around.mpr rfl
  refine isPlaceholderStyle_of_isNamed named fun isStyle => ?_
  have empty := legible.styles _ inside (Frame.isNamed_around.mpr isStyle)
  exact some (List.append_eq_nil_iff.mp (List.append_eq_nil_iff.mp empty).1).2

/-- Without the style of placeholder text, what stands in a spot of an area is still there. -/
theorem unstyled_plug (isArea : area.isNamed Word.controlContent)
    (kept : ∀ frame ∈ context, ∀ others, isPlaceholderStyle (frame.around others) = false)
    (isPlugged : [area] = context.plug [node]) (unstyled : isPlaceholderStyle node = false) :
    [area.prune isPlaceholderStyle] =
      (context.prune isPlaceholderStyle).plug [node.prune isPlaceholderStyle] := by
  rw [← Node.pruneAll_singleton (isPlaceholderStyle_of_isNamed isArea (by decide)), isPlugged,
    Context.pruneAll_plug kept, Node.pruneAll_singleton unstyled]

theorem isBareRun_prune (isRun : run.isNamed Word.run) {p : Node → Bool}
    (covers : ∀ x, x.isNamed Word.run → p x)
    (byTag : ∀ (x : Node) children, p (x.withChildren children) = p x) : IsBareRun (run.prune p) := by
  refine ⟨by rwa [Node.isNamed, Node.name?_prune], Node.tally_eq_zero_iff.mpr fun x inside => ?_⟩
  have kept := Node.not_of_mem_elements_prune byTag run x inside
  exact fun named => Bool.eq_false_iff.mp kept (covers x named)

theorem IsLegible.texts_of_mem (legible : IsLegible node) (member : x ∈ node.children)
    (isText : x.isNamed Word.runText) : x.children = [] :=
  legible.texts x (Node.mem_elements_of_children
    (Node.mem_elementsOf member (Node.mem_elements_self (Node.isElement_of_isNamed isText)))) isText

theorem isPiece_area (isArea : content.isNamed Word.controlContent) : isPiece content = false := by
  obtain ⟨lineage, traits, children, rfl⟩ := Node.exists_of_isNamed isArea
  rfl

theorem isLegible_makeRun : IsLegible (Word.makeRun []) := by
  have empty : ∀ x ∈ (Word.makeRun []).elements, x.children = [] := fun x inside => by
    rw [List.mem_singleton.mp inside]
    rfl
  constructor
  · intro x inside child member
    rw [empty x inside] at member
    cases member
  · exact fun x inside _ => empty x inside
  · exact fun x inside _ => empty x inside

/-- The later runs go, and so do the runs in the first one. -/
theorem keepFirst_plug (isArea : content.isNamed Word.controlContent) (isRun : run.isNamed Word.run)
    (isFirst : context.IsFirst (·.isNamed Word.run)) (isPlugged : [content] = context.plug [run]) :
    [(content.keepFirst Word.run false).1] =
      (context.prune (·.isNamed Word.run)).plug [run.prune (·.isNamed Word.run)] := by
  have noRun : content.isNamed Word.run = false := Node.isNamed_apart (by decide) _ isArea
  have found : Node.keepFirstOf Word.run false [run] = ([run.prune (·.isNamed Word.run)], true) := by
    rw [Node.keepFirstOf, isRun, Bool.false_and, Bool.false_or, Node.keepFirst_of_seen]
    rfl
  have kept := isFirst.keepFirstOf_plug found
  rw [← isPlugged, Node.keepFirstOf, noRun] at kept
  exact congrArg Prod.fst kept

/-- With a run in the area its place is that of the first one. -/
theorem exists_isPlace_of_run (isArea : content.isNamed Word.controlContent)
    (legible : IsLegible content) {rest : List Node} (runs : content.named Word.run = run :: rest) :
    ∃ context run, IsPlace content context run := by
  obtain ⟨context, isPlugged, isFirst⟩ := Context.exists_of_first content ⟨rest, runs⟩
  have isRun : run.isNamed Word.run := (List.mem_filter.mp (runs ▸ List.mem_cons_self)).2
  have byRun (x : Node) (children : List Node) := Node.isNamed_withChildren Word.run x children
  let pruned := (content.keepFirst Word.run false).1
  let single := run.prune (·.isNamed Word.run)
  let bald := run.prune isDropped
  have bareSingle : IsBareRun single := isBareRun_prune isRun (fun _ => id) byRun
  have bareBald : IsBareRun bald :=
    isBareRun_prune isRun (fun x named => by rw [isDropped, named]; rfl) isDropped_withChildren
  have isPruned : [pruned] = (context.prune (·.isNamed Word.run)).plug [single] :=
    keepFirst_plug isArea isRun isFirst isPlugged
  have lacks := isFirst.lacks_prune byRun byRun fun _ => id
  have onlyRun : (content.keepFirst Word.run false).1.named Word.run = [single] := by
    rw [Node.named, ← Node.elementsOf_singleton, isPruned, lacks.filter_elementsOf_plug,
      Node.elementsOf_singleton]
    exact bareSingle.named
  have left : IsLegible pruned := legible.keepFirst Word.run
  have isLeft : pruned.isNamed Word.controlContent := by rwa [Node.isNamed_keepFirst]
  have legibleRun : IsLegible run := legible.of_mem (List.mem_filter.mp (runs ▸ List.mem_cons_self)).1
  -- removing the style keeps the run in its spot, whatever is in it
  have unstyledArea {area written : Node} (isArea : area.isNamed Word.controlContent)
      (isRun : written.isNamed Word.run)
      (isPlugged : [area] = (context.prune (·.isNamed Word.run)).plug [written]) :
      [area.prune isPlaceholderStyle] =
        (context.prune isDropped).plug [written.prune isPlaceholderStyle] := by
    have kept := left.isPlaceholderStyle_around isPruned (List.cons_ne_nil _ _)
    have unstyled := isPlaceholderStyle_of_isNamed isRun (by decide)
    rw [unstyled_plug isArea kept isPlugged unstyled,
      Context.prune_prune isPlaceholderStyle_withChildren]
    rfl
  have isBald : single.prune isPlaceholderStyle = bald :=
    Node.prune_prune_or isPlaceholderStyle_withChildren _ run
  have noRuns : (context.prune isDropped).Lacks (·.isNamed Word.run) :=
    isFirst.lacks_prune byRun isDropped_withChildren fun x named => by
      rw [isDropped, named]
      rfl
  refine ⟨context.prune isDropped, bald, bareBald, legibleRun.prune _, noRuns, ?_, fun lines => ?_⟩
  · refine (left.prune isPlaceholderStyle).lacks ?_ (unstyledArea isLeft bareSingle.1 isPruned) noRuns
    rw [isPiece_prune]
    exact isPiece_area isLeft
  · have isWritten : writeArea lines content =
        some (withRun pruned (writeRun lines single).1, (writeRun lines single).2) := by
      rw [writeArea, onlyRun]
    have alsoRun : (writeRun lines single).1.isNamed Word.run := by
      rw [isNamed_writeRun]
      exact bareSingle.1
    have plugged : [withRun pruned (writeRun lines single).1] =
        (context.prune (·.isNamed Word.run)).plug [(writeRun lines single).1] := by
      have rebuilt := lacks.map_mapNamed_plug (fun _ => (writeRun lines single).1) [single]
      rwa [← isPruned, List.map_singleton, List.map_singleton,
        Node.mapNamed_const bareSingle.1] at rebuilt
    have isWithRun : (withRun pruned (writeRun lines single).1).isNamed Word.controlContent :=
      isNamed_mapNamed isLeft (by decide)
    have placed := unstyledArea isWithRun alsoRun plugged
    have moved : (writeRun lines single).1.prune isPlaceholderStyle = (writeRun lines bald).1 := by
      rw [← isBald, writeRun_prune bareSingle.1]
    rw [moved] at placed
    refine ⟨_, _, isWritten, placed, .first context run isRun isFirst isPlugged placed ?_⟩
    rw [prune_writeRun (fun _ => id)]
    exact Node.prune_prune_or isPiece_withChildren isDropped run

theorem keepFirst_of_none (none : content.named Word.run = []) :
    (content.keepFirst Word.run false).1 = content := by
  have nothing : Node.tally Word.run [content] = 0 := by
    rw [← Node.length_named, none]
    rfl
  rw [Node.tally_singleton] at nothing
  exact Node.keepFirst_eq_self Word.run false content (by omega) (by simp)

/-- The only paragraph of an area gets the run. -/
theorem withNewRun_plug {paragraph : Node} (isOnly : content.named Word.paragraph = [paragraph])
    (isPlugged : [content] = context.plug [paragraph])
    (lacks : context.Lacks (·.isNamed Word.paragraph)) (run : Node) :
    [withNewRun content run] = context.plug [paragraph.append run] := by
  have isParagraph := (List.mem_filter.mp (isOnly ▸ List.mem_singleton_self paragraph)).2
  obtain ⟨lineage, traits, children, rfl⟩ := Node.exists_of_isNamed isParagraph
  have below : children.map (Node.mapNamed Word.paragraph (·.append run)) = children := by
    have single := lacks.filter_elementsOf_plug [.element Word.paragraph lineage traits children]
    rw [← isPlugged, Node.elementsOf_singleton, ← Node.named, isOnly, Node.elementsOf_singleton,
      Node.elements, List.filter_cons_of_pos isParagraph] at single
    have nothing := List.filter_eq_nil_iff.mp (List.cons.inj single).2.symm
    refine (List.map_congr_left fun child member => ?_).trans (List.map_id _)
    refine Node.mapNamed_eq_self _ child (Node.tally_eq_zero_iff.mpr fun x within => ?_)
    exact nothing x (Node.mem_elementsOf member (by rwa [Node.elementsOf_singleton] at within))
  have rebuilt := lacks.map_mapNamed_plug (·.append run)
    [.element Word.paragraph lineage traits children]
  rwa [← isPlugged, List.map_singleton, List.map_singleton, Node.mapNamed_element, if_pos rfl,
    below] at rebuilt

/-- Without a run in the area its place is at the end of the paragraph. -/
theorem exists_isPlace_of_paragraph {paragraph : Node} (isArea : content.isNamed Word.controlContent)
    (legible : IsLegible content) (none : content.named Word.run = [])
    (isOnly : content.named Word.paragraph = [paragraph]) :
    ∃ context run, IsPlace content context run := by
  obtain ⟨context, isPlugged, lacks⟩ := Context.exists_of_only content isOnly
  have isParagraph := (List.mem_filter.mp (isOnly ▸ List.mem_singleton_self paragraph)).2
  have kept := legible.isPlaceholderStyle_around isPlugged (List.cons_ne_nil _ _)
  have unstyled {node : Node} (isParagraph : node.isNamed Word.paragraph) :
      isPlaceholderStyle node = false := isPlaceholderStyle_of_isNamed isParagraph (by decide)
  obtain ⟨lineage, traits, children, rfl⟩ := Node.exists_of_isNamed isParagraph
  let frame : Frame :=
    ⟨Word.paragraph, lineage, traits, Node.pruneAll isPlaceholderStyle children, []⟩
  let around : Context := frame :: context.prune isPlaceholderStyle
  have isFrame (nodes : List Node) : frame.around nodes =
      .element Word.paragraph lineage traits
        (Node.pruneAll isPlaceholderStyle children ++ nodes) := by
    rw [Frame.around, List.append_nil]
  have isTree : [content.prune isPlaceholderStyle] = around.plug [] := by
    rw [unstyled_plug isArea kept isPlugged (unstyled isParagraph), Context.plug_cons, isFrame,
      List.append_nil]
    rfl
  have noRuns : around.Lacks (·.isNamed Word.run) := by
    have byRun (x : Node) (children : List Node) := Node.isNamed_withChildren Word.run x children
    refine Context.Lacks.of_none byRun (fun x (within : x ∈ Node.elementsOf (around.plug [])) => ?_)
    rw [← isTree, Node.elementsOf_singleton] at within
    obtain ⟨y, below, rfl⟩ := List.mem_map.mp (Node.elements_prune_subset _ content within)
    rw [Node.isNamed, Node.name?_prune]
    exact Bool.eq_false_iff.mpr (List.filter_eq_nil_iff.mp none y below)
  refine ⟨around, Word.makeRun [], isBareRun_makeRun, isLegible_makeRun, noRuns, ?_, fun lines => ?_⟩
  · refine (legible.prune isPlaceholderStyle).lacks ?_ isTree noRuns
    rw [isPiece_prune]
    exact isPiece_area isArea
  · let written := (writeRun lines (Word.makeRun [])).1
    have isWritten : writeArea lines content =
        some (withNewRun content written, (writeRun lines (Word.makeRun [])).2) := by
      rw [writeArea, keepFirst_of_none none, none, isOnly]
      rfl
    have isRun : written.isNamed Word.run := by
      rw [isNamed_writeRun]
      rfl
    have moved : written.prune isPlaceholderStyle = written :=
      (congrArg Prod.fst (writeRun_prune rfl lines)).symm
    have isNew : (withNewRun content written).isNamed Word.controlContent :=
      isNamed_mapNamed isArea (by decide)
    have isLonger : ((Node.element Word.paragraph lineage traits children).append
        written).isNamed Word.paragraph := isParagraph
    have placed : [(withNewRun content written).prune isPlaceholderStyle] = around.plug [written] := by
      rw [unstyled_plug isNew kept (withNewRun_plug isOnly isPlugged lacks written)
        (unstyled isLonger), Node.append, Node.withChildren, Node.children, Node.prune,
        Node.pruneAll_append,
        Node.pruneAll_singleton (isPlaceholderStyle_of_isNamed isRun (by decide)), moved,
        Context.plug_cons, isFrame]
    refine ⟨_, _, isWritten, placed, .new context _ isParagraph none isPlugged ?_ ?_⟩
    · rw [placed, Context.plug_cons, isFrame]
      rfl
    · exact prune_writeRun (fun _ => id) lines _

/-- Lines have a place in every legible area that has room for them. -/
theorem exists_isPlace (isArea : content.isNamed Word.controlContent) (legible : IsLegible content)
    (few : (content.named Word.paragraph).length ≤ 1) (place : HasPlace content) :
    ∃ context run, IsPlace content context run := by
  cases runs : content.named Word.run with
  | cons run rest => exact exists_isPlace_of_run isArea legible runs
  | nil =>
    cases paragraphs : content.named Word.paragraph with
    | nil => exact absurd place (not_or.mpr ⟨not_not.mpr runs, not_not.mpr paragraphs⟩)
    | cons paragraph rest =>
      rw [paragraphs, List.length_cons] at few
      obtain rfl : rest = [] := List.eq_nil_of_length_eq_zero (by omega)
      exact exists_isPlace_of_paragraph isArea legible runs paragraphs

end TemplateFill.Control
