import TemplateFill.Proofs.Block.Piece
import TemplateFill.Proofs.Numbering.Allocation

/-!
# A conversion follows the forest

A conversion reads the tokens of a page one after another and remembers a buffer, a level and
whether a list is open. Its blocks are nevertheless those of the pieces of the forest: what is
in the buffer is the piece that is being cut off, and the open list with its level is what
encloses that piece. Both are kept by every tree, whatever is nested in it.
-/

namespace TemplateFill.Block

open TemplateFill.Numbering (Format Allocator)

/-! ### Strings put together -/

/-- Whether strings behind a space, or not behind one, end in a space. -/
def endsSpaced (spaced : Bool) (strings : List (List Char)) : Bool :=
  ((joined spaced strings).getLast?.map (· == ' ')).getD spaced

theorem endsSpaced_cons (spaced : Bool) (s : List Char) (rest : List (List Char)) :
    endsSpaced spaced (s :: rest) =
      endsSpaced (if s.all Text.isBlank then true else s.getLast? == some ' ') rest := by
  unfold endsSpaced
  by_cases blank : s.all Text.isBlank
  · cases spaced <;> cases h : (joined true rest).getLast? <;>
      simp [joined, blank, h, List.getLast?_cons]
  · have nonempty : s ≠ [] := by
      rintro rfl
      exact blank rfl
    have last := List.getLast?_eq_some_getLast nonempty
    rw [joined, if_neg blank, if_neg blank, List.getLast?_append, last]
    cases (joined (some (s.getLast nonempty) == some ' ') rest).getLast? <;> rfl

/-- What one more string adds depends on the end of the strings before it only. -/
theorem joined_concat (spaced : Bool) (strings : List (List Char)) (s : List Char) :
    joined spaced (strings ++ [s]) = joined spaced strings ++
      (if s.all Text.isBlank then (if endsSpaced spaced strings then [] else [' ']) else s) := by
  induction strings generalizing spaced with
  | nil => by_cases blank : s.all Text.isBlank <;> cases spaced <;> simp [joined, endsSpaced, blank]
  | cons t rest ih =>
    rw [endsSpaced_cons, List.cons_append, joined]
    by_cases blank : t.all Text.isBlank <;> simp [joined, blank, ih]

/-! ### Pieces under way -/

def blocksOf (start : Allocator) (pieces : List Piece) : List Block :=
  (pieces.filter (!·.isBlank)).map (Piece.block start)

@[simp] theorem blocksOf_nil (start : Allocator) : blocksOf start [] = [] := rfl

@[simp] theorem blocksOf_append (start : Allocator) (pieces others : List Piece) :
    blocksOf start (pieces ++ others) = blocksOf start pieces ++ blocksOf start others := by
  simp [blocksOf]

theorem enclosure_of_uniform {piece : Piece} {enclosure : Option Enclosure}
    (uniform : ∀ located ∈ piece, located.enclosure = enclosure) (nonempty : piece ≠ []) :
    piece.enclosure = enclosure := by
  cases piece with
  | nil => exact absurd rfl nonempty
  | cons located rest => exact uniform located List.mem_cons_self

theorem isUniform_of_forall {piece : Piece} {enclosure : Option Enclosure}
    (uniform : ∀ located ∈ piece, located.enclosure = enclosure) : piece.IsUniform := by
  intro located member
  rw [uniform located member, enclosure_of_uniform uniform (List.ne_nil_of_mem member)]

namespace Conversion

section Frame

variable (conversion : Conversion) (s : List Char)

/-- A string only reaches the buffer. -/
theorem addString_eq : conversion.addString s =
    { conversion with pending := (conversion.addString s).pending } := by
  unfold addString
  split
  · split <;> rfl
  · rfl

@[simp] theorem addString_blocks : (conversion.addString s).blocks = conversion.blocks := by
  rw [addString_eq]

@[simp] theorem addString_place : (conversion.addString s).place = conversion.place := by
  rw [addString_eq]

@[simp] theorem addString_allocator :
    (conversion.addString s).allocator = conversion.allocator := by
  rw [addString_eq]

@[simp] theorem flush_place : conversion.flush.place = conversion.place := by
  rw [flush]
  split <;> rfl

@[simp] theorem flush_allocator : conversion.flush.allocator = conversion.allocator := by
  rw [flush]
  split <;> rfl

@[simp] theorem closeList_allocator : conversion.closeList.allocator = conversion.allocator := by
  rw [closeList]
  split <;> rfl

end Frame

/-- The buffer holds the piece that was begun, and the open list is what encloses it. -/
structure Tracks (start : Allocator) (enclosure : Option Enclosure) (begun : Piece)
    (conversion : Conversion) : Prop where
  pending : conversion.pending = begun.content
  uniform : ∀ located ∈ begun, located.enclosure = enclosure
  place : conversion.place = enclosure.map (·.place start)

namespace Tracks

variable {start : Allocator} {enclosure : Option Enclosure} {begun : Piece}
variable {conversion : Conversion}

/-- A string goes to the end of the piece. -/
theorem addString (h : Tracks start enclosure begun conversion) (content : String) :
    Tracks start enclosure (begun ++ [⟨content, enclosure⟩])
      (conversion.addString content.toList) := by
  have spaced : endsSpaced false (begun.map (·.content.toList)) = true ↔
      conversion.pending.getLast? = some ' ' := by
    rw [h.pending, Piece.content, endsSpaced]
    cases (joined false (begun.map (·.content.toList))).getLast? <;> simp
  refine ⟨?_, ?_, ?_⟩
  · rw [Piece.content, List.map_append, List.map_singleton, joined_concat,
      ← Piece.content, ← h.pending, Conversion.addString]
    simp only [spaced]
    by_cases blank : content.toList.all Text.isBlank
    · by_cases last : conversion.pending.getLast? = some ' ' <;> simp [blank, last]
    · simp [blank]
  · intro located member
    rcases List.mem_append.mp member with old | new
    · exact h.uniform located old
    · rw [List.mem_singleton.mp new]
  · rw [addString_place, h.place]

/-- A cut makes a block of the piece and begins an empty one. -/
theorem flush (h : Tracks start enclosure begun conversion) :
    conversion.flush =
      { conversion with
        blocks := conversion.blocks ++ blocksOf start [begun]
        pending := [] } := by
  have text : begun.text = Text.trim conversion.pending := by rw [Piece.text, h.pending]
  unfold Conversion.flush
  cases trimmed : Text.trim conversion.pending with
  | nil => simp [blocksOf, Piece.isBlank, text, trimmed]
  | cons c rest =>
    have nonempty : begun ≠ [] := by
      rintro rfl
      rw [trimmed] at text
      cases text
    simp [blocksOf, Piece.isBlank, Piece.block, text, trimmed, h.place,
      enclosure_of_uniform h.uniform nonempty]

theorem empty (place : conversion.place = enclosure.map (·.place start))
    (pending : conversion.pending = []) : Tracks start enclosure [] conversion :=
  ⟨by rw [pending]; rfl, by simp, place⟩

end Tracks

/-- Between two states of a conversion some pieces were finished and one was begun, as the
fragments in between say, however the page goes on. -/
structure Absorbs (start : Allocator) (enclosure : Option Enclosure) (fragments : List Fragment)
    (begun : Piece) (before : Conversion) (finished : List Piece) (left : Piece)
    (after : Conversion) : Prop where
  cut : ∀ rest, cutUp begun (fragments ++ rest) = finished ++ cutUp left rest
  uniform : ∀ piece ∈ finished, piece.IsUniform
  blocks : after.blocks = before.blocks ++ blocksOf start finished
  tracks : Tracks start enclosure left after

namespace Absorbs

variable {start : Allocator} {enclosure : Option Enclosure} {begun middle left : Piece}
variable {fragments others : List Fragment} {finished further : List Piece}
variable {before between after : Conversion}

theorem refl (h : Tracks start enclosure begun before) :
    Absorbs start enclosure [] begun before [] begun before :=
  ⟨fun _ => rfl, by simp, by simp, h⟩

theorem trans {enclosure' : Option Enclosure}
    (first : Absorbs start enclosure fragments begun before finished middle between)
    (second : Absorbs start enclosure' others middle between further left after) :
    Absorbs start enclosure' (fragments ++ others) begun before (finished ++ further) left
      after := by
  refine ⟨fun rest => ?_, fun piece member => ?_, ?_, second.tracks⟩
  · rw [List.append_assoc, first.cut, second.cut, List.append_assoc]
  · rcases List.mem_append.mp member with member | member
    · exact first.uniform piece member
    · exact second.uniform piece member
  · rw [second.blocks, first.blocks, blocksOf_append, List.append_assoc]

theorem string (h : Tracks start enclosure begun before) (content : String) :
    Absorbs start enclosure [.string ⟨content, enclosure⟩] begun before []
      (begun ++ [⟨content, enclosure⟩]) (before.addString content.toList) := by
  refine ⟨fun _ => rfl, by simp, ?_, h.addString content⟩
  rw [addString_blocks, blocksOf_nil, List.append_nil]

/-- A cut, after which something else may enclose what follows. -/
theorem cut_flush {enclosure' : Option Enclosure} (h : Tracks start enclosure begun before)
    (blocks : after.blocks = before.flush.blocks) (pending : after.pending = [])
    (place : after.place = enclosure'.map (·.place start)) :
    Absorbs start enclosure' [.cut] begun before [begun] [] after := by
  refine ⟨fun _ => rfl, ?_, ?_, .empty place pending⟩
  · intro piece member
    rw [List.mem_singleton.mp member]
    exact isUniform_of_forall h.uniform
  · rw [blocks, h.flush]

end Absorbs

/-! ### Lists

What opens and closes a list keeps the open list of the conversion equal to what encloses the
strings. Only an outermost list reaches the allocator.
-/

/-- The lists that a page allocates: those in another list allocate nothing. -/
def allocated (enclosure : Option Enclosure) (formats : List Format) : List Format :=
  match enclosure with
  | none => formats
  | some _ => []

/-- The conversion is where `next` outermost lists of a page were allocated, or inside one. -/
structure Enclosed (start : Allocator) (enclosure : Option Enclosure) (next : Nat)
    (conversion : Conversion) : Prop where
  deep : ∀ outer, enclosure = some outer → 0 < outer.depth
  counted : enclosure = none → conversion.allocator.nextInstance = start.nextInstance + next

section Lists

variable {start : Allocator} {enclosure : Option Enclosure} {next : Nat} {begun : Piece}
variable {conversion : Conversion} {name : String} {format : Format}

theorem step_opening_list (list : listFormat? name = some format) :
    conversion.step (.opening name) = conversion.flush.openList format := by
  simp [step, list]

theorem step_opening_other (other : listFormat? name = none) :
    conversion.step (.opening name) =
      if startsBlock name then conversion.flush else conversion := by
  simp [step, other]

theorem absorbs_opening (format : Format) (h : Tracks start enclosure begun conversion)
    (enclosed : Enclosed start enclosure next conversion) :
    Absorbs start (some (.within enclosure next format)) [.cut] begun conversion [begun] []
      (conversion.flush.openList format) := by
  have place := h.place
  apply Absorbs.cut_flush h
  · rw [h.flush, openList]
    cases enclosure <;> simp [place]
  · rw [h.flush, openList]
    cases enclosure <;> simp [place]
  · rw [h.flush, openList]
    cases enclosure with
    | none => simp [place, Enclosure.place, Enclosure.within, enclosed.counted rfl]
    | some outer => simp [place, Enclosure.place, Enclosure.within]

theorem allocator_opening (h : Tracks start enclosure begun conversion) :
    (conversion.flush.openList format).allocator =
      conversion.allocator.allocateAll (allocated enclosure [format]) := by
  have place := h.place
  rw [h.flush, openList]
  cases enclosure with
  | none => simp [place, allocated, Allocator.allocateAll_cons]
  | some outer => simp [place, allocated]

theorem step_closing_list {inner : Enclosure} (list : listFormat? name = some format)
    (h : Tracks start (some inner) begun conversion) :
    conversion.step (.closing name) = conversion.flush.closeList := by
  simp [step, list, h.place]

theorem absorbs_closing
    (h : Tracks start (some (.within enclosure next format)) begun conversion)
    (deep : ∀ outer, enclosure = some outer → 0 < outer.depth) :
    Absorbs start enclosure [.cut] begun conversion [begun] [] conversion.flush.closeList := by
  have place := h.place
  apply Absorbs.cut_flush h
  · rw [h.flush, closeList]
    simp [place]
  · rw [h.flush, closeList]
    simp [place]
  · rw [h.flush, closeList]
    cases enclosure with
    | none => simp [place, Enclosure.place, Enclosure.within]
    | some outer =>
      have := deep outer rfl
      have stays : ¬ ((outer.depth : Int) < 1) := by omega
      simp [place, Enclosure.place, Enclosure.within, stays]

theorem step_closing_other (other : listFormat? name = none) :
    conversion.step (.closing name) = conversion := by
  simp [step, other]

/-- Opening an element that is no list. -/
theorem absorbs_start (name : String) (h : Tracks start enclosure begun conversion) :
    ∃ finished left,
      Absorbs start enclosure (if startsBlock name then [.cut] else []) begun conversion
        finished left (if startsBlock name then conversion.flush else conversion) ∧
      (if startsBlock name then conversion.flush else conversion).allocator =
        conversion.allocator := by
  by_cases starts : startsBlock name
  · refine ⟨[begun], [], ?_, ?_⟩
    · rw [if_pos starts, if_pos starts]
      exact .cut_flush h rfl (by rw [h.flush]) (by rw [h.flush]; exact h.place)
    · rw [if_pos starts, h.flush]
  · refine ⟨[], begun, ?_, ?_⟩
    · rw [if_neg starts, if_neg starts]
      exact .refl h
    · rw [if_neg starts]

end Lists

@[simp] theorem allocated_append (enclosure : Option Enclosure) (formats others : List Format) :
    allocated enclosure (formats ++ others) =
      allocated enclosure formats ++ allocated enclosure others := by
  cases enclosure <;> rfl

theorem Enclosed.after {start : Allocator} {enclosure : Option Enclosure} {next : Nat}
    {before after : Conversion} {formats : List Format}
    (h : Enclosed start enclosure next before)
    (served : after.allocator = before.allocator.allocateAll (allocated enclosure formats)) :
    Enclosed start enclosure (next + formats.length) after := by
  refine ⟨h.deep, ?_⟩
  rintro rfl
  rw [served, Allocator.allocateAll_nextInstance, h.counted rfl, allocated]
  omega

theorem Enclosed.inside {start : Allocator} {enclosure : Option Enclosure} {next : Nat}
    {conversion : Conversion} {format : Format} (h : Enclosed start enclosure next conversion)
    (after : Conversion) :
    Enclosed start (some (.within enclosure next format)) next after := by
  refine ⟨?_, by simp⟩
  rintro inner ⟨⟩
  cases enclosure <;> simp [Enclosure.within]

mutual

/-- A tree leaves the open list as it found it, cuts the strings as its fragments say, and
allocates its outermost lists unless it is in a list itself. -/
theorem absorbs_tree {start : Allocator} {enclosure : Option Enclosure} {next : Nat}
    {begun : Piece} {conversion : Conversion} :
    (tree : Html.Tree) → Tracks start enclosure begun conversion →
    Enclosed start enclosure next conversion →
    ∃ finished left,
      Absorbs start enclosure (fragments enclosure next tree) begun conversion finished left
        (tree.tokens.foldl step conversion) ∧
      (tree.tokens.foldl step conversion).allocator =
        conversion.allocator.allocateAll (allocated enclosure (outermostLists tree))
  | .string content, tracks, _ => by
    refine ⟨[], _, .string tracks content, ?_⟩
    cases enclosure <;> simp [Html.Tree.tokens, step, outermostLists, allocated]
  | .element name children, tracks, enclosed => by
    rw [Html.Tree.tokens, List.foldl_cons, List.foldl_append]
    cases list : listFormat? name with
    | some format =>
      have opening := absorbs_opening format tracks enclosed
      obtain ⟨finished, left, content, kept⟩ :=
        absorbs_forest children opening.tracks (enclosed.inside _)
      have closing := absorbs_closing content.tracks enclosed.deep
      refine ⟨[begun] ++ finished ++ [left], [], ?_, ?_⟩
      · rw [fragments, list, step_opening_list list, List.foldl_cons, List.foldl_nil,
          step_closing_list list content.tracks]
        exact (opening.trans content).trans closing
      · rw [step_opening_list list, List.foldl_cons, List.foldl_nil,
          step_closing_list list content.tracks, closeList_allocator, flush_allocator, kept,
          allocator_opening tracks, outermostLists, list]
        exact Allocator.allocateAll_nil _
    | none =>
      obtain ⟨cut, begun', opening, same⟩ := absorbs_start name tracks
      obtain ⟨finished, left, content, kept⟩ :=
        absorbs_forest children opening.tracks ⟨enclosed.deep, by rw [same]; exact enclosed.counted⟩
      refine ⟨cut ++ finished, left, ?_, ?_⟩
      · rw [fragments, list, step_opening_other list, List.foldl_cons, List.foldl_nil,
          step_closing_other list]
        exact opening.trans content
      · rw [step_opening_other list, List.foldl_cons, List.foldl_nil, step_closing_other list,
          kept, same, outermostLists, list]

theorem absorbs_forest {start : Allocator} {enclosure : Option Enclosure} {next : Nat}
    {begun : Piece} {conversion : Conversion} :
    (forest : List Html.Tree) → Tracks start enclosure begun conversion →
    Enclosed start enclosure next conversion →
    ∃ finished left,
      Absorbs start enclosure (fragmentsOf enclosure next forest) begun conversion finished left
        ((Html.tokensOf forest).foldl step conversion) ∧
      ((Html.tokensOf forest).foldl step conversion).allocator =
        conversion.allocator.allocateAll (allocated enclosure (outermostListsOf forest))
  | [], tracks, _ => by
    refine ⟨[], begun, .refl tracks, ?_⟩
    cases enclosure <;> simp [Html.tokensOf, outermostListsOf, allocated]
  | tree :: rest, tracks, enclosed => by
    obtain ⟨finished, middle, first, served⟩ := absorbs_tree tree tracks enclosed
    obtain ⟨further, left, second, servedRest⟩ :=
      absorbs_forest rest first.tracks (enclosed.after served)
    refine ⟨finished ++ further, left, ?_, ?_⟩
    · rw [fragmentsOf, Html.tokensOf, List.foldl_append]
      exact first.trans second
    · rw [Html.tokensOf, List.foldl_append, servedRest, served, outermostListsOf,
        allocated_append, Allocator.allocateAll_append]

end

/-! ### Whole pages -/

/-- If a list is open, its level is not below zero. -/
def LevelNonneg (conversion : Conversion) : Prop :=
  ∀ place, conversion.place = some place → 0 ≤ place.level

namespace LevelNonneg

variable {conversion : Conversion}

theorem openList (h : conversion.LevelNonneg) (format : Format) :
    (conversion.openList format).LevelNonneg := by
  intro place
  rw [Conversion.openList]
  cases outer : conversion.place with
  | none =>
    rintro ⟨⟩
    exact Int.le_refl 0
  | some outer' =>
    have below := h outer' outer
    rintro ⟨⟩
    simp only
    omega

theorem closeList (h : conversion.LevelNonneg) : conversion.closeList.LevelNonneg := by
  intro place
  rw [Conversion.closeList]
  cases outer : conversion.place with
  | none => exact h place
  | some outer' =>
    simp only
    split
    · rintro ⟨⟩
    · rintro ⟨⟩
      simp only
      omega

/-- No step takes the level of the open list below zero. -/
theorem step (h : conversion.LevelNonneg) (token : Html.Token) :
    (conversion.step token).LevelNonneg := by
  have flushed : conversion.flush.LevelNonneg := by
    intro place
    rw [flush_place]
    exact h place
  cases token with
  | string content =>
    intro place
    rw [Conversion.step, addString_place]
    exact h place
  | opening name =>
    rw [Conversion.step]
    split
    · exact flushed.openList _
    · split
      · exact flushed
      · exact h
  | closing name =>
    rw [Conversion.step]
    split
    · exact flushed.closeList
    · exact h

theorem foldl_step (h : conversion.LevelNonneg) (tokens : List Html.Token) :
    (tokens.foldl Conversion.step conversion).LevelNonneg := by
  induction tokens generalizing conversion with
  | nil => exact h
  | cons token rest ih => exact ih (h.step token)

end LevelNonneg

/-- The start of a conversion, when nothing was read. -/
def initial (allocator : Allocator) : Conversion := ⟨[], [], none, allocator⟩

/-- A conversion of a whole page ends outside of all lists, with the blocks of the pieces. -/
theorem run_row (forest : List Html.Tree) (allocator : Allocator) :
    (run (Html.row forest) allocator).blocks = (spoken forest).map (Piece.block allocator) ∧
      (run (Html.row forest) allocator).allocator =
        allocator.allocateAll (outermostListsOf forest) ∧
      (run (Html.row forest) allocator).place = none ∧
      ∀ piece ∈ pieces forest, piece.IsUniform := by
  have tracks : Tracks allocator none [] (initial allocator) := .empty rfl rfl
  have enclosed : Enclosed allocator none 0 (initial allocator) :=
    ⟨fun _ outer => (by cases outer), fun _ => (Int.add_zero _).symm⟩
  obtain ⟨finished, left, absorbs, served⟩ := absorbs_forest forest tracks enclosed
  have cut : pieces forest = finished ++ [left] := by
    have cut := absorbs.cut []
    rw [List.append_nil] at cut
    exact cut
  have ended : run (Html.row forest) allocator =
      ((Html.tokensOf forest).foldl step (initial allocator)).flush := by
    rw [Html.row_eq_tokensOf]
    rfl
  rw [ended, absorbs.tracks.flush]
  refine ⟨?_, served, absorbs.tracks.place, ?_⟩
  · rw [spoken, cut, absorbs.blocks]
    simp [initial, blocksOf]
  · intro piece member
    rw [cut] at member
    rcases List.mem_append.mp member with earlier | last
    · exact absorbs.uniform piece earlier
    · rw [List.mem_singleton.mp last]
      exact isUniform_of_forall absorbs.tracks.uniform

end Conversion

theorem convert_eq (html : String) (allocator : Allocator) :
    convert html allocator =
      ((Html.readForest html).map fun forest =>
        ((spoken forest).map (Piece.block allocator),
          allocator.allocateAll (outermostListsOf forest))).mapError Fault.ofScan := by
  unfold convert Html.tokenize
  cases Html.readForest html with
  | error fault => rfl
  | ok forest =>
    obtain ⟨blocks, served, -, -⟩ := Conversion.run_row forest allocator
    change Except.ok ((Conversion.run (Html.row forest) allocator).blocks,
      (Conversion.run (Html.row forest) allocator).allocator) = _
    rw [blocks, served]
    rfl

/-- Converting a page text is reading off its forest. The blocks are the pieces that are not
blank: one in a list becomes an item of the instance of the outermost list around it, one level
below the number of lists around it, and every other one a plain paragraph. The allocator has
served the outermost lists and no others, each with its own format. While the tokens are read
no level is negative, and after them no list is open. -/
theorem convert_eq_pieces (allocator : Allocator) :
    (∀ html, convert html allocator =
      ((Html.readForest html).map fun forest =>
        ((spoken forest).map (Piece.block allocator),
          allocator.allocateAll (outermostListsOf forest))).mapError Fault.ofScan) ∧
    ∀ forest,
      (Conversion.run (Html.row forest) allocator).blocks =
        (spoken forest).map (Piece.block allocator) ∧
      (Conversion.run (Html.row forest) allocator).allocator =
        allocator.allocateAll (outermostListsOf forest) ∧
      (Conversion.run (Html.row forest) allocator).place = none ∧
      (∀ n place, (((Html.row forest).take n).foldl Conversion.step
        (Conversion.initial allocator)).place = some place → 0 ≤ place.level) ∧
      ∀ piece ∈ pieces forest, piece.IsUniform ∧
        ∀ enclosure, piece.enclosure = some enclosure →
          (outermostListsOf forest)[enclosure.list]? = some enclosure.format := by
  refine ⟨fun html => convert_eq html allocator, fun forest => ?_⟩
  obtain ⟨blocks, served, closed, uniform⟩ := Conversion.run_row forest allocator
  refine ⟨blocks, served, closed, fun n => ?_, fun piece member => ?_⟩
  · have initially : (Conversion.initial allocator).LevelNonneg := fun _ outer => by cases outer
    exact initially.foldl_step _
  · exact ⟨uniform piece member, fun _ encloses => format_of_enclosure member encloses⟩

example :
    (Conversion.run (Html.row
      [.element "ul" [.element "li" [.string "a", .element "ol" [.element "li" [.string "b"]],
        .string " c "]], .string "d"]) ⟨3, 7, [], []⟩).blocks =
      [⟨"a", some ⟨7, 0⟩⟩, ⟨"b", some ⟨7, 1⟩⟩, ⟨"c", some ⟨7, 0⟩⟩, ⟨"d", none⟩] := by
  decide +kernel

end TemplateFill.Block
