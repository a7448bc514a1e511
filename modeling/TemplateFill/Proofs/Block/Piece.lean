import TemplateFill.Block.Basic

/-!
# Pieces of a page

What a page says, read off its forest. The strings are cut wherever an element begins a block
and wherever a list begins or ends; what stands between two cuts is a piece. Every string
carries what encloses it, which only depends on the elements above it and on the number of
outermost lists before it, not on any state. Blocks are what pieces that are not blank become.
-/

namespace TemplateFill.Block

open TemplateFill.Numbering (Format Allocator)

mutual

def outermostLists : Html.Tree → List Format
  | .string _ => []
  | .element name children =>
    match listFormat? name with
    | some format => [format]
    | none => outermostListsOf children

def outermostListsOf : List Html.Tree → List Format
  | [] => []
  | tree :: rest => outermostLists tree ++ outermostListsOf rest

end

/-- What encloses a string in a list: the outermost list around it, by its number among the
outermost ones of the page and by its format, and how many lists are around it. -/
structure Enclosure where
  list : Nat
  format : Format
  depth : Nat
  deriving Repr, DecidableEq

/-- What encloses the content of a list. Outside of all others it is the outermost list of
number `next`. -/
def Enclosure.within (enclosure : Option Enclosure) (next : Nat) (format : Format) : Enclosure :=
  match enclosure with
  | none => ⟨next, format, 1⟩
  | some outer => { outer with depth := outer.depth + 1 }

/-- A string and what encloses it. -/
structure Located where
  content : String
  enclosure : Option Enclosure
  deriving Repr, DecidableEq

/-- A place where the strings are cut, or a string. -/
inductive Fragment where
  | cut
  | string (located : Located)
  deriving Repr, DecidableEq

mutual

/-- The strings of a tree between the cuts, if `next` outermost lists come before it. -/
def fragments (enclosure : Option Enclosure) (next : Nat) : Html.Tree → List Fragment
  | .string content => [.string ⟨content, enclosure⟩]
  | .element name children =>
    match listFormat? name with
    | some format =>
      .cut :: (fragmentsOf (some (.within enclosure next format)) next children ++ [.cut])
    | none =>
      (if startsBlock name then [.cut] else []) ++ fragmentsOf enclosure next children

/-- The strings of a forest between the cuts. -/
def fragmentsOf (enclosure : Option Enclosure) (next : Nat) : List Html.Tree → List Fragment
  | [] => []
  | tree :: rest =>
    fragments enclosure next tree ++
      fragmentsOf enclosure (next + (outermostLists tree).length) rest

end

/-- The strings between two cuts. -/
abbrev Piece := List Located

/-- Cut fragments to pieces; the first one was begun with some strings. -/
def cutUp (begun : Piece) : List Fragment → List Piece
  | [] => [begun]
  | .cut :: rest => begun :: cutUp [] rest
  | .string located :: rest => cutUp (begun ++ [located]) rest

/-- The pieces of a page. -/
def pieces (forest : List Html.Tree) : List Piece := cutUp [] (fragmentsOf none 0 forest)

/-- Strings put together, behind a space if `spaced` says so. A blank string counts as a single
space; behind a space, which may be one that a blank string counts as, it adds nothing. -/
def joined (spaced : Bool) : List (List Char) → List Char
  | [] => []
  | s :: rest =>
    if s.all Text.isBlank then (if spaced then [] else [' ']) ++ joined true rest
    else s ++ joined (s.getLast? == some ' ') rest

namespace Piece

def content (piece : Piece) : List Char := joined false (piece.map (·.content.toList))

def text (piece : Piece) : List Char := Text.trim piece.content

def isBlank (piece : Piece) : Bool := piece.text.isEmpty

def enclosure (piece : Piece) : Option Enclosure := piece.head?.bind (·.enclosure)

/-- All strings of a piece are enclosed alike. -/
def IsUniform (piece : Piece) : Prop := ∀ located ∈ piece, located.enclosure = piece.enclosure

end Piece

/-- Where the items of an enclosure belong, if the allocator has the counters of `start` before
the first list of the page: to the instance of the outermost list, one level below the number
of lists around them. -/
def Enclosure.place (start : Allocator) (enclosure : Enclosure) : Place :=
  ⟨start.nextInstance + enclosure.list, enclosure.depth - 1⟩

def Piece.block (start : Allocator) (piece : Piece) : Block :=
  ⟨String.ofList piece.text, piece.enclosure.map (·.place start)⟩

/-- The pieces of a page that are not blank. -/
def spoken (forest : List Html.Tree) : List Piece := (pieces forest).filter (!·.isBlank)

/-! ### What encloses a piece

The number and the format in an enclosure belong together: they are those of an outermost list
of the page.
-/

/-- The strings of a piece are those of the fragments, or were there before. -/
theorem mem_of_mem_cutUp {begun piece : Piece} {fragments : List Fragment} {located : Located}
    (cut : piece ∈ cutUp begun fragments) (member : located ∈ piece) :
    located ∈ begun ∨ Fragment.string located ∈ fragments := by
  induction fragments generalizing begun with
  | nil =>
    rw [cutUp, List.mem_singleton] at cut
    exact .inl (cut ▸ member)
  | cons fragment rest ih =>
    cases fragment with
    | cut =>
      rcases List.mem_cons.mp cut with rfl | later
      · exact .inl member
      · exact .inr (List.mem_cons_of_mem _ ((ih later).resolve_left List.not_mem_nil))
    | string other =>
      rcases ih cut with before | after
      · rcases List.mem_append.mp before with old | new
        · exact .inl old
        · rw [List.mem_singleton.mp new]
          exact .inr List.mem_cons_self
      · exact .inr (List.mem_cons_of_mem _ after)

/-- The fragments of an element that is no list are a cut at most and those of its content. -/
theorem mem_fragments_other {enclosure : Option Enclosure} {next : Nat} {name : String}
    {children : List Html.Tree} {located : Located} (other : listFormat? name = none)
    (member : Fragment.string located ∈ fragments enclosure next (.element name children)) :
    Fragment.string located ∈ fragmentsOf enclosure next children := by
  rw [fragments, other] at member
  rcases List.mem_append.mp member with cut | content
  · split at cut <;> simp at cut
  · exact content

theorem mem_fragments_list {enclosure : Option Enclosure} {next : Nat} {name : String}
    {format : Format} {children : List Html.Tree} {located : Located}
    (list : listFormat? name = some format)
    (member : Fragment.string located ∈ fragments enclosure next (.element name children)) :
    Fragment.string located ∈
      fragmentsOf (some (.within enclosure next format)) next children := by
  rw [fragments, list] at member
  simpa using member

mutual

/-- A list in another one changes neither the number nor the format. -/
theorem enclosure_of_mem_fragments {outer : Enclosure} {next : Nat} {located : Located} :
    (tree : Html.Tree) → Fragment.string located ∈ fragments (some outer) next tree →
    ∃ depth, located.enclosure = some { outer with depth := depth }
  | .string content, member => by
    simp only [fragments, List.mem_singleton, Fragment.string.injEq] at member
    exact ⟨outer.depth, by rw [member]⟩
  | .element name children, member => by
    cases list : listFormat? name with
    | some format =>
      obtain ⟨depth, inside⟩ :=
        enclosure_of_mem_fragmentsOf children (mem_fragments_list list member)
      exact ⟨depth, inside⟩
    | none => exact enclosure_of_mem_fragmentsOf children (mem_fragments_other list member)

theorem enclosure_of_mem_fragmentsOf {outer : Enclosure} {next : Nat} {located : Located} :
    (forest : List Html.Tree) → Fragment.string located ∈ fragmentsOf (some outer) next forest →
    ∃ depth, located.enclosure = some { outer with depth := depth }
  | [], member => by simp [fragmentsOf] at member
  | tree :: rest, member => by
    rw [fragmentsOf] at member
    rcases List.mem_append.mp member with here | later
    · exact enclosure_of_mem_fragments tree here
    · exact enclosure_of_mem_fragmentsOf rest later

end

mutual

theorem format_of_mem_fragments {next : Nat} {located : Located} {enclosure : Enclosure} :
    (tree : Html.Tree) → Fragment.string located ∈ fragments none next tree →
    located.enclosure = some enclosure →
    ∃ i, enclosure.list = next + i ∧ (outermostLists tree)[i]? = some enclosure.format
  | .string content, member, encloses => by
    simp only [fragments, List.mem_singleton, Fragment.string.injEq] at member
    rw [member] at encloses
    cases encloses
  | .element name children, member, encloses => by
    cases list : listFormat? name with
    | some format =>
      obtain ⟨depth, inside⟩ :=
        enclosure_of_mem_fragmentsOf children (mem_fragments_list list member)
      rw [inside] at encloses
      obtain rfl := Option.some.inj encloses
      exact ⟨0, rfl, by rw [outermostLists, list]; rfl⟩
    | none =>
      obtain ⟨i, number, format⟩ :=
        format_of_mem_fragmentsOf children (mem_fragments_other list member) encloses
      exact ⟨i, number, by rw [outermostLists, list]; exact format⟩

theorem format_of_mem_fragmentsOf {next : Nat} {located : Located} {enclosure : Enclosure} :
    (forest : List Html.Tree) → Fragment.string located ∈ fragmentsOf none next forest →
    located.enclosure = some enclosure →
    ∃ i, enclosure.list = next + i ∧ (outermostListsOf forest)[i]? = some enclosure.format
  | [], member, _ => by simp [fragmentsOf] at member
  | tree :: rest, member, encloses => by
    rw [fragmentsOf] at member
    rcases List.mem_append.mp member with here | later
    · obtain ⟨i, number, format⟩ := format_of_mem_fragments tree here encloses
      have bound := (List.getElem?_eq_some_iff.mp format).1
      exact ⟨i, number, by rw [outermostListsOf, List.getElem?_append_left bound]; exact format⟩
    · obtain ⟨i, number, format⟩ := format_of_mem_fragmentsOf rest later encloses
      refine ⟨(outermostLists tree).length + i, by omega, ?_⟩
      rw [outermostListsOf, List.getElem?_append_right (by omega)]
      simpa using format

end

/-- An enclosure of a piece names one of the outermost lists of the page. -/
theorem format_of_enclosure {forest : List Html.Tree} {piece : Piece} {enclosure : Enclosure}
    (cut : piece ∈ pieces forest) (encloses : piece.enclosure = some enclosure) :
    (outermostListsOf forest)[enclosure.list]? = some enclosure.format := by
  obtain ⟨located, head, inside⟩ := Option.bind_eq_some_iff.mp encloses
  have spoken := (mem_of_mem_cutUp cut (List.mem_of_head? head)).resolve_left List.not_mem_nil
  obtain ⟨i, number, format⟩ := format_of_mem_fragmentsOf forest spoken inside
  rw [number, Nat.zero_add]
  exact format

mutual

theorem depth_pos_of_mem_fragments {outer : Option Enclosure} {next : Nat} {located : Located}
    (positive : ∀ enclosure ∈ outer, 0 < enclosure.depth) :
    (tree : Html.Tree) → Fragment.string located ∈ fragments outer next tree →
    ∀ enclosure ∈ located.enclosure, 0 < enclosure.depth
  | .string content, member => by
    simp only [fragments, List.mem_singleton, Fragment.string.injEq] at member
    rw [member]
    exact positive
  | .element name children, member => by
    cases list : listFormat? name with
    | some format =>
      have deeper : ∀ enclosure ∈ some (Enclosure.within outer next format),
          0 < enclosure.depth := by
        rintro _ ⟨⟩
        cases outer <;> exact Nat.succ_pos _
      exact depth_pos_of_mem_fragmentsOf deeper children (mem_fragments_list list member)
    | none => exact depth_pos_of_mem_fragmentsOf positive children (mem_fragments_other list member)

theorem depth_pos_of_mem_fragmentsOf {outer : Option Enclosure} {next : Nat} {located : Located}
    (positive : ∀ enclosure ∈ outer, 0 < enclosure.depth) :
    (forest : List Html.Tree) → Fragment.string located ∈ fragmentsOf outer next forest →
    ∀ enclosure ∈ located.enclosure, 0 < enclosure.depth
  | [], member => by simp [fragmentsOf] at member
  | tree :: rest, member => by
    rw [fragmentsOf] at member
    rcases List.mem_append.mp member with here | later
    · exact depth_pos_of_mem_fragments positive tree here
    · exact depth_pos_of_mem_fragmentsOf positive rest later

end

/-- A piece with an enclosure is in one list at least. -/
theorem depth_pos_of_enclosure {forest : List Html.Tree} {piece : Piece} {enclosure : Enclosure}
    (cut : piece ∈ pieces forest) (encloses : piece.enclosure = some enclosure) :
    0 < enclosure.depth := by
  obtain ⟨located, head, inside⟩ := Option.bind_eq_some_iff.mp encloses
  have spoken := (mem_of_mem_cutUp cut (List.mem_of_head? head)).resolve_left List.not_mem_nil
  have outside : ∀ enclosure ∈ (none : Option Enclosure), 0 < enclosure.depth := by
    rintro _ ⟨⟩
  exact depth_pos_of_mem_fragmentsOf outside forest spoken enclosure inside

end TemplateFill.Block
