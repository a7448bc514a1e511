import Mathlib.Data.List.Flatten
import TemplateFill.Proofs.Block.Conversion
import TemplateFill.Proofs.Html.Whole
import TemplateFill.Proofs.Text.Blank

/-!
# The letters of a page

Blocks keep all letters of the strings that a page is read with, in their order; only blanks are
added and taken away. Of the strings of the whole forest, those of scripts and styles are meant to
be left out. Those of templates and of ruby annotations are left out with them.
-/

namespace TemplateFill.Block

open TemplateFill.Numbering (Allocator)
open Text (letters letters_append letters_flatMap letters_trim letters_eq_nil_iff)
open Html (HostedString stringsOf wholeForest)

/-! ### Pieces -/

/-- Putting strings together adds and takes away blanks only. -/
theorem letters_joined (spaced : Bool) (strings : List (List Char)) :
    letters (joined spaced strings) = letters strings.flatten := by
  induction strings generalizing spaced with
  | nil => rfl
  | cons s rest ih =>
    rw [joined, List.flatten_cons, letters_append]
    split
    · rename_i blank
      have space : letters (if spaced then [] else [' ']) = [] := by cases spaced <;> rfl
      rw [letters_append, ih, space, letters_eq_nil_iff.mpr blank]
    · rw [letters_append, ih]

theorem letters_text (piece : Piece) :
    letters piece.text = letters (piece.flatMap (·.content.toList)) := by
  rw [Piece.text, letters_trim, Piece.content, letters_joined, List.flatMap_def]

def Fragment.located? : Fragment → Option Located
  | .cut => none
  | .string located => some located

theorem filterMap_cut (rest : List Fragment) :
    (Fragment.cut :: rest).filterMap Fragment.located? = rest.filterMap Fragment.located? := rfl

theorem flatten_cutUp (begun : Piece) (fragments : List Fragment) :
    (cutUp begun fragments).flatten = begun ++ fragments.filterMap Fragment.located? := by
  induction fragments generalizing begun with
  | nil => simp [cutUp]
  | cons fragment rest ih =>
    cases fragment with
    | cut =>
      rw [cutUp, List.flatten_cons, ih, List.nil_append]
      rfl
    | string located =>
      rw [cutUp, ih, List.append_assoc]
      rfl

mutual

/-- The fragments of a tree hold its strings, wherever the tree is. -/
theorem contents_fragments (enclosure : Option Enclosure) (next : Nat) (host : Option String) :
    (tree : Html.Tree) →
      ((fragments enclosure next tree).filterMap Fragment.located?).map (·.content) =
        (tree.strings host).map (·.content)
  | .string content => rfl
  | .element name children => by
    have inside (enclosure : Option Enclosure) := contents_fragmentsOf enclosure next
      (if Html.hiddenElements.contains name then some name else host) children
    rw [Html.Tree.strings]
    cases list : listFormat? name with
    | some format =>
      rw [fragments, list]
      simp only [filterMap_cut, List.filterMap_append, List.filterMap_nil, List.append_nil]
      exact inside _
    | none =>
      rw [fragments, list]
      cases startsBlock name <;> exact inside _

theorem contents_fragmentsOf (enclosure : Option Enclosure) (next : Nat) (host : Option String) :
    (forest : List Html.Tree) →
      ((fragmentsOf enclosure next forest).filterMap Fragment.located?).map (·.content) =
        (stringsOf host forest).map (·.content)
  | [] => rfl
  | tree :: rest => by
    rw [fragmentsOf, List.filterMap_append, List.map_append, contents_fragments _ _ host,
      contents_fragmentsOf _ _ host, stringsOf, List.map_append]

end

/-- The pieces of a page hold its strings in their order. -/
theorem contents_pieces (forest : List Html.Tree) :
    (pieces forest).flatten.map (·.content) = (stringsOf none forest).map (·.content) := by
  rw [pieces, flatten_cutUp, List.nil_append]
  exact contents_fragmentsOf none 0 none forest

/-! ### Blocks -/

def lettersOf (blocks : List Block) : List Char := letters (blocks.flatMap (·.text.toList))

def lettersIn (strings : List HostedString) : List Char :=
  letters (strings.flatMap (·.content.toList))

theorem lettersOf_pieces (allocator : Allocator) (pieces : List Piece) :
    lettersOf ((pieces.filter (!·.isBlank)).map (Piece.block allocator)) =
      letters (pieces.flatten.flatMap (·.content.toList)) := by
  induction pieces with
  | nil => rfl
  | cons piece rest ih =>
    rw [List.flatten_cons, List.flatMap_append, letters_append, ← ih, ← letters_text]
    cases blank : piece.isBlank with
    | true =>
      rw [List.filter_cons_of_neg (by simp [blank]), List.isEmpty_iff.mp blank]
      rfl
    | false =>
      rw [List.filter_cons_of_pos (by simp [blank]), lettersOf, List.map_cons, List.flatMap_cons,
        letters_append, Piece.block, String.toList_ofList]
      rfl

/-- The blocks of a page have the letters of its strings. -/
theorem lettersOf_spoken (allocator : Allocator) (forest : List Html.Tree) :
    lettersOf ((spoken forest).map (Piece.block allocator)) =
      lettersIn (stringsOf none forest) := by
  have same := congrArg (fun contents => letters (contents.flatMap String.toList))
    (contents_pieces forest)
  simp only [List.flatMap_map] at same
  rw [spoken, lettersOf_pieces, same, lettersIn]

/-- Blocks are not empty, and have no blanks at their ends. -/
theorem trimmed_of_mem_spoken {allocator : Allocator} {forest : List Html.Tree} {block : Block}
    (member : block ∈ (spoken forest).map (Piece.block allocator)) :
    block.text ≠ "" ∧ Text.trimmed block.text = block.text := by
  obtain ⟨piece, among, rfl⟩ := List.mem_map.mp member
  have nonempty : piece.text ≠ [] := by
    simpa [Piece.isBlank] using (List.mem_filter.mp among).2
  constructor
  · intro empty
    exact nonempty (by simpa [Piece.block] using congrArg String.toList empty)
  · rw [Text.trimmed, Piece.block, String.toList_ofList, Piece.text, Text.trim_trim]

/-! ### Strings that are left out -/

/-- Whether a string is neither of a script nor of a style. -/
def isPageText (s : HostedString) : Bool := s.host != some "script" && s.host != some "style"

def silentElements : List String := ["template", "rt", "rp"]

/-- Fewer of some lists come to the same as more of them if and only if the others are empty. -/
theorem flatMap_filter_eq_iff {α β : Type} {p q : α → Bool} (f : α → List β) (xs : List α)
    (fewer : ∀ x, p x → q x) :
    (xs.filter p).flatMap f = (xs.filter q).flatMap f ↔ ∀ x ∈ xs, q x → p x = false → f x = [] := by
  induction xs with
  | nil => simp
  | cons x xs ih =>
    rw [List.forall_mem_cons, ← ih]
    cases isP : p x with
    | true =>
      rw [List.filter_cons_of_pos isP, List.filter_cons_of_pos (fewer x isP), List.flatMap_cons,
        List.flatMap_cons]
      simp
    | false =>
      rw [List.filter_cons_of_neg (by simp [isP])]
      cases isQ : q x with
      | false =>
        rw [List.filter_cons_of_neg (by simp [isQ])]
        simp
      | true =>
        rw [List.filter_cons_of_pos isQ, List.flatMap_cons]
        have fewerItems : ((xs.filter p).flatMap f).length ≤ ((xs.filter q).flatMap f).length :=
          ((List.monotone_filter_right xs fewer).flatMap f).length_le
        constructor
        · intro same
          have lengths := congrArg List.length same
          rw [List.length_append] at lengths
          have empty : f x = [] := List.eq_nil_of_length_eq_zero (by omega)
          rw [empty] at same
          exact ⟨fun _ _ => empty, same⟩
        · rintro ⟨empty, same⟩
          rw [empty rfl rfl, same, List.nil_append]

/-- Strings of a page text that are left out belong to elements that are silent. -/
theorem isSilent_iff {forest : List Html.Tree} {s : HostedString}
    (member : s ∈ stringsOf none forest) :
    isPageText s ∧ s.host.isNone = false ↔ ∃ name ∈ silentElements, s.host = some name := by
  rcases Html.host_of_mem_stringsOf _ member with noHost | ⟨name, hides, isHost⟩
  · simp [noHost]
  · simp only [Html.hiddenElements, List.mem_cons, List.not_mem_nil, or_false] at hides
    rcases hides with rfl | rfl | rfl | rfl | rfl <;> simp [isPageText, silentElements, isHost]

/-- The letters of the strings without a host are all that there are if and only if the silent
elements have none. -/
theorem lettersIn_eq_iff (forest : List Html.Tree) :
    let strings := stringsOf none forest
    lettersIn (strings.filter (·.host.isNone)) = lettersIn (strings.filter isPageText) ↔
      ∀ s ∈ strings, ∀ name ∈ silentElements, s.host = some name → Text.isAllBlank s.content := by
  intro strings
  have fewer (s : HostedString) (noHost : s.host.isNone) : isPageText s := by
    simp [isPageText, Option.isNone_iff_eq_none.mp noHost]
  rw [lettersIn, lettersIn, letters_flatMap, letters_flatMap, flatMap_filter_eq_iff _ _ fewer]
  refine forall₂_congr fun s member => ?_
  have silent := isSilent_iff member
  rw [letters_eq_nil_iff]
  constructor
  · intro blank name isSilent isHost
    obtain ⟨isText, hasHost⟩ := silent.mpr ⟨name, isSilent, isHost⟩
    exact blank isText hasHost
  · intro blank isText hasHost
    obtain ⟨name, isSilent, isHost⟩ := silent.mp ⟨isText, hasHost⟩
    exact blank name isSilent isHost

/-- A page text that cannot be scanned is not converted. Of every other one the blocks hold the
letters of all strings that have no host, in their order, and no block is empty or has blanks at
its ends. So nothing but scripts and styles is lost if and only if all strings of templates and
of ruby annotations are blank. -/
theorem convert_keeps_letters (html : String) (allocator : Allocator) :
    match Html.Event.scan html with
    | .error fault => convert html allocator = .error (.ofScan fault)
    | .ok events =>
      ∃ blocks after, convert html allocator = .ok (blocks, after) ∧
        (∀ block ∈ blocks, block.text ≠ "" ∧ Text.trimmed block.text = block.text) ∧
        let strings := stringsOf none (wholeForest events)
        lettersOf blocks = lettersIn (strings.filter (·.host.isNone)) ∧
        (lettersOf blocks = lettersIn (strings.filter isPageText) ↔
          ∀ s ∈ strings, ∀ name ∈ silentElements, s.host = some name →
            Text.isAllBlank s.content) := by
  have converted := convert_eq html allocator
  rw [Html.readForest] at converted
  cases scanned : Html.Event.scan html with
  | error fault =>
    rw [scanned] at converted
    exact converted
  | ok events =>
    rw [scanned] at converted
    have kept : lettersOf ((spoken (Html.forestOfEvents events)).map (Piece.block allocator)) =
        lettersIn ((stringsOf none (wholeForest events)).filter (·.host.isNone)) := by
      rw [lettersOf_spoken, Html.strings_forestOfEvents]
    refine ⟨_, _, converted, fun block member => trimmed_of_mem_spoken member, kept, ?_⟩
    rw [kept]
    exact lettersIn_eq_iff (wholeForest events)

/-- A text around a script is kept, and the script is not. -/
theorem convert_keeps_letters_beside_script :
    ∃ blocks after, convert "a <b>b</b><script>c</script>" .empty = .ok (blocks, after) ∧
      (∀ block ∈ blocks, block.text ≠ "" ∧ Text.trimmed block.text = block.text) ∧
      lettersOf blocks = ['a', 'b'] := by
  have scanned : Html.Event.scan "a <b>b</b><script>c</script>" =
      .ok [.text ['a', ' '], .startTag "b", .text ['b'], .endTag "b", .startTag "script",
        .text ['c'], .endTag "script"] := by decide +kernel
  have laws := convert_keeps_letters "a <b>b</b><script>c</script>" .empty
  rw [scanned] at laws
  obtain ⟨blocks, after, converted, trimmed, kept, -⟩ := laws
  exact ⟨blocks, after, converted, trimmed, kept.trans (by decide +kernel)⟩

/-- The annotation of a ruby is a text of the page, and no block has it. -/
theorem ruby_is_lost :
    ∃ events blocks after, Html.Event.scan "<rt>a</rt>" = .ok events ∧
      convert "<rt>a</rt>" .empty = .ok (blocks, after) ∧ lettersOf blocks = [] ∧
      lettersIn ((stringsOf none (wholeForest events)).filter isPageText) = ['a'] := by
  have scanned : Html.Event.scan "<rt>a</rt>" =
      .ok [.startTag "rt", .text ['a'], .endTag "rt"] := by decide +kernel
  refine ⟨_, [], .empty, scanned, ?_, rfl, by decide +kernel⟩
  rw [convert_eq, Html.readForest, scanned]
  rfl

end TemplateFill.Block
