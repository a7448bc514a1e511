import TemplateFill.Proofs.Block.Rendering
import TemplateFill.Proofs.Number.Numeral
import TemplateFill.Proofs.Word.Piece

/-!
# Reading blocks back

Whatever blocks have become, the blocks are read back from it: from runs their texts with a break
between any two, and from paragraphs their texts and their places in lists.
-/

namespace TemplateFill

open Xml Word

/-- The number that the first element of a name in a tree states. -/
def Word.readNumber? (name : Name) (node : Node) : Option Int :=
  (node.named name).head?.bind fun setting =>
    (setting.attribute? value).bind fun text => (Number.readNumeral 10 text).toOption

namespace Block

/-- The element that says to which list a paragraph belongs. -/
abbrev numberingMark : Name := .word "numPr"

/-- A paragraph is what a block reads like: there is its text, and it is an item of a list exactly
if the block is, at the same level. -/
structure IsParagraphOf (block : Block) (node : Node) : Prop where
  isParagraph : node.isNamed paragraph
  text : Word.pieces [node] = [.text block.text]
  list : readNumber? listInstanceId node = block.place.map (·.list)
  level : readNumber? listLevel node = block.place.map (·.level)
  properties : node.named paragraphProperties ≠ [] ↔ block.place.isSome
  mark : node.named numberingMark ≠ [] ↔ block.place.isSome

variable {block : Block} {blocks : List Block} {rendered : List Node} {node : Node}

theorem textRun_eq_ok {text : String} {run : Node} (made : textRun text = .ok run) :
    run = makeRun [makeText text] := by
  unfold textRun at made
  split at made
  · cases made
    rfl
  · cases made

theorem makeNumberSetting_eq_ok {name : Name} {n : Int} (made : makeNumberSetting name n = .ok node) :
    ∃ text, node = makeSetting name text ∧ Number.readNumeral 10 text = .ok n := by
  obtain ⟨text, written, rfl⟩ := map_eq_ok made
  exact ⟨text, rfl, (Number.writeNumeral_eq_ok written).2⟩

/-- Besides its text a paragraph holds what is in its properties. -/
theorem named_textParagraph {name : Name} (other : name ∉ [paragraph, Word.run, runText])
    (properties : List Node) (line : String) :
    (makeParagraph (properties ++ [makeRun [makeText line]])).named name =
      (Node.elementsOf properties).filter (·.isNamed name) := by
  have unnamed (own : Name) (member : own ∈ [paragraph, Word.run, runText]) {node : Node}
      (named : node.isNamed own) : ¬ node.isNamed name := fun also =>
    other (Node.eq_of_isNamed also named ▸ member)
  have run : (makeRun [makeText line]).elements = [makeRun [makeText line], makeText line] := by
    rw [makeRun, Node.plain, Node.elements, Node.elementsOf_singleton,
      (holdsLine_makeText line).elements]
  rw [Node.named, makeParagraph, Node.plain, Node.elements]
  refine (List.filter_cons_of_neg (unnamed paragraph (by simp) rfl)).trans ?_
  rw [Node.elementsOf_append, List.filter_append, Node.elementsOf_singleton, run,
    List.filter_cons_of_neg (unnamed Word.run (by simp) rfl),
    List.filter_cons_of_neg (unnamed runText (by simp) rfl)]
  exact List.append_nil _

/-- A paragraph reads like the block that it was made of. -/
theorem isParagraphOf_of_toParagraph (made : block.toParagraph = .ok node) :
    block.IsParagraphOf node := by
  obtain ⟨properties, isPlaced, made⟩ := bind_eq_ok made
  obtain ⟨run, isRun, made⟩ := bind_eq_ok made
  cases made
  obtain rfl := textRun_eq_ok isRun
  have each := mapError_eq_ok isPlaced
  have found {name : Name} (other : name ∉ [paragraph, Word.run, runText]) :=
    named_textParagraph other properties.toList block.text
  cases isPlace : block.place with
  | none =>
    rw [isPlace] at each
    cases each
    have nothing {name : Name} (other : name ∉ [paragraph, Word.run, runText]) :
        (makeParagraph (none.toList ++ [makeRun [makeText block.text]])).named name = [] :=
      found other
    constructor
    · rfl
    · exact (pieces_of_none rfl).trans (pieces_textRun block.text)
    · rw [readNumber?, nothing (by decide), isPlace]
      rfl
    · rw [readNumber?, nothing (by decide), isPlace]
      rfl
    · rw [nothing (by decide), isPlace]
      simp
    · rw [nothing (by decide), isPlace]
      simp
  | some place =>
    rw [isPlace, Option.mapM_some] at each
    obtain ⟨item, isItem, made⟩ := map_eq_ok each
    cases made
    obtain ⟨level, isLevel, isItem⟩ := bind_eq_ok isItem
    obtain ⟨list, isList, isItem⟩ := bind_eq_ok isItem
    cases isItem
    obtain ⟨levelText, rfl, levelRead⟩ := makeNumberSetting_eq_ok isLevel
    obtain ⟨listText, rfl, listRead⟩ := makeNumberSetting_eq_ok isList
    constructor
    · rfl
    · rw [pieces_of_none rfl, makeParagraph]
      exact (pieces_append _ _).trans (pieces_textRun block.text)
    · rw [readNumber?, found (by decide), isPlace]
      exact congrArg Except.toOption listRead
    · rw [readNumber?, found (by decide), isPlace]
      exact congrArg Except.toOption levelRead
    · rw [found (by decide), isPlace]
      exact iff_of_true (List.cons_ne_nil _ _) rfl
    · rw [found (by decide), isPlace]
      exact iff_of_true (List.cons_ne_nil _ _) rfl

/-! ### All blocks -/

/-- Each block has a paragraph that reads like it. -/
theorem forall₂_of_toParagraphs (made : toParagraphs blocks = .ok rendered) :
    List.Forall₂ IsParagraphOf blocks rendered :=
  (forall₂_of_mapM made).imp fun _ _ => isParagraphOf_of_toParagraph

/-- Runs of some lines with breaks between them read like the lines. -/
theorem pieces_intersperse : (lines : List String) →
    Word.pieces ((lines.map fun line => makeRun [makeText line]).intersperse
      (makeRun [makeBreak])) = linePieces lines
  | [] => rfl
  | [line] => pieces_textRun line
  | first :: next :: rest => by
    have onward := pieces_intersperse (next :: rest)
    rw [List.map_cons] at onward
    rw [List.map_cons, List.map_cons, List.intersperse_cons_cons, linePieces_cons_cons, pieces_cons,
      pieces_textRun, pieces_cons, pieces_breakRun, onward]
    rfl

/-- The runs of some blocks read like the texts of the blocks, with a break between any two. There
is a run for each text and each break. -/
theorem pieces_of_toRuns (made : toRuns blocks = .ok rendered) :
    rendered.length = 2 * blocks.length - 1 ∧
      Word.pieces rendered = linePieces (blocks.map (·.text)) := by
  obtain ⟨runs, isRuns, made⟩ := bind_eq_ok made
  cases made
  have each : List.Forall₂ (fun run block => run = makeRun [makeText block.text]) runs blocks :=
    ((forall₂_of_mapM isRuns).imp fun _ _ => textRun_eq_ok).flip
  have isMade : runs = (blocks.map (·.text)).map fun line => makeRun [makeText line] := by
    rw [List.map_map]
    exact List.forall₂_eq_eq_eq ▸ List.forall₂_map_right_iff.mpr each
  rw [isMade]
  refine ⟨?_, pieces_intersperse _⟩
  rw [List.length_intersperse, List.length_map, List.length_map]

end Block

end TemplateFill
