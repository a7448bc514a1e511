import TemplateFill.Block.Rendering
import TemplateFill.Proofs.Number.Numeral
import TemplateFill.Proofs.Traversal

/-!
# Blocks that can be written

A page becomes runs if a document can hold the text of each of its blocks. For it to become
paragraphs, the numbers of the places in lists must have few enough digits as well.
-/

namespace TemplateFill

open Xml

/-- A list is made without a fault if and only if each of its items is. -/
theorem mapM_returns_iff {α β ε : Type} {f : α → Except ε β} {xs : List α} :
    (∃ ys, xs.mapM f = .ok ys) ↔ ∀ x ∈ xs, ∃ y, f x = .ok y := by
  constructor
  · rintro ⟨ys, made⟩ x member
    obtain ⟨y, -, isMade⟩ := exists_right_of_mem (forall₂_of_mapM made) member
    exact ⟨y, isMade⟩
  · exact exists_mapM_eq_ok

theorem Number.writeNumeral_returns_iff (n : Int) :
    (∃ text, writeNumeral n = .ok text) ↔ isOverLimit n = false := by
  rw [writeNumeral]
  cases isOverLimit n <;> simp

theorem Number.isOverLimit_of_digit {n : Int} (digit : n.natAbs < 10) : isOverLimit n = false := by
  have room : tenTo 1 ≤ tenTo digitLimit := tenTo_mono (by decide)
  exact decide_eq_false (Nat.not_le.mpr (Nat.lt_of_lt_of_le digit room))

theorem Word.makeNumberSetting_returns_iff (name : Name) (n : Int) :
    (∃ node, makeNumberSetting name n = .ok node) ↔ Number.isOverLimit n = false := by
  rw [← Number.writeNumeral_returns_iff, makeNumberSetting]
  cases Number.writeNumeral n <;> simp [Except.map]

namespace Block

/-- The numbers of a place have few enough digits. -/
structure Place.IsWritable (place : Place) : Prop where
  level : Number.isOverLimit place.level = false
  list : Number.isOverLimit place.list = false

/-- A block can be written. Inside a paragraph its place does not matter. -/
structure IsWritable (inParagraph : Bool) (block : Block) : Prop where
  text : isWritableText block.text
  place : inParagraph = false → ∀ place ∈ block.place, place.IsWritable

theorem textRun_returns_iff (text : String) :
    (∃ run, textRun text = .ok run) ↔ isWritableText text := by
  rw [textRun]
  cases isWritableText text <;> simp

theorem itemProperties_returns_iff (place : Place) :
    (∃ properties, itemProperties place = .ok properties) ↔ place.IsWritable := by
  constructor
  · rintro ⟨properties, made⟩
    obtain ⟨level, isLevel, made⟩ := bind_eq_ok made
    obtain ⟨list, isList, -⟩ := bind_eq_ok made
    exact ⟨(Word.makeNumberSetting_returns_iff _ _).mp ⟨level, isLevel⟩,
      (Word.makeNumberSetting_returns_iff _ _).mp ⟨list, isList⟩⟩
  · intro writable
    obtain ⟨level, isLevel⟩ :=
      (Word.makeNumberSetting_returns_iff Word.listLevel _).mpr writable.level
    obtain ⟨list, isList⟩ :=
      (Word.makeNumberSetting_returns_iff Word.listInstanceId _).mpr writable.list
    rw [itemProperties, isLevel, isList]
    exact ⟨_, rfl⟩

theorem toParagraph_returns_iff (block : Block) :
    (∃ paragraph, block.toParagraph = .ok paragraph) ↔ block.IsWritable false := by
  constructor
  · rintro ⟨paragraph, made⟩
    obtain ⟨properties, isPlaced, made⟩ := bind_eq_ok made
    obtain ⟨run, isRun, -⟩ := bind_eq_ok made
    refine ⟨(textRun_returns_iff _).mp ⟨run, isRun⟩, ?_⟩
    intro _ place isPlace
    have each := mapError_eq_ok isPlaced
    rw [isPlace, Option.mapM_some] at each
    obtain ⟨node, isNode, -⟩ := map_eq_ok each
    exact (itemProperties_returns_iff place).mp ⟨node, isNode⟩
  · rintro ⟨text, place⟩
    obtain ⟨run, isRun⟩ := (textRun_returns_iff _).mpr text
    rw [toParagraph]
    cases isPlace : block.place with
    | none =>
      rw [isRun]
      exact ⟨_, rfl⟩
    | some here =>
      obtain ⟨node, isNode⟩ := (itemProperties_returns_iff here).mpr (place rfl here isPlace)
      rw [Option.mapM_some, isNode, isRun]
      exact ⟨_, rfl⟩

/-- Some blocks become nodes if and only if each of them can be written. -/
theorem render_returns_iff (inParagraph : Bool) (blocks : List Block) :
    (∃ nodes, render inParagraph blocks = .ok nodes) ↔
      ∀ block ∈ blocks, block.IsWritable inParagraph := by
  cases inParagraph with
  | false =>
    have each : (∃ paragraphs, blocks.mapM toParagraph = .ok paragraphs) ↔
        ∀ block ∈ blocks, ∃ paragraph, block.toParagraph = .ok paragraph := mapM_returns_iff
    simp only [toParagraph_returns_iff] at each
    exact each
  | true =>
    have plain (block : Block) : block.IsWritable true ↔ ∃ run, textRun block.text = .ok run := by
      rw [textRun_returns_iff]
      exact ⟨fun writable => writable.text, fun text => ⟨text, nofun⟩⟩
    simp only [plain, ← mapM_returns_iff]
    constructor
    · rintro ⟨nodes, made⟩
      obtain ⟨runs, isRuns, -⟩ := bind_eq_ok made
      exact ⟨runs, isRuns⟩
    · rintro ⟨runs, isRuns⟩
      rw [render, if_pos rfl, toRuns, isRuns]
      exact ⟨_, rfl⟩

end Block

end TemplateFill
