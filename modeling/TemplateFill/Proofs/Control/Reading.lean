import TemplateFill.Proofs.Control.Placing
import TemplateFill.Proofs.Word.Piece

/-!
# Reading what was written

A plain text that was written into a control is read back from its content area: the lines with a
break between any two, or the value in one piece. Everything else in the control stays.
-/

namespace TemplateFill.Control

open Xml Word

variable {node content run piece x : Node} {nodes : List Node} {context : Context}
  {line first : String} {lines rest : List String}

/-! ### Text pieces -/

/-- A text piece without children holds a line after it was written into. -/
theorem holdsLine_write (isText : piece.isNamed runText) (childless : piece.children = [])
    (line : String) : HoldsLine line ((piece.setText line).setAttribute spaceMode "preserve") := by
  obtain ⟨lineage, traits, children, rfl⟩ := Node.exists_of_isNamed isText
  exact ⟨rfl, rfl, childless, Node.lookup_set _ _ _⟩

/-! ### Runs -/

theorem readPiece?_eq_none_iff : readPiece? node = none ↔ isPiece node = false := by
  unfold readPiece? isPiece
  cases node.isNamed runText <;> cases node.isNamed lineBreak <;> cases node.isNamed carriageReturn <;>
    simp

theorem furtherLines_of_writable (writable : ∀ line ∈ lines, isWritableText line) :
    (furtherLines lines).1 = lines.flatMap fun line => [makeBreak, makeText line] := by
  induction lines with
  | nil => rfl
  | cons line rest ih =>
    obtain ⟨here, onward⟩ := List.forall_mem_cons.mp writable
    rw [furtherLines, if_pos here, List.flatMap_cons, ← ih onward]
    rfl

theorem filterMap_isPiece (nodes : List Node) :
    (nodes.filter isPiece).filterMap readPiece? = nodes.filterMap readPiece? := by
  rw [List.filterMap_filter]
  refine List.filterMap_congr fun x _ => ?_
  split
  · rfl
  · rename_i other
    exact (readPiece?_eq_none_iff.mpr (Bool.eq_false_iff.mpr other)).symm

/-- All there is to be read in a bare run after lines were written into it is the lines. -/
theorem exists_pieces (bare : IsBareRun run) (legible : IsLegible run)
    (writable : ∀ line ∈ first :: rest, isWritableText line) :
    ∃ front, HoldsLine first front ∧
      (Node.elementsOf [(writeRun (first :: rest) run).1]).filter isPiece =
        front :: rest.flatMap fun line => [makeBreak, makeText line] := by
  obtain ⟨here, onward⟩ := List.forall_mem_cons.mp writable
  have nothing {nodes : List Node} (among : nodes ⊆ run.children) :
      (Node.elementsOf (nodes.filter (!isPiece ·))).filter isPiece = [] :=
    List.filter_eq_nil_iff.mpr fun x inside =>
      Bool.eq_false_iff.mp (legible.isPiece_of_filter bare among x inside)
  have further : (Node.elementsOf (furtherLines rest).1).filter isPiece =
      rest.flatMap fun line => [makeBreak, makeText line] := by
    rw [furtherLines_of_writable onward]
    clear onward writable
    induction rest with
    | nil => rfl
    | cons line others ih =>
      rw [List.flatMap_cons, Node.elementsOf_append, List.filter_append, ih, Node.elementsOf,
        Node.elementsOf_singleton, (holdsLine_makeText line).elements]
      rfl
  have alone {front : Node} (holds : HoldsLine first front) :
      (Node.elementsOf (front :: (furtherLines rest).1)).filter isPiece =
        front :: rest.flatMap fun line => [makeBreak, makeText line] := by
    rw [Node.elementsOf, holds.elements, List.filter_append, further,
      List.filter_cons_of_pos (isPiece_of_isNamed holds.isText)]
    rfl
  obtain ⟨lineage, traits, children, rfl⟩ := Node.exists_of_isNamed bare.1
  have whole (content : List Node) :
      (Node.elementsOf [Node.element run lineage traits content]).filter isPiece =
        (Node.elementsOf content).filter isPiece := by
    rw [Node.elementsOf_singleton]
    rfl
  have content : (writeRun (first :: rest) (.element run lineage traits children)).1 =
      .element run lineage traits (writeContent first rest children).1 := rfl
  rw [content, whole]
  rcases exists_textPiece_or_not children with ⟨before, piece, after, rfl, none, isText⟩ | none
  · have texts := legible.texts_of_mem (x := piece) (by simp [Node.children]) isText
    have holds := holdsLine_write isText texts first
    refine ⟨_, holds, ?_⟩
    rw [writeContent_of_piece none isText, writeInto, if_pos here]
    simp only
    rw [Node.elementsOf_append, Node.elementsOf_append, List.filter_append, List.filter_append,
      alone holds, nothing (List.subset_append_left _ _),
      nothing (List.subset_append_of_subset_right _ (List.subset_cons_self _ _)), List.nil_append,
      List.append_nil]
  · refine ⟨_, holdsLine_makeText first, ?_⟩
    rw [writeContent_of_none none, if_pos here]
    simp only
    rw [Node.elementsOf_append, List.filter_append, alone (holdsLine_makeText first),
      List.filter_eq_nil_iff.mpr fun x inside => Bool.eq_false_iff.mp
        (legible.isPiece_of_filter bare (List.Subset.refl children) x inside), List.nil_append]

theorem filterMap_pieces {front : Node} (holds : HoldsLine first front) (rest : List String) :
    (front :: rest.flatMap fun line => [makeBreak, makeText line]).filterMap readPiece? =
      linePieces (first :: rest) := by
  rw [linePieces_cons, List.filterMap_cons_some holds.readPiece?, List.filterMap_flatMap]
  rfl

/-! ### The whole area -/

/-- What an area reads like after lines were written into its place. -/
theorem IsPlace.reads {area : Node} (place : IsPlace content context run) (nonempty : lines ≠ [])
    (writable : ∀ line ∈ lines, isWritableText line)
    (isPlugged : [area] = context.plug [(writeRun lines run).1]) :
    area.named Word.run = [(writeRun lines run).1] ∧ pieces [area] = linePieces lines ∧
      ∀ x ∈ area.elements, x.isNamed runText → x.attribute? spaceMode = some "preserve" := by
  obtain ⟨first, rest, rfl⟩ := List.exists_cons_of_ne_nil nonempty
  obtain ⟨front, holds, isRead⟩ := exists_pieces place.bare place.legible writable
  have all : (Node.elementsOf [area]).filter isPiece =
      front :: rest.flatMap fun line => [makeBreak, makeText line] := by
    rw [isPlugged, place.noPiece.filter_elementsOf_plug, isRead]
  refine ⟨?_, ?_, fun x inside isText => ?_⟩
  · rw [Node.named, ← Node.elementsOf_singleton, isPlugged, place.noRun.filter_elementsOf_plug,
      Node.elementsOf_singleton]
    exact (place.bare.writeRun _).named
  · rw [pieces, ← filterMap_isPiece, all, filterMap_pieces holds]
  · have found : x ∈ (Node.elementsOf [area]).filter isPiece := by
      rw [Node.elementsOf_singleton]
      exact List.mem_filter.mpr ⟨inside, isPiece_of_isNamed isText⟩
    rw [all] at found
    rcases List.mem_cons.mp found with rfl | further
    · exact holds.keepsBlanks
    · obtain ⟨line, -, member⟩ := List.mem_flatMap.mp further
      rcases List.mem_pair.mp member with rfl | rfl
      · cases isText
      · rfl

/-- A text reads as its lines do, with a line feed between any two. -/
theorem join_segments (replaceLineBreaks : Bool) (value : String) :
    String.join ((linePieces (segments replaceLineBreaks value)).map Piece.reading) =
      if replaceLineBreaks then String.ofList (Text.normalizeBreaks value.toList) else value := by
  rw [join_linePieces, segments]
  split
  · exact Text.intercalate_splitLines value
  · exact String.intercalate_singleton

theorem not_isNamed_mark {properties : Node}
    (isProperties : properties? (unmark node) = some properties) :
    ∀ x ∈ properties.children, x.isNamed placeholderMark = false := by
  rw [properties?_unmark] at isProperties
  obtain ⟨original, -, rfl⟩ := Option.map_eq_some_iff.mp isProperties
  rw [children_unmarked]
  intro x member
  simpa using (List.mem_filter.mp member).2

/-- What is written into a control is read back from it: the content area has a single run, which
reads as the value, in one piece or with a break between its lines. All blanks are kept, nothing
says any longer that there is a placeholder, and everything else of the control is as it was. -/
theorem fillPlainText_reads {value : String} (isContent : content? node = some content)
    (few : (content.named paragraph).length ≤ 1) (place : HasPlace content)
    (legible : IsLegible content) (writable : isWritableText value) (tag : String)
    (replaceLineBreaks : Bool) :
    ∃ area written, fillPlainText tag replaceLineBreaks value node =
        (unmark (node.replaceChild controlContent area), .done) ∧
      area.named Word.run = [written] ∧
      pieces [area] = (if replaceLineBreaks then linePieces (Text.splitLines value)
        else [.text value]) ∧
      reading [area] =
        (if replaceLineBreaks then String.ofList (Text.normalizeBreaks value.toList) else value) ∧
      (∀ x ∈ area.elements, x.isNamed runText → x.attribute? spaceMode = some "preserve") ∧
      (∀ x ∈ area.elements, isPlaceholderStyle x = false) ∧
      (∀ properties, properties? (unmark (node.replaceChild controlContent area)) = some properties →
        ∀ x ∈ properties.children, x.isNamed placeholderMark = false) ∧
      IsPlaced content area written := by
  have isArea : content.isNamed controlContent := List.find?_some isContent
  obtain ⟨context, run, isPlace⟩ := exists_isPlace isArea legible few place
  let lines := segments replaceLineBreaks value
  obtain ⟨area, fault, isWritten, isPlugged, placed⟩ := isPlace.written lines
  have noFault : faultOf lines = none := (faultOf_segments replaceLineBreaks value).mpr writable
  have isFilled : fillPlainText tag replaceLineBreaks value node =
      (unmark (node.replaceChild controlContent (area.prune isPlaceholderStyle)), .done) := by
    rw [fillPlainText_eq, isContent]
    simp only
    rw [if_neg (Nat.not_lt.mpr few), isWritten, writeArea_fault isWritten, noFault]
    rfl
  obtain ⟨onlyRun, isRead, keepsBlanks⟩ :=
    isPlace.reads (segments_ne_nil _ _) (faultOf_eq_none_iff.mp noFault) isPlugged
  have unstyled : ∀ x ∈ (area.prune isPlaceholderStyle).elements, isPlaceholderStyle x = false := by
    have noStyle : isPlaceholderStyle area = false :=
      isPlaceholderStyle_of_isNamed (isNamed_writeArea isArea isWritten) (by decide)
    have left := Node.not_of_mem_elementsOf_pruneAll isPlaceholderStyle_withChildren [area]
    rwa [Node.pruneAll_singleton noStyle, Node.elementsOf_singleton] at left
  refine ⟨area.prune isPlaceholderStyle, (writeRun lines run).1, isFilled, onlyRun, ?_, ?_,
    keepsBlanks, unstyled, fun properties => not_isNamed_mark, placed⟩
  · rw [isRead, segments]
    split
    · rfl
    · rfl
  · rw [reading, isRead]
    exact join_segments replaceLineBreaks value

/-- The content area of a control whose text is a link, with a placeholder in it. -/
def linkedArea : Node :=
  .plain controlContent [] [
    .plain paragraph [] [
      .plain hyperlink [] [
        .plain Word.run [] [
          .plain runProperties [] [.plain runStyle [(Word.value, placeholderStyle)] []],
          makeBreak, makeText "click", makeText "here"]],
      .plain Word.run [] [makeText "or there"]]]

def linked : Node :=
  .plain control [] [
    .plain controlProperties [] [
      .plain controlTag [(Word.value, "a")] [], .plain plainTextMark [] [],
      .plain placeholderMark [] []],
    linkedArea]

/-- Two lines are read back from the link. -/
theorem fillPlainText_reads_linked :
    ∃ area, fillPlainText "a" true "x\r\ny" linked =
        (unmark (linked.replaceChild controlContent area), .done) ∧
      pieces [area] = [.text "x", .lineBreak, .text "y"] := by
  have legible : IsLegible linkedArea :=
    ⟨by decide +kernel, by decide +kernel, by decide +kernel⟩
  have isContent : content? linked = some linkedArea := rfl
  have few : (linkedArea.named paragraph).length ≤ 1 := by decide +kernel
  have place : HasPlace linkedArea := .inl (by decide +kernel)
  have writable : isWritableText "x\r\ny" := by decide +kernel
  obtain ⟨area, written, isFilled, -, isRead, -⟩ :=
    fillPlainText_reads isContent few place legible writable "a" true
  have lines : Text.splitLines "x\r\ny" = ["x", "y"] := by decide +kernel
  rw [if_pos rfl, lines] at isRead
  exact ⟨area, isFilled, isRead⟩

end TemplateFill.Control
