import TemplateFill.Proofs.Walk.Writing
import TemplateFill.Proofs.Xml.Overwriting

/-!
# Runs that are written over

Lines that are written into a run over others leave nothing of them, unless they cannot be written
themselves. The style of placeholder text, which is removed after writing, might as well be removed
before.
-/

namespace TemplateFill.Control

open Xml

/-- Lines that leave nothing of others when they are written over them. -/
def Supersedes (lines others : List String) : Prop :=
  lines ≠ [] ∧ (others = lines ∨ ∀ line ∈ lines, isWritableText line)

theorem Supersedes.writable {first later : String} {rest others : List String}
    (h : Supersedes (later :: others) (first :: rest)) (isWritten : isWritableText first) :
    isWritableText later := by
  rcases h.2 with same | all
  · rwa [← (List.cons.inj same).1]
  · exact all later List.mem_cons_self

variable {node piece run : Node} {nodes before after : List Node} {first later : String}
  {rest others lines : List String}

/-! ### Text pieces -/

theorem setText_makeText (first later : String) :
    ((Word.makeText first).setText later).setAttribute Word.spaceMode "preserve" =
      Word.makeText later := rfl

theorem isPiece_furtherLines (lines : List String) :
    ∀ x ∈ (furtherLines lines).1, isPiece x := by
  induction lines with
  | nil => exact List.forall_mem_nil _
  | cons line rest ih =>
    rw [furtherLines]
    split
    · exact List.forall_mem_cons.mpr ⟨rfl, List.forall_mem_cons.mpr ⟨rfl, ih⟩⟩
    · exact List.forall_mem_cons.mpr ⟨rfl, List.forall_mem_nil _⟩

/-- Writing into a text piece changes the piece, and puts other pieces behind it. -/
theorem exists_writeInto (piece : Node) (first : String) (rest : List String) :
    ∃ written pieces, (writeInto piece first rest).1 = written :: pieces ∧
      written.name? = piece.name? ∧ (∀ x ∈ pieces, isPiece x) ∧
      ∀ later others, Supersedes (later :: others) (first :: rest) →
        writeInto written later others = writeInto piece later others := by
  have unnamed (text : String) : (piece.setText text).name? = piece.name? :=
    Node.name?_setText piece text
  unfold writeInto
  split
  · rename_i isWritten
    refine ⟨_, _, rfl, (Node.name?_setAttribute _ _ _).trans (unnamed first), isPiece_furtherLines rest,
      fun later others h => ?_⟩
    rw [if_pos (h.writable isWritten), if_pos (h.writable isWritten), Node.setText_setAttribute,
      Node.setText_setText, Node.setAttribute_setAttribute]
  · refine ⟨_, _, rfl, unnamed "", List.forall_mem_nil _, fun later others h => ?_⟩
    rw [Node.setText_setText, Node.setText_setText]

/-! ### The content of a run -/

theorem exists_textPiece_or_not (nodes : List Node) :
    (∃ before piece after, nodes = before ++ piece :: after ∧
      (∀ x ∈ before, x.isNamed Word.runText = false) ∧ piece.isNamed Word.runText) ∨
    ∀ x ∈ nodes, x.isNamed Word.runText = false := by
  induction nodes with
  | nil => exact .inr (List.forall_mem_nil _)
  | cons node rest ih =>
    cases isText : node.isNamed Word.runText with
    | true => exact .inl ⟨[], node, rest, rfl, List.forall_mem_nil _, isText⟩
    | false =>
      rcases ih with ⟨before, piece, after, rfl, none, isPiece⟩ | none
      · exact .inl ⟨node :: before, piece, after, rfl, List.forall_mem_cons.mpr ⟨isText, none⟩,
          isPiece⟩
      · exact .inr (List.forall_mem_cons.mpr ⟨isText, none⟩)

theorem writeContent_of_piece (none : ∀ x ∈ before, x.isNamed Word.runText = false)
    (isText : piece.isNamed Word.runText) (after : List Node) (first : String)
    (rest : List String) :
    writeContent first rest (before ++ piece :: after) =
      (before.filter (!isPiece ·) ++ (writeInto piece first rest).1 ++
        after.filter (!isPiece ·), (writeInto piece first rest).2) := by
  have unmet : ∀ x ∈ before, (!x.isNamed Word.runText) = true := fun x member => by
    rw [none x member]
    rfl
  have stops : (!piece.isNamed Word.runText) = false := by
    rw [isText]
    rfl
  rw [writeContent, List.span_eq_takeWhile_dropWhile, List.takeWhile_append_of_pos unmet,
    List.dropWhile_append_of_pos unmet, List.takeWhile_cons_of_neg (by simp [isText]),
    List.dropWhile_cons_of_neg (by simp [isText]), List.append_nil]

theorem writeContent_of_none (none : ∀ x ∈ nodes, x.isNamed Word.runText = false)
    (first : String) (rest : List String) :
    writeContent first rest nodes =
      if isWritableText first then
        (nodes.filter (!isPiece ·) ++ Word.makeText first :: (furtherLines rest).1,
          (furtherLines rest).2)
      else (nodes.filter (!isPiece ·), some .unwritableText) := by
  have unmet : ∀ x ∈ nodes, (!x.isNamed Word.runText) = true := fun x member => by
    rw [none x member]
    rfl
  have all : nodes.takeWhile (fun node => !node.isNamed Word.runText) = nodes :=
    List.takeWhile_eq_self_iff.mpr unmet
  have nothing : nodes.dropWhile (fun node => !node.isNamed Word.runText) = [] :=
    List.dropWhile_eq_nil_iff.mpr unmet
  rw [writeContent, List.span_eq_takeWhile_dropWhile, all, nothing]

/-! ### Faults -/

/-- The fault of writing some lines, whatever they are written into. -/
def faultOf (lines : List String) : Option Fault :=
  if lines.all isWritableText then none else some .unwritableText

theorem faultOf_cons (line : String) (rest : List String) :
    faultOf (line :: rest) = if isWritableText line then faultOf rest else some .unwritableText := by
  rw [faultOf, List.all_cons, faultOf]
  cases isWritableText line with
  | true => rfl
  | false => rfl

theorem faultOf_eq_none_iff : faultOf lines = none ↔ ∀ line ∈ lines, isWritableText line := by
  rw [faultOf, ← List.all_eq_true]
  cases lines.all isWritableText with
  | true => exact iff_of_true rfl rfl
  | false => exact iff_of_false nofun nofun

theorem furtherLines_fault (lines : List String) : (furtherLines lines).2 = faultOf lines := by
  induction lines with
  | nil => rfl
  | cons line rest ih =>
    rw [furtherLines, faultOf_cons]
    split
    · exact ih
    · rfl

theorem writeInto_fault (piece : Node) (first : String) (rest : List String) :
    (writeInto piece first rest).2 = faultOf (first :: rest) := by
  rw [writeInto, faultOf_cons]
  split
  · exact furtherLines_fault rest
  · rfl

theorem writeRun_fault (lines : List String) (run : Node) :
    (writeRun lines run).2 = faultOf lines := by
  cases lines with
  | nil => rfl
  | cons first rest =>
    change (writeContent first rest run.children).2 = faultOf (first :: rest)
    rcases exists_textPiece_or_not run.children with ⟨before, piece, after, whole, none, isText⟩ | none
    · rw [whole, writeContent_of_piece none isText]
      exact writeInto_fault piece first rest
    · rw [writeContent_of_none none, faultOf_cons]
      split
      · exact furtherLines_fault rest
      · rfl

/-! ### Writing over -/

theorem filter_pieces {pieces : List Node} (all : ∀ x ∈ pieces, isPiece x) :
    pieces.filter (!isPiece ·) = [] := by
  refine List.filter_eq_nil_iff.mpr fun x member => ?_
  rw [all x member]
  exact Bool.false_ne_true

theorem filter_filter_pieces (nodes : List Node) :
    (nodes.filter (!isPiece ·)).filter (!isPiece ·) = nodes.filter (!isPiece ·) := by
  simp only [List.filter_filter, Bool.and_self]

/-- Of two texts that are written into the content of a run the last one stays. -/
theorem writeContent_writeContent (h : Supersedes (later :: others) (first :: rest))
    (content : List Node) :
    writeContent later others (writeContent first rest content).1 =
      writeContent later others content := by
  have still {nodes : List Node} (none : ∀ x ∈ nodes, x.isNamed Word.runText = false) :
      ∀ x ∈ nodes.filter (!isPiece ·), x.isNamed Word.runText = false :=
    fun x member => none x (List.mem_filter.mp member).1
  rcases exists_textPiece_or_not content with ⟨before, piece, after, rfl, none, isText⟩ | none
  · obtain ⟨written, pieces, isWritten, named, all, again⟩ := exists_writeInto piece first rest
    have alsoText : written.isNamed Word.runText := by rwa [Node.isNamed, named]
    rw [writeContent_of_piece none isText, writeContent_of_piece none isText, isWritten,
      List.append_assoc, List.cons_append, writeContent_of_piece (still none) alsoText,
      filter_filter_pieces, List.filter_append, filter_pieces all, filter_filter_pieces,
      again later others h, List.nil_append]
  · rw [writeContent_of_none none first]
    split
    · -- the first text has made a piece, and the last one is written into it
      rename_i isWritten
      have fresh : (Word.makeText first).isNamed Word.runText := rfl
      have laterIsWritten := h.writable isWritten
      rw [writeContent_of_piece (still none) fresh, writeContent_of_none none later,
        if_pos laterIsWritten, filter_filter_pieces, filter_pieces (isPiece_furtherLines rest),
        writeInto, if_pos laterIsWritten, setText_makeText, List.append_nil]
    · rw [writeContent_of_none (still none), writeContent_of_none none, filter_filter_pieces]

/-! ### The run -/

theorem isNamed_writeRun (lines : List String) (run : Node) (name : Name) :
    (writeRun lines run).1.isNamed name = run.isNamed name := by
  cases lines with
  | nil => rfl
  | cons first rest => rw [Node.isNamed, writeRun, Node.name?_withChildren, Node.isNamed]

theorem writeRun_writeRun (h : Supersedes lines others) (isRun : run.isNamed Word.run) :
    writeRun lines (writeRun others run).1 = writeRun lines run := by
  obtain ⟨lineage, traits, children, rfl⟩ := Node.exists_of_isNamed isRun
  cases lines with
  | nil => exact absurd rfl h.1
  | cons later others' =>
    cases others with
    | nil => rfl
    | cons first rest =>
      simp only [writeRun, Node.children, Node.withChildren, writeContent_writeContent h]

/-! ### The placeholder style

The style of placeholder text is removed after a text was written. It might as well be removed
before, if no text stands behind an element in a text piece.
-/

/-- Nodes without those that give the style of placeholder text. -/
def unstyled (nodes : List Node) : List Node :=
  (nodes.filter (!isPlaceholderStyle ·)).map (Node.prune isPlaceholderStyle)

theorem isPlaceholderStyle_withChildren (node : Node) (children : List Node) :
    isPlaceholderStyle (node.withChildren children) = isPlaceholderStyle node := by
  cases node <;> rfl

theorem isPlaceholderStyle_of_isNamed {name : Name} (named : node.isNamed name)
    (other : name ≠ Word.runStyle) : isPlaceholderStyle node = false := by
  rw [isPlaceholderStyle, Node.isNamed_apart other node named]
  rfl

theorem isPiece_of_isNamed (isText : node.isNamed Word.runText) : isPiece node := by
  rw [isPiece, isText]
  rfl

theorem isPlaceholderStyle_of_isPiece (h : isPiece node) : isPlaceholderStyle node = false := by
  rcases Bool.or_eq_true_iff.mp h with h | h
  · rcases Bool.or_eq_true_iff.mp h with h | h
    · exact isPlaceholderStyle_of_isNamed h (by decide)
    · exact isPlaceholderStyle_of_isNamed h (by decide)
  · exact isPlaceholderStyle_of_isNamed h (by decide)

@[simp] theorem isPiece_prune (p : Node → Bool) (node : Node) : isPiece (node.prune p) = isPiece node := by
  simp only [isPiece, Node.isNamed, Node.name?_prune]

theorem unstyled_append (first second : List Node) :
    unstyled (first ++ second) = unstyled first ++ unstyled second := by
  rw [unstyled, List.filter_append, List.map_append]
  rfl

theorem unstyled_cons_of_piece (h : isPiece node) (rest : List Node) :
    unstyled (node :: rest) = node.prune isPlaceholderStyle :: unstyled rest := by
  rw [unstyled, List.filter_cons_of_pos (by rw [isPlaceholderStyle_of_isPiece h]; rfl)]
  rfl

theorem unstyled_filter (nodes : List Node) :
    unstyled (nodes.filter (!isPiece ·)) = (unstyled nodes).filter (!isPiece ·) := by
  rw [unstyled, unstyled, List.filter_filter, List.filter_map, List.filter_filter]
  congr 1
  refine List.filter_congr fun x _ => ?_
  rw [Function.comp_apply, isPiece_prune, Bool.and_comm]

theorem not_isNamed_unstyled {name : Name} (none : ∀ x ∈ nodes, x.isNamed name = false) :
    ∀ x ∈ unstyled nodes, x.isNamed name = false := by
  intro x member
  obtain ⟨y, among, rfl⟩ := List.mem_map.mp member
  rw [Node.isNamed, Node.name?_prune]
  exact none y (List.mem_filter.mp among).1

theorem prune_makeText (line : String) :
    (Word.makeText line).prune isPlaceholderStyle = Word.makeText line := rfl

theorem unstyled_furtherLines (lines : List String) :
    unstyled (furtherLines lines).1 = (furtherLines lines).1 := by
  induction lines with
  | nil => rfl
  | cons line rest ih =>
    rw [furtherLines]
    split
    · simp only
      rw [unstyled_cons_of_piece rfl, unstyled_cons_of_piece rfl, prune_makeText, ih]
      rfl
    · rfl

theorem prune_setText (p : Node → Bool) (node : Node) (text : String) :
    (node.setText text).prune p = (node.prune p).setText text := by
  cases node <;> rfl

theorem prune_setAttribute (p : Node → Bool) (node : Node) (name : Name) (value : String) :
    (node.setAttribute name value).prune p = (node.prune p).setAttribute name value := by
  cases node <;> rfl

theorem writeInto_prune (isText : piece.isNamed Word.runText) (first : String) (rest : List String) :
    writeInto (piece.prune isPlaceholderStyle) first rest =
      (unstyled (writeInto piece first rest).1, (writeInto piece first rest).2) := by
  have named (text : String) : (piece.setText text).isNamed Word.runText := by
    rwa [Node.isNamed, Node.name?_setText]
  rw [writeInto, writeInto]
  split
  · have alsoNamed : ((piece.setText first).setAttribute Word.spaceMode "preserve").isNamed
        Word.runText := by
      rw [Node.isNamed, Node.name?_setAttribute]
      exact named first
    rw [unstyled_cons_of_piece (isPiece_of_isNamed alsoNamed), unstyled_furtherLines,
      prune_setAttribute, prune_setText]
  · rw [unstyled_cons_of_piece (isPiece_of_isNamed (named "")), prune_setText]
    rfl

/-- Removing the style and writing into the content of a run may be done in either order. -/
theorem writeContent_unstyled (first : String) (rest : List String) (nodes : List Node) :
    writeContent first rest (unstyled nodes) =
      (unstyled (writeContent first rest nodes).1, (writeContent first rest nodes).2) := by
  rcases exists_textPiece_or_not nodes with ⟨before, piece, after, rfl, none, isText⟩ | none
  · have alsoText : (piece.prune isPlaceholderStyle).isNamed Word.runText := by
      rwa [Node.isNamed, Node.name?_prune]
    rw [unstyled_append, unstyled_cons_of_piece (isPiece_of_isNamed isText),
      writeContent_of_piece (not_isNamed_unstyled none) alsoText, writeContent_of_piece none isText,
      writeInto_prune isText, unstyled_append, unstyled_append, unstyled_filter,
      unstyled_filter]
  · rw [writeContent_of_none (not_isNamed_unstyled none), writeContent_of_none none]
    split
    · rw [unstyled_append, unstyled_cons_of_piece rfl, prune_makeText, unstyled_furtherLines,
        unstyled_filter]
    · rw [unstyled_filter]

theorem writeRun_prune (isRun : run.isNamed Word.run) (lines : List String) :
    writeRun lines (run.prune isPlaceholderStyle) =
      ((writeRun lines run).1.prune isPlaceholderStyle, (writeRun lines run).2) := by
  obtain ⟨lineage, traits, children, rfl⟩ := Node.exists_of_isNamed isRun
  cases lines with
  | nil => rfl
  | cons first rest =>
    have content := writeContent_unstyled first rest children
    simp only [unstyled] at content
    simp only [writeRun, Node.prune_eq_withChildren, Node.children, Node.withChildren, content]

end TemplateFill.Control
