import TemplateFill.Proofs.Walk.Exclusion
import TemplateFill.Proofs.Word.Highlight
import TemplateFill.Report

/-!
# Reports dress a body

A report puts bookmarks around controls and highlights them. All that it removes is the colors of
runs, and all that it puts in nobody refers to. As long as no color holds a control, every control
stays, and what stands around it stays around it.
-/

namespace TemplateFill.Report

open Xml
open TemplateFill.Walk

abbrev color : Name := .word "color"

abbrev bold : Name := .word "b"

def dressing : Rules :=
  ⟨fun node => node.isNamed color ∧ tags [node] = [], (· = bold), fun _ node => tags [node] = []⟩

/-- Nodes at a place are dressed as others. -/
abbrev Dressed : Place → List Node → List Node → Prop := Edited dressing

variable {place : Place} {nodes left : List Node} {node x : Node} {name own : Name}

/-! ### What dressing keeps -/

theorem Dressed.tags_eq (dressed : Dressed place nodes left) : tags left = tags nodes := by
  induction dressed with
  | nil => rfl
  | drop dropped _ ih =>
    rw [tags_cons _ _, dropped.2]
    exact ih
  | keep _ _ _ ihBelow ih =>
    rw [tags_cons (.element _ _ _ _) _, tags_element, ihBelow, ih, ← tags_element, ← tags_cons]
  | leaf _ _ ih => rw [tags_cons _ _, ih, ← tags_cons]
  | add added _ ih =>
    rw [tags_cons _ _, added]
    exact ih

theorem tags_eq_nil_of_mem (member : node ∈ nodes) (untagged : tags nodes = []) :
    tags [node] = [] := by
  have fewer := sublist_tags_of_mem member
  rwa [untagged, List.sublist_nil] at fewer

theorem isClosed_dressing : dressing.IsClosed := by
  constructor
  · rintro place node x dressed ⟨isColor, untagged⟩
    rcases Edited.drops_or_name? dressed with dropped | same
    · exact dropped
    · have sameTags := Dressed.tags_eq dressed
      rw [untagged] at sameTags
      exact ⟨Node.isNamed_iff.mpr (same ▸ Node.isNamed_iff.mp isColor), sameTags.symm⟩
  · intro place node left dressed untagged x member
    exact tags_eq_nil_of_mem member ((Dressed.tags_eq dressed).trans untagged)

theorem Dressed.again {further : List Node} (first : Dressed place nodes left)
    (second : Dressed place left further) : Dressed place nodes further :=
  first.trans isClosed_dressing second

/-! ### Colors -/

/-- No color among or below some nodes is referred to, nor is anything in it. -/
def ColorsBare (nodes : List Node) : Prop :=
  ∀ x ∈ Node.elementsOf nodes, x.isNamed color → tags [x] = []

theorem ColorsBare.subset (bare : ColorsBare nodes) (fewer : left ⊆ nodes) : ColorsBare left := by
  intro x inside
  obtain ⟨node, among, within⟩ := Node.mem_elementsOf_iff.mp inside
  exact bare x (Node.mem_elementsOf (fewer among) within)

theorem ColorsBare.mem_elements (bare : ColorsBare nodes) (member : node ∈ Node.elementsOf nodes) :
    ColorsBare [node] := by
  intro x inside
  rw [Node.elementsOf_singleton] at inside
  exact bare x (Node.mem_elementsOf_trans member inside)

theorem ColorsBare.mem (bare : ColorsBare nodes) (member : node ∈ nodes) : ColorsBare [node] :=
  bare.subset (List.cons_subset.mpr ⟨member, List.nil_subset _⟩)

theorem ColorsBare.content (bare : ColorsBare [node]) : ColorsBare node.children := by
  intro x inside
  exact bare x (Node.mem_elementsOf (List.mem_singleton_self _) (Node.mem_elements_of_children inside))

/-- Colors without controls are bare where only controls are told apart. -/
theorem colorsBare_of_excludes (distinct : Distinct (tags nodes)) (excludes : Excludes color nodes) :
    ColorsBare nodes := by
  intro x inside isColor
  rw [List.eq_nil_iff_forall_not_mem]
  intro tag member
  have isControl := (distinct.controls tag (tags_subset_of_mem inside member)).1
  rw [tags_eq (Node.isElement_of_isNamed isColor)] at member
  rcases List.mem_append.mp member with own | below
  · rw [List.mem_singleton.mp (List.mem_filter.mp own).1, key, Node.isNamed_iff.mp isColor] at isControl
    exact absurd (Option.some.inj isControl) (by decide)
  · obtain ⟨y, isIn, rfl⟩ := List.mem_map.mp (List.mem_filter.mp below).1
    exact excludes x inside isColor y isIn (Node.isNamed_iff.mpr isControl)

theorem colorsBare_of_untagged (untagged : tags nodes = []) : ColorsBare nodes := by
  intro x inside _
  have fewer := tags_subset_of_mem inside
  rw [untagged] at fewer
  exact List.subset_nil.mp fewer

theorem Dressed.colorsBare (dressed : Dressed place nodes left) :
    ColorsBare nodes → ColorsBare left := by
  induction dressed with
  | nil => exact id
  | drop _ _ ih => exact fun bare => ih (bare.subset (List.subset_cons_self _ _))
  | @keep place name lineage before after children inside rest left same below _ ihBelow ih =>
    intro bare x member isColor
    have onward := ih (bare.subset (List.subset_cons_self _ _))
    have here : ColorsBare [.element name lineage before children] := bare.mem List.mem_cons_self
    rcases List.mem_append.mp member with inElement | later
    · rcases Node.mem_elements_element.mp inElement with rfl | within
      · have kept : Dressed place [.element name lineage before children]
            [.element name lineage after inside] := .keep same below .nil
        rw [kept.tags_eq]
        exact here _ (List.mem_append_left _ List.mem_cons_self) isColor
      · exact ihBelow here.content x within isColor
    · exact onward x later isColor
  | leaf isLeaf _ ih =>
    intro bare x member isColor
    have onward := ih (bare.subset (List.subset_cons_self _ _))
    rw [Node.elementsOf, Node.elements_of_leaf isLeaf] at member
    exact onward x member isColor
  | add added _ ih =>
    intro bare x member isColor
    rcases List.mem_append.mp member with here | later
    · exact colorsBare_of_untagged added x (List.mem_append_left _ here) isColor
    · exact ih bare x later isColor

/-! ### Highlighting

To highlight is less than to dress: whatever it puts in is made of a few elements.
-/

def paintNames : List Name := [Word.runProperties, bold, color]

def painting : Rules :=
  { paring paintNames with drops := dressing.drops, changes := dressing.changes }

abbrev Painted : Place → List Node → List Node → Prop := Edited painting

theorem isMadeOf_untagged {written : List Name} (made : IsMadeOf written node)
    (never : Word.control ∉ written) : tags [node] = [] := by
  rw [tags, List.filter_eq_nil_iff]
  intro tag member
  obtain ⟨x, inside, rfl⟩ := List.mem_map.mp member
  rw [Node.elementsOf_singleton] at inside
  obtain ⟨unnamed, name, isWritten, named⟩ := made x inside
  have other : name ≠ Word.control := fun same => never (same ▸ isWritten)
  simp [isTag, key, unnamed, Node.isNamed_iff.mp named, other]

namespace Painted

theorem pared (painted : Painted place nodes left) : Pared paintNames place nodes left := by
  have changed {name : Name} (isBold : name = bold) : name ∈ paintNames := by
    rw [isBold]
    decide
  exact Edited.mono painted ⟨fun _ => trivial, changed, id⟩

theorem dressed (painted : Painted place nodes left) : Dressed place nodes left :=
  Edited.mono painted ⟨id, id, fun added => isMadeOf_untagged added.isMadeOf (by decide)⟩

theorem isClosed : painting.IsClosed where
  drops painted dropped := isClosed_dressing.drops (dressed painted) dropped
  adds painted taken := Pared.takes_of_takes (pared painted) taken

theorem again {further : List Node} (first : Painted place nodes left)
    (second : Painted place left further) : Painted place nodes further :=
  first.trans isClosed second

end Painted

theorem takes_paint (made : IsMadeOf paintNames node) (place : Place) :
    place.Takes paintNames node := made.takes (by decide) place

theorem painted_insertBefore (made : IsMadeOf paintNames x) (nodes : List Node) :
    Painted place nodes (Word.insertBefore name x nodes) := by
  induction nodes with
  | nil => exact .nil
  | cons item rest ih =>
    rw [Word.insertBefore]
    split
    · exact .add (takes_paint made place) (.reflAll _)
    · exact (Edited.refl item place).append ih

theorem painted_insertProperty (base : String) (named : node.isNamed own)
    (made : IsMadeOf paintNames x) : Painted place [node] [Word.insertProperty base x node] := by
  unfold Word.insertProperty
  split
  · exact .withChildren named (painted_insertBefore made _)
  · refine .withChildren named (Edited.putBehind (.reflAll _) fun added member => ?_)
    rw [List.mem_singleton.mp member]
    exact takes_paint made _

theorem painted_embolden (named : node.isNamed own) :
    Painted place [node] [Word.embolden node] := by
  unfold Word.embolden
  split
  · rename_i old isBold
    refine .replaceChild named isBold ?_
    obtain ⟨lineage, traits, children, rfl⟩ := Node.exists_of_isNamed (List.find?_some isBold)
    exact .keep (.inr rfl) (.reflAll _) .nil
  · have made : IsMadeOf paintNames (.plain bold [] []) :=
      isMadeOf_plain.mpr ⟨by decide, List.forall_mem_nil _⟩
    exact painted_insertProperty _ named made

theorem painted_recolor (hue : String) (named : node.isNamed own) (bare : ColorsBare [node]) :
    Painted place [node] [Word.recolor hue node] := by
  unfold Word.recolor
  have removed : Painted place [node] [node.removeChildren (·.isNamed color)] := by
    refine .withChildren named (.filter fun child member isColor => ?_)
    have named : child.isNamed color := by simpa using isColor
    exact ⟨named, bare.content child (Node.mem_elementsOf member
      (Node.mem_elements_self (Node.isElement_of_isNamed named))) named⟩
  have still : (node.removeChildren (·.isNamed color)).isNamed own := by
    rwa [Node.isNamed, Node.removeChildren, Node.name?_withChildren]
  have made : IsMadeOf paintNames (Word.makeSetting color hue) :=
    isMadeOf_plain.mpr ⟨by decide, List.forall_mem_nil _⟩
  exact removed.again (painted_insertProperty _ still made)

theorem isNamed_embolden (other : Name) : (Word.embolden node).isNamed other = node.isNamed other := by
  unfold Word.embolden Word.insertProperty
  split
  · rw [Node.isNamed, Node.replaceChild, Node.name?_withChildren, Node.isNamed]
  · split
    · rw [Node.isNamed, Node.name?_withChildren, Node.isNamed]
    · rw [Node.isNamed, Node.append, Node.name?_withChildren, Node.isNamed]

theorem painted_properties (hue : String) (named : node.isNamed own) (bare : ColorsBare [node]) :
    Painted place [node] [Word.recolor hue (Word.embolden node)] := by
  have emboldened : Painted place [node] [Word.embolden node] := painted_embolden named
  refine emboldened.again (painted_recolor hue (by rwa [isNamed_embolden]) ?_)
  exact emboldened.dressed.colorsBare bare

/-- Changing the properties of a run highlights it if that highlights the properties. -/
theorem painted_updateProperties {f : Node → Node} (named : node.isNamed own)
    (each : ∀ properties, properties.isNamed Word.runProperties → ColorsBare [properties] →
      ∀ place, Painted place [properties] [f properties]) (bare : ColorsBare [node]) :
    Painted place [node] [Word.updateProperties f node] := by
  unfold Word.updateProperties
  split
  · rename_i properties isProperties
    have isChild : properties ∈ node.children := List.mem_of_find?_eq_some isProperties
    have isRunProperties : properties.isNamed Word.runProperties := List.find?_some isProperties
    exact .replaceChild named isProperties
      (each properties isRunProperties (bare.content.mem isChild) _)
  · have empty : IsMadeOf paintNames (.plain Word.runProperties [] []) :=
      isMadeOf_plain.mpr ⟨by decide, List.forall_mem_nil _⟩
    have fresh : Painted (place.enter own) [.plain Word.runProperties [] []]
        [f (.plain Word.runProperties [] [])] :=
      each _ rfl (colorsBare_of_untagged rfl) _
    have taken := Painted.isClosed.adds fresh (takes_paint empty _) _ (List.mem_singleton_self _)
    exact .withChildren named (.add taken (.reflAll _))

theorem painted_highlightRun (hue : String) (isRun : node.isNamed Word.run) (bare : ColorsBare [node]) :
    Painted place [node] [Word.highlightRun hue node] :=
  painted_updateProperties isRun (fun _ isProperties bare _ => painted_properties hue isProperties bare)
    bare

/-- A run around edited content is highlighted. -/
theorem painted_highlightRun_withChildren (hue : String) (isRun : node.isNamed Word.run)
    (bare : ColorsBare [node]) (inside : Painted (place.enter Word.run) node.children left) :
    Painted place [node] [Word.highlightRun hue (node.withChildren left)] := by
  have around : Painted place [node] [node.withChildren left] := .withChildren isRun inside
  have still : (node.withChildren left).isNamed Word.run := by
    rwa [Node.isNamed, Node.name?_withChildren]
  exact around.again (painted_highlightRun hue still (around.dressed.colorsBare bare))

theorem painted_lightAll (hue : String) (bare : ColorsBare nodes)
    (each : ∀ node ∈ nodes, ∀ part goesOn, ColorsBare [node] →
      Painted place [node] [(Word.light hue part node goesOn).1]) :
    ∀ part goesOn, Painted place nodes (Word.lightAll hue part nodes goesOn).1 := by
  induction nodes with
  | nil => exact fun _ _ => .nil
  | cons node rest ih =>
    intro part goesOn
    have onward := ih (bare.subset (List.subset_cons_self _ _))
      fun x member => each x (List.mem_cons_of_mem _ member)
    have here := each node List.mem_cons_self part goesOn (bare.mem List.mem_cons_self)
    by_cases passes : part ≠ .properties ∨ node.isNamed color = false
    · rw [Word.lightAll_cons passes]
      exact here.append (onward _ _)
    · rw [not_or, not_not, Bool.not_eq_false] at passes
      rw [passes.1, Word.lightAll_color passes.2]
      exact (Edited.refl node place).append (onward _ _)

theorem painted_light (hue : String) (node : Node) : ∀ part goesOn place, ColorsBare [node] →
    Painted place [node] [(Word.light hue part node goesOn).1] := by
  induction node using Node.induction with
  | element name lineage traits children ih =>
    intro part goesOn place bare
    have below (place : Place) (part : Word.Part) (goesOn : Bool) :
        Painted place children (Word.lightAll hue part children goesOn).1 :=
      painted_lightAll hue bare.content
        (fun child member part goesOn => ih child member part goesOn place) part goesOn
    cases goesOn with
    | false => exact .refl _ place
    | true =>
      rw [Word.light]
      split
      · rename_i isRun
        subst isRun
        split
        · exact painted_highlightRun hue rfl bare
        · have isRun : (Node.element Word.run lineage traits children).isNamed Word.run := rfl
          exact painted_highlightRun_withChildren hue isRun bare (below _ _ _)
      · exact .keep (.inl rfl) (below _ _ _) .nil
  | aside content tail => exact fun _ _ place _ => .refl _ place

theorem painted_highlight (hue : String) (node : Node) (bare : ColorsBare [node]) (place : Place) :
    Painted place [node] [Word.highlight hue node] := painted_light hue node _ _ place bare

end TemplateFill.Report
