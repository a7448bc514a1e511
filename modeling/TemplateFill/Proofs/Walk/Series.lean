import TemplateFill.Proofs.Walk.Lists
import TemplateFill.Proofs.Walk.Placement
import TemplateFill.Proofs.Walk.Settlement

/-!
# A series of populations

A document is populated again and again, each time with the definitions that all times before
have left. Its ids stay distinct, no definition is lost or moved, and a list paragraph that was
made once leads to its definition ever after.
-/

namespace TemplateFill.Walk

open Xml
open TemplateFill.Numbering (WellNumbered Extends Resolves)

/-! ### One population -/

theorem ListItem.LeadsTo.extends {old new : Option Node} {item : ListItem}
    (leads : item.LeadsTo old) (wellNumbered : WellNumbered old) (h : Extends old new) :
    item.LeadsTo new := by
  obtain ⟨id, ids, defines⟩ := leads
  exact ⟨id, ids, defines.extends wellNumbered.isElement h⟩

/-- From well numbered definitions of a document to well numbered ones with nothing lost, where
some list paragraphs lead to definitions. -/
def Keeps (lists kept : ListStore) (items : List ListItem) : Prop :=
  ∀ numbering, lists = .document numbering → WellNumbered numbering →
    ∃ after, kept = .document after ∧ WellNumbered after ∧ Extends numbering after ∧
      ∀ item ∈ items, item.LeadsTo after

theorem Keeps.refl (lists : ListStore) : Keeps lists lists [] := by
  rintro numbering rfl wellNumbered
  exact ⟨numbering, rfl, wellNumbered, .refl _, fun _ member => nomatch member⟩

theorem Keeps.trans {first second third : ListStore} {items others : List ListItem}
    (h : Keeps first second items) (onward : Keeps second third others) :
    Keeps first third (items ++ others) := by
  intro numbering isDocument wellNumbered
  obtain ⟨middle, isMiddle, wellMiddle, extended, lead⟩ := h numbering isDocument wellNumbered
  obtain ⟨after, isAfter, wellAfter, extendedOn, leadOn⟩ := onward middle isMiddle wellMiddle
  refine ⟨after, isAfter, wellAfter, extended.trans extendedOn, fun item member => ?_⟩
  rcases List.mem_append.mp member with earlier | later
  · exact (lead item earlier).extends wellMiddle extendedOn
  · exact leadOn item later

theorem Keeps.subset {lists kept : ListStore} {items others : List ListItem}
    (h : Keeps lists kept items) (fewer : others ⊆ items) : Keeps lists kept others := by
  intro numbering isDocument wellNumbered
  obtain ⟨after, isAfter, wellAfter, extended, lead⟩ := h numbering isDocument wellNumbered
  exact ⟨after, isAfter, wellAfter, extended, fun item member => lead item (fewer member)⟩

/-- A control that is written into keeps the definitions, and its items lead to some. -/
theorem keeps_of_written {options : Options} {place : Place} {scope : Datum}
    {lists kept : ListStore} {node left : Node} {problem : Option Problem}
    {items : List ListItem}
    (h : course options place scope lists node = .written left problem kept items) :
    Keeps lists kept items := by
  rcases (course_holds h).2 with ⟨rfl, rfl⟩ | ⟨value, content, -, rfl, result⟩
  · exact .refl _
  · rintro numbering rfl wellNumbered
    obtain ⟨after, isAfter, wellAfter, extended, lead⟩ :=
      rendering_document place.inParagraph value wellNumbered
    refine ⟨after, isAfter, wellAfter, extended, ?_⟩
    cases made : (rendering place.inParagraph value (.document numbering)).1 with
    | error cause =>
      rw [made] at result
      rw [result.2]
      exact fun _ member => nomatch member
    | ok rendered =>
      rw [made] at result
      rw [result.2.2]
      exact lead rendered made

mutual

theorem Settles.keeps {options : Options} {place : Place} {scope : Datum}
    {lists kept : ListStore} {node : Node} {account : Account} {left : List Node} :
    Settles options place scope lists node account left kept →
      Keeps lists kept (account.reached.flatMap Account.items)
  | .refused _ => .refl _
  | .broken h => (keeps_of_written h).subset (List.nil_subset _)
  | .filled h => (keeps_of_written h).trans (.refl _)
  | .removed _ _ => .refl _
  | .shown _ below => below.keeps
  | .repeated _ below => below.keeps

/-- Whatever is settled, the definitions are kept and all list paragraphs lead to some. -/
theorem SettlesAll.keeps {options : Options} {place : Place} {scope : Datum}
    {lists kept : ListStore} {nodes left : List Node} {accounts : List Account} :
    SettlesAll options place scope lists nodes accounts left kept →
      Keeps lists kept (itemsOf accounts)
  | .nil => .refl _
  | .control _ first onward => by
    have here := first.keeps
    have others := onward.keeps
    rw [itemsOf, reachedOf, List.flatMap_append]
    exact here.trans others
  | .element _ first onward => by
    have here := first.keeps
    have others := onward.keeps
    rw [itemsOf_append]
    exact here.trans others
  | .leaf _ onward => onward.keeps

theorem SettlesItems.keeps {options : Options} {place : Place} {tag : String} {item : Node}
    {index : Nat} {lists kept : ListStore} {values : List Datum} {entries : List Entry}
    {copies : List Node} {fault : Option Fault} :
    SettlesItems options place tag item index lists values entries copies fault kept →
      Keeps lists kept ((entriesReached entries).flatMap Account.items)
  | .done => .refl _
  | .copied first onward => by
    have here := first.keeps
    have others := onward.keeps
    rw [entriesReached, List.flatMap_append]
    exact here.trans others
  | .rejected _ _ onward => onward.keeps
  | .stopped _ _ => .refl _

end

/-! ### Many populations -/

/-- One population of a document: the body that it finds, the data and the options. -/
structure Step where
  options : Options
  data : Datum
  body : Node

def Step.bodyAfter (step : Step) (lists : ListStore) : Node :=
  (populate step.options step.body step.data (.start lists)).1

def Step.listsAfter (step : Step) (lists : ListStore) : ListStore :=
  (populate step.options step.body step.data (.start lists)).2.lists

def listsAfter (steps : List Step) (lists : ListStore) : ListStore :=
  steps.foldl (fun lists step => step.listsAfter lists) lists

/-- The list paragraphs that a population makes, if it begins with these definitions. -/
def Step.Makes (step : Step) (lists : ListStore) (item : ListItem) : Prop :=
  ∃ accounts left kept,
    SettlesAll step.options (.ofRoot step.body) step.data lists step.body.children accounts left
      kept ∧ item ∈ itemsOf accounts

theorem keeps_step (step : Step) (lists : ListStore) {items : List ListItem}
    (made : ∀ item ∈ items, step.Makes lists item) :
    Keeps lists (step.listsAfter lists) items := by
  obtain ⟨accounts, only, -⟩ := settledOn_populate step.options step.body step.data lists
  have settled := (only _ _ _).mpr ⟨rfl, rfl, rfl⟩
  rw [Step.listsAfter, (incremental_populate _ _ _).lists_eq, effect_populate]
  refine settled.keeps.subset fun item member => ?_
  obtain ⟨others, left, kept, isSettled, among⟩ := made item member
  obtain ⟨rfl, -, -⟩ := (only others left kept).mp isSettled
  exact among

theorem mem_bodyAfter (step : Step) (lists : ListStore) {item : ListItem}
    (made : step.Makes lists item) : item.paragraph ∈ (step.bodyAfter lists).elements := by
  obtain ⟨accounts, only, -⟩ := settledOn_populate step.options step.body step.data lists
  obtain ⟨others, left, kept, isSettled, among⟩ := made
  obtain ⟨-, rfl, -⟩ := (only others left kept).mp isSettled
  have inside := isSettled.standIn item among
  have isElement : step.body.name?.isSome := by
    cases body : step.body with
    | element => rfl
    | _ =>
      rw [body] at isSettled
      obtain ⟨rfl, -⟩ := settlesAll_nil.mp isSettled
      cases among
  rw [Step.bodyAfter, (incremental_populate _ _ _).value_eq, effect_populate]
  exact Node.mem_elements_withChildren isElement inside

theorem keeps_listsAfter (steps : List Step) (lists : ListStore) :
    Keeps lists (listsAfter steps lists) [] := by
  induction steps generalizing lists with
  | nil => exact .refl lists
  | cons step rest ih =>
    have first := keeps_step step lists (List.forall_mem_nil _)
    exact first.trans (ih (step.listsAfter lists))

/-- However often a document is populated, its ids stay distinct, every population leaves the
definitions that it finds as they are and in their order, and a list paragraph that one of them
makes names exactly one instance of exactly one definition, which has the format of the
outermost list that the paragraph comes from, then and after all later ones. What a rich text becomes
has no other paragraphs that name an instance. -/
theorem series_keeps_lists (numbering : Option Node) (wellNumbered : WellNumbered numbering)
    (earlier later : List Step) (step : Step) :
    ∃ before after final,
      listsAfter earlier (.document numbering) = .document before ∧
      step.listsAfter (.document before) = .document after ∧
      listsAfter later (.document after) = .document final ∧
      WellNumbered before ∧ WellNumbered after ∧ WellNumbered final ∧
      Extends numbering before ∧ Extends before after ∧ Extends after final ∧
      (∀ item, step.Makes (.document before) item →
        item.paragraph ∈ (step.bodyAfter (.document before)).elements ∧
        ∃ id, numberIds item.paragraph = [id] ∧ Resolves final id item.format) ∧
      ∀ found inParagraph value rendered,
        (rendering inParagraph value (.document found)).1 = .ok rendered →
        ∀ node ∈ rendered, numberIds node ≠ [] →
          ∃ item ∈ itemsMade inParagraph value rendered, item.paragraph = node := by
  obtain ⟨before, isBefore, wellBefore, extended, -⟩ :=
    keeps_listsAfter earlier (.document numbering) numbering rfl wellNumbered
  obtain ⟨after, isAfter, wellAfter, extendedAfter, -⟩ :=
    keeps_step step (.document before) (List.forall_mem_nil _) before rfl wellBefore
  obtain ⟨final, isFinal, wellFinal, extendedFinal, -⟩ :=
    keeps_listsAfter later (.document after) after rfl wellAfter
  refine ⟨before, after, final, isBefore, isAfter, isFinal, wellBefore, wellAfter, wellFinal,
    extended, extendedAfter, extendedFinal, fun item made => ?_,
    fun _ _ _ _ made _ member belongs => exists_item_of_numberIds made member belongs⟩
  obtain ⟨after', isAfter', -, -, lead⟩ :=
    keeps_step step (.document before) (fun _ member => List.mem_singleton.mp member ▸ made) before
      rfl wellBefore
  obtain rfl : after' = after := by simpa [isAfter] using isAfter'.symm
  obtain ⟨id, ids, defines⟩ :=
    (lead item (List.mem_singleton_self item)).extends wellAfter extendedFinal
  exact ⟨mem_bodyAfter step _ made, id, ids, defines.resolves wellFinal⟩

def sampleDefinitions : Node :=
  .plain Word.numbering []
    [.plain Word.abstractList [(Word.abstractListId, "0")] [],
      .plain Word.listInstance [(Word.listInstanceId, "1")]
        [Word.makeSetting Word.abstractListId "0"]]

def sampleControl : Node :=
  .element Word.control [0] (.ofList [])
    [.plain Word.controlProperties [] [.plain Word.controlTag [(Word.value, "a")] []],
      .plain Word.controlContent [] []]

/-- A population that puts a list with one item into that control. -/
def sampleStep : Step :=
  ⟨.standard, .object [(.text "a", .text "<ul><li>x</li></ul>")],
    .plain Word.body [] [sampleControl]⟩

theorem sampleDefinitions_wellNumbered : WellNumbered (some sampleDefinitions) :=
  ⟨fun _ isRoot => by cases isRoot; rfl, by decide, by decide⟩

/-- Whether a control takes a list paragraph. -/
def Course.hasItems : Course → Bool
  | .written _ none _ (_ :: _) => true
  | _ => false

theorem sampleStep_makes :
    ∃ item, sampleStep.Makes (.document (some sampleDefinitions)) item := by
  have filled : (course .standard (.ofRoot sampleStep.body) sampleStep.data
      (.document (some sampleDefinitions)) sampleControl).hasItems := by
    decide +kernel
  unfold Course.hasItems at filled
  split at filled
  · rename_i left kept item others h
    exact ⟨item, _, _, _, .control rfl (.filled h) .nil,
      by simp [itemsOf, reachedOf, Account.reached, Account.items]⟩
  · cases filled

/-- A document with a list gets another one, twice. -/
theorem series_keeps_sample_lists :
    WellNumbered (some sampleDefinitions) ∧
    (∃ item, sampleStep.Makes (.document (some sampleDefinitions)) item) ∧
    ∃ before after final,
      listsAfter [] (.document (some sampleDefinitions)) = .document before ∧
      sampleStep.listsAfter (.document before) = .document after ∧
      listsAfter [sampleStep] (.document after) = .document final ∧
      WellNumbered before ∧ WellNumbered after ∧ WellNumbered final ∧
      Extends (some sampleDefinitions) before ∧ Extends before after ∧ Extends after final ∧
      (∀ item, sampleStep.Makes (.document before) item →
        item.paragraph ∈ (sampleStep.bodyAfter (.document before)).elements ∧
        ∃ id, numberIds item.paragraph = [id] ∧ Resolves final id item.format) ∧
      ∀ found inParagraph value rendered,
        (rendering inParagraph value (.document found)).1 = .ok rendered →
        ∀ node ∈ rendered, numberIds node ≠ [] →
          ∃ item ∈ itemsMade inParagraph value rendered, item.paragraph = node :=
  ⟨sampleDefinitions_wellNumbered, sampleStep_makes,
    series_keeps_lists (some sampleDefinitions) sampleDefinitions_wellNumbered [] [sampleStep]
      sampleStep⟩

end TemplateFill.Walk
