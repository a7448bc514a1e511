import TemplateFill.Proofs.Block.Conversion
import TemplateFill.Proofs.Numbering.Freshness

/-!
# Pages in succession

Page texts that are converted one after the other share an allocator. Each one gets lists of its
own, with the ids that follow those of all texts before it, and its items belong to these lists
only. What the allocator has gained in the end are the lists of all texts, one text after the
other.
-/

namespace TemplateFill

namespace Numbering.Allocator

variable {before middle after : Allocator} {definitions moreDefinitions : List AbstractList}
  {lists moreLists : List ListInstance}

/-! ### What an allocator gains -/

/-- Between two states an allocator has handed out some definitions and instances: they stand
behind all earlier ones, their ids go on from its counters, and each instance refers to the
definition at its place. -/
structure Gains (before : Allocator) (definitions : List AbstractList)
    (lists : List ListInstance) (after : Allocator) : Prop where
  abstracts : after.abstracts = before.abstracts ++ definitions
  instances : after.instances = before.instances ++ lists
  nextAbstract : after.nextAbstract = before.nextAbstract + definitions.length
  nextInstance : after.nextInstance = before.nextInstance + lists.length
  abstractIds : definitions.map (·.id) = idsFrom before.nextAbstract definitions.length
  instanceIds : lists.map (·.id) = idsFrom before.nextInstance lists.length
  references : lists.map (·.abstractId) = definitions.map (·.id)

theorem idsFrom_add (first : Int) (m n : Nat) :
    idsFrom first (m + n) = idsFrom first m ++ idsFrom (first + m) n := by
  induction m generalizing first with
  | zero => simp [idsFrom]
  | succ m ih =>
    have onward : first + 1 + (m : Int) = first + (m + 1 : Nat) := by omega
    rw [Nat.succ_add, idsFrom, idsFrom, ih, onward, List.cons_append]

theorem pairwise_idsFrom (first : Int) (n : Nat) : (idsFrom first n).Pairwise (· < ·) := by
  induction n generalizing first with
  | zero => exact .nil
  | succ n ih =>
    refine .cons (fun id member => ?_) (ih (first + 1))
    have above := le_of_mem_idsFrom member
    omega

theorem Gains.refl (allocator : Allocator) : Gains allocator [] [] allocator := by
  constructor <;> simp [idsFrom]

theorem Gains.trans (first : Gains before definitions lists middle)
    (second : Gains middle moreDefinitions moreLists after) :
    Gains before (definitions ++ moreDefinitions) (lists ++ moreLists) after where
  abstracts := by rw [second.abstracts, first.abstracts, List.append_assoc]
  instances := by rw [second.instances, first.instances, List.append_assoc]
  nextAbstract := by
    rw [second.nextAbstract, first.nextAbstract, List.length_append]
    omega
  nextInstance := by
    rw [second.nextInstance, first.nextInstance, List.length_append]
    omega
  abstractIds := by
    rw [List.map_append, first.abstractIds, second.abstractIds, first.nextAbstract,
      List.length_append, idsFrom_add]
  instanceIds := by
    rw [List.map_append, first.instanceIds, second.instanceIds, first.nextInstance,
      List.length_append, idsFrom_add]
  references := by rw [List.map_append, List.map_append, first.references, second.references]

theorem length_definitionsFrom (first : Int) (formats : List Format) :
    (definitionsFrom first formats).length = formats.length := by
  induction formats generalizing first with
  | nil => rfl
  | cons format rest ih => rw [definitionsFrom, List.length_cons, ih, List.length_cons]

theorem length_instancesFrom (firstInstance firstAbstract : Int) (formats : List Format) :
    (instancesFrom firstInstance firstAbstract formats).length = formats.length := by
  induction formats generalizing firstInstance firstAbstract with
  | nil => rfl
  | cons format rest ih => rw [instancesFrom, List.length_cons, ih, List.length_cons]

theorem references_instancesFrom (firstInstance firstAbstract : Int) (formats : List Format) :
    (instancesFrom firstInstance firstAbstract formats).map (·.abstractId) =
      idsFrom firstAbstract formats.length := by
  induction formats generalizing firstInstance firstAbstract with
  | nil => rfl
  | cons format rest ih => rw [instancesFrom, List.map_cons, ih, List.length_cons, idsFrom]

theorem formats_definitionsFrom (first : Int) (formats : List Format) :
    (definitionsFrom first formats).map (·.format) = formats := by
  induction formats generalizing first with
  | nil => rfl
  | cons format rest ih => rw [definitionsFrom, List.map_cons, ih]

/-- Serving some formats gains what they get. -/
theorem gains_allocateAll (formats : List Format) (allocator : Allocator) :
    Gains allocator (definitionsFrom allocator.nextAbstract formats)
      (instancesFrom allocator.nextInstance allocator.nextAbstract formats)
      (allocator.allocateAll formats) where
  abstracts := rfl
  instances := rfl
  nextAbstract := by rw [length_definitionsFrom]; rfl
  nextInstance := by rw [length_instancesFrom]; rfl
  abstractIds := by rw [length_definitionsFrom, ids_definitionsFrom]
  instanceIds := by rw [length_instancesFrom, ids_instancesFrom]
  references := by rw [references_instancesFrom, ids_definitionsFrom]

/-- The ids that are handed out ascend. -/
theorem Gains.ascending (h : Gains before definitions lists after) :
    (definitions.map (·.id)).Pairwise (· < ·) ∧ (lists.map (·.id)).Pairwise (· < ·) := by
  rw [h.abstractIds, h.instanceIds]
  exact ⟨pairwise_idsFrom _ _, pairwise_idsFrom _ _⟩

/-- An instance has the id of exactly one definition. -/
theorem Gains.exists_definition (h : Gains before definitions lists after)
    {list : ListInstance} (member : list ∈ lists) :
    ∃ definition, definitions.filter (·.id == list.abstractId) = [definition] := by
  have refers : list.abstractId ∈ definitions.map (·.id) :=
    h.references ▸ List.mem_map_of_mem member
  obtain ⟨definition, among, isId⟩ := List.mem_map.mp refers
  have distinct : (definitions.filterMap fun definition => some definition.id).Nodup := by
    rw [List.filterMap_eq_map', h.abstractIds]
    exact nodup_idsFrom _ _
  exact ⟨definition, by simpa using filter_eq_singleton distinct among (congrArg some isId)⟩

end Numbering.Allocator

namespace Block

open TemplateFill.Numbering (Allocator)
open TemplateFill.Numbering.Allocator (Gains idsFrom)

/-! ### One page -/

variable {html : String} {before after allocator : Allocator} {result : Result}

/-- The lists of a page text are one for each of its outermost lists. -/
theorem convertPage_eq (html : String) (allocator : Allocator) :
    convertPage html allocator =
      ((Html.readForest html).map fun forest =>
        (⟨(spoken forest).map (Piece.block allocator),
            Allocator.definitionsFrom allocator.nextAbstract (outermostListsOf forest),
            Allocator.instancesFrom allocator.nextInstance allocator.nextAbstract
              (outermostListsOf forest)⟩,
          allocator.allocateAll (outermostListsOf forest))).mapError Fault.ofScan := by
  rw [convertPage, convert_eq]
  cases Html.readForest html with
  | error fault => rfl
  | ok forest =>
    have gains := Allocator.gains_allocateAll (outermostListsOf forest) allocator
    change Except.ok (Result.mk _ ((allocator.allocateAll _).abstracts.drop _)
      ((allocator.allocateAll _).instances.drop _), _) = _
    rw [gains.abstracts, gains.instances, List.drop_left, List.drop_left]
    rfl

/-- What a page text leads to: its result has all lists that the allocator gains, which are one for
each outermost list of the page. An instance refers to exactly one definition of the result, and
an item belongs to one of its instances. -/
structure Result.IsOwn (html : String) (before : Allocator) (result : Result)
    (after : Allocator) : Prop where
  gains : Gains before result.abstracts result.instances after
  formats : ∃ forest, Html.readForest html = .ok forest ∧
    result.abstracts.map (·.format) = outermostListsOf forest
  definitions : ∀ list ∈ result.instances,
    ∃ definition, result.abstracts.filter (·.id == list.abstractId) = [definition]
  items : ∀ block ∈ result.blocks, ∀ place, block.place = some place →
    ∃ list ∈ result.instances, list.id = place.list

theorem isOwn_of_convertPage (converted : convertPage html before = .ok (result, after)) :
    result.IsOwn html before after := by
  rw [convertPage_eq] at converted
  obtain ⟨forest, isForest, made⟩ := map_eq_ok (mapError_eq_ok converted)
  cases made
  have gains := Allocator.gains_allocateAll (outermostListsOf forest) before
  refine ⟨gains, ⟨forest, isForest, Allocator.formats_definitionsFrom _ _⟩,
    fun list member => gains.exists_definition member, fun block member place isPlace => ?_⟩
  obtain ⟨piece, among, rfl⟩ := List.mem_map.mp member
  obtain ⟨enclosure, encloses, rfl⟩ := Option.map_eq_some_iff.mp isPlace
  have format := format_of_enclosure (List.mem_of_mem_filter among) encloses
  have isInstance : (Allocator.instancesFrom before.nextInstance before.nextAbstract
      (outermostListsOf forest))[enclosure.list]? = some ⟨before.nextInstance + enclosure.list,
        before.nextAbstract + enclosure.list⟩ := by
    rw [Allocator.instancesFrom_getElem?, format]
    rfl
  exact ⟨_, List.mem_of_getElem? isInstance, rfl⟩

/-! ### Many pages -/

/-- Convert a page text; one that is not converted leaves the allocator as it was. -/
def convertNext (html : String) (allocator : Allocator) : Except Fault Result × Allocator :=
  match convertPage html allocator with
  | .error fault => (.error fault, allocator)
  | .ok (result, after) => (.ok result, after)

def convertEach : List String → Allocator → List (Except Fault Result) × Allocator
  | [], allocator => ([], allocator)
  | html :: rest, allocator =>
    let (outcome, after) := convertNext html allocator
    let (others, final) := convertEach rest after
    (outcome :: others, final)

def resultsOf (outcomes : List (Except Fault Result)) : List Result :=
  outcomes.filterMap Except.toOption

/-- The step: a text gains the lists of its result, and none if it has no result. -/
theorem gains_convertNext (html : String) (allocator : Allocator) :
    let next := convertNext html allocator
    Gains allocator ((resultsOf [next.1]).flatMap (·.abstracts))
      ((resultsOf [next.1]).flatMap (·.instances)) next.2 := by
  rw [convertNext]
  cases converted : convertPage html allocator with
  | error fault => exact .refl allocator
  | ok made =>
    have own := isOwn_of_convertPage converted
    simpa [resultsOf, Except.toOption] using own.gains

/-- The run: several texts gain the lists of all their results. -/
theorem gains_convertEach (pages : List String) (allocator : Allocator) :
    let all := convertEach pages allocator
    Gains allocator ((resultsOf all.1).flatMap (·.abstracts))
      ((resultsOf all.1).flatMap (·.instances)) all.2 := by
  induction pages generalizing allocator with
  | nil => exact .refl allocator
  | cons html rest ih =>
    have first := gains_convertNext html allocator
    have others := ih (convertNext html allocator).2
    have results : resultsOf (convertEach (html :: rest) allocator).1 =
        resultsOf [(convertNext html allocator).1] ++
          resultsOf (convertEach rest (convertNext html allocator).2).1 :=
      List.filterMap_append (l := [_])
    simp only [results, List.flatMap_append]
    exact first.trans others

/-- The allocator as several texts leave it to the next one. -/
def allocatorBefore (pages : List String) (allocator : Allocator) (i : Nat) : Allocator :=
  (convertEach (pages.take i) allocator).2

/-- Each text finds the allocator that the texts before it have left. -/
theorem convertEach_at {pages : List String} {i : Nat} (isPage : pages[i]? = some html)
    (allocator : Allocator) :
    (convertEach pages allocator).1[i]? =
        some (convertNext html (allocatorBefore pages allocator i)).1 ∧
      allocatorBefore pages allocator (i + 1) =
        (convertNext html (allocatorBefore pages allocator i)).2 := by
  induction pages generalizing allocator i with
  | nil => cases isPage
  | cons first rest ih =>
    cases i with
    | zero =>
      cases isPage
      exact ⟨rfl, rfl⟩
    | succ i => exact ih (List.getElem?_cons_succ ▸ isPage) (convertNext first allocator).2

theorem length_convertEach (pages : List String) (allocator : Allocator) :
    (convertEach pages allocator).1.length = pages.length := by
  induction pages generalizing allocator with
  | nil => rfl
  | cons html rest ih => exact congrArg (· + 1) (ih _)

/-- Page texts that are converted one after the other with one allocator get consecutive ids from
its counters on, each one larger than all before it, and the allocator gains the lists of all
results in their order and nothing else. Each text finds the allocator that the texts before it
have left, and its result has its own lists only. A text that is not converted leaves the
allocator as it was. -/
theorem convertEach_gains (pages : List String) (start : Allocator) :
    let all := convertEach pages start
    let definitions := (resultsOf all.1).flatMap (·.abstracts)
    let lists := (resultsOf all.1).flatMap (·.instances)
    Gains start definitions lists all.2 ∧
    (definitions.map (·.id)).Pairwise (· < ·) ∧ (lists.map (·.id)).Pairwise (· < ·) ∧
    all.1.length = pages.length ∧
    ∀ i html, pages[i]? = some html →
      let before := allocatorBefore pages start i
      let after := allocatorBefore pages start (i + 1)
      match convertPage html before with
      | .error fault => all.1[i]? = some (.error fault) ∧ after = before
      | .ok (result, next) =>
        all.1[i]? = some (.ok result) ∧ after = next ∧ result.IsOwn html before after := by
  intro all definitions lists
  have gains := gains_convertEach pages start
  refine ⟨gains, gains.ascending.1, gains.ascending.2, length_convertEach pages start, ?_⟩
  intro i html isPage before after
  obtain ⟨isOutcome, isAfter⟩ := convertEach_at isPage start
  rw [convertNext] at isOutcome isAfter
  change all.1[i]? = _ at isOutcome
  change after = _ at isAfter
  cases converted : convertPage html before with
  | error fault =>
    rw [converted] at isOutcome isAfter
    exact ⟨isOutcome, isAfter⟩
  | ok made =>
    rw [converted] at isOutcome isAfter
    have own := isOwn_of_convertPage converted
    exact ⟨isOutcome, isAfter, isAfter ▸ own⟩

/-- Behind a page with one list, a page with two lists gets the next ids. -/
theorem convertEach_gains_second_page :
    let html := "<ol>b</ol>c<ul>d</ul>"
    let pages := ["<ul>a</ul>", html]
    pages[1]? = some html ∧
    ∃ result, (convertEach pages .empty).1[1]? = some (.ok result) ∧
      result.IsOwn html (allocatorBefore pages .empty 1) (allocatorBefore pages .empty 2) ∧
      result.abstracts = [⟨1, .decimal⟩, ⟨2, .bullet⟩] ∧ result.instances = [⟨2, 1⟩, ⟨3, 2⟩] := by
  intro html pages
  have first : convertPage "<ul>a</ul>" .empty =
      .ok (⟨[⟨"a", some ⟨1, 0⟩⟩], [⟨0, .bullet⟩], [⟨1, 0⟩]⟩, ⟨1, 2, [⟨0, .bullet⟩], [⟨1, 0⟩]⟩) := by
    have scanned : Html.Event.scan "<ul>a</ul>" =
        .ok [.startTag "ul", .text ['a'], .endTag "ul"] := by decide +kernel
    rw [convertPage_eq, Html.readForest, scanned]
    rfl
  have before : allocatorBefore pages .empty 1 = ⟨1, 2, [⟨0, .bullet⟩], [⟨1, 0⟩]⟩ := by
    change (convertNext "<ul>a</ul>" .empty).2 = _
    rw [convertNext, first]
  have second : convertPage html ⟨1, 2, [⟨0, .bullet⟩], [⟨1, 0⟩]⟩ =
      .ok (⟨[⟨"b", some ⟨2, 0⟩⟩, ⟨"c", none⟩, ⟨"d", some ⟨3, 0⟩⟩],
          [⟨1, .decimal⟩, ⟨2, .bullet⟩], [⟨2, 1⟩, ⟨3, 2⟩]⟩,
        ⟨3, 4, [⟨0, .bullet⟩, ⟨1, .decimal⟩, ⟨2, .bullet⟩], [⟨1, 0⟩, ⟨2, 1⟩, ⟨3, 2⟩]⟩) := by
    have scanned : Html.Event.scan html =
        .ok [.startTag "ol", .text ['b'], .endTag "ol", .text ['c'], .startTag "ul", .text ['d'],
          .endTag "ul"] := by decide +kernel
    rw [convertPage_eq, Html.readForest, scanned]
    rfl
  obtain ⟨-, -, -, -, each⟩ := convertEach_gains pages .empty
  have law := each 1 html rfl
  simp only [before, second] at law
  obtain ⟨isOutcome, -, own⟩ := law
  exact ⟨rfl, _, isOutcome, before ▸ own, rfl, rfl⟩

end Block

end TemplateFill
