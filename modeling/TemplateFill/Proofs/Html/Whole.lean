import TemplateFill.Html.Forest

/-!
# The whole forest of a page

Some elements keep their strings out of the forest that a page is read as. The whole forest has
all strings of the page, whatever is around them. It is built by the same steps, except that a
string is kept before the step that would end it. Leaving out the strings of the elements that
hide them gives the forest that is read; so what is left out is known from the elements around a
string alone.
-/

namespace TemplateFill.Html

/-! ### Leaving strings out -/

mutual

/-- A tree without the strings of elements that hide them; `hidden` says whether the tree is in
such an element itself. -/
def Tree.shown (hidden : Bool) : Tree → Option Tree
  | .element name children =>
    some (.element name (shownOf (hiddenElements.contains name || hidden) children))
  | .string content => if hidden then none else some (.string content)

/-- A forest without the strings of elements that hide them. -/
def shownOf (hidden : Bool) : List Tree → List Tree
  | [] => []
  | tree :: rest => (tree.shown hidden).toList ++ shownOf hidden rest

end

theorem shownOf_eq_filterMap (hidden : Bool) (forest : List Tree) :
    shownOf hidden forest = forest.filterMap (Tree.shown hidden) := by
  induction forest with
  | nil => rfl
  | cons tree rest ih =>
    rw [shownOf, ih]
    cases isShown : tree.shown hidden with
    | none => rw [List.filterMap_cons_none isShown]; rfl
    | some shown => rw [List.filterMap_cons_some isShown]; rfl

theorem shownOf_reverse (hidden : Bool) (forest : List Tree) :
    shownOf hidden forest.reverse = (shownOf hidden forest).reverse := by
  rw [shownOf_eq_filterMap, shownOf_eq_filterMap, List.filterMap_reverse]

namespace Builder

variable {builder : Builder}

/-! ### Building with all strings -/

def endsString (builder : Builder) : Event → Bool
  | .text _ => false
  | .endTag name => !builder.closedAtOnce.contains name
  | _ => true

/-- End the gathered string, and keep it whatever is around it. -/
def keepString (builder : Builder) : Builder :=
  match builder.gathered with
  | [] => builder
  | gathered =>
    let s := gathered.reverse
    let content := if builder.isInside blankKeepers then s else condense s
    { builder with gathered := [] }.add (.string (String.ofList content))

/-- What an event does if all strings are kept. -/
def stepWhole (builder : Builder) (event : Event) : Builder :=
  (if builder.endsString event then builder.keepString else builder).step event

/-- Open elements without the strings of elements that hide them. -/
def shownStack : List OpenElement → List OpenElement
  | [] => []
  | element :: outer =>
    ⟨element.name,
      shownOf ((element :: outer).any fun open' => hiddenElements.contains open'.name)
        element.children⟩ :: shownStack outer

/-- A builder without the strings of elements that hide them. -/
def shown (builder : Builder) : Builder :=
  { builder with
    openElements := shownStack builder.openElements
    roots := shownOf false builder.roots }

/-! ### Each operation -/

theorem names_shownStack (stack : List OpenElement) :
    (shownStack stack).map (·.name) = stack.map (·.name) := by
  induction stack with
  | nil => rfl
  | cons element outer ih => rw [shownStack, List.map_cons, List.map_cons, ih]

theorem any_shownStack (p : String → Bool) (stack : List OpenElement) :
    (shownStack stack).any (fun element => p element.name) =
      stack.any fun element => p element.name := by
  have names : ∀ stack : List OpenElement,
      stack.any (fun element => p element.name) = (stack.map (·.name)).any p :=
    fun stack => List.any_map.symm
  rw [names, names, names_shownStack]

@[simp] theorem isInside_shown (names : List String) :
    builder.shown.isInside names = builder.isInside names :=
  any_shownStack names.contains builder.openElements

@[simp] theorem gathered_shown : builder.shown.gathered = builder.gathered := rfl

@[simp] theorem closedAtOnce_shown : builder.shown.closedAtOnce = builder.closedAtOnce := rfl

@[simp] theorem gathered_add (tree : Tree) : (builder.add tree).gathered = builder.gathered := by
  unfold add
  split <;> rfl

/-- A tree is put where it is shown or not. -/
theorem shown_add (tree : Tree) :
    (builder.add tree).shown =
      match tree.shown (builder.isInside hiddenElements) with
      | some shown => builder.shown.add shown
      | none => builder.shown := by
  obtain ⟨stack, roots, gathered, closedAtOnce⟩ := builder
  cases stack with
  | nil =>
    have outside : isInside hiddenElements ⟨[], roots, gathered, closedAtOnce⟩ = false := rfl
    rw [outside]
    cases isShown : tree.shown false with
    | none => simp [add, shown, shownStack, shownOf, isShown]
    | some shown => simp [add, Builder.shown, shownStack, shownOf, isShown]
  | cons element outer =>
    cases isShown : tree.shown (isInside hiddenElements
        ⟨element :: outer, roots, gathered, closedAtOnce⟩) with
    | none =>
      rw [isInside] at isShown
      simp only [add, shown, shownStack, shownOf, List.any_cons] at isShown ⊢
      rw [isShown]
      rfl
    | some shown =>
      rw [isInside] at isShown
      simp only [add, Builder.shown, shownStack, shownOf, List.any_cons] at isShown ⊢
      rw [isShown]
      rfl

@[simp] theorem gathered_keepString : builder.keepString.gathered = [] := by
  unfold keepString
  split
  · assumption
  · rw [gathered_add]

/-- A string that was kept is left out if an element around it hides it. -/
theorem shown_keepString : builder.keepString.shown = builder.shown.endString := by
  unfold keepString endString
  rw [gathered_shown]
  cases builder.gathered with
  | nil => rfl
  | cons c rest =>
    simp only [isInside_shown]
    rw [shown_add, Tree.shown]
    have inside : isInside hiddenElements { builder with gathered := [] } =
        builder.isInside hiddenElements := rfl
    rw [inside]
    cases builder.isInside hiddenElements <;> rfl

theorem endString_of_quiet (quiet : builder.gathered = []) : builder.endString = builder := by
  rw [endString, quiet]

theorem shown_pop : builder.pop.shown = builder.shown.pop := by
  obtain ⟨stack, roots, gathered, closedAtOnce⟩ := builder
  cases stack with
  | nil => rfl
  | cons element outer =>
    rw [pop, shown_add, Tree.shown]
    simp only [isInside, shown, shownStack, pop, List.any_cons, shownOf_reverse]

theorem shown_popTimes (n : Nat) : (builder.popTimes n).shown = builder.shown.popTimes n := by
  induction n generalizing builder with
  | zero => rfl
  | succ n ih => rw [popTimes, popTimes, ih, shown_pop]

theorem depth_shownStack (p : String → Bool) (stack : List OpenElement) :
    (shownStack stack).findIdx? (fun element => p element.name) =
      stack.findIdx? fun element => p element.name := by
  have names : ∀ stack : List OpenElement,
      stack.findIdx? (fun element => p element.name) = (stack.map (·.name)).findIdx? p :=
    fun stack => List.findIdx?_map.symm
  rw [names, names, names_shownStack]

@[simp] theorem gathered_endString : builder.endString.gathered = [] := by
  unfold endString
  split
  · assumption
  · simp only
    split
    · rfl
    · rw [gathered_add]

theorem closedAtOnce_endString : builder.endString.closedAtOnce = builder.closedAtOnce := by
  have closedAtOnce_add (builder : Builder) (tree : Tree) :
      (builder.add tree).closedAtOnce = builder.closedAtOnce := by
    unfold add
    split <;> rfl
  unfold endString
  split
  · rfl
  · simp only
    split
    · rfl
    · rw [closedAtOnce_add]

section Quiet

variable (quiet : builder.gathered = [])
include quiet

theorem shown_openElement (name : String) :
    (builder.openElement name).shown = builder.shown.openElement name := by
  have quietShown : builder.shown.gathered = [] := quiet
  rw [openElement, openElement, endString_of_quiet quiet, endString_of_quiet quietShown]
  rfl

theorem shown_closeElement (name : String) :
    (builder.closeElement name).shown = builder.shown.closeElement name := by
  have quietShown : builder.shown.gathered = [] := quiet
  have depth := depth_shownStack (· == name) builder.openElements
  rw [closeElement, closeElement, endString_of_quiet quiet, endString_of_quiet quietShown]
  simp only [shown] at depth ⊢
  rw [depth]
  cases builder.openElements.findIdx? (·.name == name) with
  | none => rfl
  | some depth => exact shown_popTimes (depth + 1)

/-- Where no string is gathered, every step leaves out the same. -/
theorem shown_step (event : Event) : (builder.step event).shown = builder.shown.step event := by
  have opened (name : String) : (builder.openElement name).gathered = [] := gathered_endString
  cases event with
  | startTag name =>
    rw [step, step, startTag, startTag, ← shown_openElement quiet,
      ← shown_closeElement (opened name)]
    split <;> rfl
  | emptyTag name =>
    rw [step, step, ← shown_openElement quiet, ← shown_closeElement (opened name)]
  | endTag name =>
    rw [step, step, endTag, endTag, ← shown_closeElement quiet, closedAtOnce_shown]
    split <;> rfl
  | text content => rfl
  | aside =>
    have quietShown : builder.shown.gathered = [] := quiet
    rw [step, step, endString_of_quiet quiet, endString_of_quiet quietShown]

end Quiet

/-- An event that ends the string finds it ended just as well. -/
theorem step_endString {event : Event} (ends : builder.endsString event) :
    builder.endString.step event = builder.step event := by
  have again : builder.endString.endString = builder.endString :=
    endString_of_quiet gathered_endString
  cases event with
  | startTag name => rw [step, step, startTag, startTag, openElement, openElement, again]
  | emptyTag name => rw [step, step, openElement, openElement, again]
  | endTag name =>
    have closes : ¬ builder.closedAtOnce.contains name := by simpa [endsString] using ends
    rw [step, step, endTag, endTag, closedAtOnce_endString, if_neg closes, if_neg closes,
      closeElement, closeElement, again]
  | text content => cases ends
  | aside => rw [step, step, again]

/-! ### Whole pages -/

/-- Keeping all strings and leaving some out afterwards is leaving them out at once. -/
theorem shown_stepWhole (event : Event) :
    (builder.stepWhole event).shown = builder.shown.step event := by
  have same : builder.shown.endsString event = builder.endsString event := by
    cases event <;> rfl
  unfold stepWhole
  split
  · rename_i ends
    rw [shown_step gathered_keepString, shown_keepString, step_endString (same ▸ ends)]
  · rename_i continues
    cases event with
    | endTag name =>
      have swallowed : builder.closedAtOnce.contains name := by simpa [endsString] using continues
      rw [step, step, endTag, endTag, closedAtOnce_shown, if_pos swallowed, if_pos swallowed]
      rfl
    | text content => rfl
    | _ => exact absurd rfl continues

theorem shown_foldl_stepWhole (events : List Event) :
    (events.foldl stepWhole builder).shown = events.foldl step builder.shown := by
  induction events generalizing builder with
  | nil => rfl
  | cons event rest ih => rw [List.foldl_cons, List.foldl_cons, ih, shown_stepWhole]

theorem finish_shown (quiet : builder.gathered = []) :
    shownOf false builder.finish = builder.shown.finish := by
  have quietShown : builder.shown.gathered = [] := quiet
  have depth : builder.shown.openElements.length = builder.openElements.length := by
    have lengths := congrArg List.length (names_shownStack builder.openElements)
    rwa [List.length_map, List.length_map] at lengths
  rw [finish, finish, endString_of_quiet quiet, endString_of_quiet quietShown, shownOf_reverse,
    depth, ← shown_popTimes]
  rfl

theorem finish_endString : builder.endString.finish = builder.finish := by
  rw [finish, finish, endString_of_quiet gathered_endString]

end Builder

def wholeForest (events : List Event) : List Tree :=
  (events.foldl Builder.stepWhole Builder.start).keepString.finish

/-- A page is read as its whole forest without the strings of elements that hide them. -/
theorem shownOf_wholeForest (events : List Event) :
    shownOf false (wholeForest events) = forestOfEvents events := by
  rw [wholeForest, Builder.finish_shown Builder.gathered_keepString, Builder.shown_keepString,
    Builder.finish_endString, Builder.shown_foldl_stepWhole]
  rfl

/-! ### Strings by the element that they belong to -/

/-- A string of a page and its host, the innermost element around it that hides strings, if there
is one. -/
structure HostedString where
  content : String
  host : Option String
  deriving Repr, DecidableEq

mutual

/-- The strings of a tree in document order, if the tree itself has the host. -/
def Tree.strings (host : Option String) : Tree → List HostedString
  | .element name children =>
    stringsOf (if hiddenElements.contains name then some name else host) children
  | .string content => [⟨content, host⟩]

def stringsOf (host : Option String) : List Tree → List HostedString
  | [] => []
  | tree :: rest => tree.strings host ++ stringsOf host rest

end

mutual

/-- Hosts are elements that hide strings. -/
theorem host_of_mem_strings {host : Option String} {s : HostedString} :
    (tree : Tree) → s ∈ tree.strings host → s.host = host ∨ ∃ name ∈ hiddenElements, s.host = name
  | .string content, member => by
    rw [Tree.strings, List.mem_singleton] at member
    exact .inl (by rw [member])
  | .element name children, member => by
    rcases host_of_mem_stringsOf children member with outer | inner
    · split at outer
      · rename_i hides
        exact .inr ⟨name, List.contains_iff_mem.mp hides, outer⟩
      · exact .inl outer
    · exact .inr inner

theorem host_of_mem_stringsOf {host : Option String} {s : HostedString} :
    (forest : List Tree) → s ∈ stringsOf host forest →
    s.host = host ∨ ∃ name ∈ hiddenElements, s.host = name
  | [], member => nomatch member
  | tree :: rest, member => by
    rcases List.mem_append.mp member with here | later
    · exact host_of_mem_strings tree here
    · exact host_of_mem_stringsOf rest later

end

theorem stringsOf_append (host : Option String) (first second : List Tree) :
    stringsOf host (first ++ second) = stringsOf host first ++ stringsOf host second := by
  induction first with
  | nil => rfl
  | cons tree rest ih => rw [List.cons_append, stringsOf, stringsOf, ih, List.append_assoc]

mutual

/-- The strings that are shown are those without a host. -/
theorem strings_shown (host : Option String) :
    (tree : Tree) → stringsOf host (tree.shown host.isSome).toList =
      (tree.strings host).filter (·.host.isNone)
  | .string content => by
    cases host <;> rfl
  | .element name children => by
    have inner := strings_shownOf (if hiddenElements.contains name then some name else host) children
    have hides : (if hiddenElements.contains name then some name else host).isSome =
        (hiddenElements.contains name || host.isSome) := by
      cases hiddenElements.contains name <;> rfl
    rw [hides] at inner
    rw [Tree.shown, Option.toList, stringsOf, stringsOf, List.append_nil, Tree.strings,
      Tree.strings, inner]

theorem strings_shownOf (host : Option String) :
    (forest : List Tree) → stringsOf host (shownOf host.isSome forest) =
      (stringsOf host forest).filter (·.host.isNone)
  | [] => rfl
  | tree :: rest => by
    rw [shownOf, stringsOf_append, stringsOf, List.filter_append, strings_shown, strings_shownOf]

end

/-- The strings that a page is read with are those of its whole forest that have no host. -/
theorem strings_forestOfEvents (events : List Event) :
    stringsOf none (forestOfEvents events) =
      (stringsOf none (wholeForest events)).filter (·.host.isNone) := by
  rw [← shownOf_wholeForest]
  exact strings_shownOf none (wholeForest events)

end TemplateFill.Html
