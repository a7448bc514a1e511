import TemplateFill.Proofs.Query.Plain

/-!
# Calm evaluations

An evaluation is calm if it does not break down: it yields what it should, or the query is refused
for something that can be told. Only a number with too many digits and nesting without end may break
it, if neither is bounded. The rules here say how calm evaluations are put together.
-/

namespace TemplateFill.Query

variable [Room]

def Fault.IsCalm (bounded : Bool) : Fault → Prop
  | .refusal cause => bounded → cause.obstacle? = none
  | .breakdown cause => bounded = false ∧ cause.isLimit

/-- The outcome of a calm step satisfies `holds`, if there is one. -/
def CalmOutcome (bounded : Bool) {α : Type} (holds : α → Prop) (outcome : Outcome α) : Prop :=
  match outcome with
  | .ok a => holds a
  | .error fault => fault.IsCalm bounded

/-- Whatever marks are in use, the outcome is that of a calm step. -/
def Calm (bounded : Bool) {α : Type} (holds : α → Prop) (run : Evaluation α) : Prop :=
  ∀ mark, CalmOutcome bounded (fun result => holds result.1) (run mark)

variable {bounded : Bool} {α β : Type} {holds : α → Prop} {holds' : β → Prop}

namespace CalmOutcome

theorem ok {a : α} (h : holds a) : CalmOutcome bounded holds (.ok a) := h

theorem refuse {cause : Refusal} (tellable : bounded → cause.obstacle? = none) :
    CalmOutcome bounded holds (Query.refuse cause) := tellable

theorem breakDown {cause : Breakdown} (unbounded : bounded = false) (limits : cause.isLimit) :
    CalmOutcome bounded holds (Query.breakDown cause) := ⟨unbounded, limits⟩

theorem mono {outcome : Outcome α} {others : α → Prop} (h : CalmOutcome bounded holds outcome)
    (all : ∀ a, holds a → others a) : CalmOutcome bounded others outcome := by
  cases outcome with
  | ok a => exact all a h
  | error fault => exact h

theorem bind {outcome : Outcome α} {next : α → Outcome β}
    (first : CalmOutcome bounded holds outcome)
    (second : ∀ a, holds a → CalmOutcome bounded holds' (next a)) :
    CalmOutcome bounded holds' (outcome >>= next) := by
  cases outcome with
  | ok a => exact second a first
  | error fault => exact first

/-- Over a list, what each check makes sure of holds in the end. -/
theorem forM {check : α → Outcome PUnit} {passed : α → Prop} {items : List α}
    (each : ∀ a ∈ items, CalmOutcome bounded (fun _ => passed a) (check a)) :
    CalmOutcome bounded (fun _ => ∀ a ∈ items, passed a) (items.forM check) := by
  induction items with
  | nil => exact List.forall_mem_nil _
  | cons a items ih =>
    obtain ⟨here, onward⟩ := List.forall_mem_cons.mp each
    refine here.bind fun _ hasPassed => (ih onward).mono fun _ havePassed => ?_
    exact List.forall_mem_cons.mpr ⟨hasPassed, havePassed⟩

end CalmOutcome

namespace Calm

variable {run : Evaluation α}

theorem pure {a : α} (h : holds a) : Calm bounded holds (pure a) := fun _ => h

theorem bind {next : α → Evaluation β} (first : Calm bounded holds run)
    (second : ∀ a, holds a → Calm bounded holds' (next a)) :
    Calm bounded holds' (run >>= next) := by
  intro mark
  exact (first mark).bind fun result h => second result.1 h result.2

theorem lift {outcome : Outcome α} (h : CalmOutcome bounded holds outcome) :
    Calm bounded holds (liftM outcome : Evaluation α) := by
  intro mark
  exact h.bind fun a isGood => isGood

theorem refuse {cause : Refusal} (tellable : bounded → cause.obstacle? = none) :
    Calm bounded holds (liftM (Query.refuse cause : Outcome α) : Evaluation α) :=
  .lift (.refuse tellable)

theorem breakDown {cause : Breakdown} (unbounded : bounded = false) (limits : cause.isLimit) :
    Calm bounded holds (liftM (Query.breakDown cause : Outcome α) : Evaluation α) :=
  .lift (.breakDown unbounded limits)

theorem mono {others : α → Prop} (h : Calm bounded holds run) (all : ∀ a, holds a → others a) :
    Calm bounded others run :=
  fun mark => (h mark).mono fun result => all result.1

/-- Over a list, each step is calm if all are. -/
theorem mapM {f : α → Evaluation β} {items : List α}
    (each : ∀ a ∈ items, Calm bounded holds' (f a)) :
    Calm bounded (fun results => ∀ b ∈ results, holds' b) (items.mapM f) := by
  induction items with
  | nil => exact .pure (List.forall_mem_nil _)
  | cons a items ih =>
    obtain ⟨here, onward⟩ := List.forall_mem_cons.mp each
    rw [List.mapM_cons]
    exact here.bind fun b isGood => (ih onward).bind fun results areGood =>
      .pure (List.forall_mem_cons.mpr ⟨isGood, areGood⟩)

/-- Along a list, each step keeps what holds of the result so far. -/
theorem foldlM {f : β → α → Evaluation β} {items : List α} {start : β} (first : holds' start)
    (each : ∀ b, holds' b → ∀ a ∈ items, Calm bounded holds' (f b a)) :
    Calm bounded holds' (items.foldlM f start) := by
  induction items generalizing start with
  | nil => exact .pure first
  | cons a items ih =>
    rw [List.foldlM_cons]
    exact (each start first a List.mem_cons_self).bind fun b holds =>
      ih holds fun b holds a member => each b holds a (List.mem_cons_of_mem _ member)

theorem freshMark : Calm bounded (fun _ => True) Query.freshMark := fun _ => trivial

end Calm

end TemplateFill.Query
