import TemplateFill.Numbering.Allocator

/-!
# Allocating several lists

What an allocator is after it has served a sequence of formats. The ids that it hands out are
consecutive, so the list of number `i` is known from the counters at the start; nothing about
the order of the single allocations has to be remembered.
-/

namespace TemplateFill.Numbering.Allocator

/-- The definitions that a sequence of formats gets, the first with the id `first`. -/
def definitionsFrom (first : Int) : List Format → List AbstractList
  | [] => []
  | format :: rest => ⟨first, format⟩ :: definitionsFrom (first + 1) rest

/-- So many instances, each of a definition of its own, with consecutive ids. -/
def instancesFrom (firstInstance firstAbstract : Int) : List Format → List ListInstance
  | [] => []
  | _ :: rest =>
    ⟨firstInstance, firstAbstract⟩ :: instancesFrom (firstInstance + 1) (firstAbstract + 1) rest

/-- The allocator after one list of each format was allocated: one definition and one instance
a list, in the same order, behind those that it had handed out before. -/
def allocateAll (formats : List Format) (allocator : Allocator) : Allocator :=
  { nextAbstract := allocator.nextAbstract + formats.length
    nextInstance := allocator.nextInstance + formats.length
    abstracts := allocator.abstracts ++ definitionsFrom allocator.nextAbstract formats
    instances :=
      allocator.instances ++ instancesFrom allocator.nextInstance allocator.nextAbstract formats }

variable (allocator : Allocator) (format : Format) (formats : List Format)

@[simp] theorem allocateAll_nil : allocator.allocateAll [] = allocator := by
  simp [allocateAll, definitionsFrom, instancesFrom]

@[simp] theorem allocate_fst :
    (allocator.allocate format).1 = ⟨allocator.nextInstance, allocator.nextAbstract⟩ := rfl

/-- Serving a sequence is serving its first format and then the others. -/
theorem allocateAll_cons :
    allocator.allocateAll (format :: formats) =
      (allocator.allocate format).2.allocateAll formats := by
  simp only [allocateAll, allocate, definitionsFrom, instancesFrom, List.length_cons,
    List.append_assoc, List.singleton_append, Allocator.mk.injEq, and_true]
  constructor <;> omega

theorem allocateAll_append (others : List Format) :
    allocator.allocateAll (formats ++ others) =
      (allocator.allocateAll formats).allocateAll others := by
  induction formats generalizing allocator with
  | nil => rw [List.nil_append, allocateAll_nil]
  | cons format rest ih => rw [List.cons_append, allocateAll_cons, ih, ← allocateAll_cons]

theorem allocateAll_nextInstance :
    (allocator.allocateAll formats).nextInstance = allocator.nextInstance + formats.length := rfl

/-! ### What is handed out -/

theorem definitionsFrom_getElem? (first : Int) (formats : List Format) (i : Nat) :
    (definitionsFrom first formats)[i]? = formats[i]?.map fun format => ⟨first + i, format⟩ := by
  induction formats generalizing first i with
  | nil => rfl
  | cons format rest ih =>
    cases i with
    | zero => simp [definitionsFrom]
    | succ i =>
      rw [definitionsFrom, List.getElem?_cons_succ, List.getElem?_cons_succ, ih]
      congr 2
      funext format
      congr 1
      omega

theorem instancesFrom_getElem? (firstInstance firstAbstract : Int) (formats : List Format)
    (i : Nat) :
    (instancesFrom firstInstance firstAbstract formats)[i]? =
      formats[i]?.map fun _ => ⟨firstInstance + i, firstAbstract + i⟩ := by
  induction formats generalizing firstInstance firstAbstract i with
  | nil => rfl
  | cons format rest ih =>
    cases i with
    | zero => simp [instancesFrom]
    | succ i =>
      rw [instancesFrom, List.getElem?_cons_succ, List.getElem?_cons_succ, ih]
      congr 2
      funext format
      congr 1 <;> omega

def idsFrom (first : Int) : Nat → List Int
  | 0 => []
  | n + 1 => first :: idsFrom (first + 1) n

theorem ids_definitionsFrom (first : Int) (formats : List Format) :
    (definitionsFrom first formats).map (·.id) = idsFrom first formats.length := by
  induction formats generalizing first with
  | nil => rfl
  | cons format rest ih => rw [definitionsFrom, List.map_cons, ih, List.length_cons, idsFrom]

theorem ids_instancesFrom (firstInstance firstAbstract : Int) (formats : List Format) :
    (instancesFrom firstInstance firstAbstract formats).map (·.id) =
      idsFrom firstInstance formats.length := by
  induction formats generalizing firstInstance firstAbstract with
  | nil => rfl
  | cons format rest ih => rw [instancesFrom, List.map_cons, ih, List.length_cons, idsFrom]

theorem le_of_mem_idsFrom {first id : Int} {n : Nat} (member : id ∈ idsFrom first n) :
    first ≤ id := by
  induction n generalizing first with
  | zero => cases member
  | succ n ih =>
    rcases List.mem_cons.mp member with rfl | later
    · exact Int.le_refl _
    · have above := ih later
      omega

theorem nodup_idsFrom (first : Int) (n : Nat) : (idsFrom first n).Nodup := by
  induction n generalizing first with
  | zero => exact List.nodup_nil
  | succ n ih =>
    refine List.nodup_cons.mpr ⟨fun again => ?_, ih (first + 1)⟩
    have above := le_of_mem_idsFrom again
    omega

end TemplateFill.Numbering.Allocator
