import TemplateFill.Population
import TemplateFill.Proofs.Xml.Erasure

/-!
# Usable templates

A template is checked by opening it and looking for its body, and a population begins in the
same way. The two therefore agree on every template. Whether there is an answer at all depends
on the texts that are read on the way: markup that is malformed, or a main document whose root
is some other element, is a fault of the check and of the population alike.
-/

namespace TemplateFill

open Xml

namespace Parts

/-- The definitions of the lists, if there are any, are well formed. -/
def HasReadableLists (parts : Parts) : Prop :=
  ∀ member, parts.numbering = some member → (readDocument? member.text).isSome

/-- What is read when the parts are opened is well formed, and a main document of the right type
has the root of one. -/
structure IsSound (parts : Parts) : Prop where
  lists : parts.HasReadableLists
  document : parts.contentType ∈ markupTypes → (readDocument? parts.document).isSome
  root : parts.contentType = mainType → ∀ root, readDocument? parts.document = some root →
    root.isNamed Word.document

/-- The main document has a body, and all that is read on the way to it is well formed. -/
structure HasBody (parts : Parts) : Prop where
  lists : parts.HasReadableLists
  type : parts.contentType = mainType
  document : ∃ root, readDocument? parts.document = some root ∧ root.isNamed Word.document ∧
    (root.child? Word.body).isSome

theorem HasBody.isSound {parts : Parts} (holds : parts.HasBody) : parts.IsSound where
  lists := holds.lists
  document := fun _ => by
    obtain ⟨root, read, -, -⟩ := holds.document
    exact Option.isSome_iff_exists.mpr ⟨root, read⟩
  root := fun _ root read => by
    obtain ⟨_, same, isDocument, -⟩ := holds.document
    rw [read, Option.some_inj] at same
    exact same ▸ isDocument

end Parts

namespace Container

/-- Nothing in a template breaks the look for a body. Without a package there is nothing to
read. -/
def IsSound : Container → Prop
  | .package parts => parts.IsSound
  | .archive => True
  | .loose => True

/-- A template is a package with a body. -/
def HasBody : Container → Prop
  | .package parts => parts.HasBody
  | .archive => False
  | .loose => False

theorem HasBody.isSound {template : Container} (holds : template.HasBody) : template.IsSound := by
  match template, holds with
  | .package _, holds => exact Parts.HasBody.isSound holds

end Container

namespace Package

variable {origin : Origin} {parts : Parts} {template : Container} {cause : Rejection}

/-! ### Reading the members -/

theorem readMember_of_some {text : String} {root : Node} (read : readDocument? text = some root) :
    readMember text = .ok root := by
  rw [readMember, read]

theorem readMember_of_none {text : String} (unread : readDocument? text = none) :
    readMember text = .error .malformed := by
  rw [readMember, unread]

/-- Reading the definitions of lists, the first step of opening. -/
def readLists (parts : Parts) : Except Rejection (Option (String × Node)) :=
  parts.numbering.mapM fun member => do return (member.name, ← readMember member.text)

theorem readLists_of_some {member : Member} (held : parts.numbering = some member) :
    readLists parts = (readMember member.text).map fun root => some (member.name, root) := by
  rw [readLists, held]
  change ((readMember member.text >>= _) >>= _) = _
  cases readMember member.text with
  | ok root => rfl
  | error cause => rfl

theorem readLists_of_readable (readable : parts.HasReadableLists) :
    ∃ lists, readLists parts = .ok lists := by
  cases held : parts.numbering with
  | none => exact ⟨none, by rw [readLists, held]; rfl⟩
  | some member =>
    obtain ⟨root, read⟩ := Option.isSome_iff_exists.mp (readable member held)
    exact ⟨some (member.name, root), by rw [readLists_of_some held, readMember_of_some read]; rfl⟩

theorem readLists_of_unreadable (unreadable : ¬ parts.HasReadableLists) :
    readLists parts = .error .malformed := by
  rw [Parts.HasReadableLists] at unreadable
  push Not at unreadable
  obtain ⟨member, held, unread⟩ := unreadable
  rw [readLists_of_some held, readMember_of_none (Option.not_isSome_iff_eq_none.mp unread)]
  rfl

/-! ### Opening -/

/-- What opening does once the definitions of lists are read. -/
def readRest (origin : Origin) (parts : Parts) (lists : Option (String × Node)) :
    Except Rejection Package := do
  if !Parts.markupTypes.contains parts.contentType then
    throw (.wrongType origin parts.contentType)
  let document ← readMember parts.document
  if parts.contentType != Parts.mainType then throw (.wrongType origin parts.contentType)
  return ⟨(Control.enroll 0 document).1, lists⟩

theorem ofParts_eq_bind (origin : Origin) (parts : Parts) :
    ofParts origin parts = readLists parts >>= readRest origin parts := rfl

variable {lists : Option (String × Node)} {root : Node}

theorem readRest_of_unknownType (unknown : parts.contentType ∉ Parts.markupTypes) :
    readRest origin parts lists = .error (.wrongType origin parts.contentType) := by
  rw [readRest, if_pos (by simpa using unknown)]
  rfl

theorem readRest_of_malformed (known : parts.contentType ∈ Parts.markupTypes)
    (unread : readDocument? parts.document = none) :
    readRest origin parts lists = .error .malformed := by
  rw [readRest, if_neg (by simpa using known), readMember_of_none unread]
  rfl

theorem readRest_of_otherType (known : parts.contentType ∈ Parts.markupTypes)
    (read : readDocument? parts.document = some root) (other : parts.contentType ≠ Parts.mainType) :
    readRest origin parts lists = .error (.wrongType origin parts.contentType) := by
  rw [readRest, if_neg (by simpa using known), readMember_of_some read]
  exact if_pos (by simpa using other)

theorem mainType_mem_markupTypes : Parts.mainType ∈ Parts.markupTypes :=
  List.mem_cons_of_mem _ List.mem_cons_self

theorem readRest_of_document (main : parts.contentType = Parts.mainType)
    (read : readDocument? parts.document = some root) :
    readRest origin parts lists = .ok ⟨(Control.enroll 0 root).1, lists⟩ := by
  have known : parts.contentType ∈ Parts.markupTypes := main ▸ mainType_mem_markupTypes
  rw [readRest, if_neg (by simpa using known), readMember_of_some read]
  exact if_neg (by simpa using main)

/-! ### Looking for the body -/

/-- The numbers that controls are given change neither the name of the root nor what is in it. -/
theorem isNamed_enroll (name : Name) (root : Node) :
    (Control.enroll 0 root).1.isNamed name = root.isNamed name := by
  rw [← Node.isNamed_bare, Control.bare_enroll, Node.isNamed_bare]

theorem isSome_child?_enroll (name : Name) (root : Node) :
    ((Control.enroll 0 root).1.child? name).isSome = (root.child? name).isSome := by
  rw [← Option.isSome_map (f := Node.bare), ← Node.child?_bare, Control.bare_enroll,
    Node.child?_bare, Option.isSome_map]

theorem body_of_foreignRoot (foreign : root.isNamed Word.document = false) :
    body ⟨(Control.enroll 0 root).1, lists⟩ =
      .error (.foreignRoot (Control.enroll 0 root).1.name?) := by
  rw [body, if_neg (by rw [isNamed_enroll, foreign]; exact Bool.false_ne_true)]

theorem body_of_bodiless (isDocument : root.isNamed Word.document)
    (bodiless : (root.child? Word.body).isSome = false) :
    body ⟨(Control.enroll 0 root).1, lists⟩ = .error .noBody := by
  have none : (Control.enroll 0 root).1.child? Word.body = none := by
    rwa [← isSome_child?_enroll, Option.isSome_eq_false_iff, Option.isNone_iff_eq_none] at bodiless
  rw [body, if_pos (by rw [isNamed_enroll, isDocument]), none]

theorem body_of_document (isDocument : root.isNamed Word.document)
    (held : (root.child? Word.body).isSome) :
    ∃ found, body ⟨(Control.enroll 0 root).1, lists⟩ = .ok found := by
  obtain ⟨found, isBody⟩ := Option.isSome_iff_exists.mp
    ((isSome_child?_enroll Word.body root).trans held)
  refine ⟨found, ?_⟩
  rw [body, if_pos (by rw [isNamed_enroll, isDocument]), isBody]

/-- The body of a template. The check and the population both begin with it. -/
def bodyOf (origin : Origin) (template : Container) : Except Rejection Node :=
  ofContainer origin template >>= body

theorem bodyOf_package (listsRead : readLists parts = .ok lists) :
    bodyOf origin (.package parts) = readRest origin parts lists >>= body := by
  rw [bodyOf, ofContainer, ofParts_eq_bind, listsRead]
  rfl

theorem bodyOf_of_hasBody (holds : template.HasBody) :
    ∃ found, bodyOf origin template = .ok found := by
  match template, holds with
  | .package parts, holds =>
    obtain ⟨lists, listsRead⟩ := readLists_of_readable holds.lists
    obtain ⟨root, read, isDocument, held⟩ := holds.document
    rw [bodyOf_package listsRead, readRest_of_document holds.type read]
    exact body_of_document isDocument held

/-- A sound template without a body is refused. -/
theorem bodyOf_of_bodiless (sound : template.IsSound) (bodiless : ¬ template.HasBody) :
    ∃ cause, cause.isRefusal ∧ bodyOf origin template = .error cause := by
  match template, sound with
  | .loose, _ => exact ⟨.notArchive origin, rfl, rfl⟩
  | .archive, _ => exact ⟨.noContentTypes, rfl, rfl⟩
  | .package parts, sound =>
    obtain ⟨lists, listsRead⟩ := readLists_of_readable sound.lists
    rw [bodyOf_package listsRead]
    by_cases known : parts.contentType ∈ Parts.markupTypes
    · obtain ⟨root, read⟩ := Option.isSome_iff_exists.mp (sound.document known)
      by_cases main : parts.contentType = Parts.mainType
      · have isDocument : root.isNamed Word.document := sound.root main root read
        have empty : (root.child? Word.body).isSome = false := by
          refine Bool.eq_false_iff.mpr fun held => bodiless ?_
          exact ⟨sound.lists, main, root, read, isDocument, held⟩
        rw [readRest_of_document main read]
        exact ⟨.noBody, rfl, body_of_bodiless isDocument empty⟩
      · rw [readRest_of_otherType known read main]
        exact ⟨.wrongType origin parts.contentType, rfl, rfl⟩
    · rw [readRest_of_unknownType known]
      exact ⟨.wrongType origin parts.contentType, rfl, rfl⟩

/-- A template that is not sound breaks the look for its body: either something that is read is
malformed, or the main document has the right type and a foreign root. -/
theorem bodyOf_of_unsound (unsound : ¬ template.IsSound) :
    ∃ cause, cause.isRefusal = false ∧ bodyOf origin template = .error cause := by
  match template, unsound with
  | .loose, unsound => exact absurd trivial unsound
  | .archive, unsound => exact absurd trivial unsound
  | .package parts, unsound =>
    by_cases readable : parts.HasReadableLists
    · obtain ⟨lists, listsRead⟩ := readLists_of_readable readable
      rw [bodyOf_package listsRead]
      have known : parts.contentType ∈ Parts.markupTypes := by
        by_contra unknown
        refine unsound ⟨readable, fun known => absurd known unknown, fun main => ?_⟩
        exact absurd (main ▸ mainType_mem_markupTypes) unknown
      cases read : readDocument? parts.document with
      | none =>
        rw [readRest_of_malformed known read]
        exact ⟨.malformed, rfl, rfl⟩
      | some root =>
        have foreign : parts.contentType = Parts.mainType ∧ root.isNamed Word.document = false := by
          by_contra other
          refine unsound ⟨readable, fun _ => by rw [read]; rfl, fun main same isRead => ?_⟩
          rw [read, Option.some_inj] at isRead
          subst isRead
          exact Bool.not_eq_false _ ▸ fun isForeign => other ⟨main, isForeign⟩
        rw [readRest_of_document foreign.1 read]
        exact ⟨.foreignRoot (Control.enroll 0 root).1.name?, rfl, body_of_foreignRoot foreign.2⟩
    · refine ⟨.malformed, rfl, ?_⟩
      rw [bodyOf, ofContainer, ofParts_eq_bind, readLists_of_unreadable readable]
      rfl

theorem bodyOf_isOk_iff : (∃ found, bodyOf origin template = .ok found) ↔ template.HasBody := by
  refine ⟨fun ⟨found, looked⟩ => ?_, bodyOf_of_hasBody⟩
  by_contra bodiless
  by_cases sound : template.IsSound
  · obtain ⟨cause, -, failed⟩ := bodyOf_of_bodiless sound bodiless
    cases looked.symm.trans failed
  · obtain ⟨cause, -, failed⟩ := bodyOf_of_unsound sound
    cases looked.symm.trans failed

theorem bodyOf_breaks_iff :
    (∃ cause, cause.isRefusal = false ∧ bodyOf origin template = .error cause) ↔
      ¬ template.IsSound := by
  refine ⟨fun ⟨cause, broken, failed⟩ sound => ?_, bodyOf_of_unsound⟩
  by_cases holds : template.HasBody
  · obtain ⟨found, looked⟩ := bodyOf_of_hasBody holds
    cases looked.symm.trans failed
  · obtain ⟨other, refused, same⟩ := bodyOf_of_bodiless sound holds
    cases failed.symm.trans same
    exact Bool.false_ne_true (broken.symm.trans refused)

/-! ### The check -/

theorem isUsable_eq_true_iff :
    isUsable origin template = .ok true ↔ ∃ found, bodyOf origin template = .ok found := by
  rw [isUsable, ← bodyOf]
  cases bodyOf origin template with
  | ok found => simp
  | error cause => cases refused : cause.isRefusal <;> simp [refused]

theorem isUsable_eq_false_iff : isUsable origin template = .ok false ↔
    ∃ cause, cause.isRefusal ∧ bodyOf origin template = .error cause := by
  rw [isUsable, ← bodyOf]
  cases bodyOf origin template with
  | ok found => simp
  | error cause => cases refused : cause.isRefusal <;> simp [refused]

theorem isUsable_eq_error_iff : isUsable origin template = .error cause ↔
    cause.isRefusal = false ∧ bodyOf origin template = .error cause := by
  rw [isUsable, ← bodyOf]
  cases bodyOf origin template with
  | ok found => simp
  | error other =>
    cases refused : other.isRefusal with
    | true =>
      simp only [refused, if_true, reduceCtorEq, Except.error.injEq, false_iff]
      rintro ⟨broken, rfl⟩
      exact Bool.false_ne_true (broken.symm.trans refused)
    | false =>
      simp only [refused, Bool.false_eq_true, if_false, Except.error.injEq]
      exact ⟨fun same => ⟨same ▸ refused, same⟩, And.right⟩

/-- There is an answer if and only if nothing breaks the look for a body. -/
theorem isUsable_returns_iff :
    (∃ usable, isUsable origin template = .ok usable) ↔ template.IsSound := by
  rw [← not_iff_not, ← bodyOf_breaks_iff]
  simp only [← isUsable_eq_error_iff]
  cases isUsable origin template <;> simp

/-! ### The check and the population -/

variable {options : Options} {source : Data.Source} {data : Data.Json}

theorem fillPackage_rejects_iff {scope : Datum} {package : Package} :
    Population.fillPackage options scope package = .error (.template cause) ↔
      package.body = .error cause := by
  rw [Population.fillPackage]
  cases package.body with
  | error other => simp [Except.mapError, bind, Except.bind]
  | ok found =>
    -- Whatever stops the walk or the report later is no rejection of the template.
    simp only [Except.mapError, bind, Except.bind, reduceCtorEq, iff_false]
    cases Population.fillBody options scope (.document package.definitions) found with
    | error fault => simp
    | ok result => exact nofun

/-- With a data object, the template stops a population if and only if there is no body to be
had, and then it does so for that very reason. -/
theorem populate_rejects_iff (loaded : source.load = .ok data) :
    Population.populate options origin template source = .error (.template cause) ↔
      bodyOf origin template = .error cause := by
  rw [Population.populate, loaded, bodyOf]
  cases ofContainer origin template with
  | error other => simp [Except.mapError, bind, Except.bind]
  | ok package => exact fillPackage_rejects_iff

/-- The check of a template and its population agree. There is an answer if and only if nothing
breaks the look for a body, and it is positive if and only if there is one. With any data object,
the answer is positive if and only if the population is not stopped by the template, and negative
if and only if the population refuses it; and where there is no answer, the population breaks in
the same way. -/
theorem isUsable_agrees (origin : Origin) (template : Container) :
    ((∃ usable, isUsable origin template = .ok usable) ↔ template.IsSound) ∧
    (isUsable origin template = .ok true ↔ template.HasBody) ∧
    ∀ (options : Options) (source : Data.Source) (data : Data.Json), source.load = .ok data →
      (isUsable origin template = .ok true ↔
        ∀ cause, Population.populate options origin template source ≠ .error (.template cause)) ∧
      (isUsable origin template = .ok false ↔ ∃ cause, cause.isRefusal ∧
        Population.populate options origin template source = .error (.template cause)) ∧
      ∀ cause, isUsable origin template = .error cause ↔ cause.isRefusal = false ∧
        Population.populate options origin template source = .error (.template cause) := by
  refine ⟨isUsable_returns_iff, isUsable_eq_true_iff.trans bodyOf_isOk_iff, ?_⟩
  intro options source data loaded
  simp only [ne_eq, populate_rejects_iff loaded]
  refine ⟨?_, isUsable_eq_false_iff, fun cause => isUsable_eq_error_iff⟩
  rw [isUsable_eq_true_iff]
  cases bodyOf origin template <;> simp

def blankText : String :=
  "<w:document xmlns:w=\"http://schemas.openxmlformats.org/wordprocessingml/2006/main\">" ++
    "<w:body/></w:document>"

def blank : Container := .package ⟨Parts.mainType, blankText, none⟩

/-- An empty body is one, and no population is stopped by the template. -/
theorem blank_is_usable : isUsable .octets blank = .ok true ∧
    ∀ cause, Population.populate .standard .octets blank (.value (.object [])) ≠
      .error (.template cause) := by
  have held : ∃ root, readDocument? blankText = some root ∧ root.isNamed Word.document ∧
      (root.child? Word.body).isSome := by
    have read : (readDocument? blankText).any fun root =>
        root.isNamed Word.document && (root.child? Word.body).isSome := by
      decide +kernel
    obtain ⟨root, isRead, holds⟩ := Option.any_eq_true _ _ |>.mp read
    exact ⟨root, isRead, by simpa using holds⟩
  obtain ⟨-, usable_iff, agrees⟩ := isUsable_agrees .octets blank
  have usable : isUsable .octets blank = .ok true := usable_iff.mpr ⟨nofun, rfl, held⟩
  obtain ⟨accepted, -, -⟩ := agrees .standard (.value (.object [])) (.object []) rfl
  exact ⟨usable, accepted.mp usable⟩

/-- A package whose main document stops in the middle of a tag. -/
def cutOff : Container := .package ⟨Parts.mainType, "<w:docu", none⟩

/-- Such a package is neither accepted nor refused, by the check or by a population. -/
theorem cutOff_has_no_answer :
    isUsable .octets cutOff = .error .malformed ∧
      ∃ source data, Data.Source.load source = .ok data ∧
        Population.populate .standard .octets cutOff source = .error (.template .malformed) := by
  have unread : readDocument? "<w:docu" = none := by
    have none : (readDocument? "<w:docu").isNone := by decide +kernel
    exact Option.isNone_iff_eq_none.mp none
  have noLists : readLists ⟨Parts.mainType, "<w:docu", none⟩ = .ok none := rfl
  have malformed : bodyOf .octets cutOff = .error .malformed := by
    rw [cutOff, bodyOf_package noLists, readRest_of_malformed mainType_mem_markupTypes unread]
    rfl
  exact ⟨isUsable_eq_error_iff.mpr ⟨rfl, malformed⟩, .value (.object []), .object [], rfl,
    (populate_rejects_iff rfl).mpr malformed⟩

end Package

end TemplateFill
