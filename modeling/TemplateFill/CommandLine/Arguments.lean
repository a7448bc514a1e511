import TemplateFill.CommandLine.Word
import TemplateFill.Service

/-!
# Arguments

The words of a command line are consumed from left to right. A plain word goes to the first
argument that has no value yet, and a switch acts at once: asking for help ends everything.
Words that nobody takes are collected, and complained about if nothing worse is found.
-/

namespace TemplateFill.CommandLine

structure Arguments where
  template : String
  data : String
  output : Option String
  showErrors : Bool
  lineBreaks : Bool
  strict : Bool
  verbose : Bool
  quiet : Bool
  deriving Repr, DecidableEq

/-- Why there is nothing to fill. -/
inductive Ending where
  | help
  | version
  | complaint (cause : Complaint)
  /-- The separator stands where a path is needed. -/
  | noPath
  deriving Repr, DecidableEq

namespace Ending

def code : Ending → Nat
  | .help => 0
  | .version => 0
  | .complaint _ => 2
  | .noPath => 1

def output : Ending → String
  | .help => CommandLine.help
  | .version => s!"{programName} {TemplateFill.version}\n"
  | _ => ""

def errors : Ending → String
  | .complaint cause => usage ++ s!"{programName}: error: " ++ cause.message ++ "\n"
  | .noPath => "expected str, bytes or os.PathLike object, not list"
  | _ => ""

end Ending

/-- A value that is the separator alone is no value. -/
def valueOf (text : String) : Option String :=
  if text == separatorText then none else some text

/-- Arguments under way: the values of the two paths, and the words that nobody took. -/
structure Draft where
  paths : List (Option String)
  extras : List String
  output : Option String
  showErrors : Bool
  lineBreaks : Bool
  strict : Bool
  verbose : Bool
  quiet : Bool

namespace Draft

def empty : Draft := ⟨[], [], none, false, false, false, false, false⟩

def pathNames : List String := ["template", "data"]

def apply (value : Option String) (draft : Draft) : Switch → Except Ending Draft
  | .help => .error .help
  | .version => .error .version
  | .output => .ok { draft with output := value }
  | .showErrors => .ok { draft with showErrors := true }
  | .lineBreaks => .ok { draft with lineBreaks := true }
  | .strict => .ok { draft with strict := true }
  | .verbose =>
    if draft.quiet then .error (.complaint (.conflict .verbose .quiet))
    else .ok { draft with verbose := true }
  | .quiet =>
    if draft.verbose then .error (.complaint (.conflict .quiet .verbose))
    else .ok { draft with quiet := true }

def applyAll (draft : Draft) : List (Switch × Option String) → Except Ending Draft
  | [] => .ok draft
  | (switch, value) :: rest => do applyAll (← draft.apply value switch) rest

def finish (draft : Draft) : Except Ending Arguments :=
  match draft.paths, draft.extras with
  | [template, data], [] =>
    match template, data with
    | some template, some data =>
      .ok ⟨template, data, draft.output, draft.showErrors, draft.lineBreaks, draft.strict,
        draft.verbose, draft.quiet⟩
    | _, _ => .error .noPath
  | [_, _], extras => .error (.complaint (.unrecognized extras))
  | paths, _ => .error (.complaint (.missing (pathNames.drop paths.length)))

end Draft

def takeValue? : List Word → Option (Option String × List Word)
  | .plain text :: rest => some (valueOf text, rest)
  | _ => none

theorem length_takeValue? {words rest : List Word} {value : Option String}
    (h : takeValue? words = some (value, rest)) : rest.length < words.length := by
  unfold takeValue? at h
  split at h <;> cases h
  simp only [List.length_cons]
  omega

/-- The use of a switch to which nothing is glued. A value that it takes is the next word. -/
def useAlone (words : List Word) (switch : Switch) :
    Except Complaint (List (Switch × Option String) × List Word) :=
  if switch.takesValue then
    match takeValue? words with
    | some (value, rest) => .ok ([(switch, value)], rest)
    | none => .error (.noValue switch)
  else .ok ([(switch, none)], words)

theorem length_useAlone {words rest : List Word} {switch : Switch}
    {uses : List (Switch × Option String)} (h : useAlone words switch = .ok (uses, rest)) :
    rest.length ≤ words.length := by
  unfold useAlone at h
  split at h
  · split at h
    · rename_i taken
      cases h
      exact Nat.le_of_lt (length_takeValue? taken)
    · cases h
  · cases h
    exact Nat.le_refl _

/-- The uses of a switch to which text is glued. Where letters can be switches of their own they
are, until one takes the rest of the text as its value. -/
def useGlued (words : List Word) (areSwitches : Bool) :
    List Char → Switch → Except Complaint (List (Switch × Option String) × List Word)
  | [], switch =>
    if switch.takesValue then .ok ([(switch, valueOf "")], words)
    else .error (.ignoredValue switch "")
  | letter :: more, switch =>
    let glued := String.ofList (letter :: more)
    if switch.takesValue then .ok ([(switch, valueOf glued)], words)
    else
      match if areSwitches then Switch.ofSpelling? (String.ofList ['-', letter]) else none with
      | none => .error (.ignoredValue switch glued)
      | some next =>
        let further :=
          if more.isEmpty then useAlone words next else useGlued words areSwitches more next
        further.map fun (uses, rest) => ((switch, none) :: uses, rest)

theorem length_useGlued {words rest : List Word} {areSwitches : Bool} {glued : List Char}
    {switch : Switch} {uses : List (Switch × Option String)}
    (h : useGlued words areSwitches glued switch = .ok (uses, rest)) :
    rest.length ≤ words.length := by
  induction glued generalizing switch uses with
  | nil =>
    unfold useGlued at h
    split at h <;> cases h
    exact Nat.le_refl _
  | cons letter more ih =>
    unfold useGlued at h
    simp only [Except.map] at h
    split at h
    · cases h
      exact Nat.le_refl _
    · split at h
      · cases h
      · split at h
        · cases h
        · rename_i further
          cases h
          split at further
          · exact length_useAlone further
          · exact ih further

/-- The uses that a word stands for, and the words behind it that are left. Behind a single dash
and a letter further letters can be switches. -/
def expandUse (use : Use) (words : List Word) :
    Except Complaint (List (Switch × Option String) × List Word) :=
  match use.glued with
  | none => useAlone words use.switch
  | some glued => useGlued words (use.spelling.length == 2) glued.toList use.switch

/-- The value of a path and the words that are left, if the next words hold one. It takes
the separator before it or behind it along. -/
def takePath? : List Word → Option (Option String × List Word)
  | .separator :: .plain text :: rest => some (some text, rest)
  | .plain text :: .separator :: rest => some (valueOf text, rest)
  | .plain text :: rest => some (valueOf text, rest)
  | _ => none

theorem length_takePath? {words rest : List Word} {value : Option String}
    (h : takePath? words = some (value, rest)) : rest.length < words.length := by
  unfold takePath? at h
  split at h <;> cases h <;> simp only [List.length_cons] <;> omega

theorem length_expandUse {use : Use} {words rest : List Word}
    {uses : List (Switch × Option String)} (h : expandUse use words = .ok (uses, rest)) :
    rest.length ≤ words.length := by
  unfold expandUse at h
  split at h
  · exact length_useAlone h
  · exact length_useGlued h

def consume (draft : Draft) : List Word → Except Ending Draft
  | [] => .ok draft
  | .use _ use :: words =>
    match _ : expandUse use words with
    | .error cause => .error (.complaint cause)
    | .ok (uses, rest) => do consume (← draft.applyAll uses) rest
  | .unknown text :: words => consume { draft with extras := draft.extras ++ [text] } words
  | word :: words =>
    if draft.paths.length < Draft.pathNames.length then
      match _ : takePath? (word :: words) with
      | some (value, rest) => consume { draft with paths := draft.paths ++ [value] } rest
      | none => consume { draft with extras := draft.extras ++ [word.text] } words
    else consume { draft with extras := draft.extras ++ [word.text] } words
termination_by words => words.length
decreasing_by
  · exact Nat.lt_succ_of_le (length_expandUse (by assumption))
  · simp
  · exact length_takePath? (by assumption)
  · simp
  · simp

def Arguments.read (words : List String) : Except Ending Arguments := do
  let classified ← (classifyAll words).mapError .complaint
  (← consume .empty classified).finish

end TemplateFill.CommandLine
