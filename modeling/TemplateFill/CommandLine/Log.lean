import TemplateFill.Walk.Progress

/-!
# The log

What happens during a population is told in lines, each of which has a level. How much of
it is shown depends on the verbosity.
-/

namespace TemplateFill.CommandLine

inductive Level where
  | debug
  | info
  | warning
  | error
  deriving Repr, DecidableEq

namespace Level

def name : Level → String
  | debug => "DEBUG"
  | info => "INFO"
  | warning => "WARNING"
  | error => "ERROR"

def rank : Level → Nat
  | debug => 0
  | info => 1
  | warning => 2
  | error => 3

end Level

structure Entry where
  level : Level
  text : String
  deriving Repr, DecidableEq

namespace Entry

def line (entry : Entry) : String := s!"{entry.level.name}: " ++ entry.text ++ "\n"

/-- The entry for a problem. One that an operation left by stopping is an error. -/
def ofProblem (problem : Problem) : Entry :=
  match problem with
  | .fault _ _ => ⟨.error, problem.message⟩
  | _ => ⟨.warning, problem.message⟩

def ofNotice : Walk.Notice → Entry
  | .processing tag => ⟨.debug, s!"Processing tag: '{tag}'"⟩
  | .writing tag value => ⟨.debug, s!"{tag}: " ++ value.shown⟩
  | .converted blocks => ⟨.debug, s!"Converted HTML into {blocks} block(s)"⟩
  | .addedNumbering => ⟨.debug, "Added numbering part /word/numbering1.xml"⟩
  | .repeated tag items => ⟨.debug, s!"Repeated '{tag}' {items} time(s)"⟩
  | .removed tag => ⟨.debug, s!"Removed hidden control '{tag}'"⟩
  | .found problem => ofProblem problem
  | .filled 0 => ⟨.info, "Template populated"⟩
  | .filled problems => ⟨.info, s!"Template populated with {problems} error(s)"⟩

end Entry

def showLog (least : Level) (entries : List Entry) : String :=
  "".intercalate ((entries.filter (least.rank ≤ ·.level.rank)).map (·.line))

end TemplateFill.CommandLine
