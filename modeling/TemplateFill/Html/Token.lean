import TemplateFill.Html.Forest

/-!
# Tokens

A forest in one row: every element opens before its content and closes after it. The row is
told off a stack of what is still to be told, so that the depth of a page does not matter.
-/

namespace TemplateFill.Html

inductive Token where
  | opening (name : String)
  | closing (name : String)
  | string (content : String)
  deriving Repr, DecidableEq

mutual

def Tree.tokens : Tree → List Token
  | .element name children => .opening name :: (tokensOf children ++ [.closing name])
  | .string content => [.string content]

def tokensOf : List Tree → List Token
  | [] => []
  | tree :: rest => tree.tokens ++ tokensOf rest

end

/-- What is still to be told: a tree, or the end of an element that was begun. -/
inductive Pending where
  | whole (tree : Tree)
  | ending (name : String)

namespace Pending

mutual

/-- How many tokens a tree has. -/
def weightOfTree : Tree → Nat
  | .element _ children => weightOfForest children + 2
  | .string _ => 1

def weightOfForest : List Tree → Nat
  | [] => 0
  | tree :: rest => weightOfTree tree + weightOfForest rest

end

def weight : List Pending → Nat
  | [] => 0
  | .whole tree :: rest => weightOfTree tree + weight rest
  | .ending _ :: rest => weight rest + 1

/-- Put a forest on a stack, its first tree on top. -/
def push : List Tree → List Pending → List Pending
  | [], stack => stack
  | tree :: rest, stack => .whole tree :: push rest stack

theorem weight_push (forest : List Tree) (stack : List Pending) :
    weight (push forest stack) = weightOfForest forest + weight stack := by
  induction forest with
  | nil => simp [push, weightOfForest]
  | cons tree rest ih => simp [push, weight, weightOfForest, ih, Nat.add_assoc]

/-- Tell what is on a stack, the top first. The end of an element waits below its content. -/
def unwind : List Pending → List Token
  | [] => []
  | .ending name :: rest => .closing name :: unwind rest
  | .whole (.string content) :: rest => .string content :: unwind rest
  | .whole (.element name children) :: rest =>
    .opening name :: unwind (push children (.ending name :: rest))
termination_by stack => weight stack
decreasing_by
  · simp [weight]
  · simp [weight, weightOfTree]
  · simp only [weight_push, weight, weightOfTree]
    omega

mutual

/-- A tree on the stack is told before anything below it. -/
theorem unwind_whole : (tree : Tree) → (stack : List Pending) →
    unwind (.whole tree :: stack) = tree.tokens ++ unwind stack
  | .string content, stack => by simp [unwind, Tree.tokens]
  | .element name children, stack => by
    rw [unwind, unwind_push children, unwind]
    simp [Tree.tokens]

theorem unwind_push : (forest : List Tree) → (stack : List Pending) →
    unwind (push forest stack) = tokensOf forest ++ unwind stack
  | [], stack => by simp [push, tokensOf]
  | tree :: rest, stack => by
    rw [push, unwind_whole tree, unwind_push rest, tokensOf, List.append_assoc]

end

end Pending

def row (forest : List Tree) : List Token := Pending.unwind (Pending.push forest [])

theorem row_eq_tokensOf (forest : List Tree) : row forest = tokensOf forest := by
  rw [row, Pending.unwind_push, Pending.unwind, List.append_nil]

def tokenize (html : String) : Except ScanFault (List Token) := (readForest html).map row

end TemplateFill.Html
