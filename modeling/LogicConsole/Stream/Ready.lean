import LogicConsole.Solution
/-!
Sequences whose solutions are known from the start. A `Queue` hands out its solutions as they are;
`ofAnswers` marks the final one as last and `unmarked` marks none.
-/
namespace LogicConsole

structure Queue where
  pending : List Solution
  deriving DecidableEq, Repr

namespace Queue

/-- The answers as solutions, the final one marked as last. -/
def mark : List String → List Solution
  | [] => []
  | [answer] => [.last answer]
  | answer :: rest => ⟨answer, false⟩ :: mark rest

def ofAnswers (answers : List String) : Queue := ⟨mark answers⟩

def single (answer : String) : Queue := ofAnswers [answer]

def empty : Queue := ⟨[]⟩

/-- Only running dry ends this sequence. -/
def unmarked (answers : List String) : Queue := ⟨answers.map (⟨·, false⟩)⟩

def next (q : Queue) : Option Solution × Queue := (q.pending.head?, ⟨q.pending.tail⟩)

def abandon (_ : Queue) : Queue := empty

instance : SolutionStream Queue where
  next q := (.ok q.next.1, q.next.2)
  abandon q := (.ok (), q.abandon)

@[simp] theorem next_empty : empty.next = (none, empty) := rfl

@[simp] theorem next_cons (s : Solution) (rest : List Solution) :
    (Queue.mk (s :: rest)).next = (some s, ⟨rest⟩) := rfl

end Queue

end LogicConsole
