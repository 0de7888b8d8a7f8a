import LogicConsole.Term
/-!
Matching a goal against a fact. Atoms must agree, named variables take one value throughout, and
variables that start with an underscore match anything. Bindings are listed in the order in which
the goal first mentions their variables.
-/
namespace LogicConsole

abbrev Bindings := List (String × String)

namespace Term

/-- A variable whose name starts with an underscore is never bound. -/
def isAnonymous (name : String) : Bool := name.toList.head? == some '_'

def bind (bindings : Bindings) (name value : String) : Option Bindings :=
  match bindings.lookup name with
  | some bound => if bound = value then some bindings else none
  | none => some (bindings ++ [(name, value)])

def matchArg (bindings : Bindings) : Arg → Arg → Option Bindings
  | _, .var _ => none
  | .atom name, .atom value => if name = value then some bindings else none
  | .var name, .atom value =>
    if isAnonymous name then some bindings else bind bindings name value

def matchArgs (bindings : Bindings) : List Arg → List Arg → Option Bindings
  | goal :: goals, fact :: facts => do
    let bindings ← matchArg bindings goal fact
    matchArgs bindings goals facts
  | _, _ => some bindings

/-- The bindings under which the goal is the given fact. -/
def matchFact (goal fact : Term) : Option Bindings :=
  if goal.functor = fact.functor ∧ goal.arity = fact.arity then matchArgs [] goal.args fact.args
  else none

end Term

end LogicConsole
