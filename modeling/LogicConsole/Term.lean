/-!
Flat terms: a functor applied to atoms and variables. A term without variables is a fact.
-/
namespace LogicConsole

inductive Arg
  | atom (name : String)
  | var (name : String)
  deriving DecidableEq, Repr

def Arg.isVar : Arg → Bool
  | .atom _ => false
  | .var _ => true

structure Term where
  functor : String
  args : List Arg
  deriving DecidableEq, Repr

namespace Term

def arity (t : Term) : Nat := t.args.length

def isGround (t : Term) : Bool := t.args.all fun a => !a.isVar

theorem isGround_iff {t : Term} : t.isGround ↔ ∀ a ∈ t.args, ∃ name, a = .atom name := by
  simp only [isGround, List.all_eq_true]
  refine forall₂_congr fun a _ => ?_
  cases a <;> simp [Arg.isVar]

end Term

end LogicConsole
