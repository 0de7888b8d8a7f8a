/-!
The interrupt flag. Raising it twice is raising it once, and taking an interrupt lowers the flag.
-/
namespace LogicConsole

structure InterruptFlag where
  isRaised : Bool := false
  deriving DecidableEq, Repr

namespace InterruptFlag

def raise (_ : InterruptFlag) : InterruptFlag := ⟨true⟩

/-- Lower the flag, and say whether it was up. -/
def take (f : InterruptFlag) : Bool × InterruptFlag := (f.isRaised, ⟨false⟩)

@[simp] theorem isRaised_raise (f : InterruptFlag) : f.raise.isRaised = true := rfl

@[simp] theorem take_raise (f : InterruptFlag) : f.raise.take = (true, ⟨false⟩) := rfl

end InterruptFlag

end LogicConsole
