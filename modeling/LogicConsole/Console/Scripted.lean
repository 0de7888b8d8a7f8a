import LogicConsole.Console
/-!
A console that plays a script: a list of line events and a list of keys. After the last event comes
the end of input, after the last key no key. The console records the prompts it was given and the
entries offered for recall. `Unreliable` makes chosen reads of any console fail.
-/
namespace LogicConsole

structure ScriptedConsole where
  events : List LineInput := []
  keys : List Char := []
  prompts : List String := []
  recalled : List String := []
  deriving DecidableEq, Repr

namespace ScriptedConsole

/-- The key that stands for an interrupt at a question. -/
def interruptKey : Char := '\x03'

def readLine (marker : String) (c : ScriptedConsole) : LineInput × ScriptedConsole :=
  (c.events.head?.getD .endOfInput,
    { c with events := c.events.tail, prompts := c.prompts ++ [marker] })

def readKey (c : ScriptedConsole) : Option Char × ScriptedConsole :=
  (c.keys.head?, { c with keys := c.keys.tail })

def remember (entry : String) (c : ScriptedConsole) : ScriptedConsole :=
  { c with recalled := c.recalled ++ [entry] }

def remainingLines (c : ScriptedConsole) : Nat :=
  c.events.countP fun | .line _ => true | _ => false

instance : FiniteConsole ScriptedConsole where
  readLine marker c :=
    let (input, c) := c.readLine marker
    (⟨.ok input, input == .interrupted⟩, c)
  readKey c :=
    let (key, c) := c.readKey
    if key = some interruptKey then (⟨.ok none, true⟩, c) else (⟨.ok key, false⟩, c)
  remember entry c := (.ok (), c.remember entry)
  supply c := c.events.length + c.keys.length

theorem readKey_eq (c : ScriptedConsole) :
    Console.readKey c =
      if c.keys.head? = some interruptKey then
        (⟨.ok none, true⟩, { c with keys := c.keys.tail })
      else (⟨.ok c.keys.head?, false⟩, { c with keys := c.keys.tail }) := rfl

end ScriptedConsole

/-- A console of which one line read and one key read may fail, told by their numbers. A read that
fails takes nothing from the console. -/
structure Unreliable (κ : Type) where
  console : κ
  lineFault : Option (Nat × IoError) := none
  keyFault : Option (Nat × IoError) := none
  lineReads : Nat := 0
  keyReads : Nat := 0

namespace Unreliable

variable {κ : Type}

/-- The error planned for read number `n`. -/
def planned (fault : Option (Nat × IoError)) (n : Nat) : Option IoError :=
  fault.bind fun (k, error) => if k = n then some error else none

instance [FiniteConsole κ] : FiniteConsole (Unreliable κ) where
  readLine marker u :=
    let counted := { u with lineReads := u.lineReads + 1 }
    match planned u.lineFault u.lineReads with
    | some error => (⟨.error (.io error), false⟩, counted)
    | none =>
      let (reading, console) := Console.readLine marker u.console
      (reading, { counted with console })
  readKey u :=
    let counted := { u with keyReads := u.keyReads + 1 }
    match planned u.keyFault u.keyReads with
    | some error => (⟨.error (.io error), false⟩, counted)
    | none =>
      let (reading, console) := Console.readKey u.console
      (reading, { counted with console })
  remember entry u :=
    let (result, console) := Console.remember entry u.console
    (result, { u with console })
  supply u := FiniteConsole.supply u.console

end Unreliable

end LogicConsole
