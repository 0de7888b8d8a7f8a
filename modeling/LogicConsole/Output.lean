import LogicConsole.Solution
/-!
Where output goes. A `Buffer` stores the bytes it is given, up to a limit if it has one: of a text
that does not fit it stores what fits, and refuses the text.
-/
namespace LogicConsole

class Output (ο : Type) where
  write (text : String) : Call ο Unit
  flush : Call ο Unit

structure Buffer where
  /-- The bytes stored, the last one first. -/
  stored : List UInt8 := []
  limit : Option Nat := none
  deriving DecidableEq, Repr

namespace Buffer

def bytes (b : Buffer) : List UInt8 := b.stored.reverse

def utf8 (text : String) : List UInt8 := text.toUTF8.data.toList

/-- Store bytes behind those that are there. -/
def store (bytes : List UInt8) (b : Buffer) : Buffer :=
  { b with stored := bytes.reverse ++ b.stored }

/-- The bytes of a text that still fit. -/
def fitting (text : String) (b : Buffer) : List UInt8 :=
  match b.limit with
  | none => utf8 text
  | some n => (utf8 text).take (n - b.stored.length)

def write (text : String) (b : Buffer) : Except IoError Unit × Buffer :=
  (if b.fitting text = utf8 text then .ok () else .error (.other "sink full"),
    b.store (b.fitting text))

instance : Output Buffer where
  write text b := ((b.write text).1.mapError SessionError.io, (b.write text).2)
  flush b := (.ok (), b)

@[simp] theorem bytes_store (bytes : List UInt8) (b : Buffer) :
    (b.store bytes).bytes = b.bytes ++ bytes := by
  simp [Buffer.bytes, store]

theorem bytes_write (text : String) (b : Buffer) :
    (b.write text).2.bytes = b.bytes ++ b.fitting text := bytes_store _ b

end Buffer

/-- The outputs of a kind that take every text whole and stay of this kind; `received` reads off
what they were given. -/
structure Output.Infallible {ο : Type} [Output ο] (accepts : ο → Prop)
    (received : ο → List UInt8) : Prop where
  write {o : ο} (h : accepts o) (text : String) :
    (Output.write text o).1 = .ok () ∧ accepts (Output.write text o).2 ∧
      received (Output.write text o).2 = received o ++ Buffer.utf8 text
  flush {o : ο} (h : accepts o) :
    (Output.flush o).1 = .ok () ∧ accepts (Output.flush o).2 ∧
      received (Output.flush o).2 = received o

/-- A buffer without a limit never fails. -/
theorem Buffer.infallible : Output.Infallible (fun b : Buffer => b.limit = none) Buffer.bytes where
  write {b} h text := by
    have hfit : b.fitting text = utf8 text := by simp only [fitting, h]
    have hwrite : Output.write text b = (.ok (), b.store (utf8 text)) := by
      simp only [Output.write, Buffer.write, hfit, if_true]
      rfl
    rw [hwrite]
    exact ⟨rfl, h, bytes_store _ b⟩
  flush h := ⟨rfl, h, rfl⟩

end LogicConsole
