import LogicConsole.Console.Piped
import LogicConsole.Proofs.Twins

/-! Allowances do not matter. Two runs of a session that both come to their end are the same run,
however much each was allowed; and a run whose console is fed from a byte stream does come to its
end. -/
namespace LogicConsole

open Operation

namespace PipedConsole

theorem length_restLines_lt {input : List UInt8} (h : input ≠ []) :
    (restLines input).length < input.length := by
  have hdrop : (input.dropWhile (· ≠ newline)).length ≤ input.length :=
    (List.dropWhile_sublist _).length_le
  have hpos : 0 < input.length := List.length_pos_iff.2 h
  rw [restLines, List.length_drop]
  omega

/-- A line that is taken is used up, and nothing is used up at the end of the input. -/
theorem takeLine_cases (c : PipedConsole) :
    c.takeLine = (none, c) ∨
      ∃ line, c.takeLine = (some line, ⟨restLines c.input⟩) ∧
        (restLines c.input).length < c.input.length := by
  unfold takeLine
  split
  · exact .inl rfl
  · rename_i hempty
    exact .inr ⟨_, rfl, length_restLines_lt fun hnil => hempty (by rw [hnil]; rfl)⟩

instance : LawfulConsole PipedConsole where
  supply_readLine marker c := by
    simp only [Console.readLine, FiniteConsole.supply, readLine]
    rcases c.takeLine_cases with h | ⟨line, h, hlength⟩ <;> rw [h]
    · exact Nat.le_refl _
    · have hcost (result : Except SessionError LineInput) : LineInput.cost result ≤ 1 := by
        rcases result with _ | _ | _ | _ <;> simp [LineInput.cost]
      cases line with
      | ok line =>
        have := hcost (lineOf line)
        dsimp only
        omega
      | error e => exact Nat.le_of_lt hlength
  supply_readKey c := by
    simp only [Console.readKey, FiniteConsole.supply, readKey]
    rcases c.takeLine_cases with h | ⟨line, h, hlength⟩ <;> rw [h]
    · exact Nat.le_refl _
    · have hcost (key : Option Char) : Console.keyCost (.ok key) ≤ 1 := by
        cases key <;> simp [Console.keyCost]
      cases line with
      | ok line =>
        have := hcost line.head?
        dsimp only
        omega
      | error e => exact Nat.le_of_lt hlength
  supply_remember entry c := Nat.le_refl _

end PipedConsole

/-- Nothing comes of one and the same operation but one and the same. -/
theorem Operation.coupled_self {σ α : Type} (op : Operation σ α) :
    Coupled Eq op op (fun _ => Eq) Eq fun _ _ _ => False := by
  refine ⟨?_, fun _ _ _ h => h⟩
  rintro s - rfl
  rcases exec op s with ⟨(error | _) | a, s'⟩
  · exact .fault rfl
  · exact .leftShort
  · exact .ok rfl

namespace Session

variable {ε τ κ ο : Type} [Engine ε τ] [Console κ] [Output ο]

theorem twinning_self :
    Twinning (Eq : ε → ε → Prop) (fun _ : Bool => (Eq : Dialogue κ ο → Dialogue κ ο → Prop))
      fun _ _ _ => False := by
  have hpairing : Pairing (Eq : ε → ε → Prop)
      (fun _ : Bool => (Eq : Dialogue κ ο → Dialogue κ ο → Prop)) fun _ _ _ => False :=
    { engine := Engine.respects_eq
      loosen := fun _ _ _ h => h
      pending := fun h => congrArg (·.interrupt.isRaised) h
      history := fun h => congrArg _ h
      note := fun _ _ _ _ h => congrArg _ h
      handedOver := fun h => congrArg _ h
      say := fun _ _ => coupled_self _
      flush := fun _ => coupled_self _
      record := fun _ _ => coupled_self _
      readKey := coupled_self _
      collectLines := fun prompt fuel fuel' =>
        Dialogue.coupled_collectLines (fun _ _ _ _ h _ => h) (fun _ => coupled_self _) prompt fuel
          fuel' ""
      endures := fun h _ => h }
  refine hpairing.twinning ?_ (coupled_self _)
  rintro ⟨e, state⟩ - ⟨rfl, rfl⟩
  exact ⟨rfl, rfl, rfl⟩

omit [Engine ε τ] [Console κ] [Output ο] in
theorem Twin.eq {s s' : Session ε κ ο} (h : s.Twin Eq Eq s') : s = s' := by
  obtain ⟨hengine, hdialogue, htheme, hhandler, hstate, hphase⟩ := h
  cases s
  cases s'
  simp_all only

/-- Runs that come to their end agree, whatever they were allowed. -/
theorem runFor_eq_of_finished {s : Session ε κ ο} {fuel fuel' : Nat}
    (hleft : (s.runFor fuel).1 ≠ .unfinished) (hright : (s.runFor fuel').1 ≠ .unfinished) :
    s.runFor fuel = s.runFor fuel' := by
  have hself : s.Twin Eq Eq s := ⟨rfl, rfl, rfl, rfl, rfl, rfl⟩
  rcases (twinning_self (κ := κ) (ο := ο)).runFor_cases hself hleft hright with
    ⟨hsame, htwin⟩ | ⟨_, -, hfalse⟩
  · refine Prod.ext hsame ?_
    rw [runFor_of_finished hleft, runFor_of_finished hright]
    rw [htwin.eq]
  · exact hfalse.elim

end Session

end LogicConsole
