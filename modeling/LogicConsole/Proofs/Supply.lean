import LogicConsole.Console.Scripted
import LogicConsole.Proofs.Steps
/-! A session whose console gives a limited number of lines and keys comes to its end. Every round
of a loop uses up a line or a key, so the supply bounds the rounds, and a run is never cut short. -/
namespace LogicConsole

/-- A line, typed or interrupted, counts. -/
def LineInput.cost : Except SessionError LineInput → Nat
  | .ok (.line _) | .ok .interrupted => 1
  | _ => 0

def QueryInput.cost : QueryInput → Nat
  | .query _ => 1
  | .endOfInput => 0

def Console.keyCost : Except SessionError (Option Char) → Nat
  | .ok (some _) => 1
  | _ => 0

/-- What is read is used up, and nothing brings it back. -/
class LawfulConsole (κ : Type) [FiniteConsole κ] : Prop where
  supply_readLine (marker : String) (c : κ) :
    FiniteConsole.supply (Console.readLine marker c).2 +
      LineInput.cost (Console.readLine marker c).1.result ≤ FiniteConsole.supply c
  supply_readKey (c : κ) :
    FiniteConsole.supply (Console.readKey c).2 +
      Console.keyCost (Console.readKey c).1.result ≤ FiniteConsole.supply c
  supply_remember (entry : String) (c : κ) :
    FiniteConsole.supply (Console.remember entry c).2 ≤ FiniteConsole.supply c

instance : LawfulConsole ScriptedConsole where
  supply_readLine marker c := by
    obtain ⟨events, keys, prompts, recalled⟩ := c
    cases events with
    | nil => exact Nat.le_refl _
    | cons input events =>
      have hcost : LineInput.cost (.ok input) ≤ 1 := by
        cases input <;> simp [LineInput.cost]
      change events.length + keys.length + LineInput.cost (.ok input) ≤
        (events.length + 1) + keys.length
      omega
  supply_readKey c := by
    obtain ⟨events, keys, prompts, recalled⟩ := c
    cases keys with
    | nil => exact Nat.le_refl _
    | cons key keys =>
      have hcost : Console.keyCost (.ok (some key)) = 1 := rfl
      by_cases hkey : key = ScriptedConsole.interruptKey
      · simp [Console.readKey, ScriptedConsole.readKey, FiniteConsole.supply, hkey,
          Console.keyCost]
      · have hread : Console.readKey (ScriptedConsole.mk events (key :: keys) prompts recalled) =
            (⟨.ok (some key), false⟩, ⟨events, keys, prompts, recalled⟩) := by
          simp [Console.readKey, ScriptedConsole.readKey, hkey]
        rw [hread]
        change events.length + keys.length + Console.keyCost (.ok (some key)) ≤
          events.length + (keys.length + 1)
        omega
  supply_remember entry c := Nat.le_refl _

instance {κ : Type} [FiniteConsole κ] [LawfulConsole κ] : LawfulConsole (Unreliable κ) where
  supply_readLine marker u := by
    simp only [Console.readLine]
    cases Unreliable.planned u.lineFault u.lineReads with
    | some error => exact Nat.le_refl _
    | none => exact LawfulConsole.supply_readLine marker u.console
  supply_readKey u := by
    simp only [Console.readKey]
    cases Unreliable.planned u.keyFault u.keyReads with
    | some error => exact Nat.le_refl _
    | none => exact LawfulConsole.supply_readKey u.console
  supply_remember entry u := LawfulConsole.supply_remember entry u.console

namespace Operation

variable {σ ρ α β : Type} {left : σ → Nat} {n : Nat}

/-- With at most `n` left the operation is not cut short, and uses up what its result tells. -/
def Ends (left : σ → Nat) (n : Nat) (op : Operation σ α) (used : α → Nat) : Prop :=
  Triple (fun s => left s ≤ n) op (fun a s => left s + used a ≤ n) fun stop _ => stop ≠ .unfinished

theorem Ends.weaken {op : Operation σ α} {used used' : α → Nat} (h : Ends left n op used)
    (hused : ∀ a, used' a ≤ used a) : Ends left n op used' := by
  refine Triple.mono h (fun _ hs => hs) (fun a s hs => ?_) fun _ _ hstop => hstop
  have := hused a
  omega

theorem ends_pure (a : α) : Ends left n (pure a : Operation σ α) fun _ => 0 :=
  triple_pure a fun _ hs => hs

theorem ends_get : Ends left n (get : Operation σ σ) fun _ => 0 := fun _ hs => hs

theorem ends_throw {error : SessionError} {used : α → Nat} :
    Ends left n (throw (.fault error) : Operation σ α) used := fun _ _ => Stop.noConfusion

theorem ends_modify {f : σ → σ} (h : ∀ s, left (f s) ≤ left s) :
    Ends left n (modify f : Operation σ Unit) fun _ => 0 :=
  triple_modify f fun s hs => Nat.le_trans (h s) hs

theorem ends_ofCall {call : Call σ α} {used : α → Nat}
    (h : ∀ s a, (call s).1 = .ok a → left (call s).2 + used a ≤ left s) :
    Ends left n (ofCall call) used :=
  triple_ofCall (fun s a hs hcall => Nat.le_trans (h s a hcall) hs) fun _ _ _ _ => Stop.noConfusion

/-- What the first part used up is to the credit of the whole. -/
theorem ends_bind_used {op : Operation σ α} {next : α → Operation σ β} {used : α → Nat}
    {used' : β → Nat} (hop : Ends left n op used)
    (hnext : ∀ a, used a ≤ n → Ends left (n - used a) (next a) fun b => used' b - used a) :
    Ends left n (op >>= next) used' := by
  refine triple_bind hop fun a => triple_of_exec (fun s b s' hs hrun => ?_)
    fun s stop s' hs hrun => ?_
  · have hrest : left s' + (used' b - used a) ≤ n - used a :=
      (hnext a (by omega)).ok (show left s ≤ n - used a by omega) hrun
    omega
  · exact (hnext a (by omega)).error (show left s ≤ n - used a by omega) hrun

theorem ends_bind {op : Operation σ α} {next : α → Operation σ β} {used : α → Nat}
    (hop : Ends left n op used)
    (hnext : ∀ a, used a ≤ n → Ends left (n - used a) (next a) fun _ => 0) :
    Ends left n (op >>= next) fun _ => 0 :=
  ends_bind_used hop fun a ha => by simpa using hnext a ha

theorem ends_ite {c : Prop} [Decidable c] {op op' : Operation σ α} {used : α → Nat}
    (h : c → Ends left n op used) (h' : ¬ c → Ends left n op' used) :
    Ends left n (if c then op else op') used := triple_ite h h'

theorem ends_focus {get : σ → ρ} {put : ρ → σ → σ} {left : ρ → Nat} {op : Operation ρ α}
    {used : α → Nat} (h : Ends left n op used) (hget : ∀ part s, get (put part s) = part) :
    Ends (fun s => left (get s)) n (focus get put op) used := triple_focus h hget

end Operation

open Operation

section Finite

variable {κ ο : Type} [FiniteConsole κ] {n fuel : Nat}

namespace Dialogue

/-- Lines and keys the console still gives. -/
def supply (d : Dialogue κ ο) : Nat := FiniteConsole.supply d.console

@[simp] theorem supply_note (e : Event) (d : Dialogue κ ο) : (d.note e).supply = d.supply := by
  simp only [supply, console_note]

theorem ends_say [Output ο] (text : String) :
    Ends supply n (say text : Operation (Dialogue κ ο) Unit) fun _ => 0 :=
  ends_ofCall fun d a _ => by simp [supply]

theorem ends_flush [Output ο] :
    Ends supply n (flush : Operation (Dialogue κ ο) Unit) fun _ => 0 :=
  ends_ofCall fun d a _ => by simp [supply]

theorem ends_readLine [LawfulConsole κ] (marker : String) :
    Ends supply n (readLine marker : Operation (Dialogue κ ο) LineInput)
      fun input => LineInput.cost (.ok input) := by
  refine ends_ofCall fun d input h => ?_
  have hlaw := LawfulConsole.supply_readLine marker d.console
  rw [← h]
  simpa [supply] using hlaw

theorem ends_readKey [LawfulConsole κ] :
    Ends supply n (readKey : Operation (Dialogue κ ο) (Option Char))
      fun key => Console.keyCost (.ok key) := by
  refine ends_ofCall fun d key h => ?_
  have hlaw := LawfulConsole.supply_readKey d.console
  rw [← h]
  simpa [supply] using hlaw

theorem ends_takeInterrupt :
    Ends supply n (takeInterrupt : Operation (Dialogue κ ο) Bool) fun _ => 0 := by
  intro d hd
  rw [exec_takeInterrupt]
  by_cases h : d.interrupt.isRaised
  · rw [if_pos h]
    simpa [supply] using hd
  · rw [if_neg h]
    exact hd

theorem ends_record [LawfulConsole κ] (query : String) :
    Ends supply n (record query : Operation (Dialogue κ ο) Unit) fun _ => 0 := by
  unfold record
  cases History.entryOf query with
  | none => exact ends_pure ()
  | some entry =>
    refine ends_ofCall fun d a _ => ?_
    have hlaw := LawfulConsole.supply_remember entry d.console
    simpa [supply] using hlaw

/-- A query is made of one line at least. -/
theorem ends_collectLines [LawfulConsole κ] (prompt : String) (hfuel : n < fuel)
    (typed : String) :
    Ends supply n (collectLines prompt fuel typed : Operation (Dialogue κ ο) QueryInput)
      QueryInput.cost := by
  induction fuel generalizing n typed with
  | zero => omega
  | succ fuel ih =>
    refine ends_bind_used (ends_readLine _) fun input hinput => ?_
    cases input with
    | interrupted =>
      have hleft : n - 1 < fuel := by
        have : 1 ≤ n := hinput
        omega
      exact (ih hleft typed).weaken fun input => Nat.sub_le _ _
    | endOfInput => exact ends_pure QueryInput.endOfInput
    | line line =>
      have hleft : n - 1 < fuel := by
        have : 1 ≤ n := hinput
        omega
      have hrest := (ih hleft (typed ++ line ++ "\n")).weaken fun input => Nat.sub_le _ 1
      exact ends_ite (fun _ => ends_pure (QueryInput.query (typed ++ line ++ "\n"))) fun _ => hrest

theorem ends_readQuery [LawfulConsole κ] (prompt : String) (hfuel : n < fuel) :
    Ends supply n (readQuery prompt fuel : Operation (Dialogue κ ο) QueryInput)
      QueryInput.cost := by
  refine ends_bind_used (ends_collectLines prompt hfuel "") fun input hinput => ?_
  have hpure : Ends supply (n - input.cost) (pure input : Operation (Dialogue κ ο) QueryInput)
      fun input' => input'.cost - input.cost := by
    refine triple_pure input fun d hd => ?_
    simpa using hd
  cases input with
  | endOfInput => exact hpure
  | query text =>
    have hmark : Ends supply (n - 1) (mark (.completed text) : Operation (Dialogue κ ο) Unit)
        fun _ => 0 := ends_modify fun d => Nat.le_of_eq (supply_note _ d)
    exact ends_bind_used hmark fun _ _ => ends_bind_used (ends_record text) fun _ _ => hpure

end Dialogue

namespace Paging

variable {τ α : Type}

def supply (p : Paging τ κ ο) : Nat := p.dialogue.supply

theorem ends_onDialogue {op : Operation (Dialogue κ ο) α} {used : α → Nat}
    (h : Ends Dialogue.supply n op used) :
    Ends supply n (onDialogue op : Operation (Paging τ κ ο) α) used :=
  ends_focus h fun _ _ => rfl

theorem ends_say [Output ο] (text : String) :
    Ends supply n (say text : Operation (Paging τ κ ο) Unit) fun _ => 0 :=
  ends_onDialogue (Dialogue.ends_say text)

theorem ends_pull [SolutionStream τ] :
    Ends supply n (pull : Operation (Paging τ κ ο) (Option Solution)) fun _ => 0 :=
  ends_ofCall fun p _ _ => Nat.le_of_eq (Dialogue.supply_note _ p.dialogue)

theorem ends_abandon [SolutionStream τ] :
    Ends supply n (abandon : Operation (Paging τ κ ο) Unit) fun _ => 0 :=
  ends_ofCall fun p _ _ => Nat.le_of_eq (Dialogue.supply_note _ p.dialogue)

/-- Going on costs a key. -/
theorem ends_askForMore [LawfulConsole κ] [Output ο] :
    Ends supply n (askForMore : Operation (Paging τ κ ο) Bool) fun more => more.toNat := by
  refine ends_bind_used (ends_say _) fun _ _ => ?_
  refine ends_bind_used (ends_onDialogue Dialogue.ends_flush) fun _ _ => ?_
  refine ends_bind_used (ends_onDialogue Dialogue.ends_readKey) fun answer _ => ?_
  refine ends_bind_used (ends_say _) fun _ _ => ends_bind_used (ends_say _) fun _ _ => ?_
  refine triple_pure _ fun p hp => ?_
  cases answer with
  | none => simpa [wantsMore, Console.keyCost] using hp
  | some key =>
    have := Bool.toNat_le (wantsMore (some key))
    simp only [Console.keyCost] at hp ⊢
    omega

theorem ends_showFrom [SolutionStream τ] [LawfulConsole κ] [Output ο] (hfuel : n < fuel)
    (shown prompts : Nat) :
    Ends supply n (showFrom fuel shown prompts : Operation (Paging τ κ ο) PageSummary)
      fun _ => 0 := by
  induction fuel generalizing n shown prompts with
  | zero => omega
  | succ fuel ih =>
    have hpending : Ends supply n (onDialogue Dialogue.pending : Operation (Paging τ κ ο) Bool)
        fun _ => 0 := fun _ hp => hp
    refine ends_bind hpending fun raised _ => ends_ite (fun _ => ?_) fun _ => ?_
    · exact ends_bind ends_abandon fun _ _ => ends_bind (ends_say _) fun _ _ => ends_pure _
    · refine ends_bind ends_pull fun solution _ => ?_
      cases solution with
      | none => exact ends_pure _
      | some solution =>
        refine ends_bind (ends_say _) fun _ _ => ends_ite (fun _ => ?_) fun _ => ?_
        · exact ends_bind (ends_say _) fun _ _ => ends_pure _
        · refine ends_bind ends_askForMore fun more hmore => ?_
          cases more with
          | true =>
            have hkey : 1 ≤ n := hmore
            exact ih (show n - 1 < fuel by omega) _ _
          | false => exact ends_bind ends_abandon fun _ _ => ends_pure _

theorem ends_page [SolutionStream τ] [LawfulConsole κ] [Output ο] (hfuel : n < fuel) :
    Ends supply n (page fuel : Operation (Paging τ κ ο) PageSummary) fun _ => 0 := by
  refine ends_bind (ends_showFrom hfuel 0 0) fun summary _ => ?_
  have hmark : Ends Dialogue.supply n
      (Dialogue.mark (.paged summary) : Operation (Dialogue κ ο) Unit) fun _ => 0 :=
    ends_modify fun d => Nat.le_of_eq (Dialogue.supply_note _ d)
  refine ends_bind (ends_say _) fun _ _ => ?_
  refine ends_bind (ends_onDialogue Dialogue.ends_flush) fun _ _ => ?_
  exact ends_bind (ends_onDialogue hmark) fun _ _ => ends_pure _

end Paging

namespace Session

variable {ε τ α : Type}

def supply (s : Session ε κ ο) : Nat := s.dialogue.supply

theorem ends_onDialogue {op : Operation (Dialogue κ ο) α} {used : α → Nat}
    (h : Ends Dialogue.supply n op used) :
    Ends supply n (onDialogue op : Operation (Session ε κ ο) α) used :=
  ends_focus h fun _ _ => rfl

theorem ends_say [Output ο] (text : String) :
    Ends supply n (say text : Operation (Session ε κ ο) Unit) fun _ => 0 :=
  ends_onDialogue (Dialogue.ends_say text)

theorem ends_enter (phase : Phase) :
    Ends supply n (enter phase : Operation (Session ε κ ο) Unit) fun _ => 0 :=
  ends_modify fun s => Nat.le_of_eq (Dialogue.supply_note _ s.dialogue)

theorem ends_ask (call : Call ε α) (event : Event) :
    Ends supply n (ask call event : Operation (Session ε κ ο) α) fun _ => 0 :=
  ends_ofCall fun s _ _ => Nat.le_of_eq (Dialogue.supply_note _ s.dialogue)

theorem ends_drive (call : Call (ε × SessionState) α)
    (event : Except SessionError Unit → Bool → Event) :
    Ends supply n (drive call event : Operation (Session ε κ ο) α) fun _ => 0 :=
  ends_ofCall fun s _ _ => Nat.le_of_eq (Dialogue.supply_note _ s.dialogue)

theorem ends_installHandler :
    Ends supply n (installHandler : Operation (Session ε κ ο) Unit) fun _ => 0 := by
  refine ends_bind ends_get fun s _ => ?_
  cases s.handler with
  | unused => exact ends_pure _
  | taken => exact ends_throw
  | free => exact ends_modify fun s => Nat.le_of_eq (Dialogue.supply_note _ s.dialogue)

theorem ends_start [Engine ε τ] [Output ο] :
    Ends supply n (start : Operation (Session ε κ ο) Unit) fun _ => 0 := by
  have hgreet {n : Nat} : Ends supply n (greet : Operation (Session ε κ ο) Unit) fun _ => 0 :=
    ends_bind (ends_ask _ _) fun _ _ => ends_bind (ends_say _) fun _ _ =>
      ends_bind (ends_say _) fun _ _ => ends_installHandler
  refine ends_bind ends_get fun s _ => ends_ite (fun _ => ?_) fun _ => hgreet
  exact ends_bind (ends_say _) fun _ _ =>
    ends_bind (ends_onDialogue Dialogue.ends_flush) fun _ _ => hgreet

theorem ends_serviceInterrupts [Engine ε τ] :
    Ends supply n (serviceInterrupts : Operation (Session ε κ ο) Unit) fun _ => 0 :=
  ends_bind (ends_onDialogue Dialogue.ends_takeInterrupt) fun _ _ =>
    ends_ite (fun _ => ends_drive _ _) fun _ => ends_pure _

theorem ends_page [Engine ε τ] [LawfulConsole κ] [Output ο] (solutions : τ)
    (hfuel : n < fuel) :
    Ends supply n (page solutions fuel : Operation (Session ε κ ο) PageSummary) fun _ => 0 :=
  triple_page_of (Q := fun _ d => d.supply + 0 ≤ n) (E := fun stop _ => stop ≠ .unfinished)
    (Paging.ends_page hfuel) solutions

theorem ends_dispatch [Engine ε τ] [LawfulConsole κ] [Output ο] (query : String)
    (hfuel : n < fuel) :
    Ends supply n (dispatch query fuel : Operation (Session ε κ ο) Unit) fun _ => 0 := by
  refine ends_bind (ends_modify fun s => Nat.le_refl _) fun _ _ => ?_
  refine ends_bind (ends_drive _ _) fun solutions _ => ?_
  refine ends_bind (ends_page solutions hfuel) fun summary _ => ?_
  exact ends_ite (fun _ => ends_serviceInterrupts) fun _ => ends_pure _

theorem ends_execute [Engine ε τ] [LawfulConsole κ] [Output ο] (query : String)
    (hfuel : n < fuel) :
    Ends supply n (execute query fuel : Operation (Session ε κ ο) Unit) fun _ => 0 := by
  have hhistory : Ends supply n (history : Operation (Session ε κ ο) History) fun _ => 0 :=
    fun _ hs => hs
  have hrerun (k : Nat) :
      Ends supply n (rerun k fuel : Operation (Session ε κ ο) Unit) fun _ => 0 := by
    refine ends_bind hhistory fun history _ => ?_
    cases history.get? k with
    | none => exact ends_say _
    | some entry =>
      refine ends_ite (fun _ => ends_say _) fun _ => ends_bind (ends_say _) fun _ _ => ?_
      exact ends_bind (ends_onDialogue (Dialogue.ends_record entry)) fun _ _ =>
        ends_dispatch _ hfuel
  unfold execute
  cases MetaCommand.parse query with
  | none => exact ends_dispatch query hfuel
  | some command =>
    refine ends_bind (ends_modify fun s => Nat.le_of_eq (Dialogue.supply_note _ s.dialogue))
      fun _ _ => ?_
    cases command with
    | history => exact ends_bind hhistory fun _ _ => ends_say _
    | help => exact ends_say _
    | rerun k => exact hrerun k

theorem ends_serve [Engine ε τ] [LawfulConsole κ] [Output ο] (hfuel : n < fuel) :
    Ends supply n (serve fuel : Operation (Session ε κ ο) SessionEnd) fun _ => 0 := by
  have hend {n : Nat} (how : SessionEnd) : Ends supply n
      (do enter .halted; return how : Operation (Session ε κ ο) SessionEnd) fun _ => 0 :=
    ends_bind (ends_enter _) fun _ _ => ends_pure _
  have hhalted {n : Nat} : Ends supply n (isHalted : Operation (Session ε κ ο) Bool) fun _ => 0 :=
    fun _ hs => hs
  induction fuel generalizing n with
  | zero => omega
  | succ fuel ih =>
    refine ends_bind (ends_enter _) fun _ _ => ends_bind ends_serviceInterrupts fun _ _ => ?_
    refine ends_bind hhalted fun _ _ => ends_ite (fun _ => hend _) fun _ => ?_
    refine ends_bind (ends_ask _ _) fun prompt _ => ?_
    refine ends_bind (ends_onDialogue Dialogue.ends_flush) fun _ _ => ?_
    refine ends_bind (ends_onDialogue (Dialogue.ends_readQuery prompt hfuel)) fun input hinput => ?_
    cases input with
    | endOfInput => exact ends_bind (ends_say _) fun _ _ => hend _
    | query query =>
      -- The query has cost a line, so that less fuel will do for the rest.
      have hline : 1 ≤ n := hinput
      refine ends_bind ends_serviceInterrupts fun _ _ => ?_
      refine ends_bind hhalted fun _ _ => ends_ite (fun _ => hend _) fun _ => ?_
      refine ends_bind (ends_enter _) fun _ _ => ?_
      refine ends_bind (ends_execute query (show n - 1 < fuel + 1 by omega)) fun _ _ => ?_
      exact ih (show n - 1 < fuel by omega)

theorem ends_phases [Engine ε τ] [LawfulConsole κ] [Output ο] (hfuel : n < fuel) :
    Ends supply n (phases fuel : Operation (Session ε κ ο) SessionEnd) fun _ => 0 :=
  ends_bind (ends_enter _) fun _ _ => ends_bind ends_start fun _ _ =>
    ends_bind (ends_enter _) fun _ _ => ends_serve hfuel

end Session

end Finite

end LogicConsole
