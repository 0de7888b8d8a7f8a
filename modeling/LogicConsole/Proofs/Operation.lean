import LogicConsole.Dialogue
import Mathlib.Logic.Relation
/-! Runs of operations. A bind that was run splits into the run of its first part and, unless that
stopped, the run of the rest. An operation is within a step relation if each of its runs, stopped
early or not, is a sequence of such steps; a triple says what holds after its runs. Both compose
along binds. -/
namespace LogicConsole.Operation

open Relation

variable {σ ρ α β : Type}

theorem mapError_ok {ε ε' : Type} (f : ε → ε') (a : α) :
    (Except.ok a : Except ε α).mapError f = .ok a := rfl

/-- What comes of an operation in a state, and the state it leaves behind. -/
def exec (op : Operation σ α) (s : σ) : Except Stop α × σ := StateT.run (ExceptT.run op) s

@[simp] theorem exec_pure (a : α) (s : σ) : exec (pure a) s = (.ok a, s) := rfl

@[simp] theorem exec_modify (f : σ → σ) (s : σ) : exec (modify f) s = (.ok (), f s) := rfl

@[simp] theorem exec_ofCall (call : Call σ α) (s : σ) :
    exec (ofCall call) s = ((call s).1.mapError Stop.fault, (call s).2) := rfl

@[simp] theorem exec_focus (get : σ → ρ) (put : ρ → σ → σ) (op : Operation ρ α) (s : σ) :
    exec (focus get put op) s = ((exec op (get s)).1, put (exec op (get s)).2 s) := rfl

theorem exec_bind (op : Operation σ α) (next : α → Operation σ β) (s : σ) :
    exec (op >>= next) s =
      match exec op s with
      | (.ok a, s) => exec (next a) s
      | (.error stop, s) => (.error stop, s) := run_bind op next s

theorem exec_bind_of_ok {op : Operation σ α} {next : α → Operation σ β} {a : α} {s s' : σ}
    (h : exec op s = (.ok a, s')) : exec (op >>= next) s = exec (next a) s' := by
  rw [exec_bind, h]

theorem exec_bind_of_error {op : Operation σ α} {next : α → Operation σ β} {stop : Stop} {s s' : σ}
    (h : exec op s = (.error stop, s')) : exec (op >>= next) s = (.error stop, s') := by
  rw [exec_bind, h]

@[simp] theorem exec_get_bind (next : σ → Operation σ β) (s : σ) :
    exec (get >>= next) s = exec (next s) s := rfl

@[simp] theorem exec_modify_bind (f : σ → σ) (next : Unit → Operation σ β) (s : σ) :
    exec (modify f >>= next) s = exec (next ()) (f s) := rfl

/-- A bind either goes on after its first part, or ends with it. -/
theorem exec_bind_cases {op : Operation σ α} {next : α → Operation σ β} {s s' : σ}
    {r : Except Stop β} (h : exec (op >>= next) s = (r, s')) :
    (∃ a s₁, exec op s = (.ok a, s₁) ∧ exec (next a) s₁ = (r, s')) ∨
      ∃ stop, exec op s = (.error stop, s') ∧ r = .error stop := by
  rw [exec_bind] at h
  cases hop : exec op s with
  | mk first s₁ =>
    rw [hop] at h
    cases first with
    | ok a => exact .inl ⟨a, s₁, rfl, h⟩
    | error stop =>
      obtain ⟨rfl, rfl⟩ := Prod.mk.inj h
      exact .inr ⟨stop, rfl, rfl⟩

/-- Whatever comes of it, the operation goes from state to state by steps. -/
def Within (step : σ → σ → Prop) (op : Operation σ α) : Prop :=
  ∀ s, ReflTransGen step s (exec op s).2

section Within

variable {step : σ → σ → Prop}

theorem Within.mono {step' : σ → σ → Prop} {op : Operation σ α} (h : Within step op)
    (hstep : ∀ s s', step s s' → step' s s') : Within step' op :=
  fun s => ReflTransGen.mono hstep _ _ (h s)

theorem within_pure (a : α) : Within step (pure a : Operation σ α) := fun _ => .refl

theorem within_throw (stop : Stop) : Within step (throw stop : Operation σ α) := fun _ => .refl

theorem within_unfinished : Within step (unfinished : Operation σ α) := fun _ => .refl

theorem within_get : Within step (get : Operation σ σ) := fun _ => .refl

theorem within_of_step {op : Operation σ α} (h : ∀ s, step s (exec op s).2) : Within step op :=
  fun s => .single (h s)

theorem steps_bind (op : Operation σ α) {next : α → Operation σ β}
    (hnext : ∀ a, Within step (next a)) (s : σ) :
    ReflTransGen step (exec op s).2 (exec (op >>= next) s).2 := by
  rw [exec_bind]
  cases exec op s with
  | mk r s₁ =>
    cases r with
    | ok a => exact hnext a s₁
    | error stop => exact .refl

theorem within_bind {op : Operation σ α} {next : α → Operation σ β} (hop : Within step op)
    (hnext : ∀ a, Within step (next a)) : Within step (op >>= next) :=
  fun s => (hop s).trans (steps_bind op hnext s)

theorem within_ite {c : Prop} [Decidable c] {op op' : Operation σ α} (h : Within step op)
    (h' : Within step op') : Within step (if c then op else op') := by
  split
  · exact h
  · exact h'

/-- An operation on a part of the state makes steps of the whole. -/
theorem within_focus {get : σ → ρ} {put : ρ → σ → σ} {part : ρ → ρ → Prop} {op : Operation ρ α}
    (hop : Within part op) (hself : ∀ s, put (get s) s = s)
    (hstep : ∀ s a b, part a b → step (put a s) (put b s)) : Within step (focus get put op) := by
  intro s
  have hpath : ReflTransGen step (put (get s) s) (put (exec op (get s)).2 s) :=
    (hop (get s)).lift (put · s) fun a b => hstep s a b
  rwa [hself] at hpath

end Within

/-- From a state in `P` the operation gives a result and a state in `Q`, or stops as `E` allows. -/
def Triple (P : σ → Prop) (op : Operation σ α) (Q : α → σ → Prop) (E : Stop → σ → Prop) : Prop :=
  ∀ s, P s → match exec op s with
    | (.ok a, s') => Q a s'
    | (.error stop, s') => E stop s'

section Triple

variable {P P' : σ → Prop} {Q Q' : α → σ → Prop} {E E' : Stop → σ → Prop} {op op' : Operation σ α}

theorem Triple.ok (h : Triple P op Q E) {s s' : σ} {a : α} (hs : P s)
    (hrun : exec op s = (.ok a, s')) : Q a s' := by
  have := h s hs
  rwa [hrun] at this

theorem Triple.error (h : Triple P op Q E) {s s' : σ} {stop : Stop} (hs : P s)
    (hrun : exec op s = (.error stop, s')) : E stop s' := by
  have := h s hs
  rwa [hrun] at this

theorem triple_of_exec (hok : ∀ s a s', P s → exec op s = (.ok a, s') → Q a s')
    (herror : ∀ s stop s', P s → exec op s = (.error stop, s') → E stop s') : Triple P op Q E := by
  intro s hs
  cases hrun : exec op s with
  | mk r s' =>
    cases r with
    | ok a => exact hok s a s' hs hrun
    | error stop => exact herror s stop s' hs hrun

/-- What holds of the state an operation leaves, whatever came of it. -/
theorem triple_of_end {R : σ → Prop} (h : ∀ s, P s → R (exec op s).2) :
    Triple P op (fun _ => R) fun _ => R := by
  refine triple_of_exec (fun s a s' hs hrun => ?_) fun s stop s' hs hrun => ?_
  · simpa only [hrun] using h s hs
  · simpa only [hrun] using h s hs

theorem Triple.mono (h : Triple P op Q E) (hP : ∀ s, P' s → P s) (hQ : ∀ a s, Q a s → Q' a s)
    (hE : ∀ stop s, E stop s → E' stop s) : Triple P' op Q' E' :=
  triple_of_exec (fun _ _ _ hs hrun => hQ _ _ (h.ok (hP _ hs) hrun))
    fun _ _ _ hs hrun => hE _ _ (h.error (hP _ hs) hrun)

theorem Triple.of_pre (h : Triple P op Q E) (hP : ∀ s, P' s → P s) : Triple P' op Q E :=
  fun s hs => h s (hP s hs)

theorem Triple.of_error (h : Triple P op Q E) (hE : ∀ stop s, E stop s → E' stop s) :
    Triple P op Q E' := h.mono (fun _ hs => hs) (fun _ _ hs => hs) hE

theorem Triple.and (h : Triple P op Q E) (h' : Triple P' op Q' E') :
    Triple (fun s => P s ∧ P' s) op (fun a s => Q a s ∧ Q' a s)
      fun stop s => E stop s ∧ E' stop s :=
  triple_of_exec (fun _ _ _ hs hrun => ⟨h.ok hs.1 hrun, h'.ok hs.2 hrun⟩)
    fun _ _ _ hs hrun => ⟨h.error hs.1 hrun, h'.error hs.2 hrun⟩

theorem triple_pure (a : α) (h : ∀ s, P s → Q a s) : Triple P (pure a) Q E := h

theorem triple_modify {Q : Unit → σ → Prop} (f : σ → σ) (h : ∀ s, P s → Q () (f s)) :
    Triple P (modify f) Q E := h

theorem triple_ofCall {call : Call σ α}
    (hok : ∀ s a, P s → (call s).1 = .ok a → Q a (call s).2)
    (herror : ∀ s e, P s → (call s).1 = .error e → E (.fault e) (call s).2) :
    Triple P (ofCall call) Q E := by
  intro s hs
  rw [exec_ofCall]
  cases hcall : (call s).1 with
  | ok a => exact hok s a hs hcall
  | error e => exact herror s e hs hcall

theorem triple_bind {next : α → Operation σ β} {R : β → σ → Prop} (hop : Triple P op Q E)
    (hnext : ∀ a, Triple (Q a) (next a) R E) : Triple P (op >>= next) R E := by
  refine triple_of_exec (fun s b s' hs hrun => ?_) fun s stop s' hs hrun => ?_
  · rcases exec_bind_cases hrun with ⟨a, s₁, h₁, h₂⟩ | ⟨stop, -, h⟩
    · exact (hnext a).ok (hop.ok hs h₁) h₂
    · cases h
  · rcases exec_bind_cases hrun with ⟨a, s₁, h₁, h₂⟩ | ⟨stop', h₁, h⟩
    · exact (hnext a).error (hop.ok hs h₁) h₂
    · cases h
      exact hop.error hs h₁

theorem triple_ite {c : Prop} [Decidable c] (h : c → Triple P op Q E)
    (h' : ¬ c → Triple P op' Q E) : Triple P (if c then op else op') Q E := by
  split
  · exact h ‹_›
  · exact h' ‹_›

theorem triple_focus {get : σ → ρ} {put : ρ → σ → σ} {P : ρ → Prop} {Q : α → ρ → Prop}
    {E : Stop → ρ → Prop} {op : Operation ρ α} (h : Triple P op Q E)
    (hget : ∀ part s, get (put part s) = part) :
    Triple (fun s => P (get s)) (focus get put op) (fun a s => Q a (get s))
      fun stop s => E stop (get s) := by
  refine triple_of_exec (fun s a s' hs hrun => ?_) fun s stop s' hs hrun => ?_
  · rw [exec_focus] at hrun
    obtain ⟨hresult, rfl⟩ := Prod.mk.inj hrun
    rw [hget]
    exact h.ok hs (Prod.ext hresult rfl)
  · rw [exec_focus] at hrun
    obtain ⟨hresult, rfl⟩ := Prod.mk.inj hrun
    rw [hget]
    exact h.error hs (Prod.ext hresult rfl)

theorem eq_of_steps {γ : Type} (f : σ → γ) {step : σ → σ → Prop}
    (hstep : ∀ s s', step s s' → f s' = f s) {s s' : σ} (h : ReflTransGen step s s') :
    f s' = f s := by
  induction h with
  | refl => rfl
  | tail _ hlast ih => rw [hstep _ _ hlast, ih]

theorem holds_of_steps {step : σ → σ → Prop} (hstep : ∀ s s', step s s' → P s → P s') {s s' : σ}
    (h : ReflTransGen step s s') (hs : P s) : P s' := by
  induction h with
  | refl => exact hs
  | tail _ hlast ih => exact hstep _ _ hlast ih

/-- What steps preserve holds after an operation made of them. -/
theorem Within.triple {step : σ → σ → Prop} (h : Within step op)
    (hstep : ∀ s s', step s s' → P s → P s') : Triple P op (fun _ => P) fun _ => P :=
  triple_of_end fun s hs => holds_of_steps hstep (h s) hs

end Triple

end LogicConsole.Operation
