import LogicConsole.Proofs.Operation
/-! Two operations side by side, each on a state of its own. A coupling says how the states compare
afterwards if they compared before: as a rule the operations give the same result, or stop with
the same fault. The first one may also stop at a fault of its own and be left behind, and then it
has to stay comparable with all that the second one does later. Couplings compose along binds. -/
namespace LogicConsole.Operation

variable {σ σ' ρ ρ' α β : Type}

/-- How the ends of two runs compare. Where one of them was cut short, nothing is said. -/
inductive Meets (Q : α → σ → σ' → Prop) (R : σ → σ' → Prop) (F : SessionError → σ → σ' → Prop) :
    Except Stop α × σ → Except Stop α × σ' → Prop
  | ok {a : α} {s : σ} {s' : σ'} (h : Q a s s') : Meets Q R F (.ok a, s) (.ok a, s')
  | fault {error : SessionError} {s : σ} {s' : σ'} (h : R s s') :
    Meets Q R F (.error (.fault error), s) (.error (.fault error), s')
  | behind {error : SessionError} {s : σ} {s' : σ'} {r : Except Stop α} (h : F error s s') :
    Meets Q R F (.error (.fault error), s) (r, s')
  | leftShort {s : σ} {end' : Except Stop α × σ'} : Meets Q R F (.error .unfinished, s) end'
  | rightShort {end₁ : Except Stop α × σ} {s' : σ'} : Meets Q R F end₁ (.error .unfinished, s')

/-- The operations carried out from states in `P`. An operation left behind by then stays so. -/
structure Coupled (P : σ → σ' → Prop) (op : Operation σ α) (op' : Operation σ' α)
    (Q : α → σ → σ' → Prop) (R : σ → σ' → Prop) (F : SessionError → σ → σ' → Prop) : Prop where
  meets : ∀ s s', P s s' → Meets Q R F (exec op s) (exec op' s')
  endures : ∀ error s s', F error s s' → F error s (exec op' s').2

section Meets

variable {Q Q₁ : α → σ → σ' → Prop} {R R₁ : σ → σ' → Prop} {F F₁ : SessionError → σ → σ' → Prop}
variable {end₁ : Except Stop α × σ} {end' : Except Stop α × σ'}

theorem Meets.map {Q₂ : α → ρ → ρ' → Prop} {R₂ : ρ → ρ' → Prop}
    {F₂ : SessionError → ρ → ρ' → Prop} (h : Meets Q R F end₁ end') (f : σ → ρ) (f' : σ' → ρ')
    (hQ : ∀ a s s', Q a s s' → Q₂ a (f s) (f' s')) (hR : ∀ s s', R s s' → R₂ (f s) (f' s'))
    (hF : ∀ error s s', F error s s' → F₂ error (f s) (f' s')) :
    Meets Q₂ R₂ F₂ (end₁.1, f end₁.2) (end'.1, f' end'.2) := by
  cases h with
  | ok h => exact .ok (hQ _ _ _ h)
  | fault h => exact .fault (hR _ _ h)
  | behind h => exact .behind (hF _ _ _ h)
  | leftShort => exact .leftShort
  | rightShort => exact .rightShort

theorem Meets.mono (h : Meets Q R F end₁ end') (hQ : ∀ a s s', Q a s s' → Q₁ a s s')
    (hR : ∀ s s', R s s' → R₁ s s') : Meets Q₁ R₁ F end₁ end' :=
  h.map id id hQ hR fun _ _ _ h => h

/-- With both runs at their end, either they agree or the first one was left behind. -/
theorem Meets.cases_of_finished (h : Meets Q R F end₁ end') (hleft : end₁.1 ≠ .error .unfinished)
    (hright : end'.1 ≠ .error .unfinished) :
    (end₁.1 = end'.1 ∧ ((∃ a, Q a end₁.2 end'.2) ∨ R end₁.2 end'.2)) ∨
      ∃ error, end₁.1 = .error (.fault error) ∧ F error end₁.2 end'.2 := by
  cases h with
  | ok h => exact .inl ⟨rfl, .inl ⟨_, h⟩⟩
  | fault h => exact .inl ⟨rfl, .inr h⟩
  | behind h => exact .inr ⟨_, rfl, h⟩
  | leftShort => exact absurd rfl hleft
  | rightShort => exact absurd rfl hright

end Meets

section Rules

variable {P P₁ : σ → σ' → Prop} {Q : α → σ → σ' → Prop} {Q' : β → σ → σ' → Prop}
variable {R : σ → σ' → Prop} {F : SessionError → σ → σ' → Prop}
variable {op op₁ : Operation σ α} {op' op₁' : Operation σ' α}

theorem Coupled.mono {Q₁ : α → σ → σ' → Prop} (h : Coupled P op op' Q R F)
    (hP : ∀ s s', P₁ s s' → P s s') (hQ : ∀ a s s', Q a s s' → Q₁ a s s') :
    Coupled P₁ op op' Q₁ R F :=
  ⟨fun s s' hs => (h.meets s s' (hP s s' hs)).mono hQ fun _ _ h => h, h.endures⟩

theorem coupled_pure (a : α) (h : ∀ s s', P s s' → Q a s s') :
    Coupled P (pure a) (pure a) Q R F :=
  ⟨fun s s' hs => .ok (h s s' hs), fun _ _ _ h => h⟩

theorem coupled_unfinished_left
    (hgo : ∀ error s s', F error s s' → F error s (exec op' s').2) :
    Coupled P unfinished op' Q R F := ⟨fun _ _ _ => .leftShort, hgo⟩

theorem coupled_unfinished_right : Coupled P op unfinished Q R F :=
  ⟨fun _ _ _ => .rightShort, fun _ _ _ h => h⟩

theorem coupled_modify {Q : Unit → σ → σ' → Prop} {f : σ → σ} {f' : σ' → σ'}
    (h : ∀ s s', P s s' → Q () (f s) (f' s'))
    (hgo : ∀ error s s', F error s s' → F error s (f' s')) :
    Coupled P (modify f) (modify f') Q R F := ⟨fun s s' hs => .ok (h s s' hs), hgo⟩

/-- Calls with the same result are coupled by what their states have in common afterwards. -/
theorem coupled_ofCall {call : Call σ α} {call' : Call σ' α}
    (hsame : ∀ s s', P s s' → (call s).1 = (call' s').1)
    (hok : ∀ s s' a, P s s' → (call s).1 = .ok a → Q a (call s).2 (call' s').2)
    (herror : ∀ s s' e, P s s' → (call s).1 = .error e → R (call s).2 (call' s').2)
    (hgo : ∀ error s s', F error s s' → F error s (call' s').2) :
    Coupled P (ofCall call) (ofCall call') Q R F := by
  refine ⟨fun s s' hs => ?_, hgo⟩
  rw [exec_ofCall, exec_ofCall, ← hsame s s' hs]
  cases hcall : (call s).1 with
  | ok a => exact .ok (hok s s' a hs hcall)
  | error e => exact .fault (herror s s' e hs hcall)

theorem coupled_ofCall_same {call : Call σ α} {call' : Call σ' α}
    (hcall : ∀ s s', P s s' → (call s).1 = (call' s').1 ∧ P (call s).2 (call' s').2)
    (hstop : ∀ s s', P s s' → R s s') (hgo : ∀ error s s', F error s s' → F error s (call' s').2) :
    Coupled P (ofCall call) (ofCall call') (fun _ => P) R F :=
  coupled_ofCall (fun s s' hs => (hcall s s' hs).1) (fun s s' _ hs _ => (hcall s s' hs).2)
    (fun s s' _ hs _ => hstop _ _ (hcall s s' hs).2) hgo

/-- Both operations go on with what they read off their states, which is the same. -/
theorem coupled_read {read : σ → α} {read' : σ' → α} (h : ∀ s s', P s s' → read s = read' s') :
    Coupled P (do return read (← get)) (do return read' (← get)) (fun _ => P) R F := by
  refine ⟨fun s s' hs => ?_, fun _ _ _ hs => hs⟩
  change Meets _ R F (.ok (read s), s) (.ok (read' s'), s')
  rw [h s s' hs]
  exact .ok hs

theorem endures_bind {next' : α → Operation σ' β}
    (hop : ∀ error s s', F error s s' → F error s (exec op' s').2)
    (hnext : ∀ a error s s', F error s s' → F error s (exec (next' a) s').2)
    (error : SessionError) (s : σ) (s' : σ') (h : F error s s') :
    F error s (exec (op' >>= next') s').2 := by
  have hmid := hop error s s' h
  rw [exec_bind]
  revert hmid
  rcases exec op' s' with ⟨stop | a, s₁⟩
  · exact fun hmid => hmid
  · exact fun hmid => hnext a error s s₁ hmid

theorem coupled_bind {next : α → Operation σ β} {next' : α → Operation σ' β}
    (hop : Coupled P op op' Q R F) (hnext : ∀ a, Coupled (Q a) (next a) (next' a) Q' R F) :
    Coupled P (op >>= next) (op' >>= next') Q' R F := by
  refine ⟨fun s s' hs => ?_, endures_bind hop.endures fun a => (hnext a).endures⟩
  have hmeet := hop.meets s s' hs
  rw [exec_bind, exec_bind]
  revert hmeet
  generalize exec op s = end₁
  generalize exec op' s' = end'
  intro hmeet
  cases hmeet with
  | ok h => exact (hnext _).meets _ _ h
  | fault h => exact .fault h
  | @behind error t t' r h =>
    -- Whatever the second operation does now, the first one has stopped.
    cases r with
    | ok a => exact .behind ((hnext a).endures error t t' h)
    | error stop => exact .behind h
  | leftShort => exact .leftShort
  | rightShort => exact .rightShort

theorem coupled_ite {c : Prop} [Decidable c] (h : c → Coupled P op op' Q R F)
    (h' : ¬ c → Coupled P op₁ op₁' Q R F) :
    Coupled P (if c then op else op₁) (if c then op' else op₁') Q R F := by
  split
  · exact h ‹_›
  · exact h' ‹_›

end Rules

end LogicConsole.Operation
