import LogicConsole.Proofs.Steps

/-! Where faults come from. An operation that stops by a fault has gone, by steps, to a state in
which one call of a collaborator failed, and left the state it stops in. -/
namespace LogicConsole

open Operation Relation

namespace Operation

variable {σ ρ α β : Type} {step : σ → σ → Prop} {fails : SessionError → σ → σ → Prop}

/-- The operation goes by steps, and a fault it stops by is that of the last thing it does. -/
structure Goes (step : σ → σ → Prop) (fails : SessionError → σ → σ → Prop)
    (op : Operation σ α) : Prop where
  within : Within step op
  fault {s s' : σ} {error : SessionError} (h : exec op s = (.error (.fault error), s')) :
    ∃ s₁, ReflTransGen step s s₁ ∧ fails error s₁ s'

theorem goes_pure (a : α) : Goes step fails (pure a : Operation σ α) :=
  ⟨within_pure a, nofun⟩

theorem goes_get : Goes step fails (get : Operation σ σ) := ⟨within_get, nofun⟩

theorem goes_unfinished : Goes step fails (unfinished : Operation σ α) :=
  ⟨within_unfinished, nofun⟩

theorem goes_of_step {op : Operation σ α} (hstep : ∀ s, step s (exec op s).2)
    (hfails : ∀ s s' error, exec op s = (.error (.fault error), s') → fails error s s') :
    Goes step fails op :=
  ⟨within_of_step hstep, fun h => ⟨_, .refl, hfails _ _ _ h⟩⟩

theorem goes_bind {op : Operation σ α} {next : α → Operation σ β} (hop : Goes step fails op)
    (hnext : ∀ a, Goes step fails (next a)) : Goes step fails (op >>= next) where
  within := within_bind hop.within fun a => (hnext a).within
  fault := by
    intro s s' error h
    rcases exec_bind_cases h with ⟨a, s₁, hfirst, hrest⟩ | ⟨stop, hfirst, hstop⟩
    · obtain ⟨s₂, hpath, hfails⟩ := (hnext a).fault hrest
      have hmid : ReflTransGen step s s₁ := by
        have := hop.within s
        rwa [hfirst] at this
      exact ⟨s₂, hmid.trans hpath, hfails⟩
    · cases hstop
      exact hop.fault hfirst

theorem goes_ite {c : Prop} [Decidable c] {op op' : Operation σ α} (h : Goes step fails op)
    (h' : Goes step fails op') : Goes step fails (if c then op else op') := by
  split
  · exact h
  · exact h'

theorem goes_focus {get : σ → ρ} {put : ρ → σ → σ} {part : ρ → ρ → Prop}
    {partFails : SessionError → ρ → ρ → Prop} {op : Operation ρ α} (hop : Goes part partFails op)
    (hself : ∀ s, put (get s) s = s)
    (hstep : ∀ s a b, part a b → step (put a s) (put b s))
    (hfails : ∀ s a b error, partFails error a b → fails error (put a s) (put b s)) :
    Goes step fails (focus get put op) where
  within := within_focus hop.within hself hstep
  fault := by
    intro s s' error h
    rw [exec_focus] at h
    obtain ⟨hresult, rfl⟩ := Prod.mk.inj h
    have hpart : exec op (get s) = (.error (.fault error), (exec op (get s)).2) :=
      Prod.ext hresult rfl
    obtain ⟨part₁, hpath, hlast⟩ := hop.fault hpart
    refine ⟨put part₁ s, ?_, hfails s _ _ _ hlast⟩
    have hlift : ReflTransGen step (put (get s) s) (put part₁ s) :=
      hpath.lift (put · s) fun a b => hstep s a b
    rwa [hself] at hlift

end Operation

namespace Dialogue

variable {κ ο : Type} [Console κ] [Output ο]

/-- A call of the console or the output failed. -/
inductive Fails : SessionError → Dialogue κ ο → Dialogue κ ο → Prop
  | wrote {text : String} {error : SessionError} {d d' : Dialogue κ ο}
    (h : exec (say text) d = (.error (.fault error), d')) : Fails error d d'
  | flushed {error : SessionError} {d d' : Dialogue κ ο}
    (h : exec flush d = (.error (.fault error), d')) : Fails error d d'
  | lineRead {marker : String} {error : SessionError} {d d' : Dialogue κ ο}
    (h : exec (readLine marker) d = (.error (.fault error), d')) : Fails error d d'
  | keyRead {error : SessionError} {d d' : Dialogue κ ο}
    (h : exec readKey d = (.error (.fault error), d')) : Fails error d d'
  | remembered {query : String} {error : SessionError} {d d' : Dialogue κ ο}
    (h : exec (record query) d = (.error (.fault error), d')) : Fails error d d'

end Dialogue

/-- A call of the solutions failed, or of what their display is a dialogue with. -/
inductive Paging.Fails {τ κ ο : Type} [SolutionStream τ] [Console κ] [Output ο] :
    SessionError → Paging τ κ ο → Paging τ κ ο → Prop
  | dialogue {error : SessionError} {p : Paging τ κ ο} {d : Dialogue κ ο}
    (h : Dialogue.Fails error p.dialogue d) : Fails error p { p with dialogue := d }
  | pulled {error : SessionError} {p p' : Paging τ κ ο}
    (h : exec pull p = (.error (.fault error), p')) : Fails error p p'
  | abandoned {error : SessionError} {p p' : Paging τ κ ο}
    (h : exec abandon p = (.error (.fault error), p')) : Fails error p p'

/-- A call of a session's collaborators failed, or its interrupt handler could not be installed. -/
inductive Session.Fails {ε τ κ ο : Type} [Engine ε τ] [Console κ] [Output ο] :
    SessionError → Session ε κ ο → Session ε κ ο → Prop
  | dialogue {error : SessionError} {s : Session ε κ ο} {d : Dialogue κ ο}
    (h : Dialogue.Fails error s.dialogue d) : Fails error s { s with dialogue := d }
  | paging {error : SessionError} {s : Session ε κ ο} {solutions : τ} {p : Paging (ε × τ) κ ο}
    (h : Paging.Fails error ⟨(s.engine, solutions), s.dialogue⟩ p) :
    Fails error s { s with engine := p.solutions.1, dialogue := p.dialogue }
  | introduced {error : SessionError} {s s' : Session ε κ ο}
    (h : exec (ask Engine.intro .introduced) s = (.error (.fault error), s')) : Fails error s s'
  | prompted {error : SessionError} {s s' : Session ε κ ο}
    (h : exec (ask Engine.prompt .prompted) s = (.error (.fault error), s')) : Fails error s s'
  | solved {query : String} {error : SessionError} {s s' : Session ε κ ο}
    (h : exec (drive Engine.solve (.solved query)) (s.pose query) = (.error (.fault error), s')) :
    Fails error s s'
  | interrupted {error : SessionError} {s s' : Session ε κ ο}
    (h : exec (drive Engine.interrupt .interrupted) s = (.error (.fault error), s')) :
    Fails error s s'
  | handlerTaken {s : Session ε κ ο} (h : s.handler = .taken) : Fails .handlerTaken s s

end LogicConsole
