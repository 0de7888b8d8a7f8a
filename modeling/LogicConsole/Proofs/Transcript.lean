import LogicConsole.Proofs.Dealings
import LogicConsole.Proofs.Interrupts
import LogicConsole.Stream.Ready
import Mathlib.Order.Bounds.Basic

/-! What a display of solutions writes, character by character. Which solutions it shows is told by
their marks and by the keys that answer the questions, one key for each solution that is not marked
last. -/
namespace LogicConsole

open Operation

namespace Operation

variable {σ ν α β : Type} {seen : ν → σ → Prop} {v v₁ v₂ : ν}

/-- From every state in which `v` is seen the operation comes to the result, and then `v'` is
seen. -/
def RunsTo (seen : ν → σ → Prop) (op : Operation σ α) (v : ν) (r : Except Stop α) (v' : ν) : Prop :=
  ∀ s, seen v s → (exec op s).1 = r ∧ seen v' (exec op s).2

theorem runsTo_pure (a : α) : RunsTo seen (pure a) v (.ok a) v := fun _ h => ⟨rfl, h⟩

theorem RunsTo.bind {op : Operation σ α} {next : α → Operation σ β} {a : α} {r : Except Stop β}
    (h : RunsTo seen op v (.ok a) v₁) (hnext : RunsTo seen (next a) v₁ r v₂) :
    RunsTo seen (op >>= next) v r v₂ := by
  intro s hs
  obtain ⟨hresult, hmid⟩ := h s hs
  have hop : exec op s = (.ok a, (exec op s).2) := Prod.ext hresult rfl
  rw [exec_bind, hop]
  exact hnext _ hmid

theorem RunsTo.stop {op : Operation σ α} {next : α → Operation σ β} {stop : Stop}
    (h : RunsTo seen op v (.error stop) v₁) : RunsTo seen (op >>= next) v (.error stop) v₁ := by
  intro s hs
  obtain ⟨hresult, hend⟩ := h s hs
  have hop : exec op s = (.error stop, (exec op s).2) := Prod.ext hresult rfl
  rw [exec_bind, hop]
  exact ⟨rfl, hend⟩

end Operation

theorem Buffer.utf8_append (text more : String) :
    Buffer.utf8 (text ++ more) = Buffer.utf8 text ++ Buffer.utf8 more := by
  simp [Buffer.utf8, String.toUTF8_eq_toByteArray, String.toByteArray_append]

namespace SolutionStream

variable {τ : Type} [SolutionStream τ]

/-- The stream gives these solutions and no more, but runs dry or fails. -/
inductive Delivers : τ → List Solution → Except SessionError Unit → Prop
  | drained {s : τ} {drained : Except SessionError Unit}
    (h : (next s).1 = drained.map fun _ => none) : Delivers s [] drained
  | gives {s : τ} {solution : Solution} {rest : List Solution} {drained : Except SessionError Unit}
    (h : (next s).1 = .ok (some solution)) (hrest : Delivers (next s).2 rest drained) :
    Delivers s (solution :: rest) drained

theorem delivers_queue (pending : List Solution) :
    Delivers (Queue.mk pending) pending (.ok ()) := by
  induction pending with
  | nil => exact .drained rfl
  | cons solution pending ih => exact .gives rfl ih

end SolutionStream

namespace ScriptedConsole

/-- What comes of asking for a key when these keys are to come. -/
def answer (keys : List Char) : Option Char := keys.head?.filter (· ≠ interruptKey)

theorem readKey_answer (c : ScriptedConsole) :
    Console.readKey c = (⟨.ok (answer c.keys), c.keys.head? == some interruptKey⟩,
      { c with keys := c.keys.tail }) := by
  rw [readKey_eq, answer]
  cases c.keys with
  | nil => rfl
  | cons key rest =>
    by_cases hkey : key = interruptKey <;> simp [hkey, Option.filter]

end ScriptedConsole

namespace Paging

/-- What a solution and the answer to it say about the next one. -/
inductive Sequel
  | last
  | declined
  | wanted
  deriving DecidableEq, Repr

/-- A solution that is marked last is not answered. -/
def sequel (solution : Solution) (answer : Option Char) : Sequel :=
  if solution.isLast then .last else if wantsMore answer then .wanted else .declined

/-- What the first `k` solutions and the answers to them say about the next one. -/
def sequelAfter (solutions : List Solution) (keys : List Char) : Nat → Sequel
  | 0 => .wanted
  | i + 1 => (solutions[i]?).elim .wanted (sequel · (ScriptedConsole.answer (keys.drop i)))

/-- There is no solution to show after the first `k`, or it is not wanted. -/
def StopsAfter (solutions : List Solution) (keys : List Char) (k : Nat) : Prop :=
  k = solutions.length ∨ sequelAfter solutions keys k ≠ .wanted

instance (solutions : List Solution) (keys : List Char) (k : Nat) :
    Decidable (StopsAfter solutions keys k) := inferInstanceAs (Decidable (_ ∨ _))

/-- The questions asked about the first `k` solutions. -/
def questions (solutions : List Solution) (k : Nat) : Nat :=
  (solutions.take k).countP (!·.isLast)

/-- How a solution is shown, and the answer to it. -/
def piece (solution : Solution) (answer : Option Char) : String :=
  solution.text ++ if solution.isLast then "\n" else moreQuestion ++ echo answer ++ "\n"

/-- How the first `k` solutions are shown. -/
def transcript (solutions : List Solution) (keys : List Char) (k : Nat) : String :=
  String.join ((solutions.take k).mapIdx fun i solution =>
    piece solution (ScriptedConsole.answer (keys.drop i)))

/-- What is asked of a stream of which `k` solutions are shown. -/
def requestsFor (k : Nat) : Sequel → List Request
  | .last => List.replicate k .next
  | .declined => List.replicate k .next ++ [.abandon]
  | .wanted => List.replicate (k + 1) .next

/-- What comes of a display of some solutions, with questions, of a stream that comes to `drained`
after its last solution. -/
def conclusion (shown prompts : Nat) (drained : Except SessionError Unit) :
    Sequel → Except Stop PageSummary
  | .last => .ok ⟨shown, prompts, .exhausted⟩
  | .declined => .ok ⟨shown, prompts, .declined⟩
  | .wanted => (drained.mapError Stop.fault).map fun _ => ⟨shown, prompts, .exhausted⟩

/-- A display that has not failed is followed by a blank line. -/
def separator : Except Stop PageSummary → String
  | .ok _ => "\n"
  | .error _ => ""

section Least

variable {solution : Solution} {rest : List Solution} {keys : List Char} {k : Nat}

theorem not_stopsAfter_zero : ¬ StopsAfter (solution :: rest) keys 0 := by
  rintro (h | h)
  · cases h
  · exact h rfl

theorem sequelAfter_succ (h : sequel solution (ScriptedConsole.answer keys) = .wanted) :
    sequelAfter (solution :: rest) keys (k + 1) = sequelAfter rest keys.tail k := by
  cases k with
  | zero => exact h
  | succ i => simp only [sequelAfter, List.getElem?_cons_succ, List.drop_tail]

theorem isLeast_nil : IsLeast {k | StopsAfter [] keys k} 0 :=
  ⟨.inl rfl, fun _ _ => Nat.zero_le _⟩

theorem isLeast_one (h : sequel solution (ScriptedConsole.answer keys) ≠ .wanted) :
    IsLeast {k | StopsAfter (solution :: rest) keys k} 1 := by
  refine ⟨.inr h, fun k hk => Nat.pos_of_ne_zero ?_⟩
  rintro rfl
  exact not_stopsAfter_zero hk

theorem isLeast_succ (h : sequel solution (ScriptedConsole.answer keys) = .wanted)
    (hk : IsLeast {k | StopsAfter rest keys.tail k} k) :
    IsLeast {k | StopsAfter (solution :: rest) keys k} (k + 1) := by
  have hiff (i : Nat) :
      StopsAfter (solution :: rest) keys (i + 1) ↔ StopsAfter rest keys.tail i := by
    simp only [StopsAfter, sequelAfter_succ h, List.length_cons, Nat.add_right_cancel_iff]
  refine ⟨(hiff k).2 hk.1, fun i hi => ?_⟩
  cases i with
  | zero => exact absurd hi not_stopsAfter_zero
  | succ i => exact Nat.succ_le_succ (hk.2 ((hiff i).1 hi))

end Least

/-- What is seen of a display under way: what its stream was asked for, the keys to come, whether
the interrupt flag is up, and what was said. -/
structure View where
  requests : List Request := []
  keys : List Char
  up : Bool := false
  said : String := ""

/-- The view after `k` solutions. With a flag it shares, the console raises the flag at once. -/
def View.after (v : View) (shared : Bool) (solutions : List Solution) (k : Nat) : View where
  requests := v.requests ++ requestsFor k (sequelAfter solutions v.keys k)
  keys := v.keys.drop (questions solutions k)
  up := v.up ||
    shared && (v.keys.take (questions solutions k)).contains ScriptedConsole.interruptKey
  said := v.said ++ transcript solutions v.keys k

/-- The view after a solution was pulled and its text was said. -/
def View.shown (v : View) (solution : Solution) : View :=
  { v with requests := v.requests ++ [.next], said := v.said ++ solution.text }

/-- The view after a question was asked. -/
def View.asked (v : View) (shared : Bool) : View :=
  { v with
    keys := v.keys.tail
    up := v.up || shared && (v.keys.head? == some ScriptedConsole.interruptKey)
    said := v.said ++ moreQuestion ++ echo (ScriptedConsole.answer v.keys) ++ "\n" }

section After

variable {solution : Solution} {rest : List Solution} {keys : List Char} {k : Nat} {v : View}
variable {shared : Bool}

theorem requestsFor_succ (k : Nat) (q : Sequel) :
    requestsFor (k + 1) q = .next :: requestsFor k q := by
  cases q <;> rfl

theorem questions_succ :
    questions (solution :: rest) (k + 1) =
      questions rest k + if solution.isLast then 0 else 1 := by
  cases h : solution.isLast <;> simp [questions, h]

theorem transcript_succ :
    transcript (solution :: rest) keys (k + 1) =
      piece solution (ScriptedConsole.answer keys) ++ transcript rest keys.tail k := by
  simp [transcript, List.mapIdx_cons, List.drop_tail]

theorem View.after_nil (v : View) (shared : Bool) :
    v.after shared [] 0 = { v with requests := v.requests ++ [.next] } := by
  simp [View.after, sequelAfter, requestsFor, questions, transcript]

theorem View.after_last (v : View) (shared : Bool) (h : solution.isLast) :
    v.after shared (solution :: rest) 1 =
      { v.shown solution with said := (v.shown solution).said ++ "\n" } := by
  simp [View.after, View.shown, sequelAfter, sequel, h, requestsFor, questions, transcript, piece,
    String.append_assoc]

theorem View.after_asked (v : View) (shared : Bool) (h : solution.isLast = false) (k : Nat) :
    v.after shared (solution :: rest) (k + 1) =
      { ((v.shown solution).asked shared).after shared rest k with
        requests := v.requests ++
          requestsFor (k + 1) (sequelAfter (solution :: rest) v.keys (k + 1)) } := by
  -- The first key answers the question about this solution, and the others come after it.
  have hup : (v.keys.take (questions rest k + 1)).contains ScriptedConsole.interruptKey =
      (v.keys.head? == some ScriptedConsole.interruptKey ||
        (v.keys.tail.take (questions rest k)).contains ScriptedConsole.interruptKey) := by
    cases v.keys with
    | nil => simp
    | cons key keys =>
      by_cases hkey : key = ScriptedConsole.interruptKey
      · simp [hkey]
      · simp [hkey, Ne.symm hkey]
  simp only [View.after, View.asked, View.shown, questions_succ, h, transcript_succ, piece, hup,
    Bool.false_eq_true, if_false, List.drop_tail, Bool.and_or_distrib_left, Bool.or_assoc,
    String.append_assoc]

theorem View.after_declined (v : View) (shared : Bool) (hlast : solution.isLast = false)
    (hmore : wantsMore (ScriptedConsole.answer v.keys) = false) :
    v.after shared (solution :: rest) 1 =
      { (v.shown solution).asked shared with
        requests := ((v.shown solution).asked shared).requests ++ [.abandon] } := by
  rw [after_asked v shared hlast 0]
  simp [View.after, View.shown, View.asked, sequelAfter, sequel, hlast, hmore, requestsFor,
    questions, transcript]

theorem View.after_wanted (v : View) (shared : Bool)
    (h : sequel solution (ScriptedConsole.answer v.keys) = .wanted)
    (hlast : solution.isLast = false) :
    v.after shared (solution :: rest) (k + 1) =
      ((v.shown solution).asked shared).after shared rest k := by
  rw [after_asked v shared hlast k, sequelAfter_succ h, requestsFor_succ]
  simp [View.after, View.shown, View.asked]

end After

section Walk

variable {τ ο : Type} [SolutionStream τ] [Output ο]

/-- The view of a display that began as `p₀`. -/
structure Seen (accepts : ο → Prop) (received : ο → List UInt8)
    (p₀ : Paging τ ScriptedConsole ο) (v : View) (p : Paging τ ScriptedConsole ο) : Prop where
  solutions : p.solutions = (SolutionStream.serveAll v.requests p₀.solutions).2
  requests : p.dialogue.journal.requests = p₀.dialogue.journal.requests ++ v.requests
  console : p.dialogue.console = { p₀.dialogue.console with keys := v.keys }
  flag : p.dialogue.interrupt.isRaised = v.up
  shared : p.dialogue.otherFlag.isNone = p₀.dialogue.otherFlag.isNone
  quiet : p.dialogue.Quiet
  accepted : accepts p.dialogue.output
  received : received p.dialogue.output =
    received p₀.dialogue.output ++ Buffer.utf8 v.said

variable {accepts : ο → Prop} {received : ο → List UInt8} {p₀ p : Paging τ ScriptedConsole ο}
variable {v : View}

abbrev Takes (accepts : ο → Prop) (received : ο → List UInt8) (p₀ : Paging τ ScriptedConsole ο)
    {α : Type} (op : Operation (Paging τ ScriptedConsole ο) α) (v : View) (r : Except Stop α)
    (v' : View) : Prop := RunsTo (Seen accepts received p₀) op v r v'

omit [Output ο] in
theorem Seen.note {s : τ} {d : Dialogue ScriptedConsole ο} (h : Seen accepts received p₀ v ⟨s, d⟩)
    {e : Event} (he : e.requests = []) : Seen accepts received p₀ v ⟨s, d.note e⟩ := by
  rw [Dialogue.note_of_quiet h.quiet]
  refine ⟨h.solutions, ?_, h.console, h.flag, h.shared, h.quiet, h.accepted, h.received⟩
  simp only [Journal.requests, he, List.append_nil]
  exact h.requests

omit [Output ο] in
/-- The stream serves a request. -/
theorem Seen.serve (h : Seen accepts received p₀ v p) {request : Request} {e : Event}
    (he : e.requests = [request]) :
    Seen accepts received p₀ { v with requests := v.requests ++ [request] }
      ⟨(SolutionStream.serve request p.solutions).2, p.dialogue.note e⟩ := by
  rw [Dialogue.note_of_quiet h.quiet]
  refine ⟨?_, ?_, h.console, h.flag, h.shared, h.quiet, h.accepted, h.received⟩
  · rw [SolutionStream.serveAll_append, h.solutions]
    rfl
  · simp only [Journal.requests, he, h.requests, List.append_assoc]

theorem takes_say (hsink : Output.Infallible accepts received) (text : String) :
    Takes accepts received p₀ (say text) v (.ok ()) { v with said := v.said ++ text } := by
  intro p hp
  obtain ⟨hok, haccepted, hreceived⟩ := hsink.write hp.accepted text
  simp only [say, onDialogue, Dialogue.say, exec_focus, exec_ofCall, hok]
  refine ⟨rfl, Seen.note ?_ rfl⟩
  refine ⟨hp.solutions, hp.requests, hp.console, hp.flag, hp.shared, hp.quiet, haccepted, ?_⟩
  rw [hreceived, hp.received, Buffer.utf8_append, List.append_assoc]

theorem takes_flush (hsink : Output.Infallible accepts received) :
    Takes accepts received p₀ (onDialogue Dialogue.flush) v (.ok ()) v := by
  intro p hp
  obtain ⟨hok, haccepted, hreceived⟩ := hsink.flush hp.accepted
  simp only [onDialogue, Dialogue.flush, exec_focus, exec_ofCall, hok]
  refine ⟨rfl, Seen.note ?_ rfl⟩
  exact ⟨hp.solutions, hp.requests, hp.console, hp.flag, hp.shared, hp.quiet, haccepted,
    hreceived.trans hp.received⟩

omit [Output ο] in
theorem takes_pending {up : Bool} (h : v.up = up) :
    Takes accepts received p₀ (onDialogue Dialogue.pending) v (.ok up) v :=
  fun _ hp => ⟨congrArg Except.ok (hp.flag.trans h), hp⟩

omit [Output ο] in
theorem takes_mark {e : Event} (he : e.requests = []) :
    Takes accepts received p₀ (onDialogue (Dialogue.mark e)) v (.ok ()) v :=
  fun _ hp => ⟨rfl, hp.note he⟩

omit [Output ο] in
theorem takes_pull {result : Except SessionError (Option Solution)}
    (h : (SolutionStream.next (SolutionStream.serveAll v.requests p₀.solutions).2).1 = result) :
    Takes accepts received p₀ pull v (result.mapError Stop.fault)
      { v with requests := v.requests ++ [.next] } := by
  intro p hp
  rw [← hp.solutions] at h
  subst h
  exact ⟨rfl, hp.serve rfl⟩

omit [Output ο] in
theorem takes_abandon (h : ∀ s : τ, (SolutionStream.abandon s).1 = .ok ()) :
    Takes accepts received p₀ abandon v (.ok ())
      { v with requests := v.requests ++ [.abandon] } := by
  intro p hp
  refine ⟨?_, hp.serve rfl⟩
  simp only [abandon, exec_ofCall, h]
  rfl

omit [Output ο] in
/-- The console raises the display's flag if it shares it. -/
theorem Seen.hear {s : τ} {d : Dialogue ScriptedConsole ο} (h : Seen accepts received p₀ v ⟨s, d⟩)
    (raised : Bool) :
    Seen accepts received p₀ { v with up := v.up || p₀.dialogue.otherFlag.isNone && raised }
      ⟨s, d.hear raised⟩ := by
  obtain ⟨hsolutions, hrequests, hconsole, hflag, hshared, hquiet, haccepted, hreceived⟩ := h
  dsimp only at hsolutions hrequests hconsole hflag hshared hquiet haccepted hreceived
  cases raised with
  | false =>
    rw [Bool.and_false, Bool.or_false]
    exact ⟨hsolutions, hrequests, hconsole, hflag, hshared, hquiet, haccepted, hreceived⟩
  | true =>
    rw [← hshared, Bool.and_true]
    cases hother : d.otherFlag with
    | none =>
      simp only [Dialogue.hear, hother, if_true]
      refine ⟨hsolutions, ?_, hconsole, ?_, hshared, hquiet, haccepted, hreceived⟩
      · exact (List.append_nil _).trans hrequests
      · exact (Bool.or_true _).symm
    | some flag =>
      simp only [Dialogue.hear, hother, if_true]
      rw [hother] at hshared
      refine ⟨hsolutions, hrequests, hconsole, ?_, hshared, hquiet, haccepted, hreceived⟩
      exact hflag.trans (Bool.or_false _).symm

omit [Output ο] in
theorem takes_readKey :
    Takes accepts received p₀ (onDialogue Dialogue.readKey) v (.ok (ScriptedConsole.answer v.keys))
      { v with
        keys := v.keys.tail
        up := v.up || p₀.dialogue.otherFlag.isNone &&
          (v.keys.head? == some ScriptedConsole.interruptKey) } := by
  intro p hp
  have hkeys : p.dialogue.console.keys = v.keys := by rw [hp.console]
  simp only [onDialogue, Dialogue.readKey, exec_focus, exec_ofCall,
    ScriptedConsole.readKey_answer, hkeys]
  refine ⟨rfl, Seen.hear (v := { v with keys := v.keys.tail }) (Seen.note ?_ rfl) _⟩
  refine ⟨hp.solutions, hp.requests, ?_, hp.flag, hp.shared, hp.quiet, hp.accepted, hp.received⟩
  rw [hp.console]

theorem takes_askForMore (hsink : Output.Infallible accepts received) :
    Takes accepts received p₀ askForMore v (.ok (wantsMore (ScriptedConsole.answer v.keys)))
      (v.asked p₀.dialogue.otherFlag.isNone) :=
  (takes_say hsink _).bind <| (takes_flush hsink).bind <| takes_readKey.bind <|
    (takes_say hsink _).bind <| (takes_say hsink _).bind <| runsTo_pure _

section Round

variable {solution : Solution} {fuel shown prompts : Nat}

/-- Unless the flag is up, a round pulls, and ends when no solution comes of it. -/
theorem takes_showFrom_of_drained (hup : v.up = false) {drained : Except SessionError Unit}
    (hnext : (SolutionStream.next (SolutionStream.serveAll v.requests p₀.solutions).2).1 =
      drained.map fun _ => none) :
    Takes accepts received p₀ (showFrom (fuel + 1) shown prompts) v
      (conclusion shown prompts drained .wanted) { v with requests := v.requests ++ [.next] } := by
  have hpull : Takes accepts received p₀ pull v ((drained.map fun _ => none).mapError Stop.fault)
      { v with requests := v.requests ++ [.next] } := takes_pull hnext
  refine (takes_pending hup).bind ?_
  rw [if_neg Bool.false_ne_true]
  cases drained with
  | ok _ => exact hpull.bind (runsTo_pure _)
  | error error => exact hpull.stop

section Given

variable (hsink : Output.Infallible accepts received) (hup : v.up = false)
variable (hnext : (SolutionStream.next (SolutionStream.serveAll v.requests p₀.solutions).2).1 =
  .ok (some solution))
include hsink hup hnext

/-- Unless the flag is up, a round shows the solution that is given. -/
theorem takes_showFrom_of_given {r : Except Stop PageSummary} {v' : View}
    (hrest : Takes accepts received p₀
      (if solution.isLast then do
        say "\n"
        return ⟨shown + 1, prompts, .exhausted⟩
      else do
        if ← askForMore then showFrom fuel (shown + 1) (prompts + 1)
        else
          abandon
          return ⟨shown + 1, prompts + 1, .declined⟩) (v.shown solution) r v') :
    Takes accepts received p₀ (showFrom (fuel + 1) shown prompts) v r v' := by
  refine (takes_pending hup).bind ?_
  rw [if_neg Bool.false_ne_true]
  exact (takes_pull hnext).bind ((takes_say hsink _).bind hrest)

theorem takes_showFrom_of_last (hlast : solution.isLast = true) :
    Takes accepts received p₀ (showFrom (fuel + 1) shown prompts) v
      (.ok ⟨shown + 1, prompts, .exhausted⟩)
      { v.shown solution with said := (v.shown solution).said ++ "\n" } := by
  refine takes_showFrom_of_given hsink hup hnext ?_
  rw [if_pos hlast]
  exact (takes_say hsink _).bind (runsTo_pure _)

theorem takes_showFrom_of_declined (habandon : ∀ s : τ, (SolutionStream.abandon s).1 = .ok ())
    (hlast : solution.isLast = false) (hmore : wantsMore (ScriptedConsole.answer v.keys) = false) :
    Takes accepts received p₀ (showFrom (fuel + 1) shown prompts) v
      (.ok ⟨shown + 1, prompts + 1, .declined⟩)
      { (v.shown solution).asked p₀.dialogue.otherFlag.isNone with
        requests :=
          ((v.shown solution).asked p₀.dialogue.otherFlag.isNone).requests ++ [.abandon] } := by
  have hask : Takes accepts received p₀ askForMore (v.shown solution) _ _ := takes_askForMore hsink
  refine takes_showFrom_of_given hsink hup hnext ?_
  rw [if_neg (by simp [hlast])]
  refine hask.bind ?_
  rw [if_neg (by simp [View.shown, hmore])]
  exact (takes_abandon habandon).bind (runsTo_pure _)

/-- When more is wanted, the next round goes on from where this one ends. -/
theorem takes_showFrom_of_wanted {r : Except Stop PageSummary} {v' : View}
    (hlast : solution.isLast = false) (hmore : wantsMore (ScriptedConsole.answer v.keys) = true)
    (hrest : Takes accepts received p₀ (showFrom fuel (shown + 1) (prompts + 1))
      ((v.shown solution).asked p₀.dialogue.otherFlag.isNone) r v') :
    Takes accepts received p₀ (showFrom (fuel + 1) shown prompts) v r v' := by
  have hask : Takes accepts received p₀ askForMore (v.shown solution) _ _ := takes_askForMore hsink
  refine takes_showFrom_of_given hsink hup hnext ?_
  rw [if_neg (by simp [hlast])]
  refine hask.bind ?_
  rw [if_pos (by simpa [View.shown] using hmore)]
  exact hrest

end Given

/-- An answer that is for more was given, and is none that raises a flag. -/
theorem keys_of_wantsMore {keys : List Char} (h : wantsMore (ScriptedConsole.answer keys) = true) :
    keys ≠ [] ∧ (keys.head? == some ScriptedConsole.interruptKey) = false := by
  cases keys with
  | nil => cases h
  | cons key keys =>
    refine ⟨List.cons_ne_nil _ _, ?_⟩
    by_cases hkey : key = ScriptedConsole.interruptKey
    · subst hkey
      cases h
    · simp [hkey]

variable (p₀) in
theorem takes_showFrom (hsink : Output.Infallible accepts received)
    (habandon : ∀ s : τ, (SolutionStream.abandon s).1 = .ok ()) {s : τ} {solutions : List Solution}
    {drained : Except SessionError Unit} (hstream : SolutionStream.Delivers s solutions drained)
    (hs : (SolutionStream.serveAll v.requests p₀.solutions).2 = s) (hup : v.up = false)
    (hfuel : v.keys.length < fuel) (shown prompts : Nat) : ∃ k,
      IsLeast {k | StopsAfter solutions v.keys k} k ∧
        Takes accepts received p₀ (showFrom fuel shown prompts) v
          (conclusion (shown + k) (prompts + questions solutions k) drained
            (sequelAfter solutions v.keys k))
          (v.after p₀.dialogue.otherFlag.isNone solutions k) := by
  -- Each answer for more is a key, so there is a round for every key and one for the end.
  obtain ⟨fuel, rfl⟩ : ∃ n, fuel = n + 1 := ⟨fuel - 1, by omega⟩
  induction hstream generalizing v fuel shown prompts with
  | drained hnext =>
    refine ⟨0, isLeast_nil, ?_⟩
    rw [View.after_nil]
    exact takes_showFrom_of_drained hup (hs ▸ hnext)
  | @gives s solution rest drained hnext _ ih =>
    rw [← hs] at hnext
    cases hlast : solution.isLast with
    | true =>
      refine ⟨1, isLeast_one (by simp [sequel, hlast]), ?_⟩
      rw [View.after_last v _ hlast]
      have hround : Takes accepts received p₀ (showFrom (fuel + 1) shown prompts) v _ _ :=
        takes_showFrom_of_last hsink hup hnext hlast
      simpa [conclusion, sequelAfter, sequel, questions, hlast] using hround
    | false =>
      cases hmore : wantsMore (ScriptedConsole.answer v.keys) with
      | false =>
        refine ⟨1, isLeast_one (by simp [sequel, hlast, hmore]), ?_⟩
        rw [View.after_declined v _ hlast hmore]
        have hround : Takes accepts received p₀ (showFrom (fuel + 1) shown prompts) v _ _ :=
          takes_showFrom_of_declined hsink hup hnext habandon hlast hmore
        simpa [conclusion, sequelAfter, sequel, questions, hlast, hmore] using hround
      | true =>
        have hwanted : sequel solution (ScriptedConsole.answer v.keys) = .wanted := by
          simp [sequel, hlast, hmore]
        obtain ⟨hne, hplain⟩ := keys_of_wantsMore hmore
        have hkeys : 0 < v.keys.length := List.length_pos_iff.2 hne
        obtain ⟨fuel, rfl⟩ : ∃ n, fuel = n + 1 := ⟨fuel - 1, by omega⟩
        have hrest : (SolutionStream.serveAll (v.requests ++ [.next]) p₀.solutions).2 =
            (SolutionStream.next s).2 := by
          rw [SolutionStream.serveAll_append, hs]
          rfl
        obtain ⟨k, hleast, hrun⟩ := ih (v := (v.shown solution).asked p₀.dialogue.otherFlag.isNone)
          hrest (by simp [View.asked, View.shown, hup, hplain]) (shown + 1) (prompts + 1) fuel
          (by simp [View.asked, View.shown]; omega)
        refine ⟨k + 1, isLeast_succ hwanted hleast, ?_⟩
        rw [View.after_wanted v _ hwanted hlast, sequelAfter_succ hwanted, questions_succ, hlast,
          if_neg Bool.false_ne_true, show shown + (k + 1) = shown + 1 + k by omega,
          show prompts + (questions rest k + 1) = prompts + 1 + questions rest k by omega]
        exact takes_showFrom_of_wanted hsink hup hnext hlast hmore hrun

theorem takes_showFrom_of_up (hsink : Output.Infallible accepts received)
    (habandon : ∀ s : τ, (SolutionStream.abandon s).1 = .ok ()) (hup : v.up = true)
    (fuel shown prompts : Nat) :
    Takes accepts received p₀ (showFrom (fuel + 1) shown prompts) v
      (.ok ⟨shown, prompts, .interrupted⟩)
      { v with requests := v.requests ++ [.abandon], said := v.said ++ "interrupted\n" } := by
  refine (takes_pending hup).bind ?_
  rw [if_pos rfl]
  exact (takes_abandon habandon).bind ((takes_say hsink _).bind (runsTo_pure _))

end Round

theorem takes_page (hsink : Output.Infallible accepts received) {fuel : Nat}
    {r : Except Stop PageSummary} {v' : View}
    (h : Takes accepts received p₀ (showFrom fuel 0 0) v r v') :
    Takes accepts received p₀ (page fuel) v r { v' with said := v'.said ++ separator r } := by
  cases r with
  | ok summary =>
    exact h.bind <| (takes_say hsink _).bind <| (takes_flush hsink).bind <|
      (takes_mark rfl).bind <| runsTo_pure _
  | error stop =>
    rw [separator, String.append_empty]
    exact h.stop

/-- The view of a display before anything was done. -/
def View.start (p : Paging τ ScriptedConsole ο) : View :=
  { keys := p.dialogue.console.keys, up := p.dialogue.interrupt.isRaised }

omit [Output ο] in
theorem seen_start (haccepted : accepts p.dialogue.output) (hquiet : p.dialogue.Quiet) :
    Seen accepts received p (View.start p) p :=
  ⟨rfl, (List.append_nil _).symm, rfl, rfl, rfl, hquiet, haccepted, (List.append_nil _).symm⟩

/-- What comes of a display that a pending interrupt forbids: nothing is pulled or read. -/
structure Refuses (received : ο → List UInt8) (p : Paging τ ScriptedConsole ο)
    (r : Except Stop PageSummary) (p' : Paging τ ScriptedConsole ο) : Prop where
  result : r = .ok ⟨0, 0, .interrupted⟩
  output : received p'.dialogue.output =
    received p.dialogue.output ++ Buffer.utf8 "interrupted\n\n"
  requests : p'.dialogue.journal.requests = p.dialogue.journal.requests ++ [.abandon]
  stream : p'.solutions = (SolutionStream.abandon p.solutions).2
  console : p'.dialogue.console = p.dialogue.console
  flag : p'.dialogue.interrupt.isRaised = true

/-- What comes of a display of the first `k` of some solutions, which a stream gives before it comes
to `drained`. -/
structure Shows (received : ο → List UInt8) (p : Paging τ ScriptedConsole ο)
    (solutions : List Solution) (drained : Except SessionError Unit) (k : Nat)
    (r : Except Stop PageSummary) (p' : Paging τ ScriptedConsole ο) : Prop where
  least : IsLeast {k | StopsAfter solutions p.dialogue.console.keys k} k
  result : r = conclusion k (questions solutions k) drained
    (sequelAfter solutions p.dialogue.console.keys k)
  output : received p'.dialogue.output = received p.dialogue.output ++
    Buffer.utf8 (transcript solutions p.dialogue.console.keys k ++ separator r)
  /-- There is a key for each question, or no key is left. -/
  console : p'.dialogue.console =
    { p.dialogue.console with keys := p.dialogue.console.keys.drop (questions solutions k) }
  requests : p'.dialogue.journal.requests = p.dialogue.journal.requests ++
    requestsFor k (sequelAfter solutions p.dialogue.console.keys k)
  stream : p'.solutions = (SolutionStream.serveAll
    (requestsFor k (sequelAfter solutions p.dialogue.console.keys k)) p.solutions).2
  flag : p'.dialogue.interrupt.isRaised = (p.dialogue.otherFlag.isNone &&
    (p.dialogue.console.keys.take (questions solutions k)).contains ScriptedConsole.interruptKey)

/-- A display shows the solutions up to the first one after which none is wanted or none is left,
each with the answer to it. -/
theorem page_transcript (hsink : Output.Infallible accepts received)
    (habandon : ∀ s : τ, (SolutionStream.abandon s).1 = .ok ()) {solutions : List Solution}
    {drained : Except SessionError Unit}
    (hstream : SolutionStream.Delivers p.solutions solutions drained)
    (haccepted : accepts p.dialogue.output) (hquiet : p.dialogue.Quiet) {fuel : Nat}
    (hfuel : p.dialogue.console.keys.length < fuel) :
    (p.dialogue.interrupt.isRaised = true →
      Refuses received p (exec (page fuel) p).1 (exec (page fuel) p).2) ∧
    (p.dialogue.interrupt.isRaised = false → ∃ k,
      Shows received p solutions drained k (exec (page fuel) p).1 (exec (page fuel) p).2) := by
  have hstart : Seen accepts received p (View.start p) p := seen_start haccepted hquiet
  refine ⟨fun hup => ?_, fun hdown => ?_⟩
  · obtain ⟨fuel, rfl⟩ : ∃ n, fuel = n + 1 := ⟨fuel - 1, by omega⟩
    obtain ⟨hresult, hend⟩ :=
      takes_page hsink (takes_showFrom_of_up hsink habandon hup fuel 0 0) p hstart
    exact ⟨hresult, hend.received, hend.requests, hend.solutions, hend.console,
      hend.flag.trans hup⟩
  · obtain ⟨k, hleast, hshow⟩ := takes_showFrom p (v := View.start p) hsink habandon hstream rfl
      hdown hfuel 0 0
    rw [Nat.zero_add, Nat.zero_add] at hshow
    obtain ⟨hresult, hend⟩ := takes_page hsink hshow p hstart
    refine ⟨k, hleast, hresult, ?_, hend.console, hend.requests, hend.solutions, ?_⟩
    · rw [hend.received, hresult]
      simp only [View.after, View.start, String.empty_append]
    · rw [hend.flag]
      simp [View.after, View.start, hdown]

end Walk

/-- Three solutions, and the question about the second one is answered with an interrupt. -/
def curtailed (up : Bool) : Paging Queue ScriptedConsole Buffer where
  solutions := Queue.ofAnswers ["a", "b", "c"]
  dialogue :=
    { console := { keys := ['y', ScriptedConsole.interruptKey, 'y'] }
      output := {}
      interrupt := ⟨up⟩ }

theorem curtailed_transcript :
    SolutionStream.Delivers (Queue.ofAnswers ["a", "b", "c"])
      [⟨"a", false⟩, ⟨"b", false⟩, .last "c"] (.ok ()) ∧
    (∀ s : Queue, (SolutionStream.abandon s).1 = .ok ()) ∧
    Refuses Buffer.bytes (curtailed true) (exec (page 4) (curtailed true)).1
      (exec (page 4) (curtailed true)).2 ∧
    Shows Buffer.bytes (curtailed false) [⟨"a", false⟩, ⟨"b", false⟩, .last "c"] (.ok ()) 2
      (exec (page 4) (curtailed false)).1 (exec (page 4) (curtailed false)).2 ∧
    transcript [⟨"a", false⟩, ⟨"b", false⟩, .last "c"] (curtailed false).dialogue.console.keys 2 =
      "a  more? (y/n) y\nb  more? (y/n) \n" := by
  have hstream : SolutionStream.Delivers (Queue.ofAnswers ["a", "b", "c"])
      [⟨"a", false⟩, ⟨"b", false⟩, .last "c"] (.ok ()) := SolutionStream.delivers_queue _
  have habandon (s : Queue) : (SolutionStream.abandon s).1 = .ok () := rfl
  have hfuel (up : Bool) : (curtailed up).dialogue.console.keys.length < 4 := Nat.lt_succ_self 3
  have htold (up : Bool) := page_transcript (p := curtailed up) Buffer.infallible habandon hstream
    rfl (fun _ => rfl) (hfuel up)
  refine ⟨hstream, habandon, (htold true).1 rfl, ?_, by decide +kernel⟩
  obtain ⟨k, hk⟩ := (htold false).2 rfl
  have hbefore : ∀ i < 2, ¬ StopsAfter [⟨"a", false⟩, ⟨"b", false⟩, .last "c"]
      (curtailed false).dialogue.console.keys i := by decide
  obtain rfl : k = 2 := hk.least.unique
    ⟨.inr (by decide), fun i hi => not_lt.1 fun hlt => hbefore i hlt hi⟩
  exact hk

end Paging

end LogicConsole
