import LogicConsole.Console.Scripted
import LogicConsole.Proofs.Fuel
import LogicConsole.Proofs.Portions

/-! A session fed from a byte stream runs as one whose console plays a script. What the script must
be comes out while the session runs, for it is the session that asks for lines and keys in turn; so
each part of a run tells what it has asked for, and is replayed from every script that begins with
this. -/
namespace LogicConsole

open Operation Text

def Event.asked : Event → List Asked
  | .readLine _ _ => [.line]
  | .readKey _ => [.key]
  | _ => []

/-- The same, or the key of a blank line, which may come with another line end. -/
inductive Event.Akin : Event → Event → Prop
  | same (e : Event) : Akin e e
  | blank : Akin (.readKey (.ok (some '\r'))) (.readKey (.ok (some '\n')))

namespace Journal

/-- Everything the console was asked for, in its order. -/
def asked : Journal → List Asked
  | [] => []
  | e :: t => asked t ++ e.asked

abbrev Akin : Journal → Journal → Prop := List.Forall₂ Event.Akin

end Journal

namespace Dialogue

variable {ο : Type}

/-- The console is about to read a text without backspaces and interrupts. -/
structure Feeds (d : Dialogue PipedConsole ο) (text : List Char) : Prop where
  console : d.console = .feeding text
  backspace : backspace ∉ text
  interrupt : ScriptedConsole.interruptKey ∉ text

/-- Signals come at the same time whatever line end a blank line has. -/
def IgnoresLineEnds {κ : Type} (d : Dialogue κ ο) : Prop :=
  ∀ j j', Journal.Akin j j' → d.signals j = d.signals j'

/-- The dialogues differ in their consoles alone. The one plays what the other will have read of the
text once it was asked for all this. -/
structure Kin (text : List Char) (asked : List Asked) (d : Dialogue PipedConsole ο)
    (d' : Dialogue ScriptedConsole ο) : Prop where
  output : d.output = d'.output
  interrupt : d.interrupt = d'.interrupt
  history : d.history = d'.history
  signals : d.signals = d'.signals
  journal : Journal.Akin d.journal d'.journal
  ignores : d.IgnoresLineEnds
  events : d'.console.events = (portions text asked).filterMap Portion.event?
  keys : d'.console.keys = (portions text asked).filterMap Portion.key?

end Dialogue

section Rules

variable {σ σ' ο α β : Type} {view : σ → Dialogue PipedConsole ο}
variable {kin : List Char → List Asked → σ → σ' → Prop}

/-- Neither operation asks anything of its console, and they keep the states kin. -/
structure Silent (view : σ → Dialogue PipedConsole ο)
    (kin : List Char → List Asked → σ → σ' → Prop) (op : Operation σ α) (op' : Operation σ' α) :
    Prop where
  console (s : σ) : (view (exec op s).2).console = (view s).console
  asked (s : σ) : (view (exec op s).2).journal.asked = (view s).journal.asked
  keeps {text : List Char} {asked : List Asked} {s : σ} {s' : σ'} (h : kin text asked s s') :
    (exec op' s').1 = (exec op s).1 ∧ kin text asked (exec op s).2 (exec op' s').2

/-- With its console about to read a text, the one operation asks for certain portions; a script
that begins with these has the other one do the same, and what is left of the script goes with what
is left of the text. -/
def Replays (view : σ → Dialogue PipedConsole ο)
    (kin : List Char → List Asked → σ → σ' → Prop) (op : Operation σ α) (op' : Operation σ' α) :
    Prop :=
  ∀ s text, (view s).Feeds text → ∃ asked,
    (view (exec op s).2).journal.asked = (view s).journal.asked ++ asked ∧
      (view (exec op s).2).Feeds (leftover text asked) ∧
      ∀ more s', kin text (asked ++ more) s s' →
        (exec op' s').1 = (exec op s).1 ∧
          kin (leftover text asked) more (exec op s).2 (exec op' s').2

theorem Silent.replays {op : Operation σ α} {op' : Operation σ' α} (h : Silent view kin op op') :
    Replays view kin op op' := fun s _ hs =>
  ⟨[], by rw [h.asked, List.append_nil],
    ⟨(h.console s).trans hs.console, hs.backspace, hs.interrupt⟩, fun _ _ => h.keeps⟩

theorem silent_pure (a : α) : Silent view kin (pure a) (pure a) where
  console _ := rfl
  asked _ := rfl
  keeps h := ⟨rfl, h⟩

theorem replays_pure (a : α) : Replays view kin (pure a) (pure a) := (silent_pure a).replays

theorem silent_unfinished : Silent view kin (unfinished : Operation σ α) unfinished where
  console _ := rfl
  asked _ := rfl
  keeps h := ⟨rfl, h⟩

/-- Both operations go on with what they read off their states, which is the same. -/
theorem silent_read {read : σ → α} {read' : σ' → α}
    (h : ∀ text asked s s', kin text asked s s' → read s = read' s') :
    Silent view kin (do return read (← get)) (do return read' (← get)) where
  console _ := rfl
  asked _ := rfl
  keeps hs := ⟨congrArg Except.ok (h _ _ _ _ hs).symm, hs⟩

theorem silent_bind {op : Operation σ α} {op' : Operation σ' α} {next : α → Operation σ β}
    {next' : α → Operation σ' β} (hop : Silent view kin op op')
    (hnext : ∀ a, Silent view kin (next a) (next' a)) :
    Silent view kin (op >>= next) (op' >>= next') where
  console s := by
    have hconsole := hop.console s
    rw [exec_bind]
    revert hconsole
    rcases exec op s with ⟨_ | a, s₁⟩ <;> intro hconsole
    · exact hconsole
    · exact ((hnext a).console s₁).trans hconsole
  asked s := by
    have hasked := hop.asked s
    rw [exec_bind]
    revert hasked
    rcases exec op s with ⟨_ | a, s₁⟩ <;> intro hasked
    · exact hasked
    · exact ((hnext a).asked s₁).trans hasked
  keeps {text asked s s'} h := by
    obtain ⟨hsame, hmid⟩ := hop.keeps h
    rw [exec_bind, exec_bind]
    revert hsame hmid
    rcases exec op s with ⟨_ | a, s₁⟩ <;> rcases exec op' s' with ⟨_ | a', s₁'⟩ <;>
      intro hsame hmid <;> cases hsame
    · exact ⟨rfl, hmid⟩
    · exact (hnext a).keeps hmid

theorem replays_bind {op : Operation σ α} {op' : Operation σ' α} {next : α → Operation σ β}
    {next' : α → Operation σ' β} (hop : Replays view kin op op')
    (hnext : ∀ a, Replays view kin (next a) (next' a)) :
    Replays view kin (op >>= next) (op' >>= next') := by
  intro s text hs
  obtain ⟨asked, hasked, hfeeds, hkeeps⟩ := hop s text hs
  rw [exec_bind]
  revert hasked hfeeds hkeeps
  rcases exec op s with ⟨stop | a, s₁⟩ <;> intro hasked hfeeds hkeeps
  · refine ⟨asked, hasked, hfeeds, fun more s' hkin => ?_⟩
    obtain ⟨hsame, hend⟩ := hkeeps more s' hkin
    rw [exec_bind]
    revert hsame hend
    rcases exec op' s' with ⟨_ | a', s₁'⟩ <;> intro hsame hend <;> cases hsame
    exact ⟨rfl, hend⟩
  · -- The rest asks on from what its first part has left of the text.
    obtain ⟨askedNext, haskedNext, hfeedsNext, hkeepsNext⟩ := hnext a s₁ _ hfeeds
    refine ⟨asked ++ askedNext, ?_, ?_, fun more s' hkin => ?_⟩
    · rw [haskedNext, hasked, List.append_assoc]
    · rwa [leftover_append]
    · rw [List.append_assoc] at hkin
      obtain ⟨hsame, hmid⟩ := hkeeps (askedNext ++ more) s' hkin
      rw [leftover_append, exec_bind]
      revert hsame hmid
      rcases exec op' s' with ⟨_ | a', s₁'⟩ <;> intro hsame hmid <;> cases hsame
      exact hkeepsNext more s₁' hmid

theorem replays_ite {c : Prop} [Decidable c] {op op₁ : Operation σ α} {op' op₁' : Operation σ' α}
    (h : Replays view kin op op') (h' : Replays view kin op₁ op₁') :
    Replays view kin (if c then op else op₁) (if c then op' else op₁') := by
  split
  · exact h
  · exact h'

end Rules

namespace Dialogue

variable {ο α : Type} {text : List Char} {asked more : List Asked}
variable {d : Dialogue PipedConsole ο} {d' : Dialogue ScriptedConsole ο} {e e' : Event}

theorem asked_note {κ : Type} (d : Dialogue κ ο) (e : Event) :
    (d.note e).journal.asked = d.journal.asked ++ e.asked := by
  rcases note_cases e d with h | h <;> rw [h]
  · rfl
  · exact List.append_nil _

theorem Kin.note (h : Kin text asked d d') (he : e.Akin e') :
    Kin text asked (d.note e) (d'.note e') := by
  have hjournal : Journal.Akin (e :: d.journal) (e' :: d'.journal) := .cons he h.journal
  have hsignal : d.signals (e :: d.journal) = d'.signals (e' :: d'.journal) := by
    rw [← h.signals]
    exact h.ignores _ _ hjournal
  simp only [Dialogue.note, hsignal]
  split
  · exact ⟨h.output, rfl, h.history, h.signals, .cons (.same _) hjournal, h.ignores, h.events,
      h.keys⟩
  · exact ⟨h.output, h.interrupt, h.history, h.signals, hjournal, h.ignores, h.events, h.keys⟩

theorem Kin.withOutput (h : Kin text asked d d') (output : ο) :
    Kin text asked { d with output } { d' with output } :=
  ⟨rfl, h.interrupt, h.history, h.signals, h.journal, h.ignores, h.events, h.keys⟩

theorem Kin.withHistory (h : Kin text asked d d') (history : History) :
    Kin text asked { d with history } { d' with history } :=
  ⟨h.output, h.interrupt, rfl, h.signals, h.journal, h.ignores, h.events, h.keys⟩

/-- Kin dialogues stay so when both note the same. -/
theorem Kin.mark (h : Kin text asked d d') (e : Event) : Kin text asked (d.note e) (d'.note e) :=
  h.note (.same e)

variable [Output ο]

abbrev DialogueSilent (op : Operation (Dialogue PipedConsole ο) α)
    (op' : Operation (Dialogue ScriptedConsole ο) α) : Prop := Silent id Kin op op'

abbrev DialogueReplays (op : Operation (Dialogue PipedConsole ο) α)
    (op' : Operation (Dialogue ScriptedConsole ο) α) : Prop := Replays id Kin op op'

theorem silent_say (content : String) : DialogueSilent (ο := ο) (say content) (say content) where
  console d := by simp [say]
  asked d := by simp [say, asked_note, Event.asked]
  keeps {text asked d d'} h := by
    simp only [say, exec_ofCall, ← h.output]
    exact ⟨trivial, (h.withOutput _).mark _⟩

theorem silent_flush : DialogueSilent (ο := ο) flush flush where
  console d := by simp [flush]
  asked d := by simp [flush, asked_note, Event.asked]
  keeps {text asked d d'} h := by
    simp only [flush, exec_ofCall, ← h.output]
    exact ⟨trivial, (h.withOutput _).mark _⟩

omit [Output ο] in
theorem silent_mark (h : e.asked = []) : DialogueSilent (ο := ο) (mark e) (mark e) where
  console d := console_note e d
  asked d := by simp [mark, asked_note, h]
  keeps hkin := ⟨rfl, hkin.mark e⟩

omit [Output ο] in
theorem silent_pending : DialogueSilent (ο := ο) pending pending :=
  silent_read fun _ _ _ _ h => congrArg InterruptFlag.isRaised h.interrupt

omit [Output ο] in
theorem silent_takeInterrupt : DialogueSilent (ο := ο) takeInterrupt takeInterrupt where
  console d := by
    rw [exec_takeInterrupt]
    split
    · exact console_note _ _
    · rfl
  asked d := by
    rw [exec_takeInterrupt]
    split
    · simp [asked_note, Event.asked]
    · rfl
  keeps {text asked d d'} h := by
    rw [exec_takeInterrupt, exec_takeInterrupt, ← h.interrupt]
    split
    · refine ⟨rfl, Kin.mark ?_ _⟩
      exact ⟨h.output, rfl, h.history, h.signals, h.journal, h.ignores, h.events, h.keys⟩
    · exact ⟨rfl, h⟩

omit [Output ο] in
theorem silent_record (query : String) :
    DialogueSilent (ο := ο) (record query) (record query) := by
  unfold record
  cases History.entryOf query with
  | none => exact silent_pure ()
  | some entry =>
    refine ⟨fun d => by simp [Console.remember], fun d => by simp [asked_note, Event.asked],
      fun {text asked d d'} h => ?_⟩
    simp only [exec_ofCall, ← h.history]
    refine ⟨rfl, Kin.mark ?_ _⟩
    exact ⟨h.output, h.interrupt, rfl, h.signals, h.journal, h.ignores, h.events, h.keys⟩

omit [Output ο] in
theorem exec_readLine_of {κ : Type} [Console κ] {d : Dialogue κ ο} {marker : String}
    {input : LineInput} {console : κ}
    (h : Console.readLine marker d.console = (⟨.ok input, false⟩, console)) :
    exec (readLine marker) d =
      (.ok input, note (.readLine marker (.ok input)) { d with console }) := by
  simp only [readLine, exec_ofCall, h]
  rfl

omit [Output ο] in
/-- The next line of the text is the next event of the script. -/
theorem replays_readLine (marker : String) :
    DialogueReplays (ο := ο) (readLine marker) (readLine marker) := by
  intro d text hd
  have hconsole : d.console = .feeding text := hd.console
  have hread := PipedConsole.readLine_feeding hd.backspace marker
  rw [← hconsole] at hread
  rw [exec_readLine_of hread]
  refine ⟨[.line], asked_note _ _, ⟨console_note _ _, ?_, ?_⟩, fun more d' hkin => ?_⟩
  · exact fun hmem => hd.backspace (mem_of_mem_restRaw hmem)
  · exact fun hmem => hd.interrupt (mem_of_mem_restRaw hmem)
  have hevents : d'.console.events = Portion.lineInput (nextRaw text) ::
      (portions (restRaw text) more).filterMap Portion.event? := hkin.events
  have hplain : (Portion.lineInput (nextRaw text) == .interrupted) = false := by
    cases nextRaw text <;> rfl
  have hplayed : Console.readLine marker d'.console =
      (⟨.ok (Portion.lineInput (nextRaw text)), false⟩, (d'.console.readLine marker).2) := by
    simp only [Console.readLine, ScriptedConsole.readLine, hevents, List.head?_cons,
      Option.getD_some, hplain]
  rw [exec_readLine_of hplayed]
  refine ⟨rfl, Kin.mark ?_ _⟩
  refine ⟨hkin.output, hkin.interrupt, hkin.history, hkin.signals, hkin.journal, hkin.ignores, ?_,
    hkin.keys⟩
  simp only [ScriptedConsole.readLine, hevents, List.tail_cons, leftover]

/-- Read a key, and tell how it is shown and whether it asks for more. -/
def readAnswer {κ : Type} [Console κ] : Operation (Dialogue κ ο) (String × Bool) := do
  let answer ← readKey
  return (echo answer, wantsMore answer)

omit [Output ο] in
theorem exec_readAnswer_of {κ : Type} [Console κ] {d : Dialogue κ ο} {key : Option Char}
    {console : κ} (h : Console.readKey d.console = (⟨.ok key, false⟩, console)) :
    exec readAnswer d =
      (.ok (echo key, wantsMore key), note (.readKey (.ok key)) { d with console }) := by
  simp only [readAnswer, exec_bind, readKey, exec_ofCall, h]
  rfl

/-- How a line answers a question: the key it stands for is shown and understood as the first
character of the line is, and does not interrupt. -/
theorem answer_keyOf {raw : List Char} (hne : raw ≠ []) (h : ScriptedConsole.interruptKey ∉ raw) :
    ∃ c, raw.head? = some c ∧ echo (some (Portion.keyOf raw)) = echo (some c) ∧
      wantsMore (some (Portion.keyOf raw)) = wantsMore (some c) ∧
      Portion.keyOf raw ≠ ScriptedConsole.interruptKey ∧
      Event.Akin (.readKey (.ok (some c))) (.readKey (.ok (some (Portion.keyOf raw)))) := by
  cases raw with
  | nil => exact absurd rfl hne
  | cons c rest =>
    refine ⟨c, rfl, ?_⟩
    have hhead : (c :: rest).head? = some c := rfl
    rcases Portion.eq_keyOf_of_head? hhead with hkey | ⟨rfl, hkey⟩
    · rw [← hkey]
      exact ⟨rfl, rfl, fun heq => h (heq ▸ List.mem_cons_self), .same _⟩
    · rw [hkey]
      exact ⟨rfl, rfl, by decide, .blank⟩

omit [Output ο] in
/-- The next line of the text is the next key of the script. -/
theorem replays_readAnswer : DialogueReplays (ο := ο) readAnswer readAnswer := by
  intro d text hd
  have hconsole : d.console = .feeding text := hd.console
  have hread := PipedConsole.readKey_feeding text
  rw [← hconsole] at hread
  rw [exec_readAnswer_of hread]
  refine ⟨[.key], asked_note _ _, ⟨console_note _ _, ?_, ?_⟩, fun more d' hkin => ?_⟩
  · exact fun hmem => hd.backspace (mem_of_mem_restRaw hmem)
  · exact fun hmem => hd.interrupt (mem_of_mem_restRaw hmem)
  have hkeys := hkin.keys
  cases text with
  | nil =>
    -- No key can have been taken later, so the script has none either.
    rw [keys_nil] at hkeys
    have hplayed : Console.readKey d'.console = (⟨.ok none, false⟩, d'.console.readKey.2) := by
      simp only [ScriptedConsole.readKey_eq, hkeys, ScriptedConsole.readKey]
      rfl
    rw [exec_readAnswer_of hplayed]
    refine ⟨rfl, Kin.mark ?_ _⟩
    refine ⟨hkin.output, hkin.interrupt, hkin.history, hkin.signals, hkin.journal, hkin.ignores,
      hkin.events, ?_⟩
    simp only [ScriptedConsole.readKey, hkeys, leftover, restRaw]
    exact (keys_nil more).symm
  | cons c rest =>
    -- The keys need not be the same: that of a blank line may be another line end.
    let raw := firstRaw (c :: rest)
    have hkeys : d'.console.keys = Portion.keyOf raw ::
        (portions (restRaw (c :: rest)) more).filterMap Portion.key? := hkeys
    have hplain : ScriptedConsole.interruptKey ∉ raw := fun hmem =>
      hd.interrupt (mem_of_mem_firstRaw hmem)
    obtain ⟨k, hhead, hecho, hmore, hkey, hakin⟩ :=
      answer_keyOf (firstRaw_ne_nil (List.cons_ne_nil c rest)) hplain
    have hplayed : Console.readKey d'.console =
        (⟨.ok (some (Portion.keyOf raw)), false⟩, d'.console.readKey.2) := by
      rw [ScriptedConsole.readKey_eq, hkeys, List.head?_cons, if_neg (by simpa using hkey)]
      simp only [ScriptedConsole.readKey, hkeys, List.tail_cons]
    have hread : (nextRaw (c :: rest)).bind List.head? = some k := hhead
    rw [exec_readAnswer_of hplayed, hread]
    refine ⟨?_, Kin.note ?_ hakin⟩
    · rw [hecho, hmore]
    · refine ⟨hkin.output, hkin.interrupt, hkin.history, hkin.signals, hkin.journal, hkin.ignores,
        hkin.events, ?_⟩
      simp only [ScriptedConsole.readKey, hkeys, List.tail_cons, leftover]

omit [Output ο] in
/-- Lines are collected in step. -/
theorem replays_collectLines (prompt : String) (fuel : Nat) (typed : String) :
    DialogueReplays (ο := ο) (collectLines prompt fuel typed) (collectLines prompt fuel typed) := by
  induction fuel generalizing typed with
  | zero => exact silent_unfinished.replays
  | succ fuel ih =>
    refine replays_bind (replays_readLine _) fun input => ?_
    cases input with
    | interrupted => exact ih typed
    | endOfInput => exact replays_pure _
    | line line => exact replays_ite (replays_pure _) (ih _)

omit [Output ο] in
theorem replays_readQuery (prompt : String) (fuel : Nat) :
    DialogueReplays (ο := ο) (readQuery prompt fuel) (readQuery prompt fuel) := by
  refine replays_bind (replays_collectLines prompt fuel "") fun input => ?_
  cases input with
  | endOfInput => exact replays_pure _
  | query text =>
    exact replays_bind (silent_mark rfl).replays fun _ =>
      replays_bind (silent_record text).replays fun _ => replays_pure _

end Dialogue

namespace Paging

variable {ε τ ο α : Type} [Engine ε τ]

/-- Displays of the same solutions, in kin dialogues. -/
structure Kin (text : List Char) (asked : List Asked) (p : Paging (ε × τ) PipedConsole ο)
    (p' : Paging (ε × τ) ScriptedConsole ο) : Prop where
  solutions : p.solutions = p'.solutions
  dialogue : Dialogue.Kin text asked p.dialogue p'.dialogue

abbrev PagingSilent (op : Operation (Paging (ε × τ) PipedConsole ο) α)
    (op' : Operation (Paging (ε × τ) ScriptedConsole ο) α) : Prop :=
  Silent Paging.dialogue Kin op op'

abbrev PagingReplays (op : Operation (Paging (ε × τ) PipedConsole ο) α)
    (op' : Operation (Paging (ε × τ) ScriptedConsole ο) α) : Prop :=
  Replays Paging.dialogue Kin op op'

variable {op : Operation (Dialogue PipedConsole ο) α}
variable {op' : Operation (Dialogue ScriptedConsole ο) α}

omit [Engine ε τ] in
theorem silent_onDialogue (h : Dialogue.DialogueSilent op op') :
    PagingSilent (ε := ε) (τ := τ) (onDialogue op) (onDialogue op') where
  console p := h.console p.dialogue
  asked p := h.asked p.dialogue
  keeps hkin := ⟨(h.keeps hkin.dialogue).1, hkin.solutions, (h.keeps hkin.dialogue).2⟩

omit [Engine ε τ] in
theorem replays_onDialogue (h : Dialogue.DialogueReplays op op') :
    PagingReplays (ε := ε) (τ := τ) (onDialogue op) (onDialogue op') := by
  intro p text hp
  obtain ⟨asked, hasked, hfeeds, hkeeps⟩ := h p.dialogue text hp
  refine ⟨asked, hasked, hfeeds, fun more p' hkin => ?_⟩
  obtain ⟨hsame, hend⟩ := hkeeps more p'.dialogue hkin.dialogue
  exact ⟨hsame, hkin.solutions, hend⟩

theorem silent_pull : PagingSilent (ε := ε) (τ := τ) (ο := ο) pull pull where
  console _ := Dialogue.console_note _ _
  asked _ := (Dialogue.asked_note _ _).trans (List.append_nil _)
  keeps {text asked p p'} hkin := by
    simp only [pull, exec_ofCall, ← hkin.solutions]
    exact ⟨trivial, rfl, hkin.dialogue.mark _⟩

theorem silent_abandon : PagingSilent (ε := ε) (τ := τ) (ο := ο) abandon abandon where
  console _ := Dialogue.console_note _ _
  asked _ := (Dialogue.asked_note _ _).trans (List.append_nil _)
  keeps {text asked p p'} hkin := by
    simp only [abandon, exec_ofCall, ← hkin.solutions]
    exact ⟨trivial, rfl, hkin.dialogue.mark _⟩

variable [Output ο]

omit [Engine ε τ] in
theorem silent_say (content : String) :
    PagingSilent (ε := ε) (τ := τ) (ο := ο) (say content) (say content) :=
  silent_onDialogue (Dialogue.silent_say content)

omit [Engine ε τ] in
/-- Of the answer no more matters than how it is shown and whether it asks for more. -/
theorem askForMore_eq {κ : Type} [Console κ] :
    (askForMore : Operation (Paging (ε × τ) κ ο) Bool) = (do
      say moreQuestion
      onDialogue Dialogue.flush
      let answer ← onDialogue Dialogue.readAnswer
      say answer.1
      say "\n"
      return answer.2) := by
  refine congrArg _ (funext fun _ => congrArg _ (funext fun _ => funext fun p => ?_))
  change exec (onDialogue Dialogue.readKey >>= _) p = exec (onDialogue Dialogue.readAnswer >>= _) p
  rw [exec_bind, exec_bind, onDialogue, onDialogue, exec_focus, exec_focus, Dialogue.readAnswer,
    exec_bind]
  rcases exec Dialogue.readKey p.dialogue with ⟨_ | _, d⟩ <;> rfl

omit [Engine ε τ] in
theorem replays_askForMore :
    PagingReplays (ε := ε) (τ := τ) (ο := ο) askForMore askForMore := by
  rw [askForMore_eq, askForMore_eq]
  refine replays_bind (silent_say _).replays fun _ => ?_
  refine replays_bind (silent_onDialogue Dialogue.silent_flush).replays fun _ => ?_
  refine replays_bind (replays_onDialogue Dialogue.replays_readAnswer) fun answer => ?_
  refine replays_bind (silent_say _).replays fun _ => ?_
  exact replays_bind (silent_say _).replays fun _ => replays_pure _

theorem replays_showFrom (fuel shown prompts : Nat) :
    PagingReplays (ε := ε) (τ := τ) (ο := ο) (showFrom fuel shown prompts)
      (showFrom fuel shown prompts) := by
  induction fuel generalizing shown prompts with
  | zero => exact silent_unfinished.replays
  | succ fuel ih =>
    refine replays_bind (silent_onDialogue Dialogue.silent_pending).replays fun raised => ?_
    refine replays_ite ?_ (replays_bind silent_pull.replays fun solution => ?_)
    · refine replays_bind silent_abandon.replays fun _ => ?_
      exact replays_bind (silent_say _).replays fun _ => replays_pure _
    · cases solution with
      | none => exact replays_pure _
      | some solution =>
        refine replays_bind (silent_say _).replays fun _ => replays_ite ?_ ?_
        · exact replays_bind (silent_say _).replays fun _ => replays_pure _
        · refine replays_bind replays_askForMore fun more => replays_ite (ih _ _) ?_
          exact replays_bind silent_abandon.replays fun _ => replays_pure _

theorem replays_page (fuel : Nat) :
    PagingReplays (ε := ε) (τ := τ) (ο := ο) (page fuel) (page fuel) := by
  refine replays_bind (replays_showFrom fuel 0 0) fun summary => ?_
  refine replays_bind (silent_say _).replays fun _ => ?_
  refine replays_bind (silent_onDialogue Dialogue.silent_flush).replays fun _ => ?_
  exact replays_bind (silent_onDialogue (Dialogue.silent_mark rfl)).replays fun _ => replays_pure _

end Paging

namespace Session

variable {ε τ ο α : Type} [Engine ε τ]

/-- Sessions alike but for their dialogues, which are kin. -/
structure Kin (text : List Char) (asked : List Asked) (s : Session ε PipedConsole ο)
    (s' : Session ε ScriptedConsole ο) : Prop where
  engine : s.engine = s'.engine
  dialogue : Dialogue.Kin text asked s.dialogue s'.dialogue
  theme : s.theme = s'.theme
  handler : s.handler = s'.handler
  state : s.state = s'.state
  phase : s.phase = s'.phase

abbrev SessionSilent (op : Operation (Session ε PipedConsole ο) α)
    (op' : Operation (Session ε ScriptedConsole ο) α) : Prop :=
  Silent Session.dialogue Kin op op'

abbrev SessionReplays (op : Operation (Session ε PipedConsole ο) α)
    (op' : Operation (Session ε ScriptedConsole ο) α) : Prop :=
  Replays Session.dialogue Kin op op'

variable {op : Operation (Dialogue PipedConsole ο) α}
variable {op' : Operation (Dialogue ScriptedConsole ο) α}

omit [Engine ε τ] in
theorem Kin.withDialogue {text : List Char} {asked : List Asked}
    {s : Session ε PipedConsole ο} {s' : Session ε ScriptedConsole ο} (h : Kin text asked s s')
    {text' : List Char} {asked' : List Asked} {d : Dialogue PipedConsole ο}
    {d' : Dialogue ScriptedConsole ο} (hd : Dialogue.Kin text' asked' d d') :
    Kin text' asked' { s with dialogue := d } { s' with dialogue := d' } :=
  ⟨h.engine, hd, h.theme, h.handler, h.state, h.phase⟩

omit [Engine ε τ] in
theorem silent_onDialogue (h : Dialogue.DialogueSilent op op') :
    SessionSilent (ε := ε) (onDialogue op) (onDialogue op') where
  console s := h.console s.dialogue
  asked s := h.asked s.dialogue
  keeps hkin := ⟨(h.keeps hkin.dialogue).1, hkin.withDialogue (h.keeps hkin.dialogue).2⟩

omit [Engine ε τ] in
theorem replays_onDialogue (h : Dialogue.DialogueReplays op op') :
    SessionReplays (ε := ε) (onDialogue op) (onDialogue op') := by
  intro s text hs
  obtain ⟨asked, hasked, hfeeds, hkeeps⟩ := h s.dialogue text hs
  refine ⟨asked, hasked, hfeeds, fun more s' hkin => ?_⟩
  obtain ⟨hsame, hend⟩ := hkeeps more s'.dialogue hkin.dialogue
  exact ⟨hsame, hkin.withDialogue hend⟩

omit [Engine ε τ] in
theorem silent_enter (phase : Phase) :
    SessionSilent (ε := ε) (ο := ο) (enter phase) (enter phase) where
  console _ := Dialogue.console_note _ _
  asked _ := (Dialogue.asked_note _ _).trans (List.append_nil _)
  keeps h := ⟨rfl, h.engine, h.dialogue.mark _, h.theme, h.handler, h.state, rfl⟩

omit [Engine ε τ] in
theorem silent_ask (call : Call ε α) {event : Event} (hevent : event.asked = []) :
    SessionSilent (ο := ο) (ask call event) (ask call event) where
  console _ := Dialogue.console_note _ _
  asked _ := (Dialogue.asked_note _ _).trans (by rw [hevent, List.append_nil])
  keeps {text asked s s'} h := by
    simp only [ask, exec_ofCall, ← h.engine]
    exact ⟨trivial, rfl, h.dialogue.mark _, h.theme, h.handler, h.state, h.phase⟩

omit [Engine ε τ] in
theorem silent_drive (call : Call (ε × SessionState) α)
    {event : Except SessionError Unit → Bool → Event}
    (hevent : ∀ result halted, (event result halted).asked = []) :
    SessionSilent (ο := ο) (drive call event) (drive call event) where
  console _ := Dialogue.console_note _ _
  asked _ := (Dialogue.asked_note _ _).trans (by rw [hevent, List.append_nil])
  keeps {text asked s s'} h := by
    simp only [drive, exec_ofCall, ← h.engine, ← h.state]
    exact ⟨trivial, rfl, h.dialogue.mark _, h.theme, h.handler, rfl, h.phase⟩

omit [Engine ε τ] in
theorem silent_history : SessionSilent (ε := ε) (ο := ο) history history :=
  silent_read fun _ _ _ _ h => h.dialogue.history

omit [Engine ε τ] in
theorem silent_isHalted : SessionSilent (ε := ε) (ο := ο) isHalted isHalted :=
  silent_read fun _ _ _ _ h => congrArg SessionState.halted h.state

theorem silent_serviceInterrupts :
    SessionSilent (ε := ε) (ο := ο) serviceInterrupts serviceInterrupts := by
  refine silent_bind (silent_onDialogue Dialogue.silent_takeInterrupt) fun raised => ?_
  cases raised with
  | false => exact silent_pure ()
  | true => exact silent_drive _ fun _ _ => rfl

omit [Engine ε τ] in
theorem silent_installHandler :
    SessionSilent (ε := ε) (ο := ο) installHandler installHandler where
  console s := by
    rw [installHandler, exec_get_bind]
    cases s.handler with
    | free => exact Dialogue.console_note _ _
    | _ => rfl
  asked s := by
    rw [installHandler, exec_get_bind]
    cases s.handler with
    | free => exact (Dialogue.asked_note _ _).trans (List.append_nil _)
    | _ => rfl
  keeps {text asked s s'} h := by
    rw [installHandler, installHandler, exec_get_bind, exec_get_bind, ← h.handler]
    cases s.handler with
    | free => exact ⟨rfl, h.engine, h.dialogue.mark _, h.theme, rfl, h.state, h.phase⟩
    | _ => exact ⟨rfl, h⟩

variable [Output ο]

omit [Engine ε τ] in
theorem silent_say (content : String) :
    SessionSilent (ε := ε) (ο := ο) (say content) (say content) :=
  silent_onDialogue (Dialogue.silent_say content)

theorem silent_start : SessionSilent (ε := ε) (ο := ο) start start := by
  have hgreet : SessionSilent (ε := ε) (ο := ο) greet greet :=
    silent_bind (silent_ask _ rfl) fun _ => silent_bind (silent_say _) fun _ =>
      silent_bind (silent_say _) fun _ => silent_installHandler
  have hcolor (theme : Theme) : SessionSilent (ε := ε) (ο := ο)
      (if theme.colors.isSome then
        say theme.apply >>= fun _ => onDialogue Dialogue.flush >>= fun _ => greet else greet)
      (if theme.colors.isSome then
        say theme.apply >>= fun _ => onDialogue Dialogue.flush >>= fun _ => greet else greet) := by
    split
    · exact silent_bind (silent_say _) fun _ =>
        silent_bind (silent_onDialogue Dialogue.silent_flush) fun _ => hgreet
    · exact hgreet
  refine ⟨fun s => (hcolor s.theme).console s, fun s => (hcolor s.theme).asked s,
    fun {text asked s s'} h => ?_⟩
  -- Each start reads the theme off its own session; kin sessions have the same one.
  change (exec (if s'.theme.colors.isSome then _ else _) s').1 = _ ∧
    Kin text asked _ (exec (if s'.theme.colors.isSome then _ else _) s').2
  rw [← h.theme]
  exact (hcolor s.theme).keeps h

theorem replays_page (solutions : τ) (fuel : Nat) :
    SessionReplays (ε := ε) (ο := ο) (page solutions fuel) (page solutions fuel) := by
  intro s text hs
  obtain ⟨asked, hasked, hfeeds, hkeeps⟩ :=
    Paging.replays_page fuel ⟨(s.engine, solutions), s.dialogue⟩ text hs
  refine ⟨asked, hasked, hfeeds, fun more s' hkin => ?_⟩
  obtain ⟨hsame, hend⟩ := hkeeps more ⟨(s'.engine, solutions), s'.dialogue⟩
    ⟨by rw [hkin.engine], hkin.dialogue⟩
  exact ⟨hsame, congrArg Prod.fst hend.solutions, hend.dialogue, hkin.theme, hkin.handler,
    hkin.state, hkin.phase⟩

theorem replays_dispatch (query : String) (fuel : Nat) :
    SessionReplays (ε := ε) (ο := ο) (dispatch query fuel) (dispatch query fuel) := by
  have hpose : SessionSilent (ε := ε) (ο := ο)
      (modify fun s => { s with state := { s.state with query } })
      (modify fun s => { s with state := { s.state with query } }) :=
    ⟨fun _ => rfl, fun _ => rfl, fun h => ⟨rfl, h.engine, h.dialogue, h.theme, h.handler,
      congrArg (fun state : SessionState => { state with query }) h.state, h.phase⟩⟩
  refine replays_bind hpose.replays fun _ => ?_
  refine replays_bind (silent_drive _ fun _ _ => rfl).replays fun solutions => ?_
  refine replays_bind (replays_page solutions fuel) fun summary => ?_
  exact replays_ite silent_serviceInterrupts.replays (replays_pure _)

theorem replays_rerun (n fuel : Nat) :
    SessionReplays (ε := ε) (ο := ο) (rerun n fuel) (rerun n fuel) := by
  refine replays_bind silent_history.replays fun history => ?_
  cases history.get? n with
  | none => exact (silent_say _).replays
  | some entry =>
    refine replays_ite (silent_say _).replays (replays_bind (silent_say _).replays fun _ => ?_)
    exact replays_bind (silent_onDialogue (Dialogue.silent_record entry)).replays fun _ =>
      replays_dispatch _ fuel

theorem replays_execute (query : String) (fuel : Nat) :
    SessionReplays (ε := ε) (ο := ο) (execute query fuel) (execute query fuel) := by
  unfold execute
  cases MetaCommand.parse query with
  | none => exact replays_dispatch query fuel
  | some command =>
    have hnote : SessionSilent (ε := ε) (ο := ο)
        (modify fun s => { s with dialogue := s.dialogue.note (.commanded command) })
        (modify fun s => { s with dialogue := s.dialogue.note (.commanded command) }) :=
      ⟨fun _ => Dialogue.console_note _ _,
        fun _ => (Dialogue.asked_note _ _).trans (List.append_nil _),
        fun h => ⟨rfl, h.withDialogue (h.dialogue.mark _)⟩⟩
    refine replays_bind hnote.replays fun _ => ?_
    cases command with
    | history => exact replays_bind silent_history.replays fun _ => (silent_say _).replays
    | help => exact (silent_say _).replays
    | rerun n => exact replays_rerun n fuel

theorem replays_serve (fuel : Nat) :
    SessionReplays (ε := ε) (ο := ο) (serve fuel) (serve fuel) := by
  have hend (how : SessionEnd) : SessionReplays (ε := ε) (ο := ο)
      (do enter .halted; return how) (do enter .halted; return how) :=
    replays_bind (silent_enter _).replays fun _ => replays_pure _
  induction fuel with
  | zero => exact silent_unfinished.replays
  | succ fuel ih =>
    refine replays_bind (silent_enter _).replays fun _ => ?_
    refine replays_bind silent_serviceInterrupts.replays fun _ => ?_
    refine replays_bind silent_isHalted.replays fun _ => replays_ite (hend _) ?_
    refine replays_bind (silent_ask _ rfl).replays fun prompt => ?_
    refine replays_bind (silent_onDialogue Dialogue.silent_flush).replays fun _ => ?_
    refine replays_bind (replays_onDialogue (Dialogue.replays_readQuery prompt _)) fun input => ?_
    cases input with
    | endOfInput => exact replays_bind (silent_say _).replays fun _ => hend _
    | query query =>
      refine replays_bind silent_serviceInterrupts.replays fun _ => ?_
      refine replays_bind silent_isHalted.replays fun _ => replays_ite (hend _) ?_
      refine replays_bind (silent_enter _).replays fun _ => ?_
      exact replays_bind (replays_execute query _) fun _ => ih

theorem replays_phases (fuel : Nat) :
    SessionReplays (ε := ε) (ο := ο) (phases fuel) (phases fuel) :=
  replays_bind (silent_enter _).replays fun _ => replays_bind silent_start.replays fun _ =>
    replays_bind (silent_enter _).replays fun _ => replays_serve fuel

end Session

end LogicConsole
