import LogicConsole.Proofs.Bookkeeping
import LogicConsole.Proofs.Interrupts
import Mathlib.Data.List.Infix
/-! Queries read one after another from a script share its lines out among them. No line is lost,
none is read twice, and each goes to the query that was being typed when it came; what is left when
the input ends belongs to no query and is entered nowhere. -/
namespace LogicConsole

open Operation Relation

/-- The text of lines, each ended by a line feed. -/
def unlines (lines : List String) : String := String.join (lines.map (· ++ "\n"))

/-- `text` is made of just these lines. -/
def IsLines (text : String) (lines : List String) : Prop :=
  text = unlines lines ∧ ∀ line ∈ lines, '\n' ∉ line.toList

/-- The last line of the text completes a query, and it is the only one that does. -/
def IsQuery (text : String) : Prop :=
  ∃ front last, IsLines text (front ++ [last]) ∧ completesQuery last = true ∧
    ∀ line ∈ front, completesQuery line = false

/-- No line of the text completes a query. -/
def IsPartial (text : String) : Prop :=
  ∃ lines, IsLines text lines ∧ ∀ line ∈ lines, completesQuery line = false

/-- `entry` is the text without the line separators at its end. -/
def StrippedTo (text entry : String) : Prop :=
  ∃ ends, text = entry ++ ends ∧ (∀ c ∈ ends.toList, c = '\r' ∨ c = '\n') ∧
    ∀ c, entry.toList.getLast? = some c → c ≠ '\r' ∧ c ≠ '\n'

/-- The lines behind the last one that completes a query. -/
def openLines (lines : List String) : List String := lines.rtakeWhile (!completesQuery ·)

/-- What the next line is asked for with, when `lines` have been read. -/
def nextMarker (prompt : String) (lines : List String) : String :=
  if (openLines lines).isEmpty then prompt else continuationMarker

def LineInput.text? : LineInput → Option String
  | .line text => some text
  | _ => none

def linesIn (events : List LineInput) : List String := events.filterMap LineInput.text?

/-- The events before the input ends. -/
def heard (events : List LineInput) : List LineInput := events.takeWhile (· != .endOfInput)

/-- The markers of the reads that give `events`, and of the read behind them: one for each part of
the events that may have been heard when a line is asked for. -/
def markers (prompt : String) (past : List String) (events : List LineInput) : List String :=
  events.inits.map fun seen => nextMarker prompt (past ++ linesIn seen)

/-- Any event but a line read that failed. -/
def Event.NoReadFault : Event → Prop
  | .readLine _ (.error _) => False
  | _ => True

section Lines

variable {new : List String} {line : String} {events more : List LineInput} {input : LineInput}

theorem unlines_append (lines new : List String) :
    unlines (lines ++ new) = unlines lines ++ unlines new := by
  rw [unlines, List.map_append, String.join_append]
  rfl

theorem unlines_concat (lines : List String) (line : String) :
    unlines (lines ++ [line]) = unlines lines ++ line ++ "\n" := by
  rw [unlines_append, String.append_assoc]
  simp [unlines]

theorem isEmpty_unlines (lines : List String) : (unlines lines).isEmpty = lines.isEmpty := by
  cases lines with
  | nil => rfl
  | cons line lines =>
    have hne : unlines (line :: lines) ≠ "" := by simp [unlines]
    simpa [String.isEmpty_iff] using hne

theorem openLines_concat (lines : List String) (line : String) :
    openLines (lines ++ [line]) =
      if completesQuery line then [] else openLines lines ++ [line] := by
  rw [openLines, List.rtakeWhile_concat]
  cases completesQuery line <;> rfl

/-- Lines that complete nothing are added to the query that is being typed. -/
theorem openLines_append (lines : List String)
    (hnew : ∀ line ∈ new, completesQuery line = false) :
    openLines (lines ++ new) = openLines lines ++ new := by
  induction new using List.reverseRecOn with
  | nil => simp
  | append_singleton new line ih =>
    have hline := hnew line (by simp)
    have hinit : ∀ line ∈ new, completesQuery line = false := fun l hl => hnew l (by simp [hl])
    rw [← List.append_assoc, openLines_concat, hline, ih hinit]
    simp

/-- What has been read before matters only as far as it belongs to the query being typed. -/
theorem openLines_congr {past past' : List String} (h : openLines past = openLines past')
    (lines : List String) : openLines (past ++ lines) = openLines (past' ++ lines) := by
  induction lines using List.reverseRecOn with
  | nil => simpa using h
  | append_singleton lines line ih =>
    rw [← List.append_assoc, ← List.append_assoc, openLines_concat, openLines_concat, ih]

@[simp] theorem linesIn_nil : linesIn [] = [] := rfl

@[simp] theorem linesIn_line (line : String) : linesIn [.line line] = [line] := rfl

@[simp] theorem linesIn_interrupted : linesIn [.interrupted] = [] := rfl

@[simp] theorem linesIn_append (events more : List LineInput) :
    linesIn (events ++ more) = linesIn events ++ linesIn more := List.filterMap_append

theorem linesIn_cons (input : LineInput) (events : List LineInput) :
    linesIn (input :: events) = linesIn [input] ++ linesIn events := linesIn_append [input] events

theorem markers_congr {past past' : List String} (h : openLines past = openLines past')
    (prompt : String) (events : List LineInput) :
    markers prompt past events = markers prompt past' events := by
  simp only [markers, nextMarker, openLines_congr h]

theorem markers_cons (prompt : String) (past : List String) (input : LineInput)
    (events : List LineInput) :
    markers prompt past (input :: events) =
      nextMarker prompt past :: markers prompt (past ++ linesIn [input]) events := by
  have hseen (seen : List LineInput) :
      past ++ linesIn (input :: seen) = past ++ linesIn [input] ++ linesIn seen := by
    rw [linesIn_cons, List.append_assoc]
  rw [markers, List.inits_cons, List.map_cons, List.map_map, markers]
  congr 1
  · simp
  · exact List.map_congr_left fun seen _ => congrArg (nextMarker prompt) (hseen seen)

theorem markers_append_cons (prompt : String) (past : List String) (events : List LineInput)
    (input : LineInput) (more : List LineInput) :
    markers prompt past (events ++ input :: more) =
      markers prompt past events ++ markers prompt (past ++ linesIn (events ++ [input])) more := by
  induction events generalizing past with
  | nil =>
    rw [List.nil_append, List.nil_append, markers_cons]
    simp [markers]
  | cons first events ih =>
    rw [List.cons_append, markers_cons, ih, markers_cons, List.cons_append, List.cons_append,
      linesIn_cons first (events ++ [input]), List.append_assoc]

theorem heard_cons (h : input ≠ .endOfInput) (events : List LineInput) :
    heard (input :: events) = input :: heard events :=
  List.takeWhile_cons_of_pos (bne_iff_ne.2 h)

theorem heard_append_line (h : LineInput.endOfInput ∉ events) :
    heard (events ++ .line line :: more) = events ++ .line line :: heard more := by
  have hpass : ∀ input ∈ events, (input != .endOfInput) = true := fun input hinput =>
    bne_iff_ne.2 fun heq => h (heq ▸ hinput)
  rw [heard, List.takeWhile_append_of_pos hpass]
  rfl

theorem strippedTo_stripped (text : String) : StrippedTo text (stripped text) := by
  refine ⟨String.ofList (text.toList.rtakeWhile History.isLineEnd), ?_, fun c hc => ?_,
    fun c hc => ?_⟩
  · refine String.toList_inj.1 ?_
    rw [String.toList_append, stripped, String.toList_ofList, String.toList_ofList]
    exact List.rdropWhile_append_rtakeWhile.symm
  · rw [String.toList_ofList] at hc
    simpa [History.isLineEnd] using List.mem_rtakeWhile_imp hc
  · rw [stripped, String.toList_ofList] at hc
    obtain ⟨hne, rfl⟩ := List.mem_getLast?_eq_getLast hc
    have hlast := List.rdropWhile_last_not History.isLineEnd text.toList hne
    simp only [History.isLineEnd, Bool.or_eq_true, beq_iff_eq, not_or] at hlast
    exact hlast

end Lines

namespace Dialogue

variable {ο : Type} {prompt : String} {past : List String} {before : List LineInput}
variable {d d₁ d' : Dialogue ScriptedConsole ο}

/-- Reading has gone on over `before` and one event more, and no query has been completed on the
way: nothing but the script and the prompts has changed. -/
structure Collected (prompt : String) (past : List String) (before : List LineInput)
    (d d' : Dialogue ScriptedConsole ο) : Prop where
  incomplete : ∀ line ∈ linesIn before, completesQuery line = false
  ongoing : .endOfInput ∉ before
  history : d'.history = d.history
  recalled : d'.console.recalled = d.console.recalled
  prompts : d'.console.prompts = d.console.prompts ++ markers prompt past before

/-- How reading ends behind `before`: with the line that completes a query, or with the input. -/
inductive Ends (past : List String) (before : List LineInput) (d d' : Dialogue ScriptedConsole ο) :
    QueryInput → Prop
  | query {line : String} (complete : completesQuery line = true)
    (events : d.console.events = before ++ .line line :: d'.console.events) :
    Ends past before d d' (.query (unlines (openLines (past ++ linesIn before) ++ [line])))
  | endOfInput (events : heard d.console.events = before) : Ends past before d d' .endOfInput

/-- A read takes the first event, and shows the marker the lines read so far call for. -/
theorem exec_readLine_scripted (marker : String) (d : Dialogue ScriptedConsole ο) :
    ∃ d₁, exec (readLine marker) d = (.ok (d.console.events.head?.getD .endOfInput), d₁) ∧
      d₁.history = d.history ∧ d₁.console = (d.console.readLine marker).2 := by
  obtain ⟨hunaltered, hconsole⟩ := readLine_unaltered marker d
  exact ⟨_, exec_readLine marker d, hunaltered.history.symm, hconsole⟩

theorem marker_eq (prompt : String) (past : List String) :
    (if (unlines (openLines past)).isEmpty then prompt else continuationMarker) =
      nextMarker prompt past := by
  rw [isEmpty_unlines]
  rfl

theorem Collected.start (hhistory : d₁.history = d.history)
    (hconsole : d₁.console = (d.console.readLine (nextMarker prompt past)).2) :
    Collected prompt past [] d d₁ := by
  refine ⟨nofun, nofun, hhistory, by rw [hconsole]; rfl, ?_⟩
  rw [hconsole]
  simp [markers, ScriptedConsole.readLine]

/-- An event that completes no query is passed over, and its line, if it is one, is kept. -/
theorem Collected.cons {input : LineInput} (hinput : input ≠ .endOfInput)
    (hline : ∀ line ∈ linesIn [input], completesQuery line = false)
    (hhistory : d₁.history = d.history)
    (hconsole : d₁.console = (d.console.readLine (nextMarker prompt past)).2)
    (h : Collected prompt (past ++ linesIn [input]) before d₁ d') :
    Collected prompt past (input :: before) d d' where
  incomplete := by
    rw [linesIn_cons]
    exact fun line hmem => (List.mem_append.1 hmem).elim (hline line) (h.incomplete line)
  ongoing := fun hmem => (List.mem_cons.1 hmem).elim (fun heq => hinput heq.symm) h.ongoing
  history := h.history.trans hhistory
  recalled := by
    rw [h.recalled, hconsole]
    rfl
  prompts := by
    rw [h.prompts, hconsole, markers_cons]
    simp [ScriptedConsole.readLine]

theorem Ends.cons {input : LineInput} {result : QueryInput} (hinput : input ≠ .endOfInput)
    (hevents : d.console.events = input :: d₁.console.events)
    (h : Ends (past ++ linesIn [input]) before d₁ d' result) :
    Ends past (input :: before) d d' result := by
  cases h with
  | @query line complete events =>
    rw [List.append_assoc, ← linesIn_cons]
    exact .query complete (by rw [hevents, events, List.cons_append])
  | endOfInput events => exact .endOfInput (by rw [hevents, heard_cons hinput, events])

/-- Lines are collected behind those that are still open, until one completes the query. -/
theorem exec_collectLines (prompt : String) {fuel : Nat} (past : List String)
    (hfuel : d.console.events.length < fuel) :
    ∃ result d' before,
      exec (collectLines prompt fuel (unlines (openLines past))) d = (.ok result, d') ∧
        Collected prompt past before d d' ∧ Ends past before d d' result := by
  induction fuel generalizing past d with
  | zero => exact absurd hfuel (Nat.not_lt_zero _)
  | succ fuel ih =>
    obtain ⟨d₁, hread, hhistory, hconsole⟩ := exec_readLine_scripted (nextMarker prompt past) d
    rw [collectLines, marker_eq, exec_bind, hread]
    have hrest : d₁.console.events = d.console.events.tail := by rw [hconsole]; rfl
    cases hevents : d.console.events with
    | nil =>
      exact ⟨_, d₁, [], rfl, .start hhistory hconsole, .endOfInput (by rw [hevents]; rfl)⟩
    | cons input more =>
      rw [hevents] at hfuel hrest
      have hsplit : d.console.events = input :: d₁.console.events := by rw [hevents, hrest]; rfl
      have hless : d₁.console.events.length < fuel := by
        rw [hrest]
        exact Nat.lt_of_succ_lt_succ hfuel
      -- What is passed over is kept with the open lines, and the rest is collected behind it.
      have hpass (hinput : input ≠ .endOfInput)
          (hline : ∀ line ∈ linesIn [input], completesQuery line = false) :
          ∃ result d' before,
            exec (collectLines prompt fuel (unlines (openLines past ++ linesIn [input]))) d₁ =
              (.ok result, d') ∧
            Collected prompt past before d d' ∧ Ends past before d d' result := by
        obtain ⟨result, d', before, hrun, hcollected, hends⟩ := ih (past ++ linesIn [input]) hless
        rw [openLines_append _ hline] at hrun
        exact ⟨result, d', input :: before, hrun, hcollected.cons hinput hline hhistory hconsole,
          hends.cons hinput hsplit⟩
      cases input with
      | endOfInput =>
        exact ⟨_, d₁, [], rfl, .start hhistory hconsole, .endOfInput (by rw [hevents]; rfl)⟩
      | interrupted => simpa using hpass (by simp) (by simp)
      | line line =>
        have htyped : unlines (openLines past) ++ line ++ "\n" =
            unlines (openLines past ++ [line]) := (unlines_concat _ _).symm
        simp only [List.head?_cons, Option.getD_some, htyped]
        by_cases hline : completesQuery line = true
        · have hends : Ends past [] d d₁
              (.query (unlines (openLines (past ++ linesIn []) ++ [line]))) := .query hline hsplit
          rw [linesIn_nil, List.append_nil] at hends
          exact ⟨_, d₁, [], by rw [if_pos hline, exec_pure], .start hhistory hconsole, hends⟩
        · rw [if_neg hline]
          refine hpass (by simp) fun text htext => ?_
          obtain rfl := List.mem_singleton.1 htext
          exact Bool.eq_false_iff.2 hline

/-- The lines of the query have been heard, and what comes behind it is heard later. -/
theorem Collected.heard_eq {line : String} (h : Collected prompt past before d d₁)
    (hevents : d.console.events = before ++ .line line :: d₁.console.events) :
    heard d.console.events = before ++ .line line :: heard d₁.console.events := by
  rw [hevents, heard_append_line h.ongoing]

/-- A query that has been read is entered, and offered for recall. -/
theorem exec_readQuery_query {κ : Type} [Console κ] {d d₁ : Dialogue κ ο} {fuel : Nat}
    {text : String} (hcollect : exec (collectLines prompt fuel "") d = (.ok (.query text), d₁)) :
    ∃ d', exec (readQuery prompt fuel) d =
        (((Console.remember (stripped text) d₁.console).1.mapError Stop.fault).map
          fun _ => .query text, d') ∧
      d'.history = d₁.history.add (stripped text) ∧
      d'.console = (Console.remember (stripped text) d₁.console).2 ∧
      Journal.Adds Event.NoReadFault d₁.journal d'.journal := by
  have hentry : History.entryOf text = some (stripped text) := by
    rw [entryOf_eq, if_neg (collectLines_query hcollect)]
  let d₂ := d₁.note (.completed text)
  let d₃ : Dialogue κ ο := { d₂ with
    console := (Console.remember (stripped text) d₂.console).2
    history := d₂.history.add (stripped text) }
  have hconsole : d₂.console = d₁.console := console_note _ _
  refine ⟨d₃.note (.remembered (stripped text)), ?_, ?_, ?_, ?_⟩
  · rw [readQuery, exec_bind, hcollect, ← hconsole]
    simp only [record, hentry]
    change exec (mark (.completed text) >>= fun _ => ofCall _ >>= fun _ => pure _) d₁ = _
    rw [exec_bind]
    change exec (ofCall _ >>= fun _ => pure _) d₂ = _
    rw [exec_bind, exec_ofCall]
    cases (Console.remember (stripped text) d₂.console).1 <;> rfl
  · rw [history_note]
    exact congrArg (History.add _) (history_note _ _)
  · rw [console_note, ← hconsole]
  · have hcompleted : Journal.Adds Event.NoReadFault d₁.journal d₂.journal :=
      .of_raised (journal_note (.completed text) d₁) trivial trivial
    exact hcompleted.trans (.of_raised (journal_note (.remembered (stripped text)) d₃) trivial
      trivial)

/-- Queries are read one after another until the input ends. -/
def readQueries {κ : Type} [Console κ] (prompt : String) (fuel : Nat) :
    Nat → Operation (Dialogue κ ο) (List String)
  | 0 => .unfinished
  | calls + 1 => do
    match ← readQuery prompt fuel with
    | .endOfInput => return []
    | .query text => return text :: (← readQueries prompt fuel calls)

/-- What has come of reading all queries of a script. -/
structure Accumulated (prompt : String) (queries : List String) (rest : String)
    (d d' : Dialogue ScriptedConsole ο) : Prop where
  partition : String.join queries ++ rest = unlines (linesIn (heard d.console.events))
  isQuery : ∀ query ∈ queries, IsQuery query
  isPartial : IsPartial rest
  entered : ∃ added, List.Forall₂ StrippedTo queries added ∧
    d'.history.entries = d.history.entries ++ added ∧
    d'.console.recalled = d.console.recalled ++ added
  prompts : d'.console.prompts = d.console.prompts ++ markers prompt [] (heard d.console.events)

theorem Collected.accumulated (h : Collected prompt [] before d d')
    (hends : heard d.console.events = before)
    (hplain : ∀ line ∈ linesIn (heard d.console.events), '\n' ∉ line.toList) :
    Accumulated prompt [] (unlines (linesIn before)) d d' where
  partition := by
    rw [hends]
    exact String.empty_append
  isQuery := nofun
  isPartial := ⟨linesIn before, ⟨rfl, hends ▸ hplain⟩, h.incomplete⟩
  entered := ⟨[], .nil, by rw [h.history, List.append_nil], by rw [h.recalled, List.append_nil]⟩
  prompts := hends ▸ h.prompts

/-- The first query takes the lines up to the one that completes it; the others follow. -/
theorem Collected.accumulated_cons {line : String} {d₂ : Dialogue ScriptedConsole ο}
    {queries : List String} {rest text : String} (h : Collected prompt [] before d d₁)
    (hline : completesQuery line = true) (htext : text = unlines (linesIn before ++ [line]))
    (hevents : d.console.events = before ++ .line line :: d₁.console.events)
    (hhistory : d₂.history = d₁.history.add (stripped text))
    (hconsole : d₂.console = d₁.console.remember (stripped text))
    (hplain : ∀ line ∈ linesIn (heard d.console.events), '\n' ∉ line.toList)
    (hlater : Accumulated prompt queries rest d₂ d') :
    Accumulated prompt (text :: queries) rest d d' := by
  have hleft : d₂.console.events = d₁.console.events := by rw [hconsole]; rfl
  have hheard : heard d.console.events = before ++ .line line :: heard d₂.console.events := by
    rw [h.heard_eq hevents, hleft]
  have hlines : linesIn (heard d.console.events) =
      linesIn before ++ [line] ++ linesIn (heard d₂.console.events) := by
    rw [hheard, linesIn_append, linesIn_cons, linesIn_line, List.append_assoc]
  refine ⟨?_, fun query hquery => ?_, hlater.isPartial, ?_, ?_⟩
  · rw [String.join_cons, String.append_assoc, hlater.partition, hlines, unlines_append, htext]
  · rcases List.mem_cons.1 hquery with rfl | hquery
    · refine ⟨linesIn before, line, ⟨htext, fun l hl => hplain l ?_⟩, hline, h.incomplete⟩
      rw [hlines]
      exact List.mem_append_left _ hl
    · exact hlater.isQuery query hquery
  · obtain ⟨added, hadded, hentries, hrecalled⟩ := hlater.entered
    refine ⟨stripped text :: added, .cons (strippedTo_stripped text) hadded, ?_, ?_⟩
    · rw [hentries, hhistory, History.entries_add, h.history, List.append_assoc]
      rfl
    · rw [hrecalled, hconsole, ScriptedConsole.remember, h.recalled, List.append_assoc]
      rfl
  · have hnone : openLines ([] ++ linesIn (before ++ [.line line])) = openLines [] := by
      rw [linesIn_append, linesIn_line, List.nil_append, openLines_concat, if_pos hline]
      rfl
    rw [hlater.prompts, hconsole, hheard, markers_append_cons, markers_congr hnone,
      ← List.append_assoc, ← h.prompts, hconsole]
    rfl

/-- A script is read to its end, each event once. -/
theorem exec_readQueries (prompt : String) {fuel calls : Nat}
    (hfuel : d.console.events.length < fuel) (hcalls : d.console.events.length < calls)
    (hplain : ∀ line ∈ linesIn (heard d.console.events), '\n' ∉ line.toList) :
    ∃ queries rest d', exec (readQueries prompt fuel calls) d = (.ok queries, d') ∧
      Accumulated prompt queries rest d d' := by
  induction calls generalizing d with
  | zero => exact absurd hcalls (Nat.not_lt_zero _)
  | succ calls ih =>
    obtain ⟨result, d₁, before, hcollect, hcollected, hends⟩ := exec_collectLines prompt [] hfuel
    change exec (collectLines prompt fuel "") d = _ at hcollect
    rw [readQueries, exec_bind]
    cases hends with
    | endOfInput hheard =>
      refine ⟨[], _, d₁, ?_, hcollected.accumulated hheard hplain⟩
      rw [readQuery, exec_bind, hcollect]
      rfl
    | @query line hline hevents =>
      have htyped : openLines ([] ++ linesIn before) = linesIn before :=
        openLines_append [] hcollected.incomplete
      rw [htyped] at hcollect
      obtain ⟨d₂, hread, hhistory, hconsole, -⟩ := exec_readQuery_query hcollect
      have hleft : d₂.console.events = d₁.console.events := by rw [hconsole]; rfl
      have hless : d₂.console.events.length < d.console.events.length := by
        rw [hleft, hevents, List.length_append, List.length_cons]
        omega
      have hheard : heard d.console.events = before ++ .line line :: heard d₂.console.events := by
        rw [hcollected.heard_eq hevents, hleft]
      obtain ⟨queries, rest, d', hrun, hlater⟩ := ih (hless.trans hfuel) (by omega)
        fun l hl => hplain l (by rw [hheard, linesIn_append, linesIn_cons]; simp [hl])
      refine ⟨_ :: queries, rest, d', ?_,
        hcollected.accumulated_cons hline rfl hevents hhistory hconsole hplain hlater⟩
      rw [hread]
      change exec (readQueries prompt fuel calls >>= fun queries => pure (_ :: queries)) d₂ = _
      rw [exec_bind, hrun]
      rfl

section Faults

variable {κ : Type} [Console κ] {α : Type} {d d₁ d' : Dialogue κ ο} {result : Except Stop α}

/-- If a line read failed on the way from `d` to `d'`, its error is the result. -/
def ReportsReads (result : Except Stop α) (d d' : Dialogue κ ο) : Prop :=
  ∃ t, d'.journal = t ++ d.journal ∧
    ∀ marker error, .readLine marker (.error error) ∈ t → result = .error (.fault error)

omit [Console κ] in
theorem reportsReads_of_adds (h : Journal.Adds Event.NoReadFault d.journal d'.journal)
    (result : Except Stop α) : ReportsReads result d d' := by
  obtain ⟨t, ht, hall⟩ := h
  exact ⟨t, ht, fun marker error hmem => (hall _ hmem).elim⟩

omit [Console κ] in
theorem ReportsReads.noReadFault {a : α} (h : ReportsReads (.ok a : Except Stop α) d d') :
    Journal.Adds Event.NoReadFault d.journal d'.journal := by
  obtain ⟨t, ht, hread⟩ := h
  refine ⟨t, ht, fun e he => ?_⟩
  unfold Event.NoReadFault
  split
  · cases hread _ _ he
  · trivial

omit [Console κ] in
theorem ReportsReads.trans (hquiet : Journal.Adds Event.NoReadFault d.journal d₁.journal)
    (h : ReportsReads result d₁ d') : ReportsReads result d d' := by
  obtain ⟨t, ht, hall⟩ := hquiet
  obtain ⟨u, hu, hread⟩ := h
  refine ⟨u ++ t, by rw [hu, ht, List.append_assoc], fun marker error hmem => ?_⟩
  rcases List.mem_append.1 hmem with hmem | hmem
  · exact hread marker error hmem
  · exact (hall _ hmem).elim

omit [Console κ] in
theorem ReportsReads.of_error {β : Type} {stop : Stop}
    (h : ReportsReads (.error stop : Except Stop β) d d') :
    ReportsReads (.error stop : Except Stop α) d d' := by
  obtain ⟨t, ht, hread⟩ := h
  refine ⟨t, ht, fun marker error hmem => ?_⟩
  rw [Except.error.inj (hread marker error hmem)]

theorem reportsReads_readLine {input : Except Stop LineInput} {marker : String}
    (h : exec (readLine marker) d = (input, d')) : ReportsReads input d d' := by
  let reading := Console.readLine marker d.console
  let d₂ : Dialogue κ ο := { d with console := reading.2 }
  let e : Event := .readLine marker reading.1.result
  have hnoted : Journal.Adds (· = .raised) (e :: d.journal)
      ((d₂.note e).hear reading.1.raised).journal :=
    (journal_note e d₂).trans (journal_hear reading.1.raised (d₂.note e))
  obtain ⟨rfl, rfl⟩ := Prod.mk.inj h
  obtain ⟨t, ht, hraised⟩ := hnoted
  refine ⟨t ++ [e], ht.trans (by simp), fun shown error hmem => ?_⟩
  rcases List.mem_append.1 hmem with hmem | hmem
  · cases hraised _ hmem
  · obtain ⟨-, hresult⟩ := Event.readLine.inj (List.mem_singleton.1 hmem)
    change reading.1.result.mapError Stop.fault = _
    rw [← hresult]
    rfl

theorem reportsReads_collectLines {prompt typed : String} {fuel : Nat}
    {input : Except Stop QueryInput}
    (h : exec (collectLines prompt fuel typed) d = (input, d')) : ReportsReads input d d' := by
  induction fuel generalizing typed d with
  | zero =>
    obtain ⟨rfl, rfl⟩ := Prod.mk.inj h
    exact reportsReads_of_adds (.refl _) _
  | succ fuel ih =>
    rcases exec_bind_cases h with ⟨line, d₁, hread, h⟩ | ⟨stop, hread, rfl⟩
    · refine .trans (reportsReads_readLine hread).noReadFault ?_
      have hended {input' : QueryInput}
          (h : exec (pure input' : Operation (Dialogue κ ο) QueryInput) d₁ = (input, d')) :
          ReportsReads input d₁ d' := by
        obtain ⟨-, rfl⟩ := Prod.mk.inj h
        exact reportsReads_of_adds (.refl _) _
      cases line with
      | interrupted => exact ih h
      | endOfInput => exact hended h
      | line line =>
        by_cases hline : completesQuery line = true
        · simp only [hline, if_true] at h
          exact hended h
        · simp only [hline] at h
          exact ih h
    · exact (reportsReads_readLine hread).of_error

/-- When a line read fails its error is the result of reading the query, and nothing is entered. -/
theorem readQuery_readFault [Output ο] {prompt : String} {fuel : Nat}
    {input : Except Stop QueryInput} (h : exec (readQuery prompt fuel) d = (input, d')) :
    ∃ t, d'.journal = t ++ d.journal ∧ ∀ marker error,
      .readLine marker (.error error) ∈ t →
        input = .error (.fault error) ∧ d'.history = d.history := by
  rcases exec_bind_cases h with ⟨collected, d₁, hcollect, hrest⟩ | ⟨stop, hcollect, rfl⟩
  -- The lines were read without a fault, and what is done with them reads nothing.
  · have hquiet : Journal.Adds Event.NoReadFault d₁.journal d'.journal := by
      cases collected with
      | endOfInput =>
        obtain ⟨-, rfl⟩ := Prod.mk.inj hrest
        exact .refl _
      | query text =>
        obtain ⟨d₂, hread, -, -, hadds⟩ := exec_readQuery_query hcollect
        obtain ⟨-, rfl⟩ := Prod.mk.inj (hread.symm.trans h)
        exact hadds
    obtain ⟨t, ht, hall⟩ := (reportsReads_collectLines hcollect).noReadFault.trans hquiet
    exact ⟨t, ht, fun marker error hmem => (hall _ hmem).elim⟩
  · obtain ⟨t, ht, hread⟩ := reportsReads_collectLines hcollect
    have hhistory : d'.history = d.history := by
      have hsteps := lines_collectLines prompt fuel "" d
      rw [hcollect] at hsteps
      exact eq_of_steps Dialogue.history (fun _ _ ⟨_, _, hstep⟩ => hstep.history_of_idle trivial)
        hsteps
    exact ⟨t, ht, fun marker error hmem => ⟨hread marker error hmem, hhistory⟩⟩

end Faults

/-- Reading query after query from a script gives all its lines to the queries but those that are
unfinished when the input ends; exactly the queries are entered, and every line is asked for with
the prompt or the continuation marker as the query being typed demands. From any console, a line
read that fails is reported and enters nothing. -/
theorem readQueries_partition :
    (∀ (ο : Type) (prompt : String) (fuel calls : Nat) (d : Dialogue ScriptedConsole ο),
      d.console.events.length < fuel → d.console.events.length < calls →
      (∀ line ∈ linesIn (heard d.console.events), '\n' ∉ line.toList) →
        ∃ queries rest d', exec (readQueries prompt fuel calls) d = (.ok queries, d') ∧
          Accumulated prompt queries rest d d') ∧
      ∀ (κ ο : Type) [Console κ] [Output ο] (prompt : String) (fuel : Nat) (d d' : Dialogue κ ο)
        (input : Except Stop QueryInput), exec (readQuery prompt fuel) d = (input, d') →
          ∃ t, d'.journal = t ++ d.journal ∧ ∀ marker error,
            .readLine marker (.error error) ∈ t →
              input = .error (.fault error) ∧ d'.history = d.history :=
  ⟨fun _ prompt _ _ _ hfuel hcalls hplain => exec_readQueries prompt hfuel hcalls hplain,
    fun _ _ _ _ _ _ _ _ _ h => readQuery_readFault h⟩

/-- Blank lines, carriage returns, interrupts and a command, and a query left unfinished. -/
def interleaved : Dialogue ScriptedConsole Buffer where
  console :=
    { events := [.line "", .interrupted, .line "p(\r", .interrupted, .line "q).\r", .line "!2",
        .interrupted, .line "r", .interrupted, .endOfInput, .line "s."] }
  output := {}

/-- A console whose second line read fails. -/
def failing : Dialogue (Unreliable ScriptedConsole) Buffer where
  console :=
    { console := { events := [.line "p", .line "q."] }
      lineFault := some (1, .invalidText) }
  output := {}

theorem interleaved_partition :
    (∃ queries rest d', exec (readQueries "?- " 12 12) interleaved = (.ok queries, d') ∧
        Accumulated "?- " queries rest interleaved d') ∧
      (exec (readQueries "?- " 12 12) interleaved).1 = .ok ["\np(\r\nq).\r\n", "!2\n"] ∧
      (exec (readQueries "?- " 12 12) interleaved).2.history.entries = ["\np(\r\nq).", "!2"] ∧
      (exec (readQueries "?- " 12 12) interleaved).2.console.prompts =
        ["?- ", "|  ", "|  ", "|  ", "|  ", "?- ", "?- ", "?- ", "|  ", "|  "] ∧
      (exec (readQuery "?- " 3) failing).1 = .error (.fault (.io .invalidText)) ∧
      (exec (readQuery "?- " 3) failing).2.history = failing.history := by
  refine ⟨readQueries_partition.1 Buffer "?- " 12 12 interleaved (by decide) (by decide)
    (by decide), by decide +kernel, by decide +kernel, by decide +kernel, ?_⟩
  obtain ⟨t, ht, hread⟩ := readQueries_partition.2 (Unreliable ScriptedConsole) Buffer "?- " 3
    failing (exec (readQuery "?- " 3) failing).2 (exec (readQuery "?- " 3) failing).1 rfl
  have hjournal : t = [.readLine "|  " (.error (.io .invalidText)),
      .readLine "?- " (.ok (.line "p"))] := by
    rw [← List.append_nil t]
    exact ht.symm
  exact hread "|  " _ (by rw [hjournal]; exact List.mem_cons_self)

end Dialogue

end LogicConsole
