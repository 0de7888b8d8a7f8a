import LogicConsole.Console.Scripted
import LogicConsole.Engine.Facts
import LogicConsole.Proofs.Replay
import LogicConsole.Proofs.Storage.Directories
import LogicConsole.Proofs.Storage.Lines
/-!
What is left of the histories of consecutive sessions. A session hands its history over once,
however it ends, and its engine touches the file system then alone. So the history file holds the
last of all entries, those of the first session before those of the second, and is left alone while
there are none.
-/
namespace LogicConsole

open Operation Relation

namespace HistoryFile

variable {file : HistoryFile} {fs fs' : FileSystem} {stored entries : List String}

theorem fromUTF8?_toUTF8 (text : String) : String.fromUTF8? text.toUTF8 = some text := by
  simp only [String.fromUTF8?, String.toUTF8_eq_toByteArray, dif_pos text.isValidUTF8]
  rfl

theorem load_of_locate {l : Location} {bytes : ByteArray} {text : String}
    (h : fs.locate file.path = .ok (l, .file bytes)) (htext : String.fromUTF8? bytes = some text) :
    file.load fs = .ok (entriesOf text) := by
  unfold load FileSystem.readText FileSystem.read
  rw [h]
  dsimp only [bind, Except.bind, pure, Except.pure]
  rw [htext]

/-- Entries that are loaded come from a file, and without a file there are none. -/
theorem load_cases (h : file.load fs = .ok stored) :
    (∃ l bytes, fs.locate file.path = .ok (l, .file bytes) ∧
      ∃ text, stored = entriesOf text) ∨
      fs.locate file.path = .error .notFound ∧ stored = [] := by
  unfold load FileSystem.readText FileSystem.read at h
  cases hlocate : fs.locate file.path with
  | error e =>
    rw [hlocate] at h
    cases e <;> cases h
    exact .inr ⟨rfl, rfl⟩
  | ok found =>
    obtain ⟨l, entry⟩ := found
    rw [hlocate] at h
    cases entry with
    | file bytes =>
      dsimp only [bind, Except.bind, pure, Except.pure] at h
      cases htext : String.fromUTF8? bytes with
      | none =>
        rw [htext] at h
        cases h
      | some text =>
        rw [htext] at h
        cases h
        exact .inl ⟨l, bytes, rfl, text, rfl⟩
    | directory => cases h

theorem ne_empty_of_load (h : file.load fs = .ok stored) {entry : String}
    (hentry : entry ∈ stored) : entry ≠ "" := by
  rcases load_cases h with ⟨-, -, -, text, rfl⟩ | ⟨-, rfl⟩
  · exact entriesOf_ne_empty hentry
  · cases hentry

/-- The file loads to the entries, also once the missing directories of its path are there. -/
structure Holds (file : HistoryFile) (fs : FileSystem) (stored : List String) : Prop where
  load : file.load fs = .ok stored
  settled (fs' : FileSystem) (found : List String)
    (hcreate : FileOperation.exec (.createDirectories file.path.above) fs = (.ok (), fs'))
    (hload : file.load fs' = .ok found) : found = stored

theorem Holds.of_file {l : Location} {bytes : ByteArray} (hload : file.load fs = .ok stored)
    (h : fs.locate file.path = .ok (l, .file bytes)) : file.Holds fs stored where
  load := hload
  settled fs' found hcreate hfound := by
    rw [FileOperation.exec_createDirectories_of_file h] at hcreate
    cases hcreate
    exact Except.ok.inj (hfound.symm.trans hload)

theorem Holds.of_exists (hload : file.load fs = .ok stored) (h : fs.exists? file.path = true) :
    file.Holds fs stored := by
  rcases load_cases hload with ⟨l, bytes, hfile, -⟩ | ⟨hnone, -⟩
  · exact .of_file hload hfile
  · rw [FileSystem.exists?, hnone] at h
    cases h

theorem Holds.of_names (hload : file.load fs = .ok stored) (hrooted : fs.Rooted)
    (hup : ".." ∉ file.path.names) : file.Holds fs stored := by
  rcases load_cases hload with ⟨l, bytes, hfile, -⟩ | ⟨hnone, rfl⟩
  · exact .of_file hload hfile
  · refine ⟨hload, fun fs' found hcreate hfound => ?_⟩
    rcases load_cases hfound with ⟨l, bytes, hfile, -⟩ | ⟨-, rfl⟩
    · have hgrows := FileOperation.grows_createDirectories file.path.above fs
      rw [hcreate] at hgrows
      rw [hgrows.locate_file hrooted hup hfile] at hnone
      cases hnone
    · rfl

theorem append_eq_ok (hentries : entries ≠ [])
    (h : FileOperation.exec (file.append entries) fs = (.ok (), fs')) : ∃ fs₁ stored fs₂,
      FileOperation.exec (.createDirectories file.path.above) fs = (.ok (), fs₁) ∧
      file.load fs₁ = .ok stored ∧
      fs₁.write file.temporary
        (textOf (lastEntries file.maxEntries (stored ++ entries))).toUTF8 = .ok fs₂ ∧
      fs₂.rename file.temporary file.path = .ok fs' := by
  have hempty : entries.isEmpty = false := List.isEmpty_eq_false_iff.2 hentries
  unfold append at h
  rw [hempty] at h
  obtain ⟨⟨⟩, fs₁, hcreate, h⟩ := FileOperation.exec_bind_eq_ok h
  obtain ⟨stored, fs₁', hinspect, h⟩ := FileOperation.exec_bind_eq_ok h
  obtain ⟨⟨⟩, fs₂, hwrite, hrename⟩ := FileOperation.exec_bind_eq_ok h
  obtain ⟨hload, rfl⟩ : file.load fs₁ = .ok stored ∧ fs₁ = fs₁' :=
    Prod.mk.inj hinspect
  exact ⟨fs₁, stored, fs₂, hcreate, hload, FileOperation.exec_change_eq_ok hwrite,
    FileOperation.exec_change_eq_ok hrename⟩

/-- Appending keeps the last of what the file held and what came behind. -/
theorem Holds.append (h : file.Holds fs stored) (hentries : entries ≠ [])
    (hfull : ∀ entry ∈ entries, entry ≠ "")
    (hrun : FileOperation.exec (file.append entries) fs = (.ok (), fs')) :
    file.Holds fs' (lastEntries file.maxEntries (stored ++ entries)) := by
  obtain ⟨fs₁, found, fs₂, hcreate, hload, hwrite, hrename⟩ := append_eq_ok hentries hrun
  obtain rfl := h.settled fs₁ found hcreate hload
  obtain ⟨l, hfile⟩ := FileSystem.read_of_write_rename hwrite hrename
  refine .of_file ?_ hfile
  rw [load_of_locate hfile (fromUTF8?_toUTF8 _)]
  refine congrArg Except.ok (entriesOf_textOf fun entry hentry => ?_)
  rcases List.mem_append.1 (mem_lastEntries hentry) with hentry | hentry
  · exact ne_empty_of_load h.load hentry
  · exact hfull entry hentry

end HistoryFile

/-- Whether what was handed over, if anything was, came to be stored. -/
def Event.stored : Event → Bool
  | .persisted _ result => result.isOk
  | _ => true

namespace FactEngine

theorem solve_storage (e : FactEngine) (state : SessionState) :
    (e.solve state).2.1.historyFile = e.historyFile ∧ (e.solve state).2.1.files = e.files := by
  unfold solve
  cases Directive.parse state.query with
  | error error => exact ⟨rfl, rfl⟩
  | ok directive => cases directive <;> exact ⟨rfl, rfl⟩

theorem persist_eq {e : FactEngine} {file : HistoryFile} (h : e.historyFile = some file)
    (entries : List String) :
    e.persist entries =
      ((FileOperation.exec (file.append entries) e.files).1.mapError EngineError.history,
        { e with files := (FileOperation.exec (file.append entries) e.files).2 }) := by
  unfold persist
  rw [h]
  rfl

end FactEngine

namespace Session

variable {κ ο : Type} [Console κ] [Output ο] {s s' : Session FactEngine κ ο} {fuel : Nat}
  {file : HistoryFile} {stored : List String}

theorem Step.storage_eq {e : Event} (h : Step e s s') :
    (s'.engine.historyFile, s'.engine.files) = (s.engine.historyFile, s.engine.files) := by
  cases h with
  | paging h => cases h <;> rfl
  | solved query =>
    obtain ⟨hfile, hfiles⟩ := s.engine.solve_storage { s.state with query }
    simp only [drive, exec_ofCall, Engine.solve, pose, hfile, hfiles]
  | _ => rfl

/-- Until its history is handed over, a session leaves the files alone. -/
theorem storage_of_steps (h : ReflTransGen AnyStep s s') :
    (s'.engine.historyFile, s'.engine.files) = (s.engine.historyFile, s.engine.files) :=
  eq_of_steps (fun s => (s.engine.historyFile, s.engine.files))
    (fun _ _ ⟨_, hstep⟩ => hstep.storage_eq) h

/-- A new session on an engine that keeps its queries in the file comes to its end, in whatever way,
and the file operations succeed. -/
structure Keeps (s : Session FactEngine κ ο) (file : HistoryFile) (fuel : Nat) : Prop where
  file : s.engine.historyFile = some file
  new : s.dialogue.history = {}
  ends : (s.runFor fuel).1 ≠ .unfinished
  stored : ∀ e ∈ (s.runFor fuel).2.dialogue.journal, e.stored = true

namespace Keeps

/-- What such a session does to the files is to append its entries. -/
theorem append (h : s.Keeps file fuel) :
    FileOperation.exec (file.append (s.runFor fuel).2.dialogue.history.entries) s.engine.files =
      (.ok (), (s.runFor fuel).2.engine.files) := by
  obtain ⟨⟨reset, loop, later, hjournal, -⟩, hengine, -⟩ := persistsOnce [] (by rw [h.new]) h.ends
  obtain ⟨hfile, hfiles⟩ := Prod.mk.inj (storage_of_steps (within_phases fuel s))
  have hpersist := FactEngine.persist_eq (hfile.trans h.file)
    (s.runFor fuel).2.dialogue.history.entries
  have hmem : Event.persisted (s.runFor fuel).2.dialogue.history.entries
      (Engine.persist (s.runFor fuel).2.dialogue.history.entries
        (exec (phases fuel) s).2.engine).1 ∈ (s.runFor fuel).2.dialogue.journal := by
    rw [hjournal]
    exact List.mem_append_left _ (List.mem_append_right _ List.mem_cons_self)
  have hresult := h.stored _ hmem
  change Except.isOk ((exec (phases fuel) s).2.engine.persist _).1 = true at hresult
  change _ = ((exec (phases fuel) s).2.engine.persist _).2 at hengine
  rw [hpersist, hfiles] at hresult hengine
  rw [hengine]
  generalize FileOperation.exec _ s.engine.files = run at hresult ⊢
  obtain ⟨_ | ⟨⟩, files⟩ := run
  · cases hresult
  · rfl

theorem holds (h : s.Keeps file fuel) (hholds : file.Holds s.engine.files stored)
    (hentries : (s.runFor fuel).2.dialogue.history.entries ≠ []) :
    file.Holds (s.runFor fuel).2.engine.files (HistoryFile.lastEntries file.maxEntries
      (stored ++ (s.runFor fuel).2.dialogue.history.entries)) := by
  have hcanonical : (s.runFor fuel).2.dialogue.history.Canonical :=
    canonical_runFor fuel (by simp [History.Canonical, h.new])
  refine hholds.append hentries (fun entry hentry => ?_) h.append
  rintro rfl
  cases hcanonical "" hentry

theorem leaves (h : s.Keeps file fuel)
    (hentries : (s.runFor fuel).2.dialogue.history.entries = []) :
    (s.runFor fuel).2.engine.files = s.engine.files := by
  have happend := h.append
  rw [hentries] at happend
  exact (Prod.mk.inj happend).2.symm

end Keeps

end Session

/-- Consecutive sessions from one file system to another, each with an engine of its own that keeps
its queries in the file, and the entries of them all. -/
inductive Sessions (file : HistoryFile) : FileSystem → List String → FileSystem → Prop
  | nil (fs : FileSystem) : Sessions file fs [] fs
  | cons {κ ο : Type} [Console κ] [Output ο] {s : Session FactEngine κ ο} {fuel : Nat}
    {added : List String} {fs' : FileSystem} (h : s.Keeps file fuel)
    (hrest : Sessions file (s.runFor fuel).2.engine.files added fs') :
    Sessions file s.engine.files ((s.runFor fuel).2.dialogue.history.entries ++ added) fs'

namespace Sessions

variable {file : HistoryFile} {fs fs' : FileSystem} {stored added : List String}

theorem leaves (h : Sessions file fs added fs') (hadded : added = []) : fs' = fs := by
  induction h with
  | nil => rfl
  | cons h _ ih =>
    obtain ⟨hentries, hadded⟩ := List.append_eq_nil_iff.1 hadded
    exact (ih hadded).trans (h.leaves hentries)

theorem holds (h : Sessions file fs added fs') (hholds : file.Holds fs stored)
    (hadded : added ≠ []) :
    file.Holds fs' (HistoryFile.lastEntries file.maxEntries (stored ++ added)) := by
  induction h generalizing stored with
  | nil => exact absurd rfl hadded
  | @cons κ ο _ _ s fuel added fs' h hrest ih =>
    by_cases hentries : (s.runFor fuel).2.dialogue.history.entries = []
    · rw [hentries, List.nil_append] at hadded ⊢
      rw [h.leaves hentries] at ih
      exact ih hholds hadded
    · have hnext := h.holds hholds hentries
      by_cases hrest' : added = []
      · rw [hrest.leaves hrest', hrest', List.append_nil]
        exact hnext
      · have hlast := ih hnext hrest'
        rwa [HistoryFile.lastEntries_append, List.append_assoc] at hlast

/-- After consecutive sessions the file loads to the last of what it held before and of the entries
added since; without any, all is as it was. This takes that no other file comes to light when the
missing directories of the path are created: a file that is there is found again, and a path that
never leads up has no other way to go. -/
theorem load_lastEntries (h : Sessions file fs added fs') (hload : file.load fs = .ok stored)
    (hpath : fs.exists? file.path = true ∨ fs.Rooted ∧ ".." ∉ file.path.names ∨
      file.Holds fs stored) :
    (added ≠ [] → file.load fs' =
      .ok (HistoryFile.lastEntries file.maxEntries (stored ++ added))) ∧
      (added = [] → fs' = fs) := by
  have hholds : file.Holds fs stored := by
    rcases hpath with hexists | ⟨hrooted, hup⟩ | hholds
    · exact .of_exists hload hexists
    · exact .of_names hload hrooted hup
    · exact hholds
  exact ⟨fun hadded => (h.holds hholds hadded).load, h.leaves⟩

theorem eq_ok_of_toOption {ε α : Type} {x : Except ε α} {a : α} (h : x.toOption = some a) :
    x = .ok a := by
  cases x with
  | error e => cases h
  | ok b =>
    cases h
    rfl

/-- A disk with one file, `h`, that holds one entry. -/
def disk : FileSystem where
  entries := [(Location.root.child "h", .file "x.\n".toUTF8)]

theorem rooted_disk : disk.Rooted := by
  intro l name h
  have hchild : l.child name = Location.root.child "h" := by
    by_contra hne
    simp [disk, FileSystem.find?, Location.child_ne_root, List.lookup_cons,
      beq_false_of_ne hne] at h
  have hroot : l = .root := by
    rw [← Location.parent_child l name, hchild, Location.parent_child]
  rw [hroot]
  rfl

/-- A session on the built-in engine in which the lines are typed. -/
def typing (lines : List String) (file : HistoryFile) (files : FileSystem) :
    Session FactEngine ScriptedConsole Buffer where
  engine := { historyFile := some file, files }
  dialogue := { console := { events := lines.map .line }, output := {} }

theorem typed (lines : List String) (fuel : Nat) {entries : List String}
    (hends : ((typing lines file fs).runFor fuel).1 ≠ .unfinished)
    (hstored : ∀ e ∈ ((typing lines file fs).runFor fuel).2.dialogue.journal, e.stored = true)
    (hentries : ((typing lines file fs).runFor fuel).2.dialogue.history.entries = entries)
    (hrest : Sessions file ((typing lines file fs).runFor fuel).2.engine.files added fs') :
    Sessions file fs (entries ++ added) fs' :=
  hentries ▸ .cons (s := typing lines file fs) ⟨rfl, rfl, hends, hstored⟩ hrest

/-- The history file `h` with room for three entries. -/
def small : HistoryFile := ⟨.ofString "h", 3⟩

/-- A query of two lines is typed, and then the input ends. The next session is halted. -/
theorem small_load : ∃ fs', Sessions small disk ["says('a\\b',\nc).", "a.", "halt."] fs' ∧
    small.load fs' = .ok ["says('a\\b',\nc).", "a.", "halt."] := by
  obtain ⟨fs', hsessions⟩ :
      ∃ fs', Sessions small disk (["says('a\\b',\nc)."] ++ (["a.", "halt."] ++ [])) fs' :=
    ⟨_, typed ["says('a\\b',", "c)."] 4 (by decide +kernel) (by decide +kernel) (by decide +kernel)
      (typed ["a.", "halt."] 4 (by decide +kernel) (by decide +kernel) (by decide +kernel)
        (.nil _))⟩
  have hload : small.load disk = .ok ["x."] := eq_ok_of_toOption (by decide +kernel)
  have hexists : disk.exists? small.path = true := by decide +kernel
  have hafter := (load_lastEntries hsessions hload (.inl hexists)).1 (List.cons_ne_nil _ _)
  exact ⟨fs', hsessions, hafter.trans (congrArg Except.ok (by decide +kernel))⟩

/-- The same file by a way that is not there: through a missing directory and up again. -/
def roundabout : HistoryFile := ⟨.ofString "d/../h", 3⟩

/-- To store a history the missing directory is created, and then another file is found. -/
theorem roundabout_gains : ∃ fs', Sessions roundabout disk ["q."] fs' ∧ disk.Rooted ∧
    roundabout.load disk = .ok [] ∧ roundabout.load fs' = .ok ["x.", "q."] ∧
      roundabout.load fs' ≠
        .ok (HistoryFile.lastEntries roundabout.maxEntries ([] ++ ["q."])) := by
  have hsession : Sessions roundabout disk (["q."] ++ []) _ :=
    typed ["q."] 4 (by decide +kernel) (by decide +kernel) (by decide +kernel) (.nil _)
  have hload : roundabout.load ((typing ["q."] roundabout disk).runFor 4).2.engine.files =
      .ok ["x.", "q."] := eq_ok_of_toOption (by decide +kernel)
  refine ⟨_, hsession, rooted_disk, eq_ok_of_toOption (by decide +kernel), hload, ?_⟩
  rw [hload]
  exact fun h => absurd (Except.ok.inj h) (by decide)

end Sessions

end LogicConsole
