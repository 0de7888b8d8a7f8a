import LogicConsole.Proofs.Storage.Calls
import LogicConsole.Proofs.Storage.Footprint
/-!
An append that is cut short. The new contents are written beside the history file, which is touched
by the last effect alone: until then it is as it was. Only a history file that has the temporary
name itself is written in place, and is empty for a while.
-/
namespace LogicConsole

open FileOperation FileSystem

namespace FileSystem

variable {fs fs' : FileSystem} {l : Location}

theorem fileAt_congr (h : fs'.find? l = fs.find? l) : fs'.fileAt l = fs.fileAt l := by
  rw [fileAt, fileAt, h]

/-- New directories are no files. -/
theorem Grows.fileAt (h : Grows fs fs') (l : Location) : fs'.fileAt l = fs.fileAt l := by
  rcases h.entry l with hsame | ⟨hnone, hnew⟩
  · exact fileAt_congr hsame
  · rw [FileSystem.fileAt, FileSystem.fileAt, hnone, hnew]

end FileSystem

namespace FileProgram

variable {fs : FileSystem} {p : Path} {l : Location} {effects : List Effect}
  {result : Except IoError Unit}

/-- Until a write is over there is nothing else than a file where it writes. -/
theorem passes_write (hroot : l ≠ .root) (chunks : List ByteArray) :
    Passes (fun fs' => fs' = fs ∨ ∃ bytes, fs' = fs.put l (.file bytes))
      (.clear l :: chunks.map (.extend l)) fs := by
  refine passes_cons.2 ⟨.inl rfl, ?_⟩
  change Passes _ _ (fs.put l (.file .empty))
  generalize ByteArray.empty = bytes
  induction chunks generalizing bytes with
  | nil => exact passes_nil.2 (.inr ⟨bytes, rfl⟩)
  | cons chunk chunks ih =>
    refine passes_cons.2 ⟨.inr ⟨bytes, rfl⟩, ?_⟩
    rw [Effect.apply, fileAt, find?_put_self hroot, put_put]
    exact ih _

/-- Directories that are created after others. -/
theorem passes_grows_append {made rest : List Effect} (hmade : Passes fs.Grows made fs)
    (hrest : Passes (settle made fs).Grows rest (settle made fs)) :
    Passes fs.Grows (made ++ rest) fs :=
  passes_append.2 ⟨hmade, hrest.mono fun _ => (hmade made List.prefix_rfl).trans⟩

theorem passes_done {P : FileSystem → Prop} {returned : Except IoError Unit}
    (h : (done returned).Runs fs effects result) (hP : P fs) : Passes P effects fs := by
  obtain ⟨rfl, -⟩ := h
  exact passes_nil.2 hP

theorem passes_ensureDirectory (h : (ensureDirectory p).Runs fs effects result) :
    Passes fs.Grows effects fs := by
  obtain ⟨returned, made, rest, hmakes, rfl, hrest⟩ := h
  cases hmakes with
  | createDirectory hplace hnone =>
    exact passes_cons.2 ⟨.refl fs, passes_done hrest (.put hnone (Location.child_ne_root _ _))⟩
  | refused hrefused => exact passes_done hrest (.refl fs)

/-- While directories are created nothing else changes. -/
theorem passes_createDirectories {above : List Path}
    (h : (createDirectories above).Runs fs effects result) : Passes fs.Grows effects fs := by
  induction above generalizing fs effects result with
  | nil => exact passes_done h (.refl fs)
  | cons p above ih =>
    obtain ⟨returned, made, rest, hfirst, rfl, hrest⟩ := runs_andThen.1 h
    refine passes_grows_append (passes_ensureDirectory hfirst) ?_
    cases returned with
    | ok u => exact passes_done hrest (.refl _)
    | error e =>
      cases e with
      | notFound =>
        obtain ⟨returned, made', rest', habove, rfl, hlast⟩ := runs_andThen.1 hrest
        refine passes_grows_append (ih habove) ?_
        cases returned with
        | ok u => exact passes_ensureDirectory hlast
        | error e => exact passes_done hlast (.refl _)
      | _ => exact passes_done hrest (.refl _)

/-- A single call makes its own effects. -/
theorem runs_change {c : FileCall} :
    (change c).Runs fs effects result ↔ c.Makes fs result effects := by
  constructor
  · rintro ⟨returned, made, rest, hmakes, rfl, rfl, rfl⟩
    rwa [List.append_nil]
  · intro hmakes
    exact ⟨result, effects, [], hmakes, (List.append_nil _).symm, rfl, rfl⟩

/-- A file is replaced after it was written under another name, or one of both is refused. -/
theorem replace_cases {source target : Path} {bytes : ByteArray}
    (h : (change (.write source bytes) >>= fun _ => change (.rename source target)).Runs
      fs effects result) :
    effects = [] ∧ result ≠ .ok () ∨ ∃ l, ∃ chunks : List ByteArray, ∃ more, fs.Admits source l ∧
      chunks.foldl (· ++ ·) .empty = bytes ∧
      effects = .clear l :: chunks.map (.extend l) ++ more ∧
      (more = [] ∧ result ≠ .ok () ∨
        ∃ m, fs.Admits target m ∧ more = [.move l m (.file bytes)]) := by
  obtain ⟨returned, made, rest, hwrite, rfl, hrest⟩ := runs_andThen.1 h
  cases runs_change.1 hwrite with
  | refused hrefused =>
    obtain ⟨rfl, rfl⟩ := hrest
    exact .inl ⟨rfl, nofun⟩
  | @write _ _ l chunks hsource hchunks =>
    refine .inr ⟨l, chunks, rest, hsource, hchunks, rfl, ?_⟩
    rw [settle_write hsource.ne_root hchunks] at hrest
    have hsame := SameDirectories.put hsource.ne_root hsource.free bytes
    cases runs_change.1 hrest with
    | refused hrefused => exact .inl ⟨rfl, nofun⟩
    | @rename _ _ l' m entry hlocate htarget =>
      have hwritten := (hsource.of_same hsame).locate (find?_put_self hsource.ne_root)
      cases hwritten.symm.trans hlocate
      exact .inr ⟨m, htarget.of_same hsame.symm, rfl⟩

end FileProgram

namespace HistoryFile

variable {file : HistoryFile} {fs fs₁ fs' : FileSystem} {l m d : Location} {name : String}
  {entries stored : List String} {effects : List Effect} {result : Except IoError Unit}
  {bytes : ByteArray}

/-- An append, call by call. -/
def program (file : HistoryFile) (entries : List String) : FileProgram Unit := do
  if entries.isEmpty then return
  FileProgram.createDirectories file.path.above
  let stored ← FileProgram.inspect file.load
  let kept := lastEntries file.maxEntries (stored ++ entries)
  FileProgram.change (.write file.temporary (textOf kept).toUTF8)
  FileProgram.change (.rename file.temporary file.path)

theorem performs_program (file : HistoryFile) (entries : List String) :
    FileProgram.Performs (file.program entries) (file.append entries) := by
  unfold program append
  cases entries.isEmpty with
  | true => exact FileProgram.performs_pure ()
  | false =>
    exact (FileProgram.performs_createDirectories _).bind fun _ =>
      (FileProgram.performs_inspect _).bind fun _ =>
        (FileProgram.performs_change (.write ..)).bind fun _ =>
          FileProgram.performs_change (.rename ..)

/-- The text that an append comes to write: the last of what is stored once the directories have
been created, and of the new entries. -/
def Writes (file : HistoryFile) (fs : FileSystem) (entries : List String) (text : String) : Prop :=
  ∃ fs₁ stored, exec (createDirectories file.path.above) fs = (.ok (), fs₁) ∧
    file.load fs₁ = .ok stored ∧ text = textOf (lastEntries file.maxEntries (stored ++ entries))

/-- The file in the history file's place is as it was or holds what the append comes to write. -/
structure Whole (file : HistoryFile) (fs : FileSystem) (entries : List String)
    (fs' : FileSystem) : Prop where
  place (d : Location) (name : String) (h : fs.place file.path = .ok (d, some name)) :
    fs'.place file.path = .ok (d, some name)
  contents (d : Location) (name : String) (hplace : fs'.place file.path = .ok (d, some name))
    (hname : name ≠ temporaryName name) : fs'.fileAt (d.child name) = fs.fileAt (d.child name) ∨
      ∃ text, file.Writes fs entries text ∧ fs'.fileAt (d.child name) = some text.toUTF8

theorem Whole.of_grows (h : fs.Grows fs') : file.Whole fs entries fs' where
  place _ _ hplace := h.keepsDirectories.place hplace
  contents _ _ _ _ := .inl (h.fileAt _)

/-- Where a file is written under the temporary name. -/
theorem Whole.of_temporary (h : fs.Grows fs₁) (hadmits : fs₁.Admits file.temporary l)
    (bytes : ByteArray) : file.Whole fs entries (fs₁.put l (.file bytes)) := by
  have hsame := SameDirectories.put hadmits.ne_root hadmits.free bytes
  refine ⟨fun d name hplace => hsame.keeps.place (h.keepsDirectories.place hplace),
    fun d name hplace hname => .inl ?_⟩
  have hne : d.child name ≠ l := fun heq => hname (Location.child_inj.1
    (heq.trans (temporary_beside (hsame.kept.place hplace) hadmits)))
  exact (fileAt_congr (find?_put_of_ne hne)).trans (h.fileAt _)

/-- Where the file has come to its place. -/
theorem Whole.of_replaced
    (hcreate : exec (createDirectories file.path.above) fs = (.ok (), fs₁))
    (hload : file.load fs₁ = .ok stored) (h : file.Ready fs₁ l m) :
    file.Whole fs entries (file.replaced l m (stored ++ entries) fs₁) := by
  have hgrows := grows_createDirectories file.path.above fs
  rw [hcreate] at hgrows
  have hsame := h.sameDirectories (stored ++ entries)
  refine ⟨fun d name hplace => hsame.keeps.place (hgrows.keepsDirectories.place hplace),
    fun d name hplace _ => .inr ⟨_, ⟨fs₁, stored, hcreate, hload, rfl⟩, ?_⟩⟩
  obtain ⟨d', name', hplace', rfl⟩ := (h.path.of_same hsame).place
  cases hplace.symm.trans hplace'
  rw [fileAt, replaced, find?_put_self h.path.ne_root]

/-- An append comes to write after the directories have been created and what is stored was read. -/
theorem program_cases (hentries : entries ≠ [])
    (h : (file.program entries).Runs fs effects result) : ∃ opened rest,
      Passes fs.Grows opened fs ∧ effects = opened ++ rest ∧
        (rest = [] ∧ result ≠ .ok () ∨ ∃ stored,
          exec (createDirectories file.path.above) fs = (.ok (), settle opened fs) ∧
          file.load (settle opened fs) = .ok stored ∧
          (FileProgram.change (.write file.temporary
              (textOf (lastEntries file.maxEntries (stored ++ entries))).toUTF8) >>= fun _ =>
            FileProgram.change (.rename file.temporary file.path)).Runs
              (settle opened fs) rest result) := by
  have hempty : entries.isEmpty = false := List.isEmpty_eq_false_iff.2 hentries
  unfold program at h
  rw [hempty] at h
  obtain ⟨returned, opened, rest, hopen, rfl, hrest⟩ := FileProgram.runs_andThen.1 h
  refine ⟨opened, rest, FileProgram.passes_createDirectories hopen, rfl, ?_⟩
  have hcreate := hopen.exec_eq
  rw [FileProgram.performs_createDirectories] at hcreate
  cases returned with
  | error e =>
    obtain ⟨rfl, rfl⟩ := hrest
    exact .inl ⟨rfl, nofun⟩
  | ok u =>
    obtain ⟨loaded, made, rest', ⟨rfl, rfl⟩, rfl, hwrites⟩ := FileProgram.runs_andThen.1 hrest
    cases hload : file.load (settle opened fs) with
    | error e =>
      rw [hload] at hwrites
      obtain ⟨rfl, rfl⟩ := hwrites
      exact .inl ⟨rfl, nofun⟩
    | ok stored =>
      rw [hload] at hwrites
      exact .inr ⟨stored, hcreate, rfl, hwrites⟩

theorem program_whole (h : (file.program entries).Runs fs effects result) :
    Passes (file.Whole fs entries) effects fs := by
  by_cases hentries : entries = []
  · subst hentries
    exact FileProgram.passes_done h (.of_grows (.refl fs))
  obtain ⟨opened, rest, hopened, rfl, hrest⟩ := program_cases hentries h
  have hgrows := hopened opened List.prefix_rfl
  refine passes_append.2 ⟨hopened.mono fun _ => .of_grows, ?_⟩
  rcases hrest with ⟨rfl, -⟩ | ⟨stored, hcreate, hload, hwrites⟩
  · exact passes_nil.2 (.of_grows hgrows)
  rcases FileProgram.replace_cases hwrites with
    ⟨rfl, -⟩ | ⟨l, chunks, more, htemporary, hchunks, rfl, hmore⟩
  · exact passes_nil.2 (.of_grows hgrows)
  have hwriting : Passes (file.Whole fs entries) (.clear l :: chunks.map (.extend l))
      (settle opened fs) := by
    refine (FileProgram.passes_write htemporary.ne_root chunks).mono fun fs' hfs' => ?_
    rcases hfs' with rfl | ⟨bytes, rfl⟩
    · exact .of_grows hgrows
    · exact .of_temporary hgrows htemporary bytes
  refine passes_append.2 ⟨hwriting, ?_⟩
  have hwritten := hwriting _ List.prefix_rfl
  rcases hmore with ⟨rfl, -⟩ | ⟨m, hpath, rfl⟩
  · exact passes_nil.2 hwritten
  · refine passes_cons.2 ⟨hwritten, passes_nil.2 ?_⟩
    rw [settle_write htemporary.ne_root hchunks, Effect.apply, put_remove]
    exact .of_replaced hcreate hload ⟨htemporary, hpath⟩

/-- A history file that has the temporary name is emptied. -/
theorem program_clears (hentries : entries ≠ [])
    (h : (file.program entries).Runs fs effects (.ok ()))
    (hplace : (settle effects fs).place file.path = .ok (d, some name))
    (hname : name = temporaryName name) :
    ∃ before, before <+: effects ∧ (settle before fs).fileAt (d.child name) = some .empty := by
  obtain ⟨opened, rest, -, rfl, hrest⟩ := program_cases hentries h
  rcases hrest with ⟨-, hfailed⟩ | ⟨stored, -, -, hwrites⟩
  · exact absurd rfl hfailed
  rcases FileProgram.replace_cases hwrites with
    ⟨-, hfailed⟩ | ⟨l, chunks, more, htemporary, hchunks, rfl, ⟨-, hfailed⟩ | ⟨m, hpath, rfl⟩⟩
  · exact absurd rfl hfailed
  · exact absurd rfl hfailed
  have hready : file.Ready (settle opened fs) l m := ⟨htemporary, hpath⟩
  rw [settle_append, settle_append, settle_write htemporary.ne_root hchunks, settle_cons,
    Effect.apply, put_remove] at hplace
  have hopened := (hready.sameDirectories (stored ++ entries)).kept.place hplace
  have hl := temporary_beside hopened htemporary
  rw [← hname] at hl
  refine ⟨opened ++ [.clear l], (List.prefix_append_right_inj opened).2 ⟨_, rfl⟩, ?_⟩
  rw [settle_append, settle_cons, settle_nil, Effect.apply, ← hl, fileAt,
    find?_put_self htemporary.ne_root]

/-- A run of an append that succeeds. -/
theorem exists_program (file : HistoryFile) (fs : FileSystem) (entries : List String)
    (h : (exec (file.append entries) fs).1.toOption = some ()) : ∃ effects,
    (file.program entries).Runs fs effects (.ok ()) ∧
      settle effects fs = (exec (file.append entries) fs).2 := by
  obtain ⟨effects, result, hrun⟩ := FileProgram.exists_runs (file.program entries) fs
  have hexec := hrun.exec_eq
  rw [performs_program, exec_of_toOption h] at hexec
  obtain ⟨rfl, hsettle⟩ := Prod.mk.inj hexec
  exact ⟨effects, hrun, hsettle.symm⟩

/-- A history file that has the temporary name, and so is written in place. -/
def inPlace : HistoryFile := ⟨.ofString "h.tmp", 3⟩

def inPlaceDisk : FileSystem where
  entries := [(Location.root.child "h.tmp", .file "x.\n".toUTF8)]

theorem inPlace_run : ∃ effects, (inPlace.program ["q."]).Runs inPlaceDisk effects (.ok ()) ∧
    (settle effects inPlaceDisk).place inPlace.path = .ok (.root, some "h.tmp") ∧
    (settle effects inPlaceDisk).fileAt (Location.root.child "h.tmp") =
      some "x.\nq.\n".toUTF8 := by
  obtain ⟨effects, hrun, hsettle⟩ := exists_program inPlace inPlaceDisk ["q."] (by decide +kernel)
  refine ⟨effects, hrun, ?_, ?_⟩ <;> rw [hsettle]
  · exact Sessions.eq_ok_of_toOption (by decide +kernel)
  · decide +kernel

/-- Wherever an append is cut short, the history file is as it was or holds all that the append
comes to write, unless it has the temporary name itself: then it is empty at some point of every
append that succeeds. -/
theorem append_interrupted (file : HistoryFile) (fs : FileSystem) (entries : List String)
    (effects : List Effect) (result : Except IoError Unit)
    (h : (file.program entries).Runs fs effects result) :
    exec (file.append entries) fs = (result, settle effects fs) ∧
      Passes (file.Whole fs entries) effects fs ∧
      (entries ≠ [] → result = .ok () → ∀ d name,
        (settle effects fs).place file.path = .ok (d, some name) → name = temporaryName name →
        ∃ before, before <+: effects ∧ (settle before fs).fileAt (d.child name) = some .empty) := by
  refine ⟨?_, program_whole h, fun hentries hresult d name hplace hname => ?_⟩
  · rw [← performs_program, h.exec_eq]
  · subst hresult
    exact program_clears hentries h hplace hname

theorem small_interrupted :
    (∃ effects, (Sessions.small.program ["q."]).Runs Sessions.disk effects (.ok ()) ∧
      Passes (fun fs => fs.fileAt (Location.root.child "h") = some "x.\n".toUTF8 ∨
        fs.fileAt (Location.root.child "h") = some "x.\nq.\n".toUTF8) effects Sessions.disk) ∧
    ∃ effects before, (inPlace.program ["q."]).Runs inPlaceDisk effects (.ok ()) ∧
      before <+: effects ∧
      (settle before inPlaceDisk).fileAt (Location.root.child "h.tmp") = some .empty := by
  constructor
  · obtain ⟨effects, hrun, -⟩ :=
      exists_program Sessions.small Sessions.disk ["q."] (by decide +kernel)
    refine ⟨effects, hrun, (append_interrupted _ _ _ _ _ hrun).2.1.mono fun fs h => ?_⟩
    have hplace : Sessions.disk.place Sessions.small.path = .ok (.root, some "h") :=
      Sessions.eq_ok_of_toOption (by decide +kernel)
    have hlocate : Sessions.disk.locate Sessions.small.path =
        .ok (Location.root.child "h", .file "x.\n".toUTF8) :=
      Sessions.eq_ok_of_toOption (by decide +kernel)
    have hload : Sessions.small.load Sessions.disk = .ok ["x."] :=
      Sessions.eq_ok_of_toOption (by decide +kernel)
    rcases h.contents _ _ (h.place _ _ hplace) (by decide +kernel) with hold | ⟨text, hwrites, hnew⟩
    · exact .inl (hold.trans (by decide +kernel))
    · obtain ⟨fs₁, stored, hcreate, hstored, rfl⟩ := hwrites
      rw [exec_createDirectories_of_file hlocate] at hcreate
      cases hcreate
      cases hload.symm.trans hstored
      exact .inr (hnew.trans (by decide +kernel))
  · obtain ⟨effects, hrun, hplace, -⟩ := inPlace_run
    obtain ⟨before, hbefore, hempty⟩ :=
      (append_interrupted _ _ _ _ _ hrun).2.2 (by decide) rfl _ _ hplace (by decide +kernel)
    exact ⟨effects, before, hrun, hbefore, hempty⟩

theorem inPlace_truncated : ∃ effects before,
    (inPlace.program ["q."]).Runs inPlaceDisk effects (.ok ()) ∧ before <+: effects ∧
    inPlaceDisk.place inPlace.path = .ok (.root, some "h.tmp") ∧
    inPlaceDisk.fileAt (Location.root.child "h.tmp") = some "x.\n".toUTF8 ∧
    (settle before inPlaceDisk).fileAt (Location.root.child "h.tmp") = some .empty ∧
    (settle effects inPlaceDisk).fileAt (Location.root.child "h.tmp") =
      some "x.\nq.\n".toUTF8 := by
  obtain ⟨effects, hrun, hplace, hfinal⟩ := inPlace_run
  obtain ⟨before, hbefore, hempty⟩ := program_clears (by decide) hrun hplace (by decide +kernel)
  exact ⟨effects, before, hrun, hbefore, Sessions.eq_ok_of_toOption (by decide +kernel),
    by decide +kernel, hempty, hfinal⟩

end HistoryFile

end LogicConsole
