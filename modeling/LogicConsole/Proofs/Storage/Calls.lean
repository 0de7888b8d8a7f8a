import LogicConsole.Proofs.Storage.Replacement
/-!
Work on files as a tree of the calls it makes, and what each call does to the files one effect after
another. A write empties its file first and then fills it piece by piece, so between two effects a
file can be seen that is neither as it was nor as it is to be.
-/
namespace LogicConsole

open FileSystem

/-- A call that changes the file system. -/
inductive FileCall
  | createDirectory (p : Path)
  | write (p : Path) (bytes : ByteArray)
  | rename (source target : Path)

def FileCall.perform : FileCall → FileSystem → Except IoError FileSystem
  | .createDirectory p, fs => fs.createDirectory p
  | .write p bytes, fs => fs.write p bytes
  | .rename source target, fs => fs.rename source target

/-- One step in which files change. -/
inductive Effect
  | makeDirectory (l : Location)
  /-- A file is there and holds nothing. -/
  | clear (l : Location)
  | extend (l : Location) (chunk : ByteArray)
  | move (source target : Location) (entry : Entry)

def Effect.apply : Effect → FileSystem → FileSystem
  | .makeDirectory l, fs => fs.put l .directory
  | .clear l, fs => fs.put l (.file .empty)
  | .extend l chunk, fs => fs.put l (.file ((fs.fileAt l).getD .empty ++ chunk))
  | .move source target entry, fs => (fs.remove source).put target entry

/-- What the effects make of a file system, in their order. -/
def settle (effects : List Effect) (fs : FileSystem) : FileSystem :=
  effects.foldl (fun fs effect => effect.apply fs) fs

/-- The effects of a call and what it returns. What is written comes in any number of pieces; a call
that is refused has no effects. -/
inductive FileCall.Makes (fs : FileSystem) : FileCall → Except IoError Unit → List Effect → Prop
  | createDirectory {p : Path} {d : Location} {name : String}
      (hplace : fs.place p = .ok (d, some name)) (hnone : fs.find? (d.child name) = none) :
      Makes fs (.createDirectory p) (.ok ()) [.makeDirectory (d.child name)]
  | write {p : Path} {bytes : ByteArray} {l : Location} {chunks : List ByteArray}
      (hplace : fs.Admits p l) (hchunks : chunks.foldl (· ++ ·) .empty = bytes) :
      Makes fs (.write p bytes) (.ok ()) (.clear l :: chunks.map (.extend l))
  | rename {source target : Path} {l m : Location} {entry : Entry}
      (hsource : fs.locate source = .ok (l, entry)) (htarget : fs.Admits target m) :
      Makes fs (.rename source target) (.ok ()) [.move l m entry]
  | refused {c : FileCall} {e : IoError} (h : c.perform fs = .error e) : Makes fs c (.error e) []

/-- Work on files. What it does next depends on what it sees of them and on what became of its
calls. -/
inductive FileProgram (α : Type)
  | done (result : Except IoError α)
  | look (next : FileSystem → FileProgram α)
  | call (c : FileCall) (next : Except IoError Unit → FileProgram α)

section Effects

variable {fs fs' : FileSystem} {P : FileSystem → Prop} {l : Location}
  {made rest effects : List Effect} {result : Except IoError Unit} {c : FileCall}

@[simp] theorem settle_nil (fs : FileSystem) : settle [] fs = fs := rfl

@[simp] theorem settle_cons (effect : Effect) (effects : List Effect) (fs : FileSystem) :
    settle (effect :: effects) fs = settle effects (effect.apply fs) := rfl

theorem settle_append (made rest : List Effect) (fs : FileSystem) :
    settle (made ++ rest) fs = settle rest (settle made fs) := List.foldl_append

/-- Something is true before the effects, after them and between any two. -/
def Passes (P : FileSystem → Prop) (effects : List Effect) (fs : FileSystem) : Prop :=
  ∀ before, before <+: effects → P (settle before fs)

theorem passes_nil : Passes P [] fs ↔ P fs := by
  constructor
  · intro h
    exact h [] List.nil_prefix
  · intro h before hbefore
    rwa [List.prefix_nil.1 hbefore]

theorem passes_append :
    Passes P (made ++ rest) fs ↔ Passes P made fs ∧ Passes P rest (settle made fs) := by
  constructor
  · intro h
    refine ⟨fun before hbefore => h before (hbefore.trans (List.prefix_append _ _)), ?_⟩
    intro before hbefore
    have hlater := h (made ++ before) ((List.prefix_append_right_inj made).2 hbefore)
    rwa [settle_append] at hlater
  · rintro ⟨hmade, hrest⟩ before ⟨after, hafter⟩
    rcases List.append_eq_append_iff.1 hafter with ⟨gap, rfl, -⟩ | ⟨gap, rfl, rfl⟩
    · exact hmade before ⟨gap, rfl⟩
    · rw [settle_append]
      exact hrest gap ⟨after, rfl⟩

theorem passes_cons {effect : Effect} :
    Passes P (effect :: effects) fs ↔ P fs ∧ Passes P effects (effect.apply fs) := by
  rw [← List.singleton_append, passes_append]
  constructor
  · rintro ⟨hfirst, hrest⟩
    exact ⟨hfirst [] List.nil_prefix, hrest⟩
  · rintro ⟨hfirst, hrest⟩
    refine ⟨fun before hbefore => ?_, hrest⟩
    rcases List.prefix_cons_iff.1 hbefore with rfl | ⟨before, rfl, hnil⟩
    · exact hfirst
    · rw [List.prefix_nil.1 hnil]
      exact hrest [] List.nil_prefix

theorem Passes.mono {Q : FileSystem → Prop} (h : Passes P effects fs) (hPQ : ∀ fs, P fs → Q fs) :
    Passes Q effects fs := fun before hbefore => hPQ _ (h before hbefore)

theorem settle_extend (hroot : l ≠ .root) (chunks : List ByteArray) (bytes : ByteArray)
    (fs : FileSystem) : settle (chunks.map (.extend l)) (fs.put l (.file bytes)) =
      fs.put l (.file (chunks.foldl (· ++ ·) bytes)) := by
  induction chunks generalizing bytes with
  | nil => rfl
  | cons chunk chunks ih =>
    rw [List.map_cons, settle_cons, Effect.apply, fileAt, find?_put_self hroot, put_put]
    exact ih _

/-- A file that is cleared and then extended by the pieces holds them all. -/
theorem settle_write {chunks : List ByteArray} {bytes : ByteArray} (hroot : l ≠ .root)
    (hchunks : chunks.foldl (· ++ ·) .empty = bytes) (fs : FileSystem) :
    settle (.clear l :: chunks.map (.extend l)) fs = fs.put l (.file bytes) := by
  rw [settle_cons, Effect.apply, settle_extend hroot, hchunks]

theorem FileCall.Makes.settles (h : c.Makes fs result effects) :
    FileOperation.exec (FileOperation.change c.perform) fs = (result, settle effects fs) := by
  rw [FileOperation.exec_change]
  cases h with
  | @createDirectory p d name hplace hnone =>
    have hcreate : fs.createDirectory p = .ok (fs.put (d.child name) .directory) := by
      unfold FileSystem.createDirectory
      rw [hplace]
      dsimp only [bind, Except.bind]
      rw [hnone]
      rfl
    rw [FileCall.perform, hcreate]
    rfl
  | write hplace hchunks =>
    rw [FileCall.perform, write_iff.2 ⟨_, hplace, rfl⟩, settle_write hplace.ne_root hchunks]
  | rename hsource htarget =>
    rw [FileCall.perform, (rename_iff hsource).2 ⟨_, htarget, rfl⟩]
    rfl
  | refused h =>
    rw [h]
    rfl

/-- Every call makes some effects, if only none. -/
theorem FileCall.exists_makes (c : FileCall) (fs : FileSystem) :
    ∃ result effects, c.Makes fs result effects := by
  cases hperform : c.perform fs with
  | error e => exact ⟨_, _, .refused hperform⟩
  | ok fs' =>
    cases c with
    | createDirectory p =>
      obtain ⟨d, name, hplace, hnone, -⟩ := createDirectory_eq_ok hperform
      exact ⟨_, _, .createDirectory hplace hnone⟩
    | write p bytes =>
      obtain ⟨l, hplace, -⟩ := write_iff.1 hperform
      have hmakes : FileCall.Makes fs (.write p bytes) (.ok ())
          (.clear l :: [bytes].map (.extend l)) := .write hplace (by simp)
      exact ⟨_, _, hmakes⟩
    | rename source target =>
      obtain ⟨l, entry, -, -, hsource, -⟩ := rename_eq_ok hperform
      obtain ⟨m, htarget, -⟩ := (rename_iff hsource).1 hperform
      exact ⟨_, _, .rename hsource htarget⟩

end Effects

namespace FileProgram

variable {α β : Type} {fs : FileSystem} {effects : List Effect}

/-- Go on with what came of a program, be it an error. -/
def andThen : FileProgram α → (Except IoError α → FileProgram β) → FileProgram β
  | .done result, next => next result
  | .look see, next => .look fun fs => (see fs).andThen next
  | .call c go, next => .call c fun result => (go result).andThen next

instance : Monad FileProgram where
  pure a := .done (.ok a)
  bind program next := program.andThen fun
    | .ok a => next a
    | .error e => .done (.error e)

instance : MonadExceptOf IoError FileProgram where
  throw e := .done (.error e)
  tryCatch program handler := program.andThen fun
    | .ok a => .done (.ok a)
    | .error e => handler e

def change (c : FileCall) : FileProgram Unit := .call c .done

def inspect (f : FileSystem → Except IoError α) : FileProgram α := .look fun fs => .done (f fs)

/-- What comes of a program, and the file system it leaves behind. -/
def exec : FileProgram α → FileSystem → Except IoError α × FileSystem
  | .done result, fs => (result, fs)
  | .look next, fs => (next fs).exec fs
  | .call c next, fs =>
    match c.perform fs with
    | .ok fs' => (next (.ok ())).exec fs'
    | .error e => (next (.error e)).exec fs

/-- A run of a program: the effects of its calls in their order, and its result. -/
def Runs : FileProgram α → FileSystem → List Effect → Except IoError α → Prop
  | .done result, _, effects, result' => effects = [] ∧ result' = result
  | .look next, fs, effects, result => (next fs).Runs fs effects result
  | .call c next, fs, effects, result => ∃ returned made rest, c.Makes fs returned made ∧
      effects = made ++ rest ∧ (next returned).Runs (settle made fs) rest result

theorem exec_andThen (program : FileProgram α) (next : Except IoError α → FileProgram β)
    (fs : FileSystem) :
    (program.andThen next).exec fs = (next (program.exec fs).1).exec (program.exec fs).2 := by
  induction program generalizing fs with
  | done result => rfl
  | look see ih => exact ih fs fs
  | call c go ih =>
    simp only [andThen, exec]
    cases c.perform fs with
    | ok fs' => exact ih _ fs'
    | error e => exact ih _ fs

theorem runs_andThen {program : FileProgram α} {next : Except IoError α → FileProgram β}
    {result : Except IoError β} :
    (program.andThen next).Runs fs effects result ↔ ∃ returned made rest,
      program.Runs fs made returned ∧ effects = made ++ rest ∧
        (next returned).Runs (settle made fs) rest result := by
  induction program generalizing fs effects with
  | done returned =>
    constructor
    · intro h
      exact ⟨returned, [], effects, ⟨rfl, rfl⟩, rfl, h⟩
    · rintro ⟨_, _, rest, ⟨rfl, rfl⟩, rfl, h⟩
      exact h
  | look see ih => exact ih fs
  | call c go ih =>
    constructor
    · rintro ⟨returned, made, rest, hmakes, rfl, h⟩
      obtain ⟨returned', made', rest', hgo, rfl, hnext⟩ := (ih returned).1 h
      refine ⟨returned', made ++ made', rest', ⟨returned, made, made', hmakes, rfl, hgo⟩,
        (List.append_assoc _ _ _).symm, ?_⟩
      rwa [settle_append]
    · rintro ⟨returned', _, rest', ⟨returned, made, made', hmakes, rfl, hgo⟩, rfl, hnext⟩
      refine ⟨returned, made, made' ++ rest', hmakes, List.append_assoc _ _ _, ?_⟩
      rw [settle_append] at hnext
      exact (ih returned).2 ⟨returned', made', rest', hgo, rfl, hnext⟩

/-- The effects of a run make of the files what the program makes of them. -/
theorem Runs.exec_eq {program : FileProgram α} {result : Except IoError α}
    (h : program.Runs fs effects result) : program.exec fs = (result, settle effects fs) := by
  induction program generalizing fs effects with
  | done returned =>
    obtain ⟨rfl, rfl⟩ := h
    rfl
  | look see ih => exact ih fs h
  | call c go ih =>
    obtain ⟨returned, made, rest, hmakes, rfl, hgo⟩ := h
    have hsettles := hmakes.settles
    rw [FileOperation.exec_change] at hsettles
    rw [settle_append, ← ih returned hgo, exec]
    cases hperform : c.perform fs <;> rw [hperform] at hsettles <;>
      obtain ⟨rfl, hmade⟩ := Prod.mk.inj hsettles <;> rw [← hmade]

theorem exists_runs (program : FileProgram α) (fs : FileSystem) :
    ∃ effects result, program.Runs fs effects result := by
  induction program generalizing fs with
  | done result => exact ⟨[], result, rfl, rfl⟩
  | look see ih => exact ih fs fs
  | call c go ih =>
    obtain ⟨returned, made, hmakes⟩ := c.exists_makes fs
    obtain ⟨rest, result, hgo⟩ := ih returned (settle made fs)
    exact ⟨made ++ rest, result, returned, made, rest, hmakes, rfl, hgo⟩

/-- The program does what the operation does. -/
def Performs (program : FileProgram α) (op : FileOperation α) : Prop :=
  ∀ fs, program.exec fs = FileOperation.exec op fs

theorem performs_pure (a : α) : Performs (pure a) (pure a) := fun _ => rfl

theorem performs_change (c : FileCall) : Performs (change c) (FileOperation.change c.perform) := by
  intro fs
  rw [FileOperation.exec_change, change, exec]
  cases c.perform fs <;> rfl

theorem performs_inspect (f : FileSystem → Except IoError α) :
    Performs (inspect f) (FileOperation.inspect f) := fun _ => rfl

theorem Performs.bind {program : FileProgram α} {op : FileOperation α}
    {next : α → FileProgram β} {next' : α → FileOperation β} (h : Performs program op)
    (hnext : ∀ a, Performs (next a) (next' a)) : Performs (program >>= next) (op >>= next') := by
  intro fs
  rw [FileOperation.exec_bind, ← h fs]
  refine (exec_andThen _ _ _).trans ?_
  cases hrun : program.exec fs with
  | mk result fs' =>
    cases result with
    | ok a => exact hnext a fs'
    | error e => rfl

theorem Performs.tryCatch {program : FileProgram α} {op : FileOperation α}
    {handler : IoError → FileProgram α} {handler' : IoError → FileOperation α}
    (h : Performs program op) (hhandler : ∀ e, Performs (handler e) (handler' e)) :
    Performs (tryCatch program handler) (tryCatch op handler') := by
  intro fs
  rw [FileOperation.exec_tryCatch, ← h fs]
  refine (exec_andThen _ _ _).trans ?_
  cases hrun : program.exec fs with
  | mk result fs' =>
    cases result with
    | ok a => rfl
    | error e => exact hhandler e fs'

/-- Create a directory that may be there already, call by call. -/
def ensureDirectory (p : Path) : FileProgram Unit :=
  tryCatch (change (.createDirectory p)) fun e =>
    inspect fun fs => if fs.isDirectory p then .ok () else .error e

/-- Create a directory after the missing ones above it, call by call. -/
def createDirectories : List Path → FileProgram Unit
  | [] => return
  | p :: above => do
    try ensureDirectory p
    catch
      | .notFound =>
        createDirectories above
        ensureDirectory p
      | e => throw e

theorem performs_ensureDirectory (p : Path) :
    Performs (ensureDirectory p) (FileOperation.ensureDirectory p) := by
  intro fs
  rw [FileOperation.exec_ensureDirectory]
  change exec (.call (.createDirectory p) _) fs = _
  rw [exec, FileCall.perform]
  cases fs.createDirectory p with
  | ok fs' => rfl
  | error e =>
    change ((if fs.isDirectory p then .ok () else .error e : Except IoError Unit), fs) = _
    cases fs.isDirectory p <;> rfl

theorem performs_createDirectories (above : List Path) :
    Performs (createDirectories above) (FileOperation.createDirectories above) := by
  induction above with
  | nil => exact performs_pure ()
  | cons p above ih =>
    refine (performs_ensureDirectory p).tryCatch fun e => ?_
    cases e with
    | notFound => exact ih.bind fun _ => performs_ensureDirectory p
    | _ => exact fun _ => rfl

end FileProgram

end LogicConsole
