import LogicConsole.Proofs.Storage.Footprint
/-!
What an append that fails leaves behind. Nothing is undone: directories that were created on the way
stay, and a temporary file that cannot be renamed stays. Both need an unusual path. Below a path
that ends in a name and never leads up, a directory that was missing is empty once it is created,
and then only a name that no file can have is refused in it.
-/
namespace LogicConsole

open FileOperation FileSystem

theorem Location.child_ne (l : Location) (name : String) : l.child name ≠ l := fun h =>
  List.cons_ne_self _ _ (congrArg Location.names h)

namespace Path

theorem ending_concat {last : String} (front : List String) (hlast : isName last = true) :
    (⟨front ++ [last]⟩ : Path).ending = .name := by
  obtain ⟨hslash, hdot⟩ : last ≠ "" ∧ last ≠ "." := by simpa [isName] using hlast
  simp [ending, hslash, hdot]

theorem isEmpty_of_names {p : Path} {front : List String} {name : String}
    (h : p.names = front ++ [name]) : p.isEmpty = false := by
  obtain ⟨before, behind, hparts, -, hname, -⟩ := parts_of_names h
  have hne : name ≠ "" := by
    rintro rfl
    cases hname
  cases before <;> simp [isEmpty, hparts, hne]

theorem above_of_isEmpty {p : Path} (h : p.isEmpty = true) : p.above = [] := by
  obtain ⟨hlength, -⟩ := Bool.and_eq_true_iff.1 h
  match hparts : p.parts with
  | [] => simp [above, hparts, heads]
  | [part] => cases hleads : leadsOn [part] <;> simp [above, hparts, heads, hleads]
  | _ :: _ :: _ => simp [hparts] at hlength

/-- A path that has no last name, or leads up with it, has no extension to change. -/
theorem withExtension_of_nameless {p : Path} (extension : String)
    (h : ∀ front name, p.names = front ++ [name] → name = "..") :
    p.withExtension extension = p := by
  unfold withExtension
  split
  · rfl
  · rfl
  · rename_i name hup hlast
    obtain ⟨front, hnames⟩ := List.getLast?_eq_some_iff.1 hlast
    exact absurd (h front name hnames) hup

end Path

namespace FileSystem

variable {fs fs' : FileSystem} {p q : Path} {l d : Location} {entry : Entry} {name : String}
  {names : List String} {bytes : ByteArray} {e : IoError}

theorem checkPath_cases (hempty : p.isEmpty = false) :
    checkPath p = .ok () ∨ checkPath p = .error .nulInName ∨ checkPath p = .error .nameTooLong := by
  unfold checkPath
  rw [hempty]
  cases p.hasNul with
  | true => exact .inr (.inl rfl)
  | false =>
    by_cases hlong : maxPathBytes < p.text.utf8ByteSize
    · simp only [Bool.false_eq_true, if_false, hlong, if_true]
      exact .inr (.inr rfl)
    · simp only [Bool.false_eq_true, if_false, hlong]
      exact .inl rfl

theorem place_of_checkPath (h : checkPath p = .error e) : fs.place p = .error e := by
  unfold place
  rw [h]
  rfl

theorem locate_of_checkPath (h : checkPath p = .error e) : fs.locate p = .error e := by
  unfold locate
  rw [h]
  rfl

theorem Rooted.put_directory (h : fs.Rooted) (hd : fs.find? d = some .directory) :
    (fs.put (d.child name) .directory).Rooted := by
  intro l other hsome
  by_cases hl : l = d.child name
  · rw [hl, find?_put_self (Location.child_ne_root d name)]
  · rw [find?_put_of_ne hl]
    by_cases hchild : l.child other = d.child name
    · obtain rfl : l = d := by rw [← Location.parent_child l other, hchild, Location.parent_child]
      exact hd
    · rw [find?_put_of_ne hchild] at hsome
      exact h l other hsome

section LastName

variable {front : List String} (hcheck : checkPath p = .ok ()) (hnames : p.names = front ++ [name])
  (hwalk : fs.walk p front = .ok (d, .directory)) (hup : name ≠ "..")
include hcheck hnames hwalk hup

theorem locate_of_long (hlong : maxNameBytes < name.utf8ByteSize) :
    fs.locate p = .error .nameTooLong := by
  have hstep : fs.step (d, .directory) name = .error .nameTooLong := by simp [step, hup, hlong]
  unfold locate
  rw [hcheck, hnames, walk_concat, hwalk, Except.bind, hstep]
  rfl

theorem place_of_long (hlong : maxNameBytes < name.utf8ByteSize) :
    fs.place p = .error .nameTooLong := by
  have hlast : p.names.getLast? = some name := List.getLast?_eq_some_iff.2 ⟨_, hnames⟩
  unfold place
  rw [hcheck, hlast, hnames, List.dropLast_concat, hwalk]
  simp [bind, Except.bind, hup, hlong]
  rfl

theorem place_of_short (hlong : ¬ maxNameBytes < name.utf8ByteSize) :
    fs.place p = .ok (d, some name) := by
  refine place_of_walk hcheck ?_ ?_ hup hlong <;> rw [hnames, List.dropLast_concat]
  exact hwalk

theorem locate_of_short (hlong : ¬ maxNameBytes < name.utf8ByteSize) :
    fs.locate p = match fs.find? (d.child name) with
      | none => .error .notFound
      | some .directory => .ok (d.child name, .directory)
      | some (.file bytes) =>
        if p.ending = .name then .ok (d.child name, .file bytes) else .error .notADirectory := by
  unfold locate
  rw [hcheck, hnames, walk_concat, hwalk]
  simp only [Except.bind, step, if_neg hup, if_neg hlong]
  cases fs.find? (d.child name) with
  | none => rfl
  | some entry => cases entry <;> rfl

end LastName

theorem checkPath_of_notFound (hempty : p.isEmpty = false) (h : fs.locate p = .error .notFound) :
    checkPath p = .ok () := by
  rcases checkPath_cases hempty with hok | hnul | hlong
  · exact hok
  · cases h.symm.trans (locate_of_checkPath hnul)
  · cases h.symm.trans (locate_of_checkPath hlong)

/-- Where nothing is found under a name in a directory, there is a place for it. -/
theorem place_of_notFound {front : List String} (h : fs.locate p = .error .notFound)
    (hnames : p.names = front ++ [name]) (hwalk : fs.walk p front = .ok (d, .directory))
    (hup : name ≠ "..") : fs.place p = .ok (d, some name) ∧ fs.find? (d.child name) = none := by
  have hcheck := checkPath_of_notFound (Path.isEmpty_of_names hnames) h
  by_cases hlong : maxNameBytes < name.utf8ByteSize
  · cases h.symm.trans (locate_of_long hcheck hnames hwalk hup hlong)
  refine ⟨place_of_short hcheck hnames hwalk hup hlong, ?_⟩
  rw [locate_of_short hcheck hnames hwalk hup hlong] at h
  split at h
  · assumption
  · cases h
  · split at h <;> cases h

/-- A file that is found is in a place of its path. -/
theorem admits_of_locate (h : fs.locate p = .ok (l, .file bytes)) : fs.Admits p l := by
  obtain ⟨hcheck, hwalk, hending⟩ := locate_eq_ok h
  replace hending : p.ending = .name := hending.resolve_left (by simp)
  obtain ⟨front, last, hparts, hlast⟩ :=
    Path.parts_of_ending (checkPath_eq_ok.1 hcheck).2.1 hending
  have hnames : p.names = front.filter Path.isName ++ [last] := by
    simp [Path.names, hparts, hlast]
  rw [hnames] at hwalk
  obtain ⟨d, hd, ⟨-, -, hentry⟩ | ⟨hup, hlong, rfl, hfind⟩⟩ := walk_concat_eq_ok hwalk
  · cases hentry
  · exact ⟨⟨d, last, place_of_short hcheck hnames hd hup hlong, rfl⟩, hending,
      by simp [hfind]⟩

/-- The path has its last name in a directory that holds nothing. -/
def Vacant (fs : FileSystem) (p : Path) : Prop :=
  ∃ front name d, p.names = front ++ [name] ∧ name ≠ ".." ∧ fs.walk p front = .ok (d, .directory) ∧
    ∀ other, fs.find? (d.child other) = none

/-- A directory that was just created holds nothing. -/
theorem vacant_of_createDirectory (hrooted : fs.Rooted) (hparent : q.Parent p)
    (hup : ".." ∉ p.names) (h : fs.createDirectory q = .ok fs') : fs'.Rooted ∧ fs'.Vacant p := by
  obtain ⟨d, name, hplace, hnone, rfl⟩ := createDirectory_eq_ok h
  obtain ⟨-, hwalk, hnames, -, -⟩ := place_eq_ok hplace
  obtain ⟨-, hnew, -⟩ := locate_eq_ok (locate_created hplace hnone)
  obtain ⟨last, hlast⟩ := hparent.names
  have hd : fs.find? d = some .directory := (find?_of_walk hwalk).resolve_right fun ⟨_, hmem⟩ =>
    hup (by rw [hlast]; exact List.mem_append_left _ (List.dropLast_subset _ hmem))
  have hname : last ≠ ".." := by
    rintro rfl
    exact hup (by simp [hlast])
  refine ⟨hrooted.put_directory hd, q.names, last, d.child name, hlast, hname, ?_, fun other => ?_⟩
  · rw [← walk_congr hparent.leads.isAbsolute_eq, hnew]
  · rw [find?_put_of_ne (Location.child_ne _ other), ← Option.not_isSome_iff_eq_none]
    intro hsome
    rw [hrooted _ other hsome] at hnone
    cases hnone

namespace Vacant

/-- A name that fits into the directory is free there. -/
theorem place (h : fs.Vacant p) (hcheck : checkPath p = .ok ()) :
    (∃ d name, fs.place p = .ok (d, some name) ∧ fs.find? (d.child name) = none ∧
      fs.locate p = .error .notFound) ∨
      fs.place p = .error .nameTooLong ∧ fs.locate p = .error .nameTooLong := by
  obtain ⟨front, name, d, hnames, hname, hwalk, hnone⟩ := h
  by_cases hlong : maxNameBytes < name.utf8ByteSize
  · exact .inr ⟨place_of_long hcheck hnames hwalk hname hlong,
      locate_of_long hcheck hnames hwalk hname hlong⟩
  · refine .inl ⟨d, name, place_of_short hcheck hnames hwalk hname hlong, hnone name, ?_⟩
    rw [locate_of_short hcheck hnames hwalk hname hlong, hnone name]

theorem isEmpty (h : fs.Vacant p) : p.isEmpty = false := by
  obtain ⟨front, name, d, hnames, -⟩ := h
  exact Path.isEmpty_of_names hnames

theorem write (h : fs.Vacant p) (hending : p.ending = .name) (bytes : ByteArray) :
    (∃ fs', fs.write p bytes = .ok fs') ∨
      fs.write p bytes = .error .nameTooLong ∨ fs.write p bytes = .error .nulInName := by
  have hrefused {e : IoError} (hplace : fs.place p = .error e) :
      fs.write p bytes = .error e := by
    unfold FileSystem.write
    rw [hplace]
    rfl
  rcases checkPath_cases h.isEmpty with hcheck | hnul | hlong
  · rcases h.place hcheck with ⟨d, name, hplace, hnone, -⟩ | ⟨hlong, -⟩
    · exact .inl ⟨_, write_iff.2 ⟨_, ⟨⟨d, name, hplace, rfl⟩, hending, by rw [hnone]; nofun⟩, rfl⟩⟩
    · exact .inr (.inl (hrefused hlong))
  · exact .inr (.inr (hrefused (place_of_checkPath hnul)))
  · exact .inr (.inl (hrefused (place_of_checkPath hlong)))

theorem ensureDirectory (h : fs.Vacant p) (hcheck : checkPath p = .ok ()) :
    (∃ fs', fs.createDirectory p = .ok fs') ∨
      exec (ensureDirectory p) fs = (.error .nameTooLong, fs) := by
  rcases h.place hcheck with ⟨d, name, hplace, hnone, -⟩ | ⟨hplace, hlocate⟩
  · refine .inl ⟨fs.put (d.child name) .directory, ?_⟩
    unfold createDirectory
    rw [hplace]
    simp [bind, Except.bind, hnone]
    rfl
  · have hcreate : fs.createDirectory p = .error .nameTooLong := by
      unfold createDirectory
      rw [hplace]
      rfl
    rw [exec_ensureDirectory, hcreate]
    simp [isDirectory, hlocate]

end Vacant

end FileSystem

namespace FileOperation

variable {fs fs' : FileSystem} {p q : Path} {above : List Path} {result : Except IoError Unit}

theorem checkPath_of_missing (hempty : p.isEmpty = false)
    (h : exec (ensureDirectory p) fs = (.error .notFound, fs')) : checkPath p = .ok () := by
  have hrefused {e : IoError} (hcheck : checkPath p = .error e) :
      exec (ensureDirectory p) fs = (.error e, fs) := by
    have hcreate : fs.createDirectory p = .error e := by
      unfold createDirectory
      rw [place_of_checkPath hcheck]
      rfl
    rw [exec_ensureDirectory, hcreate]
    simp [isDirectory, locate_of_checkPath hcheck]
  rcases checkPath_cases hempty with hok | hnul | hlong
  · exact hok
  · cases h.symm.trans (hrefused hnul)
  · cases h.symm.trans (hrefused hlong)

/-- Where none of the directories can be created, nothing is done. -/
theorem createDirectories_idle (habove : ∀ q ∈ above, ∀ fs₁, fs.createDirectory q ≠ .ok fs₁)
    (h : exec (createDirectories above) fs = (result, fs')) : fs' = fs := by
  have hensure {q : Path} {fs₁ : FileSystem} {result : Except IoError Unit}
      (hq : ∀ fs₁, fs.createDirectory q ≠ .ok fs₁)
      (h : exec (ensureDirectory q) fs = (result, fs₁)) : fs₁ = fs :=
    (ensureDirectory_cases h).resolve_right fun hcreated => hq fs₁ hcreated.2
  induction above generalizing fs' result with
  | nil =>
    cases h
    rfl
  | cons p above ih =>
    obtain ⟨hp, habove⟩ := List.forall_mem_cons.1 habove
    rcases createDirectories_cases h with hat | ⟨-, ⟨e, -, hrest⟩ | ⟨fs₁, hrest, hlast⟩⟩
    · exact hensure hp hat
    · exact ih habove hrest
    · obtain rfl := ih habove hrest
      exact hensure hp hlast

/-- To create what is missing above a path that never leads up either changes nothing, or is
refused for a name that is too long, or ends with an empty directory for the path. -/
theorem createDirectories_vacant (hp : p.above = [] ∨ ∃ q : Path, q.Parent p) (hrooted : fs.Rooted)
    (hup : ".." ∉ p.names) (h : exec (createDirectories p.above) fs = (result, fs')) :
    fs' = fs ∨ result = .error .nameTooLong ∨ result = .ok () ∧ fs'.Rooted ∧ fs'.Vacant p := by
  generalize habove : p.above = above at h
  induction above generalizing p fs' result with
  | nil =>
    cases h
    exact .inl rfl
  | cons q above ih =>
    obtain ⟨q', hparent⟩ := hp.resolve_left (by rw [habove]; nofun)
    obtain ⟨rfl, rfl⟩ := List.cons.inj (hparent.above.symm.trans habove)
    have hup' : ".." ∉ q'.names := by
      obtain ⟨name, hnames⟩ := hparent.names
      rw [hnames] at hup
      exact fun hmem => hup (List.mem_append_left _ hmem)
    rcases createDirectories_cases h with hat | ⟨hmissing, hrest⟩
    · rcases ensureDirectory_cases hat with hsame | ⟨rfl, hcreate⟩
      · exact .inl hsame
      · exact .inr (.inr ⟨rfl, vacant_of_createDirectory hrooted hparent hup hcreate⟩)
    rcases hrest with ⟨e, rfl, habove⟩ | ⟨fs₁, habove, hlast⟩
    · rcases ih hparent.above_cases hup' rfl habove with hsame | hlong | ⟨hok, -⟩
      · exact .inl hsame
      · exact .inr (.inl hlong)
      · cases hok
    · rcases ih hparent.above_cases hup' rfl habove with rfl | hlong | ⟨-, hrooted', hvacant⟩
      · cases hmissing.symm.trans hlast
        exact .inl rfl
      · cases hlong
      · have hcheck := checkPath_of_missing hparent.leads.isEmpty_eq hmissing
        rcases hvacant.ensureDirectory hcheck with ⟨fs₂, hcreate⟩ | hlong
        · rw [exec_ensureDirectory, hcreate] at hlast
          cases hlast
          exact .inr (.inr ⟨rfl, vacant_of_createDirectory hrooted' hparent hup hcreate⟩)
        · cases hlong.symm.trans hlast
          exact .inr (.inl rfl)

end FileOperation

namespace HistoryFile

variable {file : HistoryFile} {fs fs' : FileSystem} {l d : Location} {name : String}
  {entries stored : List String} {e : IoError}

/-- The steps at which an append can be refused, and what each leaves behind. -/
inductive Refused (file : HistoryFile) (fs : FileSystem) (entries : List String) (e : IoError) :
    FileSystem → Prop
  | directories {fs₁ : FileSystem}
    (hcreate : exec (createDirectories file.path.above) fs = (.error e, fs₁)) :
    Refused file fs entries e fs₁
  | load {fs₁ : FileSystem}
    (hcreate : exec (createDirectories file.path.above) fs = (.ok (), fs₁))
    (hload : file.load fs₁ = .error e) : Refused file fs entries e fs₁
  | write {fs₁ : FileSystem} {stored : List String}
    (hcreate : exec (createDirectories file.path.above) fs = (.ok (), fs₁))
    (hload : file.load fs₁ = .ok stored)
    (hwrite : fs₁.write file.temporary
      (textOf (lastEntries file.maxEntries (stored ++ entries))).toUTF8 = .error e) :
    Refused file fs entries e fs₁
  | rename {fs₁ fs₂ : FileSystem} {stored : List String}
    (hcreate : exec (createDirectories file.path.above) fs = (.ok (), fs₁))
    (hload : file.load fs₁ = .ok stored)
    (hwrite : fs₁.write file.temporary
      (textOf (lastEntries file.maxEntries (stored ++ entries))).toUTF8 = .ok fs₂)
    (hrename : fs₂.rename file.temporary file.path = .error e) : Refused file fs entries e fs₂

theorem refused_of_append (h : exec (file.append entries) fs = (.error e, fs')) :
    file.Refused fs entries e fs' := by
  cases entries with
  | nil =>
    rw [append_nil] at h
    cases h
  | cons entry entries =>
    rcases exec_bind_eq_error h with hcreate | ⟨⟨⟩, fs₁, hcreate, h⟩
    · exact .directories hcreate
    rcases exec_bind_eq_error h with hinspect | ⟨stored, fs₁', hinspect, h⟩
    · obtain ⟨hload, rfl⟩ : file.load fs₁ = .error e ∧ fs₁ = fs' := Prod.mk.inj hinspect
      exact .load hcreate hload
    obtain ⟨hload, rfl⟩ : file.load fs₁ = .ok stored ∧ fs₁ = fs₁' := Prod.mk.inj hinspect
    rcases exec_bind_eq_error h with hchange | ⟨⟨⟩, fs₂, hwrite, h⟩
    · obtain ⟨hwrite, rfl⟩ := exec_change_eq_error hchange
      exact .write hcreate hload hwrite
    · obtain ⟨hrename, rfl⟩ := exec_change_eq_error h
      exact .rename hcreate hload (exec_change_eq_ok hwrite) hrename

/-- Some of the directories above the path are there that were missing. -/
structure Opened (file : HistoryFile) (fs fs' : FileSystem) : Prop where
  working : fs'.working = fs.working
  entry (m : Location) : fs'.find? m = fs.find? m ∨
    fs.find? m = none ∧ fs'.find? m = some .directory ∧
      ∃ q ∈ file.path.above, fs'.locate q = .ok (m, .directory)

theorem opened_of_createDirectories {result : Except IoError Unit}
    (h : exec (createDirectories file.path.above) fs = (result, fs')) : file.Opened fs fs' := by
  have hgrows := grows_createDirectories file.path.above fs
  rw [h] at hgrows
  refine ⟨hgrows.working, fun m => ?_⟩
  rcases hgrows.entry m with hsame | ⟨hnone, hnew⟩
  · exact .inl hsame
  · refine .inr ⟨hnone, hnew, (created_of_createDirectories h hnew).resolve_left ?_⟩
    rw [hnone]
    nofun

/-- The temporary file is there with the new entries and cannot be renamed: nothing has the name of
the path, and the path says that a directory has it. -/
structure Stranded (file : HistoryFile) (entries : List String) (fs fs' : FileSystem) (d : Location)
    (name : String) : Prop where
  ending : file.path.ending ≠ .name
  place : fs.place file.path = .ok (d, some name)
  missing : fs.find? (d.child name) = none
  free : fs.find? (d.child (temporaryName name)) ≠ some .directory
  left : fs' = fs.put (d.child (temporaryName name))
    (.file (textOf (lastEntries file.maxEntries entries)).toUTF8)

theorem stranded_of_rename (hload : file.load fs = .ok stored)
    (hwrite : fs.write file.temporary
      (textOf (lastEntries file.maxEntries (stored ++ entries))).toUTF8 = .ok fs')
    (hrename : fs'.rename file.temporary file.path = .error e) :
    ∃ d name, file.Stranded entries fs fs' d name := by
  obtain ⟨l, htemporary, rfl⟩ := write_iff.1 hwrite
  have hsame := SameDirectories.put htemporary.ne_root htemporary.free
    (textOf (lastEntries file.maxEntries (stored ++ entries))).toUTF8
  have hsource := (htemporary.of_same hsame).locate (find?_put_self htemporary.ne_root)
  have hno (m : Location) : ¬ fs.Admits file.path m := fun hm => by
    cases hrename.symm.trans ((rename_iff hsource).2 ⟨m, hm.of_same hsame, rfl⟩)
  rcases load_cases hload with ⟨m, bytes, hfile, -⟩ | ⟨hmissing, rfl⟩
  · exact absurd (admits_of_locate hfile) (hno m)
  -- Without a name of its own the path would be that of the temporary file, which has its place.
  obtain ⟨front, name, hnames, hup⟩ :
      ∃ front name, file.path.names = front ++ [name] ∧ name ≠ ".." := by
    by_contra hnone
    push Not at hnone
    have hpath : file.temporary = file.path := Path.withExtension_of_nameless "tmp" hnone
    exact hno l (hpath ▸ htemporary)
  obtain ⟨d, last, hbeside, -⟩ := htemporary.place
  obtain ⟨-, hwalk, -⟩ := place_eq_ok hbeside
  obtain ⟨hother, habsolute⟩ := Path.withExtension_names (show "tmp" ≠ "" by decide) hnames hup
  have hfront : file.temporary.names.dropLast = front := by
    rcases hother with hother | hother <;> rw [temporary, hother, List.dropLast_concat]
  rw [hfront, temporary, walk_congr habsolute] at hwalk
  obtain ⟨hplace, hnone⟩ := place_of_notFound hmissing hnames hwalk hup
  obtain rfl := temporary_beside hplace htemporary
  exact ⟨d, name, fun hending => hno _ ⟨⟨d, name, hplace, rfl⟩, hending, by rw [hnone]; nofun⟩,
    hplace, hnone, htemporary.free, rfl⟩

theorem load_of_vacant (h : fs.Vacant file.path) : file.load fs = .ok [] ∨
    file.load fs = .error .nameTooLong ∨ file.load fs = .error .nulInName := by
  have hrefused {e : IoError} (hlocate : fs.locate file.path = .error e) (he : e ≠ .notFound) :
      file.load fs = .error e := by
    unfold load readText FileSystem.read
    rw [hlocate]
    cases e <;> first | rfl | exact absurd rfl he
  rcases checkPath_cases h.isEmpty with hcheck | hnul | hlong
  · rcases h.place hcheck with ⟨-, -, -, -, hmissing⟩ | ⟨-, hlong⟩
    · refine .inl ?_
      unfold load readText FileSystem.read
      rw [hmissing]
      rfl
    · exact .inr (.inl (hrefused hlong nofun))
  · exact .inr (.inr (hrefused (locate_of_checkPath hnul) nofun))
  · exact .inr (.inl (hrefused (locate_of_checkPath hlong) nofun))

/-- The temporary file has its place in the same directory. -/
theorem vacant_temporary (h : fs.Vacant file.path) (hup : ".." ∉ file.temporary.names) :
    fs.Vacant file.temporary ∧ file.temporary.ending = .name := by
  obtain ⟨front, name, d, hnames, hname, hwalk, hnone⟩ := h
  obtain ⟨hother, habsolute⟩ :=
    Path.withExtension_names (show "tmp" ≠ "" by decide) hnames hname
  replace hother := hother.resolve_right fun hother => hup (by simp [temporary, hother])
  have hother_ne : Path.stem name ++ "." ++ "tmp" ≠ ".." := fun heq =>
    hup (by simp [temporary, hother, heq])
  refine ⟨⟨front, _, d, hother, hother_ne, by rwa [temporary, walk_congr habsolute], hnone⟩, ?_⟩
  obtain ⟨before, behind, -, -, -, hpath | hpath⟩ :=
    Path.withExtension_eq "tmp" hnames hname
  · rw [temporary, hpath]
    exact Path.ending_concat before (Path.isName_extended _ (by decide))
  · rw [temporary, hpath]
    exact Path.ending_concat before rfl

/-- Where a directory was created for the path, the steps behind it find that directory empty. -/
theorem Refused.unchanged (h : file.Refused fs entries e fs')
    (hending : file.path.ending = .name) (hrooted : fs.Rooted) (hup : ".." ∉ file.path.names)
    (htemporary : ".." ∉ file.temporary.names) :
    fs' = fs ∨ e = .nameTooLong ∨ e = .nulInName := by
  have habove : file.path.above = [] ∨ ∃ q : Path, q.Parent file.path := by
    cases hempty : file.path.isEmpty with
    | true => exact .inl (Path.above_of_isEmpty hempty)
    | false => exact Path.above_cases hempty hending
  cases h with
  | directories hcreate =>
    rcases createDirectories_vacant habove hrooted hup hcreate with hsame | hlong | ⟨hok, -⟩
    · exact .inl hsame
    · exact .inr (.inl (Except.error.inj hlong))
    · cases hok
  | load hcreate hload =>
    rcases createDirectories_vacant habove hrooted hup hcreate with hsame | hlong | ⟨-, -, hvacant⟩
    · exact .inl hsame
    · cases hlong
    · rcases load_of_vacant hvacant with hnil | hlong | hnul
      · cases hload.symm.trans hnil
      · exact .inr (.inl (Except.error.inj (hload.symm.trans hlong)))
      · exact .inr (.inr (Except.error.inj (hload.symm.trans hnul)))
  | write hcreate hload hwrite =>
    rcases createDirectories_vacant habove hrooted hup hcreate with hsame | hlong | ⟨-, -, hvacant⟩
    · exact .inl hsame
    · cases hlong
    · obtain ⟨hbeside, hname⟩ := vacant_temporary hvacant htemporary
      rcases hbeside.write hname _ with ⟨fs₂, hok⟩ | hlong | hnul
      · cases hwrite.symm.trans hok
      · exact .inr (.inl (Except.error.inj (hwrite.symm.trans hlong)))
      · exact .inr (.inr (Except.error.inj (hwrite.symm.trans hnul)))
  | rename hcreate hload hwrite hrename =>
    obtain ⟨d, name, hstranded⟩ := stranded_of_rename hload hwrite hrename
    exact absurd hending hstranded.ending

/-- An append that is refused leaves all as it was, but for directories above the path that were
missing, and for the temporary file. The latter is left only where the path has an end that says it
names a directory, and names nothing; directories only where some could be created. For a path
without such an end that never leads up, neither happens in a tree whose every entry is in a
directory, unless a name is one that no file can have. -/
theorem append_error_leaves (h : exec (file.append entries) fs = (.error e, fs')) :
    (∃ fs₁, file.Opened fs fs₁ ∧
      (fs' = fs₁ ∨ ∃ d name, file.Stranded entries fs₁ fs' d name)) ∧
    ((∀ q ∈ file.path.above, ∀ fs₁, fs.createDirectory q ≠ .ok fs₁) →
      fs' = fs ∨ ∃ d name, file.Stranded entries fs fs' d name) ∧
    (file.path.ending = .name → fs.Rooted → ".." ∉ file.path.names →
      ".." ∉ file.temporary.names → fs' = fs ∨ e = .nameTooLong ∨ e = .nulInName) := by
  obtain ⟨fs₁, result, hcreate, hleft⟩ : ∃ fs₁ result,
      exec (createDirectories file.path.above) fs = (result, fs₁) ∧
        (fs' = fs₁ ∨ ∃ d name, file.Stranded entries fs₁ fs' d name) := by
    cases refused_of_append h with
    | directories hcreate => exact ⟨_, _, hcreate, .inl rfl⟩
    | load hcreate => exact ⟨_, _, hcreate, .inl rfl⟩
    | write hcreate => exact ⟨_, _, hcreate, .inl rfl⟩
    | rename hcreate hload hwrite hrename =>
      exact ⟨_, _, hcreate, .inr (stranded_of_rename hload hwrite hrename)⟩
  refine ⟨⟨fs₁, opened_of_createDirectories hcreate, hleft⟩, fun hidle => ?_,
    (refused_of_append h).unchanged⟩
  rwa [createDirectories_idle hidle hcreate] at hleft

theorem exec_of_error {op : FileOperation Unit} (h : (exec op fs).1 = .error e) :
    exec op fs = (.error e, (exec op fs).2) := Prod.ext h rfl

/-- The path leads through the file `h`. -/
def misplaced : HistoryFile := ⟨.ofString "h/x", 3⟩

/-- The path says that a directory has the name `h`. -/
def slashed : HistoryFile := ⟨.ofString "h/", 3⟩

theorem misplaced_and_slashed :
    (∃ fs', exec (misplaced.append ["q."]) Sessions.disk = (.error .alreadyExists, fs') ∧
      fs' = Sessions.disk) ∧
    ∃ fs', exec (slashed.append ["q."]) {} = (.error .notADirectory, fs') ∧
      ∃ d name, slashed.Stranded ["q."] {} fs' d name := by
  have hmisplaced : exec (misplaced.append ["q."]) Sessions.disk =
      (.error .alreadyExists, (exec (misplaced.append ["q."]) Sessions.disk).2) :=
    exec_of_error (by decide +kernel)
  have hslashed : exec (slashed.append ["q."]) {} =
      (.error .notADirectory, (exec (slashed.append ["q."]) {}).2) :=
    exec_of_error (by decide +kernel)
  refine ⟨⟨_, hmisplaced, ?_⟩, ⟨_, hslashed, ?_⟩⟩
  · have hleaves := (append_error_leaves hmisplaced).2.2 (by decide +kernel) Sessions.rooted_disk
      (by decide +kernel) (by decide +kernel)
    exact hleaves.resolve_right (by rintro (h | h) <;> cases h)
  · have habove : slashed.path.above = [] := by decide +kernel
    refine ((append_error_leaves hslashed).2.1 (by rw [habove]; nofun)).resolve_left fun hsame => ?_
    have hleft : ((exec (slashed.append ["q."]) {}).2.find? (Location.root.child "h.tmp")).isSome :=
      by decide +kernel
    rw [hsame] at hleft
    cases hleft

/-- A disk with a directory that has the temporary name beside the history file `h`. -/
def occupied : FileSystem := ({} : FileSystem).put (Location.root.child "h.tmp") .directory

/-- A path that ends in a slash leaves the temporary file. A path that leads up again, one with a
name of 256 bytes and one that holds NUL leave the directory that was missing. -/
theorem append_error_changes :
    (∃ e fs', exec (slashed.append ["q."]) {} = (.error e, fs') ∧ fs' ≠ {}) ∧
    (∃ e fs', exec (Sessions.roundabout.append ["q."]) occupied = (.error e, fs') ∧
      fs' ≠ occupied) ∧
    (∃ e fs', exec ((HistoryFile.mk ⟨["d", .ofList (.replicate 64 '𝔸')]⟩ 3).append ["q."]) {} =
      (.error e, fs') ∧ fs' ≠ {}) ∧
    ∃ e fs', exec ((HistoryFile.mk (.ofString "d/a\x00b") 3).append ["q."]) {} = (.error e, fs') ∧
      fs' ≠ {} := by
  have hchanges {file : HistoryFile} {fs : FileSystem} (l : Location) (e : IoError) (entry : Entry)
      (h : (exec (file.append ["q."]) fs).map id (·.find? l) = (.error e, some entry))
      (hnone : fs.find? l = none) :
      ∃ e fs', exec (file.append ["q."]) fs = (.error e, fs') ∧ fs' ≠ fs := by
    refine ⟨e, _, exec_of_error (congrArg Prod.fst h), fun hsame => ?_⟩
    have hsome := congrArg Prod.snd h
    rw [Prod.map_snd, hsame, hnone] at hsome
    cases hsome
  exact ⟨
    hchanges (Location.root.child "h.tmp") .notADirectory (.file "q.\n".toUTF8) (by decide +kernel)
      rfl,
    hchanges (Location.root.child "d") .isADirectory .directory (by decide +kernel) rfl,
    hchanges (Location.root.child "d") .nameTooLong .directory (by decide +kernel) rfl,
    hchanges (Location.root.child "d") .nulInName .directory (by decide +kernel) rfl⟩

end HistoryFile

end LogicConsole
