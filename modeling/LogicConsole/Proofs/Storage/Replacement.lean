import LogicConsole.Proofs.Storage.Directories
/-!
A file that is replaced: the new contents are written to another file first, which is then given the
name of the one to be replaced. It is told where this can be done and what comes of it, and that it
can be done again.
-/
namespace LogicConsole.FileSystem

variable {fs fs' : FileSystem} {p source target : Path} {l m d : Location} {entry : Entry}
  {name : String} {bytes : ByteArray}

/-- The bytes of the file at a location, if there is one. -/
def fileAt (fs : FileSystem) (l : Location) : Option ByteArray :=
  match fs.find? l with
  | some (.file bytes) => some bytes
  | _ => none

/-- The path has a place for a file, and that is the location. -/
structure Admits (fs : FileSystem) (p : Path) (l : Location) : Prop where
  place : ∃ d name, fs.place p = .ok (d, some name) ∧ l = d.child name
  ending : p.ending = .name
  free : fs.find? l ≠ some .directory

theorem find?_remove_put_of_ne {k : Location} (hl : k ≠ l) (hm : k ≠ m) :
    ((fs.remove l).put m entry).find? k = fs.find? k := by
  rw [find?_put_of_ne hm, find?_remove_of_ne hl]

theorem put_remove (fs : FileSystem) (l : Location) (entry : Entry) :
    (fs.put l entry).remove l = fs.remove l := by
  simp only [put, remove, FileSystem.mk.injEq, and_true]
  rw [List.filter_cons_of_neg (by simp), List.filter_filter]
  simp only [Bool.and_self]

theorem put_congr (hremove : fs.remove m = fs'.remove m) (entry : Entry) :
    fs.put m entry = fs'.put m entry := by
  have hworking : (fs.remove m).working = (fs'.remove m).working := by rw [hremove]
  rw [put, put, hremove, show fs.working = fs'.working from hworking]

theorem put_put (fs : FileSystem) (l : Location) (entry entry' : Entry) :
    (fs.put l entry).put l entry' = fs.put l entry' := put_congr (put_remove fs l entry) entry'

/-- What was put there before leaves no trace. -/
theorem remove_put_remove_put (fs : FileSystem) (l m : Location) (entry entry' : Entry) :
    (((fs.remove l).put m entry).remove l).put m entry' = (fs.remove l).put m entry' := by
  refine put_congr ?_ entry'
  simp only [put, remove, FileSystem.mk.injEq, and_true]
  simp only [List.filter_cons, List.filter_filter]
  by_cases hml : m = l <;> simp [hml, Bool.and_comm, Bool.and_left_comm]

theorem Admits.ne_root (h : fs.Admits p l) : l ≠ .root := by
  obtain ⟨d, name, -, rfl⟩ := h.place
  exact Location.child_ne_root d name

theorem write_iff : fs.write p bytes = .ok fs' ↔
    ∃ l, fs.Admits p l ∧ fs' = fs.put l (.file bytes) := by
  constructor
  · intro h
    obtain ⟨d, name, hplace, hending, hfree, rfl⟩ := write_eq_ok h
    exact ⟨_, ⟨⟨d, name, hplace, rfl⟩, hending, hfree⟩, rfl⟩
  · rintro ⟨_, ⟨⟨d, name, hplace, rfl⟩, hending, hfree⟩, rfl⟩
    unfold write
    rw [hplace]
    dsimp only [bind, Except.bind]
    rw [hending]
    cases hfind : fs.find? (d.child name) with
    | none => rfl
    | some found =>
      cases found with
      | file b => rfl
      | directory => exact absurd hfind hfree

theorem place_of_walk (hcheck : checkPath p = .ok ())
    (hwalk : fs.walk p p.names.dropLast = .ok (d, .directory))
    (hnames : p.names = p.names.dropLast ++ [name]) (hup : name ≠ "..")
    (hlong : ¬ maxNameBytes < name.utf8ByteSize) : fs.place p = .ok (d, some name) := by
  have hlast : p.names.getLast? = some name := List.getLast?_eq_some_iff.2 ⟨_, hnames⟩
  unfold place
  rw [hcheck]
  dsimp only [bind, Except.bind]
  rw [hwalk]
  dsimp only
  rw [hlast]
  simp [hup, hlong]
  rfl

theorem KeepsDirectories.place (h : KeepsDirectories fs fs')
    (hplace : fs.place p = .ok (d, some name)) : fs'.place p = .ok (d, some name) := by
  obtain ⟨hcheck, hwalk, hnames, hup, hlong⟩ := place_eq_ok hplace
  exact place_of_walk hcheck (h.walk hwalk) hnames hup hlong

/-- Both have the same directories. -/
structure SameDirectories (fs fs' : FileSystem) : Prop where
  keeps : KeepsDirectories fs fs'
  kept : KeepsDirectories fs' fs

theorem SameDirectories.symm (h : SameDirectories fs fs') : SameDirectories fs' fs :=
  ⟨h.kept, h.keeps⟩

theorem SameDirectories.trans {fs'' : FileSystem} (h : SameDirectories fs fs')
    (h' : SameDirectories fs' fs'') : SameDirectories fs fs'' :=
  ⟨h.keeps.trans h'.keeps, h'.kept.trans h.kept⟩

/-- A file that takes the place of a file or of nothing. -/
theorem SameDirectories.put (hroot : l ≠ .root) (hfree : fs.find? l ≠ some .directory)
    (bytes : ByteArray) : SameDirectories fs (fs.put l (.file bytes)) where
  keeps := .put hfree _
  kept := by
    refine ⟨rfl, fun k hk => ?_⟩
    by_cases hkl : k = l
    · rw [hkl, find?_put_self hroot] at hk
      cases hk
    · rwa [find?_put_of_ne hkl] at hk

theorem SameDirectories.remove (hroot : l ≠ .root) (hfree : fs.find? l ≠ some .directory) :
    SameDirectories fs (fs.remove l) where
  keeps := .remove hfree
  kept := by
    refine ⟨rfl, fun k hk => ?_⟩
    by_cases hkl : k = l
    · rw [hkl, find?_remove_self hroot] at hk
      cases hk
    · rwa [find?_remove_of_ne hkl] at hk

theorem Admits.of_same (h : SameDirectories fs fs') (hadmits : fs.Admits p l) : fs'.Admits p l where
  place := by
    obtain ⟨d, name, hplace, hl⟩ := hadmits.place
    exact ⟨d, name, h.keeps.place hplace, hl⟩
  ending := hadmits.ending
  free hfind := hadmits.free (h.kept.directory l hfind)

/-- The file at a place of the path is the file at the path. -/
theorem Admits.locate (h : fs.Admits p l) (hfile : fs.find? l = some (.file bytes)) :
    fs.locate p = .ok (l, .file bytes) := by
  obtain ⟨d, name, hplace, rfl⟩ := h.place
  exact locate_of_place hplace h.ending ⟨rfl, fun _ => id⟩ hfile

theorem rename_iff (hsource : fs.locate source = .ok (l, entry)) :
    fs.rename source target = .ok fs' ↔
      ∃ m, fs.Admits target m ∧ fs' = (fs.remove l).put m entry := by
  constructor
  · intro h
    obtain ⟨l', entry', d, name, hlocate, hplace, hending, hfree, rfl⟩ := rename_eq_ok h
    cases hsource.symm.trans hlocate
    exact ⟨_, ⟨⟨d, name, hplace, rfl⟩, hending, hfree⟩, rfl⟩
  · rintro ⟨_, ⟨⟨d, name, hplace, rfl⟩, hending, hfree⟩, rfl⟩
    unfold rename
    rw [hsource]
    dsimp only [bind, Except.bind]
    rw [hending, hplace]
    simp [hfree]
    rfl

/-- Where both paths have a place for a file, the one can be replaced by way of the other, and the
other is gone then. -/
theorem replace_iff :
    (∃ fs₁, fs.write source bytes = .ok fs₁ ∧ fs₁.rename source target = .ok fs') ↔
      ∃ l m, fs.Admits source l ∧ fs.Admits target m ∧
        fs' = (fs.remove l).put m (.file bytes) := by
  have hput {l : Location} (h : fs.Admits source l) :
      (fs.put l (.file bytes)).locate source = .ok (l, .file bytes) ∧
        SameDirectories fs (fs.put l (.file bytes)) := by
    have hsame := SameDirectories.put h.ne_root h.free bytes
    exact ⟨(h.of_same hsame).locate (find?_put_self h.ne_root), hsame⟩
  constructor
  · rintro ⟨fs₁, hwrite, hrename⟩
    obtain ⟨l, hsource, rfl⟩ := write_iff.1 hwrite
    obtain ⟨hlocate, hsame⟩ := hput hsource
    obtain ⟨m, htarget, rfl⟩ := (rename_iff hlocate).1 hrename
    exact ⟨l, m, hsource, htarget.of_same hsame.symm, by rw [put_remove]⟩
  · rintro ⟨l, m, hsource, htarget, rfl⟩
    obtain ⟨hlocate, hsame⟩ := hput hsource
    refine ⟨_, write_iff.2 ⟨l, hsource, rfl⟩, (rename_iff hlocate).2 ⟨m, htarget.of_same hsame, ?_⟩⟩
    rw [put_remove]

end LogicConsole.FileSystem
