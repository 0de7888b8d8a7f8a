import LogicConsole.FileSystem
import Mathlib.Data.List.Induction
/-!
Walks through a tree that changes. A change that leaves every directory where it is leaves every way
through directories open, so a file that was put somewhere is found there: what is written under one
name and then given another is read under that.
-/
namespace LogicConsole

namespace FileSystem

variable {fs fs' : FileSystem} {p q : Path} {l d : Location} {entry : Entry} {name : String}
  {names : List String} {bytes : ByteArray}

theorem step_eq_ok {e : Entry} (h : fs.step (d, e) name = .ok (l, entry)) :
    e = .directory ∧ (name = ".." ∧ l = d.parent ∧ entry = .directory ∨
      name ≠ ".." ∧ ¬ maxNameBytes < name.utf8ByteSize ∧ l = d.child name ∧
        fs.find? (d.child name) = some entry) := by
  cases e with
  | file b => cases h
  | directory =>
    simp only [step] at h
    by_cases hup : name = ".."
    · rw [if_pos hup] at h
      cases h
      exact ⟨rfl, .inl ⟨hup, rfl, rfl⟩⟩
    · rw [if_neg hup] at h
      by_cases hlong : maxNameBytes < name.utf8ByteSize
      · rw [if_pos hlong] at h
        cases h
      · rw [if_neg hlong] at h
        cases hfind : fs.find? (d.child name) with
        | none =>
          rw [hfind] at h
          cases h
        | some found =>
          rw [hfind] at h
          cases h
          exact ⟨rfl, .inr ⟨hup, hlong, rfl, rfl⟩⟩

theorem step_child (hup : name ≠ "..") (hlong : ¬ maxNameBytes < name.utf8ByteSize)
    (hfind : fs.find? (d.child name) = some entry) :
    fs.step (d, .directory) name = .ok (d.child name, entry) := by
  simp [step, hup, hlong, hfind]

theorem walk_nil (fs : FileSystem) (p : Path) :
    fs.walk p [] = match fs.find? (fs.start p) with
      | none => .error .notFound
      | some entry => .ok (fs.start p, entry) := by
  unfold walk
  cases fs.find? (fs.start p) <;> rfl

theorem walk_congr (h : q.isAbsolute = p.isAbsolute) : fs.walk q names = fs.walk p names := by
  simp only [walk, start, h]

theorem walk_concat (fs : FileSystem) (p : Path) (names : List String) (name : String) :
    fs.walk p (names ++ [name]) = (fs.walk p names).bind fun e => fs.step e name := by
  unfold walk
  cases fs.find? (fs.start p) with
  | none => rfl
  | some entry =>
    change (names ++ [name]).foldlM fs.step (fs.start p, entry) =
      (names.foldlM fs.step (fs.start p, entry)).bind fun e => fs.step e name
    rw [List.foldlM_append]
    cases names.foldlM fs.step (fs.start p, entry) with
    | error e => rfl
    | ok e =>
      change (fs.step e name >>= pure) = fs.step e name
      exact bind_pure _

/-- Only a directory leads on. -/
theorem walk_concat_eq_ok (h : fs.walk p (names ++ [name]) = .ok (l, entry)) :
    ∃ d, fs.walk p names = .ok (d, .directory) ∧
      (name = ".." ∧ l = d.parent ∧ entry = .directory ∨
        name ≠ ".." ∧ ¬ maxNameBytes < name.utf8ByteSize ∧ l = d.child name ∧
          fs.find? (d.child name) = some entry) := by
  rw [walk_concat] at h
  obtain ⟨⟨d, e⟩, hwalk, h⟩ := bind_eq_ok.1 h
  obtain ⟨rfl, hstep⟩ := step_eq_ok h
  exact ⟨d, hwalk, hstep⟩

theorem walk_child (hwalk : fs.walk p names = .ok (d, .directory)) (hup : name ≠ "..")
    (hlong : ¬ maxNameBytes < name.utf8ByteSize) (hfind : fs.find? (d.child name) = some entry) :
    fs.walk p (names ++ [name]) = .ok (d.child name, entry) := by
  rw [walk_concat, hwalk]
  exact step_child hup hlong hfind

/-- Every directory of the one is a directory of the other. -/
structure KeepsDirectories (fs fs' : FileSystem) : Prop where
  working : fs'.working = fs.working
  directory (l : Location) (h : fs.find? l = some .directory) : fs'.find? l = some .directory

theorem KeepsDirectories.trans {fs'' : FileSystem} (h : KeepsDirectories fs fs')
    (h' : KeepsDirectories fs' fs'') : KeepsDirectories fs fs'' :=
  ⟨h'.working.trans h.working, fun l hl => h'.directory l (h.directory l hl)⟩

theorem KeepsDirectories.put (h : fs.find? l ≠ some .directory) (entry : Entry) :
    KeepsDirectories fs (fs.put l entry) where
  working := rfl
  directory m hm := by
    have hne : m ≠ l := by
      rintro rfl
      exact h hm
    rw [find?_put_of_ne hne, hm]

theorem KeepsDirectories.remove (h : fs.find? l ≠ some .directory) :
    KeepsDirectories fs (fs.remove l) where
  working := rfl
  directory m hm := by
    have hne : m ≠ l := by
      rintro rfl
      exact h hm
    rw [find?_remove_of_ne hne, hm]

theorem KeepsDirectories.walk (h : KeepsDirectories fs fs')
    (hwalk : fs.walk p names = .ok (l, .directory)) : fs'.walk p names = .ok (l, .directory) := by
  induction names using List.reverseRecOn generalizing l with
  | nil =>
    have hstart : fs'.start p = fs.start p := by
      simp only [start, h.working]
    rw [walk_nil] at hwalk ⊢
    rw [hstart]
    cases hfind : fs.find? (fs.start p) with
    | none =>
      rw [hfind] at hwalk
      cases hwalk
    | some entry =>
      rw [hfind] at hwalk
      cases hwalk
      rw [h.directory _ hfind]
  | append_singleton names name ih =>
    obtain ⟨d, hd, hstep⟩ := walk_concat_eq_ok hwalk
    rcases hstep with ⟨rfl, rfl, -⟩ | ⟨hup, hlong, rfl, hfind⟩
    · rw [walk_concat, ih hd]
      rfl
    · exact walk_child (ih hd) hup hlong (h.directory _ hfind)

theorem locate_eq_ok (h : fs.locate p = .ok (l, entry)) :
    checkPath p = .ok () ∧ fs.walk p p.names = .ok (l, entry) ∧
      (entry = .directory ∨ p.ending = .name) := by
  obtain ⟨⟨⟩, hcheck, h⟩ := bind_eq_ok.1 h
  obtain ⟨⟨m, found⟩, hwalk, h⟩ := bind_eq_ok.1 h
  cases found with
  | directory =>
    cases h
    exact ⟨hcheck, hwalk, .inl rfl⟩
  | file b =>
    by_cases hending : p.ending = .name
    · simp only [hending, if_true] at h
      cases h
      exact ⟨hcheck, hwalk, .inr hending⟩
    · simp only [hending, if_false] at h
      cases h

theorem locate_file (hcheck : checkPath p = .ok ())
    (hwalk : fs.walk p p.names = .ok (l, .file bytes)) (hending : p.ending = .name) :
    fs.locate p = .ok (l, .file bytes) := by
  unfold locate
  rw [hcheck, hwalk]
  exact if_pos hending

theorem locate_directory (hcheck : checkPath p = .ok ())
    (hwalk : fs.walk p p.names = .ok (l, .directory)) : fs.locate p = .ok (l, .directory) := by
  unfold locate
  rw [hcheck, hwalk]
  rfl

/-- A place for a new entry is a directory that exists, and a name that fits into it. -/
theorem place_eq_ok (h : fs.place p = .ok (d, some name)) :
    checkPath p = .ok () ∧ fs.walk p p.names.dropLast = .ok (d, .directory) ∧
      p.names = p.names.dropLast ++ [name] ∧ name ≠ ".." ∧
        ¬ maxNameBytes < name.utf8ByteSize := by
  obtain ⟨⟨⟩, hcheck, h⟩ := bind_eq_ok.1 h
  obtain ⟨⟨m, entry⟩, hwalk, h⟩ := bind_eq_ok.1 h
  cases entry with
  | file b => cases h
  | directory =>
    cases hlast : p.names.getLast? with
    | none =>
      rw [hlast] at h
      cases h
    | some last =>
      obtain ⟨front, hnames⟩ := List.getLast?_eq_some_iff.1 hlast
      rw [hlast] at h
      by_cases hup : last = ".."
      · simp only [hup, if_true] at h
        cases h
      · by_cases hlong : maxNameBytes < last.utf8ByteSize
        · simp only [hup, hlong, if_true, if_false] at h
          cases h
        · simp only [hup, hlong, if_false] at h
          cases h
          exact ⟨hcheck, hwalk, by rw [hnames, List.dropLast_concat], hup, hlong⟩

/-- A file is written where its path has a place for it. -/
theorem write_eq_ok (h : fs.write p bytes = .ok fs') : ∃ d name,
    fs.place p = .ok (d, some name) ∧ p.ending = .name ∧
      fs.find? (d.child name) ≠ some .directory ∧ fs' = fs.put (d.child name) (.file bytes) := by
  obtain ⟨⟨d, name⟩, hplace, h⟩ := bind_eq_ok.1 h
  cases name with
  | none => cases h
  | some name =>
    refine ⟨d, name, hplace, ?_⟩
    cases hfind : fs.find? (d.child name) with
    | none =>
      cases hending : p.ending <;> simp only [hfind, hending] at h <;> cases h
      exact ⟨rfl, nofun, rfl⟩
    | some entry =>
      cases entry with
      | directory =>
        simp only [hfind] at h
        cases h
      | file b =>
        cases hending : p.ending <;> simp only [hfind, hending] at h <;> cases h
        exact ⟨rfl, nofun, rfl⟩

/-- A renamed file is where its new path has a place for it, and no more where it was. -/
theorem rename_eq_ok {source target : Path} (h : fs.rename source target = .ok fs') :
    ∃ l entry d name, fs.locate source = .ok (l, entry) ∧
      fs.place target = .ok (d, some name) ∧ target.ending = .name ∧
      fs.find? (d.child name) ≠ some .directory ∧ fs' = (fs.remove l).put (d.child name) entry := by
  obtain ⟨⟨l, entry⟩, hlocate, h⟩ := bind_eq_ok.1 h
  by_cases hbusy : (target.ending = .dot && target.names ≠ []) = true
  · simp only [hbusy, if_true] at h
    obtain ⟨_, -, h⟩ := bind_eq_ok.1 h
    cases h
  · rw [Bool.not_eq_true] at hbusy
    simp only [hbusy, Bool.false_eq_true, if_false] at h
    obtain ⟨⟨d, name⟩, hplace, h⟩ := bind_eq_ok.1 h
    cases name with
    | none => cases h
    | some name =>
      by_cases hending : target.ending = .name
      · by_cases hfind : fs.find? (d.child name) = some .directory
        · simp only [hending, hfind, ne_eq, not_true_eq_false, if_true, if_false] at h
          cases h
        · simp only [hending, hfind, ne_eq, not_true_eq_false, if_false] at h
          cases h
          exact ⟨l, entry, d, name, hlocate, hplace, hending, hfind, rfl⟩
      · simp only [hending, ne_eq, not_false_eq_true, if_true] at h
        cases h

/-- A file that was put where a path had a place for it is found by that path. -/
theorem locate_of_place (hplace : fs.place p = .ok (d, some name)) (hending : p.ending = .name)
    (hkept : KeepsDirectories fs fs') (hfile : fs'.find? (d.child name) = some (.file bytes)) :
    fs'.locate p = .ok (d.child name, .file bytes) := by
  obtain ⟨hcheck, hwalk, hnames, hup, hlong⟩ := place_eq_ok hplace
  refine locate_file hcheck ?_ hending
  rw [hnames]
  exact walk_child (hkept.walk hwalk) hup hlong hfile

theorem find?_remove_self (h : l ≠ .root) : (fs.remove l).find? l = none := by
  simp only [find?, if_neg h, remove]
  refine List.lookup_eq_none_iff.2 fun e he => ?_
  have hne : e.1 ≠ l := by simpa using (List.mem_filter.1 he).2
  simpa using Ne.symm hne

/-- What is written under one path and then renamed to another is read there. -/
theorem read_of_write_rename {source target : Path} {fs₁ fs₂ : FileSystem}
    (hwrite : fs.write source bytes = .ok fs₁) (hrename : fs₁.rename source target = .ok fs₂) :
    ∃ l, fs₂.locate target = .ok (l, .file bytes) := by
  obtain ⟨d, name, hplace, hending, hfree, rfl⟩ := write_eq_ok hwrite
  obtain ⟨l, entry, d', name', hlocate, hplace', hending', hfree', rfl⟩ := rename_eq_ok hrename
  have hput : (fs.put (d.child name) (.file bytes)).find? (d.child name) = some (.file bytes) :=
    find?_put_self (Location.child_ne_root d name)
  have hsource := locate_of_place hplace hending (.put hfree _) hput
  rw [hsource] at hlocate
  obtain ⟨rfl, rfl⟩ := Prod.mk.inj (Except.ok.inj hlocate)
  have hremoved : KeepsDirectories (fs.put (d.child name) (.file bytes))
      ((fs.put (d.child name) (.file bytes)).remove (d.child name)) :=
    .remove (by rw [hput]; nofun)
  have hfree'' : ((fs.put (d.child name) (.file bytes)).remove (d.child name)).find?
      (d'.child name') ≠ some .directory := by
    by_cases hsame : d'.child name' = d.child name
    · rw [hsame, find?_remove_self (Location.child_ne_root d name)]
      nofun
    · rwa [find?_remove_of_ne hsame]
  exact ⟨_, locate_of_place hplace' hending' (hremoved.trans (.put hfree'' _))
    (find?_put_self (Location.child_ne_root d' name'))⟩

end FileSystem

end LogicConsole
