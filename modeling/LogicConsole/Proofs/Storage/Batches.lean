import LogicConsole.Proofs.Storage.Replacement
import LogicConsole.Proofs.Storage.Survival
/-!
What a history file holds when entries were appended. A later append finds what an earlier one left
and replaces it at the same place, so it does not matter how entries are divided into batches.
-/
namespace LogicConsole

open FileOperation FileSystem

namespace HistoryFile

variable {file : HistoryFile} {fs fs' : FileSystem} {l m : Location}
  {stored entries kept first second : List String}

/-- The history file can be replaced: its path and that of the temporary file have places. -/
structure Ready (file : HistoryFile) (fs : FileSystem) (l m : Location) : Prop where
  temporary : fs.Admits file.temporary l
  path : fs.Admits file.path m

/-- What an append leaves behind: the last of all entries in the history file, and no temporary
file. -/
def replaced (file : HistoryFile) (l m : Location) (entries : List String) (fs : FileSystem) :
    FileSystem :=
  (fs.remove l).put m (.file (textOf (lastEntries file.maxEntries entries)).toUTF8)

theorem Holds.of_path (hload : file.load fs = .ok stored)
    (hpath : fs.exists? file.path = true ∨ fs.Rooted ∧ ".." ∉ file.path.names ∨
      file.Holds fs stored) : file.Holds fs stored := by
  rcases hpath with hexists | ⟨hrooted, hup⟩ | hholds
  · exact .of_exists hload hexists
  · exact .of_names hload hrooted hup
  · exact hholds

theorem append_nil (file : HistoryFile) : file.append [] = pure () := rfl

/-- An append succeeds where the directories can be created, what is stored then can be read and
the history file can be replaced. -/
theorem append_iff (hentries : entries ≠ []) :
    exec (file.append entries) fs = (.ok (), fs') ↔ ∃ fs₁ stored l m,
      exec (createDirectories file.path.above) fs = (.ok (), fs₁) ∧ file.load fs₁ = .ok stored ∧
        file.Ready fs₁ l m ∧ fs' = file.replaced l m (stored ++ entries) fs₁ := by
  constructor
  · intro h
    obtain ⟨fs₁, stored, fs₂, hcreate, hload, hwrite, hrename⟩ := append_eq_ok hentries h
    obtain ⟨l, m, htemporary, hpath, rfl⟩ := replace_iff.1 ⟨fs₂, hwrite, hrename⟩
    exact ⟨fs₁, stored, l, m, hcreate, hload, ⟨htemporary, hpath⟩, rfl⟩
  · rintro ⟨fs₁, stored, l, m, hcreate, hload, hready, hfs'⟩
    obtain ⟨fs₂, hwrite, hrename⟩ :=
      replace_iff.2 ⟨l, m, hready.temporary, hready.path, hfs'⟩
    have hempty : entries.isEmpty = false := List.isEmpty_eq_false_iff.2 hentries
    have hinspect : exec (inspect file.load) fs₁ = (.ok stored, fs₁) :=
      congrArg (·, fs₁) hload
    unfold append
    rw [hempty]
    change exec (createDirectories file.path.above >>= _) fs = _
    rw [exec_bind, hcreate]
    dsimp only
    rw [exec_bind, hinspect]
    dsimp only
    rw [exec_bind, exec_change, hwrite]
    dsimp only
    rw [exec_change, hrename]

namespace Ready

theorem sameDirectories (h : file.Ready fs l m) (entries : List String) :
    SameDirectories fs (file.replaced l m entries fs) := by
  have hremoved := SameDirectories.remove h.temporary.ne_root h.temporary.free
  exact hremoved.trans (.put h.path.ne_root (h.path.of_same hremoved).free _)

theorem locate (h : file.Ready fs l m) (entries : List String) :
    (file.replaced l m entries fs).locate file.path =
      .ok (m, .file (textOf (lastEntries file.maxEntries entries)).toUTF8) :=
  (h.path.of_same (h.sameDirectories entries)).locate (find?_put_self h.path.ne_root)

theorem load (h : file.Ready fs l m) (hfull : ∀ entry ∈ entries, entry ≠ "") :
    file.load (file.replaced l m entries fs) = .ok (lastEntries file.maxEntries entries) := by
  rw [load_of_locate (h.locate entries) (fromUTF8?_toUTF8 _),
    entriesOf_textOf fun entry hentry => hfull entry (mem_lastEntries hentry)]

/-- Another append replaces the file once more, and what the first one wrote is gone but for its
entries. -/
theorem append (h : file.Ready fs l m) (hfull : ∀ entry ∈ kept, entry ≠ "")
    (hentries : entries ≠ []) :
    exec (file.append entries) (file.replaced l m kept fs) =
      (.ok (), file.replaced l m (kept ++ entries) fs) := by
  have hsame := h.sameDirectories kept
  refine (append_iff hentries).2 ⟨_, _, l, m, exec_createDirectories_of_file (h.locate kept),
    h.load hfull, ⟨h.temporary.of_same hsame, h.path.of_same hsame⟩, ?_⟩
  unfold replaced
  rw [remove_put_remove_put, lastEntries_append]

end Ready

theorem append_append (hfirst : ∀ entry ∈ first, entry ≠ "") :
    exec (file.append first >>= fun _ => file.append second) fs = (.ok (), fs') ↔
      exec (file.append (first ++ second)) fs = (.ok (), fs') := by
  by_cases hnil : first = []
  · subst hnil
    rw [append_nil, pure_bind, List.nil_append]
  by_cases hnil' : second = []
  · subst hnil'
    rw [append_nil, List.append_nil]
    exact iff_of_eq (congrArg (exec · fs = _) (bind_pure (file.append first)))
  have hfull {stored : List String} {fs : FileSystem} (hload : file.load fs = .ok stored) :
      ∀ entry ∈ stored ++ first, entry ≠ "" := by
    intro entry hentry
    rcases List.mem_append.1 hentry with hentry | hentry
    · exact ne_empty_of_load hload hentry
    · exact hfirst entry hentry
  have hboth : first ++ second ≠ [] := fun h => hnil (List.append_eq_nil_iff.1 h).1
  constructor
  · intro h
    obtain ⟨⟨⟩, fs₂, h₁, h₂⟩ := exec_bind_eq_ok h
    obtain ⟨fs₁, stored, l, m, hcreate, hload, hready, rfl⟩ := (append_iff hnil).1 h₁
    rw [hready.append (hfull hload) hnil', List.append_assoc] at h₂
    exact (append_iff hboth).2
      ⟨fs₁, stored, l, m, hcreate, hload, hready, (Prod.mk.inj h₂).2.symm⟩
  · intro h
    obtain ⟨fs₁, stored, l, m, hcreate, hload, hready, rfl⟩ := (append_iff hboth).1 h
    rw [exec_bind, (append_iff hnil).2 ⟨fs₁, stored, l, m, hcreate, hload, hready, rfl⟩]
    dsimp only
    rw [hready.append (hfull hload) hnil', List.append_assoc]

/-- An append leaves the last of what the file held and of the new entries, each in a line of its
own. Two appends leave what one of all the entries leaves. The first part takes that no other file
comes to light when the missing directories of the path are created. -/
theorem append_kept_and_batched (file : HistoryFile) (fs fs' : FileSystem) :
    (∀ stored entries, file.load fs = .ok stored →
      (fs.exists? file.path = true ∨ fs.Rooted ∧ ".." ∉ file.path.names ∨ file.Holds fs stored) →
      entries ≠ [] → (∀ entry ∈ entries, entry ≠ "") →
      exec (file.append entries) fs = (.ok (), fs') →
      file.load fs' = .ok (lastEntries file.maxEntries (stored ++ entries)) ∧
        ∃ l bytes text, fs'.locate file.path = .ok (l, .file bytes) ∧
          String.fromUTF8? bytes = some text ∧
          Text.lines text.toList = (lastEntries file.maxEntries (stored ++ entries)).map
            fun entry => History.encode entry.toList) ∧
    ∀ first second, (∀ entry ∈ first, entry ≠ "") →
      (exec (file.append first >>= fun _ => file.append second) fs = (.ok (), fs') ↔
        exec (file.append (first ++ second)) fs = (.ok (), fs')) := by
  refine ⟨fun stored entries hload hpath hentries hfull hrun => ?_,
    fun first second hfirst => append_append hfirst⟩
  have hholds := Holds.of_path hload hpath
  obtain ⟨fs₁, found, l, m, hcreate, hfound, hready, rfl⟩ := (append_iff hentries).1 hrun
  obtain rfl := hholds.settled fs₁ found hcreate hfound
  exact ⟨(hholds.append hentries hfull hrun).load, m, _, _, hready.locate _, fromUTF8?_toUTF8 _,
    lines_textOf _⟩

theorem exec_of_toOption {op : FileOperation Unit} (h : (exec op fs).1.toOption = some ()) :
    exec op fs = (.ok (), (exec op fs).2) :=
  Prod.ext (Sessions.eq_ok_of_toOption h) rfl

/-- Two entries come behind the one that is there, the second of them in two lines. -/
theorem small_kept_and_batched : ∃ fs',
    exec (Sessions.small.append ["a."] >>= fun _ => Sessions.small.append ["b,\nc."])
      Sessions.disk = (.ok (), fs') ∧
    Sessions.small.load fs' = .ok ["x.", "a.", "b,\nc."] := by
  obtain ⟨fs', hrun⟩ : ∃ fs', exec (Sessions.small.append (["a."] ++ ["b,\nc."])) Sessions.disk =
      (.ok (), fs') := ⟨_, exec_of_toOption (by decide +kernel)⟩
  have hload : Sessions.small.load Sessions.disk = .ok ["x."] :=
    Sessions.eq_ok_of_toOption (by decide +kernel)
  have hexists : Sessions.disk.exists? Sessions.small.path = true := by decide +kernel
  obtain ⟨hkept, hbatched⟩ := append_kept_and_batched Sessions.small Sessions.disk fs'
  have hafter := (hkept ["x."] (["a."] ++ ["b,\nc."]) hload (.inl hexists) (by decide) (by decide)
    hrun).1
  exact ⟨fs', (hbatched ["a."] ["b,\nc."] (by decide)).2 hrun,
    hafter.trans (congrArg Except.ok (by decide +kernel))⟩

/-- Through a missing directory and up again: the append creates it, and what it finds then comes
before its own entry. -/
theorem roundabout_append : ∃ fs',
    exec (Sessions.roundabout.append ["q."]) Sessions.disk = (.ok (), fs') ∧
    Sessions.disk.Rooted ∧ Sessions.roundabout.load Sessions.disk = .ok [] ∧
    Sessions.roundabout.load fs' ≠
      .ok (lastEntries Sessions.roundabout.maxEntries ([] ++ ["q."])) := by
  have hload : Sessions.roundabout.load
      (exec (Sessions.roundabout.append ["q."]) Sessions.disk).2 = .ok ["x.", "q."] :=
    Sessions.eq_ok_of_toOption (by decide +kernel)
  refine ⟨_, exec_of_toOption (by decide +kernel), Sessions.rooted_disk,
    Sessions.eq_ok_of_toOption (by decide +kernel), ?_⟩
  rw [hload]
  exact fun h => absurd (Except.ok.inj h) (by decide)

end HistoryFile

end LogicConsole
