import LogicConsole.Proofs.Storage.Batches
/-!
What an append touches: the history file, the file beside it that is written first, and the
directories that were missing on the way to both. Everything else stays as it was.
-/
namespace LogicConsole

open FileOperation FileSystem

theorem Location.child_inj {l : Location} {name name' : String} :
    l.child name = l.child name' ↔ name = name' :=
  ⟨fun h => (List.cons.inj (congrArg Location.names h)).1, fun h => by rw [h]⟩

namespace Path

variable {p q : Path} {name extension : String} {front : List String}

theorem mem_heads {parts head : List String} (h : head ∈ heads parts) : head <+: parts := by
  induction parts generalizing head with
  | nil => cases h
  | cons part parts ih =>
    rcases List.mem_cons.1 h with rfl | h
    · exact ⟨parts, rfl⟩
    · obtain ⟨head, hhead, rfl⟩ := List.mem_map.1 h
      exact List.cons_prefix_cons.2 ⟨rfl, ih hhead⟩

/-- A path that ends in a name leads on from each directory above it. -/
theorem leads_of_mem_above (hempty : p.isEmpty = false) (hending : p.ending = .name)
    (h : q ∈ p.above) : q.Leads p := by
  obtain ⟨front, last, hparts, hlast⟩ := parts_of_ending hempty hending
  rw [above_eq hparts hlast] at h
  obtain ⟨head, hhead, rfl⟩ := List.mem_map.1 h
  obtain ⟨hmem, hleads⟩ := List.mem_filter.1 (List.mem_reverse.1 hhead)
  obtain ⟨rest, rfl⟩ := mem_heads hmem
  exact ⟨⟨rest ++ [last], by simp, by rw [hparts, List.append_assoc]⟩, hleads⟩

/-- The names on the way to a directory above a path come first on the way to what holds it. -/
theorem Leads.names_prefix (h : q.Leads p) (hempty : p.isEmpty = false)
    (hending : p.ending = .name) : q.names <+: p.names.dropLast := by
  obtain ⟨front, last, hparts, hlast⟩ := parts_of_ending hempty hending
  obtain ⟨rest, hrest, hp⟩ := h.prefixes
  obtain ⟨rest, last', rfl⟩ := (List.eq_nil_or_concat rest).resolve_left hrest
  rw [List.concat_eq_append, ← List.append_assoc] at hp
  obtain ⟨hfront, -⟩ := List.append_inj' (hparts.symm.trans hp) rfl
  refine ⟨rest.filter isName, ?_⟩
  simp [names, hparts, hlast, hfront]

/-- Behind the last name of a path there are only parts that lead nowhere. -/
theorem parts_of_names (h : p.names = front ++ [name]) : ∃ before behind,
    p.parts = before ++ name :: behind ∧ before.filter isName = front ∧ isName name = true ∧
      ∀ part ∈ behind, isName part = false := by
  obtain ⟨before, last, hparts, hfront, hlast⟩ := List.filter_eq_append_iff.1 h
  obtain ⟨gap, behind, rfl, hgap, hname, hbehind⟩ := List.filter_eq_cons_iff.1 hlast
  refine ⟨before ++ gap, behind, by rw [hparts, List.append_assoc], ?_, hname, ?_⟩
  · rw [List.filter_append, hfront, List.filter_eq_nil_iff.2 hgap, List.append_nil]
  · simpa [List.filter_eq_nil_iff] using hbehind

theorem isName_extended (stem : String) (h : extension ≠ "") :
    isName (stem ++ "." ++ extension) = true := by
  have hlength : 0 < extension.length := Nat.pos_of_ne_zero fun hzero =>
    h (String.length_eq_zero_iff.1 hzero)
  have hlonger : 1 < (stem ++ "." ++ extension).length := by
    rw [String.length_append, String.length_append]
    change 1 < stem.length + 1 + extension.length
    omega
  have hempty : stem ++ "." ++ extension ≠ "" := fun heq => by
    rw [heq] at hlonger
    exact absurd hlonger (by decide)
  have hdot : stem ++ "." ++ extension ≠ "." := fun heq => by
    rw [heq] at hlonger
    exact absurd hlonger (by decide)
  simp [isName, hempty, hdot]

/-- With another extension the last name is another, or leads up, and nothing stands behind it. -/
theorem withExtension_eq (extension : String) (h : p.names = front ++ [name]) (hup : name ≠ "..") :
    ∃ before behind, p.parts = before ++ name :: behind ∧ before.filter isName = front ∧
      isName name = true ∧
      (p.withExtension extension = ⟨before ++ [stem name ++ "." ++ extension]⟩ ∨
        p.withExtension extension = ⟨before ++ [".."]⟩) := by
  obtain ⟨before, behind, hparts, hfront, hname, hbehind⟩ := parts_of_names h
  refine ⟨before, behind, hparts, hfront, hname, ?_⟩
  have hlast : p.names.getLast? = some name := List.getLast?_eq_some_iff.2 ⟨_, h⟩
  have hkept : (p.parts.reverse.dropWhile (!isName ·)).reverse = before ++ [name] := by
    rw [hparts, List.reverse_append, List.reverse_cons, List.append_assoc,
      List.dropWhile_append_of_pos fun part hpart => ?_, List.singleton_append,
      List.dropWhile_cons_of_neg (by simp [hname])]
    · simp
    · simpa using hbehind part (List.mem_reverse.1 hpart)
  unfold withExtension
  simp only [hlast, hkept, List.dropLast_concat]
  split
  · exact .inr rfl
  · exact .inl rfl

/-- The way to the last name is the same. -/
theorem withExtension_names (hextension : extension ≠ "") (h : p.names = front ++ [name])
    (hup : name ≠ "..") :
    ((p.withExtension extension).names = front ++ [stem name ++ "." ++ extension] ∨
      (p.withExtension extension).names = front ++ [".."]) ∧
      (p.withExtension extension).isAbsolute = p.isAbsolute := by
  obtain ⟨before, behind, hparts, rfl, hname, hpath⟩ := withExtension_eq extension h hup
  have habsolute (last : String) : (⟨before ++ [last]⟩ : Path).isAbsolute = p.isAbsolute := by
    have hne : name ≠ "" := by
      rintro rfl
      cases hname
    cases before with
    | nil => simp [isAbsolute, hparts, hne]
    | cons first before => simp [isAbsolute, hparts]
  rcases hpath with hpath | hpath <;> rw [hpath] <;> refine ⟨?_, habsolute _⟩
  · exact .inl (by simp [names, isName_extended _ hextension])
  · exact .inr (by simp [names, show isName ".." = true by decide])

end Path

namespace FileSystem

variable {fs fs' : FileSystem} {p q : Path} {l d d' : Location} {name name' : String}
  {names more : List String}

/-- What leads on to something is a directory. -/
theorem walk_prefix (h : fs.walk p (names ++ more) = .ok (l, .directory)) :
    ∃ d, fs.walk p names = .ok (d, .directory) := by
  induction more using List.reverseRecOn generalizing l with
  | nil => exact ⟨l, by rwa [List.append_nil] at h⟩
  | append_singleton more name ih =>
    rw [← List.append_assoc] at h
    obtain ⟨d, hd, -⟩ := walk_concat_eq_ok h
    exact ih hd

/-- Where a path has a place for a file, the directories above it are there. -/
theorem Admits.above (h : fs.Admits p l) (hleads : q.Leads p) :
    ∃ d, fs.locate q = .ok (d, .directory) := by
  obtain ⟨d, name, hplace, -⟩ := h.place
  obtain ⟨hcheck, hwalk, -⟩ := place_eq_ok hplace
  obtain ⟨more, hmore⟩ := hleads.names_prefix (checkPath_eq_ok.1 hcheck).2.1 h.ending
  rw [← hmore] at hwalk
  obtain ⟨d', hd'⟩ := walk_prefix hwalk
  refine ⟨d', locate_directory (checkPath_of_leads hleads hcheck) ?_⟩
  rw [walk_congr hleads.isAbsolute_eq, hd']

theorem KeepsDirectories.locate (h : KeepsDirectories fs fs')
    (hlocate : fs.locate p = .ok (l, .directory)) : fs'.locate p = .ok (l, .directory) := by
  obtain ⟨hcheck, hwalk, -⟩ := locate_eq_ok hlocate
  exact locate_directory hcheck (h.walk hwalk)

theorem Grows.keepsDirectories (h : Grows fs fs') : KeepsDirectories fs fs' where
  working := h.working
  directory l hl := by
    rcases h.entry l with hsame | ⟨hnone, -⟩
    · rw [hsame, hl]
    · rw [hl] at hnone
      cases hnone

theorem locate_created (hplace : fs.place p = .ok (d, some name))
    (hnone : fs.find? (d.child name) = none) :
    (fs.put (d.child name) .directory).locate p = .ok (d.child name, .directory) := by
  obtain ⟨hcheck, hwalk, hnames, hup, hlong⟩ := place_eq_ok hplace
  have hkept : KeepsDirectories fs (fs.put (d.child name) .directory) :=
    .put (by rw [hnone]; nofun) _
  refine locate_directory hcheck ?_
  rw [hnames]
  exact walk_child (hkept.walk hwalk) hup hlong (find?_put_self (Location.child_ne_root d name))

/-- A path with another extension has its place beside that of the path. -/
theorem place_withExtension {extension : String} (hextension : extension ≠ "")
    (h : fs.place p = .ok (d, some name))
    (h' : fs.place (p.withExtension extension) = .ok (d', some name')) :
    d' = d ∧ name' = Path.stem name ++ "." ++ extension := by
  obtain ⟨-, hwalk, hnames, hup, -⟩ := place_eq_ok h
  obtain ⟨-, hwalk', hnames', hup', -⟩ := place_eq_ok h'
  obtain ⟨hother, habsolute⟩ := Path.withExtension_names hextension hnames hup
  rw [walk_congr habsolute] at hwalk'
  rcases hother with hother | hother <;> rw [hother, List.dropLast_concat] at hwalk' hnames'
  · cases hwalk.symm.trans hwalk'
    exact ⟨rfl, (List.cons.inj (List.append_cancel_left hnames')).1.symm⟩
  · exact absurd (List.cons.inj (List.append_cancel_left hnames')).1.symm hup'

end FileSystem

namespace FileOperation

variable {fs fs' : FileSystem} {p : Path} {m : Location}

/-- A directory that is ensured is there already, or is created, or else nothing is done. -/
theorem ensureDirectory_cases {result : Except IoError Unit}
    (h : exec (ensureDirectory p) fs = (result, fs')) :
    fs' = fs ∨ result = .ok () ∧ fs.createDirectory p = .ok fs' := by
  rw [exec_ensureDirectory] at h
  cases hcreate : fs.createDirectory p with
  | ok created =>
    rw [hcreate] at h
    cases h
    exact .inr ⟨rfl, rfl⟩
  | error e =>
    rw [hcreate] at h
    dsimp only at h
    split at h <;> exact .inl (Prod.mk.inj h).2.symm

theorem ensureDirectory_eq_error {e : IoError}
    (h : exec (ensureDirectory p) fs = (.error e, fs')) : fs' = fs :=
  (ensureDirectory_cases h).resolve_right fun hcreated => nomatch hcreated.1

/-- A directory that is created is where its path leads. -/
theorem created_of_ensureDirectory {result : Except IoError Unit}
    (h : exec (ensureDirectory p) fs = (result, fs')) (hm : fs'.find? m = some .directory) :
    fs.find? m = some .directory ∨ fs'.locate p = .ok (m, .directory) := by
  rcases ensureDirectory_cases h with rfl | ⟨-, hcreate⟩
  · exact .inl hm
  · obtain ⟨d, name, hplace, hnone, rfl⟩ := createDirectory_eq_ok hcreate
    by_cases hne : m = d.child name
    · rw [hne]
      exact .inr (locate_created hplace hnone)
    · rw [find?_put_of_ne hne] at hm
      exact .inl hm

/-- A directory is ensured at once, or what is missing above it is created first. -/
theorem createDirectories_cases {above : List Path} {result : Except IoError Unit}
    (h : exec (createDirectories (p :: above)) fs = (result, fs')) :
    exec (ensureDirectory p) fs = (result, fs') ∨
      exec (ensureDirectory p) fs = (.error .notFound, fs) ∧
        ((∃ e, result = .error e ∧ exec (createDirectories above) fs = (result, fs')) ∨
          ∃ fs₁, exec (createDirectories above) fs = (.ok (), fs₁) ∧
            exec (ensureDirectory p) fs₁ = (result, fs')) := by
  rcases exec_createDirectories_cases p above fs with ⟨fs₁, hmissing, hrun⟩ | ⟨-, hrun⟩
  · obtain rfl := ensureDirectory_eq_error hmissing
    refine .inr ⟨hmissing, ?_⟩
    rw [hrun, exec_bind] at h
    cases habove : exec (createDirectories above) fs₁ with
    | mk returned fs₂ =>
      rw [habove] at h
      cases returned with
      | error e =>
        cases h
        exact .inl ⟨e, rfl, rfl⟩
      | ok u => exact .inr ⟨fs₂, rfl, h⟩
  · rw [hrun] at h
    exact .inl h

/-- The directories that are created are where the given paths lead, be it that not all can be. -/
theorem created_of_createDirectories {above : List Path} {result : Except IoError Unit}
    (h : exec (createDirectories above) fs = (result, fs')) (hm : fs'.find? m = some .directory) :
    fs.find? m = some .directory ∨ ∃ q ∈ above, fs'.locate q = .ok (m, .directory) := by
  induction above generalizing fs fs' result with
  | nil =>
    cases h
    exact .inl hm
  | cons p above ih =>
    rcases createDirectories_cases h with hat | ⟨-, ⟨e, -, habove⟩ | ⟨fs₁, habove, hlast⟩⟩
    · rcases created_of_ensureDirectory hat hm with hold | hnew
      · exact .inl hold
      · exact .inr ⟨p, List.mem_cons_self, hnew⟩
    · rcases ih habove hm with hold | ⟨q, hq, hlocate⟩
      · exact .inl hold
      · exact .inr ⟨q, List.mem_cons_of_mem _ hq, hlocate⟩
    · have hgrows := grows_ensureDirectory p fs₁
      rw [hlast] at hgrows
      rcases created_of_ensureDirectory hlast hm with hold | hnew
      · rcases ih habove hold with hold | ⟨q, hq, hlocate⟩
        · exact .inl hold
        · exact .inr ⟨q, List.mem_cons_of_mem _ hq, hgrows.keepsDirectories.locate hlocate⟩
      · exact .inr ⟨p, List.mem_cons_self, hnew⟩

end FileOperation

namespace HistoryFile

/-- The name of the temporary file beside a history file of a name. -/
def temporaryName (name : String) : String := Path.stem name ++ "." ++ "tmp"

variable {file : HistoryFile} {fs fs' : FileSystem} {l m d : Location} {name : String}
  {entries : List String}

/-- The temporary file is beside the history file. -/
theorem temporary_beside (hplace : fs.place file.path = .ok (d, some name))
    (htemporary : fs.Admits file.temporary l) : l = d.child (temporaryName name) := by
  obtain ⟨d', name', hplace', rfl⟩ := htemporary.place
  obtain ⟨rfl, rfl⟩ := place_withExtension (by decide) hplace hplace'
  rfl

/-- What the append changes: the file in its place gets new contents, the one with the temporary
name beside it is gone, and the directories above the path are there. -/
structure Footprint (file : HistoryFile) (fs fs' : FileSystem) (d : Location) (name : String) :
    Prop where
  place : fs'.place file.path = .ok (d, some name)
  working : fs'.working = fs.working
  history : fs.find? (d.child name) ≠ some .directory ∧
    ∃ bytes, fs'.find? (d.child name) = some (.file bytes)
  temporary : fs.find? (d.child (temporaryName name)) ≠ some .directory ∧
    (temporaryName name ≠ name → fs'.find? (d.child (temporaryName name)) = none)
  above (q : Path) (h : q.Leads file.path) : ∃ m, fs'.locate q = .ok (m, .directory)
  /-- Elsewhere nothing changes, but a directory above the path may be new. -/
  others (m : Location) (hhistory : m ≠ d.child name)
    (htemporary : m ≠ d.child (temporaryName name)) : fs'.find? m = fs.find? m ∨
      fs.find? m = none ∧ fs'.find? m = some .directory ∧
        ∃ q, q.Leads file.path ∧ fs'.locate q = .ok (m, .directory)

theorem append_footprint (file : HistoryFile) (fs fs' : FileSystem) (entries : List String)
    (h : exec (file.append entries) fs = (.ok (), fs')) :
    (entries = [] → fs' = fs) ∧ (entries ≠ [] → ∃ d name, file.Footprint fs fs' d name) := by
  refine ⟨fun hnil => ?_, fun hentries => ?_⟩
  · rw [hnil, append_nil] at h
    exact (Prod.mk.inj h).2.symm
  obtain ⟨fs₁, stored, l, m, hcreate, -, hready, rfl⟩ := (append_iff hentries).1 h
  have hsame := hready.sameDirectories (stored ++ entries)
  have hgrows := grows_createDirectories file.path.above fs
  rw [hcreate] at hgrows
  obtain ⟨d, name, hplace, rfl⟩ := hready.path.place
  obtain rfl := temporary_beside hplace hready.temporary
  have hfree {l : Location} (h : fs₁.find? l ≠ some .directory) :
      fs.find? l ≠ some .directory := fun hl => h (hgrows.keepsDirectories.directory l hl)
  refine ⟨d, name, hsame.keeps.place hplace, hgrows.working,
    ⟨hfree hready.path.free, _, find?_put_self hready.path.ne_root⟩,
    ⟨hfree hready.temporary.free, fun hname => ?_⟩,
    fun q hq => (hready.path.of_same hsame).above hq, fun k hhistory htemporary => ?_⟩
  · have hne : d.child (temporaryName name) ≠ d.child name := fun heq =>
      hname (Location.child_inj.1 heq)
    rw [replaced, find?_put_of_ne hne, find?_remove_self hready.temporary.ne_root]
  · rw [replaced, find?_remove_put_of_ne htemporary hhistory]
    rcases hgrows.entry k with hk | ⟨hnone, hk⟩
    · exact .inl hk
    · refine .inr ⟨hnone, hk, ?_⟩
      rcases created_of_createDirectories hcreate hk with hold | ⟨q, hq, hlocate⟩
      · rw [hnone] at hold
        cases hold
      · obtain ⟨hcheck, -⟩ := place_eq_ok hplace
        exact ⟨q, Path.leads_of_mem_above (checkPath_eq_ok.1 hcheck).2.1 hready.path.ending hq,
          hsame.keeps.locate hlocate⟩

/-- The directory of the path is missing. -/
theorem nested_footprint : ∃ fs',
    exec ((HistoryFile.mk (.ofString "d/n") 3).append ["q."]) Sessions.disk = (.ok (), fs') ∧
      ∃ d name, (HistoryFile.mk (.ofString "d/n") 3).Footprint Sessions.disk fs' d name := by
  obtain ⟨fs', hrun⟩ : ∃ fs', exec ((HistoryFile.mk (.ofString "d/n") 3).append ["q."])
      Sessions.disk = (.ok (), fs') := ⟨_, exec_of_toOption (by decide +kernel)⟩
  exact ⟨fs', hrun, (append_footprint _ _ _ _ hrun).2 (by decide)⟩

/-- A disk with a file that has the temporary name beside the history file `h`. -/
def cluttered : FileSystem := Sessions.disk.put (Location.root.child "h.tmp") (.file "keep".toUTF8)

theorem cluttered_loses : ∃ fs',
    exec (Sessions.small.append ["q."]) cluttered = (.ok (), fs') ∧
      fs'.place Sessions.small.path = .ok (.root, some "h") ∧
      Location.root.child "h.tmp" ≠ Location.root.child "h" ∧
      cluttered.find? (Location.root.child "h.tmp") = some (.file "keep".toUTF8) ∧
      fs'.find? (Location.root.child "h.tmp") = none :=
  ⟨(exec (Sessions.small.append ["q."]) cluttered).2, exec_of_toOption (by decide +kernel),
    Sessions.eq_ok_of_toOption (by decide +kernel), by decide, by decide +kernel,
    by decide +kernel⟩

end HistoryFile

end LogicConsole
