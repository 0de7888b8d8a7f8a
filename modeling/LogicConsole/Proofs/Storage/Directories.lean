import LogicConsole.Proofs.Storage.Files
/-!
The directories a path leads through. To create them adds directories where nothing was, and changes
nothing where the path leads to a file already.
-/
namespace LogicConsole

namespace Path

theorem heads_concat (front : List String) (part : String) :
    heads (front ++ [part]) = heads front ++ [front ++ [part]] := by
  induction front with
  | nil => rfl
  | cons first front ih => simp [heads, ih]

/-- The nearest directory that parts lead through holds all the names among them. -/
theorem nearest_names (front : List String) :
    match ((heads front).filter leadsOn).getLast? with
    | none => front.filter isName = []
    | some parts => parts.filter isName = front.filter isName ∧ parts <+: front ∧
        leadsOn parts = true := by
  induction front using List.reverseRecOn with
  | nil => rfl
  | append_singleton front part ih =>
    rw [heads_concat, List.filter_append]
    cases hleads : leadsOn (front ++ [part]) with
    | true => simp [hleads]
    | false =>
      have hpart : isName part = false := by
        simp only [leadsOn, Bool.or_eq_false_iff] at hleads
        simpa using hleads.2
      have hnone : [front ++ [part]].filter leadsOn = [] := by simp [hleads]
      have hnames : (front ++ [part]).filter isName = front.filter isName := by simp [hpart]
      rw [hnone, List.append_nil, hnames]
      split at ih
      · exact ih
      · exact ⟨ih.1, ih.2.1.trans (List.prefix_append _ _), ih.2.2⟩

/-- The nearest directory leads through all the others. -/
theorem heads_nearest {front parts : List String}
    (h : ((heads front).filter leadsOn).getLast? = some parts) :
    (heads parts).filter leadsOn = (heads front).filter leadsOn := by
  induction front using List.reverseRecOn with
  | nil => cases h
  | append_singleton front part ih =>
    rw [heads_concat, List.filter_append] at h ⊢
    cases hleads : leadsOn (front ++ [part]) with
    | true =>
      obtain rfl : front ++ [part] = parts := by simpa [hleads] using h
      rw [heads_concat, List.filter_append]
    | false =>
      have hnone : [front ++ [part]].filter leadsOn = [] := by simp [hleads]
      rw [hnone, List.append_nil] at h ⊢
      exact ih h

/-- A path that ends in a name is made of what comes before and the name. -/
theorem parts_of_ending {p : Path} (hempty : p.isEmpty = false) (hending : p.ending = .name) :
    ∃ front last, p.parts = front ++ [last] ∧ isName last = true := by
  rcases List.eq_nil_or_concat p.parts with hnil | ⟨front, last, hparts⟩
  · simp [isEmpty, hnil] at hempty
  rw [List.concat_eq_append] at hparts
  refine ⟨front, last, hparts, ?_⟩
  by_cases hslash : last = ""
  · simp only [ending, hempty, hparts, hslash, List.getLast?_concat] at hending
    split at hending <;> cases hending
  · by_cases hdot : last = "."
    · simp [ending, hparts, hdot] at hending
    · simp [isName, hslash, hdot]

/-- Above a path that ends in a name are the directories that the parts before it lead through. -/
theorem above_eq {p : Path} {front : List String} {last : String}
    (hparts : p.parts = front ++ [last]) (hlast : isName last = true) :
    p.above = ((heads front).filter leadsOn).reverse.map Path.mk := by
  simp [above, hparts, heads_concat, leadsOn, hlast]

/-- A path that is continued is as good a path by itself, where it leads on. -/
structure Leads (q p : Path) : Prop where
  prefixes : ∃ rest, rest ≠ [] ∧ p.parts = q.parts ++ rest
  leadsOn : leadsOn q.parts = true

/-- The directory in which a path has its last name. -/
structure Parent (q p : Path) : Prop where
  leads : q.Leads p
  names : ∃ name, p.names = q.names ++ [name]
  above : p.above = q :: q.above

theorem parent_of_parts {p : Path} {front : List String} {last : String}
    (hparts : p.parts = front ++ [last]) (hlast : isName last = true) :
    p.above = [] ∨ ∃ q : Path, q.Parent p := by
  have hnearest := nearest_names front
  have habove := above_eq hparts hlast
  cases hheads : ((heads front).filter leadsOn).getLast? with
  | none =>
    rw [habove, List.getLast?_eq_none_iff.1 hheads]
    exact .inl rfl
  | some parts =>
    rw [hheads] at hnearest
    obtain ⟨hnames, ⟨rest, hfront⟩, hleads⟩ := hnearest
    have hsame := heads_nearest hheads
    obtain ⟨before, hbefore⟩ := List.getLast?_eq_some_iff.1 hheads
    refine .inr ⟨⟨parts⟩, ⟨⟨rest ++ [last], by simp, ?_⟩, hleads⟩, ⟨last, ?_⟩, ?_⟩
    · rw [hparts, ← hfront, List.append_assoc]
    · simp [names, hparts, hnames, hlast]
    · rw [habove, hbefore, List.reverse_concat, List.map_cons, Path.above, hsame, hbefore,
        List.reverse_concat, List.drop_succ_cons, List.drop_zero]

/-- A path that ends in a name leads through nothing, or through a directory that has all names but
the last. -/
theorem above_cases {p : Path} (hempty : p.isEmpty = false) (hending : p.ending = .name) :
    p.above = [] ∨ ∃ q : Path, q.Parent p := by
  obtain ⟨front, last, hparts, hlast⟩ := parts_of_ending hempty hending
  exact parent_of_parts hparts hlast

theorem Parent.above_cases {q p : Path} (h : q.Parent p) :
    q.above = [] ∨ ∃ q' : Path, q'.Parent q := by
  obtain hdot | hname := Bool.or_eq_true_iff.1 h.leads.leadsOn
  · rw [beq_iff_eq] at hdot
    rw [Path.above, hdot]
    exact .inl rfl
  · obtain ⟨last, hlast, hname⟩ := (Option.any_eq_true _ _).1 hname
    obtain ⟨front, hparts⟩ := List.getLast?_eq_some_iff.1 hlast
    exact parent_of_parts hparts hname

namespace Leads

variable {q p : Path}

theorem parts_ne_nil (h : Leads q p) : q.parts ≠ [] ∧ q.parts ≠ [""] := by
  constructor <;> intro hq <;> have hleads := h.leadsOn <;> rw [hq] at hleads <;>
    exact absurd hleads (by decide)

theorem isAbsolute_eq (h : Leads q p) : q.isAbsolute = p.isAbsolute := by
  obtain ⟨hnil, hroot⟩ := h.parts_ne_nil
  obtain ⟨rest, hrest, hp⟩ := h.prefixes
  obtain ⟨first, more, hq⟩ := List.exists_cons_of_ne_nil hnil
  have hlength : 0 < rest.length := List.length_pos_iff.2 hrest
  rw [hq] at hroot
  cases more with
  | nil =>
    have hfirst : first ≠ "" := fun h => hroot (by rw [h])
    simp [isAbsolute, hp, hq, hfirst]
  | cons second more => simp [isAbsolute, hp, hq]

theorem isEmpty_eq (h : Leads q p) : q.isEmpty = false := by
  obtain ⟨hnil, hroot⟩ := h.parts_ne_nil
  cases hempty : q.isEmpty with
  | false => rfl
  | true =>
    obtain ⟨hlength, hall⟩ := Bool.and_eq_true_iff.1 hempty
    match hq : q.parts with
    | [] => exact absurd hq hnil
    | [part] =>
      simp only [hq, List.all_cons, List.all_nil, Bool.and_true, String.isEmpty_iff] at hall
      exact absurd (hq.trans (by rw [hall])) hroot
    | _ :: _ :: _ => simp [hq] at hlength

theorem hasNul_of (h : Leads q p) (hp : p.hasNul = false) : q.hasNul = false := by
  obtain ⟨rest, -, hparts⟩ := h.prefixes
  simp only [hasNul, hparts, List.any_append, Bool.or_eq_false_iff] at hp
  exact hp.1

theorem text_size_le (h : Leads q p) : q.text.utf8ByteSize ≤ p.text.utf8ByteSize := by
  obtain ⟨rest, hrest, hparts⟩ := h.prefixes
  simp only [text, hparts]
  rw [String.intercalate_append_of_ne_nil h.parts_ne_nil.1 hrest]
  simp [String.utf8ByteSize_append, Nat.add_assoc]

end Leads

end Path

namespace FileSystem

variable {fs fs' : FileSystem} {p q : Path} {l d : Location} {entry : Entry} {names : List String}
  {bytes : ByteArray} {name : String}

theorem checkPath_eq_ok : checkPath p = .ok () ↔
    p.hasNul = false ∧ p.isEmpty = false ∧ p.text.utf8ByteSize ≤ maxPathBytes := by
  unfold checkPath
  cases p.hasNul with
  | true => exact ⟨nofun, nofun⟩
  | false =>
    cases p.isEmpty with
    | true => exact ⟨nofun, nofun⟩
    | false =>
      by_cases hlong : maxPathBytes < p.text.utf8ByteSize
      · simp only [Bool.false_eq_true, if_false, hlong, if_true]
        exact ⟨nofun, fun h => absurd hlong (Nat.not_lt.2 h.2.2)⟩
      · simp only [Bool.false_eq_true, if_false, hlong]
        exact ⟨fun _ => ⟨trivial, trivial, Nat.not_lt.1 hlong⟩, fun _ => rfl⟩

theorem checkPath_of_leads (h : q.Leads p) (hp : checkPath p = .ok ()) : checkPath q = .ok () := by
  obtain ⟨hnul, -, hsize⟩ := checkPath_eq_ok.1 hp
  exact checkPath_eq_ok.2 ⟨h.hasNul_of hnul, h.isEmpty_eq, Nat.le_trans h.text_size_le hsize⟩

theorem createDirectory_eq_ok (h : fs.createDirectory p = .ok fs') : ∃ d name,
    fs.place p = .ok (d, some name) ∧ fs.find? (d.child name) = none ∧
      fs' = fs.put (d.child name) .directory := by
  obtain ⟨⟨d, name⟩, hplace, h⟩ := bind_eq_ok.1 h
  cases name with
  | none => cases h
  | some name =>
    cases hfind : fs.find? (d.child name) with
    | none =>
      simp only [hfind] at h
      cases h
      exact ⟨d, name, hplace, hfind, rfl⟩
    | some found =>
      simp only [hfind] at h
      cases h

/-- What is there is not created. -/
theorem createDirectory_of_located (h : fs.locate p = .ok (l, entry)) :
    fs.createDirectory p ≠ .ok fs' := by
  intro hcreate
  obtain ⟨d, name, hplace, hnone, -⟩ := createDirectory_eq_ok hcreate
  obtain ⟨-, hparent, hnames, hup, -⟩ := place_eq_ok hplace
  obtain ⟨-, hwalk, -⟩ := locate_eq_ok h
  rw [hnames] at hwalk
  obtain ⟨d', hparent', ⟨rfl, -, -⟩ | ⟨-, -, -, hsome⟩⟩ := walk_concat_eq_ok hwalk
  · exact hup rfl
  · rw [hparent] at hparent'
    cases hparent'
    rw [hnone] at hsome
    cases hsome

/-- The way to a file leads through a directory that can be found by itself. -/
theorem locate_of_leads (hfile : fs.locate p = .ok (l, .file bytes)) (hleads : q.Leads p)
    (hnames : p.names = q.names ++ [name]) : ∃ d, fs.locate q = .ok (d, .directory) := by
  obtain ⟨hcheck, hwalk, -⟩ := locate_eq_ok hfile
  rw [hnames] at hwalk
  obtain ⟨d, hparent, -⟩ := walk_concat_eq_ok hwalk
  refine ⟨d, locate_directory (checkPath_of_leads hleads hcheck) ?_⟩
  rw [walk_congr hleads.isAbsolute_eq, hparent]

/-- One file system holds what another does, and directories where the other holds nothing. -/
structure Grows (fs fs' : FileSystem) : Prop where
  working : fs'.working = fs.working
  entry (l : Location) : fs'.find? l = fs.find? l ∨
    fs.find? l = none ∧ fs'.find? l = some .directory

namespace Grows

theorem refl (fs : FileSystem) : Grows fs fs := ⟨rfl, fun _ => .inl rfl⟩

theorem trans {fs'' : FileSystem} (h : Grows fs fs') (h' : Grows fs' fs'') : Grows fs fs'' where
  working := h'.working.trans h.working
  entry l := by
    rcases h.entry l with hl | ⟨hnone, hl⟩ <;> rcases h'.entry l with hl' | ⟨hnone', hl'⟩
    · exact .inl (hl'.trans hl)
    · exact .inr ⟨hl ▸ hnone', hl'⟩
    · exact .inr ⟨hnone, hl'.trans hl⟩
    · rw [hl] at hnone'
      cases hnone'

theorem put (h : fs.find? l = none) (hroot : l ≠ .root) : Grows fs (fs.put l .directory) where
  working := rfl
  entry m := by
    by_cases hm : m = l
    · subst hm
      exact .inr ⟨h, find?_put_self hroot⟩
    · exact .inl (find?_put_of_ne hm)

theorem file (h : Grows fs fs') (hfile : fs'.find? l = some (.file bytes)) :
    fs.find? l = some (.file bytes) := by
  rcases h.entry l with hl | ⟨-, hl⟩
  · rw [← hl, hfile]
  · rw [hl] at hfile
    cases hfile

end Grows

/-- Every entry is in a directory. -/
def Rooted (fs : FileSystem) : Prop :=
  ∀ l name, (fs.find? (l.child name)).isSome → fs.find? l = some .directory

/-- Where no name leads up, new directories open no way to what was there before. -/
theorem Grows.walk (h : Grows fs fs') (hrooted : fs.Rooted) (hup : ".." ∉ names)
    (hwalk : fs'.walk p names = .ok (l, entry)) (hfind : fs.find? l = some entry) :
    fs.walk p names = .ok (l, entry) := by
  induction names using List.reverseRecOn generalizing l entry with
  | nil =>
    have hstart : fs'.start p = fs.start p := by simp only [start, h.working]
    rw [walk_nil, hstart] at hwalk
    have hl : l = fs.start p := by
      cases hfound : fs'.find? (fs.start p) with
      | none =>
        rw [hfound] at hwalk
        cases hwalk
      | some found =>
        rw [hfound] at hwalk
        cases hwalk
        rfl
    rw [walk_nil, ← hl, hfind]
  | append_singleton names name ih =>
    obtain ⟨hnames, hname⟩ : ".." ∉ names ∧ name ≠ ".." := by
      simpa [eq_comm] using hup
    obtain ⟨d, hd, ⟨rfl, -, -⟩ | ⟨-, hlong, rfl, -⟩⟩ := walk_concat_eq_ok hwalk
    · exact absurd rfl hname
    · have hparent := hrooted d name (by rw [hfind]; rfl)
      exact walk_child (ih hnames hd hparent) hname hlong hfind

/-- What a walk leads to is there; a walk up is not checked. -/
theorem find?_of_walk (h : fs.walk p names = .ok (l, entry)) :
    fs.find? l = some entry ∨ entry = .directory ∧ ".." ∈ names := by
  rcases List.eq_nil_or_concat names with rfl | ⟨front, name, rfl⟩
  · rw [walk_nil] at h
    cases hfind : fs.find? (fs.start p) with
    | none =>
      rw [hfind] at h
      cases h
    | some found =>
      rw [hfind] at h
      cases h
      exact .inl hfind
  · rw [List.concat_eq_append] at h
    obtain ⟨d, -, ⟨rfl, -, hentry⟩ | ⟨-, -, rfl, hfind⟩⟩ := walk_concat_eq_ok h
    · exact .inr ⟨hentry, by simp⟩
    · exact .inl hfind

theorem find?_of_walk_file (h : fs.walk p names = .ok (l, .file bytes)) :
    fs.find? l = some (.file bytes) := by
  rcases find?_of_walk h with hfind | ⟨hdirectory, -⟩
  · exact hfind
  · cases hdirectory

theorem Grows.locate_file (h : Grows fs fs') (hrooted : fs.Rooted) (hup : ".." ∉ p.names)
    (hfile : fs'.locate p = .ok (l, .file bytes)) : fs.locate p = .ok (l, .file bytes) := by
  obtain ⟨hcheck, hwalk, hending | hending⟩ := locate_eq_ok hfile
  · cases hending
  · have hfind := h.file (find?_of_walk_file hwalk)
    exact FileSystem.locate_file hcheck (h.walk hrooted hup hwalk hfind) hending

end FileSystem

namespace FileOperation

variable {α β : Type} {fs fs' : FileSystem} {p : Path}

/-- What comes of work on a file system, and the file system it leaves behind. -/
def exec (op : FileOperation α) (fs : FileSystem) : Except IoError α × FileSystem := op.run.run fs

theorem exec_bind (op : FileOperation α) (next : α → FileOperation β) (fs : FileSystem) :
    exec (op >>= next) fs =
      match exec op fs with
      | (.ok a, fs) => exec (next a) fs
      | (.error e, fs) => (.error e, fs) := by
  simp only [exec, ExceptT.run, StateT.run, bind, ExceptT.bind, ExceptT.mk, StateT.bind]
  cases op fs with
  | mk result fs => cases result <;> rfl

theorem exec_bind_eq_ok {op : FileOperation α} {next : α → FileOperation β} {b : β}
    (h : exec (op >>= next) fs = (.ok b, fs')) :
    ∃ a fs₁, exec op fs = (.ok a, fs₁) ∧ exec (next a) fs₁ = (.ok b, fs') := by
  rw [exec_bind] at h
  cases hop : exec op fs with
  | mk result fs₁ =>
    rw [hop] at h
    cases result with
    | error e => cases h
    | ok a => exact ⟨a, fs₁, rfl, h⟩

theorem exec_bind_eq_error {op : FileOperation α} {next : α → FileOperation β} {e : IoError}
    (h : exec (op >>= next) fs = (.error e, fs')) : exec op fs = (.error e, fs') ∨
      ∃ a fs₁, exec op fs = (.ok a, fs₁) ∧ exec (next a) fs₁ = (.error e, fs') := by
  rw [exec_bind] at h
  cases hop : exec op fs with
  | mk result fs₁ =>
    rw [hop] at h
    cases result with
    | error e' =>
      cases h
      exact .inl rfl
    | ok a => exact .inr ⟨a, fs₁, rfl, h⟩

theorem exec_tryCatch (op : FileOperation α) (handler : IoError → FileOperation α)
    (fs : FileSystem) :
    exec (tryCatch op handler) fs = match exec op fs with
      | (.ok a, fs') => (.ok a, fs')
      | (.error e, fs') => exec (handler e) fs' := by
  simp only [exec, ExceptT.run, StateT.run, tryCatch, tryCatchThe, MonadExceptOf.tryCatch,
    ExceptT.tryCatch, ExceptT.mk, bind, StateT.bind]
  cases op fs with
  | mk result fs' => cases result <;> rfl

theorem exec_change (f : FileSystem → Except IoError FileSystem) (fs : FileSystem) :
    exec (change f) fs = match f fs with
      | .ok fs' => (.ok (), fs')
      | .error e => (.error e, fs) := rfl

theorem exec_change_eq_ok {f : FileSystem → Except IoError FileSystem}
    (h : exec (change f) fs = (.ok (), fs')) : f fs = .ok fs' := by
  rw [exec_change] at h
  cases hf : f fs with
  | error e =>
    rw [hf] at h
    cases h
  | ok fs₁ =>
    rw [hf] at h
    cases h
    rfl

theorem exec_change_eq_error {f : FileSystem → Except IoError FileSystem} {e : IoError}
    (h : exec (change f) fs = (.error e, fs')) : f fs = .error e ∧ fs' = fs := by
  rw [exec_change] at h
  cases hf : f fs with
  | error e' =>
    rw [hf] at h
    cases h
    exact ⟨rfl, rfl⟩
  | ok fs₁ =>
    rw [hf] at h
    cases h

theorem exec_ensureDirectory (p : Path) (fs : FileSystem) :
    exec (ensureDirectory p) fs = match fs.createDirectory p with
      | .ok fs' => (.ok (), fs')
      | .error e => if fs.isDirectory p then (.ok (), fs) else (.error e, fs) := by
  have hget : exec get fs = (.ok fs, fs) := rfl
  unfold ensureDirectory
  rw [exec_bind, exec_tryCatch, exec_bind, exec_change]
  cases fs.createDirectory p with
  | ok fs' => rfl
  | error e =>
    dsimp only
    rw [exec_bind, hget]
    dsimp only
    cases fs.isDirectory p <;> rfl

/-- Only where something above is missing is more done than to ensure the directory. -/
theorem exec_createDirectories_cases (p : Path) (above : List Path) (fs : FileSystem) :
    (∃ fs₁, exec (ensureDirectory p) fs = (.error .notFound, fs₁) ∧
      exec (createDirectories (p :: above)) fs =
        exec (createDirectories above >>= fun _ => ensureDirectory p) fs₁) ∨
      (exec (ensureDirectory p) fs).1 ≠ .error .notFound ∧
        exec (createDirectories (p :: above)) fs = exec (ensureDirectory p) fs := by
  rw [createDirectories, exec_tryCatch]
  cases exec (ensureDirectory p) fs with
  | mk result fs₁ =>
    by_cases hmissing : result = .error .notFound
    · subst hmissing
      exact .inl ⟨fs₁, rfl, rfl⟩
    · refine .inr ⟨hmissing, ?_⟩
      cases result with
      | ok u => rfl
      | error e => cases e <;> first | rfl | exact absurd rfl hmissing

theorem grows_ensureDirectory (p : Path) (fs : FileSystem) :
    fs.Grows (exec (ensureDirectory p) fs).2 := by
  rw [exec_ensureDirectory]
  cases hcreate : fs.createDirectory p with
  | ok fs' =>
    obtain ⟨d, name, -, hnone, rfl⟩ := FileSystem.createDirectory_eq_ok hcreate
    exact .put hnone (Location.child_ne_root d name)
  | error e =>
    dsimp only
    split <;> exact .refl fs

/-- Even where it fails, nothing but directories is created. -/
theorem grows_createDirectories (above : List Path) (fs : FileSystem) :
    fs.Grows (exec (createDirectories above) fs).2 := by
  induction above generalizing fs with
  | nil => exact .refl fs
  | cons p above ih =>
    have hfirst := grows_ensureDirectory p fs
    rcases exec_createDirectories_cases p above fs with ⟨fs₁, hmissing, hrun⟩ | ⟨-, hrun⟩
    · rw [hmissing] at hfirst
      rw [hrun, exec_bind]
      have hrest := hfirst.trans (ih fs₁)
      cases habove : exec (createDirectories above) fs₁ with
      | mk result fs₂ =>
        rw [habove] at hrest
        cases result with
        | ok u => exact hrest.trans (grows_ensureDirectory p fs₂)
        | error e => exact hrest
    · rwa [hrun]

/-- The directories on the way to a file are there. -/
theorem exec_createDirectories_of_file {l : Location} {bytes : ByteArray}
    (h : fs.locate p = .ok (l, .file bytes)) :
    exec (createDirectories p.above) fs = (.ok (), fs) := by
  obtain ⟨hcheck, -, hending | hending⟩ := FileSystem.locate_eq_ok h
  · cases hending
  rcases Path.above_cases (FileSystem.checkPath_eq_ok.1 hcheck).2.1 hending with
    hnone | ⟨q, hparent⟩
  · rw [hnone]
    rfl
  · obtain ⟨name, hnames⟩ := hparent.names
    obtain ⟨d, hd⟩ := FileSystem.locate_of_leads h hparent.leads hnames
    have hthere : exec (ensureDirectory q) fs = (.ok (), fs) := by
      rw [exec_ensureDirectory]
      cases hcreate : fs.createDirectory q with
      | ok fs' => exact absurd hcreate (FileSystem.createDirectory_of_located hd)
      | error e => simp [FileSystem.isDirectory, hd]
    rw [hparent.above]
    rcases exec_createDirectories_cases q q.above fs with ⟨fs₁, hmissing, -⟩ | ⟨-, hrun⟩
    · rw [hthere] at hmissing
      cases hmissing
    · rw [hrun, hthere]

end FileOperation

end LogicConsole
