import LogicConsole.Proofs.Commands
import LogicConsole.Proofs.Entries
/-! The listing of the history read back. What it prints under a number is told by the text alone:
the line that bears the number, and the lines behind it that begin with blanks up to the same
column. No line of an entry can pass for the beginning of another one, so the listing tells the
entries. -/
namespace LogicConsole

open Operation

namespace Text

theorem not_mem_of_mem_splitOn {s piece : List Char} {c : Char} (h : piece ∈ s.splitOn c) :
    c ∉ piece := by
  induction s generalizing piece with
  | nil =>
    rw [List.splitOn_nil, List.mem_singleton] at h
    rw [h]
    exact List.not_mem_nil
  | cons d s ih =>
    rw [List.splitOn_cons_eq_if_modifyHead] at h
    split at h
    · rcases List.mem_cons.1 h with rfl | h
      · exact List.not_mem_nil
      · exact ih h
    · rename_i hd
      obtain ⟨first, rest, hpieces⟩ := List.exists_cons_of_ne_nil (List.splitOn_ne_nil c s)
      rw [hpieces, List.modifyHead_cons] at h
      rcases List.mem_cons.1 h with rfl | h
      · have hfirst : c ∉ first := ih (by simp [hpieces])
        have hcd : c ≠ d := fun heq => hd (by simp [heq])
        exact List.not_mem_cons_of_ne_of_not_mem hcd hfirst
      · exact ih (by simp [hpieces, h])

/-- The lines of a text without carriage returns that does not end in a line feed are what stands
between its line feeds. -/
theorem lines_eq_splitOn {s : List Char} (hne : s ≠ []) (hreturn : '\r' ∉ s)
    (hend : s.getLast? ≠ some '\n') : lines s = s.splitOn '\n' := by
  induction s with
  | nil => exact absurd rfl hne
  | cons c rest ih =>
    have hc : c ≠ '\r' := (List.ne_of_not_mem_cons hreturn).symm
    rw [List.splitOn_cons_eq_if_modifyHead]
    by_cases hrest : rest = []
    · subst hrest
      have hfeed : c ≠ '\n' := fun h => hend (congrArg some h)
      simp [lines, hfeed]
    · have hlast : rest.getLast? ≠ some '\n' := by
        rwa [List.getLast?_cons_of_ne_nil hrest] at hend
      have htail := ih hrest (fun h => hreturn (List.mem_cons_of_mem c h)) hlast
      by_cases hfeed : c = '\n'
      · subst hfeed
        simp [htail]
      · obtain ⟨line, more, hpieces⟩ := List.exists_cons_of_ne_nil (List.splitOn_ne_nil '\n' rest)
        rw [if_neg (by simpa using hfeed), hpieces, List.modifyHead_cons, lines, htail, hpieces]
        · exact hfeed
        · exact fun _ h => absurd h hc

end Text

namespace History

/-- What queries that are entered one after the other make of an empty history. -/
def ofQueries (queries : List String) : History := queries.foldl (fun h query => h.record query) {}

def Recorded (h : History) : Prop := ∃ queries, h.entries = (ofQueries queries).entries

def ReturnFree (h : History) : Prop := ∀ entry ∈ h.entries, '\r' ∉ entry.toList

instance (h : History) : Decidable h.ReturnFree :=
  inferInstanceAs (Decidable (∀ entry ∈ h.entries, '\r' ∉ entry.toList))

/-- The column in which the first entry begins: behind blanks, one digit and two blanks more. -/
def column (text : String) : Nat := (text.toList.takeWhile (· == ' ')).length + 3

/-- A number behind so many blanks, with two blanks behind it. -/
def label (blanks n : Nat) : List Char :=
  List.replicate blanks ' ' ++ Nat.toDigits 10 n ++ [' ', ' ']

def margin (width : Nat) : List Char := List.replicate width ' '

/-- Under `n` there stands this entry: its first line begins in the column, behind the number, and
its other lines, which are those that follow without a number, begin in the same column. -/
def PrintsIn (column : Nat) (printed : List (List Char)) (n : Nat) (entry : String) : Prop :=
  ∃ blanks before first after, printed = before ++ (label blanks n ++ first) :: after ∧
    (label blanks n).length = column ∧
    entry.toList = ['\n'].intercalate
      (first :: (after.takeWhile (margin column).isPrefixOf).map (List.drop column))

/-- What a text prints under a number. -/
def Prints (text : String) : Nat → String → Prop :=
  PrintsIn (column text) (text.toList.splitOn '\n')

variable {k n w c blanks : Nat} {first : List Char} {rest after : List (List Char)}
  {entry : String} {entries : List String}

theorem mem_label {ch : Char} (h : ch ∈ label blanks n) : ch = ' ' ∨ ch.isDigit = true := by
  simp only [label, List.mem_append, List.mem_replicate, List.mem_cons, List.not_mem_nil,
    or_false, or_self] at h
  rcases h with (⟨-, rfl⟩ | hdigit) | rfl
  · exact .inl rfl
  · exact .inr (Nat.isDigit_of_mem_toDigits (by omega) (by omega) hdigit)
  · exact .inl rfl

theorem filter_label (blanks n : Nat) :
    (label blanks n).filter (fun c => c != ' ') = Nat.toDigits 10 n := by
  have hdigits : (Nat.toDigits 10 n).filter (fun c => c != ' ') = Nat.toDigits 10 n := by
    refine List.filter_eq_self.2 fun c hc => ?_
    have hdigit := Nat.isDigit_of_mem_toDigits (by omega) (by omega) hc
    rw [bne_iff_ne]
    rintro rfl
    cases hdigit
  simp [label, hdigits]

/-- A label tells its number. -/
theorem label_inj {blanks' n' : Nat} (h : label blanks n = label blanks' n') : n = n' := by
  have hdigits : Nat.toDigits 10 n = Nat.toDigits 10 n' := by
    rw [← filter_label blanks n, h, filter_label]
  rw [← Nat.ofDigitChars_ten_toDigits (n := n), hdigits, Nat.ofDigitChars_ten_toDigits]

/-- A line with a number is none of those that are indented. -/
theorem not_margin_label (hlength : (label blanks n).length = c) (first : List Char) :
    (margin c).isPrefixOf (label blanks n ++ first) = false := by
  rw [Bool.eq_false_iff, ne_eq, List.isPrefixOf_iff_prefix]
  rintro ⟨tail, htail⟩
  have hsame : margin c = label blanks n :=
    (List.append_inj htail (by rw [margin, List.length_replicate, hlength])).1
  have hnone : Nat.toDigits 10 n = [] := by
    rw [← filter_label blanks n, ← hsame, margin, List.filter_replicate_of_neg (by simp)]
  exact Nat.toDigits_ne_nil hnone

/-- Behind the lines that are indented the first one is not. -/
def Unindented (c : Nat) (after : List (List Char)) : Prop :=
  ∀ line ∈ after.head?, (margin c).isPrefixOf line = false

/-- The indented lines are those up to the next number. -/
theorem takeWhile_margin (hafter : Unindented c after) :
    (rest.map (margin c ++ ·) ++ after).takeWhile (margin c).isPrefixOf =
      rest.map (margin c ++ ·) := by
  rw [List.takeWhile_append_of_pos]
  · cases after with
    | nil => simp
    | cons line after => simp [hafter line rfl]
  · intro line hline
    obtain ⟨line, -, rfl⟩ := List.mem_map.1 hline
    exact List.isPrefixOf_iff_prefix.2 (List.prefix_append _ _)

theorem map_drop_margin (rest : List (List Char)) :
    (rest.map (margin c ++ ·)).map (List.drop c) = rest := by
  rw [List.map_map]
  refine List.map_id'' (fun line => ?_) rest
  simp [margin]

/-- In front of other entries one more is printed under its own number. -/
theorem printsIn_cons (hlength : (label blanks k).length = c) (hafter : Unindented c after) :
    PrintsIn c ((label blanks k ++ first) :: (rest.map (margin c ++ ·) ++ after)) n entry ↔
      (n = k ∧ entry.toList = ['\n'].intercalate (first :: rest)) ∨ PrintsIn c after n entry := by
  constructor
  · rintro ⟨blanks', before, first', after', hprinted, hlength', hentry⟩
    cases before with
    | nil =>
      obtain ⟨hline, rfl⟩ := List.cons.inj hprinted
      obtain ⟨hlabel, rfl⟩ := List.append_inj hline (by rw [hlength, hlength'])
      rw [takeWhile_margin hafter, map_drop_margin] at hentry
      exact .inl ⟨(label_inj hlabel).symm, hentry⟩
    | cons line before =>
      obtain ⟨-, htail⟩ := List.cons.inj hprinted
      rcases List.append_eq_append_iff.1 htail with ⟨between, -, rfl⟩ | ⟨between, hrest, hafter'⟩
      · exact .inr ⟨blanks', between, first', after', rfl, hlength', hentry⟩
      cases between with
      | nil => exact .inr ⟨blanks', [], first', after', hafter'.symm, hlength', hentry⟩
      | cons line' between =>
        -- A line with a number would be indented.
        obtain ⟨rfl, -⟩ := List.cons.inj hafter'
        have hmem : label blanks' n ++ first' ∈ rest.map (margin c ++ ·) := by simp [hrest]
        obtain ⟨line', -, hline'⟩ := List.mem_map.1 hmem
        have hnumber := not_margin_label hlength' first'
        rw [← hline', List.isPrefixOf_iff_prefix.2 (List.prefix_append _ _)] at hnumber
        cases hnumber
  · rintro (⟨rfl, hentry⟩ | ⟨blanks', before, first', after', rfl, hlength', hentry⟩)
    · refine ⟨blanks, [], first, _, rfl, hlength, ?_⟩
      rw [takeWhile_margin hafter, map_drop_margin, hentry]
    · exact ⟨blanks', (label blanks k ++ first) :: (rest.map (margin c ++ ·) ++ before), first',
        after', by simp, hlength', hentry⟩

/-- Entries numbered from `k` on, as the listing shows them. -/
def listingFrom (width : Nat) : Nat → List String → List (List Char)
  | _, [] => []
  | k, entry :: rest => listingEntry width k entry ++ listingFrom width (k + 1) rest

theorem listingLines_eq (entries : List String) :
    listingLines entries = listingFrom (digits entries.length).length 1 entries := by
  have hfrom (width k : Nat) (entries : List String) :
      (entries.mapIdx fun i entry => listingEntry width (k + i) entry).flatten =
        listingFrom width k entries := by
    induction entries generalizing k with
    | nil => rfl
    | cons entry entries ih =>
      rw [List.mapIdx_cons, List.flatten_cons, listingFrom, ← ih]
      simp only [Nat.add_zero, Nat.add_assoc, Nat.add_comm 1]
  rw [← hfrom]
  simp only [listingLines, Nat.add_comm 1]

/-- Text of which the listing shows every line. -/
structure Plain (entry : String) : Prop where
  ne_nil : entry.toList ≠ []
  return_free : '\r' ∉ entry.toList
  ended : entry.toList.getLast? ≠ some '\n'

/-- An entry that can be shown is shown line by line. -/
theorem Plain.listingEntry (h : Plain entry) (w n : Nat) :
    ∃ first rest, History.listingEntry w n entry =
        (label (w - (digits n).length) n ++ first) :: rest.map (margin (w + 2) ++ ·) ∧
      entry.toList = ['\n'].intercalate (first :: rest) ∧
      ∀ line ∈ first :: rest, '\n' ∉ line := by
  have hlines := Text.lines_eq_splitOn h.ne_nil h.return_free h.ended
  obtain ⟨first, rest, hpieces⟩ :=
    List.exists_cons_of_ne_nil (List.splitOn_ne_nil '\n' entry.toList)
  refine ⟨first, rest, ?_, ?_, fun line hline => ?_⟩
  · rw [History.listingEntry, hlines, hpieces]
    simp [listingLine, label, margin, digits, List.replicate_add]
  · rw [← hpieces, List.intercalate_splitOn]
  · rw [← hpieces] at hline
    exact Text.not_mem_of_mem_splitOn hline

theorem length_label (hfit : (digits n).length ≤ w) :
    (label (w - (digits n).length) n).length = w + 2 := by
  have hdigits : (Nat.toDigits 10 n).length = (digits n).length := rfl
  simp only [label, List.length_append, List.length_replicate, List.length_cons, List.length_nil,
    hdigits]
  omega

theorem unindented_listingFrom (hplain : ∀ entry ∈ entries, Plain entry)
    (hfit : ∀ i < entries.length, (digits (k + i)).length ≤ w) :
    Unindented (w + 2) (listingFrom w k entries) := by
  cases entries with
  | nil => exact fun line hline => by cases hline
  | cons entry entries =>
    obtain ⟨first, rest, hshown, -, -⟩ := (hplain entry List.mem_cons_self).listingEntry w k
    intro line hline
    rw [listingFrom, hshown] at hline
    obtain rfl := Option.some.inj hline
    exact not_margin_label (length_label (hfit 0 (Nat.zero_lt_succ _))) first

/-- Entries that are shown from `k` on are printed each under its own number. -/
theorem printsIn_listingFrom (hplain : ∀ entry ∈ entries, Plain entry)
    (hfit : ∀ i < entries.length, (digits (k + i)).length ≤ w) :
    PrintsIn (w + 2) (listingFrom w k entries) n entry ↔
      ∃ i, n = k + i ∧ entries[i]? = some entry := by
  induction entries generalizing k with
  | nil =>
    constructor
    · rintro ⟨blanks, before, first, after, hprinted, -⟩
      cases before <;> cases hprinted
    · rintro ⟨i, -, hentry⟩
      cases hentry
  | cons head tail ih =>
    have htail : ∀ entry ∈ tail, Plain entry := fun entry h => hplain entry (.tail head h)
    have hfits : ∀ i < tail.length, (digits (k + 1 + i)).length ≤ w := by
      intro i hi
      rw [Nat.add_assoc, Nat.add_comm 1]
      exact hfit (i + 1) (Nat.succ_lt_succ hi)
    obtain ⟨first, rest, hshown, hjoined, -⟩ := (hplain head List.mem_cons_self).listingEntry w k
    have hlength : (label (w - (digits k).length) k).length = w + 2 :=
      length_label (hfit 0 (Nat.zero_lt_succ _))
    rw [listingFrom, hshown, List.cons_append,
      printsIn_cons hlength (unindented_listingFrom htail hfits), ← hjoined, String.toList_inj,
      ih htail hfits]
    constructor
    · rintro (⟨rfl, rfl⟩ | ⟨i, rfl, hentry⟩)
      · exact ⟨0, rfl, rfl⟩
      · exact ⟨i + 1, by omega, hentry⟩
    · rintro ⟨i, rfl, hentry⟩
      cases i with
      | zero => exact .inl ⟨rfl, (Option.some.inj hentry).symm⟩
      | succ i => exact .inr ⟨i, by omega, hentry⟩

theorem newline_not_mem_listingFrom (hplain : ∀ entry ∈ entries, Plain entry) {line : List Char}
    (hline : line ∈ listingFrom w k entries) : '\n' ∉ line := by
  have hlabel (blanks n : Nat) : '\n' ∉ label blanks n := by
    intro hmem
    rcases mem_label hmem with h | h <;> cases h
  have hmargin : '\n' ∉ margin (w + 2) := by
    intro hmem
    cases (List.mem_replicate.1 hmem).2
  induction entries generalizing k with
  | nil => cases hline
  | cons head tail ih =>
    obtain ⟨first, rest, hshown, -, hfree⟩ := (hplain head List.mem_cons_self).listingEntry w k
    rw [listingFrom, hshown] at hline
    rcases List.mem_append.1 hline with hline | hline
    · rcases List.mem_cons.1 hline with rfl | hline
      · exact List.not_mem_append (hlabel _ k) (hfree first List.mem_cons_self)
      · obtain ⟨line, hrest, rfl⟩ := List.mem_map.1 hline
        exact List.not_mem_append hmargin (hfree line (List.mem_cons_of_mem _ hrest))
    · exact ih (fun entry h => hplain entry (.tail head h)) hline

/-- The digits of a number up to another one fit where that one does. -/
theorem length_digits_mono {m : Nat} (h : n ≤ m) : (digits n).length ≤ (digits m).length := by
  have hpos : 0 < (digits m).length := Nat.length_toDigits_pos
  have hlt : m < 10 ^ (digits m).length :=
    (Nat.length_toDigits_le_iff (by omega) hpos).1 le_rfl
  exact (Nat.length_toDigits_le_iff (by omega) hpos).2 (by omega)

theorem isPrefix_intercalate (line : List Char) (more : List (List Char)) :
    line <+: ['\n'].intercalate (line :: more) := by
  cases more with
  | nil => simp
  | cons next more => simp [List.intercalate_cons_cons]

/-- The text of a listing that shows at least one entry. -/
theorem listing_lines {h : History} (hne : h.entries ≠ [])
    (hplain : ∀ entry ∈ h.entries, Plain entry) :
    h.listing.toList.splitOn '\n' = listingFrom (digits h.entries.length).length 1 h.entries ∧
      column h.listing = (digits h.entries.length).length + 2 := by
  have htext : h.listing.toList =
      ['\n'].intercalate (listingFrom (digits h.entries.length).length 1 h.entries) := by
    rw [listing, if_neg (by simpa using hne), String.toList_ofList, listingLines_eq]
  obtain ⟨head, tail, hentries⟩ := List.exists_cons_of_ne_nil hne
  generalize hw : (digits h.entries.length).length = w at htext ⊢
  have hpos : 0 < w := by
    rw [← hw]
    exact Nat.length_toDigits_pos
  obtain ⟨first, rest, hshown, -, -⟩ := (hplain head (by simp [hentries])).listingEntry w 1
  have hlines : listingFrom w 1 h.entries = (label (w - 1) 1 ++ first) ::
      (rest.map (margin (w + 2) ++ ·) ++ listingFrom w 2 tail) := by
    rw [hentries, listingFrom, hshown]
    rfl
  constructor
  · rw [htext, List.splitOn_intercalate]
    · exact fun line => newline_not_mem_listingFrom hplain
    · simp [hlines]
  · obtain ⟨behind, hbehind⟩ := isPrefix_intercalate (label (w - 1) 1 ++ first)
      (rest.map (margin (w + 2) ++ ·) ++ listingFrom w 2 tail)
    rw [hlines, ← hbehind] at htext
    have hone : Nat.toDigits 10 1 = ['1'] := rfl
    rw [column, htext]
    simp [label, hone]
    omega

/-- The notice that there are no entries is not taken for one. -/
theorem not_prints_notice : ¬ Prints "No queries yet." n entry := by
  rintro ⟨blanks, before, first, after, hprinted, hlength, -⟩
  have hnotice : "No queries yet.".toList.splitOn '\n' = ["No queries yet.".toList] :=
    List.splitOn_eq_singleton (by decide)
  rw [hnotice] at hprinted
  cases before with
  | nil =>
    obtain ⟨hline, -⟩ := List.cons.inj hprinted
    have hne : label blanks n ≠ [] := by simp [label]
    obtain ⟨ch, rest, hlabel⟩ := List.exists_cons_of_ne_nil hne
    rw [hlabel] at hline
    obtain rfl : 'N' = ch := (List.cons.inj hline).1
    have hmem : 'N' ∈ label blanks n := by
      rw [hlabel]
      exact List.mem_cons_self
    rcases mem_label hmem with h | h <;> cases h
  | cons line before => simp at hprinted

theorem get?_eq_some_iff {h : History} :
    h.get? n = some entry ↔ ∃ i, n = 1 + i ∧ h.entries[i]? = some entry := by
  cases n with
  | zero =>
    constructor
    · intro hget
      cases hget
    · rintro ⟨i, hn, -⟩
      omega
  | succ n =>
    constructor
    · exact fun hget => ⟨n, Nat.add_comm n 1, hget⟩
    · rintro ⟨i, hn, hentry⟩
      obtain rfl : n = i := by omega
      exact hentry

/-- The listing prints each entry under its own number, and nothing else under any. -/
theorem prints_listing_iff {h : History} (hplain : ∀ entry ∈ h.entries, Plain entry) :
    Prints h.listing n entry ↔ h.get? n = some entry := by
  rw [get?_eq_some_iff]
  by_cases hne : h.entries = []
  · rw [listing, hne]
    constructor
    · exact fun hprints => absurd hprints not_prints_notice
    · rintro ⟨i, -, hentry⟩
      cases hentry
  · obtain ⟨hlines, hcolumn⟩ := listing_lines hne hplain
    rw [Prints, hlines, hcolumn]
    exact printsIn_listingFrom hplain fun i hi => length_digits_mono (by omega)

/-- A number keeps its entry when others come behind it. -/
theorem get?_of_prefix {h h' : History} (hbegins : h.entries <+: h'.entries)
    (hget : h.get? n = some entry) : h'.get? n = some entry := by
  obtain ⟨i, hn, hentry⟩ := get?_eq_some_iff.1 hget
  obtain ⟨later, hlater⟩ := hbegins
  refine get?_eq_some_iff.2 ⟨i, hn, ?_⟩
  rw [← hlater, List.getElem?_append_left (List.getElem?_eq_some_iff.1 hentry).1, hentry]

theorem Canonical.record {h : History} (hh : h.Canonical) (query : String) :
    (h.record query).Canonical := by
  unfold History.record
  split
  · rename_i entry hentry
    exact hh.add hentry
  · exact hh

theorem Recorded.canonical {h : History} (hrecorded : h.Recorded) : h.Canonical := by
  obtain ⟨queries, hqueries⟩ := hrecorded
  have hfold (h : History) (hh : h.Canonical) :
      (queries.foldl (fun h query => h.record query) h).Canonical := by
    clear hqueries
    induction queries generalizing h with
    | nil => exact hh
    | cons query queries ih => exact ih (h.record query) (hh.record query)
  have hempty : Canonical {} := fun entry hentry => by cases hentry
  intro entry hentry
  rw [hqueries] at hentry
  exact hfold {} hempty entry hentry

theorem Recorded.plain {h : History} (hrecorded : h.Recorded) (hreturn : h.ReturnFree) :
    ∀ entry ∈ h.entries, Plain entry := by
  intro entry hentry
  obtain ⟨hne, hend⟩ := canonical_entry (hrecorded.canonical entry hentry)
  refine ⟨fun h => hne (String.toList_eq_nil_iff.1 h), hreturn entry hentry, fun hlast => ?_⟩
  exact (hend '\n' hlast).2 rfl

end History

/-- The listing of a history is faithful: no other history has the same one, and under each number
it prints the entry of that number, which is the entry that a command to run it again runs. -/
theorem listing_faithful {h : History} (hrecorded : h.Recorded) (hreturn : h.ReturnFree) :
    (∀ h' : History, h'.Recorded → h'.ReturnFree → h'.listing = h.listing →
        h'.entries = h.entries) ∧
      ∀ n entry, (History.Prints h.listing n entry ↔ h.get? n = some entry) ∧
        (History.Prints h.listing n entry →
          ∀ (ε τ κ ο : Type) [Engine ε τ] [Console κ] [Output ο] (s : Session ε κ ο),
            h.entries <+: s.dialogue.history.entries →
            ∀ query fuel, MetaCommand.parse query = some (.rerun n) →
              s.RunsAgain entry fuel (exec (Session.execute query fuel) s)) := by
  have hprints (n : Nat) (entry : String) :
      History.Prints h.listing n entry ↔ h.get? n = some entry :=
    History.prints_listing_iff (hrecorded.plain hreturn)
  refine ⟨fun h' hrecorded' hreturn' hlisting => ?_, fun n entry => ⟨hprints n entry, ?_⟩⟩
  · have hsame (i : Nat) (entry : String) :
        h'.entries[i]? = some entry ↔ h.entries[i]? = some entry := by
      have hprints' : History.Prints h'.listing (i + 1) entry ↔ h'.get? (i + 1) = some entry :=
        History.prints_listing_iff (hrecorded'.plain hreturn')
      rw [hlisting, hprints] at hprints'
      exact hprints'.symm
    exact List.ext_getElem? fun i => Option.ext fun entry => hsame i entry
  · intro hprinted ε τ κ ο _ _ _ s hbegins query fuel hquery
    have hget := History.get?_of_prefix hbegins ((hprints n entry).1 hprinted)
    exact Session.runsAgain_execute hquery hget fuel

/-- An entry with a line that looks like the next number, and one that begins with an empty line,
are told apart all the same. -/
theorem numbered_line_is_no_entry :
    let h : History := { entries := ["p.\n2  q.", "\nq."] }
    h.Recorded ∧ h.ReturnFree ∧ h.listing = "1  p.\n   2  q.\n2  \n   q." ∧
      History.Prints h.listing 2 "\nq." ∧ ¬ History.Prints h.listing 2 "q." := by
  intro h
  have hrecorded : h.Recorded := ⟨["p.\n2  q.\n", "\nq.\r\n"], by decide⟩
  have hreturn : h.ReturnFree := by decide
  have hprints := (listing_faithful hrecorded hreturn).2
  refine ⟨hrecorded, hreturn, by decide, (hprints 2 _).1.2 rfl, fun hprinted => ?_⟩
  have hget := (hprints 2 _).1.1 hprinted
  exact absurd hget (by decide)

end LogicConsole
