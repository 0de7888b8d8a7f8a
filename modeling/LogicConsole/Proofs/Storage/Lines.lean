import LogicConsole.History.File
/-!
The text of a history file. Entries that are not empty are read back as they were written, one from
a line, whatever characters they hold; and what is kept of a history does not depend on the steps in
which it grew.
-/
namespace LogicConsole

namespace Text

/-- A text without line ends is the first line of what follows it. -/
theorem lines_append_newline {line : List Char} (h : ∀ c ∈ line, c ≠ '\n' ∧ c ≠ '\r')
    (rest : List Char) : lines (line ++ '\n' :: rest) = line :: lines rest := by
  induction line with
  | nil => rfl
  | cons c line ih =>
    obtain ⟨hfeed, hreturn⟩ := h c List.mem_cons_self
    have htail := ih fun c' hc' => h c' (List.mem_cons_of_mem _ hc')
    rw [List.cons_append, lines, htail]
    · exact fun h => hfeed h
    · exact fun _ h => absurd h hreturn

end Text

namespace History

theorem encode_ne_nil {entry : List Char} (h : entry ≠ []) : encode entry ≠ [] := by
  intro hnil
  have hdecode := decode_encode entry
  rw [hnil] at hdecode
  exact h hdecode.symm

/-- A written entry holds no line end. -/
theorem mem_encode {entry : List Char} {c : Char} (h : c ∈ encode entry) : c ≠ '\n' ∧ c ≠ '\r' := by
  fun_induction encode entry with
  | case1 => cases h
  | case5 c' rest h1 h2 h3 ih =>
    rcases List.mem_cons.1 h with rfl | h
    · exact ⟨h2, h3⟩
    · exact ih h
  | _ =>
    simp only [List.mem_cons] at h
    rcases h with rfl | rfl | h
    · decide
    · decide
    · rename_i ih
      exact ih h

theorem decode_ne_nil {line : List Char} (h : line ≠ []) : decode line ≠ [] := by
  fun_cases decode line <;> first | exact absurd rfl h | exact List.cons_ne_nil _ _

end History

namespace HistoryFile

/-- What is loaded holds no empty entry. -/
theorem entriesOf_ne_empty {text entry : String} (h : entry ∈ entriesOf text) : entry ≠ "" := by
  obtain ⟨line, hline, rfl⟩ := List.mem_map.1 h
  have hne : line ≠ [] := by simpa using (List.mem_filter.1 hline).2
  intro hempty
  exact History.decode_ne_nil hne (String.ofList_eq_empty_iff.1 hempty)

theorem lines_textOf (entries : List String) :
    Text.lines (textOf entries).toList = entries.map fun entry => History.encode entry.toList := by
  rw [textOf, String.toList_ofList]
  induction entries with
  | nil => rfl
  | cons entry entries ih =>
    rw [List.flatMap_cons, List.append_assoc, List.singleton_append,
      Text.lines_append_newline fun c hc => History.mem_encode hc, ih]
    rfl

theorem entriesOf_textOf {entries : List String} (h : ∀ entry ∈ entries, entry ≠ "") :
    entriesOf (textOf entries) = entries := by
  have hlines : (entries.map fun entry => History.encode entry.toList).filter (!·.isEmpty) =
      entries.map fun entry => History.encode entry.toList := by
    refine List.filter_eq_self.2 fun line hline => ?_
    obtain ⟨entry, hentry, rfl⟩ := List.mem_map.1 hline
    have hne : entry.toList ≠ [] := fun hnil => h entry hentry (String.toList_eq_nil_iff.1 hnil)
    simpa using History.encode_ne_nil hne
  rw [entriesOf, lines_textOf, hlines, List.map_map]
  refine (List.map_congr_left fun entry _ => ?_).trans (List.map_id entries)
  simp [History.decode_encode]

theorem mem_lastEntries {n : Nat} {entries : List String} {entry : String}
    (h : entry ∈ lastEntries n entries) : entry ∈ entries := List.mem_of_mem_drop h

/-- What was dropped before would be dropped later. -/
theorem lastEntries_append (n : Nat) (xs ys : List String) :
    lastEntries n (lastEntries n xs ++ ys) = lastEntries n (xs ++ ys) := by
  have hdrop : xs.drop (xs.length - n) ++ ys = (xs ++ ys).drop (xs.length - n) :=
    (List.drop_append_of_le_length (Nat.sub_le _ _)).symm
  unfold lastEntries
  rw [hdrop, List.drop_drop, List.length_drop, List.length_append]
  congr 1
  omega

end HistoryFile

end LogicConsole
