import LogicConsole.Proofs.Accumulation
import LogicConsole.Proofs.Facts.Wording
import LogicConsole.Proofs.Forwarding
import Mathlib.Data.Nat.Digits.Defs
/-! Which queries the console answers itself, told by the lines that were typed. A command is the
last line alone: it begins with an exclamation mark, and only blank lines may come before it. Every
other query goes to the engine as it was typed. -/
namespace LogicConsole

open Operation
open Term (IsSpace)

namespace Text

theorem dropEnd_append_of_mem {p : Char → Bool} (s : List Char) {t : List Char} {c : Char}
    (hc : c ∈ t) (h : p c = false) : dropEnd p (s ++ t) = s ++ dropEnd p t := by
  have hne : (t.reverse.dropWhile p).isEmpty = false := by
    have hkept := dropEnd_ne_nil hc h
    simpa [dropEnd] using hkept
  simp [dropEnd, List.dropWhile_append, hne]

theorem trimStart_append_of_mem {s : List Char} (t : List Char) {c : Char} (hc : c ∈ s)
    (h : isBlank c = false) : trimStart (s ++ t) = trimStart s ++ t := by
  have hne : (s.dropWhile isBlank).isEmpty = false := by
    rw [List.isEmpty_eq_false_iff, ne_eq, List.dropWhile_eq_nil_iff]
    intro hall
    have hblank := hall c hc
    rw [h] at hblank
    cases hblank
  simp [trimStart, List.dropWhile_append, hne]

theorem isSpace_newline : IsSpace ['\n'] := by
  intro c hc
  rw [List.mem_singleton.1 hc]
  rfl

theorem exists_solid {s : List Char} (h : ¬ IsSpace s) : ∃ c ∈ s, isBlank c = false := by
  simpa [IsSpace] using h

/-- Blanks behind a text are trimmed off. -/
theorem trim_append_space (s : List Char) {after : List Char} (hafter : IsSpace after) :
    trim (s ++ after) = trim s := by
  obtain ⟨hbegin, hend, front, back, hfront, hback, hs⟩ := trim_eq_iff.1 (rfl : trim s = trim s)
  refine trim_eq_iff.2 ⟨hbegin, hend, front, back ++ after, hfront, ?_, ?_⟩
  · intro c hc
    rcases List.mem_append.1 hc with hc | hc
    · exact hback c hc
    · exact hafter c hc
  · conv_lhs => rw [hs]
    simp only [List.append_assoc]

/-- The number that digits spell. -/
def numberOf (digits : List Char) : Nat :=
  Nat.ofDigits 10 (digits.map fun c => c.toNat - '0'.toNat).reverse

/-- The digits of a number below 2^64. Leading zeros are allowed. -/
structure IsWord64 (digits : List Char) (n : Nat) : Prop where
  ne_nil : digits ≠ []
  digit : ∀ c ∈ digits, '0' ≤ c ∧ c ≤ '9'
  value : numberOf digits = n
  small : n < 2 ^ 64

theorem decimalValue_eq (digits : List Char) : decimalValue digits = numberOf digits := by
  rw [decimalValue, valueOf, numberOf, Nat.ofDigits_eq_foldr, List.foldr_reverse]
  congr 1
  funext n d
  simp [Nat.add_comm]

theorem isBlank_of_digit {c : Char} (hlow : '0' ≤ c) (hhigh : c ≤ '9') : isBlank c = false := by
  have hlower : 48 ≤ c.toNat := hlow
  have hupper : c.toNat ≤ 57 := hhigh
  simp only [isBlank, Bool.or_eq_false_iff, Bool.and_eq_false_iff, decide_eq_false_iff_not,
    beq_eq_false_iff_ne]
  omega

theorem readWord64_eq_some_iff {s : List Char} {n : Nat} :
    readWord64 s = some n ↔ IsWord64 (dropPlus s) n := by
  have hdigit : (dropPlus s).all isAsciiDigit = true ↔ ∀ c ∈ dropPlus s, '0' ≤ c ∧ c ≤ '9' := by
    simp [isAsciiDigit]
  have hsize : UInt64.size = 2 ^ 64 := rfl
  rw [readWord64, decimalValue_eq, hsize]
  constructor
  · intro h
    split at h
    · cases h
    · rename_i hdigits
      simp only [Bool.or_eq_true, List.isEmpty_iff, Bool.not_eq_true', not_or,
        Bool.not_eq_false] at hdigits
      split at h
      · rename_i hsmall
        obtain rfl := Option.some.inj h
        exact ⟨hdigits.1, hdigit.1 hdigits.2, rfl, hsmall⟩
      · cases h
  · rintro ⟨hne, hdigits, rfl, hsmall⟩
    rw [if_neg, if_pos hsmall]
    simp [hdigit.2 hdigits, hne]

end Text

namespace MetaCommand

open Text

/-- How a command is spelled, without the blanks behind it. -/
inductive Spells : List Char → MetaCommand → Prop
  | history : Spells ['!', '!'] .history
  | help : Spells ['!', 'h', 'e', 'l', 'p'] .help
  | rerun {digits : List Char} {n : Nat} (h : IsWord64 digits n) :
    Spells ('!' :: digits) (.rerun n)
  | rerunPlus {digits : List Char} {n : Nat} (h : IsWord64 digits n) :
    Spells ('!' :: '+' :: digits) (.rerun n)

/-- The lines of a query are those of a command: only blank lines stand before its last line. -/
structure IsCommand (front : List String) (last : String) (command : MetaCommand) : Prop where
  blank : ∀ line ∈ front, IsSpace line.toList
  bang : last.toList.head? = some '!'
  spelled : ∃ spelling, EndTrimmed last.toList spelling ∧ Spells spelling command

variable {front : List String} {last : String} {command : MetaCommand} {spelling : List Char}

/-- After the exclamation mark a number is spelled with or without a plus sign. -/
theorem spells_rerun_iff {number : List Char} {n : Nat} :
    Spells ('!' :: number) (.rerun n) ↔ readWord64 number = some n := by
  rw [readWord64_eq_some_iff]
  constructor
  · intro h
    cases h with
    | rerun h =>
      have hplus : dropPlus number = number := by
        unfold dropPlus
        split
        · have hdigit := h.digit '+' (by simp)
          exact absurd hdigit (by decide)
        · rfl
      rwa [hplus]
    | rerunPlus h => exact h
  · intro h
    unfold dropPlus at h
    split at h
    · exact .rerunPlus h
    · exact .rerun h

theorem readWord64_of_not_digit {c : Char} (hc : c ≠ '+' ∧ isAsciiDigit c = false)
    (rest : List Char) : readWord64 (c :: rest) = none := by
  have hplus : dropPlus (c :: rest) = c :: rest := by
    rw [dropPlus]
    intro digits h
    exact hc.1 (List.cons.inj h).1
  simp [readWord64, hplus, hc.2]

theorem ofChars_of_number {query number : List Char} {n : Nat} (htrim : trim query = '!' :: number)
    (hread : readWord64 number = some n) : ofChars query = some (.rerun n) := by
  -- Neither of the two words is taken for a number.
  have hword {c : Char} (hc : c ≠ '+' ∧ isAsciiDigit c = false) (rest : List Char) :
      number ≠ c :: rest := by
    rintro rfl
    rw [readWord64_of_not_digit hc] at hread
    cases hread
  rw [ofChars, htrim]
  split
  · rename_i hhistory
    exact absurd (List.cons.inj hhistory).2 (hword (by decide) _)
  · rename_i hhelp
    exact absurd (List.cons.inj hhelp).2 (hword (by decide) _)
  · rename_i hnumber
    obtain rfl := (List.cons.inj hnumber).2
    rw [hread]
    rfl
  · rename_i hnone
    exact absurd rfl (hnone number)

theorem ofChars_eq_some_iff {query : List Char} :
    ofChars query = some command ↔ Spells (trim query) command := by
  constructor
  · intro h
    unfold ofChars at h
    split at h
    · rename_i htrim
      cases h
      rw [htrim]
      exact .history
    · rename_i htrim
      cases h
      rw [htrim]
      exact .help
    · rename_i number _ _ htrim
      obtain ⟨n, hread, rfl⟩ := Option.map_eq_some_iff.1 h
      rw [htrim]
      exact spells_rerun_iff.2 hread
    · cases h
  · intro h
    generalize htrim : trim query = spelling at h
    cases h with
    | history =>
      rw [ofChars, htrim]
      rfl
    | help =>
      rw [ofChars, htrim]
      rfl
    | rerun h => exact ofChars_of_number htrim (spells_rerun_iff.1 (.rerun h))
    | rerunPlus h => exact ofChars_of_number htrim (spells_rerun_iff.1 (.rerunPlus h))

/-- A command is one word, which does not end as a query for the engine does. -/
theorem Spells.word (h : Spells spelling command) :
    ∀ c ∈ spelling, isBlank c = false ∧ c ≠ '.' ∧ c ≠ '/' := by
  have hdigits {digits : List Char} {n : Nat} (hn : IsWord64 digits n) :
      ∀ c ∈ digits, isBlank c = false ∧ c ≠ '.' ∧ c ≠ '/' := by
    intro c hc
    obtain ⟨hlow, hhigh⟩ := hn.digit c hc
    refine ⟨isBlank_of_digit hlow hhigh, ?_, ?_⟩
    · rintro rfl
      exact absurd hlow (by decide)
    · rintro rfl
      exact absurd hlow (by decide)
  cases h with
  | history => simp [isBlank]
  | help => simp [isBlank]
  | rerun h => exact List.forall_mem_cons.2 ⟨by decide, hdigits h⟩
  | rerunPlus h =>
    exact List.forall_mem_cons.2 ⟨by decide, List.forall_mem_cons.2 ⟨by decide, hdigits h⟩⟩

theorem Spells.head (h : Spells spelling command) : spelling.head? = some '!' := by
  cases h <;> rfl

/-- The lines of blanks alone make up a text of blanks, and no others do. -/
theorem isSpace_unlines (lines : List String) :
    IsSpace (unlines lines).toList ↔ ∀ line ∈ lines, IsSpace line.toList := by
  induction lines with
  | nil => simp [unlines, IsSpace]
  | cons line lines ih =>
    have htext : (unlines (line :: lines)).toList =
        line.toList ++ '\n' :: (unlines lines).toList := by simp [unlines]
    rw [List.forall_mem_cons, ← ih, htext]
    unfold IsSpace
    rw [List.forall_mem_append, List.forall_mem_cons]
    exact and_congr_right fun _ => and_iff_right (by decide)

/-- A line feed is left when blanks are trimmed off the front of lines that are not all blank. -/
theorem newline_mem_trimStart {lines : List String} (h : ¬ IsSpace (unlines lines).toList) :
    '\n' ∈ trimStart (unlines lines).toList := by
  cases lines using List.reverseRecOn with
  | nil => exact absurd Term.isSpace_nil h
  | append_singleton front last =>
    have htext : (unlines (front ++ [last])).toList =
        (unlines front ++ last).toList ++ ['\n'] := by simp [unlines_concat]
    rw [htext] at h ⊢
    have hwords : ¬ IsSpace (unlines front ++ last).toList := by
      intro hspace
      exact h (List.forall_mem_append.2 ⟨hspace, isSpace_newline⟩)
    obtain ⟨c, hc, hsolid⟩ := exists_solid hwords
    rw [trimStart_append_of_mem _ hc hsolid]
    simp

/-- The line that completes a query has a character that is no blank. -/
theorem exists_solid_of_completesQuery {line : String} (h : completesQuery line = true) :
    ∃ c ∈ line.toList, isBlank c = false := by
  obtain ⟨c, hc, rfl | rfl | rfl⟩ := mem_of_completesQuery h <;> exact ⟨_, hc, rfl⟩

/-- A line that completes a query begins with an exclamation mark if, without the blanks around it,
it does not end as a query for the engine does. -/
theorem head_of_completesQuery {line : String} (hline : completesQuery line = true)
    (htrim : Trimmed line.toList spelling) (hne : spelling ≠ [])
    (hend : ∀ c ∈ spelling, c ≠ '.' ∧ c ≠ '/') : line.toList.head? = some '!' := by
  have hsplit : dropEnd (· == '\r') line.toList ++ line.toList.rtakeWhile (· == '\r') =
      line.toList := List.rdropWhile_append_rtakeWhile
  have hends {c : Char} (hlast : (dropEnd (· == '\r') line.toList).getLast? = some c)
      (hc : isBlank c = false) : c ∈ spelling := by
    obtain ⟨-, hsolid, before, after, -, hafter, htext⟩ := htrim
    -- Both leave out nothing but the blanks behind the line.
    have hkept : EndTrimmed line.toList (dropEnd (· == '\r') line.toList) := by
      refine ⟨fun d hd => ?_, _, fun d hd => ?_, hsplit.symm⟩
      · rw [hlast] at hd
        rwa [← Option.some.inj hd]
      · have hreturn : d = '\r' := by simpa using List.mem_rtakeWhile_imp hd
        rw [hreturn]
        rfl
    have hspelled : EndTrimmed line.toList (before ++ spelling) := by
      refine ⟨fun d hd => hsolid d ?_, after, hafter, by rw [htext, List.append_assoc]⟩
      rwa [List.getLast?_append_of_ne_nil _ hne] at hd
    have hsame := (trimEnd_eq_iff.2 hkept).symm.trans (trimEnd_eq_iff.2 hspelled)
    rw [hsame, List.getLast?_append_of_ne_nil _ hne] at hlast
    exact List.mem_of_getLast? hlast
  unfold completesQuery at hline
  simp only [Bool.or_eq_true, beq_iff_eq] at hline
  rcases hline with (hslash | hbang) | hperiod
  · exact absurd rfl (hend _ (hends hslash rfl)).2
  · rw [← hsplit, List.head?_append, hbang]
    rfl
  · exact absurd rfl (hend _ (hends hperiod rfl)).1

/-- The query made of these lines is a command just when its lines are those of the command. -/
theorem parse_unlines_iff (hlast : completesQuery last = true) :
    parse (unlines (front ++ [last])) = some command ↔ IsCommand front last command := by
  have htext : (unlines (front ++ [last])).toList =
      (unlines front).toList ++ (last.toList ++ ['\n']) := by simp [unlines_concat]
  rw [parse, htext, ofChars_eq_some_iff]
  by_cases hfront : IsSpace (unlines front).toList
  · have htrim : trim ((unlines front).toList ++ (last.toList ++ ['\n'])) = trim last.toList := by
      rw [trim, hfront.trimStart_append, ← trim, trim_append_space _ isSpace_newline]
    have hwhole (hbang : last.toList.head? = some '!') :
        trim last.toList = trimEnd last.toList := by
      rw [trim, trimStart_of_beginsSolid]
      intro c hc
      rw [hbang] at hc
      rw [← Option.some.inj hc]
      rfl
    rw [htrim]
    constructor
    · intro h
      have hne : trim last.toList ≠ [] := by
        intro hnil
        have hhead := h.head
        rw [hnil] at hhead
        cases hhead
      have hbang := head_of_completesQuery hlast (trim_eq_iff.1 rfl) hne fun c hc => (h.word c hc).2
      exact ⟨(isSpace_unlines front).1 hfront, hbang, _, trimEnd_eq_iff.1 (hwhole hbang).symm, h⟩
    · rintro ⟨-, hbang, spelling, hend, hspells⟩
      rwa [hwhole hbang, trimEnd_eq_iff.2 hend]
  · constructor
    · -- The line feed between a blank line and the last one is no part of a word.
      intro h
      obtain ⟨c, hc, hsolid⟩ := exists_solid_of_completesQuery hlast
      obtain ⟨d, hd, hnotblank⟩ := exists_solid hfront
      have htrim : trim ((unlines front).toList ++ (last.toList ++ ['\n'])) =
          trimStart (unlines front).toList ++ trimEnd (last.toList ++ ['\n']) := by
        rw [trim, trimStart_append_of_mem _ hd hnotblank]
        exact dropEnd_append_of_mem _ (List.mem_append_left _ hc) hsolid
      rw [htrim] at h
      have hword := h.word '\n' (List.mem_append_left _ (newline_mem_trimStart hfront))
      exact absurd hword.1 (by decide)
    · intro h
      exact absurd ((isSpace_unlines front).2 h.blank) hfront

end MetaCommand

/-- A query is a command just when the lines before its last one are blank and the last one spells
the command. Every other query goes to the engine as it was typed. -/
theorem command_or_forwarded {front : List String} {last : String}
    (hlast : completesQuery last = true) :
    (∀ command, MetaCommand.parse (unlines (front ++ [last])) = some command ↔
        MetaCommand.IsCommand front last command) ∧
      ((∀ command, ¬ MetaCommand.IsCommand front last command) →
        ∀ (ε τ κ ο : Type) [Engine ε τ] [Console κ] [Output ο] (s : Session ε κ ο) (fuel : Nat),
          s.Forwards (unlines (front ++ [last])) fuel
            (exec (Session.execute (unlines (front ++ [last])) fuel) s)) := by
  refine ⟨fun command => MetaCommand.parse_unlines_iff hlast, ?_⟩
  intro hnone ε τ κ ο _ _ _ s fuel
  have hparse : MetaCommand.parse (unlines (front ++ [last])) = none := by
    rw [Option.eq_none_iff_forall_ne_some]
    intro command hcommand
    exact hnone command ((MetaCommand.parse_unlines_iff hlast).1 hcommand)
  rw [Session.execute, hparse]
  exact Session.forwards_dispatch _ fuel s

/-- Nothing has been typed yet. -/
def blankSession : Session ScriptedEngine ScriptedConsole Buffer where
  engine := {}
  dialogue := { console := {}, output := {} }

/-- A padded number behind blank lines is a command, and one that is too large goes to the
engine. -/
theorem numbers_told_apart :
    completesQuery "!+007 \r" = true ∧ completesQuery "!18446744073709551616" = true ∧
      MetaCommand.parse (unlines (["", " \t"] ++ ["!+007 \r"])) = some (.rerun 7) ∧
      blankSession.Forwards "!18446744073709551616\n" 1
        (exec (Session.execute "!18446744073709551616\n" 1) blankSession) ∧
      (exec (Session.execute "!18446744073709551616\n" 1) blankSession).2.engine.queries =
        ["!18446744073709551616\n"] := by
  have hpadded : completesQuery "!+007 \r" = true := by decide
  have hlarge : completesQuery "!18446744073709551616" = true := by decide
  have hsent : (exec (Session.execute "!18446744073709551616\n" 1) blankSession).2.engine.queries =
      ["!18446744073709551616\n"] := by decide +kernel
  refine ⟨hpadded, hlarge, ?_, ?_, hsent⟩
  · have hseven : Text.IsWord64 ['0', '0', '7'] 7 := ⟨by simp, by simp, rfl, by omega⟩
    have hend : Text.EndTrimmed "!+007 \r".toList ['!', '+', '0', '0', '7'] := by
      refine ⟨fun c hc => ?_, [' ', '\r'], ?_, rfl⟩
      · obtain rfl : '7' = c := Option.some.inj hc
        rfl
      · simp [IsSpace, Text.isBlank]
    refine ((command_or_forwarded hpadded).1 _).2 ⟨?_, rfl, _, hend, .rerunPlus hseven⟩
    simp [IsSpace, Text.isBlank]
  · have htext : unlines ([] ++ ["!18446744073709551616"]) = "!18446744073709551616\n" := by
      decide +kernel
    have hnone : MetaCommand.parse "!18446744073709551616\n" = none := by decide +kernel
    rw [← htext] at hnone ⊢
    refine (command_or_forwarded hlarge).2 (fun command hcommand => ?_) _ _ _ _ blankSession 1
    have hsome := ((command_or_forwarded hlarge).1 command).2 hcommand
    rw [hnone] at hsome
    cases hsome

end LogicConsole
