import LogicConsole.Console.Piped
import LogicConsole.Output
import LogicConsole.Proofs.Storage.Survival

/-! A text read line by line. A piped console takes the lines of its input in their order, whether
it is asked for a line or for a key, and what it was asked for in turn tells what it has read. -/
namespace LogicConsole

namespace Text

/-- The first line of a text, with its line feed if it has one. -/
def firstRaw (text : List Char) : List Char :=
  text.takeWhile (· ≠ '\n') ++ (text.dropWhile (· ≠ '\n')).take 1

def restRaw (text : List Char) : List Char := (text.dropWhile (· ≠ '\n')).drop 1

/-- The lines of a text, each with its line feed; what follows the last line feed is a line too. -/
def rawLines : List Char → List (List Char)
  | [] => []
  | '\n' :: rest => ['\n'] :: rawLines rest
  | c :: rest =>
    match rawLines rest with
    | [] => [[c]]
    | line :: more => (c :: line) :: more

theorem firstRaw_append_restRaw (text : List Char) : firstRaw text ++ restRaw text = text := by
  simp only [firstRaw, restRaw, List.append_assoc, List.take_append_drop,
    List.takeWhile_append_dropWhile]

theorem firstRaw_cons_of_ne {c : Char} (h : c ≠ '\n') (rest : List Char) :
    firstRaw (c :: rest) = c :: firstRaw rest ∧ restRaw (c :: rest) = restRaw rest := by
  simp [firstRaw, restRaw, h]

theorem rawLines_eq {text : List Char} (h : text ≠ []) :
    rawLines text = firstRaw text :: rawLines (restRaw text) := by
  induction text with
  | nil => exact absurd rfl h
  | cons c rest ih =>
    by_cases hc : c = '\n'
    · subst hc
      rfl
    · obtain ⟨hfirst, hrest⟩ := firstRaw_cons_of_ne hc rest
      rw [hfirst, hrest, rawLines.eq_3 _ _ fun heq => hc heq]
      cases rest with
      | nil => rfl
      | cons c' rest => rw [ih (List.cons_ne_nil _ _)]

theorem firstRaw_ne_nil {text : List Char} (h : text ≠ []) : firstRaw text ≠ [] := by
  cases text with
  | nil => exact absurd rfl h
  | cons c rest =>
    by_cases hc : c = '\n'
    · subst hc
      simp [firstRaw]
    · rw [(firstRaw_cons_of_ne hc rest).1]
      exact List.cons_ne_nil _ _

theorem mem_of_mem_firstRaw {text : List Char} {c : Char} (h : c ∈ firstRaw text) : c ∈ text := by
  rw [← firstRaw_append_restRaw text]
  exact List.mem_append_left _ h

theorem mem_of_mem_restRaw {text : List Char} {c : Char} (h : c ∈ restRaw text) : c ∈ text := by
  rw [← firstRaw_append_restRaw text]
  exact List.mem_append_right _ h

theorem flatten_clusters (text : List Char) : (clusters text).flatten = text := by
  fun_induction clusters text with
  | case1 => rfl
  | case2 c rest cluster rest' h _ ih =>
    have happend := Cluster.takeCluster_append (Cluster.start c) rest
    rw [h] at happend
    rw [List.flatten_cons, ih, List.cons_append, happend]

/-- Clusters that are no backspaces are typed one behind the other. -/
theorem foldlM_add? (clusters : List (List Char)) (h : ∀ cluster ∈ clusters, cluster ≠ [backspace])
    (t : Typed) :
    (clusters.foldlM Typed.add? t).map (·.kept) = some (clusters.flatten.reverse ++ t.kept) := by
  induction clusters generalizing t with
  | nil => rfl
  | cons cluster clusters ih =>
    rw [List.foldlM_cons, Typed.add?, if_neg (h cluster (by simp))]
    change (clusters.foldlM Typed.add? _).map _ = _
    rw [ih (fun cluster' h' => h cluster' (by simp [h']))]
    simp

/-- Nothing is taken away from a text without backspaces. -/
theorem applyBackspaces?_of_notMem {text : List Char} (h : backspace ∉ text) :
    applyBackspaces? text = some text := by
  have hnone : ∀ cluster ∈ clusters text, cluster ≠ [backspace] := by
    rintro cluster hcluster rfl
    refine h ?_
    rw [← flatten_clusters text]
    exact List.mem_flatten.2 ⟨_, hcluster, by simp⟩
  have hkept := foldlM_add? (clusters text) hnone {}
  rw [flatten_clusters] at hkept
  obtain ⟨t, ht, htext⟩ := Option.map_eq_some_iff.1 hkept
  simp [applyBackspaces?, ht, htext]

end Text

namespace Buffer

theorem utf8_ofList (text : List Char) :
    utf8 (String.ofList text) = text.flatMap String.utf8EncodeChar := by
  simp [utf8, String.toUTF8_eq_toByteArray, List.utf8Encode]

end Buffer

namespace PipedConsole

open Text

/-- Only a line feed is written with the byte of a line feed. -/
theorem newline_notMem_utf8 {c : Char} (h : c ≠ '\n') :
    newline ∉ String.utf8EncodeChar c := by
  have hbyte (n : Nat) (hn : n < 256) (hne : n ≠ 10) : newline ≠ UInt8.ofNat n := by
    intro heq
    have hnat := congrArg UInt8.toNat heq
    simp only [newline, UInt8.toNat_ofNat, UInt8.toNat_ofNat'] at hnat
    omega
  have hv : c.val.toNat ≠ 10 := fun hv => h (Char.ext (UInt32.toNat_inj.1 hv))
  unfold String.utf8EncodeChar
  simp only
  split_ifs <;> simp only [List.mem_cons, List.not_mem_nil, or_false, not_or]
  · exact hbyte _ (by omega) hv
  · exact ⟨hbyte _ (by omega) (by omega), hbyte _ (by omega) (by omega)⟩
  · exact ⟨hbyte _ (by omega) (by omega), hbyte _ (by omega) (by omega),
      hbyte _ (by omega) (by omega)⟩
  · exact ⟨hbyte _ (by omega) (by omega), hbyte _ (by omega) (by omega),
      hbyte _ (by omega) (by omega), hbyte _ (by omega) (by omega)⟩

theorem firstLine_append {bytes : List UInt8} (h : newline ∉ bytes) (rest : List UInt8) :
    firstLine (bytes ++ rest) = bytes ++ firstLine rest ∧
      restLines (bytes ++ rest) = restLines rest := by
  have hall : ∀ b ∈ bytes, decide (b ≠ newline) = true := fun b hb =>
    decide_eq_true fun heq => h (heq ▸ hb)
  simp only [firstLine, restLines, List.takeWhile_append_of_pos hall,
    List.dropWhile_append_of_pos hall, List.append_assoc, and_self]

/-- The bytes of a text are cut where its characters are. -/
theorem firstLine_utf8 (text : List Char) :
    firstLine (Buffer.utf8 (String.ofList text)) = Buffer.utf8 (String.ofList (firstRaw text)) ∧
      restLines (Buffer.utf8 (String.ofList text)) =
        Buffer.utf8 (String.ofList (restRaw text)) := by
  simp only [Buffer.utf8_ofList]
  induction text with
  | nil => exact ⟨rfl, rfl⟩
  | cons c rest ih =>
    by_cases hc : c = '\n'
    · subst hc
      exact ⟨rfl, rfl⟩
    · obtain ⟨hfirst, hrest⟩ := firstRaw_cons_of_ne hc rest
      obtain ⟨hline, hlines⟩ := firstLine_append (newline_notMem_utf8 hc)
        (rest.flatMap String.utf8EncodeChar)
      rw [hfirst, hrest, List.flatMap_cons, hline, hlines, ih.1, ih.2]
      exact ⟨rfl, rfl⟩

/-- A piped console that is about to read a text. -/
def feeding (text : List Char) : PipedConsole := ⟨Buffer.utf8 (String.ofList text)⟩

@[simp] theorem isEmpty_feeding (text : List Char) :
    (feeding text).input.isEmpty = text.isEmpty := by
  cases text with
  | nil => rfl
  | cons c rest =>
    rw [feeding, Buffer.utf8_ofList, List.flatMap_cons]
    simp [String.utf8EncodeChar_ne_nil]

theorem fromUTF8?_utf8 (text : String) :
    String.fromUTF8? ⟨(Buffer.utf8 text).toArray⟩ = some text := by
  rw [Buffer.utf8, Array.toArray_toList]
  exact HistoryFile.fromUTF8?_toUTF8 text

/-- What a console takes of a text is its first line. -/
theorem takeLine_feeding {text : List Char} (h : text ≠ []) :
    (feeding text).takeLine = (some (.ok (firstRaw text)), feeding (restRaw text)) := by
  obtain ⟨hline, hrest⟩ := firstLine_utf8 text
  have hempty : (feeding text).input.isEmpty = false := by
    simpa using h
  simp only [takeLine, hempty, Bool.false_eq_true, if_false]
  simp only [feeding, hline, hrest, fromUTF8?_utf8, String.toList_ofList]

theorem isPrefix_dropTerminator (line : List Char) : dropTerminator line <+: line := by
  have hinit (l : List Char) : l.dropLast <+: l := List.dropLast_prefix l
  unfold dropTerminator
  split
  · split
    · exact (hinit _).trans (hinit _)
    · exact hinit _
  · exact List.prefix_rfl

/-- A line that is nothing but its terminator. -/
theorem eq_terminator {line : List Char} (h : dropTerminator line = []) (hne : line ≠ []) :
    line = ['\n'] ∨ line = ['\r', '\n'] := by
  unfold dropTerminator at h
  split at h
  · rename_i hfeed
    have hline := List.dropLast_append_getLast? _ hfeed
    split at h
    · rename_i hreturn
      have hinit := List.dropLast_append_getLast? _ hreturn
      rw [h, List.nil_append] at hinit
      rw [← hinit] at hline
      exact .inr hline.symm
    · rw [h] at hline
      exact .inl hline.symm
  · exact absurd h hne

end PipedConsole

/-- What a console is asked for. -/
inductive Asked
  | line
  | key
  deriving DecidableEq, Repr

/-- What a console took of its input when it was asked: a line with its terminator, or nothing at
the end of the input. -/
structure Portion where
  asked : Asked
  raw : Option (List Char)
  deriving DecidableEq, Repr

namespace Portion

open Text PipedConsole

/-- A line without its terminator, or the end of the input. -/
def lineInput : Option (List Char) → LineInput
  | some raw => .line (String.ofList (dropTerminator raw))
  | none => .endOfInput

/-- The first character of a line, or a line feed if the line is blank. -/
def keyOf (raw : List Char) : Char := (dropTerminator raw).head?.getD '\n'

/-- The portion as an event for a console that plays a script. -/
def event? : Portion → Option LineInput
  | ⟨.line, raw⟩ => some (lineInput raw)
  | ⟨.key, _⟩ => none

/-- The portion as a key for a console that plays a script. -/
def key? : Portion → Option Char
  | ⟨.line, _⟩ => none
  | ⟨.key, raw⟩ => raw.map keyOf

/-- The first character of a line stands for its key, but for the one in front of a blank line's
line feed. -/
theorem eq_keyOf_of_head? {raw : List Char} {c : Char} (h : raw.head? = some c) :
    c = keyOf raw ∨ c = '\r' ∧ keyOf raw = '\n' := by
  have hne : raw ≠ [] := by
    rintro rfl
    cases h
  unfold keyOf
  cases hline : dropTerminator raw with
  | nil =>
    rcases eq_terminator hline hne with rfl | rfl <;> cases h
    · exact .inl rfl
    · exact .inr ⟨rfl, rfl⟩
  | cons k rest =>
    obtain ⟨u, rfl⟩ := hline ▸ isPrefix_dropTerminator raw
    exact .inl (Option.some.inj h).symm

end Portion

namespace Text

open PipedConsole

/-- What comes of asking for the next line of a text. -/
def nextRaw (text : List Char) : Option (List Char) :=
  if text.isEmpty then none else some (firstRaw text)

/-- What is taken of a text when one thing after the other is asked for. -/
def portions : List Char → List Asked → List Portion
  | _, [] => []
  | text, asked :: more => ⟨asked, nextRaw text⟩ :: portions (restRaw text) more

/-- What is left of a text then. -/
def leftover : List Char → List Asked → List Char
  | text, [] => text
  | text, _ :: more => leftover (restRaw text) more

theorem leftover_append (text : List Char) (asked more : List Asked) :
    leftover text (asked ++ more) = leftover (leftover text asked) more := by
  induction asked generalizing text with
  | nil => rfl
  | cons a asked ih => simp only [List.cons_append, leftover, ih]

/-- Every line is taken once, in its turn, or is left. -/
theorem rawLines_eq_portions (text : List Char) (asked : List Asked) :
    rawLines text =
      (portions text asked).filterMap Portion.raw ++ rawLines (leftover text asked) := by
  induction asked generalizing text with
  | nil => rfl
  | cons a asked ih =>
    cases text with
    | nil => exact ih []
    | cons c rest =>
      rw [rawLines_eq (List.cons_ne_nil c rest), ih]
      rfl

theorem portions_nil (asked : List Asked) : ∀ portion ∈ portions [] asked, portion.raw = none := by
  induction asked with
  | nil => exact nofun
  | cons a asked ih => exact List.forall_mem_cons.2 ⟨rfl, ih⟩

theorem keys_nil (asked : List Asked) : (portions [] asked).filterMap Portion.key? = [] := by
  rw [List.filterMap_eq_nil_iff]
  intro portion hmem
  have hraw := portions_nil asked portion hmem
  obtain ⟨_ | _, raw⟩ := portion
  · rfl
  · rw [show raw = none from hraw]
    rfl

theorem leftover_nil (asked : List Asked) : leftover [] asked = [] := by
  induction asked with
  | nil => rfl
  | cons a asked ih => exact ih

/-- Nothing is taken only when nothing is left. -/
theorem portions_cases (text : List Char) (asked : List Asked) :
    ∃ taken ended, portions text asked = taken ++ ended ∧
      (∀ portion ∈ taken, portion.raw.isSome) ∧ (∀ portion ∈ ended, portion.raw = none) ∧
      (ended ≠ [] → leftover text asked = []) := by
  induction asked generalizing text with
  | nil => exact ⟨[], [], rfl, nofun, nofun, fun h => absurd rfl h⟩
  | cons a asked ih =>
    cases text with
    | nil =>
      exact ⟨[], _, rfl, nofun, portions_nil (a :: asked), fun _ => leftover_nil (a :: asked)⟩
    | cons c rest =>
      obtain ⟨taken, ended, hportions, htaken, hended, hleft⟩ := ih (restRaw (c :: rest))
      refine ⟨⟨a, some (firstRaw (c :: rest))⟩ :: taken, ended, ?_,
        List.forall_mem_cons.2 ⟨rfl, htaken⟩, hended, hleft⟩
      rw [portions, hportions]
      rfl

end Text

namespace PipedConsole

open Text

theorem readLine_feeding {text : List Char} (h : backspace ∉ text) (marker : String) :
    Console.readLine marker (feeding text) =
      (⟨.ok (Portion.lineInput (nextRaw text)), false⟩, feeding (restRaw text)) := by
  cases text with
  | nil => rfl
  | cons c rest =>
    have hline : backspace ∉ dropTerminator (firstRaw (c :: rest)) := fun hmem =>
      h (mem_of_mem_firstRaw ((isPrefix_dropTerminator _).subset hmem))
    simp only [Console.readLine, PipedConsole.readLine, takeLine_feeding (List.cons_ne_nil c rest),
      lineOf, applyBackspaces?_of_notMem hline]
    rfl

theorem readKey_feeding (text : List Char) :
    Console.readKey (feeding text) =
      (⟨.ok ((nextRaw text).bind List.head?), false⟩, feeding (restRaw text)) := by
  cases text with
  | nil => rfl
  | cons c rest =>
    simp only [Console.readKey, PipedConsole.readKey, takeLine_feeding (List.cons_ne_nil c rest)]
    rfl

end PipedConsole

end LogicConsole
