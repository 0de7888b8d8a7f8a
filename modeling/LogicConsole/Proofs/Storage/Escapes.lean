import LogicConsole.Proofs.Storage.Lines
/-!
Which lines of a history file are written entries. A backslash escapes unless it is escaped itself,
and a line is written just when it holds no raw line end and every escape in it is one of the three
that are written. Reading and writing undo each other then, and only then.
-/
namespace LogicConsole.History

/-- A backslash at place `i` begins an escape, for it does not end the one begun before it. -/
def EscapesAt (text : List Char) : Nat → Prop
  | 0 => text[0]? = some '\\'
  | i + 1 => text[i + 1]? = some '\\' ∧ ¬ EscapesAt text i

/-- Every escape is one that is written: of a line feed, a carriage return or a backslash. -/
def WellEscaped (text : List Char) : Prop :=
  ∀ i, EscapesAt text i → ∃ c ∈ ['n', 'r', '\\'], text[i + 1]? = some c

/-- No character of the text ends a line. -/
def Unbroken (text : List Char) : Prop := ∀ c ∈ text, c ≠ '\n' ∧ c ≠ '\r'

section Escapes

variable {c : Char} {rest : List Char}

theorem not_escapesAt_zero (hc : c ≠ '\\') : ¬ EscapesAt (c :: rest) 0 := by
  intro h
  exact hc (Option.some.inj h)

/-- A character that begins no escape has no part in those behind it. -/
theorem escapesAt_cons (hc : c ≠ '\\') (i : Nat) :
    EscapesAt (c :: rest) (i + 1) ↔ EscapesAt rest i := by
  induction i with
  | zero =>
    have hstart : ¬ EscapesAt (c :: rest) 0 := not_escapesAt_zero hc
    simp only [EscapesAt, List.getElem?_cons_succ]
    exact ⟨fun h => h.1, fun h => ⟨h, hstart⟩⟩
  | succ i ih => simp only [EscapesAt, List.getElem?_cons_succ] at ih ⊢; rw [ih]

theorem not_escapesAt_one : ¬ EscapesAt ('\\' :: c :: rest) 1 := by
  intro h
  exact h.2 rfl

/-- An escape is two characters, and what follows begins afresh. -/
theorem escapesAt_cons_cons (i : Nat) :
    EscapesAt ('\\' :: c :: rest) (i + 2) ↔ EscapesAt rest i := by
  induction i with
  | zero =>
    have hsecond : ¬ EscapesAt ('\\' :: c :: rest) 1 := not_escapesAt_one
    exact ⟨fun h => h.1, fun h => ⟨h, hsecond⟩⟩
  | succ i ih =>
    rw [EscapesAt, ih, EscapesAt]
    simp only [List.getElem?_cons_succ]

theorem wellEscaped_cons (hc : c ≠ '\\') : WellEscaped (c :: rest) ↔ WellEscaped rest := by
  constructor
  · intro h i hi
    exact h (i + 1) ((escapesAt_cons hc i).2 hi)
  · intro h i hi
    cases i with
    | zero => exact absurd hi (not_escapesAt_zero hc)
    | succ i => exact h i ((escapesAt_cons hc i).1 hi)

theorem wellEscaped_cons_cons :
    WellEscaped ('\\' :: c :: rest) ↔ c ∈ ['n', 'r', '\\'] ∧ WellEscaped rest := by
  constructor
  · intro h
    refine ⟨?_, fun i hi => h (i + 2) ((escapesAt_cons_cons i).2 hi)⟩
    obtain ⟨c', hmem, hc'⟩ := h 0 rfl
    rwa [Option.some.inj hc']
  · rintro ⟨hc, h⟩ i hi
    match i with
    | 0 => exact ⟨c, hc, rfl⟩
    | 1 => exact absurd hi not_escapesAt_one
    | i + 2 => exact h i ((escapesAt_cons_cons i).1 hi)

/-- An escape that has only begun is none that is written. -/
theorem not_wellEscaped_backslash : ¬ WellEscaped ['\\'] := by
  intro h
  obtain ⟨c, -, hc⟩ := h 0 rfl
  cases hc

theorem unbroken_cons : Unbroken (c :: rest) ↔ (c ≠ '\n' ∧ c ≠ '\r') ∧ Unbroken rest :=
  List.forall_mem_cons

end Escapes

/-- A character other than the three that are escaped is written as it is. -/
theorem encode_cons {c : Char} (hslash : c ≠ '\\') (hfeed : c ≠ '\n') (hreturn : c ≠ '\r')
    (rest : List Char) : encode (c :: rest) = c :: encode rest := by
  rw [encode]
  · exact hslash
  · exact hfeed
  · exact hreturn

/-- Behind its backslash no character is written but these three. -/
theorem encode_cons_ne_escape {c : Char} (h : c ∉ ['n', 'r', '\\']) (rest line : List Char) :
    encode (c :: rest) ≠ '\\' :: c :: line := by
  have hslash : c ≠ '\\' := fun hc => h (by simp [hc])
  by_cases hfeed : c = '\n'
  · subst hfeed
    simp [encode]
  by_cases hreturn : c = '\r'
  · subst hreturn
    simp [encode]
  rw [encode_cons hslash hfeed hreturn]
  simp [hslash]

/-- The lines that are written are those without line ends in which every escape is one that is
written. -/
theorem encode_decode_eq_iff (line : List Char) :
    encode (decode line) = line ↔ Unbroken line ∧ WellEscaped line := by
  fun_induction decode line with
  | case1 =>
    refine ⟨fun _ => ⟨nofun, fun i hi => ?_⟩, fun _ => rfl⟩
    cases i with
    | zero => cases hi
    | succ i => cases hi.1
  | case2 rest ih => simp [encode, ih, unbroken_cons, wellEscaped_cons_cons]
  | case3 rest ih => simp [encode, ih, unbroken_cons, wellEscaped_cons_cons]
  | case4 c rest hn hr ih =>
    by_cases hslash : c = '\\'
    · subst hslash
      simp [encode, ih, unbroken_cons, wellEscaped_cons_cons]
    · have hnone : c ∉ ['n', 'r', '\\'] := by
        simp only [List.mem_cons, List.not_mem_nil, or_false, not_or]
        exact ⟨hn, hr, hslash⟩
      have hne : encode (c :: decode rest) ≠ '\\' :: c :: rest := encode_cons_ne_escape hnone _ _
      simp [hne, wellEscaped_cons_cons, hnone]
  | case5 c rest hn hr hescape ih =>
    by_cases hslash : c = '\\'
    · -- Nothing follows this backslash, so it is read as itself, and written with another one.
      have hrest : rest = [] := by
        cases rest with
        | nil => rfl
        | cons d rest => exact (hescape d rest hslash rfl).elim
      subst hslash hrest
      simp [encode, decode, not_wellEscaped_backslash]
    by_cases hfeed : c = '\n'
    · subst hfeed
      simp [encode, unbroken_cons]
    by_cases hreturn : c = '\r'
    · subst hreturn
      simp [encode, unbroken_cons]
    simp [encode_cons hslash hfeed hreturn, ih, unbroken_cons, hfeed, hreturn,
      wellEscaped_cons hslash]

/-- Writing an entry loses nothing and breaks no line, and reading a line loses nothing just when
the line is one that is written. Neither makes an empty text of one that is not. -/
theorem line_codec :
    (∀ entry : List Char, Unbroken (encode entry) ∧ (encode entry = [] → entry = []) ∧
      decode (encode entry) = entry) ∧
    ∀ line : List Char, (decode line = [] → line = []) ∧
      (encode (decode line) = line ↔ Unbroken line ∧ WellEscaped line) := by
  constructor
  · intro entry
    refine ⟨fun c hc => mem_encode hc, fun hnil => ?_, decode_encode entry⟩
    exact Decidable.byContradiction fun hne => encode_ne_nil hne hnil
  · intro line
    refine ⟨fun hnil => ?_, encode_decode_eq_iff line⟩
    exact Decidable.byContradiction fun hne => decode_ne_nil hne hnil

/-- An escaped backslash before a letter is no escape of the letter. -/
example : encode ['\\', 'n', '\n'] = ['\\', '\\', 'n', '\\', 'n'] := rfl

end LogicConsole.History
