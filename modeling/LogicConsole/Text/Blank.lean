/-!
White space and trimming. A character is blank when it has Unicode's `White_Space` property.
-/
namespace LogicConsole.Text

def isBlank (c : Char) : Bool :=
  let n := c.toNat
  (9 ≤ n && n ≤ 13) || n == 0x20 || n == 0x85 || n == 0xA0 || n == 0x1680 ||
    (0x2000 ≤ n && n ≤ 0x200A) || n == 0x2028 || n == 0x2029 || n == 0x202F || n == 0x205F ||
    n == 0x3000

/-- The characters of Unicode's category Cc. -/
def isControl (c : Char) : Bool :=
  c.toNat < 0x20 || (0x7F ≤ c.toNat && c.toNat ≤ 0x9F)

/-- Drop the longest ending whose characters all satisfy `p`. -/
def dropEnd (p : Char → Bool) (s : List Char) : List Char := (s.reverse.dropWhile p).reverse

def trimStart (s : List Char) : List Char := s.dropWhile isBlank

def trimEnd (s : List Char) : List Char := dropEnd isBlank s

def trim (s : List Char) : List Char := trimEnd (trimStart s)

@[simp] theorem dropEnd_nil (p : Char → Bool) : dropEnd p [] = [] := rfl

theorem dropEnd_append_of_all {p : Char → Bool} (s : List Char) {t : List Char}
    (h : ∀ c ∈ t, p c) : dropEnd p (s ++ t) = dropEnd p s := by
  simp only [dropEnd, List.reverse_append]
  rw [List.dropWhile_append_of_pos (by simpa using h)]

end LogicConsole.Text
