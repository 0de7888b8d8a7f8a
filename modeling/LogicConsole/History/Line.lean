/-!
A history entry as one line. Line feeds, carriage returns and backslashes are written as escapes.
Main statement: reading a written entry gives the entry back.
-/
namespace LogicConsole.History

def encode : List Char → List Char
  | [] => []
  | '\\' :: rest => '\\' :: '\\' :: encode rest
  | '\n' :: rest => '\\' :: 'n' :: encode rest
  | '\r' :: rest => '\\' :: 'r' :: encode rest
  | c :: rest => c :: encode rest

/-- A backslash before any other character stands for nothing, and one at the end for itself. -/
def decode : List Char → List Char
  | [] => []
  | '\\' :: 'n' :: rest => '\n' :: decode rest
  | '\\' :: 'r' :: rest => '\r' :: decode rest
  | '\\' :: c :: rest => c :: decode rest
  | c :: rest => c :: decode rest

theorem decode_encode (entry : List Char) : decode (encode entry) = entry := by
  fun_induction encode entry with
  | case1 => rfl
  | case2 rest ih => simp [decode, ih]
  | case3 rest ih => simp [decode, ih]
  | case4 rest ih => simp [decode, ih]
  | case5 c rest h1 h2 h3 ih =>
    have : c ≠ '\\' := fun h => h1 h
    unfold decode
    split <;> simp_all

end LogicConsole.History
