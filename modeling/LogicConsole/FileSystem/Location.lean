/-!
Where an entry is in a tree of directories: the names that lead to it from the root.
-/
namespace LogicConsole

structure Location where
  /-- How many names there are. Entries at other depths are told apart by it at once. -/
  depth : Nat
  /-- The names on the way to the root, the entry's own first. -/
  names : List String
  depth_eq : depth = names.length := by rfl
  deriving Repr

namespace Location

@[ext] theorem ext {l m : Location} (h : l.names = m.names) : l = m := by
  obtain ⟨_, _, rfl⟩ := l
  obtain ⟨_, _, rfl⟩ := m
  cases h
  rfl

instance : DecidableEq Location := fun l m =>
  if h : l.depth = m.depth then
    if hn : l.names = m.names then isTrue (Location.ext hn) else isFalse fun e => hn (e ▸ rfl)
  else isFalse fun e => h (e ▸ rfl)

def root : Location := ⟨0, [], rfl⟩

def child (l : Location) (name : String) : Location :=
  ⟨l.depth + 1, name :: l.names, by simp [l.depth_eq]⟩

/-- The directory that holds the entry. The root is its own. -/
def parent (l : Location) : Location := ⟨l.depth - 1, l.names.tail, by simp [l.depth_eq]⟩

/-- Follow names from a location, none of which leads up. -/
def append (l : Location) (names : List String) : Location := names.foldl child l

/-- The names from the root on. -/
def path (l : Location) : List String := l.names.reverse

@[simp] theorem parent_child (l : Location) (name : String) : (l.child name).parent = l := by
  ext1
  rfl

theorem child_ne_root (l : Location) (name : String) : l.child name ≠ root :=
  fun h => List.cons_ne_nil _ _ (congrArg names h)

end Location

end LogicConsole
