import LogicConsole.Dialogue
import LogicConsole.Text.Blank
/-!
Showing solutions one at a time. After each solution that is not marked last the operator is asked
whether to go on; only `y` and `;` do. The next solution is pulled only when it is wanted, and a
sequence that is left early is abandoned.
-/
namespace LogicConsole

def moreQuestion : String := "  more? (y/n) "

def wantsMore (answer : Option Char) : Bool := answer == some 'y' || answer == some ';'

/-- What an answer looks like on the screen: a control character is not shown. -/
def echo (answer : Option Char) : String :=
  match answer with
  | some c => if Text.isControl c then "" else c.toString
  | none => ""

/-- A dialogue about the solutions of one query. -/
structure Paging (τ κ ο : Type) where
  solutions : τ
  dialogue : Dialogue κ ο

namespace Paging

variable {τ κ ο : Type} [SolutionStream τ] [Console κ] [Output ο] {α : Type}

def onDialogue (op : Operation (Dialogue κ ο) α) : Operation (Paging τ κ ο) α :=
  op.focus Paging.dialogue fun dialogue p => { p with dialogue }

def pull : Operation (Paging τ κ ο) (Option Solution) := .ofCall fun p =>
  let (result, solutions) := SolutionStream.next p.solutions
  (result, ⟨solutions, p.dialogue.note (.pulled result)⟩)

def abandon : Operation (Paging τ κ ο) Unit := .ofCall fun p =>
  let (result, solutions) := SolutionStream.abandon p.solutions
  (result, ⟨solutions, p.dialogue.note .abandoned⟩)

def say (text : String) : Operation (Paging τ κ ο) Unit := onDialogue (Dialogue.say text)

/-- Ask whether to go on, and show the answer. -/
def askForMore : Operation (Paging τ κ ο) Bool := do
  say moreQuestion
  onDialogue Dialogue.flush
  let answer ← onDialogue Dialogue.readKey
  say (echo answer)
  say "\n"
  return wantsMore answer

/-- Show solutions after `shown` solutions and `prompts` questions. -/
def showFrom : Nat → (shown prompts : Nat) → Operation (Paging τ κ ο) PageSummary
  | 0, _, _ => .unfinished
  | fuel + 1, shown, prompts => do
    if ← onDialogue Dialogue.pending then
      abandon
      say "interrupted\n"
      return ⟨shown, prompts, .interrupted⟩
    match ← pull with
    | none => return ⟨shown, prompts, .exhausted⟩
    | some solution =>
      say solution.text
      if solution.isLast then
        say "\n"
        return ⟨shown + 1, prompts, .exhausted⟩
      if ← askForMore then showFrom fuel (shown + 1) (prompts + 1)
      else
        abandon
        return ⟨shown + 1, prompts + 1, .declined⟩

/-- Show solutions, then a blank line that separates them from the next prompt. -/
def page (fuel : Nat) : Operation (Paging τ κ ο) PageSummary := do
  let summary ← showFrom fuel 0 0
  say "\n"
  onDialogue Dialogue.flush
  onDialogue (Dialogue.mark (.paged summary))
  return summary

end Paging

end LogicConsole
