import Scenario.Syntax.StatementRules

namespace Scenario.Syntax

/-- The grammar whose rules refer to the rules of `g`. -/
def Grammar.unfold (g : Grammar) : Grammar where
  expression := g.expressionRule
  statement := g.statementRule
  type := g.typeRule
  pattern := g.patternRule
  element := g.elementRule

/-- The grammar unfolded the given number of times. -/
def Grammar.upTo (depth : Nat) : Grammar := Nat.repeat unfold depth .empty

open Scenario.Syntax.Parser

/-- A first line that names the program to run the text with. -/
def interpreterLine : Parser Unit := do
  exactly ['#', '!']
  let _ ← run (· ≠ '\n')

def program (depth : Nat) : Parser Node := do
  let _ ← optional interpreterLine
  let body ← many (Grammar.upTo depth).statement
  skip
  guard ((← ahead) = [])
  return .program body

/-- Reads a program; there is none if the text does not follow the grammar. -/
def parse? (source : String) : Option Node :=
  let text := source.toList
  (program (8 * text.length + 16) (.start text)).map (·.1)

end Scenario.Syntax
