import Scenario.Syntax.Lexeme
import Scenario.Syntax.Pattern

namespace Scenario.Syntax

/-- How much of an expression may be read: all of it, a chain of members and calls, or a chain of
members alone. -/
inductive Reach where
  | whole
  | calls
  | members

/-- Where an expression stands. -/
structure Context where
  /-- A semicolon may be understood behind the expression. -/
  ends : Bool
  /-- An arrow function may name its result type. -/
  resultType : Bool := true
  reach : Reach := .whole

namespace Context

/-- Inside brackets, where nothing is understood. -/
def inner : Context := { ends := false }

/-- At the end of a statement. -/
def final : Context := { ends := true }

/-- What a class extends. -/
def heritage : Context := { ends := false, reach := .calls }

/-- What `new` is applied to, and what a pattern may assign to. -/
def place : Context := { ends := false, reach := .members }

end Context

structure Grammar where
  expression : Context → Parser Node
  statement : Parser Node
  type : Parser Unit
  pattern : Parser Pattern
  element : Parser Node

def Grammar.empty : Grammar where
  expression _ := failure
  statement := failure
  type := failure
  pattern := failure
  element := failure

namespace Parser

variable {α : Type}

/-- One or more, with commas between them. -/
def commaSeparated (p : Parser α) : Parser (List α) := do
  let first ← p
  let rest ← many do
    punct ","
    p
  return first :: rest

/-- Any number, with commas between them and perhaps behind the last. -/
def commaList (p : Parser α) : Parser (List α) := do
  let items ← optional (commaSeparated p)
  match items with
  | some items =>
    let _ ← optional (punct ",")
    return items
  | none => return []

/-- Items with commas between them, any of which may be left out. -/
def commaHoles (p : Parser α) : Parser (List α) := do
  let first ← optional p
  let rest ← many do
    punct ","
    optional p
  return (first :: rest).filterMap id

def between (left right : String) (p : Parser α) : Parser α := do
  punct left
  let a ← p
  punct right
  return a

/-- Whether the next lexeme stands on the same line. -/
def onSameLine : Parser Bool := do
  return (lineRest (← ahead)).head? ≠ some '\n'

/-- Whether the expression goes on here, as far as an understood semicolon is concerned. -/
def goesOn (context : Context) : Parser Bool := do
  return !(context.ends && (← here).endsStatement true)

/-- Whether the next character is one of the given ones. -/
def seesChar (cs : List Char) : Parser Bool := do
  return (← peek).any cs.contains

end Parser

end Scenario.Syntax
