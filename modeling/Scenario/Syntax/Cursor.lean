
namespace Scenario.Syntax

/-- The text that is left, its line counted from 1, and how many characters stand before it. -/
structure Cursor where
  rest : List Char
  line : Nat
  pos : Nat
  deriving Repr

abbrev Parser := StateT Cursor Option

/-- The controls and the space among the blanks between lexemes. -/
def isAsciiSpace (c : Char) : Bool := c = ' ' || (0x09 ≤ c.toNat && c.toNat ≤ 0x0D)

def isSpace (c : Char) : Bool :=
  isAsciiSpace c || ['\u00A0', '\u1680', '\u2028', '\u2029', '\u202F', '\u205F', '\u2060', '\u3000',
    '\u200B', '\uFEFF'].contains c || (0x2000 ≤ c.toNat && c.toNat ≤ 0x200A)

/-- Blanks that keep a line break in force: those that do not glue two words. -/
def isBreakSpace (c : Char) : Bool :=
  isAsciiSpace c || ['\u1680', '\u2028', '\u2029', '\u205F', '\u3000'].contains c
    || (0x2000 ≤ c.toNat && c.toNat ≤ 0x200A && c.toNat ≠ 0x2007)

def endsLineComment (c : Char) : Bool :=
  c = '\n' || c = '\r' || c = '\u2028' || c = '\u2029'

/-- The length of a block comment behind its `/*`, with its end. -/
def blockLength? : List Char → Option Nat
  | [] => none
  | '*' :: '/' :: _ => some 2
  | _ :: rest => (blockLength? rest).map (· + 1)

/-- The length of the comment that a text starts with; 0 if there is none. -/
def commentLength (cs : List Char) : Nat :=
  match cs with
  | '/' :: '/' :: rest => 2 + (rest.takeWhile (!endsLineComment ·)).length
  | '/' :: '*' :: rest => match blockLength? rest with
    | some n => 2 + n
    | none => 0
  | _ => 0

/-- The length of the blanks and comments that a text starts with. -/
def triviaLength (cs : List Char) : Nat :=
  match cs with
  | [] => 0
  | c :: rest =>
    if isSpace c then 1 + triviaLength rest
    else
      match commentLength (c :: rest) with
      | 0 => 0
      | n + 1 => n + 1 + triviaLength (rest.drop n)
termination_by cs.length
decreasing_by all_goals (simp only [List.length_cons, List.length_drop]; omega)

namespace Cursor

def start (source : List Char) : Cursor := { rest := source, line := 1, pos := 0 }

def drop : Nat → Cursor → Cursor
  | 0, c => c
  | n + 1, c =>
    match c.rest with
    | [] => c
    | x :: rest =>
      drop n { rest, line := if x = '\n' then c.line + 1 else c.line, pos := c.pos + 1 }

/-- Moves over blanks and comments. -/
def skip (c : Cursor) : Cursor := c.drop (triviaLength c.rest)

def upTo (c d : Cursor) : List Char := c.rest.take (d.pos - c.pos)

end Cursor

/-- The text behind blanks and comments on the same line, from the line break on. -/
def lineRest (cs : List Char) : List Char :=
  match cs with
  | [] => []
  | c :: rest =>
    if c ≠ '\n' ∧ isBreakSpace c then lineRest rest
    else
      match commentLength (c :: rest) with
      | 0 => cs
      | n + 1 => lineRest (rest.drop n)
termination_by cs.length
decreasing_by all_goals (simp only [List.length_cons, List.length_drop]; omega)

/-- The text behind blanks and comments. -/
def pastBreak (cs : List Char) : List Char :=
  match cs with
  | [] => []
  | c :: rest =>
    if isBreakSpace c then pastBreak rest
    else
      match commentLength (c :: rest) with
      | 0 => cs
      | n + 1 => pastBreak (rest.drop n)
termination_by cs.length
decreasing_by all_goals (simp only [List.length_cons, List.length_drop]; omega)

def startsWord (word rest : List Char) : Bool :=
  word.isPrefixOf rest && !((rest.drop word.length).head?.any Char.isAlpha)

/-- Whether a line that starts with the given text goes on with the statement before it. Where no
operator may follow, a bracket starts a statement of its own. -/
def continuesLine (operators : Bool) (cs : List Char) : Bool :=
  match cs with
  | '(' :: _ | '[' :: _ => operators
  | '+' :: rest => rest.head? ≠ some '+'
  | '-' :: rest => rest.head? ≠ some '-'
  | '!' :: rest => rest.head? = some '='
  | 'i' :: _ => startsWord ['i', 'n'] cs || startsWord "instanceof".toList cs
  | c :: _ => ['`', ',', '.', ';', '*', '%', '>', '<', '=', '?', '^', '|', '&', '/', ':'].contains c
  | [] => false

/-- Whether a statement may end here without a semicolon: at the end of the text, before a closing
brace, or at a line break behind which the statement does not go on. `operators` tells whether an
operator could follow; where none could, a brace in front of a colon ends no statement. -/
def Cursor.endsStatement (operators : Bool) (c : Cursor) : Bool :=
  match lineRest c.rest with
  | [] => true
  | '\x7d' :: rest =>
    (rest.dropWhile isBreakSpace).head? ≠ some ':' || operators
  | '\n' :: rest => !continuesLine operators (pastBreak rest)
  | _ => false

namespace Parser

variable {α : Type}

/-- The parser's place, before any blanks. -/
def here : Parser Cursor := get

def skip : Parser Unit := modify Cursor.skip

def line : Parser Nat := do
  skip
  return (← get).line

def ahead : Parser (List Char) := do return (← get).rest

def exactly (cs : List Char) : Parser Unit := do
  guard (cs.isPrefixOf (← ahead))
  modify (Cursor.drop cs.length)

/-- Takes the longest run of characters of a class. -/
def run (p : Char → Bool) : Parser (List Char) := do
  let cs := (← ahead).takeWhile p
  modify (Cursor.drop cs.length)
  return cs

/-- The next character, after blanks, without taking it. -/
def peek : Parser (Option Char) := do
  skip
  return (← ahead).head?

/-- Whether a parser succeeds here; nothing is taken. -/
def sees (p : Parser α) : Parser Bool := fun c =>
  some ((p c).isSome, c)

/-- Runs a parser as often as it succeeds and moves on. -/
def many (p : Parser α) (c : Cursor) : Option (List α × Cursor) :=
  match p c with
  | none => some ([], c)
  | some (a, d) =>
    if d.rest.length < c.rest.length then
      match many p d with
      | some (as, e) => some (a :: as, e)
      | none => none
    else some ([a], d)
termination_by c.rest.length

/-- Applies steps to a value as often as one succeeds and moves on. -/
def iterate (step : α → Parser α) (a : α) (c : Cursor) : Option (α × Cursor) :=
  match step a c with
  | none => some (a, c)
  | some (b, d) =>
    if d.rest.length < c.rest.length then iterate step b d else some (b, d)
termination_by c.rest.length

end Parser

end Scenario.Syntax
