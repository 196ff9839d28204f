import Scenario.Text.Digit
import Scenario.Json.Reader

namespace Scenario.Syntax

def isLineEnd (c : Char) : Bool := c = '\n' || c = '\u2028' || c = '\u2029'

/-- The letters that denote a control character. -/
def simpleEscape? : Char → Option Char
  | 'n' => some '\n'
  | 't' => some '\t'
  | 'r' => some '\r'
  | 'b' => some '\x08'
  | 'f' => some '\x0c'
  | 'v' => some '\x0b'
  | '0' => some '\x00'
  | _ => none

/-- The digits of `\u{…}` behind the brace, if they are hexadecimal and name a code point. -/
def bracedCode? (cs : List Char) : Option (Nat × Nat) :=
  let digits := cs.takeWhile (· != '\x7d')
  if digits.length < cs.length ∧ digits ≠ [] ∧ digits.all Text.isHex
      ∧ Text.hexNumber digits ≤ 0x10FFFF then
    some (Text.hexNumber digits, digits.length)
  else none

def fixedCode? (width : Nat) (cs : List Char) : Option Nat :=
  let digits := cs.take width
  if digits.length = width ∧ digits.all Text.isHex then some (Text.hexNumber digits) else none

/-- What a backslash and the character `e` denote, given the text behind them: the units, and how
many characters of that text belong to the escape. A character that starts no escape stands for
itself, and a line end for nothing. -/
def escape (e : Char) (rest : List Char) : List Nat × Nat :=
  if e = '0' ∧ (rest.head?.any Text.isDigit) then ([e.toNat], 0)
  else match simpleEscape? e with
  | some c => ([c.toNat], 0)
  | none =>
    if e = 'x' then
      match fixedCode? 2 rest with
      | some n => ([n], 2)
      | none => ([e.toNat], 0)
    else if e = 'u' then
      match rest with
      | '\x7b' :: body =>
        match bracedCode? body with
        | some (n, width) => ([n], width + 2)
        | none => ([e.toNat], 0)
      | _ =>
        match fixedCode? 4 rest with
        | some n => ([n], 4)
        | none => ([e.toNat], 0)
    else if e = '\r' then ([], if rest.head? = some '\n' then 1 else 0)
    else if isLineEnd e then ([], 0)
    else ([e.toNat], 0)

/-- The code points and surrogates that a string body denotes. A backslash at the end stands for
itself. -/
def units : List Char → List Nat
  | [] => []
  | [c] => [c.toNat]
  | c :: e :: rest =>
    if c = '\\' then (escape e rest).1 ++ units (rest.drop (escape e rest).2)
    else c.toNat :: units (e :: rest)
termination_by cs => cs.length
decreasing_by all_goals (simp only [List.length_cons, List.length_drop]; omega)

/-- Joins surrogate pairs and replaces the surrogates that are left over. -/
def joinUnits : List Nat → List Char
  | [] => []
  | [n] => [unitChar n]
  | high :: low :: rest =>
    if Json.isHighSurrogate high && Json.isLowSurrogate low then
      Json.joinSurrogates high low :: joinUnits rest
    else unitChar high :: joinUnits (low :: rest)
where
  /-- The character of a single unit. -/
  unitChar (n : Nat) : Char := if n.isValidChar then Char.ofNat n else '\uFFFD'

/-- The text that a string body denotes. -/
def decodeBody (body : List Char) : List Char := joinUnits (units body)

/-- The text of a string with or without its quotes. -/
def decodeString (raw : String) : String :=
  let cs := raw.toList
  match cs with
  | q :: rest =>
    if (q = '\'' ∨ q = '"' ∨ q = '`') ∧ rest.getLast? = some q then
      String.ofList (decodeBody rest.dropLast)
    else String.ofList (decodeBody cs)
  | [] => ""

end Scenario.Syntax
