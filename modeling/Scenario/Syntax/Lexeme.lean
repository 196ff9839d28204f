import Scenario.Syntax.Cursor
import Scenario.Syntax.Escape
import Scenario.Syntax.Numeral
import Scenario.Text.Reference

namespace Scenario.Syntax

def isWordChar (c : Char) : Bool :=
  !(c.toNat < 0x20 || isSpace c || ":;`\"'@#.,|^&<=>+-*/\\%?!~()[]\x7b\x7d".toList.contains c)

/-- The length of a `\u` escape inside a name, behind the backslash. -/
def wordEscapeLength? (cs : List Char) : Option Nat :=
  match cs with
  | 'u' :: '\x7b' :: rest =>
    let digits := rest.takeWhile Text.isHex
    if digits ≠ [] ∧ (rest.drop digits.length).head? = some '\x7d' then some (digits.length + 3)
    else none
  | 'u' :: rest => (fixedCode? 4 rest).map fun _ => 5
  | _ => none

/-- The length of the name that a text starts with; 0 if there is none. -/
def wordLength (cs : List Char) : Nat :=
  match cs with
  | [] => 0
  | c :: rest =>
    if isWordChar c then 1 + wordLength rest
    else if c = '\\' then
      match wordEscapeLength? rest with
      | some n => 1 + n + wordLength (rest.drop n)
      | none => 0
    else 0
termination_by cs.length
decreasing_by all_goals (simp only [List.length_cons, List.length_drop]; omega)

/-- The length of an escape behind its backslash, where one may stand there. -/
def escapeLength? (cs : List Char) : Option Nat :=
  match cs with
  | [] => none
  | 'x' :: rest => (fixedCode? 2 rest).map fun _ => 3
  | 'u' :: rest => wordEscapeLength? ('u' :: rest)
  | c :: rest =>
    if '0' ≤ c ∧ c ≤ '7' then
      some (1 + ((rest.take 2).takeWhile fun d => '0' ≤ d && d ≤ '7').length)
    else if (c = '\r' ∨ c = '?') ∧ rest.head?.any isLineEnd then some 2
    else some 1

/-- The length of a string's body behind the opening quote. -/
def stringLength? (quote : Char) (cs : List Char) : Option Nat :=
  match cs with
  | [] => none
  | c :: rest =>
    if c = quote then some 0
    else if c = '\\' then
      match escapeLength? rest with
      | some n => (stringLength? quote (rest.drop n)).map (· + n + 1)
      | none => none
    else if c = '\n' ∨ c = '\r' then none
    else (stringLength? quote rest).map (· + 1)
termination_by cs.length
decreasing_by all_goals (simp only [List.length_cons, List.length_drop]; omega)

/-- The length of a template's text up to its end or its next substitution. -/
def templateLength? (cs : List Char) : Option Nat :=
  match cs with
  | [] => none
  | c :: rest =>
    if c = '`' ∨ (c = '$' ∧ rest.head? = some '\x7b') then some 0
    else if c = '\\' then
      match escapeLength? rest with
      | some n => (templateLength? (rest.drop n)).map (· + n + 1)
      | none => none
    else (templateLength? rest).map (· + 1)
termination_by cs.length
decreasing_by all_goals (simp only [List.length_cons, List.length_drop]; omega)

/-- The length of a character reference behind its `&`, with the semicolon. -/
def referenceLength? (cs : List Char) : Option Nat :=
  let closed (start : Nat) (most : Nat) (p : Char → Bool) : Option Nat :=
    let body := (cs.drop start).takeWhile p
    if body ≠ [] ∧ body.length ≤ most ∧ (cs.drop (start + body.length)).head? = some ';' then
      some (start + body.length + 1)
    else none
  match cs with
  | '#' :: x :: _ => if x = 'x' ∨ x = 'X' then closed 2 6 Text.isHex else closed 1 5 Char.isDigit
  | _ => closed 0 30 Char.isAlpha

/-- The length of an attribute's string behind the opening quote. A `&` that does not start a
reference takes the next character with it. -/
def attributeStringLength? (quote : Char) (cs : List Char) : Option Nat :=
  match cs with
  | [] => none
  | c :: rest =>
    if c = quote then some 0
    else if c = '&' then
      match rest with
      | [] => none
      | d :: more =>
        if d = '#' ∨ d.isAlpha then
          match referenceLength? (d :: more) with
          | some n => (attributeStringLength? quote ((d :: more).drop n)).map (· + n + 1)
          | none => none
        else (attributeStringLength? quote more).map (· + 2)
    else (attributeStringLength? quote rest).map (· + 1)
termination_by cs.length
decreasing_by all_goals (simp only [List.length_cons, List.length_drop]; omega)

/-- The length of digits that may have single `_` between them. -/
def digitsLength (p : Char → Bool) : List Char → Nat
  | [] => 0
  | '_' :: _ => 0
  | c :: '_' :: d :: rest => if p c then (if p d then 2 + digitsLength p (d :: rest) else 1) else 0
  | c :: rest => if p c then 1 + digitsLength p rest else 0

def exponentLength (cs : List Char) : Nat :=
  match cs with
  | e :: rest =>
    if e = 'e' ∨ e = 'E' then
      let mark := match rest with
        | c :: _ => if c = '+' ∨ c = '-' then 1 else 0
        | [] => 0
      match digitsLength Char.isDigit (rest.drop mark) with
      | 0 => 0
      | n => 1 + mark + n
    else 0
  | [] => 0

/-- The length of a decimal numeral. Only a whole part without a superfluous zero takes a fraction
or an exponent. -/
def decimalLength (cs : List Char) : Nat :=
  let whole := digitsLength Char.isDigit cs
  let canExtend := match cs.take whole with
    | ['0'] => true
    | '0' :: d :: _ => d ≠ '0' && d ≠ '_'
    | _ :: _ => true
    | [] => false
  match cs.drop whole with
  | '.' :: rest =>
    if canExtend then
      let places := digitsLength Char.isDigit rest
      whole + 1 + places + exponentLength (rest.drop places)
    else if whole = 0 then
      match digitsLength Char.isDigit rest with
      | 0 => 0
      | places => 1 + places + exponentLength (rest.drop places)
    else whole
  | 'n' :: _ => if whole = 0 then 0 else whole + 1
  | rest => if canExtend then whole + exponentLength rest else whole

/-- The length of the numeral that a text starts with; 0 if there is none. -/
def numeralLength (cs : List Char) : Nat :=
  match cs with
  | '0' :: x :: rest =>
    match Numeral.prefixBase? x with
    | some base =>
      let p (c : Char) : Bool := (Numeral.digitValue? c).any (· < base)
      match digitsLength p rest with
      | 0 => 1
      | n => 2 + n + if (rest.drop n).head? = some 'n' then 1 else 0
    | none => decimalLength cs
  | _ => decimalLength cs

/-- The length of a regular expression behind its opening slash, up to the closing one. -/
def regexLength? (inClass : Bool) : List Char → Option Nat
  | [] => none
  | '\n' :: _ => none
  | '\\' :: '\n' :: _ => none
  | '\\' :: _ :: rest => (regexLength? inClass rest).map (· + 2)
  | c :: rest =>
    if c = '/' ∧ !inClass then some 0
    else (regexLength? (if c = '[' then true else if c = ']' then false else inClass) rest).map (· + 1)

namespace Parser

def taken (n : Nat) : Parser (List Char) := do
  let cs := (← ahead).take n
  modify (Cursor.drop n)
  return cs

/-- A name, reserved or not. -/
def word : Parser String := do
  skip
  let cs ← ahead
  guard (!cs.head?.any Char.isDigit)
  let n := wordLength cs
  guard (n ≠ 0)
  return String.ofList (← taken n)

def keyword (k : String) : Parser Unit := do
  guard ((← word) == k)

def oneOf (ks : List String) : Parser String := do
  let w ← word
  guard (ks.contains w)
  return w

def punct (s : String) : Parser Unit := do
  skip
  exactly s.toList

/-- Punctuation that the given characters do not extend. -/
def punctBefore (s : String) (not : List Char) : Parser Unit := do
  punct s
  guard (!(← ahead).head?.any not.contains)

def stringLiteral : Parser (String × List Char) := do
  skip
  let place ← here
  match ← ahead with
  | q :: rest =>
    guard (q = '"' || q = '\'')
    match stringLength? q rest with
    | some n =>
      let raw ← taken (n + 2)
      return (String.ofList (decodeBody ((place.rest.drop 1).take n)), raw)
    | none => failure
  | [] => failure

def numeral : Parser String := do
  skip
  let n := numeralLength (← ahead)
  guard (n ≠ 0)
  return String.ofList (← taken n)

def regex : Parser Unit := do
  punct "/"
  match regexLength? false (← ahead) with
  | some n =>
    guard (n ≠ 0)
    let _ ← taken (n + 1)
    let _ ← run fun c => 'a' ≤ c && c ≤ 'z'
  | none => failure

/-- A semicolon, written or understood. -/
def semicolon (operators : Bool) : Parser Unit := do
  if (← here).endsStatement operators then pure () else punct ";"

end Parser

end Scenario.Syntax
