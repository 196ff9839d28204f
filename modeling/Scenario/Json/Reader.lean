import Scenario.Text.Digit
import Scenario.Value

namespace Scenario.Json

/-- A reader takes a value off the front of a text. -/
abbrev Reader (α : Type) := List Char → Option (α × List Char)

def isSpace (c : Char) : Bool := c = ' ' || c = '\t' || c = '\n' || c = '\r'

def skipSpace (cs : List Char) : List Char := cs.dropWhile isSpace

def expect? : List Char → List Char → Option (List Char)
  | [], cs => some cs
  | _ :: _, [] => none
  | w :: ws, c :: cs => if w = c then expect? ws cs else none

def unit? : Reader Nat
  | a :: b :: c :: d :: rest =>
    if [a, b, c, d].all Text.isHex then some (Text.hexNumber [a, b, c, d], rest) else none
  | _ => none

def isHighSurrogate (n : Nat) : Bool := 0xD800 ≤ n && n < 0xDC00

def isLowSurrogate (n : Nat) : Bool := 0xDC00 ≤ n && n < 0xE000

def joinSurrogates (high low : Nat) : Char :=
  Char.ofNat (0x10000 + (high - 0xD800) * 0x400 + (low - 0xDC00))

/-- The character of a `\u` escape, which may take two units. -/
def unicodeEscape? (cs : List Char) : Option (Char × List Char) := do
  let (high, rest) ← unit? cs
  if isHighSurrogate high then
    let rest ← expect? ['\\', 'u'] rest
    let (low, rest) ← unit? rest
    if isLowSurrogate low then some (joinSurrogates high low, rest) else none
  else if isLowSurrogate high then none
  else some (Char.ofNat high, rest)

def simpleEscape? : Char → Option Char
  | '"' => some '"'
  | '\\' => some '\\'
  | '/' => some '/'
  | 'b' => some '\x08'
  | 'f' => some '\x0c'
  | 'n' => some '\n'
  | 'r' => some '\r'
  | 't' => some '\t'
  | _ => none

/-- The rest of a string behind its opening quote, with the characters read so far in reverse. -/
def stringBody : Nat → List Char → Reader String
  | 0, _, _ => none
  | _ + 1, _, [] => none
  | n + 1, acc, c :: rest =>
    if c = '"' then some (String.ofList acc.reverse, rest)
    else if c = '\\' then
      match rest with
      | 'u' :: rest => do
        let (c, rest) ← unicodeEscape? rest
        stringBody n (c :: acc) rest
      | e :: rest => do
        let c ← simpleEscape? e
        stringBody n (c :: acc) rest
      | [] => none
    else if c.toNat < 0x20 then none
    else stringBody n (c :: acc) rest

def digits (cs : List Char) : List Char × List Char :=
  (cs.takeWhile Char.isDigit, cs.dropWhile Char.isDigit)

/-- The integer part: a zero alone or digits that do not start with one. -/
def wholePart? (cs : List Char) : Option (List Char × List Char) :=
  match digits cs with
  | ([], _) => none
  | ('0' :: _ :: _, _) => none
  | (ds, rest) => some (ds, rest)

def fraction? (cs : List Char) : Option (List Char × List Char) :=
  match cs with
  | '.' :: rest => match digits rest with
    | ([], _) => none
    | (ds, rest) => some (ds, rest)
  | _ => some ([], cs)

def exponent? (cs : List Char) : Option (Option Int × List Char) :=
  match cs with
  | e :: rest =>
    if e = 'e' ∨ e = 'E' then
      let (negative, rest) := match rest with
        | '-' :: rest => (true, rest)
        | '+' :: rest => (false, rest)
        | _ => (false, rest)
      match digits rest with
      | ([], _) => none
      | (ds, rest) =>
        let n : Int := Text.decimalNumber ds
        some (some (if negative then -n else n), rest)
    else some (none, cs)
  | [] => some (none, cs)

def magnitude? (negative : Bool) (cs : List Char) : Option (Number × List Char) := do
  if let some rest := expect? "Infinity".toList cs then
    return (.float (.infinite negative), rest)
  let (whole, rest) ← wholePart? cs
  let (fraction, rest) ← fraction? rest
  let (exponent, rest) ← exponent? rest
  if fraction = [] ∧ exponent = none then
    let n : Int := Text.decimalNumber whole
    return (.int (if negative then -n else n), rest)
  else
    let e : Int := exponent.getD 0 - fraction.length
    return (.float (.ofDecimal negative (Text.decimalNumber (whole ++ fraction)) e), rest)

mutual

/-- A value, after blanks, with fuel for its nesting and items. -/
def value : Nat → Reader Value
  | 0, _ => none
  | n + 1, cs =>
    match skipSpace cs with
    | '"' :: rest => do
      let (s, rest) ← stringBody (rest.length + 1) [] rest
      some (.string s, rest)
    | '[' :: rest =>
      match skipSpace rest with
      | ']' :: rest => some (.list [], rest)
      | rest => do
        let (vs, rest) ← items n rest
        some (.list vs, rest)
    | '\x7b' :: rest =>
      match skipSpace rest with
      | '\x7d' :: rest => some (.object [], rest)
      | rest => do
        let (fs, rest) ← members n rest
        some (.object (Fields.ofAssignments fs), rest)
    | '-' :: rest => do
      let (x, rest) ← magnitude? true rest
      some (.number x, rest)
    | cs =>
      match expect? "null".toList cs with
      | some rest => some (.null, rest)
      | none => match expect? "true".toList cs with
        | some rest => some (.bool true, rest)
        | none => match expect? "false".toList cs with
          | some rest => some (.bool false, rest)
          | none => match expect? "NaN".toList cs with
            | some rest => some (.number (.float .nan), rest)
            | none => (magnitude? false cs).map fun (x, rest) => (.number x, rest)

def items : Nat → Reader (List Value)
  | 0, _ => none
  | n + 1, cs => do
    let (v, rest) ← value n cs
    match skipSpace rest with
    | ',' :: rest => do
      let (vs, rest) ← items n rest
      some (v :: vs, rest)
    | ']' :: rest => some ([v], rest)
    | _ => none

def members : Nat → Reader (List (String × Value))
  | 0, _ => none
  | n + 1, cs =>
    match skipSpace cs with
    | '"' :: rest => do
      let (k, rest) ← stringBody (rest.length + 1) [] rest
      let rest ← expect? [':'] (skipSpace rest)
      let (v, rest) ← value n rest
      match skipSpace rest with
      | ',' :: rest => do
        let (fs, rest) ← members n rest
        some ((k, v) :: fs, rest)
      | '\x7d' :: rest => some ([(k, v)], rest)
      | _ => none
    | _ => none

end

/-- The value that a whole text spells. Every step of the fuel takes at least one character. -/
def parse? (s : String) : Option Value := do
  let cs := s.toList
  let (v, rest) ← value (cs.length + 1) cs
  if skipSpace rest = [] then some v else none

end Scenario.Json
