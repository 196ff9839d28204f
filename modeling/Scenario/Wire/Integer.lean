import Scenario.Text.Digit

namespace Scenario.Wire

/-- Blanks around a numeral, of which the information separators are none. -/
def isNumeralBlank (c : Char) : Bool :=
  Text.isBlank c && !(0x1C ≤ c.toNat && c.toNat ≤ 0x1F)

def isPositiveDigit (c : Char) : Bool := '1' ≤ c && c ≤ '9'

/-- A decimal numeral without leading zeros, perhaps with a minus sign. -/
def plainInteger? (cs : List Char) : Option Int :=
  let (negative, digits) := match cs with
    | '-' :: rest => (true, rest)
    | _ => (false, cs)
  let value : Int := Text.decimalNumber digits
  match digits with
  | [] => none
  | '0' :: _ :: _ => none
  | _ => if digits.all Char.isDigit then some (if negative then -value else value) else none

/-- The numeral behind zeros and underscores, given the last of them. -/
def behindZeros? (last : Char) : List Char → Option (List Char)
  | [] => some [last]
  | c :: rest =>
    if c = '0' ∨ c = '_' then behindZeros? c rest
    else if isPositiveDigit c then some (c :: rest)
    else if c = '.' then some (last :: c :: rest)
    else none

/-- A numeral without its leading zeros. Behind a sign there must be none. -/
def withoutZeros? : List Char → Option (List Char)
  | [] => none
  | c :: rest =>
    if c = '0' then behindZeros? c rest
    else if isPositiveDigit c ∨ c = '-' then some (c :: rest)
    else none

/-- A numeral without a fraction of zeros. -/
def withoutFraction (cs : List Char) : List Char :=
  let whole := cs.takeWhile (· != '.')
  let fraction := (cs.dropWhile (· != '.')).drop 1
  if fraction.all (· = '0') then whole else cs

/-- Whether each underscore stands alone between other characters. -/
def underscoresApart : List Char → Bool
  | [] => true
  | '_' :: _ => false
  | _ :: '_' :: rest => match rest with
    | [] => false
    | c :: _ => c != '_' && underscoresApart rest
  | _ :: rest => underscoresApart rest

/-- The numeral that a text with liberties stands for. -/
def cleanedNumeral? (cs : List Char) : Option (List Char) := do
  let cs := ((cs.dropWhile isNumeralBlank).reverse.dropWhile isNumeralBlank).reverse
  let cs ← match cs with
    | '+' :: '-' :: _ => none
    | '+' :: rest => some rest
    | _ => some cs
  let cs := withoutFraction (← withoutZeros? cs)
  if underscoresApart cs then some (cs.filter (· != '_')) else none

/-- The integer that a text stands for. -/
def integerText? (s : String) : Option Int :=
  plainInteger? s.toList <|> (cleanedNumeral? s.toList).bind plainInteger?

end Scenario.Wire
