import Scenario.Text.Digit
import Scenario.Text.Quoted
import Scenario.Number

namespace Scenario.Syntax

inductive NumeralError where
  | bigInt (raw : String)
  | notInteger (base : Nat) (text : String)
  | notNumber (text : String)
  deriving DecidableEq, Repr

namespace NumeralError

def message : NumeralError → String
  | .bigInt raw => "BigInt literal is not supported: " ++ raw
  | .notInteger base text =>
    "invalid literal for int() with base " ++ Number.decimal base ++ ": " ++
      String.ofList ((Text.quoted text).toList.take 200)
  | .notNumber text => "could not convert string to float: " ++ Text.quoted text

end NumeralError

namespace Numeral

/-- The greatest integer up to which binary64 holds every integer. -/
def maxExact : Nat := Nat.pow 2 53

/-- Reads decimal digits and blanks of other scripts as those of ASCII. -/
def toAscii (c : Char) : Char :=
  if c.toNat < 0x80 then c
  else match Text.decimalValue? c with
  | some d => Nat.digitChar d
  | none => if Text.isBlank c then ' ' else c

def isSpace (c : Char) : Bool := c = ' ' || (0x09 ≤ c.toNat && c.toNat ≤ 0x0D)

def trimmed (text : List Char) : List Char :=
  (((text.map toAscii).dropWhile isSpace).reverse.dropWhile isSpace).reverse

/-- The value of a digit of base 36 in either case. -/
def digitValue? (c : Char) : Option Nat :=
  if '0' ≤ c ∧ c ≤ '9' then some (c.toNat - '0'.toNat)
  else if 'a' ≤ c ∧ c ≤ 'z' then some (c.toNat - 'a'.toNat + 10)
  else if 'A' ≤ c ∧ c ≤ 'Z' then some (c.toNat - 'A'.toNat + 10)
  else none

def digits? (base : Nat) (cs : List Char) : Option Nat :=
  match cs.mapM fun c => (digitValue? c).filter (· < base) with
  | some (d :: ds) => some (Text.ofDigits base (d :: ds))
  | _ => none

/-- The base that a letter behind a leading zero names. -/
def prefixBase? (c : Char) : Option Nat :=
  if c = 'x' ∨ c = 'X' then some 16
  else if c = 'o' ∨ c = 'O' then some 8
  else if c = 'b' ∨ c = 'B' then some 2
  else none

def signed (cs : List Char) : Bool × List Char :=
  match cs with
  | '-' :: rest => (true, rest)
  | '+' :: rest => (false, rest)
  | _ => (false, cs)

/-- An integer in the given base, with blanks around it, a sign, and the base's own prefix. -/
def integer (base : Nat) (text : List Char) : Except NumeralError Int :=
  let (negative, cs) := signed (trimmed text)
  let body := match cs with
    | '0' :: p :: rest => if prefixBase? p = some base then rest else cs
    | _ => cs
  match digits? base body with
  | some n => .ok (if negative then -n else n)
  | none => .error (.notInteger base (String.ofList text))

/-- A decimal fraction as digits and a power of ten. -/
def fraction? (cs : List Char) : Option (Nat × Int) :=
  let whole := cs.takeWhile Char.isDigit
  let rest := cs.dropWhile Char.isDigit
  let (places, rest) := match rest with
    | '.' :: rest => (rest.takeWhile Char.isDigit, rest.dropWhile Char.isDigit)
    | _ => ([], rest)
  let mantissa := Text.decimalNumber (whole ++ places)
  if whole ++ places = [] then none
  else match rest with
  | [] => some (mantissa, -places.length)
  | e :: rest =>
    let (negative, power) := signed rest
    if (e = 'e' ∨ e = 'E') ∧ power ≠ [] ∧ power.all Char.isDigit then
      let n : Int := Text.decimalNumber power
      some (mantissa, (if negative then -n else n) - places.length)
    else none

def lower (cs : List Char) : String := String.ofList (cs.map Char.toLower)

/-- A binary64 number: a decimal fraction or one of the words for the values that are not finite,
with blanks around it and a sign. -/
def real (text : List Char) : Except NumeralError Binary64 :=
  let (negative, cs) := signed (trimmed text)
  if lower cs = "inf" ∨ lower cs = "infinity" then .ok (.infinite negative)
  else if lower cs = "nan" then .ok .nan
  else match fraction? cs with
  | some (mantissa, exponent) => .ok (.ofDecimal negative mantissa exponent)
  | none => .error (.notNumber (String.ofList text))

/-- A number that is an integer of at most 53 bits is read as that integer. -/
def exact (x : Binary64) : Number :=
  match x.toInt? with
  | some n => if n.natAbs ≤ maxExact then .int n else .float x
  | none => .float x

def isOctal (c : Char) : Bool := '0' ≤ c && c ≤ '7'

def read (raw : String) : Except NumeralError Number :=
  let text := raw.toList.filter (· != '_')
  if text.getLast? = some 'n' then .error (.bigInt raw)
  else
    match text with
    | '0' :: c :: rest =>
      match prefixBase? c with
      | some base => .int <$> integer base rest
      | none =>
        if (c :: rest).all Text.isDigit then
          .int <$> integer (if text.all isOctal then 8 else 10) text
        else exact <$> real text
    | _ => exact <$> real text

end Numeral

end Scenario.Syntax
