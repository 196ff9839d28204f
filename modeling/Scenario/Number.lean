import Scenario.Number.Shortest

namespace Scenario

inductive Number where
  | int (n : Int)
  | float (x : Binary64)
  deriving DecidableEq, Repr, Inhabited

namespace Number

def neg : Number → Number
  | .int n => .int (-n)
  | .float x => .float x.neg

def isZero : Number → Bool
  | .int n => n == 0
  | .float x => x.isZero

/-- In running text a binary64 number is positional below `10 ^ 16` and from `10 ^ -4` on, and an
exponent has two digits. -/
def inText : Binary64.Layout := { least := -4, beyond := 16, width := 2 }

/-- In documents a binary64 number is positional from `10 ^ -5` on. -/
def inDocument : Binary64.Layout := { least := -5, beyond := 16, width := 1 }

def decimal (n : Int) : String :=
  if n < 0 then "-" ++ String.ofList (Nat.toDigits 10 n.natAbs)
  else String.ofList (Nat.toDigits 10 n.natAbs)

def text : Number → String
  | .int n => decimal n
  | .float x => x.render inText

end Number

end Scenario
