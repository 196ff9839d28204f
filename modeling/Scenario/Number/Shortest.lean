import Scenario.Number.Binary64

namespace Scenario.Binary64

/-- Significant digits `d₁d₂…` and the exponent `e` of the number `d₁.d₂… · 10 ^ e`. -/
structure Digits where
  digits : List Char
  exponent : Int
  deriving DecidableEq, Repr

/-- The reals that round to `m · 2 ^ e`, in units of `2 ^ (e - 2)`: from `low` to `high`, ends
included for an even mantissa. The gap below a power of two is half as wide. -/
structure Interval where
  low : Nat
  high : Nat
  closed : Bool

def interval (m : Nat) (e : Int) : Interval where
  low := if m = Nat.pow 2 52 ∧ e > minExponent then 4 * m - 1 else 4 * m - 2
  high := 4 * m + 2
  closed := m % 2 = 0

def Interval.contains (i : Interval) (num den : Nat) : Bool :=
  if i.closed then i.low * den ≤ num && num ≤ i.high * den
  else i.low * den < num && num < i.high * den

/-- `⌊log₁₀ (num / den)⌋` for a positive fraction between `10 ^ -400` and `10 ^ 400`. -/
def log10 (num den : Nat) : Int :=
  if den ≤ num then (Nat.toDigits 10 (num / den)).length - 1
  else
    match (List.range 400).find? fun k => den ≤ num * Nat.pow 10 k with
    | some k => -k
    | none => -400

def tenMultiple (n : Nat) (k : Int) : Nat × Nat :=
  if 0 ≤ k then (n * Nat.pow 10 k.toNat, 1) else (n, Nat.pow 10 (-k).toNat)

/-- The grid point of `count` digits nearest to `m · 2 ^ e` that rounds back to it, as a multiple
of `10 ^ k`; an even one if two are equally near. -/
def onGrid? (m : Nat) (e : Int) (top : Int) (count : Nat) : Option (Nat × Int) :=
  let k := top - count + 1
  let (vn, vd) := magnitude m e
  let (gn, gd) := tenMultiple 1 k
  let below := vn * gd / (vd * gn)
  let hits (n : Nat) : Bool :=
    let (tn, td) := tenMultiple n k
    let (un, ud) := magnitude 1 (e - 2)
    (interval m e).contains (tn * ud) (td * un)
  let rest := vn * gd - below * (vd * gn)
  match hits below, hits (below + 1) with
  | true, true =>
    if 2 * rest > vd * gn ∨ (2 * rest = vd * gn ∧ below % 2 = 1) then some (below + 1, k)
    else some (below, k)
  | true, false => some (below, k)
  | false, true => some (below + 1, k)
  | false, false => none

def dropTrailingZeros (cs : List Char) : List Char := (cs.reverse.dropWhile (· == '0')).reverse

/-- The fewest digits that read back as `m · 2 ^ e`, for a positive mantissa. -/
def shortest (m : Nat) (e : Int) : Digits :=
  let (n, d) := magnitude m e
  let top := log10 n d
  match (List.range 18).findSome? fun i => onGrid? m e top (i + 1) with
  | some (p, k) =>
    let text := Nat.toDigits 10 p
    { digits := dropTrailingZeros text, exponent := k + text.length - 1 }
  | none => { digits := ['0'], exponent := 0 }

/-- How digits are laid out: positionally for exponents in a range, and otherwise with an exponent
of at least `width` digits behind its sign. -/
structure Layout where
  least : Int
  beyond : Int
  width : Nat

/-- Positional text always has a point, `0` standing on either side of it if nothing else does. -/
def positional (d : Digits) : List Char :=
  if d.exponent < 0 then
    '0' :: '.' :: (List.replicate ((-d.exponent).toNat - 1) '0' ++ d.digits)
  else
    let places := d.exponent.toNat + 1
    let whole := d.digits.take places
    let fraction := d.digits.drop places
    whole ++ List.replicate (places - whole.length) '0' ++ '.' ::
      (if fraction = [] then ['0'] else fraction)

def scientific (width : Nat) (d : Digits) : List Char :=
  let power := Nat.toDigits 10 d.exponent.natAbs
  let mark := if d.exponent < 0 then '-' else '+'
  let fraction := d.digits.drop 1
  d.digits.take 1 ++ (if fraction = [] then [] else '.' :: fraction) ++
    'e' :: mark :: (List.replicate (width - power.length) '0' ++ power)

def Layout.magnitude (layout : Layout) (d : Digits) : List Char :=
  if layout.least ≤ d.exponent ∧ d.exponent < layout.beyond then positional d
  else scientific layout.width d

/-- The text of a number, with `inf` and `nan` for those that are not finite. -/
def render (layout : Layout) : Binary64 → String
  | .finite s m e =>
    let body := if m = 0 then ['0', '.', '0'] else layout.magnitude (shortest m e)
    String.ofList (if s then '-' :: body else body)
  | .infinite s => if s then "-inf" else "inf"
  | .nan => "nan"

end Scenario.Binary64
