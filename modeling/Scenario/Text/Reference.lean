import Scenario.Text.Digit
import Scenario.Text.ReferenceNames

namespace Scenario.Text

/-- The character with the given code, or U+FFFD where there is none. -/
def charOrReplacement (code : Nat) : Char :=
  if code.isValidChar then Char.ofNat code else '\uFFFD'

/-- The text that each name of the table stands for. -/
def namedReferences : List (List Char × List Char) :=
  (referenceTable.flatMap (·.splitOn " ")).filterMap fun word =>
    match word.splitOn "=" with
    | [name, codes] =>
      some (name.toList, (codes.splitOn "+").map fun code => charOrReplacement (hexNumber code.toList))
    | _ => none

def openReferences : List (List Char) := (openNames.flatMap (·.splitOn " ")).map String.toList

/-- What the codes 0x80 to 0x9F stand for: the characters that Windows-1252 has there. -/
def legacyCodes : List Nat :=
  [0x20AC, 0x81, 0x201A, 0x192, 0x201E, 0x2026, 0x2020, 0x2021, 0x2C6, 0x2030, 0x160, 0x2039, 0x152,
   0x8D, 0x17D, 0x8F, 0x90, 0x2018, 0x2019, 0x201C, 0x201D, 0x2022, 0x2013, 0x2014, 0x2DC, 0x2122,
   0x161, 0x203A, 0x153, 0x9D, 0x17E, 0x178]

/-- Codes of control characters and noncharacters, which a reference drops. -/
def isDroppedCode (code : Nat) : Bool :=
  inRanges [(0x1, 0x8), (0xB, 0xB), (0xE, 0x1F), (0x7F, 0x9F), (0xFDD0, 0xFDEF)] code
    || (code % 0x10000 == 0xFFFE || code % 0x10000 == 0xFFFF)

def numericReference (code : Nat) : List Char :=
  if code = 0 then ['\uFFFD']
  else if 0x80 ≤ code ∧ code < 0xA0 then
    [charOrReplacement (legacyCodes.getD (code - 0x80) 0xFFFD)]
  else if !code.isValidChar then ['\uFFFD']
  else if isDroppedCode code then []
  else [Char.ofNat code]

/-- The text of a name with or without a closing semicolon. -/
def wholeName? (name : List Char) : Option (List Char) :=
  if name.getLast? = some ';' then namedReferences.lookup name.dropLast
  else if openReferences.contains name then namedReferences.lookup name
  else none

/-- The text of a name as written: a whole name, else the longest proper start of at least two
characters that is one, else the name itself behind its `&`. -/
def namedReference (name : List Char) : List Char :=
  match wholeName? name with
  | some text => text
  | none =>
    let starts := (List.range name.length).reverse.filter (2 ≤ ·)
    match starts.findSome? fun n => (wholeName? (name.take n)).map (· ++ name.drop n) with
    | some text => text
    | none => '&' :: name

def isNameChar (c : Char) : Bool := !(['\t', '\n', '\x0c', ' ', '<', '&', '#', ';'].contains c)

/-- The length of a reference body with its closing semicolon, if one follows. -/
def closedLength (body rest : List Char) : Nat :=
  body.length + if rest.head? = some ';' then 1 else 0

/-- Reads the reference whose `&` stands before the given text: its text and its length. -/
def reference? (cs : List Char) : Option (List Char × Nat) :=
  match cs with
  | '#' :: x :: rest =>
    let hex := rest.takeWhile isHex
    let decimal := (x :: rest).takeWhile Char.isDigit
    if (x = 'x' ∨ x = 'X') ∧ hex ≠ [] then
      some (numericReference (hexNumber hex), 2 + closedLength hex (rest.drop hex.length))
    else if decimal ≠ [] then
      some (numericReference (decimalNumber decimal),
        1 + closedLength decimal ((x :: rest).drop decimal.length))
    else none
  | _ =>
    let name := (cs.take 32).takeWhile isNameChar
    if name = [] then none
    else
      let n := closedLength name (cs.drop name.length)
      some (namedReference (cs.take n), n)

/-- Replaces every character reference of a text. -/
def unescape : List Char → List Char
  | [] => []
  | c :: rest =>
    if c = '&' then
      match reference? rest with
      | some (text, n) => text ++ unescape (rest.drop n)
      | none => c :: unescape rest
    else c :: unescape rest
termination_by cs => cs.length
decreasing_by all_goals (simp only [List.length_cons, List.length_drop]; omega)

end Scenario.Text
