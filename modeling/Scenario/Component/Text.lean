import Scenario.Text.Blank
import Scenario.Value

namespace Scenario

/-- The lines of a text, which end at CRLF, LF or CR. -/
def textLines : List Char → List (List Char)
  | [] => [[]]
  | '\r' :: '\n' :: rest => [] :: textLines rest
  | '\n' :: rest => [] :: textLines rest
  | '\r' :: rest => [] :: textLines rest
  | c :: rest =>
    match textLines rest with
    | line :: more => (c :: line) :: more
    | [] => [[c]]

def dropSpaces (cs : List Char) : List Char := cs.dropWhile (· = ' ')

def dropSpacesRight (cs : List Char) : List Char := (dropSpaces cs.reverse).reverse

/-- A line without the spaces where it meets a line break. Tabs are read as spaces. -/
def trimLine (isFirst isLast : Bool) (line : List Char) : List Char :=
  let line := line.map fun c => if c = '\t' then ' ' else c
  let line := if isFirst then line else dropSpaces line
  if isLast then line else dropSpacesRight line

/-- The lines that are not empty, each with a space behind it but the last line that is not blank. -/
def joinLines (isFirst : Bool) : List (List Char) → List Char
  | [] => []
  | line :: more =>
    let trimmed := trimLine isFirst more.isEmpty line
    let isFinal := !line.all Text.isBlank && more.all (·.all Text.isBlank)
    let piece := if trimmed = [] then [] else if isFinal then trimmed else trimmed ++ [' ']
    piece ++ joinLines false more

/-- The text that a run between tags stands for. -/
def cleanText (raw : String) : String := String.ofList (joinLines true (textLines raw.toList))

/-- Something inside an element that shows as text: a fixed text or a prop. -/
inductive TextPiece where
  | text (s : String)
  | prop (v : Value)
  deriving Repr

namespace TextPiece

/-- The piece of text that a value shows as; most values show as nothing. -/
def ofValue? (v : Value) : Option TextPiece :=
  match v with
  | .number n => some (.text n.text)
  | .string s => some (.text s)
  | v => if v.isPropRef then some (.prop v) else none

def text? : TextPiece → Option String
  | .text s => some s
  | .prop _ => none

def fixedText (pieces : List TextPiece) : String :=
  Text.trim (String.join (pieces.filterMap text?))

end TextPiece

end Scenario
