import Scenario.Value

namespace Scenario.Json

/-- A character inside a JSON string. Everything from the space on is written as it is, but for the
quote and the backslash. -/
def escapedChar (c : Char) : String :=
  if c = '"' then "\\\""
  else if c = '\\' then "\\\\"
  else if c = '\n' then "\\n"
  else if c = '\r' then "\\r"
  else if c = '\t' then "\\t"
  else if c = '\x08' then "\\b"
  else if c = '\x0c' then "\\f"
  else if c.toNat < 0x20 then "\\u" ++ String.ofList (Text.hexDigits 4 c.toNat)
  else c.toString

def quotedText (s : String) : String :=
  s.toList.foldl (fun acc c => acc ++ escapedChar c) "\"" ++ "\""

def number : Number → String
  | .int n => Number.decimal n
  | .float x => if x.isFinite then x.render Number.inDocument else "null"

/-- Where an item starts: nothing on one line, else a line break and the indentation of its depth. -/
def lineStart (indent : Option Nat) (depth : Nat) : String :=
  match indent with
  | none => ""
  | some width => String.ofList ('\n' :: List.replicate (width * depth) ' ')

/-- Items between brackets; none at all leave the brackets together. -/
def enclosed (indent : Option Nat) (depth : Nat) (left right : String) (items : List String) :
    String :=
  match items with
  | [] => left ++ right
  | _ =>
    let start := lineStart indent (depth + 1)
    left ++ start ++ ("," ++ start).intercalate items ++ lineStart indent depth ++ right

mutual

def write (indent : Option Nat) (depth : Nat) : Value → String
  | .null => "null"
  | .bool b => if b then "true" else "false"
  | .number n => number n
  | .string s => quotedText s
  | .list items => enclosed indent depth "[" "]" (writeItems indent (depth + 1) items)
  | .object fs => enclosed indent depth "\x7b" "\x7d" (writeFields indent (depth + 1) fs)

def writeItems (indent : Option Nat) (depth : Nat) : List Value → List String
  | [] => []
  | v :: rest => write indent depth v :: writeItems indent depth rest

def writeFields (indent : Option Nat) (depth : Nat) : List (String × Value) → List String
  | [] => []
  | (k, v) :: rest =>
    let colon := if indent.isSome then ": " else ":"
    (quotedText k ++ colon ++ write indent depth v) :: writeFields indent depth rest

end

/-- The JSON text of a value, indented by a width or compact. -/
def render (indent : Option Nat) (v : Value) : String := write indent 0 v

end Scenario.Json
