import Scenario.Value

namespace Scenario

inductive Code where
  | syntaxError
  | emptySource
  | missingKey
  | invalidKey
  | invalidMetadata
  | missingMain
  | emptyMain
  | missingComponentType
  | duplicateComponentName
  | unknownComponent
  | mixedTextChildren
  | unsupportedActionExpression
  | internalError
  deriving DecidableEq, Repr

namespace Code

def all : List Code :=
  [.syntaxError, .emptySource, .missingKey, .invalidKey, .invalidMetadata, .missingMain, .emptyMain,
   .missingComponentType, .duplicateComponentName, .unknownComponent, .mixedTextChildren,
   .unsupportedActionExpression, .internalError]

def name : Code → String
  | .syntaxError => "SYNTAX_ERROR"
  | .emptySource => "EMPTY_SOURCE"
  | .missingKey => "MISSING_KEY"
  | .invalidKey => "INVALID_KEY"
  | .invalidMetadata => "INVALID_METADATA"
  | .missingMain => "MISSING_MAIN"
  | .emptyMain => "EMPTY_MAIN"
  | .missingComponentType => "MISSING_COMPONENT_TYPE"
  | .duplicateComponentName => "DUPLICATE_COMPONENT_NAME"
  | .unknownComponent => "UNKNOWN_COMPONENT"
  | .mixedTextChildren => "MIXED_TEXT_CHILDREN"
  | .unsupportedActionExpression => "UNSUPPORTED_ACTION_EXPRESSION"
  | .internalError => "INTERNAL_ERROR"

def ofName? (s : String) : Option Code := all.find? (·.name == s)

end Code

inductive Severity where
  | error
  | warning
  deriving DecidableEq, Repr

namespace Severity

def name : Severity → String
  | .error => "error"
  | .warning => "warning"

def ofName? (s : String) : Option Severity := [error, warning].find? (·.name == s)

def label : Severity → String
  | .error => "ERROR"
  | .warning => "WARNING"

end Severity

structure Diagnostic where
  code : Code
  message : String
  severity : Severity := .error
  line : Option Int := none
  column : Option Int := none
  deriving Repr

namespace Diagnostic

def isError (d : Diagnostic) : Bool := d.severity = .error

/-- A place in a source; zero stands for no place. -/
def place (n : Int) : Option Int := if n = 0 then none else some n

/-- The place of a diagnostic in brackets, as far as it is known. -/
def location (d : Diagnostic) : String :=
  match d.line, d.column with
  | none, _ => ""
  | some l, none => " (line " ++ Number.decimal l ++ ")"
  | some l, some c => " (line " ++ Number.decimal l ++ ", column " ++ Number.decimal c ++ ")"

def format (d : Diagnostic) : String :=
  d.severity.label ++ " " ++ d.code.name ++ ": " ++ d.message ++ d.location

def toFields (d : Diagnostic) : Fields Value :=
  [("code", .string d.code.name), ("message", .string d.message),
   ("severity", .string d.severity.name)]
    ++ Fields.present [("line", d.line.map .int), ("column", d.column.map .int)]

def toValue (d : Diagnostic) : Value := .object d.toFields

end Diagnostic

/-- A failed compile: its diagnostics, of which there is at least one. -/
structure Failure where
  diagnostics : List Diagnostic
  nonempty : diagnostics ≠ []

namespace Failure

def errors (f : Failure) : List Diagnostic := f.diagnostics.filter (·.isError)

/-- The first error, and how many there are. Where nothing is an error, everything counts. -/
def summary (f : Failure) : String :=
  let counted := if f.errors.isEmpty then f.diagnostics else f.errors
  match counted with
  | [] => ""
  | [d] => "Compilation failed: " ++ d.message
  | d :: _ =>
    "Compilation failed with " ++ Number.decimal counted.length ++ " errors: " ++ d.message

def toValue (f : Failure) : Value :=
  .object [("error", .string f.summary), ("errors", .list (f.diagnostics.map (·.toValue)))]

end Failure

end Scenario
