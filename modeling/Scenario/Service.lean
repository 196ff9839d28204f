import Scenario.Compile
import Scenario.Wire.Documents

namespace Scenario.Service

open Wire

structure Call where
  method : String
  path : String
  body : String := ""

/-- An answer; a rejected body is answered with a status alone. -/
structure Reply where
  status : Nat
  body : Option Value := none

inductive Route where
  | health
  | compile
  | components
  deriving DecidableEq, Repr

namespace Route

def path : Route → String
  | .health => "/health"
  | .compile => "/compile"
  | .components => "/compile/components"

def method : Route → String
  | .health => "GET"
  | .compile => "POST"
  | .components => "GET"

/-- The route of a path, behind which slashes and a query may follow. -/
def ofPath? (path : String) : Option Route :=
  let cs := path.toList.takeWhile (· != '?')
  let path := String.ofList (cs.reverse.dropWhile (· = '/')).reverse
  [health, compile, components].find? (·.path == path)

end Route

structure CompileCall where
  source : String
  overrides : Overrides

def CompileCall.ofValue : Decoder CompileCall
  | .object fs =>
    (fun (source, strict, allowUnknown, emitStyles) =>
        { source, overrides := { strict, allowUnknown, emitStyles } }) <$>
      (required ⟨"jsxCode", "jsx_code"⟩ text fs).both
        ((defaulted ⟨"strictMode", "strict_mode"⟩ none (nullable flag) fs).both
          ((defaulted ⟨"allowUnknownComponents", "allow_unknown_components"⟩ none (nullable flag)
              fs).both
            (defaulted ⟨"emitDefaultStyles", "emit_default_styles"⟩ none (nullable flag) fs)))
  | _ => .fail .notRecord

def detail (status : Nat) (v : Value) : Reply := { status, body := some (.object [("detail", v)]) }

/-- A warning with a place that may be null. -/
def warning (d : Diagnostic) : Value :=
  let place (n : Option Int) : Value := (n.map Value.int).getD .null
  .object
    [("code", .string d.code.name), ("message", .string d.message),
     ("severity", .string d.severity.name), ("line", place d.line), ("column", place d.column)]

def compileReply (environment : List (String × String)) (c : CompileCall) : Reply :=
  if Text.allBlank c.source then detail 400 (.string "Validation failed")
  else
    match (Scenario.compile (.ofEnvironment environment c.overrides) c.source).result with
    | .error f => detail 400 f.toValue
    | .ok d =>
      { status := 200
        body := some (.object
          [("scenario", d.dump Ticket.id), ("warnings", .list (d.warnings.map warning))]) }

/-- A body without the mark that may stand before it. -/
def bodyText (s : String) : String :=
  match s.toList with
  | '\uFEFF' :: rest => String.ofList rest
  | _ => s

/-- The reply to a request in an environment of the given variables. -/
def reply (environment : List (String × String)) (c : Call) : Reply :=
  match Route.ofPath? c.path with
  | none => detail 404 (.string "Not Found")
  | some route =>
    if route.method ≠ c.method then detail 405 (.string "Method Not Allowed")
    else
      match route with
      | .health => { status := 200, body := some (.object [("status", .string "healthy")]) }
      | .components =>
        { status := 200
          body := some (.object
            [("components", Registry.standard.toValue), ("total", .nat Registry.standard.size)]) }
      | .compile =>
        match (Json.parse? (bodyText c.body)).map CompileCall.ofValue with
        | some (.ok call) => compileReply environment call
        | _ => { status := 422 }

end Scenario.Service
