import Scenario.Assembly
import Scenario.Extraction
import Scenario.Syntax.Program

namespace Scenario

/-- What a compile gives: a document or a failure, all diagnostics, and what was left out. -/
structure Compiled where
  result : Except Failure (Document Ticket)
  diagnostics : List Diagnostic
  dropped : List Dropped := []

namespace Compiled

def failure (earlier : List Diagnostic) (code : Code) (message : String) : Compiled :=
  let d : Diagnostic := { code := code, message := message }
  let f : Failure := ⟨earlier ++ [d], by simp⟩
  { result := .error f, diagnostics := f.diagnostics }

end Compiled

/-- Compiles a program, given by its statements. The parts are never incomplete without an error. -/
def compileProgram (options : Options) (body : List Syntax.Node) : Compiled :=
  let e := extract options body
  match e.parts.assemble e.diagnostics with
  | .ok d => { result := .ok d, diagnostics := d.warnings, dropped := e.dropped }
  | .error (.failed f) =>
    { result := .error f, diagnostics := f.diagnostics, dropped := e.dropped }
  | .error (.incomplete _) =>
    .failure e.diagnostics .internalError "Internal compiler error: incomplete document"

def compile (options : Options) (source : String) : Compiled :=
  if Text.allBlank source then .failure [] .emptySource "Source is empty"
  else
    match Syntax.parse? source with
    | some (.program body) => compileProgram options body
    | _ => .failure [] .syntaxError "<syntax error>"

end Scenario
