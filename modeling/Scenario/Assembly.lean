import Scenario.Document
import Scenario.Registry
import Scenario.Wire.Defect

namespace Scenario

def isKeyChar (c : Char) : Bool := c.isAlphanum || c = '_' || c = '-'

inductive KeyProblem where
  | length (n : Nat)
  | characters (key : String)
  deriving DecidableEq, Repr

def KeyProblem.message : KeyProblem → String
  | .length n => "Scenario key must be 1-100 characters, got " ++ Number.decimal n
  | .characters key =>
    "Scenario key '" ++ key ++ "' may only contain letters, digits, '_' and '-'"

/-- Checks a key: 1 to 100 letters, digits, underscores and dashes. -/
def keyProblem? (key : String) : Option KeyProblem :=
  let body := withoutFinalBreak key.toList
  if key.length = 0 ∨ 100 < key.length then some (.length key.length)
  else if body.isEmpty || !body.all isKeyChar then some (.characters key)
  else none

namespace Parts

variable {ι : Type}

def hasCode (diagnostics : List Diagnostic) (code : Code) : Bool :=
  diagnostics.any (·.code = code)

def mainProblems (p : Parts ι) (earlier : List Diagnostic) : List Diagnostic :=
  match p.main with
  | none =>
    if hasCode earlier .missingMain then []
    else [{ code := .missingMain, message := "No default-exported component found" }]
  | some c =>
    if c.type = "" then
      [{ code := .emptyMain
         message := "Main component must render a single root element, not a fragment" }]
    else []

def keyProblems (p : Parts ι) (earlier : List Diagnostic) : List Diagnostic :=
  match p.key with
  | none =>
    if hasCode earlier .invalidKey then []
    else
      [{ code := .missingKey, message := "Scenario must export SCENARIO_KEY or SCENARIO.key" }]
  | some key =>
    (keyProblem? key).toList.map fun problem => { code := .invalidKey, message := problem.message }

/-- What is wrong with the components behind those of the given names: a name occurs twice, or a
component has no type. -/
def componentProblems (seen : List String) : List (String × Component) → List Diagnostic
  | [] => []
  | (name, c) :: more =>
    if seen.contains name then
      { code := .duplicateComponentName
        message := "Duplicate component name: " ++ name
          ++ " (exported and helper components share one namespace)" }
        :: componentProblems seen more
    else
      (if c.type = "" then
        [{ code := .missingComponentType
           message := "Component '" ++ name ++ "' has no root element type" }]
      else []) ++ componentProblems (name :: seen) more

/-- All that is wrong with the parts of a scenario, given what was reported earlier. -/
def problems (p : Parts ι) (earlier : List Diagnostic) : List Diagnostic :=
  let main := p.mainProblems earlier
  main ++ p.keyProblems (earlier ++ main) ++ componentProblems [] p.components

/-- The parts that a document needs and that are not there. -/
def gaps (p : Parts ι) : List Wire.Defect :=
  (if p.key.isNone then [{ path := [.member "key"], fault := .notText }] else [])
    ++ if p.main.isNone then [{ path := [.member "main"], fault := .notRecord }] else []

end Parts

/-- Why parts make no document: a diagnostic is an error, or a part is missing that was reported as
a mere warning. -/
inductive Rejection where
  | failed (f : Failure)
  | incomplete (gaps : List Wire.Defect)

namespace Parts

variable {ι : Type}

/-- Puts a scenario together. If one of the diagnostics is an error, all of them make a failure. -/
def assemble (p : Parts ι) (earlier : List Diagnostic) : Except Rejection (Document ι) :=
  let diagnostics := earlier ++ p.problems earlier
  if h : diagnostics.any (·.isError) = true then
    .error (.failed ⟨diagnostics, by intro hn; simp [hn] at h⟩)
  else
    match p.key, p.main with
    | some key, some main =>
      .ok
        { key, version := p.version, buildNumber := p.buildNumber, main
          components := Fields.ofAssignments p.components
          stores := p.stores, actions := p.actions, warnings := diagnostics }
    | _, _ => .error (.incomplete p.gaps)

end Parts

end Scenario
