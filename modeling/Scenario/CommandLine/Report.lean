import Scenario.CommandLine.Command
import Scenario.Compile
import Scenario.Wire.Documents

namespace Scenario.CommandLine

inductive Entry where
  | missing
  | folder
  /-- Something below a file, which is no folder. -/
  | belowFile
  | file (text : String)
  deriving DecidableEq, Repr

/-- What ends a run without a status. -/
inductive Abort where
  | isFolder (path : String)
  | notFound (path : String)
  | notFolder (path : String)
  | negativeIndent
  | oversizedIndent
  deriving DecidableEq, Repr

def Abort.message : Abort → String
  | .isFolder path => "[Errno 21] Is a directory: " ++ Text.quoted path
  | .notFound path => "[Errno 2] No such file or directory: " ++ Text.quoted path
  | .notFolder path => "[Errno 20] Not a directory: " ++ Text.quoted path
  | .negativeIndent => "can't convert negative int to unsigned"
  | .oversizedIndent => "int too big to convert"

/-- How a run goes on when its lines are printed. -/
inductive Ending where
  | status (n : Nat)
  | abort (a : Abort)
  /-- A text is written to a file; if that succeeds, a last line is printed and the status is 0. -/
  | write (path text line : String)
  deriving Repr

structure Report where
  lines : List String := []
  log : List String := []
  ending : Ending
  deriving Repr

/-- A path in its shortest spelling: without empty steps and steps that stay in place. -/
def shownPath (path : String) : String :=
  let steps := (path.toList.splitOn '/').filter fun s => s ≠ [] ∧ s ≠ ['.']
  let root := match path.toList with
    | '/' :: '/' :: '/' :: _ => "/"
    | '/' :: '/' :: _ => "//"
    | '/' :: _ => "/"
    | _ => ""
  if root = "" ∧ steps = [] then "."
  else root ++ String.intercalate "/" (steps.map String.ofList)

/-- A text with LF for each line break. -/
def unifyBreaks : List Char → List Char
  | [] => []
  | '\r' :: '\n' :: rest => '\n' :: unifyBreaks rest
  | '\r' :: rest => '\n' :: unifyBreaks rest
  | c :: rest => c :: unifyBreaks rest

/-- A diagnostic as a command prints it, without its place. -/
def diagnosticLine (d : Diagnostic) : String :=
  d.severity.label ++ " " ++ d.code.name ++ ": " ++ d.message

/-- What a command does with the source under a path. -/
def withSource (path : String) (e : Entry) (k : String → Report) : Report :=
  match e with
  | .missing | .belowFile =>
    { log := ["Source not found: " ++ shownPath path], ending := .status 1 }
  | .folder => { ending := .abort (.isFolder (shownPath path)) }
  | .file text => k (String.ofList (unifyBreaks text.toList))

def compileReport (c : CompileCommand) (source : String) : Report :=
  let options : Options :=
    { strict := c.strict, allowUnknown := c.allowUnknown, emitStyles := c.emitStyles }
  match (compile options source).result with
  | .error f => { lines := f.diagnostics.map diagnosticLine, ending := .status 1 }
  | .ok d =>
    let warnings := d.warnings.map diagnosticLine
    if c.indent < 0 then { lines := warnings, ending := .abort .negativeIndent }
    else if Nat.pow 2 64 ≤ c.indent then { lines := warnings, ending := .abort .oversizedIndent }
    else
      let json := d.json Ticket.id (some c.indent.toNat)
      match c.output with
      | none | some "" => { lines := warnings ++ [json], ending := .status 0 }
      | some path =>
        { lines := warnings
          ending := .write path (json ++ "\n") ("✅ Compiled " ++ d.key ++ " -> " ++ path) }

def validateReport (strict : Bool) (source : String) : Report :=
  match (compile { strict } source).result with
  | .error f =>
    { lines := f.diagnostics.map diagnosticLine ++ ["❌ " ++ f.summary], ending := .status 1 }
  | .ok d =>
    { lines := d.warnings.map diagnosticLine ++ ["✅ " ++ d.key ++ " is valid"], ending := .status 0 }

def padded (width : Nat) (s : String) : String :=
  s ++ String.ofList (List.replicate (width - s.length) ' ')

def tableRow (name children text props : String) : String :=
  padded 15 name ++ " " ++ padded 10 children ++ " " ++ padded 6 text ++ " " ++ props

def yesNo (b : Bool) : String := if b then "yes" else "no"

def table (r : Registry) : List String :=
  ["", tableRow "Component" "Children" "Text" "Props", String.ofList (List.replicate 70 '-')]
    ++ r.definitions.map fun d =>
      tableRow d.name (yesNo d.childrenAllowed) (yesNo d.textAllowed)
        (", ".intercalate d.supportedProps)

namespace Command

def source? : Command → Option String
  | .compile c => some c.file
  | .validate file _ => some file
  | .components _ => none

/-- What a command does, given what stands under the path of its source. -/
def report (e : Entry) : Command → Report
  | .compile c => withSource c.file e (compileReport c)
  | .validate file strict => withSource file e (validateReport strict)
  | .components json =>
    { lines :=
        if json then [Json.render (some 2) Registry.standard.toValue] else table .standard
      ending := .status 0 }

end Command

end Scenario.CommandLine
