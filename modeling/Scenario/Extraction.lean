import Scenario.Action.Collection
import Scenario.Component.Tree
import Scenario.Document

namespace Scenario

open Syntax

/-- The markup that a node is, in wrappers perhaps. -/
def markup? (n : Node) : Option Node :=
  match n.unwrap with
  | .element name attributes children line => some (.element name attributes children line)
  | .fragment children line => some (.fragment children line)
  | _ => none

/-- The markup that the first return of markup gives. -/
def returnedMarkup? : List Node → Option Node
  | [] => none
  | .returnStatement (some e) :: more => (markup? e).orElse fun _ => returnedMarkup? more
  | _ :: more => returnedMarkup? more

/-- The markup that a function with the given body renders. -/
def renderedMarkup? : Node → Option Node
  | .block body => returnedMarkup? body
  | e => markup? e

/-- A function of the program itself, which is a component if it renders markup. -/
structure Candidate where
  name : String
  params : List Node
  markup : Option Node
  exported : Bool

namespace Candidate

def ofFunction (exported : Bool) (name : String) (params : List Node) (body : Node) : Candidate :=
  { name, params, markup := renderedMarkup? body, exported }

def ofDeclarator? (exported : Bool) : Node → Option Candidate
  | .declarator (.identifier name) (some init) =>
    (functionOf? init).map fun (params, body) => ofFunction exported name params body
  | _ => none

def ofDeclaration (exported : Bool) : Node → List Candidate
  | .functionDeclaration name params body _ => [ofFunction exported name params body]
  | .variableDeclaration _ declarators => declarators.filterMap (ofDeclarator? exported)
  | _ => []

def ofStatement : Node → List Candidate
  | .exportNamed declaration _ => declaration.toList.flatMap (ofDeclaration true)
  | n => ofDeclaration false n

def props (c : Candidate) : List String := c.params.flatMap Node.patternNames

/-- The candidate that a name stands for: the last of that name. -/
def find? (candidates : List Candidate) (name : String) : Option Candidate :=
  candidates.reverse.find? (·.name == name)

end Candidate

def exportedConstants : Node → List (String × Option Node)
  | .exportNamed (some (.variableDeclaration _ declarators)) _ =>
    declarators.filterMap fun
      | .declarator (.identifier name) init => some (name, init)
      | _ => none
  | _ => []

/-- What is known of a scenario from its metadata. The key that is exported alone goes before the
key of the metadata. -/
structure Metadata where
  exportedKey : Option String := none
  listedKey : Option String := none
  version : String := "1.0.0"
  buildNumber : Int := 1
  diagnostics : List Diagnostic := []

namespace Metadata

def key (m : Metadata) : Option String := m.exportedKey <|> m.listedKey

def report (m : Metadata) (code : Code) (message : String) : Metadata :=
  { m with diagnostics := m.diagnostics ++ [{ code, message }] }

def readKey (m : Metadata) : Option Node → Metadata
  | none => m
  | some n =>
    match n.staticString? with
    | some key => { m with listedKey := some key }
    | none => m.report .invalidKey "SCENARIO.key must be a string literal"

def readVersion (m : Metadata) : Option Node → Metadata
  | none => m
  | some n =>
    match n.staticString? with
    | some version => { m with version }
    | none => m.report .invalidMetadata "SCENARIO.version must be a string"

/-- The number that a numeral without a sign and a fraction spells. -/
def wholeNumber? (n : Node) : Option Int :=
  match n.unwrap with
  | .number (.int k) => if 0 ≤ k then some k else none
  | _ => none

def readBuildNumber (m : Metadata) : Option Node → Metadata
  | none => m
  | some n =>
    match wholeNumber? n with
    | some buildNumber => { m with buildNumber }
    | none => m.report .invalidMetadata "SCENARIO.buildNumber must be a non-negative integer"

def members (ms : List Node) : Fields Node :=
  ms.foldl (fun acc m => match m with
    | .property key value => acc.put (memberName key) value
    | _ => acc) []

def readRecord (m : Metadata) (init : Option Node) : Metadata :=
  let m := { m with listedKey := none }
  match init.bind objectMembers? with
  | none => m.report .invalidMetadata "SCENARIO must be an object literal"
  | some ms =>
    let fields := members ms
    ((m.readKey (fields.get? "key")).readVersion (fields.get? "version")).readBuildNumber
      (fields.get? "buildNumber")

def readConstant (m : Metadata) (name : String) (init : Option Node) : Metadata :=
  if name = "SCENARIO_KEY" then
    match init.bind Node.staticString? with
    | some key => { m with exportedKey := some key }
    | none =>
      { m with exportedKey := none }.report .invalidKey "SCENARIO_KEY must be a string literal"
  else if name = "SCENARIO" then m.readRecord init
  else m

def ofProgram (body : List Node) : Metadata :=
  (body.flatMap exportedConstants).foldl (fun m (name, init) => m.readConstant name init) {}

end Metadata

/-- What is known of the components of a program at some point of their extraction. -/
structure Rendered where
  main : Option Component := none
  /-- The name that the last default export refers to. -/
  mainName : Option String := none
  components : List (String × Component) := []
  locals : List String
  notes : Notes := {}

namespace Rendered

variable (options : Options)

def report (r : Rendered) (message : String) : Rendered :=
  { r with notes := r.notes ++ { diagnostics := [{ code := .missingMain, message }] } }

def tree (r : Rendered) (params : List Node) (markup : Node) : Component × Notes :=
  TreeContext.build
    { options, locals := r.locals, props := params.flatMap Node.patternNames } markup

/-- Makes a function's markup the main component. -/
def addMain (r : Rendered) (params : List Node) (markup : Option Node) : Rendered :=
  match markup with
  | none => r.report "Default export does not return JSX"
  | some markup =>
    let (main, notes) := r.tree options params markup
    { r with main := some main, notes := r.notes ++ notes }

/-- Takes the main component from an expression: a function, or the name of one. -/
def addMainExpression (r : Rendered) (candidates : List Candidate) (n : Node) : Rendered :=
  match Callee.identifier? n with
  | some name =>
    match Candidate.find? candidates name with
    | some c => { r with mainName := some name }.addMain options c.params c.markup
    | none => { r with mainName := none }.report "Default export must be a component function"
  | none =>
    match functionOf? n with
    | some (params, body) =>
      { r with mainName := none }.addMain options params (renderedMarkup? body)
    | none => { r with mainName := none }.report "Default export must be a component function"

/-- Takes the main component from a statement, if that exports one. -/
def readMain (candidates : List Candidate) (r : Rendered) : Node → Rendered
  | .exportDefault (.functionDeclaration name params body _) =>
    { r with mainName := none, locals := r.locals ++ [name] }.addMain options params
      (renderedMarkup? body)
  | .exportDefault n => r.addMainExpression options candidates n
  | _ => r

/-- Adds a component under a name; a function without markup is none. -/
def add (r : Rendered) (name : String) (c : Candidate) : Rendered :=
  match c.markup with
  | none => r
  | some markup =>
    let (component, notes) := r.tree options c.params markup
    { r with components := r.components ++ [(name, component)], notes := r.notes ++ notes }

def addSpecifiers (candidates : List Candidate) (r : Rendered) (specifiers : List Node) : Rendered :=
  specifiers.foldl (fun r spec => match spec with
    | .exportSpecifier localName exported =>
      match Candidate.find? candidates localName with
      | some c => r.add options exported c
      | none => r
    | _ => r) r

/-- Adds the components that a statement declares, each under its own name. One that is exported
elsewhere only is not added. -/
def addDeclared (elsewhere : List String) (r : Rendered) (n : Node) : Rendered :=
  (Candidate.ofStatement n).foldl (fun r c =>
    if !c.exported && elsewhere.contains c.name then r else r.add options c.name c) r

def readComponents (candidates : List Candidate) (elsewhere : List String) (r : Rendered) :
    Node → Rendered
  | .exportNamed _ (spec :: more) =>
    addSpecifiers options candidates r (spec :: more)
  | n => addDeclared options elsewhere r n

/-- The names that lists of exports refer to. -/
def reExported : Node → List String
  | .exportNamed _ specifiers => specifiers.filterMap fun
    | .exportSpecifier localName _ => some localName
    | _ => none
  | _ => []

def ofProgram (body : List Node) : Rendered :=
  let candidates := body.flatMap Candidate.ofStatement
  let start : Rendered :=
    { locals := (candidates.filter (·.markup.isSome)).map (·.name) }
  let r := body.foldl (readMain options candidates) start
  let elsewhere := r.mainName.toList ++ body.flatMap reExported
  body.foldl (readComponents options candidates elsewhere) r

end Rendered

/-- The parts of a scenario with what was noted on the way. -/
structure Extraction where
  parts : Parts Ticket
  locals : List String
  diagnostics : List Diagnostic
  dropped : List Dropped

def extract (options : Options) (body : List Node) : Extraction :=
  let metadata := Metadata.ofProgram body
  let rendered := Rendered.ofProgram options body
  let (actions, progress) := (collectActions body).run {}
  { parts :=
      { key := metadata.key, version := metadata.version, buildNumber := metadata.buildNumber
        main := rendered.main, components := rendered.components
        stores := progress.stores, actions }
    locals := rendered.locals
    diagnostics := metadata.diagnostics ++ rendered.notes.diagnostics ++ progress.diagnostics
    dropped := rendered.notes.dropped }

end Scenario
