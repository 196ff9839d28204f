import Scenario.CommandLine.Arguments
import Scenario.Options
import Scenario.Wire.Integer

namespace Scenario.CommandLine

inductive Setting where
  | help
  | output
  | strict
  | allowUnknown
  | emitStyles
  | indent
  | json
  deriving DecidableEq, Repr

def helpForm : OptionForm Setting := { kind := .help, names := ["-h", "--help"] }

def strictForm : OptionForm Setting := { kind := .strict, names := ["--strict"] }

def compileForms : List (OptionForm Setting) :=
  [helpForm, { kind := .output, names := ["-o", "--output"], takesValue := true }, strictForm,
   { kind := .allowUnknown, names := ["--allow-unknown"] },
   { kind := .emitStyles, names := ["--emit-default-styles"] },
   { kind := .indent, names := ["--indent"], takesValue := true }]

def validateForms : List (OptionForm Setting) := [helpForm, strictForm]

def componentsForms : List (OptionForm Setting) :=
  [helpForm, { kind := .json, names := ["--json"] }]

/-- The integer that a decimal numeral of any script stands for, with blanks around it, a sign, and
single underscores between its digits. -/
def decimalInteger? (s : String) : Option Int :=
  let (negative, digits) := match (Text.trim s).toList with
    | '-' :: rest => (true, rest)
    | '+' :: rest => (false, rest)
    | cs => (false, cs)
  let plain := digits.filter (· != '_')
  if plain ≠ [] ∧ Wire.underscoresApart digits ∧ plain.all Text.isDecimal then
    let n : Int := Text.decimalNumber plain
    some (if negative then -n else n)
  else none

/-- Whether an option can be taken with a value; the request for help is never just taken. -/
def accept : Setting → String → Except Stop Unit
  | .help, _ => .error .usage
  | .indent, v => if (decimalInteger? v).isSome then .ok () else .error .rejected
  | _, _ => .ok ()

structure CompileCommand where
  file : String
  output : Option String := none
  strict : Bool := false
  allowUnknown : Bool := false
  emitStyles : Bool := false
  indent : Int := 2
  deriving Repr

inductive Command where
  | compile (c : CompileCommand)
  | validate (file : String) (strict : Bool)
  | components (json : Bool)
  deriving Repr

def Given.last? (g : Given Setting) (k : Setting) : Option String :=
  g.options.reverse.lookup k

def Given.has (g : Given Setting) (k : Setting) : Bool := (g.last? k).isSome

def given (forms : List (OptionForm Setting)) (takesOperand excess : Bool) (arguments : List String) :
    Except Stop (Given Setting) := do
  let ts ← tokens forms arguments
  let g ← read forms takesOperand accept { excess } ts
  if g.excess ∨ (takesOperand ∧ g.operand = none) then .error .rejected else .ok g

namespace Command

def named (name : String) (excess : Bool) (arguments : List String) : Except Stop Command :=
  match name with
  | "compile" => do
    let g ← given compileForms true excess arguments
    return .compile
      { file := g.operand.getD ""
        output := g.last? .output
        strict := g.has .strict, allowUnknown := g.has .allowUnknown, emitStyles := g.has .emitStyles
        indent := ((g.last? .indent).bind decimalInteger?).getD 2 }
  | "validate" => do
    let g ← given validateForms true excess arguments
    return .validate (g.operand.getD "") (g.has .strict)
  | "components" => do
    let g ← given componentsForms false excess arguments
    return .components (g.has .json)
  | _ => .error .rejected

/-- The command that is behind options that no command has. -/
def behind (excess : Bool) : List String → Except Stop Command
  | [] => .error (if excess then .rejected else .usage)
  | s :: rest =>
    if s = "--" then .error .rejected
    else
      match token [helpForm] s with
      | .error e => .error e
      | .ok (.operand name) => named name excess rest
      | .ok .separator => .error .rejected
      | .ok .unknown => behind true rest
      | .ok (.option name f value) =>
        match bundleOf? [helpForm] name f value with
        | none => .error .rejected
        | some _ => .error .usage

/-- The command that arguments make; no arguments ask for help. -/
def ofArguments (arguments : List String) : Except Stop Command := behind false arguments

def usage : String :=
  "usage: scenario-compiler [-h] \x7bcompile,validate,components\x7d ...\n\n"
    ++ "Compile TSX scenarios to JSON\n\n"
    ++ "  compile FILE [-o OUTPUT] [--strict] [--allow-unknown] [--emit-default-styles]\n"
    ++ "          [--indent INDENT]\n"
    ++ "  validate FILE [--strict]\n"
    ++ "  components [--json]\n"

end Command

end Scenario.CommandLine
