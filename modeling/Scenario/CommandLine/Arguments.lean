import Scenario.Text.Digit

namespace Scenario.CommandLine

/-- An option of a command, by what it stands for. -/
structure OptionForm (κ : Type) where
  kind : κ
  names : List String
  takesValue : Bool := false

/-- Why arguments make no command: they ask for help, or they are wrong. -/
inductive Stop where
  | usage
  | rejected
  deriving DecidableEq, Repr

inductive Token (κ : Type) where
  | operand (s : String)
  | separator
  | unknown
  /-- An option under one of its names, perhaps with a value in the same argument. -/
  | option (name : String) (form : OptionForm κ) (value : Option String)

variable {κ : Type}

def formOf? (forms : List (OptionForm κ)) (name : String) : Option (OptionForm κ) :=
  forms.find? (·.names.contains name)

/-- A text up to its first equals sign, and what follows that. -/
def splitValue (s : String) : String × Option String :=
  let cs := s.toList
  match cs.dropWhile (· != '=') with
  | [] => (s, none)
  | _ :: rest => (String.ofList (cs.takeWhile (· != '=')), some (String.ofList rest))

/-- The long options that a text is the beginning of. -/
def abbreviated (forms : List (OptionForm κ)) (start : String) : List (String × OptionForm κ) :=
  forms.flatMap fun f =>
    (f.names.filter fun name => start.toList.isPrefixOf name.toList).map fun name => (name, f)

/-- The options that an argument can stand for which is no name of one. -/
def readings (forms : List (OptionForm κ)) (s : String) :
    List (String × OptionForm κ × Option String) :=
  match s.toList with
  | '-' :: '-' :: _ =>
    let (start, value) := splitValue s
    (abbreviated forms start).map fun (name, f) => (name, f, value)
  | '-' :: c :: rest =>
    let short := String.ofList ['-', c]
    ((formOf? forms short).map fun f => (short, f, some (String.ofList rest))).toList
      ++ (abbreviated forms s).map fun (name, f) => (name, f, none)
  | _ => []

/-- Whether a text is a negative number, which is never an option. -/
def isNegativeNumber (s : String) : Bool :=
  match s.toList with
  | '-' :: cs =>
    let whole := cs.takeWhile Text.isDecimal
    match cs.dropWhile Text.isDecimal with
    | [] => !whole.isEmpty
    | '.' :: places => !places.isEmpty && places.all Text.isDecimal
    | _ => false
  | _ => false

/-- What an argument is, unless it stands for several options. -/
def token (forms : List (OptionForm κ)) (s : String) : Except Stop (Token κ) :=
  if s.toList.head? ≠ some '-' ∨ s = "-" then .ok (.operand s)
  else
    match formOf? forms s with
    | some f => .ok (.option s f none)
    | none =>
      let (name, value) := splitValue s
      match value, formOf? forms name with
      | some v, some f => .ok (.option name f (some v))
      | _, _ =>
        match readings forms s with
        | [(name, f, value)] => .ok (.option name f value)
        | _ :: _ :: _ => .error .rejected
        | [] =>
          if isNegativeNumber s || s.toList.contains ' ' then .ok (.operand s) else .ok .unknown

/-- All arguments, of which those behind the first `--` are operands. -/
def tokens (forms : List (OptionForm κ)) : List String → Except Stop (List (Token κ))
  | [] => .ok []
  | s :: rest =>
    if s = "--" then .ok (.separator :: rest.map .operand)
    else do
      let t ← token forms s
      return t :: (← tokens forms rest)

/-- What has been read: the operand, the options with their values in order, and whether there was
anything that has no place. -/
structure Given (κ : Type) where
  operand : Option String := none
  options : List (κ × String) := []
  excess : Bool := false

/-- What one argument asks for: options without a value, and one that may still need its value. -/
structure Bundle (κ : Type) where
  plain : List κ
  valued : Option (κ × Option String) := none

/-- One-letter options in one argument, given behind the first of them. -/
def bundle? (forms : List (OptionForm κ)) (plain : List κ) : List Char → Option (Bundle κ)
  | [] => some { plain }
  | c :: rest =>
    match formOf? forms (String.ofList ['-', c]) with
    | none => none
    | some f =>
      if f.takesValue then
        some { plain, valued := some (f.kind, if rest = [] then none else some (String.ofList rest)) }
      else bundle? forms (plain ++ [f.kind]) rest

def bundleOf? (forms : List (OptionForm κ)) (name : String) (f : OptionForm κ)
    (value : Option String) : Option (Bundle κ) :=
  if f.takesValue then some { plain := [], valued := some (f.kind, value) }
  else
    match value with
    | none => some { plain := [f.kind] }
    | some v =>
      if name.length = 2 ∧ v ≠ "" then bundle? forms [f.kind] v.toList else none

/-- Takes options one after another; each may stop the reading. -/
def Given.take (accept : κ → String → Except Stop Unit) (g : Given κ) :
    List (κ × String) → Except Stop (Given κ)
  | [] => .ok g
  | (k, v) :: rest => do
    accept k v
    Given.take accept { g with options := g.options ++ [(k, v)] } rest

/-- Reads the arguments of a command that takes an operand or none. An option with a value takes it
from the next argument if it has none yet. -/
def read (forms : List (OptionForm κ)) (takesOperand : Bool)
    (accept : κ → String → Except Stop Unit) : Given κ → List (Token κ) → Except Stop (Given κ)
  | g, [] => .ok g
  | g, .unknown :: rest => read forms takesOperand accept { g with excess := true } rest
  | g, .separator :: .operand s :: rest =>
    if takesOperand ∧ g.operand = none then
      read forms takesOperand accept { g with operand := some s } rest
    else read forms takesOperand accept { g with excess := true } rest
  | g, .separator :: rest => read forms takesOperand accept { g with excess := true } rest
  | g, .operand s :: .separator :: rest =>
    if takesOperand ∧ g.operand = none then
      read forms takesOperand accept { g with operand := some s } rest
    else read forms takesOperand accept { g with excess := true } rest
  | g, .operand s :: rest =>
    if takesOperand ∧ g.operand = none then
      read forms takesOperand accept { g with operand := some s } rest
    else read forms takesOperand accept { g with excess := true } rest
  | g, .option name f value :: rest =>
    match bundleOf? forms name f value with
    | none => .error .rejected
    | some b =>
      let plain := b.plain.map fun k => (k, "")
      match b.valued with
      | none => do read forms takesOperand accept (← g.take accept plain) rest
      | some (k, some v) => do
        read forms takesOperand accept (← g.take accept (plain ++ [(k, v)])) rest
      | some (k, none) =>
        match rest with
        | .operand v :: rest => do
          read forms takesOperand accept (← g.take accept (plain ++ [(k, v)])) rest
        | _ => .error .rejected

end Scenario.CommandLine
