import Scenario.Registry
import Scenario.Text.Blank

namespace Scenario

structure Options where
  registry : Registry := .standard
  /-- An unknown element type is an error and not only a warning. -/
  strict : Bool := false
  /-- An unknown element type is passed on without a word. -/
  allowUnknown : Bool := false
  /-- The default styles of a type are written into its elements. -/
  emitStyles : Bool := false

/-- Settings that replace those of the environment where they are given. -/
structure Overrides where
  strict : Option Bool := none
  allowUnknown : Option Bool := none
  emitStyles : Option Bool := none

namespace Options

def isOn (s : String) : Bool :=
  ["1", "true", "yes", "on"].contains (String.ofList ((Text.trim s).toList.map Char.toLower))

/-- The options that an environment and settings on top of it give. -/
def ofEnvironment (environment : List (String × String)) (o : Overrides) : Options :=
  let flag (name : String) : Bool := ((environment.lookup name).map isOn).getD false
  { strict := o.strict.getD (flag "SCENARIO_STRICT_MODE")
    allowUnknown := o.allowUnknown.getD (flag "SCENARIO_ALLOW_UNKNOWN_COMPONENTS")
    emitStyles := o.emitStyles.getD (flag "SCENARIO_EMIT_DEFAULT_STYLES") }

end Options

end Scenario
