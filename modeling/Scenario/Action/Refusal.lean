import Scenario.Number

namespace Scenario

inductive Refusal where
  | spreadArguments (call : String)
  | spreadMembers (call : String)
  | missingKeyPath (call : String)
  | dynamicKeyPath (call : String)
  | onlyKeyPath (call : String)
  | keyPathAndValue (call : String)
  | missingArguments (call : String) (names : List String)
  | excessArguments (call : String) (accepted : Nat)
  | dynamicArgument (call name : String)
  | dynamicOptions (call name : String)
  | dynamicConfig
  | dynamicInitialValue
  | dynamicSetting (setting type : String)
  | unknownSetting (setting text : String) (allowed : List String)
  | dynamicRequest
  | missingEndpoint
  | dynamicEndpoint
  | unknownMethod
  | unknownRequestOptions (names : List String)
  | callbackNotFunction (name : String)
  | unknownCall (space : String) (method : Option String)
  | computedStoreMethod
  | unknownStoreMethod (method : String)
  | transactionArguments
  | transactionNotFunction
  | transactionParameter
  | transactionStatement (proxy : String)
  | transactionEmpty
  | membershipArguments (method : String)
  | dynamicOperand
  | actionsInside (kind : String)
  | actionsInNestedFunction
  | conditionalExit
  deriving DecidableEq, Repr

namespace Refusal

/-- The HTTP methods of a request, in the order of messages. -/
def httpMethods : List String := ["DELETE", "GET", "PATCH", "POST", "PUT"]

def message : Refusal → String
  | .spreadArguments call => call ++ ": spread arguments are not supported"
  | .spreadMembers call => call ++ ": only plain properties are supported"
  | .missingKeyPath call => call ++ " requires a keyPath argument"
  | .dynamicKeyPath call => call ++ ": keyPath must be a string literal"
  | .onlyKeyPath call => call ++ " takes exactly one keyPath argument"
  | .keyPathAndValue call => call ++ " requires keyPath and value arguments"
  | .missingArguments call names => call ++ " requires: " ++ ", ".intercalate names
  | .excessArguments call accepted =>
    call ++ " takes at most " ++ Number.decimal accepted ++ " argument(s)"
  | .dynamicArgument call name => call ++ ": " ++ name ++ " must be a string literal"
  | .dynamicOptions call name => call ++ ": " ++ name ++ " must be an object literal"
  | .dynamicConfig => "store(): config must be an object literal"
  | .dynamicInitialValue => "store(): initialValue must be an object literal"
  | .dynamicSetting setting type =>
    "store(): " ++ setting ++ " must be a string literal or " ++ type ++ " member"
  | .unknownSetting setting text allowed =>
    "store(): unknown " ++ setting ++ " '" ++ text ++ "' (expected one of: "
      ++ ", ".intercalate allowed ++ ")"
  | .dynamicRequest => "api.request() requires a single object literal argument"
  | .missingEndpoint => "api.request() requires an endpoint"
  | .dynamicEndpoint => "api.request(): endpoint must be a string literal or prop"
  | .unknownMethod => "api.request(): method must be one of " ++ ", ".intercalate httpMethods
  | .unknownRequestOptions names =>
    "api.request(): unsupported option(s): " ++ ", ".intercalate names
  | .callbackNotFunction name => "api.request(): " ++ name ++ " must be a function"
  | .unknownCall space method => "Unknown " ++ space ++ " method: " ++ method.getD "<computed>"
  | .computedStoreMethod => "Computed store method names are not supported"
  | .unknownStoreMethod method => "Unknown store method: " ++ method
  | .transactionArguments => "store.transaction() takes a single callback"
  | .transactionNotFunction => "store.transaction() requires a function callback"
  | .transactionParameter =>
    "store.transaction() callback must take the store as its first parameter"
  | .transactionStatement proxy => "Transaction statements must be mutations on '" ++ proxy ++ "'"
  | .transactionEmpty => "store.transaction() callback contains no mutations"
  | .membershipArguments method => method ++ "() in a condition takes exactly one argument"
  | .dynamicOperand => "Condition operands must be literals, props or store reads"
  | .actionsInside kind => "Actions inside '" ++ kind ++ "' cannot be compiled statically"
  | .actionsInNestedFunction =>
    "Actions inside a function nested in a handler cannot be compiled statically"
  | .conditionalExit =>
    "Conditional break or return in a switch case cannot be compiled statically"

end Refusal

/-- A refusal and the line that it is about, if there is one. -/
structure Refused where
  cause : Refusal
  line : Option Nat
  deriving DecidableEq, Repr

/-- What can be read off an expression, or why it cannot. -/
abbrev Reading := Except Refused

def refuse {α : Type} (cause : Refusal) (line : Nat) : Reading α := .error ⟨cause, some line⟩

end Scenario
