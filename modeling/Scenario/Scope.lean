import Scenario.Store.Declaration

namespace Scenario

open Syntax

/-- The bindings that can be seen from a place, the innermost first. A name that is bound to no store
hides any store of that name further out. -/
structure Scope where
  bindings : List (String × Option Store) := []
  props : List String := []
  /-- The place is outside all functions and blocks. -/
  isModule : Bool := false
  /-- The place is not inside the call that declares a store; there, no other store is declared. -/
  declares : Bool := true

namespace Scope

variable (s : Scope)

def module : Scope := { isModule := true }

def child : Scope := { s with isModule := false }

def bind (name : String) (store : Option Store) : Scope :=
  { s with bindings := (name, store) :: s.bindings }

def bindAll (names : List String) : Scope := names.foldl (fun s name => s.bind name none) s

def isBound (name : String) : Bool := s.bindings.any (·.1 == name)

/-- The store that a name stands for. -/
def resolve (name : String) : Option Store := (s.bindings.lookup name).join

def store? (n : Node) : Option Store :=
  match n.unwrap with
  | .identifier name => s.resolve name
  | .call callee arguments line =>
    if s.declares && Callee.isStoreFactory callee then
      (Store.ofArguments arguments line []).toOption
    else none
  | _ => none

/-- Binds what a variable declaration declares, one after the other. -/
def hoistDeclarators : List Node → Scope → Scope
  | [], s => s
  | .declarator target init :: more, s =>
    hoistDeclarators more <|
      match target with
      | .identifier name => s.bind name (init.bind s.store?)
      | _ => s.bindAll target.patternNames
  | _ :: more, s => hoistDeclarators more s

def hoistDeclaration (s : Scope) : Node → Scope
  | .functionDeclaration name .. => s.bind name none
  | .variableDeclaration _ declarators => hoistDeclarators declarators s
  | _ => s

def hoistStatement (s : Scope) : Node → Scope
  | .exportNamed (some declaration) _ => s.hoistDeclaration declaration
  | n => s.hoistDeclaration n

def hoist (statements : List Node) : Scope := statements.foldl hoistStatement s

/-- The scope of a function's body. The parameters of a function of the program itself are the
props of a component. -/
def function (params : List Node) : Scope :=
  let names := params.flatMap Node.patternNames
  { s.child with props := if s.isModule then names else s.props }.bindAll names

/-- The scope of what stands in a node: a call that declares a store declares no others. -/
def within : Node → Scope
  | .call callee _ _ => if Callee.isStoreFactory callee then { s with declares := false } else s
  | _ => s

end Scope

/-- A call that means something to a scenario. -/
inductive Call where
  | declaration
  | read (store : Store)
  | mutation (store : Store) (method : Option String)
  | effect (space : Namespace) (method : Option String)

namespace Call

def isAction : Call → Bool
  | .mutation .. | .effect .. => true
  | .declaration | .read _ => false

end Call

namespace Scope

variable (s : Scope)

def classifyMethod (receiver : Node) (method : Option String) : Option Call :=
  match s.store? receiver with
  | some store => some (if method = some "get" then .read store else .mutation store method)
  | none =>
    match receiver with
    | .identifier name =>
      if s.isBound name then none
      else (Namespace.ofName? name).map fun space => .effect space method
    | _ => none

/-- What a call of a callee means, if it is no ordinary call. -/
def classify (callee : Node) : Option Call :=
  if Callee.isStoreFactory callee then some .declaration
  else
    match Callee.identifier? callee with
    | some name =>
      if s.isBound name then none
      else (shortForm? name).map fun (space, method) => .effect space (some method)
    | none => (Callee.method? callee).bind fun (receiver, method) => s.classifyMethod receiver method

def isActionCall : Node → Bool
  | .call callee _ _ => (s.classify callee).any (·.isAction)
  | _ => false

end Scope

end Scenario
