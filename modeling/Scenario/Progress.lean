import Scenario.Action
import Scenario.Action.Refusal
import Scenario.Action.Ticket
import Scenario.Diagnostic

namespace Scenario

structure Progress where
  diagnostics : List Diagnostic := []
  stores : List Store := []
  ordinals : Ordinals := []

/-- Steps that always succeed. -/
abbrev Collect := StateM Progress

/-- Steps that may be refused. What was done before a refusal stays done. -/
abbrev Analysis := ExceptT Refused Collect

/-- An action whose identifier is not yet spelled out. -/
abbrev Act := Action Ticket

namespace Collect

def report (d : Diagnostic) : Collect Unit :=
  modify fun p => { p with diagnostics := p.diagnostics ++ [d] }

def reportRefused (r : Refused) : Collect Unit :=
  report
    { code := .unsupportedActionExpression, message := r.cause.message
      line := r.line.bind fun n => Diagnostic.place n }

def addStore (s : Store) : Collect Unit := modify fun p => { p with stores := p.stores ++ [s] }

/-- How many actions of a signature there are so far; one more is counted from here on. -/
def ordinal (s : Signature) : Collect Nat := do
  let p ← get
  set { p with ordinals := p.ordinals.add s }
  return p.ordinals.count s

/-- The ticket of the next action that is named by the given texts. -/
def ticket (kind : ActionKind) (scope storage keyPath : String) : Collect Ticket := do
  let n ← ordinal [scope, storage, kind.name, keyPath]
  return { scope, storage, operation := kind.name, keyPath, ordinal := n }

end Collect

namespace Act

open Collect

def mutation (kind : ActionKind) (store : Store) (keyPath : String) (value : Option Value) :
    Collect Act := do
  let id ← ticket kind store.scope.name store.storage.name keyPath
  return { id, kind, scope := .set store.scope, storage := .set store.storage
           keyPath := .set keyPath, value }

def transaction (store : Store) (actions : List Act) : Collect Act := do
  let id ← ticket .storeTransaction store.scope.name store.storage.name ""
  return { id, kind := .storeTransaction, scope := .set store.scope, storage := .set store.storage
           actions := .set actions }

/-- The text of a payload that tells effects of one kind apart. -/
def discriminator (payload : Fields Value) : String :=
  (["screenId", "permission"].findSome? fun name => (payload.get? name).bind Value.string?).getD ""

/-- Something that the runtime does; an empty payload is left out. -/
def effect (kind : ActionKind) (payload : Fields Value) : Collect Act := do
  let id ← ticket kind "" "" (discriminator payload)
  return { id, kind, value := if payload.isEmpty then none else some (.object payload) }

/-- A request to a server with what follows its success and its failure. -/
def request (payload : Fields Value) (onSuccess onError : Act) : Collect Act := do
  let id ← ticket .apiRequest "" "" (((payload.get? "endpoint").bind Value.string?).getD "")
  return { id, kind := .apiRequest, value := some (.object payload)
           actions := .set [onSuccess, onError] }

def sequence (actions : List Act) : Collect Act := do
  let id ← ticket .sequence "" "" ""
  return { id, kind := .sequence, actions := .set actions }

/-- One action as it is; none or several as a sequence. -/
def single (actions : List Act) : Collect Act :=
  match actions with
  | [a] => pure a
  | _ => sequence actions

/-- The same, but nothing for no actions. -/
def singleIfAny (actions : List Act) : Collect (Option Act) :=
  match actions with
  | [] => pure none
  | _ => some <$> single actions

def conditional (condition : Value) (consequent : Act) (alternate : Option Act) : Collect Act := do
  let id ← ticket .conditional "" "" ""
  return { id, kind := .conditional, value := some (.object [("condition", condition)])
           actions := .set (consequent :: alternate.toList) }

/-- A choice between actions by a value. The default is marked by null among the cases. -/
def switch (discriminant : Value) (cases : List Value) (branches : List Act) : Collect Act := do
  let id ← ticket .switch "" "" ""
  return { id, kind := .switch
           value := some (.object [("discriminant", discriminant), ("cases", .list cases)])
           actions := .set branches }

end Act

end Scenario
