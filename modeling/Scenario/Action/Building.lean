import Scenario.Progress

namespace Scenario

/-- An order for one action. Actions inside it are given by their numbers. -/
inductive Order where
  | mutation (kind : ActionKind) (store : Store) (keyPath : Option String) (value : Option Value)
  | transaction (store : Store) (actions : List Nat)
  | effect (kind : ActionKind) (payload : Fields Value)
  | request (payload : Fields Value) (onSuccess onError : Nat)
  | sequence (actions : List Nat)
  | single (actions : List Nat)
  | conditional (condition : Value) (consequent : Nat) (alternate : Option Nat)
  | switch (discriminant : Value) (cases : List Value) (branches : List Nat)

inductive OrderError where
  | unknownAction (number : Nat)
  | shape (e : ShapeError)
  deriving DecidableEq, Repr

structure Workbench where
  progress : Progress := {}
  made : List Act := []

namespace Workbench

def find (w : Workbench) (number : Nat) : Except OrderError Act :=
  match w.made[number]? with
  | some a => .ok a
  | none => .error (.unknownAction number)

def steps (w : Workbench) : Order → Except OrderError (Collect Act)
  | .mutation kind store (some keyPath) value => return Act.mutation kind store keyPath value
  | .mutation kind store none value =>
    return do return { (← Act.mutation kind store "" value) with keyPath := .null }
  | .transaction store actions => return Act.transaction store (← actions.mapM w.find)
  | .effect kind payload => return Act.effect kind payload
  | .request payload onSuccess onError => do
    let onSuccess ← w.find onSuccess
    return Act.request payload onSuccess (← w.find onError)
  | .sequence actions => return Act.sequence (← actions.mapM w.find)
  | .single actions => return Act.single (← actions.mapM w.find)
  | .conditional condition consequent alternate => do
    let consequent ← w.find consequent
    return Act.conditional condition consequent (← alternate.mapM w.find)
  | .switch discriminant cases branches =>
    return Act.switch discriminant cases (← branches.mapM w.find)

/-- Makes the action of an order, if its members fit its kind. -/
def make (w : Workbench) (o : Order) : Except OrderError Act × Workbench :=
  match w.steps o with
  | .error e => (.error e, w)
  | .ok steps =>
    let (a, progress) := steps.run w.progress
    match a.shapeError? with
    | some e => (.error (.shape e), { w with progress })
    | none => (.ok a, { progress, made := w.made ++ [a] })

end Workbench

end Scenario
