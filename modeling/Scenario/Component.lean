import Scenario.Value

namespace Scenario

structure Component where
  type : String
  style : Fields Value := []
  properties : Fields Value := []
  children : List Component := []
  deriving Repr

namespace Component

/-- A record as a member, unless it is empty. -/
def record? (fs : Fields Value) : Option Value := if fs.isEmpty then none else some (.object fs)

mutual

def toValue : Component → Value
  | ⟨type, style, properties, children⟩ =>
    .object <| Fields.present
      [("type", some (.string type)), ("style", record? style),
       ("properties", record? properties), ("children", childrenValue? children)]

def childrenValue? : List Component → Option Value
  | [] => none
  | c :: more => some (.list (c.toValue :: listValue more))

def listValue : List Component → List Value
  | [] => []
  | c :: more => c.toValue :: listValue more

end

end Component

end Scenario
