import Scenario.Syntax.Node

namespace Scenario.Syntax

inductive Pattern where
  | name (text : String)
  | this (line : Nat)
  | array (elements : List Pattern) (line : Nat)
  | object (members : List Pattern) (line : Nat)
  | rest (inner : Pattern) (line : Nat)
  /-- A pattern with a default. -/
  | initialised (left : Pattern) (right : Node) (line : Nat)
  /-- A member `a` of an object pattern. -/
  | shorthand (text : String) (line : Nat)
  /-- A member `a = e` of an object pattern. -/
  | shorthandDefault (text : String) (right : Node) (line : Nat)
  /-- A member `k: p` of an object pattern; the text of the key is given if it is a name or a
  string. -/
  | pair (key : Node) (text : Option String) (value : Pattern) (line : Nat)
  /-- Any other place that can be assigned to. -/
  | place (node : Node) (kind : String) (line : Nat)
  deriving Inhabited

namespace Pattern

/-- The key that a member of an object pattern takes from the source object. -/
def key? : Pattern → Option String
  | .shorthand text _ => some text
  | .shorthandDefault text _ _ => some text
  | .pair _ text _ _ => text
  | _ => none

/-- The pattern as the target of a declaration or as a parameter. -/
def target : Pattern → Node
  | .name text => .identifier text
  | .object members _ => .objectPattern (members.filterMap key?)
  | .initialised left _ _ => left.target
  | .array _ line => .unsupported "array_pattern" [] line
  | .rest _ line => .unsupported "rest_pattern" [] line
  | .this line => .unsupported "this" [] line
  | .shorthand _ line => .unsupported "shorthand_property_identifier_pattern" [] line
  | .shorthandDefault _ _ line => .unsupported "object_assignment_pattern" [] line
  | .pair _ _ _ line => .unsupported "pair_pattern" [] line
  | .place _ kind line => .unsupported kind [] line

mutual

def whole : Pattern → Node
  | .name text => .identifier text
  | .this line => .unsupported "this" [] line
  | .array elements line => .unsupported "array_pattern" (wholes elements) line
  | .object members line => .unsupported "object_pattern" (wholes members) line
  | .rest inner line => .unsupported "rest_pattern" [inner.whole] line
  | .initialised left right line => .unsupported "assignment_pattern" [left.whole, right] line
  | .shorthand _ line => .unsupported "shorthand_property_identifier_pattern" [] line
  | .shorthandDefault _ right line =>
    .unsupported "object_assignment_pattern"
      [.unsupported "shorthand_property_identifier_pattern" [] line, right] line
  | .pair key _ value line => .unsupported "pair_pattern" [key, value.whole] line
  | .place node _ _ => node

def wholes : List Pattern → List Node
  | [] => []
  | p :: more => p.whole :: wholes more

end

end Pattern

end Scenario.Syntax
