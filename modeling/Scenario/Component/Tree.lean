import Scenario.Component
import Scenario.Component.Text
import Scenario.Diagnostic
import Scenario.Options
import Scenario.StaticValue

namespace Scenario

open Syntax

/-- What the tree of a component depends on besides its markup. -/
structure TreeContext where
  options : Options
  /-- The components that the scenario itself defines. -/
  locals : List String
  /-- The props of the component around the markup. -/
  props : List String

/-- Elements that a type does not take and that are left out. -/
structure Dropped where
  tag : String
  count : Nat
  line : Nat
  deriving Repr

def Dropped.message (d : Dropped) : String :=
  "<" ++ d.tag ++ "> does not accept children; dropping " ++ Number.decimal d.count
    ++ " (line " ++ Number.decimal d.line ++ ")"

/-- What is noted while a tree is built, in order. -/
structure Notes where
  diagnostics : List Diagnostic := []
  dropped : List Dropped := []

namespace Notes

def append (m n : Notes) : Notes := ⟨m.diagnostics ++ n.diagnostics, m.dropped ++ n.dropped⟩

instance : Append Notes := ⟨append⟩

end Notes

/-- What stands inside an element: components and pieces of text, both in order. -/
structure Content where
  nodes : List Component := []
  texts : List TextPiece := []
  notes : Notes := {}

namespace Content

def append (c d : Content) : Content := ⟨c.nodes ++ d.nodes, c.texts ++ d.texts, c.notes ++ d.notes⟩

instance : Append Content := ⟨append⟩

end Content

namespace TreeContext

variable (t : TreeContext)

def isKnown (name : String) : Bool := t.locals.contains name || t.options.registry.isRegistered name

/-- The report about an element type, which is empty if the type is known or may be unknown. -/
def unknownType (name : String) (line : Nat) : Notes :=
  if t.isKnown name || t.options.allowUnknown then {}
  else
    { diagnostics :=
        [{ code := .unknownComponent, message := "Unknown component <" ++ name ++ ">"
           severity := if t.options.strict then .error else .warning
           line := Diagnostic.place line }] }

def objectAttribute (attributes : List Node) (name : String) : Fields Value :=
  match Node.attribute? attributes name with
  | some (.attribute _ (some value)) => (staticValue t.props value).plainObject?.getD []
  | _ => []

/-- The styles of an element, its own before the default ones of its type. -/
def style (name : String) (attributes : List Node) : Fields Value :=
  let own := t.objectAttribute attributes "style"
  if t.options.emitStyles then (t.options.registry.defaultStyles name).overlay own else own

/-- The text that pieces make together. Props cannot be joined with fixed text, so they are left out
with a report where there are several pieces. -/
def joinedText (name : String) (line : Nat) (pieces : List TextPiece) : Option Value × Notes :=
  match pieces with
  | [] => (none, {})
  | [.prop v] => (some v, {})
  | pieces =>
    let fixed := TextPiece.fixedText pieces
    if pieces.all (·.text?.isSome) then (some (.string fixed), {})
    else
      (if fixed = "" then none else some (.string fixed),
       { diagnostics :=
           [{ code := .mixedTextChildren
              message := "Prop text in <" ++ name
                ++ "> cannot be combined with static text; keeping " ++ Text.quoted fixed
              severity := .warning, line := Diagnostic.place line }] })

/-- The component of an element, given what stands inside it. -/
def component (name : String) (attributes : List Node) (line : Nat) (inside : Content) :
    Component × Notes :=
  let definition := t.options.registry.find? name
  let takesChildren := (definition.map (·.childrenAllowed)).getD true
  let takesText := (definition.map (·.textAllowed)).getD false
  let dropped : Notes :=
    if takesChildren || inside.nodes.isEmpty then {}
    else { dropped := [⟨name, inside.nodes.length, line⟩] }
  let (text, mixed) := if takesText then joinedText name line inside.texts else (none, {})
  let properties := t.objectAttribute attributes "properties"
  ({ type := name
     style := t.style name attributes
     properties := match text with
       | some v => properties.put "text" v
       | none => properties
     children := if takesChildren then inside.nodes else [] },
   t.unknownType name line ++ inside.notes ++ dropped ++ mixed)

def asContent (c : Component × Notes) : Content := { nodes := [c.1], notes := c.2 }

def shownText (n : Node) : Content :=
  { texts := (TextPiece.ofValue? (staticValue t.props n)).toList }

mutual

/-- What one thing between tags contributes. -/
def childContent : Node → Content
  | .text raw =>
    let text := cleanText raw
    if text = "" then {} else { texts := [.text text] }
  | .container e => innerContent e
  | .element name attributes children line =>
    asContent (t.component name attributes line (content children))
  | .fragment children _ => content children
  | n => t.shownText n

def innerContent : Node → Content
  | .container e => innerContent e
  | .parenthesized e => innerContent e
  | .assertion e => innerContent e
  | .element name attributes children line =>
    asContent (t.component name attributes line (content children))
  | .fragment children _ => content children
  | n => t.shownText n

def content : List Node → Content
  | [] => {}
  | n :: more => childContent n ++ content more

end

/-- The tree of an element or a fragment. A fragment has no type. -/
def build : Node → Component × Notes
  | .element name attributes children line => t.component name attributes line (t.content children)
  | .fragment children _ =>
    let inside := t.content children
    ({ type := "", children := inside.nodes }, inside.notes)
  | _ => ({ type := "" }, {})

end TreeContext

end Scenario
