import Scenario.Value

namespace Scenario

/-- A text without the one line break that names and keys may end in. -/
def withoutFinalBreak (cs : List Char) : List Char :=
  if cs.getLast? = some '\n' then cs.dropLast else cs

structure Definition where
  name : String
  defaultStyles : Fields Value := []
  supportedProps : List String := []
  childrenAllowed : Bool := true
  textAllowed : Bool := false
  deriving Repr

namespace Definition

/-- A segment of a name: a capital letter, then letters and digits. -/
def isSegment (cs : List Char) : Bool :=
  match cs with
  | c :: rest => c.isUpper && rest.all Char.isAlphanum
  | [] => false

/-- Names consist of segments with dots between them. -/
def isName (s : String) : Bool :=
  ((withoutFinalBreak s.toList).splitOn '.').all isSegment

def toValue (d : Definition) : Value :=
  .object
    [("name", .string d.name), ("defaultStyles", .object d.defaultStyles),
     ("supportedProps", .list (d.supportedProps.map .string)),
     ("childrenAllowed", .bool d.childrenAllowed), ("textChildrenAllowed", .bool d.textAllowed)]

end Definition

inductive RegistrationError where
  | unnamed (entry : Fields Value)
  | invalidName (name : Value)
  | duplicate (name : String)
  deriving Repr

def RegistrationError.message : RegistrationError → String
  | .unnamed entry => "Component definition without a name: " ++ (Value.object entry).shown
  | .invalidName name => "Invalid component name '" ++ name.inMessage ++ "': must be PascalCase"
  | .duplicate name => "Component '" ++ name ++ "' is already registered"

/-- Definitions with different names, in the order of their registration. -/
structure Registry where
  definitions : List Definition
  deriving Repr

namespace Registry

def empty : Registry := ⟨[]⟩

def find? (r : Registry) (name : String) : Option Definition :=
  r.definitions.find? (·.name == name)

def isRegistered (r : Registry) (name : String) : Bool := (r.find? name).isSome

def names (r : Registry) : List String := r.definitions.map (·.name)

def size (r : Registry) : Nat := r.definitions.length

/-- The default styles of a type; a type that is not known has none. -/
def defaultStyles (r : Registry) (name : String) : Fields Value :=
  ((r.find? name).map (·.defaultStyles)).getD []

def register (r : Registry) (d : Definition) : Except RegistrationError Registry :=
  if !Definition.isName d.name then .error (.invalidName (.string d.name))
  else if r.isRegistered d.name then .error (.duplicate d.name)
  else .ok ⟨r.definitions ++ [d]⟩

def registerEntry (r : Registry) (entry : Fields Value) : Except RegistrationError Registry :=
  match entry.get? "name" with
  | none => .error (.unnamed entry)
  | some (.string name) =>
    r.register
      { name
        defaultStyles := match entry.get? "defaultStyles" with
          | some (.object styles) => styles
          | _ => []
        supportedProps := match entry.get? "supportedProps" with
          | some (.list props) => props.filterMap Value.string?
          | _ => []
        childrenAllowed := ((entry.get? "childrenAllowed").map Value.truthy).getD true
        textAllowed := ((entry.get? "textChildrenAllowed").map Value.truthy).getD false }
  | some name => .error (.invalidName name)

def ofEntries (entries : List (Fields Value)) : Except RegistrationError Registry :=
  entries.foldlM registerEntry empty

def toValue (r : Registry) : Value := .list (r.definitions.map (·.toValue))

/-- The element types that every runtime has. -/
def standard : Registry where
  definitions :=
    [{ name := "View", supportedProps := ["id"] },
     { name := "Row", defaultStyles := [("flexDirection", .string "row")], supportedProps := ["id"] },
     { name := "Column", defaultStyles := [("flexDirection", .string "column")],
       supportedProps := ["id"] },
     { name := "Stack", supportedProps := ["id"] },
     { name := "ScrollView", supportedProps := ["horizontal", "showsScrollIndicator"] },
     { name := "SafeArea", supportedProps := ["edges"] },
     { name := "Spacer", defaultStyles := [("flex", .int 1)], childrenAllowed := false },
     { name := "Divider", supportedProps := ["color", "thickness"], childrenAllowed := false },
     { name := "Text", supportedProps := ["text"], textAllowed := true },
     { name := "Image", supportedProps := ["source", "resizeMode"], childrenAllowed := false },
     { name := "Button", supportedProps := ["title", "image", "titleStyle", "disabled"],
       childrenAllowed := false },
     { name := "Touchable", supportedProps := ["onPress"] },
     { name := "Checkbox", supportedProps := ["checked", "disabled"], childrenAllowed := false },
     { name := "Stepper",
       supportedProps := ["value", "minimumValue", "maximumValue", "step", "disabled"],
       childrenAllowed := false },
     { name := "Rating", supportedProps := ["value", "maximumValue"], childrenAllowed := false },
     { name := "Input", supportedProps := ["value", "placeholder", "disabled"],
       childrenAllowed := false },
     { name := "List", supportedProps := ["data", "keyPath", "itemTemplate"] }]

end Registry

end Scenario
