import Scenario.Action.Kind
import Scenario.Syntax.View

namespace Scenario

open Syntax

/-- The objects whose methods are actions. -/
inductive Namespace where
  | navigate
  | ui
  | system
  | api
  deriving DecidableEq, Repr

namespace Namespace

def all : List Namespace := [.navigate, .ui, .system, .api]

def name : Namespace → String
  | .navigate => "navigate"
  | .ui => "ui"
  | .system => "system"
  | .api => "api"

def ofName? (s : String) : Option Namespace := all.find? (·.name == s)

end Namespace

/-- The arguments of an effect and where they go. -/
structure EffectShape where
  kind : ActionKind
  /-- The names of the leading arguments. -/
  positional : List String := []
  /-- How many of them have to be there. -/
  required : Nat := 0
  /-- The name of an object behind them whose members join the payload. -/
  options : Option String := none
  /-- Members that are always in the payload. -/
  fixed : List (String × String) := []

namespace EffectShape

def accepted (e : EffectShape) : Nat := e.positional.length + if e.options.isSome then 1 else 0

def screen (kind : ActionKind) : EffectShape :=
  { kind, positional := ["screenId", "params"], required := 1 }

def single (kind : ActionKind) (name : String) : EffectShape :=
  { kind, positional := [name], required := 1 }

def permission (name : String) : EffectShape :=
  { kind := .systemRequestPermission, fixed := [("permission", name)] }

end EffectShape

namespace Namespace

def effects : Namespace → List (String × EffectShape)
  | .navigate =>
    [("push", .screen .navigationPush), ("replace", .screen .navigationReplace),
     ("modal", .screen .navigationModal), ("reset", .screen .navigationReset),
     ("popTo", .single .navigationPopTo "screenId"), ("pop", { kind := .navigationPop }),
     ("dismissModal", { kind := .navigationDismissModal })]
  | .ui =>
    [("showToast", { EffectShape.single .uiShowToast "message" with options := some "options" }),
     ("showAlert", { EffectShape.single .uiShowAlert "title" with options := some "options" }),
     ("showSheet", .screen .uiShowSheet), ("dismissSheet", { kind := .uiDismissSheet }),
     ("showLoading", { kind := .uiShowLoading, positional := ["message"] }),
     ("hideLoading", { kind := .uiHideLoading })]
  | .system =>
    [("share", .single .systemShare "content"), ("openUrl", .single .systemOpenUrl "url"),
     ("haptic", .single .systemHaptic "style"),
     ("copyToClipboard", .single .systemCopyToClipboard "text"),
     ("requestCameraPermission", .permission "camera"),
     ("requestPhotoLibraryPermission", .permission "photoLibrary"),
     ("requestLocationPermission", .permission "location"),
     ("requestNotificationPermission", .permission "notification")]
  | .api => []

def effect? (s : Namespace) (method : String) : Option EffectShape := s.effects.lookup method

end Namespace

def storeMethod? : String → Option ActionKind
  | "set" => some .storeSet
  | "remove" => some .storeRemove
  | "merge" => some .storeMerge
  | "transaction" => some .storeTransaction
  | _ => none

/-- The method that a short form stands for. -/
def shortForm? (name : String) : Option (Namespace × String) :=
  if name = "apiRequest" then some (.api, "request")
  else (Namespace.all.find? fun s => (s.effect? name).isSome).map fun s => (s, name)

namespace Callee

/-- The receiver and the method of a callee `receiver.method`. A computed method has no name. -/
def method? (callee : Node) : Option (Node × Option String) :=
  match callee.unwrap with
  | .member receiver name computed =>
    some (receiver.unwrap, (Node.member receiver name computed).propertyName?)
  | _ => none

def identifier? (callee : Node) : Option String :=
  match callee.unwrap with
  | .identifier name => some name
  | _ => none

def direct? (callee : Node) : Option (Namespace × String) := (identifier? callee).bind shortForm?

def isStoreFactory (callee : Node) : Bool := identifier? callee == some "store"

end Callee

end Scenario
