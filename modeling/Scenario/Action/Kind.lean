
namespace Scenario

inductive ActionKind where
  | storeSet
  | storeRemove
  | storeMerge
  | storeTransaction
  | navigationPush
  | navigationPop
  | navigationReplace
  | navigationModal
  | navigationDismissModal
  | navigationPopTo
  | navigationReset
  | uiShowToast
  | uiShowAlert
  | uiShowSheet
  | uiDismissSheet
  | uiShowLoading
  | uiHideLoading
  | systemShare
  | systemOpenUrl
  | systemHaptic
  | systemCopyToClipboard
  | systemRequestPermission
  | apiRequest
  | sequence
  | conditional
  | switch
  deriving DecidableEq, Repr

namespace ActionKind

def all : List ActionKind :=
  [.storeSet, .storeRemove, .storeMerge, .storeTransaction, .navigationPush, .navigationPop,
   .navigationReplace, .navigationModal, .navigationDismissModal, .navigationPopTo,
   .navigationReset, .uiShowToast, .uiShowAlert, .uiShowSheet, .uiDismissSheet, .uiShowLoading,
   .uiHideLoading, .systemShare, .systemOpenUrl, .systemHaptic, .systemCopyToClipboard,
   .systemRequestPermission, .apiRequest, .sequence, .conditional, .switch]

def name : ActionKind → String
  | .storeSet => "store.set"
  | .storeRemove => "store.remove"
  | .storeMerge => "store.merge"
  | .storeTransaction => "store.transaction"
  | .navigationPush => "navigation.push"
  | .navigationPop => "navigation.pop"
  | .navigationReplace => "navigation.replace"
  | .navigationModal => "navigation.modal"
  | .navigationDismissModal => "navigation.dismissModal"
  | .navigationPopTo => "navigation.popTo"
  | .navigationReset => "navigation.reset"
  | .uiShowToast => "ui.showToast"
  | .uiShowAlert => "ui.showAlert"
  | .uiShowSheet => "ui.showSheet"
  | .uiDismissSheet => "ui.dismissSheet"
  | .uiShowLoading => "ui.showLoading"
  | .uiHideLoading => "ui.hideLoading"
  | .systemShare => "system.share"
  | .systemOpenUrl => "system.openUrl"
  | .systemHaptic => "system.haptic"
  | .systemCopyToClipboard => "system.copyToClipboard"
  | .systemRequestPermission => "system.requestPermission"
  | .apiRequest => "api.request"
  | .sequence => "sequence"
  | .conditional => "conditional"
  | .switch => "switch"

def ofName? (s : String) : Option ActionKind := all.find? (·.name == s)

def isStore : ActionKind → Bool
  | .storeSet | .storeRemove | .storeMerge | .storeTransaction => true
  | _ => false

def isComposite : ActionKind → Bool
  | .storeTransaction | .apiRequest | .sequence | .conditional | .switch => true
  | _ => false

end ActionKind

end Scenario
