import Scenario.Action.Arguments
import Scenario.Syntax.Weight

namespace Scenario

open Syntax

/-- A request: what is sent, and the two callbacks as far as they are given. -/
structure Request where
  payload : Fields Value
  onSuccess : Option Node
  onError : Option Node

namespace Request

/-- The capital form of a character, as far as it is one of the basic letters. -/
def capital (c : Char) : List Char :=
  if c = 'ſ' then ['S'] else if c = 'ﬅ' ∨ c = 'ﬆ' then ['S', 'T'] else [c.toUpper]

/-- The HTTP method that a text names in any letter case. -/
def httpMethod? (text : String) : Option String :=
  Refusal.httpMethods.find? (· == String.ofList (text.toList.flatMap capital))

def sentOptions : List String := ["headers", "body", "responseMapping"]

def knownOptions : List String := ["endpoint", "method", "onSuccess", "onError"] ++ sentOptions

def method (line : Nat) : Option Node → Reading String
  | none => .ok "GET"
  | some n =>
    match n.staticString?.bind httpMethod? with
    | some m => .ok m
    | none => refuse .unknownMethod line

def endpoint (line : Nat) (props : List String) : Option Node → Reading Value
  | none => refuse .missingEndpoint line
  | some n =>
    let value := staticValue props n
    if value.string?.isSome || value.isPropRef then .ok value else refuse .dynamicEndpoint line

def ofArguments (arguments : List Node) (line : Nat) (props : List String) : Reading Request := do
  let arguments ← plainArguments "api.request()" arguments line
  match arguments with
  | [config] =>
    match objectMembers? config with
    | none => refuse .dynamicRequest line
    | some members =>
      let members ← plainMembers "api.request()" line members []
      let endpoint ← endpoint line props (members.get? "endpoint")
      let method ← method line (members.get? "method")
      let sent := sentOptions.map fun name => (name, (members.get? name).map (staticValue props))
      let unknown := members.keys.filter (!knownOptions.contains ·)
      if !unknown.isEmpty then
        refuse (.unknownRequestOptions (unknown.mergeSort fun a b => decide (a ≤ b))) line
      return { payload := [("endpoint", endpoint), ("method", .string method)] ++ Fields.present sent
               onSuccess := members.get? "onSuccess"
               onError := members.get? "onError" }
  | _ => refuse .dynamicRequest line

end Request

theorem sizeOf_lt_of_get?_plainMembers {call : String} {line : Nat} {members : List Node}
    {acc fs : Fields Node} {key : String} {n : Node}
    (h : plainMembers call line members acc = .ok fs) (hn : fs.get? key = some n) :
    acc.get? key = some n ∨ sizeOf n < weight members := by
  fun_induction plainMembers call line members acc with
  | case1 acc =>
    cases h
    exact .inl hn
  | case2 acc k v more ih =>
    rcases ih h with h | h
    · rw [Fields.get?_put] at h
      split at h
      · cases h
        right
        simp
        omega
      · exact .inl h
    · right
      simp
      omega
  | case3 => cases h

theorem weight_lt_of_objectMembers? {n : Node} {members : List Node}
    (h : objectMembers? n = some members) : weight members < sizeOf n := by
  have hle := n.sizeOf_unwrap_le
  unfold objectMembers? at h
  split at h
  · rename_i ms hu
    cases h
    have := weight_lt_sizeOf members
    simp [hu] at hle
    omega
  · cases h

namespace Request

/-- The callbacks of a request are parts of its argument. -/
theorem sizeOf_callback_lt {arguments : List Node} {line : Nat} {props : List String} {r : Request}
    {n : Node} (h : ofArguments arguments line props = .ok r)
    (hn : r.onSuccess = some n ∨ r.onError = some n) : sizeOf n < weight arguments := by
  unfold ofArguments plainArguments at h
  split at h
  · cases h
  · simp only [bind, Except.bind] at h
    split at h
    · rename_i config
      split at h
      · cases h
      · rename_i members hm
        have hw := weight_lt_of_objectMembers? hm
        split at h
        · cases h
        · rename_i fs hfs
          split at h
          · cases h
          · split at h
            · cases h
            · split at h
              · cases h
              · cases h
                rcases hn with hn | hn <;>
                · rcases sizeOf_lt_of_get?_plainMembers hfs hn with h | h
                  · cases h
                  · simp
                    omega
    · cases h

theorem weight_onSuccess_le {arguments : List Node} {line : Nat} {props : List String}
    {r : Request} (h : ofArguments arguments line props = .ok r) :
    weight r.onSuccess.toList ≤ weight arguments := by
  cases hn : r.onSuccess with
  | none => simp
  | some n => simpa using Nat.le_of_lt (sizeOf_callback_lt h (.inl hn))

theorem weight_onError_le {arguments : List Node} {line : Nat} {props : List String}
    {r : Request} (h : ofArguments arguments line props = .ok r) :
    weight r.onError.toList ≤ weight arguments := by
  cases hn : r.onError with
  | none => simp
  | some n => simpa using Nat.le_of_lt (sizeOf_callback_lt h (.inr hn))

end Request

end Scenario
