import Scenario.Digest.Sha256
import Scenario.Number

namespace Scenario

/-- The texts that name an action, apart from its number. -/
abbrev Signature := List String

/-- What an action is named by. A part that does not apply is empty. -/
structure Ticket where
  scope : String := ""
  storage : String := ""
  operation : String
  keyPath : String := ""
  ordinal : Int
  deriving DecidableEq, Repr

namespace Ticket

def signature (t : Ticket) : Signature := [t.scope, t.storage, t.operation, t.keyPath]

/-- The text that the digest is taken of. -/
def payload (t : Ticket) : String :=
  "\x1f".intercalate (t.signature ++ [Number.decimal t.ordinal])

/-- The identifier: the operation and the first twelve digits of the digest. -/
def id (t : Ticket) : String :=
  let operation := t.operation.toList.map fun c => if c = '.' then '_' else c
  String.ofList (operation ++ '_' :: (Sha256.hex t.payload.toUTF8.toList).take 12)

end Ticket

/-- How many actions of each signature there are. -/
abbrev Ordinals := List (Signature × Nat)

namespace Ordinals

def count : Ordinals → Signature → Nat
  | [], _ => 0
  | (t, n) :: more, s => if t = s then n else count more s

def add : Ordinals → Signature → Ordinals
  | [], s => [(s, 1)]
  | (t, n) :: more, s => if t = s then (t, n + 1) :: more else (t, n) :: add more s

theorem count_add (o : Ordinals) (s t : Signature) :
    (o.add s).count t = if s = t then o.count t + 1 else o.count t := by
  induction o with
  | nil => by_cases h : s = t <;> simp [add, count, h]
  | cons e more ih =>
    obtain ⟨u, n⟩ := e
    by_cases hu : u = s <;> by_cases ht : u = t <;> by_cases h : s = t <;>
      simp_all [add, count]

end Ordinals

end Scenario
