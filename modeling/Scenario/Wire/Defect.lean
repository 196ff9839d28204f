import Scenario.Action

namespace Scenario.Wire

inductive Step where
  | member (name : String)
  | item (index : Nat)
  deriving DecidableEq, Repr

inductive Fault where
  | missing
  | notText
  | notListed
  | notFields
  | notList
  | notSequence
  | notRecord
  | notInteger
  | unreadableInteger
  | fractionalInteger
  | oversizedInteger
  | infiniteInteger
  | notFlag
  | malformed
  | shape (e : ShapeError)
  deriving DecidableEq, Repr

/-- A fault and the way to the part that has it. -/
structure Defect where
  path : List Step := []
  fault : Fault
  deriving DecidableEq, Repr

namespace Defect

def within (s : Step) (d : Defect) : Defect := { d with path := s :: d.path }

end Defect

/-- What a value stands for, or everything that is wrong with it. -/
abbrev Decoded := Except (List Defect)

namespace Decoded

variable {α β : Type}

def fail (f : Fault) : Decoded α := .error [{ fault := f }]

/-- Both results, or the defects of the first before those of the second. -/
def both : Decoded α → Decoded β → Decoded (α × β)
  | .ok a, .ok b => .ok (a, b)
  | .ok _, .error ds => .error ds
  | .error ds, .ok _ => .error ds
  | .error ds, .error es => .error (ds ++ es)

/-- What is decoded from a part, with its defects placed there. -/
def within (s : Step) : Decoded α → Decoded α
  | .ok a => .ok a
  | .error ds => .error (ds.map (Defect.within s))

@[simp] theorem both_eq_ok {x : Decoded α} {y : Decoded β} {a : α} {b : β} :
    both x y = .ok (a, b) ↔ x = .ok a ∧ y = .ok b := by
  cases x <;> cases y <;> simp [both]

@[simp] theorem within_eq_ok {s : Step} {x : Decoded α} {a : α} :
    within s x = .ok a ↔ x = .ok a := by
  cases x <;> simp [within]

end Decoded

end Scenario.Wire
