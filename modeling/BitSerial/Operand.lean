/-! # Operands

The two inputs of a product, and families of one value for each of them.
-/

namespace BitSerial

/-- An input of the product. The left operand feeds the rows of the array and the right one its columns. -/
inductive Operand where
  | lhs
  | rhs
  deriving DecidableEq, Repr

/-- The name of an operand in messages. -/
def Operand.name : Operand → String
  | .lhs => "lhs"
  | .rhs => "rhs"

/-- One value for each operand. -/
structure PerOperand (α : Type) where
  lhs : α
  rhs : α
  deriving DecidableEq, Repr

namespace PerOperand

variable {α β : Type}

/-- The value of one operand. -/
def get (family : PerOperand α) : Operand → α
  | .lhs => family.lhs
  | .rhs => family.rhs

/-- Replaces the value of one operand. -/
def set (family : PerOperand α) (value : α) : Operand → PerOperand α
  | .lhs => { family with lhs := value }
  | .rhs => { family with rhs := value }

/-- The same value for both operands. -/
def both (value : α) : PerOperand α := ⟨value, value⟩

/-- Applies a function to both values. -/
def map (f : α → β) (family : PerOperand α) : PerOperand β := ⟨f family.lhs, f family.rhs⟩

@[simp] theorem get_set_self (family : PerOperand α) (value : α) (operand : Operand) :
    (family.set value operand).get operand = value := by
  cases operand <;> rfl

theorem get_set_of_ne (family : PerOperand α) (value : α) {operand other : Operand} (h : other ≠ operand) :
    (family.set value operand).get other = family.get other := by
  cases operand <;> cases other <;> simp_all [get, set]

end PerOperand

end BitSerial
