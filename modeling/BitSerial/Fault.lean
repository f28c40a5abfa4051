/-! # Faults and machine quantities

Sizes, addresses and counts are natural numbers that a device holds in 64-bit words, and some command
fields in 32-bit words. An operation whose exact value does not fit its word is a fault, and so is a
division by zero. Conversion of a size into a command field is the one exception: it keeps the low
32 bits, whatever is lost.

Some counts have 64-bit words of their own and are plain numbers all the same: those that begin at zero with a device
and go up by one for each cycle, entry, operation, transfer or byte that the device goes through. It would have to go
through 2^64 of them, one after the other, before such a word is full. A count is checked if a single step can add any
number to it, as the bytes that a command announces do, or if it need not begin at zero, as that of a tracker that a
schedule is built from.
-/

namespace BitSerial

/-- Why a computation on machine quantities has no value. A fault ends the activity that meets it. -/
inductive Fault where
  /-- The exact value does not fit the word that holds it. -/
  | overflow
  /-- A quotient or remainder by zero. -/
  | divisionByZero
  /-- A position past the end of what it indexes. -/
  | outOfRange
  /-- A block of memory larger than the address space can hold. -/
  | oversized
  deriving DecidableEq, Repr

namespace Word64

/-- The number of values of a 64-bit word. -/
def size : Nat := 0x10000000000000000

/-- A value itself, if a 64-bit word holds it. -/
@[inline] def fit (value : Nat) : Except Fault Nat :=
  if value < size then .ok value else .error .overflow

/-- The sum of two 64-bit quantities. -/
@[inline] def add (first second : Nat) : Except Fault Nat := fit (first + second)

/-- The product of two 64-bit quantities. -/
@[inline] def mul (first second : Nat) : Except Fault Nat := fit (first * second)

/-- The quotient, rounded down. -/
@[inline] def div (numerator denominator : Nat) : Except Fault Nat :=
  if denominator = 0 then .error .divisionByZero else .ok (numerator / denominator)

/-- The remainder of the quotient rounded down. -/
@[inline] def mod (numerator denominator : Nat) : Except Fault Nat :=
  if denominator = 0 then .error .divisionByZero else .ok (numerator % denominator)

/-- The sum, or the largest word where the sum does not fit. -/
def saturatingAdd (first second : Nat) : Nat := min (first + second) (size - 1)

theorem fit_eq_ok {value : Nat} (h : value < size) : fit value = .ok value := if_pos h

/-- A word holds exactly the values below its size. -/
theorem fit_eq_ok_iff {value found : Nat} : fit value = .ok found ↔ value < size ∧ found = value := by
  unfold fit
  split
  next h => simp [h, eq_comm]
  next h => simp [h]

theorem add_eq_ok_iff {first second found : Nat} :
    add first second = .ok found ↔ first + second < size ∧ found = first + second :=
  fit_eq_ok_iff

theorem mul_eq_ok_iff {first second found : Nat} :
    mul first second = .ok found ↔ first * second < size ∧ found = first * second :=
  fit_eq_ok_iff

theorem div_eq_ok_iff {numerator denominator found : Nat} :
    div numerator denominator = .ok found ↔ denominator ≠ 0 ∧ found = numerator / denominator := by
  unfold div
  split
  next h => simp [h]
  next h => simp [h, eq_comm]

theorem mod_eq_ok_iff {numerator denominator found : Nat} :
    mod numerator denominator = .ok found ↔ denominator ≠ 0 ∧ found = numerator % denominator := by
  unfold mod
  split
  next h => simp [h]
  next h => simp [h, eq_comm]

end Word64

namespace Word32

/-- The number of values of a 32-bit word. -/
def size : Nat := 0x100000000

/-- The low 32 bits of a quantity, as a command field keeps it. -/
def low (value : Nat) : Nat := value % size

/-- The sum of two 32-bit quantities. -/
def add (first second : Nat) : Except Fault Nat :=
  if first + second < size then .ok (first + second) else .error .overflow

theorem low_eq_self_iff {value : Nat} : low value = value ↔ value < size := Nat.mod_eq_iff_lt (by decide)

theorem low_eq_self {value : Nat} (h : value < size) : low value = value := low_eq_self_iff.mpr h

theorem low_le (value : Nat) : low value ≤ value := Nat.mod_le value size

theorem add_eq_ok_iff {first second found : Nat} :
    add first second = .ok found ↔ first + second < size ∧ found = first + second := by
  unfold add
  split
  next h => simp [h, eq_comm]
  next h => simp [h]

end Word32

/-- The most bytes that one block of host memory can have. -/
def largestBlock : Nat := 0x7fffffffffffffff

/-- Refuses to reserve a block of host memory that cannot exist. -/
def reserve (bytes : Nat) : Except Fault Unit :=
  if bytes ≤ largestBlock then .ok () else .error .oversized

/-- The least multiple of a unit that is at least a value. A unit of zero asks for no rounding. -/
def roundUp (value unit : Nat) : Except Fault Nat :=
  if unit = 0 then .ok value else Word64.mul ((value + unit - 1) / unit) unit

/-- The greatest common divisor, by Euclid's algorithm. -/
def commonDivisor (first second : Nat) : Nat :=
  if second = 0 then first else commonDivisor second (first % second)
termination_by second
decreasing_by exact Nat.mod_lt first (Nat.pos_of_ne_zero ‹_›)

/-- The least common multiple. It divides first, so that nothing on the way is larger. -/
def commonMultiple (first second : Nat) : Except Fault Nat := do
  Word64.mul (← Word64.div first (commonDivisor first second)) second

end BitSerial
