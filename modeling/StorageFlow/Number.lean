/-
# StorageFlow.Number — double-precision numbers as exact integers.

Every finite double-precision number is an integer multiple of the smallest positive one, `2 ^ -1074`.
A `Number` is that integer, so comparing two numbers or asking whether one is whole is integer arithmetic
and nothing is ever rounded after a number was read.  Reading a decimal rounds once, to the nearest
number with 53 significant bits, a tie going to the even one; what exceeds the largest finite number has
no value.  Zero has no sign.
-/

namespace StorageFlow

/-- A finite double-precision number, as a multiple of `2 ^ -1074`. -/
structure Number where
  -- How many times the smallest positive number.
  multiple : Int
  deriving DecidableEq, Repr, Inhabited

namespace Number

/-- A power of two. -/
def twoPow (exponent : Nat) : Nat := Nat.pow 2 exponent

/-- A power of ten. -/
def tenPow (exponent : Nat) : Nat := Nat.pow 10 exponent

/-- A power of two is positive. -/
theorem twoPow_pos (exponent : Nat) : 0 < twoPow exponent := Nat.pow_pos Nat.zero_lt_two

/-- The smallest positive number is two to the power of minus this. -/
def finestBits : Nat := 1074

/-- The multiple that stands for one. -/
def unit : Nat := twoPow finestBits

/-- The number of significant bits. -/
def precision : Nat := 53

/-- The multiples of finite numbers lie below this bound. -/
def bound : Nat := twoPow (1024 + finestBits)

/-- A whole number; exact if it has at most 53 significant bits. -/
def ofInt (i : Int) : Number := ⟨i * unit⟩

/-- A natural number; exact if it has at most 53 significant bits. -/
def ofNat (n : Nat) : Number := ofInt n

/-- The integer a number is equal to, if it is whole. -/
def toInt? (x : Number) : Option Int :=
  if x.multiple % unit = 0 then some (x.multiple / unit) else none

/-- The greatest integer that is not above a number. -/
def floor (x : Number) : Int := x.multiple / unit

/-- The integer that is left of a number without its fraction. -/
def truncate (x : Number) : Int := x.multiple.tdiv unit

/-- Tells whether a number is whole. -/
def isWhole (x : Number) : Bool := x.toInt?.isSome

/-- Tells whether a number lies below zero. -/
def isNegative (x : Number) : Bool := decide (x.multiple < 0)

instance : LE Number := ⟨fun x y => x.multiple ≤ y.multiple⟩
instance (x y : Number) : Decidable (x ≤ y) := inferInstanceAs (Decidable (x.multiple ≤ y.multiple))

instance : Ord Number := ⟨fun x y => compare x.multiple y.multiple⟩

theorem unit_pos : 0 < unit := twoPow_pos finestBits

theorem unit_ne_zero : (unit : Int) ≠ 0 := by exact_mod_cast Nat.ne_of_gt unit_pos

/-- A whole number is the integer it was made from. -/
theorem toInt?_ofInt (i : Int) : (ofInt i).toInt? = some i := by
  show (if i * (unit : Int) % unit = 0 then some (i * (unit : Int) / unit) else none) = some i
  rw [if_pos (Int.mul_emod_left i unit), Int.mul_ediv_cancel i unit_ne_zero]

/-- A whole number is equal to exactly one integer. -/
theorem toInt?_eq_some_iff {x : Number} {i : Int} : x.toInt? = some i ↔ x = ofInt i := by
  refine ⟨fun h => ?_, fun h => h ▸ toInt?_ofInt i⟩
  obtain ⟨m⟩ := x
  simp only [toInt?] at h
  split at h
  · next hm =>
    obtain rfl := Option.some.inj h
    exact congrArg Number.mk (Int.ediv_mul_cancel (Int.dvd_of_emod_eq_zero hm)).symm
  · exact absurd h (by simp)

/-- Different integers are different numbers. -/
theorem ofInt_inj {i k : Int} : ofInt i = ofInt k ↔ i = k := by
  refine ⟨fun h => ?_, fun h => h ▸ rfl⟩
  have e := toInt?_ofInt i
  rw [h, toInt?_ofInt] at e
  exact (Option.some.inj e).symm

/-- The natural number that a number is rounded down to, zero if it is negative. -/
def toNat (x : Number) : Nat := x.floor.toNat

/-- Rounding down keeps the order. -/
theorem toNat_le_toNat {x y : Number} (h : x ≤ y) : x.toNat ≤ y.toNat := by
  have hf : x.floor ≤ y.floor := Int.ediv_le_ediv (by exact_mod_cast unit_pos) h
  unfold toNat
  omega

/-- The quotient rounded to the nearest integer, a tie going to the even one. -/
def roundedQuotient (numerator denominator : Nat) : Nat :=
  let q := numerator / denominator
  let r := numerator % denominator
  if denominator < 2 * r || (2 * r == denominator && q % 2 == 1) then q + 1 else q

/-- The power of two that separates neighbouring numbers of a given size. -/
def spacing (multiple : Nat) : Nat := twoPow (multiple.log2 + 1 - precision)

/-- The nearest number to a quotient of multiples, if it is finite. -/
def nearest? (numerator denominator : Nat) : Option Nat :=
  let step := spacing (numerator / denominator)
  -- Rounding up may reach the next power of two, which is a multiple of this step as well.
  let rounded := roundedQuotient numerator (denominator * step) * step
  if rounded < bound then some rounded else none

/-- The number of digits of a positive integer. -/
def digitCount (n : Nat) : Nat := (Nat.toDigits 10 n).length

/-- The nearest number to `digits * 10 ^ exponent`, negated if `negative`.  Powers that are certainly too
large or too small for a finite number are not computed. -/
def ofDecimal? (negative : Bool) (digits : Nat) (exponent : Int) : Option Number :=
  let magnitude : Option Nat :=
    if digits = 0 then some 0
    -- Finite numbers have at most 309 digits, and half the smallest one has 323 zeros after its point.
    else if 400 < digitCount digits + exponent then none
    else if digitCount digits + exponent < -400 then some 0
    else if 0 ≤ exponent then nearest? (digits * tenPow exponent.toNat * unit) 1
    else nearest? (digits * unit) (tenPow (-exponent).toNat)
  magnitude.map fun m => ⟨if negative then -m else m⟩

end Number

end StorageFlow
