namespace MonkeyLang

/-! Integers of 64 bits in two's complement, as exact integers that are reduced after every
operation. -/

/-- The lowest 64 bits of an integer, read as a signed number. -/
def wrap (value : Int) : Int :=
  (BitVec.ofInt 64 value).toInt

/-- Reduction picks the number between `-2 ^ 63` and `2 ^ 63 - 1` that differs from `value` by a
multiple of `2 ^ 64`. -/
theorem wrap_eq_bmod (value : Int) : wrap value = value.bmod 0x10000000000000000 :=
  BitVec.toInt_ofInt value

/-- The quotient of the sizes, negative where just one of the two numbers is. -/
def quotient (dividend divisor : Int) : Int :=
  let size := dividend.natAbs / divisor.natAbs
  if (dividend < 0) != (divisor < 0) then -size else size

/-- Division of the sizes truncates toward zero. -/
theorem quotient_eq_tdiv (dividend divisor : Int) :
    quotient dividend divisor = dividend.tdiv divisor := by
  have nonnegative : ∀ size : Nat, ¬ (size : Int) < 0 := fun size =>
    Int.not_lt.mpr (Int.natCast_nonneg size)
  cases dividend <;> cases divisor <;>
    simp [quotient, Int.tdiv, Int.negSucc_lt_zero, nonnegative]

/-- The largest integer of 64 bits. -/
def greatestInteger : Int := 0x7fffffffffffffff

/-- What a host counts of anything that it holds: it never holds more than `greatestInteger`. -/
def counted (size : Nat) : Int := min size greatestInteger

def InRange (value : Int) : Prop :=
  -0x8000000000000000 ≤ value ∧ value < 0x8000000000000000

instance (value : Int) : Decidable (InRange value) :=
  inferInstanceAs (Decidable (_ ∧ _))

theorem wrap_inRange (value : Int) : InRange (wrap value) := by
  have lower := @Int.le_bmod value 0x10000000000000000 (by decide)
  have upper := @Int.bmod_lt value 0x10000000000000000 (by decide)
  rw [wrap_eq_bmod]
  unfold InRange
  omega

theorem wrap_of_inRange {value : Int} (within : InRange value) : wrap value = value := by
  unfold InRange at within
  rw [wrap_eq_bmod]
  exact Int.bmod_eq_of_le (by omega) (by omega)

theorem counted_eq {size : Nat} (held : size ≤ greatestInteger) : counted size = size :=
  Int.min_eq_left held

theorem counted_inRange (size : Nat) : InRange (counted size) := by
  unfold InRange counted greatestInteger
  omega

theorem counted_eq_zero {size : Nat} : counted size = 0 ↔ size = 0 := by
  unfold counted greatestInteger
  omega

end MonkeyLang
