import Mathlib.Data.Rat.Floor
import MonkeyLang.Proofs.Calculations

namespace MonkeyLang

/-! # Division

Quotients are rounded toward zero and reduced to 64 bits.  Just one of them is out of range.  Since
reduction respects the operations, the remainder is the exact one even there.
-/

/-- The integer next to a fraction on the side of zero. -/
def towardZero (fraction : ℚ) : Int :=
  if 0 ≤ fraction then ⌊fraction⌋ else ⌈fraction⌉

theorem towardZero_div_nat (dividend : Int) (divisor : Nat) :
    towardZero (dividend / divisor) = dividend.tdiv divisor := by
  unfold towardZero
  split
  · rename_i nonnegative
    rw [Rat.floor_intCast_div_natCast]
    rcases Nat.eq_zero_or_pos divisor with rfl | positive
    · simp
    · have least : 0 ≤ dividend := by
        rw [le_div_iff₀ (by exact_mod_cast positive), zero_mul] at nonnegative
        exact_mod_cast nonnegative
      exact (Int.tdiv_eq_ediv_of_nonneg least).symm
  · rename_i negative
    have most : dividend ≤ 0 := by
      by_contra positive
      exact negative (div_nonneg (by exact_mod_cast (not_le.mp positive).le) (Nat.cast_nonneg divisor))
    rw [Rat.ceil_intCast_div_natCast, ← Int.tdiv_eq_ediv_of_nonneg (Int.neg_nonneg_of_nonpos most),
      Int.neg_tdiv, Int.neg_neg]

theorem towardZero_div (dividend divisor : Int) :
    towardZero (dividend / divisor) = dividend.tdiv divisor := by
  obtain ⟨size, rfl | rfl⟩ := divisor.eq_nat_or_neg
  · exact_mod_cast towardZero_div_nat dividend size
  · have flipped : (dividend : ℚ) / (-(size : Int) : Int) = (-dividend : Int) / size := by
      push_cast
      rw [div_neg, neg_div]
    rw [flipped, towardZero_div_nat, Int.neg_tdiv, Int.tdiv_neg]

/-- Two integers of 64 bits have a quotient of 64 bits, but for one pair. -/
theorem quotient_inRange {dividend divisor : Int} (within : InRange dividend)
    (regular : ¬ (dividend = -0x8000000000000000 ∧ divisor = -1)) :
    InRange (dividend.tdiv divisor) := by
  have size : (dividend.tdiv divisor).natAbs = dividend.natAbs / divisor.natAbs :=
    Int.natAbs_tdiv dividend divisor
  unfold InRange at *
  rcases Nat.lt_trichotomy divisor.natAbs 1 with none | single | several
  · have zero : divisor = 0 := Int.natAbs_eq_zero.mp (Nat.lt_one_iff.mp none)
    rw [zero, Int.tdiv_zero]
    decide
  · rcases Int.natAbs_eq divisor with same | same <;> rw [single, Nat.cast_one] at same
    · rw [same, Int.tdiv_one]
      exact within
    · rw [same, Int.tdiv_neg, Int.tdiv_one]
      omega
  · have half : dividend.natAbs / divisor.natAbs ≤ dividend.natAbs / 2 :=
      Nat.div_le_div_left several (by decide)
    omega

theorem wrap_quotient {dividend divisor : Int} (within : InRange dividend) :
    wrap (dividend.tdiv divisor) =
      if dividend = -0x8000000000000000 ∧ divisor = -1 then -0x8000000000000000
      else towardZero (dividend / divisor) := by
  split
  · rename_i overflow
    obtain ⟨rfl, rfl⟩ := overflow
    decide
  · rename_i regular
    rw [towardZero_div, wrap_of_inRange (quotient_inRange within regular)]

theorem remainder_inRange {dividend divisor : Int} (within : InRange dividend) :
    InRange (dividend.tmod divisor) := by
  have size : (dividend.tmod divisor).natAbs ≤ dividend.natAbs :=
    (Int.natAbs_tmod dividend divisor).trans_le (Nat.mod_le _ _)
  have sign := Int.sign_tmod dividend divisor
  unfold InRange at *
  split at sign
  · have zero := Int.sign_eq_zero_iff_zero.mp sign
    omega
  · rcases lt_trichotomy dividend 0 with negative | zero | positive
    · rw [Int.sign_eq_neg_one_of_neg negative, Int.sign_eq_neg_one_iff_neg] at sign
      omega
    · omega
    · omega

/-- The product with the reduced quotient is off by turns, and the difference takes them back. -/
theorem wrap_remainder {dividend divisor : Int} (within : InRange dividend) :
    wrap (dividend - wrap (wrap (dividend.tdiv divisor) * divisor)) = dividend.tmod divisor := by
  have exact : dividend - dividend.tdiv divisor * divisor = dividend.tmod divisor := by
    rw [Int.tmod_def, Int.mul_comm]
  calc wrap (dividend - wrap (wrap (dividend.tdiv divisor) * divisor))
      = wrap (dividend - dividend.tdiv divisor * divisor) := by
        simp only [wrap_eq_bmod]
        rw [Int.sub_bmod_bmod, ← Int.sub_bmod_bmod, Int.bmod_mul_bmod, Int.sub_bmod_bmod]
    _ = dividend.tmod divisor := by rw [exact, wrap_of_inRange (remainder_inRange within)]

section Steps

variable {setting : Setting} {depth : Nat} {scope : ScopeId} {machine : Machine} {first second : Node}
  {dividend divisor : Int} {count more : Nat}

theorem quotient_computes (token : Token) (nonzero : divisor ≠ 0)
    (left : Eval.Computes (evaluate setting depth first scope) machine dividend count)
    (right : Eval.Computes (evaluate setting depth second scope) (machine.making count) divisor more) :
    Eval.Computes (evaluate setting (depth + 1) (.binary token "/" first second) scope) machine
      (wrap (dividend.tdiv divisor)) (count + more + 1) := by
  obtain ⟨id, ran⟩ := left
  obtain ⟨otherId, otherRan⟩ := right
  rw [Machine.making_making] at otherRan
  refine ⟨(machine.making (count + more)).nextObject, (Eval.bind_ok ran).trans ?_⟩
  refine (Eval.bind_ok otherRan).trans ?_
  have divides : Eval.integers "/" dividend divisor =
      Eval.create (.integer · (wrap (dividend.tdiv divisor))) := by
    simp only [Eval.integers, beq_iff_eq, if_neg nonzero, quotient_eq_tdiv]
  change ((Eval.integers "/" dividend divisor >>= fun value => pure (some value)) _).ending = _
  rw [divides]
  rfl

theorem zero_divides_none (token : Token)
    (left : Eval.Computes (evaluate setting depth first scope) machine dividend count)
    (right : Eval.Computes (evaluate setting depth second scope) (machine.making count) 0 more) :
    let after := machine.making (count + more)
    (evaluate setting (depth + 1) (.binary token "/" first second) scope machine).ending =
      .ok (some (.failed (after.failure "division by zero" (some "Infix")))) after := by
  obtain ⟨id, ran⟩ := left
  obtain ⟨otherId, otherRan⟩ := right
  rw [Machine.making_making] at otherRan
  exact (Eval.bind_ok ran).trans (Eval.bind_ok otherRan)

end Steps

/-- A node gives an integer in a scope, wherever there is room for it and however many objects were
made before. -/
def Node.AmountsTo (node : Node) (setting : Setting) (scope : ScopeId) (machine : Machine) (room : Nat)
    (value : Int) : Prop :=
  ∀ depth, room ≤ depth → ∀ made, ∃ count,
    Eval.Computes (evaluate setting depth node scope) (machine.making made) value count

namespace Node.AmountsTo

variable {setting : Setting} {scope : ScopeId} {machine : Machine} {room larger : Nat}
  {first second : Node} {value other : Int}

theorem widen (amounts : first.AmountsTo setting scope machine room value)
    (wider : room ≤ larger) :
    first.AmountsTo setting scope machine larger value :=
  fun depth roomy => amounts depth (wider.trans roomy)

/-- Operands one layer further down. -/
theorem operands (left : first.AmountsTo setting scope machine room value)
    (right : second.AmountsTo setting scope machine room other) {depth : Nat} (roomy : room + 1 ≤ depth)
    (made : Nat) :
    ∃ inner count more, depth = inner + 1 ∧
      Eval.Computes (evaluate setting inner first scope) (machine.making made) value count ∧
      Eval.Computes (evaluate setting inner second scope) ((machine.making made).making count) other
        more := by
  obtain ⟨inner, rfl⟩ := Nat.exists_eq_add_of_le' (Nat.le_trans (Nat.le_add_left 1 room) roomy)
  have within : room ≤ inner := Nat.le_of_succ_le_succ roomy
  obtain ⟨count, computes⟩ := left inner within made
  obtain ⟨more, computesOther⟩ := right inner within (made + count)
  exact ⟨inner, count, more, rfl, computes, (machine.making_making made count).symm ▸ computesOther⟩

theorem combined (token : Token) (operation : Operation)
    (left : first.AmountsTo setting scope machine room value)
    (right : second.AmountsTo setting scope machine room other) :
    (Node.binary token operation.symbol first second).AmountsTo setting scope machine (room + 1)
      (wrap (operation.exact value other)) := by
  intro depth roomy made
  obtain ⟨inner, count, more, rfl, computes, computesOther⟩ := left.operands right roomy made
  exact ⟨_, combined_computes token operation computes computesOther⟩

theorem quotient (token : Token) (nonzero : other ≠ 0)
    (left : first.AmountsTo setting scope machine room value)
    (right : second.AmountsTo setting scope machine room other) :
    (Node.binary token "/" first second).AmountsTo setting scope machine (room + 1)
      (wrap (value.tdiv other)) := by
  intro depth roomy made
  obtain ⟨inner, count, more, rfl, computes, computesOther⟩ := left.operands right roomy made
  exact ⟨_, quotient_computes token nonzero computes computesOther⟩

end Node.AmountsTo

/-- The quotient of two integers is the exact one rounded toward zero, but for the one pair where that
is out of range.  The dividend less the product of quotient and divisor is a remainder that is smaller
than the divisor and has the sign of the dividend.  By zero nothing is divided. -/
theorem division_truncates (setting : Setting) (scope : ScopeId) (machine : Machine) (token : Token)
    {room : Nat} {first second : Node} {dividend divisor : Int}
    (left : first.AmountsTo setting scope machine room dividend)
    (right : second.AmountsTo setting scope machine room divisor) :
    let division : Node := .binary token "/" first second
    (InRange dividend → divisor ≠ 0 → ∃ quotient remainder,
      division.AmountsTo setting scope machine (room + 1) quotient ∧
      (∀ given : Node, given.AmountsTo setting scope machine (room + 1) quotient →
        (Node.binary token "-" first (.binary token "*" given second)).AmountsTo setting scope machine
          (room + 3) remainder) ∧
      remainder.natAbs < divisor.natAbs ∧ (remainder = 0 ∨ remainder.sign = dividend.sign) ∧
      quotient = if dividend = -0x8000000000000000 ∧ divisor = -1 then -0x8000000000000000
        else towardZero (dividend / divisor)) ∧
    (divisor = 0 → ∀ depth, room + 1 ≤ depth → ∃ count,
      let after := machine.making count
      (evaluate setting depth division scope machine).ending =
        .ok (some (.failed (after.failure "division by zero" (some "Infix")))) after) := by
  intro division
  constructor
  · intro within nonzero
    refine ⟨wrap (dividend.tdiv divisor), dividend.tmod divisor, left.quotient token nonzero right, ?_,
      ?_, ?_, wrap_quotient within⟩
    · intro given amounts
      have product := amounts.combined token .product (right.widen (Nat.le_succ room))
      have difference := (left.widen (Nat.le_add_right room 2)).combined token .difference product
      simp only [Operation.exact, wrap_remainder within] at difference
      exact difference
    · rw [Int.natAbs_tmod]
      exact Nat.mod_lt _ (Int.natAbs_pos.mpr nonzero)
    · have sign := Int.sign_tmod dividend divisor
      split at sign
      · exact .inl (Int.sign_eq_zero_iff_zero.mp sign)
      · exact .inr sign
  · rintro rfl depth roomy
    obtain ⟨inner, count, more, rfl, computes, computesOther⟩ := left.operands right roomy 0
    exact ⟨count + more, zero_divides_none token computes computesOther⟩

/-- A calculation amounts to its reduced value. -/
theorem Calculation.amountsTo (calculation : Calculation) (setting : Setting) (scope : ScopeId)
    (machine : Machine) :
    calculation.tree.AmountsTo setting scope machine calculation.tree.depth (wrap calculation.exact) :=
  fun _ roomy _ => ⟨calculation.size, calculation.computes setting scope roomy _⟩

/-- The smallest integer by `-1`, both of them calculated: the quotient is the smallest integer again and
the remainder zero. -/
theorem division_truncates_smallest :
    let token : Token := ⟨.minus, "-", 1, 1⟩
    let largest := Calculation.literal token 9223372036854775807 (by decide)
    let one := Calculation.literal token 1 (by decide)
    let smallest := Calculation.combined token .difference (.negative token largest) one
    let setting : Setting := ⟨"<string>", false, Builtin.core, .none⟩
    let division : Node := .binary token "/" smallest.tree (Calculation.negative token one).tree
    ∃ quotient remainder,
      division.AmountsTo setting 0 (.initial setting) 4 quotient ∧
      (Node.binary token "-" smallest.tree (.binary token "*" division
        (Calculation.negative token one).tree)).AmountsTo setting 0 (.initial setting) 6 remainder ∧
      quotient = -9223372036854775808 ∧ remainder.natAbs < 1 := by
  intro token largest one smallest setting division
  have left := smallest.amountsTo setting 0 (.initial setting)
  have right := ((Calculation.negative token one).amountsTo setting 0 (.initial setting)).widen
    (by decide : _ ≤ smallest.tree.depth)
  obtain ⟨quotient, remainder, divides, leaves, small, -, rounded⟩ :=
    (division_truncates setting 0 _ token left right).1
      (by decide : InRange (wrap smallest.exact)) (by decide : wrap (-1) ≠ 0)
  exact ⟨quotient, remainder, divides, leaves division divides, rounded.trans (by decide), small⟩

end MonkeyLang
