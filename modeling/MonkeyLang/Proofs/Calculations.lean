import MonkeyLang.Builtin.Core
import MonkeyLang.Evaluation.Evaluate
import MonkeyLang.Proofs.Evaluation.Agreement

namespace MonkeyLang

/-! # Calculations

Trees of integers under sums, differences, products and negatives.  Each operation reduces its result
to 64 bits.  Reduction respects the operations, so one reduction at the end does as well.
-/

inductive Operation where
  | sum | difference | product
deriving DecidableEq, Repr

namespace Operation

def symbol : Operation → String
  | sum => "+"
  | difference => "-"
  | product => "*"

/-- The result in unbounded integers. -/
def exact : Operation → Int → Int → Int
  | sum, left, right => left + right
  | difference, left, right => left - right
  | product, left, right => left * right

/-- Operands may be reduced before they are combined. -/
theorem wrap_exact (operation : Operation) (left right : Int) :
    wrap (operation.exact (wrap left) (wrap right)) = wrap (operation.exact left right) := by
  simp only [wrap_eq_bmod]
  cases operation with
  | sum => exact Int.bmod_add_bmod.trans Int.add_bmod_bmod
  | difference => exact Int.bmod_sub_bmod.trans Int.sub_bmod_bmod
  | product => exact Int.bmod_mul_bmod.trans Int.mul_bmod_bmod

end Operation

theorem wrap_neg (value : Int) : wrap (-wrap value) = wrap (-value) := by
  simp only [wrap_eq_bmod, Int.bmod_neg_bmod]

/-- A tree of operations on integers that can be written, those below `2 ^ 63`. -/
inductive Calculation where
  | literal (token : Token) (value : Nat) (bounded : value < 0x8000000000000000)
  | negative (token : Token) (operand : Calculation)
  | combined (token : Token) (operation : Operation) (left right : Calculation)

namespace Calculation

def tree : Calculation → Node
  | literal token value _ => .integer token value
  | negative token operand => .unary token "-" operand.tree
  | combined token operation left right => .binary token operation.symbol left.tree right.tree

/-- The value in unbounded integers. -/
def exact : Calculation → Int
  | literal _ value _ => value
  | negative _ operand => -operand.exact
  | combined _ operation left right => operation.exact left.exact right.exact

/-- How many integers are made on the way, the result among them. -/
def size : Calculation → Nat
  | literal .. => 1
  | negative _ operand => operand.size + 1
  | combined _ _ left right => left.size + right.size + 1

end Calculation

namespace Machine

/-- The machine after some more objects were made. -/
def making (machine : Machine) (count : Nat) : Machine :=
  { machine with nextObject := machine.nextObject + count }

theorem making_making (machine : Machine) (count more : Nat) :
    (machine.making count).making more = machine.making (count + more) := by
  simp [making, Nat.add_assoc]

end Machine

/-- An evaluation ends with an integer of the given value, and makes some objects on the way. -/
def Eval.Computes (action : Eval (Option Value)) (machine : Machine) (value : Int) (count : Nat) :
    Prop :=
  ∃ id, (action machine).ending = .ok (some (.integer id value)) (machine.making count)

section Steps

variable {setting : Setting} {depth : Nat} {scope : ScopeId} {machine : Machine} {token : Token}
  {operand left right : Node} {value other : Int} {count more : Nat}

theorem literal_computes :
    Eval.Computes (evaluate setting (depth + 1) (.integer token value) scope) machine value 1 :=
  ⟨machine.nextObject, rfl⟩

theorem negative_computes (token : Token)
    (first : Eval.Computes (evaluate setting depth operand scope) machine value count) :
    Eval.Computes (evaluate setting (depth + 1) (.unary token "-" operand) scope) machine
      (wrap (-value)) (count + 1) := by
  obtain ⟨id, ran⟩ := first
  exact ⟨(machine.making count).nextObject, Eval.bind_ok ran⟩

theorem combined_computes (token : Token) (operation : Operation)
    (first : Eval.Computes (evaluate setting depth left scope) machine value count)
    (second : Eval.Computes (evaluate setting depth right scope) (machine.making count) other more) :
    Eval.Computes (evaluate setting (depth + 1) (.binary token operation.symbol left right) scope)
      machine (wrap (operation.exact value other)) (count + more + 1) := by
  obtain ⟨id, ran⟩ := first
  obtain ⟨otherId, otherRan⟩ := second
  rw [Machine.making_making] at otherRan
  refine ⟨(machine.making (count + more)).nextObject, (Eval.bind_ok ran).trans ?_⟩
  refine (Eval.bind_ok otherRan).trans ?_
  cases operation <;> rfl

end Steps

namespace Calculation

variable (setting : Setting) (scope : ScopeId) {depth : Nat}

theorem computes (calculation : Calculation) (room : calculation.tree.depth ≤ depth)
    (machine : Machine) :
    Eval.Computes (evaluate setting depth calculation.tree scope) machine (wrap calculation.exact)
      calculation.size := by
  induction calculation generalizing depth machine with
  | literal token value bounded =>
      obtain ⟨depth, rfl⟩ := Nat.exists_eq_add_of_le' room
      have inRange : InRange (value : Int) := by
        unfold InRange
        omega
      exact (wrap_of_inRange inRange).symm ▸ literal_computes
  | negative token operand ih =>
      obtain ⟨depth, rfl⟩ := Nat.exists_eq_add_of_le' (Nat.le_trans (Nat.le_add_left 1 _) room)
      have computed := negative_computes token (ih (Nat.le_of_succ_le_succ room) machine)
      rwa [wrap_neg] at computed
  | combined token operation left right leftIH rightIH =>
      obtain ⟨depth, rfl⟩ := Nat.exists_eq_add_of_le' (Nat.le_trans (Nat.le_add_left 1 _) room)
      obtain ⟨leftRoom, rightRoom⟩ := Nat.max_le.mp (Nat.le_of_succ_le_succ room)
      have computed := combined_computes token operation (leftIH leftRoom machine)
        (rightIH rightRoom _)
      rwa [operation.wrap_exact] at computed

/-- The evaluation is broken off if there is no room for the tree, and in no other way. -/
theorem lacks_room (calculation : Calculation) (shallow : depth < calculation.tree.depth)
    (machine : Machine) :
    ∃ after, (evaluate setting depth calculation.tree scope machine).ending = .error .depth after := by
  induction calculation generalizing depth machine with
  | literal token value bounded =>
      obtain rfl : depth = 0 := Nat.lt_one_iff.mp shallow
      exact ⟨machine, rfl⟩
  | negative token operand ih =>
      cases depth with
      | zero => exact ⟨machine, rfl⟩
      | succ depth =>
          obtain ⟨after, ran⟩ := ih (Nat.lt_of_succ_lt_succ shallow) machine
          exact ⟨after, Eval.bind_error ran⟩
  | combined token operation left right leftIH rightIH =>
      cases depth with
      | zero => exact ⟨machine, rfl⟩
      | succ depth =>
          by_cases leftRoom : left.tree.depth ≤ depth
          · have rightShallow : depth < right.tree.depth := by
              simp only [tree, Node.depth] at shallow
              omega
            obtain ⟨id, leftRan⟩ := left.computes setting scope leftRoom machine
            obtain ⟨after, ran⟩ := rightIH rightShallow (machine.making left.size)
            exact ⟨after, (Eval.bind_ok leftRan).trans (Eval.bind_error ran)⟩
          · obtain ⟨after, ran⟩ := leftIH (Nat.not_le.mp leftRoom) machine
            exact ⟨after, Eval.bind_error ran⟩

end Calculation

/-- A calculation gives its exact value, reduced once to 64 bits, and leaves everything else of the
machine alone.  Nothing but a lack of room for the tree can come between, and no failure. -/
theorem calculations_reduce_once (setting : Setting) (calculation : Calculation) (scope : ScopeId)
    (machine : Machine) :
    (InRange (wrap calculation.exact) ∧
      ∃ turns : Int, wrap calculation.exact = calculation.exact + turns * 0x10000000000000000) ∧
    ∀ depth,
      (calculation.tree.depth ≤ depth → ∃ id,
        (evaluate setting depth calculation.tree scope machine).ending =
          .ok (some (.integer id (wrap calculation.exact))) (machine.making calculation.size)) ∧
      (depth < calculation.tree.depth → ∃ after,
        (evaluate setting depth calculation.tree scope machine).ending = .error .depth after) := by
  refine ⟨⟨wrap_inRange _, ?_⟩, fun depth => ⟨fun room => ?_, fun shallow => ?_⟩⟩
  · obtain ⟨turns, differs⟩ : ((0x10000000000000000 : Nat) : Int) ∣
        wrap calculation.exact - calculation.exact :=
      wrap_eq_bmod _ ▸ Int.dvd_bmod_sub_self
    exact ⟨turns, by omega⟩
  · exact calculation.computes setting scope room machine
  · exact calculation.lacks_room setting scope shallow machine

/-- `-(-9223372036854775807 - 1) - 1 * 1`: the negative of the smallest integer is that integer again,
and the last difference leads back to the largest. -/
theorem calculations_reduce_once_smallest :
    let token : Token := ⟨.minus, "-", 1, 1⟩
    let largest := Calculation.literal token 9223372036854775807 (by decide)
    let one := Calculation.literal token 1 (by decide)
    let negated := Calculation.negative token
      (.combined token .difference (.negative token largest) one)
    let calculation := Calculation.combined token .difference negated
      (.combined token .product one one)
    let setting : Setting := ⟨"<string>", false, Builtin.core, .none⟩
    let machine := Machine.initial setting
    calculation.exact = 9223372036854775807 ∧ calculation.tree.depth = 5 ∧ ∃ id,
      (evaluate setting 5 calculation.tree 0 machine).ending =
        .ok (some (.integer id 9223372036854775807)) (machine.making 9) := by
  intro token largest one negated calculation setting machine
  exact ⟨by decide, by decide,
    ((calculations_reduce_once setting calculation 0 machine).2 5).1 (by decide)⟩

end MonkeyLang
