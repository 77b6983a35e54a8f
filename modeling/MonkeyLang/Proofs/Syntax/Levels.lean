import MonkeyLang.Proofs.Syntax.Ranking

namespace MonkeyLang

/-! # Rows of operands and the trees of their operators

Binary operators stand on four levels.  Where operands stand in a row with operators between them, the
levels demand one tree: operators of a higher level bind tighter, and those of one level group to the
left.
-/

/-- The token of a binary operator. -/
abbrev Operator := { token : Token // token.kind ∈ Grammar.binaryOperators }

namespace Operator

def level (operator : Operator) : Nat :=
  match operator.1.kind with
  | .equal | .unequal => 1
  | .less | .greater => 2
  | .plus | .minus => 3
  | _ => 4

theorem level_pos (operator : Operator) : 0 < operator.level := by
  unfold level
  split <;> decide

/-- The binding powers of the parser tell the levels. -/
theorem binds (operator : Operator) : Parse.bindingPower operator.1.kind = operator.level + 1 := by
  obtain ⟨token, isOperator⟩ := operator
  simp only [Grammar.binaryOperators, List.mem_cons, List.not_mem_nil, or_false] at isOperator
  rcases isOperator with same | same | same | same | same | same | same | same <;>
    simp only [level, same, Parse.bindingPower]

end Operator

/-- Operands with operators between them. -/
structure Row (α : Type) where
  first : α
  others : List (Operator × α)

/-- Operands grouped by operators. -/
inductive Grouping (α : Type) where
  | operand (operand : α)
  | binary (left : Grouping α) (operator : Operator) (right : Grouping α)

namespace Grouping

variable {α : Type}

/-- The operands and operators from left to right. -/
def reading : Grouping α → Row α
  | operand first => ⟨first, []⟩
  | binary left operator right =>
      ⟨left.reading.first, left.reading.others ++ (operator, right.reading.first) :: right.reading.others⟩

/-- The outermost operator. -/
def root? : Grouping α → Option Operator
  | operand _ => none
  | binary _ operator _ => some operator

/-- To the left of an operator no operator of a lower level is outermost, and to its right only one of
a higher level. -/
def Ordered : Grouping α → Prop
  | operand _ => True
  | binary left operator right =>
      left.Ordered ∧ right.Ordered ∧ (∀ root ∈ left.root?, operator.level ≤ root.level) ∧
        ∀ root ∈ right.root?, operator.level < root.level

/-- Takes in an operator and the operand behind it, under the operators of lower levels to the right. -/
def attach (operator : Operator) (next : α) : Grouping α → Grouping α
  | operand first => binary (operand first) operator (operand next)
  | binary left root right =>
      if root.level < operator.level then binary left root (right.attach operator next)
      else binary (binary left root right) operator (operand next)

theorem attach_reading (operator : Operator) (next : α) (grouping : Grouping α) :
    (grouping.attach operator next).reading =
      ⟨grouping.reading.first, grouping.reading.others ++ [(operator, next)]⟩ := by
  induction grouping with
  | operand first => rfl
  | binary left root right _ ih =>
      unfold attach
      split
      · simp [reading, ih]
      · simp [reading]

theorem attach_root {operator root : Operator} {next : α} {grouping : Grouping α}
    (isRoot : root ∈ (grouping.attach operator next).root?) : root = operator ∨ root ∈ grouping.root? := by
  cases grouping with
  | operand first => exact .inl (Option.some.inj isRoot).symm
  | binary left outer right =>
      unfold attach at isRoot
      split at isRoot
      · exact .inr isRoot
      · exact .inl (Option.some.inj isRoot).symm

theorem Ordered.attach {grouping : Grouping α} (ordered : grouping.Ordered) (operator : Operator)
    (next : α) : (grouping.attach operator next).Ordered := by
  induction grouping with
  | operand first => exact ⟨trivial, trivial, nofun, nofun⟩
  | binary left root right _ ih =>
      obtain ⟨leftOrdered, rightOrdered, leftHigher, rightHigher⟩ := ordered
      unfold Grouping.attach
      split
      · rename_i lower
        refine ⟨leftOrdered, ih rightOrdered, leftHigher, fun inner isRoot => ?_⟩
        rcases attach_root isRoot with rfl | before
        · exact lower
        · exact rightHigher inner before
      · rename_i notLower
        refine ⟨⟨leftOrdered, rightOrdered, leftHigher, rightHigher⟩, trivial, ?_, nofun⟩
        rintro _ ⟨⟩
        exact Nat.not_lt.mp notLower

/-- In an ordered grouping no operator has a lower level than the outermost one. -/
theorem Ordered.lowest {grouping : Grouping α} (ordered : grouping.Ordered) {bound : Nat}
    (bounded : ∀ root ∈ grouping.root?, bound ≤ root.level) :
    ∀ next ∈ grouping.reading.others, bound ≤ next.1.level := by
  induction grouping with
  | operand first => exact nofun
  | binary left operator right leftLowest rightLowest =>
      obtain ⟨leftOrdered, rightOrdered, leftHigher, rightHigher⟩ := ordered
      have here : bound ≤ operator.level := bounded operator rfl
      refine List.forall_mem_append.mpr ⟨?_, List.forall_mem_cons.mpr ⟨here, ?_⟩⟩
      · exact leftLowest leftOrdered fun root isRoot => Nat.le_trans here (leftHigher root isRoot)
      · exact rightLowest rightOrdered fun root isRoot =>
          Nat.le_trans here (Nat.le_of_lt (rightHigher root isRoot))

theorem attach_outermost {grouping : Grouping α} {operator : Operator}
    (higher : ∀ root ∈ grouping.root?, operator.level ≤ root.level) (next : α) :
    grouping.attach operator next = binary grouping operator (operand next) := by
  cases grouping with
  | operand first => rfl
  | binary left root right => exact if_neg (Nat.not_lt.mpr (higher root rfl))

/-- Takes in operators and operands one after the other. -/
def attachAll (grouping : Grouping α) (others : List (Operator × α)) : Grouping α :=
  others.foldl (fun grouping next => grouping.attach next.1 next.2) grouping

theorem attachAll_reading (grouping : Grouping α) (others : List (Operator × α)) :
    (grouping.attachAll others).reading =
      ⟨grouping.reading.first, grouping.reading.others ++ others⟩ := by
  induction others generalizing grouping with
  | nil => simp [attachAll]
  | cons next others ih =>
      calc
        (grouping.attachAll (next :: others)).reading
            = ((grouping.attach next.1 next.2).attachAll others).reading := rfl
        _ = ⟨grouping.reading.first, grouping.reading.others ++ next :: others⟩ := by
            rw [ih, attach_reading, List.append_assoc, List.singleton_append]

theorem Ordered.attachAll {grouping : Grouping α} (ordered : grouping.Ordered)
    (others : List (Operator × α)) : (grouping.attachAll others).Ordered := by
  induction others generalizing grouping with
  | nil => exact ordered
  | cons next others ih => exact ih (ordered.attach next.1 next.2)

/-- Operators of higher levels all go to the right of the outermost one. -/
theorem attachAll_right {operator : Operator} {others : List (Operator × α)}
    (higher : ∀ next ∈ others, operator.level < next.1.level) (left right : Grouping α) :
    (binary left operator right).attachAll others = binary left operator (right.attachAll others) := by
  induction others generalizing right with
  | nil => rfl
  | cons next others ih =>
      obtain ⟨here, later⟩ := List.forall_mem_cons.mp higher
      have first : (binary left operator right).attach next.1 next.2 =
          binary left operator (right.attach next.1 next.2) := if_pos here
      exact (congrArg (·.attachAll others) first).trans (ih later _)

end Grouping

namespace Row

variable {α : Type}

/-- The grouping that the levels demand. -/
def grouping (row : Row α) : Grouping α :=
  (Grouping.operand row.first).attachAll row.others

theorem grouping_reading (row : Row α) : row.grouping.reading = row := by
  rw [grouping, Grouping.attachAll_reading]
  rfl

theorem grouping_ordered (row : Row α) : row.grouping.Ordered :=
  Grouping.Ordered.attachAll (show (Grouping.operand row.first).Ordered from trivial) row.others

/-- An ordered grouping is the one that its reading demands. -/
theorem grouping_of_ordered {grouping : Grouping α} (ordered : grouping.Ordered) :
    grouping.reading.grouping = grouping := by
  induction grouping with
  | operand first => rfl
  | binary left operator right leftSame rightSame =>
      obtain ⟨leftOrdered, rightOrdered, leftHigher, rightHigher⟩ := ordered
      have higher : ∀ next ∈ right.reading.others, operator.level < next.1.level :=
        rightOrdered.lowest rightHigher
      calc
        (Grouping.binary left operator right).reading.grouping
            = (left.reading.grouping.attach operator right.reading.first).attachAll
                right.reading.others := by
              simp only [Row.grouping, Grouping.reading, Grouping.attachAll, List.foldl_append,
                List.foldl_cons]
        _ = (Grouping.binary left operator (.operand right.reading.first)).attachAll
              right.reading.others := by
              rw [leftSame leftOrdered, Grouping.attach_outermost leftHigher]
        _ = .binary left operator right.reading.grouping := Grouping.attachAll_right higher _ _
        _ = .binary left operator right := by rw [rightSame rightOrdered]

end Row

end MonkeyLang
