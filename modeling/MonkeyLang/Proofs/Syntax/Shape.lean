import MonkeyLang.Syntax.Node

namespace MonkeyLang

/-! # What stands inside a node

Of what stands inside a node, the body of a function runs in a scope of its own and later.  All else
is evaluated in the scope of the node: operands for their values, and statements one after the other.
-/

namespace Node

/-- Nodes that have a value if their operands have. -/
def isValued : Node → Bool
  | program _ | block _ | letStatement .. | bare .. => false
  | _ => true

def operands : Node → List Node
  | letStatement _ _ value | returnStatement _ value | expressionStatement _ value => [value]
  | array _ items => items
  | hash _ pairs => pairs.flatMap fun pair => [pair.1, pair.2]
  | unary _ _ operand => [operand]
  | binary _ _ left right => [left, right]
  | conditional _ condition _ _ => [condition]
  | call _ callee arguments => callee :: arguments
  | index _ left position => [left, position]
  | _ => []

/-- The statements of a node, those of both branches of a conditional. -/
def body : Node → List Node
  | program body | block body => body.statements
  | conditional _ _ consequence none => consequence.statements
  | conditional _ _ consequence (some alternative) =>
      consequence.statements ++ alternative.statements
  | _ => []

theorem operands_hash {token : Token} {pairs : List (Node × Node)} {pair : Node × Node}
    (member : pair ∈ pairs) :
    pair.1 ∈ (hash token pairs).operands ∧ pair.2 ∈ (hash token pairs).operands := by
  constructor <;> exact List.mem_flatMap.mpr ⟨pair, member, by simp⟩

theorem depth_pos (tree : Node) : 0 < tree.depth := by
  cases tree with
  | conditional token condition consequence alternative =>
      cases alternative <;> exact Nat.succ_pos _
  | _ => exact Nat.succ_pos _

theorem depth_item {items : List Node} {item : Node} (member : item ∈ items) :
    item.depth ≤ depthOfAll items := by
  induction member with
  | head => exact Nat.le_max_left _ _
  | tail first _ ih => exact Nat.le_trans ih (Nat.le_max_right _ _)

theorem depth_pairs {pairs : List (Node × Node)} {pair : Node × Node} (member : pair ∈ pairs) :
    pair.1.depth ≤ depthOfPairs pairs ∧ pair.2.depth ≤ depthOfPairs pairs := by
  induction pairs with
  | nil => cases member
  | cons first others ih =>
      simp only [depthOfPairs]
      rcases List.mem_cons.mp member with rfl | inside
      · omega
      · have behind := ih inside
        omega

theorem depth_operand {tree operand : Node} (member : operand ∈ tree.operands) :
    operand.depth < tree.depth := by
  cases tree with
  | array token items => exact Nat.lt_succ_of_le (depth_item member)
  | hash token pairs =>
      obtain ⟨pair, inside, within⟩ := List.mem_flatMap.mp member
      have below := depth_pairs inside
      simp only [List.mem_cons, List.not_mem_nil, or_false] at within
      rcases within with rfl | rfl
      · exact Nat.lt_succ_of_le below.1
      · exact Nat.lt_succ_of_le below.2
  | call token callee arguments =>
      simp only [depth]
      rcases List.mem_cons.mp member with rfl | inside
      · omega
      · have below := depth_item inside
        omega
  | conditional token condition consequence alternative =>
      rw [List.mem_singleton.mp member]
      cases alternative <;> simp only [depth] <;> omega
  | binary | index =>
      simp only [operands, List.mem_cons, List.not_mem_nil, or_false] at member
      simp only [depth]
      rcases member with rfl | rfl <;> omega
  | letStatement | returnStatement | expressionStatement | unary =>
      rw [List.mem_singleton.mp member]
      exact Nat.lt_succ_self _
  | _ => cases member

mutual

/-- The names of the let statements in a node, those inside its function literals excepted. -/
def targets : Node → List String
  | program ⟨_, body⟩ | block ⟨_, body⟩ => targetsOfAll body
  | letStatement _ name value => value.targets ++ [name.name]
  | returnStatement _ value | expressionStatement _ value => value.targets
  | identifier _ | integer .. | boolean .. | string .. | function .. | bare .. => []
  | array _ items => targetsOfAll items
  | hash _ pairs => targetsOfPairs pairs
  | unary _ _ operand => operand.targets
  | binary _ _ left right => left.targets ++ right.targets
  | conditional _ condition ⟨_, consequence⟩ none => condition.targets ++ targetsOfAll consequence
  | conditional _ condition ⟨_, consequence⟩ (some ⟨_, alternative⟩) =>
      condition.targets ++ targetsOfAll consequence ++ targetsOfAll alternative
  | call _ callee arguments => callee.targets ++ targetsOfAll arguments
  | index _ left position => left.targets ++ position.targets

def targetsOfAll : List Node → List String
  | [] => []
  | node :: nodes => node.targets ++ targetsOfAll nodes

def targetsOfPairs : List (Node × Node) → List String
  | [] => []
  | (key, value) :: pairs => key.targets ++ value.targets ++ targetsOfPairs pairs

end

theorem targets_all {node : Node} {nodes : List Node} (member : node ∈ nodes) :
    node.targets ⊆ targetsOfAll nodes := by
  induction member with
  | head => exact List.subset_append_left _ _
  | tail first _ ih => exact List.Subset.trans ih (List.subset_append_right _ _)

theorem targets_pairs {pairs : List (Node × Node)} {node : Node}
    (member : node ∈ pairs.flatMap fun pair => [pair.1, pair.2]) :
    node.targets ⊆ targetsOfPairs pairs := by
  induction pairs with
  | nil => cases member
  | cons pair others ih =>
      obtain ⟨key, value⟩ := pair
      simp only [List.flatMap_cons, List.cons_append, List.nil_append, List.mem_cons] at member
      simp only [targetsOfPairs]
      rcases member with rfl | rfl | later
      · exact List.Subset.trans (List.subset_append_left _ _) (List.subset_append_left _ _)
      · exact List.Subset.trans (List.subset_append_right _ _) (List.subset_append_left _ _)
      · exact List.Subset.trans (ih later) (List.subset_append_right _ _)

theorem targets_operands {tree operand : Node} (member : operand ∈ tree.operands) :
    operand.targets ⊆ tree.targets := by
  cases tree with
  | array token items => exact targets_all member
  | hash token pairs => exact targets_pairs member
  | call token callee arguments =>
      rcases List.mem_cons.mp member with rfl | inside
      · exact List.subset_append_left _ _
      · exact List.Subset.trans (targets_all inside) (List.subset_append_right _ _)
  | conditional token condition consequence alternative =>
      rw [List.mem_singleton.mp member]
      cases alternative with
      | none => exact List.subset_append_left _ _
      | some alternative =>
          exact List.Subset.trans (List.subset_append_left _ _) (List.subset_append_left _ _)
  | binary | index =>
      simp only [operands, List.mem_cons, List.not_mem_nil, or_false] at member
      rcases member with rfl | rfl
      · exact List.subset_append_left _ _
      · exact List.subset_append_right _ _
  | letStatement =>
      rw [List.mem_singleton.mp member]
      exact List.subset_append_left _ _
  | returnStatement | expressionStatement | unary =>
      rw [List.mem_singleton.mp member]
      exact List.Subset.refl _
  | _ => cases member

theorem targets_body {tree statement : Node} (member : statement ∈ tree.body) :
    statement.targets ⊆ tree.targets := by
  cases tree with
  | program body | block body => exact targets_all member
  | conditional token condition consequence alternative =>
      cases alternative with
      | none => exact List.Subset.trans (targets_all member) (List.subset_append_right _ _)
      | some alternative =>
          rcases List.mem_append.mp member with inside | inside
          · exact List.Subset.trans (targets_all inside)
              (List.Subset.trans (List.subset_append_right _ _) (List.subset_append_left _ _))
          · exact List.Subset.trans (targets_all inside) (List.subset_append_right _ _)
  | _ => cases member

end Node

end MonkeyLang
