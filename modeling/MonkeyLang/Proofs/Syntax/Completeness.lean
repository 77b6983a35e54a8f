import MonkeyLang.Proofs.Syntax.Forms

namespace MonkeyLang

open Grammar (Tokens kindOf Expression Operand)

/-! # What the grammar derives is accepted by the parser -/

namespace Grammar

variable {input rest : Tokens} {node : Node}

/-- Operands joined by binary operators of greater power than the given one. -/
inductive Chain (power : Nat) : Tokens → Tokens → Prop
  | operand {input rest : Tokens} {node : Node} (operand : Operand Expression input node rest) :
      Chain power input rest
  | more {operator : Token} {input between rest : Tokens} {node : Node}
      (operand : Operand Expression input node (operator :: between))
      (isOperator : operator.kind ∈ binaryOperators)
      (binds : power < Parse.bindingPower operator.kind) (others : Chain power between rest) :
      Chain power input rest

theorem Chain.append {power : Nat} {between : Tokens} {operator : Token}
    (first : Chain power input (operator :: between)) (isOperator : operator.kind ∈ binaryOperators)
    (binds : power < Parse.bindingPower operator.kind) (second : Chain power between rest) :
    Chain power input rest := by
  generalize behind : operator :: between = place at first
  induction first with
  | operand operand =>
      subst behind
      exact .more operand isOperator binds second
  | more operand isOperator' binds' others ih => exact .more operand isOperator' binds' (ih behind)

theorem Joined.chain (joined : Joined Expression input node rest) :
    Chain Parse.loosest input rest := by
  induction joined with
  | operand operand => exact .operand operand
  | binary first isOperator second ihFirst ihSecond =>
      exact ihFirst.append isOperator (binaryOperator_binds isOperator).1 ihSecond

theorem Expression.chain (expression : Expression input node rest) :
    Chain Parse.loosest input rest := by
  cases expression with
  | joined joined => exact joined.chain

/-- What stands behind the first operands of a chain: nothing of it, or an operator and the rest of
the chain. -/
def Chain.Goes (power : Nat) (place rest : Tokens) : Prop :=
  place = rest ∨ ∃ operator between, place = operator :: between ∧
    operator.kind ∈ binaryOperators ∧ power < Parse.bindingPower operator.kind ∧
    Chain power between rest

/-- A chain begins with a tighter one, and goes on with an operator that is not so tight. -/
theorem Chain.split {loose : Nat} (chain : Chain loose input rest) (power : Nat) :
    ∃ place, Chain power input place ∧ Chain.Goes loose place rest ∧
      (place = rest ∨ Parse.bindingPower (kindOf place) ≤ power) := by
  induction chain with
  | operand operand => exact ⟨_, .operand operand, .inl rfl, .inl rfl⟩
  | @more operator input between rest node operand isOperator binds others ih =>
      by_cases tight : power < Parse.bindingPower operator.kind
      · obtain ⟨place, chain, goes, stops⟩ := ih
        exact ⟨place, .more operand isOperator tight chain, goes, stops⟩
      · exact ⟨operator :: between, .operand operand,
          .inr ⟨operator, between, rfl, isOperator, binds, others⟩, .inr (Nat.not_lt.mp tight)⟩

end Grammar

namespace Parse

/-- Behind an operand, suffixes and then the rest of a chain. -/
def Onward (power : Nat) (place rest : Tokens) : Prop :=
  ∃ left whole between, Grammar.Suffixes Expression left place.tail whole between ∧
    Grammar.Chain.Goes power between rest

theorem suffixes_noElse {left whole : Node} {input rest : Tokens}
    (suffixes : Grammar.Suffixes Expression left input whole rest)
    (noElse : kindOf rest ≠ .elseKeyword) : kindOf input ≠ .elseKeyword := by
  cases suffixes with
  | none => exact noElse
  | call opens => exact fun same => nomatch opens.symm.trans same
  | index opens => exact fun same => nomatch opens.symm.trans same

theorem goes_stops {power : Nat} {place rest : Tokens} (most : power ≤ unaryPower)
    (goes : Grammar.Chain.Goes power place rest) (stops : Stops power rest) :
    Stops unaryPower place := by
  rcases goes with rfl | ⟨operator, between, rfl, isOperator, _⟩
  · exact ⟨Nat.le_trans stops.binds most, stops.noElse⟩
  · refine ⟨Nat.le_of_lt (Grammar.binaryOperator_binds isOperator).2, fun isElse => ?_⟩
    rw [show operator.kind = .elseKeyword from isElse] at isOperator
    exact absurd isOperator (by decide)

/-- Whatever the grouping, an expression is read up to its end, unless it is broken off. -/
abbrev Finishes (action : Parse Node) (tokens rest : Tokens) : Prop :=
  Accepts (fun _ => True) action tokens fun _ place => place.tail = rest

section Chains

variable {expression : Nat → Parse Node}
  (chains : ∀ power input rest, loosest ≤ power → power ≤ unaryPower →
    Grammar.Chain power input rest → Stops power rest → Finishes (expression power) input rest)

include chains

theorem chains_reads : Handles False (fun _ => True) expression Expression where
  derived := id
  gives derived stops :=
    (chains loosest _ _ (Nat.le_refl _) (by decide) derived.chain stops).weaken
      fun _ _ same => ⟨False.elim, same⟩

/-- A binary operator with what it takes in to its right. -/
theorem binary_finishes {power : Nat} {operator : Token} {between rest : Tokens} {left : Node}
    (most : power ≤ unaryPower) (isOperator : operator.kind ∈ Grammar.binaryOperators)
    (binds : power < bindingPower operator.kind) (others : Grammar.Chain power between rest)
    (stops : Stops power rest) :
    Accepts (fun _ => True) (extension expression left) (operator :: between) fun _ place =>
      Grammar.Chain.Goes power place.tail rest := by
  obtain ⟨least, most'⟩ := Grammar.binaryOperator_binds isOperator
  obtain ⟨middle, chain, goes, bounded⟩ := others.split (bindingPower operator.kind)
  have middleStops : Stops (bindingPower operator.kind) middle := by
    refine ⟨?_, (goes_stops most goes stops).noElse⟩
    rcases bounded with rfl | bounded
    · exact Nat.le_trans stops.binds (Nat.le_of_lt binds)
    · exact bounded
  have read := chains _ _ _ (Nat.le_of_lt least) (Nat.le_of_lt most') chain middleStops
  exact binary_accepts isOperator read fun right place same => same ▸ goes

theorem extensions_finish {power turns : Nat} {place rest : Tokens} {left : Node}
    (most : power ≤ unaryPower) (enough : place.length ≤ turns) (onward : Onward power place rest)
    (stops : Stops power rest) : Finishes (extensions expression power turns left) place rest := by
  have reads := chains_reads chains
  induction turns generalizing place left with
  | zero =>
      have empty := List.length_eq_zero_iff.mp (Nat.le_zero.mp enough)
      subst empty
      obtain ⟨before, whole, between, suffixes, goes⟩ := onward
      cases suffixes with
      | none =>
          rcases goes with same | ⟨operator, between, impossible, _⟩
          · exact .pure same
          · cases impossible
  | succ turns ih =>
      obtain ⟨before, whole, between, suffixes, goes⟩ := onward
      generalize behind : place.tail = input at suffixes
      cases suffixes with
      | none =>
          rcases goes with rfl | ⟨operator, between, rfl, isOperator, binds, others⟩
          · have stopped : bindingPower (kindOf place.tail) ≤ power := behind ▸ stops.binds
            refine (extensions_stop stopped).weaken fun found last given => ?_
            obtain ⟨_, rfl⟩ := given
            exact behind
          · refine extensions_turn behind binds
              (binary_finishes chains most isOperator binds others stops) enough ?_
            exact fun longer next shorter goes => ih shorter ⟨before, before, _, .none _ _, goes⟩
      | call opens listed others =>
          refine extensions_turn behind (suffix_binds most (.inl opens))
            (call_gives reads opens listed) enough ?_
          intro longer next shorter given
          obtain ⟨_, rfl⟩ := given
          exact ih shorter ⟨_, _, _, others, goes⟩
      | index opens selected closes others =>
          refine extensions_turn behind (suffix_binds most (.inr opens))
            (index_gives reads opens selected closes) enough ?_
          intro longer next shorter given
          obtain ⟨_, rfl⟩ := given
          exact ih shorter ⟨_, _, _, others, goes⟩

theorem beginning_finishes {input rest : Tokens} {node : Node}
    (derived : Operand Expression input node rest) (stops : Stops unaryPower rest) :
    Accepts (fun _ => True) (operand expression) input fun _ place =>
      ∃ left whole, Grammar.Suffixes Expression left place.tail whole rest := by
  cases derived with
  | @unary operator input rest operand isOperator applied =>
      have read := chains unaryPower input rest (by decide) (Nat.le_refl _) (.operand applied) stops
      exact unary_accepts isOperator read fun operand place same =>
        ⟨operand, operand, same ▸ .none _ _⟩
  | @suffixed input between rest first whole primary suffixes =>
      have noElse := suffixes_noElse suffixes stops.noElse
      cases input with
      | nil => exact absurd primary.begins (by decide)
      | cons token input =>
          have read := operand_gives (chains_reads chains) primary (fun _ => trivial)
            fun _ _ _ _ => noElse
          refine read.weaken fun found place given => ?_
          obtain ⟨_, rfl⟩ := given
          exact ⟨_, _, suffixes⟩

end Chains

theorem expression_finishes (depth power : Nat) (input rest : Tokens) (least : loosest ≤ power)
    (most : power ≤ unaryPower) (chain : Grammar.Chain power input rest) (stops : Stops power rest) :
    Finishes (expression depth power) input rest := by
  induction depth generalizing power input rest with
  | zero => exact .breakOff trivial
  | succ depth ih =>
      have begins : ∃ node between, Operand Expression input node between ∧
          Grammar.Chain.Goes power between rest := by
        cases chain with
        | operand operand => exact ⟨_, _, operand, .inl rfl⟩
        | more operand isOperator binds others =>
            exact ⟨_, _, operand, .inr ⟨_, _, rfl, isOperator, binds, others⟩⟩
      obtain ⟨node, between, operand, goes⟩ := begins
      refine .bind (beginning_finishes ih operand (goes_stops most goes stops)) ?_
      intro first place _ given
      obtain ⟨left, whole, suffixes⟩ := given
      refine .remaining fun turns enough => ?_
      exact extensions_finish ih most enough ⟨left, whole, between, suffixes, goes⟩ stops

end Parse

end MonkeyLang
