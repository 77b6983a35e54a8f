import MonkeyLang.Proofs.Syntax.Parsing

namespace MonkeyLang

open Grammar (Tokens kindOf)

/-! # The parser reads what the powers demand

Under the powers the grammar leaves no choice.  At a given depth the parser gives a program without
errors exactly for the statements that are readable at that depth; with less depth it breaks off.
-/

namespace Parse

/-- Only a lack of depth breaks off. -/
def Shallow (lacking : Prop) : Breakoff → Prop
  | .tooDeep => lacking
  | .tooManyDigits _ => False

theorem turns_left {place input : Tokens} {opening : Token} {turns : Nat}
    (behind : place.tail = opening :: input) (enough : place.length ≤ turns) :
    ∃ fewer, turns = fewer + 1 := by
  have whole := congrArg List.length behind
  rw [List.length_tail, List.length_cons] at whole
  exact ⟨turns - 1, by omega⟩

section Ranked

variable {lacking : Prop} {depth need : Nat}
  (gives : ∀ {power : Nat} {input rest : Tokens} {node : Node}, power ≤ unaryPower →
    Readable need power input node rest →
    Gives True (Shallow lacking) (expression depth power) input node rest)

include gives

theorem ranked_handles :
    Handles True (Shallow lacking) (expression depth) (Readable need loosest) where
  derived ranked := ranked.expression
  gives ranked _ := gives (by decide) ranked

theorem begins_gives {input rest : Tokens} {node : Node}
    (begins : Grammar.Begins (¬ ·.Oversized) (Readable need) input node rest) :
    Gives True (Shallow lacking) (operand (expression depth)) input node rest := by
  cases begins with
  | unary isOperator applied =>
      refine unary_accepts isOperator (gives (Nat.le_refl _) applied) fun operand place given => ?_
      obtain ⟨same, behind⟩ := given
      exact ⟨fun settles => by rw [same settles], behind⟩
  | primary primary limited noElse =>
      have reads := ranked_handles gives
      exact operand_gives reads primary (fun oversized => absurd oversized limited) noElse

theorem extensions_give {power turns : Nat} {left whole : Node} {input rest place : Tokens}
    (most : power ≤ unaryPower)
    (extended : Grammar.Extends (Readable need) power left input whole rest)
    (behind : place.tail = input) (enough : place.length ≤ turns) :
    Gives True (Shallow lacking) (extensions (expression depth) power turns left) place whole
      rest := by
  have reads := ranked_handles gives
  induction extended generalizing place turns with
  | none stops =>
      subst behind
      refine (extensions_stop stops).weaken fun found last given => ?_
      obtain ⟨rfl, rfl⟩ := given
      exact ⟨fun _ => rfl, rfl⟩
  | call opens listed _ ih =>
      obtain ⟨turns, rfl⟩ := turns_left behind enough
      refine extensions_turn behind (suffix_binds most (.inl opens))
        (call_gives reads opens listed) enough fun longer next shorter given => ?_
      obtain ⟨same, placed⟩ := given
      exact same trivial ▸ ih placed shorter
  | index opens selected closes _ ih =>
      obtain ⟨turns, rfl⟩ := turns_left behind enough
      refine extensions_turn behind (suffix_binds most (.inr opens))
        (index_gives reads opens selected closes) enough fun longer next shorter given => ?_
      obtain ⟨same, placed⟩ := given
      exact same trivial ▸ ih placed shorter
  | @binary operator left right whole input between rest isOperator binds second _ ih =>
      obtain ⟨turns, rfl⟩ := turns_left behind enough
      have loose := Nat.le_of_lt (Grammar.binaryOperator_binds isOperator).2
      have read : Gives True (Shallow lacking) (extension (expression depth) left)
          (operator :: input) (.binary operator operator.literal left right) between := by
        refine binary_accepts isOperator (gives loose second) fun found place given => ?_
        exact ⟨fun settles => by rw [given.1 settles], given.2⟩
      refine extensions_turn behind binds read enough fun longer next shorter given => ?_
      obtain ⟨same, placed⟩ := given
      exact same trivial ▸ ih placed shorter

end Ranked

theorem expression_gives {lacking : Prop} {depth need power : Nat} {input rest : Tokens}
    {node : Node} (most : power ≤ unaryPower) (ranked : Readable need power input node rest)
    (deep : depth < need → lacking) :
    Gives True (Shallow lacking) (expression depth power) input node rest := by
  induction depth generalizing need power input node rest with
  | zero =>
      cases need with
      | zero => exact ranked.elim
      | succ need => exact .breakOff (deep (Nat.succ_pos need))
  | succ depth ih =>
      cases need with
      | zero => exact ranked.elim
      | succ need =>
          obtain ⟨first, between, begins, extended⟩ := ranked
          have inner : ∀ {power : Nat} {input rest : Tokens} {node : Node}, power ≤ unaryPower →
              Readable need power input node rest →
              Gives True (Shallow lacking) (expression depth power) input node rest :=
            fun most ranked => ih most ranked fun lower => deep (Nat.succ_lt_succ lower)
          refine .bind (begins_gives inner begins) fun found place _ given => ?_
          obtain ⟨same, placed⟩ := given
          refine .remaining fun turns enough => ?_
          exact same trivial ▸ extensions_give inner most extended placed enough

end Parse

namespace Parsed

variable {depth need : Nat} {tokens ends : Tokens} {body : List Node}
  (proper : ∀ token ∈ tokens, token.kind ≠ .endOfInput)
  (allEnd : ∀ token ∈ ends, token.kind = .endOfInput)

include proper allEnd

theorem ofTokens_given
    (derived : Grammar.Statements (Parse.Readable need Parse.loosest) tokens body []) :
    (∃ token, ofTokens depth (tokens ++ ends) = .ok ⟨.program ⟨token, body⟩, []⟩) ∨
      depth < need ∧ ofTokens depth (tokens ++ ends) = .error .tooDeep := by
  have reads : Parse.Handles True (Parse.Shallow (depth < need)) (Parse.expression depth)
      (Parse.Readable need Parse.loosest) :=
    ⟨fun ranked => ranked.expression, fun ranked _ => Parse.expression_gives (by decide) ranked id⟩
  have met := Parse.programForm_accepts reads derived #[] _
    (Parse.Cursor.views_beginning proper allEnd) rfl
  unfold ofTokens
  split at met
  · rename_i program after ran
    obtain ⟨place, _, _, clean, token, settled⟩ := met
    rw [ran]
    refine .inl ⟨token, ?_⟩
    simp only [settled trivial, clean, List.toList_toArray]
  · obtain ⟨_, _, impossible⟩ := met
    exact impossible.elim
  · rename_i reason after ran
    rw [ran]
    cases reason with
    | tooDeep => exact .inr ⟨met, rfl⟩
    | tooManyDigits => exact met.elim

end Parsed

end MonkeyLang
