import MonkeyLang.Proofs.Syntax.Reading

namespace MonkeyLang

open Grammar (Tokens kindOf)

namespace Parse

/-! # Readings that accept

A reading accepts its tokens if it gives a result, without going back and without a new error, unless
it is broken off.
-/

def Accepts {α : Type} (broken : Breakoff → Prop) (action : Parse α) (tokens : Tokens)
    (accepted : α → Tokens → Prop) : Prop :=
  ∀ errors, Meets action tokens errors
    (fun result place after => place <:+ tokens ∧ after = errors ∧ accepted result place)
    (fun _ => False) broken

namespace Accepts

variable {α β : Type} {broken : Breakoff → Prop} {action : Parse α} {tokens : Tokens}
  {accepted : α → Tokens → Prop} {last : β → Tokens → Prop}

theorem pure {result : α} (holds : accepted result tokens) :
    Accepts broken (Pure.pure result) tokens accepted :=
  fun _ => .pure ⟨List.suffix_refl tokens, rfl, holds⟩

theorem breakOff {reason : Breakoff} (holds : broken reason) :
    Accepts broken (throw (.broken reason) : Parse α) tokens accepted :=
  fun _ => .breakOff holds

theorem weaken {weaker : α → Tokens → Prop} (accepts : Accepts broken action tokens accepted)
    (result : ∀ result place, accepted result place → weaker result place) :
    Accepts broken action tokens weaker :=
  fun errors => (accepts errors).weaken
    (fun given place _ ended => ⟨ended.1, ended.2.1, result given place ended.2.2⟩) (fun _ => id)
    fun _ => id

theorem bind {next : α → Parse β} (accepts : Accepts broken action tokens accepted)
    (onward : ∀ result place, place <:+ tokens → accepted result place →
      Accepts broken (next result) place last) :
    Accepts broken (action >>= next) tokens last := by
  intro errors
  refine Meets.bind (accepts errors) ?_
  intro result place _ given
  obtain ⟨suffix, rfl, holds⟩ := given
  refine (onward result place suffix holds _).weaken ?_ (fun _ => id) fun _ => id
  exact fun _ _ _ ended => ⟨ended.1.trans suffix, ended.2⟩

variable {next : Token → Parse β}

theorem current {token : Token} {rest : Tokens}
    (onward : Accepts broken (next token) (token :: rest) last) :
    Accepts broken (Parse.current >>= next) (token :: rest) last :=
  fun errors => .current (onward errors)

theorem currentKind
    (onward : ∀ token, token.kind = kindOf tokens → Accepts broken (next token) tokens last) :
    Accepts broken (Parse.current >>= next) tokens last :=
  fun errors => .currentKind fun token same _ => onward token same errors

theorem upcoming
    (onward : ∀ token, token.kind = kindOf tokens.tail → Accepts broken (next token) tokens last) :
    Accepts broken (Parse.upcoming >>= next) tokens last :=
  fun errors => .upcoming fun token same => onward token same errors

theorem remaining {next : Nat → Parse β}
    (onward : ∀ turns, tokens.length ≤ turns → Accepts broken (next turns) tokens last) :
    Accepts broken (Parse.remaining >>= next) tokens last :=
  fun errors => .remaining fun turns enough => onward turns enough errors

theorem advance {next : Unit → Parse β} (onward : Accepts broken (next ()) tokens.tail last) :
    Accepts broken (Parse.advance >>= next) tokens last := by
  intro errors
  refine .advance ((onward errors).weaken ?_ (fun _ => id) fun _ => id)
  exact fun _ _ _ ended => ⟨ended.1.trans (List.tail_suffix tokens), ended.2⟩

theorem expect {wanted : Token.Kind} {next : Unit → Parse β} {token : Token} {rest : Tokens}
    (behind : tokens.tail = token :: rest) (isWanted : token.kind = wanted)
    (onward : Accepts broken (next ()) (token :: rest) last) :
    Accepts broken (Parse.expect wanted >>= next) tokens last := by
  intro errors
  have found : Meets (Parse.expect wanted) tokens errors
      (fun _ place after => after = errors ∧ place = token :: rest) (fun _ => False) broken := by
    refine .upcoming fun upcoming same => ?_
    rw [behind] at same
    dsimp only
    rw [if_pos (same.trans isWanted)]
    exact .advanced ⟨rfl, behind⟩
  refine found.bind ?_
  intro _ _ _ given
  obtain ⟨rfl, rfl⟩ := given
  refine (onward _).weaken ?_ (fun _ => id) fun _ => id
  exact fun _ _ _ ended => ⟨ended.1.trans (behind ▸ List.tail_suffix tokens), ended.2⟩

theorem skipSemicolon {token : Token} {rest : Tokens} (behind : tokens.tail = token :: rest)
    (isSemicolon : token.kind = .semicolon) :
    Accepts broken Parse.skipSemicolon tokens fun _ place => place.tail = rest := by
  refine fun errors => .skipSemicolon (fun next others same _ => ?_) fun other => ?_
  · refine ⟨same ▸ List.tail_suffix tokens, rfl, ?_⟩
    rw [behind] at same
    exact (List.cons.inj same).2.symm
  · rw [behind] at other
    exact absurd isSemicolon other

theorem skipNothing (other : kindOf tokens.tail ≠ .semicolon) :
    Accepts broken Parse.skipSemicolon tokens fun _ place => place = tokens := by
  refine fun errors => .skipSemicolon (fun next others same isSemicolon => ?_) fun _ => ?_
  · rw [same] at other
    exact absurd isSemicolon other
  · exact ⟨List.suffix_refl tokens, rfl, rfl⟩

end Accepts

end Parse

end MonkeyLang
