import MonkeyLang.Proofs.Syntax.Reading

namespace MonkeyLang

open Grammar (Tokens kindOf)

namespace Parse

/-! # Readings that derive

A reading derives a form if it never goes back, never takes an error away, and has found the form
where it gives a result without a new error.  Forms end on their last token, so that `place.tail` is
what stands behind a form that was read up to `place`.
-/

def Derives {α : Type} (broken : Breakoff → Prop) (action : Parse α) (tokens : Tokens)
    (derived : α → Tokens → Prop) : Prop :=
  ∀ errors, Meets action tokens errors
    (fun result place after =>
      place <:+ tokens ∧ (after = #[] → errors = #[] ∧ derived result place))
    (· <:+ tokens) broken

namespace Derives

variable {α β : Type} {broken : Breakoff → Prop} {action : Parse α} {tokens : Tokens}
  {derived : α → Tokens → Prop}

theorem pure {result : α} (holds : derived result tokens) :
    Derives broken (Pure.pure result) tokens derived :=
  fun _ => .pure ⟨List.suffix_refl tokens, fun clean => ⟨clean, holds⟩⟩

theorem refuse {error : SyntaxError} : Derives broken (Parse.refuse error : Parse α) tokens derived :=
  fun _ => .refuse (List.suffix_refl tokens)

theorem breakOff {reason : Breakoff} (holds : broken reason) :
    Derives broken (throw (.broken reason) : Parse α) tokens derived :=
  fun _ => .breakOff holds

theorem weaken {weaker : α → Tokens → Prop} {wider : Breakoff → Prop}
    (derives : Derives broken action tokens derived)
    (breakage : ∀ reason, broken reason → wider reason)
    (result : ∀ result place, derived result place → weaker result place) :
    Derives wider action tokens weaker :=
  fun errors => (derives errors).weaken
    (fun given place _ ended => ⟨ended.1, fun clean =>
      ⟨(ended.2 clean).1, result given place (ended.2 clean).2⟩⟩)
    (fun _ => id) breakage

/-- What the first reading derived is at hand when the second one has ended. -/
theorem bind {next : α → Parse β} {last : β → Tokens → Prop}
    (derives : Derives broken action tokens derived)
    (onward : ∀ result place, place <:+ tokens →
      Derives broken (next result) place fun final behind =>
        derived result place → last final behind) :
    Derives broken (action >>= next) tokens last := by
  intro errors
  refine Meets.bind (derives errors) fun result place between reached => ?_
  obtain ⟨suffix, clean⟩ := reached
  refine (onward result place suffix between).weaken ?_ ?_ fun _ => id
  · intro final behind after ended
    refine ⟨ended.1.trans suffix, fun afterClean => ?_⟩
    obtain ⟨betweenClean, ends⟩ := ended.2 afterClean
    obtain ⟨startClean, holds⟩ := clean betweenClean
    exact ⟨startClean, ends holds⟩
  · exact fun behind refused => refused.trans suffix

variable {next : Token → Parse β} {last : β → Tokens → Prop}

theorem current {token : Token} {rest : Tokens}
    (onward : Derives broken (next token) (token :: rest) last) :
    Derives broken (Parse.current >>= next) (token :: rest) last :=
  fun errors => .current (onward errors)

theorem currentKind
    (onward : ∀ token, token.kind = kindOf tokens → (kindOf tokens = .endOfInput → tokens = []) →
      Derives broken (next token) tokens last) :
    Derives broken (Parse.current >>= next) tokens last :=
  fun errors => .currentKind fun token same ending => onward token same ending errors

theorem upcoming
    (onward : ∀ token, token.kind = kindOf tokens.tail → Derives broken (next token) tokens last) :
    Derives broken (Parse.upcoming >>= next) tokens last :=
  fun errors => .upcoming fun token same => onward token same errors

theorem remaining {next : Nat → Parse β}
    (onward : ∀ turns, tokens.length ≤ turns → Derives broken (next turns) tokens last) :
    Derives broken (Parse.remaining >>= next) tokens last :=
  fun errors => .remaining fun turns enough => onward turns enough errors

theorem advance {next : Unit → Parse β} (onward : Derives broken (next ()) tokens.tail last) :
    Derives broken (Parse.advance >>= next) tokens last := by
  intro errors
  refine .advance ((onward errors).weaken ?_ ?_ fun _ => id)
  · exact fun _ _ _ ended => ⟨ended.1.trans (List.tail_suffix tokens), ended.2⟩
  · exact fun _ refused => refused.trans (List.tail_suffix tokens)

theorem expect {wanted : Token.Kind} {next : Unit → Parse β} (proper : wanted ≠ .endOfInput)
    (onward : ∀ token rest, tokens.tail = token :: rest → token.kind = wanted →
      Derives broken (next ()) (token :: rest) last) :
    Derives broken (Parse.expect wanted >>= next) tokens last := by
  intro errors
  have expected : Meets (Parse.expect wanted) tokens errors
      (fun _ place after => after = errors ∧
        ∃ token rest, tokens.tail = token :: rest ∧ token.kind = wanted ∧ place = token :: rest)
      (· <:+ tokens) broken :=
    .expect proper (fun token rest behind isWanted => ⟨rfl, token, rest, behind, isWanted, rfl⟩)
      fun _ => List.suffix_refl tokens
  refine expected.bind ?_
  intro _ _ _ given
  obtain ⟨rfl, token, rest, behind, isWanted, rfl⟩ := given
  have suffix : token :: rest <:+ tokens := behind ▸ List.tail_suffix tokens
  refine (onward token rest behind isWanted _).weaken ?_ ?_ fun _ => id
  · exact fun _ _ _ ended => ⟨ended.1.trans suffix, ended.2⟩
  · exact fun _ refused => refused.trans suffix

theorem skipSemicolon : Derives broken Parse.skipSemicolon tokens fun _ place =>
    (∃ token rest, tokens.tail = token :: rest ∧ token.kind = .semicolon ∧ place = token :: rest) ∨
      place = tokens := by
  intro errors
  refine .skipSemicolon (fun token rest behind isSemicolon => ?_) fun _ => ?_
  · exact ⟨behind ▸ List.tail_suffix tokens,
      fun clean => ⟨clean, .inl ⟨token, rest, behind, isSemicolon, rfl⟩⟩⟩
  · exact ⟨List.suffix_refl tokens, fun clean => ⟨clean, .inr rfl⟩⟩

end Derives

end Parse

end MonkeyLang
