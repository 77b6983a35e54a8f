import MonkeyLang.Proofs.Syntax.Grammar

namespace MonkeyLang

/-! # Reading step by step

A cursor views the tokens from its current one up to the first end token, as long as nothing but end
tokens stands behind that.  What a reading does is told by the tokens that it views before and
after, and by the errors kept.
-/

open Grammar (Tokens kindOf)

namespace Parse

namespace Cursor

/-- Tokens without an end token, which are what a cursor still has before it. -/
structure Views (cursor : Cursor) (tokens : Tokens) : Prop where
  split : ∃ ends, cursor.tokens = tokens ++ ends ∧ ∀ token ∈ ends, token.kind = .endOfInput
  proper : ∀ token ∈ tokens, token.kind ≠ .endOfInput
  ending : cursor.ending.kind = .endOfInput

variable {cursor : Cursor} {token : Token} {tokens : Tokens}

theorem tokens_eq_nil (none : cursor.count = 0) : cursor.tokens = [] := by
  rw [← List.length_eq_zero_iff, cursor.length_tokens]
  exact none

theorem current_eq_ending (none : cursor.tokens = []) : cursor.current = cursor.ending := by
  rw [current, none]
  rfl

theorem upcoming_eq_ending (none : cursor.tokens = []) : cursor.upcoming = cursor.ending := by
  rw [upcoming, none]
  rfl

theorem current_eq_first (split : cursor.tokens = token :: tokens) : cursor.current = token := by
  rw [current, split, List.headD_cons]

theorem headD_kind {ending : Token} {ends : List Token}
    (allEnd : ∀ token ∈ ends, token.kind = .endOfInput) (isEnd : ending.kind = .endOfInput) :
    (ends.headD ending).kind = .endOfInput := by
  cases ends with
  | nil => exact isEnd
  | cons first others => exact allEnd first List.mem_cons_self

theorem Views.current_kind (views : cursor.Views tokens) : cursor.current.kind = kindOf tokens := by
  obtain ⟨⟨ends, split, allEnd⟩, _, isEnd⟩ := views
  unfold current
  rw [split]
  cases tokens with
  | nil => exact headD_kind allEnd isEnd
  | cons first others => rfl

theorem Views.nil_of_kind (views : cursor.Views tokens) (isEnd : kindOf tokens = .endOfInput) :
    tokens = [] := by
  cases tokens with
  | nil => rfl
  | cons token rest => exact absurd isEnd (views.proper token List.mem_cons_self)

theorem Views.current_eq (views : cursor.Views (token :: tokens)) : cursor.current = token := by
  obtain ⟨ends, split, _⟩ := views.split
  simp only [current, split, List.cons_append, List.headD_cons]

theorem Views.advance (views : cursor.Views tokens) : cursor.advance.Views tokens.tail where
  split := by
    obtain ⟨ends, split, allEnd⟩ := views.split
    cases tokens with
    | nil =>
        refine ⟨ends.tail, ?_, fun token member => allEnd token (List.mem_of_mem_tail member)⟩
        simp only [Cursor.advance, split, List.nil_append, List.tail_nil]
    | cons first others =>
        refine ⟨ends, ?_, allEnd⟩
        simp only [Cursor.advance, split, List.cons_append, List.tail_cons]
  proper token member := views.proper token (List.mem_of_mem_tail member)
  ending := views.ending

theorem Views.upcoming_kind (views : cursor.Views tokens) :
    cursor.upcoming.kind = kindOf tokens.tail :=
  views.advance.current_kind

theorem Views.length (views : cursor.Views tokens) : tokens.length ≤ cursor.count := by
  obtain ⟨ends, split, _⟩ := views.split
  rw [← cursor.length_tokens, split, List.length_append]
  exact Nat.le_add_right _ _

theorem Views.report (views : cursor.Views tokens) (error : SyntaxError) :
    (cursor.report error).Views tokens :=
  ⟨views.split, views.proper, views.ending⟩

end Cursor

abbrev Errors := Array SyntaxError

/-- What holds of a reading that starts with the given tokens and errors: where it gives a result,
where it refuses, and where it is broken off. -/
def Meets {α : Type} (action : Parse α) (tokens : Tokens) (errors : Errors)
    (done : α → Tokens → Errors → Prop) (refused : Tokens → Prop) (broken : Breakoff → Prop) : Prop :=
  ∀ cursor : Cursor, cursor.Views tokens → cursor.errors = errors →
    match action cursor with
    | .ok result after => ∃ place, after.Views place ∧ done result place after.errors
    | .error (.refused _) after => ∃ place, after.Views place ∧ refused place
    | .error (.broken reason) _ => broken reason

namespace Meets

variable {α β : Type} {action : Parse α} {tokens : Tokens} {errors : Errors}
  {done : α → Tokens → Errors → Prop} {refused : Tokens → Prop} {broken : Breakoff → Prop}

theorem pure {result : α} (holds : done result tokens errors) :
    Meets (Pure.pure result) tokens errors done refused broken := by
  intro cursor views same
  subst same
  exact ⟨tokens, views, holds⟩

theorem refuse {error : SyntaxError} (holds : refused tokens) :
    Meets (Parse.refuse error : Parse α) tokens errors done refused broken := by
  intro cursor views same
  subst same
  exact ⟨tokens, views, holds⟩

theorem breakOff {reason : Breakoff} (holds : broken reason) :
    Meets (throw (.broken reason) : Parse α) tokens errors done refused broken := by
  intro cursor views same
  subst same
  exact holds

theorem weaken {moreDone : α → Tokens → Errors → Prop} {moreRefused : Tokens → Prop}
    {moreBroken : Breakoff → Prop} (meets : Meets action tokens errors done refused broken)
    (result : ∀ result place after, done result place after → moreDone result place after)
    (refusal : ∀ place, refused place → moreRefused place)
    (breakage : ∀ reason, broken reason → moreBroken reason) :
    Meets action tokens errors moreDone moreRefused moreBroken := by
  intro cursor views same
  have met := meets cursor views same
  split at met
  · obtain ⟨place, viewed, holds⟩ := met
    exact ⟨place, viewed, result _ place _ holds⟩
  · obtain ⟨place, viewed, holds⟩ := met
    exact ⟨place, viewed, refusal place holds⟩
  · exact breakage _ met

theorem bind {next : α → Parse β} {last : β → Tokens → Errors → Prop}
    (meets : Meets action tokens errors done refused broken)
    (onward : ∀ result place after, done result place after →
      Meets (next result) place after last refused broken) :
    Meets (action >>= next) tokens errors last refused broken := by
  intro cursor views same
  have met := meets cursor views same
  change match EStateM.bind action next cursor with
    | .ok result after => ∃ place, after.Views place ∧ last result place after.errors
    | .error (.refused _) after => ∃ place, after.Views place ∧ refused place
    | .error (.broken reason) _ => broken reason
  unfold EStateM.bind
  split at met
  · rename_i result between ran
    obtain ⟨place, viewed, holds⟩ := met
    simp only [ran]
    exact onward result place between.errors holds between viewed rfl
  · rename_i error after ran
    simp only [ran]
    exact met
  · rename_i reason after ran
    simp only [ran]
    exact met

variable {next : Token → Parse β} {last : β → Tokens → Errors → Prop}
  {done' : Unit → Tokens → Errors → Prop}

theorem current {token : Token} {rest : Tokens}
    (onward : Meets (next token) (token :: rest) errors last refused broken) :
    Meets (Parse.current >>= next) (token :: rest) errors last refused broken := by
  intro cursor views same
  have met := onward cursor views same
  rw [← views.current_eq] at met
  exact met

theorem currentKind
    (onward : ∀ token, token.kind = kindOf tokens → (kindOf tokens = .endOfInput → tokens = []) →
      Meets (next token) tokens errors last refused broken) :
    Meets (Parse.current >>= next) tokens errors last refused broken :=
  fun cursor views same =>
    onward cursor.current views.current_kind views.nil_of_kind cursor views same

theorem upcoming
    (onward : ∀ token, token.kind = kindOf tokens.tail →
      Meets (next token) tokens errors last refused broken) :
    Meets (Parse.upcoming >>= next) tokens errors last refused broken :=
  fun cursor views same => onward cursor.upcoming views.upcoming_kind cursor views same

theorem advanced (holds : done' () tokens.tail errors) :
    Meets Parse.advance tokens errors done' refused broken := by
  intro cursor views same
  subst same
  exact ⟨tokens.tail, views.advance, holds⟩

theorem advance {next : Unit → Parse β}
    (onward : Meets (next ()) tokens.tail errors last refused broken) :
    Meets (Parse.advance >>= next) tokens errors last refused broken :=
  fun cursor views same => onward cursor.advance views.advance same

theorem remaining {next : Nat → Parse β}
    (onward : ∀ turns, tokens.length ≤ turns →
      Meets (next turns) tokens errors last refused broken) :
    Meets (Parse.remaining >>= next) tokens errors last refused broken :=
  fun cursor views same => onward cursor.count views.length cursor views same

theorem expect {wanted : Token.Kind} (proper : wanted ≠ .endOfInput)
    (found : ∀ token rest, tokens.tail = token :: rest → token.kind = wanted →
      done' () (token :: rest) errors) (missing : kindOf tokens.tail ≠ wanted → refused tokens) :
    Meets (Parse.expect wanted) tokens errors done' refused broken := by
  refine .upcoming fun token same => ?_
  dsimp only
  split
  · rename_i isWanted
    obtain ⟨token, rest, behind, isWanted⟩ := Grammar.exists_cons (same.symm.trans isWanted) proper
    refine .advanced ?_
    rw [behind]
    exact found token rest behind isWanted
  · rename_i isOther
    exact .refuse (missing (same ▸ isOther))

theorem skipSemicolon
    (skipped : ∀ token rest, tokens.tail = token :: rest → token.kind = .semicolon →
      done' () (token :: rest) errors)
    (stayed : kindOf tokens.tail ≠ .semicolon → done' () tokens errors) :
    Meets Parse.skipSemicolon tokens errors done' refused broken := by
  refine .upcoming fun token same => ?_
  split
  · rename_i isSemicolon
    obtain ⟨token, rest, behind, isSemicolon⟩ :=
      Grammar.exists_cons (same.symm.trans isSemicolon) nofun
    refine .advanced ?_
    rw [behind]
    exact skipped token rest behind isSemicolon
  · rename_i isOther
    exact .pure (stayed (same ▸ isOther))

end Meets

end Parse

end MonkeyLang
