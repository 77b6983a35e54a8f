import MonkeyLang.Proofs.Syntax.Deepening

namespace MonkeyLang.Parse

open Grammar (Tokens)

/-! # The statements that are asked for

A parser asks for statements at top level and inside blocks.  Which ones is told by the tokens that it
passes: a block begins where a brace opens behind a closing parenthesis or behind `else`, and its
statements follow one another up to a closing brace or the end of the input.
-/

namespace Cursor

/-- A block is about to open. -/
def OpensBlock (cursor : Cursor) : Prop :=
  (cursor.current.kind = .rightParen ∨ cursor.current.kind = .elseKeyword) ∧
    cursor.upcoming.kind = .leftBrace

theorem report_injective {place other : Cursor} {error otherError : SyntaxError}
    (same : place.report error = other.report otherError) : place = other ∧ error = otherError := by
  cases place
  cases other
  simp only [report, Cursor.mk.injEq, Array.push_eq_push] at same ⊢
  obtain ⟨tokens, count, ending, errorSame, errors⟩ := same
  exact ⟨⟨tokens, count, ending, errors⟩, errorSame⟩

end Cursor

/-- A statement that was asked for: the tokens that were left then, and the error with which it was
dropped, if it was. -/
structure Request where
  tokens : Tokens
  error? : Option SyntaxError

/-- What tokens are passed in: parts of a statement, or statements up to one of some closing tokens. -/
inductive Stretch where
  | inside
  | body (closes : Token.Kind → Bool)

/-- No statement is asked for where the statements of a body end. -/
def endsBody (closes : Token.Kind → Bool) (kind : Token.Kind) : Bool :=
  closes kind || kind == .endOfInput

/-- What lies between two cursors: the statements that are asked for on the way from one to the other.
A statement is listed behind those inside its blocks.  Where one is dropped, its error comes last. -/
inductive Traverses : Stretch → Cursor → List Request → Cursor → Prop
  | here (cursor : Cursor) : Traverses .inside cursor [] cursor
  | past {cursor after : Cursor} {requests : List Request} (noBlock : ¬ cursor.OpensBlock)
      (onward : Traverses .inside cursor.advance requests after) :
      Traverses .inside cursor requests after
  | block {cursor mid after : Cursor} {requests others : List Request} (opens : cursor.OpensBlock)
      (body : Traverses (.body (· == .rightBrace)) cursor.advance.advance requests mid)
      (onward : Traverses .inside mid others after) :
      Traverses .inside cursor (requests ++ others) after
  | ended {closes : Token.Kind → Bool} {cursor : Cursor}
      (stops : endsBody closes cursor.current.kind = true) :
      Traverses (.body closes) cursor [] cursor
  | kept {closes : Token.Kind → Bool} {cursor mid after : Cursor} {requests others : List Request}
      {depth : Nat} {node : Node} (goesOn : endsBody closes cursor.current.kind = false)
      (asked : statement (expression depth) cursor = .ok (some node) mid)
      (within : Traverses .inside cursor requests mid)
      (onward : Traverses (.body closes) mid.advance others after) :
      Traverses (.body closes) cursor (requests ++ ⟨cursor.tokens, none⟩ :: others) after
  | dropped {closes : Token.Kind → Bool} {cursor place after : Cursor}
      {requests others : List Request} {depth : Nat} {error : SyntaxError}
      (goesOn : endsBody closes cursor.current.kind = false)
      (asked : statement (expression depth) cursor = .ok none (place.report error))
      (within : Traverses .inside cursor requests place)
      (onward : Traverses (.body closes) (place.report error).advance others after) :
      Traverses (.body closes) cursor (requests ++ ⟨cursor.tokens, some error⟩ :: others) after

/-- The errors of dropped statements. -/
def errorsOf (requests : List Request) : List SyntaxError := requests.filterMap (·.error?)

@[simp] theorem errorsOf_append (requests others : List Request) :
    errorsOf (requests ++ others) = errorsOf requests ++ errorsOf others :=
  List.filterMap_append

@[simp] theorem errorsOf_kept (tokens : Tokens) (others : List Request) :
    errorsOf (⟨tokens, none⟩ :: others) = errorsOf others :=
  rfl

@[simp] theorem errorsOf_dropped (tokens : Tokens) (error : SyntaxError) (others : List Request) :
    errorsOf (⟨tokens, some error⟩ :: others) = error :: errorsOf others :=
  rfl

namespace Traverses

variable {stretch : Stretch} {cursor between after : Cursor} {requests others : List Request}

theorem append (traverses : Traverses .inside cursor requests between)
    (onward : Traverses .inside between others after) :
    Traverses .inside cursor (requests ++ others) after := by
  generalize same : Stretch.inside = stretch at traverses
  induction traverses with
  | here cursor => exact onward
  | past noBlock _ ih => exact .past noBlock (ih onward same)
  | block opens body _ _ ih =>
      rw [List.append_assoc]
      exact .block opens body (ih onward same)
  | ended | kept | dropped => cases same

/-- The errors that are added on the way are those of the dropped statements, in this order. -/
theorem errors (traverses : Traverses stretch cursor requests after) :
    after.errors.toList = cursor.errors.toList ++ errorsOf requests := by
  induction traverses with
  | here | ended => exact (List.append_nil _).symm
  | past _ _ ih => exact ih
  | block _ _ _ bodyErrors ih =>
      rw [ih, bodyErrors, errorsOf_append, List.append_assoc]
      rfl
  | kept _ _ _ _ within ih =>
      rw [ih, errorsOf_append, errorsOf_kept, ← List.append_assoc, ← within]
      rfl
  | @dropped _ _ place _ _ _ _ error _ _ _ _ within ih =>
      rw [ih, errorsOf_append, errorsOf_dropped]
      change (place.errors.push error).toList ++ _ = _
      rw [Array.toList_push, within]
      simp

theorem behind (traverses : Traverses stretch cursor requests after) : cursor.Behind after := by
  induction traverses with
  | here | ended => exact .rfl
  | past _ _ ih => exact (advance_behind _).trans ih
  | block _ _ _ body ih => exact (advance_behind _).trans ((advance_behind _).trans (body.trans ih))
  | kept _ asked _ _ _ ih | dropped _ asked _ _ _ ih =>
      exact (statement_behind asked).trans ((advance_behind _).trans ih)

/-- No statement is asked for where no token is passed. -/
theorem none_of_count (traverses : Traverses .inside cursor requests after)
    (stays : cursor.count ≤ after.count) : requests = [] := by
  generalize same : Stretch.inside = stretch at traverses
  induction traverses with
  | here => rfl
  | past _ _ ih => exact ih (Nat.le_trans (Nat.sub_le _ _) stays) same
  | @block cursor mid after _ _ opens body onward _ _ =>
      have far := Nat.le_trans onward.behind.count body.behind.count
      have nothing : cursor.tokens = [] := by
        refine Cursor.tokens_eq_nil ?_
        simp only [Cursor.advance] at far
        omega
      obtain ⟨follows, isBrace⟩ := opens
      rw [Cursor.current_eq_ending nothing] at follows
      rw [Cursor.upcoming_eq_ending nothing] at isBrace
      simp [isBrace] at follows
  | ended | kept | dropped => cases same

/-- There is one way only to traverse a body, and one way only to get from one cursor to another inside
a statement. -/
theorem unique {last : Cursor} (traverses : Traverses stretch cursor requests after)
    (other : Traverses stretch cursor others last) (ends : stretch = .inside → after = last) :
    requests = others ∧ after = last := by
  induction traverses generalizing others last with
  | here cursor =>
      cases ends rfl
      exact ⟨(other.none_of_count (Nat.le_refl _)).symm, rfl⟩
  | past noBlock onward ih =>
      cases other with
      | here =>
          -- Who ends where he began was at the end of the input.
          cases ends rfl
          exact ⟨none_of_count (.past noBlock onward) (Nat.le_refl _), rfl⟩
      | past _ otherOnward => exact ih otherOnward ends
      | block opens => exact absurd opens noBlock
  | block opens body onward bodyUnique ih =>
      cases other with
      | here =>
          cases ends rfl
          exact ⟨none_of_count (.block opens body onward) (Nat.le_refl _), rfl⟩
      | past noBlock => exact absurd opens noBlock
      | block _ otherBody otherOnward =>
          obtain ⟨rfl, rfl⟩ := bodyUnique otherBody nofun
          obtain ⟨rfl, rfl⟩ := ih otherOnward ends
          exact ⟨rfl, rfl⟩
  | ended stops =>
      cases other with
      | ended => exact ⟨rfl, rfl⟩
      | kept goesOn | dropped goesOn => cases stops.symm.trans goesOn
  | kept goesOn asked within onward withinUnique ih =>
      cases other with
      | ended stops => cases stops.symm.trans goesOn
      | kept _ otherAsked otherWithin otherOnward =>
          obtain ⟨-, rfl⟩ := statement_unique asked otherAsked
          obtain ⟨rfl, -⟩ := withinUnique otherWithin fun _ => rfl
          obtain ⟨rfl, rfl⟩ := ih otherOnward nofun
          exact ⟨rfl, rfl⟩
      | dropped _ otherAsked => cases (statement_unique asked otherAsked).1
  | dropped goesOn asked within onward withinUnique ih =>
      cases other with
      | ended stops => cases stops.symm.trans goesOn
      | kept _ otherAsked => cases (statement_unique asked otherAsked).1
      | dropped _ otherAsked otherWithin otherOnward =>
          obtain ⟨rfl, rfl⟩ := Cursor.report_injective (statement_unique asked otherAsked).2
          obtain ⟨rfl, -⟩ := withinUnique otherWithin fun _ => rfl
          obtain ⟨rfl, rfl⟩ := ih otherOnward nofun
          exact ⟨rfl, rfl⟩

end Traverses

/-- How many of some tokens are no end tokens. -/
def proper (tokens : Tokens) : Nat := tokens.countP (·.kind != .endOfInput)

theorem proper_tail (tokens : Tokens) : proper tokens.tail ≤ proper tokens :=
  (List.tail_sublist tokens).countP_le

theorem proper_advance {cursor : Cursor} (isEnd : cursor.ending.kind = .endOfInput)
    (goesOn : cursor.current.kind ≠ .endOfInput) :
    proper cursor.tokens = proper cursor.advance.tokens + 1 := by
  cases split : cursor.tokens with
  | nil =>
      rw [Cursor.current_eq_ending split] at goesOn
      exact absurd isEnd goesOn
  | cons token rest =>
      have isFirst := Cursor.current_eq_first split
      have behind : cursor.advance.tokens = rest := congrArg List.tail split
      rw [isFirst] at goesOn
      rw [behind]
      exact List.countP_cons_of_pos (bne_iff_ne.mpr goesOn)

theorem endsBody_false {closes : Token.Kind → Bool} {kind : Token.Kind}
    (goesOn : endsBody closes kind = false) : kind ≠ .endOfInput := by
  rintro rfl
  simp [endsBody] at goesOn

/-- The tokens of a stretch that are still to come.  The current one was the first of its statement,
but where statements end it is left to whatever comes behind them. -/
def Stretch.rest : Stretch → Cursor → Tokens
  | .inside, cursor => cursor.advance.tokens
  | .body _, cursor => cursor.tokens

/-- Every statement that is asked for has a token of its own that is no end token: its first one. -/
theorem Traverses.length {stretch : Stretch} {cursor after : Cursor} {requests : List Request}
    (isEnd : cursor.ending.kind = .endOfInput)
    (traverses : Traverses stretch cursor requests after) :
    requests.length + proper (stretch.rest after) ≤ proper (stretch.rest cursor) := by
  induction traverses with
  | here | ended => exact Nat.le_of_eq (Nat.zero_add _)
  | past _ _ ih => exact Nat.le_trans (ih isEnd) (proper_tail _)
  | @block cursor mid after requests others _ body _ bodyLength ih =>
      have bodyLength : requests.length + proper mid.tokens ≤ proper cursor.advance.advance.tokens :=
        bodyLength isEnd
      have onwardLength := ih (body.behind.ending ▸ isEnd)
      have fewer : proper mid.advance.tokens ≤ proper mid.tokens := proper_tail _
      have fewerStill : proper cursor.advance.advance.tokens ≤ proper cursor.advance.tokens :=
        proper_tail _
      rw [List.length_append]
      simp only [Stretch.rest] at onwardLength ⊢
      omega
  | kept goesOn asked within _ withinLength ih | dropped goesOn asked within _ withinLength ih =>
      have first := proper_advance isEnd (endsBody_false goesOn)
      have withinLength := withinLength isEnd
      have onwardLength := ih ((statement_behind asked).ending ▸ isEnd)
      rw [List.length_append, List.length_cons]
      simp only [Stretch.rest, Cursor.report, Cursor.advance] at *
      omega

end MonkeyLang.Parse
