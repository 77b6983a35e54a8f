import MonkeyLang.Proofs.Syntax.Similar

namespace MonkeyLang.Parse

/-! # Readings in agreement

Two inputs begin with similar tokens.  If nothing stands behind these, readings agree about the two
from the first token to the last.  If something does, they agree as long as the first one keeps clear
of what stands behind: it has found no error, and both its current and its next token are among the
similar ones.  Since readings never go back and never take an error away, it is enough to look at the
cursor with which they end.
-/

/-- What stands behind the similar tokens of two inputs. -/
structure Border where
  similar : Token → Token → Prop
  reflexive : Token.Reflexive similar
  spelled : Token.Spelled similar
  behind : List Token
  otherBehind : List Token
  /-- Whether nothing stands behind. -/
  closed : Prop
  nothing : closed → behind = [] ∧ otherBehind = []
  shorter : behind.length ≤ otherBehind.length

variable {α β : Type}

/-- The cursor with which a reading ends. -/
def cursorOf : EStateM.Result Stop Cursor α → Cursor
  | .ok _ cursor | .error _ cursor => cursor

/-- One cursor comes behind another, and has all its errors. -/
structure Cursor.Behind (before after : Cursor) : Prop where
  tokens : after.tokens <:+ before.tokens
  ending : after.ending = before.ending
  errors : after.errors = #[] → before.errors = #[]

theorem Cursor.Behind.rfl {cursor : Cursor} : cursor.Behind cursor :=
  ⟨List.suffix_refl _, .refl _, id⟩

theorem Cursor.Behind.trans {first second third : Cursor} (one : first.Behind second)
    (other : second.Behind third) : first.Behind third :=
  ⟨other.tokens.trans one.tokens, other.ending.trans one.ending, one.errors ∘ other.errors⟩

theorem Cursor.Behind.count {before after : Cursor} (behind : before.Behind after) :
    after.count ≤ before.count := by
  rw [← before.length_tokens, ← after.length_tokens]
  exact behind.tokens.length_le

def Wanes (action : Parse α) : Prop :=
  ∀ cursor : Cursor, cursor.Behind (cursorOf (action cursor))

theorem Wanes.bind {action : Parse α} {next : α → Parse β} (wanes : Wanes action)
    (onward : ∀ result, Wanes (next result)) : Wanes (action >>= next) := by
  intro cursor
  have first := wanes cursor
  change cursor.Behind (cursorOf (EStateM.bind action next cursor))
  unfold EStateM.bind
  generalize action cursor = ending at first
  cases ending with
  | ok result between => exact first.trans (onward result between)
  | error stop after => exact first

namespace Border

variable (border : Border)

/-- Cursors before similar tokens. -/
structure At (tokens others : List Token) (left right : Cursor) : Prop where
  split : left.tokens = tokens ++ border.behind
  otherSplit : right.tokens = others ++ border.otherBehind
  similar : List.Forall₂ border.similar tokens others
  ending : border.similar left.ending right.ending
  errors : left.errors = right.errors

/-- Cursors before at most `reach` similar tokens. -/
def Cursors (reach : Nat) (left right : Cursor) : Prop :=
  ∃ tokens others, border.At tokens others left right ∧ tokens.length ≤ reach

/-- A cursor that does not keep clear of what stands behind. -/
def Stray (cursor : Cursor) : Prop :=
  ¬ border.closed ∧ (cursor.errors ≠ #[] ∨ cursor.count ≤ border.behind.length + 1)

variable {border} {reach : Nat} {left right : Cursor}

theorem Stray.behind {before after : Cursor} (stray : border.Stray before)
    (behind : before.Behind after) : border.Stray after := by
  obtain ⟨isOpen, errors | count⟩ := stray
  · exact ⟨isOpen, .inl fun clean => errors (behind.errors clean)⟩
  · exact ⟨isOpen, .inr (Nat.le_trans behind.count count)⟩

theorem Cursors.widen {wider : Nat} (cursors : border.Cursors reach left right)
    (within : reach ≤ wider) : border.Cursors wider left right := by
  obtain ⟨tokens, others, here, bounded⟩ := cursors
  exact ⟨tokens, others, here, Nat.le_trans bounded within⟩

section At

variable {tokens others : List Token} (here : border.At tokens others left right)

include here

theorem At.cursors : border.Cursors tokens.length left right :=
  ⟨tokens, others, here, Nat.le_refl _⟩

theorem At.count : left.count = tokens.length + border.behind.length := by
  rw [← left.length_tokens, here.split, List.length_append]

theorem At.otherCount : right.count = tokens.length + border.otherBehind.length := by
  rw [← right.length_tokens, here.otherSplit, List.length_append, here.similar.length_eq]

/-- With fewer than two similar tokens left a reading is astray, unless nothing stands behind. -/
theorem At.stray (isOpen : ¬ border.closed) (few : tokens.length ≤ 1) : border.Stray left :=
  ⟨isOpen, .inr (by rw [here.count]; omega)⟩

end At

/-- The next tokens are similar, unless the first reading is astray. -/
theorem Cursors.upcoming (cursors : border.Cursors reach left right) :
    border.similar left.upcoming right.upcoming ∨ border.Stray left := by
  obtain ⟨tokens, others, here, _⟩ := cursors
  have similar := here.similar
  unfold Cursor.upcoming
  rw [here.split, here.otherSplit]
  by_cases closed : border.closed
  · obtain ⟨nothing, otherNothing⟩ := border.nothing closed
    rw [nothing, otherNothing, List.append_nil, List.append_nil]
    cases similar with
    | nil => exact .inl here.ending
    | cons _ rest =>
        cases rest with
        | nil => exact .inl here.ending
        | cons next _ => exact .inl next
  · cases similar with
    | nil => exact .inr (here.stray closed (Nat.zero_le _))
    | cons _ rest =>
        cases rest with
        | nil => exact .inr (here.stray closed (Nat.le_refl _))
        | cons next _ => exact .inl next

theorem Cursors.current (cursors : border.Cursors reach left right) :
    border.similar left.current right.current ∨ border.Stray left := by
  obtain ⟨tokens, others, here, _⟩ := cursors
  have similar := here.similar
  unfold Cursor.current
  rw [here.split, here.otherSplit]
  cases similar with
  | cons first _ => exact .inl first
  | nil =>
      by_cases closed : border.closed
      · obtain ⟨nothing, otherNothing⟩ := border.nothing closed
        rw [nothing, otherNothing]
        exact .inl here.ending
      · exact .inr (here.stray closed (Nat.zero_le _))

theorem At.advance {token other : Token} {tokens others : List Token}
    (here : border.At (token :: tokens) (other :: others) left right) :
    border.At tokens others left.advance right.advance where
  split := by simp only [Cursor.advance, here.split, List.cons_append, List.tail_cons]
  otherSplit := by simp only [Cursor.advance, here.otherSplit, List.cons_append, List.tail_cons]
  similar := (List.forall₂_cons.mp here.similar).2
  ending := here.ending
  errors := here.errors

theorem Cursors.advance (cursors : border.Cursors reach left right) :
    border.Cursors (reach - 1) left.advance right.advance ∨ border.Stray left := by
  obtain ⟨tokens, others, here, bounded⟩ := cursors
  cases here.similar with
  | cons _ _ => exact .inl ⟨_, _, here.advance, Nat.le_sub_of_add_le bounded⟩
  | nil =>
      by_cases closed : border.closed
      · obtain ⟨nothing, otherNothing⟩ := border.nothing closed
        have split := here.split
        have otherSplit := here.otherSplit
        rw [nothing] at split
        rw [otherNothing] at otherSplit
        refine .inl ⟨[], [], ⟨?_, ?_, .nil, here.ending, here.errors⟩, Nat.zero_le _⟩
        · simp only [Cursor.advance, split, nothing, List.append_nil, List.tail_nil]
        · simp only [Cursor.advance, otherSplit, otherNothing, List.append_nil, List.tail_nil]
      · exact .inr (here.stray closed (Nat.zero_le _))

theorem Cursors.report (cursors : border.Cursors reach left right) (error : SyntaxError) :
    border.Cursors reach (left.report error) (right.report error) := by
  obtain ⟨tokens, others, here, bounded⟩ := cursors
  exact ⟨tokens, others, { here with errors := congrArg (·.push error) here.errors }, bounded⟩

theorem Cursors.errors (cursors : border.Cursors reach left right) : left.errors = right.errors := by
  obtain ⟨_, _, here, _⟩ := cursors
  exact here.errors

/-- Behind all similar tokens a reading is astray. -/
theorem Cursors.stray (cursors : border.Cursors 0 left right) (isOpen : ¬ border.closed) :
    border.Stray left := by
  obtain ⟨tokens, others, here, bounded⟩ := cursors
  exact here.stray isOpen (Nat.le_trans bounded (Nat.zero_le _))

end Border

/-- How two readings end in agreement. -/
inductive Ended (border : Border) (reach : Nat) (post : α → β → Prop) :
    EStateM.Result Stop Cursor α → EStateM.Result Stop Cursor β → Prop
  | done {result : α} {other : β} {left right : Cursor} (results : post result other)
      (cursors : border.Cursors reach left right) :
      Ended border reach post (.ok result left) (.ok other right)
  | stopped (stop : Stop) {left right : Cursor} (cursors : border.Cursors reach left right) :
      Ended border reach post (.error stop left) (.error stop right)
  | astray (result : α) {left : Cursor} (ending : EStateM.Result Stop Cursor β)
      (stray : border.Stray left) : Ended border reach post (.ok result left) ending
  | lost (stop : Stop) (left : Cursor) (ending : EStateM.Result Stop Cursor β)
      (isOpen : ¬ border.closed) : Ended border reach post (.error stop left) ending

structure Agree (border : Border) (reach : Nat) (post : α → β → Prop) (left : Parse α)
    (right : Parse β) : Prop where
  wanes : Wanes left
  ends : ∀ first second, border.Cursors reach first second →
    Ended border reach post (left first) (right second)

section Agree

variable {border : Border} {reach : Nat} {γ : Type} {post : α → α → Prop} {last : β → γ → Prop}
  {action other : Parse α}

theorem Ended.widen {wider : Nat} {ending : EStateM.Result Stop Cursor β}
    {otherEnding : EStateM.Result Stop Cursor γ} (ended : Ended border reach last ending otherEnding)
    (within : reach ≤ wider) : Ended border wider last ending otherEnding := by
  cases ended with
  | done results cursors => exact .done results (cursors.widen within)
  | stopped stop cursors => exact .stopped stop (cursors.widen within)
  | astray result _ stray => exact .astray result _ stray
  | lost stop left _ isOpen => exact .lost stop left _ isOpen

/-- What begins astray ends astray, if it gives a result. -/
theorem Ended.of_stray {left : Parse β} (wanes : Wanes left) {cursor : Cursor}
    (stray : border.Stray cursor) (ending : EStateM.Result Stop Cursor γ) :
    Ended border reach last (left cursor) ending := by
  have behind := wanes cursor
  generalize left cursor = result at behind
  cases result with
  | ok result after => exact .astray result ending (stray.behind behind)
  | error stop after => exact .lost stop after ending stray.1

namespace Agree

theorem pure {result : β} {other : γ} (results : last result other) :
    Agree border reach last (Pure.pure result) (Pure.pure other) where
  wanes _ := .rfl
  ends _ _ cursors := .done results cursors

theorem throws (stop : Stop) : Agree border reach last (throw stop) (throw stop) where
  wanes _ := .rfl
  ends _ _ cursors := .stopped stop cursors

theorem refuse (error : SyntaxError) :
    Agree border reach last (Parse.refuse error) (Parse.refuse error) :=
  throws (.refused error)

/-- A result that is not worth comparing is compared with itself, for what comes behind it. -/
theorem bind {next : α → Parse β} {otherNext : α → Parse γ} (agree : Agree border reach post action other)
    (reflexive : ∀ result, post result result)
    (onward : ∀ result other, post result other →
      Agree border reach last (next result) (otherNext other)) :
    Agree border reach last (action >>= next) (other >>= otherNext) where
  wanes := agree.wanes.bind fun result => (onward result result (reflexive result)).wanes
  ends := by
    intro first second cursors
    have ended := agree.ends first second cursors
    change Ended border reach last (EStateM.bind action next first)
      (EStateM.bind other otherNext second)
    unfold EStateM.bind
    generalize action first = ending, other second = otherEnding at ended
    cases ended with
    | done results cursors => exact (onward _ _ results).ends _ _ cursors
    | stopped stop cursors => exact .stopped stop cursors
    | astray result _ stray =>
        exact .of_stray (onward result result (reflexive result)).wanes stray _
    | lost stop left _ isOpen => exact .lost stop left _ isOpen

theorem current : Agree border reach border.similar Parse.current Parse.current where
  wanes _ := .rfl
  ends _ _ cursors := cursors.current.elim (.done · cursors) (.astray _ _)

theorem upcoming : Agree border reach border.similar Parse.upcoming Parse.upcoming where
  wanes _ := .rfl
  ends _ _ cursors := cursors.upcoming.elim (.done · cursors) (.astray _ _)

theorem advances : Wanes Parse.advance := fun _ => ⟨List.tail_suffix _, rfl, id⟩

theorem advanced : Agree border reach (fun _ _ => True) Parse.advance Parse.advance where
  wanes := advances
  ends first _ cursors := by
    rcases cursors.advance with cursors | stray
    · exact .done trivial (cursors.widen (Nat.sub_le _ _))
    · exact .of_stray advances stray _

/-- Behind the current token there is one similar token less. -/
theorem advance {next : Unit → Parse β} {otherNext : Unit → Parse γ}
    (onward : Agree border (reach - 1) last (next ()) (otherNext ())) :
    Agree border reach last (Parse.advance >>= next) (Parse.advance >>= otherNext) where
  wanes := advances.bind fun _ => onward.wanes
  ends first second cursors := by
    rcases cursors.advance with cursors | stray
    · exact (onward.ends _ _ cursors).widen (Nat.sub_le _ _)
    · exact .of_stray (advances.bind fun _ => onward.wanes) stray _

section Tokens

variable {next : Token → Parse β} {otherNext : Token → Parse γ}

theorem onCurrent (onward : ∀ token other, border.similar token other →
    Agree border reach last (next token) (otherNext other)) :
    Agree border reach last (Parse.current >>= next) (Parse.current >>= otherNext) :=
  current.bind border.reflexive onward

theorem onUpcoming (onward : ∀ token other, border.similar token other →
    Agree border reach last (next token) (otherNext other)) :
    Agree border reach last (Parse.upcoming >>= next) (Parse.upcoming >>= otherNext) :=
  upcoming.bind border.reflexive onward

end Tokens

theorem expect (wanted : Token.Kind) :
    Agree border reach (fun _ _ => True) (Parse.expect wanted) (Parse.expect wanted) := by
  refine onUpcoming fun token other similar => ?_
  dsimp only
  rw [(border.spelled similar).kind]
  split
  · exact advanced
  · exact refuse _

theorem skipSemicolon :
    Agree border reach (fun _ _ => True) Parse.skipSemicolon Parse.skipSemicolon := by
  refine onUpcoming fun token other similar => ?_
  rw [(border.spelled similar).kind]
  split
  · exact advanced
  · exact pure trivial

/-- What follows a reading that gives nothing but its cursor. -/
theorem andThen {first second : Parse Unit} {next : Unit → Parse β} {otherNext : Unit → Parse γ}
    (agree : Agree border reach (fun _ _ => True) first second)
    (onward : Agree border reach last (next ()) (otherNext ())) :
    Agree border reach last (first >>= next) (second >>= otherNext) :=
  agree.bind (fun _ => trivial) fun _ _ _ => onward

end Agree

/-- How often two loops may turn before at most `reach` similar tokens. -/
structure Turns (border : Border) (reach turns otherTurns : Nat) : Prop where
  fewer : turns ≤ otherTurns
  enough : turns = otherTurns ∨ ¬ border.closed ∧ reach ≤ turns

theorem Turns.same (turns : Nat) : Turns border reach turns turns := ⟨Nat.le_refl _, .inl rfl⟩

theorem Turns.next {turns otherTurns : Nat} (allowed : Turns border reach (turns + 1) (otherTurns + 1)) :
    Turns border (reach - 1) turns otherTurns where
  fewer := Nat.le_of_succ_le_succ allowed.fewer
  enough := allowed.enough.imp Nat.succ.inj fun both => ⟨both.1, Nat.sub_le_of_le_add both.2⟩

namespace Agree

theorem remaining {next : Nat → Parse β} {otherNext : Nat → Parse γ}
    (onward : ∀ reach turns otherTurns, Turns border reach turns otherTurns →
      Agree border reach last (next turns) (otherNext otherTurns)) :
    Agree border reach last (Parse.remaining >>= next) (Parse.remaining >>= otherNext) where
  wanes cursor := (onward 0 cursor.count _ (.same _)).wanes cursor
  ends first second cursors := by
    obtain ⟨tokens, others, here, bounded⟩ := cursors
    have count := here.count
    have otherCount := here.otherCount
    have shorter := border.shorter
    have allowed : Turns border tokens.length first.count second.count := by
      refine ⟨by omega, ?_⟩
      by_cases closed : border.closed
      · obtain ⟨nothing, otherNothing⟩ := border.nothing closed
        rw [nothing] at count
        rw [otherNothing] at otherCount
        exact .inl (count.trans otherCount.symm)
      · exact .inr ⟨closed, by omega⟩
    exact ((onward _ _ _ allowed).ends first second here.cursors).widen bounded

/-- Two loops agree if one turn of both does.  One whose turns are used up before those of the other
one is astray. -/
theorem loop {State : Type} {loop : Nat → State → Parse State} {similar : State → State → Prop}
    (stops : ∀ state, loop 0 state = Pure.pure state)
    (turn : ∀ reach turns otherTurns,
      (∀ state other, similar state other →
        Agree border (reach - 1) similar (loop turns state) (loop otherTurns other)) →
      ∀ state other, similar state other →
        Agree border reach similar (loop (turns + 1) state) (loop (otherTurns + 1) other))
    {turns otherTurns : Nat} (allowed : Turns border reach turns otherTurns) {state other : State}
    (states : similar state other) :
    Agree border reach similar (loop turns state) (loop otherTurns other) := by
  induction turns generalizing reach otherTurns state other with
  | zero =>
      rw [stops]
      cases otherTurns with
      | zero =>
          rw [stops]
          exact pure states
      | succ =>
          obtain ⟨isOpen, none⟩ := allowed.enough.resolve_left nofun
          exact ⟨fun _ => .rfl, fun first second cursors =>
            .astray state _ ((cursors.widen none).stray isOpen)⟩
  | succ turns ih =>
      cases otherTurns with
      | zero => exact absurd allowed.fewer (Nat.not_succ_le_zero _)
      | succ otherTurns =>
          exact turn reach turns otherTurns (fun _ _ => ih allowed.next) state other states

end Agree

end Agree

end MonkeyLang.Parse
