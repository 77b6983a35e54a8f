import MonkeyLang.Proofs.Syntax.Dropping
import MonkeyLang.Proofs.Syntax.Unbounded

namespace MonkeyLang

/-! # Readings run as their code does

A reading of some tokens with an end token behind them ends as the code of its form does on any stream
that feeds it similar tokens.  Only the places of end tokens may differ freely: no form keeps them.  So
the turns that a reading is given are enough for each of its loops to end by itself.
-/

/-- Tokens of one kind, and similar ones if they are no end tokens. -/
structure Token.Alike (similar : Token → Token → Prop) (token other : Token) : Prop where
  kind : token.kind = other.kind
  proper : token.kind ≠ .endOfInput → similar token other

namespace Parse

/-- A stream of tokens like some given ones, with an end token behind them for ever. -/
structure Feed where
  similar : Token → Token → Prop
  spelled : Token.Spelled similar
  tokens : List Token
  ending : Token
  isEnd : ending.kind = .endOfInput
  stream : Nat → Token
  alike : ∀ place, Token.Alike similar (tokens.getD place ending) (stream place)

/-- Places of a stream, each behind the one before it, all within bounds and none at an end token. -/
structure Rising (stream : Nat → Token) (low high : Nat) (starts : List Nat) : Prop where
  increasing : starts.Pairwise (· < ·)
  within : ∀ start ∈ starts, low ≤ start ∧ start ≤ high
  proper : ∀ start ∈ starts, (stream start).kind ≠ .endOfInput

namespace Rising

variable {stream : Nat → Token} {low mid high : Nat} {starts others : List Nat}

theorem nil : Rising stream low high [] := ⟨.nil, nofun, nofun⟩

theorem append (rising : Rising stream low mid starts) (further : Rising stream (mid + 1) high others)
    (below : low ≤ mid + 1) (upTo : mid ≤ high) : Rising stream low high (starts ++ others) where
  increasing := by
    refine List.pairwise_append.mpr ⟨rising.increasing, further.increasing, ?_⟩
    intro start member other otherMember
    have before := (rising.within start member).2
    have behind := (further.within other otherMember).1
    omega
  within start member := by
    rcases List.mem_append.mp member with member | member
    · have bounds := rising.within start member
      omega
    · have bounds := further.within start member
      omega
  proper start member :=
    (List.mem_append.mp member).elim (rising.proper start) (further.proper start)

theorem cons {start : Nat} (proper : (stream start).kind ≠ .endOfInput)
    (rising : Rising stream (start + 1) high starts) (below : low ≤ start) (upTo : start ≤ high) :
    Rising stream low high (start :: starts) where
  increasing := List.pairwise_cons.mpr ⟨fun other member => (rising.within other member).1,
    rising.increasing⟩
  within other member := by
    rcases List.mem_cons.mp member with rfl | member
    · exact ⟨below, upTo⟩
    · have bounds := rising.within other member
      omega
  proper other member := by
    rcases List.mem_cons.mp member with rfl | member
    · exact proper
    · exact rising.proper other member

end Rising

namespace Feed

variable (feed : Feed)

/-- A cursor and a spot at one place, where statements may still be asked for from a place on. -/
structure At (low : Nat) (cursor : Cursor) (spot : Spot) : Prop where
  tokens : cursor.tokens = feed.tokens.drop spot.place
  ending : cursor.ending = feed.ending
  errors : cursor.errors = spot.errors
  below : low ≤ spot.place + 1

variable {feed} {low : Nat} {cursor : Cursor} {spot : Spot}

namespace At

theorem count (here : feed.At low cursor spot) : cursor.count = feed.tokens.length - spot.place := by
  rw [← cursor.length_tokens, here.tokens, List.length_drop]

theorem current (here : feed.At low cursor spot) :
    cursor.current.Alike feed.similar (feed.stream spot.place) := by
  have same : cursor.current = feed.tokens.getD spot.place feed.ending := by
    simp [Cursor.current, here.tokens, here.ending, List.headD_eq_head?_getD]
  exact same ▸ feed.alike spot.place

theorem upcoming (here : feed.At low cursor spot) :
    cursor.upcoming.Alike feed.similar (feed.stream (spot.place + 1)) := by
  have same : cursor.upcoming = feed.tokens.getD (spot.place + 1) feed.ending := by
    simp [Cursor.upcoming, here.tokens, here.ending, List.headD_eq_head?_getD]
  exact same ▸ feed.alike (spot.place + 1)

theorem advance (here : feed.At low cursor spot) : feed.At low cursor.advance spot.advance where
  tokens := by simp [Cursor.advance, Spot.advance, here.tokens]
  ending := here.ending
  errors := here.errors
  below := Nat.le_succ_of_le here.below

theorem report (here : feed.At low cursor spot) (error : SyntaxError) :
    feed.At low (cursor.report error) (spot.report error) where
  tokens := here.tokens
  ending := here.ending
  errors := congrArg (·.push error) here.errors
  below := here.below

theorem from_ (here : feed.At low cursor spot) {other : Nat} (below : other ≤ spot.place + 1) :
    feed.At other cursor spot :=
  { here with below }

/-- What is no end token is one of the tokens. -/
theorem current_count (here : feed.At low cursor spot) (proper : cursor.current.kind ≠ .endOfInput) :
    0 < cursor.count := by
  refine Nat.pos_of_ne_zero fun none => proper ?_
  have isEnd : cursor.current = cursor.ending := by
    rw [← cursor.length_tokens, List.length_eq_zero_iff] at none
    rw [Cursor.current, none]
    rfl
  rw [isEnd, here.ending]
  exact feed.isEnd

theorem current_over (here : feed.At low cursor spot) (spent : cursor.count = 0) :
    cursor.current.kind = .endOfInput :=
  by_contra fun proper => Nat.ne_of_gt (here.current_count proper) spent

theorem upcoming_count (here : feed.At low cursor spot)
    (proper : cursor.upcoming.kind ≠ .endOfInput) : 0 < cursor.count - 1 :=
  here.advance.current_count proper

/-- Behind the last token nothing comes but end tokens. -/
theorem upcoming_over (here : feed.At low cursor spot) (spent : cursor.count = 0) :
    (feed.stream (spot.place + 1)).kind = .endOfInput := by
  rw [← here.upcoming.kind]
  exact here.advance.current_over (congrArg (· - 1) spent)

/-- Whoever passes a token has fewer left. -/
theorem shorter {between : Cursor} {mid : Spot} {other turns : Nat} (here : feed.At low cursor spot)
    (there : feed.At other between mid) (enough : cursor.count ≤ turns + 1)
    (passed : spot.place < mid.place) : between.count ≤ turns := by
  have count := here.count
  have left := there.count
  omega

end At

end Feed

/-- Similar trees, as a loop has found them. -/
abbrev Feed.Found (feed : Feed) (found others : Array Node) : Prop :=
  List.Forall₂ (Node.Similar feed.similar) found.toList others.toList

/-- Pairs of similar trees, as a loop has found them. -/
abbrev Feed.FoundPairs (feed : Feed) (found others : Array (Node × Node)) : Prop :=
  List.Forall₂ (Prod.RProd (Node.Similar feed.similar) (Node.Similar feed.similar)) found.toList
    others.toList

/-- Names with similar tokens, as a loop has found them. -/
abbrev Feed.FoundNames (feed : Feed) (found others : Array Identifier) : Prop :=
  List.Forall₂ (Identifier.Similar feed.similar) found.toList others.toList

def spotOf {α : Type} : EStateM.Result Stop Spot α → Spot
  | .ok _ spot | .error _ spot => spot

/-- Endings with related results, or for one reason, at one place. -/
inductive Feed.Matched (feed : Feed) {α : Type} (post : α → α → Prop) :
    EStateM.Result Stop Cursor α → EStateM.Result Stop Spot α → Prop
  | done {result other : α} {cursor : Cursor} {spot : Spot} (results : post result other)
      (here : feed.At (spot.place + 1) cursor spot) : Matched feed post (.ok result cursor) (.ok other spot)
  | stopped {cursor : Cursor} {spot : Spot} (reason : Stop)
      (here : feed.At (spot.place + 1) cursor spot) :
      Matched feed post (.error reason cursor) (.error reason spot)

/-- A reading ends as code does, which asks for statements from some place on only. -/
def Follows {α : Type} (feed : Feed) (depth low : Nat) (post : α → α → Prop) (action : Parse α)
    (code : Code α) (cursor : Cursor) (spot : Spot) : Prop :=
  ∃ starts ending, Runs feed.stream depth code spot starts ending ∧
    feed.Matched post (action cursor) ending ∧
    Rising feed.stream low (spotOf ending).place starts ∧ spot.place ≤ (spotOf ending).place

theorem loosest_le_bindingPower (kind : Token.Kind) : loosest ≤ bindingPower kind := by
  unfold bindingPower
  split <;> decide

theorem statement_of_refused {expression : Nat → Parse Node} {cursor after : Cursor}
    {error : SyntaxError} (ran : statementForm expression cursor = .error (.refused error) after) :
    statement expression cursor = .ok none (after.report error) := by
  simp only [statement, ran]

theorem statement_of_broken {expression : Nat → Parse Node} {cursor after : Cursor}
    {reason : Breakoff} (ran : statementForm expression cursor = .error (.broken reason) after) :
    statement expression cursor = .error (.broken reason) after := by
  simp only [statement, ran]

namespace Follows

section Rules

variable {α β : Type} {feed : Feed} {depth inner low : Nat} {post : α → α → Prop}
  {last : β → β → Prop} {action : Parse α} {code : Code α} {cursor : Cursor} {spot : Spot}

theorem pure {result other : α} (results : post result other) (here : feed.At low cursor spot) :
    Follows feed depth low post (Pure.pure result) (Pure.pure other) cursor spot :=
  ⟨[], _, .done other spot, .done results (here.from_ (Nat.le_refl _)), .nil, Nat.le_refl _⟩

theorem stop (reason : Stop) (here : feed.At low cursor spot) :
    Follows feed depth low post (throw reason) (.stop reason) cursor spot :=
  ⟨[], _, .stop reason spot, .stopped reason (here.from_ (Nat.le_refl _)), .nil, Nat.le_refl _⟩

theorem refuse (error : SyntaxError) (here : feed.At low cursor spot) :
    Follows feed depth low post (Parse.refuse error) (Code.refuse error) cursor spot :=
  stop (.refused error) here

theorem bind {next : α → Parse β} {codeNext : α → Code β} (below : low ≤ spot.place + 1)
    (follows : Follows feed depth low post action code cursor spot)
    (onward : ∀ result other between mid, post result other → feed.At (mid.place + 1) between mid →
      spot.place ≤ mid.place →
      Follows feed depth (mid.place + 1) last (next result) (codeNext other) between mid) :
    Follows feed depth low last (action >>= next) (code >>= codeNext) cursor spot := by
  obtain ⟨starts, ending, run, matched, rising, upTo⟩ := follows
  unfold Follows
  generalize ran : action cursor = ended at matched
  cases matched with
  | stopped reason here =>
      rw [bind_error ran]
      exact ⟨starts, _, run.bind_error, .stopped reason here, rising, upTo⟩
  | done results here =>
      obtain ⟨others, final, onwardRun, onwardMatched, further, onwardUpTo⟩ :=
        onward _ _ _ _ results here upTo
      rw [bind_ok ran]
      exact ⟨starts ++ others, final, run.bind_ok onwardRun, onwardMatched,
        rising.append further (Nat.le_trans below (Nat.succ_le_succ upTo)) onwardUpTo,
        Nat.le_trans upTo onwardUpTo⟩

/-- A form is asked for within the room that is left for it. -/
theorem ask {form : Form α} (room : form.room depth = some inner)
    (follows : Follows feed inner low post action form.code cursor spot) :
    Follows feed depth low post action (Code.ask form) cursor spot := by
  obtain ⟨starts, ending, run, rest⟩ := follows
  exact ⟨starts, ending, run.ask room, rest⟩

/-- A turn of a loop that asks for a statement first. -/
theorem turn {other : Parse α} {otherCode : Code α} {between : Cursor} {mid : Spot}
    {starts : List Nat}
    (onward : Follows feed depth (mid.place + 1) post action code between.advance mid.advance)
    (same : other cursor = action between.advance)
    (proper : (feed.stream spot.place).kind ≠ .endOfInput) (from_ : low ≤ spot.place)
    (rising : Rising feed.stream (spot.place + 1) mid.place starts) (upTo : spot.place ≤ mid.place)
    (runs : ∀ others ending, Runs feed.stream depth code mid.advance others ending →
      Runs feed.stream depth otherCode spot (spot.place :: (starts ++ others)) ending) :
    Follows feed depth low post other otherCode cursor spot := by
  obtain ⟨others, ending, run, matched, further, onwardUpTo⟩ := onward
  have reached := Nat.le_of_succ_le onwardUpTo
  unfold Follows
  rw [same]
  exact ⟨_, ending, runs others ending run, matched,
    (rising.append further (Nat.succ_le_succ upTo) reached).cons proper from_
      (Nat.le_trans upTo reached), Nat.le_trans upTo reached⟩

theorem current {next : Token → Parse β} {codeNext : Token → Code β}
    (onward : Follows feed depth low last (next cursor.current) (codeNext (feed.stream spot.place))
      cursor spot) :
    Follows feed depth low last (Parse.current >>= next) (Code.current >>= codeNext) cursor spot := by
  obtain ⟨starts, ending, run, onward⟩ := onward
  exact ⟨starts, ending, .look run, onward⟩

theorem upcoming {next : Token → Parse β} {codeNext : Token → Code β}
    (onward : Follows feed depth low last (next cursor.upcoming)
      (codeNext (feed.stream (spot.place + 1))) cursor spot) :
    Follows feed depth low last (Parse.upcoming >>= next) (Code.upcoming >>= codeNext) cursor spot := by
  obtain ⟨starts, ending, run, onward⟩ := onward
  exact ⟨starts, ending, .lookAhead run, onward⟩

/-- Code does not count what is left. -/
theorem remaining {next : Nat → Parse β} {code : Code β}
    (onward : Follows feed depth low last (next cursor.count) code cursor spot) :
    Follows feed depth low last (Parse.remaining >>= next) code cursor spot :=
  onward

/-- Code may look at a token that the reading leaves alone. -/
theorem glance {action : Parse β} {codeNext : Token → Code β}
    (onward : Follows feed depth low last action (codeNext (feed.stream (spot.place + 1))) cursor
      spot) : Follows feed depth low last action (Code.upcoming >>= codeNext) cursor spot := by
  obtain ⟨starts, ending, run, onward⟩ := onward
  exact ⟨starts, ending, .lookAhead run, onward⟩

theorem advance {next : Unit → Parse β} {codeNext : Unit → Code β}
    (onward : Follows feed depth low last (next ()) (codeNext ()) cursor.advance spot.advance) :
    Follows feed depth low last (Parse.advance >>= next) (Code.advance >>= codeNext) cursor spot := by
  obtain ⟨starts, ending, run, matched, rising, upTo⟩ := onward
  exact ⟨starts, ending, .move run, matched, rising, Nat.le_of_succ_le upTo⟩

theorem expect {wanted : Token.Kind} {next : Unit → Parse β} {codeNext : Unit → Code β}
    (here : feed.At low cursor spot)
    (onward : cursor.advance.current.kind = wanted →
      Follows feed depth low last (next ()) (codeNext ()) cursor.advance spot.advance) :
    Follows feed depth low last (Parse.expect wanted >>= next) (Code.expect wanted >>= codeNext) cursor
      spot := by
  have same := here.upcoming.kind
  unfold Follows
  by_cases isWanted : cursor.upcoming.kind = wanted
  · obtain ⟨starts, ending, run, matched, rising, upTo⟩ := onward isWanted
    rw [bind_ok (expect_ran isWanted)]
    exact ⟨starts, ending, (Runs.expected (same ▸ isWanted)).bind_ok run, matched, rising,
      Nat.le_of_succ_le upTo⟩
  · rw [bind_error (expect_refused isWanted), same]
    exact ⟨[], _, (Runs.unexpected (same ▸ isWanted)).bind_error,
      .stopped _ (here.from_ (Nat.le_refl _)), .nil, Nat.le_refl _⟩

theorem skipSemicolon {next : Unit → Parse β} {codeNext : Unit → Code β}
    (here : feed.At low cursor spot)
    (onward : ∀ between mid, feed.At low between mid → spot.place ≤ mid.place →
      Follows feed depth low last (next ()) (codeNext ()) between mid) :
    Follows feed depth low last (Parse.skipSemicolon >>= next) (Code.skipSemicolon >>= codeNext)
      cursor spot := by
  have same := here.upcoming.kind
  by_cases isSemicolon : cursor.upcoming.kind = .semicolon
  · obtain ⟨starts, ending, run, matched, rising, upTo⟩ :=
      onward _ _ here.advance (Nat.le_succ spot.place)
    unfold Follows
    rw [bind_ok (skipSemicolon_ran cursor), if_pos isSemicolon]
    exact ⟨starts, ending, (Runs.semicolon (same ▸ isSemicolon)).bind_ok run, matched, rising,
      Nat.le_of_succ_le upTo⟩
  · obtain ⟨starts, ending, run, rest⟩ := onward _ _ here (Nat.le_refl _)
    unfold Follows
    rw [bind_ok (skipSemicolon_ran cursor), if_neg isSemicolon]
    exact ⟨starts, ending, (Runs.noSemicolon (same ▸ isSemicolon)).bind_ok run, rest⟩

end Rules

/-! ## Forms -/

section Forms

variable {feed : Feed} {depth low : Nat} {cursor : Cursor} {spot : Spot} {token other : Token}
  (reads : ∀ {low power : Nat} {cursor : Cursor} {spot : Spot}, loosest ≤ power →
    feed.At low cursor spot → Follows feed depth low (Node.Similar feed.similar)
      (Parse.expression depth power) (Code.expression power) cursor spot)

include reads

theorem loose {β : Type} {next : Node → Parse β} {codeNext : Node → Code β} {last : β → β → Prop}
    (here : feed.At low cursor spot)
    (onward : ∀ node other between mid, node.Similar feed.similar other →
      feed.At (mid.place + 1) between mid → spot.place ≤ mid.place →
      Follows feed depth (mid.place + 1) last (next node) (codeNext other) between mid) :
    Follows feed depth low last (Parse.expression depth loosest >>= next)
      (Code.expression loosest >>= codeNext) cursor spot :=
  (reads (Nat.le_refl _) here).bind here.below onward

theorem letStatement (tokens : feed.similar token other) (here : feed.At low cursor spot) :
    Follows feed depth low (Node.Similar feed.similar)
      (Parse.letStatement (Parse.expression depth) token) (Code.letStatement other) cursor spot := by
  refine .expect here fun isName => .current ?_
  have names := here.advance.current.proper (isName ▸ nofun)
  refine .expect here.advance fun _ => .advance ?_
  refine loose reads here.advance.advance.advance fun value otherValue _ _ values here _ => ?_
  refine .skipSemicolon here fun _ _ here _ => ?_
  exact .pure (.letStatement tokens ⟨names, (feed.spelled names).literal⟩ values) here

theorem returnStatement (tokens : feed.similar token other) (here : feed.At low cursor spot) :
    Follows feed depth low (Node.Similar feed.similar)
      (Parse.returnStatement (Parse.expression depth) token) (Code.returnStatement other) cursor
      spot := by
  refine .advance (loose reads here.advance fun value otherValue _ _ values here _ => ?_)
  exact .skipSemicolon here fun _ _ here _ => .pure (.returnStatement tokens values) here

theorem expressionStatement (tokens : feed.similar token other) (here : feed.At low cursor spot) :
    Follows feed depth low (Node.Similar feed.similar)
      (Parse.expressionStatement (Parse.expression depth) token) (Code.expressionStatement other)
      cursor spot := by
  refine loose reads here fun value otherValue _ _ values here _ => ?_
  exact .skipSemicolon here fun _ _ here _ => .pure (.expressionStatement tokens values) here

theorem statementForm (proper : cursor.current.kind ≠ .endOfInput) (here : feed.At low cursor spot) :
    Follows feed depth low (Node.Similar feed.similar)
      (Parse.statementForm (Parse.expression depth)) Code.statementForm cursor spot := by
  have tokens := here.current.proper proper
  refine .current ?_
  rw [here.current.kind]
  generalize (feed.stream spot.place).kind = kind
  cases kind with
  | letKeyword => exact letStatement reads tokens here
  | returnKeyword => exact returnStatement reads tokens here
  | _ => exact expressionStatement reads tokens here

theorem statements (closes : Token.Kind → Bool) {turns : Nat} {found others : Array Node}
    (similar : feed.Found found others) (here : feed.At low cursor spot) (from_ : low ≤ spot.place)
    (enough : cursor.count ≤ turns) :
    Follows feed depth low feed.Found
      (Parse.statements (Parse.expression depth) closes turns found)
      (Code.ask (.statements closes others)) cursor spot := by
  induction turns generalizing low cursor spot found others with
  | zero =>
      -- The turns are as many as the tokens, so that only the end is left.
      have isEnd := here.current_over (Nat.le_zero.mp enough)
      have stops : endsBody closes (feed.stream spot.place).kind = true := by
        simp [endsBody, ← here.current.kind, isEnd]
      exact ⟨[], _, Runs.ended stops, .done similar (here.from_ (Nat.le_refl _)), .nil,
        Nat.le_refl _⟩
  | succ turns ih =>
      cases goesOn : endsBody closes cursor.current.kind with
      | true =>
          unfold Follows
          rw [statements_ended goesOn]
          rw [here.current.kind] at goesOn
          exact ⟨[], _, Runs.ended goesOn, .done similar (here.from_ (Nat.le_refl _)), .nil,
            Nat.le_refl _⟩
      | false =>
          have proper := endsBody_false goesOn
          obtain ⟨starts, ending, run, matched, rising, upTo⟩ :=
            statementForm reads proper (here.from_ (Nat.le_refl _))
          have alike := here.current.kind
          generalize ran : Parse.statementForm (Parse.expression depth) cursor = formEnding at matched
          cases matched with
          | @done _ _ between mid nodes there =>
              have next := ih (push_similar similar nodes) there.advance (Nat.le_refl _)
                (here.shorter there.advance enough (Nat.lt_succ_of_le upTo))
              exact next.turn (statements_next goesOn (statement_of_form ran)) (alike ▸ proper) from_
                rising upTo fun _ _ => Runs.next_kept (alike ▸ goesOn) run
          | @stopped between mid reason there =>
              cases reason with
              | refused error =>
                  have next := ih similar (there.report error).advance (Nat.le_refl _)
                    (here.shorter (there.report error).advance enough (Nat.lt_succ_of_le upTo))
                  exact next.turn (statements_next goesOn (statement_of_refused ran))
                    (alike ▸ proper) from_ rising upTo fun _ _ => Runs.next_dropped (alike ▸ goesOn) run
              | broken reason =>
                  unfold Follows
                  rw [statements_stopped goesOn (statement_of_broken ran)]
                  exact ⟨_, _, Runs.next_broken (alike ▸ goesOn) run, .stopped _ there,
                    rising.cons (alike ▸ proper) from_ upTo, upTo⟩

theorem block (isBrace : cursor.current.kind = .leftBrace) (here : feed.At low cursor spot) :
    Follows feed depth low (Block.Similar feed.similar (Node.Similar feed.similar))
      (Parse.block (Parse.expression depth)) Code.block cursor spot := by
  have tokens := here.current.proper (isBrace ▸ nofun)
  refine .current (.advance (.remaining ?_))
  refine (statements reads _ .nil here.advance here.below (Nat.le_refl _)).bind here.advance.below
    fun body others _ _ bodies here _ => ?_
  exact .pure (.block tokens bodies) here

theorem moreExpressions {turns : Nat} {found others : Array Node} (similar : feed.Found found others)
    (here : feed.At low cursor spot) (enough : cursor.count ≤ turns) :
    Follows feed depth low feed.Found (Parse.moreExpressions (Parse.expression depth) turns found)
      (Code.ask (.moreExpressions others)) cursor spot := by
  induction turns generalizing low cursor spot found others with
  | zero =>
      refine .ask rfl (.glance ?_)
      rw [here.upcoming_over (Nat.le_zero.mp enough), if_neg nofun]
      exact .pure similar here
  | succ turns ih =>
      refine .ask rfl (.upcoming ?_)
      rw [← here.upcoming.kind]
      split
      · refine .advance (.advance ?_)
        refine loose reads here.advance.advance fun item other _ _ items there reached => ?_
        exact ih (push_similar similar items) there
          (here.shorter there enough (Nat.le_of_succ_le reached))
      · exact .pure similar here

theorem expressions (closing : Token.Kind) (here : feed.At low cursor spot) :
    Follows feed depth low (List.Forall₂ (Node.Similar feed.similar))
      (Parse.expressions (Parse.expression depth) closing) (Code.expressions closing) cursor spot := by
  refine .upcoming ?_
  rw [← here.upcoming.kind]
  split
  · exact .advance (.pure .nil here.advance)
  · refine .advance (loose reads here.advance fun first other _ _ firsts here _ => .remaining ?_)
    refine (moreExpressions reads (.cons firsts .nil) here (Nat.le_refl _)).bind here.below
      fun _ _ _ _ items here _ => ?_
    exact .expect here fun _ => .pure items here.advance

theorem pairs {turns : Nat} {found others : Array (Node × Node)}
    (similar : feed.FoundPairs found others) (here : feed.At low cursor spot) (some : 0 < turns)
    (enough : cursor.count ≤ turns) :
    Follows feed depth low feed.FoundPairs (Parse.pairs (Parse.expression depth) turns found)
      (Code.ask (.pairs others)) cursor spot := by
  induction turns generalizing low cursor spot found others with
  | zero => exact absurd some (Nat.lt_irrefl 0)
  | succ turns ih =>
      refine .ask rfl (.upcoming ?_)
      rw [← here.upcoming.kind]
      split
      · exact .pure similar here
      · refine .advance ?_
        refine loose reads here.advance fun key otherKey between mid keys there reached => ?_
        refine .expect there fun isColon => .advance ?_
        refine loose reads there.advance.advance fun value otherValue _ final values last onward => ?_
        -- A turn passes a token, and the colon is one that was left behind it.
        have passed : spot.place < final.place :=
          Nat.lt_of_lt_of_le reached (Nat.le_of_succ_le (Nat.le_of_succ_le onward))
        have someLeft : 0 < turns := by
          have colon := there.upcoming_count (isColon.symm ▸ nofun)
          have fewer := here.shorter there enough reached
          omega
        have similar := push_similar similar (.intro keys values)
        refine .upcoming ?_
        rw [← last.upcoming.kind]
        split
        · exact .expect last fun _ => ih similar last.advance someLeft
            (here.shorter last.advance enough (Nat.lt_succ_of_lt passed))
        · exact ih similar last someLeft (here.shorter last enough passed)

theorem hash (tokens : feed.similar token other) (proper : cursor.current.kind ≠ .endOfInput)
    (here : feed.At low cursor spot) :
    Follows feed depth low (Node.Similar feed.similar) (Parse.hash (Parse.expression depth) token)
      (Code.hash other) cursor spot := by
  refine .remaining ?_
  refine (pairs reads .nil here (here.current_count proper) (Nat.le_refl _)).bind here.below
    fun found others _ _ similar here _ => ?_
  exact .expect here fun _ => .pure (.hash tokens similar) here.advance

theorem grouped (here : feed.At low cursor spot) :
    Follows feed depth low (Node.Similar feed.similar) (Parse.grouped (Parse.expression depth))
      Code.grouped cursor spot := by
  refine .advance (loose reads here.advance fun inner other _ _ inners here _ => ?_)
  exact .expect here fun _ => .pure inners here.advance

theorem conditional (tokens : feed.similar token other) (here : feed.At low cursor spot) :
    Follows feed depth low (Node.Similar feed.similar)
      (Parse.conditional (Parse.expression depth) token) (Code.conditional other) cursor spot := by
  refine .expect here fun _ => .advance ?_
  refine loose reads here.advance.advance fun condition otherCondition _ _ conditions here _ => ?_
  refine .expect here fun _ => .expect here.advance fun isBrace => ?_
  refine (block reads isBrace here.advance.advance).bind here.advance.advance.below
    fun consequence otherConsequence _ _ consequences here _ => ?_
  refine .upcoming ?_
  rw [← here.upcoming.kind]
  split
  · refine .advance (.expect here.advance fun isBrace => ?_)
    refine (block reads isBrace here.advance.advance).bind here.advance.advance.below
      fun alternative otherAlternative _ _ alternatives here _ => ?_
    exact .pure (.conditional tokens conditions consequences (.some alternatives)) here
  · exact .pure (.conditional tokens conditions consequences .none) here

omit reads in
theorem parameter (here : feed.At low cursor spot) :
    Follows feed depth low (Identifier.Similar feed.similar) Parse.parameter Code.parameter cursor
      spot := by
  refine .expect here fun isName => .current ?_
  have names := here.advance.current.proper (isName ▸ nofun)
  exact .pure ⟨names, (feed.spelled names).literal⟩ here.advance

omit reads in
theorem moreParameters {turns : Nat} {found others : Array Identifier}
    (similar : feed.FoundNames found others) (here : feed.At low cursor spot)
    (enough : cursor.count ≤ turns) :
    Follows feed depth low feed.FoundNames (Parse.moreParameters turns found)
      (Code.ask (.moreParameters others)) cursor spot := by
  induction turns generalizing low cursor spot found others with
  | zero =>
      refine .ask rfl (.glance ?_)
      rw [here.upcoming_over (Nat.le_zero.mp enough), if_neg nofun]
      exact .pure similar here
  | succ turns ih =>
      refine .ask rfl (.upcoming ?_)
      rw [← here.upcoming.kind]
      split
      · refine .advance ((parameter here.advance).bind here.advance.below
          fun name other _ _ names there reached => ?_)
        exact ih (push_similar similar names) there (here.shorter there enough reached)
      · exact .pure similar here

omit reads in
theorem parameters (here : feed.At low cursor spot) :
    Follows feed depth low (List.Forall₂ (Identifier.Similar feed.similar)) Parse.parameters
      Code.parameters cursor spot := by
  refine .upcoming ?_
  rw [← here.upcoming.kind]
  split
  · exact .advance (.pure .nil here.advance)
  · refine (parameter here).bind here.below fun first other _ _ firsts here _ => .remaining ?_
    refine (moreParameters (.cons firsts .nil) here (Nat.le_refl _)).bind here.below
      fun _ _ _ _ names here _ => ?_
    exact .expect here fun _ => .pure names here.advance

theorem function (tokens : feed.similar token other) (here : feed.At low cursor spot) :
    Follows feed depth low (Node.Similar feed.similar) (Parse.function (Parse.expression depth) token)
      (Code.function other) cursor spot := by
  refine .expect here fun _ => (parameters here.advance).bind here.advance.below
    fun names others _ _ similar here _ => ?_
  refine .expect here fun isBrace => (block reads isBrace here.advance).bind here.advance.below
    fun body otherBody _ _ bodies here _ => ?_
  exact .pure (.function tokens similar bodies) here

omit reads in
theorem integer (tokens : feed.similar token other) (here : feed.At low cursor spot) :
    Follows feed depth low (Node.Similar feed.similar) (Parse.integer token) (Code.integer other) cursor
      spot := by
  unfold Parse.integer Code.integer
  rw [(feed.spelled tokens).literal]
  dsimp only
  split
  · exact .refuse _ here
  · split
    · exact .stop _ here
    · split
      · exact .refuse _ here
      · exact .pure (.integer tokens _) here

theorem unary (tokens : feed.similar token other) (here : feed.At low cursor spot) :
    Follows feed depth low (Node.Similar feed.similar) (do
      Parse.advance
      let operand ← Parse.expression depth unaryPower
      return Node.unary token token.literal operand) (Code.unary other) cursor spot := by
  rw [(feed.spelled tokens).literal]
  refine .advance ((reads (by decide) here.advance).bind here.advance.below
    fun operand otherOperand _ _ operands here _ => ?_)
  exact .pure (.unary tokens _ operands) here

theorem operand (here : feed.At low cursor spot) :
    Follows feed depth low (Node.Similar feed.similar) (Parse.operand (Parse.expression depth))
      Code.operand cursor spot := by
  refine .current ?_
  by_cases proper : cursor.current.kind = .endOfInput
  · rw [← here.current.kind, proper]
    exact .refuse _ here
  · have tokens := here.current.proper proper
    have literal := (feed.spelled tokens).literal
    have others := here.current.kind
    rw [others]
    generalize (feed.stream spot.place).kind = kind
    cases kind with
    | identifier => exact .pure (.identifier ⟨tokens, literal⟩) here
    | integer => exact integer tokens here
    | string =>
        rw [literal]
        exact .pure (.string tokens _) here
    | trueKeyword => exact .pure (.boolean tokens true) here
    | falseKeyword => exact .pure (.boolean tokens false) here
    | bang => exact unary reads tokens here
    | minus => exact unary reads tokens here
    | leftParen => exact grouped reads here
    | ifKeyword => exact conditional reads tokens here
    | fnKeyword => exact function reads tokens here
    | leftBracket =>
        exact (expressions reads _ here).bind here.below fun _ _ _ _ items here _ =>
          .pure (.array tokens items) here
    | leftBrace => exact hash reads tokens proper here
    | _ => exact .refuse _ here

theorem extension {left otherLeft : Node} (lefts : left.Similar feed.similar otherLeft)
    (proper : cursor.current.kind ≠ .endOfInput) (here : feed.At low cursor spot) :
    Follows feed depth low (Node.Similar feed.similar)
      (Parse.extension (Parse.expression depth) left) (Code.extension otherLeft) cursor spot := by
  have tokens := here.current.proper proper
  have literal := (feed.spelled tokens).literal
  have binary : ∀ kind : Token.Kind, Follows feed depth low (Node.Similar feed.similar) (do
      Parse.advance
      let right ← Parse.expression depth (bindingPower kind)
      return Node.binary cursor.current cursor.current.literal left right) (do
      Code.advance
      let right ← Code.expression (bindingPower kind)
      return Node.binary (feed.stream spot.place) (feed.stream spot.place).literal otherLeft right)
      cursor spot := by
    intro kind
    rw [literal]
    refine .advance ((reads (loosest_le_bindingPower kind) here.advance).bind here.advance.below
      fun right otherRight _ _ rights here _ => ?_)
    exact .pure (.binary tokens _ lefts rights) here
  refine .current ?_
  rw [here.current.kind]
  generalize (feed.stream spot.place).kind = kind
  cases kind with
  | leftParen =>
      exact (expressions reads _ here).bind here.below fun _ _ _ _ supplied here _ =>
        .pure (.call tokens lefts supplied) here
  | leftBracket =>
      refine .advance (loose reads here.advance fun position other _ _ positions here _ => ?_)
      exact .expect here fun _ => .pure (.index tokens lefts positions) here.advance
  | _ => exact binary _

theorem extensions {power turns : Nat} (tight : loosest ≤ power) {left otherLeft : Node}
    (lefts : left.Similar feed.similar otherLeft) (here : feed.At low cursor spot)
    (enough : cursor.count ≤ turns) :
    Follows feed depth low (Node.Similar feed.similar)
      (Parse.extensions (Parse.expression depth) power turns left)
      (Code.ask (.extensions power otherLeft)) cursor spot := by
  induction turns generalizing low cursor spot left otherLeft with
  | zero =>
      have loose : ¬ power < bindingPower .endOfInput := Nat.not_lt.mpr tight
      refine .ask rfl (.glance ?_)
      rw [here.upcoming_over (Nat.le_zero.mp enough), if_neg loose]
      exact .pure lefts here
  | succ turns ih =>
      refine .ask rfl (.upcoming ?_)
      rw [← here.upcoming.kind]
      split
      · rename_i binds
        have proper : cursor.advance.current.kind ≠ .endOfInput := by
          intro isEnd
          have loose : ¬ power < bindingPower .endOfInput := Nat.not_lt.mpr tight
          exact loose (isEnd ▸ binds)
        refine .advance ((extension reads lefts proper here.advance).bind here.advance.below
          fun longer otherLonger _ _ longers there reached => ?_)
        exact ih longers there (here.shorter there enough reached)
      · exact .pure lefts here

end Forms

section Whole

variable {feed : Feed} {low : Nat} {cursor : Cursor} {spot : Spot}

theorem expression (depth : Nat) {power : Nat} (tight : loosest ≤ power)
    (here : feed.At low cursor spot) :
    Follows feed depth low (Node.Similar feed.similar) (Parse.expression depth power)
      (Code.expression power) cursor spot := by
  induction depth generalizing low power cursor spot with
  | zero =>
      exact ⟨[], _, .full rfl, .stopped (.broken .tooDeep) (here.from_ (Nat.le_refl _)), .nil,
        Nat.le_refl _⟩
  | succ depth ih =>
      refine .ask rfl ((operand ih here).bind here.below fun first other _ _ firsts here _ => ?_)
      exact .remaining (extensions ih tight firsts here (Nat.le_refl _))

/-- Programs that keep given tokens, with similar statements. -/
inductive Programs (similar : Token → Token → Prop) (token other : Token) : Node → Node → Prop where
  | program {body others : List Node} (bodies : List.Forall₂ (Node.Similar similar) body others) :
      Programs similar token other (.program ⟨token, body⟩) (.program ⟨other, others⟩)

theorem program (depth : Nat) (here : feed.At low cursor spot) (from_ : low ≤ spot.place) :
    Follows feed depth low (Programs feed.similar cursor.current (feed.stream spot.place))
      (Parse.programForm depth) Code.program cursor spot := by
  refine .current (.remaining ?_)
  refine (statements (expression depth) _ .nil here from_ (Nat.le_refl _)).bind here.below
    fun body others _ _ bodies there _ => ?_
  exact .pure (.program bodies) there

end Whole

end Follows

end Parse

end MonkeyLang
