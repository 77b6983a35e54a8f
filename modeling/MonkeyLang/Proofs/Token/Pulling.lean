import MonkeyLang.Proofs.Token.Tiling

namespace MonkeyLang

/-! # Tokens pulled one by one

A scanner gives the tokens of a text one by one.  Behind the last of them it stands at the end of the
text and gives the same end token for ever.
-/

theorem Position.advanceBy_append (position : Position) (text more : List Char) :
    position.advanceBy (text ++ more) = (position.advanceBy text).advanceBy more :=
  List.foldl_append

/-- The end token at a place of a text. -/
def Token.endAt (place : Position) : Token := ⟨.endOfInput, "", place.line, place.column⟩

namespace Scanner

open Token (isLayout lexeme)

variable {scanner last : Scanner} {tokens : List Token}

/-- Where a scanner gets to in the end. -/
def finish (scanner : Scanner) : Position := scanner.position.advanceBy scanner.rest

theorem skip_finish (scanner : Scanner) (count : Nat) : (scanner.skip count).finish = scanner.finish := by
  rw [finish, skip, ← Position.advanceBy_append, List.take_append_drop]
  rfl

theorem skipLayout_finish (scanner : Scanner) : scanner.skipLayout.finish = scanner.finish :=
  skip_finish scanner _

theorem ofText_finish (text : List Char) : (ofText text).finish = Position.behind text := by
  have begins : Position.start = Position.behind [] := rfl
  rw [finish, ofText, begins, Position.advanceBy_behind, List.nil_append]

theorem next_blank (blank : scanner.rest.dropWhile isLayout = []) :
    scanner.next = (Token.endAt scanner.finish, ⟨[], scanner.finish⟩) := by
  have passed : scanner.skipLayout = ⟨[], scanner.finish⟩ := by
    have rest := scanner.skipLayout_rest.trans blank
    have place : scanner.skipLayout.position = scanner.finish := by
      rw [← skipLayout_finish, finish, rest]
      rfl
    rw [← rest, ← place]
  rw [next, passed]
  rfl

theorem next_begins {first : Char} {rest : List Char}
    (begins : scanner.rest.dropWhile isLayout = first :: rest) :
    scanner.next = (⟨(lexeme first rest).kind, String.ofList (lexeme first rest).literal,
      scanner.skipLayout.position.line, scanner.skipLayout.position.column⟩,
      scanner.skipLayout.skip (lexeme first rest).extent) := by
  rw [next, scanner.skipLayout_rest, begins]

theorem next_finish (scanner : Scanner) : scanner.next.2.finish = scanner.finish := by
  cases begins : scanner.rest.dropWhile isLayout with
  | nil =>
      rw [next_blank begins]
      rfl
  | cons first rest => rw [next_begins begins, skip_finish, skipLayout_finish]

/-- The last token is the end token at the end of the text, where the scanner is left. -/
theorem Gives.ends (gives : Gives scanner tokens last) :
    tokens.getLast? = some (Token.endAt scanner.finish) ∧ last = ⟨[], scanner.finish⟩ := by
  induction gives with
  | finish blank =>
      rw [next_blank blank]
      exact ⟨rfl, rfl⟩
  | @next scanner last first rest tokens begins others ih =>
      rw [← next_finish, List.getLast?_cons, ih.1]
      exact ⟨rfl, ih.2⟩

theorem scan_getLast (text : String) :
    (Token.scan text).getLast? = some (Token.endAt (Position.behind text.toList)) := by
  obtain ⟨last, given⟩ := scan_gives text
  rw [given.ends.1, ofText_finish]

/-- At the end a scanner gives its end token as often as it is asked. -/
theorem pull_blank (blank : scanner.rest.dropWhile isLayout = []) (count : Nat) :
    (scanner.pull count).1 = List.replicate count (Token.endAt scanner.finish) ∧
      (0 < count → (scanner.pull count).2 = ⟨[], scanner.finish⟩) := by
  induction count generalizing scanner with
  | zero => exact ⟨rfl, nofun⟩
  | succ count ih =>
      have nothing : (⟨[], scanner.finish⟩ : Scanner).rest.dropWhile isLayout = [] := rfl
      rw [pull, next_blank blank]
      obtain ⟨more, stays⟩ := ih nothing
      refine ⟨congrArg (Token.endAt scanner.finish :: ·) more, fun _ => ?_⟩
      cases count with
      | zero => rfl
      | succ count => exact stays (Nat.succ_pos count)

theorem Gives.pull (gives : Gives scanner tokens last) (count : Nat) :
    (scanner.pull count).1 = tokens.take count ++
        List.replicate (count - tokens.length) (Token.endAt scanner.finish) ∧
      (tokens.length ≤ count → (scanner.pull count).2 = ⟨[], scanner.finish⟩) := by
  induction gives generalizing count with
  | @finish scanner blank =>
      obtain ⟨pulled, stays⟩ := pull_blank blank count
      refine ⟨?_, stays⟩
      rw [pulled, next_blank blank]
      cases count with
      | zero => rfl
      | succ count => simp [List.replicate_succ]
  | @next scanner last first rest tokens begins others ih =>
      cases count with
      | zero => exact ⟨(congrArg (List.replicate · _) (Nat.zero_sub _)).symm, nofun⟩
      | succ count =>
          obtain ⟨pulled, stays⟩ := ih count
          rw [next_finish] at pulled stays
          rw [List.length_cons, Nat.succ_sub_succ, List.take_succ_cons, List.cons_append, ← pulled]
          exact ⟨rfl, fun enough => stays (Nat.le_of_succ_le_succ enough)⟩

/-- The tokens that a scanner gives one by one, end tokens included. -/
def stream (scanner : Scanner) (place : Nat) : Token := (scanner.pull place).2.next.1

theorem Gives.stream (gives : Gives scanner tokens last) (place : Nat) :
    scanner.stream place = tokens.getD place (Token.endAt scanner.finish) := by
  induction gives generalizing place with
  | @finish scanner blank =>
      cases place with
      | zero => rfl
      | succ place =>
          rw [Scanner.stream, (pull_blank blank (place + 1)).2 (Nat.succ_pos place), next_blank rfl]
          rfl
  | @next scanner last first rest tokens begins others ih =>
      cases place with
      | zero => rfl
      | succ place =>
          have onward : scanner.stream (place + 1) = scanner.next.2.stream place := rfl
          rw [onward, ih, next_finish, List.getD_cons_succ]

end Scanner

end MonkeyLang
