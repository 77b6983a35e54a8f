import MonkeyLang.Proofs.Token.Pulling

namespace MonkeyLang

/-! # Texts in a row, with the places of their tokens

Behind a line break a text has the tokens that it has alone, only some lines further down, and those of
the text before the line break are what they were.
-/

/-- A token some lines further down. -/
def Token.lowered (lines : Nat) (token : Token) : Token := { token with line := token.line + lines }

/-- A position some lines further down, in whatever text. -/
structure Position.Below (lines : Nat) (position other : Position) : Prop where
  line : other.line = position.line + lines
  column : other.column = position.column

namespace Position.Below

variable {lines : Nat} {position other : Position}

theorem advance (below : position.Below lines other) (character : Char) :
    (position.advance character).Below lines (other.advance character) := by
  unfold Position.advance
  split
  · exact ⟨by rw [below.line, Nat.add_right_comm], rfl⟩
  · exact ⟨below.line, congrArg (· + 1) below.column⟩

theorem advanceBy (below : position.Below lines other) (text : List Char) :
    (position.advanceBy text).Below lines (other.advanceBy text) := by
  induction text generalizing position other with
  | nil => exact below
  | cons character text ih => exact ih (below.advance character)

theorem endAt (below : position.Below lines other) :
    Token.endAt other = (Token.endAt position).lowered lines := by
  rw [Token.endAt, below.line, below.column]
  rfl

end Position.Below

namespace Scanner

open Token (isLayout lexeme)

variable {scanner other last : Scanner} {tokens : List Token}

/-- Two scanners before the same text, the other one some lines further down. -/
structure Below (lines : Nat) (scanner other : Scanner) : Prop where
  rest : other.rest = scanner.rest
  position : scanner.position.Below lines other.position

namespace Below

variable {lines : Nat}

theorem skip (below : Below lines scanner other) (count : Nat) :
    Below lines (scanner.skip count) (other.skip count) where
  rest := congrArg (List.drop count) below.rest
  position := by
    rw [Scanner.skip, Scanner.skip, below.rest]
    exact below.position.advanceBy _

theorem skipLayout (below : Below lines scanner other) :
    Below lines scanner.skipLayout other.skipLayout := by
  rw [Scanner.skipLayout, Scanner.skipLayout, below.rest]
  exact below.skip _

theorem finish (below : Below lines scanner other) : scanner.finish.Below lines other.finish := by
  rw [Scanner.finish, Scanner.finish, below.rest]
  exact below.position.advanceBy _

theorem next (below : Below lines scanner other) :
    other.next.1 = scanner.next.1.lowered lines ∧ Below lines scanner.next.2 other.next.2 := by
  cases begins : scanner.rest.dropWhile isLayout with
  | nil =>
      rw [next_blank begins, next_blank (below.rest ▸ begins)]
      exact ⟨below.finish.endAt, rfl, below.finish⟩
  | cons first rest =>
      have place := below.skipLayout.position
      rw [next_begins begins, next_begins (below.rest ▸ begins), place.line, place.column]
      exact ⟨rfl, below.skipLayout.skip _⟩

end Below

theorem Gives.lowered {lines : Nat} (gives : Gives scanner tokens last)
    (below : Below lines scanner other) :
    ∃ finish, Gives other (tokens.map (Token.lowered lines)) finish := by
  induction gives generalizing other with
  | finish blank =>
      refine ⟨other.next.2, ?_⟩
      rw [List.map_singleton, ← below.next.1]
      exact .finish (below.rest ▸ blank)
  | next begins _ ih =>
      obtain ⟨finish, others⟩ := ih below.next.2
      refine ⟨finish, ?_⟩
      rw [List.map_cons, ← below.next.1]
      exact .next (below.rest ▸ begins) others

/-- A scanner with more text behind its own in the next lines. -/
def followed (scanner : Scanner) (more : List Char) : Scanner :=
  ⟨scanner.rest ++ '\n' :: more, scanner.position⟩

/-- The scanner before these lines. -/
def beyond (scanner : Scanner) (more : List Char) : Scanner := ⟨more, scanner.finish.advance '\n'⟩

variable {more : List Char}

theorem next_beyond (scanner : Scanner) (more : List Char) :
    scanner.next.2.beyond more = scanner.beyond more := by
  rw [beyond, next_finish, beyond]

/-- The layout before the line break goes on behind it. -/
theorem skipLayout_followed (blank : scanner.rest.dropWhile isLayout = []) :
    (scanner.followed more).skipLayout = (scanner.beyond more).skipLayout := by
  have layout := List.dropWhile_eq_nil_iff.mp blank
  have taken : (scanner.rest ++ '\n' :: more).takeWhile isLayout =
      (scanner.rest ++ ['\n']) ++ more.takeWhile isLayout := by
    rw [List.takeWhile_append_of_pos layout, List.append_assoc]
    rfl
  have split : scanner.rest ++ '\n' :: more = (scanner.rest ++ ['\n']) ++ more := by
    rw [List.append_assoc]
    rfl
  rw [skipLayout, skipLayout, followed, beyond, skip, skip]
  dsimp only
  rw [taken, split, List.length_append, List.take_length_add_append, List.drop_length_add_append,
    Position.advanceBy_append, Position.advanceBy_append]
  rfl

theorem next_followed_blank (blank : scanner.rest.dropWhile isLayout = []) :
    (scanner.followed more).next = (scanner.beyond more).next := by
  rw [next, next, skipLayout_followed blank]

theorem skip_followed {count : Nat} (enough : count ≤ scanner.rest.length) :
    (scanner.followed more).skip count = (scanner.skip count).followed more := by
  rw [skip, skip, followed, followed]
  dsimp only
  rw [List.drop_append_of_le_length enough, List.take_append_of_le_length enough]

section Begins

variable {first : Char} {rest : List Char} (begins : scanner.rest.dropWhile isLayout = first :: rest)

include begins

theorem dropWhile_followed :
    (scanner.followed more).rest.dropWhile isLayout = first :: (rest ++ '\n' :: more) := by
  rw [followed, List.dropWhile_append, begins]
  rfl

theorem skipLayout_begins : (scanner.followed more).skipLayout = scanner.skipLayout.followed more := by
  have split := congrArg List.length (List.takeWhile_append_dropWhile (p := isLayout) (l := scanner.rest))
  rw [begins, List.length_append, List.length_cons] at split
  have inside : (scanner.rest.takeWhile isLayout).length ≠ scanner.rest.length := by omega
  have taken : (scanner.followed more).rest.takeWhile isLayout = scanner.rest.takeWhile isLayout := by
    rw [followed, List.takeWhile_append, if_neg inside]
  rw [skipLayout, taken, skip_followed (Token.takeWhile_le isLayout scanner.rest)]
  rfl

/-- A token that is closed ends before the line break. -/
theorem next_followed (closed : (lexeme first rest).kind = .string →
      (lexeme first rest).extent < (first :: rest).length) :
    (scanner.followed more).next.1 = scanner.next.1 ∧
      (scanner.followed more).next.2 = scanner.next.2.followed more := by
  have enough : (lexeme first rest).extent ≤ scanner.skipLayout.rest.length := by
    rw [skipLayout_rest, begins]
    exact (Token.lexeme_extent first rest).2
  rw [next_begins begins, next_begins (dropWhile_followed begins), Token.lexeme_newline more closed,
    skipLayout_begins begins, skip_followed enough]
  exact ⟨rfl, rfl⟩

end Begins

/-- A scanner gives what another one gives whose next token is the same. -/
theorem Gives.of_next (gives : Gives scanner tokens last)
    (rest : other.rest.dropWhile isLayout = scanner.rest.dropWhile isLayout)
    (next : other.next = scanner.next) : Gives other tokens last := by
  cases gives with
  | finish blank =>
      rw [← next]
      exact .finish (rest.trans blank)
  | next begins others =>
      rw [← next] at others ⊢
      exact .next (rest.trans begins) others

/-- Only a string goes on behind a line break, and one before another token is closed. -/
theorem Gives.followed {others : List Token} {final : Scanner} (gives : Gives scanner tokens last)
    (noString : ∀ token, tokens.dropLast.getLast? = some token → token.kind ≠ .string)
    (otherGives : Gives (scanner.beyond more) others final) :
    Gives (scanner.followed more) (tokens.dropLast ++ others) final := by
  induction gives with
  | @finish scanner blank =>
      refine otherGives.of_next ?_ (next_followed_blank blank)
      rw [Scanner.followed, List.dropWhile_append, blank]
      rfl
  | @next scanner last first rest tokens begins rested ih =>
      have nonempty : tokens ≠ [] := by cases rested <;> nofun
      have closed : (lexeme first rest).kind = .string →
          (lexeme first rest).extent < (first :: rest).length := by
        intro isString
        cases rested with
        | finish =>
            have spelled := congrArg Prod.fst (next_some begins).1
            exact absurd (spelled.trans isString) (noString _ rfl)
        | next goesOn =>
            refine Nat.lt_of_not_le fun all => ?_
            rw [(next_some begins).2, List.drop_eq_nil_of_le all] at goesOn
            cases goesOn
      obtain ⟨same, onward⟩ := next_followed begins closed
      have inner := ih (fun token isLast => noString token (by
        rw [List.dropLast_cons_of_ne_nil nonempty, List.getLast?_cons, isLast]
        rfl)) (next_beyond scanner more ▸ otherGives)
      rw [List.dropLast_cons_of_ne_nil nonempty, List.cons_append]
      rw [← onward] at inner
      have given := Gives.next (dropWhile_followed begins) inner
      rwa [same] at given

end Scanner

namespace Token

/-- The tokens of a text with another one in the lines behind it. -/
theorem scan_joined (text other : String)
    (noString : ∀ token, (scan text).dropLast.getLast? = some token → token.kind ≠ .string) :
    scan (text ++ "\n" ++ other) =
      (scan text).dropLast ++ (scan other).map (lowered (1 + text.toList.count '\n')) := by
  obtain ⟨_, gives⟩ := Scanner.scan_gives text
  obtain ⟨_, otherGives⟩ := Scanner.scan_gives other
  have below : Scanner.Below (1 + text.toList.count '\n') (Scanner.ofText other.toList)
      ((Scanner.ofText text.toList).beyond other.toList) := by
    rw [Scanner.beyond, Scanner.ofText_finish]
    have line : text.toList.count '\n' + 1 + 1 = 1 + (1 + text.toList.count '\n') := by omega
    exact ⟨rfl, line, rfl⟩
  obtain ⟨finish, others⟩ := otherGives.lowered below
  have joined := gives.followed noString others
  have whole : (Scanner.ofText text.toList).followed other.toList =
      Scanner.ofText (text ++ "\n" ++ other).toList := by
    rw [String.toList_append, String.toList_append, List.append_assoc]
    rfl
  exact (whole ▸ joined).scan

theorem scan_append (text other : String)
    (noString : ∀ token, (scan text).dropLast.getLast? = some token → token.kind ≠ .string) :
    (scan (text ++ "\n" ++ other)).map Token.spelling =
      (scan text).dropLast.map Token.spelling ++ (scan other).map Token.spelling := by
  rw [scan_joined text other noString, List.map_append, List.map_map]
  rfl

end Token

end MonkeyLang
