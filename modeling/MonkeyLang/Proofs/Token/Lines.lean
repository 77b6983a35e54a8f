import MonkeyLang.Machine
import MonkeyLang.Proofs.Token.Spelling

namespace MonkeyLang

/-! # Lines of a text

The scanner counts lines by line feeds alone, whereas a text that is shown is cut at other characters
too.  As long as none of these stands inside a line, both ways give the same lines, but for a carriage
return at their ends.
-/

namespace Text

/-- The lines of a text as the scanner counts them. -/
def fedLines (text : List Char) : List (List Char) :=
  pieces (· == '\n') text

/-- Nothing ends inside the line, and at most a carriage return at its end. -/
def isWhole : List Char → Bool
  | [] => true
  | character :: rest =>
      (character == '\r' && rest.isEmpty) || (!endsLine character && isWhole rest)

theorem fedLines_feed (rest : List Char) : fedLines ('\n' :: rest) = [] :: fedLines rest := rfl

theorem fedLines_cons {character : Char} (other : character ≠ '\n') (rest : List Char) :
    ∃ line others, fedLines rest = line :: others ∧
      fedLines (character :: rest) = (character :: line) :: others :=
  @pieces_cons (· == '\n') character (beq_false_of_ne other) rest

/-- A character stands on the line whose number is that of the line feeds before it. -/
theorem fedLines_at {first : Char} (notFeed : first ≠ '\n') (before behind : List Char) :
    ∃ line, (fedLines (before ++ first :: behind))[before.count '\n']? = some line ∧
      first ∈ line := by
  induction before with
  | nil =>
      obtain ⟨line, others, _, cut⟩ := fedLines_cons notFeed behind
      rw [List.nil_append, cut]
      exact ⟨first :: line, rfl, List.mem_cons_self⟩
  | cons character before ih =>
      obtain ⟨line, found, member⟩ := ih
      by_cases feed : character = '\n'
      · subst feed
        rw [List.cons_append, fedLines_feed, List.count_cons_self, List.getElem?_cons_succ]
        exact ⟨line, found, member⟩
      · obtain ⟨next, others, rest, cut⟩ := fedLines_cons feed (before ++ first :: behind)
        rw [List.cons_append, cut, List.count_cons_of_ne feed]
        rw [rest] at found
        generalize before.count '\n' = index at found
        cases index with
        | zero =>
            cases found
            exact ⟨character :: line, rfl, List.mem_cons_of_mem _ member⟩
        | succ index => exact ⟨line, found, member⟩

theorem unfed {line : List Char} (free : '\n' ∉ line) : ∀ character ∈ line, (character == '\n') = false :=
  fun _ member => beq_false_of_ne fun same => free (same ▸ member)

theorem fedLines_append {line : List Char} (free : '\n' ∉ line) (rest : List Char) :
    fedLines (line ++ '\n' :: rest) = line :: fedLines rest :=
  pieces_append (unfed free) rfl rest

theorem fedLines_single {line : List Char} (free : '\n' ∉ line) : fedLines line = [line] :=
  pieces_single (unfed free)

theorem addToLines_head (text : List Char) :
    (text.foldr addToLines (false, [])).1 = (text.head? == some '\n') := by
  cases text with
  | nil => rfl
  | cons character rest =>
      simp only [List.foldr_cons, addToLines, List.head?_cons, Option.some_beq_some]
      split
      · rename_i carried
        have isReturn := eq_of_beq (Bool.and_eq_true_iff.mp carried).1
        subst isReturn
        rfl
      · split
        · rfl
        · rename_i inside
          have other : character ≠ '\n' := fun same => inside (same ▸ rfl)
          split <;> exact (beq_false_of_ne other).symm

theorem lines_cons (character : Char) (rest : List Char) :
    lines (character :: rest) =
      if character = '\r' ∧ rest.head? = some '\n' then lines rest
      else if endsLine character then [] :: lines rest
      else match lines rest with
        | [] => [[character]]
        | line :: others => (character :: line) :: others := by
  have head := addToLines_head rest
  unfold lines
  rw [List.foldr_cons, addToLines, head]
  simp only [Bool.and_eq_true, beq_iff_eq]
  split
  · rfl
  · split
    · rfl
    · split <;> simp_all

/-- A whole line is shown as it is, but for a carriage return at its end. -/
theorem lines_append {line : List Char} (behind : List Char) (whole : isWhole line = true)
    (fed : ∀ next ∈ behind.head?, next = '\n') (present : line ++ behind ≠ []) :
    ∃ shown, lines (line ++ behind) = shown :: (lines behind).tail ∧
      (line = shown ∨ line = shown ++ ['\r']) := by
  have ended : behind = [] ∨ ∃ rest, behind = '\n' :: rest := by
    cases behind with
    | nil => exact .inl rfl
    | cons next rest => exact .inr ⟨rest, by rw [fed next rfl]⟩
  induction line with
  | nil =>
      obtain rfl | ⟨rest, rfl⟩ := ended
      · exact absurd rfl present
      · have feed : lines ('\n' :: rest) = [] :: lines rest := lines_cons '\n' rest
        exact ⟨[], by rw [List.nil_append, feed, List.tail_cons], .inl rfl⟩
  | cons character line ih =>
      simp only [isWhole, Bool.or_eq_true, Bool.and_eq_true, beq_iff_eq, List.isEmpty_iff,
        Bool.not_eq_true'] at whole
      obtain ⟨rfl, rfl⟩ | ⟨inside, whole⟩ := whole
      · -- The carriage return ends the line, on its own or together with the line feed behind it.
        refine ⟨[], ?_, .inr rfl⟩
        obtain rfl | ⟨rest, rfl⟩ := ended
        · rfl
        · have feed : lines ('\n' :: rest) = [] :: lines rest := lines_cons '\n' rest
          rw [List.cons_append, List.nil_append, lines_cons, if_pos ⟨rfl, rfl⟩, feed, List.tail_cons]
      · have notReturn : character ≠ '\r' := by
          rintro rfl
          cases inside
        have cut := lines_cons character (line ++ behind)
        rw [if_neg fun both => notReturn both.1, inside] at cut
        by_cases last : line ++ behind = []
        · obtain ⟨rfl, rfl⟩ := List.append_eq_nil_iff.mp last
          exact ⟨[character], cut, .inl rfl⟩
        · obtain ⟨shown, rest, same⟩ := ih whole last
          rw [rest] at cut
          refine ⟨character :: shown, cut, ?_⟩
          rcases same with rfl | rfl
          · exact .inl rfl
          · exact .inr rfl

theorem trimmed_append_blank (text : List Char) {character : Char} (blank : isBlank character = true) :
    trimmed (text ++ [character]) = trimmed text := by
  unfold trimmed
  rw [List.dropWhile_append]
  split
  · rename_i allBlank
    rw [List.isEmpty_iff.mp allBlank]
    simp [blank]
  · rw [List.reverse_append, List.reverse_singleton, List.singleton_append,
      List.dropWhile_cons_of_pos blank]

/-- Where the lines up to some number are whole, the one of this number is shown, blanks at its ends
apart. -/
theorem lines_agree {text line : List Char} {index : Nat}
    (found : (fedLines text)[index]? = some line) (present : line ≠ [])
    (whole : ∀ earlier ∈ (fedLines text).take (index + 1), isWhole earlier = true) :
    ∃ shown, (lines text)[index]? = some shown ∧ trimmed shown = trimmed line := by
  have shows : ∀ {line shown : List Char}, line = shown ∨ line = shown ++ ['\r'] →
      trimmed shown = trimmed line := by
    rintro line shown (rfl | rfl)
    · rfl
    · exact (trimmed_append_blank shown rfl).symm
  induction index generalizing text with
  | zero =>
      by_cases fed : '\n' ∈ text
      · obtain ⟨first, rest, rfl, free⟩ := List.eq_append_cons_of_mem fed
        rw [fedLines_append free] at found whole
        cases found
        obtain ⟨shown, cut, same⟩ := lines_append ('\n' :: rest)
          (whole line List.mem_cons_self) (by simp) (by simp)
        exact ⟨shown, by rw [cut]; rfl, shows same⟩
      · rw [fedLines_single fed] at found whole
        cases found
        obtain ⟨shown, cut, same⟩ := lines_append [] (whole line List.mem_cons_self)
          (by simp) (by simpa using present)
        rw [List.append_nil] at cut
        exact ⟨shown, by rw [cut]; rfl, shows same⟩
  | succ index ih =>
      by_cases fed : '\n' ∈ text
      · obtain ⟨first, rest, rfl, free⟩ := List.eq_append_cons_of_mem fed
        rw [fedLines_append free] at found whole
        rw [List.take_succ_cons] at whole
        obtain ⟨firstWhole, restWhole⟩ := List.forall_mem_cons.mp whole
        obtain ⟨shown, cut, _⟩ := lines_append ('\n' :: rest) firstWhole (by simp) (by simp)
        have feed : lines ('\n' :: rest) = [] :: lines rest := lines_cons '\n' rest
        rw [cut, feed, List.tail_cons, List.getElem?_cons_succ]
        exact ih found restWhole
      · rw [fedLines_single fed] at found
        cases found

end Text

theorem Position.advanceBy_line (position : Position) (text : List Char) :
    (position.advanceBy text).line = position.line + text.count '\n' := by
  induction text generalizing position with
  | nil => rfl
  | cons character text ih =>
      change ((position.advance character).advanceBy text).line = _
      rw [ih]
      by_cases feed : character = '\n'
      · subst feed
        rw [List.count_cons_self]
        change position.line + 1 + _ = _
        omega
      · rw [List.count_cons_of_ne feed, Position.advance, if_neg (by simpa using feed)]

/-- The scanner has come to some place in the text, and counts the line feeds before it. -/
def Scanner.Within (text : List Char) (scanner : Scanner) : Prop :=
  ∃ before, text = before ++ scanner.rest ∧ scanner.position.line = before.count '\n' + 1

/-- A token begins at some character of the text, on the line that it names. -/
def Token.Stands (text : List Char) (token : Token) : Prop :=
  ∃ before first behind, text = before ++ first :: behind ∧ Token.isLayout first = false ∧
    token.line = before.count '\n' + 1

namespace Scanner

variable {text : List Char} {scanner : Scanner}

theorem Within.skip (within : scanner.Within text) (count : Nat) :
    (scanner.skip count).Within text := by
  obtain ⟨before, split, line⟩ := within
  refine ⟨before ++ scanner.rest.take count, ?_, ?_⟩
  · rw [List.append_assoc]
    change text = before ++ (scanner.rest.take count ++ scanner.rest.drop count)
    rw [List.take_append_drop, split]
  · change (scanner.position.advanceBy (scanner.rest.take count)).line = _
    rw [Position.advanceBy_line, line, List.count_append]
    omega

theorem Within.next (within : scanner.Within text) :
    scanner.next.2.Within text ∧
      (scanner.next.1.kind ≠ .endOfInput → scanner.next.1.Stands text) := by
  have skipped : scanner.skipLayout.Within text := within.skip _
  have begins := scanner.skipLayout_rest
  unfold Scanner.next
  dsimp only
  cases rest : scanner.skipLayout.rest with
  | nil => exact ⟨skipped, fun proper => absurd rfl proper⟩
  | cons first behind =>
      obtain ⟨before, split, line⟩ := skipped
      have notLayout : Token.isLayout first = false := by
        have head := List.head?_dropWhile_not Token.isLayout scanner.rest
        rw [← begins, rest] at head
        simpa using head
      exact ⟨Within.skip ⟨before, split, line⟩ _,
        fun _ => ⟨before, first, behind, rest ▸ split, notLayout, line⟩⟩

theorem Gives.stand {tokens : List Token} {last : Scanner} (gives : Gives scanner tokens last)
    (within : scanner.Within text) :
    ∀ token ∈ tokens, token.kind ≠ .endOfInput → token.Stands text := by
  induction gives with
  | finish => exact List.forall_mem_singleton.mpr within.next.2
  | next _ _ ih => exact List.forall_mem_cons.mpr ⟨within.next.2, ih within.next.1⟩

end Scanner

namespace Token

theorem scan_stands {text : String} {token : Token} (member : token ∈ scan text)
    (proper : token.kind ≠ .endOfInput) : token.Stands text.toList := by
  obtain ⟨_, gives⟩ := Scanner.scan_gives text
  exact gives.stand ⟨[], rfl, rfl⟩ token member proper

/-- The line on which a token stands, among those that the scanner counts. -/
theorem Stands.line {text : List Char} {token : Token} (stands : token.Stands text) :
    ∃ line, token.line ≠ 0 ∧ (Text.fedLines text)[token.line - 1]? = some line ∧ line ≠ [] := by
  obtain ⟨before, first, behind, rfl, notLayout, number⟩ := stands
  have notFeed : first ≠ '\n' := by
    rintro rfl
    cases notLayout
  obtain ⟨line, found, member⟩ := Text.fedLines_at notFeed before behind
  rw [number]
  exact ⟨line, Nat.succ_ne_zero _, found, List.ne_nil_of_mem member⟩

end Token

end MonkeyLang
