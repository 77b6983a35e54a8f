namespace MonkeyLang.Text

/-! Blank characters, trimming and words.

Blank are the spaces and separators of Unicode, the tab and the line-ending controls, and the four
information separators U+001C to U+001F.  The zero-width space is not blank.
-/

def isBlank (character : Char) : Bool :=
  let code := character.toNat
  (0x09 ≤ code && code ≤ 0x0d) || (0x1c ≤ code && code ≤ 0x20) || code == 0x85 || code == 0xa0 ||
  code == 0x1680 || (0x2000 ≤ code && code ≤ 0x200a) || code == 0x2028 || code == 0x2029 ||
  code == 0x202f || code == 0x205f || code == 0x3000

/-- The text without the blanks at its two ends. -/
def trimmed (text : List Char) : List Char :=
  ((text.dropWhile isBlank).reverse.dropWhile isBlank).reverse

/-- Cuts a text at every character that satisfies `isBreak`; there is one piece more than cuts. -/
def pieces (isBreak : Char → Bool) : List Char → List (List Char)
  | [] => [[]]
  | character :: rest =>
      if isBreak character then [] :: pieces isBreak rest
      else
        match pieces isBreak rest with
        | [] => [[character]]
        | piece :: others => (character :: piece) :: others

/-- The maximal runs of characters that are not blank. -/
def words (text : List Char) : List (List Char) :=
  (pieces isBlank text).filter (fun piece => !piece.isEmpty)

theorem pieces_ne_nil (isBreak : Char → Bool) (text : List Char) : pieces isBreak text ≠ [] := by
  cases text with
  | nil => simp [pieces]
  | cons character rest =>
      unfold pieces
      split
      · simp
      · split <;> simp

section Pieces

variable {isBreak : Char → Bool} {mark : Char} {piece : List Char}

theorem pieces_cons {character : Char} (kept : isBreak character = false) (rest : List Char) :
    ∃ piece others, pieces isBreak rest = piece :: others ∧
      pieces isBreak (character :: rest) = (character :: piece) :: others := by
  cases behind : pieces isBreak rest with
  | nil => exact absurd behind (pieces_ne_nil isBreak rest)
  | cons piece others => exact ⟨piece, others, rfl, by simp [pieces, kept, behind]⟩

/-- A text is cut behind its first piece as the rest of it is. -/
theorem pieces_append (whole : ∀ character ∈ piece, isBreak character = false)
    (cuts : isBreak mark = true) (rest : List Char) :
    pieces isBreak (piece ++ mark :: rest) = piece :: pieces isBreak rest := by
  induction piece with
  | nil => simp [pieces, cuts]
  | cons character piece ih =>
      obtain ⟨kept, whole⟩ := List.forall_mem_cons.mp whole
      obtain ⟨next, others, behind, cut⟩ := pieces_cons kept (piece ++ mark :: rest)
      rw [ih whole] at behind
      cases behind
      exact cut

theorem pieces_single (whole : ∀ character ∈ piece, isBreak character = false) :
    pieces isBreak piece = [piece] := by
  induction piece with
  | nil => rfl
  | cons character piece ih =>
      obtain ⟨kept, whole⟩ := List.forall_mem_cons.mp whole
      obtain ⟨next, others, behind, cut⟩ := pieces_cons kept piece
      rw [ih whole] at behind
      cases behind
      exact cut

theorem pieces_whole {text : List Char} (member : piece ∈ pieces isBreak text) :
    ∀ character ∈ piece, isBreak character = false := by
  induction text generalizing piece with
  | nil =>
      rw [pieces, List.mem_singleton] at member
      subst member
      exact List.forall_mem_nil _
  | cons character rest ih =>
      cases cuts : isBreak character with
      | true =>
          simp only [pieces, cuts, if_true, List.mem_cons] at member
          rcases member with rfl | later
          · exact List.forall_mem_nil _
          · exact ih later
      | false =>
          obtain ⟨first, others, behind, cut⟩ := pieces_cons cuts rest
          rw [behind] at ih
          rw [cut, List.mem_cons] at member
          rcases member with rfl | later
          · exact List.forall_mem_cons.mpr ⟨cuts, ih List.mem_cons_self⟩
          · exact ih (List.mem_cons_of_mem _ later)

end Pieces

end MonkeyLang.Text
