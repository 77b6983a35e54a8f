import Mathlib.Data.List.DropRight
import MonkeyLang.Proofs.Token.Printing

namespace MonkeyLang

/-! # The tokens of a text tile it

Every token stands for a span of the text.  The spans follow one another in order, nothing but layout
lies between them, and each token names the line and the column at which its span begins.
-/

namespace Position

/-- The position behind a text: as many characters are passed as it has, the line is one more than its
newlines, and the column is one more than the characters behind the last of them. -/
def behind (text : List Char) : Position :=
  ⟨text.length, text.count '\n' + 1, (text.rtakeWhile (· != '\n')).length + 1⟩

theorem advance_behind (text : List Char) (character : Char) :
    (behind text).advance character = behind (text ++ [character]) := by
  by_cases feed : character = '\n'
  · subst feed
    simp [advance, behind]
  · simp [advance, behind, feed]

theorem advanceBy_behind (text more : List Char) :
    (behind text).advanceBy more = behind (text ++ more) := by
  induction more generalizing text with
  | nil => rw [List.append_nil]; rfl
  | cons character more ih =>
      calc
        (behind text).advanceBy (character :: more)
            = ((behind text).advance character).advanceBy more := rfl
        _ = (behind (text ++ [character])).advanceBy more := by rw [advance_behind]
        _ = behind (text ++ character :: more) := by
            rw [ih, List.append_assoc, List.singleton_append]

end Position

namespace Token

/-- The kinds of words: names and keywords. -/
def wordKinds : List Kind :=
  [.identifier, .letKeyword, .fnKeyword, .trueKeyword, .falseKeyword, .ifKeyword, .elseKeyword,
    .returnKeyword]

/-- No token but one of a single character begins with this one. -/
def isStray (character : Char) : Bool :=
  (doubledKinds? character).isNone && (symbolKind? character).isNone && character != '"' &&
    !isLetter character && !isDigit character

/-- What a token takes of a text, before what stands behind it.  It takes as much as it can: a word all
letters, a number all digits, and the first half of an operator its second half too. -/
structure Covers (kind : Kind) (literal span behind : List Char) : Prop where
  nonempty : span ≠ []
  shaped : Shaped (kind, String.ofList literal)
  spelled : kind ≠ .string → literal = span
  quoted : kind = .string → '"' ∉ literal ∧
    (span = '"' :: (literal ++ ['"']) ∨ (span = '"' :: literal ∧ behind = []))
  word : kind ∈ wordKinds → ∀ next ∈ behind.head?, isLetter next = false
  number : kind = .integer → ∀ next ∈ behind.head?, isDigit next = false
  undoubled : span = ['='] ∨ span = ['!'] → behind.head? ≠ some '='
  illegal : kind = .illegal → ∃ character, span = [character] ∧ isStray character = true

/-- A text is cut behind the last of the characters at its head that pass a test. -/
theorem cut_while (test : Char → Bool) (text : List Char) :
    ∃ inner others, text = inner ++ others ∧ text.takeWhile test = inner ∧
      (∀ character ∈ inner, test character = true) ∧
      ∀ next ∈ others.head?, test next = false := by
  refine ⟨text.takeWhile test, text.dropWhile test, List.takeWhile_append_dropWhile.symm, rfl,
    fun _ => List.mem_takeWhile_imp, fun next isNext => ?_⟩
  have head := List.head?_dropWhile_not test text
  rw [isNext] at head
  simpa using head

theorem notHalf {first : Char} (noDouble : doubledKinds? first = none) (others : List Char) :
    ¬ (first :: others = ['='] ∨ first :: others = ['!']) := by
  rintro (same | same) <;> cases same <;> cases noDouble

section Forms

variable {kind : Kind} {first : Char} {inner span others : List Char}

/-- A symbol stands for itself. -/
theorem covers_symbol (nonempty : span ≠ []) (shaped : Shaped (kind, String.ofList span))
    (symbol : kind ∉ .illegal :: .integer :: .string :: wordKinds)
    (undoubled : span = ['='] ∨ span = ['!'] → others.head? ≠ some '=') :
    Covers kind span span others := by
  simp only [List.mem_cons, not_or] at symbol
  obtain ⟨noIllegal, noInteger, noString, noWord⟩ := symbol
  constructor
  case nonempty => exact nonempty
  case shaped => exact shaped
  case spelled => exact fun _ => rfl
  case quoted => exact fun isString => absurd isString noString
  case word => exact fun isWord => absurd isWord noWord
  case number => exact fun isInteger => absurd isInteger noInteger
  case undoubled => exact undoubled
  case illegal => exact fun isIllegal => absurd isIllegal noIllegal

theorem covers_stray (stray : isStray first = true) : Covers .illegal [first] [first] others := by
  constructor
  case nonempty => exact List.cons_ne_nil _ _
  case shaped => exact .illegal first
  case spelled => exact fun _ => rfl
  case quoted => nofun
  case word => exact fun isWord => absurd isWord (by decide)
  case number => nofun
  case undoubled =>
    refine fun half => absurd half (notHalf ?_ [])
    simp only [isStray, Bool.and_eq_true, Option.isNone_iff_eq_none] at stray
    exact stray.1.1.1.1
  case illegal => exact fun _ => ⟨first, rfl, stray⟩

theorem covers_word (noDouble : doubledKinds? first = none)
    (letters : ∀ letter ∈ first :: inner, isLetter letter = true)
    (stops : ∀ next ∈ others.head?, isLetter next = false) :
    Covers (wordKind (first :: inner)) (first :: inner) (first :: inner) others := by
  have isWord : wordKind (first :: inner) ∈ wordKinds := by
    unfold wordKind
    split <;> decide
  have other : ∀ kind ∉ wordKinds, wordKind (first :: inner) ≠ kind :=
    fun kind noWord same => noWord (same ▸ isWord)
  constructor
  case nonempty => exact List.cons_ne_nil _ _
  case shaped => exact wordKind_shaped (List.cons_ne_nil _ _) letters
  case spelled => exact fun _ => rfl
  case quoted => exact fun isString => absurd isString (other _ (by decide))
  case word => exact fun _ => stops
  case number => exact fun isInteger => absurd isInteger (other _ (by decide))
  case undoubled => exact fun half => absurd half (notHalf noDouble inner)
  case illegal => exact fun isIllegal => absurd isIllegal (other _ (by decide))

theorem covers_number (noDouble : doubledKinds? first = none)
    (digits : ∀ digit ∈ first :: inner, isDigit digit = true)
    (stops : ∀ next ∈ others.head?, isDigit next = false) :
    Covers .integer (first :: inner) (first :: inner) others := by
  constructor
  case nonempty => exact List.cons_ne_nil _ _
  case shaped =>
    rw [← String.toList_ofList (l := first :: inner)] at digits
    exact .number (by rw [String.toList_ofList]; exact List.cons_ne_nil _ _) digits
  case spelled => exact fun _ => rfl
  case quoted => nofun
  case word => exact fun isWord => absurd isWord (by decide)
  case number => exact fun _ => stops
  case undoubled => exact fun half => absurd half (notHalf noDouble inner)
  case illegal => nofun

/-- The closing quote of a string is missing only at the end of the text. -/
theorem covers_string {closing : List Char} (noQuote : '"' ∉ inner)
    (closes : closing = ['"'] ∨ (closing = [] ∧ others = [])) :
    Covers .string inner ('"' :: (inner ++ closing)) others := by
  constructor
  case nonempty => exact List.cons_ne_nil _ _
  case shaped => exact .string (by rwa [String.toList_ofList])
  case spelled => exact fun isOther => absurd rfl isOther
  case quoted =>
    refine fun _ => ⟨noQuote, closes.imp ?_ ?_⟩
    · rintro rfl
      rfl
    · rintro ⟨rfl, rfl⟩
      exact ⟨by rw [List.append_nil], rfl⟩
  case word => exact fun isWord => absurd isWord (by decide)
  case number => nofun
  case undoubled => exact fun half => absurd half (notHalf rfl _)
  case illegal => nofun

end Forms

/-- What a lexeme takes of a text that begins with it. -/
def Lexeme.Opens (lexeme : Lexeme) (text : List Char) : Prop :=
  ∃ span behind, text = span ++ behind ∧ lexeme.extent = span.length ∧
    Covers lexeme.kind lexeme.literal span behind

theorem opens_doubled {first : Char} {single double : Kind}
    (found : doubledKinds? first = some (single, double)) (rest : List Char) :
    Lexeme.Opens (if rest.head? == some '=' then ⟨double, [first, '='], 2⟩ else ⟨single, [first], 1⟩)
      (first :: rest) := by
  have kinds : (first = '=' ∧ single = .assign ∧ double = .equal) ∨
      (first = '!' ∧ single = .bang ∧ double = .unequal) := by
    unfold doubledKinds? at found
    split at found <;> cases found
    · exact .inl ⟨rfl, rfl, rfl⟩
    · exact .inr ⟨rfl, rfl, rfl⟩
  split
  · rename_i isEqual
    obtain ⟨behind, rfl⟩ := List.head?_eq_some_iff.mp (eq_of_beq isEqual)
    refine ⟨[first, '='], behind, rfl, rfl, ?_⟩
    rcases kinds with ⟨rfl, rfl, rfl⟩ | ⟨rfl, rfl, rfl⟩
    · exact covers_symbol (List.cons_ne_nil _ _) (.fixed rfl) (by decide) (by simp)
    · exact covers_symbol (List.cons_ne_nil _ _) (.fixed rfl) (by decide) (by simp)
  · rename_i notEqual
    have alone : rest.head? ≠ some '=' := by simpa using notEqual
    refine ⟨[first], rest, rfl, rfl, ?_⟩
    rcases kinds with ⟨rfl, rfl, rfl⟩ | ⟨rfl, rfl, rfl⟩
    · exact covers_symbol (List.cons_ne_nil _ _) (.fixed rfl) (by decide) fun _ => alone
    · exact covers_symbol (List.cons_ne_nil _ _) (.fixed rfl) (by decide) fun _ => alone

theorem symbolKind_shaped {first : Char} {kind : Kind} (found : symbolKind? first = some kind) :
    Shaped (kind, String.ofList [first]) ∧ kind ∉ .illegal :: .integer :: .string :: wordKinds := by
  unfold symbolKind? at found
  split at found <;> cases found <;> exact ⟨.fixed rfl, by decide⟩

theorem opens_string (rest : List Char) :
    let body := rest.takeWhile (· != '"')
    Lexeme.Opens ⟨.string, body, 1 + body.length + (if body.length < rest.length then 1 else 0)⟩
      ('"' :: rest) := by
  obtain ⟨body, others, rfl, taken, all, stops⟩ := cut_while (· != '"') rest
  have noQuote : '"' ∉ body := fun member => absurd (all _ member) (by decide)
  dsimp only
  rw [taken]
  cases others with
  | nil =>
      refine ⟨'"' :: (body ++ []), [], by simp, ?_, covers_string noQuote (.inr ⟨rfl, rfl⟩)⟩
      simp [Nat.add_comm]
  | cons next others =>
      have isQuote : next = '"' := by simpa using stops next rfl
      subst isQuote
      refine ⟨'"' :: (body ++ ['"']), others, by simp, ?_, covers_string noQuote (.inl rfl)⟩
      simp [Nat.add_comm]

theorem lexeme_opens (first : Char) (rest : List Char) :
    (lexeme first rest).Opens (first :: rest) := by
  unfold lexeme
  split
  case h_1 single double found => exact opens_doubled found rest
  case h_2 noDouble =>
    split
    case h_1 kind found =>
      obtain ⟨shaped, symbol⟩ := symbolKind_shaped found
      exact ⟨[first], rest, rfl, rfl, covers_symbol (List.cons_ne_nil _ _) shaped symbol
        fun half => absurd half (notHalf noDouble [])⟩
    case h_2 noSymbol =>
      split_ifs with isQuote letter digit
      · rw [eq_of_beq isQuote]
        exact opens_string rest
      · obtain ⟨inner, others, rfl, taken, all, stops⟩ := cut_while isLetter rest
        rw [taken]
        exact ⟨_, others, rfl, rfl,
          covers_word noDouble (List.forall_mem_cons.mpr ⟨letter, all⟩) stops⟩
      · obtain ⟨inner, others, rfl, taken, all, stops⟩ := cut_while isDigit rest
        rw [taken]
        exact ⟨_, others, rfl, rfl,
          covers_number noDouble (List.forall_mem_cons.mpr ⟨digit, all⟩) stops⟩
      · have stray : isStray first = true := by simp_all [isStray]
        exact ⟨[first], rest, rfl, rfl, covers_stray stray⟩

/-- Tokens that tile a text behind what has been read of it: each but the last stands for a span of the
text, behind some layout, and the last one is an end token at the end of the text. -/
inductive Tiled : List Char → List Char → List Token → Prop
  | finish {before gap : List Char} {token : Token}
      (layout : ∀ character ∈ gap, isLayout character = true) (isEnd : token.kind = .endOfInput)
      (literal : token.literal = "") (line : token.line = (Position.behind (before ++ gap)).line)
      (column : token.column = (Position.behind (before ++ gap)).column) : Tiled before gap [token]
  | next {before gap span behind : List Char} {token : Token} {tokens : List Token}
      (layout : ∀ character ∈ gap, isLayout character = true) (proper : token.kind ≠ .endOfInput)
      (covers : Covers token.kind token.literal.toList span behind)
      (line : token.line = (Position.behind (before ++ gap)).line)
      (column : token.column = (Position.behind (before ++ gap)).column)
      (others : Tiled (before ++ gap ++ span) behind tokens) :
      Tiled before (gap ++ (span ++ behind)) (token :: tokens)

end Token

namespace Scanner

open Token (Tiled Covers isLayout lexeme)

/-- A scanner behind what it has read. -/
def Behind (before : List Char) (scanner : Scanner) : Prop :=
  scanner.position = Position.behind before

variable {before : List Char} {scanner last : Scanner} {tokens : List Token}

theorem Behind.skip (reached : scanner.Behind before) {passed rest : List Char}
    (split : scanner.rest = passed ++ rest) :
    scanner.skip passed.length = ⟨rest, .behind (before ++ passed)⟩ := by
  rw [Scanner.skip, split, List.drop_left, List.take_left, reached, Position.advanceBy_behind]

theorem Behind.skipLayout (reached : scanner.Behind before) :
    ∃ gap rest, scanner.rest = gap ++ rest ∧ (∀ character ∈ gap, isLayout character = true) ∧
      (∀ first ∈ rest.head?, isLayout first = false) ∧
      scanner.skipLayout = ⟨rest, .behind (before ++ gap)⟩ := by
  obtain ⟨gap, rest, split, taken, layout, ink⟩ := Token.cut_while isLayout scanner.rest
  refine ⟨gap, rest, split, layout, ink, ?_⟩
  rw [Scanner.skipLayout, taken, reached.skip split]

/-- At the end of the text the next token is an end token, and the scanner stays there. -/
theorem Behind.over (reached : scanner.Behind before)
    (layout : ∀ character ∈ scanner.rest, isLayout character = true) :
    let place := Position.behind (before ++ scanner.rest)
    scanner.next = (⟨.endOfInput, "", place.line, place.column⟩, ⟨[], place⟩) := by
  have taken : scanner.rest.takeWhile isLayout = scanner.rest := List.takeWhile_eq_self_iff.mpr layout
  have skipped : scanner.skipLayout = ⟨[], .behind (before ++ scanner.rest)⟩ := by
    rw [Scanner.skipLayout, taken, reached.skip (List.append_nil _).symm]
  unfold Scanner.next
  rw [skipped]

/-- Elsewhere the next token covers what comes behind the layout. -/
theorem Behind.next (reached : scanner.Behind before)
    (ink : ∃ character ∈ scanner.rest, isLayout character = false) :
    ∃ gap span behind, scanner.rest = gap ++ (span ++ behind) ∧
      (∀ character ∈ gap, isLayout character = true) ∧ scanner.next.1.kind ≠ .endOfInput ∧
      Covers scanner.next.1.kind scanner.next.1.literal.toList span behind ∧
      scanner.next.1.line = (Position.behind (before ++ gap)).line ∧
      scanner.next.1.column = (Position.behind (before ++ gap)).column ∧
      scanner.next.2 = ⟨behind, .behind (before ++ gap ++ span)⟩ := by
  obtain ⟨gap, rest, split, layout, _, skipped⟩ := reached.skipLayout
  cases rest with
  | nil =>
      obtain ⟨character, member, isInk⟩ := ink
      rw [split, List.append_nil] at member
      rw [layout character member] at isInk
      cases isInk
  | cons first rest =>
      obtain ⟨span, behind, parts, extent, covers⟩ := Token.lexeme_opens first rest
      have arrived : (⟨first :: rest, .behind (before ++ gap)⟩ : Scanner).Behind (before ++ gap) := rfl
      have passed := arrived.skip parts
      refine ⟨gap, span, behind, parts ▸ split, layout, ?_⟩
      unfold Scanner.next
      rw [skipped]
      refine ⟨Token.lexeme_kind_ne_end first rest, ?_, rfl, rfl, ?_⟩
      · dsimp only
        rwa [String.toList_ofList]
      · dsimp only
        rw [extent, passed]

theorem Gives.tiles (gives : Gives scanner tokens last) (reached : scanner.Behind before) :
    Tiled before scanner.rest tokens ∧ last = ⟨[], .behind (before ++ scanner.rest)⟩ := by
  induction gives generalizing before with
  | finish blank =>
      have layout := List.dropWhile_eq_nil_iff.mp blank
      rw [reached.over layout]
      exact ⟨.finish layout rfl rfl rfl rfl, rfl⟩
  | @next scanner last first rest tokens begins others ih =>
      have ink : ∃ character ∈ scanner.rest, isLayout character = false := by
        have blank : scanner.rest.dropWhile isLayout ≠ [] := begins ▸ List.cons_ne_nil first rest
        simpa [List.dropWhile_eq_nil_iff] using blank
      obtain ⟨gap, span, behind, split, gapLayout, proper, covers, line, column, after⟩ :=
        reached.next ink
      rw [after] at ih
      have goesOn : Behind (before ++ gap ++ span) ⟨behind, .behind (before ++ gap ++ span)⟩ := rfl
      obtain ⟨tiled, finished⟩ := ih goesOn
      rw [split]
      refine ⟨.next gapLayout proper covers line column tiled, ?_⟩
      rw [finished, List.append_assoc, List.append_assoc]

theorem collect_tiles (count : Nat) (found : List Token) (reached : scanner.Behind before)
    (enough : scanner.rest.length ≤ count) :
    ∃ tokens, Tiled before scanner.rest tokens ∧
      collect count found scanner =
        (found.reverse ++ tokens, ⟨[], .behind (before ++ scanner.rest)⟩) := by
  obtain ⟨tokens, last, given⟩ := gives scanner
  obtain ⟨tiled, rfl⟩ := given.tiles reached
  exact ⟨tokens, tiled, given.collect enough found⟩

end Scanner

/-- The tokens of a text tile it from its beginning to its end, where the scanner is left. -/
theorem tokens_tile_text (text : String) :
    Token.Tiled [] text.toList (Token.scan text) ∧
      (Scanner.ofText text.toList).tokens.2 = ⟨[], Position.behind text.toList⟩ := by
  have begins : (Scanner.ofText text.toList).Behind [] := rfl
  obtain ⟨tokens, tiled, collected⟩ :=
    Scanner.collect_tiles text.toList.length [] begins (Nat.le_refl _)
  have scanned : (Scanner.ofText text.toList).tokens = (tokens, ⟨[], .behind text.toList⟩) := collected
  refine ⟨?_, by rw [scanned]⟩
  rw [Token.scan, scanned]
  exact tiled

end MonkeyLang
