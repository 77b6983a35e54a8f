import Mathlib.Data.List.TakeWhile
import MonkeyLang.Proofs.Token.Spelling

namespace MonkeyLang.Token

/-! # Printing tokens

A text prints tokens if these are the tokens that it begins with, whatever comes behind it, as long
as that is no character that could go on the last of them.
-/

/-- The spelling of the kinds that have only one. -/
def Kind.fixed? : Kind → Option String
  | .assign => some "="
  | .plus => some "+"
  | .minus => some "-"
  | .star => some "*"
  | .slash => some "/"
  | .equal => some "=="
  | .unequal => some "!="
  | .greater => some ">"
  | .less => some "<"
  | .bang => some "!"
  | .comma => some ","
  | .semicolon => some ";"
  | .colon => some ":"
  | .leftParen => some "("
  | .rightParen => some ")"
  | .leftBrace => some "\x7b"
  | .rightBrace => some "\x7d"
  | .leftBracket => some "["
  | .rightBracket => some "]"
  | .letKeyword => some "let"
  | .fnKeyword => some "fn"
  | .trueKeyword => some "true"
  | .falseKeyword => some "false"
  | .ifKeyword => some "if"
  | .elseKeyword => some "else"
  | .returnKeyword => some "return"
  | _ => none

/-- The spellings that a scanner gives, those of end tokens apart. -/
inductive Shaped : Spelling → Prop
  | fixed {kind : Kind} {text : String} (spelled : kind.fixed? = some text) : Shaped (kind, text)
  | name {word : String} (nonempty : word.toList ≠ [])
      (letters : ∀ letter ∈ word.toList, isLetter letter = true)
      (noKeyword : wordKind word.toList = .identifier) : Shaped (.identifier, word)
  | number {digits : String} (nonempty : digits.toList ≠ [])
      (all : ∀ digit ∈ digits.toList, isDigit digit = true) : Shaped (.integer, digits)
  | string {body : String} (noQuote : '"' ∉ body.toList) : Shaped (.string, body)
  | illegal (character : Char) : Shaped (.illegal, String.ofList [character])

theorem wordKind_shaped {word : List Char} (nonempty : word ≠ [])
    (letters : ∀ letter ∈ word, isLetter letter = true) :
    Shaped (wordKind word, String.ofList word) := by
  cases isKind : wordKind word with
  | identifier =>
      rw [← String.toList_ofList (l := word)] at nonempty letters isKind
      exact .name nonempty letters isKind
  | _ => 
      unfold wordKind at isKind
      split at isKind <;> cases isKind
      all_goals rename_i same; rw [same]; exact .fixed rfl

theorem takeWhile_all {test : Char → Bool} {first : Char} (passes : test first = true)
    (rest : List Char) : ∀ character ∈ first :: rest.takeWhile test, test character = true :=
  List.forall_mem_cons.mpr ⟨passes, fun _ member => List.mem_takeWhile_imp member⟩

theorem lexeme_shaped (first : Char) (rest : List Char) : Shaped (lexeme first rest).spelling := by
  unfold lexeme Lexeme.spelling
  split
  · rename_i single double doubled
    unfold doubledKinds? at doubled
    split at doubled
    · cases doubled
      split <;> exact .fixed rfl
    · cases doubled
      split <;> exact .fixed rfl
    · cases doubled
  · split
    · rename_i kind symbol
      unfold symbolKind? at symbol
      split at symbol <;> cases symbol <;> exact .fixed rfl
    · split
      · refine .string fun quote => ?_
        rw [String.toList_ofList] at quote
        have passes := List.mem_takeWhile_imp quote
        exact absurd passes (by decide)
      · split
        · rename_i isLetter
          exact wordKind_shaped (List.cons_ne_nil _ _) (takeWhile_all isLetter rest)
        · split
          · rename_i isDigit
            refine .number ?_ ?_
            · rw [String.toList_ofList]
              exact List.cons_ne_nil _ _
            · rw [String.toList_ofList]
              exact takeWhile_all isDigit rest
          · exact .illegal first

theorem Spells.shaped {text : List Char} {spellings : List Spelling} (spells : Spells text spellings) :
    ∀ spelling ∈ spellings, spelling.1 ≠ .endOfInput → Shaped spelling := by
  induction spells with
  | finish => exact List.forall_mem_singleton.mpr fun proper => absurd rfl proper
  | @next _ rest first _ _ _ ih =>
      exact List.forall_mem_cons.mpr ⟨fun _ => lexeme_shaped first rest, ih⟩

theorem scan_shaped {text : String} {token : Token} (member : token ∈ scan text)
    (proper : token.kind ≠ .endOfInput) : Shaped token.spelling :=
  (scan_spells text).shaped _ (List.mem_map_of_mem member) proper

theorem Shaped.literal {kind : Kind} {literal text : String} (shaped : Shaped (kind, literal))
    (fixed : kind.fixed? = some text) : literal = text := by
  cases shaped with
  | fixed spelled => exact Option.some.inj (spelled.symm.trans fixed)
  | name | number | string | illegal => exact nomatch fixed

/-- Characters that go on no token before them, a string apart. -/
def separates (character : Char) : Bool :=
  !isLetter character && !isDigit character && character != '='

def Separated (text : List Char) : Prop := ∀ character ∈ text.head?, separates character = true

theorem Separated.append {text behind : List Char} (separated : Separated text)
    (after : Separated behind) : Separated (text ++ behind) := by
  cases text with
  | nil => exact after
  | cons first rest => exact separated

def Prints (text : List Char) (spellings : List Spelling) : Prop :=
  ∀ behind others, Separated behind → Spells behind others →
    Spells (text ++ behind) (spellings ++ others)

theorem symbol_separates {character : Char} {kind : Kind}
    (isSymbol : symbolKind? character = some kind) : separates character = true := by
  unfold symbolKind? at isSymbol
  split at isSymbol <;> first | rfl | cases isSymbol

theorem Separated.cons {character : Char} (separated : separates character = true)
    (rest : List Char) : Separated (character :: rest) := by
  intro first member
  cases member
  exact separated

theorem Prints.append {text other : List Char} {spellings others : List Spelling}
    (first : Prints text spellings) (second : Prints other others) (apart : Separated other) :
    Prints (text ++ other) (spellings ++ others) := by
  intro behind further separated spells
  rw [List.append_assoc, List.append_assoc]
  exact first _ _ (apart.append separated) (second _ _ separated spells)

theorem Prints.layout {character : Char} {text : List Char} {spellings : List Spelling}
    (blank : isLayout character = true) (prints : Prints text spellings) :
    Prints (character :: text) spellings :=
  fun _ _ separated spells =>
    .of_blank (List.dropWhile_cons_of_pos blank).symm (prints _ _ separated spells)

theorem Prints.nil : Prints [] [] := fun _ _ _ spells => spells

theorem Prints.scan {text : String} {spellings : List Spelling}
    (prints : Prints text.toList spellings) :
    (Token.scan text).map Token.spelling = spellings ++ [(.endOfInput, "")] := by
  have spells := prints [] _ nofun (.finish rfl)
  rw [List.append_nil] at spells
  exact (scan_spells text).unique spells

/-- A token in front of what spells further ones. -/
theorem Spells.cons {first : Char} {rest word : List Char} {kind : Kind} {extent : Nat}
    {spellings : List Spelling} (ink : isLayout first = false)
    (here : lexeme first rest = ⟨kind, word, extent⟩)
    (others : Spells ((first :: rest).drop extent) spellings) :
    Spells (first :: rest) ((kind, String.ofList word) :: spellings) := by
  have begins : (first :: rest).dropWhile isLayout = first :: rest :=
    List.dropWhile_cons_of_neg (by simp [ink])
  have behind : Spells ((first :: rest).drop (lexeme first rest).extent) spellings := by
    rw [here]
    exact others
  have next := Spells.next begins behind
  rw [here] at next
  exact next

/-- A single token that goes no further than its own characters. -/
theorem prints_lexeme {first : Char} {rest : List Char} {kind : Kind} (ink : isLayout first = false)
    (fits : ∀ behind, Separated behind →
      lexeme first (rest ++ behind) = ⟨kind, first :: rest, rest.length + 1⟩) :
    Prints (first :: rest) [(kind, String.ofList (first :: rest))] := by
  intro behind others separated spells
  apply Spells.cons ink (fits behind separated)
  rw [List.drop_succ_cons, List.drop_left]
  exact spells

theorem takeWhile_separated {test : Char → Bool} {word behind : List Char}
    (all : ∀ character ∈ word, test character = true)
    (stops : ∀ character ∈ behind.head?, test character = false) :
    (word ++ behind).takeWhile test = word := by
  rw [List.takeWhile_append_of_pos all]
  cases behind with
  | nil => rw [List.takeWhile_nil, List.append_nil]
  | cons next others =>
      rw [List.takeWhile_cons, stops next rfl]
      exact List.append_nil word

/-- The characters that tokens other than words and numbers begin with, and those between tokens. -/
def marks : List Char := "=!+-*/<>,;:()\x7b\x7d[]\" \t\r\n".toList

theorem unmarked_lexeme {first : Char} {test : Char → Bool} (passes : test first = true)
    (unmarked : marks.any test = false) :
    isLayout first = false ∧ doubledKinds? first = none ∧ symbolKind? first = none ∧
      (first == '"') = false := by
  have never : ∀ mark ∈ marks, first ≠ mark := by
    intro mark member same
    exact List.any_eq_false.mp unmarked mark member (same ▸ passes)
  refine ⟨?_, ?_, ?_, ?_⟩
  · simp [isLayout, never ' ' (by decide), never '\t' (by decide), never '\r' (by decide),
      never '\n' (by decide)]
  · unfold doubledKinds?
    split <;> first | rfl | exact absurd rfl (never _ (by decide))
  · unfold symbolKind?
    split <;> first | rfl | exact absurd rfl (never _ (by decide))
  · exact beq_false_of_ne (never _ (by decide))

theorem separated_stops (test : Char → Bool) {behind : List Char} (separated : Separated behind)
    (others : ∀ character, test character = true → separates character = false) :
    ∀ character ∈ behind.head?, test character = false := by
  intro character member
  by_contra passes
  have clash := others character (Bool.of_not_eq_false passes)
  rw [separated character member] at clash
  cases clash

theorem prints_word {word : List Char} (nonempty : word ≠ [])
    (letters : ∀ letter ∈ word, isLetter letter = true) :
    Prints word [(wordKind word, String.ofList word)] := by
  obtain ⟨first, rest, rfl⟩ := List.exists_cons_of_ne_nil nonempty
  obtain ⟨letter, others⟩ := List.forall_mem_cons.mp letters
  obtain ⟨ink, noDouble, noSymbol, noQuote⟩ := unmarked_lexeme letter rfl
  refine prints_lexeme ink fun behind separated => ?_
  have stops := separated_stops isLetter separated fun character passes => by
    simp [separates, passes]
  have taken := takeWhile_separated others stops
  simp only [lexeme, noDouble, noSymbol, noQuote, letter, taken, List.length_cons]
  rfl

theorem digit_noLetter {character : Char} (digit : isDigit character = true) :
    isLetter character = false := by
  simp only [isDigit, isLetter, Bool.and_eq_true, decide_eq_true_eq, Bool.or_eq_false_iff,
    Bool.and_eq_false_iff, decide_eq_false_iff_not, Char.le_def, UInt32.le_iff_toNat_le] at digit ⊢
  have most : character.val.toNat ≤ 57 := digit.2
  refine ⟨⟨.inl ?_, .inl ?_⟩, beq_false_of_ne fun same => ?_⟩
  · change ¬ 97 ≤ character.val.toNat
    omega
  · change ¬ 65 ≤ character.val.toNat
    omega
  · rw [same] at most
    exact absurd most (by decide)

theorem prints_number {digits : List Char} (nonempty : digits ≠ [])
    (all : ∀ digit ∈ digits, isDigit digit = true) :
    Prints digits [(.integer, String.ofList digits)] := by
  obtain ⟨first, rest, rfl⟩ := List.exists_cons_of_ne_nil nonempty
  obtain ⟨digit, others⟩ := List.forall_mem_cons.mp all
  obtain ⟨ink, noDouble, noSymbol, noQuote⟩ := unmarked_lexeme digit rfl
  have noLetter := digit_noLetter digit
  refine prints_lexeme ink fun behind separated => ?_
  have stops := separated_stops isDigit separated fun character passes => by
    simp [separates, passes]
  have taken := takeWhile_separated others stops
  simp only [lexeme, noDouble, noSymbol, noQuote, noLetter, digit, taken, List.length_cons]
  rfl

/-- A symbol stands for itself whatever comes behind it. -/
theorem Prints.symbol {character : Char} {kind : Kind} {text : List Char} {spellings : List Spelling}
    (isSymbol : symbolKind? character = some kind) (prints : Prints text spellings) :
    Prints (character :: text) ((kind, String.ofList [character]) :: spellings) := by
  intro behind others separated spells
  have noDouble : doubledKinds? character = none := by
    unfold symbolKind? at isSymbol
    split at isSymbol <;> first | rfl | cases isSymbol
  have ink : isLayout character = false := by
    unfold symbolKind? at isSymbol
    split at isSymbol <;> first | rfl | cases isSymbol
  have here : lexeme character (text ++ behind) = ⟨kind, [character], 1⟩ := by
    simp only [lexeme, noDouble, isSymbol]
  exact .cons ink here (prints behind others separated spells)

/-- Nothing but an equals sign goes on an exclamation mark. -/
theorem Prints.bang {first : Char} {rest : List Char} {spellings : List Spelling}
    (noEqual : first ≠ '=') (prints : Prints (first :: rest) spellings) :
    Prints ('!' :: first :: rest) ((.bang, "!") :: spellings) := by
  intro behind others separated spells
  have here : lexeme '!' (first :: rest ++ behind) = ⟨.bang, ['!'], 1⟩ := by
    simp [lexeme, doubledKinds?, noEqual]
  exact .cons rfl here (prints behind others separated spells)

theorem prints_doubled {character : Char} {single double : Kind}
    (doubled : doubledKinds? character = some (single, double)) :
    Prints [character] [(single, String.ofList [character])] ∧
      Prints [character, '='] [(double, String.ofList [character, '='])] := by
  have ink : isLayout character = false := by
    unfold doubledKinds? at doubled
    split at doubled <;> first | rfl | cases doubled
  constructor
  · refine prints_lexeme ink fun behind separated => ?_
    have noEqual : (behind.head? == some '=') = false := by
      cases behind with
      | nil => rfl
      | cons next others =>
          have apart := separated next rfl
          simp only [separates, Bool.and_eq_true, bne_iff_ne] at apart
          simpa using apart.2
    simp [lexeme, doubled, noEqual]
  · refine prints_lexeme ink fun behind _ => ?_
    simp [lexeme, doubled]

/-- What has only one spelling is printed so. -/
theorem prints_fixed {kind : Kind} {text : String} (fixed : kind.fixed? = some text) :
    Prints text.toList [(kind, text)] := by
  cases kind with
  | assign | bang =>
      cases fixed
      exact (prints_doubled rfl).1
  | equal | unequal =>
      cases fixed
      exact (prints_doubled rfl).2
  | letKeyword | fnKeyword | trueKeyword | falseKeyword | ifKeyword | elseKeyword | returnKeyword =>
      cases fixed
      exact prints_word (by decide) (List.all_eq_true.mp rfl)
  | plus | minus | star | slash | greater | less | comma | semicolon | colon | leftParen | rightParen
  | leftBrace | rightBrace | leftBracket | rightBracket =>
      cases fixed
      exact .symbol rfl .nil
  | _ => cases fixed

/-- Every token but a string prints itself. -/
theorem Shaped.prints {kind : Kind} {literal : String} (shaped : Shaped (kind, literal))
    (noString : kind ≠ .string) (noIllegal : kind ≠ .illegal) :
    Prints literal.toList [(kind, literal)] := by
  cases shaped with
  | fixed spelled => exact prints_fixed spelled
  | name nonempty letters noKeyword =>
      have prints := prints_word nonempty letters
      rw [noKeyword, String.ofList_toList] at prints
      exact prints
  | number nonempty all =>
      have prints := prints_number nonempty all
      rw [String.ofList_toList] at prints
      exact prints
  | string => exact absurd rfl noString
  | illegal => exact absurd rfl noIllegal

theorem class_opens {test : Char → Bool} {characters : List Char} (nonempty : characters ≠ [])
    (all : ∀ character ∈ characters, test character = true) (noEqual : test '=' = false) :
    ∃ first rest, characters = first :: rest ∧ first ≠ '=' := by
  obtain ⟨first, rest, rfl⟩ := List.exists_cons_of_ne_nil nonempty
  refine ⟨first, rest, rfl, fun isEqual => ?_⟩
  have passes := all first List.mem_cons_self
  rw [isEqual, noEqual] at passes
  cases passes

/-- The kinds of the expressions that are a single token, strings apart. -/
def atoms : List Kind := [.identifier, .integer, .trueKeyword, .falseKeyword]

theorem Shaped.opens {kind : Kind} {literal : String} (shaped : Shaped (kind, literal))
    (atom : kind ∈ atoms) : ∃ first rest, literal.toList = first :: rest ∧ first ≠ '=' := by
  cases shaped with
  | name nonempty letters _ => exact class_opens nonempty letters rfl
  | number nonempty all => exact class_opens nonempty all rfl
  | fixed spelled =>
      simp only [atoms, List.mem_cons, List.not_mem_nil, or_false] at atom
      rcases atom with rfl | rfl | rfl | rfl <;> cases spelled <;> exact ⟨_, _, rfl, by decide⟩
  | string | illegal => exact absurd atom (by decide)

end MonkeyLang.Token
