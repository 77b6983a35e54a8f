import MonkeyLang.Proofs.Token.Tiling

namespace MonkeyLang.Token

/-! # Tokens written out again

The shapes of tokens are told here without the scanner.  Tokens of these shapes, written out with layout
between neighbours, are the tokens of that text, and the tokens of every text have them.
-/

/-- The tokens that begin with a character of their own class, and what they are written as. -/
inductive Regular : Spelling → List Char → Prop
  | fixed {kind : Kind} {text : String} (spelled : kind.fixed? = some text) :
      Regular (kind, text) text.toList
  | name {word : String} (nonempty : word.toList ≠ [])
      (letters : ∀ letter ∈ word.toList, isLetter letter = true)
      (noKeyword : ∀ kind : Kind, kind.fixed? ≠ some word) : Regular (.identifier, word) word.toList
  | number {digits : String} (nonempty : digits.toList ≠ [])
      (all : ∀ digit ∈ digits.toList, isDigit digit = true) :
      Regular (.integer, digits) digits.toList
  | string {inner : String} (noQuote : '"' ∉ inner.toList) :
      Regular (.string, inner) ('"' :: (inner.toList ++ ['"']))

/-- What a token is written as.  A character that begins no other token is one by itself. -/
inductive WrittenAs : Spelling → List Char → Prop
  | regular {spelling : Spelling} {text : List Char} (regular : Regular spelling text) :
      WrittenAs spelling text
  | illegal {character : Char} (ink : isLayout character = false)
      (alone : ∀ spelling text, Regular spelling text → text.head? ≠ some character) :
      WrittenAs (.illegal, String.ofList [character]) [character]

/-- Tokens written one after another, with some layout between neighbours. -/
inductive LaidOut : List Spelling → List Char → Prop
  | none : LaidOut [] []
  | last {spelling : Spelling} {text : List Char} (written : WrittenAs spelling text) :
      LaidOut [spelling] text
  | next {spelling follower : Spelling} {spellings : List Spelling} {text gap behind : List Char}
      (written : WrittenAs spelling text) (nonempty : gap ≠ [])
      (layout : ∀ character ∈ gap, isLayout character = true)
      (others : LaidOut (follower :: spellings) behind) :
      LaidOut (spelling :: follower :: spellings) (text ++ (gap ++ behind))

theorem fixed_word {kind : Kind} {word : String} (fixed : kind.fixed? = some word)
    (letters : ∀ letter ∈ word.toList, isLetter letter = true) : wordKind word.toList = kind := by
  have all : word.toList.all isLetter = true := List.all_eq_true.mpr letters
  cases kind <;> cases fixed <;> first | rfl | exact absurd all (by decide)

theorem wordKind_cases (word : String) :
    wordKind word.toList = .identifier ∨ (wordKind word.toList).fixed? = some word := by
  unfold wordKind
  rw [String.ofList_toList]
  split <;> first | exact .inl rfl | exact .inr rfl

/-- A word is a name if no keyword is written so. -/
theorem word_regular {word : String} (nonempty : word.toList ≠ [])
    (letters : ∀ letter ∈ word.toList, isLetter letter = true) :
    Regular (wordKind word.toList, word) word.toList := by
  rcases wordKind_cases word with isName | fixed
  · rw [isName]
    refine .name nonempty letters fun kind fixed => ?_
    cases isName.symm.trans (fixed_word fixed letters)
    cases fixed
  · exact .fixed fixed

theorem symbol_fixed {character : Char} {kind : Kind} (isSymbol : symbolKind? character = some kind) :
    kind.fixed? = some (String.ofList [character]) := by
  unfold symbolKind? at isSymbol
  split at isSymbol <;> cases isSymbol <;> rfl

theorem doubled_fixed {character : Char} {single double : Kind}
    (doubled : doubledKinds? character = some (single, double)) :
    single.fixed? = some (String.ofList [character]) ∧
      double.fixed? = some (String.ofList [character, '=']) := by
  unfold doubledKinds? at doubled
  split at doubled <;> cases doubled <;> exact ⟨rfl, rfl⟩

theorem Regular.opens {spelling : Spelling} {text : List Char} (regular : Regular spelling text) :
    ∃ first rest, text = first :: rest ∧ isStray first = false := by
  cases regular with
  | @fixed kind _ spelled => cases kind <;> cases spelled <;> exact ⟨_, _, rfl, rfl⟩
  | name nonempty letters _ =>
      obtain ⟨first, rest, split⟩ := List.exists_cons_of_ne_nil nonempty
      have letter : isLetter first = true := letters first (split ▸ List.mem_cons_self)
      exact ⟨first, rest, split, by simp [isStray, letter]⟩
  | number nonempty all =>
      obtain ⟨first, rest, split⟩ := List.exists_cons_of_ne_nil nonempty
      have digit : isDigit first = true := all first (split ▸ List.mem_cons_self)
      exact ⟨first, rest, split, by simp [isStray, digit]⟩
  | string _ => exact ⟨_, _, rfl, rfl⟩

theorem regular_of_not_stray {character : Char} (proper : isStray character = false) :
    ∃ spelling text, Regular spelling text ∧ text.head? = some character := by
  have head : (String.ofList [character]).toList.head? = some character := by
    rw [String.toList_ofList, List.head?_cons]
  have nonempty : (String.ofList [character]).toList ≠ [] := by
    rw [String.toList_ofList]
    exact List.cons_ne_nil _ _
  have only : ∀ {test : Char → Bool}, test character = true →
      ∀ other ∈ (String.ofList [character]).toList, test other = true := by
    intro test passes
    rw [String.toList_ofList]
    exact List.forall_mem_singleton.mpr passes
  cases doubled : doubledKinds? character with
  | some kinds => exact ⟨_, _, .fixed (doubled_fixed doubled).1, head⟩
  | none =>
      cases symbol : symbolKind? character with
      | some kind => exact ⟨_, _, .fixed (symbol_fixed symbol), head⟩
      | none =>
          by_cases letter : isLetter character = true
          · exact ⟨_, _, word_regular nonempty (only letter), head⟩
          by_cases digit : isDigit character = true
          · exact ⟨_, _, .number nonempty (only digit), head⟩
          have isQuote : character = '"' := by
            simpa [isStray, doubled, symbol, letter, digit] using proper
          exact ⟨_, _, @Regular.string "" (by decide), congrArg some isQuote.symm⟩

/-- The stray characters are those that no other token begins with. -/
theorem isStray_iff {character : Char} :
    isStray character = true ↔
      ∀ spelling text, Regular spelling text → text.head? ≠ some character := by
  constructor
  · intro stray spelling text regular begins
    obtain ⟨first, rest, rfl, proper⟩ := regular.opens
    cases begins
    exact absurd stray (Bool.eq_false_iff.mp proper)
  · intro alone
    by_contra proper
    obtain ⟨spelling, text, regular, begins⟩ :=
      regular_of_not_stray ((Bool.not_eq_true _).mp proper)
    exact alone spelling text regular begins

theorem prints_string {inner : String} (noQuote : '"' ∉ inner.toList) :
    Prints ('"' :: (inner.toList ++ ['"'])) [(.string, inner)] := by
  intro behind others _ spells
  have taken : (inner.toList ++ '"' :: behind).takeWhile (· != '"') = inner.toList := by
    refine takeWhile_separated (fun character member => ?_) fun next isNext => ?_
    · exact bne_iff_ne.mpr fun isQuote => noQuote (isQuote ▸ member)
    · cases isNext
      rfl
  have here : lexeme '"' (inner.toList ++ '"' :: behind) =
      ⟨.string, inner.toList, inner.toList.length + 2⟩ := by
    simp [lexeme, doubledKinds?, symbolKind?, taken]
    omega
  have passed : ('"' :: (inner.toList ++ '"' :: behind)).drop (inner.toList.length + 2) = behind := by
    simp
  have found := Spells.cons rfl here (passed.symm ▸ spells)
  rw [String.ofList_toList] at found
  simpa using found

theorem prints_stray {character : Char} (ink : isLayout character = false)
    (stray : isStray character = true) :
    Prints [character] [(.illegal, String.ofList [character])] := by
  refine prints_lexeme ink fun behind _ => ?_
  simp only [isStray, Bool.and_eq_true, Option.isNone_iff_eq_none, Bool.not_eq_true', bne_iff_ne] at stray
  obtain ⟨⟨⟨⟨noDouble, noSymbol⟩, noQuote⟩, noLetter⟩, noDigit⟩ := stray
  simp [lexeme, noDouble, noSymbol, noQuote, noLetter, noDigit]

theorem WrittenAs.prints {spelling : Spelling} {text : List Char} (written : WrittenAs spelling text) :
    Prints text [spelling] := by
  cases written with
  | illegal ink alone => exact prints_stray ink (isStray_iff.mpr alone)
  | regular regular =>
      cases regular with
      | fixed spelled => exact prints_fixed spelled
      | @name word nonempty letters noKeyword =>
          have prints := prints_word nonempty letters
          rwa [(wordKind_cases word).resolve_right (noKeyword _), String.ofList_toList] at prints
      | number nonempty all =>
          have prints := prints_number nonempty all
          rwa [String.ofList_toList] at prints
      | string noQuote => exact prints_string noQuote

theorem layout_separates {character : Char} (layout : isLayout character = true) :
    separates character = true := by
  simp only [isLayout, Bool.or_eq_true, beq_iff_eq] at layout
  rcases layout with ((rfl | rfl) | rfl) | rfl <;> rfl

theorem Prints.gap {gap text : List Char} {spellings : List Spelling}
    (layout : ∀ character ∈ gap, isLayout character = true) (prints : Prints text spellings) :
    Prints (gap ++ text) spellings := by
  induction gap with
  | nil => exact prints
  | cons blank gap ih =>
      obtain ⟨here, others⟩ := List.forall_mem_cons.mp layout
      exact .layout here (ih others)

theorem LaidOut.prints {spellings : List Spelling} {text : List Char} (laid : LaidOut spellings text) :
    Prints text spellings := by
  induction laid with
  | none => exact .nil
  | last written => exact written.prints
  | next written nonempty layout _ ih =>
      refine written.prints.append (ih.gap layout) ?_
      obtain ⟨blank, gap, rfl⟩ := List.exists_cons_of_ne_nil nonempty
      exact .cons (layout_separates (layout blank List.mem_cons_self)) _

theorem Shaped.regular {spelling : Spelling} (shaped : Shaped spelling)
    (noIllegal : spelling.1 ≠ .illegal) : ∃ text, Regular spelling text := by
  cases shaped with
  | fixed spelled => exact ⟨_, .fixed spelled⟩
  | name nonempty letters isName =>
      have regular := word_regular nonempty letters
      rw [isName] at regular
      exact ⟨_, regular⟩
  | number nonempty all => exact ⟨_, .number nonempty all⟩
  | string noQuote => exact ⟨_, .string noQuote⟩
  | illegal _ => exact absurd rfl noIllegal

theorem lexeme_written {first : Char} (ink : isLayout first = false) (rest : List Char) :
    ∃ text, WrittenAs (lexeme first rest).spelling text := by
  obtain ⟨span, behind, split, _, covers⟩ := lexeme_opens first rest
  by_cases isIllegal : (lexeme first rest).kind = .illegal
  · obtain ⟨character, rfl, stray⟩ := covers.illegal isIllegal
    obtain rfl : first = character := (List.cons.inj split).1
    have literal : (lexeme first rest).literal = [first] := covers.spelled (by rw [isIllegal]; nofun)
    rw [Lexeme.spelling, isIllegal, literal]
    exact ⟨_, .illegal ink (isStray_iff.mp stray)⟩
  · obtain ⟨text, regular⟩ := covers.shaped.regular isIllegal
    exact ⟨text, .regular regular⟩

theorem Spells.written {text : List Char} {spellings : List Spelling} (spells : Spells text spellings) :
    ∀ spelling ∈ spellings, spelling.1 ≠ .endOfInput → ∃ written, WrittenAs spelling written := by
  induction spells with
  | finish => exact List.forall_mem_singleton.mpr fun proper => absurd rfl proper
  | @next text rest first _ begins _ ih =>
      have ink : isLayout first = false := by
        have head := List.head?_dropWhile_not isLayout text
        rw [begins] at head
        simpa using head
      exact List.forall_mem_cons.mpr ⟨fun _ => lexeme_written ink rest, ih⟩

theorem exists_laidOut {spellings : List Spelling}
    (each : ∀ spelling ∈ spellings, ∃ written, WrittenAs spelling written) :
    ∃ text, LaidOut spellings text := by
  induction spellings with
  | nil => exact ⟨[], .none⟩
  | cons spelling spellings ih =>
      obtain ⟨⟨written, isWritten⟩, others⟩ := List.forall_mem_cons.mp each
      obtain ⟨behind, laid⟩ := ih others
      cases spellings with
      | nil => exact ⟨written, .last isWritten⟩
      | cons follower spellings =>
          exact ⟨_, .next isWritten (List.cons_ne_nil ' ' []) (List.forall_mem_singleton.mpr rfl) laid⟩

/-- Tokens of the shapes that a scanner finds, written out with any layout between neighbours, are the
tokens of the text that this gives.  The tokens of every text have such a shape, so they can be written
out again, and in whatever way that is done it changes no kind and no literal. -/
theorem scan_inverts_writing :
    (∀ (spellings : List Spelling) (text : String), LaidOut spellings text.toList →
      (scan text).map Token.spelling = spellings ++ [(.endOfInput, "")]) ∧
    (∀ (text : String), ∀ token ∈ scan text, token.kind ≠ .endOfInput →
      ∃ written, WrittenAs token.spelling written) ∧
    ∀ text : String,
      (∃ again : String, LaidOut ((scan text).dropLast.map Token.spelling) again.toList) ∧
      ∀ again : String, LaidOut ((scan text).dropLast.map Token.spelling) again.toList →
        (scan again).map Token.spelling = (scan text).map Token.spelling := by
  have written (text : String) : ∀ token ∈ scan text, token.kind ≠ .endOfInput →
      ∃ written, WrittenAs token.spelling written := fun token member =>
    (scan_spells text).written _ (List.mem_map_of_mem member)
  refine ⟨fun spellings text laid => laid.prints.scan, written, fun text => ?_⟩
  obtain ⟨proper, whole, each⟩ := (scan_spells text).split
  have all : (scan text).dropLast.map Token.spelling = proper := by
    rw [List.map_dropLast, whole, List.dropLast_concat]
  rw [all, whole]
  refine ⟨?_, fun again laid => laid.prints.scan⟩
  obtain ⟨again, laid⟩ : ∃ again, LaidOut proper again := exists_laidOut fun spelling member =>
    (scan_spells text).written spelling (by simp [whole, member]) (each spelling member)
  refine ⟨String.ofList again, ?_⟩
  rwa [String.toList_ofList]

theorem scan_inverts_writing_stray :
    LaidOut [(.string, "a == \nb"), (.bang, "!"), (.assign, "="), (.illegal, "@"), (.identifier, "lets")]
        "\"a == \nb\" !\t= @\n\nlets".toList ∧
      (scan "\"a == \nb\" !\t= @\n\nlets").map Token.spelling =
        [(.string, "a == \nb"), (.bang, "!"), (.assign, "="), (.illegal, "@"), (.identifier, "lets"),
          (.endOfInput, "")] := by
  have name : Regular (.identifier, "lets") "lets".toList :=
    @word_regular "lets" (by decide) (List.all_eq_true.mp rfl)
  have stray : WrittenAs (.illegal, "@") ['@'] := .illegal rfl (isStray_iff.mp rfl)
  have symbols : LaidOut [(.bang, "!"), (.assign, "="), (.illegal, "@"), (.identifier, "lets")]
      "!\t= @\n\nlets".toList :=
    .next (.regular (.fixed rfl)) (List.cons_ne_nil '\t' []) (List.all_eq_true.mp rfl)
      (.next (.regular (.fixed rfl)) (List.cons_ne_nil ' ' []) (List.all_eq_true.mp rfl)
        (.next stray (List.cons_ne_nil '\n' ['\n']) (List.all_eq_true.mp rfl)
          (.last (.regular name))))
  have laid : LaidOut
      [(.string, "a == \nb"), (.bang, "!"), (.assign, "="), (.illegal, "@"), (.identifier, "lets")]
      "\"a == \nb\" !\t= @\n\nlets".toList :=
    .next (.regular (@Regular.string "a == \nb" (by decide))) (List.cons_ne_nil ' ' [])
      (List.all_eq_true.mp rfl) symbols
  exact ⟨laid, scan_inverts_writing.1 _ _ laid⟩

end MonkeyLang.Token
