import Mathlib.Data.List.TakeDrop
import MonkeyLang.Proofs.Syntax.Similar
import MonkeyLang.Token.Scan

namespace MonkeyLang

/-! # Spelling

What tokens a text has, apart from their places, depends on nothing but its characters.  A line break
ends every token but a string without its closing quote.
-/

namespace Token

abbrev Spelling := Kind × String

def Lexeme.spelling (lexeme : Lexeme) : Spelling := (lexeme.kind, String.ofList lexeme.literal)

/-- The spellings of the tokens of a text, the end token among them. -/
inductive Spells : List Char → List Spelling → Prop
  | finish {text : List Char} (blank : text.dropWhile isLayout = []) :
      Spells text [(.endOfInput, "")]
  | next {text rest : List Char} {first : Char} {spellings : List Spelling}
      (begins : text.dropWhile isLayout = first :: rest)
      (others : Spells ((first :: rest).drop (lexeme first rest).extent) spellings) :
      Spells text ((lexeme first rest).spelling :: spellings)

theorem Spells.unique {text : List Char} {spellings others : List Spelling}
    (spells : Spells text spellings) (otherSpells : Spells text others) : spellings = others := by
  induction spells generalizing others with
  | finish blank =>
      cases otherSpells with
      | finish => rfl
      | next begins => exact nomatch blank.symm.trans begins
  | next begins _ ih =>
      cases otherSpells with
      | finish blank => exact nomatch blank.symm.trans begins
      | next otherBegins others =>
          cases begins.symm.trans otherBegins
          rw [ih others]

theorem wordKind_ne_end (word : List Char) : wordKind word ≠ .endOfInput := by
  unfold wordKind
  split <;> nofun

theorem symbolKind_ne_end {character : Char} {kind : Kind} (found : symbolKind? character = some kind) :
    kind ≠ .endOfInput := by
  unfold symbolKind? at found
  split at found <;> cases found <;> nofun

theorem doubledKinds_ne_end {character : Char} {single double : Kind}
    (found : doubledKinds? character = some (single, double)) :
    single ≠ .endOfInput ∧ double ≠ .endOfInput := by
  unfold doubledKinds? at found
  split at found <;> cases found <;> exact ⟨nofun, nofun⟩

theorem lexeme_kind_ne_end (first : Char) (rest : List Char) :
    (lexeme first rest).kind ≠ .endOfInput := by
  unfold lexeme
  split
  · rename_i single double found
    obtain ⟨one, other⟩ := doubledKinds_ne_end found
    split
    · exact other
    · exact one
  · split
    · rename_i kind found
      exact symbolKind_ne_end found
    · split
      · nofun
      · split
        · exact wordKind_ne_end _
        · split <;> nofun

theorem takeWhile_le (test : Char → Bool) (text : List Char) :
    (text.takeWhile test).length ≤ text.length :=
  (List.takeWhile_prefix test).length_le

/-- A lexeme takes at least one character, and no more than there are. -/
theorem lexeme_extent (first : Char) (rest : List Char) :
    0 < (lexeme first rest).extent ∧ (lexeme first rest).extent ≤ (first :: rest).length := by
  have quoted := takeWhile_le (· != '"') rest
  have letters := takeWhile_le isLetter rest
  have digits := takeWhile_le isDigit rest
  unfold lexeme
  rw [List.length_cons]
  split
  · split
    · rename_i isEqual
      have some : 0 < rest.length := by
        cases rest with
        | nil => simp at isEqual
        | cons => exact Nat.succ_pos _
      dsimp only
      omega
    · dsimp only
      omega
  · split
    · dsimp only
      omega
    · split
      · dsimp only
        split <;> omega
      · split
        · dsimp only
          rw [List.length_cons]
          omega
        · split
          · dsimp only
            rw [List.length_cons]
            omega
          · dsimp only
            omega

theorem takeWhile_newline {test : Char → Bool} (newline : test '\n' = false) (text more : List Char) :
    (text ++ '\n' :: more).takeWhile test = text.takeWhile test := by
  induction text with
  | nil => simp [newline]
  | cons first rest ih => simp only [List.cons_append, List.takeWhile_cons, ih]

/-- A newline ends every lexeme but a string without its closing quote. -/
theorem lexeme_newline {first : Char} {rest : List Char} (more : List Char)
    (closed : (lexeme first rest).kind = .string →
      (lexeme first rest).extent < (first :: rest).length) :
    lexeme first (rest ++ '\n' :: more) = lexeme first rest := by
  unfold lexeme at closed ⊢
  split
  · rename_i single double found
    have head : ((rest ++ '\n' :: more).head? == some '=') = (rest.head? == some '=') := by
      cases rest <;> rfl
    rw [head]
  · rename_i noDouble
    simp only [noDouble] at closed
    split
    · rfl
    · rename_i noSymbol
      simp only [noSymbol] at closed
      split
      · rename_i isQuote
        rw [if_pos isQuote] at closed
        have short := closed rfl
        have inside : (rest.takeWhile (· != '"')).length < rest.length := by
          have bound := takeWhile_le (· != '"') rest
          simp only [List.length_cons] at short
          split at short <;> omega
        have same : (rest ++ '\n' :: more).takeWhile (· != '"') = rest.takeWhile (· != '"') := by
          rw [List.takeWhile_append, if_neg (Nat.ne_of_lt inside)]
        have longer : (rest.takeWhile (· != '"')).length < (rest ++ '\n' :: more).length := by
          rw [List.length_append]
          exact Nat.lt_add_right _ inside
        simp only [same, if_pos inside, if_pos longer]
      · rw [takeWhile_newline rfl, takeWhile_newline rfl]

theorem Spells.of_blank {text other : List Char} {spellings : List Spelling}
    (same : text.dropWhile isLayout = other.dropWhile isLayout) (spells : Spells text spellings) :
    Spells other spellings := by
  cases spells with
  | finish blank => exact .finish (same ▸ blank)
  | next begins others => exact .next (same ▸ begins) others

/-- All spellings but the last are those of proper tokens, and the last one is that of an end token. -/
theorem Spells.split {text : List Char} {spellings : List Spelling} (spells : Spells text spellings) :
    ∃ proper, spellings = proper ++ [(.endOfInput, "")] ∧
      ∀ spelling ∈ proper, spelling.1 ≠ .endOfInput := by
  induction spells with
  | finish => exact ⟨[], rfl, List.forall_mem_nil _⟩
  | @next text rest first _ _ _ ih =>
      obtain ⟨proper, rfl, each⟩ := ih
      refine ⟨_ :: proper, rfl, List.forall_mem_cons.mpr ⟨?_, each⟩⟩
      exact lexeme_kind_ne_end first rest

end Token

namespace Scanner

open Token (Spells Spelling isLayout lexeme)

theorem skipLayout_rest (scanner : Scanner) :
    scanner.skipLayout.rest = scanner.rest.dropWhile isLayout := by
  have split := List.takeWhile_append_dropWhile (p := isLayout) (l := scanner.rest)
  calc
    scanner.skipLayout.rest = scanner.rest.drop (scanner.rest.takeWhile isLayout).length := rfl
    _ = (scanner.rest.takeWhile isLayout ++ scanner.rest.dropWhile isLayout).drop
          (scanner.rest.takeWhile isLayout).length := by rw [split]
    _ = scanner.rest.dropWhile isLayout := List.drop_left

variable {scanner last : Scanner} {tokens : List Token}

theorem next_over (blank : scanner.rest.dropWhile isLayout = []) :
    scanner.next.1.spelling = (.endOfInput, "") := by
  unfold next
  dsimp only
  rw [skipLayout_rest, blank]
  rfl

theorem next_some {first : Char} {rest : List Char}
    (begins : scanner.rest.dropWhile isLayout = first :: rest) :
    scanner.next.1.spelling = (lexeme first rest).spelling ∧
      scanner.next.2.rest = (first :: rest).drop (lexeme first rest).extent := by
  unfold next
  dsimp only
  rw [skipLayout_rest, begins]
  refine ⟨rfl, ?_⟩
  change scanner.skipLayout.rest.drop _ = _
  rw [skipLayout_rest, begins]

theorem next_proper {first : Char} {rest : List Char}
    (begins : scanner.rest.dropWhile isLayout = first :: rest) :
    scanner.next.1.kind ≠ .endOfInput := by
  have kind : scanner.next.1.kind = (lexeme first rest).kind :=
    congrArg Prod.fst (next_some begins).1
  rw [kind]
  exact Token.lexeme_kind_ne_end first rest

theorem next_shorter {first : Char} {rest : List Char}
    (begins : scanner.rest.dropWhile isLayout = first :: rest) :
    scanner.next.2.rest.length < scanner.rest.length := by
  have bound := (List.dropWhile_suffix isLayout (l := scanner.rest)).length_le
  have taken := (Token.lexeme_extent first rest).1
  rw [begins, List.length_cons] at bound
  rw [(next_some begins).2, List.length_drop, List.length_cons]
  omega

/-- A scanner gives some tokens one by one, up to an end token, and is left behind them. -/
inductive Gives : Scanner → List Token → Scanner → Prop
  | finish {scanner : Scanner} (blank : scanner.rest.dropWhile isLayout = []) :
      Gives scanner [scanner.next.1] scanner.next.2
  | next {scanner last : Scanner} {first : Char} {rest : List Char} {tokens : List Token}
      (begins : scanner.rest.dropWhile isLayout = first :: rest)
      (others : Gives scanner.next.2 tokens last) : Gives scanner (scanner.next.1 :: tokens) last

theorem gives (scanner : Scanner) : ∃ tokens last, Gives scanner tokens last := by
  induction length : scanner.rest.length using Nat.strongRecOn generalizing scanner with
  | _ _ ih =>
      cases begins : scanner.rest.dropWhile isLayout with
      | nil => exact ⟨_, _, .finish begins⟩
      | cons first rest =>
          obtain ⟨tokens, last, others⟩ := ih _ (length ▸ next_shorter begins) scanner.next.2 rfl
          exact ⟨_, last, .next begins others⟩

namespace Gives

theorem collect (gives : Gives scanner tokens last) {count : Nat}
    (enough : scanner.rest.length ≤ count) (found : List Token) :
    Scanner.collect count found scanner = (found.reverse ++ tokens, last) := by
  induction gives generalizing count found with
  | @finish scanner blank =>
      have isEnd : scanner.next.1.kind = .endOfInput := congrArg Prod.fst (next_over blank)
      cases count with
      | zero => rw [Scanner.collect, List.reverse_cons]
      | succ count =>
          rw [Scanner.collect]
          dsimp only
          rw [if_pos isEnd, List.reverse_cons]
  | @next scanner last first rest tokens begins others ih =>
      have shorter := Nat.lt_of_lt_of_le (next_shorter begins) enough
      cases count with
      | zero => exact absurd shorter (Nat.not_lt_zero _)
      | succ count =>
          rw [Scanner.collect]
          dsimp only
          rw [if_neg (next_proper begins), ih (Nat.le_of_lt_succ shorter), List.reverse_cons,
            List.append_assoc, List.singleton_append]

theorem scan {text : String} (gives : Gives (ofText text.toList) tokens last) :
    Token.scan text = tokens :=
  congrArg Prod.fst (gives.collect (Nat.le_refl _) [])

theorem spells (gives : Gives scanner tokens last) :
    Spells scanner.rest (tokens.map Token.spelling) := by
  induction gives with
  | finish blank =>
      rw [List.map_singleton, next_over blank]
      exact .finish blank
  | next begins _ ih =>
      obtain ⟨spelling, behind⟩ := next_some begins
      rw [List.map_cons, spelling]
      exact .next begins (behind ▸ ih)

end Gives

theorem scan_gives (text : String) :
    ∃ last, Gives (ofText text.toList) (Token.scan text) last := by
  obtain ⟨tokens, last, given⟩ := gives (ofText text.toList)
  exact ⟨last, given.scan ▸ given⟩

end Scanner

namespace Token

theorem scan_spells (text : String) : Spells text.toList ((scan text).map Token.spelling) := by
  obtain ⟨_, gives⟩ := Scanner.scan_gives text
  exact gives.spells

/-- Only the last token of a text is an end token. -/
theorem scan_split (text : String) :
    ∃ proper finish, scan text = proper ++ [finish] ∧ finish.kind = .endOfInput ∧
      ∀ token ∈ proper, token.kind ≠ .endOfInput := by
  obtain ⟨proper, listed, each⟩ := (scan_spells text).split
  obtain ⟨tokens, ends, split, tokensSame, endsSame⟩ := List.map_eq_append_iff.mp listed
  obtain ⟨finish, rfl, isEnd⟩ := List.map_eq_singleton_iff.mp endsSame
  refine ⟨tokens, finish, split, congrArg Prod.fst isEnd, fun token member => ?_⟩
  exact each token.spelling (tokensSame ▸ List.mem_map_of_mem member)

end Token

end MonkeyLang
