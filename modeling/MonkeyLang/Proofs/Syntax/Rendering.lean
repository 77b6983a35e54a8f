import MonkeyLang.Proofs.Syntax.Leading
import MonkeyLang.Proofs.Token.Printing
import MonkeyLang.Text.Separated

namespace MonkeyLang

open Grammar (Tokens kindOf)
open Token (Prints Separated Spelling)

/-! # Texts and the forms that their tokens have

A text is rendered as a form if its tokens have the form, whatever tokens stand behind them.
-/

namespace Token

/-- A single token of the given spelling. -/
def Single (kind : Kind) (literal : String) (input rest : Tokens) : Prop :=
  ∃ token : Token, input = token :: rest ∧ token.kind = kind ∧ token.literal = literal

/-- The first token of a text. -/
def opening (text : String) : Token := (scan text).headD (Parse.endingOf [])

end Token

open Token (Single)

/-- One form behind another. -/
def Then (first second : Tokens → Tokens → Prop) (input rest : Tokens) : Prop :=
  ∃ between, first input between ∧ second between rest

def Rendered (text : List Char) (form : Tokens → Tokens → Prop) : Prop :=
  ∃ spellings, Prints text spellings ∧
    ∀ own rest : Tokens, own.map Token.spelling = spellings → form (own ++ rest) rest

namespace Rendered

variable {text other : List Char} {form second : Tokens → Tokens → Prop}

theorem imp (rendered : Rendered text form) (wider : ∀ input rest, form input rest → second input rest) :
    Rendered text second := by
  obtain ⟨spellings, prints, holds⟩ := rendered
  exact ⟨spellings, prints, fun own rest same => wider _ _ (holds own rest same)⟩

theorem nil : Rendered [] fun input rest => input = rest := by
  refine ⟨[], .nil, fun own rest same => ?_⟩
  rw [List.map_eq_nil_iff.mp same, List.nil_append]

theorem append (rendered : Rendered text form) (behind : Rendered other second)
    (apart : Separated other) : Rendered (text ++ other) (Then form second) := by
  obtain ⟨spellings, prints, holds⟩ := rendered
  obtain ⟨others, otherPrints, otherHolds⟩ := behind
  refine ⟨spellings ++ others, prints.append otherPrints apart, fun own rest same => ?_⟩
  obtain ⟨before, after, rfl, sameBefore, sameAfter⟩ := List.map_eq_append_iff.mp same
  refine ⟨after ++ rest, ?_, otherHolds after rest sameAfter⟩
  rw [List.append_assoc]
  exact holds before _ sameBefore

theorem layout {character : Char} (blank : Token.isLayout character = true)
    (rendered : Rendered text form) : Rendered (character :: text) form := by
  obtain ⟨spellings, prints, holds⟩ := rendered
  exact ⟨spellings, prints.layout blank, holds⟩

theorem spaced (rendered : Rendered text form) : Rendered (' ' :: text) form := rendered.layout rfl

theorem single {kind : Token.Kind} {literal : String} (prints : Prints text [(kind, literal)]) :
    Rendered text (Single kind literal) := by
  refine ⟨_, prints, fun own rest same => ?_⟩
  obtain ⟨token, rfl, isToken⟩ := List.map_eq_singleton_iff.mp same
  exact ⟨token, rfl, congrArg Prod.fst isToken, congrArg Prod.snd isToken⟩

/-- A token in front of a form. -/
theorem cons (first : List Char) {kind : Token.Kind} {literal : String}
    (prints : ∀ {spellings}, Prints text spellings →
      Prints (first ++ text) ((kind, literal) :: spellings))
    (rendered : Rendered text form) : Rendered (first ++ text) (Then (Single kind literal) form) := by
  obtain ⟨spellings, printed, holds⟩ := rendered
  refine ⟨_, prints printed, fun own rest same => ?_⟩
  obtain ⟨token, others, rfl, isToken, sameOthers⟩ := List.map_eq_cons_iff.mp same
  exact ⟨others ++ rest, ⟨token, rfl, congrArg Prod.fst isToken, congrArg Prod.snd isToken⟩,
    holds others rest sameOthers⟩

theorem symbol (character : Char) {kind : Token.Kind}
    (isSymbol : Token.symbolKind? character = some kind) (rendered : Rendered text form) :
    Rendered (character :: text) (Then (Single kind (String.ofList [character])) form) :=
  rendered.cons [character] (Prints.symbol isSymbol)

theorem closing (character : Char) {kind : Token.Kind}
    (isSymbol : Token.symbolKind? character = some kind) :
    Rendered [character] (Single kind (String.ofList [character])) :=
  .single (.symbol isSymbol .nil)

/-- The tokens of the text itself, with the end token behind them. -/
theorem scan {text : String} (rendered : Rendered text.toList form) :
    ∃ tokens finish, Token.scan text = tokens ++ [finish] ∧ finish.kind = .endOfInput ∧
      (∀ token ∈ tokens, token.kind ≠ .endOfInput) ∧ form tokens [] := by
  obtain ⟨spellings, prints, holds⟩ := rendered
  obtain ⟨tokens, finish, split, isEnd, proper⟩ := Token.scan_split text
  have listed := prints.scan
  rw [split, List.map_append] at listed
  have same := (List.append_inj' listed rfl).1
  exact ⟨tokens, finish, split, isEnd, proper, List.append_nil tokens ▸ holds tokens [] same⟩

/-- A form that takes a token begins with the one that the text alone begins with. -/
theorem opened {text : String} (rendered : Rendered text.toList form) (solid : ¬ form [] []) :
    Rendered text.toList fun input rest => form input rest ∧
      ∃ first behind, input = first :: behind ∧ (Token.opening text).SameSpelling first := by
  obtain ⟨spellings, prints, holds⟩ := rendered
  refine ⟨spellings, prints, fun own rest same => ⟨holds own rest same, ?_⟩⟩
  have listed := prints.scan
  rw [← same] at listed
  cases own with
  | nil => exact absurd (holds [] [] same) solid
  | cons first others =>
      obtain ⟨opening, behind, scanned, isFirst, _⟩ := List.map_eq_cons_iff.mp listed
      refine ⟨first, others ++ rest, rfl, ?_⟩
      unfold Token.opening
      rw [scanned]
      exact ⟨congrArg Prod.fst isFirst, congrArg Prod.snd isFirst⟩

end Rendered

section Rows

variable {α β : Type} {text : α → List Char} {made : α → β → Prop}
  {Item : Tokens → β → Tokens → Prop} {close : Char} {closing : Token.Kind}

/-- An item that stands where no operator takes it further. -/
abbrev Made (made : α → β → Prop) (Item : Tokens → β → Tokens → Prop) (item : α)
    (input rest : Tokens) : Prop :=
  Parse.bindingPower (kindOf rest) ≤ Parse.loosest → ∃ copy, made item copy ∧ Item input copy rest

theorem join_cons (piece : List Char) (others : List (List Char)) :
    Text.join [',', ' '] (piece :: others) = piece ++ others.flatMap fun other => ',' :: ' ' :: other := by
  induction others generalizing piece with
  | nil => exact (List.append_nil piece).symm
  | cons next others ih => rw [Text.join, ih, List.flatMap_cons, List.append_assoc]; rfl

/-- What stands behind an item of a row: further items, and the symbol that closes them all. -/
structure Behind (made : α → β → Prop) (Item : Tokens → β → Tokens → Prop) (closing : Token.Kind)
    (items : List α) (input rest : Tokens) : Prop where
  stops : Parse.bindingPower (kindOf input) ≤ Parse.loosest
  more : ∃ copies token, List.Forall₂ made items copies ∧
    Grammar.More Item input copies (token :: rest) ∧ token.kind = closing

variable (isSymbol : Token.symbolKind? close = some closing)
  (closes : closing ∈ [Token.Kind.rightParen, .rightBracket, .rightBrace]) {items : List α}
  (each : ∀ item ∈ items, Rendered (text item) (Made made Item item))

include isSymbol

theorem separated_behind :
    Separated ((items.map text).flatMap (fun other => ',' :: ' ' :: other) ++ [close]) := by
  cases items with
  | nil => exact .cons (Token.symbol_separates isSymbol) []
  | cons item items => exact .cons rfl _

include closes each

theorem rendered_behind :
    Rendered ((items.map text).flatMap (fun other => ',' :: ' ' :: other) ++ [close])
      (Behind made Item closing items) := by
  induction items with
  | nil =>
      refine (Rendered.closing close isSymbol).imp fun input rest single => ?_
      obtain ⟨token, rfl, isClosing, _⟩ := single
      refine ⟨Parse.closer_binds ?_, [], token, .nil, .none _, isClosing⟩
      rw [isClosing]
      exact List.mem_append_left [.comma, .colon, .semicolon] closes
  | cons item items ih =>
      obtain ⟨here, others⟩ := List.forall_mem_cons.mp each
      have row := ((here.append (ih others) (separated_behind isSymbol)).spaced.symbol
        ',' rfl)
      simp only [List.map_cons, List.flatMap_cons, List.cons_append, List.append_assoc]
      refine row.imp fun input rest parts => ?_
      obtain ⟨_, ⟨comma, rfl, isComma, _⟩, between, item, stops, copies, token, made, more,
        isClosing⟩ := parts
      obtain ⟨copy, copied, read⟩ := item stops
      exact ⟨Parse.closer_binds (by simp [isComma, Parse.closers]), copy :: copies, token,
        .cons copied made, .next isComma read more, isClosing⟩

/-- Items with commas between them, before the symbol that closes them. -/
theorem rendered_row :
    Rendered (Text.join [',', ' '] (items.map text) ++ [close]) fun input rest =>
      ∃ copies, List.Forall₂ made items copies ∧ Grammar.Listed Item closing input copies rest := by
  cases items with
  | nil =>
      refine (Rendered.closing close isSymbol).imp fun input rest single => ?_
      obtain ⟨token, rfl, isClosing, _⟩ := single
      exact ⟨[], .nil, .empty isClosing⟩
  | cons item items =>
      obtain ⟨here, others⟩ := List.forall_mem_cons.mp each
      have row := here.append (rendered_behind isSymbol closes others) (separated_behind isSymbol)
      rw [List.map_cons, join_cons, List.append_assoc]
      refine row.imp fun input rest parts => ?_
      obtain ⟨between, item, stops, copies, token, made, more, isClosing⟩ := parts
      obtain ⟨copy, copied, read⟩ := item stops
      exact ⟨copy :: copies, .cons copied made, .items read more isClosing⟩

end Rows

section Expressions

variable {α β : Type} {depth : Nat} {made : α → Node → Prop} {also : β → Node → Prop}

/-- An expression made of an item, up to the operators that may stand behind it. -/
def Led (depth : Nat) (made : α → Node → Prop) (item : α) (input rest : Tokens) : Prop :=
  ∃ copy, made item copy ∧ Parse.Leads depth input copy rest

/-- An expression made of an item, where no operator stands behind it. -/
abbrev Stated (depth : Nat) (made : α → Node → Prop) : α → Tokens → Tokens → Prop :=
  Made made (Parse.Readable depth Parse.loosest)

theorem Rendered.stated {text : List Char} {item : α} (rendered : Rendered text (Led depth made item)) :
    Rendered text (Stated (depth + 1) made item) := by
  refine rendered.imp fun input rest led stops => ?_
  obtain ⟨copy, same, leads⟩ := led
  exact ⟨copy, same, leads.readable stops⟩

theorem array_rendered {items : List α} {text : α → List Char}
    (each : ∀ item ∈ items, Rendered (text item) (Stated depth made item)) :
    Rendered ('[' :: (Text.join [',', ' '] (items.map text) ++ [']'])) fun input rest =>
      ∃ opening copies, (opening.kind = .leftBracket ∧ opening.literal = "[") ∧
        List.Forall₂ made items copies ∧ Parse.Leads depth input (.array opening copies) rest := by
  have row := rendered_row (rfl : Token.symbolKind? ']' = _) (by decide) each
  refine (row.symbol '[' rfl).imp fun input rest parts => ?_
  obtain ⟨_, ⟨opening, rfl, opens, literal⟩, copies, all, listed⟩ := parts
  exact ⟨opening, copies, ⟨opens, literal⟩, all,
    Parse.leads_primary (.array opens listed) (Parse.not_oversized opens nofun) (by simp [opens])⟩

/-- An entry of a hash made of a pair. -/
def Paired (made : α → Node → Prop) (also : β → Node → Prop) (entry : α × β) (pair : Node × Node) :
    Prop :=
  made entry.1 pair.1 ∧ also entry.2 pair.2

theorem entry_rendered {key value : List Char} {entry : α × β}
    (named : Rendered key (Stated depth made entry.1))
    (given : Rendered value (Stated depth also entry.2)) :
    Rendered (key ++ ':' :: value) (Made (Paired made also)
      (Grammar.Entry (Parse.Readable depth Parse.loosest)) entry) := by
  refine (named.append (given.symbol ':' rfl) (.cons rfl _)).imp fun input rest parts stops => ?_
  obtain ⟨_, first, between, ⟨colon, rfl, isColon, _⟩, second⟩ := parts
  obtain ⟨name, madeName, readName⟩ :=
    first (Parse.closer_binds (by simp [isColon, Parse.closers]))
  obtain ⟨copy, madeCopy, readCopy⟩ := second stops
  exact ⟨(name, copy), ⟨madeName, madeCopy⟩, .pair readName isColon readCopy⟩

theorem hash_rendered (key : α → List Char) (value : β → List Char) {entries : List (α × β)}
    (each : ∀ entry ∈ entries, Rendered (key entry.1) (Stated depth made entry.1) ∧
      Rendered (value entry.2) (Stated depth also entry.2)) :
    Rendered ('\x7b' :: (Text.join [',', ' ']
        (entries.map fun entry => key entry.1 ++ ':' :: value entry.2) ++ ['\x7d'])) fun input rest =>
      ∃ opening copies, (opening.kind = .leftBrace ∧ opening.literal = "\x7b") ∧
        List.Forall₂ (Paired made also) entries copies ∧
          Parse.Leads depth input (.hash opening copies) rest := by
  have row := rendered_row (rfl : Token.symbolKind? '\x7d' = _) (by decide)
    fun entry member => entry_rendered (each entry member).1 (each entry member).2
  refine (row.symbol '\x7b' rfl).imp fun input rest parts => ?_
  obtain ⟨_, ⟨opening, rfl, opens, literal⟩, copies, all, listed⟩ := parts
  exact ⟨opening, copies, ⟨opens, literal⟩, all,
    Parse.leads_primary (.hash opens (.listed listed)) (Parse.not_oversized opens nofun)
      (by simp [opens])⟩

end Expressions

/-- Statements that are read wherever no operator takes the last of them further. -/
def Sequence (need : Nat) (wanted : List Node → Prop) (input rest : Tokens) : Prop :=
  kindOf rest ∉ Grammar.continuations → ∃ body, wanted body ∧
    Grammar.Statements (Parse.Readable need Parse.loosest) input body rest

/-- One bare expression made of an item. -/
def Alone {α : Type} (made : α → Node → Prop) (item : α) (body : List Node) : Prop :=
  ∃ first copy, body = [.expressionStatement first copy] ∧ made item copy

theorem Rendered.alone {α : Type} {need : Nat} {made : α → Node → Prop} {item : α} {text : List Char}
    (rendered : Rendered text (Stated need made item)) :
    Rendered text (Sequence need (Alone made item)) := by
  refine rendered.imp fun input rest stated stops => ?_
  obtain ⟨copy, same, read⟩ := stated (Parse.bare_binds stops)
  cases input with
  | nil => exact absurd read.expression.begins (by decide)
  | cons first behind =>
      exact ⟨_, ⟨first, copy, rfl, same⟩, .next (.expressionStatement read (.bare stops)) (.none rest)⟩

/-- The parser gives a program without errors, except that it breaks off where it lacks the depth. -/
def ReadsAs (text : String) (need : Nat) (wanted : Node → Prop) : Prop :=
  ∀ depth, (∃ program, Parsed.ofTokens depth (Token.scan text) = .ok ⟨program, []⟩ ∧
      wanted program) ∨
    depth < need ∧ Parsed.ofTokens depth (Token.scan text) = .error .tooDeep

theorem Rendered.readsAs {text : String} {need : Nat} {wanted : List Node → Prop}
    (rendered : Rendered text.toList (Sequence need wanted)) :
    ReadsAs text need fun program =>
      ∃ body, wanted body ∧ program = .program ⟨Token.opening text, body⟩ := by
  intro depth
  obtain ⟨tokens, finish, split, isEnd, proper, sequence⟩ := rendered.scan
  obtain ⟨body, met, statements⟩ := sequence (by decide)
  have allEnd : ∀ token ∈ [finish], token.kind = .endOfInput := List.forall_mem_singleton.mpr isEnd
  rw [split]
  rcases Parsed.ofTokens_given proper allEnd statements with ⟨token, read⟩ | shallow
  · refine .inl ⟨_, read, body, met, ?_⟩
    obtain ⟨_, first⟩ := Parsed.ofTokens_token read rfl
    have opening : token = Token.opening text := by
      unfold Token.opening
      cases first
      rw [split]
      cases tokens <;> rfl
    rw [opening]
  · exact .inr shallow

end MonkeyLang
