import Mathlib.Data.List.Infix
import MonkeyLang.Builtin.Core
import MonkeyLang.Builtin.Text
import MonkeyLang.Evaluation.Evaluate

namespace MonkeyLang

/-! # Texts cut and put together

A text is gone through from its start on and cut at each occurrence of a separator that is found, behind
the one that was found before.  The pieces with the separator between them are the text again, and pieces
in which a single character does not occur are cut there as they were put together.
-/

namespace Text

/-- A separator stands at a place of a text. -/
def Occurs (separator text : List Char) (place : Nat) : Prop :=
  separator <+: text.drop place

/-- The places at which a separator is found by going through a text from a start on: the leftmost one, then
the leftmost one behind its end, and so on. -/
inductive Found (separator text : List Char) : Nat → List Nat → Prop
  | none {start : Nat} (absent : ∀ place, start ≤ place → ¬ Occurs separator text place) :
      Found separator text start []
  | next {start place : Nat} {places : List Nat} (within : start ≤ place)
      (occurs : Occurs separator text place)
      (leftmost : ∀ earlier, start ≤ earlier → earlier < place → ¬ Occurs separator text earlier)
      (behind : Found separator text (place + separator.length) places) :
      Found separator text start (place :: places)

section Cuts

variable {separator text piece : List Char} {pieces others : List (List Char)} {start : Nat}
  {places : List Nat}

theorem Found.unique (found : Found separator text start places) {other : List Nat}
    (also : Found separator text start other) : places = other := by
  induction found generalizing other with
  | none absent =>
      cases also with
      | none _ => rfl
      | next within occurs _ _ => exact absurd occurs (absent _ within)
  | @next start place places within occurs leftmost behind ih =>
      cases also with
      | none absent => exact absurd occurs (absent _ within)
      | @next _ another _ alsoWithin alsoOccurs alsoLeftmost alsoBehind =>
          rcases Nat.lt_trichotomy place another with before | rfl | after
          · exact absurd occurs (alsoLeftmost place within before)
          · rw [ih alsoBehind]
          · exact absurd alsoOccurs (leftmost another alsoWithin after)

/-- Where no separator stands at the start itself, the search may as well begin one place later. -/
theorem Found.earlier (found : Found separator text (start + 1) places)
    (absent : ¬ Occurs separator text start) : Found separator text start places := by
  have here : ∀ place, start ≤ place → ¬ start + 1 ≤ place → ¬ Occurs separator text place := by
    intro place within outside
    obtain rfl : place = start := by omega
    exact absent
  cases found with
  | none beyond =>
      refine .none fun place within => ?_
      by_cases later : start + 1 ≤ place
      · exact beyond place later
      · exact here place within later
  | next within occurs leftmost behind =>
      refine .next (by omega) occurs (fun place from_ before => ?_) behind
      by_cases later : start + 1 ≤ place
      · exact leftmost place later before
      · exact here place from_ later

/-- A text is taken to pieces from its start on: where the separator stands a piece ends, and the rest
behind the separator is taken to pieces; any other character belongs to the piece. -/
inductive Cuts (separator : List Char) : List Char → List (List Char) → Prop
  | nil : Cuts separator [] [[]]
  | cut {rest : List Char} {pieces : List (List Char)} (cuts : Cuts separator rest pieces) :
      Cuts separator (separator ++ rest) ([] :: pieces)
  | keep {character : Char} {rest piece : List Char} {others : List (List Char)}
      (absent : ¬ separator <+: character :: rest) (cuts : Cuts separator rest (piece :: others)) :
      Cuts separator (character :: rest) ((character :: piece) :: others)

theorem splitFrom_cuts (nonempty : separator ≠ []) (skip : Nat) (text : List Char) :
    Cuts separator (text.drop skip) (splitFrom skip separator text) := by
  induction text generalizing skip with
  | nil =>
      rw [List.drop_nil]
      exact .nil
  | cons character rest ih =>
      cases skip with
      | succ left => exact ih left
      | zero =>
          rw [List.drop_zero, splitFrom]
          split
          · rename_i stands
            obtain ⟨behind, same⟩ := List.isPrefixOf_iff_prefix.mp stands
            cases separator with
            | nil => exact absurd rfl nonempty
            | cons first others =>
                rw [List.cons_append] at same
                obtain ⟨rfl, rfl⟩ := List.cons.inj same
                have cuts := ih others.length
                rw [List.drop_left] at cuts
                exact .cut cuts
          · rename_i absent
            have cuts := ih 0
            split
            · rename_i none
              rw [none] at cuts
              cases cuts
            · rename_i piece others found
              rw [List.drop_zero, found] at cuts
              exact .keep (fun stands => absent (List.isPrefixOf_iff_prefix.mpr stands)) cuts

theorem splitAt_cuts (nonempty : separator ≠ []) (text : List Char) :
    Cuts separator text (splitAt separator text) :=
  splitFrom_cuts nonempty 0 text

/-- The occurrence in the middle overlaps the first one and is not found. -/
example : splitAt "aba".toList "abababa".toList = [[], ['b'], []] := by decide

namespace Cuts

theorem join (cuts : Cuts separator text pieces) : Text.join separator pieces = text := by
  induction cuts with
  | nil => rfl
  | @cut rest pieces cuts ih =>
      cases pieces with
      | nil => cases cuts
      | cons piece others => rw [Text.join, ih, List.nil_append]
  | @keep character rest piece others _ _ ih =>
      rw [← ih]
      cases others <;> rfl

/-- A text begins with its first piece. -/
theorem begins (cuts : Cuts separator text (piece :: others)) : piece <+: text := by
  rw [← cuts.join]
  cases others with
  | nil => exact List.prefix_refl piece
  | cons next others => exact ⟨_, (List.append_assoc ..).symm⟩

theorem free (cuts : Cuts separator text pieces) (nonempty : separator ≠ []) :
    ∀ piece ∈ pieces, ¬ separator <:+: piece := by
  have empty : ¬ separator <:+: [] := fun inside => nonempty (List.infix_nil.mp inside)
  induction cuts with
  | nil => exact List.forall_mem_singleton.mpr empty
  | cut _ ih => exact List.forall_mem_cons.mpr ⟨empty, ih⟩
  | @keep character rest piece others absent cuts ih =>
      obtain ⟨firstFree, othersFree⟩ := List.forall_mem_cons.mp ih
      refine List.forall_mem_cons.mpr ⟨fun inside => ?_, othersFree⟩
      rcases List.infix_cons_iff.mp inside with stands | within
      · exact absent (stands.trans ((List.prefix_cons_inj character).mpr cuts.begins))
      · exact firstFree within

/-- There is one piece more than places at which the separator is found. -/
theorem found (cuts : Cuts separator text pieces) (nonempty : separator ≠ []) {whole : List Char}
    (here : whole.drop start = text) :
    ∃ places, Found separator whole start places ∧ pieces.length = places.length + 1 := by
  induction cuts generalizing start with
  | nil =>
      refine ⟨[], .none fun place within stands => ?_, rfl⟩
      rw [Occurs, ← Nat.add_sub_cancel' within, ← List.drop_drop, here, List.drop_nil] at stands
      exact nonempty (List.prefix_nil.mp stands)
  | @cut rest pieces _ ih =>
      have behind : whole.drop (start + separator.length) = rest := by
        rw [← List.drop_drop, here, List.drop_left]
      obtain ⟨places, found, counted⟩ := ih behind
      refine ⟨start :: places, .next (Nat.le_refl start) ⟨rest, here.symm⟩ ?_ found, ?_⟩
      · exact fun earlier from_ before => absurd before (Nat.not_lt.mpr from_)
      · rw [List.length_cons, List.length_cons, counted]
  | @keep character rest piece others absent _ ih =>
      have behind : whole.drop (start + 1) = rest := by
        rw [← List.drop_drop, here, List.drop_one, List.tail_cons]
      obtain ⟨places, found, counted⟩ := ih behind
      refine ⟨places, found.earlier ?_, counted⟩
      rw [Occurs, here]
      exact absent

end Cuts

end Cuts

section Joined

variable {mark : Char} {pieces : List (List Char)}

theorem splitAt_mark (mark : Char) (text : List Char) :
    splitAt [mark] text = Text.pieces (· == mark) text := by
  unfold splitAt
  induction text with
  | nil => rfl
  | cons character rest ih =>
      have stands : [mark].isPrefixOf (character :: rest) = (character == mark) := by
        simp [List.isPrefixOf, Bool.beq_comm]
      rw [splitFrom, Text.pieces, stands, ← ih]
      rfl

/-- Pieces without breaks that are joined by one are cut there again. -/
theorem pieces_join {isBreak : Char → Bool} (cuts : isBreak mark = true) (some : pieces ≠ [])
    (whole : ∀ piece ∈ pieces, ∀ character ∈ piece, isBreak character = false) :
    Text.pieces isBreak (join [mark] pieces) = pieces := by
  induction pieces with
  | nil => exact absurd rfl some
  | cons piece others ih =>
      obtain ⟨pieceWhole, othersWhole⟩ := List.forall_mem_cons.mp whole
      cases others with
      | nil => exact pieces_single pieceWhole
      | cons next others =>
          rw [join, List.append_assoc, List.singleton_append, pieces_append pieceWhole cuts,
            ih (List.cons_ne_nil next others) othersWhole]

theorem splitAt_join (some : pieces ≠ []) (free : ∀ piece ∈ pieces, mark ∉ piece) :
    splitAt [mark] (join [mark] pieces) = pieces := by
  rw [splitAt_mark]
  refine pieces_join (beq_self_eq_true mark) some fun piece member character inside => ?_
  exact beq_false_of_ne fun same => free piece member (same ▸ inside)

theorem mem_words {text piece : List Char} (member : piece ∈ words text) :
    piece ≠ [] ∧ ∀ character ∈ piece, isBlank character = false := by
  obtain ⟨isPiece, kept⟩ := List.mem_filter.mp member
  refine ⟨?_, pieces_whole isPiece⟩
  rintro rfl
  cases kept

theorem words_join {parts : List (List Char)}
    (proper : ∀ part ∈ parts, part ≠ [] ∧ ∀ character ∈ part, isBlank character = false) :
    words (join [' '] parts) = parts := by
  cases parts with
  | nil => rfl
  | cons part others =>
      rw [words, pieces_join rfl (List.cons_ne_nil part others) fun part member => (proper part member).2]
      refine List.filter_eq_self.mpr fun part member => ?_
      simpa using (proper part member).1

end Joined

end Text

/-- An array of strings with the given texts. -/
def Value.Lists (value : Value) (texts : List (List Char)) : Prop :=
  ∃ id items, value = .array id items ∧ Builtin.texts items = .ok texts

namespace Builtin

section Calls

variable (setting : Setting) (evaluate : Evaluator) (apply : Applier)

/-- A call of a builtin gives a value of some kind, whatever the state in which it is called. -/
def Gives (builtin : Builtin) (arguments : List Value) (kind : Value → Prop) : Prop :=
  ∀ before, ∃ value after,
    (Eval.invoke setting evaluate apply builtin.name builtin.arity arguments before).ending =
      .ok (some value) after ∧ kind value

theorem giveStrings_ends (texts : List String) (made : List Value) (before : Machine) :
    ∃ id items after,
      (Eval.script setting evaluate apply (.giveStrings texts made) before).ending =
        .ok (some (.array id (made.reverse ++ items))) after ∧
      Builtin.texts items = .ok (texts.map String.toList) := by
  induction texts generalizing made before with
  | nil => exact ⟨before.nextObject, [], _, by rw [List.append_nil]; rfl, rfl⟩
  | cons text texts ih =>
      let string := Value.string before.nextObject text
      obtain ⟨id, items, after, ended, spelled⟩ :=
        ih (string :: made) { before with nextObject := before.nextObject + 1 }
      rw [List.reverse_cons, List.append_assoc, List.singleton_append] at ended
      refine ⟨id, string :: items, after, ended, ?_⟩
      rw [Builtin.texts, spelled]
      rfl

variable {setting evaluate apply}

theorem Gives.texts {builtin : Builtin} {arguments : List Value} {parts : List (List Char)}
    (named : setting.script builtin.name arguments = giveTexts parts)
    (accepted : builtin.arity.accepts arguments.length = true) {kind : Value → Prop}
    (lists : ∀ value, value.Lists parts → kind value) :
    Gives setting evaluate apply builtin arguments kind := by
  intro before
  obtain ⟨id, items, after, ended, spelled⟩ :=
    giveStrings_ends setting evaluate apply (parts.map String.ofList) [] before
  refine ⟨.array id items, after, ?_, lists _ ⟨id, items, rfl, ?_⟩⟩
  · rw [Eval.invoke, if_pos accepted, named]
    exact ended
  · simpa [Function.comp_def] using spelled

theorem Gives.string {builtin : Builtin} {arguments : List Value} {text : String}
    (named : setting.script builtin.name arguments = .giveNew (.string · text))
    (accepted : builtin.arity.accepts arguments.length = true) {kind : Value → Prop}
    (spells : ∀ id, kind (.string id text)) :
    Gives setting evaluate apply builtin arguments kind := by
  intro before
  refine ⟨.string before.nextObject text, { before with nextObject := before.nextObject + 1 }, ?_,
    spells _⟩
  rw [Eval.invoke, if_pos accepted, named]
  rfl

theorem script_found {builtin : Builtin}
    (found : setting.builtins.find? (·.name == builtin.name) = some builtin)
    (arguments : List Value) : setting.script builtin.name arguments = builtin.run arguments := by
  rw [Setting.script, found]

theorem split_at (named : setting.builtins.find? (·.name == split.name) = some split)
    (textId separatorId : ObjectId) (text : String) {separator : String} (nonempty : separator ≠ "")
    {kind : Value → Prop}
    (lists : ∀ value, value.Lists (Text.splitAt separator.toList text.toList) → kind value) :
    Gives setting evaluate apply split [.string textId text, .string separatorId separator] kind := by
  have proper : separator.isEmpty = false := by simpa using nonempty
  have cuts : setting.script split.name [.string textId text, .string separatorId separator] =
      giveTexts (Text.splitAt separator.toList text.toList) := by
    rw [script_found named]
    simp only [split, proper, Bool.false_eq_true, if_false]
  exact .texts cuts rfl lists

theorem split_words (named : setting.builtins.find? (·.name == split.name) = some split)
    (textId : ObjectId) (text : String) {kind : Value → Prop}
    (lists : ∀ value, value.Lists (Text.words text.toList) → kind value) :
    Gives setting evaluate apply split [.string textId text] kind :=
  .texts (script_found named _) rfl lists

theorem join_lists (named : setting.builtins.find? (·.name == join.name) = some join) {array : Value}
    {parts : List (List Char)} (given : array.Lists parts) (separatorId : ObjectId) (separator : String)
    {kind : Value → Prop}
    (spells : ∀ id, kind (.string id (String.ofList (Text.join separator.toList parts)))) :
    Gives setting evaluate apply join [array, .string separatorId separator] kind := by
  obtain ⟨id, items, rfl, spelled⟩ := given
  refine .string ?_ rfl spells
  rw [script_found named]
  simp only [join, joined, spelled]

end Calls

end Builtin

/-- A text that is cut at a separator gives one piece more than the separator is found in it.  The separator
stands in none of the pieces, and joining them with it gives the text back.  The other way round, an array
of texts without a character is what its joined text is cut into at that character.  And the words of a
text, which are not empty and hold no blank, are the words of what they make with one blank between them. -/
theorem split_and_join_undo {setting : Setting} (evaluate : Evaluator) (apply : Applier)
    (splits : setting.builtins.find? (·.name == "split") = some Builtin.split)
    (joins : setting.builtins.find? (·.name == "join") = some Builtin.join) :
    let split := Builtin.Gives setting evaluate apply .split
    let join := Builtin.Gives setting evaluate apply .join
    (∀ (text separator : String) (textId separatorId : ObjectId), separator ≠ "" →
      split [.string textId text, .string separatorId separator] fun array =>
        ∃ parts, array.Lists parts ∧
          (∃ places, (∀ found, Text.Found separator.toList text.toList 0 found ↔ found = places) ∧
            parts.length = places.length + 1) ∧
          (∀ part ∈ parts, ¬ separator.toList <:+: part) ∧
          join [array, .string separatorId separator] fun joined => ∃ id, joined = .string id text) ∧
    (∀ (mark : Char) (array : Value) (parts : List (List Char)) (markId : ObjectId),
      array.Lists parts → parts ≠ [] → (∀ part ∈ parts, mark ∉ part) →
      join [array, .string markId (String.singleton mark)] fun joined =>
        split [joined, .string markId (String.singleton mark)] fun again => again.Lists parts) ∧
    ∀ (text : String) (textId blankId : ObjectId),
      split [.string textId text] fun array =>
        ∃ parts, array.Lists parts ∧
          (∀ part ∈ parts, part ≠ [] ∧ ∀ character ∈ part, Text.isBlank character = false) ∧
          join [array, .string blankId " "] fun joined =>
            split [joined] fun again => again.Lists parts := by
  intro split join
  refine ⟨?_, ?_, ?_⟩
  · intro text separator textId separatorId nonempty
    have proper : separator.toList ≠ [] := fun empty => nonempty (String.toList_eq_nil_iff.mp empty)
    have cuts := Text.splitAt_cuts proper text.toList
    have whole : text.toList.drop 0 = text.toList := List.drop_zero
    obtain ⟨places, found, counted⟩ := cuts.found proper whole
    refine Builtin.split_at splits textId separatorId text nonempty fun array lists => ?_
    refine ⟨_, lists, ⟨places, fun other => ?_, counted⟩, cuts.free proper, ?_⟩
    · exact ⟨fun also => also.unique found, fun same => same ▸ found⟩
    · refine Builtin.join_lists joins lists separatorId separator fun id => ⟨id, ?_⟩
      rw [cuts.join, String.ofList_toList]
  · intro mark array parts markId lists nonempty free
    refine Builtin.join_lists joins lists markId _ fun id => ?_
    refine Builtin.split_at splits id markId _ (by simp) fun again listed => ?_
    simpa [Text.splitAt_join nonempty free] using listed
  · intro text textId blankId
    refine Builtin.split_words splits textId text fun array lists => ?_
    have proper := fun part (member : part ∈ Text.words text.toList) => Text.mem_words member
    refine ⟨_, lists, proper, ?_⟩
    refine Builtin.join_lists joins lists blankId " " fun id => ?_
    refine Builtin.split_words splits id _ fun again listed => ?_
    have blank : " ".toList = [' '] := rfl
    rw [String.toList_ofList, blank, Text.words_join proper] at listed
    exact listed

/-- A separator that overlaps itself, and texts of which one is empty. -/
theorem split_and_join_undo_overlapping :
    let setting : Setting := ⟨"<string>", false, Builtin.core ++ Builtin.strings, .none⟩
    let gives := Builtin.Gives setting (evaluate setting 1) (apply setting 1)
    let array := Value.array 20 [.string 21 "a", .string 22 "", .string 23 "b"]
    (gives .split [.string 10 "abababa", .string 11 "aba"] fun array =>
      gives .join [array, .string 11 "aba"] fun joined => ∃ id, joined = .string id "abababa") ∧
      gives .join [array, .string 24 ","] fun joined =>
        gives .split [joined, .string 24 ","] fun again => again.Lists [['a'], [], ['b']] := by
  intro setting gives array
  obtain ⟨cut, joined, -⟩ :=
    @split_and_join_undo setting (evaluate setting 1) (apply setting 1) rfl rfl
  refine ⟨?_, joined ',' array [['a'], [], ['b']] 24 ⟨20, _, rfl, rfl⟩ (by decide) (by decide)⟩
  intro before
  obtain ⟨value, after, ended, parts, -, -, -, again⟩ := cut "abababa" "aba" 10 11 (by decide) before
  exact ⟨value, after, ended, again⟩

end MonkeyLang
