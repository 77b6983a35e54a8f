import MonkeyLang.Proofs.Data
import MonkeyLang.Proofs.Json.Reader

namespace MonkeyLang.Text

/-! # Written documents

The text of a document is ASCII, and a reader gets the document back from it.
-/

namespace JsonReader

open Json (newline unitEscape escapedCharacter)

theorem skip_newline (level : Nat) (text : List Char) : skip (newline level ++ text) = skip text := by
  rw [skip, newline, List.dropWhile_append_of_pos]
  · rfl
  · intro character member
    rcases List.mem_cons.mp member with rfl | blank
    · decide
    · rw [List.eq_of_mem_replicate blank]
      decide

theorem skip_of_head {head : Char} (mark : isLayout head = false) (text : List Char) :
    skip (head :: text) = head :: text :=
  List.dropWhile_cons_of_neg (by simp [mark])

theorem length_le_flatMap {α β : Type} (write : α → List β) (nonempty : ∀ item, write item ≠ [])
    (items : List α) : items.length ≤ (items.flatMap write).length := by
  induction items with
  | nil => exact Nat.le_refl _
  | cons item items ih =>
      have first := List.length_pos_iff.mpr (nonempty item)
      rw [List.flatMap_cons, List.length_append, List.length_cons]
      omega

theorem hexValue?_hexDigit : ∀ value < 16, hexValue? (hexDigit value) = some value := by
  decide

theorem readUnit_hexDigits {unit : Nat} (bounded : unit < 0x10000) (rest : List Char) :
    readUnit (hexDigits 4 unit ++ rest) = some (unit, rest) := by
  have digit : ∀ value, hexValue? (hexDigit (value % 16)) = some (value % 16) := fun value =>
    hexValue?_hexDigit _ (Nat.mod_lt _ (by decide))
  have whole : ((unit / 16 / 16 / 16 % 16 * 16 + unit / 16 / 16 % 16) * 16 + unit / 16 % 16) * 16 +
      unit % 16 = unit := by omega
  simp only [hexDigits, List.nil_append, List.cons_append, readUnit, digit, Option.bind_eq_bind,
    Option.bind_some, whole]
  rfl

theorem readCodePoint_unit {code : Nat} (bounded : code < 0x10000)
    (single : code < 0xd800 ∨ 0xe000 ≤ code) (rest : List Char) :
    readCodePoint (hexDigits 4 code ++ rest) = some (Char.ofNat code, rest) := by
  have high : ¬ (0xd800 ≤ code ∧ code < 0xdc00) := by omega
  have low : ¬ (0xdc00 ≤ code ∧ code < 0xe000) := by omega
  rw [readCodePoint, readUnit_hexDigits bounded]
  simp only [Option.bind_eq_bind, Option.bind_some, if_neg high, if_neg low]
  rfl

theorem readCodePoint_pair {high low : Nat} (isHigh : 0xd800 ≤ high ∧ high < 0xdc00)
    (isLow : 0xdc00 ≤ low ∧ low < 0xe000) (rest : List Char) :
    readCodePoint (hexDigits 4 high ++ (unitEscape low ++ rest)) =
      some (Char.ofNat (0x10000 + (high - 0xd800) * 0x400 + (low - 0xdc00)), rest) := by
  have first : high < 0x10000 := by omega
  have second : low < 0x10000 := by omega
  rw [readCodePoint, readUnit_hexDigits first]
  simp only [Option.bind_eq_bind, Option.bind_some, if_pos isHigh, unitEscape, List.cons_append,
    readUnit_hexDigits second, if_pos isLow]
  rfl

theorem readCharacter_plain {character : Char} (unescaped : character ≠ '\\') (inner : character ≠ '"')
    (graphic : 0x20 ≤ character.toNat) (rest : List Char) :
    readCharacter (character :: rest) = some (character, rest) := by
  have valid : ¬ (character = '\\' ∨ character = '"' ∨ character.toNat < 0x20) := by
    rintro (same | same | control)
    · exact unescaped same
    · exact inner same
    · omega
  rw [readCharacter, if_neg valid]
  · exact fun _ same => absurd same unescaped
  · exact fun _ _ same => absurd same unescaped

theorem readCharacter_escaped (character : Char) (rest : List Char) :
    readCharacter (escapedCharacter character ++ rest) = some (character, rest) := by
  have valid : character.toNat < 0xd800 ∨ 0xdfff < character.toNat ∧ character.toNat < 0x110000 :=
    character.valid
  rw [escapedCharacter]
  split_ifs with quote backslash feed carriage tab back form graphic short
  · rw [eq_of_beq quote]; rfl
  · rw [eq_of_beq backslash]; rfl
  · rw [eq_of_beq feed]; rfl
  · rw [eq_of_beq carriage]; rfl
  · rw [eq_of_beq tab]; rfl
  · rw [Char.toNat_inj.mp (show character.toNat = '\x08'.toNat from eq_of_beq back)]; rfl
  · rw [Char.toNat_inj.mp (show character.toNat = '\x0c'.toNat from eq_of_beq form)]; rfl
  · rw [Bool.and_eq_true, decide_eq_true_eq] at graphic
    exact readCharacter_plain (by simpa using backslash) (by simpa using quote) graphic.1 rest
  · have single : character.toNat < 0xd800 ∨ 0xe000 ≤ character.toNat := valid.imp_right And.left
    rw [unitEscape]
    exact (readCodePoint_unit short single rest).trans (by rw [Char.ofNat_toNat])
  · have code : 0x10000 + (0xd800 + (character.toNat - 0x10000) / 0x400 - 0xd800) * 0x400 +
        (0xdc00 + (character.toNat - 0x10000) % 0x400 - 0xdc00) = character.toNat := by omega
    rw [List.append_assoc, unitEscape]
    refine (readCodePoint_pair ⟨by omega, by omega⟩ ⟨by omega, by omega⟩ rest).trans ?_
    rw [code, Char.ofNat_toNat]

/-- A quote is no character of a string, so a string goes on where one is read. -/
theorem readString_next {text rest : List Char} {character : Char}
    (reads : readCharacter text = some (character, rest)) (limit : Nat) :
    readString (limit + 1) text =
      (readString limit rest).map fun (others, rest) => (character :: others, rest) := by
  have unquoted : ∀ others, text = '"' :: others → False := by
    rintro others rfl
    cases reads
  rw [readString, reads]
  · change (readString limit rest).bind _ = _
    cases readString limit rest <;> rfl
  · exact unquoted

theorem readString_escaped (characters rest : List Char) {limit : Nat}
    (enough : characters.length ≤ limit) :
    readString limit (characters.flatMap escapedCharacter ++ '"' :: rest) = some (characters, rest) := by
  induction characters generalizing limit with
  | nil => rw [List.flatMap_nil, List.nil_append, readString]
  | cons character characters ih =>
      cases limit with
      | zero => exact absurd enough (Nat.not_succ_le_zero _)
      | succ limit =>
          rw [List.flatMap_cons, List.append_assoc, readString_next (readCharacter_escaped character _),
            ih (Nat.le_of_succ_le_succ enough)]
          rfl

theorem length_le_escaped (characters : List Char) :
    characters.length ≤ (characters.flatMap escapedCharacter).length := by
  refine length_le_flatMap _ (fun character empty => ?_) characters
  have reads := readCharacter_escaped character []
  rw [empty] at reads
  cases reads

/-- Nothing that could belong to a number comes next. -/
def Stops (rest : List Char) : Prop :=
  ∀ character ∈ rest.head?, Token.isDigit character = false ∧ character ∉ ['.', 'e', 'E']

/-- No positive number begins with a zero. -/
theorem repr_lead {number : Nat} (positive : 0 < number) : number.repr.toList.head? ≠ some '0' := by
  rw [Nat.toList_repr]
  induction number using Nat.strongRecOn with
  | ind number ih =>
      by_cases small : number < 10
      · rw [Nat.toDigits_of_lt_base small, List.head?_cons]
        intro zero
        have digit := Nat.toNat_digitChar_sub_48_of_lt_ten small
        rw [Option.some.inj zero] at digit
        exact Nat.ne_of_lt positive digit
      · rw [Nat.toDigits_of_base_le (by decide) (by omega),
          List.head?_append_of_ne_nil _ Nat.toDigits_ne_nil]
        exact ih (number / 10) (by omega) (by omega)

theorem Stops.span {digits rest : List Char} (stops : Stops rest)
    (each : ∀ digit ∈ digits, Token.isDigit digit = true) :
    (digits ++ rest).takeWhile Token.isDigit = digits ∧
      (digits ++ rest).dropWhile Token.isDigit = rest := by
  rw [List.takeWhile_append_of_pos each, List.dropWhile_append_of_pos each]
  cases rest with
  | nil => exact ⟨List.append_nil _, rfl⟩
  | cons next rest =>
      have other : ¬ Token.isDigit next = true := by simp [(stops next rfl).1]
      rw [List.takeWhile_cons_of_neg other, List.dropWhile_cons_of_neg other]
      exact ⟨List.append_nil _, rfl⟩

theorem readNatural_repr (number : Nat) {rest : List Char} (stops : Stops rest) :
    readNatural (number.repr.toList ++ rest) = some (number, rest) := by
  have numeral := Grammar.numeral_repr number
  obtain ⟨taken, dropped⟩ := stops.span numeral.digits
  have wellFormed : ¬ (number.repr.toList = [] ∨
      (number.repr.toList.head? = some '0' ∧ number.repr.toList ≠ ['0']) ∨
        rest.head? ∈ [some '.', some 'e', some 'E']) := by
    rintro (empty | ⟨zero, long⟩ | further)
    · exact numeral.nonempty empty
    · rcases Nat.eq_zero_or_pos number with rfl | positive
      · exact long rfl
      · exact repr_lead positive zero
    · cases rest with
      | nil => simp at further
      | cons next rest => exact (stops next rfl).2 (by simpa using further)
  rw [readNatural, taken, dropped, if_neg wellFormed, ← numeral.value]

theorem repr_start (number : Nat) :
    ∃ head others, number.repr.toList = head :: others ∧ Token.isDigit head = true := by
  obtain ⟨head, others, digits⟩ := List.exists_cons_of_ne_nil (Grammar.numeral_repr number).nonempty
  exact ⟨head, others, digits, repr_digits number head (digits ▸ List.mem_cons_self)⟩

theorem toString_negSucc (number : Nat) :
    (toString (Int.negSucc number)).toList = '-' :: (number + 1).repr.toList := by
  change ("-" ++ (number + 1).repr).toList = _
  rw [String.toList_append]
  rfl

/-- A number begins with a sign or a digit, and neither layout nor another document does. -/
theorem toString_start (number : Int) :
    ∃ head others, (toString number).toList = head :: others ∧ isLayout head = false ∧
      head ∉ ['"', '[', '{', 'n', ']'] := by
  cases number with
  | ofNat number =>
      obtain ⟨head, others, digits, digit⟩ := repr_start number
      have unlike : ∀ mark, Token.isDigit mark = false → head ≠ mark := by
        rintro mark other rfl
        cases digit.symm.trans other
      refine ⟨head, others, digits, ?_, ?_⟩
      · simp [isLayout, unlike ' ' rfl, unlike '\t' rfl, unlike '\n' rfl, unlike '\r' rfl]
      · simp [unlike '"' rfl, unlike '[' rfl, unlike '{' rfl, unlike 'n' rfl, unlike ']' rfl]
  | negSucc number => exact ⟨'-', _, toString_negSucc number, by decide, by decide⟩

theorem readInteger_toString (number : Int) {rest : List Char} (stops : Stops rest) :
    readInteger ((toString number).toList ++ rest) = some (number, rest) := by
  cases number with
  | ofNat number =>
      obtain ⟨head, others, digits, digit⟩ := repr_start number
      have unsigned : ∀ further, number.repr.toList ++ rest = '-' :: further → False := by
        intro further signed
        rw [digits, List.cons_append] at signed
        rw [(List.cons.inj signed).1] at digit
        revert digit
        decide
      change readInteger (number.repr.toList ++ rest) = _
      rw [readInteger, readNatural_repr number stops]
      · rfl
      · exact unsigned
  | negSucc number =>
      rw [toString_negSucc, List.cons_append, readInteger, readNatural_repr _ stops]
      rfl

theorem stops_newline (level : Nat) (rest : List Char) : Stops (newline level ++ rest) := by
  intro character first
  cases first
  decide

theorem stops_comma (rest : List Char) : Stops (',' :: rest) := by
  intro character first
  cases first
  decide

open Json (chars moreItems moreFields string)

/-- Items, each on a line of its own, with commas in between. -/
def row {α : Type} (write : α → List Char) (level : Nat) (item : α) (items : List α) : List Char :=
  newline level ++ write item ++ items.flatMap fun other => ',' :: newline level ++ write other

/-- A field on a line of its own. -/
def fieldChars (level : Nat) (field : String × Json) : List Char :=
  string field.1 ++ ':' :: ' ' :: chars level field.2

theorem moreItems_eq (level : Nat) (items : List Json) :
    moreItems level items = items.flatMap fun other => ',' :: newline level ++ chars level other := by
  induction items with
  | nil => rfl
  | cons item items ih => rw [moreItems, ih, List.flatMap_cons]

theorem moreFields_eq (level : Nat) (fields : List (String × Json)) :
    moreFields level fields =
      fields.flatMap fun other => ',' :: newline level ++ fieldChars level other := by
  induction fields with
  | nil => rfl
  | cons field fields ih =>
      rw [moreFields, ih, List.flatMap_cons]
      simp only [fieldChars, List.append_assoc, List.cons_append]

theorem chars_array (level : Nat) (item : Json) (items : List Json) :
    chars level (.array (item :: items)) =
      '[' :: (row (chars (level + 1)) (level + 1) item items ++ newline level ++ [']']) := by
  rw [chars, moreItems_eq, row]
  simp only [List.cons_append]

theorem chars_object (level : Nat) (field : String × Json) (fields : List (String × Json)) :
    chars level (.object (field :: fields)) =
      '{' :: (row (fieldChars (level + 1)) (level + 1) field fields ++ newline level ++ ['}']) := by
  rw [chars, moreFields_eq, row, fieldChars]
  simp only [List.append_assoc, List.cons_append]

theorem length_row {α : Type} (write : α → List Char) (level : Nat) {item other : α} {items : List α}
    (member : other ∈ item :: items) : (write other).length < (row write level item items).length := by
  let line := fun other => ',' :: newline level ++ write other
  have short := (List.sublist_flatten_of_mem (List.mem_map_of_mem member : line other ∈ _)).length_le
  rw [← List.flatMap_def, List.flatMap_cons] at short
  simp only [line, row, newline, List.length_append, List.length_cons] at short ⊢
  omega

section Rows

variable {α : Type} {readItem : List Char → Option (α × List Char)} {write : α → List Char}
  {close : Char} {item : α} {items : List α} {level : Nat} {rest : List Char}

theorem readItems_row (closes : isLayout close = false ∧ close ≠ ',') (outer : Nat) {limit : Nat}
    (enough : items.length < limit)
    (reads : ∀ other ∈ item :: items, ∀ rest, Stops rest →
      readItem (newline level ++ write other ++ rest) = some (other, rest)) :
    readItems readItem close limit (row write level item items ++ newline outer ++ close :: rest) =
      some (item :: items, rest) := by
  induction items generalizing item limit with
  | nil =>
      cases limit with
      | zero => exact absurd enough (Nat.not_lt_zero _)
      | succ limit =>
          have first := reads item List.mem_cons_self (newline outer ++ close :: rest)
            (stops_newline _ _)
          rw [row, List.flatMap_nil, List.append_nil, List.append_assoc, readItems, first]
          simp only [Option.bind_eq_bind, Option.bind_some, skip_newline, skip_of_head closes.1,
            if_neg closes.2, if_true]
          rfl
  | cons next items ih =>
      cases limit with
      | zero => exact absurd enough (Nat.not_lt_zero _)
      | succ limit =>
          have others := ih (Nat.lt_of_succ_lt_succ enough) fun other member =>
            reads other (List.mem_cons_of_mem _ member)
          have first := reads item List.mem_cons_self
            (',' :: (row write level next items ++ newline outer ++ close :: rest)) (stops_comma _)
          have whole : row write level item (next :: items) ++ newline outer ++ close :: rest =
              newline level ++ write item ++
                ',' :: (row write level next items ++ newline outer ++ close :: rest) := by
            simp only [row, List.flatMap_cons, List.append_assoc, List.cons_append]
          rw [whole, readItems, first]
          simp only [Option.bind_eq_bind, Option.bind_some,
            skip_of_head (by decide : isLayout ',' = false), others, if_true]
          rfl

theorem readRow_row (closes : isLayout close = false ∧ close ≠ ',') (outer : Nat)
    (starts : ∃ head others, write item = head :: others ∧ isLayout head = false ∧ head ≠ close)
    (reads : ∀ other ∈ item :: items, ∀ rest, Stops rest →
      readItem (newline level ++ write other ++ rest) = some (other, rest)) :
    readRow readItem close (row write level item items ++ newline outer ++ close :: rest) =
      some (item :: items, rest) := by
  obtain ⟨head, others, starts, graphic, opening⟩ := starts
  have skipped : ∃ further,
      skip (row write level item items ++ newline outer ++ close :: rest) = head :: further := by
    simp only [row, starts, List.append_assoc, List.cons_append, skip_newline, skip_of_head graphic]
    exact ⟨_, rfl⟩
  obtain ⟨further, skipped⟩ := skipped
  have enough :
      items.length < (row write level item items ++ newline outer ++ close :: rest).length := by
    have short := length_le_flatMap (fun other => ',' :: newline level ++ write other) (fun _ => nofun)
      items
    simp only [row, List.length_append, List.length_cons]
    omega
  simp only [readRow, skipped, if_neg opening]
  exact readItems_row closes outer enough reads

end Rows

/-! ## Documents -/

theorem readString_string (value : String) (rest : List Char) :
    ∃ further, string value ++ rest = '"' :: further ∧
      readString further.length further = some (value.toList, rest) := by
  refine ⟨value.toList.flatMap escapedCharacter ++ '"' :: rest, ?_, readString_escaped _ _ ?_⟩
  · simp only [string, List.cons_append, List.append_assoc, List.nil_append]
  · have enough := length_le_escaped value.toList
    rw [List.length_append]
    omega

/-- A document begins with a mark that ends no array. -/
theorem chars_start (level : Nat) (document : Json) :
    ∃ head others, chars level document = head :: others ∧ isLayout head = false ∧ head ≠ ']' := by
  cases document with
  | null => exact ⟨'n', _, by rw [chars]; rfl, by decide, by decide⟩
  | integer value =>
      obtain ⟨head, others, digits, graphic, numeric⟩ := toString_start value
      refine ⟨head, others, by rw [chars, digits], graphic, fun same => numeric ?_⟩
      rw [same]
      decide
  | text value => exact ⟨'"', _, by rw [chars]; rfl, by decide, by decide⟩
  | array items =>
      cases items with
      | nil => exact ⟨'[', _, by rw [chars], by decide, by decide⟩
      | cons item items => exact ⟨'[', _, chars_array level item items, by decide, by decide⟩
  | object fields =>
      cases fields with
      | nil => exact ⟨'{', _, by rw [chars], by decide, by decide⟩
      | cons field fields => exact ⟨'{', _, chars_object level field fields, by decide, by decide⟩

theorem readValue_newline (depth level : Nat) (text : List Char) :
    readValue depth (newline level ++ text) = readValue depth text := by
  cases depth with
  | zero => rfl
  | succ depth => rw [readValue, readValue, skip_newline]

theorem readField_fieldChars {depth level : Nat} {field : String × Json}
    (reads : ∀ rest, Stops rest → readValue depth (chars level field.2 ++ rest) = some (field.2, rest))
    {rest : List Char} (stops : Stops rest) :
    readField (readValue depth) (newline level ++ fieldChars level field ++ rest) = some (field, rest) := by
  obtain ⟨key, value⟩ := field
  obtain ⟨further, quoted, readKey⟩ := readString_string key (':' :: ' ' :: (chars level value ++ rest))
  have starts : newline level ++ fieldChars level (key, value) ++ rest =
      newline level ++ '"' :: further := by
    rw [← quoted, fieldChars]
    simp only [List.append_assoc, List.cons_append]
  have readBlank : readValue depth (' ' :: (chars level value ++ rest)) = some (value, rest) := by
    rw [← reads rest stops]
    cases depth <;> rfl
  rw [readField, starts, skip_newline, skip_of_head (by decide)]
  simp only [readKey, Option.bind_eq_bind, Option.bind_some,
    skip_of_head (by decide : isLayout ':' = false), readBlank]
  rw [String.ofList_toList]
  rfl

/-- The text of a number begins like no other document. -/
theorem readValue_integer (depth : Nat) (value : Int) {rest : List Char} (stops : Stops rest) :
    readValue (depth + 1) ((toString value).toList ++ rest) = some (.integer value, rest) := by
  obtain ⟨head, others, digits, graphic, numeric⟩ := toString_start value
  have reads := readInteger_toString value stops
  have unlike : ∀ mark ∈ ['"', '[', '{', 'n'],
      ∀ further, head :: (others ++ rest) ≠ mark :: further := by
    intro mark member further same
    rw [(List.cons.inj same).1] at numeric
    exact numeric (List.mem_append_left [']'] member)
  rw [digits, List.cons_append] at reads ⊢
  rw [readValue, skip_of_head graphic]
  split
  case h_1 same => exact absurd same (unlike '"' (by decide) _)
  case h_2 same => exact absurd same (unlike '[' (by decide) _)
  case h_3 same => exact absurd same (unlike '{' (by decide) _)
  case h_4 same => exact absurd same (unlike 'n' (by decide) _)
  case h_5 => rw [reads]; rfl

/-- A document is not deeper than its text is long. -/
theorem readValue_chars {depth : Nat} (level : Nat) (document : Json) (rest : List Char)
    (enough : (chars level document).length ≤ depth) (stops : Stops rest) :
    readValue depth (chars level document ++ rest) = some (document, rest) := by
  induction depth generalizing document level rest with
  | zero =>
      obtain ⟨head, others, starts, -⟩ := chars_start level document
      rw [starts] at enough
      exact absurd enough (Nat.not_succ_le_zero _)
  | succ depth ih =>
      cases document with
      | null => rw [chars]; rfl
      | integer value =>
          rw [chars]
          exact readValue_integer depth value stops
      | text value =>
          obtain ⟨further, quoted, reads⟩ := readString_string value rest
          rw [chars, quoted, readValue, skip_of_head (by decide)]
          simp only [reads, Option.map_some, String.ofList_toList]
      | array items =>
          cases items with
          | nil => rw [chars]; rfl
          | cons item items =>
              rw [chars_array] at enough ⊢
              have inner : readRow (readValue depth) ']'
                  (row (chars (level + 1)) (level + 1) item items ++ newline level ++ ']' :: rest) =
                    some (item :: items, rest) := by
                refine readRow_row (by decide) level (chars_start (level + 1) item) ?_
                intro other member rest stops
                have short := length_row (chars (level + 1)) (level + 1) member
                rw [List.append_assoc, readValue_newline]
                refine ih _ _ _ ?_ stops
                simp only [List.length_cons, List.length_append] at enough
                omega
              rw [List.cons_append, readValue, skip_of_head (by decide)]
              simp only [List.append_assoc, List.cons_append, List.nil_append] at inner ⊢
              rw [inner]
              rfl
      | object fields =>
          cases fields with
          | nil => rw [chars]; rfl
          | cons field fields =>
              rw [chars_object] at enough ⊢
              have inner : readRow (readField (readValue depth)) '}'
                  (row (fieldChars (level + 1)) (level + 1) field fields ++ newline level ++
                    '}' :: rest) = some (field :: fields, rest) := by
                refine readRow_row (by decide) level ⟨'"', _, rfl, by decide, by decide⟩ ?_
                intro other member rest stops
                have short := length_row (fieldChars (level + 1)) (level + 1) member
                refine readField_fieldChars (fun rest stops => ih _ _ _ ?_ stops) stops
                simp only [fieldChars, List.length_cons, List.length_append] at enough short
                omega
              rw [List.cons_append, readValue, skip_of_head (by decide)]
              simp only [List.append_assoc, List.cons_append, List.nil_append] at inner ⊢
              rw [inner]
              rfl

theorem read?_render (document : Json) : read? document.render = some document := by
  have whole := readValue_chars 0 document [] (Nat.le_refl _) nofun
  rw [List.append_nil] at whole
  rw [read?, Json.render, String.length_ofList, String.toList_ofList, whole]
  rfl

/-- Text of another layout is read as well. -/
example : read? " [ 1,-20 ,\n\tnull]\n" = some (.array [.integer 1, .integer (-20), .null]) := by
  cbv

end JsonReader

namespace Json

def Ascii (text : List Char) : Prop :=
  ∀ character ∈ text, character.toNat < 0x80

section Ascii

variable {character : Char} {text other : List Char}

@[simp] theorem ascii_nil : Ascii [] := List.forall_mem_nil _

@[simp] theorem ascii_cons : Ascii (character :: text) ↔ character.toNat < 0x80 ∧ Ascii text :=
  List.forall_mem_cons

@[simp] theorem ascii_append : Ascii (text ++ other) ↔ Ascii text ∧ Ascii other :=
  List.forall_mem_append

@[simp] theorem ascii_newline (level : Nat) : Ascii (newline level) := by
  refine ascii_cons.mpr ⟨by decide, fun character blank => ?_⟩
  rw [List.eq_of_mem_replicate blank]
  decide

@[simp] theorem ascii_unitEscape (unit : Nat) : Ascii (unitEscape unit) := by
  have digit : ∀ value, (hexDigit (value % 16)).toNat < 0x80 := fun value =>
    (by decide : ∀ value < 16, (hexDigit value).toNat < 0x80) _ (Nat.mod_lt _ (by decide))
  simp [unitEscape, hexDigits, digit]

theorem ascii_escapedCharacter (character : Char) : Ascii (escapedCharacter character) := by
  rw [escapedCharacter]
  split_ifs with _ _ _ _ _ _ _ graphic <;> simp
  simp only [Bool.and_eq_true, decide_eq_true_eq] at graphic
  omega

@[simp] theorem ascii_string (value : String) : Ascii (string value) := by
  have escaped : Ascii (value.toList.flatMap escapedCharacter) := by
    intro character member
    obtain ⟨whole, -, within⟩ := List.mem_flatMap.mp member
    exact ascii_escapedCharacter whole character within
  simp [string, escaped]

theorem ascii_integer (value : Int) : Ascii (toString value).toList := by
  have digits : ∀ number : Nat, Ascii number.repr.toList := by
    intro number digit member
    have isDigit := repr_digits number digit member
    simp only [Token.isDigit, Bool.and_eq_true, decide_eq_true_eq] at isDigit
    exact Nat.lt_of_le_of_lt isDigit.2 (by decide)
  cases value with
  | ofNat number => exact digits number
  | negSucc number =>
      rw [JsonReader.toString_negSucc]
      exact ascii_cons.mpr ⟨by decide, digits _⟩

mutual

theorem ascii_chars (level : Nat) : (document : Json) → Ascii (chars level document)
  | .null => by simp [chars]
  | .integer value => by rw [chars]; exact ascii_integer value
  | .text value => by simp [chars]
  | .array [] => by simp [chars]
  | .array (item :: items) => by
      simp [chars, ascii_chars (level + 1) item, ascii_moreItems (level + 1) items]
  | .object [] => by simp [chars]
  | .object ((key, value) :: fields) => by
      simp [chars, ascii_chars (level + 1) value, ascii_moreFields (level + 1) fields]

theorem ascii_moreItems (level : Nat) : (items : List Json) → Ascii (moreItems level items)
  | [] => by simp [moreItems]
  | item :: items => by simp [moreItems, ascii_chars level item, ascii_moreItems level items]

theorem ascii_moreFields (level : Nat) :
    (fields : List (String × Json)) → Ascii (moreFields level fields)
  | [] => by simp [moreFields]
  | (key, value) :: fields => by
      simp [moreFields, ascii_chars level value, ascii_moreFields level fields]

end

end Ascii

end Json

end MonkeyLang.Text
