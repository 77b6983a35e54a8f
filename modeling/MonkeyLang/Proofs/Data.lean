import MonkeyLang.Proofs.Safety
import MonkeyLang.Proofs.Syntax.Rendering
import MonkeyLang.Value.Inspect

namespace MonkeyLang

open Grammar (Tokens)
open Parse (Leads)

/-! # Printed data

The text of a value made of integers, booleans, arrays and hashes is a program, and it gives such a
value again.
-/

namespace Value

/-- Numbers of 64 bits that have a negative of 64 bits, truth values, and rows and tables of these. -/
inductive IsData : Value → Prop
  | integer (id : ObjectId) {value : Int} (lower : -0x8000000000000000 < value)
      (upper : value < 0x8000000000000000) : IsData (.integer id value)
  | boolean (value : Bool) : IsData (.boolean value)
  | array (id : ObjectId) {items : List Value} (each : ∀ item ∈ items, IsData item) :
      IsData (.array id items)
  | hash (id : ObjectId) {entries : List (Key × Value)}
      (keys : ∀ entry ∈ entries, IsData entry.1.toValue) (values : ∀ entry ∈ entries, IsData entry.2)
      (distinct : entries.Pairwise fun entry other => entry.1.matching other.1 = false) :
      IsData (.hash id entries)

/-- Values of one content, whatever their identities. -/
inductive Alike : Value → Value → Prop
  | integer (id other : ObjectId) (value : Int) : Alike (.integer id value) (.integer other value)
  | boolean (value : Bool) : Alike (.boolean value) (.boolean value)
  | array (id other : ObjectId) {items others : List Value} (each : List.Forall₂ Alike items others) :
      Alike (.array id items) (.array other others)
  | hash (id other : ObjectId) {entries others : List (Key × Value)}
      (each : List.Forall₂ (Prod.RProd (fun key other => key.matching other = true) Alike) entries
        others) : Alike (.hash id entries) (.hash other others)

mutual

/-- How many arrays and hashes stand in one another, the innermost value included. -/
def nesting : Value → Nat
  | array _ items => nestingAll items + 1
  | hash _ entries => nestingEntries entries + 1
  | _ => 1

def nestingAll : List Value → Nat
  | [] => 0
  | item :: items => max item.nesting (nestingAll items)

def nestingEntries : List (Key × Value) → Nat
  | [] => 0
  | (_, value) :: entries => max value.nesting (nestingEntries entries)

end

theorem nesting_pos (value : Value) : 0 < value.nesting := by
  cases value <;> exact Nat.succ_pos _

theorem nesting_item {items : List Value} {item : Value} (member : item ∈ items) :
    item.nesting ≤ nestingAll items := by
  induction member with
  | head => exact Nat.le_max_left _ _
  | tail first _ ih => exact Nat.le_trans ih (Nat.le_max_right _ _)

theorem nesting_entry {entries : List (Key × Value)} {entry : Key × Value}
    (member : entry ∈ entries) : entry.2.nesting ≤ nestingEntries entries := by
  induction member with
  | head => exact Nat.le_max_left _ _
  | tail first _ ih => exact Nat.le_trans ih (Nat.le_max_right _ _)

theorem Alike.notSignal {value other : Value} (alike : value.Alike other) :
    other.isSignal = false := by
  cases alike <;> rfl

theorem Alike.key {key : Key} {other : Value} (alike : key.toValue.Alike other) :
    ∃ found, other.toKey? = some found ∧ key.matching found = true := by
  cases key with
  | integer id value =>
      cases alike
      exact ⟨_, rfl, beq_self_eq_true value⟩
  | boolean value =>
      cases alike
      exact ⟨_, rfl, beq_self_eq_true value⟩
  | string id text => cases alike

end Value

theorem Token.isDigit_of_isDigit {character : Char} (digit : character.isDigit = true) :
    Token.isDigit character = true := by
  simp only [Char.isDigit, Bool.and_eq_true, decide_eq_true_eq] at digit
  simp only [Token.isDigit, Bool.and_eq_true, decide_eq_true_eq]
  exact digit

theorem repr_digits (number : Nat) : ∀ digit ∈ number.repr.toList, Token.isDigit digit = true := by
  intro digit member
  rw [Nat.toList_repr] at member
  exact Token.isDigit_of_isDigit (Nat.isDigit_of_mem_toDigits (by decide) (by decide) member)

theorem Grammar.numeral_repr (number : Nat) : Grammar.Numeral number.repr number where
  nonempty := by
    rw [Nat.toList_repr]
    exact Nat.toDigits_ne_nil
  digits := repr_digits number
  value := by
    rw [Nat.toList_repr]
    induction number using Nat.strongRecOn with
    | ind number ih =>
        by_cases small : number < 10
        · simp [Nat.toDigits_of_lt_base small, Nat.toNat_digitChar_sub_48_of_lt_ten small]
        · have last := Nat.toNat_digitChar_sub_48_of_lt_ten (Nat.mod_lt number (by decide : 10 > 0))
          rw [Nat.toDigits_of_base_le (by decide) (by omega), List.foldl_append,
            ← ih (number / 10) (by omega)]
          simp only [List.foldl_cons, List.foldl_nil, last]
          omega

theorem repr_limited {number : Nat} {token : Token} (bounded : number < 0x8000000000000000)
    (literal : token.literal = number.repr) : ¬ token.Oversized := by
  intro oversized
  have tooMany := oversized.tooMany
  rw [literal, Nat.toList_repr] at tooMany
  have few : (Nat.toDigits 10 number).length ≤ 19 :=
    (Nat.length_toDigits_le_iff (by decide) (by decide)).mpr (by omega)
  exact absurd (Nat.le_trans tooMany few) (by decide)

/-- An evaluation that ends with a result of some kind in every state. -/
def Eval.Returns {α : Type} (action : Eval α) (kind : α → Prop) : Prop :=
  ∀ before, (action before).Meets (fun _ => True) (fun result _ => kind result) fun _ _ => False

namespace Eval.Returns

variable {α β : Type} {action : Eval α} {kind : α → Prop}

theorem bind {next : α → Eval β} {last : β → Prop} (returns : action.Returns kind)
    (onward : ∀ result, kind result → (next result).Returns last) : (action >>= next).Returns last :=
  fun before => (returns before).bind fun result between given => onward result given between

theorem pure {result : α} (given : kind result) : (Pure.pure result : Eval α).Returns kind :=
  fun _ => .pure trivial given

theorem giving {result : α} {next : α → Eval β} {last : β → Prop}
    (onward : (next result).Returns last) : (Pure.pure result >>= next : Eval β).Returns last :=
  fun before => .giving trivial (onward before)

theorem create {make : ObjectId → Value} {kind : Value → Prop} (makes : ∀ id, kind (make id)) :
    (Eval.create make).Returns kind := by
  intro before
  let step (machine : Machine) : Value × Machine :=
    (make machine.nextObject, { machine with nextObject := machine.nextObject + 1 })
  change (Eval.change step before).Meets _ _ _
  exact .change trivial trivial (makes before.nextObject)

theorem outcome {kind : α → Prop} (returns : action.Returns kind) (before : Machine) :
    ∃ result, (action before).outcome = .ok result ∧ kind result := by
  obtain ⟨result, after, ended, given⟩ := (returns before).ends
  exact ⟨result, by rw [Course.outcome, ended], given⟩

end Eval.Returns

/-- Whatever happens to the operand, there is something to go on with. -/
theorem Eval.unlessSignal_returns {value : Value} {go : Option Value → Eval (Option Value)}
    {kind : Option Value → Prop} (usable : value.isSignal = false)
    (goes : (go (some value)).Returns kind) : (Eval.unlessSignal (some value) go).Returns kind := by
  unfold Eval.unlessSignal
  simp only [usable, Bool.false_eq_true, if_false]
  exact goes

/-! ## Trees that denote values -/

/-- A tree whose evaluation gives a value like the given one wherever there is room for it. -/
structure Denotes (need : Nat) (value : Value) (node : Node) : Prop where
  returns : ∀ setting depth scope, need ≤ depth → (evaluate setting depth node scope).Returns
    fun result => ∃ found, result = some found ∧ value.Alike found
  shallow : node.depth ≤ need

section Denotes

variable {need : Nat} {setting : Setting} {depth : Nat} {scope : ScopeId}

theorem denotes_integer (token : Token) (id : ObjectId) (number : Int) (need : Nat) :
    Denotes (need + 1) (.integer id number) (.integer token number) where
  returns setting depth scope room := by
    obtain ⟨depth, rfl⟩ : ∃ lower, depth = lower + 1 := ⟨depth - 1, by omega⟩
    have created : (Eval.create (.integer · number)).Returns
        fun found => (Value.integer id number).Alike found :=
      .create fun other => .integer id other number
    exact created.bind fun found alike => .pure ⟨found, rfl, alike⟩
  shallow := Nat.succ_le_succ (Nat.zero_le need)

theorem denotes_negative (token : Token) {operand : Node} (id other : ObjectId) {number : Int}
    (bounded : InRange (-number)) (denotes : Denotes need (.integer other number) operand) :
    Denotes (need + 1) (.integer id (-number)) (.unary token "-" operand) where
  returns setting depth scope room := by
    obtain ⟨depth, rfl⟩ : ∃ lower, depth = lower + 1 := ⟨depth - 1, by omega⟩
    refine (denotes.returns setting depth scope (by omega)).bind fun result given => ?_
    obtain ⟨found, rfl, alike⟩ := given
    cases alike with
    | integer _ third =>
        have created : (Eval.create (.integer · (wrap (-number)))).Returns
            fun found => (Value.integer id (-number)).Alike found :=
          .create fun fourth => (wrap_of_inRange bounded).symm ▸ .integer id fourth (-number)
        refine Eval.unlessSignal_returns rfl (.giving ?_)
        exact created.bind fun found alike => .pure ⟨found, rfl, alike⟩
  shallow := Nat.succ_le_succ denotes.shallow

theorem denotes_boolean (token : Token) (value : Bool) (need : Nat) :
    Denotes (need + 1) (.boolean value) (.boolean token value) where
  returns setting depth scope room := by
    obtain ⟨depth, rfl⟩ : ∃ lower, depth = lower + 1 := ⟨depth - 1, by omega⟩
    exact .pure ⟨_, rfl, .boolean value⟩
  shallow := Nat.succ_le_succ (Nat.zero_le need)

theorem expressions_return {values : List Value} {nodes : List Node}
    (each : List.Forall₂ (Denotes need) values nodes) (room : need ≤ depth) (found : List Value) :
    (Eval.expressions setting (evaluate setting depth) scope nodes found).Returns fun result =>
      ∃ given, result = .ok (found.reverse ++ given) ∧ List.Forall₂ Value.Alike values given := by
  induction each generalizing found with
  | nil => exact .pure ⟨[], by rw [List.append_nil], .nil⟩
  | cons first _ ih =>
      refine (first.returns setting depth scope room).bind fun result given => ?_
      obtain ⟨value, rfl, alike⟩ := given
      simp only [alike.notSignal, Bool.false_eq_true, if_false]
      intro before
      refine (ih (value :: found) before).leads (fun result after ended => ?_) fun _ _ => id
      obtain ⟨given, rfl, others⟩ := ended
      exact ⟨value :: given, by simp, .cons alike others⟩

theorem depthOfAll_denotes {values : List Value} {nodes : List Node}
    (each : List.Forall₂ (Denotes need) values nodes) : Node.depthOfAll nodes ≤ need := by
  induction each with
  | nil => exact Nat.zero_le need
  | cons first _ ih => exact Nat.max_le.mpr ⟨first.shallow, ih⟩

theorem denotes_array (token : Token) (id : ObjectId) {values : List Value} {nodes : List Node}
    (each : List.Forall₂ (Denotes need) values nodes) :
    Denotes (need + 1) (.array id values) (.array token nodes) where
  returns setting depth scope room := by
    obtain ⟨depth, rfl⟩ : ∃ lower, depth = lower + 1 := ⟨depth - 1, by omega⟩
    refine (expressions_return each (Nat.le_of_succ_le_succ room) []).bind fun result given => ?_
    obtain ⟨items, rfl, alike⟩ := given
    have created : (Eval.create (.array · items)).Returns
        fun found => (Value.array id values).Alike found :=
      .create fun other => .array id other alike
    exact created.bind fun found alike => .pure ⟨found, rfl, alike⟩
  shallow := Nat.succ_le_succ (depthOfAll_denotes each)

theorem Key.matching_symm {key other : Key} (same : key.matching other = true) :
    other.matching key = true := by
  cases key <;> cases other <;> simp_all [Key.matching]

theorem Key.matching_trans {key other third : Key} (same : key.matching other = true)
    (also : other.matching third = true) : key.matching third = true := by
  cases key <;> cases other <;> cases third <;> simp_all [Key.matching]

/-- Entries of one content. -/
abbrev SameEntry : Key × Value → Key × Value → Prop :=
  Prod.RProd (fun key other => key.matching other = true) Value.Alike

theorem putEntry_new {entries found : List (Key × Value)} {key other : Key} {value : Value}
    (same : List.Forall₂ SameEntry entries found) (matched : key.matching other = true)
    (fresh : ∀ entry ∈ entries, entry.1.matching key = false) :
    putEntry other value found = found ++ [(other, value)] := by
  induction same with
  | nil => rfl
  | @cons entry present _ _ first _ ih =>
      obtain ⟨here, behind⟩ := List.forall_mem_cons.mp fresh
      cases first with
      | @intro former _ current _ sameKey _ =>
          have unmatched : current.matching other = false := by
            by_contra clash
            have back := Key.matching_trans (Bool.of_not_eq_false clash) (Key.matching_symm matched)
            rw [Key.matching_trans sameKey back] at here
            cases here
          simp [putEntry, unmatched, ih behind]

/-- Trees that denote the key and the value of an entry. -/
abbrev DenotesEntry (need : Nat) : Key × Value → Node × Node → Prop :=
  Paired (fun key => Denotes need key.toValue) (Denotes need)

theorem entries_return {entries : List (Key × Value)} {pairs : List (Node × Node)}
    (each : List.Forall₂ (DenotesEntry need) entries pairs) (room : need ≤ depth) (id : ObjectId)
    {former found : List (Key × Value)} (same : List.Forall₂ SameEntry former found)
    (distinct : (former ++ entries).Pairwise fun entry other => entry.1.matching other.1 = false) :
    (Eval.entries setting (evaluate setting depth) scope pairs found).Returns fun result =>
      ∃ given, result = some given ∧ (Value.hash id (former ++ entries)).Alike given := by
  induction each generalizing former found with
  | nil =>
      have created : (Eval.create (.hash · found)).Returns
          fun given => (Value.hash id former).Alike given :=
        .create fun other => .hash id other same
      rw [List.append_nil]
      exact created.bind fun given alike => .pure ⟨given, rfl, alike⟩
  | @cons entry pair entries pairs first _ ih =>
      obtain ⟨key, value⟩ := entry
      have fresh : ∀ other ∈ former, other.1.matching key = false := by
        intro other member
        exact (List.pairwise_append.mp distinct).2.2 other member (key, value) List.mem_cons_self
      refine (first.1.returns setting depth scope room).bind fun result given => ?_
      obtain ⟨keyFound, rfl, keyAlike⟩ := given
      obtain ⟨other, isKey, matched⟩ := keyAlike.key
      refine Eval.unlessSignal_returns keyAlike.notSignal (.giving ?_)
      simp only [isKey]
      refine (first.2.returns setting depth scope room).bind fun result given => ?_
      obtain ⟨valueFound, rfl, valueAlike⟩ := given
      refine Eval.unlessSignal_returns valueAlike.notSignal (.giving ?_)
      have carried : List.Forall₂ SameEntry (former ++ [(key, value)])
          (found ++ [(other, valueFound)]) :=
        List.rel_append same (.cons (.intro matched valueAlike) .nil)
      have others := ih carried
      rw [List.append_assoc, List.singleton_append] at others
      rw [putEntry_new same matched fresh]
      exact others distinct

theorem depthOfPairs_denotes {entries : List (Key × Value)} {pairs : List (Node × Node)}
    (each : List.Forall₂ (DenotesEntry need) entries pairs) : Node.depthOfPairs pairs ≤ need := by
  induction each with
  | nil => exact Nat.zero_le need
  | cons first _ ih =>
      exact Nat.max_le.mpr ⟨Nat.max_le.mpr ⟨first.1.shallow, first.2.shallow⟩, ih⟩

theorem denotes_hash (token : Token) (id : ObjectId) {entries : List (Key × Value)}
    {pairs : List (Node × Node)} (each : List.Forall₂ (DenotesEntry need) entries pairs)
    (distinct : entries.Pairwise fun entry other => entry.1.matching other.1 = false) :
    Denotes (need + 1) (.hash id entries) (.hash token pairs) where
  returns setting depth scope room := by
    obtain ⟨depth, rfl⟩ : ∃ lower, depth = lower + 1 := ⟨depth - 1, by omega⟩
    exact entries_return each (Nat.le_of_succ_le_succ room) id .nil distinct
  shallow := Nat.succ_le_succ (depthOfPairs_denotes each)

end Denotes

/-! ## Texts of data -/

namespace Value

theorem inspectAll_toList (items : List Value) :
    (inspectAll items).toList = Text.join [',', ' '] (items.map fun item => item.inspect.toList) := by
  induction items with
  | nil => rfl
  | cons first others ih =>
      cases others with
      | nil => rfl
      | cons next others =>
          rw [inspectAll, String.toList_append, ih]
          simp [Text.join]

theorem inspectEntries_toList (entries : List (Key × Value)) :
    (inspectEntries entries).toList = Text.join [',', ' ']
      (entries.map fun entry => entry.1.inspect.toList ++ ':' :: entry.2.inspect.toList) := by
  induction entries with
  | nil => rfl
  | cons first others ih =>
      obtain ⟨key, value⟩ := first
      cases others with
      | nil => simp [inspectEntries, Text.join]
      | cons next others =>
          rw [inspectEntries, String.toList_append, ih]
          simp [Text.join]

theorem key_inspect (key : Key) : key.toValue.inspect = key.inspect := by
  cases key <;> simp [Key.toValue, Key.inspect, inspect]

theorem key_nesting (key : Key) : key.toValue.nesting = 1 := by
  cases key <;> simp only [Key.toValue, nesting]

theorem number_rendered {number : Nat} (bounded : number < 0x8000000000000000) (depth : Nat) :
    Rendered number.repr.toList fun input rest =>
      ∃ token, Leads depth input (.integer token number) rest := by
  have numeral := Grammar.numeral_repr number
  refine (Rendered.single (Token.prints_number numeral.nonempty numeral.digits)).imp
    fun input rest single => ?_
  obtain ⟨token, rfl, isInteger, literal⟩ := single
  rw [String.ofList_toList] at literal
  have limited := repr_limited bounded literal
  exact ⟨token, Parse.leads_primary
    (.integer rest isInteger (literal.symm ▸ numeral) (Nat.le_of_lt_succ bounded)) limited
    (by simp [isInteger])⟩

theorem integer_rendered (id : ObjectId) {value : Int} (lower : -0x8000000000000000 < value)
    (upper : value < 0x8000000000000000) (depth : Nat) :
    Rendered (inspect (.integer id value)).toList
      (Stated (depth + 2) (Denotes (depth + 2)) (.integer id value)) := by
  cases value with
  | ofNat number =>
      have rendered : Rendered number.repr.toList _ :=
        number_rendered (Int.ofNat_lt.mp upper) (depth + 1)
      refine rendered.imp fun input rest leads stops => ?_
      obtain ⟨token, leads⟩ := leads
      exact ⟨_, denotes_integer token id number (depth + 1), leads.readable stops⟩
  | negSucc less =>
      have bounded : less + 1 < 0x8000000000000000 := by omega
      have shown : (inspect (.integer id (.negSucc less))).toList = '-' :: (less + 1).repr.toList := by
        change ("-" ++ (less + 1).repr).toList = _
        rw [String.toList_append]
        rfl
      refine shown ▸ ((number_rendered bounded depth).symbol '-' rfl).imp
        fun input rest parts stops => ?_
      obtain ⟨_, ⟨minus, rfl, isMinus, literal⟩, token, leads⟩ := parts
      have applied := leads.readable (Nat.le_trans stops (by decide : _ ≤ Parse.unaryPower))
      have isUnary : minus.kind ∈ Grammar.unaryOperators := by simp [isMinus, Grammar.unaryOperators]
      have inRange : InRange (-((less + 1 : Nat) : Int)) := by
        unfold InRange
        omega
      refine ⟨_, ?_, (Parse.leads_unary isUnary applied).readable stops⟩
      rw [literal]
      exact denotes_negative minus id id inRange (denotes_integer token id _ depth)

theorem boolean_rendered (value : Bool) (depth : Nat) :
    Rendered (inspect (.boolean value)).toList
      (Stated (depth + 1) (Denotes (depth + 1)) (.boolean value)) := by
  have keyword : (if value then Token.Kind.trueKeyword else .falseKeyword).fixed? =
      some (inspect (.boolean value)) := by
    cases value <;> rfl
  refine (Rendered.single (Token.prints_fixed keyword)).imp fun input rest single stops => ?_
  obtain ⟨token, rfl, isKeyword, _⟩ := single
  have leads : Leads depth (token :: rest) (.boolean token value) rest := by
    cases value with
    | true =>
        exact Parse.leads_primary (.trueKeyword rest isKeyword) (Parse.not_oversized isKeyword nofun)
          (by simp [isKeyword])
    | false =>
        exact Parse.leads_primary (.falseKeyword rest isKeyword)
          (Parse.not_oversized isKeyword nofun) (by simp [isKeyword])
  exact ⟨_, denotes_boolean token value depth, leads.readable stops⟩

/-- Data is printed as a tree that denotes it. -/
theorem IsData.rendered {value : Value} (data : value.IsData) {depth : Nat}
    (room : value.nesting < depth) :
    Rendered value.inspect.toList (Stated depth (Denotes depth) value) := by
  induction data generalizing depth with
  | integer id lower upper =>
      obtain ⟨depth, rfl⟩ : ∃ less, depth = less + 2 := ⟨depth - 2, by simp only [nesting] at room; omega⟩
      exact integer_rendered id lower upper depth
  | boolean value =>
      obtain ⟨depth, rfl⟩ : ∃ less, depth = less + 1 := ⟨depth - 1, by omega⟩
      exact boolean_rendered value depth
  | @array id items _ ih =>
      simp only [nesting] at room
      obtain ⟨depth, rfl⟩ : ∃ less, depth = less + 1 := ⟨depth - 1, by omega⟩
      have rendered := array_rendered fun item member =>
        ih item member (by have := nesting_item member; omega : item.nesting < depth)
      rw [← inspectAll_toList] at rendered
      have shown : (inspect (.array id items)).toList = '[' :: ((inspectAll items).toList ++ [']']) := by
        simp [inspect]
      refine shown ▸ rendered.imp fun input rest parts stops => ?_
      obtain ⟨opening, nodes, _, each, leads⟩ := parts
      exact ⟨_, denotes_array opening id each, leads.readable stops⟩
  | @hash id entries keys values distinct namedIh ih =>
      simp only [nesting] at room
      obtain ⟨depth, rfl⟩ : ∃ less, depth = less + 1 := ⟨depth - 1, by omega⟩
      have each : ∀ entry ∈ entries,
          Rendered entry.1.inspect.toList
            (Stated depth (fun key : Key => Denotes depth key.toValue) entry.1) ∧
          Rendered entry.2.inspect.toList (Stated depth (Denotes depth) entry.2) := by
        intro entry member
        have inner := nesting_entry member
        have least := nesting_pos entry.2
        have named := namedIh entry member (by rw [key_nesting]; omega : _ < depth)
        rw [key_inspect] at named
        exact ⟨named, ih entry member (by omega)⟩
      have rendered := hash_rendered (fun key : Key => key.inspect.toList)
        (fun item : Value => item.inspect.toList) each
      rw [← inspectEntries_toList] at rendered
      have shown : (inspect (.hash id entries)).toList =
          '\x7b' :: ((inspectEntries entries).toList ++ ['\x7d']) := by
        simp [inspect]
      refine shown ▸ rendered.imp fun input rest parts stops => ?_
      obtain ⟨opening, pairs, _, each, leads⟩ := parts
      exact ⟨_, denotes_hash opening id each distinct, leads.readable stops⟩

end Value

/-- Hooks that never break a run off. -/
def Hooks.Calm (hooks : Hooks) : Prop :=
  ∀ event, ∀ hook ∈ hooks.of event, ∀ circumstance notice fault,
    hook.react circumstance notice ≠ .raise fault

section Programs

variable {setting : Setting} {notice : Notice}

theorem callHook_calm {hook : Hook} (calm : ∀ circumstance fault,
    hook.react circumstance notice ≠ .raise fault) (shown : ∀ scopes, notice.details? scopes ≠ none) :
    (Eval.callHook hook notice).Returns fun _ => True := by
  intro before
  refine .changing trivial trivial ?_
  cases reaction : hook.react (before.circumstance hook) notice with
  | ignore => exact .pure trivial trivial
  | print line => exact .modifies trivial trivial trivial
  | raise fault => exact absurd reaction (calm _ fault)
  | record =>
      cases details : notice.details? before.scopes with
      | some details => exact .modifies trivial trivial trivial
      | none => exact absurd details (shown before.scopes)

theorem announce_calm (calm : setting.hooks.Calm) (shown : ∀ scopes, notice.details? scopes ≠ none) :
    (Eval.announce setting.hooks notice).Returns fun _ => True := by
  have all : ∀ hook ∈ setting.hooks.of notice.event, ∀ circumstance fault,
      hook.react circumstance notice ≠ .raise fault :=
    fun hook member circumstance => calm notice.event hook member circumstance notice
  have calls : (Eval.callHooks (setting.hooks.of notice.event) notice).Returns fun _ => True := by
    generalize setting.hooks.of notice.event = called at all
    induction called with
    | nil => exact .pure trivial
    | cons hook others ih =>
        obtain ⟨here, behind⟩ := List.forall_mem_cons.mp all
        exact (callHook_calm here shown).bind fun _ _ => ih behind
  exact fun before => .noting trivial (calls before)

theorem locate_returns {node : Node} (shallow : node.depth ≤ renderLimit) :
    (Eval.locate setting node).Returns fun _ => True := by
  intro before
  unfold Eval.locate
  dsimp only
  refine .look trivial ?_
  generalize (if node.token.line = 0 then none else before.lines[node.token.line - 1]?) = line
  cases line with
  | some line => exact .pure trivial trivial
  | none =>
      simp only [Node.render?, shallow, if_true]
      exact .pure trivial trivial

variable {need : Nat} {value : Value} {depth : Nat} {scope : ScopeId} {token : Token} {body : List Node}

theorem statements_return (calm : setting.hooks.Calm) (alone : Alone (Denotes need) value body)
    (shallow : need < renderLimit) (room : need ≤ depth) :
    (Eval.statements setting (evaluate setting depth) scope body none).Returns fun result =>
      ∃ found, result = some found ∧ value.Alike found := by
  obtain ⟨first, copy, rfl, denotes⟩ := alone
  have within : (Node.expressionStatement first copy).depth ≤ renderLimit := by
    have lower := denotes.shallow
    simp only [Node.depth]
    omega
  have logged : (Eval.logStatement setting (.expressionStatement first copy)).Returns fun _ => True :=
    (locate_returns within).bind fun _ _ _ => .modifies trivial trivial trivial
  have shown : ∀ scopes, (Notice.beforeStatement (.expressionStatement first copy) scope).details?
      scopes ≠ none := by
    simp [Notice.details?, Node.render?, within]
  have shownAfter : ∀ scopes, (Notice.afterStatement (.expressionStatement first copy) scope).details?
      scopes ≠ none := by
    simp [Notice.details?, Node.render?, within]
  have stated : (Eval.inStatement setting (.expressionStatement first copy) scope
      (evaluate setting depth copy scope)).Returns fun result =>
        ∃ found, result = some found ∧ value.Alike found := by
    refine (announce_calm calm shown).bind fun _ _ => logged.bind fun _ _ => ?_
    refine (denotes.returns setting depth scope room).bind fun result given => ?_
    exact (announce_calm calm shownAfter).bind fun _ _ => .pure given
  refine stated.bind fun result given => ?_
  obtain ⟨found, rfl, alike⟩ := given
  simp only [alike.notSignal, Bool.false_eq_true, if_false]
  exact .pure ⟨found, rfl, alike⟩

/-- A text of data gives such data wherever there is room. -/
theorem execute_returns (calm : setting.hooks.Calm) {text : String}
    (read : Parsed.ofText text = .ok ⟨.program ⟨token, body⟩, []⟩)
    (alone : Alone (Denotes need) value body) (shallow : need + 1 < renderLimit) (room : need < depth) :
    (Eval.execute setting (evaluate setting depth) text scope).Returns fun result =>
      ∃ found, result = some found ∧ value.Alike found := by
  obtain ⟨depth, rfl⟩ : ∃ lower, depth = lower + 1 := ⟨depth - 1, by omega⟩
  have within : (Node.program ⟨token, body⟩).depth ≤ renderLimit := by
    obtain ⟨first, copy, rfl, denotes⟩ := alone
    have lower := denotes.shallow
    simp only [Node.depth, Node.depthOfAll]
    omega
  have shown : ∀ scopes, (Notice.programStart (.program ⟨token, body⟩)).details? scopes ≠ none := by
    simp [Notice.details?, Node.render?, within]
  have ran : (Eval.body setting (evaluate setting (depth + 1)) text scope).Returns fun result =>
      ∃ found, result = some found ∧ value.Alike found := by
    unfold Eval.body
    rw [parse_pure read rfl]
    refine .giving ((announce_calm calm shown).bind fun _ _ => ?_)
    exact statements_return calm alone (by omega) (by omega)
  intro before
  refine .modifying trivial trivial (.bind (.recover (ran _) fun _ _ => False.elim) ?_)
  intro result between given
  obtain ⟨found, rfl, alike⟩ := given
  have ended : ∀ scopes, (Notice.programEnd (some found)).details? scopes ≠ none := by
    simp [Notice.details?]
  have announced : (do Eval.announce setting.hooks (.programEnd (some found)); return some found :
      Eval (Option Value)).Returns fun result => ∃ found, result = some found ∧ value.Alike found :=
    (announce_calm calm ended).bind fun _ _ => .pure ⟨found, rfl, alike⟩
  cases alike <;> exact announced between

end Programs

/-- The text of data that is not too deep is a program without errors, and wherever it is executed or
run, under whatever hooks that do not break it off, it gives such data again. -/
theorem printed_data_reads_back {value : Value} (data : value.IsData)
    (room : value.nesting < Parsed.depthLimit) :
    (∃ program, Parsed.ofText value.inspect = .ok ⟨program, []⟩) ∧
    ∀ setting : Setting, setting.hooks.Calm → ∀ machine,
      (∃ found, (setting.run value.inspect machine).outcome = .ok (some found) ∧ value.Alike found) ∧
      ∀ scope, ∃ found, (setting.execute value.inspect scope machine).outcome = .ok (some found) ∧
        value.Alike found := by
  have rendered := (data.rendered room).alone
  rcases rendered.readsAs Parsed.depthLimit with ⟨program, read, body, alone, rfl⟩ | ⟨shallow, _⟩
  · refine ⟨⟨_, read⟩, fun setting calm machine => ?_⟩
    have executed : ∀ scope, (setting.execute value.inspect scope).Returns fun result =>
        ∃ found, result = some found ∧ value.Alike found :=
      fun scope => execute_returns calm read alone (by decide) (by decide)
    have ran : (setting.run value.inspect).Returns fun result =>
        ∃ found, result = some found ∧ value.Alike found :=
      fun before => run_ends (executed before.scopes.size before.opened)
    constructor
    · obtain ⟨_, ended, found, rfl, alike⟩ := ran.outcome machine
      exact ⟨found, ended, alike⟩
    · intro scope
      obtain ⟨_, ended, found, rfl, alike⟩ := (executed scope).outcome machine
      exact ⟨found, ended, alike⟩
  · exact absurd shallow (by decide)

/-- A hash with a negative key, the greatest number in an array, and an empty hash. -/
theorem printed_data_reads_back_hash :
    let value := Value.hash 7 [(.integer 1 (-5), .array 2 [.boolean true, .integer 3 greatestInteger]),
      (.boolean false, .hash 4 [])]
    let setting : Setting := ⟨"<string>", false, Builtin.core, .none⟩
    value.inspect = "\x7b-5:[true, 9223372036854775807], false:\x7b\x7d\x7d" ∧
      ∃ found, (setting.run value.inspect (.initial setting)).outcome = .ok (some found) ∧
        value.Alike found := by
  intro value setting
  have empty : Value.IsData (.hash 4 []) :=
    .hash 4 (List.forall_mem_nil _) (List.forall_mem_nil _) .nil
  have items : ∀ item ∈ [Value.boolean true, .integer 3 greatestInteger], item.IsData :=
    List.forall_mem_cons.mpr ⟨.boolean true,
      List.forall_mem_singleton.mpr (.integer 3 (by decide) (by decide))⟩
  have data : value.IsData := by
    refine .hash 7 ?_ ?_ (by decide)
    · exact List.forall_mem_cons.mpr ⟨.integer 1 (by decide) (by decide),
        List.forall_mem_singleton.mpr (.boolean false)⟩
    · exact List.forall_mem_cons.mpr ⟨.array 2 items, List.forall_mem_singleton.mpr empty⟩
  obtain ⟨_, runs⟩ := printed_data_reads_back data (by decide)
  exact ⟨by decide, (runs setting (fun _ _ member => nomatch member) (.initial setting)).1⟩

end MonkeyLang
