import MonkeyLang.Builtin.Core
import MonkeyLang.Builtin.Text
import MonkeyLang.Proofs.Evaluation.Likeness

namespace MonkeyLang

/-! # Builtins that are uniform in their arguments

The core builtins and those on strings look at types, contents and lengths only, in which like
arguments do not differ, whatever likeness is.
-/

/-- A builtin that does not tell like arguments apart. -/
def Builtin.Uniform (builtin : Builtin) : Prop :=
  ∀ (likeness : Likeness) (world : likeness.World) {arguments others : List Value},
    likeness.Rows world arguments others →
    likeness.Scripts world (builtin.run arguments) (builtin.run others)

namespace Likeness

variable {likeness : Likeness} {world : likeness.World} {items otherItems : List Value}

theorem Scripts.none : likeness.Scripts world (.give none) (.give none) := .give .none

theorem Scripts.null : likeness.Scripts world (.give (some .null)) (.give (some .null)) :=
  .give (.some (likeness.null world))

theorem Scripts.giveStrings (texts : List String) {made otherMade : List Value}
    (values : likeness.Rows world made otherMade) :
    likeness.Scripts world (.giveStrings texts made) (.giveStrings texts otherMade) := by
  induction texts generalizing world made otherMade with
  | nil => exact giveNew (.array (List.rel_reverse values))
  | cons text texts ih =>
      exact .create (.string text) fun _ _ _ grown value => ih (.cons value (rows_later grown values))

theorem getLastD (values : likeness.Rows world items otherItems) {fallback other : Value}
    (alike : likeness.Values world fallback other) :
    likeness.Values world (items.getLastD fallback) (otherItems.getLastD other) := by
  induction values generalizing fallback other with
  | nil => exact alike
  | cons item _ ih =>
      rw [List.getLastD_cons, List.getLastD_cons]
      exact ih item

end Likeness

namespace Builtin

open Likeness (Scripts)

variable {likeness : Likeness} {world : likeness.World} {items otherItems : List Value}

theorem len_uniform : len.Uniform := by
  intro likeness world arguments others alike
  cases alike with
  | nil => exact .none
  | cons first _ =>
      cases likeness.values first with
      | array _ _ items =>
          simp only [len, items.length_eq]
          exact .giveNew (.integer _)
      | string _ _ text => exact .giveNew (.integer _)
      | _ => exact .fail _ _ _

theorem first_uniform : first.Uniform := by
  intro likeness world arguments others alike
  cases alike with
  | nil => exact .none
  | cons first _ =>
      cases likeness.values first with
      | array _ _ items =>
          cases items with
          | nil => exact .null
          | cons item _ => exact .give (.some item)
      | _ => exact .fail _ _ _

theorem last_uniform : last.Uniform := by
  intro likeness world arguments others alike
  cases alike with
  | nil => exact .none
  | cons first _ =>
      cases likeness.values first with
      | array _ _ items => exact .give (.some (Likeness.getLastD items (likeness.null world)))
      | _ => exact .fail _ _ _

theorem rest_uniform : rest.Uniform := by
  intro likeness world arguments others alike
  cases alike with
  | nil => exact .none
  | cons first _ =>
      cases likeness.values first with
      | array _ _ items =>
          cases items with
          | nil => exact .null
          | cons _ items => exact .giveNew (.array items)
      | _ => exact .fail _ _ _

theorem push_uniform : push.Uniform := by
  intro likeness world arguments others alike
  cases alike with
  | nil => exact .none
  | cons first behind =>
      cases likeness.values first with
      | array _ _ items =>
          cases behind with
          | nil => exact .fail _ _ _
          | cons item _ => exact .giveNew (.array (List.rel_append items (.cons item .nil)))
      | _ => cases behind <;> exact .fail _ _ _

theorem puts_uniform : puts.Uniform := by
  intro likeness world arguments others alike
  induction alike with
  | nil => exact .null
  | cons first _ ih =>
      change likeness.Scripts world (.print _ (printAll _)) (.print _ (printAll _))
      rw [likeness.inspect first]
      exact .print _ ih

theorem core_uniform : ∀ builtin ∈ core, builtin.Uniform := by
  intro builtin member
  simp only [core, List.mem_cons, List.not_mem_nil, or_false] at member
  rcases member with rfl | rfl | rfl | rfl | rfl | rfl
  · exact len_uniform
  · exact first_uniform
  · exact last_uniform
  · exact rest_uniform
  · exact push_uniform
  · exact puts_uniform

theorem upper_uniform : upper.Uniform := by
  intro likeness world arguments others alike
  cases alike with
  | nil => exact .none
  | cons first _ =>
      cases likeness.values first with
      | string _ _ text => exact .giveNew (.string _)
      | _ => exact .fail _ _ _

theorem lower_uniform : lower.Uniform := by
  intro likeness world arguments others alike
  cases alike with
  | nil => exact .none
  | cons first _ =>
      cases likeness.values first with
      | string _ _ text => exact .giveNew (.string _)
      | _ => exact .fail _ _ _

theorem split_uniform : split.Uniform := by
  intro likeness world arguments others alike
  cases alike with
  | nil => exact .none
  | cons first behind =>
      cases likeness.values first with
      | string _ _ text =>
          cases behind with
          | nil => exact .giveStrings _ .nil
          | cons second _ =>
              cases likeness.values second with
              | string _ _ separator =>
                  simp only [split]
                  split
                  · exact .fail _ _ _
                  · exact .giveStrings _ .nil
              | _ => exact .fail _ _ _
      | _ => exact .fail _ _ _

/-- The texts of like items, or the types of the first items that have none, are the same. -/
theorem texts_uniform (alike : likeness.Rows world items otherItems) :
    (∃ pieces, texts items = .ok pieces ∧ texts otherItems = .ok pieces) ∨
      ∃ value other, texts items = .error value ∧ texts otherItems = .error other ∧
        value.typeName = other.typeName := by
  induction alike with
  | nil => exact .inl ⟨[], rfl, rfl⟩
  | cons first _ ih =>
      cases likeness.values first with
      | string _ _ text =>
          rcases ih with ⟨pieces, read, otherRead⟩ | ⟨value, other, read, otherRead, same⟩
          · refine .inl ⟨text.toList :: pieces, ?_, ?_⟩
            · simp only [texts, read]
            · simp only [texts, otherRead]
          · refine .inr ⟨value, other, ?_, ?_, same⟩
            · simp only [texts, read]
            · simp only [texts, otherRead]
      | _ => exact .inr ⟨_, _, rfl, rfl, rfl⟩

theorem joined_uniform (separator : List Char) (alike : likeness.Rows world items otherItems) :
    likeness.Scripts world (joined separator items) (joined separator otherItems) := by
  unfold joined
  rcases texts_uniform alike with ⟨pieces, read, otherRead⟩ | ⟨value, other, read, otherRead, same⟩
  · rw [read, otherRead]
    exact .giveNew (.string _)
  · rw [read, otherRead]
    dsimp only
    rw [same]
    exact .fail _ _ _

theorem join_uniform : join.Uniform := by
  intro likeness world arguments others alike
  cases alike with
  | nil => exact .none
  | cons first behind =>
      cases likeness.values first with
      | array _ _ items =>
          cases behind with
          | nil => exact joined_uniform _ items
          | cons second _ =>
              cases likeness.values second with
              | string _ _ separator => exact joined_uniform _ items
              | _ => exact .fail _ _ _
      | _ => cases behind <;> exact .fail _ _ _

theorem strings_uniform : ∀ builtin ∈ strings, builtin.Uniform := by
  intro builtin member
  simp only [strings, List.mem_cons, List.not_mem_nil, or_false] at member
  rcases member with rfl | rfl | rfl | rfl
  · exact upper_uniform
  · exact lower_uniform
  · exact split_uniform
  · exact join_uniform

theorem plain_uniform {builtins : List Builtin}
    (plain : ∀ builtin ∈ builtins, builtin ∈ core ∨ builtin ∈ strings) :
    ∀ builtin ∈ builtins, builtin.Uniform := by
  intro builtin member
  rcases plain builtin member with isCore | isString
  · exact core_uniform builtin isCore
  · exact strings_uniform builtin isString

end Builtin

end MonkeyLang
