import Mathlib.Data.List.Induction
import MonkeyLang.Proofs.Scopes

namespace MonkeyLang

/-! # Tables

The bindings of a scope and the entries of a hash are rows of pairs.  A pair that is put into them goes
to the end, unless its key is there already: then the pair with that key keeps its place and its key, and
takes the new value.  So the keys stand in the order in which they were first put, each of them once and
with the value that was put last.
-/

section Occurrences

variable {α : Type} [DecidableEq α]

/-- What occurs for the first time goes behind all that occurred before. -/
theorem eraseDups_concat (items : List α) (item : α) :
    (items ++ [item]).eraseDups =
      if item ∈ items then items.eraseDups else items.eraseDups ++ [item] := by
  rw [List.eraseDups_append, List.removeAll, List.filter_cons, List.filter_nil]
  by_cases known : item ∈ items
  · simp [known]
  · simp [known, List.eraseDups_cons]

theorem nodup_eraseDups (items : List α) : items.eraseDups.Nodup := by
  induction items using List.reverseRecOn with
  | nil => exact List.nodup_nil
  | append_singleton items item ih =>
      rw [eraseDups_concat]
      split
      · exact ih
      · rename_i fresh
        refine List.nodup_append.mpr ⟨ih, List.pairwise_singleton _ item, fun present member other last => ?_⟩
        rintro rfl
        rw [List.mem_singleton.mp last] at member
        exact fresh (List.mem_eraseDups.mp member)

end Occurrences

namespace Scope

theorem names_bind (name : String) (value : Value) (bindings : List (String × Value)) :
    (bind name value bindings).map Prod.fst =
      if name ∈ bindings.map Prod.fst then bindings.map Prod.fst
      else bindings.map Prod.fst ++ [name] := by
  induction bindings with
  | nil => rfl
  | cons first others ih =>
      obtain ⟨present, old⟩ := first
      by_cases same : present = name
      · simp [bind, same]
      · have apart : ¬ name = present := fun equal => same equal.symm
        simp only [bind, beq_iff_eq, same, if_false, List.map_cons, ih, List.mem_cons, apart, false_or]
        split <;> rfl

/-- What a scope binds after some names were bound in it. -/
def written (rows : List (String × Value)) : List (String × Value) :=
  rows.foldl (fun bindings row => bind row.1 row.2 bindings) []

theorem written_concat (rows : List (String × Value)) (name : String) (value : Value) :
    written (rows ++ [(name, value)]) = bind name value (written rows) := by
  rw [written, List.foldl_append]
  rfl

/-- Names stand in the order in which they were first bound. -/
theorem written_names (rows : List (String × Value)) :
    (written rows).map Prod.fst = (rows.map Prod.fst).eraseDups := by
  induction rows using List.reverseRecOn with
  | nil => rfl
  | append_singleton rows row ih =>
      rw [written_concat, names_bind, ih, List.map_append, List.map_singleton, eraseDups_concat]
      simp only [List.mem_eraseDups]

/-- A name has the value to which it was bound last. -/
theorem written_lookup (rows : List (String × Value)) (name : String) :
    (written rows).lookup name = rows.reverse.lookup name := by
  induction rows using List.reverseRecOn with
  | nil => rfl
  | append_singleton rows row ih =>
      obtain ⟨bound, value⟩ := row
      rw [written_concat, List.reverse_append, List.reverse_singleton, List.singleton_append,
        List.lookup_cons]
      by_cases same : name = bound
      · rw [same, lookup_bind, beq_self_eq_true]
      · rw [lookup_bind_other value same, beq_false_of_ne same]
        exact ih

end Scope

namespace Key

/-- The content of a key as the host compares it.  Truth values count as numbers there. -/
def content : Key → Int ⊕ String
  | .integer _ value => .inl value
  | .boolean value => .inl (if value then 1 else 0)
  | .string _ text => .inr text

/-- What tells keys apart. -/
structure Label where
  kind : String
  content : Int ⊕ String
deriving DecidableEq

def label (key : Key) : Label := ⟨key.toValue.typeName, key.content⟩

theorem matching_iff (key other : Key) : key.matching other = true ↔ key.label = other.label := by
  cases key with
  | boolean value =>
      cases other with
      | boolean also => cases value <;> cases also <;> decide
      | _ => simp [matching, label, toValue, Value.typeName]
  | _ => cases other <;> simp [matching, label, content, toValue, Value.typeName]

end Key

section Entries

variable (key : Key) (value : Value) (entries rows : List (Key × Value))

theorem labels_putEntry :
    (putEntry key value entries).map (·.1.label) =
      if key.label ∈ entries.map (·.1.label) then entries.map (·.1.label)
      else entries.map (·.1.label) ++ [key.label] := by
  induction entries with
  | nil => rfl
  | cons first others ih =>
      obtain ⟨present, old⟩ := first
      by_cases same : present.label = key.label
      · simp [putEntry, Key.matching_iff, same]
      · have apart : ¬ key.label = present.label := fun equal => same equal.symm
        simp only [putEntry, Key.matching_iff, same, if_false, List.map_cons, ih, List.mem_cons, apart,
          false_or]
        split <;> rfl

theorem find?_putEntry (label : Key.Label) :
    (putEntry key value entries).find? (·.1.label == label) =
      if key.label = label then
        some (((entries.find? (·.1.label == label)).map Prod.fst).getD key, value)
      else entries.find? (·.1.label == label) := by
  induction entries with
  | nil => by_cases same : key.label = label <;> simp [putEntry, same]
  | cons first others ih =>
      obtain ⟨present, old⟩ := first
      by_cases matched : present.label = key.label
      · by_cases same : key.label = label <;> simp [putEntry, Key.matching_iff, matched, same]
      · by_cases here : present.label = label
        · subst here
          have apart : ¬ key.label = present.label := fun equal => matched equal.symm
          simp [putEntry, Key.matching_iff, matched, apart]
        · simp [putEntry, Key.matching_iff, matched, here, ih]

/-- The entries of a hash after some pairs were put into it. -/
def tabulated (rows : List (Key × Value)) : List (Key × Value) :=
  rows.foldl (fun entries row => putEntry row.1 row.2 entries) []

theorem tabulated_concat : tabulated (rows ++ [(key, value)]) = putEntry key value (tabulated rows) := by
  rw [tabulated, List.foldl_append]
  rfl

/-- There is one entry for each label, in the order in which the labels first occur. -/
theorem tabulated_labels :
    (tabulated rows).map (·.1.label) = (rows.map (·.1.label)).eraseDups := by
  induction rows using List.reverseRecOn with
  | nil => rfl
  | append_singleton rows row ih =>
      rw [tabulated_concat, labels_putEntry, ih, List.map_append, List.map_singleton, eraseDups_concat]
      simp only [List.mem_eraseDups]

/-- The entry of a label has the first key and the last value with that label. -/
theorem tabulated_find? (label : Key.Label) :
    ((tabulated rows).find? (·.1.label == label)).map Prod.fst =
        (rows.find? (·.1.label == label)).map Prod.fst ∧
      ((tabulated rows).find? (·.1.label == label)).map Prod.snd =
        (rows.reverse.find? (·.1.label == label)).map Prod.snd := by
  induction rows using List.reverseRecOn with
  | nil => exact ⟨rfl, rfl⟩
  | append_singleton rows row ih =>
      obtain ⟨key, value⟩ := row
      obtain ⟨keys, values⟩ := ih
      rw [tabulated_concat, find?_putEntry, List.find?_append, List.reverse_append,
        List.reverse_singleton, List.singleton_append, List.find?_cons]
      by_cases same : key.label = label
      · simp only [same, if_true, keys, beq_self_eq_true, Option.map_some]
        cases rows.find? (·.1.label == label) <;> simp [same]
      · simp only [same, if_false, beq_false_of_ne same, keys, values]
        simp [same]

end Entries

/-- An entry of a table is the one that is found under its label. -/
theorem tabulated_mem {rows : List (Key × Value)} {entry : Key × Value}
    (member : entry ∈ tabulated rows) :
    (tabulated rows).find? (·.1.label == entry.1.label) = some entry := by
  have distinct : ((tabulated rows).map (·.1.label)).Nodup := tabulated_labels rows ▸ nodup_eraseDups _
  generalize tabulated rows = entries at member distinct
  induction member with
  | head others => exact List.find?_cons_of_pos (beq_self_eq_true _)
  | @tail first others member ih =>
      obtain ⟨fresh, distinct⟩ := List.nodup_cons.mp distinct
      have apart : (first.1.label == entry.1.label) = false :=
        beq_false_of_ne fun same => fresh (List.mem_map.mpr ⟨entry, member, same.symm⟩)
      rw [List.find?_cons, apart]
      exact ih distinct

end MonkeyLang
