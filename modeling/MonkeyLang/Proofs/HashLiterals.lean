import MonkeyLang.Proofs.Evaluation.Halting
import MonkeyLang.Proofs.Tables

namespace MonkeyLang

/-! # Hash literals

The keys and values of a hash literal are evaluated in their order, and each pair is put into the table
at once.  A key that cannot be one ends this.
-/

/-- Pairs of expressions give usable keys and ordinary values, each key before its value.  The states in
between are those that these expressions touch. -/
inductive Eval.Rows (evaluate : Evaluator) (scope : ScopeId) :
    List (Node × Node) → Machine → List (Key × Value) → Machine → (Machine → Prop) → Prop
  | nil {machine : Machine} : Rows evaluate scope [] machine [] machine (· = machine)
  | cons {keyNode valueNode : Node} {others : List (Node × Node)} {rows : List (Key × Value)}
      {before between next after : Machine} {keyValue value : Value} {key : Key} {later : Machine → Prop}
      (givesKey : (evaluate keyNode scope before).ending = .ok (some keyValue) between)
      (usable : keyValue.toKey? = some key)
      (givesValue : (evaluate valueNode scope between).ending = .ok (some value) next)
      (ordinary : value.isSignal = false) (rest : Rows evaluate scope others next rows after later) :
      Rows evaluate scope ((keyNode, valueNode) :: others) before ((key, value) :: rows) after
        fun machine => (evaluate keyNode scope before).Touches machine ∨
          (evaluate valueNode scope between).Touches machine ∨ later machine

theorem Value.isSignal_of_toKey? {value : Value} {key : Key} (usable : value.toKey? = some key) :
    value.isSignal = false := by
  cases value with
  | returned | failed => cases usable
  | _ => rfl

namespace Eval

variable {setting : Setting} {evaluate : Evaluator} {scope : ScopeId} {before after beyond : Machine}
  {pairs others : List (Node × Node)} {rows found : List (Key × Value)} {seen through : Machine → Prop}
  {done : Option Value → Machine → Prop} {broken : Fault → Machine → Prop}

/-- What comes behind some pairs goes on with the table into which they were put. -/
theorem Rows.entries (given : Rows evaluate scope pairs before rows after seen)
    (inside : ∀ machine, seen machine → through machine)
    (onward : (Eval.entries setting evaluate scope others
      (rows.foldl (fun entries row => putEntry row.1 row.2 entries) found) after).Meets through done
        broken) :
    (Eval.entries setting evaluate scope (pairs ++ others) found before).Meets through done broken := by
  induction given generalizing found with
  | nil => exact onward
  | @cons _ _ _ _ _ between _ _ keyValue value key _ givesKey usable givesValue ordinary _ ih =>
      refine .following givesKey (fun machine touched => inside machine (.inl touched)) ?_
      rw [unlessSignal_some (Value.isSignal_of_toKey? usable)]
      refine .giving (inside _ (.inl (.last givesKey))) ?_
      rw [usable]
      refine .following givesValue (fun machine touched => inside machine (.inr (.inl touched))) ?_
      rw [unlessSignal_some ordinary]
      refine .giving (inside _ (.inr (.inl (.last givesValue)))) ?_
      exact ih (fun machine passed => inside machine (.inr (.inr passed))) onward

/-- A key that cannot be one is refused before its value is evaluated. -/
theorem entries_refuse {keyNode valueNode : Node} {value : Value}
    (gives : (evaluate keyNode scope after).ending = .ok (some value) beyond)
    (ordinary : value.isSignal = false) (unusable : value.toKey? = none) :
    (Eval.entries setting evaluate scope ((keyNode, valueNode) :: others) found after).Meets
      (evaluate keyNode scope after).Touches
      (fun result machine => machine = beyond ∧ result =
        some (.failed (beyond.failure ("unusable as hash key: " ++ value.typeName) (some "HashLiteral"))))
      fun _ _ => False := by
  refine .following gives (fun _ => id) ?_
  rw [unlessSignal_some ordinary]
  refine .giving (.last gives) ?_
  rw [unusable]
  have failed : ((Eval.fail ("unusable as hash key: " ++ value.typeName) (some "HashLiteral")) beyond).Meets
      (evaluate keyNode scope after).Touches
      (fun result machine => machine = beyond ∧ result =
        .failed (beyond.failure ("unusable as hash key: " ++ value.typeName) (some "HashLiteral")))
      fun _ _ => False :=
    .look (.last gives) (.pure (.last gives) ⟨rfl, rfl⟩)
  refine failed.bind ?_
  rintro _ _ ⟨rfl, rfl⟩
  exact .pure (.last gives) ⟨rfl, rfl⟩

end Eval

theorem Value.inspectEntries_eq (entries : List (Key × Value)) :
    inspectEntries entries =
      ", ".intercalate (entries.map fun entry => entry.1.inspect ++ ":" ++ entry.2.inspect) := by
  induction entries with
  | nil => rfl
  | cons first others ih =>
      obtain ⟨key, value⟩ := first
      cases others with
      | nil => simp [inspectEntries]
      | cons next others =>
          rw [inspectEntries, ih]
          simp [String.intercalate_cons_cons]

/-- Where all pairs of a hash literal give usable keys and ordinary values, it gives a hash with one
entry for each type and content of a key, in the order in which these first occur: with the first of
those keys, and with the last of their values.  The first key that cannot be one makes a failure of it at
once: no other states are passed than those of the expressions up to this key. -/
theorem hash_literals_tabulate (setting : Setting) (depth : Nat) (token : Token) (scope : ScopeId)
    {before after : Machine} {pairs : List (Node × Node)} {rows : List (Key × Value)}
    {seen : Machine → Prop}
    (given : Eval.Rows (evaluate setting depth) scope pairs before rows after seen) :
    (∃ entries,
      (evaluate setting (depth + 1) (.hash token pairs) scope before).ending =
        .ok (some (.hash after.nextObject entries))
          { after with nextObject := after.nextObject + 1 } ∧
      entries.map (·.1.label) = (rows.map (·.1.label)).eraseDups ∧
      (∀ entry ∈ entries,
        (rows.find? (·.1.label == entry.1.label)).map Prod.fst = some entry.1 ∧
        (rows.reverse.find? (·.1.label == entry.1.label)).map Prod.snd = some entry.2) ∧
      (Value.hash after.nextObject entries).inspect = "\x7b" ++
        ", ".intercalate (entries.map fun entry => entry.1.inspect ++ ":" ++ entry.2.inspect) ++
          "\x7d") ∧
    (∀ key other : Key, key.matching other = true ↔
      key.toValue.typeName = other.toValue.typeName ∧ key.content = other.content) ∧
    ∀ (keyNode valueNode : Node) (others : List (Node × Node)) (value : Value) (last : Machine),
      (evaluate setting depth keyNode scope after).ending = .ok (some value) last →
      value.isSignal = false → value.toKey? = none →
      let course := evaluate setting (depth + 1)
        (.hash token (pairs ++ (keyNode, valueNode) :: others)) scope before
      course.ending = .ok (some (.failed (last.failure ("unusable as hash key: " ++ value.typeName)
        (some "HashLiteral")))) last ∧
      ∀ machine, course.passes machine →
        seen machine ∨ (evaluate setting depth keyNode scope after).Touches machine := by
  refine ⟨⟨tabulated rows, ?_, tabulated_labels rows, fun entry member => ?_, ?_⟩, fun key other => ?_, ?_⟩
  · have made : (Eval.entries setting (evaluate setting depth) scope (pairs ++ []) [] before).Meets
        (fun _ => True)
        (fun result machine => result = some (.hash after.nextObject (tabulated rows)) ∧
          machine = { after with nextObject := after.nextObject + 1 })
        fun _ _ => False :=
      given.entries (fun _ _ => trivial)
        (Course.Meets.changing trivial trivial (.pure trivial ⟨rfl, rfl⟩))
    rw [List.append_nil] at made
    obtain ⟨_, _, ended, rfl, rfl⟩ := made.ends
    exact ended
  · obtain ⟨keys, values⟩ := tabulated_find? rows entry.1.label
    rw [tabulated_mem member] at keys values
    exact ⟨keys.symm, values.symm⟩
  · rw [Value.inspect, Value.inspectEntries_eq]
  · rw [Key.matching_iff, Key.label, Key.label, Key.Label.mk.injEq]
  · intro keyNode valueNode others value last gives ordinary unusable course
    have meets : (Eval.entries setting (evaluate setting depth) scope
        (pairs ++ (keyNode, valueNode) :: others) [] before).Meets
        (fun machine => seen machine ∨ (evaluate setting depth keyNode scope after).Touches machine)
        (fun result machine => machine = last ∧ result = some (.failed
          (last.failure ("unusable as hash key: " ++ value.typeName) (some "HashLiteral"))))
        fun _ _ => False :=
      given.entries (fun _ => .inl)
        ((Eval.entries_refuse gives ordinary unusable).within fun _ => .inr)
    obtain ⟨_, _, ended, rfl, rfl⟩ := meets.ends
    exact ⟨ended, meets.passing⟩

/-- `1`, `true` and `"1"` have entries of their own, and that of `1` takes the value of the second `1`.
With an array as a further key the literal fails, before its value prints anything. -/
theorem hash_literals_tabulate_repeated :
    let token : Token := ⟨.leftBrace, "", 1, 1⟩
    let pairs : List (Node × Node) := [(.integer token 1, .string token "a"),
      (.boolean token true, .string token "b"), (.string token "1", .string token "c"),
      (.integer token 1, .string token "d")]
    let call : Node := .call token (.identifier ⟨token, "puts"⟩) [.boolean token true]
    let setting : Setting := ⟨"<string>", false, Builtin.core, .none⟩
    let before := (Eval.newScope none (.initial setting)).machine
    ∃ entries id after failure last,
      (evaluate setting 5 (.hash token pairs) 0 before).ending = .ok (some (.hash id entries)) after ∧
      entries.map (·.1.label) = [⟨"INTEGER", .inl 1⟩, ⟨"BOOLEAN", .inl 1⟩, ⟨"STRING", .inr "1"⟩] ∧
      (evaluate setting 5 (.hash token (pairs ++ [(.array token [], call)])) 0 before).ending =
        .ok (some (.failed failure)) last ∧
      failure.message = "unusable as hash key: ARRAY" ∧ last.printed = #[] := by
  intro token pairs call setting before
  have given : Eval.Rows (evaluate setting 4) 0 pairs before _ _ _ :=
    .cons rfl rfl rfl rfl (.cons rfl rfl rfl rfl (.cons rfl rfl rfl rfl (.cons rfl rfl rfl rfl .nil)))
  obtain ⟨⟨entries, ended, labels, -⟩, -, refused⟩ := hash_literals_tabulate setting 4 token 0 given
  obtain ⟨failed, -⟩ := refused (.array token []) call [] _ _ rfl rfl rfl
  exact ⟨entries, _, _, _, _, ended, labels.trans (by decide), failed, rfl, rfl⟩

end MonkeyLang
