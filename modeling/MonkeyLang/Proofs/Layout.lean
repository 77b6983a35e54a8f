import MonkeyLang.Proofs.Evaluation.Texts
import MonkeyLang.Proofs.Syntax.Congruence

namespace MonkeyLang

/-! # Layout has no meaning

Texts whose tokens differ in their places alone are read and run alike.
-/

theorem endings_spelled (tokens others : List Token) :
    (Parse.endingOf tokens).SameSpelling (Parse.endingOf others) := by
  unfold Parse.endingOf
  split <;> split <;> exact ⟨rfl, rfl⟩

theorem placesOnly_tokens {token other : Token} (same : token.SameSpelling other) :
    Leeway.placesOnly.Tokens token other :=
  ⟨same, .inl trivial⟩

section Layout

variable {text otherText : String}
  (same : (Token.scan text).map Token.spelling = (Token.scan otherText).map Token.spelling)

include same

theorem parses_spelled :
    Parsed.Similar Token.SameSpelling (Parsed.ofText text) (Parsed.ofText otherText) :=
  .ofTokens (fun _ => .rfl) id _ (Token.sameSpelling_of_spelling same) (endings_spelled _ _)

theorem parses_placesOnly :
    Parsed.Similar Leeway.placesOnly.Tokens (Parsed.ofText text) (Parsed.ofText otherText) :=
  .ofTokens Leeway.placesOnly.tokens_reflexive Leeway.placesOnly.tokens_spelled _
    ((Token.sameSpelling_of_spelling same).imp fun _ _ => placesOnly_tokens)
    (placesOnly_tokens (endings_spelled _ _))

/-- Two texts whose tokens have the same kinds and literals are read with the same errors, as programs
that differ in the places of tokens alone.  Where neither is broken off for its depth, they are
run alike: with the same result or fault, output, scopes and step count, except for the places in
them.  This is true of texts in a given scope and of runs of their own, and, since it takes states
in which nothing but places differs to such states, of texts one after the other. -/
theorem layout_changes_places_only {setting : Setting} (watch : setting.hooks.Watch)
    (builtins : ∀ builtin ∈ setting.builtins, builtin ∈ Builtin.core ∨ builtin ∈ Builtin.strings)
    {first second : Machine} (machines : Leeway.placesOnly.Machines first second) :
    Parsed.Similar Token.SameSpelling (Parsed.ofText text) (Parsed.ofText otherText) ∧
    (∀ scope depth, setting.HasRoom depth text scope first →
      setting.HasRoom depth otherText scope second →
      Leeway.placesOnly.Courses (Eval.execute setting (evaluate setting depth) text scope first)
        (Eval.execute setting (evaluate setting depth) otherText scope second)) ∧
    (setting.HasRoom depthLimit text first.scopes.size first.opened →
      setting.HasRoom depthLimit otherText second.scopes.size second.opened →
      Leeway.placesOnly.Courses (setting.run text first) (setting.run otherText second)) := by
  have settings : Leeway.placesOnly.Settings setting setting := ⟨rfl, rfl, .inl rfl, watch, watch⟩
  have uniform := Builtin.plain_uniform builtins
  have readings := parses_placesOnly same
  refine ⟨parses_spelled same, fun scope depth room otherRoom => ?_, fun room otherRoom => ?_⟩
  · exact (settings.executes uniform readings (.inl trivial) machines room otherRoom).courses
  · exact (settings.runs uniform readings (.inl trivial) machines room otherRoom).courses

end Layout

/-- A function that fails, on one line and spread over several. -/
theorem layout_changes_places_only_in_failing_function :
    let setting : Setting := ⟨"<string>", true, Builtin.core, .none⟩
    let machine := Machine.initial setting
    let text := "let f = fn(x) \x7b puts(x); x + true \x7d; f(1)"
    let spread := "let f =\n  fn(x) \x7b\n    puts(x);\n\tx + true\r\n\x7d;\n\nf(1)\n"
    Leeway.placesOnly.Courses (setting.run text machine) (setting.run spread machine) ∧
      (setting.run spread machine).shown =
        .ok (some ("ERROR", "ERROR: type mismatch: INTEGER + BOOLEAN")) := by
  intro setting machine text spread
  have same : (Token.scan text).map Token.spelling = (Token.scan spread).map Token.spelling := by
    decide +kernel
  have watch : setting.hooks.Watch := fun _ _ member => nomatch member
  have room : setting.HasRoom depthLimit text machine.scopes.size machine.opened := by
    decide +kernel
  have otherRoom : setting.HasRoom depthLimit spread machine.scopes.size machine.opened := by
    decide +kernel
  obtain ⟨_, _, runs⟩ := layout_changes_places_only same watch (fun _ => .inl)
    (Leeway.placesOnly.machines_refl machine)
  exact ⟨runs room otherRoom, by decide +kernel⟩

end MonkeyLang
