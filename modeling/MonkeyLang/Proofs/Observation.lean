import MonkeyLang.Proofs.Evaluation.Texts

namespace MonkeyLang

/-! # Watching a run does not change it

Hooks that only watch, and the bindings that steps show in a verbose run, leave everything else as it
is.
-/

namespace Leeway

variable {watched plain : Machine}

theorem Frames.eq {left right : Frame} (frames : snapshotsOnly.Frames left right) : left = right := by
  obtain ⟨name, scope, serial, site⟩ := left
  obtain ⟨otherName, otherScope, otherSerial, otherSite⟩ := right
  obtain ⟨rfl, rfl, rfl, sites⟩ := frames
  exact congrArg _ (places_eq sites)

theorem Machines.stack_eq (machines : snapshotsOnly.Machines watched plain) :
    watched.stack = plain.stack :=
  List.forall₂_eq_eq_eq ▸ machines.stack.imp fun _ _ => Frames.eq

theorem Logs.live {leeway : Leeway} {log other : StepLog} (logs : leeway.Logs log other) :
    log.live = other.live := by
  have same : ∀ {latest others : List (Nat × Step)},
      List.Forall₂ (Prod.RProd Eq leeway.Steps) latest others →
      latest.map (·.1) = others.map (·.1) := by
    intro latest others similar
    induction similar with
    | nil => rfl
    | cons first _ ih =>
        cases first with | intro serials _
        rw [List.map_cons, List.map_cons, serials, ih]
  rw [StepLog.live, same logs.latest, StepLog.live]

end Leeway

/-- The setting without anything that watches a run. -/
def Setting.unwatched (setting : Setting) : Setting :=
  { setting with verbose := false, hooks := .none }

section Watching

variable {setting : Setting}

theorem unwatched_settings (watch : setting.hooks.Watch) :
    Leeway.snapshotsOnly.Settings setting setting.unwatched where
  file := rfl
  builtins := rfl
  verbose := .inr ⟨trivial, rfl⟩
  watch := watch
  otherWatch := fun _ _ member => nomatch member

/-- A text that is run under hooks that only watch, verbosely or not, ends as it does without them,
unless either run is broken off for its depth: with the same result or fault, the same output, scopes,
step count, stack and live frames.  Only the bindings that steps show may be missing without them, in
the step log and in the open calls of failures.  This is true of a text in a given scope and of one in
a run of its own, and, since it takes states in which nothing else differs to such states, of texts
one after the other. -/
theorem watching_changes_nothing (watch : setting.hooks.Watch)
    (builtins : ∀ builtin ∈ setting.builtins, builtin ∈ Builtin.core ∨ builtin ∈ Builtin.strings)
    {watched plain : Machine} (machines : Leeway.snapshotsOnly.Machines watched plain)
    (text : String) :
    (∀ scope depth otherDepth, setting.HasRoom depth text scope watched →
      setting.unwatched.HasRoom otherDepth text scope plain →
      let left := Eval.execute setting (evaluate setting depth) text scope watched
      let right := Eval.execute setting.unwatched (evaluate setting.unwatched otherDepth) text scope
        plain
      Leeway.snapshotsOnly.Courses left right ∧ left.machine.stack = right.machine.stack ∧
        left.machine.steps.live = right.machine.steps.live) ∧
    (setting.HasRoom depthLimit text watched.scopes.size watched.opened →
      setting.unwatched.HasRoom depthLimit text plain.scopes.size plain.opened →
      let left := setting.run text watched
      let right := setting.unwatched.run text plain
      Leeway.snapshotsOnly.Courses left right ∧ left.machine.stack = right.machine.stack ∧
        left.machine.steps.live = right.machine.steps.live) := by
  have settings := unwatched_settings watch
  have uniform := Builtin.plain_uniform builtins
  have readings := Parsed.Similar.refl Leeway.snapshotsOnly.tokens_reflexive (Parsed.ofText text)
  have told : ∀ {left right : Course (Option Value)},
      Leeway.snapshotsOnly.Endings False Leeway.snapshotsOnly.Results left.ending right.ending →
      Leeway.snapshotsOnly.Courses left right ∧ left.machine.stack = right.machine.stack ∧
        left.machine.steps.live = right.machine.steps.live := by
    intro left right ended
    have courses := ended.courses
    exact ⟨courses, courses.machines.stack_eq, courses.machines.steps.live⟩
  constructor
  · intro scope depth otherDepth room otherRoom
    exact told (settings.executes uniform readings (.inr rfl) machines room otherRoom)
  · intro room otherRoom
    exact told (settings.runs uniform readings (.inr rfl) machines room otherRoom)

end Watching

/-- A verbose run under two hooks, one of which keeps only what it is told first.  A function prints
its argument and then fails. -/
theorem watching_changes_nothing_in_failing_function :
    let hooks : Hooks := ⟨2, fun _ => [⟨"all", 5, 0, fun _ _ => .record⟩,
      ⟨"first", 0, 1, fun circumstance _ =>
        if circumstance.earlier = 0 then .record else .ignore⟩]⟩
    let setting : Setting := ⟨"<string>", true, Builtin.core, hooks⟩
    let machine := Machine.initial setting
    let text := "let f = fn(x) \x7b puts(x); x + true \x7d; f(1)"
    Leeway.snapshotsOnly.Courses (setting.run text machine) (setting.unwatched.run text machine) ∧
      (setting.unwatched.run text machine).shown =
        .ok (some ("ERROR", "ERROR: type mismatch: INTEGER + BOOLEAN")) ∧
      (setting.run text machine).machine.recorded.size = 16 := by
  intro hooks setting machine text
  have watch : setting.hooks.Watch := by
    intro event hook member circumstance notice
    rcases List.mem_cons.mp member with rfl | second
    · exact .inl rfl
    · rw [List.mem_singleton.mp second]
      exact ite_eq_or_eq (circumstance.earlier = 0) Reaction.record Reaction.ignore
  have room : setting.HasRoom depthLimit text machine.scopes.size machine.opened := by
    decide +kernel
  have plainRoom : setting.unwatched.HasRoom depthLimit text machine.scopes.size machine.opened := by
    decide +kernel
  obtain ⟨_, runs⟩ := watching_changes_nothing watch (fun _ => .inl)
    (Leeway.snapshotsOnly.machines_refl machine) text
  exact ⟨(runs room plainRoom).1, by decide +kernel, by decide +kernel⟩

end MonkeyLang
