import MonkeyLang.Extension.Registry
import MonkeyLang.Proofs.Extension.Priority

namespace MonkeyLang

/-! # Calls of extensions

Extensions register what they contribute by calls, each of which checks what it is given before it writes
to the services that all of them share.
-/

/-- A call to the services.  Where it raises an error, they stay as it left them at that moment. -/
abbrev Registering := EStateM ExtensionError Services Unit

namespace Registering

def metadata (metadata : Metadata) : Registering := do
  if metadata.api ≠ hostApi then throw (.wrongApi metadata.name metadata.api)
  modify fun services => { services with metadata := services.metadata ++ [metadata] }

def builtin (builtin : Builtin) : Registering := do
  if builtin.name = "" then throw .emptyName
  if builtin.name ∈ (← get).builtins.map (·.name) then throw (.registeredTwice builtin.name)
  modify fun services => { services with builtins := services.builtins ++ [builtin] }

def hook (extension name : String) (priority : Int) (react : Circumstance → Notice → Reaction) :
    Registering := do
  match Event.ofName? name with
  | none => throw (.unknownEvent name)
  | some event =>
      let hook := ⟨extension, priority, (← get).hooks.count, react⟩
      modify fun services => { services with hooks := services.hooks.append event hook }
      modify fun services => { services with hooks := services.hooks.sort event }

end Registering

/-- What an extension does by one call of its interface. -/
def Registration.perform (extension : String) : Registration → Registering
  | .metadata given => Registering.metadata given
  | .builtin given => Registering.builtin given
  | .hook event priority react => Registering.hook extension event priority react

/-- The services after a call, also where it raised an error. -/
def Services.after (services : Services) (call : String × Registration) : Services :=
  match call.2.perform call.1 services with
  | .ok _ after | .error _ after => after

/-- The services refuse a call for a reason. -/
inductive Services.Refuses (services : Services) : Registration → ExtensionError → Prop
  | wrongApi {metadata : Metadata} (wrong : metadata.api ≠ hostApi) :
      Refuses services (.metadata metadata) (.wrongApi metadata.name metadata.api)
  | emptyName {builtin : Builtin} (empty : builtin.name = "") :
      Refuses services (.builtin builtin) .emptyName
  | registeredTwice {builtin : Builtin} (named : builtin.name ≠ "")
      (taken : builtin.name ∈ services.builtins.map (·.name)) :
      Refuses services (.builtin builtin) (.registeredTwice builtin.name)
  | unknownEvent {name : String} {priority : Int} {react : Circumstance → Notice → Reaction}
      (unknown : ∀ event : Event, event.name ≠ name) :
      Refuses services (.hook name priority react) (.unknownEvent name)

theorem Event.ofName?_eq_none {name : String} :
    ofName? name = none ↔ ∀ event : Event, event.name ≠ name := by
  refine ⟨fun unknown event same => ?_, fun unknown => ?_⟩
  · rw [← same, ofName?_name] at unknown
    cases unknown
  · exact List.find?_eq_none.mpr fun event _ named => unknown event (eq_of_beq named)

/-- The services take what a call registers. -/
inductive Services.Takes (services : Services) (extension : String) : Registration → Services → Prop
  | metadata {metadata : Metadata} (right : metadata.api = hostApi) :
      Takes services extension (.metadata metadata)
        { services with metadata := services.metadata ++ [metadata] }
  | builtin {builtin : Builtin} (named : builtin.name ≠ "")
      (fresh : builtin.name ∉ services.builtins.map (·.name)) :
      Takes services extension (.builtin builtin)
        { services with builtins := services.builtins ++ [builtin] }
  | hook {name : String} {event : Event} {priority : Int} {react : Circumstance → Notice → Reaction}
      (known : Event.ofName? name = some event) :
      Takes services extension (.hook name priority react)
        { services with hooks := services.hooks.add event extension priority react }

section Calls

variable {services : Services} {extension : String} {registration : Registration}
  {error : ExtensionError}

theorem isRegistered_iff (name : String) :
    services.builtins.any (·.name == name) = true ↔ name ∈ services.builtins.map (·.name) := by
  simp

theorem register_cases (services : Services) (extension : String) (registration : Registration) :
    (∃ error, services.Refuses registration error ∧
      services.register extension registration = .error error) ∨
    ∃ after, services.Takes extension registration after ∧
      services.register extension registration = .ok after := by
  cases registration with
  | metadata given =>
      rw [Services.register, Services.addMetadata, checkApi]
      by_cases right : given.api = hostApi
      · rw [if_pos right]
        exact .inr ⟨_, .metadata right, rfl⟩
      · rw [if_neg right]
        exact .inl ⟨_, .wrongApi right, rfl⟩
  | builtin given =>
      rw [Services.register, Services.addBuiltin]
      by_cases empty : given.name = ""
      · rw [if_pos (String.isEmpty_iff.mpr empty)]
        exact .inl ⟨_, .emptyName empty, rfl⟩
      · rw [if_neg fun isEmpty => empty (String.isEmpty_iff.mp isEmpty)]
        by_cases taken : given.name ∈ services.builtins.map (·.name)
        · rw [if_pos ((isRegistered_iff _).mpr taken)]
          exact .inl ⟨_, .registeredTwice empty taken, rfl⟩
        · rw [if_neg fun isRegistered => taken ((isRegistered_iff _).mp isRegistered)]
          exact .inr ⟨_, .builtin empty taken, rfl⟩
  | hook name priority react =>
      rw [Services.register, Services.addHook]
      cases known : Event.ofName? name with
      | none => exact .inl ⟨_, .unknownEvent (Event.ofName?_eq_none.mp known), rfl⟩
      | some event => exact .inr ⟨_, .hook known, rfl⟩

/-- Refused calls are not taken, and for one reason only. -/
theorem Services.Refuses.register (refuses : services.Refuses registration error) :
    services.register extension registration = .error error := by
  rcases register_cases services extension registration with
    ⟨other, also, refused⟩ | ⟨after, takes, -⟩
  · rw [refused]
    cases refuses with
    | wrongApi _ => cases also; rfl
    | emptyName empty =>
        cases also with
        | emptyName _ => rfl
        | registeredTwice named _ => exact absurd empty named
    | registeredTwice named _ =>
        cases also with
        | emptyName empty => exact absurd empty named
        | registeredTwice _ _ => rfl
    | unknownEvent _ => cases also; rfl
  · cases refuses with
    | wrongApi wrong => cases takes with | metadata right => exact absurd right wrong
    | emptyName empty => cases takes with | builtin named _ => exact absurd empty named
    | registeredTwice _ taken => cases takes with | builtin _ fresh => exact absurd taken fresh
    | unknownEvent unknown =>
        cases takes with
        | hook known => cases (Event.ofName?_eq_none.mpr unknown).symm.trans known

end Calls

/-- As long as the hooks of each event stand in their order, a call goes as it is decided: it raises the
error for which it is refused and has written nothing, or leaves what the services are with what it
registers. -/
theorem Registration.perform_eq {services : Services}
    (ordered : ∀ event, (services.hooks.of event).Pairwise Hook.Precedes) (extension : String)
    (registration : Registration) :
    registration.perform extension services =
      match services.register extension registration with
      | .ok after => .ok () after
      | .error error => .error error services := by
  rcases register_cases services extension registration with
    ⟨error, refuses, refused⟩ | ⟨after, takes, taken⟩
  · rw [refused]
    cases refuses with
    | wrongApi wrong =>
        rw [Registration.perform, Registering.metadata, if_pos wrong]
        rfl
    | emptyName empty =>
        rw [Registration.perform, Registering.builtin, if_pos empty]
        rfl
    | @registeredTwice given named taken =>
        rw [Registration.perform, Registering.builtin, if_neg named]
        change (ite (given.name ∈ services.builtins.map (·.name)) _ _ : Registering) services = _
        rw [if_pos taken]
        rfl
    | unknownEvent unknown =>
        rw [Registration.perform, Registering.hook, Event.ofName?_eq_none.mpr unknown]
        rfl
  · rw [taken]
    cases takes with
    | metadata right =>
        rw [Registration.perform, Registering.metadata, if_neg (not_not.mpr right)]
        rfl
    | @builtin given named fresh =>
        rw [Registration.perform, Registering.builtin, if_neg named]
        change (ite (given.name ∈ services.builtins.map (·.name)) _ _ : Registering) services = _
        rw [if_neg fresh]
        rfl
    | @hook name event priority react known =>
        rw [Registration.perform, Registering.hook, known]
        have sorts := Hooks.sort_append ordered event extension priority react
        exact congrArg (fun hooks => EStateM.Result.ok () { services with hooks := hooks }) sorts

theorem Registration.perform_error_iff {services after : Services}
    (ordered : ∀ event, (services.hooks.of event).Pairwise Hook.Precedes) {extension : String}
    {registration : Registration} {error : ExtensionError} :
    registration.perform extension services = .error error after ↔
      services.Refuses registration error ∧ after = services := by
  rw [Registration.perform_eq ordered]
  constructor
  · intro raised
    rcases register_cases services extension registration with
      ⟨other, refuses, refused⟩ | ⟨_, _, taken⟩
    · rw [refused] at raised
      cases raised
      exact ⟨refuses, rfl⟩
    · rw [taken] at raised
      cases raised
  · rintro ⟨refuses, rfl⟩
    rw [refuses.register]

end MonkeyLang
