import MonkeyLang.Proofs.Extension.Calls
import MonkeyLang.Proofs.Tables

namespace MonkeyLang

/-! # All calls of extensions

What the services hold after any calls, refused ones among them, can be told from the list of the calls alone.
-/

/-- A call that subscribes to an event that there is. -/
structure Subscription where
  event : Event
  extension : String
  priority : Int
  react : Circumstance → Notice → Reaction

/-- The hook for an event that a subscription makes.  Subscriptions to all events are numbered together. -/
def Subscription.hook? (event : Event) (numbered : Subscription × Nat) : Option Hook :=
  if numbered.1.event = event then
    some ⟨numbered.1.extension, numbered.1.priority, numbered.2, numbered.1.react⟩
  else none

/-- Calls of extensions, each under the name of the extension, in the order in which they are made. -/
abbrev RegistrationHistory := List (String × Registration)

namespace RegistrationHistory

/-- The services to which a history leads. -/
def services (history : RegistrationHistory) : Services :=
  history.foldl Services.after .none

def metadata (history : RegistrationHistory) : List Metadata :=
  history.filterMap fun
    | (_, .metadata given) => some given
    | _ => none

def builtins (history : RegistrationHistory) : List Builtin :=
  history.filterMap fun
    | (_, .builtin given) => some given
    | _ => none

/-- The names under which builtins may be registered at all. -/
def names (history : RegistrationHistory) : List String :=
  (history.builtins.map (·.name)).filter (· ≠ "")

def subscriptions (history : RegistrationHistory) : List Subscription :=
  history.filterMap fun
    | (extension, .hook name priority react) =>
        (Event.ofName? name).map (⟨·, extension, priority, react⟩)
    | _ => none

/-- The hooks of an event in the order of their registration. -/
def hooks (history : RegistrationHistory) (event : Event) : List Hook :=
  history.subscriptions.zipIdx.filterMap (Subscription.hook? event)

/-- What a history tells of the builtins that were taken. -/
structure TellsBuiltins (history : RegistrationHistory) (builtins : List Builtin) : Prop where
  named : builtins.map (·.name) = history.names.eraseDups
  earliest : ∀ builtin ∈ builtins,
    history.builtins.find? (·.name == builtin.name) = some builtin

/-- What a history tells of the hooks that were taken. -/
structure TellsHooks (history : RegistrationHistory) (hooks : Hooks) : Prop where
  counted : hooks.count = history.subscriptions.length
  heard : ∀ event, (hooks.of event).Perm (history.hooks event)
  ordered : ∀ event, (hooks.of event).Pairwise Hook.Precedes

/-- What a history tells of the services to which it leads. -/
structure Describes (history : RegistrationHistory) (services : Services) : Prop where
  listed : services.metadata = history.metadata.filter (·.api = hostApi)
  builtins : history.TellsBuiltins services.builtins
  hooks : history.TellsHooks services.hooks

section Step

variable {history : RegistrationHistory} {call : String × Registration}

theorem metadata_concat : metadata (history ++ [call]) = history.metadata ++ metadata [call] :=
  List.filterMap_append

theorem builtins_concat : builtins (history ++ [call]) = history.builtins ++ builtins [call] :=
  List.filterMap_append

theorem names_concat : names (history ++ [call]) = history.names ++ names [call] := by
  rw [names, builtins_concat, List.map_append, List.filter_append]
  rfl

theorem subscriptions_concat :
    subscriptions (history ++ [call]) = history.subscriptions ++ subscriptions [call] :=
  List.filterMap_append

theorem hooks_concat (event : Event) :
    hooks (history ++ [call]) event = history.hooks event ++
      ((subscriptions [call]).zipIdx history.subscriptions.length).filterMap
        (Subscription.hook? event) := by
  rw [hooks, subscriptions_concat, List.zipIdx_append, List.filterMap_append, Nat.zero_add]
  rfl

theorem serial_lt {event : Event} {hook : Hook} (registered : hook ∈ history.hooks event) :
    hook.serial < history.subscriptions.length := by
  obtain ⟨⟨subscription, serial⟩, numbered, made⟩ := List.mem_filterMap.mp registered
  rw [Subscription.hook?] at made
  split at made
  · cases made
    exact List.snd_lt_of_mem_zipIdx numbered
  · cases made

theorem zipIdx_ascending {α : Type} (items : List α) :
    items.zipIdx.Pairwise fun earlier later => earlier.2 < later.2 := by
  have numbers : (List.range' 0 items.length).Pairwise (· < ·) := List.pairwise_lt_range'
  rwa [← List.zipIdx_map_snd, List.pairwise_map] at numbers

/-- Hooks are numbered as they are registered. -/
theorem hooks_ascending (history : RegistrationHistory) (event : Event) :
    (history.hooks event).Pairwise fun earlier later => earlier.serial < later.serial := by
  refine List.Pairwise.filterMap _ ?_ (zipIdx_ascending history.subscriptions)
  intro earlier later before hook made laterHook madeLater
  rw [Subscription.hook?] at made madeLater
  split at made <;> split at madeLater <;> cases made <;> cases madeLater
  exact before

theorem names_single {extension : String} {builtin : Builtin} (named : builtin.name ≠ "") :
    names [(extension, .builtin builtin)] = [builtin.name] := by
  simp [names, builtins, named]

/-- A call of which no metadata are taken adds none. -/
theorem listed_unchanged {given : List Metadata}
    (listed : given = history.metadata.filter (·.api = hostApi))
    (none : (metadata [call]).filter (·.api = hostApi) = []) :
    given = (metadata (history ++ [call])).filter (·.api = hostApi) := by
  rw [metadata_concat, List.filter_append, none, List.append_nil]
  exact listed

namespace TellsBuiltins

variable {registered : List Builtin}

theorem isRegistered (tells : history.TellsBuiltins registered) (name : String) :
    name ∈ registered.map (·.name) ↔ name ∈ history.names := by
  rw [tells.named, List.mem_eraseDups]

/-- What was registered first under a name stays that. -/
theorem first_kept (tells : history.TellsBuiltins registered) :
    ∀ builtin ∈ registered,
      (builtins (history ++ [call])).find? (·.name == builtin.name) = some builtin := by
  intro builtin member
  rw [builtins_concat, List.find?_append, tells.earliest builtin member]
  rfl

theorem unchanged (tells : history.TellsBuiltins registered) (none : names [call] = []) :
    TellsBuiltins (history ++ [call]) registered where
  named := by
    rw [names_concat, none, List.append_nil]
    exact tells.named
  earliest := tells.first_kept

theorem repeated (tells : history.TellsBuiltins registered) (extension : String) {builtin : Builtin}
    (named : builtin.name ≠ "") (taken : builtin.name ∈ registered.map (·.name)) :
    TellsBuiltins (history ++ [(extension, .builtin builtin)]) registered where
  named := by
    rw [names_concat, names_single named, eraseDups_concat, if_pos ((tells.isRegistered _).mp taken)]
    exact tells.named
  earliest := tells.first_kept

theorem added (tells : history.TellsBuiltins registered) (extension : String) {builtin : Builtin}
    (named : builtin.name ≠ "") (fresh : builtin.name ∉ registered.map (·.name)) :
    TellsBuiltins (history ++ [(extension, .builtin builtin)]) (registered ++ [builtin]) := by
  have unnamed : builtin.name ∉ history.names := fun known =>
    fresh ((tells.isRegistered _).mpr known)
  constructor
  case named =>
    rw [names_concat, names_single named, eraseDups_concat, if_neg unnamed, List.map_append, tells.named]
    rfl
  case earliest =>
    intro other member
    rcases List.mem_append.mp member with old | new
    · exact tells.first_kept other old
    · obtain rfl := List.mem_singleton.mp new
      have none : history.builtins.find? (·.name == other.name) = none := by
        refine List.find?_eq_none.mpr fun earlier given same => unnamed ?_
        rw [← eq_of_beq same]
        refine List.mem_filter.mpr ⟨List.mem_map_of_mem given, ?_⟩
        rw [eq_of_beq same]
        exact decide_eq_true named
      rw [builtins_concat, List.find?_append, none, Option.none_or]
      exact List.find?_cons_of_pos (beq_self_eq_true _)

end TellsBuiltins

namespace TellsHooks

variable {registered : Hooks}

theorem unchanged (tells : history.TellsHooks registered) (none : subscriptions [call] = []) :
    TellsHooks (history ++ [call]) registered where
  counted := by
    rw [subscriptions_concat, none, List.append_nil]
    exact tells.counted
  heard event := by
    rw [hooks_concat, none]
    exact (tells.heard event).trans (.of_eq (List.append_nil _).symm)
  ordered := tells.ordered

theorem added (tells : history.TellsHooks registered) (extension : String) {name : String}
    {event : Event} (priority : Int) (react : Circumstance → Notice → Reaction)
    (known : Event.ofName? name = some event) :
    TellsHooks (history ++ [(extension, .hook name priority react)])
      (registered.add event extension priority react) := by
  let added : Hook := ⟨extension, priority, registered.count, react⟩
  have single : subscriptions [(extension, .hook name priority react)] =
      [⟨event, extension, priority, react⟩] := by simp [subscriptions, known]
  have grown : ∀ other, hooks (history ++ [(extension, .hook name priority react)]) other =
      history.hooks other ++ if event = other then [added] else [] := by
    intro other
    rw [hooks_concat, single, ← tells.counted]
    by_cases same : event = other <;> simp [Subscription.hook?, same, added]
  constructor
  case counted =>
    rw [subscriptions_concat, single, List.length_append, ← tells.counted]
    rfl
  case heard =>
    intro other
    rw [grown]
    by_cases same : other = event
    · have placed := Hooks.place_perm added (registered.of other)
      rw [if_pos same.symm]
      simp only [Hooks.add, if_pos same]
      exact (placed.trans ((tells.heard other).cons added)).trans
        (List.perm_append_singleton added _).symm
    · rw [if_neg fun equal => same equal.symm, List.append_nil]
      simp only [Hooks.add, if_neg same]
      exact tells.heard other
  case ordered =>
    intro other
    simp only [Hooks.add]
    split
    · refine Hooks.place_ordered (tells.ordered other) fun earlier member => ?_
      exact tells.counted ▸ serial_lt ((tells.heard other).mem_iff.mp member)
    · exact tells.ordered other

end TellsHooks

namespace Describes

variable {services after : Services} {extension : String} {registration : Registration}

theorem refused (describes : history.Describes services) {error : ExtensionError}
    (refuses : services.Refuses registration error) :
    Describes (history ++ [(extension, registration)]) services := by
  obtain ⟨listed, builtins, hooks⟩ := describes
  cases refuses with
  | @wrongApi given wrong =>
      have none : (metadata [(extension, .metadata given)]).filter (·.api = hostApi) = [] :=
        List.filter_cons_of_neg (by simpa using wrong)
      exact ⟨listed_unchanged listed none, builtins.unchanged rfl, hooks.unchanged rfl⟩
  | @emptyName given empty =>
      have none : names [(extension, .builtin given)] = [] := by 
        simp [names, RegistrationHistory.builtins, empty]
      exact ⟨listed_unchanged listed rfl, builtins.unchanged none, hooks.unchanged rfl⟩
  | registeredTwice named taken =>
      exact ⟨listed_unchanged listed rfl, builtins.repeated extension named taken, hooks.unchanged rfl⟩
  | @unknownEvent name priority react unknown =>
      have none : subscriptions [(extension, .hook name priority react)] = [] := by
        simp [subscriptions, Event.ofName?_eq_none.mpr unknown]
      exact ⟨listed_unchanged listed rfl, builtins.unchanged rfl, hooks.unchanged none⟩

theorem taken (describes : history.Describes services)
    (takes : services.Takes extension registration after) :
    Describes (history ++ [(extension, registration)]) after := by
  obtain ⟨listed, builtins, hooks⟩ := describes
  cases takes with
  | @metadata given right =>
      have single : RegistrationHistory.metadata [(extension, .metadata given)] = [given] := rfl
      refine ⟨?_, builtins.unchanged rfl, hooks.unchanged rfl⟩
      rw [metadata_concat, List.filter_append, ← listed, single]
      simp [right]
  | builtin named fresh =>
      exact ⟨listed_unchanged listed rfl, builtins.added extension named fresh, hooks.unchanged rfl⟩
  | hook known =>
      exact ⟨listed_unchanged listed rfl, builtins.unchanged rfl, hooks.added extension _ _ known⟩

end Describes

end Step

theorem describes (history : RegistrationHistory) : history.Describes history.services := by
  induction history using List.reverseRecOn with
  | nil =>
      exact ⟨rfl, ⟨rfl, List.forall_mem_nil _⟩, ⟨rfl, fun _ => .refl _, fun _ => .nil⟩⟩
  | append_singleton history call ih =>
      obtain ⟨extension, registration⟩ := call
      have last : services (history ++ [(extension, registration)]) =
          (services history).after (extension, registration) := List.foldl_append
      rw [last, Services.after, Registration.perform_eq ih.hooks.ordered]
      rcases register_cases (services history) extension registration with
        ⟨error, refuses, refused⟩ | ⟨after, takes, taken⟩
      · rw [refused]
        exact ih.refused refuses
      · rw [taken]
        exact ih.taken takes

end RegistrationHistory

end MonkeyLang
