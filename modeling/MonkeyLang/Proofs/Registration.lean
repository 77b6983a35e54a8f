import Mathlib.Data.List.Nodup
import MonkeyLang.Proofs.Extension.History

namespace MonkeyLang

/-! # Registration

What calls of extensions leave behind: the hooks of each event in the order in which they are called, and
builtins of different names, by which a run that is set up with them knows them.
-/

/-- After any calls of extensions the list of an event holds just the hooks that were registered for it, each
once, by descending priority and for one priority in the order of their registration.  An announcement of the
event calls them in this order: all of them, or those up to the first that raises a fault, and no others. -/
theorem hooks_called_in_order (history : RegistrationHistory) (event : Event) :
    let services := history.services
    let listed := services.hooks.of event
    (listed.Perm (history.hooks event) ∧
      (history.hooks event).Pairwise (fun earlier later => earlier.serial < later.serial) ∧
      listed.Pairwise Hook.Precedes ∧ (listed.map (·.serial)).Nodup) ∧
    ∀ notice before, notice.event = event →
      let course := Eval.announce services.hooks notice before
      ∃ called, called <+: listed ∧
        Eval.Calling notice called before course.outcome course.machine ∧
        (course.outcome = .ok () → called = listed) ∧
        Machine.Called (called.map (·.serial)) before course.machine := by
  intro services listed
  have describes : history.Describes services := history.describes
  have heard : listed.Perm (history.hooks event) := describes.hooks.heard event
  have ascending := history.hooks_ascending event
  have once : ((history.hooks event).map (·.serial)).Nodup :=
    List.pairwise_map.mpr (ascending.imp Nat.ne_of_lt)
  refine ⟨⟨heard, ascending, describes.hooks.ordered event, (heard.map _).nodup_iff.mpr once⟩, ?_⟩
  rintro notice before rfl course
  obtain ⟨called, isPrefix, calling, all⟩ := Eval.callHooks_calling listed notice before
  exact ⟨called, isPrefix, calling, all, calling.counted⟩

/-- Builtins are put behind those of a table one by one.  None may take a name that is there. -/
def Setting.install : List Builtin → List Builtin → Except ExtensionError (List Builtin)
  | table, [] => .ok table
  | table, builtin :: others =>
      if builtin.name ∈ table.map (·.name) then .error (.overridesCore builtin.name)
      else install (table ++ [builtin]) others

section Tables

variable {table contributed : List Builtin}

theorem isCore_iff (name : String) :
    Builtin.core.any (·.name == name) = true ↔ name ∈ Builtin.core.map (·.name) := by
  simp

/-- Builtins of other names than those in a table, and than each other, are put behind them. -/
theorem install_append (distinct : (contributed.map (·.name)).Nodup)
    (fresh : ∀ builtin ∈ contributed, builtin.name ∉ table.map (·.name)) (others : List Builtin) :
    Setting.install table (contributed ++ others) = Setting.install (table ++ contributed) others := by
  induction contributed generalizing table with
  | nil => rw [List.append_nil, List.nil_append]
  | cons builtin contributed ih =>
      obtain ⟨unlike, distinct⟩ := List.pairwise_cons.mp distinct
      obtain ⟨new, fresh⟩ := List.forall_mem_cons.mp fresh
      have stillFresh : ∀ other ∈ contributed, other.name ∉ (table ++ [builtin]).map (·.name) := by
        intro other member known
        rw [List.map_append] at known
        rcases List.mem_append.mp known with old | same
        · exact fresh other member old
        · exact unlike _ (List.mem_map_of_mem member) (List.mem_singleton.mp same).symm
      rw [List.cons_append, Setting.install, if_neg new, ih distinct stillFresh, List.append_assoc]
      rfl

/-- As the names of contributed builtins differ, they can only meet those of core builtins. -/
theorem builtinTable_eq (distinct : (contributed.map (·.name)).Nodup) :
    Setting.builtinTable contributed = Setting.install Builtin.core contributed := by
  rw [Setting.builtinTable]
  cases search : contributed.find? fun builtin => Builtin.core.any (·.name == builtin.name) with
  | none =>
      have fresh : ∀ builtin ∈ contributed, builtin.name ∉ Builtin.core.map (·.name) :=
        fun builtin member isCore =>
          List.find?_eq_none.mp search builtin member ((isCore_iff _).mpr isCore)
      have installs := install_append distinct fresh []
      rw [List.append_nil] at installs
      rw [installs]
      rfl
  | some builtin =>
      obtain ⟨isCore, front, back, rfl, passed⟩ := List.find?_eq_some_iff_append.mp search
      have fresh : ∀ other ∈ front, other.name ∉ Builtin.core.map (·.name) := by
        intro other member known
        have unlike := passed other member
        rw [(isCore_iff _).mpr known] at unlike
        cases unlike
      have known : builtin.name ∈ (Builtin.core ++ front).map (·.name) := by
        rw [List.map_append]
        exact List.mem_append_left _ ((isCore_iff _).mp isCore)
      rw [List.map_append] at distinct
      rw [install_append (List.nodup_append.mp distinct).1 fresh, Setting.install, if_pos known]

/-- Where names differ, a builtin is found under its own. -/
theorem find?_named (distinct : (table.map (·.name)).Nodup) {name : String} {found : Builtin} :
    table.find? (·.name == name) = some found ↔ found ∈ table ∧ found.name = name := by
  constructor
  · intro isFound
    have named := List.find?_some isFound
    exact ⟨List.mem_of_find?_eq_some isFound, eq_of_beq named⟩
  · rintro ⟨member, rfl⟩
    cases search : table.find? (·.name == found.name) with
    | none => exact absurd (beq_self_eq_true _) (List.find?_eq_none.mp search found member)
    | some other =>
        have same := List.find?_some search
        rw [List.inj_on_of_nodup_map distinct (List.mem_of_find?_eq_some search) member (eq_of_beq same)]

/-- A name stands for the builtin that is found under it. -/
theorem builtinValue?_found {setting : Setting} {name : String} {found : Builtin}
    (isFound : setting.builtins.find? (·.name == name) = some found) :
    ∃ id, setting.builtinValue? name = some (.builtin id found.name found.arity) := by
  obtain ⟨named, id, within, rfl, earlier⟩ := List.find?_eq_some_iff_getElem.mp isFound
  have place : setting.builtins.findIdx? (·.name == name) = some id :=
    List.findIdx?_eq_some_iff_getElem.mpr
      ⟨within, named, fun other before => by simpa using earlier other before⟩
  refine ⟨id, ?_⟩
  rw [Setting.builtinValue?, place]
  dsimp only
  rw [List.getElem?_eq_getElem within]
  rfl

/-- A run can be set up unless a contributed builtin has the name of a core builtin. -/
theorem builtinTable_cases (contributed : List Builtin) :
    (∃ builtin ∈ contributed, builtin.name ∈ Builtin.core.map (·.name) ∧
      Setting.builtinTable contributed = .error (.overridesCore builtin.name)) ∨
    (∀ builtin ∈ contributed, builtin.name ∉ Builtin.core.map (·.name)) ∧
      Setting.builtinTable contributed = .ok (Builtin.core ++ contributed) := by
  rw [Setting.builtinTable]
  cases search : contributed.find? fun builtin => Builtin.core.any (·.name == builtin.name) with
  | some builtin =>
      have isCore := List.find?_some search
      exact .inl ⟨builtin, List.mem_of_find?_eq_some search, (isCore_iff _).mp isCore, rfl⟩
  | none =>
      refine .inr ⟨fun builtin member isCore => ?_, rfl⟩
      exact List.find?_eq_none.mp search builtin member ((isCore_iff _).mpr isCore)

theorem table_distinct (distinct : (contributed.map (·.name)).Nodup)
    (fresh : ∀ builtin ∈ contributed, builtin.name ∉ Builtin.core.map (·.name)) :
    ((Builtin.core ++ contributed).map (·.name)).Nodup := by
  rw [List.map_append]
  refine List.nodup_append.mpr ⟨by decide, distinct, fun name isCore other registered => ?_⟩
  rintro rfl
  obtain ⟨builtin, member, rfl⟩ := List.mem_map.mp registered
  exact fresh builtin member isCore

end Tables

namespace Setting

variable {services : Services} {directory file : String} {verbose : Bool} {setting : Setting}

theorem ofServices_error_iff :
    (∃ error, Setting.ofServices services directory file verbose = .error error) ↔
      ∃ builtin ∈ services.builtins, builtin.name ∈ Builtin.core.map (·.name) := by
  rw [Setting.ofServices]
  rcases builtinTable_cases services.builtins with ⟨builtin, member, isCore, refused⟩ | ⟨fresh, made⟩
  · rw [refused]
    exact ⟨fun _ => ⟨builtin, member, isCore⟩, fun _ => ⟨_, rfl⟩⟩
  · rw [made]
    constructor
    · rintro ⟨error, refused⟩
      cases refused
    · rintro ⟨builtin, member, isCore⟩
      exact absurd isCore (fresh builtin member)

theorem ofServices_ok (ok : Setting.ofServices services directory file verbose = .ok setting) :
    setting.builtins = Builtin.core ++ services.builtins ∧
      ∀ builtin ∈ services.builtins, builtin.name ∉ Builtin.core.map (·.name) := by
  rw [Setting.ofServices] at ok
  rcases builtinTable_cases services.builtins with ⟨_, _, _, refused⟩ | ⟨fresh, made⟩
  · rw [refused] at ok
    cases ok
  · rw [made] at ok
    cases ok
    exact ⟨rfl, fresh⟩

end Setting

/-- After any calls, whether they were refused or not: the next one is refused for one of four reasons, and
then it has changed nothing; it goes as decided by the services.  These hold the metadata that ask for the
interface there is.  Their builtins stand in the order in which their names were first registered, each name
once and none of them empty, with what was registered first under it.  A run that is set up with them is
refused just where one of them has the name of a core builtin.  Else the core builtins and they are what its
names stand for, and nothing else is. -/
theorem registration_all_or_nothing (history : RegistrationHistory) :
    let services := history.services
    (∀ extension registration error after,
      registration.perform extension services = .error error after ↔
        services.Refuses registration error ∧ after = services) ∧
    (∀ extension registration, registration.perform extension services =
      match services.register extension registration with
      | .ok after => .ok () after
      | .error error => .error error services) ∧
    (services.metadata = history.metadata.filter (·.api = hostApi) ∧
      (∀ builtin ∈ services.builtins, builtin.name ≠ "") ∧
      (services.builtins.map (·.name)).Nodup ∧
      services.builtins.map (·.name) = history.names.eraseDups ∧
      ∀ builtin ∈ services.builtins,
        history.builtins.find? (·.name == builtin.name) = some builtin) ∧
    Setting.builtinTable services.builtins = Setting.install Builtin.core services.builtins ∧
    ∀ directory file verbose,
      ((∃ error, Setting.ofServices services directory file verbose = .error error) ↔
        ∃ builtin ∈ services.builtins,
          builtin.name ∈ ["len", "first", "last", "rest", "push", "puts"]) ∧
      ∀ setting, Setting.ofServices services directory file verbose = .ok setting →
        (∀ name found, setting.builtins.find? (·.name == name) = some found ↔
          found ∈ Builtin.core ++ services.builtins ∧ found.name = name) ∧
        ∀ found ∈ Builtin.core ++ services.builtins,
          (∃ id, setting.builtinValue? found.name = some (.builtin id found.name found.arity)) ∧
            ∀ arguments, setting.script found.name arguments = found.run arguments := by
  intro services
  have describes : history.Describes services := history.describes
  have distinct : (services.builtins.map (·.name)).Nodup := describes.builtins.named ▸ nodup_eraseDups _
  have named : ∀ builtin ∈ services.builtins, builtin.name ≠ "" := by
    intro builtin member
    have known := (describes.builtins.isRegistered _).mp (List.mem_map_of_mem member)
    exact of_decide_eq_true (List.mem_filter.mp known).2
  refine ⟨fun extension registration error after => Registration.perform_error_iff describes.hooks.ordered,
    fun extension registration => Registration.perform_eq describes.hooks.ordered extension registration,
    ⟨describes.listed, named, distinct, describes.builtins.named, describes.builtins.earliest⟩,
    builtinTable_eq distinct, fun directory file verbose => ⟨Setting.ofServices_error_iff, ?_⟩⟩
  intro setting ok
  obtain ⟨holds, fresh⟩ := Setting.ofServices_ok ok
  have table : ∀ name found, setting.builtins.find? (·.name == name) = some found ↔
      found ∈ Builtin.core ++ services.builtins ∧ found.name = name := by
    intro name found
    rw [holds, find?_named (table_distinct distinct fresh)]
  refine ⟨table, fun found member => ?_⟩
  have isFound := (table found.name found).mpr ⟨member, rfl⟩
  refine ⟨builtinValue?_found isFound, fun arguments => ?_⟩
  rw [Setting.script, isFound]

end MonkeyLang
