import MonkeyLang.Evaluation.Course
import MonkeyLang.Proofs.Tables
import MonkeyLang.Setting

namespace MonkeyLang

/-! # Histories of scopes

A host opens scopes and binds names in them, in any order.  What it finds in them afterwards can be told
from the list of what it did alone.
-/

/-- What is done to scopes: one is opened, outermost or inside another, or a name is bound in one. -/
inductive ScopeCall where
  | child (parent : Option ScopeId)
  | set (scope : ScopeId) (name : String) (value : Value)

namespace ScopeCall

/-- The machine that a call leaves behind, also where it raises a fault. -/
def perform : ScopeCall → Machine → Machine
  | child parent, machine => (Eval.newScope parent machine).machine
  | set scope name value, machine => (Eval.bind scope name value machine).machine

/-- A call is made on scopes that there are. -/
def Refers (scopes : Scopes) : ScopeCall → Prop
  | child parent => ∀ outer ∈ parent, outer < scopes.size
  | set scope _ _ => scope < scopes.size

instance (scopes : Scopes) : (call : ScopeCall) → Decidable (call.Refers scopes)
  | child parent => inferInstanceAs (Decidable (∀ outer ∈ parent, outer < scopes.size))
  | set scope _ _ => inferInstanceAs (Decidable (scope < scopes.size))

/-- The scope around the one that is opened. -/
def parent? : ScopeCall → Option (Option ScopeId)
  | child parent => some parent
  | set .. => none

/-- What is bound in a scope.  Signals are not accepted. -/
def binding? (id : ScopeId) : ScopeCall → Option (String × Value)
  | child _ => none
  | set scope name value =>
      if scope = id ∧ value.isSignal = false then some (name, value) else none

end ScopeCall

/-- Calls in the order in which they are made. -/
abbrev ScopeHistory := List ScopeCall

namespace ScopeHistory

/-- For each scope the one around it, in the order in which they are opened. -/
def parents (history : ScopeHistory) : List (Option ScopeId) :=
  history.filterMap ScopeCall.parent?

/-- The accepted bindings in a scope. -/
def accepted (history : ScopeHistory) (id : ScopeId) : List (String × Value) :=
  history.filterMap (ScopeCall.binding? id)

/-- The value to which a name was bound last in a scope itself. -/
def latest? (history : ScopeHistory) (id : ScopeId) (name : String) : Option Value :=
  (history.accepted id).reverse.lookup name

/-- What is seen of a name from a scope: its latest value in the nearest scope on the way out in which it
was ever bound, and nothing if there is none. -/
inductive Sees (history : ScopeHistory) (name : String) : ScopeId → Option Value → Prop
  | here {id : ScopeId} {value : Value} (bound : history.latest? id name = some value) :
      Sees history name id (some value)
  | around {id outer : ScopeId} {result : Option Value} (unbound : history.latest? id name = none)
      (parent : history.parents[id]? = some (some outer)) (further : Sees history name outer result) :
      Sees history name id result
  | nowhere {id : ScopeId} (unbound : history.latest? id name = none)
      (outermost : history.parents[id]? = some none) : Sees history name id none

/-- A scope is another one or stands inside it, however deep. -/
inductive Inside (history : ScopeHistory) (outer : ScopeId) : ScopeId → Prop
  | self : Inside history outer outer
  | inner {id around : ScopeId} (parent : history.parents[id]? = some (some around))
      (inside : Inside history outer around) : Inside history outer id

/-- A lookup of a name from a scope comes to another one. -/
inductive Asks (history : ScopeHistory) (name : String) (outer : ScopeId) : ScopeId → Prop
  | self : Asks history name outer outer
  | inner {id around : ScopeId} (unbound : history.latest? id name = none)
      (parent : history.parents[id]? = some (some around)) (asks : Asks history name outer around) :
      Asks history name outer id

/-- A history leads from a machine without scopes to a machine. -/
inductive Leads : ScopeHistory → Machine → Prop
  | start {machine : Machine} (none : machine.scopes = .empty) : Leads [] machine
  | next {history : ScopeHistory} {machine : Machine} {call : ScopeCall}
      (earlier : Leads history machine) (refers : call.Refers machine.scopes) :
      Leads (history ++ [call]) (call.perform machine)

section Calls

variable {history : ScopeHistory} {machine : Machine} {id scope : ScopeId} {name other : String}
  {value : Value}

theorem parents_child (parent : Option ScopeId) :
    parents (history ++ [.child parent]) = history.parents ++ [parent] := List.filterMap_append

theorem parents_set : parents (history ++ [.set scope name value]) = history.parents := by
  rw [parents, List.filterMap_append]
  exact List.append_nil _

theorem accepted_child (parent : Option ScopeId) :
    accepted (history ++ [.child parent]) id = history.accepted id := by
  rw [accepted, List.filterMap_append]
  exact List.append_nil _

theorem accepted_set :
    accepted (history ++ [.set scope name value]) id =
      if scope = id ∧ value.isSignal = false then history.accepted id ++ [(name, value)]
      else history.accepted id := by
  by_cases taken : scope = id ∧ value.isSignal = false <;>
    simp [accepted, ScopeCall.binding?, taken]

theorem latest?_set (ordinary : value.isSignal = false) :
    latest? (history ++ [.set scope name value]) id other =
      if scope = id ∧ other = name then some value else history.latest? id other := by
  rw [latest?, accepted_set]
  by_cases here : scope = id
  · by_cases same : other = name
    · simp [here, ordinary, same]
    · simp [here, ordinary, same, List.lookup_cons, beq_false_of_ne same, latest?]
  · simp [here, latest?]

/-- A signal is refused, and nothing changes. -/
theorem bind_signal (signal : value.isSignal = true) :
    (Eval.bind scope name value machine).ending = .error (.runtime
      (.bare ("Cannot bind " ++ value.typeName ++ " to '" ++ name ++ "'") (some "Let"))) machine := by
  rw [Eval.bind, if_pos signal]
  rfl

theorem bind_ordinary (ordinary : value.isSignal = false) :
    (Eval.bind scope name value machine).machine =
      { machine with scopes := machine.scopes.bind scope name value } := by
  rw [Eval.bind, ordinary]
  rfl

end Calls

/-- What a history tells of the scopes to which it leads: each binds what was bound in it, and stands in
an older one.  Nothing was bound in scopes that are not there. -/
structure Describes (history : ScopeHistory) (scopes : Scopes) : Prop where
  table : ∀ id : ScopeId, scopes.table[id]? =
    (history.parents[id]?).map fun parent => ⟨parent, Scope.written (history.accepted id)⟩
  older : ∀ {id outer : ScopeId}, history.parents[id]? = some (some outer) → outer < id
  unopened : ∀ id, history.parents.length ≤ id → history.accepted id = []

namespace Describes

variable {history : ScopeHistory} {scopes : Scopes} {id outer : ScopeId} {name : String}

theorem size (describes : history.Describes scopes) : scopes.size = history.parents.length := by
  refine Nat.le_antisymm ?_ ?_
  · have none := describes.table history.parents.length
    rw [List.getElem?_eq_none (Nat.le_refl _)] at none
    exact Array.getElem?_eq_none_iff.mp none
  · have none := describes.table scopes.size
    rw [Scopes.size, Array.getElem?_size, eq_comm, Option.map_eq_none_iff] at none
    exact List.getElem?_eq_none_iff.mp none

theorem child (describes : history.Describes scopes) {parent : Option ScopeId}
    (refers : ∀ outer ∈ parent, outer < scopes.size) :
    Describes (history ++ [.child parent]) (scopes.add parent) := by
  constructor
  case table =>
    intro id
    rw [parents_child, accepted_child]
    have size := describes.size
    rcases Nat.lt_trichotomy id scopes.size with old | new | beyond
    · rw [List.getElem?_append_left (size ▸ old), ← describes.table]
      exact (Array.getElem?_push_lt old).trans (Array.getElem?_eq_getElem old).symm
    · subst new
      rw [describes.unopened _ (Nat.le_of_eq size.symm), size, List.getElem?_concat_length, ← size]
      exact Array.getElem?_push_size
    · rw [List.getElem?_eq_none (by rw [List.length_append, ← size]; exact beyond)]
      refine Array.getElem?_eq_none ?_
      rw [Scopes.add, Array.size_push]
      exact beyond
  case older =>
    intro id outer found
    rw [parents_child] at found
    by_cases old : id < history.parents.length
    · rw [List.getElem?_append_left old] at found
      exact describes.older found
    · have within := (List.getElem?_eq_some_iff.mp found).1
      rw [List.length_append, List.length_singleton] at within
      obtain rfl : id = history.parents.length :=
        Nat.le_antisymm (Nat.le_of_lt_succ within) (Nat.not_lt.mp old)
      rw [List.getElem?_concat_length] at found
      exact describes.size ▸ refers outer (Option.some.inj found)
  case unopened =>
    intro id beyond
    rw [parents_child, List.length_append] at beyond
    rw [accepted_child]
    exact describes.unopened id (Nat.le_trans (Nat.le_add_right _ _) beyond)

theorem set (describes : history.Describes scopes) {scope : ScopeId} {value : Value}
    (refers : scope < scopes.size) (ordinary : value.isSignal = false) :
    Describes (history ++ [.set scope name value]) (scopes.bind scope name value) := by
  constructor
  case table =>
    intro id
    rw [parents_set, accepted_set]
    simp only [Scopes.bind, Array.getElem?_modify, describes.table, ordinary, and_true]
    by_cases here : scope = id
    · simp only [here, if_true, Option.map_map, Scope.written_concat]
      rfl
    · simp only [here, if_false]
  case older =>
    intro id outer found
    rw [parents_set] at found
    exact describes.older found
  case unopened =>
    intro id beyond
    rw [parents_set] at beyond
    have apart : ¬ (scope = id ∧ value.isSignal = false) := by
      rintro ⟨rfl, _⟩
      exact Nat.not_lt.mpr beyond (describes.size ▸ refers)
    rw [accepted_set, if_neg apart]
    exact describes.unopened id beyond

theorem refused (describes : history.Describes scopes) {scope : ScopeId} {value : Value}
    (signal : value.isSignal = true) : Describes (history ++ [.set scope name value]) scopes := by
  have apart : ∀ id, ¬ (scope = id ∧ value.isSignal = false) := fun _ taken =>
    nomatch signal.symm.trans taken.2
  constructor
  case table =>
    intro id
    rw [parents_set, accepted_set, if_neg (apart id)]
    exact describes.table id
  case older =>
    intro id outer found
    rw [parents_set] at found
    exact describes.older found
  case unopened =>
    intro id beyond
    rw [parents_set] at beyond
    rw [accepted_set, if_neg (apart id)]
    exact describes.unopened id beyond

end Describes

theorem Leads.describes {history : ScopeHistory} {machine : Machine} (leads : history.Leads machine) :
    history.Describes machine.scopes := by
  induction leads with
  | start none =>
      rw [none]
      exact ⟨fun _ => rfl, nofun, fun _ _ => rfl⟩
  | @next history machine call earlier refers ih =>
      cases call with
      | child parent => exact ih.child refers
      | set scope name value =>
          cases signal : value.isSignal with
          | true =>
              have unchanged : (ScopeCall.perform (.set scope name value) machine).scopes =
                  machine.scopes := by
                rw [ScopeCall.perform, Course.machine, bind_signal signal]
              exact unchanged ▸ ih.refused signal
          | false =>
              rw [ScopeCall.perform, bind_ordinary signal]
              exact ih.set refers signal

section Lookups

variable {history later : ScopeHistory} {scopes : Scopes} {id outer : ScopeId} {name : String}
  {result other : Option Value}

theorem Sees.unique (sees : history.Sees name id result) (also : history.Sees name id other) :
    result = other := by
  induction sees with
  | here bound =>
      cases also with
      | here same => exact bound.symm.trans same
      | around unbound _ _ | nowhere unbound _ => cases bound.symm.trans unbound
  | around unbound parent _ ih =>
      cases also with
      | here bound => cases bound.symm.trans unbound
      | around _ same further =>
          cases parent.symm.trans same
          exact ih further
      | nowhere _ outermost => cases parent.symm.trans outermost
  | nowhere unbound outermost =>
      cases also with
      | here bound => cases bound.symm.trans unbound
      | around _ parent _ => cases parent.symm.trans outermost
      | nowhere _ _ => rfl

theorem Describes.lookup (describes : history.Describes scopes) (within : id < scopes.size) :
    ∃ parent bindings, history.parents[id]? = some parent ∧ scopes.table[id]? = some ⟨parent, bindings⟩ ∧
      bindings.map Prod.fst = ((history.accepted id).map Prod.fst).eraseDups ∧
      ∀ name, bindings.lookup name = history.latest? id name := by
  obtain ⟨parent, found⟩ : ∃ parent, history.parents[id]? = some parent :=
    ⟨_, List.getElem?_eq_getElem (describes.size ▸ within)⟩
  refine ⟨parent, Scope.written (history.accepted id), found, ?_, Scope.written_names _,
    Scope.written_lookup _⟩
  rw [describes.table, found, Option.map_some]

/-- Scopes stand in older ones, so that a lookup does not go further out than their number tells. -/
theorem Describes.sees (describes : history.Describes scopes) {reach : Nat} (enough : id < reach)
    (within : id < scopes.size) : history.Sees name id (scopes.findWithin reach id name) := by
  induction reach generalizing id with
  | zero => exact absurd enough (Nat.not_lt_zero id)
  | succ reach ih =>
      obtain ⟨parent, bindings, found, present, -, lookup⟩ := describes.lookup within
      rw [Scopes.findWithin, present]
      dsimp only
      rw [lookup]
      cases bound : history.latest? id name with
      | some value => exact .here bound
      | none =>
          cases parent with
          | none => exact .nowhere bound found
          | some outer =>
              have older := describes.older found
              exact .around bound found
                (ih (Nat.lt_of_lt_of_le older (Nat.le_of_lt_succ enough)) (Nat.lt_trans older within))

theorem Describes.find?_iff (describes : history.Describes scopes) (within : id < scopes.size) :
    history.Sees name id result ↔ scopes.find? id name = result := by
  have found : history.Sees name id (scopes.find? id name) := describes.sees (Nat.lt_succ_self id) within
  exact ⟨found.unique, fun same => same ▸ found⟩

/-- A lookup goes as before if nothing changed in the scopes to which it comes. -/
theorem Sees.carry (sees : history.Sees name id result) (same : later.parents = history.parents)
    (kept : ∀ outer, history.Asks name outer id → later.latest? outer name = history.latest? outer name) :
    later.Sees name id result := by
  induction sees with
  | here bound => exact .here ((kept _ .self).trans bound)
  | around unbound parent _ ih =>
      exact .around ((kept _ .self).trans unbound) (same ▸ parent)
        (ih fun outer asks => kept outer (.inner unbound parent asks))
  | nowhere unbound outermost => exact .nowhere ((kept _ .self).trans unbound) (same ▸ outermost)

theorem Asks.inside (asks : history.Asks name outer id) : history.Inside outer id := by
  induction asks with
  | self => exact .self
  | inner _ parent _ ih => exact .inner parent ih

theorem Inside.le (inside : history.Inside outer id) (describes : history.Describes scopes) :
    outer ≤ id := by
  induction inside with
  | self => exact Nat.le_refl _
  | inner parent _ ih => exact Nat.le_trans ih (Nat.le_of_lt (describes.older parent))

/-- No lookup gets past a scope that binds the name. -/
theorem Asks.stopped (asks : history.Asks name outer id) {nearer : ScopeId}
    (around : history.Inside outer nearer) (further : nearer ≠ outer)
    (inside : history.Inside nearer id) (describes : history.Describes scopes) :
    history.latest? nearer name = none := by
  induction asks with
  | self => exact absurd (Nat.le_antisymm (inside.le describes) (around.le describes)) further
  | inner unbound parent _ ih =>
      cases inside with
      | self => exact unbound
      | inner same inside =>
          cases parent.symm.trans same
          exact ih inside

end Lookups

end ScopeHistory

/-- After any history, in which signals are refused and change nothing: a name is seen from a scope as
what it was bound to last in the nearest scope on the way out that ever bound it.  One binding more is
not seen from outside of its scope, nor past a scope that binds the name, nor under other names.  The
names of a scope are listed in the order in which they were first bound. -/
theorem scopes_bind_innermost {history : ScopeHistory} {machine : Machine}
    (leads : history.Leads machine) :
    (∀ id < machine.scopes.size, ∀ name result,
      history.Sees name id result ↔ machine.scopes.find? id name = result) ∧
    (∀ id < machine.scopes.size,
      (machine.scopes.snapshot id).map Prod.fst = ((history.accepted id).map Prod.fst).eraseDups) ∧
    ∀ scope < machine.scopes.size, ∀ name value,
      let course := Eval.bind scope name value machine
      (value.isSignal = true → course.ending = .error (.runtime
        (.bare ("Cannot bind " ++ value.typeName ++ " to '" ++ name ++ "'") (some "Let"))) machine) ∧
      ∀ id < machine.scopes.size, ∀ other,
        (other ≠ name ∨ ¬ history.Inside scope id ∨
          ∃ nearer, history.Inside scope nearer ∧ nearer ≠ scope ∧ history.Inside nearer id ∧
            history.latest? nearer other ≠ none) →
        course.machine.scopes.find? id other = machine.scopes.find? id other := by
  have describes := leads.describes
  refine ⟨fun id within name result => describes.find?_iff within, fun id within => ?_, ?_⟩
  · obtain ⟨parent, bindings, -, present, names, -⟩ := describes.lookup within
    rw [Scopes.snapshot, present, ← names]
    simp [Scope.snapshot]
  · intro scope refers name value course
    refine ⟨ScopeHistory.bind_signal, fun id within other unaffected => ?_⟩
    cases signal : value.isSignal with
    | true =>
        have unchanged : course.machine = machine := by
          rw [Course.machine, ScopeHistory.bind_signal signal]
        rw [unchanged]
    | false =>
        have after : ScopeHistory.Describes (history ++ [.set scope name value])
            (machine.scopes.bind scope name value) := describes.set refers signal
        have size : (machine.scopes.bind scope name value).size = machine.scopes.size := by
          rw [after.size, ScopeHistory.parents_set, describes.size]
        rw [ScopeHistory.bind_ordinary signal]
        refine (after.find?_iff (size ▸ within)).mp ?_
        refine ((describes.find?_iff within).mpr rfl).carry ScopeHistory.parents_set fun outer asks => ?_
        rw [ScopeHistory.latest?_set signal]
        refine if_neg ?_
        rintro ⟨rfl, rfl⟩
        rcases unaffected with differs | outside | ⟨nearer, around, further, inside, bound⟩
        · exact differs rfl
        · exact outside asks.inside
        · exact bound (asks.stopped around further inside describes)

/-- A scope in another one, which binds `a` and takes a failure for it afterwards, is asked from a third
one.  The failure is refused, and binding `a` further out is not seen. -/
theorem scopes_bind_innermost_refused :
    let failure : Value := .failed (.bare "boom" none)
    let history : ScopeHistory := [.child none, .child (some 0), .set 1 "a" (.integer 0 1),
      .child (some 1), .set 1 "b" .null, .set 1 "a" failure, .set 1 "a" (.integer 1 2)]
    let machine := history.foldl (fun machine call => call.perform machine)
      (Machine.initial ⟨"<string>", false, [], .none⟩)
    let course := Eval.bind 0 "a" .null machine
    history.Leads machine ∧ machine.scopes.find? 2 "a" = some (.integer 1 2) ∧
      (machine.scopes.snapshot 1).map Prod.fst = ["a", "b"] ∧
      course.machine.scopes.find? 2 "a" = some (.integer 1 2) := by
  intro failure history machine course
  have leads : history.Leads machine :=
    ((((((ScopeHistory.Leads.start rfl |>.next (by decide)).next (by decide)).next (by decide)).next
      (by decide)).next (by decide)).next (by decide)).next (by decide)
  obtain ⟨seen, names, written⟩ := scopes_bind_innermost leads
  have outward : machine.scopes.find? 2 "a" = some (.integer 1 2) :=
    (seen 2 (by decide) "a" _).mp (.around rfl rfl (.here rfl))
  refine ⟨leads, outward, (names 1 (by decide)).trans (by decide), ?_⟩
  refine ((written 0 (by decide) "a" .null).2 2 (by decide) "a" (.inr (.inr ⟨1, ?_, by decide, ?_, ?_⟩))).trans
    outward
  · exact .inner rfl .self
  · exact .inner rfl .self
  · exact Option.some_ne_none _

end MonkeyLang
