import Mathlib.Data.List.Forall2
import MonkeyLang.Scope

namespace MonkeyLang

/-! # Scopes

What all scopes bind is followed through every change of them, and so is which of them changed.
-/

/-- All scopes bind good values only. -/
def Scopes.Bind (good : Value → Prop) (scopes : Scopes) : Prop :=
  ∀ scope ∈ scopes.table, ∀ binding ∈ scope.bindings, good binding.2

namespace Scopes

variable {good : Value → Prop} {scopes : Scopes}

theorem Bind.add (bound : scopes.Bind good) (parent : Option ScopeId) :
    (scopes.add parent).Bind good := by
  intro scope member
  rcases Array.mem_push.mp member with old | rfl
  · exact bound scope old
  · exact List.forall_mem_nil _

theorem bind_forall {name : String} {value : Value} {bindings : List (String × Value)}
    (allGood : ∀ binding ∈ bindings, good binding.2) (isGood : good value) :
    ∀ binding ∈ Scope.bind name value bindings, good binding.2 := by
  induction bindings with
  | nil => simpa [Scope.bind] using isGood
  | cons first others ih =>
      obtain ⟨firstGood, othersGood⟩ := List.forall_mem_cons.mp allGood
      simp only [Scope.bind]
      split
      · exact List.forall_mem_cons.mpr ⟨isGood, othersGood⟩
      · exact List.forall_mem_cons.mpr ⟨firstGood, ih othersGood⟩

theorem Bind.bind (bound : scopes.Bind good) (id : ScopeId) (name : String) {value : Value}
    (isGood : good value) : (scopes.bind id name value).Bind good := by
  intro scope member
  obtain ⟨index, within, rfl⟩ := Array.getElem_of_mem member
  simp only [Scopes.bind, Array.size_modify] at within
  simp only [Scopes.bind, Array.getElem_modify]
  split
  · exact bind_forall (bound _ (Array.getElem_mem within)) isGood
  · exact bound _ (Array.getElem_mem within)

theorem Bind.found (bound : scopes.Bind good) {id : ScopeId} {name : String} {value : Value}
    (found : scopes.find? id name = some value) : good value := by
  unfold Scopes.find? at found
  generalize id + 1 = reach at found
  induction reach generalizing id with
  | zero => cases found
  | succ reach ih =>
      unfold Scopes.findWithin at found
      split at found
      · cases found
      · rename_i scope present
        split at found
        · rename_i hit
          cases found
          obtain ⟨before, behind, split, _⟩ := List.lookup_eq_some_iff.mp hit
          refine bound scope (Array.mem_of_getElem? present) (name, value) ?_
          rw [split]
          exact List.mem_append_right before List.mem_cons_self
        · split at found
          · cases found
          · exact ih found

end Scopes

namespace Scope

variable {related : Value → Value → Prop} {bindings others : List (String × Value)} {left right : Value}

theorem bind_related (name : String) (values : related left right)
    (all : List.Forall₂ (Prod.RProd Eq related) bindings others) :
    List.Forall₂ (Prod.RProd Eq related) (bind name left bindings) (bind name right others) := by
  induction all with
  | nil => exact .cons (.intro rfl values) .nil
  | cons first rest ih =>
      cases first with | intro names olds
      subst names
      simp only [bind]
      split
      · exact .cons (.intro rfl values) rest
      · exact .cons (.intro rfl olds) ih

theorem lookup_related (name : String) (all : List.Forall₂ (Prod.RProd Eq related) bindings others) :
    Option.Rel related (bindings.lookup name) (others.lookup name) := by
  induction all with
  | nil => exact .none
  | cons first rest ih =>
      cases first with | intro names values
      subst names
      simp only [List.lookup_cons]
      split
      · exact .some values
      · exact ih

end Scope

/-- Scopes that stand in the same one, which can be reached, and in which a name is bound alike, if at
all. -/
structure Scope.Alike (related : Value → Value → Prop) (reached : ScopeId → Prop) (name : String)
    (left right : Scope) : Prop where
  parent : left.parent = right.parent
  around : ∀ parent, right.parent = some parent → reached parent
  found : Option.Rel related (left.bindings.lookup name) (right.bindings.lookup name)

theorem Scopes.find?_alike {first second : Scopes} {related : Value → Value → Prop}
    {reached : ScopeId → Prop} {name : String}
    (each : ∀ id, reached id →
      Option.Rel (Scope.Alike related reached name) first.table[id]? second.table[id]?)
    (id : ScopeId) (inside : reached id) :
    Option.Rel related (first.find? id name) (second.find? id name) := by
  unfold find?
  generalize id + 1 = reach
  induction reach generalizing id with
  | zero => exact .none
  | succ reach ih =>
      have here := each id inside
      simp only [findWithin]
      generalize first.table[id]? = scope, second.table[id]? = other at here
      cases here with
      | none => exact .none
      | @some scope other alike =>
          have found := alike.found
          dsimp only
          rw [alike.parent]
          generalize scope.bindings.lookup name = value, other.bindings.lookup name = otherValue
            at found
          cases found with
          | some values => exact .some values
          | none =>
              cases parent : other.parent with
              | none => exact .none
              | some outer => exact ih outer (alike.around outer parent)

namespace Scope

variable {name other : String} {bindings : List (String × Value)}

theorem lookup_bind (name : String) (value : Value) (bindings : List (String × Value)) :
    (bind name value bindings).lookup name = some value := by
  induction bindings with
  | nil => exact List.lookup_cons_self
  | cons first others ih =>
      obtain ⟨present, old⟩ := first
      simp only [bind]
      split
      · rename_i same
        rw [eq_of_beq same, List.lookup_cons_self]
      · rename_i differs
        have apart : (name == present) = false := by
          rw [Bool.beq_comm]
          exact Bool.eq_false_iff.mpr differs
        rw [List.lookup_cons, apart]
        exact ih

theorem lookup_bind_other (value : Value) (differs : other ≠ name) :
    (bind name value bindings).lookup other = bindings.lookup other := by
  induction bindings with
  | nil => rw [bind, List.lookup_cons, beq_false_of_ne differs]
  | cons first others ih =>
      obtain ⟨present, old⟩ := first
      simp only [bind]
      split
      · rename_i same
        rw [eq_of_beq same, List.lookup_cons, List.lookup_cons, beq_false_of_ne differs]
      · rw [List.lookup_cons, List.lookup_cons, ih]

end Scope

namespace Scopes

variable {scopes : Scopes} {scope id : ScopeId} {name other : String}

theorem find?_bind (value : Value) (present : scope < scopes.size) :
    (scopes.bind scope name value).find? scope name = some value := by
  have found : (scopes.bind scope name value).table[scope]? =
      some { scopes.table[scope] with bindings := Scope.bind name value scopes.table[scope].bindings } := by
    simp only [Scopes.bind, Array.getElem?_modify, if_pos]
    rw [Array.getElem?_eq_getElem present]
    rfl
  simp only [find?, findWithin, found, Scope.lookup_bind]

theorem find?_bind_other (value : Value) (differs : other ≠ name) :
    (scopes.bind scope name value).find? id other = scopes.find? id other := by
  have same : ∀ result : Option Value, Option.Rel Eq result result := fun result => by
    cases result with
    | none => exact .none
    | some => exact .some rfl
  have each : ∀ id : ScopeId, True → Option.Rel (Scope.Alike Eq (fun _ => True) other)
      (scopes.bind scope name value).table[id]? scopes.table[id]? := by
    intro id _
    simp only [Scopes.bind, Array.getElem?_modify]
    cases scopes.table[id]? with
    | none => split <;> exact .none
    | some present =>
        split
        · refine .some ⟨rfl, fun _ _ => trivial, ?_⟩
          rw [Scope.lookup_bind_other value differs]
          exact same _
        · exact .some ⟨rfl, fun _ _ => trivial, same _⟩
  have found := find?_alike each id trivial
  generalize (scopes.bind scope name value).find? id other = left, scopes.find? id other = right at found
  cases found with
  | none => rfl
  | some values => rw [values]

end Scopes

/-- Bindings from which others come by binding names that may be bound: those that were there keep
their order, and any new one comes behind them. -/
inductive Scope.Updates (may : String → Prop) :
    List (String × Value) → List (String × Value) → Prop
  | added {new : List (String × Value)} (allowed : ∀ binding ∈ new, may binding.1) :
      Updates may [] new
  | kept (binding : String × Value) {old new : List (String × Value)} (others : Updates may old new) :
      Updates may (binding :: old) (binding :: new)
  | rebound {name : String} (before after : Value) {old new : List (String × Value)}
      (allowed : may name) (others : Updates may old new) :
      Updates may ((name, before) :: old) ((name, after) :: new)

namespace Scope

variable {may : String → Prop} {old new : List (String × Value)}

theorem Updates.rfl : Updates may old old := by
  induction old with
  | nil => exact .added (List.forall_mem_nil _)
  | cons binding others ih => exact .kept binding ih

theorem bind_names {name : String} (value : Value) {bindings : List (String × Value)}
    (allowed : may name) (all : ∀ binding ∈ bindings, may binding.1) :
    ∀ binding ∈ bind name value bindings, may binding.1 := by
  induction bindings with
  | nil => simpa [bind] using allowed
  | cons first others ih =>
      obtain ⟨firstAllowed, othersAllowed⟩ := List.forall_mem_cons.mp all
      simp only [bind]
      split
      · exact List.forall_mem_cons.mpr ⟨firstAllowed, othersAllowed⟩
      · exact List.forall_mem_cons.mpr ⟨firstAllowed, ih othersAllowed⟩

theorem Updates.bind (updates : Updates may old new) {name : String} (value : Value)
    (allowed : may name) : Updates may old (Scope.bind name value new) := by
  induction updates with
  | added all => exact .added (bind_names value allowed all)
  | kept binding others ih =>
      obtain ⟨present, before⟩ := binding
      simp only [Scope.bind]
      split
      · rename_i same
        rw [← eq_of_beq same] at allowed
        exact .rebound before value allowed others
      · exact .kept _ ih
  | rebound before after presentAllowed others ih =>
      simp only [Scope.bind]
      split
      · exact .rebound before value presentAllowed others
      · exact .rebound before after presentAllowed ih

theorem Updates.eq (updates : Updates (fun _ => False) old new) : new = old := by
  induction updates with
  | @added new impossible =>
      cases new with
      | nil => rfl
      | cons binding others => exact (impossible binding List.mem_cons_self).elim
  | kept binding others ih => rw [ih]
  | rebound before after impossible => exact impossible.elim

end Scope

namespace Scopes

variable {target id : ScopeId} {may : String → Prop} {before scopes : Scopes}

/-- Of the scopes that there were before, only one may have changed, and that one only by binding
names that may be bound. -/
structure Writes (target : ScopeId) (may : String → Prop) (before after : Scopes) : Prop where
  size : before.size ≤ after.size
  others : ∀ id < before.size, id ≠ target → after.table[id]? = before.table[id]?
  target : ∀ scope, before.table[target]? = some scope →
    ∃ written, after.table[target]? = some written ∧ written.parent = scope.parent ∧
      Scope.Updates may scope.bindings written.bindings

theorem Writes.rfl : before.Writes target may before where
  size := Nat.le_refl _
  others _ _ _ := Eq.refl _
  target scope found := ⟨scope, found, Eq.refl _, .rfl⟩

theorem Writes.add (writes : before.Writes target may scopes) (parent : Option ScopeId) :
    before.Writes target may (scopes.add parent) := by
  have present : ∀ id < scopes.size, (scopes.add parent).table[id]? = scopes.table[id]? := by
    intro id within
    exact Array.getElem?_push_lt within ▸ (Array.getElem?_eq_getElem within).symm
  constructor
  case size => exact Nat.le_trans writes.size (by simp [Scopes.add, Scopes.size])
  case others =>
    intro id within other
    rw [present id (Nat.lt_of_lt_of_le within writes.size)]
    exact writes.others id within other
  case target =>
    intro scope found
    obtain ⟨written, kept, given⟩ := writes.target scope found
    refine ⟨written, ?_, given⟩
    rw [present _ (Array.getElem?_eq_some_iff.mp kept).1]
    exact kept

/-- Nothing is said of scopes that were opened later. -/
theorem Writes.bind (writes : before.Writes target may scopes) {name : String} (value : Value)
    (allowed : before.size ≤ id ∨ (id = target ∧ may name)) :
    before.Writes target may (scopes.bind id name value) := by
  have elsewhere : ∀ other, id ≠ other →
      (scopes.bind id name value).table[other]? = scopes.table[other]? := by
    intro other differs
    simp only [Scopes.bind, Array.getElem?_modify, if_neg differs]
  constructor
  case size => exact Nat.le_trans writes.size (by simp [Scopes.bind, Scopes.size])
  case others =>
    intro other within differs
    have apart : id ≠ other := by
      rintro rfl
      rcases allowed with later | ⟨same, _⟩
      · exact Nat.not_lt.mpr later within
      · exact differs same
    rw [elsewhere other apart]
    exact writes.others other within differs
  case target =>
    intro scope found
    obtain ⟨written, kept, parent, updates⟩ := writes.target scope found
    rcases allowed with later | ⟨same, allowed⟩
    · have apart : id ≠ target := by
        rintro rfl
        exact Nat.not_lt.mpr later (Array.getElem?_eq_some_iff.mp found).1
      exact ⟨written, (elsewhere target apart).trans kept, parent, updates⟩
    · subst same
      refine ⟨{ written with bindings := Scope.bind name value written.bindings }, ?_, parent,
        updates.bind value allowed⟩
      simp only [Scopes.bind, Array.getElem?_modify, if_pos, kept, Option.map_some]

/-- Where no name may be bound, every scope is as it was. -/
theorem Writes.unchanged (writes : before.Writes target (fun _ => False) scopes)
    (within : id < before.size) : scopes.table[id]? = before.table[id]? := by
  by_cases same : id = target
  · subst same
    obtain ⟨written, kept, parent, updates⟩ :=
      writes.target _ (Array.getElem?_eq_getElem within)
    have same : written = before.table[id] := by
      obtain ⟨outer, bindings⟩ := written
      exact congr (congrArg Scope.mk parent) updates.eq
    rw [kept, Array.getElem?_eq_getElem within, same]
  · exact writes.others id within same

end Scopes

end MonkeyLang
