import MonkeyLang.Proofs.Announcements

namespace MonkeyLang

/-! # Hooks in their order

The hooks of an event are called by descending priority, and those of one priority as they were registered.
A new hook gets to its place also where it is put behind the others and all are sorted again, as sorting keeps
the order of those that may stand either way.
-/

/-- Whether a hook may stand before another one, as its priority is not lower. -/
def Hook.mayPrecede (hook other : Hook) : Bool :=
  other.priority ≤ hook.priority

/-- A hook is called before another one: it has a higher priority, or the same and was registered before. -/
def Hook.Precedes (hook other : Hook) : Prop :=
  other.priority < hook.priority ∨ other.priority = hook.priority ∧ hook.serial < other.serial

namespace Hook

variable {hook other : Hook}

theorem mayPrecede_iff : hook.mayPrecede other = true ↔ other.priority ≤ hook.priority :=
  decide_eq_true_iff

theorem mayPrecede_trans (hook other third : Hook) (first : hook.mayPrecede other = true)
    (second : other.mayPrecede third = true) : hook.mayPrecede third = true :=
  mayPrecede_iff.mpr (Int.le_trans (mayPrecede_iff.mp second) (mayPrecede_iff.mp first))

theorem mayPrecede_total (hook other : Hook) :
    (hook.mayPrecede other || other.mayPrecede hook) = true := by
  rw [Bool.or_eq_true, mayPrecede_iff, mayPrecede_iff]
  exact Int.le_total other.priority hook.priority

theorem Precedes.mayPrecede (precedes : hook.Precedes other) : hook.mayPrecede other = true := by
  rw [mayPrecede_iff]
  rcases precedes with higher | ⟨same, -⟩
  · exact Int.le_of_lt higher
  · exact Int.le_of_eq same

end Hook

namespace Hooks

/-- A hook for an event behind the others. -/
def append (hooks : Hooks) (event : Event) (hook : Hook) : Hooks where
  count := hooks.count + 1
  of := fun other => if other = event then hooks.of other ++ [hook] else hooks.of other

/-- The hooks of an event sorted, highest priority first.  Those of one priority keep their order. -/
def sort (hooks : Hooks) (event : Event) : Hooks :=
  { hooks with
    of := fun other =>
      if other = event then (hooks.of other).mergeSort Hook.mayPrecede else hooks.of other }

variable {hooks : List Hook} {hook : Hook}

theorem place_higher (higher : ∀ other ∈ hooks, other.priority < hook.priority) :
    place hook hooks = hook :: hooks := by
  cases hooks with
  | nil => rfl
  | cons other others => rw [place, if_pos (higher other List.mem_cons_self)]

/-- A hook that is put behind others in their order gets to its place when all are sorted. -/
theorem mergeSort_place (hook : Hook)
    (sorted : hooks.Pairwise fun first second => first.mayPrecede second = true) :
    (hooks ++ [hook]).mergeSort Hook.mayPrecede = place hook hooks := by
  induction hooks with
  | nil => exact List.mergeSort_singleton hook
  | cons other others ih =>
      obtain ⟨below, sorted⟩ := List.pairwise_cons.mp sorted
      obtain ⟨front, back, whole, rest, higher⟩ :=
        List.mergeSort_cons Hook.mayPrecede_trans Hook.mayPrecede_total other (others ++ [hook])
      rw [ih sorted] at rest
      -- What stands in front of the first hook has a higher priority, which none of the others has.
      have passed : ∀ passing ∈ front, passing ∉ others := by
        intro passing ahead member
        exact absurd (below passing member) (by simpa using higher passing ahead)
      rw [List.cons_append, whole, place]
      split
      case isTrue lower =>
        have first : place hook others = hook :: others := place_higher fun next member =>
          Int.lt_of_le_of_lt (Hook.mayPrecede_iff.mp (below next member)) lower
        rw [first] at rest
        cases front with
        | nil =>
            have ordered := List.pairwise_mergeSort Hook.mayPrecede_trans Hook.mayPrecede_total
              (other :: (others ++ [hook]))
            rw [whole, List.nil_append, ← List.nil_append back, ← rest] at ordered
            have notLower := List.rel_of_pairwise_cons ordered List.mem_cons_self
            exact absurd lower (Int.not_lt.mpr (Hook.mayPrecede_iff.mp notLower))
        | cons passing front =>
            obtain ⟨rfl, behind⟩ := List.cons.inj rest
            cases front with
            | nil => rw [behind]; rfl
            | cons next front =>
                refine absurd ?_ (passed next (List.mem_cons_of_mem _ List.mem_cons_self))
                exact behind ▸ List.mem_cons_self
      case isFalse notLower =>
        cases front with
        | nil => rw [rest, List.nil_append]; rfl
        | cons passing front =>
            have member : passing ∈ place hook others := rest ▸ List.mem_cons_self
            rcases List.mem_cons.mp ((place_perm hook others).mem_iff.mp member) with rfl | old
            · have lower := higher passing List.mem_cons_self
              simp only [Hook.mayPrecede, Bool.not_eq_true', decide_eq_false_iff_not] at lower
              omega
            · exact absurd old (passed passing List.mem_cons_self)

/-- The latest hook gets behind those that may precede it. -/
theorem place_ordered (ordered : hooks.Pairwise Hook.Precedes)
    (latest : ∀ other ∈ hooks, other.serial < hook.serial) :
    (place hook hooks).Pairwise Hook.Precedes := by
  induction hooks with
  | nil => exact List.pairwise_singleton _ hook
  | cons other others ih =>
      obtain ⟨below, othersOrdered⟩ := List.pairwise_cons.mp ordered
      obtain ⟨earlier, othersEarlier⟩ := List.forall_mem_cons.mp latest
      rw [place]
      split
      · rename_i lower
        refine List.pairwise_cons.mpr ⟨List.forall_mem_cons.mpr ⟨.inl lower, ?_⟩, ordered⟩
        intro next member
        have notHigher := Hook.mayPrecede_iff.mp (below next member).mayPrecede
        exact .inl (Int.lt_of_le_of_lt notHigher lower)
      · rename_i notLower
        refine List.pairwise_cons.mpr ⟨fun next member => ?_, ih othersOrdered othersEarlier⟩
        rcases List.mem_cons.mp ((place_perm hook others).mem_iff.mp member) with rfl | old
        · exact (Int.lt_or_eq_of_le (Int.not_lt.mp notLower)).imp_right (⟨·, earlier⟩)
        · exact below next old

theorem sort_append {hooks : Hooks}
    (ordered : ∀ event, (hooks.of event).Pairwise Hook.Precedes) (event : Event)
    (extension : String) (priority : Int) (react : Circumstance → Notice → Reaction) :
    (hooks.append event ⟨extension, priority, hooks.count, react⟩).sort event =
      hooks.add event extension priority react := by
  have sorts : ∀ other,
      ((hooks.append event ⟨extension, priority, hooks.count, react⟩).sort event).of other =
        (hooks.add event extension priority react).of other := by
    intro other
    by_cases here : other = event
    · simp only [append, sort, add, here, if_true]
      exact mergeSort_place _ ((ordered event).imp Hook.Precedes.mayPrecede)
    · simp only [append, sort, add, here, if_false]
  exact congrArg (Hooks.mk (hooks.count + 1)) (funext sorts)

end Hooks

end MonkeyLang
