import MonkeyLang.Proofs.Evaluation.Concord
import MonkeyLang.Proofs.Evaluation.Hosts
import MonkeyLang.Proofs.Scopes
import MonkeyLang.Proofs.Uniform

namespace MonkeyLang

/-! # Heaps

A heap lists the objects of a run in the order in which they are made, builtins first, so that the
identity of an object is its position.  No state of a run holds a heap.  But there is always one that
describes what is bound and what is dealt with, and it only grows.
-/

abbrev Heap := List Value

/-- Builtins have the first identities. -/
def Setting.objects (setting : Setting) : Heap :=
  setting.builtins.mapIdx fun id builtin => .builtin id builtin.name builtin.arity

/-- A value that is made of the objects of a heap.  Failures are made of none. -/
inductive Value.Lives (heap : Heap) : Value → Prop
  | integer {id : ObjectId} {value : Int} (made : heap[id]? = some (.integer id value)) :
      Lives heap (.integer id value)
  | boolean (value : Bool) : Lives heap (.boolean value)
  | null : Lives heap .null
  | string {id : ObjectId} {text : String} (made : heap[id]? = some (.string id text)) :
      Lives heap (.string id text)
  | array {id : ObjectId} {items : List Value} (made : heap[id]? = some (.array id items))
      (elements : ∀ item ∈ items, Lives heap item) : Lives heap (.array id items)
  | hash {id : ObjectId} {entries : List (Key × Value)} (made : heap[id]? = some (.hash id entries))
      (keys : ∀ entry ∈ entries, Lives heap entry.1.toValue)
      (values : ∀ entry ∈ entries, Lives heap entry.2) : Lives heap (.hash id entries)
  | function {id : ObjectId} {parameters : List Identifier} {body : Block Node} {scope : ScopeId}
      (made : heap[id]? = some (.function id parameters body scope)) :
      Lives heap (.function id parameters body scope)
  | builtin {id : ObjectId} {name : String} {arity : Arity}
      (made : heap[id]? = some (.builtin id name arity)) : Lives heap (.builtin id name arity)
  | returned {value : Value} (inner : Lives heap value) : Lives heap (.returned value)
  | failed (failure : Failure) : Lives heap (.failed failure)

/-- A heap fits a state: it has as many objects as were made, and what is bound is made of them. -/
structure Machine.DescribedBy (setting : Setting) (heap : Heap) (machine : Machine) : Prop where
  size : machine.nextObject = heap.length
  builtins : setting.objects <+: heap
  bound : machine.scopes.Bind fun value => value.isSignal = false ∧ value.Lives heap

namespace Value.Lives

variable {heap grown : Heap} {value left right : Value} {id : ObjectId}

theorem kept (later : heap <+: grown) (made : heap[id]? = some value) : grown[id]? = some value := by
  obtain ⟨added, rfl⟩ := later
  have within := (List.getElem?_eq_some_iff.mp made).1
  exact (List.getElem?_append_left within).trans made

theorem later (grows : heap <+: grown) (lives : value.Lives heap) : value.Lives grown := by
  induction lives with
  | integer made => exact .integer (kept grows made)
  | boolean value => exact .boolean value
  | null => exact .null
  | string made => exact .string (kept grows made)
  | array made _ elements => exact .array (kept grows made) elements
  | hash made _ _ keys values => exact .hash (kept grows made) keys values
  | function made => exact .function (kept grows made)
  | builtin made => exact .builtin (kept grows made)
  | returned _ inner => exact .returned inner
  | failed failure => exact .failed failure

theorem made (lives : value.Lives heap) (object : value.identity? = some (.object id)) :
    heap[id]? = some value := by
  cases lives <;> cases object <;> assumption

theorem elements {items : List Value} (lives : (Value.array id items).Lives heap) :
    ∀ item ∈ items, item.Lives heap := by
  cases lives with
  | array _ elements => exact elements

theorem inner (lives : (Value.returned value).Lives heap) : value.Lives heap := by
  cases lives with
  | returned inner => exact inner

/-- An identity belongs to one value. -/
theorem single (lefts : left.Lives heap) (rights : right.Lives heap)
    (same : left.same right = true) : left = right := by
  unfold Value.same at same
  split at same
  · rename_i identity otherIdentity found otherFound
    have equal := eq_of_beq same
    subst equal
    cases identity with
    | object id => exact Option.some.inj ((lefts.made found).symm.trans (rights.made otherFound))
    | _ =>
        cases left <;> cases found
        cases right <;> cases otherFound
        rfl
  · cases same

/-- What was made after all objects of a heap is none of them. -/
theorem apart (lives : value.Lives heap) {other : Value}
    (object : other.identity? = some (.object id)) (behind : heap.length ≤ id) :
    other.same value = false := by
  unfold Value.same
  rw [object]
  split
  · rename_i identity otherIdentity found otherFound
    cases found
    cases otherIdentity with
    | object earlier =>
        have within := (List.getElem?_eq_some_iff.mp (lives.made otherFound)).1
        refine beq_eq_false_iff_ne.mpr fun same => ?_
        cases same
        exact Nat.not_lt.mpr behind within
    | _ => rfl
  · rfl

end Value.Lives

namespace Machine.DescribedBy

variable {setting : Setting} {heap : Heap} {machine : Machine}

theorem initial (setting : Setting) : (Machine.initial setting).DescribedBy setting setting.objects where
  size := List.length_mapIdx.symm
  builtins := List.prefix_refl _
  bound := by simp [Scopes.Bind, Machine.initial, Scopes.empty]

theorem found (described : machine.DescribedBy setting heap) {scope : ScopeId} {name : String}
    {value : Value} (found : machine.scopes.find? scope name = some value) :
    value.isSignal = false ∧ value.Lives heap :=
  described.bound.found found

theorem builtin (described : machine.DescribedBy setting heap) {name : String} {value : Value}
    (offered : setting.builtinValue? name = some value) :
    value.isSignal = false ∧ value.Lives heap := by
  unfold Setting.builtinValue? at offered
  split at offered
  · rename_i id _
    obtain ⟨builtin, present, rfl⟩ := Option.map_eq_some_iff.mp offered
    have first : setting.objects[id]? = some (.builtin id builtin.name builtin.arity) := by
      rw [Setting.objects, List.getElem?_mapIdx, present]
      rfl
    exact ⟨rfl, .builtin (Value.Lives.kept described.builtins first)⟩
  · cases offered

theorem made (described : machine.DescribedBy setting heap) (value : Value) :
    Machine.DescribedBy setting (heap ++ [value])
      { machine with nextObject := machine.nextObject + 1 } where
  size := by
    simp only [described.size, List.length_append, List.length_singleton]
  builtins := described.builtins.trans (List.prefix_append _ _)
  bound scope member binding inside :=
    have ⟨usable, lives⟩ := described.bound scope member binding inside
    ⟨usable, lives.later (List.prefix_append _ _)⟩

theorem bind (described : machine.DescribedBy setting heap) (scope : ScopeId) (name : String)
    {value : Value} (usable : value.isSignal = false) (lives : value.Lives heap) :
    Machine.DescribedBy setting heap
      { machine with scopes := machine.scopes.bind scope name value } where
  size := described.size
  builtins := described.builtins
  bound := described.bound.bind scope name ⟨usable, lives⟩

theorem add (described : machine.DescribedBy setting heap) (parent : Option ScopeId) :
    Machine.DescribedBy setting heap { machine with scopes := machine.scopes.add parent } where
  size := described.size
  builtins := described.builtins
  bound := described.bound.add parent

end Machine.DescribedBy

/-- The heap of a state has all the objects of a heap. -/
def Machine.Beyond (setting : Setting) (heap : Heap) (machine : Machine) : Prop :=
  ∃ grown, heap <+: grown ∧ machine.DescribedBy setting grown

/-- Started where a heap describes the state, an evaluation makes new objects, and forgets none. -/
def Eval.Grows {α : Type} (setting : Setting) (heap : Heap) (given : Heap → α → Prop)
    (action : Eval α) : Prop :=
  ∀ before, before.DescribedBy setting heap →
    (action before).Meets (·.Beyond setting heap)
      (fun result after => ∃ grown, heap <+: grown ∧ after.DescribedBy setting grown ∧
        given grown result)
      fun _ => (·.Beyond setting heap)

namespace Eval.Grows

variable {setting : Setting} {heap grown : Heap} {α β : Type} {given : Heap → α → Prop}
  {before : Machine} {action : Eval α}

theorem here (described : before.DescribedBy setting heap) : before.Beyond setting heap :=
  ⟨heap, List.prefix_refl _, described⟩

theorem further (later : heap <+: grown) {machine : Machine} (beyond : machine.Beyond setting grown) :
    machine.Beyond setting heap := by
  obtain ⟨most, further, described⟩ := beyond
  exact ⟨most, later.trans further, described⟩

/-- An evaluation that started when there were fewer objects. -/
theorem since (later : heap <+: grown)
    (meets : (action before).Meets (·.Beyond setting grown)
      (fun result after => ∃ most, grown <+: most ∧ after.DescribedBy setting most ∧ given most result)
      fun _ => (·.Beyond setting grown)) :
    (action before).Meets (·.Beyond setting heap)
      (fun result after => ∃ most, heap <+: most ∧ after.DescribedBy setting most ∧ given most result)
      fun _ => (·.Beyond setting heap) := by
  refine meets.weaken (fun _ => further later) (fun result after ended => ?_) fun _ _ => further later
  obtain ⟨most, grows, described, holds⟩ := ended
  exact ⟨most, later.trans grows, described, holds⟩

theorem pure {result : α} (holds : given heap result) : (Pure.pure result : Eval α).Grows setting heap given :=
  fun _ described => .pure (here described) ⟨heap, List.prefix_refl _, described, holds⟩

theorem raise (cause : Cause) (fault : Fault) : (Eval.raiseFor cause fault).Grows setting heap given :=
  fun _ described => .raise (here described) (here described)

theorem reraise (fault : Fault) : (Eval.reraise fault).Grows setting heap given :=
  fun _ described => .reraise (here described) (here described)

theorem weaken {weaker : Heap → α → Prop} (grows : action.Grows setting heap given)
    (holds : ∀ grown result, heap <+: grown → given grown result → weaker grown result) :
    action.Grows setting heap weaker := by
  refine fun before described => (grows before described).leads (fun result after ended => ?_) fun _ _ => id
  obtain ⟨most, further, described, known⟩ := ended
  exact ⟨most, further, described, holds most result further known⟩

theorem bind {last : Heap → β → Prop} {next : α → Eval β} (grows : action.Grows setting heap given)
    (onward : ∀ grown result, heap <+: grown → given grown result →
      (next result).Grows setting grown last) :
    (action >>= next).Grows setting heap last := by
  refine fun before described => (grows before described).bind fun result between ended => ?_
  obtain ⟨grown, later, between, holds⟩ := ended
  exact since later (onward grown result later holds _ between)

theorem recover {resume : Fault → Eval α} (grows : action.Grows setting heap given)
    (resumes : ∀ fault grown, heap <+: grown → (resume fault).Grows setting grown given) :
    (Eval.recover action resume).Grows setting heap given := by
  refine fun before described => (grows before described).recover fun fault between ended => ?_
  obtain ⟨grown, later, between⟩ := ended
  exact since later (resumes fault grown later _ between)

theorem get : (MonadState.get : Eval Machine).Grows setting heap fun grown machine =>
    machine.DescribedBy setting grown :=
  fun _ described => .get (here described) ⟨heap, List.prefix_refl _, described, described⟩

/-- A change that leaves the heap as it is. -/
theorem change {step : Machine → α × Machine}
    (keeps : ∀ machine : Machine, machine.DescribedBy setting heap →
      (step machine).2.DescribedBy setting heap ∧ given heap (step machine).1) :
    (Eval.change step).Grows setting heap given := by
  intro before described
  obtain ⟨after, holds⟩ := keeps before described
  exact .change (here described) (here after) ⟨heap, List.prefix_refl _, after, holds⟩

/-- A change that concerns neither scopes nor objects. -/
theorem adjusts {step : Machine → Machine} (scopes : ∀ machine, (step machine).scopes = machine.scopes)
    (objects : ∀ machine, (step machine).nextObject = machine.nextObject) :
    (modify step : Eval PUnit).Grows setting heap fun grown _ => grown = heap := by
  refine change fun machine described => ⟨⟨?_, described.builtins, ?_⟩, rfl⟩
  · exact (objects machine).trans described.size
  · change (step machine).scopes.Bind _
    rw [scopes]
    exact described.bound

theorem create {given : Heap → Value → Prop} {make : ObjectId → Value}
    (holds : given (heap ++ [make heap.length]) (make heap.length)) :
    (Eval.create make).Grows setting heap given := by
  intro before described
  have after := described.made (make heap.length)
  have further : heap <+: heap ++ [make heap.length] := List.prefix_append _ _
  rw [← described.size] at holds after further
  change (Eval.change (fun machine => (make machine.nextObject,
    { machine with nextObject := machine.nextObject + 1 })) before).Meets _ _ _
  exact .change (here described) ⟨_, further, after⟩ ⟨_, further, after, holds⟩

theorem print (line : String) (byProgram : Bool) :
    (Eval.print line byProgram).Grows setting heap fun grown _ => grown = heap :=
  adjusts (fun _ => rfl) fun _ => rfl

theorem announce (hooks : Hooks) (notice : Notice) :
    (Eval.announce hooks notice).Grows setting heap fun grown _ => grown = heap := by
  have notes : ∀ {before after : Machine}, before.Notes after → before.DescribedBy setting heap →
      after.DescribedBy setting heap := fun noted described => by
    cases noted <;> exact ⟨described.size, described.builtins, described.bound⟩
  refine fun before described => (Eval.announce_keeps notes hooks notice described).weaken ?_ ?_ ?_
  · exact fun _ => here
  · exact fun _ after ended => ⟨heap, List.prefix_refl _, ended, rfl⟩
  · exact fun _ _ => here

theorem logStep (form : String) (location : Option Location) (callee : Option String) :
    (Eval.logStep setting.verbose form location callee).Grows setting heap fun grown _ => grown = heap :=
  adjusts (fun _ => rfl) fun _ => rfl

theorem locate (node : Node) :
    (Eval.locate setting node).Grows setting heap fun grown _ => grown = heap := by
  refine fun before described => (Eval.locate_meets setting node before).weaken ?_ ?_ ?_
  · rintro _ rfl
    exact here described
  · rintro _ _ rfl
    exact ⟨heap, List.prefix_refl _, described, rfl⟩
  · rintro _ _ ⟨_, rfl⟩
    exact here described

theorem lookUp (scope : ScopeId) (name : String) :
    (Eval.lookUp setting scope name).Grows setting heap fun grown value => value.Lives grown := by
  refine bind get fun grown machine _ described => ?_
  split
  · rename_i found
    exact pure (described.found found).2
  · split
    · rename_i offered
      exact pure (described.builtin offered).2
    · exact bind get fun _ _ _ _ => pure (.failed _)

theorem define (scope : ScopeId) (name : String) {value : Value} (lives : value.Lives heap) :
    (Eval.bind scope name value).Grows setting heap fun grown bound => bound.Lives grown := by
  unfold Eval.bind
  cases signal : value.isSignal with
  | true => exact raise _ _
  | false =>
      have bound : (modify fun machine =>
          { machine with scopes := machine.scopes.bind scope name value } : Eval PUnit).Grows setting
          heap fun grown _ => grown = heap :=
        change fun _ described => ⟨described.bind scope name signal lives, rfl⟩
      refine bind bound fun _ _ _ same => ?_
      subst same
      exact pure lives

variable {holds : Heap → Option Value → Prop} {body : Eval (Option Value)}

theorem bracket {log : Eval Unit} {opening : Notice} {closing : Option Value → Notice}
    (logs : log.Grows setting heap fun grown _ => grown = heap)
    (grows : body.Grows setting heap holds) :
    (Eval.bracket setting opening log body closing).Grows setting heap holds := by
  refine bind (announce _ _) fun _ _ _ same => ?_
  subst same
  refine bind logs fun _ _ _ same => ?_
  subst same
  refine bind grows fun grown result _ known => bind (announce _ _) fun _ _ _ same => ?_
  subst same
  exact pure known

theorem inStatement (statement : Node) (scope : ScopeId) (grows : body.Grows setting heap holds) :
    (Eval.inStatement setting statement scope body).Grows setting heap holds := by
  refine bracket (bind (locate statement) fun _ _ _ same => ?_) grows
  subst same
  exact logStep _ _ _

theorem inCall (name : String) (arguments : List Value) (scope : Option ScopeId)
    (site : Option Location) (grows : body.Grows setting heap holds) :
    (Eval.inCall setting name arguments scope site body).Grows setting heap holds :=
  bracket (logStep _ _ _) grows

theorem close (serial : Nat) (closing : Machine.Closing) :
    (modify fun machine => machine.close serial closing : Eval PUnit).Grows setting heap
      fun grown _ => grown = heap := by
  cases closing <;> exact adjusts (fun _ => rfl) fun _ => rfl

theorem enclosed (closing : Machine.Closing) (name : String) (scope : ScopeId) (site : Option Location)
    (grows : action.Grows setting heap given) :
    (Eval.enclosed closing name scope site action).Grows setting heap given := by
  have opened : (modifyGet fun machine => (machine.nextSerial, machine.pushFrame name scope site) :
      Eval Nat).Grows setting heap fun grown _ => grown = heap :=
    change fun _ described => ⟨⟨described.size, described.builtins, described.bound⟩, rfl⟩
  refine bind opened fun _ serial _ same => ?_
  subst same
  refine bind (recover grows fun fault _ _ => ?_) fun _ result _ known => ?_
  · exact bind (close serial closing) fun _ _ _ _ => reraise fault
  · refine bind (close serial closing) fun _ _ _ same => ?_
    subst same
    exact pure known

theorem inFrame (name : String) (scope : ScopeId) (site : Option Location)
    (grows : action.Grows setting heap given) :
    (Eval.inFrame name scope site action).Grows setting heap given :=
  enclosed .innermost name scope site
    (recover grows fun _ _ _ => bind get fun _ _ _ _ => reraise _)

theorem abandon (failure : Failure) : (Eval.abandon setting failure).Grows setting heap given :=
  bind get fun _ _ _ _ => bind (announce _ _) fun _ _ _ _ => reraise _

theorem settle (grows : action.Grows setting heap given) :
    (Eval.settle setting action).Grows setting heap given := by
  refine recover grows fun fault _ _ => ?_
  split
  · exact reraise _
  · exact abandon _
  · exact bind (adjusts (fun _ => rfl) fun _ => rfl) fun _ _ _ _ => abandon _
  · exact abandon _

theorem parse (text : String) :
    (Eval.parse setting text).Grows setting heap fun grown _ => grown = heap := by
  unfold Eval.parse
  split
  · exact pure rfl
  · exact raise _ _
  · exact raise _ _

/-- A result that is made of the objects of a heap. -/
def Results (heap : Heap) (result : Option Value) : Prop :=
  ∀ value, result = some value → value.Lives heap

theorem textResult {result : Option Value} (lives : Results heap result) :
    Results heap (Eval.textResult result) := by
  unfold Eval.textResult
  split
  · rintro value ⟨⟩
    exact (lives _ rfl).inner
  · exact lives

theorem execute {evaluate : Evaluator} (text : String) (scope : ScopeId)
    (evaluates : ∀ grown tree, heap <+: grown → (evaluate tree scope).Grows setting grown Results) :
    (Eval.execute setting evaluate text scope).Grows setting heap Results := by
  have body : ∀ grown, heap <+: grown → (Eval.body setting evaluate text scope).Grows setting grown Results := by
    refine fun grown later => bind (parse text) fun _ program _ same => ?_
    subst same
    refine bind (announce _ _) fun _ _ _ same => ?_
    subst same
    exact evaluates _ program later
  refine bind (adjusts (fun _ => rfl) fun _ => rfl) fun _ _ later _ => ?_
  refine bind (settle (body _ later)) fun grown result _ lives => ?_
  have ending : (do
      Eval.announce setting.hooks (.programEnd (Eval.textResult result))
      return Eval.textResult result : Eval (Option Value)).Grows setting grown Results := by
    refine bind (announce _ _) fun _ _ _ same => ?_
    subst same
    exact pure (textResult lives)
  dsimp only
  split
  · refine bind (announce _ _) fun _ _ _ same => ?_
    subst same
    exact ending
  · exact ending

end Eval.Grows

theorem Node.OneForm.refl (tree : Node) : Node.OneForm Eq Eq Eq tree tree := by
  have all : ∀ {α : Type} (items : List α), List.Forall₂ Eq items items := fun items =>
    List.forall₂_same.mpr fun _ _ => rfl
  cases tree with
  | conditional _ _ _ alternative =>
      refine .conditional _ _ rfl rfl ?_
      cases alternative with
      | some block => exact .some rfl
      | none => exact .none
  | hash _ pairs => exact .hash _ _ (List.forall₂_same.mpr fun _ _ => .intro rfl rfl)
  | array => exact .array _ _ (all _)
  | function => exact .function _ _ (all _) rfl
  | call => exact .call _ _ rfl (all _)
  | _ => constructor <;> rfl

theorem Value.Lives.form {heap : Heap} {value : Value} (lives : value.Lives heap) :
    Value.OneForm Eq Eq (fun _ => True) (fun left right => left = right ∧ left.Lives heap) value
      value := by
  cases lives with
  | array _ elements =>
      exact .array _ _ (List.forall₂_same.mpr fun item member => ⟨rfl, elements item member⟩)
  | function => exact .function _ _ (List.forall₂_same.mpr fun _ _ => rfl) rfl trivial
  | returned inner => exact .returned ⟨rfl, inner⟩
  | _ => constructor

theorem Key.toValue_injective {left right : Key} (same : left.toValue = right.toValue) :
    left = right := by
  cases left <;> cases right <;> cases same <;> rfl

/-- Every value is like itself, if it is made of the objects of a heap. -/
def Heap.likeness : Likeness where
  World := Heap
  Later heap grown := heap <+: grown
  Trees := Eq
  Names := Eq
  Blocks := Eq
  Places := Eq
  Values heap left right := left = right ∧ left.Lives heap
  named _ := True
  reaches _ := True
  later_refl := List.prefix_refl
  later_trans first second := first.trans second
  trees {left _} same := same ▸ .refl left
  names same := ⟨congrArg _ same, trivial⟩
  blocks {block _} same := same ▸ List.forall₂_same.mpr fun _ _ => rfl
  values := by
    rintro heap value _ ⟨rfl, lives⟩
    exact lives.form
  later grows values := ⟨values.1, values.2.later grows⟩
  null _ := ⟨rfl, .null⟩
  boolean _ value := ⟨rfl, .boolean value⟩
  returned values := ⟨congrArg _ values.1, .returned values.2⟩
  inspect values := congrArg _ values.1
  same lefts rights := by rw [lefts.1, rights.1]

namespace Heap

variable {setting : Setting} {heap : Heap}

theorem rows {left right : List Value} (rows : likeness.Rows heap left right) :
    left = right ∧ ∀ item ∈ left, item.Lives heap := by
  induction rows with
  | nil => exact ⟨rfl, List.forall_mem_nil _⟩
  | cons first _ ih =>
      obtain ⟨rfl, lives⟩ := first
      obtain ⟨rfl, others⟩ := ih
      exact ⟨rfl, List.forall_mem_cons.mpr ⟨lives, others⟩⟩

theorem entries {left right : List (Key × Value)} (entries : likeness.Entries heap left right) :
    left = right ∧ (∀ entry ∈ left, entry.1.toValue.Lives heap) ∧ ∀ entry ∈ left, entry.2.Lives heap := by
  induction entries with
  | nil => exact ⟨rfl, List.forall_mem_nil _, List.forall_mem_nil _⟩
  | @cons entry other _ _ first _ ih =>
      obtain ⟨key, value⟩ := entry
      obtain ⟨otherKey, otherValue⟩ := other
      obtain ⟨⟨sameKey, keyLives⟩, rfl, valueLives⟩ := first
      obtain rfl := Key.toValue_injective sameKey
      obtain ⟨rfl, keys, values⟩ := ih
      exact ⟨rfl, List.forall_mem_cons.mpr ⟨keyLives, keys⟩, List.forall_mem_cons.mpr ⟨valueLives, values⟩⟩

theorem makes {make otherMake : ObjectId → Value} (makes : likeness.Makes heap make otherMake) :
    make = otherMake ∧ (make heap.length).Lives (heap ++ [make heap.length]) := by
  have last : ∀ value : Value, (heap ++ [value])[heap.length]? = some value := fun value =>
    List.getElem?_concat_length
  have further : ∀ {value added : Value}, value.Lives heap → value.Lives (heap ++ [added]) := fun lives =>
    lives.later (List.prefix_append _ _)
  cases makes with
  | integer value => exact ⟨rfl, .integer (last _)⟩
  | string text => exact ⟨rfl, .string (last _)⟩
  | array items =>
      obtain ⟨rfl, elements⟩ := rows items
      exact ⟨rfl, .array (last _) fun item member => further (elements item member)⟩
  | hash entriesAlike =>
      obtain ⟨rfl, keys, values⟩ := entries entriesAlike
      exact ⟨rfl, .hash (last _) (fun entry member => further (keys entry member))
        fun entry member => further (values entry member)⟩
  | function names bodies scope =>
      obtain rfl := List.forall₂_eq_eq_eq ▸ names
      cases bodies
      exact ⟨rfl, .function (last _)⟩

/-- Growth as a concord of an evaluation with itself. -/
def concord (setting : Setting) : Concord setting setting where
  toLikeness := likeness
  Holds {_ _} heap post action _ := action.Grows setting heap fun grown result =>
    ∃ other, post grown result other
  Depths := Eq
  pure holds := .pure ⟨_, holds⟩
  bind grows onward := grows.bind fun grown result later ⟨other, holds⟩ =>
    onward grown result other later holds
  raise {_ _ _ _} _ _ {_ _} _ := .raise _ _
  deep := .raise _ _
  deeper := by
    intro depth otherDepth same
    exact Nat.succ.inj same
  leftDeep := nofun
  rightDeep := nofun
  create := by
    intro heap make otherMake made
    obtain ⟨rfl, lives⟩ := makes made
    exact .create ⟨_, rfl, lives⟩
  fail _ _ _ := .bind .get fun _ _ _ _ => .pure ⟨_, rfl, .failed _⟩
  lookUp heap {scope name} _ _ :=
    (Eval.Grows.lookUp scope name).weaken fun _ value _ holds => ⟨value, rfl, holds⟩
  define {heap scope name value _} _ _ values :=
    (Eval.Grows.define scope name values.2).weaken fun _ bound _ holds => ⟨bound, rfl, holds⟩
  newScope heap {closure} _ := .change fun machine described => ⟨described.add _, _, rfl, trivial⟩
  print heap line := (Eval.Grows.print line true).weaken fun _ _ _ _ => ⟨(), trivial⟩
  locate heap {tree otherTree} _ := (Eval.Grows.locate tree).weaken fun _ location _ _ => ⟨location, rfl⟩
  inStatement {_ statement _} scope {_ _} _ bodies := .inStatement statement scope bodies
  inFunction {heap} name scope {arguments otherArguments site otherSite body otherBody} rows sites bodies := by
    exact .inCall name arguments (some scope) site (.bind (.inFrame name scope site bodies)
      fun _ outcome _ ⟨other, results⟩ => .pure ⟨_, .some (Likeness.callResult results)⟩)
  inBuiltin {_} name {arguments _ site _ _ _} _ _ bodies := .inCall name arguments none site bodies

end Heap

end MonkeyLang
