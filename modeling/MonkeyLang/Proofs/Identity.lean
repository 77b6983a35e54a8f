import MonkeyLang.Proofs.Evaluation.Moves
import MonkeyLang.Proofs.Evaluation.Objects
import MonkeyLang.Proofs.Writing

namespace MonkeyLang

/-! # Objects are told apart

Every object that a run makes is a new one, and keeps its identity wherever it goes.  So values of one
identity are equal, in every state of a run and at whatever time it dealt with them.
-/

variable {setting : Setting} {heap grown : Heap}

def Value.IsInteger (value : Value) : Prop :=
  ∃ id number, value = .integer id number

theorem Value.same_self {value : Value} (usable : value.isSignal = false) : value.same value = true := by
  cases value <;> first | exact beq_self_eq_true _ | cases usable

/-- Equality is decided without any failure, and is a matter of identity unless it is one of numbers. -/
theorem binary_equality (left right : Value) (machine : Machine) :
    ∃ equal : Bool,
      (Eval.binary "==" left right machine).ending = .ok (.boolean equal) machine ∧
      (Eval.binary "!=" left right machine).ending = .ok (.boolean !equal) machine ∧
      (¬ (left.IsInteger ∧ right.IsInteger) → equal = left.same right) ∧
      (left = right → left.isSignal = false → equal = true) := by
  have objects : ∃ equal : Bool,
      (Eval.objects "==" left right machine).ending = .ok (.boolean equal) machine ∧
      (Eval.objects "!=" left right machine).ending = .ok (.boolean !equal) machine ∧
      (¬ (left.IsInteger ∧ right.IsInteger) → equal = left.same right) ∧
      (left = right → left.isSignal = false → equal = true) := by
    refine ⟨left.same right, rfl, rfl, fun _ => rfl, ?_⟩
    rintro rfl usable
    exact Value.same_self usable
  cases left with
  | integer id number =>
      cases right with
      | integer other otherNumber =>
          refine ⟨number == otherNumber, rfl, rfl, fun mixed => ?_, ?_⟩
          · exact absurd ⟨⟨id, number, rfl⟩, other, otherNumber, rfl⟩ mixed
          · rintro ⟨⟩ _
            exact beq_self_eq_true number
      | _ => exact objects
  | string =>
      cases right with
      | string => exact objects
      | _ => exact objects
  | _ => exact objects

/-- A value is the last object there is in a state, behind all that there were before, and the same
as none of them. -/
def Value.NewTo (setting : Setting) (heap : Heap) (after : Machine) (value : Value) : Prop :=
  ∃ older, heap <+: older ∧ after.DescribedBy setting (older ++ [value]) ∧
    ∀ old : Value, old.Lives older → value.same old = false

/-- What is new, and what is the same, in a state with the objects of a heap. -/
structure Machine.Identifies (setting : Setting) (heap : Heap) (machine : Machine) : Prop where
  /-- Calls only add objects, and give what is made of those there are then. -/
  grows : ∀ {call : HostCall}, call.Owns heap →
    (call.perform setting machine).Meets (·.Beyond setting heap)
      (fun result after => ∃ grown, heap <+: grown ∧ after.DescribedBy setting grown ∧
        ∀ value, result = some value → value.Lives grown)
      fun _ => (·.Beyond setting heap)
  single : ∀ {left right : Value}, left.Lives heap → right.Lives heap → left.same right = true →
    left = right
  literal : ∀ {depth tree scope value after}, tree.makesObject = true →
    (evaluate setting depth tree scope machine).ending = .ok (some value) after →
    value.isSignal = false → value.NewTo setting heap after
  joined : ∀ {depth token left right scope value after},
    (evaluate setting depth (.binary token "+" left right) scope machine).ending =
      .ok (some value) after →
    value.IsString → value.NewTo setting heap after
  extended : ∀ {depth id builtin arity arguments call site value after},
    builtin = Builtin.rest ∨ builtin = Builtin.push →
    (apply setting depth (.builtin id builtin.name arity) arguments call site machine).ending =
      .ok (some value) after →
    value.IsArray → value.NewTo setting heap after
  /-- Operands are compared without failing, and by their identity unless both are integers. -/
  compared : ∀ {depth token left right scope value other between after},
    (evaluate setting depth left scope machine).ending = .ok (some value) between →
    value.isSignal = false →
    (evaluate setting depth right scope between).ending = .ok (some other) after →
    other.isSignal = false →
    ∃ equal : Bool,
      (evaluate setting (depth + 1) (.binary token "==" left right) scope machine).ending =
        .ok (some (.boolean equal)) after ∧
      (evaluate setting (depth + 1) (.binary token "!=" left right) scope machine).ending =
        .ok (some (.boolean !equal)) after ∧
      (¬ (value.IsInteger ∧ other.IsInteger) →
        equal = value.same other ∧ (equal = true ↔ value = other) ∧
        (equal = true → value.typeName = other.typeName ∧ value.inspect = other.inspect))
  itself : ∀ {depth token scope value after} {left right : Identifier}, left.name = right.name →
    (evaluate setting (depth + 1) (.identifier left) scope machine).ending = .ok (some value) after →
    value.isSignal = false →
    (evaluate setting (depth + 2) (.binary token "==" (.identifier left) (.identifier right)) scope
      machine).ending = .ok (some (.boolean true)) machine

/-- Where values go in a state, they go as they are. -/
structure Machine.Carries (setting : Setting) (machine : Machine) : Prop where
  bound : ∀ {depth token name tree scope value between}, scope < machine.scopes.size →
    (evaluate setting depth tree scope machine).ending = .ok (some value) between →
    value.isSignal = false →
    ∃ after,
      (evaluate setting (depth + 1) (.letStatement token name tree) scope machine).ending =
        .ok none after ∧
      after.scopes.find? scope name.name = some value
  found : ∀ {depth name scope value}, machine.scopes.find? scope name.name = some value →
    (evaluate setting (depth + 1) (.identifier name) scope machine).ending = .ok (some value) machine
  applied : ∀ {depth token callee arguments scope function values between after},
    (evaluate setting depth callee scope machine).ending = .ok (some function) between →
    function.isSignal = false →
    Eval.Gathers (evaluate setting depth) scope between arguments values after →
    (evaluate setting (depth + 1) (.call token callee arguments) scope machine).ending =
      ((do
        let location ← Eval.locate setting (.call token callee arguments)
        apply setting depth function values (Eval.calleeName callee) (some location)) after).ending
  called : ∀ {depth id parameters body closure arguments name site result after},
    (apply setting (depth + 1) (.function id parameters body closure) arguments name site
      machine).ending = .ok result after →
    ∃ start outcome finish,
      (Eval.statements setting (evaluate setting depth) machine.scopes.size body.statements none
        start).ending = .ok outcome finish ∧
      result = some (Eval.callResult outcome) ∧
      ∀ parameter value, (passed parameters arguments).lookup parameter = some value →
        start.scopes.find? machine.scopes.size parameter = some value
  returned : ∀ {depth token tree scope value after},
    (evaluate setting depth tree scope machine).ending = .ok (some value) after →
    value.isSignal = false →
    (evaluate setting (depth + 1) (.returnStatement token tree) scope machine).ending =
      .ok (some (.returned value)) after
  /-- Statements end with the value that is returned in one of them. -/
  stopped : ∀ {depth scope statement others previous value after},
    (Eval.inStatement setting statement scope (evaluate setting depth (Eval.content statement) scope)
      machine).ending = .ok (some value) after →
    value.isSignal = true →
    (Eval.statements setting (evaluate setting depth) scope (statement :: others) previous
      machine).ending = .ok (some value) after
  stored : ∀ {depth token items scope values between},
    Eval.Gathers (evaluate setting depth) scope machine items values between →
    ∃ id after,
      (evaluate setting (depth + 1) (.array token items) scope machine).ending =
        .ok (some (.array id values)) after
  indexed : ∀ {depth token tree other scope id items position value between after} {index : Nat},
    (evaluate setting depth tree scope machine).ending = .ok (some (.array id items)) between →
    (evaluate setting depth other scope between).ending = .ok (some (.integer position index)) after →
    items[index]? = some value →
    (evaluate setting (depth + 1) (.index token tree other) scope machine).ending =
      .ok (some value) after
  first : ∀ {depth id arity array item items call site value after},
    (apply setting depth (.builtin id Builtin.first.name arity) [.array array (item :: items)] call site
      machine).ending = .ok (some value) after →
    value.isSignal = false → value = item
  last : ∀ {depth id arity array item items call site value after},
    (apply setting depth (.builtin id Builtin.last.name arity) [.array array (items ++ [item])] call site
      machine).ending = .ok (some value) after →
    value.isSignal = false → value = item

section States

variable {machine : Machine} (builtins : ∀ builtin ∈ setting.builtins,
  builtin ∈ Builtin.core ∨ builtin ∈ Builtin.strings)

theorem News.newTo {wanted : Value → Prop} {action : Eval (Option Value)} {value : Value}
    {after : Machine} (described : machine.DescribedBy setting heap)
    (news : action.Grows setting heap (News wanted heap))
    (ended : (action machine).ending = .ok (some value) after) (isWanted : wanted value) :
    value.NewTo setting heap after := by
  obtain ⟨grown, _, describedAfter, new⟩ := (news machine described).done _ _ ended
  obtain ⟨older, later, rfl, object⟩ := new value rfl isWanted
  exact ⟨older, later, describedAfter, fun old lives => lives.apart object (Nat.le_refl _)⟩

include builtins

theorem compared_alike (described : machine.DescribedBy setting heap) {depth : Nat} {token : Token}
    {left right : Node} {scope : ScopeId} {value other : Value} {between after : Machine}
    (gives : (evaluate setting depth left scope machine).ending = .ok (some value) between)
    (usable : value.isSignal = false)
    (otherGives : (evaluate setting depth right scope between).ending = .ok (some other) after)
    (otherUsable : other.isSignal = false) :
    ∃ equal : Bool,
      (evaluate setting (depth + 1) (.binary token "==" left right) scope machine).ending =
        .ok (some (.boolean equal)) after ∧
      (evaluate setting (depth + 1) (.binary token "!=" left right) scope machine).ending =
        .ok (some (.boolean !equal)) after ∧
      (¬ (value.IsInteger ∧ other.IsInteger) →
        equal = value.same other ∧ (equal = true ↔ value = other) ∧
        (equal = true → value.typeName = other.typeName ∧ value.inspect = other.inspect)) := by
  obtain ⟨first, _, describedBetween, leftLives⟩ :=
    (evaluate_grows builtins depth left scope machine described).done _ _ gives
  obtain ⟨second, later, _, rightLives⟩ :=
    (evaluate_grows builtins depth right scope between describedBetween).done _ _ otherGives
  obtain ⟨equal, same, different, identical, reflexive⟩ := binary_equality value other after
  have one : ¬ (value.IsInteger ∧ other.IsInteger) → equal = true → value = other := fun mixed holds =>
    ((leftLives value rfl).later later).single (rightLives other rfl) ((identical mixed).symm.trans holds)
  refine ⟨equal, ?_, ?_, fun mixed => ⟨identical mixed, ⟨one mixed, fun equals => reflexive equals usable⟩,
    fun holds => ?_⟩⟩
  · rw [evaluate_binary token "==" gives usable otherGives otherUsable, Eval.bind_ok same]
    rfl
  · rw [evaluate_binary token "!=" gives usable otherGives otherUsable, Eval.bind_ok different]
    rfl
  · rw [one mixed holds]
    exact ⟨rfl, rfl⟩

theorem evaluate_adds (depth : Nat) (grown : Heap) (tree : Node) (scope : ScopeId) :
    (evaluate setting depth tree scope).Grows setting grown fun _ _ => True :=
  (evaluate_grows builtins depth tree scope).weaken fun _ _ _ _ => trivial

theorem identifies (described : machine.DescribedBy setting heap) :
    machine.Identifies setting heap where
  grows owns := owns.grows builtins machine described
  single lefts rights same := lefts.single rights same
  literal {depth _ _ _ _} isLiteral ended usable := by
    cases depth with
    | zero => cases ended
    | succ depth =>
        exact News.newTo described (literal_news (evaluate_adds builtins depth) _ _ _ isLiteral) ended usable
  joined {depth _ _ _ _ _ _} ended isString := by
    cases depth with
    | zero => cases ended
    | succ depth =>
        exact News.newTo described (joined_news (evaluate_adds builtins depth) _ _ _ _ _) ended isString
  extended := by
    intro depth id builtin arity arguments call site value after either ended isArray
    have nothing : ∀ grown, News Value.IsArray heap grown none := fun _ _ absent => nomatch absent
    have failing : ∀ grown failure, News Value.IsArray heap grown (some (.failed failure)) := by
      intro grown failure
      refine News.unwanted ?_
      rintro ⟨id, items, same⟩
      cases same
    rcases either with rfl | rfl
    · exact News.newTo described (apply_plain builtins call site (by simp [Builtin.core])
        (fun evaluate apply => rest_news evaluate apply arguments) nothing failing) ended isArray
    · exact News.newTo described (apply_plain builtins call site (by simp [Builtin.core])
        (fun evaluate apply => push_news evaluate apply arguments) nothing failing) ended isArray
  compared gives usable otherGives otherUsable :=
    compared_alike builtins described gives usable otherGives otherUsable
  itself := by
    intro depth token scope value after left right same gives usable
    obtain ⟨rfl, again⟩ := evaluate_identifier_again same gives
    obtain ⟨equal, compared, _, _, reflexive⟩ := binary_equality value value after
    rw [evaluate_binary token "==" gives usable again usable, Eval.bind_ok compared,
      reflexive rfl usable]
    rfl

theorem first_gives {depth : Nat} {id array : ObjectId} {arity : Arity} {item : Value}
    {items : List Value} (call : String) (site : Option Location) :
    (apply setting depth (.builtin id Builtin.first.name arity) [.array array (item :: items)] call
      site).Grows setting heap (Gives item) :=
  apply_plain builtins call site (by simp [Builtin.core]) (fun _ _ => .pure (.given item))
    (fun _ => .none item) fun _ _ => .failed item

theorem last_gives {depth : Nat} {id array : ObjectId} {arity : Arity} {item : Value}
    {items : List Value} (call : String) (site : Option Location) :
    (apply setting depth (.builtin id Builtin.last.name arity) [.array array (items ++ [item])] call
      site).Grows setting heap (Gives item) := by
  refine apply_plain builtins call site (by simp [Builtin.core]) (fun evaluate apply => ?_)
    (fun _ => .none item) fun _ _ => .failed item
  have taken : Builtin.last.run [.array array (items ++ [item])] = .give (some item) := by
    simp only [Builtin.last, List.getLastD_eq_getLast?, List.getLast?_append, List.getLast?_singleton,
      Option.some_or, Option.getD_some]
  rw [taken]
  exact .pure (.given item)

theorem carries (described : machine.DescribedBy setting heap) : machine.Carries setting where
  bound {depth token name tree scope value between} present gives usable := by
    have size := ((evaluate_writes builtins depth tree scope machine).done _ _ gives).size
    exact ⟨_, evaluate_let token name gives usable,
      Scopes.find?_bind value (Nat.lt_of_lt_of_le present size)⟩
  found := evaluate_identifier
  applied gives usable gathers := evaluate_call _ gives usable gathers
  called := apply_function
  returned gives usable := evaluate_return _ gives usable
  stopped := Eval.statements_signal
  stored gathers := ⟨_, _, evaluate_array _ gathers⟩
  indexed gives otherGives stored := evaluate_index _ gives otherGives stored
  first ended usable := by
    obtain ⟨_, _, _, gives⟩ := (first_gives builtins _ _ machine described).done _ _ ended
    exact gives _ rfl usable
  last ended usable := by
    obtain ⟨_, _, _, gives⟩ := (last_gives builtins _ _ machine described).done _ _ ended
    exact gives _ rfl usable

theorem Machine.Reaches.described
    (reached : Machine.Reaches setting (HostCall.Owns []) (.initial setting) machine) :
    ∃ heap, machine.DescribedBy setting heap := by
  refine @Machine.Reaches.keeps _ _ _ _ (∃ heap, Machine.DescribedBy setting heap ·) reached
    ⟨_, .initial setting⟩ fun call before owns described => ?_
  obtain ⟨heap, described⟩ := described
  have meets := (owns.later List.nil_prefix).grows builtins before described
  have known : ∀ {machine : Machine}, machine.Beyond setting heap → ∃ heap, machine.DescribedBy setting heap := by
    rintro machine ⟨grown, _, described⟩
    exact ⟨grown, described⟩
  have ends : (call.perform setting before).Keeps (·.Beyond setting heap) :=
    meets.leads (fun _ _ ⟨grown, later, described, _⟩ => ⟨grown, later, described⟩) fun _ _ => id
  exact ⟨fun machine passed => known (ends.passing machine passed), known ends.last⟩

/-- To every state that a host reaches without objects of its own, be it in the middle of a run, there
is a heap that lists all objects made so far.  In that state, and in any later one whose heap has
further objects, calls only add objects to the heap; literals, concatenations, `rest` and `push` give
new ones; binding, looking up, passing, returning, storing and taking out hand values on as they are;
and so operands that are not both integers are equal exactly if they are one and the same. -/
theorem objects_told_apart
    (reached : Machine.Reaches setting (HostCall.Owns []) (.initial setting) machine) :
    ∃ heap, machine.DescribedBy setting heap ∧
      ∀ (grown : Heap) (later : Machine), heap <+: grown → later.DescribedBy setting grown →
        later.Identifies setting grown ∧ later.Carries setting := by
  obtain ⟨heap, described⟩ := reached.described builtins
  exact ⟨heap, described, fun grown later _ describedLater =>
    ⟨identifies builtins describedLater, carries builtins describedLater⟩⟩

omit builtins in
/-- An array that went through an array, a function and `first` is still the same; one of the same
content is another. -/
theorem objects_told_apart_returned_array :
    let setting : Setting := ⟨"<string>", false, Builtin.core, .none⟩
    let opened := ((HostCall.newScope none).perform setting (.initial setting)).machine
    let text := "let a = [1]; let f = fn(x) \x7b return first([x]) \x7d; let b = f(a); let c = [1];"
    let machine := ((HostCall.execute 20 text 0).perform setting opened).machine
    let name := fun text => (⟨⟨.identifier, text, 1, 1⟩, text⟩ : Identifier)
    let equals := fun left right => Node.binary ⟨.equal, "==", 1, 1⟩ "==" (.identifier (name left))
      (.identifier (name right))
    (evaluate setting 2 (equals "a" "b") 0 machine).ending = .ok (some (.boolean true)) machine ∧
      (evaluate setting 2 (equals "a" "c") 0 machine).ending = .ok (some (.boolean false)) machine := by
  intro setting opened text machine name equals
  have builtins : ∀ builtin ∈ setting.builtins, builtin ∈ Builtin.core ∨ builtin ∈ Builtin.strings :=
    fun _ => .inl
  have reached : Machine.Reaches setting (HostCall.Owns []) (.initial setting) machine :=
    .ending (.execute 20 text 0) (.ending (.newScope none) .start trivial) trivial
  obtain ⟨heap, described, laws⟩ := objects_told_apart builtins reached
  obtain ⟨identifies, carries⟩ := laws heap machine (List.prefix_refl _) described
  have shown : ((machine.scopes.find? 0 "a").bind fun a => (machine.scopes.find? 0 "b").bind fun b =>
      (machine.scopes.find? 0 "c").map fun c => (a.typeName, a.same b, a.same c)) =
        some ("ARRAY", true, false) := by decide +kernel
  clear_value machine
  have gives : ∀ {text : String} {value : Value}, machine.scopes.find? 0 text = some value →
      (evaluate setting 1 (.identifier (name text)) 0 machine).ending = .ok (some value) machine :=
    fun {_ _} found => carries.found found
  have compares : ∀ {left right : String} {value other : Value},
      machine.scopes.find? 0 left = some value → machine.scopes.find? 0 right = some other →
      value.typeName = "ARRAY" →
      (evaluate setting 2 (equals left right) 0 machine).ending =
        .ok (some (.boolean (value.same other))) machine := by
    intro left right value other found otherFound isArray
    obtain ⟨equal, compared, _, identical⟩ := identifies.compared (gives found)
      (described.found found).1 (gives otherFound) (described.found otherFound).1
    have mixed : ¬ (value.IsInteger ∧ other.IsInteger) := by
      rintro ⟨⟨id, number, rfl⟩, _⟩
      exact absurd isArray (show "INTEGER" ≠ "ARRAY" by decide)
    rw [← (identical mixed).1]
    exact compared
  obtain ⟨a, foundA, shown⟩ := Option.bind_eq_some_iff.mp shown
  obtain ⟨b, foundB, shown⟩ := Option.bind_eq_some_iff.mp shown
  obtain ⟨c, foundC, shown⟩ := Option.map_eq_some_iff.mp shown
  obtain ⟨isArray, same, different⟩ : a.typeName = "ARRAY" ∧ a.same b = true ∧ a.same c = false := by
    simpa using shown
  exact ⟨same ▸ compares foundA foundB isArray, different ▸ compares foundA foundC isArray⟩

end States

end MonkeyLang
