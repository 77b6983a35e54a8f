import Mathlib.Data.List.Nodup
import MonkeyLang.Proofs.Evaluation.Heap

namespace MonkeyLang

/-! # Objects that evaluations make

Whatever is evaluated, called or run only adds objects to the heap.  Literals of compound values and of
strings, concatenations, `rest` and `push` add one last object, which is what they give.
-/

variable {setting : Setting} {heap grown : Heap}

/-- A call hands over only what is made of the objects there are. -/
def HostCall.Owns (heap : Heap) : HostCall → Prop
  | apply _ callee arguments _ _ =>
      callee.Lives heap ∧ ∀ argument ∈ arguments, argument.Lives heap
  | invoke _ _ _ arguments => ∀ argument ∈ arguments, argument.Lives heap
  | create make => ∀ grown : Heap, heap <+: grown →
      (make grown.length).Lives (grown ++ [make grown.length])
  | bind _ _ value => value.Lives heap
  | _ => True

theorem HostCall.Owns.later (later : heap <+: grown) {call : HostCall} (owns : call.Owns heap) :
    call.Owns grown := by
  cases call with
  | apply => exact ⟨owns.1.later later, fun argument member => (owns.2 argument member).later later⟩
  | invoke => exact fun argument member => Value.Lives.later later (owns argument member)
  | create => exact fun most further => owns most (later.trans further)
  | bind => exact Value.Lives.later later owns
  | _ => exact trivial

section Evaluation

variable (builtins : ∀ builtin ∈ setting.builtins,
  builtin ∈ Builtin.core ∨ builtin ∈ Builtin.strings)

include builtins

theorem Heap.scripts {name : String} {arguments : List Value}
    (lives : ∀ argument ∈ arguments, argument.Lives heap) :
    Heap.likeness.Scripts heap (setting.script name arguments) (setting.script name arguments) := by
  have rows : Heap.likeness.Rows heap arguments arguments :=
    List.forall₂_same.mpr fun argument member => ⟨rfl, lives argument member⟩
  unfold Setting.script
  split
  · rename_i builtin found
    exact Builtin.plain_uniform builtins builtin (List.mem_of_find?_eq_some found) Heap.likeness heap rows
  · exact .none

theorem Heap.evaluators (depth : Nat) :
    (Heap.concord setting).Evaluators (evaluate setting depth) (evaluate setting depth) ∧
      (Heap.concord setting).Appliers (apply setting depth) (apply setting depth) := by
  have depths : (Heap.concord setting).Depths depth depth := rfl
  refine (Heap.concord setting).evaluatesAndApplies (fun _ rows _ => ?_) depths
  obtain ⟨rfl, lives⟩ := Heap.rows rows
  exact Heap.scripts builtins lives

omit builtins in
theorem Heap.results {action : Eval (Option Value)}
    (grows : action.Grows setting heap fun grown result =>
      ∃ other, Heap.likeness.Results grown result other) :
    action.Grows setting heap Eval.Grows.Results := by
  refine grows.weaken fun grown result _ given => ?_
  obtain ⟨other, results⟩ := given
  rintro value rfl
  cases results with
  | some values => exact values.2

theorem script_grows (evaluate : Evaluator) (apply : Applier) {name : String} {arguments : List Value}
    (lives : ∀ argument ∈ arguments, argument.Lives heap) :
    (Eval.script setting evaluate apply (setting.script name arguments)).Grows setting heap
      Eval.Grows.Results := by
  have scripted : (Heap.concord setting).Holds heap (Heap.concord setting).Results
      (Eval.script setting evaluate apply (setting.script name arguments))
      (Eval.script setting evaluate apply (setting.script name arguments)) :=
    (Heap.concord setting).script (Heap.scripts builtins lives) (List.prefix_refl _)
  exact Heap.results scripted

theorem evaluate_grows (depth : Nat) (tree : Node) (scope : ScopeId) :
    (evaluate setting depth tree scope).Grows setting heap Eval.Grows.Results :=
  Heap.results ((Heap.evaluators builtins depth).1 heap trivial rfl)

theorem apply_grows (depth : Nat) {callee : Value} {arguments : List Value} (name : String)
    (site : Option Location) (calleeLives : callee.Lives heap)
    (argumentsLive : ∀ argument ∈ arguments, argument.Lives heap) :
    (apply setting depth callee arguments name site).Grows setting heap Eval.Grows.Results := by
  have rows : Heap.likeness.Rows heap arguments arguments :=
    List.forall₂_same.mpr fun argument member => ⟨rfl, argumentsLive argument member⟩
  have sites : Heap.likeness.Sites site site := by
    cases site with
    | some location => exact .some rfl
    | none => exact .none
  exact Heap.results ((Heap.evaluators builtins depth).2 name ⟨rfl, calleeLives⟩ rows sites)

theorem HostCall.Owns.grows {call : HostCall} (owns : call.Owns heap) :
    (call.perform setting).Grows setting heap Eval.Grows.Results := by
  have executed : ∀ {grown : Heap} depth text scope,
      (Eval.execute setting (MonkeyLang.evaluate setting depth) text scope).Grows setting grown
        Eval.Grows.Results := fun depth text scope =>
    .execute text scope fun _ tree _ => evaluate_grows builtins depth tree scope
  have nothing : ∀ {grown : Heap}, Eval.Grows.Results grown none := fun {_ _} => nofun
  have shown : ∀ {grown : Heap} {value : Value}, value.Lives grown →
      Eval.Grows.Results grown (some value) := by
    rintro grown value lives _ ⟨⟩
    exact lives
  cases call with
  | execute depth text scope => exact executed depth text scope
  | run text =>
      have opened : (Eval.newScope none).Grows setting heap fun _ _ => True :=
        .change fun _ described => ⟨described.add _, trivial⟩
      exact .bind opened fun _ scope _ _ => .enclosed .unwinding topLevel scope none (executed _ text scope)
  | evaluate depth tree scope => exact evaluate_grows builtins depth tree scope
  | apply depth callee arguments name site =>
      exact apply_grows builtins depth name site owns.1 owns.2
  | invoke depth builtin arity arguments =>
      change (Eval.invoke setting _ _ builtin arity arguments).Grows setting heap Eval.Grows.Results
      unfold Eval.invoke
      split
      · exact script_grows builtins _ _ owns
      · exact .bind (.bind .get fun _ _ _ _ => .pure (.failed _)) fun _ _ _ lives => .pure (shown lives)
  | create make =>
      have made : (Eval.create make).Grows setting heap fun grown value => value.Lives grown :=
        .create (owns heap (List.prefix_refl _))
      exact .bind made fun _ _ _ lives => .pure (shown lives)
  | newScope parent =>
      have opened : (Eval.newScope parent).Grows setting heap fun _ _ => True :=
        .change fun _ described => ⟨described.add _, trivial⟩
      exact .bind opened fun _ _ _ _ => .pure nothing
  | bind scope name value =>
      exact .bind (.define scope name owns) fun _ _ _ lives => .pure (shown lives)
  | pushFrame name scope site =>
      exact .bind (.adjusts (fun _ => rfl) fun _ => rfl) fun _ _ _ _ => .pure nothing
  | unwind serial =>
      exact .bind (.close serial .unwinding) fun _ _ _ _ => .pure nothing

def Value.IsString (value : Value) : Prop :=
  ∃ id text, value = .string id text

def Value.IsArray (value : Value) : Prop :=
  ∃ id items, value = .array id items

/-- Literals of compound values, and of strings. -/
def Node.makesObject : Node → Bool
  | .string .. | .array .. | .hash .. | .function .. => true
  | _ => false

/-- Values of some kind are new: they are the last objects in their heap, behind all that there were. -/
def News (wanted : Value → Prop) (heap grown : Heap) (result : Option Value) : Prop :=
  ∀ value, result = some value → wanted value →
    ∃ older, heap <+: older ∧ grown = older ++ [value] ∧ value.identity? = some (.object older.length)

section News

omit builtins

variable {wanted : Value → Prop}

theorem fail_grows (message : String) (origin : Option String) :
    (Eval.fail message origin).Grows setting grown fun _ value => ∃ failure, value = .failed failure :=
  .bind .get fun _ _ _ _ => .pure ⟨_, rfl⟩

theorem News.unwanted {value : Value} (unwanted : ¬ wanted value) : News wanted heap grown (some value) := by
  rintro _ ⟨⟩ isWanted
  exact absurd isWanted unwanted

theorem News.created {make : ObjectId → Value} (later : heap <+: grown)
    (object : ∀ id, (make id).identity? = some (.object id)) :
    (do return some (← Eval.create make)).Grows setting grown (News wanted heap) := by
  have made : (Eval.create make).Grows setting grown fun most value =>
      ∃ older, heap <+: older ∧ most = older ++ [value] ∧ value.identity? = some (.object older.length) :=
    .create ⟨grown, later, rfl, object _⟩
  refine .bind made fun most value _ new => .pure ?_
  rintro _ ⟨⟩ _
  exact new

theorem News.failed (message : String) (origin : Option String)
    (signal : ∀ failure, ¬ wanted (.failed failure)) :
    (do return some (← Eval.fail message origin)).Grows setting grown (News wanted heap) := by
  refine .bind (fail_grows message origin) fun _ _ _ ended => .pure ?_
  obtain ⟨failure, rfl⟩ := ended
  exact News.unwanted (signal failure)

/-- A signal is no new object, and what is done with any other value is. -/
theorem News.unlessSignal {result : Option Value} {go : Option Value → Eval (Option Value)}
    (signals : ∀ value, wanted value → value.isSignal = false)
    (goes : ∀ result, (go result).Grows setting grown (News wanted heap)) :
    (Eval.unlessSignal result go).Grows setting grown (News wanted heap) := by
  unfold Eval.unlessSignal
  split
  · rename_i value
    split
    · rename_i signal
      refine .pure (News.unwanted fun isWanted => ?_)
      exact nomatch (signals value isWanted).symm.trans signal
    · exact goes _
  · exact goes _

section Literals

variable {evaluate : Evaluator}
  (evaluates : ∀ (grown : Heap) tree scope, (evaluate tree scope).Grows setting grown fun _ _ => True)

theorem require_grows (tree : Node) (result : Option Value) :
    (Eval.require setting tree result).Grows setting grown fun _ _ => True := by
  cases result with
  | some value => exact .pure trivial
  | none => exact .bind (.locate tree) fun _ _ _ _ => .raise _ _

include evaluates

theorem expressions_grows (scope : ScopeId) (nodes : List Node) (found : List Value) :
    (Eval.expressions setting evaluate scope nodes found).Grows setting grown fun _ evaluated =>
      ∀ value, evaluated = .error value → value.isSignal = true := by
  induction nodes generalizing grown found with
  | nil => exact .pure fun _ other => nomatch other
  | cons node others ih =>
      refine .bind (evaluates grown node scope) fun _ result _ _ => ?_
      cases result with
      | none => exact .bind (require_grows node none) fun _ _ _ _ => ih _
      | some value =>
          dsimp only
          split
          · rename_i signal
            refine .pure fun _ same => ?_
            cases same
            exact signal
          · exact ih _

theorem entries_news (signals : ∀ value, wanted value → value.isSignal = false) (scope : ScopeId)
    (pairs : List (Node × Node)) (found : List (Key × Value)) (later : heap <+: grown) :
    (Eval.entries setting evaluate scope pairs found).Grows setting grown (News wanted heap) := by
  have failing : ∀ failure, ¬ wanted (.failed failure) := fun failure isWanted =>
    nomatch signals _ isWanted
  induction pairs generalizing grown found with
  | nil => exact News.created later fun _ => rfl
  | cons pair others ih =>
      obtain ⟨keyNode, valueNode⟩ := pair
      refine .bind (evaluates grown keyNode scope) fun atKey result keyLater _ => ?_
      refine News.unlessSignal signals fun result => ?_
      refine .bind (require_grows keyNode result) fun asked keyValue askedLater _ => ?_
      cases keyValue.toKey? with
      | none => exact News.failed _ _ failing
      | some key =>
          refine .bind (evaluates asked valueNode scope) fun atValue _ valueLater _ => ?_
          refine News.unlessSignal signals fun result => ?_
          refine .bind (require_grows valueNode result) fun most _ still _ => ?_
          exact ih _ ((later.trans keyLater).trans ((askedLater.trans valueLater).trans still))

omit evaluates in
theorem sum_news (left right : Value) (later : heap <+: grown) :
    (do return some (← Eval.binary "+" left right)).Grows setting grown
      (News Value.IsString heap) := by
  have objects : (do return some (← Eval.objects "+" left right)).Grows setting grown
      (News Value.IsString heap) := by
    refine News.failed _ _ fun failure isString => ?_
    obtain ⟨id, text, same⟩ := isString
    cases same
  have makes : ∀ make : ObjectId → Value, (∀ id, (make id).identity? = some (.object id)) →
      (do return some (← Eval.create make)).Grows setting grown (News Value.IsString heap) := fun _ =>
    News.created later
  unfold Eval.binary
  split
  · exact makes (.integer · _) fun _ => rfl
  · exact makes (.string · _) fun _ => rfl
  · exact objects

theorem joined_news (apply : Applier) (token : Token) (left right : Node) (scope : ScopeId) :
    (Eval.node setting evaluate apply (.binary token "+" left right) scope).Grows setting heap
      (News Value.IsString heap) := by
  have signals : ∀ value : Value, value.IsString → value.isSignal = false := by
    rintro _ ⟨id, text, rfl⟩
    rfl
  refine .bind (evaluates heap left scope) fun atLeft _ leftLater _ => ?_
  refine News.unlessSignal signals fun leftResult => ?_
  refine .bind (evaluates atLeft right scope) fun atRight _ rightLater _ => ?_
  refine News.unlessSignal signals fun rightResult => ?_
  refine .bind (require_grows _ leftResult) fun asked left askedLater _ => ?_
  refine .bind (require_grows _ rightResult) fun most right still _ => ?_
  exact sum_news left right ((leftLater.trans rightLater).trans (askedLater.trans still))

theorem literal_news (apply : Applier) (tree : Node) (scope : ScopeId)
    (isLiteral : tree.makesObject = true) :
    (Eval.node setting evaluate apply tree scope).Grows setting heap
      (News (·.isSignal = false) heap) := by
  have here := List.prefix_refl heap
  cases tree with
  | string token text => exact News.created here fun _ => rfl
  | function token parameters body => exact News.created here fun _ => rfl
  | hash token pairs => exact entries_news evaluates (fun _ => id) scope pairs [] here
  | array token items =>
      refine .bind (expressions_grows evaluates scope items []) fun grown evaluated later signals => ?_
      cases evaluated with
      | error value =>
          refine .pure (News.unwanted fun usable => ?_)
          exact nomatch usable.symm.trans (signals value rfl)
      | ok values => exact News.created later fun _ => rfl
  | _ => cases isLiteral

end Literals

/-- Names tell plain builtins apart. -/
theorem Builtin.plain_named {builtin other : Builtin} (isPlain : builtin ∈ core ++ strings)
    (otherPlain : other ∈ core ++ strings) (same : builtin.name = other.name) : builtin = other := by
  have distinct : ((core ++ strings).map (·.name)).Nodup := by decide
  exact List.inj_on_of_nodup_map distinct isPlain otherPlain same

include builtins in
/-- A plain builtin is run under its name, or nothing is. -/
theorem Setting.script_plain {builtin : Builtin} (isPlain : builtin ∈ Builtin.core ++ Builtin.strings)
    (arguments : List Value) :
    setting.script builtin.name arguments = builtin.run arguments ∨
      setting.script builtin.name arguments = .give none := by
  unfold Setting.script
  split
  · rename_i other found
    have member := List.mem_append.mpr (builtins other (List.mem_of_find?_eq_some found))
    have named := List.find?_some found
    exact .inl (congrArg (·.run arguments) (Builtin.plain_named member isPlain (eq_of_beq named)))
  · exact .inr rfl

theorem rest_news (evaluate : Evaluator) (apply : Applier) (arguments : List Value) :
    (Eval.script setting evaluate apply (Builtin.rest.run arguments)).Grows setting heap
      (News Value.IsArray heap) := by
  have failing : ∀ failure, ¬ (Value.failed failure).IsArray := by
    rintro failure ⟨id, items, same⟩
    cases same
  cases arguments with
  | nil => exact .pure fun _ absent => nomatch absent
  | cons first behind =>
      cases first with
      | array _ items =>
          cases items with
          | nil =>
              refine .pure (News.unwanted ?_)
              rintro ⟨id, items, same⟩
              cases same
          | cons _ items => exact News.created (List.prefix_refl _) fun _ => rfl
      | _ => exact News.failed _ _ failing

theorem push_news (evaluate : Evaluator) (apply : Applier) (arguments : List Value) :
    (Eval.script setting evaluate apply (Builtin.push.run arguments)).Grows setting heap
      (News Value.IsArray heap) := by
  have failing : ∀ failure, ¬ (Value.failed failure).IsArray := by
    rintro failure ⟨id, items, same⟩
    cases same
  cases arguments with
  | nil => exact .pure fun _ absent => nomatch absent
  | cons first behind =>
      cases first with
      | array _ items =>
          cases behind with
          | nil => exact News.failed _ _ failing
          | cons item _ => exact News.created (List.prefix_refl _) fun _ => rfl
      | _ => cases behind <;> exact News.failed _ _ failing

/-- A script that gives a value gives this one. -/
def Gives (expected : Value) (_ : Heap) (result : Option Value) : Prop :=
  ∀ value, result = some value → value.isSignal = false → value = expected

theorem Gives.given (value : Value) : Gives value grown (some value) := by
  rintro _ ⟨⟩ _
  rfl

theorem Gives.failed (value : Value) {failure : Failure} : Gives value grown (some (.failed failure)) := by
  rintro _ ⟨⟩ usable
  cases usable

theorem Gives.none (value : Value) : Gives value grown none :=
  fun _ absent => nomatch absent

end News

/-- What a builtin gives, its events and its step apart: what its script gives, or a failure, or
nothing. -/
theorem apply_plain {depth : Nat} {id : ObjectId} {builtin : Builtin} {arity : Arity}
    {arguments : List Value} (call : String) (site : Option Location)
    {given : Heap → Option Value → Prop} (isPlain : builtin ∈ Builtin.core ++ Builtin.strings)
    (scripted : ∀ evaluate apply,
      (Eval.script setting evaluate apply (builtin.run arguments)).Grows setting heap given)
    (nothing : ∀ grown, given grown none)
    (failing : ∀ grown failure, given grown (some (.failed failure))) :
    (apply setting depth (.builtin id builtin.name arity) arguments call site).Grows setting heap
      given := by
  cases depth with
  | zero => exact .raise _ _
  | succ depth =>
      refine .inCall builtin.name arguments none site ?_
      unfold Eval.invoke
      split
      · rcases Setting.script_plain builtins isPlain arguments with ran | missing
        · rw [ran]
          exact scripted _ _
        · rw [missing]
          exact .pure (nothing _)
      · refine .bind (fail_grows _ _) fun grown _ _ ended => .pure ?_
        obtain ⟨failure, rfl⟩ := ended
        exact failing grown failure

end Evaluation

end MonkeyLang
