import MonkeyLang.Report
import MonkeyLang.Proofs.Json.ReadingBack

namespace MonkeyLang

/-! # Tracebacks

The document of a traceback tells all that its text shows: the text can be written again from what a
reader makes of the document, without the failure and its calls.
-/

namespace Text.Json

def field? (name : String) : Json → Option Json
  | .object fields => fields.lookup name
  | _ => none

def text? : Json → Option String
  | .text value => some value
  | _ => none

def index? : Json → Option Nat
  | .integer (.ofNat value) => some value
  | _ => none

def items? : Json → Option (List Json)
  | .array items => some items
  | _ => none

section Optional

variable {α : Type} (read : Json → Option α)

/-- A value that may be null. -/
def nullable? : Json → Option (Option α)
  | .null => some none
  | value => (read value).map some

/-- A field that may be absent. -/
def optional? (name : String) (document : Json) : Option (Option α) :=
  match document.field? name with
  | none => some none
  | some value => (read value).map some

variable {read}

theorem optional?_written (write : α → Json) (reads : ∀ value, read (write value) = some value)
    {name : String} {document : Json} {given : Option α}
    (holds : document.field? name = given.map write) : document.optional? read name = some given := by
  rw [optional?, holds]
  cases given with
  | none => rfl
  | some value => exact congrArg (Option.map some) (reads value)

end Optional

/-- No object within a document has a key twice. -/
inductive UniqueKeys : Json → Prop
  | null : UniqueKeys .null
  | integer (value : Int) : UniqueKeys (.integer value)
  | text (value : String) : UniqueKeys (.text value)
  | array {items : List Json} (each : ∀ item ∈ items, UniqueKeys item) : UniqueKeys (.array items)
  | object {fields : List (String × Json)} (distinct : (fields.map (·.1)).Nodup)
      (each : ∀ field ∈ fields, UniqueKeys field.2) : UniqueKeys (.object fields)

end Text.Json

def FailureClass.ofName? (name : String) : Option FailureClass :=
  [language, host].find? (·.name == name)

namespace Traceback

open Text (Json)

/-- What a document tells of a failure. -/
structure Told where
  kind : FailureClass
  message : String
  origin : Option String
  step : Option Nat
  calls : List OpenCall

def readPlace (document : Json) : Option Location := do
  let file ← (← document.field? "file").text?
  let line ← (← document.field? "line").index?
  let column ← (← document.field? "column").index?
  let statement ← (← document.field? "statement").text?
  return ⟨file, line, column, statement⟩

def readBindings : Json → Option (List (String × String))
  | .object fields => fields.mapM fun (name, value) => value.text?.map (name, ·)
  | _ => none

/-- The step of a call that is shown at a place, if there is a step. -/
def readStep (place : Option Location) (document : Json) : Option (Option Step) :=
  match document.field? "step_index" with
  | none => some none
  | some index => do
      let index ← index.index?
      let form ← (← document.field? "node_kind").text?
      let callee ← document.optional? Json.text? "callee"
      let bindings ← document.optional? readBindings "env_snapshot"
      return some ⟨index, form, place, callee, bindings⟩

def readCall (document : Json) : Option OpenCall := do
  let name ← (← document.field? "name").text?
  let place ← document.optional? readPlace "source_location"
  let step ← readStep place document
  return ⟨name, place, step⟩

/-- Calls that are numbered from an index on. -/
def readCalls : Nat → List Json → Option (List OpenCall)
  | _, [] => some []
  | index, document :: documents => do
      let number ← (← document.field? "frame_index").index?
      if number ≠ index then none
      let call ← readCall document
      let calls ← readCalls (index + 1) documents
      return call :: calls

def readTold (document : Json) : Option Told := do
  let error ← document.field? "error"
  let kind ← FailureClass.ofName? (← (← error.field? "type").text?)
  let message ← (← error.field? "message").text?
  let origin ← (← error.field? "origin").nullable? Json.text?
  let step ← (← error.field? "step_index").nullable? Json.index?
  let calls ← readCalls 0 (← (← document.field? "traceback").items?)
  return ⟨kind, message, origin, step, calls⟩

/-- The line of a place, with that of its statement unless this is empty. -/
def retellPlace (name : String) : Option Json → Option String
  | none => some ("  <unknown location> in " ++ name ++ "\n")
  | some place => do
      let file ← (← place.field? "file").text?
      let line ← (← place.field? "line").index?
      let column ← (← place.field? "column").index?
      let statement ← (← place.field? "statement").text?
      return "  File \"" ++ file ++ "\", line " ++ toString line ++ ", column " ++ toString column ++
        ", in " ++ name ++ "\n" ++ if statement = "" then "" else "    " ++ statement ++ "\n"

def retellBindings : List (String × Json) → Option String
  | [] => some ""
  | [(name, value)] => do return name ++ "=" ++ (← value.text?)
  | (name, value) :: others => do
      return name ++ "=" ++ (← value.text?) ++ ", " ++ (← retellBindings others)

/-- The line of a step that has bindings, if these are asked for. -/
def retellStep (verbose : Bool) (call : Json) : Option String :=
  match verbose, call.field? "env_snapshot" with
  | true, some (.object bindings) => do
      let index ← (← call.field? "step_index").index?
      return "    [step " ++ toString index ++ "] " ++ (← retellBindings bindings) ++ "\n"
  | _, _ => some ""

/-- The lines of a call, each with its newline. -/
def retellCall (verbose : Bool) (call : Json) : Option String := do
  let name ← (← call.field? "name").text?
  let place ← retellPlace name (call.field? "source_location")
  return place ++ (← retellStep verbose call)

/-- The text of a traceback, written from its document alone. -/
def retell (verbose : Bool) (document : Json) : Option String := do
  let calls ← (← (← document.field? "traceback").items?).mapM (retellCall verbose)
  let error ← document.field? "error"
  let kind ← (← error.field? "type").text?
  let message ← (← error.field? "message").text?
  return "Traceback (most recent call last):\n" ++ String.join calls ++ kind ++ ": " ++ message

def placeDocument (place : Location) : Json :=
  .object [("file", .text place.file), ("line", .integer place.line),
    ("column", .integer place.column), ("statement", .text place.statement)]

def bindingsDocument (bindings : List (String × String)) : Json :=
  .object (bindings.map fun (name, value) => (name, .text value))

/-- A call as a traceback shows it: its step has no place of its own. -/
def shown (call : OpenCall) : OpenCall :=
  { call with step := call.step.map fun step => { step with location := call.location } }

theorem readPlace_document (place : Location) : readPlace (placeDocument place) = some place := rfl

theorem readBindings_document (bindings : List (String × String)) :
    readBindings (bindingsDocument bindings) = some bindings := by
  rw [bindingsDocument, readBindings, List.mapM_map]
  induction bindings with
  | nil => rfl
  | cons binding bindings ih =>
      rw [List.mapM_cons, ih]
      rfl

theorem stepFields_place (step : Option Step) : (stepFields step).lookup "source_location" = none := by
  cases step with
  | none => rfl
  | some step =>
      obtain ⟨_, _, _, callee, bindings⟩ := step
      cases callee <;> cases bindings <;> rfl

theorem stepFields_callee (step : Step) :
    (stepFields (some step)).lookup "callee" = step.callee.map .text := by
  obtain ⟨_, _, _, callee, bindings⟩ := step
  cases callee <;> cases bindings <;> rfl

theorem stepFields_bindings (step : Step) :
    (stepFields (some step)).lookup "env_snapshot" = step.bindings.map bindingsDocument := by
  obtain ⟨_, _, _, callee, bindings⟩ := step
  cases callee <;> cases bindings <;> rfl

section Calls

variable (index : Nat) (call : OpenCall)

theorem callDocument_place :
    (callDocument index call).field? "source_location" = call.location.map placeDocument := by
  obtain ⟨name, place, step⟩ := call
  cases place with
  | none => exact stepFields_place step
  | some place => rfl

theorem callDocument_step {name : String}
    (later : name ∉ ["frame_index", "name", "source_location"]) :
    (callDocument index call).field? name = (stepFields call.step).lookup name := by
  have unlike : ∀ other ∈ ["frame_index", "name", "source_location"], (name == other) = false :=
    fun other member => beq_eq_false_iff_ne.mpr fun same => later (same ▸ member)
  simp only [List.forall_mem_cons] at unlike
  cases place : call.location <;>
    simp [callDocument, Json.field?, placeFields, place, List.lookup_cons, unlike]

theorem readStep_document :
    readStep call.location (callDocument index call) = some (shown call).step := by
  have field := fun name (later : name ∉ ["frame_index", "name", "source_location"]) =>
    callDocument_step index call later
  have callee := field "callee" (by decide)
  have bindings := field "env_snapshot" (by decide)
  rw [readStep, field "step_index" (by decide), field "node_kind" (by decide)]
  obtain ⟨name, place, step⟩ := call
  cases step with
  | none => rfl
  | some step =>
      rw [Json.optional?_written .text (fun _ => rfl) (callee.trans (stepFields_callee step)),
        Json.optional?_written bindingsDocument readBindings_document
          (bindings.trans (stepFields_bindings step))]
      rfl

theorem readCall_document : readCall (callDocument index call) = some (shown call) := by
  have name : (callDocument index call).field? "name" = some (.text call.name) := rfl
  rw [readCall, name,
    Json.optional?_written placeDocument readPlace_document (callDocument_place index call)]
  change (readStep call.location _).bind _ = _
  rw [readStep_document]
  rfl

end Calls

theorem readCalls_documents (calls : List OpenCall) (start : Nat) :
    readCalls start (calls.mapIdx fun index => callDocument (start + index)) =
      some (calls.map shown) := by
  induction calls generalizing start with
  | nil => rfl
  | cons call calls ih =>
      have index : (callDocument start call).field? "frame_index" = some (.integer start) := rfl
      have number : Json.index? (.integer start) = some start := rfl
      have others : (calls.mapIdx fun index => callDocument (start + (index + 1))) =
          calls.mapIdx fun index => callDocument (start + 1 + index) := by
        simp only [Nat.add_comm, Nat.add_left_comm]
      rw [List.mapIdx_cons, readCalls, Nat.add_zero, index, others]
      simp only [Option.bind_eq_bind, Option.bind_some, number, ne_eq, not_true_eq_false, if_false,
        readCall_document, ih]
      rfl

/-- Lines, each with its newline. -/
def written (lines : List String) : String := String.join (lines.map (· ++ "\n"))

theorem written_singleton (line : String) : written [line] = line ++ "\n" :=
  String.empty_append

theorem written_cons (line : String) (lines : List String) :
    written (line :: lines) = line ++ "\n" ++ written lines :=
  String.join_cons

theorem written_append (lines others : List String) :
    written (lines ++ others) = written lines ++ written others := by
  rw [written, List.map_append, String.join_append]
  rfl

theorem intercalate_written (lines : List String) (last : String) :
    "\n".intercalate (lines ++ [last]) = written lines ++ last := by
  induction lines with
  | nil => exact String.intercalate_singleton.trans String.empty_append.symm
  | cons line lines ih =>
      have others : lines ++ [last] ≠ [] := List.append_ne_nil_of_right_ne_nil _ (List.cons_ne_nil _ _)
      rw [List.cons_append, String.intercalate_cons_of_ne_nil others, ih, written_cons]
      simp only [String.append_assoc]

theorem retellPlace_document (name : String) (place : Option Location) :
    retellPlace name (place.map placeDocument) = some (written (placeLines name place)) := by
  cases place with
  | none => exact congrArg some (written_singleton _).symm
  | some place =>
      have told : retellPlace name (some (placeDocument place)) =
          some ("  File \"" ++ place.file ++ "\", line " ++ toString place.line ++ ", column " ++
            toString place.column ++ ", in " ++ name ++ "\n" ++
            if place.statement = "" then "" else "    " ++ place.statement ++ "\n") := rfl
      rw [Option.map_some, told, placeLines, written_cons]
      by_cases empty : place.statement = ""
      · rw [if_pos empty, if_pos (String.isEmpty_iff.mpr empty)]
        rfl
      · rw [if_neg empty, if_neg fun isEmpty => empty (String.isEmpty_iff.mp isEmpty),
          written_singleton]

theorem retellBindings_document (bindings : List (String × String)) :
    retellBindings (bindings.map fun (name, value) => (name, .text value)) =
      some (bindingList bindings) := by
  induction bindings with
  | nil => rfl
  | cons binding bindings ih =>
      cases bindings with
      | nil => rfl
      | cons next others =>
          change (retellBindings _).bind _ = _
          rw [ih]
          exact congrArg some String.intercalate_cons_cons.symm

section Retelling

variable (verbose : Bool) (index : Nat) (call : OpenCall)

theorem retellStep_document :
    retellStep verbose (callDocument index call) = some (written (stepLines verbose call.step)) := by
  have bindings := callDocument_step index call (by decide : "env_snapshot" ∉ _)
  have number := callDocument_step index call (by decide : "step_index" ∉ _)
  obtain ⟨name, place, step⟩ := call
  cases verbose with
  | false => cases step <;> rfl
  | true =>
      unfold retellStep
      rw [bindings, number]
      cases step with
      | none => rfl
      | some step =>
          obtain ⟨number, form, place, callee, kept⟩ := step
          rw [stepFields_bindings]
          cases kept with
          | none => rfl
          | some kept =>
              change (retellBindings (kept.map _)).bind _ = _
              rw [retellBindings_document]
              exact congrArg some (written_singleton _).symm

theorem retellCall_document :
    retellCall verbose (callDocument index call) = some (written (callLines verbose call)) := by
  have name : (callDocument index call).field? "name" = some (.text call.name) := rfl
  rw [retellCall, name, callLines, written_append, callDocument_place]
  change (retellPlace call.name _).bind _ = _
  rw [retellPlace_document, Option.bind_some, retellStep_document]
  rfl

end Retelling

theorem retellCalls_documents {verbose : Bool} {write : Nat → OpenCall → Json}
    (each : ∀ index call, retellCall verbose (write index call) =
      some (written (callLines verbose call))) (calls : List OpenCall) :
    (calls.mapIdx write).mapM (retellCall verbose) =
      some (calls.map fun call => written (callLines verbose call)) := by
  induction calls generalizing write with
  | nil => rfl
  | cons call calls ih =>
      rw [List.mapIdx_cons, List.mapM_cons, each, ih fun index => each (index + 1)]
      rfl

theorem written_flatMap (calls : List OpenCall) (lines : OpenCall → List String) :
    written (calls.flatMap lines) = String.join (calls.map fun call => written (lines call)) := by
  induction calls with
  | nil => rfl
  | cons call calls ih => rw [List.flatMap_cons, written_append, ih, List.map_cons, String.join_cons]

theorem retell_document (verbose : Bool) (kind : FailureClass) (failure : Failure)
    (calls : List OpenCall) :
    retell verbose (document kind failure calls) =
      some (text verbose kind failure.message calls) := by
  change ((calls.mapIdx callDocument).mapM (retellCall verbose)).bind _ = _
  rw [retellCalls_documents (retellCall_document verbose), text, intercalate_written,
    List.singleton_append, written_cons, written_flatMap, Option.bind_some]
  have heading : "Traceback (most recent call last):\n" =
      "Traceback (most recent call last):" ++ "\n" := by decide
  change some ("Traceback (most recent call last):\n" ++ _ ++ kind.name ++ ": " ++ _) = _
  simp only [heading, String.append_assoc]

/-! ## Whole documents -/

section Whole

variable (kind : FailureClass) (failure : Failure)

theorem readTold_document (calls : List OpenCall) :
    readTold (document kind failure calls) =
      some ⟨kind, failure.message, failure.origin, failure.step, calls.map shown⟩ := by
  have named : FailureClass.ofName? kind.name = some kind := by cases kind <;> decide
  have origin : (optionalText failure.origin).nullable? Json.text? = some failure.origin := by
    cases failure.origin <;> rfl
  have step : (optionalIndex failure.step).nullable? Json.index? = some failure.step := by
    cases failure.step <;> rfl
  have numbered := readCalls_documents calls 0
  simp only [Nat.zero_add] at numbered
  change ((FailureClass.ofName? kind.name).bind fun kind =>
    ((optionalText failure.origin).nullable? Json.text?).bind fun origin =>
    ((optionalIndex failure.step).nullable? Json.index?).bind fun step =>
    (readCalls 0 (calls.mapIdx callDocument)).bind fun calls =>
    some (Told.mk kind failure.message origin step calls)) = _
  rw [named, origin, step, numbered]
  rfl

open Text.Json (UniqueKeys)

theorem placeFields_names (place : Option Location) :
    ((placeFields place).map (·.1)).Sublist ["source_location"] := by
  cases place with
  | none => exact List.nil_sublist _
  | some place => exact List.Sublist.refl _

theorem stepFields_names (step : Option Step) :
    ((stepFields step).map (·.1)).Sublist ["step_index", "node_kind", "callee", "env_snapshot"] := by
  cases step with
  | none => exact List.nil_sublist _
  | some step =>
      obtain ⟨_, _, _, callee, bindings⟩ := step
      cases callee <;> cases bindings <;> simp [stepFields]

theorem place_uniqueKeys (place : Location) : (placeDocument place).UniqueKeys :=
  .object (by simp) (by simp [UniqueKeys.text, UniqueKeys.integer])

theorem bindings_uniqueKeys {bindings : List (String × String)}
    (distinct : (bindings.map (·.1)).Nodup) : (bindingsDocument bindings).UniqueKeys := by
  refine .object ?_ fun field member => ?_
  · rw [List.map_map]
    exact distinct
  · obtain ⟨binding, -, rfl⟩ := List.mem_map.mp member
    exact .text _

theorem call_uniqueKeys (index : Nat) (call : OpenCall)
    (distinct : ∀ step ∈ call.step, ∀ bindings ∈ step.bindings, (bindings.map (·.1)).Nodup) :
    (callDocument index call).UniqueKeys := by
  obtain ⟨name, place, step⟩ := call
  refine .object ?names
    (List.forall_mem_append.mpr ⟨List.forall_mem_append.mpr ⟨?lead, ?place⟩, ?step⟩)
  case names =>
    have names := ((List.Sublist.refl ["frame_index", "name"]).append (placeFields_names place)).append
      (stepFields_names step)
    rw [List.map_append, List.map_append]
    exact names.nodup (by decide)
  case lead => simp [UniqueKeys.text, UniqueKeys.integer]
  case place =>
    cases place with
    | none => exact List.forall_mem_nil _
    | some place => exact List.forall_mem_singleton.mpr (place_uniqueKeys place)
  case step =>
    cases step with
    | none => exact List.forall_mem_nil _
    | some step =>
        obtain ⟨_, _, _, callee, bindings⟩ := step
        refine List.forall_mem_append.mpr ⟨List.forall_mem_append.mpr ⟨?_, ?_⟩, ?_⟩
        · simp [UniqueKeys.text, UniqueKeys.integer]
        · cases callee <;> simp [UniqueKeys.text]
        · cases bindings with
          | none => exact List.forall_mem_nil _
          | some bindings =>
              exact List.forall_mem_singleton.mpr (bindings_uniqueKeys (distinct _ rfl _ rfl))

theorem document_uniqueKeys {calls : List OpenCall}
    (distinct : ∀ call ∈ calls, ∀ step ∈ call.step, ∀ bindings ∈ step.bindings,
      (bindings.map (·.1)).Nodup) : (document kind failure calls).UniqueKeys := by
  have origin : (optionalText failure.origin).UniqueKeys := by cases failure.origin <;> constructor
  have step : (optionalIndex failure.step).UniqueKeys := by cases failure.step <;> constructor
  have error : UniqueKeys (.object [("type", .text kind.name), ("message", .text failure.message),
      ("origin", optionalText failure.origin), ("step_index", optionalIndex failure.step)]) :=
    .object (by simp) (by simp [UniqueKeys.text, origin, step])
  have traceback : UniqueKeys (.array (calls.mapIdx callDocument)) := by
    refine .array fun item member => ?_
    obtain ⟨index, within, rfl⟩ := List.mem_mapIdx.mp member
    exact call_uniqueKeys index _ (distinct _ (List.getElem_mem within))
  exact .object (by simp) (by simp [error, traceback])

end Whole

end Traceback

/-- The calls that are shown for a failure: those that it captured, or else those that are open. -/
def Machine.shownCalls (machine : Machine) (failure : Failure) : List OpenCall :=
  if failure.calls.isEmpty then machine.openCalls else failure.calls

/-- The document of a failure is written in ASCII.  What a reader makes of it tells the kind of the
failure, its message, and the calls in their order with all that is shown of them; and written again
from this alone, verbose or not, the text is that of the failure.  As long as no step has two bindings of
one name, there are no repeated keys on which readers could differ.  These are the text and the document
that a run reports. -/
theorem tracebacks_agree (machine : Machine) (kind : FailureClass) (failure : Failure) :
    let calls := machine.shownCalls failure
    let json := Traceback.json kind failure calls
    Text.Json.Ascii json.toList ∧
    (∃ document told,
      Text.JsonReader.read? json = some document ∧ Traceback.readTold document = some told ∧
      (told.kind = kind ∧ told.message = failure.message ∧ told.origin = failure.origin ∧
        told.step = failure.step ∧ told.calls = calls.map Traceback.shown) ∧
      (∀ verbose, Traceback.retell verbose document =
        some (Traceback.text verbose kind failure.message calls)) ∧
      ((∀ call ∈ calls, ∀ step ∈ call.step, ∀ bindings ∈ step.bindings,
        (bindings.map (·.1)).Nodup) → document.UniqueKeys)) ∧
    ∀ setting outcome, Outcome.failure? outcome = some (kind, failure) →
      let report := Report.make setting machine outcome
      (∀ shown ∈ report.json, shown = json) ∧
        ∀ shown ∈ report.text, shown = Traceback.text setting.verbose kind failure.message calls := by
  intro calls json
  have ascii : Text.Json.Ascii json.toList := by
    change Text.Json.Ascii (String.ofList _).toList
    rw [String.toList_ofList]
    exact Text.Json.ascii_chars 0 _
  have reads := Text.JsonReader.read?_render (Traceback.document kind failure calls)
  have tells := Traceback.readTold_document kind failure calls
  have retold := fun verbose => Traceback.retell_document verbose kind failure calls
  refine ⟨ascii, ⟨_, _, reads, tells, ⟨rfl, rfl, rfl, rfl, rfl⟩, retold,
    Traceback.document_uniqueKeys kind failure⟩, ?_⟩
  intro setting outcome failed report
  constructor
  · intro shown isJson
    simp only [report, Report.make, failed, Option.map_some] at isJson
    split at isJson
    · exact (Option.some.inj isJson).symm
    · cases isJson
  · intro shown isText
    simp only [report, Report.make, failed, Option.map_some] at isText
    split at isText
    · exact (Option.some.inj isText).symm
    · cases isText

end MonkeyLang
