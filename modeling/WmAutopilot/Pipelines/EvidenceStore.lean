import WmAutopilot.Js.Keyed
import WmAutopilot.Js.Throw
import WmAutopilot.Pipelines.EvidenceRedaction
import WmAutopilot.Sql.Distinct

/-!
# The store of pipeline evidence

A captured value is rewritten, hashed, and kept once for each family of runs: a row refers to the
content by its hash.  A value that is too long, or that would exceed the budget of its run, is
recorded without its content.

* `EvidenceRow`, `Payload`, `Db`     the tables; no row is ever changed or deleted;
* `root`                             the run at the top of the composition that a run belongs to;
* `usedBytes`, `intern`, `read`      `PipelineEvidencePayloads`;
* `captureValue`, `ensureArchived`   `PipelineEvidenceStore`, each a transaction;
* `Step`, `Reachable`                the store in use.

The modules that look for credentials write other tables only: what they answer in a call is any
`Surroundings`.
-/

set_option autoImplicit false

namespace WmAutopilot
namespace Pipelines
namespace EvidenceStore
open Js Value Sql EvidenceRedaction

/-! ## the tables -/

inductive EvidenceKind where
  | resolved_input
  | executor_request
  | returned_output
  | state_write
  | side_effect_confirmation
  deriving DecidableEq, Repr

inductive EvidenceAvailability where
  | complete
  | redacted
  | preview_only
  | not_captured
  | expired
  | oversized
  | unavailable
  deriving DecidableEq, Repr

/-- the content of such a row is kept. -/
def EvidenceAvailability.retained : EvidenceAvailability → Bool
  | complete | redacted | preview_only => true
  | _ => false

/-- a row of `pipeline_evidence`. -/
structure EvidenceRow where
  id : String
  runId : String
  stepId : String
  attempt : ℕ
  kind : EvidenceKind
  scope : String
  contentType : String
  bytes : ℕ
  availability : EvidenceAvailability
  redacted : Bool
  capturedAt : String
  contentHash : Option String
  valueJson : Option String
  preview : Value
  sourceHash : Option String
  payloadId : Option String
  deriving DecidableEq

/-- a row of `pipeline_evidence_payloads`. -/
structure Payload where
  id : String
  rootRunId : String
  contentHash : String
  bytes : ℕ
  valueJson : String
  deriving DecidableEq

/-- what is used of a row of `pipeline_runs`. -/
structure Run where
  id : String
  ownerNpub : Option String
  ownerAlias : Option String
  deriving DecidableEq

/-- what is used of a row of `pipeline_steps`. -/
structure PipelineStep where
  id : String
  runId : String
  deriving DecidableEq

/-- what is used of a row of `pipeline_child_runs`. -/
structure ChildRunLink where
  parentRunId : String
  parentStepId : String
  childRunId : String
  deriving DecidableEq

/-- The tables.  A database without `pipeline_child_runs` is read as one where it is empty. -/
structure Db where
  runs : List Run
  steps : List PipelineStep
  childRuns : List ChildRunLink
  evidence : List EvidenceRow
  payloads : List Payload
  deriving DecidableEq

/-- What is used of the platform. -/
structure Host where
  /-- `JSON.stringify(value)` -/
  stringify : Value → String
  /-- `JSON.parse(text)`; `none` is a throw. -/
  parse : String → Option Value
  sha256 : String → String
  env : String → Option String

/-- `evidenceDigest` -/
def Host.evidenceDigest (host : Host) (json : String) : String := host.sha256 json

/-! ## `PipelineEvidencePayloads` -/

namespace Db
variable (host : Host) (db : Db)

/-- `this.run(id)` -/
def run (id : String) : Except String Run :=
  orThrow "Missing pipeline evidence run authority" (db.runs.find? (·.id = id))

/-- a step of a run. -/
def HasStep (stepId runId : String) : Prop :=
  ∃ step ∈ db.steps, step.id = stepId ∧ step.runId = runId

instance (stepId runId : String) : Decidable (db.HasStep stepId runId) := by
  unfold HasStep
  infer_instance

/-- a run that is left behind leaves fewer links to follow. -/
theorem unseen_lt {links : List ChildRunLink} {seen : List String} {id : String}
    {link : ChildRunLink} (hlink : links.find? (·.childRunId = id) = some link)
    (hseen : id ∉ seen) :
    (links.filter (·.childRunId ∉ id :: seen)).length <
      (links.filter (·.childRunId ∉ seen)).length := by
  obtain ⟨hmem, hchild⟩ := mem_of_find hlink
  have hfilter : links.filter (·.childRunId ∉ id :: seen) =
      (links.filter (·.childRunId ∉ seen)).filter (·.childRunId ≠ id) := by
    rw [List.filter_filter]
    refine List.filter_congr fun l _ => ?_
    simp only [List.mem_cons, not_or, Bool.decide_and]
  rw [hfilter, List.length_filter_lt_length_iff_exists]
  refine ⟨link, List.mem_filter.mpr ⟨hmem, ?_⟩, ?_⟩
  · rw [hchild]
    exact decide_eq_true hseen
  · simpa using hchild

/-- the loop of `root`, at `run`, after the runs `seen`. -/
def climb (seen : List String) (run : Run) : Except String String :=
  if run.id ∈ seen then .error "Pipeline evidence composition cycle"
  else match _hlink : db.childRuns.find? (·.childRunId = run.id) with
    | none => .ok run.id
    | some link => match db.run link.parentRunId with
      | .error e => .error e
      | .ok parent =>
        if parent.ownerNpub ≠ run.ownerNpub ∨ parent.ownerAlias ≠ run.ownerAlias ∨
            ¬db.HasStep link.parentStepId parent.id then
          .error "Pipeline evidence composition authority mismatch"
        else climb (run.id :: seen) parent
termination_by (db.childRuns.filter (·.childRunId ∉ seen)).length
decreasing_by
  all_goals exact unseen_lt _hlink ‹_›

/-- `root` -/
def root (runId : String) (stepId : Option String) : Except String String := do
  throwIf (∃ id ∈ stepId, ¬db.HasStep id runId) "Pipeline evidence step/run mismatch"
  let run ← db.run runId
  db.climb [] run

/-- a link that a family of evidence is followed along. -/
def SameAuthority (link : ChildRunLink) : Prop :=
  ∃ parent ∈ db.runs, parent.id = link.parentRunId ∧ ∃ child ∈ db.runs,
    child.id = link.childRunId ∧ db.HasStep link.parentStepId parent.id ∧
      parent.ownerNpub = child.ownerNpub ∧ parent.ownerAlias = child.ownerAlias

instance (link : ChildRunLink) : Decidable (db.SameAuthority link) := by
  unfold SameAuthority
  infer_instance

/-- `evidence_runs`, after so many rounds. -/
def evidenceRuns : ℕ → List String → List String
  | 0, tree => tree
  | rounds + 1, tree =>
    let links := db.childRuns.filter fun link =>
      link.parentRunId ∈ tree ∧ link.childRunId ∉ tree ∧ db.SameAuthority link
    evidenceRuns rounds (tree ++ links.map (·.childRunId))

/-- the rows of the runs below a root. -/
def rootRows (root : String) : List EvidenceRow :=
  db.evidence.filter fun row => row.runId ∈ db.evidenceRuns db.childRuns.length [root]

/-- the content of a row, which is shared when the row has a payload. -/
def body (row : EvidenceRow) : Except String (Option String) :=
  match row.payloadId with
  | none => .ok row.valueJson
  | some payloadId =>
    match db.payloads.find? (·.id = payloadId) with
    | none => .error "Missing shared pipeline evidence payload"
    | some payload => do
      throwIf (row.valueJson.isSome = true) "Inconsistent shared pipeline evidence payload reference"
      let root ← db.root row.runId none
      throwIf (payload.rootRunId ≠ root ∨ some payload.contentHash ≠ row.contentHash ∨
          payload.bytes ≠ row.bytes) "Inconsistent shared pipeline evidence payload reference"
      pure (some payload.valueJson)

/-- `read` -/
def read (row : EvidenceRow) : Except String Value := do
  match ← db.body row with
  | none =>
    throwIf (row.availability.retained = true) "Missing retained pipeline evidence body"
    pure null
  | some json =>
    throwIf (row.availability.retained = false ∨ json.utf8ByteSize ≠ row.bytes ∨
        (∃ hash ∈ row.contentHash, host.evidenceDigest json ≠ hash) ∨
        (row.redacted = false ∧ ∃ hash ∈ row.sourceHash, hash ≠ "" ∧
          hash ≠ host.evidenceDigest json)) "Pipeline evidence body digest or size mismatch"
    orThrow "Corrupt pipeline evidence JSON body" (host.parse json)

/-- a step of the loop of `retainedSource`; the state is the content found so far and its hash. -/
def retainedRow (found : Option (Value × Option String)) (row : EvidenceRow) :
    Except String (Option (Value × Option String)) := do
  throwIf (row.sourceHash = none) ("Redacted historical evidence lacks exact source provenance; " ++
    "retain inline values for operator review")
  let value ← db.read host row
  if row.redacted = false then pure found
  else
    throwIf (∃ f ∈ found, f.2 ≠ row.contentHash)
      "Inconsistent pipeline evidence source/content digests"
    pure (some (value, row.contentHash))

/-- `retainedSource`; what is found was redacted. -/
def retainedSource (root sourceHash : String) : Except String (Option Value) := do
  let rows := (db.rootRows root).filter fun row =>
    (row.sourceHash = some sourceHash ∨ row.redacted = true ∧ row.sourceHash = none) ∧
      row.availability.retained = true
  let found ← rows.foldlM (db.retainedRow host) none
  pure (found.map (·.1))

/-- `refuseMissingProvenance` -/
def refuseMissingProvenance (runId stepId : String) (kind : EvidenceKind) : Except String Unit :=
  throwIf (∃ row ∈ db.evidence, row.runId = runId ∧ row.stepId = stepId ∧ row.kind = kind ∧
      row.redacted = true ∧ row.sourceHash = none)
    ("Redacted historical evidence lacks exact source provenance; " ++
      "retain inline values for operator review")

/-- the retained rows of a run. -/
def retainedRows (runId : String) : List EvidenceRow :=
  db.evidence.filter fun row => row.runId = runId ∧ row.availability.retained = true

/-- a row from before there were content hashes is counted under the digest of its content. -/
def addLegacy (sizes : List (String × ℕ)) (row : EvidenceRow) :
    Except String (List (String × ℕ)) := do
  let _ ← db.read host row
  let digest := host.evidenceDigest (row.valueJson.getD "null")
  throwIf (∃ size ∈ sizes.lookup digest, size ≠ row.bytes)
    "Inconsistent pipeline evidence budget digest/size"
  pure (put Prod.fst sizes (digest, row.bytes))

/-- `usedBytes`: the bytes used by a run, and whether they contain a content. -/
def usedBytes (runId hash : String) : Except String (ℕ × Bool) := do
  let rows := (db.retainedRows runId).filter fun row => row.contentHash.isSome = true
  let size (hash : Option String) : ℕ := maximum (fun row => row.contentHash = hash) (·.bytes) rows
  throwIf (∃ row ∈ rows, row.bytes ≠ size row.contentHash)
    "Inconsistent pipeline evidence budget digest/size"
  let groups := (distinct (rows.map (·.contentHash))).map fun hash => (hash.getD "", size hash)
  let legacy := (db.retainedRows runId).filter fun row => row.contentHash = none
  let sizes ← legacy.foldlM (db.addLegacy host) groups
  pure (total (·.2) sizes, decide (hash ∈ sizes.map (·.1)))

/-- `intern`: the payload of a content, which is new when the family has none. -/
def intern (root json hash : String) (bytes : ℕ) (newId : String) : Except String (String × Db) :=
  match db.payloads.find? fun p => p.rootRunId = root ∧ p.contentHash = hash with
  | some existing => do
    throwIf (existing.valueJson ≠ json ∨ existing.bytes ≠ bytes ∨
        host.evidenceDigest existing.valueJson ≠ hash)
      "Pipeline evidence payload digest collision or inconsistent body"
    pure (existing.id, db)
  | none => do
    let references := (db.rootRows root).filter fun row =>
      row.contentHash = some hash ∧ row.payloadId.isSome = true
    let _ ← references.mapM (db.read host)
    throwIf (∃ p ∈ db.payloads, p.id = newId)
      "UNIQUE constraint failed: pipeline_evidence_payloads.id"
    pure (newId, { db with payloads := db.payloads ++
      [{ id := newId, rootRunId := root, contentHash := hash, bytes, valueJson := json }] })

/-- `lastExecutorAttempt` -/
def lastExecutorAttempt (stepId : String) : ℕ :=
  maximum (fun row => row.stepId = stepId ∧ row.kind = .executor_request) (·.attempt) db.evidence

/-- `currentAttempt` -/
def currentAttempt (stepId : String) : ℕ := max 1 (db.lastExecutorAttempt stepId)

end Db

/-! ## `PipelineEvidenceStore` -/

/-- the limits of a store. -/
structure Limits where
  valueLimit : ℕ
  runLimit : ℕ

structure EvidenceCapture where
  runId : String
  stepId : String
  kind : EvidenceKind
  scope : String
  value : Value
  attempt : Option ℕ := none
  secrets : List String := []
  availability : Option EvidenceAvailability := none

/-- what a capture answers: the row, without what is internal to the store. -/
structure EvidenceReference where
  id : String
  runId : String
  stepId : String
  attempt : ℕ
  kind : EvidenceKind
  scope : String
  contentType : String
  bytes : ℕ
  availability : EvidenceAvailability
  preview : Value
  redacted : Bool
  capturedAt : String
  deriving DecidableEq

/-- `reference` -/
def reference (row : EvidenceRow) : EvidenceReference :=
  { id := row.id, runId := row.runId, stepId := row.stepId, attempt := row.attempt, kind := row.kind,
    scope := row.scope, contentType := row.contentType, bytes := row.bytes,
    availability := row.availability, preview := row.preview, redacted := row.redacted,
    capturedAt := row.capturedAt }

/-- What the other modules and the platform answer in a call. -/
structure Surroundings where
  /-- `sanitation.prepare` -/
  prepare : Except String Unit
  credentials : List String
  /-- `context.scan.length` is not 0. -/
  scan : Bool
  uncertain : Bool
  /-- `sanitizePreviewCapture`, given what is retained. -/
  boundary : Option Value → Except String (Value × Bool)
  /-- `retainedCredentialExposure` -/
  exposure : Bool
  /-- `refineCapturedViewerPins` -/
  refine : Except String Unit
  /-- `context.attest` -/
  attest : Except String Unit
  /-- `declaredEvidencePreview` -/
  preview : Value → Value
  /-- `crypto.randomUUID()` -/
  id : String
  payloadId : String
  capturedAt : String

section
variable (host : Host) (limits : Limits) (db : Db)

/-- the value to keep, and whether something in it was redacted. -/
def sanitized (around : Surroundings) (retained : Option Value) (boundary : Value × Bool) :
    Value × Bool :=
  match retained with
  | some value => ((redactPipelineValue host.env value around.credentials).1, true)
  | none => boundary

/-- `availability` -/
def availabilityOf (input : EvidenceCapture) (used : ℕ × Bool) (bytes : ℕ) (redacted : Bool) :
    EvidenceAvailability :=
  if limits.valueLimit < bytes ∨ limits.runLimit < used.1 + (if used.2 = true then 0 else bytes) then
    .oversized
  else input.availability.getD (if redacted = true then .redacted else .complete)

/-- `ref` -/
def newReference (input : EvidenceCapture) (around : Surroundings) (safe : Value × Bool)
    (bytes : ℕ) (availability : EvidenceAvailability) : EvidenceReference :=
  { id := around.id, runId := input.runId, stepId := input.stepId,
    attempt := input.attempt.getD (db.currentAttempt input.stepId), kind := input.kind,
    scope := input.scope,
    contentType := if safe.1.isString then "text/plain" else "application/json",
    bytes, availability, preview := around.preview safe.1, redacted := safe.2,
    capturedAt := around.capturedAt }

/-- the row of a reference. -/
def newRow (ref : EvidenceReference) (hash sourceHash : String) (payloadId : Option String) :
    EvidenceRow :=
  { id := ref.id, runId := ref.runId, stepId := ref.stepId, attempt := ref.attempt,
    kind := ref.kind, scope := ref.scope, contentType := ref.contentType, bytes := ref.bytes,
    availability := ref.availability, redacted := ref.redacted, capturedAt := ref.capturedAt,
    contentHash := some hash, valueJson := none, preview := ref.preview,
    sourceHash := some sourceHash, payloadId }

/-- `payloadId`, with the tables: the content of a retained reference is interned. -/
def keep (ref : EvidenceReference) (root json hash newId : String) :
    Except String (Option String × Db) :=
  if ref.availability.retained = true then do
    let interned ← db.intern host root json hash ref.bytes newId
    pure (some interned.1, interned.2)
  else .ok (none, db)

/-- what is recorded of a value that was rewritten: the reference, the content and the tables. -/
def record (input : EvidenceCapture) (around : Surroundings) (root sourceHash : String)
    (safe : Value × Bool) : Except String (EvidenceReference × String × Db) := do
  let json := host.stringify (safe.1.orElse null)
  let bytes := json.utf8ByteSize
  let hash := host.evidenceDigest json
  let used ← db.usedBytes host input.runId hash
  let availability := availabilityOf limits input used bytes safe.2
  let ref := newReference db input around safe bytes availability
  let kept ← keep host db ref root json hash around.payloadId
  throwIf (∃ row ∈ db.evidence, row.id = ref.id) "UNIQUE constraint failed: pipeline_evidence.id"
  let row := newRow ref hash sourceHash kept.1
  pure (ref, json, { kept.2 with evidence := kept.2.evidence ++ [row] })

/-- `if (c) x()` -/
def callIf (c : Bool) (x : Except String Unit) : Except String Unit := if c then x else .ok ()

/-- `captureValue`: the reference, the content and the tables. -/
def captureValue (input : EvidenceCapture) (around : Surroundings) :
    Except String (EvidenceReference × String × Db) := do
  let root ← db.root input.runId (some input.stepId)
  db.refuseMissingProvenance input.runId input.stepId input.kind
  let sourceHash := host.evidenceDigest (host.stringify (input.value.orElse null))
  let retained ← db.retainedSource host root sourceHash
  around.prepare
  let boundary ← around.boundary retained
  let safe := sanitized host around retained boundary
  let unsafeBody := around.uncertain || around.exposure
  callIf (safe.2 || unsafeBody || around.scan) around.refine
  let recorded ← record host limits db input around root sourceHash safe
  callIf (!unsafeBody) around.attest
  pure recorded

/-- `readArchive` -/
def readArchive (runId id : String) : Except String (Option (EvidenceReference × Value)) :=
  match db.evidence.find? fun row => row.runId = runId ∧ row.id = id with
  | none => .ok none
  | some row => do
    let value ← db.read host row
    pure (some (reference row, value))

/-- the row that `ensureArchived` looks for. -/
def archivedRow (executionSecrets : List String) (input : EvidenceCapture) : Option EvidenceRow :=
  let base := executionSecrets ++ pipelineProviderSecrets host.env ++ input.secrets
  let json := host.stringify ((redactPipelineValue host.env input.value base).1.orElse null)
  let hash := host.evidenceDigest json
  let sourceHash := host.evidenceDigest (host.stringify (input.value.orElse null))
  (db.evidence.filter fun row => row.runId = input.runId ∧ row.stepId = input.stepId ∧
    row.kind = input.kind ∧ (row.contentHash = some hash ∨ row.sourceHash = some sourceHash) ∧
    (row.availability ∈ [.complete, .redacted, .oversized, .unavailable] ∨
      input.availability = some .preview_only ∧ row.availability = .preview_only)).getLast?

/-- `ensureArchived`: the reference of an archived row, or what a capture gives. -/
def ensureArchived (executionSecrets : List String) (input : EvidenceCapture)
    (around : Surroundings) :
    Except String (EvidenceReference ⊕ (EvidenceReference × String × Db)) :=
  match archivedRow host db executionSecrets input with
  | some row => do
    let _ ← readArchive host db input.runId row.id
    pure (.inl (reference row))
  | none => do
    db.refuseMissingProvenance input.runId input.stepId input.kind
    let recorded ← captureValue host limits db input around
    pure (.inr recorded)

end

/-! ## the store in use -/

/-- A store, and the references it gave out; a captured reference stands with its content. -/
structure Store where
  db : Db
  executionSecrets : List String
  captured : List (EvidenceReference × String)
  archived : List EvidenceReference

/-- a new database. -/
def Store.init : Store :=
  { db := ⟨[], [], [], [], []⟩, executionSecrets := [], captured := [], archived := [] }

/-- a transaction that returned. -/
def Store.recorded (s : Store) (r : EvidenceReference × String × Db) : Store :=
  { s with db := r.2.2, captured := s.captured ++ [(r.1, r.2.1)] }

variable (host : Host) (limits : Limits)

/-- Something happens to the store.  A transaction that throws is rolled back, so that nothing
changes; a child run is linked to its parent in the transaction that creates it. -/
inductive Step : Store → Store → Prop
  | capture {s : Store} (input : EvidenceCapture) (around : Surroundings)
      {r : EvidenceReference × String × Db}
      (h : captureValue host limits s.db input around = .ok r) : Step s (s.recorded r)
  | ensureArchived {s : Store} (input : EvidenceCapture) (around : Surroundings)
      {r : EvidenceReference × String × Db}
      (h : ensureArchived host limits s.db s.executionSecrets input around = .ok (.inr r)) :
      Step s (s.recorded r)
  | alreadyArchived {s : Store} (input : EvidenceCapture) (around : Surroundings)
      {ref : EvidenceReference}
      (h : EvidenceStore.ensureArchived host limits s.db s.executionSecrets input around =
        .ok (.inl ref)) :
      Step s { s with archived := s.archived ++ [ref] }
  | createRun {s : Store} (run : Run) (h : ∀ r ∈ s.db.runs, r.id ≠ run.id) :
      Step s { s with db := { s.db with runs := s.db.runs ++ [run] } }
  | createChildRun {s : Store} (run : Run) (link : ChildRunLink)
      (h : ∀ r ∈ s.db.runs, r.id ≠ run.id) (hchild : link.childRunId = run.id)
      (hparent : ∃ r ∈ s.db.runs, r.id = link.parentRunId)
      (hstep : ∀ l ∈ s.db.childRuns, l.parentStepId ≠ link.parentStepId) :
      Step s { s with db := { s.db with runs := s.db.runs ++ [run],
                                        childRuns := s.db.childRuns ++ [link] } }
  | createStep {s : Store} (step : PipelineStep) (h : ∀ p ∈ s.db.steps, p.id ≠ step.id)
      (hrun : ∃ r ∈ s.db.runs, r.id = step.runId) :
      Step s { s with db := { s.db with steps := s.db.steps ++ [step] } }
  | registerSecret {s : Store} (secret : String) :
      Step s { s with executionSecrets := s.executionSecrets ++ [secret] }
  | reopen {s : Store} : Step s { s with executionSecrets := [] }

/-- The stores that come up. -/
inductive Reachable : Store → Prop
  | init : Reachable .init
  | step {s s' : Store} : Reachable s → Step host limits s s' → Reachable s'

end EvidenceStore
end Pipelines
end WmAutopilot
