import Mathlib.Logic.Function.Basic
import WmAutopilot.Heartbeat.RecordSyncProtocol

/-!
# The record cache

The tables of `RecordSyncCache` and its methods, each a transaction: `transaction` undoes the
statements of a body that throws.

* `CacheState`, `Row`, `Db`      the state record and the tables;
* `assertFence`                  the writer lease and the fence of a page;
* `mergeChange`                  one change of a page merged into the rows;
* `commit`, `ack`, `replayConflict`, `rollbackLargeRecord`, `register`, `repair`, …   the methods.
-/

set_option autoImplicit false
set_option linter.unusedVariables false

namespace WmAutopilot
namespace Heartbeat
open Js

/-! ## tables -/

structure CacheState where
  clientId : String
  generation : String
  cursor : Option String := none
  epoch : Option String := none
  target : Option ℕ := none
  through : Option ℕ := none
  certified : Bool := false
  revision : ℕ := 0
  snapshotId : Option String := none
  snapshotDone : Bool := false
  handoverDone : Bool := false
  families : List String := []
  partitions : List String := []
  accessRevision : Option ℕ := none
  available : Bool := false

/-- `fresh()` with the two UUIDs that it draws. -/
def fresh (clientId generation : String) : CacheState := { clientId, generation }

structure Fence where
  cursor : Option String
  clientId : String
  generation : String
  deriving DecidableEq, Repr

/-- the fence of a page is not that of the state. -/
def Fence.stale (fence : Fence) (state : CacheState) : Prop :=
  state.clientId ≠ fence.clientId ∨ state.generation ≠ fence.generation ∨
    state.cursor ≠ fence.cursor

instance (fence : Fence) (state : CacheState) : Decidable (fence.stale state) :=
  inferInstanceAs (Decidable (_ ∨ _ ∨ _))

structure LargeRecordReceipt where
  manifestId : String
  sha256 : String
  deriving DecidableEq, Repr

structure AckIntent where
  cursor : String
  expectedRevision : ℕ
  clientId : String
  generation : String
  largeRecordReceipts : Option (List LargeRecordReceipt)

structure Lease where
  token : String
  expires : ℕ
  deriving DecidableEq, Repr

/-- generation, family and id. -/
abbrev RowKey := String × String × String

structure Row where
  generation : String
  family : String
  id : String
  version : ℕ
  operation : Operation
  scope : Option String
  channel : Option String
  resourceKind : Option String
  updated : String
  payload : Option Value
  active : Bool

def Row.key (r : Row) : RowKey := (r.generation, r.family, r.id)

/-- generation, family, kind, resource and resource kind. -/
abbrev AccessKey := String × String × ResourceType × String × String

inductive AckStatus where
  | pending
  | repair
  | conflict
  deriving DecidableEq, Repr

/-- a row of `ack_intents`. -/
structure AckRow where
  generation : String
  client : String
  cursor : String
  revision : ℕ
  status : AckStatus

structure ReceiptsRow where
  generation : String
  cursor : String
  receipts : List LargeRecordReceipt

/-- a row of `large_record_undo`: the state and the rows before a page. -/
structure UndoRow where
  generation : String
  cursor : String
  state : CacheState
  rows : List (RowKey × Option Row)
  actors : List ((String × String) × Option Value)
  access : List (AccessKey × Option AccessStatus)

structure StageRow where
  generation : String
  cursor : String
  page : Value

structure ChunkRow where
  generation : String
  manifest : String
  idx : ℕ
  bytes : List UInt8

/-- a value that was taken back: a row of a table, a staged page or a staged chunk. -/
inductive Rejected where
  | rows (row : Row)
  | actors (key : String × String) (payload : Value)
  | access (key : AccessKey) (status : AccessStatus)
  | manifestPage (page : Value)
  | chunk (manifest : String) (idx : ℕ) (bytes : List UInt8)

/-- a row of `rejected_record_downloads`. -/
structure RejectedRow where
  generation : String
  cursor : String
  payload : Rejected

/-- a row of `family_bootstraps`: where the rows of a family come from. -/
structure BootstrapProof where
  primaryGeneration : String
  primaryCursor : Option String
  primaryThrough : Option ℕ
  clientId : String
  generation : String
  through : Option ℕ
  epoch : Option String
  accessRevision : Option ℕ
  cursor : Option String

structure Db where
  lease : Option Lease := none
  /-- the partition and the state, once the cache was opened. -/
  metaRow : Option (List String × CacheState) := none
  rows : RowKey → Option Row := fun _ => none
  actors : String × String → Option Value := fun _ => none
  access : AccessKey → Option AccessStatus := fun _ => none
  ackIntents : List AckRow := []
  receipts : List ReceiptsRow := []
  undo : List UndoRow := []
  stage : List StageRow := []
  chunks : List ChunkRow := []
  rejected : List RejectedRow := []
  bootstraps : String → Option BootstrapProof := fun _ => none

/-- `db.transaction(body).immediate()` -/
def transaction (body : Db → Except String Db) (db : Db) : Except String Unit × Db :=
  match body db with
  | .ok db' => (.ok (), db')
  | .error e => (.error e, db)

/-- What is used of the platform. -/
structure Globals where
  /-- `Date.parse(text)`; `none` is `NaN`. -/
  dateParse : String → Option ℤ
  /-- `new Date(time).toISOString()` -/
  toISOString : ℤ → String
  /-- `String(value)` -/
  toText : Value → String

namespace Db

/-! ## the state and the fence -/

/-- `state()` -/
def state (db : Db) : Except String CacheState :=
  (orThrow "null is not an object" db.metaRow).map (·.2)

def save (db : Db) (state : CacheState) : Db := 
  { db with metaRow := db.metaRow.map fun m => (m.1, state) }

/-- `assertWriter()` of the cache with the given lease. -/
def assertWriter (db : Db) (lease : String) (now : ℕ) : Except String CacheState := do
  throwIf (∀ l ∈ db.lease, l.token ≠ lease ∨ l.expires ≤ now) "Stale cache writer lease"
  db.state

def assertFence (db : Db) (lease : String) (fence : Fence) (now : ℕ) : Except String CacheState := do
  let state ← db.assertWriter lease now
  throwIf (fence.stale state) "Stale page response fenced"
  pure state

/-! ## acknowledgements -/

/-- the receipts of the page with this cursor. -/
def receiptsOf (db : Db) (generation cursor : String) : Option (List LargeRecordReceipt) :=
  (db.receipts.find? fun r => r.generation = generation ∧ r.cursor = cursor).map (·.receipts)

/-- `pending()` -/
def pending (db : Db) (s : CacheState) : Option AckIntent :=
  (db.ackIntents.find? fun r => r.generation = s.generation ∧ r.status = .pending).map fun r =>
    { cursor := r.cursor, expectedRevision := r.revision, clientId := r.client
      generation := s.generation, largeRecordReceipts := db.receiptsOf s.generation r.cursor }

end Db

/-! ## pages -/

/-- the columns of a change. -/
def rowOf (globals : Globals) (generation : String) (c : Change) : Row :=
  let r := c.row.getD .null
  let stamp := match r.get "updated_at", r.get "created_at" with
    | .str updatedAt, _ => updatedAt
    | _, .str createdAt => createdAt
    | _, _ => ""
  { generation, family := c.family, id := c.id, version := c.version, operation := c.operation
    scope := c.scopeId, channel := c.channelId
    resourceKind := match r.get "resource_type" with
      | .str kind => some kind
      | _ => none
    updated := match globals.dateParse stamp with
      | some time => globals.toISOString time
      | none => ""
    payload := c.row
    active := c.family = "task" ∧ globals.toText (r.get "state") ∈
      ["new", "ready", "in_progress", "review", "blocked"] }

/-- one change of a page. -/
def mergeChange (globals : Globals) (generation : String) (rows : RowKey → Option Row) (c : Change) :
    Except String (RowKey → Option Row) :=
  let key := (generation, c.family, c.id)
  let replace := Function.update rows key (some (rowOf globals generation c))
  match rows key with
  | none => .ok replace
  | some old =>
    if c.version < old.version then .ok rows
    else if c.version = old.version then
      if old.operation = .delete then .ok rows
      else if c.operation = .upsert ∧ old.payload ≠ c.row then
        .error "Inconsistent canonical row at same version"
      else .ok replace
    else .ok replace

def assertFamilyCompatibility (s : CacheState) (p : Page) (bounded : Bool) : Except String Unit :=
  if s.families = [] then .ok ()
  else do
    let removed := s.families.filter (· ∉ p.families)
    let added := p.families.filter (· ∉ s.families)
    throwIf (removed ≠ [])
      ("Advertised families removed: " ++ ", ".intercalate removed ++ "; repair required")
    throwIf (added ≠ [] ∧ (¬bounded ∨ ¬s.snapshotDone ∨ p.mode ≠ .delta))
      ("Advertised families added outside bounded delta: " ++ ", ".intercalate added ++
        "; snapshot coverage repair required")

def assertHandoverProgress (s : CacheState) (h : Handover) : Except String Unit := do
  throwIf (some h.authorityEpoch ≠ s.epoch) "Handover authority epoch mismatch"
  throwIf (∃ target ∈ s.target, ∀ position ∈ h.targetPosition, position < target)
    "Handover target regressed"
  throwIf (s.target ≠ none ∧ h.targetPosition ≠ s.target ∧ ¬s.certified ∧
    ¬∃ revision ∈ s.accessRevision, revision < h.accessRevision)
    "Fixed handover target changed during traversal"
  throwIf (∃ through ∈ s.through, h.throughPosition < through) "Handover position regressed"
  throwIf (∃ target ∈ h.targetPosition, target < h.throughPosition)
    "Handover position exceeds target"

def actorKey (generation : String) (a : Actor) : String × String := (generation, a.actorId)

def accessKey (generation : String) (a : Access) : AccessKey :=
  (generation, a.family, a.resourceType, a.resourceId, a.resourceKind.getD "")

def changeKey (generation : String) (c : Change) : RowKey := (generation, c.family, c.id)

/-- the entries of a table under the keys. -/
def capture {κ α : Type} (table : κ → Option α) (keys : List κ) : List (κ × Option α) :=
  keys.map fun k => (k, table k)

/-- the captured entries put back. -/
def restore {κ α : Type} [DecidableEq κ] (table : κ → Option α) (entries : List (κ × Option α)) :
    κ → Option α :=
  entries.foldl (fun t e => Function.update t e.1 e.2) table

/-- the values that the captured entries replace when they are put back one after the other. -/
def replaced {κ α : Type} [DecidableEq κ] (value : κ → α → Rejected) :
    (κ → Option α) → List (κ × Option α) → List Rejected
  | _, [] => []
  | table, e :: entries =>
    ((table e.1).map (value e.1)).toList ++ replaced value (Function.update table e.1 e.2) entries

/-- the values that a backup replaces. -/
def UndoRow.replaced (u : UndoRow) (db : Db) : List Rejected :=
  Heartbeat.replaced (fun _ => .rows) db.rows u.rows ++
    Heartbeat.replaced .actors db.actors u.actors ++
    Heartbeat.replaced .access db.access u.access

/-- `saveLargeRecordUndo` -/
def saveLargeRecordUndo (db : Db) (s : CacheState) (p : Page) : Except String Db :=
  if ∃ u ∈ db.undo, u.generation = s.generation ∧ u.cursor = p.nextCursor then
    .error "UNIQUE constraint failed: large_record_undo.generation, large_record_undo.cursor"
  else
    let saved : UndoRow :=
      { generation := s.generation, cursor := p.nextCursor, state := s
        rows := capture db.rows (p.changes.map (changeKey s.generation))
        actors := capture db.actors (p.actors.map (actorKey s.generation))
        access := capture db.access (p.accessChanges.map (accessKey s.generation)) }
    .ok { db with undo := db.undo ++ [saved] }

/-- the state under the handover certificate of a page. -/
def handoverState (s : CacheState) (p : Page) (bounded : Bool) : Except String CacheState :=
  if bounded then do
    let h ← handover p
    assertHandoverProgress s h
    pure { s with target := h.targetPosition, through := some h.throughPosition, certified := h.complete }
  else .ok { s with certified := false }

/-- the state after a page. -/
def pageState (s : CacheState) (p : Page) : CacheState :=
  { s with
    families := p.families
    snapshotId := if p.mode = .snapshot then p.snapshotId else s.snapshotId
    snapshotDone := if p.mode = .snapshot then p.snapshotComplete else s.snapshotDone
    partitions := if p.mode = .snapshot then p.partitionsComplete else s.partitions
    handoverDone := p.mode = .delta ∧ ¬p.hasMore ∧ p.catchup = .null
    available := true
    accessRevision := some p.accessRevision
    cursor := some p.nextCursor
    revision := p.checkpointRevision }

/-- what `commit` checks before it writes. -/
def checkPage (db : Db) (s : CacheState) (p : Page) (bounded : Bool) : Except String Unit := do
  throwIf ((db.pending s).isSome) "Pending acknowledgement must reconcile before paging"
  throwIf (p.clientId ≠ s.clientId ∨ some p.nextCursor = s.cursor) "Duplicate/stale page cursor"
  assertFamilyCompatibility s p bounded
  throwIf (p.mode = .snapshot ∧ (s.snapshotDone ∨
    s.snapshotId ≠ none ∧ s.snapshotId ≠ some "" ∧ p.snapshotId ≠ s.snapshotId))
    "Stale snapshot generation"
  throwIf (p.mode = .delta ∧ ¬s.snapshotDone) "Delta before complete snapshot"
  throwIf (∃ revision ∈ s.accessRevision, p.accessRevision < revision) "Stale authority response"

/-- the intent to acknowledge a page, and its receipts. -/
def insertIntent (db : Db) (s : CacheState) (p : Page) (receipts : List LargeRecordReceipt) :
    Except String Db := do
  throwIf (∃ i ∈ db.ackIntents, i.generation = s.generation ∧ i.cursor = p.nextCursor)
    "UNIQUE constraint failed: ack_intents.generation, ack_intents.cursor"
  throwIf (receipts ≠ [] ∧ ∃ r ∈ db.receipts, r.generation = s.generation ∧ r.cursor = p.nextCursor)
    "UNIQUE constraint failed: large_record_receipts.generation, large_record_receipts.cursor"
  let intent : AckRow :=
    { generation := s.generation, client := s.clientId, cursor := p.nextCursor
      revision := p.checkpointRevision, status := .pending }
  let saved : ReceiptsRow := { generation := s.generation, cursor := p.nextCursor, receipts }
  pure { db with
    ackIntents := db.ackIntents ++ [intent]
    receipts := if receipts = [] then db.receipts else db.receipts ++ [saved] }

/-! ## the methods -/

/-- `new RecordSyncCache(path, partition, leaseMs)`, with the UUIDs that it draws. -/
def openCache (lease : String) (partition : List String) (leaseMs : ℕ)
    (clientId generation : String) (now : ℕ) : Db → Except String Unit × Db :=
  transaction fun db => do
    throwIf (∃ l ∈ db.lease, now < l.expires)
      "Heartbeat cache writer lease is held by another process"
    throwIf (∃ m ∈ db.metaRow, m.1 ≠ partition) "Cache partition mismatch"
    pure { db with
      lease := some { token := lease, expires := now + leaseMs }
      metaRow := some (db.metaRow.getD (partition, fresh clientId generation)) }

def unavailable (lease : String) (now : ℕ) : Db → Except String Unit × Db :=
  transaction fun db => do
    let state ← db.assertWriter lease now
    pure (db.save { state with available := false, handoverDone := false })

/-- `repair()`, with the UUIDs that it draws. -/
def repair (lease clientId generation : String) (now : ℕ) : Db → Except String Unit × Db :=
  transaction fun db => do
    let _ ← db.assertWriter lease now
    let intents := db.ackIntents.map fun i =>
      if i.status = .pending then { i with status := .repair } else i
    pure ({ db with ackIntents := intents }.save (fresh clientId generation))

def register (lease : String) (r : Registration) (fence : Fence) (now : ℕ) :
    Db → Except String Unit × Db :=
  transaction fun db => do
    let s ← db.assertFence lease fence now
    throwIf (s.epoch ≠ none ∧ s.epoch ≠ some "" ∧ s.epoch ≠ some r.authorityEpoch)
      "Authority epoch changed; continuation repair required"
    throwIf (r.checkpointRevision < s.revision) "Checkpoint revision regressed"
    let absent : Prop := s.cursor = none ∨ s.cursor = some ""
    throwIf (absent ∧ r.checkpointCursor ≠ none) "Cache rows absent; cannot adopt server checkpoint"
    pure (db.save { s with
      epoch := some r.authorityEpoch
      cursor := if absent then some r.initialCursor else s.cursor
      revision := r.checkpointRevision })

def commit (globals : Globals) (lease : String) (p : Page) (fence : Fence) (bounded : Bool)
    (receipts : List LargeRecordReceipt) (now : ℕ) : Db → Except String Unit × Db :=
  transaction fun db => do
    let s ← db.assertFence lease fence now
    checkPage db s p bounded
    let saved ← (if receipts = [] then .ok db else saveLargeRecordUndo db s p : Except String Db)
    let s' ← handoverState s p bounded
    let rows ← p.changes.foldlM (mergeChange globals s.generation) db.rows
    let written : Db := { saved with
      rows
      actors := p.actors.foldl
        (fun t a => Function.update t (actorKey s.generation a) (some a.payload)) db.actors
      access := p.accessChanges.foldl
        (fun t a => Function.update t (accessKey s.generation a) (some a.status)) db.access }
    let db' ← insertIntent (written.save (pageState s' p)) s p receipts
    pure { db' with
      stage := db'.stage.filter (·.generation ≠ s.generation)
      chunks := db'.chunks.filter (·.generation ≠ s.generation) }

def AckIntent.fence (intent : AckIntent) : Fence :=
  { cursor := some intent.cursor, clientId := intent.clientId, generation := intent.generation }

def ack (lease : String) (r : Registration) (intent : AckIntent) (now : ℕ) :
    Db → Except String Unit × Db :=
  transaction fun db => do
    let s ← db.assertFence lease intent.fence now
    throwIf (some r.authorityEpoch ≠ s.epoch ∨ r.checkpointCursor ≠ some intent.cursor ∨
      r.checkpointRevision < intent.expectedRevision)
      "Acknowledgement does not match committed rows"
    let db' := db.save { s with revision := r.checkpointRevision }
    pure { db' with
      ackIntents := db'.ackIntents.filter fun i =>
        ¬(i.generation = s.generation ∧ i.cursor = intent.cursor)
      undo := db'.undo.filter fun u => ¬(u.generation = s.generation ∧ u.cursor = intent.cursor) }

def replayConflict (lease : String) (r : Registration) (intent : AckIntent) (now : ℕ) :
    Db → Except String Unit × Db :=
  transaction fun db => do
    let s ← db.assertFence lease intent.fence now
    throwIf (some r.authorityEpoch ≠ s.epoch) "Authority epoch changed during acknowledgement"
    let db' := db.save { s with revision := r.checkpointRevision, handoverDone := false }
    pure { db' with
      ackIntents := db'.ackIntents.map fun i =>
        if i.generation = s.generation then { i with status := .conflict } else i }

/-- `rollbackLargeRecord`: a page with large records is undone while its acknowledgement is
pending. -/
def rollbackLargeRecord (lease : String) (now : ℕ) : Db → Except String Unit × Db :=
  transaction fun db => do
    let state ← db.assertWriter lease now
    match db.pending state with
    | none => pure db
    | some intent =>
      if intent.largeRecordReceipts.getD [] = [] then pure db
      else do
        let backup ← orThrow "Large-record rollback evidence missing" (db.undo.find? fun u =>
          u.generation = state.generation ∧ u.cursor = intent.cursor)
        throwIf (state.cursor ≠ some intent.cursor ∨ backup.state.generation ≠ state.generation ∨
          backup.state.clientId ≠ state.clientId) "Large-record rollback fence mismatch"
        let restored : Db := { db with
          rows := restore db.rows backup.rows
          actors := restore db.actors backup.actors
          access := restore db.access backup.access
          rejected := db.rejected ++ (backup.replaced db).map fun payload =>
            { generation := state.generation, cursor := intent.cursor, payload } }
        let db' := restored.save { backup.state with available := false, handoverDone := false }
        pure { db' with
          ackIntents := db'.ackIntents.filter fun i =>
            ¬(i.generation = state.generation ∧ i.cursor = intent.cursor)
          receipts := db'.receipts.filter fun r =>
            ¬(r.generation = state.generation ∧ r.cursor = intent.cursor)
          undo := db'.undo.filter fun u =>
            ¬(u.generation = state.generation ∧ u.cursor = intent.cursor) }

/-- the page of a transfer of chunks, kept by `materializeLargeRecords` after `stagedPage`. -/
def stagePage (lease : String) (fence : Fence) (page : Value) (now : ℕ) :
    Db → Except String Unit × Db :=
  transaction fun db => do
    let s ← db.assertWriter lease now
    throwIf (fence.stale s) "Stale large-record stage fence"
    match db.stage.find? (·.generation = s.generation), fence.cursor with
    | some saved, _ =>
      throwIf (some saved.cursor ≠ s.cursor) "Large-record stage cursor mismatch"
      throwIf (saved.page ≠ page) "Large-record stage changed"
      pure db
    | none, some cursor =>
      let saved : StageRow := { generation := fence.generation, cursor, page }
      pure { db with stage := db.stage ++ [saved] }
    | none, none => pure db

/-- a chunk kept by `materializeLargeRecords`. -/
def stageChunk (lease : String) (fence : Fence) (manifest : String) (idx : ℕ) (bytes : List UInt8)
    (now : ℕ) : Db → Except String Unit × Db :=
  transaction fun db => do
    let _ ← db.assertWriter lease now
    throwIf (∃ c ∈ db.chunks, c.generation = fence.generation ∧ c.manifest = manifest ∧ c.idx = idx)
      "UNIQUE constraint failed: large_record_chunks.generation, large_record_chunks.manifest"
    let saved : ChunkRow := { generation := fence.generation, manifest, idx, bytes }
    pure { db with chunks := db.chunks ++ [saved] }

/-- the staged page of a generation, with its chunks. -/
def stagedValues (db : Db) (generation : String) : List RejectedRow :=
  match db.stage.find? (·.generation = generation) with
  | none => []
  | some staged =>
    let kept := .manifestPage staged.page ::
      (db.chunks.filter (·.generation = generation)).map fun c => .chunk c.manifest c.idx c.bytes
    kept.map fun payload => { generation, cursor := staged.cursor, payload }

def discardStage (lease : String) (now : ℕ) : Db → Except String Unit × Db :=
  transaction fun db => do
    let s ← db.assertWriter lease now
    pure { db with
      rejected := db.rejected ++ stagedValues db s.generation
      stage := db.stage.filter (·.generation ≠ s.generation)
      chunks := db.chunks.filter (·.generation ≠ s.generation) }

/-- `close()` -/
def close (lease : String) (db : Db) : Db :=
  { db with lease := db.lease.filter (·.token ≠ lease) }

end Heartbeat
end WmAutopilot
