import Mathlib.Algebra.GroupWithZero.Nat
import Mathlib.Data.List.Lex
import Mathlib.Data.List.Sort
import Mathlib.Logic.Function.Basic
import WmAutopilot.Sql.Table

/-!
# Session dispatches and their wakes

The tables of `SessionDispatchStore` and its methods.  Times are milliseconds and an argument of the
method where the source reads the clock; the wakes are a function of the session, their primary key.

* `SessionDispatch`, `CallbackWakeRecord`, `Cutoff`   the rows;
* `listUnresolvedCallbacks`, `getInboxFingerprint`   the inbox of a session;
* `saveWake`, `claimWake`   the wake of a session;
* `retireForFreshHumanTrigger`, `rebindSession`   what the human's turn and a new session change.
-/

set_option autoImplicit false
set_option linter.unusedVariables false

namespace WmAutopilot
namespace SessionDispatches
open Sql

/-! ## rows -/

inductive DispatchState where
  | creating
  | running
  | callbackPending
  | callbackDelivered
  | acknowledged
  | closed
  | failed
  | superseded
  deriving DecidableEq, Repr

/-- the text of the column. -/
def DispatchState.text : DispatchState → String
  | .creating => "creating"
  | .running => "running"
  | .callbackPending => "callback_pending"
  | .callbackDelivered => "callback_delivered"
  | .acknowledged => "acknowledged"
  | .closed => "closed"
  | .failed => "failed"
  | .superseded => "superseded"

inductive TerminalStatus where
  | completed
  | failed
  | cancelled
  | stopped
  deriving DecidableEq, Repr

def TerminalStatus.text : TerminalStatus → String
  | .completed => "completed"
  | .failed => "failed"
  | .cancelled => "cancelled"
  | .stopped => "stopped"

inductive CallbackWakeState where
  | pending
  | claimed
  | submitted
  | blocked
  | resolved
  deriving DecidableEq, Repr

/-- a row of `session_dispatches`: what the inbox and its callbacks read and write. -/
structure SessionDispatch where
  rowid : ℕ
  dispatchId : String
  workerSessionId : String
  callbackSessionId : Option String
  ownerNpub : Option String
  state : DispatchState := .running
  terminalStatus : Option TerminalStatus := none
  terminalMessage : Option String := none
  terminalMessageCreatedAt : Option String := none
  terminalFingerprint : Option String := none
  callbackPrompt : Option String := none
  callbackAttemptCount : ℕ := 0
  callbackNextAttemptAt : Option ℕ := none
  callbackExpiresAt : Option ℕ := none
  callbackQueuedAt : Option ℕ := none
  callbackAcknowledgedAt : Option ℕ := none
  closedAt : Option ℕ := none
  lastError : Option String := none
  createdAt : ℕ := 0
  updatedAt : ℕ := 0
  deriving DecidableEq, Repr

/-- a row of `session_dispatch_callback_wakes`. -/
structure CallbackWakeRecord where
  callbackSessionId : String
  inboxFingerprint : String
  state : CallbackWakeState := .pending
  attemptCount : ℕ := 0
  claimedAt : Option ℕ := none
  submittedAt : Option ℕ := none
  busyObservedAt : Option ℕ := none
  leaseExpiresAt : Option ℕ := none
  nextRetryAt : Option ℕ := none
  lastError : Option String := none
  createdAt : ℕ := 0
  updatedAt : ℕ := 0
  deriving DecidableEq, Repr

/-- a row of `session_work_cutoffs`. -/
structure Cutoff where
  scope : String
  sessionId : String
  triggerId : String
  generation : ℕ
  rowCutoff : ℕ
  createdAt : ℕ

/-- `DispatchNotificationCutoff` -/
structure NotificationCutoff where
  callbacks : List (String × Option String)
  wakeFingerprint : Option String
  wakeAttemptCount : Option ℕ

structure SessionDispatchStore where
  dispatches : List SessionDispatch := []
  wakes : String → Option CallbackWakeRecord := fun _ => none
  cutoffs : List Cutoff := []

/-- `state IN ('callback_pending', 'callback_delivered')` of a dispatch with a result. -/
def SessionDispatch.Unresolved (d : SessionDispatch) : Prop :=
  d.terminalFingerprint ≠ none ∧ (d.state = .callbackPending ∨ d.state = .callbackDelivered)

instance : DecidablePred SessionDispatch.Unresolved :=
  fun _ => inferInstanceAs (Decidable (_ ∧ (_ ∨ _)))

namespace SessionDispatchStore

/-- `UPDATE session_dispatches SET f WHERE p` -/
def updateDispatches (db : SessionDispatchStore) (p : SessionDispatch → Prop) [DecidablePred p]
    (f : SessionDispatch → SessionDispatch) : SessionDispatchStore :=
  { db with dispatches := Sql.update p f db.dispatches }

/-! ## dispatches -/

def get (db : SessionDispatchStore) (id : String) : Option SessionDispatch :=
  db.dispatches.find? (·.dispatchId = id)

/-- the largest rowid of the table. -/
def maxRowid (db : SessionDispatchStore) : ℕ := maximum (fun _ => True) (·.rowid) db.dispatches

/-- `create` as the service calls it; `id` is the fresh id. -/
def create (db : SessionDispatchStore) (id workerSessionId : String)
    (callbackSessionId ownerNpub : Option String) (now : ℕ) : SessionDispatchStore :=
  if ∃ d ∈ db.dispatches, d.dispatchId = id then db
  else { db with dispatches := db.dispatches ++
    [{ rowid := db.maxRowid + 1, dispatchId := id, workerSessionId, callbackSessionId, ownerNpub
       createdAt := now, updatedAt := now }] }

/-- `update(id, patch)`, and the row that it returns. -/
def update (db : SessionDispatchStore) (id : String) (patch : SessionDispatch → SessionDispatch)
    (now : ℕ) : Except String SessionDispatch × SessionDispatchStore :=
  match db.get id with
  | none => (.error ("Dispatch not found: " ++ id), db)
  | some current =>
    let next := { patch current with dispatchId := id, updatedAt := now }
    (.ok next, db.updateDispatches (·.dispatchId = id) fun _ => next)

/-! ## the inbox -/

/-- the order of the inbox; a missing time is less than any other. -/
def inboxBefore (a b : SessionDispatch) : Bool :=
  let timeA := a.terminalMessageCreatedAt.getD ""
  let timeB := b.terminalMessageCreatedAt.getD ""
  if timeA ≠ timeB then timeA < timeB
  else if a.createdAt ≠ b.createdAt then a.createdAt < b.createdAt
  else a.dispatchId ≤ b.dispatchId

def listUnresolvedCallbacks (db : SessionDispatchStore) (callbackSessionId : String) :
    List SessionDispatch :=
  (db.dispatches.filter fun d =>
    d.callbackSessionId = some callbackSessionId ∧ d.Unresolved).insertionSort (inboxBefore · ·)

/-- the UTF-16 code units of a text: what `sort` compares. -/
def utf16 (s : String) : List ℕ :=
  s.toList.flatMap fun c =>
    if c.toNat < 0x10000 then [c.toNat]
    else [0xD800 + (c.toNat - 0x10000) / 0x400, 0xDC00 + (c.toNat - 0x10000) % 0x400]

section Fingerprint
variable (sha256 : String → String)

/-- `getInboxFingerprint` of some callbacks. -/
def fingerprintOf (callbacks : List SessionDispatch) : Option String :=
  if callbacks = [] then none
  else some (sha256 ("\n".intercalate ((callbacks.map fun d =>
    d.dispatchId ++ ":" ++ d.terminalFingerprint.getD "null").insertionSort
      fun a b => utf16 a ≤ utf16 b)))

def getInboxFingerprint (db : SessionDispatchStore) (callbackSessionId : String) : Option String :=
  fingerprintOf sha256 (db.listUnresolvedCallbacks callbackSessionId)

end Fingerprint

/-! ## wakes -/

def getWake (db : SessionDispatchStore) (callbackSessionId : String) : Option CallbackWakeRecord :=
  db.wakes callbackSessionId

/-- `saveWake`: a row that exists keeps the time of its creation. -/
def saveWake (db : SessionDispatchStore) (wake : CallbackWakeRecord) : SessionDispatchStore :=
  let createdAt := ((db.wakes wake.callbackSessionId).map (·.createdAt)).getD wake.createdAt
  { db with wakes :=
      Function.update db.wakes wake.callbackSessionId (some { wake with createdAt }) }

/-- the wake starts again when the inbox has changed. -/
def resetWake (db : SessionDispatchStore) (callbackSessionId fingerprint : String) (now : ℕ) :
    SessionDispatchStore :=
  let fresh : CallbackWakeRecord :=
    { callbackSessionId, inboxFingerprint := fingerprint, createdAt := now, updatedAt := now }
  match db.getWake callbackSessionId with
  | some current => if current.inboxFingerprint = fingerprint then db else db.saveWake fresh
  | none => db.saveWake fresh

def claimWake (db : SessionDispatchStore) (callbackSessionId fingerprint : String)
    (now leaseExpiresAt : ℕ) : Option CallbackWakeRecord × SessionDispatchStore :=
  let db := db.resetWake callbackSessionId fingerprint now
  match db.getWake callbackSessionId with
  | none => (none, db)
  | some ready =>
    if ready.state ≠ .pending ∨ ∃ t ∈ ready.nextRetryAt, now < t then (none, db)
    else
      let claimed : CallbackWakeRecord :=
        { ready with
          state := .claimed, attemptCount := ready.attemptCount + 1, claimedAt := some now
          submittedAt := none, busyObservedAt := none, leaseExpiresAt := some leaseExpiresAt
          nextRetryAt := none, lastError := none, updatedAt := now }
      (some claimed, db.saveWake claimed)

/-! ## generations -/

def generation (db : SessionDispatchStore) (sessionId : String) : ℕ :=
  maximum (fun c : Cutoff => c.scope = "callbacks" ∧ c.sessionId = sessionId) (·.generation)
    db.cutoffs

def captureFreshHumanCutoff (db : SessionDispatchStore) (sessionId : String) : NotificationCutoff :=
  { callbacks := (db.listUnresolvedCallbacks sessionId).map fun d =>
      (d.dispatchId, d.terminalFingerprint)
    wakeFingerprint := (db.getWake sessionId).map (·.inboxFingerprint)
    wakeAttemptCount := (db.getWake sessionId).map (·.attemptCount) }

/-- the wake that the trigger resolves. -/
def Captured (snapshot : Option NotificationCutoff) (wake : CallbackWakeRecord) : Prop :=
  ∀ cut ∈ snapshot, cut.wakeFingerprint = some wake.inboxFingerprint ∧
    cut.wakeAttemptCount = some wake.attemptCount

instance (snapshot : Option NotificationCutoff) : DecidablePred (Captured snapshot) :=
  fun _ => inferInstanceAs (Decidable (∀ cut ∈ snapshot, _))

def retireForFreshHumanTrigger (db : SessionDispatchStore) (sessionId triggerId : String)
    (snapshot : Option NotificationCutoff) (now : ℕ) : SessionDispatchStore :=
  if ∃ c ∈ db.cutoffs, c.scope = "callbacks" ∧ c.sessionId = sessionId ∧ c.triggerId = triggerId then
    db
  else
    let cutoff := db.maxRowid
    let row : Cutoff :=
      { scope := "callbacks", sessionId, triggerId, generation := db.generation sessionId + 1
        rowCutoff := cutoff, createdAt := now }
    let retired := db.updateDispatches
      (fun d => d.callbackSessionId = some sessionId ∧ d.rowid ≤ cutoff ∧ d.Unresolved ∧
        ∀ cut ∈ snapshot, (d.dispatchId, d.terminalFingerprint) ∈ cut.callbacks)
      fun d => { d with
        state := .superseded, updatedAt := now, callbackNextAttemptAt := none
        callbackExpiresAt := none
        lastError := some ("Notification superseded by fresh human trigger " ++ triggerId ++
          "; worker result not reviewed") }
    let resolve (wake : CallbackWakeRecord) : CallbackWakeRecord :=
      if Captured snapshot wake then
        { wake with
          state := .resolved, claimedAt := none, submittedAt := none, busyObservedAt := none
          leaseExpiresAt := none, nextRetryAt := none, updatedAt := now
          lastError := some ("Superseded by fresh human trigger " ++ triggerId) }
      else wake
    { retired with
      cutoffs := db.cutoffs ++ [row]
      wakes := Function.update db.wakes sessionId ((db.wakes sessionId).map resolve) }

def rebindSession (db : SessionDispatchStore) (sourceSessionId targetSessionId : String) (now : ℕ) :
    SessionDispatchStore :=
  if sourceSessionId = "" ∨ targetSessionId = "" ∨ sourceSessionId = targetSessionId then db
  else
    let moved := (db.updateDispatches (·.workerSessionId = sourceSessionId) fun d =>
        { d with workerSessionId := targetSessionId, updatedAt := now }).updateDispatches
      (·.callbackSessionId = some sourceSessionId) fun d =>
        { d with callbackSessionId := some targetSessionId, updatedAt := now }
    match db.wakes sourceSessionId with
    | none => moved
    | some wake =>
      let rebound : CallbackWakeRecord :=
        { callbackSessionId := targetSessionId, inboxFingerprint := wake.inboxFingerprint
          createdAt := wake.createdAt, updatedAt := now }
      { moved with
        wakes := Function.update (Function.update db.wakes sourceSessionId none)
          targetSessionId (some ((db.wakes targetSessionId).getD rebound)) }

end SessionDispatchStore

end SessionDispatches
end WmAutopilot
