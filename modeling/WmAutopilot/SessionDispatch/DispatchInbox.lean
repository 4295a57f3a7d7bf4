import WmAutopilot.SessionDispatch.DispatchStore

/-!
# The inbox of a supervising session

`SessionDispatchInboxCoordinator`, and the calls of `SessionDispatchService` that change an inbox.
Every method runs without an `await`.

* `WakePolicy`, `DispatchInboxWakeClaim`   limits and delays; what a worker is given;
* `claimForStableSession`   the wake of a session that is stable;
* `validateClaim`, `markDeliveryUncertain`, `releaseRejectedDelivery`, `markSubmitted`,
  `markSubmissionFailed`   what the worker reports, under the fence of its claim;
* `capture`, `acknowledge`, `close`, `retryCallback`   the calls that change the inbox.
-/

set_option autoImplicit false
set_option linter.unusedVariables false

namespace WmAutopilot
namespace SessionDispatches
open SessionDispatchStore

structure WakePolicy where
  maxAttempts : ℕ := 3
  leaseMs : ℕ := 5 * 60000
  retryInitialMs : ℕ := 5000
  retryMaxMs : ℕ := 5 * 60000

section Policy
variable (parseInt : String → Option ℤ)

/-- `positiveInteger`; `parseInt` answers for numbers that are finite. -/
def positiveInteger (value : Option String) (fallback : ℕ) : ℕ :=
  match parseInt (value.getD "") with
  | none => fallback
  | some parsed => if 0 < parsed then parsed.toNat else fallback

def resolveDispatchInboxWakePolicy (env : String → Option String) : WakePolicy :=
  let read (key : String) := (env key).or (env ("WINGMAN_" ++ key))
  { maxAttempts := positiveInteger parseInt (read "DISPATCH_INBOX_WAKE_MAX_ATTEMPTS") 3
    leaseMs := positiveInteger parseInt (read "DISPATCH_INBOX_WAKE_LEASE_MS") (5 * 60000)
    retryInitialMs :=
      positiveInteger parseInt (read "DISPATCH_INBOX_WAKE_RETRY_INITIAL_MS") 5000
    retryMaxMs :=
      positiveInteger parseInt (read "DISPATCH_INBOX_WAKE_RETRY_MAX_MS") (5 * 60000) }

end Policy

/-- `DISPATCH_INBOX_WAKE_PROMPT` -/
def wakePrompt : String :=
  "You have unresolved supervised-dispatch callbacks.\n\nUse the session dispatch inbox tool to "
    ++ "read the current unresolved callbacks. Review each result and supporting evidence, take the "
    ++ "required reporting or follow-up action, then acknowledge and close the callbacks you have "
    ++ "handled. Do not assume a worker's completion claim is automatically accepted."

structure DispatchInboxWakeClaim where
  generation : ℕ
  callbackSessionId : String
  inboxFingerprint : String
  attemptCount : ℕ
  prompt : String := wakePrompt
  deriving DecidableEq, Repr

/-! ## the wake -/

section Wake
variable (policy : WakePolicy)

def leaseExpired (wake : CallbackWakeRecord) (now : ℕ) : Bool :=
  wake.leaseExpiresAt.any fun t => t ≤ now

def retryDelayMs (attempts : ℕ) : ℕ :=
  min (policy.retryInitialMs * 2 ^ (attempts - 1)) policy.retryMaxMs

/-- the wake for which a retry is waiting. -/
def CallbackWakeRecord.retrying (wake : CallbackWakeRecord) (error : String) (now : ℕ) :
    CallbackWakeRecord :=
  { wake with
    state := .pending, claimedAt := none, submittedAt := none, busyObservedAt := none
    leaseExpiresAt := none, nextRetryAt := some (now + retryDelayMs policy wake.attemptCount)
    lastError := some error, updatedAt := now }

/-- the wake that is not tried again. -/
def CallbackWakeRecord.blocking (wake : CallbackWakeRecord) (error : String) (now : ℕ) :
    CallbackWakeRecord :=
  { wake with
    state := .blocked, leaseExpiresAt := none, nextRetryAt := none, lastError := some error
    updatedAt := now }

/-- the wake with nothing outstanding. -/
def CallbackWakeRecord.cleared (wake : CallbackWakeRecord) (state : CallbackWakeState) (now : ℕ) :
    CallbackWakeRecord :=
  { wake with
    state, claimedAt := none, submittedAt := none, busyObservedAt := none, leaseExpiresAt := none
    nextRetryAt := none, lastError := none, updatedAt := now }

/-- `recordFailedAttempt` -/
def failedAttempt (wake : CallbackWakeRecord) (error : String) (now : ℕ) : CallbackWakeRecord :=
  if policy.maxAttempts ≤ wake.attemptCount then wake.blocking error now
  else wake.retrying policy error now

/-- `completeSubmittedTurn` -/
def completedTurn (wake : CallbackWakeRecord) (currentFingerprint : String) (now : ℕ) :
    CallbackWakeRecord :=
  if wake.inboxFingerprint ≠ currentFingerprint then
    { wake.cleared .pending now with inboxFingerprint := currentFingerprint, attemptCount := 0 }
  else if policy.maxAttempts ≤ wake.attemptCount then
    wake.blocking ("Inbox remained unchanged after " ++ toString wake.attemptCount ++ " wake turns")
      now
  else wake.retrying policy "Previous wake turn made no inbox progress" now

/-- the wake after an expired lease and an ended turn have been counted. -/
def settledWake (wake : CallbackWakeRecord) (fingerprint : String) (now : ℕ) : CallbackWakeRecord :=
  if wake.state = .claimed ∧ leaseExpired wake now then
    failedAttempt policy wake "Wake claim lease expired before submission" now
  else if wake.state = .submitted ∧ (wake.busyObservedAt ≠ none ∨ leaseExpired wake now) then
    completedTurn policy wake fingerprint now
  else wake

/-- `if (wake …) return null` before a claim. -/
def Waiting (wake : CallbackWakeRecord) (fingerprint : String) (now : ℕ) : Prop :=
  wake.state = .claimed ∨ wake.state = .submitted ∨
    wake.state = .blocked ∧ wake.inboxFingerprint = fingerprint ∨
    ∃ t ∈ wake.nextRetryAt, now < t

instance (wake : CallbackWakeRecord) (fingerprint : String) (now : ℕ) :
    Decidable (Waiting wake fingerprint now) := inferInstanceAs (Decidable (_ ∨ _ ∨ _ ∨ _))

end Wake

/-! ## the coordinator -/

namespace SessionDispatchStore
section Coordinator
variable (sha256 : String → String) (policy : WakePolicy)

def noteSessionBusy (db : SessionDispatchStore) (callbackSessionId : String) (now : ℕ) :
    SessionDispatchStore :=
  match db.getWake callbackSessionId with
  | none => db
  | some wake =>
    if wake.state ≠ .submitted ∨ wake.busyObservedAt ≠ none then db
    else db.saveWake { wake with busyObservedAt := some now }

/-- the claim that is handed out for a claimed wake. -/
def handOut (db : SessionDispatchStore) (callbackSessionId fingerprint : String) (now : ℕ) :
    Option DispatchInboxWakeClaim × SessionDispatchStore :=
  let (claimed, db) := db.claimWake callbackSessionId fingerprint now (now + policy.leaseMs)
  (claimed.map fun wake =>
    { generation := db.generation callbackSessionId, callbackSessionId
      inboxFingerprint := fingerprint, attemptCount := wake.attemptCount }, db)

def claimForStableSession (db : SessionDispatchStore) (callbackSessionId : String) (now : ℕ) :
    Option DispatchInboxWakeClaim × SessionDispatchStore :=
  match db.getInboxFingerprint sha256 callbackSessionId, db.getWake callbackSessionId with
  | none, none => (none, db)
  | none, some wake =>
    if wake.state = .resolved then (none, db) else (none, db.saveWake (wake.cleared .resolved now))
  | some fingerprint, none => db.handOut policy callbackSessionId fingerprint now
  | some fingerprint, some wake =>
    let settled := settledWake policy wake fingerprint now
    -- what was settled is saved, also when nothing is handed out
    let db := if settled = wake then db else db.saveWake settled
    if Waiting settled fingerprint now then (none, db)
    else db.handOut policy callbackSessionId fingerprint now

def reconcileHandledCallbacks (db : SessionDispatchStore) (callbackSessionId : String) (now : ℕ) :
    SessionDispatchStore :=
  match db.getWake callbackSessionId with
  | none => db
  | some wake =>
    match db.getInboxFingerprint sha256 callbackSessionId with
    | none => db.saveWake { wake.cleared .resolved now with attemptCount := 0 }
    | some fingerprint =>
      if fingerprint = wake.inboxFingerprint then db
      else db.saveWake
        { wake.cleared .pending now with inboxFingerprint := fingerprint, attemptCount := 0 }

/-- the wake that carries the fence of a claim, in one of some states. -/
def fenced (db : SessionDispatchStore) (claim : DispatchInboxWakeClaim)
    (states : List CallbackWakeState) : Option CallbackWakeRecord :=
  if claim.generation ≠ db.generation claim.callbackSessionId then none
  else (db.getWake claim.callbackSessionId).filter fun wake =>
    wake.state ∈ states ∧ wake.inboxFingerprint = claim.inboxFingerprint ∧
      wake.attemptCount = claim.attemptCount

def validateClaim (db : SessionDispatchStore) (claim : DispatchInboxWakeClaim) (now : ℕ) :
    Bool × SessionDispatchStore :=
  if claim.generation ≠ db.generation claim.callbackSessionId then (false, db)
  else
    let db := db.reconcileHandledCallbacks sha256 claim.callbackSessionId now
    ((db.fenced claim [.claimed]).any fun wake => !leaseExpired wake now, db)

def markDeliveryUncertain (db : SessionDispatchStore) (claim : DispatchInboxWakeClaim) (now : ℕ) :
    Except String Unit × SessionDispatchStore :=
  match db.validateClaim sha256 claim now with
  | (false, db) => (.error "Wake claim changed before delivery", db)
  | (true, db) =>
    match db.getWake claim.callbackSessionId with
    | none => (.ok (), db)
    | some wake => (.ok (), db.saveWake (wake.blocking
        "Delivery may have been accepted; inspect receiver before explicit retry" now))

def releaseRejectedDelivery (db : SessionDispatchStore) (claim : DispatchInboxWakeClaim) :
    SessionDispatchStore :=
  match db.fenced claim [.blocked] with
  | none => db
  | some wake => db.saveWake { wake with state := .claimed, lastError := none }

def markSubmitted (db : SessionDispatchStore) (claim : DispatchInboxWakeClaim) (now : ℕ) :
    SessionDispatchStore :=
  match db.fenced claim [.claimed, .blocked] with
  | none => db
  | some wake =>
    db.saveWake { wake with state := .submitted, submittedAt := some now, lastError := none }

def markSubmissionFailed (db : SessionDispatchStore) (claim : DispatchInboxWakeClaim)
    (error : String) (now : ℕ) : SessionDispatchStore :=
  match db.fenced claim [.claimed] with
  | none => db
  | some wake => db.saveWake (failedAttempt policy wake error now)

end Coordinator

/-! ## the service -/

section Service
variable (sha256 : String → String) (owner : String → Option (Option String))

/-- `get(id, callerSessionId)`; `owner` is the owner of a session that the manager knows. -/
def getOwned (db : SessionDispatchStore) (id callerSessionId : String) :
    Except String SessionDispatch :=
  match db.get id with
  | none => .error "Dispatch not found"
  | some record =>
    if callerSessionId = "" then .ok record
    else match owner callerSessionId with
      | none => .error ("Session not found: " ++ callerSessionId)
      | some callerOwner =>
        if callerOwner ≠ record.ownerNpub then .error "Dispatch belongs to another owner"
        else .ok record

/-- a call of the callback session on one of its dispatches. -/
def ofCallbackSession (db : SessionDispatchStore) (id callerSessionId refusal : String) :
    Except String SessionDispatch :=
  match db.getOwned owner id callerSessionId with
  | .error e => .error e
  | .ok record =>
    if record.callbackSessionId ≠ some callerSessionId then .error refusal else .ok record

/-- `capture`, after `record` was listed; the worker is closed afterwards. -/
def capture (db : SessionDispatchStore) (record : SessionDispatch) (status : TerminalStatus)
    (message createdAt : Option String) (now : ℕ) : SessionDispatchStore :=
  let fingerprint := sha256 (status.text ++ "\x00" ++ createdAt.getD "" ++ "\x00" ++
    message.getD "")
  if record.terminalFingerprint = some fingerprint then db
  else if record.callbackSessionId = none ∨ record.callbackSessionId = some "" then
    (db.update record.dispatchId (fun d => { d with
      state := .closed, terminalStatus := some status, terminalMessage := message
      terminalMessageCreatedAt := createdAt, terminalFingerprint := some fingerprint
      closedAt := some now }) now).2
  else
    (db.update record.dispatchId (fun d => { d with
      state := .callbackPending, terminalStatus := some status, terminalMessage := message
      terminalMessageCreatedAt := createdAt, terminalFingerprint := some fingerprint
      callbackPrompt := none, callbackNextAttemptAt := none, callbackExpiresAt := none
      lastError := none }) now).2

/-- what a dispatch whose prompt could not be queued, or a worker that could not be closed, leaves. -/
def noteError (db : SessionDispatchStore) (id message : String) (failed : Bool) (now : ℕ) :
    SessionDispatchStore :=
  (db.update id (fun d => { d with
    state := if failed then .failed else d.state, lastError := some message }) now).2

def acknowledge (db : SessionDispatchStore) (id callerSessionId : String) (now : ℕ) :
    Except String SessionDispatch × SessionDispatchStore :=
  match db.ofCallbackSession owner id callerSessionId
    "Only the callback session can acknowledge this dispatch" with
  | .error e => (.error e, db)
  | .ok record =>
    if record.state ≠ .callbackPending ∧ record.state ≠ .callbackDelivered ∧
        record.state ≠ .acknowledged then
      (.error ("Cannot acknowledge dispatch in " ++ record.state.text), db)
    else
      let (updated, db) := db.update id (fun d => { d with
        state := .acknowledged
        callbackAcknowledgedAt := record.callbackAcknowledgedAt.or (some now)
        callbackExpiresAt := none }) now
      (updated, db.reconcileHandledCallbacks sha256 callerSessionId now)

def close (db : SessionDispatchStore) (id callerSessionId : String) (now : ℕ) :
    Except String SessionDispatch × SessionDispatchStore :=
  match db.ofCallbackSession owner id callerSessionId
    "Only the callback session can close this dispatch" with
  | .error e => (.error e, db)
  | .ok record =>
    if record.state ≠ .acknowledged ∧ record.state ≠ .closed then
      (.error "A dispatch must be acknowledged before it is closed", db)
    else
      let (updated, db) := db.update id (fun d => { d with
        state := .closed, closedAt := record.closedAt.or (some now) }) now
      (updated, db.reconcileHandledCallbacks sha256 callerSessionId now)

def retryCallback (db : SessionDispatchStore) (id callerSessionId : String) (now : ℕ) :
    Except String SessionDispatch × SessionDispatchStore :=
  match db.ofCallbackSession owner id callerSessionId
    "Only the callback session can retry this dispatch" with
  | .error e => (.error e, db)
  | .ok record =>
    if record.terminalFingerprint = none ∨ record.terminalFingerprint = some "" then
      (.error "Dispatch has no terminal callback to retry", db)
    else db.update id (fun d => { d with
      state := .callbackPending, lastError := none, callbackAttemptCount := 0
      callbackNextAttemptAt := none, callbackExpiresAt := none, callbackQueuedAt := none
      callbackAcknowledgedAt := none, closedAt := none }) now

end Service
end SessionDispatchStore

end SessionDispatches
end WmAutopilot
