import WmAutopilot.AgentChat.DirectChatTurnStore
import WmAutopilot.Async.Pool

/-!
# The delivery of Agent Direct turns

`AgentDirectDeliveryReconciler` and the saves of `DirectChatRuntime` as programs over the operations
`DeliveryOp`: the statements of the store, the clock, and the calls of the session adapter, the
identity runner and Tower.

Every operation yields, so any number of reconcilers, of any number of processes, and the runtime
interleave statement by statement: what a program has read may be stale when it writes.  An
operation may throw (a busy database, a failing service); the clock may show any time, so leases
expire at any point.

* `processTurnNow`, `reconcileReply`, `publish`   the reconciler;
* `freezeOrResumeDirectChatReply`, `publishTurn`   the runtime's use of it; the runtime has a
                      reconciler, as `createDirectChatRuntimeServices` composes them;
* `NewTurn`, `RuntimeEdit`   the records that the runtime saves;
* `World`             the store, and every publish call that was made, with its turn;
* `system`            the programs that processes start; a crash reopens the store.
-/

set_option autoImplicit false
set_option linter.unusedVariables false

namespace WmAutopilot
namespace DirectChat
open Sql Async

/-! ## operations -/

structure DeliveryError where
  message : String
  /-- it is a `DirectChatPublicationObservationConflict`. -/
  conflict : Bool := false
  code : Option String := none
  integrityClass : Option String := none
  /-- `Number(error.status ?? 0)`; `none` for `NaN`. -/
  status : Option ℕ := some 0
  detailCode : Option String := none

/-- the text of a time that a session reports. -/
inductive ReplyTime where
  | blank
  | unreadable
  | time (t : ℕ)

structure Reply where
  content : String
  createdAt : ReplyTime

inductive SessionState where
  | active | stopped | missing
deriving DecidableEq

inductive PromptBoundary where
  | observed | missing | unavailable
deriving DecidableEq

structure AcceptedFinalInspection where
  reply : Option Reply
  sessionState : SessionState
  promptBoundary : Option PromptBoundary := none
  runtimeStable : Bool := false
  interrupted : Bool := false

structure AgentDirectDeliveryTransport where
  backendBaseUrl : String
  workspaceId : String
  appNpub : String

structure SessionMetadata where
  agentChatAgentId : Option String
  flightdeckAgentNpub : Option String
  flightdeckRoutingKey : Option String
  flightdeckWorkspaceId : Option String
  flightdeckChannelId : Option String
  flightdeckThreadId : Option String

/-- the request of `createFlightDeckPgChannelMessage`. -/
structure PublishCall where
  subscriptionId : Option String
  backendBaseUrl : String
  workspaceId : String
  channelId : Option String
  appNpub : String
  botNpub : String
  body : String
  threadId : String
  clientRequestId : String
  metadata : PublicationMetadata

/-- The operations.  `publish` names the turn that the call is made for; the times that statements
read themselves are not arguments. -/
inductive DeliveryOp where
  | park
  | now
  | jitter (base : ℕ)
  | randomUUID
  | get (turnId : String)
  | getPending (routingKey : String)
  | getInterruptedSessionTurn (sessionId routingKey : String)
  | upsert (record : DirectChatTurnRecord)
  | freeze (turnId body : String) (payload : DirectChatPublicationPayload) (hash : String)
      (time : ℕ)
  | claim (turnId owner : String) (now leaseMs : ℕ)
  | releaseAwaiting (turnId owner : String) (nextAttemptAt : ℕ) (error : Option TurnError)
  | markInterrupted (turnId : String) (error : TurnError) (time : ℕ)
  | markFailed (turnId : String) (error : TurnError) (time : ℕ) (owner : Option String)
  | markRetry (turnId owner : String) (nextAttemptAt : ℕ) (error : TurnError) (blockedAuth : Bool)
  | markPublished (turnId owner messageId : String) (time : ℕ)
  | markSuppressed (turnId owner : String) (time : ℕ)
  | markIntegrityHalt (turnId : String) (error : TurnError) (time : ℕ) (owner : Option String)
  | releaseForeignLeases (ownerPrefix : String) (time : ℕ)
  | rebindAcceptedSession (turnId sourceId targetId : String)
  | retireForFreshHumanTrigger (sessionId triggerId routingKey : String)
      (snapshot : Option (List String))
  | reopen (intercepts : Option (List InterceptBinding))
      (subscriptions : Option (List SubscriptionBinding))
  | inspectAcceptedFinalResponse (record : DirectChatTurnRecord)
  | readArchivedFinal (record : DirectChatTurnRecord)
  | enrichmentAccepted (turnId : String) (sessionId : Option String)
  | getSession (sessionId : String)
  | evaluate (record : DirectChatTurnRecord)
  | resolveTransport (record : DirectChatTurnRecord)
  | withProfileIdentity (record : DirectChatTurnRecord)
  | reconcileActivity (record : DirectChatTurnRecord)
  | publish (turnId : String) (call : PublishCall)
  | terminalizeActivity (record : DirectChatTurnRecord)
  | recordPublished (record : DirectChatTurnRecord) (publishedAt : ℕ) (messageId : String)
  | recordSessionRecovered (record : DirectChatTurnRecord) (recordId messageId : String)
  | preserveContinuityForReplay (record : DirectChatTurnRecord) (undelivered : Bool)
  | markInterceptInterrupted (record : DirectChatTurnRecord)
  | completeIntercept (record : Option DirectChatTurnRecord) (suppressed : Bool)

/-- what an operation answers when it does not throw. -/
def DeliveryOp.Result : DeliveryOp → Type
  | now | jitter _ => ℕ
  | randomUUID => String
  | get _ | getPending _ | getInterruptedSessionTurn _ _ | claim _ _ _ _ | markPublished _ _ _ _
  | rebindAcceptedSession _ _ _ => Option DirectChatTurnRecord
  | inspectAcceptedFinalResponse _ => AcceptedFinalInspection
  | readArchivedFinal _ => Option Reply
  | getSession _ => Option (Option SessionMetadata)
  | evaluate _ => Bool
  | resolveTransport _ => Option AgentDirectDeliveryTransport
  | withProfileIdentity _ => String
  | publish _ _ => Option String
  | _ => Unit

/-- The operations as an interface; all of them yield. -/
def api : Api := ⟨DeliveryOp, fun o => Except DeliveryError o.Result, fun _ => true⟩

/-- programs of reconcilers and of the runtime. -/
abbrev Delivery (α : Type) := Exc api DeliveryError α

def op (o : DeliveryOp) : Delivery o.Result := Exc.tryOp (A := api) o rfl

/-- The turn and the owner that a statement is fenced with: it asks that the owner leases the
turn. -/
def DeliveryOp.fence : DeliveryOp → Option (String × String)
  | releaseAwaiting turnId owner _ _ | markRetry turnId owner _ _ _ | markPublished turnId owner _ _
  | markSuppressed turnId owner _ => some (turnId, owner)
  | markFailed turnId _ _ owner | markIntegrityHalt turnId _ _ owner =>
    (DirectChatTurnStore.givenOwner owner).map fun o => (turnId, o)
  | _ => none

/-! ## saving and freezing -/

/-- `return this.get(turnId)!` -/
def reread (turnId : String) : Delivery DirectChatTurnRecord := do
  let found : Option DirectChatTurnRecord ← op (.get turnId)
  match found with
  | some record => return record
  | none => throw { message := "null is not an object" }

def save (record : DirectChatTurnRecord) : Delivery DirectChatTurnRecord := do
  let _ ← op (.upsert record)
  reread record.turnId

section Hash
variable (sha256 : String → String)

/-- `buildDirectChatPublicationPayload`, which throws without a thread or an agent. -/
def buildPayload (record : DirectChatTurnRecord) (body : String) :
    Delivery DirectChatPublicationPayload :=
  match buildDirectChatPublicationPayload record body with
  | some payload => pure payload
  | none => throw
      { message := "Agent Direct delivery " ++ record.turnId ++
          " lacks immutable thread/agent binding." }

def freezeReply (turnId body : String) (time : ReplyTime) : Delivery DirectChatTurnRecord :=
  match time with
  | .time t => do
    let found : Option DirectChatTurnRecord ← op (.get turnId)
    match found with
    | none => throw { message := "Unknown Agent Direct delivery " ++ turnId ++ "." }
    | some current => do
      let payload ← buildPayload current body
      let hash := directChatPublicationPayloadHash sha256 payload
      -- a competing observation is not a failed delivery
      if truthy current.payloadHash ∧ current.payloadHash ≠ some hash then
        throw
          { message := "Agent Direct delivery " ++ turnId ++ " publication payload is immutable."
            conflict := true }
      else if current.publicationPayload ≠ none ∧ truthy current.payloadHash then return current
      else do
        let _ ← op (.freeze turnId body payload hash t)
        reread turnId
  | .blank | .unreadable => throw { message := "Invalid Date" }

/-- `directChatPublicationIntegrityError`: a message when the frozen publication is not that of the
record any more. -/
def directChatPublicationIntegrityError (record : DirectChatTurnRecord) :
    Delivery (Option String) :=
  match record.publicationPayload, record.payloadHash with
  | some payload, some hash => do
    if hash = "" then return some "Frozen publication payload or hash is missing."
    else if directChatPublicationPayloadHash sha256 payload ≠ hash then
      return some "Frozen publication no longer matches its saved payload hash."
    else do
      let rebuilt ← buildPayload record payload.body
      if directChatPublicationPayloadHash sha256 rebuilt ≠ hash then
        return some ("Frozen publication no longer matches its saved session, source messages, "
          ++ "thread, or agent binding.")
      else return none
  | _, _ => return some "Frozen publication payload or hash is missing."

/-- The saved request is resumed; a later observation of the transcript does not replace it. -/
def freezeOrResumeDirectChatReply (turnId body : String) (candidateAt : Option ReplyTime) :
    Delivery DirectChatTurnRecord := do
  let now ← op .now
  tryCatch (freezeReply sha256 turnId body (candidateAt.getD (.time now))) fun error =>
    if error.conflict = false then throw error
    else do
      let found : Option DirectChatTurnRecord ← op (.get turnId)
      match found with
      | none => throw error
      | some current =>
        if current.publicationPayload = none ∨
            current.publicationPayload.map (·.body) = some body then
          throw error
        else do
          let integrityError ← directChatPublicationIntegrityError sha256 current
          match integrityError with
          | some message => do
            let time ← op .now
            let _ ← op (.markIntegrityHalt turnId
              ⟨message, "immutable_payload_mismatch"⟩ time none)
            throw error
          | none => return current

/-! ## status messages -/

def isDirectChatStatus (record : DirectChatTurnRecord) : Bool :=
  record.promptType = some "direct_chat_status"

inductive StatusKind where
  | interrupted | recovery

/-- the suffix of its turn id, and its body. -/
def StatusKind.texts : StatusKind → String × String
  | interrupted => ("interrupted",
      "Work was interrupted before a verified final response. The accepted context was retained "
        ++ "without automatic resubmission. Completion and any dispatched worker results require "
        ++ "independent verification.")
  | recovery => ("recovery",
      "The session has been replaced for recovery. Existing supervised workers and their callbacks "
        ++ "remain owned by the replacement session; this is not a completion report.")

/-- the turn of a status message. -/
def statusTurn (turn : DirectChatTurnRecord) (kind : StatusKind) (time : ℕ) :
    DirectChatTurnRecord :=
  { turn with
    turnId := turn.turnId ++ ":status:" ++ kind.texts.1
    clientRequestId := turn.clientRequestId ++ ":status:" ++ kind.texts.1
    promptType := some "direct_chat_status", state := .replyReady, replyBody := some kind.texts.2
    publicationPayload := none, payloadHash := none, publishedMessageId := none
    publishedAt := none, createdAt := time, updatedAt := time, replyReadyAt := some time
    nextAttemptAt := some time, leaseOwner := none, leaseExpiresAt := none, attemptCount := 0
    lastError := none, lastErrorClass := none }

def queueDirectChatStatus (turn : DirectChatTurnRecord) (kind : StatusKind) (time : ℕ) :
    Delivery DirectChatTurnRecord := do
  let found : Option DirectChatTurnRecord ← op (.get (statusTurn turn kind time).turnId)
  match found with
  | some existing => return existing
  | none => save (statusTurn turn kind time)

/-- `notifyStatus`; the reconciliation of the turn that it asks for may start at any time. -/
def notifyStatus (record : DirectChatTurnRecord) (kind : StatusKind) :
    Delivery DirectChatTurnRecord := do
  let now ← op .now
  queueDirectChatStatus record kind now

end Hash

/-! ## the reconciler -/

/-- the options of a reconciler. -/
structure ReconcilerOptions where
  instanceId : String
  activeIntervalMs : ℕ := 2000
  unavailableIntervalMs : ℕ := 30000
  leaseMs : ℕ := 30000
  promptReceiptTimeoutMs : ℕ := 300000

def ReconcilerOptions.runtimeLeaseOwner (options : ReconcilerOptions) : String :=
  options.instanceId ++ ":runtime"

def hasBinding (record : DirectChatTurnRecord) : Bool :=
  truthy record.subscriptionId && truthy record.backendBaseUrl && truthy record.workspaceId &&
    truthy record.sourceAppNpub && truthy record.channelId && truthy record.threadId &&
    truthy record.agentId && truthy record.agentNpub && truthy record.towerServiceNpub

def buildDirectChatRoutingKey (towerServiceNpub workspaceId channelId threadId agentNpub : String) :
    String :=
  ":".intercalate
    ["agent-direct", "v1", towerServiceNpub, workspaceId, channelId, threadId, agentNpub]

/-- `this.after(ms)` -/
def after (ms : ℕ) : Delivery ℕ := do
  let now : ℕ ← op .now
  return now + ms

/-- the delay before the next attempt; `jitter` is what the random factor makes of the base. -/
def retryDelay (attempt : ℕ) : Delivery ℕ :=
  op (.jitter (min (5 * 60000) (1000 * 2 ^ min 8 (attempt - 1))))

/-- `markIntegrityHalt` of the claimed turn, and the row after it. -/
def halt (record : DirectChatTurnRecord) (owner : String) (error : TurnError) :
    Delivery (Option DirectChatTurnRecord) := do
  let now ← op .now
  let _ ← op (.markIntegrityHalt record.turnId error now (some owner))
  op (.get record.turnId)

/-- `markRetry` of the claimed turn after `ms`, and the row after it. -/
def retry (record : DirectChatTurnRecord) (owner : String) (ms : ℕ) (error : TurnError)
    (blockedAuth : Bool) : Delivery (Option DirectChatTurnRecord) := do
  let nextAttemptAt ← after ms
  let _ ← op (.markRetry record.turnId owner nextAttemptAt error blockedAuth)
  op (.get record.turnId)

/-- `markFailed` of the claimed turn. -/
def fail (record : DirectChatTurnRecord) (owner : String) (error : TurnError) : Delivery Unit := do
  let now ← op .now
  op (.markFailed record.turnId error now (some owner))

/-- the metadata of a live session binds the turn. -/
def SessionMetadata.Binds (metadata : SessionMetadata) (record : DirectChatTurnRecord) : Prop :=
  metadata.agentChatAgentId = record.agentId ∧ metadata.flightdeckAgentNpub = record.agentNpub ∧
    metadata.flightdeckRoutingKey = some record.routingKey ∧
    metadata.flightdeckWorkspaceId = record.workspaceId ∧
    metadata.flightdeckChannelId = record.channelId ∧
    metadata.flightdeckThreadId = record.threadId

instance (metadata : SessionMetadata) (record : DirectChatTurnRecord) :
    Decidable (metadata.Binds record) := by unfold SessionMetadata.Binds; infer_instance

/-- the session of the turn is asked for; the answer is its metadata. -/
def liveSession (record : DirectChatTurnRecord) : Delivery (Option (Option SessionMetadata)) :=
  match record.sessionId with
  | some sessionId => if sessionId = "" then pure none else op (.getSession sessionId)
  | none => pure none

section Hash
variable (sha256 : String → String) (options : ReconcilerOptions)

def validateBinding (record : DirectChatTurnRecord) : Delivery (Option TurnError) := do
  let publicationError ← directChatPublicationIntegrityError sha256 record
  match publicationError with
  | some message => return some ⟨message, "immutable_payload_mismatch"⟩
  | none => do
    let expectedRoutingKey := buildDirectChatRoutingKey (record.towerServiceNpub.getD "null")
      (record.workspaceId.getD "null") (record.channelId.getD "null")
      (record.threadId.getD "null") (record.agentNpub.getD "null")
    if expectedRoutingKey ≠ record.routingKey then
      return some ⟨"Saved Agent Direct routing key does not match its immutable workspace, "
        ++ "channel, thread, and agent binding.", "routing_binding_mismatch"⟩
    else do
      let session ← liveSession record
      match session with
      | none => return none
      | some metadata =>
        if ∃ m ∈ metadata, m.Binds record then return none
        else
          return some ⟨"Live session metadata does not match the saved Agent Direct turn "
            ++ "binding.", "session_turn_binding_mismatch"⟩

/-- the operation that `publish` runs with the identity of the agent; without a message id when the
turn was retired meanwhile. -/
def publishWithIdentity (record : DirectChatTurnRecord) (transport : AgentDirectDeliveryTransport)
    (payload : DirectChatPublicationPayload) : Delivery (Option String) := do
  let botNpub : String ← op (.withProfileIdentity record)
  if some botNpub ≠ record.agentNpub then
    throw
      { message := "Resolved profile vault identity does not match the saved Agent Direct turn."
        integrityClass := some "profile_vault_identity_mismatch" }
  else do
    let _ ← (if isDirectChatStatus record then pure () else op (.reconcileActivity record) :
      Delivery Unit)
    let latest : Option DirectChatTurnRecord ← op (.get record.turnId)
    if latest.bind (·.lastErrorClass) = some "fresh_human_supersession" then return none
    else op (.publish record.turnId
      { subscriptionId := record.subscriptionId, backendBaseUrl := transport.backendBaseUrl
        workspaceId := transport.workspaceId, channelId := record.channelId
        appNpub := transport.appNpub, botNpub, body := payload.body, threadId := payload.threadId
        clientRequestId := record.clientRequestId, metadata := payload.metadata })

/-- the outcomes of the dispatches that the published turn answers. -/
def recordRecovered (record : DirectChatTurnRecord) (messageId : String) :
    List String → Delivery Unit
  | [] => pure ()
  | recordId :: rest => do
    let _ ← op (.recordSessionRecovered record recordId messageId)
    recordRecovered record messageId rest

/-- what follows when the turn is marked as published. -/
def afterPublished (record published : DirectChatTurnRecord) (messageId : String)
    (publishedAt : ℕ) : Delivery (Option DirectChatTurnRecord) := do
  let _ ← op (.withProfileIdentity published)
  let _ ← (if isDirectChatStatus published then pure () else op (.terminalizeActivity published) :
    Delivery Unit)
  let _ ← (if isDirectChatStatus record then pure ()
    else op (.recordPublished record publishedAt messageId) : Delivery Unit)
  let _ ← (if isDirectChatStatus record = false ∧ truthy record.subscriptionId ∧
      truthy record.agentId ∧ truthy record.sessionId then
      recordRecovered record messageId record.sourceMessageIds
    else pure () : Delivery Unit)
  let _ ← op (.completeIntercept (some published) false)
  return some published

/-- the body of the `try` of `publish`. -/
def sendPublication (record : DirectChatTurnRecord) (owner : String)
    (transport : AgentDirectDeliveryTransport) (payload : DirectChatPublicationPayload) :
    Delivery (Option DirectChatTurnRecord) := do
  let result ← publishWithIdentity record transport payload
  match result.filter (· ≠ "") with
  | none =>
    throw
      { message := "Tower accepted Agent Direct publication without returning a message id."
        status := some 502 }
  | some messageId => do
    let publishedAt : ℕ ← op .now
    let published : Option DirectChatTurnRecord ←
      op (.markPublished record.turnId owner messageId publishedAt)
    match published with
    | none => op (.get record.turnId)
    | some published => afterPublished record published messageId publishedAt

/-- the `catch` of `publish`. -/
def publicationFailed (record : DirectChatTurnRecord) (owner : String) (error : DeliveryError) :
    Delivery (Option DirectChatTurnRecord) :=
  if error.code = some "broker_key_not_provisioned" then
    retry record owner options.unavailableIntervalMs
      ⟨error.message, "broker_key_not_provisioned"⟩ true
  else if error.code = some "broker_key_identity_mismatch" then
    halt record owner ⟨error.message, "broker_key_identity_mismatch"⟩
  else if truthy error.integrityClass then
    halt record owner ⟨error.message, error.integrityClass.getD ""⟩
  else if error.status = some 409 ∨ error.detailCode = some "idempotency_conflict" then
    halt record owner
      ⟨"Tower has the same client_request_id with a materially different payload: "
        ++ error.message, "idempotency_payload_conflict"⟩
  else if error.status = some 403 ∧ error.detailCode = some "agent_notification_upgrade_required"
  then
    halt record owner ⟨error.message, "tower_notification_ceiling"⟩
  else
    match error.status with
    | some status =>
      if status = 401 ∨ status = 403 then
        retry record owner options.unavailableIntervalMs
          ⟨error.message, "tower_auth_" ++ toString status⟩ true
      else if status = 0 ∨ status = 408 ∨ status = 429 ∨ 500 ≤ status then do
        let delay ← retryDelay record.attemptCount
        retry record owner delay
          ⟨error.message, if status = 0 then "tower_network" else "tower_" ++ toString status⟩
          false
      else halt record owner ⟨error.message, "tower_" ++ toString status⟩
    | none => halt record owner ⟨error.message, "tower_publication_error"⟩

def publish (record : DirectChatTurnRecord) (owner : String) :
    Delivery (Option DirectChatTurnRecord) := do
  let bindingError ← validateBinding sha256 record
  match bindingError with
  | some error => halt record owner error
  | none => do
    let suppress ← (if isDirectChatStatus record then pure false else op (.evaluate record) :
      Delivery Bool)
    if suppress then do
      let now : ℕ ← op .now
      let _ ← op (.markSuppressed record.turnId owner now)
      let suppressed : Option DirectChatTurnRecord ← op (.get record.turnId)
      let _ ← op (.completeIntercept suppressed true)
      return suppressed
    else do
      let transport : Option AgentDirectDeliveryTransport ← op (.resolveTransport record)
      match transport with
      | none =>
        retry record owner options.unavailableIntervalMs
          ⟨"Agent Direct subscription transport binding is unavailable or no longer matches the "
            ++ "saved turn.", "transport_binding_unavailable"⟩ true
      | some transport => do
        let payload ← (match record.publicationPayload with
          | some payload => pure payload
          | none => buildPayload record (record.replyBody.getD "") :
            Delivery DirectChatPublicationPayload)
        tryCatch (sendPublication record owner transport payload)
          (publicationFailed options record owner)

/-! ### awaiting a reply -/

/-- the claimed turn has no reply: it failed, was interrupted, or is looked at again later.
`process` reconciles another turn. -/
def noReply (process : String → Delivery (Option DirectChatTurnRecord))
    (record : DirectChatTurnRecord) (owner : String) (inspection : AcceptedFinalInspection) :
    Delivery (Option DirectChatTurnRecord) := do
  let now : ℕ ← op .now
  if inspection.promptBoundary = some .missing ∧ inspection.runtimeStable ∧
      record.acceptedAt.getD record.createdAt + options.promptReceiptTimeoutMs ≤ now then do
    let _ ← fail record owner
      ⟨"The idle agent transcript has no matching prompt; return the input to pending delivery.",
        "prompt_not_received"⟩
    let _ ← op (.preserveContinuityForReplay record true)
    op (.get record.turnId)
  else if inspection.sessionState ≠ .active then do
    let state := if inspection.sessionState = .stopped then "stopped" else "missing"
    let notification ← notifyStatus record .interrupted
    let _ ← fail record owner
      ⟨"Accepted Agent Direct session is " ++ state
        ++ " and has no authoritative final response.", "session_" ++ state⟩
    let _ ← op (.preserveContinuityForReplay record false)
    let _ ← process notification.turnId
    op (.get record.turnId)
  else do
    let latest : Option DirectChatTurnRecord ← op (.get record.turnId)
    let interrupted : Bool := inspection.interrupted && inspection.runtimeStable ||
      latest.bind (·.lastErrorClass) = some "accepted_turn_interrupted"
    let _ ← (if interrupted then do
        let _ ← notifyStatus record .interrupted
        op (.markInterceptInterrupted record)
      else pure () : Delivery Unit)
    let nextAttemptAt ← after options.activeIntervalMs
    let _ ← op (.releaseAwaiting record.turnId owner nextAttemptAt
      (if interrupted then
        some ⟨record.lastError.getD ("Accepted Agent Direct turn ended with an interruption "
          ++ "before a verified final response."), "accepted_turn_interrupted"⟩
      else none))
    op (.get record.turnId)

/-- the claimed turn has a reply: it is frozen, unless the runtime froze one meanwhile. -/
def resumeReply (process : String → Delivery (Option DirectChatTurnRecord))
    (record : DirectChatTurnRecord) (owner : String) (reply : Reply) :
    Delivery (Option DirectChatTurnRecord) := do
  let now : ℕ ← op .now
  let _ ← op (.releaseAwaiting record.turnId owner now none)
  let latest : Option DirectChatTurnRecord ← op (.get record.turnId)
  let _ ← (if latest.bind (·.publicationPayload) = none then do
      let time : ℕ ← op .now
      let createdAt := match reply.createdAt with
        | .blank => .time time
        | createdAt => createdAt
      let _ ← freezeReply sha256 record.turnId reply.content createdAt
      pure ()
    else pure () : Delivery Unit)
  process record.turnId

def reconcileReply (process : String → Delivery (Option DirectChatTurnRecord))
    (record : DirectChatTurnRecord) (owner : String) : Delivery (Option DirectChatTurnRecord) := do
  if truthy record.sessionId = false then do
    let _ ← fail record owner
      ⟨"Accepted Agent Direct turn has no saved session response source.",
        "session_evidence_missing"⟩
    op (.get record.turnId)
  else do
    let inspection : AcceptedFinalInspection ← op (.inspectAcceptedFinalResponse record)
    let latest : Option DirectChatTurnRecord ← op (.get record.turnId)
    if latest.bind (·.lastErrorClass) = some "fresh_human_supersession" then
      op (.get record.turnId)
    else do
      let _ ← (if inspection.promptBoundary = some .observed then
          op (.enrichmentAccepted record.turnId record.sessionId)
        else pure () : Delivery Unit)
      let reply ← (match inspection.reply with
        | some reply => pure (some reply)
        | none =>
          if inspection.sessionState ≠ .active then op (.readArchivedFinal record)
          else pure none :
        Delivery (Option Reply))
      match reply with
      | none => noReply options process record owner inspection
      | some reply => resumeReply sha256 process record owner reply

/-! ### one turn -/

/-- a reply that is known but not frozen is frozen; `false` when that throws. -/
def freezeKnownReply (current : DirectChatTurnRecord) : Delivery Bool :=
  if truthy current.replyBody ∧
      (current.publicationPayload = none ∨ truthy current.payloadHash = false) then
    tryCatch (do
      let time : ℕ ← op .now
      let _ ← freezeReply sha256 current.turnId (current.replyBody.getD "") (.time time)
      return true) fun _ => return false
  else pure true

/-- `handleUnexpected`, and the row after it. -/
def handleUnexpected (record : DirectChatTurnRecord) (owner : String) (error : DeliveryError) :
    Delivery (Option DirectChatTurnRecord) := do
  let delay ← retryDelay record.attemptCount
  retry record owner delay ⟨error.message, "reconciler_error"⟩ false

/-- `processTurnNow`, for at most `fuel` turns that wait for each other. -/
def processTurnNow : ℕ → String → Delivery (Option DirectChatTurnRecord)
  | 0, _ => do
    let _ ← op .park
    throw { message := "out of fuel" }
  | fuel + 1, turnId => do
    let found : Option DirectChatTurnRecord ← op (.get turnId)
    match found with
    | none => return none
    | some current =>
      if current.state.Terminal then return some current
      else if hasBinding current = false then do
        let now : ℕ ← op .now
        let _ ← op (.markIntegrityHalt turnId
          ⟨"Agent Direct delivery lacks immutable subscription/workspace/channel/thread/agent "
            ++ "binding.", "missing_immutable_binding"⟩ now none)
        op (.get turnId)
      else do
        let known ← freezeKnownReply sha256 current
        if known = false then op (.get turnId)
        else do
          let now : ℕ ← op .now
          let uuid : String ← op .randomUUID
          let owner := options.instanceId ++ ":delivery:" ++ uuid
          let claimed : Option DirectChatTurnRecord ←
            op (.claim turnId owner now options.leaseMs)
          match claimed with
          | none => op (.get turnId)
          | some claimed =>
            tryCatch (
              if claimed.publicationPayload = none then
                reconcileReply sha256 options (processTurnNow fuel) claimed owner
              else publish sha256 options claimed owner) (handleUnexpected claimed owner)

/-- `start`: the leases of other instances are given up. -/
def start : Delivery Unit := do
  let now : ℕ ← op .now
  op (.releaseForeignLeases options.instanceId now)

/-! ## the runtime -/

/-- A turn as the runtime saves it first: accepted, with its prompt accepted by a session, or known
by its reply only.  It has no reply, no publication and no published message. -/
structure NewTurn where
  turnId : String
  routingKey : String
  sourceMessageIds : List String
  clientRequestId : String
  awaiting : Bool
  createdAt : ℕ
  updatedAt : ℕ
  subscriptionId : Option String
  backendBaseUrl : Option String
  towerServiceNpub : Option String
  workspaceId : Option String
  sourceAppNpub : Option String
  channelId : Option String
  threadId : Option String
  agentId : Option String
  agentNpub : Option String
  sessionId : Option String := none
  prompt : Option String := none
  triggerMessageId : Option String := none
  receivedAt : Option ℕ := none
  acceptedAt : Option ℕ := none
  nextAttemptAt : Option ℕ := none
  leaseOwner : Option String := none
  leaseExpiresAt : Option ℕ := none

def NewTurn.record (t : NewTurn) : DirectChatTurnRecord :=
  { turnId := t.turnId, routingKey := t.routingKey, sourceMessageIds := t.sourceMessageIds
    clientRequestId := t.clientRequestId, replyBody := none, publishedMessageId := none
    state := if t.awaiting then .awaitingReply else .accepted
    createdAt := t.createdAt, updatedAt := t.updatedAt, subscriptionId := t.subscriptionId
    backendBaseUrl := t.backendBaseUrl, towerServiceNpub := t.towerServiceNpub
    workspaceId := t.workspaceId, sourceAppNpub := t.sourceAppNpub, channelId := t.channelId
    threadId := t.threadId, agentId := t.agentId, agentNpub := t.agentNpub
    sessionId := t.sessionId, prompt := t.prompt, promptType := some "direct_chat"
    triggerMessageId := t.triggerMessageId, receivedAt := t.receivedAt, acceptedAt := t.acceptedAt
    nextAttemptAt := t.nextAttemptAt, leaseOwner := t.leaseOwner
    leaseExpiresAt := t.leaseExpiresAt }

/-- what the runtime changes of a record it has read, before it saves it. -/
inductive RuntimeEdit where
  /-- a pending turn without a session is given up. -/
  | orphan
  /-- a pending turn is taken up again, with the bindings of its intercept. -/
  | recover (binding : NewTurn)
  | session (sessionId : String)
  /-- a recovery prompt is about to be sent. -/
  | bootstrap (sessionId prompt : String)
  /-- a session accepted it. -/
  | accepted
  /-- the intended prompt, before it is sent. -/
  | intend (sessionId prompt : String) (leaseExpiresAt : Option ℕ)

def RuntimeEdit.apply (now : ℕ) (r : DirectChatTurnRecord) : RuntimeEdit → DirectChatTurnRecord
  | orphan =>
    { r with
      state := .failed, nextAttemptAt := none, leaseOwner := none, leaseExpiresAt := none
      lastError := some (r.lastError.getD
        "Agent Direct turn has no bound session and must be recreated.")
      lastErrorClass := some (r.lastErrorClass.getD "session_evidence_missing"), updatedAt := now }
  | recover b =>
    { r with
      sourceMessageIds := b.sourceMessageIds, subscriptionId := b.subscriptionId
      backendBaseUrl := b.backendBaseUrl, towerServiceNpub := b.towerServiceNpub
      workspaceId := b.workspaceId, sourceAppNpub := b.sourceAppNpub, channelId := b.channelId
      threadId := b.threadId, agentId := b.agentId, agentNpub := b.agentNpub
      sessionId := b.sessionId, updatedAt := now }
  | session sessionId => { r with sessionId := some sessionId, updatedAt := now }
  | bootstrap sessionId prompt =>
    { r with
      sessionId := some sessionId, prompt := some prompt, state := .accepted, updatedAt := now }
  | accepted => { r with state := .awaitingReply, acceptedAt := some now, updatedAt := now }
  | intend sessionId prompt leaseExpiresAt =>
    { r with
      sessionId := some sessionId, prompt := some prompt, leaseExpiresAt := leaseExpiresAt
      updatedAt := now }

/-- a record that was read, with an edit. -/
def saveEdited (found : Option DirectChatTurnRecord) (edit : RuntimeEdit) :
    Delivery DirectChatTurnRecord :=
  match found with
  | none => throw { message := "null is not an object" }
  | some record => do
    let now : ℕ ← op .now
    save (edit.apply now record)

def editTurn (turnId : String) (edit : RuntimeEdit) : Delivery DirectChatTurnRecord := do
  let found : Option DirectChatTurnRecord ← op (.get turnId)
  saveEdited found edit

def editPending (routingKey : String) (edit : RuntimeEdit) : Delivery DirectChatTurnRecord := do
  let found : Option DirectChatTurnRecord ← op (.getPending routingKey)
  saveEdited found edit

/-- `publishTurn`: a known reply is frozen and published by the reconciler. -/
def publishTurn (fuel : ℕ) (turn : NewTurn) (body : String) (candidateAt : Option ReplyTime) :
    Delivery Bool := do
  let found : Option DirectChatTurnRecord ← op (.get turn.turnId)
  let record ← (match found with
    | some record => pure record
    | none => save turn.record : Delivery DirectChatTurnRecord)
  if record.lastErrorClass = some "fresh_human_supersession" then return false
  else do
    let frozen ← freezeOrResumeDirectChatReply sha256 turn.turnId body candidateAt
    let processed ← processTurnNow sha256 options fuel turn.turnId
    let record := processed.getD frozen
    if record.state = .failed ∨ record.state = .integrityHalt then
      throw { message := record.lastError.getD ("Agent Direct delivery " ++ turn.turnId
        ++ " failed.") }
    else
      return record.state = .published ∧ truthy record.publishedMessageId ∨
        record.state = .suppressed

/-- the recovery of a native session: an accepted turn of the old session is bound to the new
one. -/
def rebindNativeDirectChatRecovery (routingKey sourceId targetId : String) : Delivery Unit := do
  let pending : Option DirectChatTurnRecord ← op (.getPending routingKey)
  let turn ← (if pending.bind (·.sessionId) = some sourceId then pure pending
    else op (.getInterruptedSessionTurn sourceId routingKey) :
    Delivery (Option DirectChatTurnRecord))
  match turn with
  | none => return ()
  | some turn =>
    if turn.sessionId = some sourceId ∧ turn.publicationPayload = none then do
      let rebound : Option DirectChatTurnRecord ←
        op (.rebindAcceptedSession turn.turnId sourceId targetId)
      match rebound with
      | none => return ()
      | some rebound => do
        let _ ← notifyStatus rebound .recovery
        return ()
    else return ()

end Hash

/-! ## the world -/

/-- The store, and the publish calls that were made, each with the turn it was made for. -/
structure World where
  db : DirectChatTurnStore := {}
  calls : List (String × PublishCall) := []

/-- the world after a statement. -/
def World.stored (w : World) (db : DirectChatTurnStore) : World := { w with db }

/-- the world once an operation was called: a publish call is made also when it then fails. -/
def World.called (w : World) : DeliveryOp → World
  | .publish turnId call => { w with calls := w.calls ++ [(turnId, call)] }
  | _ => w

/-- What an operation that does not throw does: world before, answer, world after. -/
def effect : (o : DeliveryOp) → World → o.Result → World → Prop
  | .park, _, _, _ => False
  | .jitter base, w, r, w' => let delay : ℕ := r
    3 * base ≤ 4 * delay ∧ 4 * delay ≤ 5 * base ∧ w' = w
  | .get turnId, w, r, w' => r = w.db.get turnId ∧ w' = w
  | .getPending routingKey, w, r, w' => r = w.db.getPending routingKey ∧ w' = w
  | .getInterruptedSessionTurn sessionId routingKey, w, r, w' =>
    r = w.db.getInterruptedSessionTurn sessionId routingKey ∧ w' = w
  | .upsert record, w, _, w' => ∃ db, w.db.upsert record = some db ∧ w' = w.stored db
  | .freeze turnId body payload hash time, w, _, w' =>
    w' = w.stored (w.db.freeze turnId body payload hash time)
  | .claim turnId owner now leaseMs, w, r, w' => let x := w.db.claim turnId owner now leaseMs
    r = x.1 ∧ w' = w.stored x.2
  | .releaseAwaiting turnId owner nextAttemptAt error, w, _, w' => ∃ now,
    w' = w.stored (w.db.releaseAwaiting turnId owner nextAttemptAt error now)
  | .markInterrupted turnId error time, w, _, w' =>
    w' = w.stored (w.db.markInterrupted turnId error time)
  | .markFailed turnId error time owner, w, _, w' =>
    w' = w.stored (w.db.markFailed turnId error time owner)
  | .markRetry turnId owner nextAttemptAt error blockedAuth, w, _, w' => ∃ now,
    w' = w.stored (w.db.markRetry turnId owner nextAttemptAt error blockedAuth now)
  | .markPublished turnId owner messageId time, w, r, w' =>
    let x := w.db.markPublished turnId owner messageId time
    r = x.1 ∧ w' = w.stored x.2
  | .markSuppressed turnId owner time, w, _, w' =>
    w' = w.stored (w.db.markSuppressed turnId owner time)
  | .markIntegrityHalt turnId error time owner, w, _, w' =>
    w' = w.stored (w.db.markIntegrityHalt turnId error time owner)
  | .releaseForeignLeases ownerPrefix time, w, _, w' =>
    w' = w.stored (w.db.releaseForeignLeases ownerPrefix time)
  | .rebindAcceptedSession turnId sourceId targetId, w, r, w' => ∃ now,
    let x := w.db.rebindAcceptedSession turnId sourceId targetId now
    r = x.1 ∧ w' = w.stored x.2
  | .retireForFreshHumanTrigger sessionId triggerId routingKey snapshot, w, _, w' => ∃ time,
    w' = w.stored (w.db.retireForFreshHumanTrigger sessionId triggerId routingKey snapshot time)
  | .reopen intercepts subscriptions, w, _, w' =>
    w' = w.stored (w.db.reopen intercepts subscriptions)
  | .publish turnId call, w, _, w' => w' = w.called (.publish turnId call)
  | _, w, _, w' => w' = w

/-- What an operation does; any of them may throw. -/
def perform (o : DeliveryOp) (w : World) (r : Except DeliveryError o.Result) (w' : World) : Prop :=
  match r with
  | .ok a => effect o w a w'
  | .error _ => w' = w.called o

/-- the programs that processes start. -/
inductive Spawn (sha256 : String → String) : Prog api Unit → Prop where
  | process (options : ReconcilerOptions) (fuel : ℕ) (turnId : String) :
      Spawn sha256 (processTurnNow sha256 options fuel turnId).detach
  | start (options : ReconcilerOptions) : Spawn sha256 (start options).detach
  | saveNew (turn : NewTurn) : Spawn sha256 (save turn.record).detach
  | editTurn (turnId : String) (edit : RuntimeEdit) : Spawn sha256 (editTurn turnId edit).detach
  | editPending (routingKey : String) (edit : RuntimeEdit) :
      Spawn sha256 (editPending routingKey edit).detach
  | freezeFinal (turnId body : String) (candidateAt : Option ReplyTime) :
      Spawn sha256 (freezeOrResumeDirectChatReply sha256 turnId body candidateAt).detach
  | publishTurn (options : ReconcilerOptions) (fuel : ℕ) (turn : NewTurn) (body : String)
      (candidateAt : Option ReplyTime) :
      Spawn sha256 (publishTurn sha256 options fuel turn body candidateAt).detach
  | status (turn : DirectChatTurnRecord) (kind : StatusKind) :
      Spawn sha256 (notifyStatus turn kind).detach
  | interrupted (turnId : String) (error : TurnError) (time : ℕ) :
      Spawn sha256 (op (.markInterrupted turnId error time)).detach
  | released (options : ReconcilerOptions) (turnId : String) (time : ℕ)
      (error : Option TurnError) :
      Spawn sha256 (op (.releaseAwaiting turnId options.runtimeLeaseOwner time error)).detach
  | failed (turnId : String) (error : TurnError) (time : ℕ) :
      Spawn sha256 (op (.markFailed turnId error time none)).detach
  | halted (turnId : String) (error : TurnError) (time : ℕ) :
      Spawn sha256 (op (.markIntegrityHalt turnId error time none)).detach
  | rebound (routingKey sourceId targetId : String) :
      Spawn sha256 (rebindNativeDirectChatRecovery routingKey sourceId targetId).detach
  | retired (sessionId triggerId routingKey : String) (snapshot : Option (List String)) :
      Spawn sha256
        (op (.retireForFreshHumanTrigger sessionId triggerId routingKey snapshot)).detach
  | reopened (intercepts : Option (List InterceptBinding))
      (subscriptions : Option (List SubscriptionBinding)) :
      Spawn sha256 (op (.reopen intercepts subscriptions)).detach

/-- Reconcilers and runtimes over one store.  The death of one process kills its threads one by one;
a crash of all of them leaves the store to the process that opens it next. -/
def system (sha256 : String → String) : System api World where
  perform _ o w r w' := perform o w r w'
  spawn _ _ p := Spawn sha256 p
  crash w w' := ∃ intercepts subscriptions, w' = w.stored (w.db.reopen intercepts subscriptions)

/-- an empty store and no calls. -/
def World.Initial (w : World) : Prop := w = {}

end DirectChat
end WmAutopilot
