import Mathlib.Algebra.GroupWithZero.Nat
import Mathlib.Data.List.MinMax
import WmAutopilot.Sql.Table

/-!
# The store of Agent Direct turns

`agent_direct_chat_turns` as a table and the statements of `DirectChatTurnStore` on it.  Times are
milliseconds where the source keeps their ISO texts, which are in the same order.

* `DirectChatTurnRecord`   a row, with all its columns;
* `values`, `merge`, `upsert`   `save`: the row that is inserted, and the rule of every column when
                      the turn is already there;
* `freeze`            the update of `freezeReply`, which stores the payload and its hash;
* `claim` …           the updates that take, give up or end a lease;
* `reopen`            what the constructor does to the rows of an earlier process.

`buildDirectChatPublicationPayload`, `directChatPublicationPayloadHash`: the frozen publication of a
turn and its hash (`sha256` is a parameter).
-/

set_option autoImplicit false
set_option linter.unusedVariables false

namespace WmAutopilot
namespace DirectChat
open Sql

inductive DirectChatTurnState where
  | accepted | awaitingReply | replyReady | publishing | retryWait | blockedAuth | published
  | suppressed | integrityHalt | completed | failed
deriving DecidableEq

namespace DirectChatTurnState

/-- `state IN ('completed','published','suppressed')` -/
def Delivered (s : DirectChatTurnState) : Prop := s = completed ∨ s = published ∨ s = suppressed

/-- `state IN ('completed','published','suppressed','integrity_halt','failed')` -/
def Terminal (s : DirectChatTurnState) : Prop := s.Delivered ∨ s = integrityHalt ∨ s = failed

instance (s : DirectChatTurnState) : Decidable s.Delivered := by unfold Delivered; infer_instance

instance (s : DirectChatTurnState) : Decidable s.Terminal := by unfold Terminal; infer_instance

end DirectChatTurnState

open DirectChatTurnState

/-! ## publications -/

structure PublicationMetadata where
  source : String := "autopilot_session"
  sessionId : Option String
  turnId : String
  promptType : String := "direct_chat"
  sourceMessageIds : List String
  agentNpub : String
deriving DecidableEq

structure DirectChatPublicationPayload where
  body : String
  threadId : String
  metadata : PublicationMetadata
deriving DecidableEq

/-- A row of `agent_direct_chat_turns`. -/
structure DirectChatTurnRecord where
  turnId : String
  routingKey : String
  sourceMessageIds : List String
  clientRequestId : String
  replyBody : Option String := none
  publishedMessageId : Option String := none
  state : DirectChatTurnState
  createdAt : ℕ
  updatedAt : ℕ
  subscriptionId : Option String := none
  backendBaseUrl : Option String := none
  towerServiceNpub : Option String := none
  workspaceId : Option String := none
  sourceAppNpub : Option String := none
  channelId : Option String := none
  threadId : Option String := none
  agentId : Option String := none
  agentNpub : Option String := none
  sessionId : Option String := none
  prompt : Option String := none
  promptType : Option String := none
  triggerMessageId : Option String := none
  publicationPayload : Option DirectChatPublicationPayload := none
  payloadHash : Option String := none
  attemptCount : ℕ := 0
  nextAttemptAt : Option ℕ := none
  leaseOwner : Option String := none
  leaseExpiresAt : Option ℕ := none
  lastError : Option String := none
  lastErrorClass : Option String := none
  receivedAt : Option ℕ := none
  acceptedAt : Option ℕ := none
  replyReadyAt : Option ℕ := none
  publishedAt : Option ℕ := none

/-- the truth value of a nullable text. -/
def truthy (s : Option String) : Bool := s.isSome && s != some ""

/-- a character in the text of a JSON string. -/
def jsonChar (c : Char) : String :=
  match c.toNat with
  | 34 => "\\\""
  | 92 => "\\\\"
  | 8 => "\\b"
  | 9 => "\\t"
  | 10 => "\\n"
  | 12 => "\\f"
  | 13 => "\\r"
  | n => if n < 32 then "\\u00" ++ String.ofList [Nat.digitChar (n / 16), Nat.digitChar (n % 16)]
    else c.toString

/-- `JSON.stringify` of a string. -/
def jsonText (s : String) : String := "\"" ++ String.join (s.toList.map jsonChar) ++ "\""

/-- `JSON.stringify(payload)` -/
def DirectChatPublicationPayload.json (payload : DirectChatPublicationPayload) : String :=
  let m := payload.metadata
  "\x7b\"body\":" ++ jsonText payload.body ++ ",\"threadId\":" ++ jsonText payload.threadId ++
    ",\"metadata\":\x7b\"source\":" ++ jsonText m.source ++
    ",\"session_id\":" ++ (m.sessionId.map jsonText).getD "null" ++
    ",\"turn_id\":" ++ jsonText m.turnId ++ ",\"prompt_type\":" ++ jsonText m.promptType ++
    ",\"source_message_ids\":[" ++ ",".intercalate (m.sourceMessageIds.map jsonText) ++
    "],\"agent_npub\":" ++ jsonText m.agentNpub ++ "\x7d\x7d"

def directChatPublicationPayloadHash (sha256 : String → String)
    (payload : DirectChatPublicationPayload) : String := sha256 payload.json

/-- `none`: it throws. -/
def buildDirectChatPublicationPayload (record : DirectChatTurnRecord) (body : String) :
    Option DirectChatPublicationPayload :=
  match record.threadId, record.agentNpub with
  | some threadId, some agentNpub =>
    if threadId = "" ∨ agentNpub = "" then none
    else some
      { body, threadId, metadata :=
        { sessionId := record.sessionId, turnId := record.turnId
          sourceMessageIds := record.sourceMessageIds, agentNpub } }
  | _, _ => none

/-! ## the table -/

/-- The turns, and the triggers whose cutoff was captured (`session_work_cutoffs`). -/
structure DirectChatTurnStore where
  turns : List DirectChatTurnRecord := []
  cutoffs : List (String × String) := []

namespace DirectChatTurnStore

def updateTurns (db : DirectChatTurnStore) (p : DirectChatTurnRecord → Prop) [DecidablePred p]
    (f : DirectChatTurnRecord → DirectChatTurnRecord) : DirectChatTurnStore :=
  { db with turns := update p f db.turns }

def get (db : DirectChatTurnStore) (turnId : String) : Option DirectChatTurnRecord :=
  db.turns.find? fun r => r.turnId = turnId

def getPending (db : DirectChatTurnStore) (routingKey : String) : Option DirectChatTurnRecord :=
  first (fun r => r.routingKey = routingKey ∧ r.promptType.getD "" ≠ "direct_chat_status" ∧
    ¬r.state.Terminal) (·.createdAt) db.turns

/-- `getInterruptedSessionTurn`: the last one created. -/
def getInterruptedSessionTurn (db : DirectChatTurnStore) (sessionId routingKey : String) :
    Option DirectChatTurnRecord :=
  (db.turns.filter fun r => r.sessionId = some sessionId ∧ r.routingKey = routingKey ∧
    r.state = .failed ∧ (r.lastErrorClass = some "session_missing" ∨
      r.lastErrorClass = some "session_stopped") ∧ r.publicationPayload = none).argmax
    (·.createdAt)

end DirectChatTurnStore

/-! ## `save` -/

/-- the row that `save` inserts. -/
def DirectChatTurnRecord.values (record : DirectChatTurnRecord) : DirectChatTurnRecord :=
  { record with
    triggerMessageId := record.triggerMessageId.or record.sourceMessageIds.getLast?
    nextAttemptAt := some (record.nextAttemptAt.getD record.updatedAt)
    receivedAt := some (record.receivedAt.getD record.createdAt)
    acceptedAt := record.acceptedAt.or
      (if record.state = .accepted ∨ record.state = .awaitingReply then some record.createdAt
      else none)
    replyReadyAt := record.replyReadyAt.or
      (if truthy record.replyBody then some record.updatedAt else none) }

/-- `ON CONFLICT(turn_id) DO UPDATE SET …` -/
def DirectChatTurnRecord.merge (excluded row : DirectChatTurnRecord) : DirectChatTurnRecord :=
  { row with
    sourceMessageIds := excluded.sourceMessageIds
    replyBody := row.replyBody.or excluded.replyBody
    publishedMessageId := row.publishedMessageId.or excluded.publishedMessageId
    state := excluded.state
    updatedAt := excluded.updatedAt
    subscriptionId := row.subscriptionId.or excluded.subscriptionId
    backendBaseUrl := row.backendBaseUrl.or excluded.backendBaseUrl
    towerServiceNpub := row.towerServiceNpub.or excluded.towerServiceNpub
    workspaceId := row.workspaceId.or excluded.workspaceId
    sourceAppNpub := row.sourceAppNpub.or excluded.sourceAppNpub
    channelId := row.channelId.or excluded.channelId
    threadId := row.threadId.or excluded.threadId
    agentId := row.agentId.or excluded.agentId
    agentNpub := row.agentNpub.or excluded.agentNpub
    sessionId := excluded.sessionId.or row.sessionId
    -- a comparison with NULL is not true
    prompt := match excluded.sessionId, row.sessionId with
      | some next, some current =>
        if next ≠ current then excluded.prompt else row.prompt.or excluded.prompt
      | _, _ => row.prompt.or excluded.prompt
    promptType := row.promptType.or excluded.promptType
    triggerMessageId := row.triggerMessageId.or excluded.triggerMessageId
    publicationPayload := row.publicationPayload.or excluded.publicationPayload
    payloadHash := row.payloadHash.or excluded.payloadHash
    attemptCount := max row.attemptCount excluded.attemptCount
    nextAttemptAt := excluded.nextAttemptAt
    leaseOwner := excluded.leaseOwner
    leaseExpiresAt := excluded.leaseExpiresAt
    lastError := excluded.lastError
    lastErrorClass := excluded.lastErrorClass
    receivedAt := row.receivedAt.or excluded.receivedAt
    acceptedAt := row.acceptedAt.or excluded.acceptedAt
    replyReadyAt := row.replyReadyAt.or excluded.replyReadyAt
    publishedAt := row.publishedAt.or excluded.publishedAt }

/-- the condition of that update. -/
def Mergeable (excluded row : DirectChatTurnRecord) : Prop :=
  (row.publicationPayload = none ∨
    row.state = .replyReady ∧ row.leaseOwner = none ∧
      (excluded.state = .completed ∨ excluded.state = .suppressed)) ∧
  row.lastErrorClass.getD "" ≠ "fresh_human_supersession"

instance (excluded row : DirectChatTurnRecord) : Decidable (Mergeable excluded row) := by
  unfold Mergeable; infer_instance

namespace DirectChatTurnStore

/-- the statement of `save`; `none` when the client request id belongs to another turn. -/
def upsert (db : DirectChatTurnStore) (record : DirectChatTurnRecord) :
    Option DirectChatTurnStore :=
  if ∃ r ∈ db.turns, r.turnId = record.turnId then
    some (db.updateTurns (fun r => r.turnId = record.turnId ∧ Mergeable record.values r)
      record.values.merge)
  else if ∃ r ∈ db.turns, r.clientRequestId = record.clientRequestId then none
  else some { db with turns := db.turns ++ [record.values] }

/-! ## freezing -/

/-- the statement of `freezeReply`. -/
def freeze (db : DirectChatTurnStore) (turnId body : String)
    (payload : DirectChatPublicationPayload) (hash : String) (time : ℕ) : DirectChatTurnStore :=
  db.updateTurns
    (fun r => r.turnId = turnId ∧ r.publicationPayload = none ∧ ¬r.state.Terminal) fun r =>
    { r with
      replyBody := some body, publicationPayload := some payload, payloadHash := some hash
      state := .replyReady, replyReadyAt := r.replyReadyAt.or (some time)
      nextAttemptAt := some time
      leaseOwner := none, leaseExpiresAt := none, lastError := none, lastErrorClass := none
      updatedAt := time }

end DirectChatTurnStore

/-! ## leases -/

/-- a row that `claim` takes at time `now`. -/
def Claimable (turnId : String) (now : ℕ) (r : DirectChatTurnRecord) : Prop :=
  r.turnId = turnId ∧ ¬r.state.Terminal ∧ (∀ t ∈ r.nextAttemptAt, t ≤ now) ∧
    ∀ t ∈ r.leaseExpiresAt, t ≤ now

instance (turnId : String) (now : ℕ) (r : DirectChatTurnRecord) :
    Decidable (Claimable turnId now r) := by unfold Claimable; infer_instance

/-- the row after `claim`. -/
def DirectChatTurnRecord.claimed (owner : String) (now leaseMs : ℕ) (r : DirectChatTurnRecord) :
    DirectChatTurnRecord :=
  { r with
    leaseOwner := some owner, leaseExpiresAt := some (now + leaseMs)
    state := if (r.state = .replyReady ∨ r.state = .retryWait ∨ r.state = .publishing ∨
      r.state = .blockedAuth) ∧ r.publicationPayload ≠ none then .publishing else r.state
    attemptCount := if r.publicationPayload ≠ none then r.attemptCount + 1 else r.attemptCount
    updatedAt := now }

/-- the lease of the row is given up. -/
def DirectChatTurnRecord.released (r : DirectChatTurnRecord) : DirectChatTurnRecord :=
  { r with leaseOwner := none, leaseExpiresAt := none }

/-- the row of the turn, leased by `owner`. -/
def LeasedBy (turnId owner : String) (r : DirectChatTurnRecord) : Prop :=
  r.turnId = turnId ∧ r.leaseOwner = some owner

instance (turnId owner : String) (r : DirectChatTurnRecord) :
    Decidable (LeasedBy turnId owner r) := by unfold LeasedBy; infer_instance

/-- the message and the class that an error column keeps. -/
structure TurnError where
  message : String
  errorClass : String

namespace DirectChatTurnStore

/-- `RETURNING *` -/
def claim (db : DirectChatTurnStore) (turnId owner : String) (now leaseMs : ℕ) :
    Option DirectChatTurnRecord × DirectChatTurnStore :=
  ((db.turns.find? fun r => Claimable turnId now r).map (·.claimed owner now leaseMs),
    db.updateTurns (Claimable turnId now) (·.claimed owner now leaseMs))

def releaseAwaiting (db : DirectChatTurnStore) (turnId owner : String) (nextAttemptAt : ℕ)
    (error : Option TurnError) (now : ℕ) : DirectChatTurnStore :=
  db.updateTurns (LeasedBy turnId owner) fun r =>
    { r.released with
      state := .awaitingReply, nextAttemptAt := some nextAttemptAt
      lastError := error.map (·.message), lastErrorClass := error.map (·.errorClass)
      updatedAt := now }

def markInterrupted (db : DirectChatTurnStore) (turnId : String) (error : TurnError) (time : ℕ) :
    DirectChatTurnStore :=
  db.updateTurns
    (fun r => r.turnId = turnId ∧ r.publicationPayload = none ∧ ¬r.state.Terminal) fun r =>
    { r with
      lastError := some error.message, lastErrorClass := some error.errorClass, updatedAt := time }

/-- the owner that an optional parameter gives: an empty one is no owner. -/
def givenOwner (owner : Option String) : Option String := owner.filter (· ≠ "")

/-- with an owner the row has to be leased by it, without one it may not be frozen. -/
def markFailed (db : DirectChatTurnStore) (turnId : String) (error : TurnError) (time : ℕ)
    (owner : Option String) : DirectChatTurnStore :=
  db.updateTurns
    (fun r => r.turnId = turnId ∧ ¬r.state.Delivered ∧ r.state ≠ .integrityHalt ∧
      (∀ o ∈ givenOwner owner, r.leaseOwner = some o) ∧
      (givenOwner owner = none → r.publicationPayload = none)) fun r =>
    { r.released with
      state := .failed, nextAttemptAt := none
      lastError := some error.message, lastErrorClass := some error.errorClass, updatedAt := time }

def markRetry (db : DirectChatTurnStore) (turnId owner : String) (nextAttemptAt : ℕ)
    (error : TurnError) (blockedAuth : Bool) (now : ℕ) : DirectChatTurnStore :=
  db.updateTurns (LeasedBy turnId owner) fun r =>
    { r.released with
      state := if blockedAuth then .blockedAuth else .retryWait
      nextAttemptAt := some nextAttemptAt
      lastError := some error.message, lastErrorClass := some error.errorClass, updatedAt := now }

/-- the row after `markPublished`. -/
def publishedRow (messageId : String) (time : ℕ) (r : DirectChatTurnRecord) :
    DirectChatTurnRecord :=
  { r.released with
    state := .published, publishedMessageId := some messageId, publishedAt := some time
    nextAttemptAt := none, lastError := none, lastErrorClass := none, updatedAt := time }

/-- `RETURNING *` -/
def markPublished (db : DirectChatTurnStore) (turnId owner messageId : String) (time : ℕ) :
    Option DirectChatTurnRecord × DirectChatTurnStore :=
  ((db.turns.find? fun r => LeasedBy turnId owner r ∧ r.state = .publishing).map
      (publishedRow messageId time),
    db.updateTurns (fun r => LeasedBy turnId owner r ∧ r.state = .publishing)
      (publishedRow messageId time))

def markSuppressed (db : DirectChatTurnStore) (turnId owner : String) (time : ℕ) :
    DirectChatTurnStore :=
  db.updateTurns (LeasedBy turnId owner) fun r =>
    { r.released with
      state := .suppressed, publishedAt := none, publishedMessageId := none, nextAttemptAt := none
      lastError := some "Duplicate callback response suppressed before Tower publication."
      lastErrorClass := some "duplicate_callback_within_window", updatedAt := time }

def markIntegrityHalt (db : DirectChatTurnStore) (turnId : String) (error : TurnError) (time : ℕ)
    (owner : Option String) : DirectChatTurnStore :=
  db.updateTurns
    (fun r => r.turnId = turnId ∧ ¬r.state.Delivered ∧
      ∀ o ∈ givenOwner owner, r.leaseOwner = some o) fun r =>
    { r.released with
      state := .integrityHalt, lastError := some error.message
      lastErrorClass := some error.errorClass, nextAttemptAt := none, updatedAt := time }

def releaseForeignLeases (db : DirectChatTurnStore) (ownerPrefix : String) (time : ℕ) :
    DirectChatTurnStore :=
  db.updateTurns
    (fun r => ∃ owner ∈ r.leaseOwner,
      like (ownerPrefix ++ "%").toList owner.toList = false) fun r =>
    { r.released with updatedAt := time }

/-! ## sessions -/

/-- the rows that `rebindAcceptedSession` moves. -/
def Rebindable (turnId sourceId : String) (r : DirectChatTurnRecord) : Prop :=
  r.turnId = turnId ∧ r.sessionId = some sourceId ∧ r.publicationPayload = none ∧
    (r.state = .accepted ∨ r.state = .awaitingReply ∨ r.state = .failed ∧
      (r.lastErrorClass = some "session_missing" ∨ r.lastErrorClass = some "session_stopped"))

instance (turnId sourceId : String) (r : DirectChatTurnRecord) :
    Decidable (Rebindable turnId sourceId r) := by unfold Rebindable; infer_instance

/-- the row after `rebindAcceptedSession`. -/
def reboundRow (targetId : String) (now : ℕ) (r : DirectChatTurnRecord) : DirectChatTurnRecord :=
  { r.released with
    sessionId := some targetId, updatedAt := now, state := .awaitingReply
    nextAttemptAt := some now }

/-- `RETURNING *` -/
def rebindAcceptedSession (db : DirectChatTurnStore) (turnId sourceId targetId : String)
    (now : ℕ) : Option DirectChatTurnRecord × DirectChatTurnStore :=
  ((db.turns.find? fun r => Rebindable turnId sourceId r).map (reboundRow targetId now),
    db.updateTurns (Rebindable turnId sourceId) (reboundRow targetId now))

/-- `retireForFreshHumanTrigger`.  The cutoff is captured in the transaction of the update, so every
row is at or before it; a trigger retires once. -/
def retireForFreshHumanTrigger (db : DirectChatTurnStore) (sessionId triggerId routingKey : String)
    (snapshot : Option (List String)) (time : ℕ) : DirectChatTurnStore :=
  if (sessionId, triggerId) ∈ db.cutoffs then db
  else
    { turns := update
        (fun r => (r.sessionId = some sessionId ∨ r.routingKey = routingKey) ∧
          ¬r.state.Delivered ∧ ∀ turnIds ∈ snapshot, r.turnId ∈ turnIds)
        (fun r =>
          { r.released with
            state := .suppressed, nextAttemptAt := none
            lastErrorClass := some "fresh_human_supersession"
            lastError := some ("Superseded by fresh human trigger " ++ triggerId ++
              "; old work completion unverified")
            updatedAt := time }) db.turns
      cutoffs := (sessionId, triggerId) :: db.cutoffs }

end DirectChatTurnStore

/-! ## a new process -/

/-- the columns of `chat_intercept_state` that bind a turn. -/
structure InterceptBinding where
  routingKey : String
  subscriptionId : Option String
  towerServiceNpub : Option String
  workspaceId : Option String
  sourceAppNpub : Option String
  channelId : Option String
  threadId : Option String
  agentId : Option String
  targetBotNpub : Option String
  sessionId : Option String

/-- the columns of `workspace_subscriptions` that bind a turn. -/
structure SubscriptionBinding where
  subscriptionId : String
  backendBaseUrl : Option String
  towerServiceNpub : Option String
  workspaceId : Option String
  sourceAppNpub : Option String

/-- the columns that the table of intercepts gives. -/
def DirectChatTurnRecord.bindIntercept (intercepts : List InterceptBinding)
    (r : DirectChatTurnRecord) : DirectChatTurnRecord :=
  let i := intercepts.find? fun i => i.routingKey = r.routingKey
  { r with
    subscriptionId := r.subscriptionId.or (i.bind (·.subscriptionId))
    towerServiceNpub := r.towerServiceNpub.or (i.bind (·.towerServiceNpub))
    workspaceId := r.workspaceId.or (i.bind (·.workspaceId))
    sourceAppNpub := r.sourceAppNpub.or (i.bind (·.sourceAppNpub))
    channelId := r.channelId.or (i.bind (·.channelId))
    threadId := r.threadId.or (i.bind (·.threadId))
    agentId := r.agentId.or (i.bind (·.agentId))
    agentNpub := r.agentNpub.or (i.bind (·.targetBotNpub))
    sessionId := r.sessionId.or (i.bind (·.sessionId))
    triggerMessageId := r.triggerMessageId.or r.sourceMessageIds.getLast?
    receivedAt := r.receivedAt.or (some r.createdAt)
    acceptedAt := r.acceptedAt.or (if r.state = .accepted then some r.createdAt else none)
    replyReadyAt := r.replyReadyAt.or (if r.replyBody ≠ none then some r.updatedAt else none)
    publishedAt := r.publishedAt.or
      (if r.state = .completed ∧ r.publishedMessageId ≠ none then some r.updatedAt else none)
    nextAttemptAt := r.nextAttemptAt.or (some r.updatedAt) }

/-- the columns that the table of subscriptions gives. -/
def DirectChatTurnRecord.bindSubscription (subscriptions : List SubscriptionBinding)
    (r : DirectChatTurnRecord) : DirectChatTurnRecord :=
  let s := subscriptions.find? fun s => some s.subscriptionId = r.subscriptionId
  { r with
    backendBaseUrl := r.backendBaseUrl.or (s.bind (·.backendBaseUrl))
    towerServiceNpub := r.towerServiceNpub.or (s.bind (·.towerServiceNpub))
    workspaceId := r.workspaceId.or (s.bind (·.workspaceId))
    sourceAppNpub := r.sourceAppNpub.or (s.bind (·.sourceAppNpub)) }

namespace DirectChatTurnStore

/-- `backfillBindings`, from the tables that exist. -/
def backfillBindings (db : DirectChatTurnStore) (intercepts : Option (List InterceptBinding))
    (subscriptions : Option (List SubscriptionBinding)) : DirectChatTurnStore :=
  { db with
    turns := db.turns.map fun r =>
      let bound := match intercepts with
        | some rows => r.bindIntercept rows
        | none => r
      match subscriptions with
      | some rows => bound.bindSubscription rows
      | none => bound }

def requeueLegacySubscriptionSignerHalts (db : DirectChatTurnStore) : DirectChatTurnStore :=
  db.updateTurns
    (fun r => r.state = .integrityHalt ∧ r.lastErrorClass = some "agent_identity_mismatch" ∧
      r.publicationPayload ≠ none ∧ r.agentId ≠ none ∧ r.agentNpub ≠ none) fun r =>
    { r.released with
      state := .retryWait, nextAttemptAt := some r.updatedAt, lastError := none
      lastErrorClass := none }

/-- what the constructor does to the rows it finds. -/
def reopen (db : DirectChatTurnStore) (intercepts : Option (List InterceptBinding))
    (subscriptions : Option (List SubscriptionBinding)) : DirectChatTurnStore :=
  (db.backfillBindings intercepts subscriptions).requeueLegacySubscriptionSignerHalts

end DirectChatTurnStore
end DirectChat
end WmAutopilot
