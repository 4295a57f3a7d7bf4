import WmAutopilot.Async.Cut
import WmAutopilot.Js.Keyed
import WmAutopilot.Sql.Table

/-!
# Intake of chat messages

`upsertMessage` of `ChatInterceptStateStore`: a message that was not seen before is counted in the
row of its conversation, which may still be under the conversation's legacy key.  Every statement
of it is its own transaction, and a crash can cut a call off between any two of them.

* `Record`, `Db`         the rows of the conversations, and the claims of message revisions;
* `Statement`, `effect`  the statements of the store and what each does;
* `save`, `upsertMessage` the calls, as programs over the statements;
* `Delivery`, `run`      calls one after the other, each cut off after a number of statements.
-/

set_option autoImplicit false
set_option linter.unusedVariables false

namespace WmAutopilot
namespace AgentChat
namespace Intake
open Async

/-- `ChatInterceptStateStatus` -/
inductive Status where
  | active | interrupting | interruptFailed | idle | archived | blockedAuth | blockedDecrypt
  | pending
  deriving DecidableEq, Repr

/-- `AgentInterceptDecision` -/
inductive Decision where
  | respond | ignore | failed | pending
  deriving DecidableEq, Repr

/-- `ChatInterceptStateRecord`, a row of `chat_intercept_state`. -/
structure Record where
  routingKey : String
  subscriptionId : String
  agentId : String
  sessionId : Option String
  sessionGeneration : ℕ
  previousSessionIds : List String
  sessionClass : String
  workspaceOwnerNpub : String
  sourceAppNpub : String
  towerServiceNpub : String
  workspaceId : String
  channelId : String
  threadId : String
  botNpub : String
  lastMessageIdSeen : Option String
  lastEventCursorSeen : Option String
  lastHumanMessageIdDelivered : Option String
  nativeHistoryCheckpointMessageId : Option String
  freshStartMessageId : Option String
  lastAgentMessageIdPublished : Option String
  lastCompletedTurnId : Option String
  pendingMessageCount : ℕ
  state : Status
  lastDecision : Decision
  lastActivityAt : String
  createdAt : String
  updatedAt : String
  deriving DecidableEq, Repr

/-- a row of `chat_intercept_message_revisions`, without its time. -/
structure Claim where
  routingKey : String
  messageId : String
  messageRevision : ℤ
  deriving DecidableEq, Repr

structure Db where
  rows : List Record
  claims : List Claim

/-! ## statements -/

/-- `mapRow`, on rows that `save` can write. -/
def mapRow (r : Record) : Record :=
  { r with sessionGeneration := max 1 r.sessionGeneration, sessionClass := "chat" }

/-- `getByRoutingKey` -/
def Db.get (db : Db) (routingKey : String) : Option Record :=
  (db.rows.find? (·.routingKey = routingKey)).map mapRow

/-- what is stored of a record: a row that is there keeps its class and its time of creation. -/
def stored (rows : List Record) (r : Record) : Record :=
  match rows.find? (·.routingKey = r.routingKey) with
  | some old => { r with sessionClass := old.sessionClass, createdAt := old.createdAt }
  | none => r

/-- `INSERT INTO chat_intercept_state … ON CONFLICT(routing_key) DO UPDATE SET …` -/
def upsertRow (rows : List Record) (r : Record) : List Record :=
  Js.put Record.routingKey rows (stored rows r)

inductive Statement where
  | getByRoutingKey (routingKey : String)
  | claimMessageRevision (claim : Claim)
  | insertRow (record : Record)
  | deleteByRoutingKey (routingKey : String)

/-- the store; its calls are synchronous. -/
def store : Api where
  Op := Statement
  Ans
    | .getByRoutingKey _ => Option Record
    | .claimMessageRevision _ => Bool
    | .insertRow _ | .deleteByRoutingKey _ => Unit
  yields _ := false

/-- what a statement does; a claim that is there is ignored. -/
def effect : Effects store Db
  | .getByRoutingKey key, db => (db, db.get key)
  | .claimMessageRevision claim, db =>
    if claim ∈ db.claims then (db, false) else ({ db with claims := db.claims ++ [claim] }, true)
  | .insertRow r, db => ({ db with rows := upsertRow db.rows r }, ())
  | .deleteByRoutingKey key, db =>
    ({ db with rows := db.rows.filter fun r => r.routingKey ≠ key }, ())

def getByRoutingKey (key : String) : Prog store (Option Record) :=
  Prog.perform (A := store) (.getByRoutingKey key)

def claimMessageRevision (claim : Claim) : Prog store Bool :=
  Prog.perform (A := store) (.claimMessageRevision claim)

def deleteByRoutingKey (key : String) : Prog store Unit :=
  Prog.perform (A := store) (.deleteByRoutingKey key)

/-- `save` -/
def save (record : Record) : Prog store Record := do
  Prog.perform (A := store) (.insertRow record)
  let saved ← getByRoutingKey record.routingKey
  pure (saved.getD record)

/-! ## intake -/

/-- What names a conversation in a call. -/
structure Conversation where
  routingKey : String
  legacyRoutingKey : Option String
  subscriptionId : String

/-- the legacy key, when it is one. -/
def Conversation.legacy (c : Conversation) : Option String := c.legacyRoutingKey.filter (· ≠ "")

/-- The rest of the input of a call; `now` is `input.at`, or the clock. -/
structure Message where
  agentId : String
  workspaceOwnerNpub : String
  sourceAppNpub : String
  towerServiceNpub : Option String
  workspaceId : Option String
  channelId : String
  threadId : String
  botNpub : String
  messageId : String
  messageRevision : Option ℤ
  eventCursor : Option String
  now : String

structure Result where
  record : Record
  wasDuplicate : Bool
  deriving DecidableEq, Repr

/-- the event cursor is new to the row. -/
def newCursor (m : Message) (existing : Record) : Bool :=
  decide (m.eventCursor.getD "" ≠ "" ∧ m.eventCursor ≠ existing.lastEventCursorSeen)

/-- the row after a message that was not seen before. -/
def advanced (c : Conversation) (m : Message) (existing : Option Record) : Record where
  routingKey := c.routingKey
  subscriptionId := c.subscriptionId
  agentId := m.agentId
  sessionId := existing.bind (·.sessionId)
  sessionGeneration := (existing.map (·.sessionGeneration)).getD 1
  previousSessionIds := (existing.map (·.previousSessionIds)).getD []
  sessionClass := "chat"
  workspaceOwnerNpub := m.workspaceOwnerNpub
  sourceAppNpub := m.sourceAppNpub
  towerServiceNpub := (m.towerServiceNpub <|> existing.map (·.towerServiceNpub)).getD ""
  workspaceId := (m.workspaceId <|> existing.map (·.workspaceId)).getD ""
  channelId := m.channelId
  threadId := m.threadId
  botNpub := m.botNpub
  lastMessageIdSeen := some m.messageId
  lastEventCursorSeen := m.eventCursor <|> existing.bind (·.lastEventCursorSeen)
  lastHumanMessageIdDelivered := existing.bind (·.lastHumanMessageIdDelivered)
  nativeHistoryCheckpointMessageId := existing.bind (·.nativeHistoryCheckpointMessageId)
  freshStartMessageId := existing.bind (·.freshStartMessageId)
  lastAgentMessageIdPublished := existing.bind (·.lastAgentMessageIdPublished)
  lastCompletedTurnId := existing.bind (·.lastCompletedTurnId)
  pendingMessageCount := (existing.map (·.pendingMessageCount + 1)).getD 1
  state := if (existing.bind (·.sessionId)).getD "" ≠ "" then (existing.map (·.state)).getD .pending
    else .pending
  lastDecision := .pending
  lastActivityAt := m.now
  createdAt := (existing.map (·.createdAt)).getD m.now
  updatedAt := m.now

/-- the row of the conversation: under its key, or of its subscription under its legacy key. -/
def findExisting (c : Conversation) : Prog store (Option Record) := do
  let canonical ← getByRoutingKey c.routingKey
  match canonical, c.legacy with
  | none, some key => do
    let legacy ← getByRoutingKey key
    pure (legacy.filter (·.subscriptionId = c.subscriptionId))
  | _, _ => pure canonical

/-- `shouldMigrateLegacy` -/
def shouldMigrateLegacy (c : Conversation) (existing : Option Record) : Bool :=
  existing.any fun e => e.routingKey ≠ c.routingKey ∧ some e.routingKey = c.legacyRoutingKey

/-- `deliveryWasDuplicate` -/
def deliveryWasDuplicate (c : Conversation) (m : Message) : Prog store Bool :=
  match m.messageRevision with
  | none => pure false
  | some revision => do
    let claimed ← claimMessageRevision ⟨c.routingKey, m.messageId, revision⟩
    pure !claimed

/-- a message that was seen before. -/
def acknowledge (c : Conversation) (m : Message) (e : Record) : Prog store Result :=
  if shouldMigrateLegacy c (some e) then do
    let migrated ← save { e with routingKey := c.routingKey, updatedAt := m.now }
    deleteByRoutingKey e.routingKey
    pure ⟨migrated, true⟩
  else if newCursor m e then do
    let acknowledged ← save { e with lastEventCursorSeen := m.eventCursor, updatedAt := m.now }
    pure ⟨acknowledged, true⟩
  else pure ⟨e, true⟩

/-- a message that advances the row. -/
def advance (c : Conversation) (m : Message) (existing : Option Record) (wasDuplicate : Bool) :
    Prog store Result := do
  let record ← save (advanced c m existing)
  if shouldMigrateLegacy c existing then
    deleteByRoutingKey ((existing.map (·.routingKey)).getD "")
    pure ⟨record, wasDuplicate⟩
  else pure ⟨record, wasDuplicate⟩

/-- what becomes of a message. -/
def record (c : Conversation) (m : Message) : Option Record → Bool → Prog store Result
  | some e, true => acknowledge c m e
  | existing, wasDuplicate => advance c m existing wasDuplicate

/-- `upsertMessage` -/
def upsertMessage (c : Conversation) (m : Message) : Prog store Result := do
  let existing ← findExisting c
  let duplicate ← deliveryWasDuplicate c m
  let wasDuplicate := duplicate ||
    (m.messageRevision.isNone && existing.any (·.lastMessageIdSeen = some m.messageId))
  record c m existing wasDuplicate

/-! ## deliveries -/

/-- A call that is cut off after `cut` statements; with all of them it completes. -/
structure Delivery where
  message : Message
  cut : ℕ

/-- What a call that completed did. -/
structure Done where
  before : Db
  message : Message
  result : Result
  after : Db

/-- one delivery. -/
def deliver (c : Conversation) (db : Db) (d : Delivery) : Db × Option (Result × ℕ) :=
  Async.cut effect d.cut (upsertMessage c d.message) db

/-- the deliveries one after the other: the state, and the calls that completed. -/
def run (c : Conversation) : Db → List Delivery → Db × List Done
  | db, [] => (db, [])
  | db, d :: ds =>
    let next := deliver c db d
    let rest := run c next.1 ds
    (rest.1, (next.2.map fun r => ⟨db, d.message, r.1, next.1⟩).toList ++ rest.2)

end Intake
end AgentChat
end WmAutopilot
