import WmAutopilot.Js.Value
import WmAutopilot.Sql.Table

/-!
# The store of completed turns

The tables of `CompletedTurnStore` and its statements, one Lean function for each method of the
class.  A method that may throw returns its answer with the database it leaves; `transaction` rolls
back when the body throws.  The JSON text of a request is modelled by the request, the JSON text of
a launch configuration by `TurnConfig`; times are milliseconds and an argument of the method where
the source reads the clock.

* `TurnRecord`, `TurnBinding`, `Retirement`, `Deletion`: the rows;
* `SameTurn r r'`, `SameConversation r r'`: the columns that no statement rewrites;
* `Moves a b`: the changes of status that statements make;
* `enqueue`, `claim`, `renew`, `bind`, `sending`, `uncertain`, `claimAbandonment`, `abandon`,
  `complete`, `recoverMissingPreparation`, …: the statements.
-/

set_option autoImplicit false
set_option linter.unusedVariables false

namespace WmAutopilot
namespace CompletedTurn
open Js Sql

/-! ## rows -/

/-- `CompletedTurnReceipt["status"]` -/
inductive TurnStatus where
  | queued
  | preparing
  | sending
  | completed
  | uncertain
  | abandoned
  | abandoning
  deriving DecidableEq, Repr

/-- no statement changes the status of a final receipt. -/
def TurnStatus.Final (s : TurnStatus) : Prop := s = .completed ∨ s = .abandoned

instance : DecidablePred TurnStatus.Final := fun _ => inferInstanceAs (Decidable (_ ∨ _))

structure ProjectFile where
  path : String
  base64 : String
  deriving DecidableEq, Repr

structure CompletedTurnRequest where
  agent : Option String
  conversationKey : String
  requestId : String
  projectId : String
  prompt : String
  directory : String
  sessionId : Option String
  model : Option String
  executionProfile : Option String
  projectFiles : Option (List ProjectFile)
  durationMs : Option ℕ
  deriving DecidableEq, Repr

/-- the launch configuration that a conversation is bound to. -/
structure TurnConfig where
  agent : Option String
  directory : String
  model : Option String
  projectId : String
  executionProfile : Option String
  deriving DecidableEq, Repr

structure TurnRecord where
  receiptId : String
  owner : String
  conversationKey : String
  requestId : String
  projectId : String
  runId : String
  stepId : String
  requestJson : CompletedTurnRequest
  prompt : String
  sequence : ℕ
  sessionId : Option String := none
  executionId : Option String := none
  nativeSessionId : Option String := none
  checkpoint : Option ℕ := none
  outputJson : Option Value := none
  status : TurnStatus
  reply : Option String := none
  error : Option String := none
  claimToken : Option String := none
  leaseUntil : ℕ := 0
  senderToken : Option String := none
  senderLeaseUntil : ℕ := 0

structure TurnBinding where
  owner : String
  conversationKey : String
  config : TurnConfig
  sessionId : Option String
  executionId : Option String := none

structure Retirement where
  owner : String
  conversationKey : String
  receiptId : String

structure DeletionRequest where
  conversationKey : String
  projectId : String
  directory : String
  requestId : String
  deriving DecidableEq

structure Deletion where
  owner : String
  conversationKey : String
  requestJson : DeletionRequest
  receiptId : String
  sessionId : String
  receiptJson : Option Value

structure CompletedTurnStore where
  bindings : List TurnBinding := []
  receipts : List TurnRecord := []
  retirements : List Retirement := []
  deletions : List Deletion := []

/-- the two rows are the same receipt at two times. -/
structure SameTurn (r r' : TurnRecord) : Prop where
  receiptId : r'.receiptId = r.receiptId
  owner : r'.owner = r.owner
  conversationKey : r'.conversationKey = r.conversationKey
  sequence : r'.sequence = r.sequence

/-- the two receipts belong to one conversation. -/
def SameConversation (r r' : TurnRecord) : Prop :=
  r.owner = r'.owner ∧ r.conversationKey = r'.conversationKey

/-! ## statements -/

/-- the truth value of a nullable string column. -/
def truthy (s : Option String) : Bool := s.isSome && s != some ""

namespace CompletedTurnStore

/-- the answer of a method that may throw, and the database it leaves. -/
abbrev Exec (α : Type) := Except String α × CompletedTurnStore

/-- `db.transaction(body).immediate()` -/
def transaction {α : Type} (db : CompletedTurnStore)
    (body : Except String (α × CompletedTurnStore)) : Exec α :=
  match body with
  | .ok (a, db') => (.ok a, db')
  | .error e => (.error e, db)

/-- `UPDATE completed_turn_receipts SET f WHERE p` -/
def updateReceipts (db : CompletedTurnStore) (p : TurnRecord → Prop) [DecidablePred p]
    (f : TurnRecord → TurnRecord) : CompletedTurnStore :=
  { db with receipts := update p f db.receipts }

/-- an update that throws when it does not touch exactly one row. -/
def updateOne (db : CompletedTurnStore) (p : TurnRecord → Prop) [DecidablePred p]
    (f : TurnRecord → TurnRecord) (error : String) : Exec Unit :=
  (if changes p db.receipts = 1 then .ok () else .error error, db.updateReceipts p f)

def binding (db : CompletedTurnStore) (owner key : String) : Option TurnBinding :=
  db.bindings.find? fun b => b.owner = owner ∧ b.conversationKey = key

def get (db : CompletedTurnStore) (id : String) : Option TurnRecord :=
  db.receipts.find? fun r => r.receiptId = id

def head (db : CompletedTurnStore) (owner key : String) : Option TurnRecord :=
  first (fun r => r.owner = owner ∧ r.conversationKey = key ∧ ¬r.status.Final)
    (fun r => r.sequence) db.receipts

def request (db : CompletedTurnStore) (owner requestId : String) : Option TurnRecord :=
  db.receipts.find? fun r => r.owner = owner ∧ r.requestId = requestId

/-- the conversation has a row in `completed_turn_deletions`. -/
def deleted (db : CompletedTurnStore) (owner key : String) : Bool :=
  db.deletions.any fun d => d.owner = owner && d.conversationKey = key

/-- the conversation has a row in `completed_turn_retirements`. -/
def retired (db : CompletedTurnStore) (owner key : String) : Bool :=
  db.retirements.any fun d => d.owner = owner && d.conversationKey = key

/-- `INSERT OR IGNORE INTO completed_turn_retirements` -/
def retire (db : CompletedTurnStore) (owner key receiptId : String) : CompletedTurnStore :=
  if db.retired owner key then db
  else { db with retirements := db.retirements ++ [⟨owner, key, receiptId⟩] }

/-- `INSERT OR IGNORE INTO completed_turn_bindings` -/
def insertBinding (db : CompletedTurnStore) (owner : String) (config : TurnConfig)
    (request : CompletedTurnRequest) : CompletedTurnStore :=
  if (db.binding owner request.conversationKey).isSome then db
  else { db with bindings := db.bindings ++
          [{ owner, conversationKey := request.conversationKey, config
             sessionId := request.sessionId }] }

def configOf (request : CompletedTurnRequest) : TurnConfig where
  agent := if request.agent = some "goose" then some "goose" else none
  directory := request.directory
  model := request.model
  projectId := request.projectId
  executionProfile := request.executionProfile

/-- the row that `enqueue` inserts. -/
def newReceipt (receiptId owner : String) (request : CompletedTurnRequest) (runId stepId : String)
    (sequence : ℕ) : TurnRecord where
  receiptId := receiptId
  owner := owner
  conversationKey := request.conversationKey
  requestId := request.requestId
  projectId := request.projectId
  runId := runId
  stepId := stepId
  requestJson := request
  prompt := request.prompt
  sequence := sequence
  status := .queued

/-- the body of the transaction of `enqueue`; `receiptId` is the fresh UUID. -/
def enqueueBody (db₀ : CompletedTurnStore) (owner : String) (request : CompletedTurnRequest)
    (runId stepId receiptId : String) : Except String (TurnRecord × CompletedTurnStore) :=
  let db := db₀.insertBinding owner (configOf request) request
  if db.deleted owner request.conversationKey then
    .error "Deleted conversation requires a new generation"
  else match db.binding owner request.conversationKey with
  | none => .error "null is not an object"
  | some binding =>
    if binding.config ≠ configOf request then
      .error "Completed-turn conversation binding conflict"
    else if truthy request.sessionId ∧ binding.sessionId ≠ request.sessionId then
      .error "Completed-turn stale session binding"
    else match db.request owner request.requestId with
    | some existing =>
      if existing.requestJson ≠ request then .error "Completed-turn request idempotency conflict"
      else .ok (existing, db)
    | none =>
      if db.retired owner request.conversationKey then
        .error "Abandoned conversation requires a fresh generation"
      else
        let sequence := maximum
          (fun r : TurnRecord => r.owner = owner ∧ r.conversationKey = request.conversationKey)
          (fun r => r.sequence) db.receipts
        let row := newReceipt receiptId owner request runId stepId (sequence + 1)
        .ok (row, { db with receipts := db.receipts ++ [row] })

def enqueue (db : CompletedTurnStore) (owner : String) (request : CompletedTurnRequest)
    (runId stepId receiptId : String) : Exec TurnRecord :=
  if owner = "" then (.error "Completed turns require an authenticated pipeline owner", db)
  else if db.deleted owner request.conversationKey then
    (.error "Deleted conversation requires a new generation", db)
  else db.transaction (db.enqueueBody owner request runId stepId receiptId)

/-- the rows whose sender fence still matches the exact sending claim. -/
def ActiveSender (sessionId : String) (time : ℕ) (r : TurnRecord) : Prop :=
  r.sessionId = some sessionId ∧ r.status = .sending ∧ r.claimToken = r.senderToken ∧
    r.senderToken ≠ none ∧ time < r.senderLeaseUntil

instance (sessionId : String) (time : ℕ) : DecidablePred (ActiveSender sessionId time) :=
  fun _ => inferInstanceAs (Decidable (_ ∧ _ ∧ _ ∧ _ ∧ _))

def refreshActiveSenderForSession (db : CompletedTurnStore) (sessionId : String) (time : ℕ) :
    Option TurnRecord × CompletedTurnStore :=
  match db.receipts.filter (ActiveSender sessionId time) with
  | [row] =>
    let p := fun r : TurnRecord => r.receiptId = row.receiptId ∧ ActiveSender sessionId time r ∧
      r.claimToken = row.senderToken ∧ r.senderToken = row.senderToken
    let db' := db.updateReceipts p fun r => { r with leaseUntil := time + 30000 }
    (if changes p db.receipts = 1 then db'.get row.receiptId else none, db')
  | _ => (none, db)

/-- nothing of a launch or a send is recorded in the row. -/
def MissingPreparation (row : TurnRecord) : Prop :=
  row.status = .preparing ∧ row.error = some "Completed-turn bound session unavailable" ∧
    ¬truthy row.sessionId ∧ ¬truthy row.executionId ∧ ¬truthy row.nativeSessionId ∧
    row.checkpoint = none ∧ ¬truthy row.claimToken ∧ row.leaseUntil = 0 ∧
    ¬truthy row.senderToken ∧ row.senderLeaseUntil = 0

instance : DecidablePred MissingPreparation :=
  fun _ => inferInstanceAs (Decidable (_ ∧ _ ∧ _ ∧ _ ∧ _ ∧ _ ∧ _ ∧ _ ∧ _ ∧ _))

def recoverMissingPreparation (db : CompletedTurnStore) (owner : String)
    (request : CompletedTurnRequest) : Exec Unit :=
  db.transaction <|
    match db.request owner request.requestId with
    | none => .error "Preparation recovery request binding denied"
    | some row =>
      if row.requestJson ≠ request then .error "Preparation recovery request binding denied"
      else if row.status = .completed ∨ row.status = .queued then .ok ((), db)
      else if ¬MissingPreparation row then
        .error "Preparation recovery denied: launch or send outcome is not proven absent"
      else .ok ((), db.updateReceipts (fun r => r.receiptId = row.receiptId)
        fun r => { r with status := .queued, error := none })

def Claimable (id : String) (time : ℕ) (r : TurnRecord) : Prop :=
  r.receiptId = id ∧ ¬(r.status.Final ∨ r.status = .abandoning) ∧ r.leaseUntil ≤ time

instance (id : String) (time : ℕ) : DecidablePred (Claimable id time) :=
  fun _ => inferInstanceAs (Decidable (_ ∧ _ ∧ _))

def claim (db : CompletedTurnStore) (id token : String) (time : ℕ) : Bool × CompletedTurnStore :=
  (changes (Claimable id time) db.receipts = 1,
    db.updateReceipts (Claimable id time) fun r =>
      { r with
        status := if r.status = .queued then .preparing else r.status
        claimToken := some token, leaseUntil := time + 30000, error := none
        senderToken := none, senderLeaseUntil := 0 })

/-- the row of the receipt, while `token` is its claim. -/
def ClaimedBy (id token : String) (r : TurnRecord) : Prop :=
  r.receiptId = id ∧ r.claimToken = some token

instance (id token : String) : DecidablePred (ClaimedBy id token) :=
  fun _ => inferInstanceAs (Decidable (_ ∧ _))

def renew (db : CompletedTurnStore) (id token : String) (now : ℕ) : Exec Unit :=
  db.updateOne (fun r => ClaimedBy id token r ∧ r.status ≠ .completed)
    (fun r => { r with
      leaseUntil := now + 30000
      senderLeaseUntil := if r.status = .sending ∧ r.senderToken = some token then now + 120000
        else r.senderLeaseUntil })
    "Completed-turn lease changed"

def bind (db : CompletedTurnStore) (id token executionId : String) (sessionId : Option String) :
    Exec Unit :=
  db.transaction <|
    match db.get id with
    | none => .error "null is not an object"
    | some row =>
      if row.claimToken ≠ some token ∨ row.status ≠ .preparing then
        .error "Completed-turn claim changed"
      else
        let bindings := update
          (fun b : TurnBinding => b.owner = row.owner ∧ b.conversationKey = row.conversationKey)
          (fun b => { b with sessionId, executionId := some executionId }) db.bindings
        let db' : CompletedTurnStore := { db with bindings }
        .ok ((), db'.updateReceipts (fun r => r.receiptId = id ∧ r.status = .preparing)
          fun r => { r with sessionId, executionId := some executionId })

def sending (db : CompletedTurnStore) (id token : String) (nativeId : Option String)
    (checkpoint now : ℕ) : Exec Unit :=
  db.updateOne (fun r => ClaimedBy id token r ∧ r.status = .preparing)
    (fun r => { r with
      status := .sending, nativeSessionId := nativeId, checkpoint := some checkpoint
      senderToken := some token, senderLeaseUntil := now + 120000 })
    "Completed-turn claim changed"

def uncertain (db : CompletedTurnStore) (id token error : String) : CompletedTurnStore :=
  db.updateReceipts (fun r => ClaimedBy id token r ∧ r.status ≠ .completed) fun r =>
    { r with
      error := some error, leaseUntil := 0, claimToken := none
      senderToken := none, senderLeaseUntil := 0
      status := if r.status = .sending then .uncertain else r.status }

/-- a turn that has been started and has not ended may be abandoned. -/
def Abandonable (s : TurnStatus) : Prop :=
  s = .preparing ∨ s = .sending ∨ s = .uncertain ∨ s = .abandoning

instance : DecidablePred Abandonable := fun _ => inferInstanceAs (Decidable (_ ∨ _ ∨ _ ∨ _))

def claimAbandonment (db : CompletedTurnStore) (id token : String) (now : ℕ) : Exec Bool :=
  db.transaction <|
    match db.get id with
    | none => .error "null is not an object"
    | some row =>
      if row.status = .abandoning ∧ now < row.leaseUntil then .ok (false, db)
      else if ¬Abandonable row.status then .ok (false, db)
      else
        let db' := db.retire row.owner row.conversationKey id
        let p := fun r : TurnRecord => r.receiptId = id ∧ ¬r.status.Final
        .ok (changes p db'.receipts = 1, db'.updateReceipts p fun r =>
          { r with
            status := .abandoning, claimToken := some token, leaseUntil := now + 30000
            senderToken := none, senderLeaseUntil := 0 })

def abandon (db : CompletedTurnStore) (id token : String) (evidence : Value) : Exec Unit :=
  db.transaction <|
    match db.get id with
    | none => .error "null is not an object"
    | some row =>
      if row.claimToken ≠ some token ∨ row.status ≠ .abandoning then
        .error "Abandonment claim changed"
      else
        .ok ((), (db.retire row.owner row.conversationKey id).updateReceipts
          (fun r => r.owner = row.owner ∧ r.conversationKey = row.conversationKey ∧
            r.status ≠ .completed) fun r =>
          { r with
            status := .abandoned, outputJson := some evidence, error := none, leaseUntil := 0
            claimToken := none, senderToken := none, senderLeaseUntil := 0 })

def complete (db : CompletedTurnStore) (id token reply nativeId : String)
    (output : Option Value) : Exec Unit :=
  if blank reply ∨ nativeId = "" then (.error "Native completed-turn evidence missing", db)
  else db.updateOne
    (fun r => ClaimedBy id token r ∧ (r.status = .sending ∨ r.status = .uncertain))
    (fun r => { r with
      status := .completed, reply := some reply, nativeSessionId := some nativeId
      outputJson := output, error := none, leaseUntil := 0, claimToken := none
      senderToken := none, senderLeaseUntil := 0 })
    "Completed-turn completion claim changed"

/-- `beginDeletion`; `receiptId` is the fresh UUID. -/
def beginDeletion (db : CompletedTurnStore) (owner : String) (request : DeletionRequest)
    (receiptId : String) : Exec Deletion :=
  db.transaction <|
    match db.deletions.find? fun d =>
      d.owner = owner ∧ d.conversationKey = request.conversationKey with
    | some previous =>
      if previous.requestJson ≠ request then .error "Conversation deletion idempotency conflict"
      else .ok (previous, db)
    | none => match db.binding owner request.conversationKey with
      | none => .error "Conversation deletion binding denied"
      | some binding =>
        if ¬truthy binding.sessionId ∨ binding.config.projectId ≠ request.projectId ∨
            binding.config.directory ≠ request.directory ∨
            truthy binding.config.executionProfile then
          .error "Conversation deletion binding denied"
        else if (db.head owner request.conversationKey).isSome then
          .error "Active or uncertain conversation turn prevents deletion"
        else
          let result : Deletion :=
            { owner, conversationKey := request.conversationKey, requestJson := request, receiptId
              sessionId := binding.sessionId.getD "", receiptJson := none }
          .ok (result, { db with deletions := db.deletions ++ [result] })

def finishDeletion (db : CompletedTurnStore) (owner key : String) (receipt : Value) :
    CompletedTurnStore :=
  let deletions := update
    (fun d : Deletion => d.owner = owner ∧ d.conversationKey = key ∧ d.receiptJson = none)
    (fun d => { d with receiptJson := some receipt }) db.deletions
  { db with deletions }

end CompletedTurnStore

end CompletedTurn
end WmAutopilot
