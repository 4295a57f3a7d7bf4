import WmAutopilot.Async.Pool
import WmAutopilot.Sessions.CompletedTurnStore

/-!
# The executors of completed turns

`executeCompletedTurn` and `abandonCompletedTurn` as programs over the operations `TurnOp`: the
statements of the store, the calls of the runtime, the callbacks and the timers.

Every operation yields, so the executors may belong to any number of processes: between two
operations of one of them the others perform theirs, time passes (every statement that reads the
clock may read any time, so leases expire at any point) or the executor dies.  The promise chain of
one host (`conversations`) only orders executors of one process and is left out.

* `World`           the database, what the timers share, and the history of the run
                    (`tokens`, `claims`, `marks`, `sent`);
* `TurnRuntime`     the native runtime: a recovered outcome is evidence that the prompt was sent;
* `perform`         what each operation does;
* `system`          the executors, abandonments, heartbeats and maintenance calls that may run.
-/

set_option autoImplicit false
set_option linter.unusedVariables false

namespace WmAutopilot
namespace CompletedTurn
open Js Sql Async

/-! ## operations -/

/-- what the runtime reports of a completed turn. -/
structure Evidence where
  reply : String
  nativeSessionId : String
  output : Option Value

/-- the saved boundary of the native conversation. -/
structure Checkpoint where
  nativeSessionId : Option String
  count : ℕ

/-- the operations of executors.  `send` carries the receipt whose prompt it hands over. -/
inductive TurnOp where
  | park
  | randomUUID
  | enqueue (owner : String) (request : CompletedTurnRequest) (runId stepId : String)
  | get (id : String)
  | head (owner key : String)
  | request (owner requestId : String)
  | binding (owner key : String)
  | claim (id token : String)
  | renew (id token : String)
  | bind (id token executionId : String) (sessionId : Option String)
  | sending (id token : String) (nativeId : Option String) (checkpoint : ℕ)
  | uncertain (id token error : String)
  | claimAbandonment (id token : String)
  | abandon (id token : String) (evidence : Value)
  | complete (id token reply nativeId : String) (output : Option Value)
  | recoverMissingPreparation (owner : String) (request : CompletedTurnRequest)
  | refreshActiveSenderForSession (sessionId : String)
  | beginDeletion (owner : String) (request : DeletionRequest)
  | finishDeletion (owner key : String) (receipt : Value)
  | setInterval (id token : String)
  | clearInterval (id token : String)
  | setLeaseError (token error : String)
  | leaseError (token : String)
  | authorize (request : CompletedTurnRequest) (owner : String)
  | prepare (binding : TurnBinding) (request : CompletedTurnRequest) (recovering : Bool)
  | ready (executionId : String)
  | checkpoint (executionId : String)
  | send (id executionId prompt : String)
  | recover (row : TurnRecord)
  | runtimeAbandon (row : TurnRecord)
  | onSession (row : TurnRecord) (sessionId : Option String) (executionId : String)
  | onTurn (row : Option TurnRecord)

/-- answers; an operation that may throw answers with an `Except`. -/
def TurnOp.Ans : TurnOp → Type
  | park | setInterval _ _ | clearInterval _ _ | setLeaseError _ _ | uncertain _ _ _
  | finishDeletion _ _ _ | onTurn _ => Unit
  | randomUUID => String
  | enqueue _ _ _ _ => Except String TurnRecord
  | get _ | head _ _ | request _ _ | refreshActiveSenderForSession _ => Option TurnRecord
  | binding _ _ => Option TurnBinding
  | claim _ _ => Bool
  | claimAbandonment _ _ => Except String Bool
  | renew _ _ | bind _ _ _ _ | sending _ _ _ _ | abandon _ _ _ | complete _ _ _ _ _
  | recoverMissingPreparation _ _ | authorize _ _ | ready _ | onSession _ _ _ => Except String Unit
  | beginDeletion _ _ => Except String Deletion
  | leaseError _ => Option String
  | prepare _ _ _ => Except String (String × Option String)
  | checkpoint _ => Except String Checkpoint
  | send _ _ _ => Except String Evidence
  | recover _ => Except String (Option Evidence)
  | runtimeAbandon _ => Except String Value

/-- the operations as an interface; all of them yield. -/
def api : Api := ⟨TurnOp, TurnOp.Ans, fun _ => true⟩

/-- programs of executors. -/
abbrev Turn (α : Type) := Exc api String α

/-- an operation that cannot throw. -/
def op (o : TurnOp) : Turn (api.Ans o) := Exc.op (A := api) o

/-- an operation that may throw. -/
def tryOp {α : Type} (o : TurnOp) (h : o.Ans = Except String α := by rfl) : Turn α :=
  Exc.tryOp (A := api) o h

/-- the operation that the statement fences with a claim: the receipt and the token. -/
def TurnOp.fence : TurnOp → Option (String × String)
  | renew id token | bind id token _ _ | sending id token _ _ | uncertain id token _
  | abandon id token _ | complete id token _ _ _ => some (id, token)
  | _ => none

/-! ## programs -/

structure CompletedTurnReceipt where
  receiptId : String
  conversationKey : String
  requestId : String
  projectId : String
  runId : String
  stepId : String
  sessionId : Option String
  executionId : Option String
  nativeSessionId : Option String
  status : TurnStatus
  sequence : ℕ
  reply : Option String
  error : Option String
  output : Option Value
  blockedBy : Option String := none

def publicTurnReceipt (row : TurnRecord) : CompletedTurnReceipt where
  receiptId := row.receiptId
  conversationKey := row.conversationKey
  requestId := row.requestId
  projectId := row.projectId
  runId := row.runId
  stepId := row.stepId
  sessionId := row.sessionId
  executionId := row.executionId
  nativeSessionId := row.nativeSessionId
  status := row.status
  sequence := row.sequence
  reply := row.reply
  error := row.error
  output := row.outputJson

/-- what a caller passes to `executeCompletedTurn`. -/
structure ExecuteInput where
  owner : String
  request : CompletedTurnRequest
  runId : String
  stepId : String

/-- a property of a value that is `null` is read. -/
def nonNull {α : Type} (a : Option α) : Turn α :=
  match a with
  | some a => pure a
  | none => throw "null is not an object"

/-- `if (leaseError) throw leaseError` -/
def checkLease (token : String) : Turn Unit := do
  let leaseError : Option String ← op (.leaseError token)
  match leaseError with
  | some error => throw error
  | none => pure ()

/-- a turn whose prompt may have been sent is only recovered from native evidence. -/
def recoverTurn (head : TurnRecord) (token : String) : Turn Unit := do
  let _ ← op (.onTurn (some head))
  let evidence : Option Evidence ← tryOp (.recover head)
  match evidence with
  | none => throw "Native completed-turn outcome uncertain; no prompt was replayed"
  | some evidence =>
    tryOp (.complete head.receiptId token evidence.reply evidence.nativeSessionId evidence.output)

/-- a turn that has not been sent is prepared, marked and sent. -/
def deliverTurn (owner : String) (request : CompletedTurnRequest) (head : TurnRecord)
    (token : String) : Turn Unit := do
  let found : Option TurnBinding ← op (.binding owner request.conversationKey)
  let binding ← nonNull found
  let recovering : Bool := head.status ≠ .queued
  let prepared : String × Option String ←
    tryOp (.prepare binding head.requestJson (recovering && !truthy head.executionId))
  let executionId := prepared.1
  let sessionId := prepared.2
  let _ ← tryOp (.bind head.receiptId token executionId sessionId)
  let _ ← tryOp (.onSession head sessionId executionId)
  let _ ← tryOp (.ready executionId)
  let checkpoint : Checkpoint ← tryOp (.checkpoint executionId)
  checkLease token
  let _ ← tryOp (.renew head.receiptId token)
  let _ ← tryOp (.sending head.receiptId token checkpoint.nativeSessionId checkpoint.count)
  let row : Option TurnRecord ← op (.get head.receiptId)
  let _ ← op (.onTurn row)
  let completed : Evidence ← tryOp (.send head.receiptId executionId head.prompt)
  checkLease token
  if truthy checkpoint.nativeSessionId ∧
      checkpoint.nativeSessionId ≠ some completed.nativeSessionId then
    throw "Native conversation changed during completed turn; continuity lost"
  tryOp (.complete head.receiptId token completed.reply completed.nativeSessionId completed.output)

/-- the public receipt of the target, read again. -/
def targetReceipt (targetId : String) : Turn CompletedTurnReceipt := do
  let found : Option TurnRecord ← op (.get targetId)
  let row ← nonNull found
  pure (publicTurnReceipt row)

/-- one round of the loop of `executeCompletedTurn` on the head of the conversation: `none` when the
loop goes on. -/
def drainHead (owner : String) (request : CompletedTurnRequest) (targetId : String)
    (head : TurnRecord) : Turn (Option CompletedTurnReceipt) := do
  let token : String ← op .randomUUID
  let claimed : Bool ← op (.claim head.receiptId token)
  if claimed = false then
    let receipt ← targetReceipt targetId
    return some { receipt with blockedBy := some head.receiptId }
  let _ ← op (.setInterval head.receiptId token)
  let attempt : Turn (Option CompletedTurnReceipt) := tryCatch
    (do
      if head.status = .sending ∨ head.status = .uncertain then recoverTurn head token
      else deliverTurn owner request head token
      return none)
    (fun error => do
      -- Neither acceptance nor elapsed time permits replay.
      let _ ← op (.uncertain head.receiptId token error)
      let result ← targetReceipt targetId
      return some (if head.receiptId = targetId then result
        else { result with blockedBy := some head.receiptId }))
  Exc.andFinally attempt (op (.clearInterval head.receiptId token))

/-- the loop of `executeCompletedTurn`, for at most `fuel` rounds. -/
def drain (owner : String) (request : CompletedTurnRequest) (targetId : String) :
    ℕ → Turn CompletedTurnReceipt
  | 0 => do
    let _ ← op .park
    throw "out of fuel"
  | fuel + 1 => do
    let found : Option TurnRecord ← op (.get targetId)
    let target ← nonNull found
    if target.status.Final then targetReceipt targetId
    else
      let found : Option TurnRecord ← op (.head owner request.conversationKey)
      let head ← nonNull found
      match ← drainHead owner request targetId head with
      | some receipt => return receipt
      | none => drain owner request targetId fuel

def executeCompletedTurn (fuel : ℕ) (input : ExecuteInput) : Turn CompletedTurnReceipt := do
  if input.owner = "" then throw "Completed turns require an authenticated pipeline owner"
  let _ ← tryOp (.authorize input.request input.owner)
  let target : TurnRecord ← tryOp (.enqueue input.owner input.request input.runId input.stepId)
  drain input.owner input.request target.receiptId fuel

/-- the abandonment of a claimed turn. -/
def stopTurn (row : TurnRecord) (token : String) : Turn CompletedTurnReceipt := do
  let evidence : Value ← tryOp (.runtimeAbandon row)
  checkLease token
  let _ ← tryOp (.renew row.receiptId token)
  let _ ← tryOp (.abandon row.receiptId token evidence)
  targetReceipt row.receiptId

/-- `runtimeAbandons`: the runtime has an `abandon` method. -/
def abandonCompletedTurn (runtimeAbandons : Bool) (owner : String)
    (request : CompletedTurnRequest) : Turn CompletedTurnReceipt := do
  if owner = "" ∨ truthy request.executionProfile ∨ runtimeAbandons = false then
    throw "Dedicated native abandonment required"
  let found : Option TurnRecord ← op (.request owner request.requestId)
  match found with
  | none => throw "Abandonment request binding denied"
  | some row =>
    if row.requestJson ≠ request then throw "Abandonment request binding denied"
    let _ ← tryOp (.authorize { request with sessionId := row.sessionId } owner)
    if row.status.Final then return publicTurnReceipt row
    let head : Option TurnRecord ← op (.head owner request.conversationKey)
    if head.map (·.receiptId) ≠ some row.receiptId ∨ ¬truthy row.sessionId then
      throw "Failed head turn required for abandonment"
    let token : String ← op .randomUUID
    let claimed : Bool ← tryOp (.claimAbandonment row.receiptId token)
    if claimed = false then
      throw "Completed-turn delivery remains active; abandonment refused"
    let _ ← op (.setInterval row.receiptId token)
    let attempt : Turn CompletedTurnReceipt := tryCatch (stopTurn row token) fun error => do
      let _ ← op (.uncertain row.receiptId token error)
      throw error
    Exc.andFinally attempt (op (.clearInterval row.receiptId token))

/-- one tick of the timer that renews a lease. -/
def heartbeat (id token : String) : Turn Unit :=
  tryCatch (tryOp (.renew id token)) fun error => op (.setLeaseError token error)

/-! ## the world -/

/-- The database, what the timers share with their executors, and the history of the run: which
thread drew each UUID, the claims that succeeded, the claims under which a receipt was marked as
being sent, and the receipts whose prompt was handed to the runtime, in order. -/
structure World where
  db : CompletedTurnStore := {}
  intervals : List (String × String) := []
  leaseErrors : List (String × String) := []
  uuids : List String := []
  tokens : List (String × ℕ) := []
  claims : List (String × String) := []
  marks : List (String × String) := []
  sent : List String := []

/-- The native runtime.  `recovers w row e`: in `w` the native conversation of `row` gives the
evidence `e` of its completion.  It correlates the exact prompt after the saved boundary, so a
prompt that was never handed over leaves no evidence. -/
structure TurnRuntime where
  recovers : World → TurnRecord → Evidence → Prop
  recovers_sent : ∀ w row e, recovers w row e → row.receiptId ∈ w.sent

/-- the world after a statement that answers `r`. -/
def World.Exec {α : Type} (w : World) (x : α × CompletedTurnStore) (r : α) (w' : World) : Prop :=
  r = x.1 ∧ w' = { w with db := x.2 }

/-- What an operation of thread `κ` does: world before, answer, world after. -/
def perform (rt : TurnRuntime) (κ : ℕ) : (o : TurnOp) → World → o.Ans → World → Prop
  | .park, _, _, _ => False
  | .randomUUID, w, r, w' => r ∉ w.uuids ∧
      w' = { w with uuids := r :: w.uuids, tokens := (r, κ) :: w.tokens }
  | .enqueue owner request runId stepId, w, r, w' => ∃ id, id ∉ w.uuids ∧
      ({ w with uuids := id :: w.uuids }).Exec (w.db.enqueue owner request runId stepId id) r w'
  | .get id, w, r, w' => r = w.db.get id ∧ w' = w
  | .head owner key, w, r, w' => r = w.db.head owner key ∧ w' = w
  | .request owner requestId, w, r, w' => r = w.db.request owner requestId ∧ w' = w
  | .binding owner key, w, r, w' => r = w.db.binding owner key ∧ w' = w
  | .claim id token, w, r, w' => ∃ now, let x := w.db.claim id token now
      r = x.1 ∧ w' = { w with db := x.2
                              claims := if x.1 then (id, token) :: w.claims else w.claims }
  | .renew id token, w, r, w' => ∃ now, w.Exec (w.db.renew id token now) r w'
  | .bind id token executionId sessionId, w, r, w' =>
      w.Exec (w.db.bind id token executionId sessionId) r w'
  | .sending id token nativeId checkpoint, w, r, w' => ∃ now,
      let x := w.db.sending id token nativeId checkpoint now
      r = x.1 ∧ w' = { w with db := x.2
                              marks := match x.1 with
                                | .ok () => (id, token) :: w.marks
                                | .error _ => w.marks }
  | .uncertain id token error, w, _, w' => w' = { w with db := w.db.uncertain id token error }
  | .claimAbandonment id token, w, r, w' => ∃ now, let x := w.db.claimAbandonment id token now
      r = x.1 ∧ w' = { w with db := x.2
                              claims := match x.1 with
                                | .ok true => (id, token) :: w.claims
                                | _ => w.claims }
  | .abandon id token evidence, w, r, w' => w.Exec (w.db.abandon id token evidence) r w'
  | .complete id token reply nativeId output, w, r, w' =>
      w.Exec (w.db.complete id token reply nativeId output) r w'
  | .recoverMissingPreparation owner request, w, r, w' =>
      w.Exec (w.db.recoverMissingPreparation owner request) r w'
  | .refreshActiveSenderForSession sessionId, w, r, w' => ∃ now,
      w.Exec (w.db.refreshActiveSenderForSession sessionId now) r w'
  | .beginDeletion owner request, w, r, w' => ∃ id, id ∉ w.uuids ∧
      ({ w with uuids := id :: w.uuids }).Exec (w.db.beginDeletion owner request id) r w'
  | .finishDeletion owner key receipt, w, _, w' =>
      w' = { w with db := w.db.finishDeletion owner key receipt }
  | .setInterval id token, w, _, w' => w' = { w with intervals := (id, token) :: w.intervals }
  | .clearInterval id token, w, _, w' =>
      w' = { w with intervals := w.intervals.filter (· ≠ (id, token)) }
  | .setLeaseError token error, w, _, w' =>
      w' = { w with leaseErrors := (token, error) :: w.leaseErrors }
  | .leaseError token, w, r, w' => r = w.leaseErrors.lookup token ∧ w' = w
  | .send id _ _, w, _, w' => w' = { w with sent := w.sent ++ [id] }
  | .recover row, w, r, w' => w' = w ∧ ∀ e, r = .ok (some e) → rt.recovers w row e
  | .authorize _ _, w, _, w' | .prepare _ _ _, w, _, w' | .ready _, w, _, w'
  | .checkpoint _, w, _, w' | .runtimeAbandon _, w, _, w' | .onSession _ _ _, w, _, w'
  | .onTurn _, w, _, w' => w' = w

/-- the programs that processes start: executors, abandonments, ticks of a running timer, and the
maintenance calls of the store. -/
inductive Spawn (w : World) : Prog api Unit → Prop where
  | execute (fuel : ℕ) (input : ExecuteInput) : Spawn w (executeCompletedTurn fuel input).detach
  | abandon (runtimeAbandons : Bool) (owner : String) (request : CompletedTurnRequest) :
      Spawn w (abandonCompletedTurn runtimeAbandons owner request).detach
  | tick (id token : String) (h : (id, token) ∈ w.intervals) : Spawn w (heartbeat id token).detach
  | recover (owner : String) (request : CompletedTurnRequest) :
      Spawn w (tryOp (.recoverMissingPreparation owner request) : Turn Unit).detach
  | refresh (sessionId : String) :
      Spawn w (op (.refreshActiveSenderForSession sessionId)).detach
  | beginDeletion (owner : String) (request : DeletionRequest) :
      Spawn w (tryOp (.beginDeletion owner request) : Turn Deletion).detach
  | finishDeletion (owner key : String) (receipt : Value) :
      Spawn w (op (.finishDeletion owner key receipt)).detach

/-- executors over one database.  A crash of all processes leaves the database; the death of one
process kills its threads one by one. -/
def system (rt : TurnRuntime) : System api World where
  perform := perform rt
  spawn w _ p := Spawn w p
  crash w w' := w' = { w with intervals := [], leaseErrors := [] }

/-- an empty database and no history. -/
def World.Initial (w : World) : Prop := w = {}

end CompletedTurn
end WmAutopilot
