import Mathlib.Algebra.GroupWithZero.Nat
import Mathlib.Data.List.Sort
import WmAutopilot.Sql.Table

/-!
# Public calls and their result deliveries

The tables of `PublicCallStore` and its methods.  Times are milliseconds and an argument of the
method where the source reads the clock; a method that may throw rolls back.

* `ResultDelivery`, `ResultDeliveryRequeue`   the rows of a delivery and of a new attempt window;
* `create`, `getDelivery`, `getRequeueHistory`   a public call and what is stored about it;
* `due`, `claim`, `finish`, `exhaust`   what a delivery worker calls;
* `retryExhausted`   the owner opens a new window.
-/

set_option autoImplicit false
set_option linter.unusedVariables false

namespace WmAutopilot
namespace PublicCalls
open Sql

/-! ## rows -/

/-- `ResultDelivery["status"]` -/
inductive DeliveryStatus where
  | pending
  | delivering
  | delivered
  | failed
  deriving DecidableEq, Repr

/-- `status IN ('pending', 'delivering')` -/
def DeliveryStatus.Open (s : DeliveryStatus) : Prop := s = .pending ∨ s = .delivering

instance : DecidablePred DeliveryStatus.Open := fun _ => inferInstanceAs (Decidable (_ ∨ _))

structure ResultDelivery where
  id : String
  runId : String
  url : String
  status : DeliveryStatus := .pending
  attempts : ℕ := 0
  attemptLimit : ℕ := 5
  nextAttemptAt : ℕ := 0
  lastError : Option String := none
  lastHttpStatus : Option ℕ := none
  deliveredAt : Option ℕ := none
  payload : Option String := none
  retryCount : ℕ := 0
  retryRequestedAt : Option ℕ := none
  deriving DecidableEq, Repr

structure ResultDeliveryRequeue where
  id : String
  deliveryId : String
  retryNumber : ℕ
  priorAttempts : ℕ
  priorAttemptLimit : ℕ
  priorLastError : Option String
  priorLastHttpStatus : Option ℕ
  requestedAt : ℕ
  requestedByNpub : String
  deriving DecidableEq, Repr

/-- a row of `pipeline_runs`: what the deliveries read of it. -/
structure PipelineRun where
  id : String
  ownerNpub : Option String := none
  completedAt : Option ℕ := none
  deriving DecidableEq, Repr

/-- a row of `pipeline_public_calls`. -/
structure PublicCall where
  runId : String
  ownerNpub : String
  definitionId : String
  idempotencyKey : Option String
  fingerprint : String
  deriving DecidableEq, Repr

structure PublicCallStore where
  runs : List PipelineRun := []
  publicCalls : List PublicCall := []
  deliveries : List ResultDelivery := []
  requeues : List ResultDeliveryRequeue := []
  deriving DecidableEq, Repr

inductive RetryOutcome where
  | requeued
  | alreadyPending
  | delivered
  deriving DecidableEq, Repr

inductive RetryCode where
  | notPublicCall
  | deliveryAbsent
  | runNotTerminal
  | deliveryPayloadAbsent
  deriving DecidableEq, Repr

inductive ResultDeliveryRetry where
  | found (outcome : RetryOutcome) (delivery : ResultDelivery)
      (requeues : List ResultDeliveryRequeue)
  | invalid (code : RetryCode)
  | denied
  deriving DecidableEq, Repr

/-- `PublicCallReplay` and the constraints of the tables. -/
inductive PublicCallError where
  | replay (runId fingerprint : String)
  | constraint
  deriving DecidableEq, Repr

structure PublicCallInput where
  owner : String
  definitionId : String
  key : Option String
  fingerprint : String
  webhookUrl : Option String

/-- What `finish` is told about an attempt. -/
structure Outcome where
  status : Option ℕ
  error : Option String

/-- `outcome.status !== null && outcome.status >= 200 && outcome.status < 300 && !outcome.error` -/
def Outcome.success (o : Outcome) : Bool :=
  o.status.any (fun s => 200 ≤ s ∧ s < 300) && o.error.all (· = "")

namespace PublicCallStore

/-- `UPDATE pipeline_result_deliveries SET f WHERE p` -/
def updateDeliveries (db : PublicCallStore) (p : ResultDelivery → Prop) [DecidablePred p]
    (f : ResultDelivery → ResultDelivery) : PublicCallStore :=
  { db with deliveries := update p f db.deliveries }

/-! ## public calls -/

def find (db : PublicCallStore) (owner definitionId key : String) : Option PublicCall :=
  db.publicCalls.find? fun c =>
    c.ownerNpub = owner ∧ c.definitionId = definitionId ∧ c.idempotencyKey = some key

/-- the row of the call may not be inserted: its keys are taken. -/
def CallTaken (db : PublicCallStore) (call : PublicCall) : Prop :=
  ∃ c ∈ db.publicCalls, c.runId = call.runId ∨ c.ownerNpub = call.ownerNpub ∧
    c.definitionId = call.definitionId ∧ call.idempotencyKey ≠ none ∧
    c.idempotencyKey = call.idempotencyKey

instance (db : PublicCallStore) (call : PublicCall) : Decidable (db.CallTaken call) :=
  inferInstanceAs (Decidable (∃ c ∈ _, _))

/-- `create`; `run` is what `createRun` returns, and `id` the fresh UUID of the delivery. -/
def create (db : PublicCallStore) (input : PublicCallInput) (run : PipelineRun) (id : String) :
    Except PublicCallError PipelineRun × PublicCallStore :=
  match (input.key.filter (· ≠ "")).bind (db.find input.owner input.definitionId) with
  | some existing => (.error (.replay existing.runId existing.fingerprint), db)
  | none =>
    let call : PublicCall :=
      { runId := run.id, ownerNpub := input.owner, definitionId := input.definitionId
        idempotencyKey := input.key, fingerprint := input.fingerprint }
    if (∃ r ∈ db.runs, r.id = run.id) ∨ db.CallTaken call then (.error .constraint, db)
    else
      let created : PublicCallStore :=
        { db with runs := db.runs ++ [run], publicCalls := db.publicCalls ++ [call] }
      match input.webhookUrl.filter (· ≠ "") with
      | none => (.ok run, created)
      | some url =>
        if ∃ r ∈ db.deliveries, r.id = id ∨ r.runId = run.id then (.error .constraint, db)
        else (.ok run, { created with
          deliveries := db.deliveries ++ [{ id, runId := run.id, url : ResultDelivery }] })

def getDelivery (db : PublicCallStore) (runId : String) : Option ResultDelivery :=
  db.deliveries.find? (·.runId = runId)

def getRequeueHistory (db : PublicCallStore) (deliveryId : String) : List ResultDeliveryRequeue :=
  (db.requeues.filter (·.deliveryId = deliveryId)).mergeSort fun a b => a.retryNumber ≤ b.retryNumber

/-! ## what a worker calls -/

/-- the run is in a final state. -/
def Completed (db : PublicCallStore) (runId : String) : Prop :=
  ∃ r ∈ db.runs, r.id = runId ∧ r.completedAt ≠ none

instance (db : PublicCallStore) (runId : String) : Decidable (db.Completed runId) :=
  inferInstanceAs (Decidable (∃ r ∈ _, _))

/-- the deliveries whose time has come: at most twenty, the longest due first. -/
def due (db : PublicCallStore) (now : ℕ) : List ResultDelivery :=
  ((db.deliveries.filter fun d =>
    d.status.Open ∧ d.nextAttemptAt ≤ now ∧ db.Completed d.runId).mergeSort
      fun a b => a.nextAttemptAt ≤ b.nextAttemptAt).take 20

/-- the rows that a claim takes. -/
def Claimable (id : String) (now : ℕ) (d : ResultDelivery) : Prop :=
  d.id = id ∧ d.status.Open ∧ d.nextAttemptAt ≤ now

instance (id : String) (now : ℕ) : DecidablePred (Claimable id now) :=
  fun _ => inferInstanceAs (Decidable (_ ∧ _ ∧ _))

/-- what a claim makes of a row: the first claim freezes the payload. -/
def claimed (now : ℕ) (payload : String) (d : ResultDelivery) : ResultDelivery :=
  { d with
    status := .delivering, nextAttemptAt := now + 30000, attempts := d.attempts + 1
    payload := d.payload.or (some payload) }

def claim (db : PublicCallStore) (id : String) (now : ℕ) (payload : String) :
    Option ResultDelivery × PublicCallStore :=
  if changes (Claimable id now) db.deliveries = 0 then (none, db)
  else
    let db' := db.updateDeliveries (Claimable id now) (claimed now payload)
    (db'.deliveries.find? (·.id = id), db')

/-- the attempt of the row that `finish` is about. -/
def Current (delivery d : ResultDelivery) : Prop :=
  d.id = delivery.id ∧ d.attempts = delivery.attempts ∧ d.status = .delivering

instance (delivery : ResultDelivery) : DecidablePred (Current delivery) :=
  fun _ => inferInstanceAs (Decidable (_ ∧ _ ∧ _))

/-- `at + Math.min(60_000, 1000 * 2 ** (attempts - 1))` -/
def retryAt (now attempts : ℕ) : ℕ := now + min 60000 (1000 * 2 ^ attempts / 2)

def finish (db : PublicCallStore) (delivery : ResultDelivery) (outcome : Outcome) (now : ℕ) :
    PublicCallStore :=
  let retry := !outcome.success && decide (delivery.attempts < delivery.attemptLimit)
  db.updateDeliveries (Current delivery) fun d =>
    { d with
      status := if outcome.success then .delivered else if retry then .pending else .failed
      nextAttemptAt := retryAt now delivery.attempts
      lastError := outcome.error, lastHttpStatus := outcome.status
      deliveredAt := if outcome.success then some now else none }

def exhaust (db : PublicCallStore) (id : String) : PublicCallStore :=
  db.updateDeliveries (fun d => d.id = id ∧ d.status.Open) fun d =>
    { d with status := .failed, lastError := some "Delivery attempt limit reached" }

/-! ## a new window -/

/-- the rows for which `retryExhausted` opens a new window. -/
def Exhausted (runId : String) (retryCount : ℕ) (d : ResultDelivery) : Prop :=
  d.runId = runId ∧ d.status = .failed ∧ d.payload ≠ none ∧ d.retryCount = retryCount

instance (runId : String) (retryCount : ℕ) : DecidablePred (Exhausted runId retryCount) :=
  fun _ => inferInstanceAs (Decidable (_ ∧ _ ∧ _ ∧ _))

/-- what a new window makes of a row. -/
def requeued (now : ℕ) (d : ResultDelivery) : ResultDelivery :=
  { d with
    status := .pending, nextAttemptAt := now, attemptLimit := d.attempts + 5
    retryCount := d.retryCount + 1, retryRequestedAt := some now }

/-- `retryExhausted`; `id` is the fresh UUID of the row in the history. -/
def retryExhausted (db : PublicCallStore) (runId authorizedOwnerNpub requestedByNpub : String)
    (now : ℕ) (id : String) : Except PublicCallError ResultDeliveryRetry × PublicCallStore :=
  match db.runs.find? (·.id = runId) with
  | none => (.ok .denied, db)
  | some run =>
    if run.ownerNpub ≠ some authorizedOwnerNpub then (.ok .denied, db)
    else if ¬∃ c ∈ db.publicCalls, c.runId = runId ∧ c.ownerNpub ≠ "" ∧
        c.ownerNpub = authorizedOwnerNpub then (.ok (.invalid .notPublicCall), db)
    else match db.getDelivery runId with
      | none => (.ok (.invalid .deliveryAbsent), db)
      | some current =>
        let history := db.getRequeueHistory current.id
        if run.completedAt = none then (.ok (.invalid .runNotTerminal), db)
        else if current.status = .delivered then (.ok (.found .delivered current history), db)
        else if current.status ≠ .failed then (.ok (.found .alreadyPending current history), db)
        else if current.payload = none ∨ current.payload = some "" then
          (.ok (.invalid .deliveryPayloadAbsent), db)
        else
          let db' := db.updateDeliveries (Exhausted runId current.retryCount) (requeued now)
          let delivery := (db'.getDelivery runId).getD current
          if changes (Exhausted runId current.retryCount) db.deliveries ≠ 1 then
            (.ok (.found (if delivery.status = .delivered then .delivered else .alreadyPending)
              delivery (db'.getRequeueHistory delivery.id)), db')
          else if ∃ q ∈ db.requeues, q.id = id ∨
              q.deliveryId = current.id ∧ q.retryNumber = current.retryCount + 1 then
            (.error .constraint, db)
          else
            let row : ResultDeliveryRequeue :=
              { id, deliveryId := current.id, retryNumber := current.retryCount + 1
                priorAttempts := current.attempts, priorAttemptLimit := current.attemptLimit
                priorLastError := current.lastError
                priorLastHttpStatus := current.lastHttpStatus
                requestedAt := now, requestedByNpub }
            let db'' : PublicCallStore := { db' with requeues := db'.requeues ++ [row] }
            (.ok (.found .requeued delivery (db''.getRequeueHistory delivery.id)), db'')

end PublicCallStore

end PublicCalls
end WmAutopilot
