import Mathlib.Data.List.Sort
import Mathlib.Algebra.Order.Group.Int
import Mathlib.Algebra.GroupWithZero.Nat
import WmAutopilot.Js.Throw
import WmAutopilot.Sql.Table

/-!
# Activity webhooks

The outbox of the public activity of a turn, and the worker that delivers it.

* `Binding`, `Turn`, `Event`, `Delivery`    the two tables;
* `bind`, `bindNative`, `append`, `finish`  what the monitor of a turn writes;
* `due`, `claim`, `settle`, `exhaust`       what the worker reads and writes;
* `World`, `Step`                           the worker with its requests in flight, between restarts.

A body is the event that it is the text of.
-/

set_option autoImplicit false
set_option linter.unusedVariables false

namespace WmAutopilot
namespace Pipelines
namespace Activity
open Js Sql

/-! ## tables -/

/-- `ActivityWebhookDestination` -/
structure Destination where
  url : String
  correlation : List (String × String)
  deriving DecidableEq, Repr

/-- `ActivityTurnBinding` -/
structure Binding where
  turnId : String
  runId : String
  stepId : String
  sessionId : Option String
  receiptId : Option String
  checkpoint : ℕ
  prompt : String
  destination : Destination
  deriving DecidableEq, Repr

/-- a row of `pipeline_activity_turns`. -/
structure Turn where
  binding : Binding
  terminal : Bool := false
  nativeSessionId : Option String := none
  deriving DecidableEq, Repr

def Turn.turnId (t : Turn) : String := t.binding.turnId

inductive EventType where
  | commentary
  | tools
  | completed
  | failed
  deriving DecidableEq, Repr

/-- the event that ends a turn. -/
def EventType.terminal : EventType → Bool
  | completed | failed => true
  | commentary | tools => false

/-- `ActivityWebhookEvent`, version 1. -/
structure Event where
  eventId : String
  sequence : ℕ
  runId : String
  stepId : String
  sessionId : Option String
  turnId : String
  correlation : List (String × String)
  timestamp : String
  type : EventType
  content : String
  deriving DecidableEq, Repr

inductive Status where
  | pending
  | delivering
  | delivered
  | failed
  deriving DecidableEq, Repr

/-- the status will not change any more. -/
def Status.settled : Status → Bool
  | pending | delivering => false
  | delivered | failed => true

/-- the columns of a delivery that are written once. -/
structure Entry where
  eventId : String
  turnId : String
  sequence : ℕ
  url : String
  body : Event
  deriving DecidableEq, Repr

/-- a row of `pipeline_activity_deliveries`. -/
structure Delivery extends Entry where
  status : Status := .pending
  attempts : ℕ := 0
  nextAttemptAt : ℤ := 0
  lastError : Option String := none
  deriving DecidableEq, Repr

structure Db where
  turns : List Turn := []
  deliveries : List Delivery := []

/-! ## the monitor -/

/-- `INSERT OR IGNORE`, then the saved binding is compared. -/
def bind (b : Binding) (db : Db) : Except String Unit × Db :=
  let db' := if ∃ t ∈ db.turns, t.turnId = b.turnId then db
    else { db with turns := db.turns ++ [{ binding := b }] }
  match db'.turns.find? (·.turnId = b.turnId) with
  | none => (.error "null is not an object", db')
  | some saved =>
    if saved.binding ≠ b then (.error "Activity turn binding changed", db') else (.ok (), db')

def bindNative (turnId nativeSessionId : String) (db : Db) : Except String Unit × Db :=
  let db' := { db with
    turns := update (fun t => t.turnId = turnId)
      (fun t => { t with nativeSessionId := t.nativeSessionId.or (some nativeSessionId) }) db.turns }
  match db'.turns.find? (·.turnId = turnId) with
  | none => (.error "Activity native conversation binding changed", db')
  | some row =>
    if row.nativeSessionId ≠ some nativeSessionId then
      (.error "Activity native conversation binding changed", db')
    else (.ok (), db')

/-- an event with its place in the turn. -/
def eventOf (b : Binding) (eventId : String) (sequence : ℕ) (type : EventType)
    (content timestamp : String) : Event :=
  { eventId, sequence, runId := b.runId, stepId := b.stepId, sessionId := b.sessionId
    turnId := b.turnId, correlation := b.destination.correlation, timestamp, type, content }

/-- the body of the transaction. -/
def enqueueBody (activityEventId : String → String → String) (b : Binding) (source : String)
    (type : EventType) (content timestamp : String) (terminal : Bool) (db : Db) :
    Except String Db := do
  let state ← orThrow "Activity turn binding missing" (db.turns.find? (·.turnId = b.turnId))
  let eventId := activityEventId b.turnId source
  if state.terminal then pure db
  else match db.deliveries.find? (·.eventId = eventId) with
    | some existing => do
      let event := existing.body
      throwIf (event.type ≠ type ∨ event.content ≠ content ∨ event.timestamp ≠ timestamp)
        "Activity public source changed after publication"
      pure db
    | none =>
      let count := db.deliveries.countP (·.turnId = b.turnId)
      if ¬terminal ∧ 256 ≤ count then pure db
      else do
        let event := eventOf b eventId (count + 1) type content timestamp
        throwIf (∃ d ∈ db.deliveries, d.turnId = b.turnId ∧ d.sequence = event.sequence)
          ("UNIQUE constraint failed: pipeline_activity_deliveries.turnId, " ++
            "pipeline_activity_deliveries.sequence")
        let delivery : Delivery :=
          { eventId, turnId := b.turnId, sequence := event.sequence, url := b.destination.url
            body := event }
        pure { db with
          deliveries := db.deliveries ++ [delivery]
          turns := if terminal then
              update (fun t => t.turnId = b.turnId) (fun t => { t with terminal := true }) db.turns
            else db.turns }

/-- `db.transaction(body).immediate()` -/
def enqueue (activityEventId : String → String → String) (b : Binding) (source : String)
    (type : EventType) (content timestamp : String) (terminal : Bool) (db : Db) :
    Except String Unit × Db :=
  match enqueueBody activityEventId b source type content timestamp terminal db with
  | .ok db' => (.ok (), db')
  | .error e => (.error e, db)

/-- `PublicTurnActivity`: commentary or a sign of tools. -/
structure PublicTurnActivity where
  sourceId : String
  timestamp : String
  tools : Bool
  content : String
  deriving DecidableEq, Repr

def append (activityEventId : String → String → String) (b : Binding) (a : PublicTurnActivity) :
    Db → Except String Unit × Db :=
  enqueue activityEventId b a.sourceId (if a.tools then .tools else .commentary) a.content a.timestamp
    false

def finish (activityEventId : String → String → String) (b : Binding) (success : Bool)
    (timestamp : String) : Db → Except String Unit × Db :=
  enqueue activityEventId b "terminal" (if success then .completed else .failed)
    (if success then "Completed" else "Failed") timestamp true

/-! ## the worker -/

/-- the deliveries of which none comes before in its turn, the longest due first. -/
def due (now : ℤ) (db : Db) : List Delivery :=
  ((db.deliveries.filter fun d => ¬d.status.settled ∧ d.nextAttemptAt ≤ now ∧
      ¬∃ p ∈ db.deliveries, p.turnId = d.turnId ∧ p.sequence < d.sequence ∧ ¬p.status.settled)
    |>.insertionSort fun a b => a.nextAttemptAt ≤ b.nextAttemptAt).take 8

/-- the rows that `claim` updates. -/
def claimable (id : String) (now : ℤ) (d : Delivery) : Prop :=
  d.eventId = id ∧ ¬d.status.settled ∧ d.nextAttemptAt ≤ now ∧ d.attempts < 3

instance (id : String) (now : ℤ) : DecidablePred (claimable id now) :=
  fun d => inferInstanceAs (Decidable (_ ∧ _ ∧ _ ∧ _))

def claim (id : String) (now : ℤ) (db : Db) : Option Delivery × Db :=
  if changes (claimable id now) db.deliveries = 0 then (none, db)
  else
    let db' := { db with
      deliveries := update (claimable id now) (fun d =>
        { d with status := .delivering, attempts := d.attempts + 1, nextAttemptAt := now + 30000 })
        db.deliveries }
    (db'.deliveries.find? (·.eventId = id), db')

def settle (delivery : Delivery) (status : Option ℕ) (now : ℤ) (db : Db) : Db :=
  let success : Prop := ∃ s ∈ status, 200 ≤ s ∧ s < 300
  { db with
    deliveries := update
      (fun d => d.eventId = delivery.eventId ∧ d.attempts = delivery.attempts ∧
        d.status = .delivering)
      (fun d =>
        { d with
          status := if success then .delivered else if 3 ≤ delivery.attempts then .failed
            else .pending
          nextAttemptAt := now + 1000 * 2 ^ delivery.attempts
          lastError := if success then none else match status with
            | none => some "Activity delivery failed"
            | some s => some ("Receiver returned HTTP " ++ toString s) })
      db.deliveries }

def exhaust (id : String) (db : Db) : Db :=
  { db with
    deliveries := update (fun d => d.eventId = id ∧ 3 ≤ d.attempts ∧ ¬d.status.settled)
      (fun d => { d with status := .failed, lastError := some "Activity attempt limit reached" })
      db.deliveries }

/-! ## runs -/

/-- The file, the tick of the worker with the deliveries it has not begun and the requests in flight,
and the requests that were sent, in order. -/
structure World where
  db : Db := {}
  busy : Bool := false
  todo : List Delivery := []
  flights : List Delivery := []
  sent : List Delivery := []

/-- one delivery of a tick: given up, or claimed and sent. -/
def World.process (w : World) (d : Delivery) (rest : List Delivery) (now : ℤ) : World :=
  if 3 ≤ d.attempts then { w with todo := rest, db := exhaust d.eventId w.db }
  else
    match claim d.eventId now w.db with
    | (none, db) => { w with todo := rest, db }
    | (some delivery, db) =>
      { w with todo := rest, db, flights := w.flights ++ [delivery], sent := w.sent ++ [delivery] }

/-- The monitor, the worker, the receivers and restarts, in any order and at any times. -/
inductive Step (activityEventId : String → String → String) (w : World) : World → Prop where
  | bind (b : Binding) : Step activityEventId w { w with db := (bind b w.db).2 }
  | bindNative (turnId nativeSessionId : String) :
      Step activityEventId w { w with db := (bindNative turnId nativeSessionId w.db).2 }
  | append (b : Binding) (a : PublicTurnActivity) :
      Step activityEventId w { w with db := (append activityEventId b a w.db).2 }
  | finish (b : Binding) (success : Bool) (timestamp : String) :
      Step activityEventId w { w with db := (finish activityEventId b success timestamp w.db).2 }
  /-- a tick of a worker that is not busy. -/
  | tick (now : ℤ) (idle : ¬w.busy) :
      Step activityEventId w { w with busy := true, todo := (due now w.db).take 2 }
  | next (d : Delivery) (rest : List Delivery) (now : ℤ) (h : w.todo = d :: rest) :
      Step activityEventId w (w.process d rest now)
  /-- a response, or none. -/
  | result (before after : List Delivery) (d : Delivery) (status : Option ℕ) (now : ℤ)
      (h : w.flights = before ++ d :: after) :
      Step activityEventId w { w with db := settle d status now w.db, flights := before ++ after }
  | done (begun : w.todo = []) (answered : w.flights = []) :
      Step activityEventId w { w with busy := false }
  | restart : Step activityEventId w { w with busy := false, todo := [], flights := [] }

end Activity
end Pipelines
end WmAutopilot
