import Mathlib.Algebra.GroupWithZero.Nat
import WmAutopilot.Js.Platform

/-!
# The record-sync protocol

Pages and registrations as `page` and `registration` return them: an accepted decimal is canonical,
so that it is a natural number, and a deletion has no row.

* `text`, `decimal`      the readers of fields;
* `Change`, `Access`, `Page`, `Registration`   what the server sends;
* `handover`             the handover certificate of a page.
-/

set_option autoImplicit false

namespace WmAutopilot
namespace Heartbeat
open Js

/-! ## fields -/

/-- `value.length` of a string. -/
def utf16Length (s : String) : ℕ :=
  (s.toList.map fun c => if c.toNat < 0x10000 then 1 else 2).sum

def text (value : Value) (name : String) : Except String String :=
  match value with
  | .str s => if s = "" ∨ 4096 < utf16Length s then .error ("Invalid " ++ name) else .ok s
  | _ => .error ("Invalid " ++ name)

/-- `/^(0|[1-9][0-9]*)$/` -/
def isDecimal (s : String) : Bool :=
  match s.toList with
  | [] => false
  | c :: cs => if c = '0' then cs.isEmpty else c.isDigit && cs.all Char.isDigit

/-- `BigInt(s)` of a decimal. -/
def bigInt (s : String) : ℕ := s.toList.foldl (fun n c => 10 * n + (c.toNat - '0'.toNat)) 0

def decimal (value : Value) (name : String) : Except String ℕ := do
  let result ← text value name
  throwIf (¬isDecimal result) ("Invalid " ++ name)
  pure (bigInt result)

/-! ## pages -/

inductive Operation where
  | upsert
  | delete
  deriving DecidableEq, Repr

/-- A change.  `page` checks that it is canonical. -/
structure Change where
  family : String
  id : String
  version : ℕ
  operation : Operation
  scopeId : Option String
  channelId : Option String
  row : Option Value
  canonical : operation = .delete ↔ row = none
  deriving DecidableEq

/-- an actor with its `actor_id`. -/
structure Actor where
  actorId : String
  payload : Value
  deriving DecidableEq

inductive ResourceType where
  | workspace
  | scope
  | channel
  deriving DecidableEq, Repr

inductive AccessStatus where
  | granted
  | lost
  deriving DecidableEq, Repr

structure Access where
  family : String
  resourceType : ResourceType
  resourceId : String
  resourceKind : Option String
  status : AccessStatus
  deriving DecidableEq

inductive Mode where
  | snapshot
  | delta
  deriving DecidableEq, Repr

/-- A page.  `page` checks that its cursor is not empty. -/
structure Page where
  clientId : String
  checkpointRevision : ℕ
  families : List String
  mode : Mode
  changes : List Change
  actors : List Actor := []
  accessChanges : List Access := []
  accessRevision : ℕ
  nextCursor : String
  nonempty : nextCursor ≠ ""
  snapshotId : Option String
  snapshotComplete : Bool
  hasMore : Bool
  partitionsComplete : List String := []
  catchup : Value := .null
  handover : Value := .undefined
  deriving DecidableEq

structure Registration where
  authorityEpoch : String
  initialCursor : String
  checkpointCursor : Option String
  checkpointRevision : ℕ

/-! ## the handover certificate -/

structure Handover where
  targetPosition : Option ℕ
  throughPosition : ℕ
  complete : Bool
  authorityEpoch : String
  accessRevision : ℕ

/-- a field that may be `null`. -/
def nullableDecimal (value : Value) (name : String) : Except String (Option ℕ) :=
  if value = .null then .ok none else (decimal value name).map some

/-- a boolean field. -/
def boolean (value : Value) (message : String) : Except String Bool :=
  match value with
  | .bool b => .ok b
  | _ => .error message

def handover (p : Page) : Except String Handover := do
  let targetPosition ← nullableDecimal (p.handover.get "target_position") "handover target"
  let throughPosition ← decimal (p.handover.get "through_position") "handover through position"
  let authorityEpoch ← text (p.handover.get "authority_epoch") "handover authority epoch"
  let accessRevision ← decimal (p.handover.get "access_revision") "handover access revision"
  throwIf (accessRevision ≠ p.accessRevision) "Invalid handover authority metadata"
  let complete ← boolean (p.handover.get "complete") "Invalid handover authority metadata"
  throwIf (complete ∧ (targetPosition ≠ some throughPosition ∨ p.hasMore ∨ p.mode ≠ .delta ∨
    p.catchup ≠ .null)) "Incomplete handover certificate"
  throwIf (p.mode = .snapshot ∧ ¬p.snapshotComplete ∧ targetPosition ≠ none)
    "Snapshot target pinned before traversal completed"
  throwIf (p.mode = .delta ∧ targetPosition = none) "Missing fixed delta target"
  throwIf (¬p.hasMore ∧ ¬complete) "Terminal page lacks handover certificate"
  pure { targetPosition, throughPosition, complete, authorityEpoch, accessRevision }

end Heartbeat
end WmAutopilot
