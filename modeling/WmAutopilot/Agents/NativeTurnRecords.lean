import Mathlib.Data.Nat.Notation
import WmAutopilot.Js.Throw

/-!
# The records of native turns

* `Parsed`, `parse`       what one line of a transcript says;
* `NativeTurnRecords`     the requests that were counted, and `visit`, which counts one more or
                          returns what a turn does;
* `NativeTurnBoundary`    the turn after a checkpoint, selected by its number and its prompt.
-/

set_option autoImplicit false

namespace WmAutopilot
namespace NativeTurns
open Js Value

/-! ## lines -/

/-- what a turn is asked or does. -/
inductive Item where
  | user (text : String)
  | message (text : String) (phase : Value) (id : Option String)
  | tools
  | complete (text : Option String) (error : Value)
  | aborted (text : Option String) (error : Value)
  deriving DecidableEq, Repr

/-- `NativeTurnRecord`; no item is `type: "started"`. -/
structure NativeTurnRecord where
  item : Option Item := none
  turnId : Option String
  source : String
  deriving DecidableEq, Repr

/-- What a line says, with the turn id that is its own. -/
inductive Parsed where
  | nothing
  | context (turnId : Option String)
  | started (turnId : Option String) (source : String)
  | item (turnId : Option String) (source : String) (item : Option Item)
  deriving DecidableEq, Repr

/-- `typeof v === "string" ? v : null` -/
def stringOrNull : Value → Option String
  | str s => some s
  | _ => none

def textOfPart (part : Value) : Option String :=
  if part.get "type" ∈ ["text", "Text", "input_text", "output_text"].map str then
    stringOrNull (part.get "text")
  else none

def textContent : Value → Option String
  | arr (part :: parts) => ((part :: parts).mapM textOfPart).map String.join
  | _ => none

/-- `kinds` names texts of a user only. -/
def onlyUserText : Value → Bool
  | arr kinds => kinds ≠ [] && kinds.all (· = str "user.text")
  | _ => false

section
variable (toText : Value → String)

/-- The item of a line: `toText` is `String`. -/
def itemOf (type payload metadata item : Value) : Option Item :=
  if type = str "event_msg" ∧ payload.get "type" = str "user_message" ∧
      (payload.get "message").isString then
    (stringOrNull (payload.get "message")).map .user
  else if type = str "response_item" ∧ payload.get "type" = str "message" ∧
      payload.get "role" = str "user" then
    if onlyUserText (metadata.get "content_item_kinds") then
      (textContent (payload.get "content")).map .user
    else none
  else if item.get "type" = str "UserMessage" then (textContent (item.get "content")).map .user
  else if type = str "event_msg" ∧ payload.get "type" = str "agent_message" ∧
      (payload.get "message").isString then
    (stringOrNull (payload.get "message")).map (.message · (payload.get "phase") none)
  else if (type = str "response_item" ∧ payload.get "type" = str "message" ∧
      payload.get "role" = str "assistant") ∨ item.get "type" = str "AgentMessage" then
    let message := item.orElse payload
    (textContent (message.get "content")).map
      (.message · (message.get "phase") (stringOrNull (message.get "id")))
  else if (type = str "response_item" ∧ toText (payload.get "type") ∈
      ["function_call", "custom_tool_call", "web_search_call", "local_shell_call"]) ∨
      (item.isPlainObject ∧ toText (item.get "type") ∈
        ["CommandExecution", "McpToolCall", "WebSearch", "CustomToolCall"]) then
    some .tools
  else if type = str "event_msg" ∧
      toText (payload.get "type") ∈ ["task_complete", "turn_aborted"] then
    let text := stringOrNull (payload.get "last_agent_message")
    some (if payload.get "type" = str "task_complete" then .complete text (payload.get "error")
      else .aborted text (payload.get "error"))
  else none

def parse (record : Value) : Parsed :=
  let type := record.get "type"
  let payload := record.get "payload"
  if ¬payload.isPlainObject then .nothing
  else if type = str "turn_context" then .context (stringOrNull (payload.get "turn_id"))
  else
    let source := toText type ++ ":" ++ toText (payload.get "type")
    let explicitTurn := stringOrNull (payload.get "turn_id")
    if type = str "event_msg" ∧ payload.get "type" = str "task_started" then
      .started explicitTurn source
    else
      let metadata := (payload.get "internal_chat_message_metadata_passthrough").getObject
      let item :=
        if type = str "event_msg" ∧ payload.get "type" = str "item_completed" then
          (payload.get "item").getObject
        else null
      .item (explicitTurn.or (stringOrNull (metadata.get "turn_id"))) source
        (itemOf toText type payload metadata item)

end

/-! ## counting -/

structure NativeTurnRecords where
  count : ℕ := 0
  turnId : Option String := none
  /-- the newest entry of a turn is its text. -/
  users : List (String × String) := []
  messageIds : List (Option String × String) := []
  /-- text and source. -/
  lastUser : Option (String × String) := none
  deriving DecidableEq, Repr

/-- a text that is not empty. -/
def present (text : Option String) : Option String := text.filter (· ≠ "")

/-- the id of a message, when it has one. -/
def Item.messageId : Item → Option String
  | message _ _ id => present id
  | _ => none

def Item.terminal : Item → Bool
  | complete .. | aborted .. => true
  | _ => false

namespace NativeTurnRecords

/-- a request, or a mirror of one. -/
def visitUser (s : NativeTurnRecords) (text : String) (turnId : Option String) (source : String) :
    Except String (NativeTurnRecords × Option NativeTurnRecord) :=
  match (present turnId).bind (s.users.lookup ·) with
  | some known =>
    if known ≠ text then .error "Native turn contains inconsistent user input" else .ok (s, none)
  | none =>
    let users := ((present turnId).map (·, text)).toList ++ s.users
    if s.lastUser.any fun last => last.1 = text && last.2 ≠ source then
      .ok ({ s with users }, none)
    else
      .ok ({ s with count := s.count + 1, users, lastUser := some (text, source) },
        some { item := some (.user text), turnId, source })

/-- what a turn does. -/
def visitActivity (s : NativeTurnRecords) (item : Item) (turnId : Option String)
    (source : String) : NativeTurnRecords × Option NativeTurnRecord :=
  match item.messageId with
  | some id =>
    if (turnId, id) ∈ s.messageIds then ({ s with lastUser := none }, none)
    else ({ s with lastUser := none, messageIds := (turnId, id) :: s.messageIds },
      some { item := some item, turnId, source })
  | none =>
    ({ s with lastUser := none, turnId := if item.terminal then none else s.turnId },
      some { item := some item, turnId, source })

/-- a line of another turn than the one whose id is in effect. -/
def Foreign (s : NativeTurnRecords) (turnId : Option String) : Prop :=
  (present s.turnId).isSome ∧ (present turnId).isSome ∧ turnId ≠ s.turnId

instance (s : NativeTurnRecords) (turnId : Option String) : Decidable (s.Foreign turnId) :=
  inferInstanceAs (Decidable (_ ∧ _ ∧ _))

def step (s : NativeTurnRecords) :
    Parsed → Except String (NativeTurnRecords × Option NativeTurnRecord)
  | .nothing => .ok (s, none)
  | .context turnId =>
    .ok ({ s with turnId := turnId.or s.turnId },
      some { turnId := turnId.or s.turnId, source := "turn_context" })
  | .started turnId source =>
    .ok ({ s with turnId, lastUser := none }, some { turnId, source })
  | .item own source item =>
    let turnId := own.or s.turnId
    if s.Foreign turnId then .ok (s, none)
    else match item with
      | none => .ok (s, none)
      | some (.user text) => s.visitUser text turnId source
      | some item => .ok (s.visitActivity item turnId source)

def visit (toText : Value → String) (s : NativeTurnRecords) (record : Value) :
    Except String (NativeTurnRecords × Option NativeTurnRecord) := s.step (parse toText record)

end NativeTurnRecords

/-! ## the selected turn -/

structure NativeTurnBoundary where
  records : NativeTurnRecords := {}
  active : Bool := false
  closed : Bool := false
  turnId : Option String := none
  deriving DecidableEq, Repr

namespace NativeTurnBoundary

/-- what becomes of an event of the records. -/
def receive (b : NativeTurnBoundary) (checkpoint : ℕ) (prompt : String) (event : NativeTurnRecord) :
    Except String (NativeTurnBoundary × Option NativeTurnRecord) :=
  match event.item with
  | none =>
    if b.active ∧ event.turnId ≠ b.turnId then .ok ({ b with closed := true }, none)
    else if ¬b.active then .ok (b, none)
    else .ok (b, some event)
  | some (.user text) =>
    if b.records.count ≤ checkpoint then .ok (b, none)
    else if b.active then .ok ({ b with closed := true }, none)
    else if b.records.count ≠ checkpoint + 1 ∨ text ≠ prompt then
      .error "Native turn checkpoint does not match the exact bound prompt/request"
    else .ok ({ b with active := true, turnId := event.turnId }, none)
  | some item =>
    if ¬b.active ∨ ((present b.turnId).isSome ∧ event.turnId ≠ b.turnId) then .ok (b, none)
    else .ok ({ b with closed := item.terminal }, some event)

def visit (toText : Value → String) (checkpoint : ℕ) (prompt : String) (b : NativeTurnBoundary)
    (record : Value) : Except String (NativeTurnBoundary × Option NativeTurnRecord) :=
  if b.closed then .ok (b, none)
  else do
    let (records, event) ← b.records.visit toText record
    match event with
    | none => .ok ({ b with records }, none)
    | some event => ({ b with records } : NativeTurnBoundary).receive checkpoint prompt event

end NativeTurnBoundary

/-- the lines of a transcript, and what is returned for them. -/
def visitAll {σ : Type} (visit : σ → Value → Except String (σ × Option NativeTurnRecord)) :
    σ → List Value → Except String (σ × List NativeTurnRecord)
  | s, [] => .ok (s, [])
  | s, record :: records => do
    let (s, event) ← visit s record
    let (s, events) ← visitAll visit s records
    .ok (s, event.toList ++ events)

end NativeTurns
end WmAutopilot
