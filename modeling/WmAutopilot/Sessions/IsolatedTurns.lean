import WmAutopilot.Async.Prog
import WmAutopilot.Js.Segments
import WmAutopilot.Js.Throw
import WmAutopilot.Sql.Table

/-!
# Completed turns of isolated runs

* `validateSnapshot`     the files of a project that are accepted;
* `IsolatedTurnState`    a row of the store: one for a conversation;
* `prepareRow`, `completeRows`   `IsolatedTurnStore`;
* `prepare`, `checkpoint`, `send`, `recover`   the runtime, on the operations `Op`: statements on
  the table, the requests that an executor has prepared, and the run of the model.
-/

set_option autoImplicit false

namespace WmAutopilot
namespace IsolatedTurns
open Js Async

/-! ## snapshots -/

structure ProjectFile where
  path : String
  base64 : String
  deriving DecidableEq, Repr

def maxFiles : ℕ := 2048

def snapshotBytes : ℕ := 16 * 1024 * 1024

/-- `[A-Za-z0-9_. -]` -/
def isPathChar (c : Char) : Bool := c.isAlphanum || c ∈ ['_', '.', ' ', '-']

/-- a path of names without `.` and `..`. -/
def isPath (path : String) : Bool :=
  (segments path).all fun part =>
    part ≠ [] && part.all isPathChar && part ≠ ['.'] && part ≠ ['.', '.']

/-- `/^(?:[A-Za-z0-9+/]{4})*(?:[A-Za-z0-9+/]{2}==|[A-Za-z0-9+/]{3}=)?$/` -/
def isBase64 (text : List Char) : Bool :=
  let digits := text.rdropWhile (· = '=')
  text.length % 4 = 0 && text.length ≤ digits.length + 2 &&
    digits.all fun c => c.isAlphanum || c = '+' || c = '/'

/-- `Buffer.byteLength(base64, "base64")` -/
def byteLength (base64 : String) : ℕ :=
  (base64.toList.rdropWhile (· = '=')).length * 3 / 4

/-- a file is a directory of another one. -/
def Conflict (paths : List String) : Prop :=
  ∃ path ∈ paths, ∃ other ∈ paths, segments other <+: segments path ∧
    segments other ≠ segments path

instance (paths : List String) : Decidable (Conflict paths) := by
  unfold Conflict
  infer_instance

def validateSnapshot (files : List ProjectFile) : Except String Unit := do
  throwIf (maxFiles < files.length) "Invalid or oversized isolation snapshot"
  throwIf (¬(files.all fun f => isPath f.path && isBase64 f.base64.toList) ∨
    ¬(files.map (·.path)).Nodup) "Invalid isolation snapshot path or encoding"
  throwIf (snapshotBytes < files.foldl (fun n f => n + byteLength f.base64) 0)
    "Isolation snapshot byte limit exceeded"
  throwIf (Conflict (files.map (·.path))) "Isolation snapshot file/directory conflict"

/-! ## the store -/

/-- what a request is made of; the JSON of files is the files. -/
structure CompletedTurnRequest where
  conversationKey : String
  requestId : String
  prompt : String
  projectFiles : List ProjectFile
  durationMs : ℕ

structure IsolatedTurnState where
  executionId : String
  owner : String
  conversationKey : String
  config : String
  nativeReference : Option String
  turns : ℕ
  pendingRequestId : String
  prompt : String
  projectJson : List ProjectFile
  continuityJson : List ProjectFile
  completedRequestId : Option String
  reply : Option String
  deriving DecidableEq

/-- what a run of the model returns. -/
structure RunResult where
  nativeReference : String
  reply : String
  project : List ProjectFile
  continuity : List ProjectFile
  deriving DecidableEq

abbrev Rows := List IsolatedTurnState

def get (rows : Rows) (id : String) : Option IsolatedTurnState :=
  rows.find? fun row => row.executionId = id

/-- `SELECT * FROM isolated_turn_state WHERE owner=? AND conversationKey=?` -/
def ofConversation (rows : Rows) (owner key : String) : Option IsolatedTurnState :=
  rows.find? fun row => row.owner = owner ∧ row.conversationKey = key

/-- the row of a new conversation. -/
def newRow (id owner : String) (request : CompletedTurnRequest) (config : String) :
    IsolatedTurnState where
  executionId := id
  owner := owner
  conversationKey := request.conversationKey
  config := config
  nativeReference := none
  turns := 0
  pendingRequestId := request.requestId
  prompt := request.prompt
  projectJson := request.projectFiles
  continuityJson := []
  completedRequestId := none
  reply := none

def IsolatedTurnState.prepared (row : IsolatedTurnState) (request : CompletedTurnRequest) :
    IsolatedTurnState :=
  { row with
    pendingRequestId := request.requestId
    prompt := request.prompt
    projectJson := request.projectFiles }

/-- a text that is not `""`. -/
def nonEmpty (text : Option String) : Option String := text.filter fun t => t ≠ ""

/-- `prepare`, with the identifier that a new row gets: the rows afterwards and the row returned. -/
def prepareRow (rows : Rows) (owner : String) (request : CompletedTurnRequest) (config : String)
    (boundId : Option String) (newId : String) : Except String (Rows × IsolatedTurnState) := do
  let existing := ofConversation rows owner request.conversationKey
  throwIf (∃ id ∈ nonEmpty boundId, existing.map (·.executionId) ≠ some id)
    "Isolated runtime binding missing or changed"
  throwIf (∃ row ∈ existing, row.config ≠ config)
    "Isolated native runtime image/model binding changed"
  match existing with
  | none =>
    let row := newRow newId owner request config
    .ok (rows ++ [row], row)
  | some row =>
    if row.pendingRequestId = request.requestId then .ok (rows, row)
    else
      throwIf (some row.pendingRequestId ≠ row.completedRequestId)
        "Previous isolated native request remains unresolved"
      .ok (Sql.update (fun r => r.executionId = row.executionId) (·.prepared request) rows,
        row.prepared request)

/-- `!result.reply.trim() || (state.nativeReference && result.nativeReference !== …)` -/
def ContinuityLost (state : IsolatedTurnState) (result : RunResult) : Prop :=
  blank result.reply = true ∨
    ∃ reference ∈ nonEmpty state.nativeReference, result.nativeReference ≠ reference

instance (state : IsolatedTurnState) (result : RunResult) :
    Decidable (ContinuityLost state result) := inferInstanceAs (Decidable (_ ∨ _))

/-- the row that `complete` updates. -/
def Bound (state row : IsolatedTurnState) : Prop :=
  row.executionId = state.executionId ∧ row.pendingRequestId = state.pendingRequestId ∧
    row.turns = state.turns

instance (state row : IsolatedTurnState) : Decidable (Bound state row) :=
  inferInstanceAs (Decidable (_ ∧ _))

def IsolatedTurnState.completed (row : IsolatedTurnState) (requestId : String)
    (result : RunResult) : IsolatedTurnState :=
  { row with
    nativeReference := some result.nativeReference
    reply := some result.reply
    projectJson := result.project
    continuityJson := result.continuity
    turns := row.turns + 1
    completedRequestId := some requestId }

def completeRows (rows : Rows) (state : IsolatedTurnState) (result : RunResult) :
    Except String Rows := do
  throwIf (ContinuityLost state result) "Isolated native conversation continuity lost"
  throwIf (Sql.changes (Bound state) rows ≠ 1) "Isolated native completion binding changed"
  .ok (Sql.update (Bound state) (·.completed state.pendingRequestId result) rows)

/-! ## the runtime -/

structure Binding where
  owner : String
  executionId : Option String

/-- the columns of a receipt that `recover` reads. -/
structure Receipt where
  owner : String
  conversationKey : String
  requestId : String
  executionId : Option String
  nativeSessionId : Option String
  checkpoint : Option ℕ

structure Recovered where
  reply : String
  nativeSessionId : String
  output : List ProjectFile

/-- what a run of the model is given. -/
structure RunInput where
  prompt : String
  project : List ProjectFile
  continuity : List ProjectFile
  durationMs : ℕ
  nativeReference : Option String

inductive Op where
  | prepareRow (owner : String) (request : CompletedTurnRequest) (config : String)
      (boundId : Option String)
  | get (id : String)
  /-- `prepared.set(id, …)` of an executor. -/
  | setPrepared (executor : ℕ) (id requestId : String) (durationMs : ℕ)
  /-- `prepared.get(id)` -/
  | getPrepared (executor : ℕ) (id : String)
  | run (input : RunInput)
  | complete (state : IsolatedTurnState) (result : RunResult)
  /-- `recover` returns a reply. -/
  | recovered (receipt : Receipt) (answer : Recovered)
  /-- an executor starts again: what it has prepared is gone. -/
  | restart (executor : ℕ)

def Op.Ans : Op → Type
  | .prepareRow .. => Except String IsolatedTurnState
  | .get _ => Option IsolatedTurnState
  | .getPrepared .. => Option (String × ℕ)
  | .run _ => Except String RunResult
  | .complete .. => Except String Unit
  | _ => Unit

/-- executors are processes of their own: between any two operations others may run. -/
abbrev api : Api where
  Op := Op
  Ans := Op.Ans
  yields _ := true

abbrev Turning (α : Type) := Exc api String α

/-- what a computation throws. -/
def raise {α : Type} : Except String α → Turning α
  | .ok a => pure a
  | .error e => throw e

section
variable (executor : ℕ) (config : String)

def prepare (binding : Binding) (request : CompletedTurnRequest) : Turning String := do
  let value : IsolatedTurnState ← Exc.tryOp (A := api)
    (Op.prepareRow binding.owner request config binding.executionId) rfl
  Exc.op (A := api) (Op.setPrepared executor value.executionId request.requestId request.durationMs)
  pure value.executionId

def state (id : String) : Turning IsolatedTurnState := do
  let value : Option IsolatedTurnState ← Exc.op (A := api) (Op.get id)
  let value ← raise (orThrow "Isolated native execution binding unavailable" value)
  raise (throwIf (value.config ≠ config) "Isolated native runtime configuration changed")
  pure value

def checkpoint (id : String) : Turning (Option String × ℕ) := do
  let value ← state config id
  pure (value.nativeReference, value.turns)

/-- the request that is sent is the one that was prepared here and is not completed. -/
def Sendable (pending : Option (String × ℕ)) (value : IsolatedTurnState) (prompt : String) :
    Prop :=
  (pending.map Prod.fst = some value.pendingRequestId) ∧ prompt = value.prompt ∧
    value.completedRequestId ≠ some value.pendingRequestId

instance (pending : Option (String × ℕ)) (value : IsolatedTurnState) (prompt : String) :
    Decidable (Sendable pending value prompt) := inferInstanceAs (Decidable (_ ∧ _))

def output (value : IsolatedTurnState) : Except String (List ProjectFile) := do
  validateSnapshot value.projectJson
  .ok value.projectJson

def send (id prompt : String) : Turning Recovered := do
  let value ← state config id
  let pending : Option (String × ℕ) ← Exc.op (A := api) (Op.getPrepared executor id)
  raise (throwIf (¬Sendable pending value prompt) "Isolated exact native request binding changed")
  let result : RunResult ← Exc.tryOp (A := api) (Op.run {
    prompt
    project := value.projectJson
    continuity := value.continuityJson
    durationMs := (pending.map Prod.snd).getD 0
    nativeReference := nonEmpty value.nativeReference }) rfl
  raise (validateSnapshot result.project)
  raise (validateSnapshot result.continuity)
  Exc.tryOp (A := api) (Op.complete value result) rfl
  let completed ← state config id
  let output ← raise (output completed)
  pure ⟨result.reply, result.nativeReference, output⟩

/-- the receipt is of the request that the row completed last. -/
def OfReceipt (receipt : Receipt) (checkpoint : ℕ) (value : IsolatedTurnState) : Prop :=
  value.completedRequestId = some receipt.requestId ∧ value.turns = checkpoint + 1

instance (receipt : Receipt) (checkpoint : ℕ) (value : IsolatedTurnState) :
    Decidable (OfReceipt receipt checkpoint value) := inferInstanceAs (Decidable (_ ∧ _))

/-- what a row answers to a receipt. -/
def answerOf (receipt : Receipt) (checkpoint : ℕ) (value : IsolatedTurnState) :
    Except String (Option Recovered) := do
  throwIf (value.owner ≠ receipt.owner ∨ value.conversationKey ≠ receipt.conversationKey)
    "Isolated native ownership denied"
  if OfReceipt receipt checkpoint value then
    match nonEmpty value.reply, nonEmpty value.nativeReference with
    | some reply, some reference =>
      throwIf (∃ id ∈ nonEmpty receipt.nativeSessionId, id ≠ reference)
        "Isolated native reference changed"
      let files ← output value
      .ok (some ⟨reply, reference, files⟩)
    | _, _ => .ok none
  else .ok none

def recover (receipt : Receipt) : Turning (Option Recovered) := do
  let id ← raise (orThrow "Isolated native receipt checkpoint missing"
    (nonEmpty receipt.executionId))
  let checkpoint ← raise (orThrow "Isolated native receipt checkpoint missing" receipt.checkpoint)
  let value ← state config id
  let answer ← raise (answerOf receipt checkpoint value)
  match answer with
  | none => pure none
  | some answer =>
    Exc.op (A := api) (Op.recovered receipt answer)
    pure (some answer)

end

end IsolatedTurns
end WmAutopilot
