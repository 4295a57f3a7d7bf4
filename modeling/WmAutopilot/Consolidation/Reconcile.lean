import WmAutopilot.Async.Prog
import WmAutopilot.Consolidation.TaskScan

/-!
# Writing once

* `WriteIntent`, `DeliveryState`   what is persisted before a write;
* `linkExistingTask`     a comment on a task, once;
* `reconcileProposal`    a task for a proposal, once: `find` reads the tasks that may be it;
* `deliverDigest`        a digest, once: the outbox of `checkpoint.ts`.
-/

set_option autoImplicit false

namespace WmAutopilot
namespace Consolidation
namespace Writes
open Js Value Async

structure WriteIntent where
  body : String
  attempted : Bool := false
  task_id : Option String := none
  verified : Bool := false
  deriving DecidableEq, Repr

inductive DigestKind where
  | recommendation
  | blocker
  deriving DecidableEq, Repr

structure Pending where
  signature : String
  body : String
  kind : DigestKind
  attempted : Bool := false
  deriving DecidableEq, Repr

structure DeliveryState where
  delivered_signature : Option String := none
  recommendation_signature : Option String := none
  blocker_signature : Option String := none
  blocker_delivered_at : Option String := none
  pending : Option Pending := none
  deriving DecidableEq, Repr

/-- The conversions that are used: `String`, `JSON.stringify`, `signature` and dates. -/
structure Texts where
  toText : Value → String
  stringify : Value → String
  signature : Value → String
  /-- `Date.parse`; `none` is `NaN`. -/
  dateParse : String → Option ℤ
  isoDate : ℤ → String

/-! ## what is asked for -/

inductive Op where
  | showTask (workspace task : String)
  | listTaskComments (workspace task : String) (limit : ℕ)
  | commentTask (workspace task body : String)
  | readCompleteTasks
  | createTask (workspace channel title description state : String)
  | persist (intent : WriteIntent)
  | readback (body : String)
  | send (body : String)
  | persistState (state : DeliveryState)

/-- an error is its message. -/
def Op.Ans : Op → Type
  | .showTask .. | .listTaskComments .. | .commentTask .. | .createTask .. => Except String Value
  | .readCompleteTasks => Except String (List Value)
  | .readback _ => Except String Bool
  | .persist _ | .persistState _ | .send _ => Except String Unit

abbrev api : Api where
  Op := Op
  Ans := Op.Ans
  yields _ := true

abbrev Writing (α : Type) := Exc api String α

/-- `record(value)` -/
def record (v : Value) : Except String Value :=
  if v.isPlainObject then .ok v else .error "Invalid record"

/-! ## links -/

structure LinkInput where
  workspace : String
  channel : String
  task : String
  body : String

inductive LinkResult where
  | linked
  | unchanged
  | uncertain
  deriving DecidableEq, Repr

def assertTask (task : Value) (workspace channel : String) : Except String Unit :=
  throwIf (task.get "workspace_id" ≠ str workspace ∨ task.get "channel_id" ≠ str channel ∨
    ¬(task.get "id").isString) "Task outside approved destination"

/-- `record(record(await client.showTask(…)).task)`, in the approved destination. -/
def shownTask (input : LinkInput) (answer : Except String Value) : Except String Value := do
  let shown ← record (← answer)
  let task ← record (shown.get "task")
  assertTask task input.workspace input.channel
  .ok task

def showTask (input : LinkInput) : Writing Value := do
  let answer ← Exc.op (A := api) (Op.showTask input.workspace input.task)
  match shownTask input answer with
  | .error e => throw e
  | .ok task => pure task

/-- the comments of a page that holds all of them. -/
def commentsOf (answer : Except String Value) : Except String (List Value) := do
  let page ← record (← answer)
  match page.get "comments" with
  | arr comments =>
    if (page.get "next_cursor").truthy ∨ page.get "has_more" = bool true ∨
        200 ≤ comments.length then .error "Comment reconciliation incomplete"
    else comments.mapM record
  | _ => .error "Comment reconciliation incomplete"

/-- a comment with the written body was read. -/
def readComment (input : LinkInput) : Writing Bool := do
  let answer ← Exc.op (A := api) (Op.listTaskComments input.workspace input.task 200)
  match commentsOf answer with
  | .error e => throw e
  | .ok comments => pure (comments.any fun c => c.get "body" = str input.body)

def persist (intent : WriteIntent) : Writing Unit :=
  Exc.tryOp (A := api) (Op.persist intent) rfl

def linkExistingTask (input : LinkInput) (intent : WriteIntent) : Writing LinkResult :=
  if intent.body ≠ input.body ∨ ∃ t ∈ intent.task_id, t ≠ "" ∧ t ≠ input.task then
    throw "Write intent changed"
  else do
    let fresh ← showTask input
    if ← readComment input then
      persist { intent with task_id := some input.task, verified := true }
      pure .unchanged
    else if intent.attempted then pure .uncertain
    else
      -- another investigator may have changed the task
      let current ← showTask input
      if current.get "row_version" ≠ fresh.get "row_version" then
        throw "Task changed; reconcile fresh task/comments before writing"
      else
        let intent := { intent with attempted := true, task_id := some input.task }
        persist intent
        let _ ← Exc.op (A := api) (Op.commentTask input.workspace input.task input.body)
        if ← readComment input then
          persist { intent with verified := true }
          pure .linked
        else pure .uncertain

/-! ## proposals -/

structure ProposalInput where
  workspace : String
  channel : String
  title : String
  body : String
  key : String
  sourceIds : List String
  matchingTaskIds : List String := []
  distinctTaskReasons : List (String × String) := []

/-- `/^[0-9a-f-]{36}$/i` -/
def isSourceId (id : String) : Bool :=
  id.toList.length = 36 && id.toList.all fun c =>
    c.isDigit || c = '-' || (c.toLower.toNat ≥ 97 && c.toLower.toNat ≤ 102)

section
variable (texts : Texts)

def ProposalInput.marker (input : ProposalInput) : String :=
  "Consolidation reference: " ++ texts.signature (str input.key)

/-- the description of a task is a text with the marker. -/
def hasMarker (input : ProposalInput) (task : Value) : Bool :=
  match task.get "description" with
  | str description => includes description (input.marker texts)
  | _ => false

/-- `t.id === intent.task_id` -/
def sameId (task : Value) (task_id : Option String) : Bool :=
  task.get "id" = match task_id with
    | some id => str id
    | none => undefined

/-- `String(task.id)` -/
def idText (task : Value) : String := texts.toText (task.get "id")

/-- a task of the workspace that may be the proposal. -/
def Matches (input : ProposalInput) (task_id : Option String) (task : Value) : Prop :=
  task.get "workspace_id" = str input.workspace ∧
    (idText texts task ∈ input.matchingTaskIds ∨ hasMarker texts input task = true ∨
      sameId task task_id = true)

instance (input : ProposalInput) (task_id : Option String) (task : Value) :
    Decidable (Matches texts input task_id task) := inferInstanceAs (Decidable (_ ∧ _))

/-- a task that names a source of the proposal. -/
def isSource (input : ProposalInput) (task : Value) : Prop :=
  task.get "workspace_id" = str input.workspace ∧ ∃ id ∈ input.sourceIds,
    includes (texts.toText ((task.get "description").orElse (str ""))) id = true ∨
      includes (texts.stringify ((task.get "metadata").orElse (obj []))) id = true

instance (input : ProposalInput) (task : Value) : Decidable (isSource texts input task) :=
  inferInstanceAs (Decidable (_ ∧ _))

/-- a source task is the proposal, or there is a reason why it is another. -/
def Explained (input : ProposalInput) (task_id : Option String) (task : Value) : Prop :=
  idText texts task ∈ input.matchingTaskIds ∨ sameId task task_id = true ∨
    includes (texts.toText ((task.get "description").orElse (str ""))) (input.marker texts) ∨
    ∃ reason ∈ input.distinctTaskReasons.lookup (idText texts task), trim reason ≠ ""

instance (input : ProposalInput) (task_id : Option String) (task : Value) :
    Decidable (Explained texts input task_id task) := inferInstanceAs (Decidable (_ ∨ _))

/-- the task of the proposal among those that were read. -/
def findTask (input : ProposalInput) (task_id : Option String) (tasks : List Value) :
    Except String (Option Value) := do
  throwIf (∃ id ∈ input.matchingTaskIds, ¬∃ t ∈ tasks,
    t.get "workspace_id" = str input.workspace ∧ t.get "id" = str id)
    "Matching task no longer readable"
  throwIf (∃ t ∈ tasks, isSource texts input t ∧ ¬Explained texts input task_id t)
    "Existing source task requires semantic reconciliation"
  let found := tasks.filter fun t => Matches texts input task_id t
  throwIf (1 < found.length) "Multiple matching proposals require review"
  .ok found.head?

def find (input : ProposalInput) (intent : WriteIntent) : Writing (Option Value) := do
  let answer ← Exc.op (A := api) Op.readCompleteTasks
  match answer >>= findTask texts input intent.task_id with
  | .error e => throw e
  | .ok task => pure task

/-- the intent of the task that was found. -/
def WriteIntent.found (intent : WriteIntent) (task : Value) : WriteIntent :=
  { intent with task_id := some (idText texts task), verified := true }

def reconcileProposal (input : ProposalInput) (intent : WriteIntent) :
    Writing (Option Value) :=
  if input.key = "" then throw "Missing stable proposal key"
  else if input.sourceIds = [] ∨ ∃ id ∈ input.sourceIds, ¬isSourceId id then
    throw "Missing valid proposal source references"
  else do
    match ← find texts input intent with
    | some existing =>
      persist (intent.found texts existing)
      pure (some existing)
    | none =>
      if intent.attempted then pure none
      else if intent.body ≠ input.body then throw "Proposal intent changed"
      else
        let intent := { intent with attempted := true }
        persist intent
        let _ ← Exc.op (A := api) (Op.createTask input.workspace input.channel input.title
          (input.body ++ "\n\n" ++ input.marker texts) "backlog")
        match ← find texts input intent with
        | none => pure none
        | some created =>
          match assertTask created input.workspace input.channel with
          | .error e => throw e
          | .ok () =>
            persist (intent.found texts created)
            pure (some created)

/-! ## digests -/

structure DigestInput where
  kind : DigestKind
  material : Value
  body : String
  now : ℤ
  blockerIntervalMs : ℤ := 24 * 60 * 60 * 1000

inductive DigestResult where
  | delivered
  | unchanged
  | throttled
  | uncertain
  deriving DecidableEq, Repr

def DigestKind.value : DigestKind → Value
  | recommendation => str "recommendation"
  | blocker => str "blocker"

def DigestInput.hash (input : DigestInput) : String :=
  texts.signature (obj [("kind", input.kind.value), ("material", input.material)])

def persistState (state : DeliveryState) : Writing Unit :=
  Exc.tryOp (A := api) (Op.persistState state) rfl

def readback (body : String) : Writing Bool := Exc.tryOp (A := api) (Op.readback body) rfl

/-- a digest that was delivered already. -/
def DeliveryState.unchanged (state : DeliveryState) (input : DigestInput) (hash : String) : Prop :=
  state.delivered_signature = some hash ∨
    (input.kind = .recommendation ∧ state.recommendation_signature = some hash)

instance (state : DeliveryState) (input : DigestInput) (hash : String) :
    Decidable (state.unchanged input hash) := inferInstanceAs (Decidable (_ ∨ _))

/-- a blocker that was delivered not long ago. -/
def DeliveryState.throttled (state : DeliveryState) (input : DigestInput) (hash : String) : Prop :=
  input.kind = .blocker ∧ state.blocker_signature = some hash ∧
    ∃ at' ∈ texts.dateParse (state.blocker_delivered_at.getD ""),
      input.now - at' < input.blockerIntervalMs

instance (state : DeliveryState) (input : DigestInput) (hash : String) :
    Decidable (state.throttled texts input hash) := inferInstanceAs (Decidable (_ ∧ _))

/-- the state after a digest was delivered. -/
def DeliveryState.delivered (state : DeliveryState) (input : DigestInput) (hash : String) :
    DeliveryState :=
  let state := { state with delivered_signature := some hash, pending := none }
  match input.kind with
  | .recommendation => { state with recommendation_signature := some hash }
  | .blocker => { state with
      blocker_signature := some hash
      blocker_delivered_at := some (texts.isoDate input.now) }

/-- the digest is sent unless it was read back or attempted before. -/
def sendOnce (state : DeliveryState) (pending : Pending) (input : DigestInput) (hash : String) :
    Writing DigestResult := do
  if ← readback input.body then
    persistState (state.delivered texts input hash)
    pure .delivered
  else if pending.attempted then pure .uncertain
  else
    let state := { state with pending := some { pending with attempted := true } }
    persistState state
    match ← Exc.op (A := api) (Op.send input.body) with
    | .error _ => pure .uncertain
    | .ok () =>
      if ← readback input.body then
        persistState (state.delivered texts input hash)
        pure .delivered
      else pure .uncertain

def deliverDigest (input : DigestInput) (state : DeliveryState) : Writing DigestResult :=
  let hash := input.hash texts
  if ∃ pending ∈ state.pending, pending.signature ≠ hash then
    throw "Reconcile pending digest before replacing it"
  else if state.pending = none ∧ state.unchanged input hash then pure .unchanged
  else if state.pending = none ∧ state.throttled texts input hash then pure .throttled
  else
    let pending := state.pending.getD { signature := hash, body := input.body, kind := input.kind }
    if pending.body ≠ input.body then throw "Pending digest body changed"
    else do
      let state := { state with pending := some pending }
      persistState state
      sendOnce texts state pending input hash

end

end Writes
end Consolidation
end WmAutopilot
