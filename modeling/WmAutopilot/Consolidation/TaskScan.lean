import Mathlib.Algebra.Order.Ring.Rat
import WmAutopilot.Async.Prog
import WmAutopilot.Js.Keyed
import WmAutopilot.Js.Platform

/-!
# The scan of tasks

* `ScanConfig`, `ScanResult`, `Progress`   the approved channels and what a scan found;
* `checkPage`, `collectTask`   one page: its guards, and the rows that are kept;
* `readPages`, `scanChannel`, `scanChannels`   the loops, with what an error does to a channel;
* `scanTasks`   the whole scan, with its budgets, its resumption and its saves.
-/

set_option autoImplicit false

namespace WmAutopilot
namespace Consolidation
open Js Value Async

/-! ## data -/

structure ApprovedChannel where
  id : String
  name : String
  scope_id : String
  deriving DecidableEq, Repr

structure ScanConfig where
  workspace_id : String
  scope_id : String
  channels : List ApprovedChannel
  deriving DecidableEq, Repr

/-- where the reading of a channel is, and the cursors that were returned. -/
structure Progress where
  cursor : Option String := none
  done : Bool := false
  seen : List String := []
  deriving DecidableEq, Repr

structure Gap where
  channel : Option String := none
  reason : String
  deriving DecidableEq, Repr

structure ScanResult where
  config_signature : String
  started_at : String
  complete : Bool := false
  continuation_complete : Option Bool := none
  channels_checked : ℕ := 0
  pages_read : ℕ := 0
  requests : ℕ := 0
  tasks : List Value := []
  gaps : List Gap := []
  progress : List (String × Progress) := []
  deriving DecidableEq, Repr

/-- What is thrown: its `status ?? statusCode ?? 0` and, when it is an `Error`, its message. -/
structure ClientError where
  status : Value := num 0
  message : Option String
  deriving DecidableEq, Repr

/-- a failed save, or what a request or a guard threw. -/
inductive Fault where
  | persistence
  | thrown (error : ClientError)
  deriving DecidableEq, Repr

/-- `throw new Error(message)` -/
def Fault.error (message : String) : Fault := .thrown { message := some message }

/-! ## what a scan asks for -/

inductive Request where
  | listChannels (workspace scope : String) (limit : ℕ)
  | showChannel (workspace channel : String)
  | listTasks (workspace channel : String) (limit : ℕ) (cursor : Option String)
  deriving DecidableEq, Repr

inductive Op where
  | request (q : Request)
  | save (result : ScanResult)
  /-- the caller has the result. -/
  | returned (result : ScanResult)

def Op.Ans : Op → Type
  | .request _ => Except ClientError Value
  -- it was saved
  | .save _ => Bool
  | .returned _ => Unit

abbrev api : Api where
  Op := Op
  Ans := Op.Ans
  yields _ := true

/-! ## pages -/

/-- `rows(value)` -/
def rows : Value → Except String (List Value)
  | arr vs => if vs.all isPlainObject then .ok vs else .error "Invalid record"
  | _ => .error "Invalid record collection"

/-- `next_cursor` is `null` or a text that is not empty. -/
def cursorOf : Value → Except String (Option String)
  | null => .ok none
  | str s => if s = "" then .error "invalid_or_repeated_cursor" else .ok (some s)
  | _ => .error "invalid_or_repeated_cursor"

/-- the rows and the next cursor of a page of a channel. -/
def checkPage (workspace channel : String) (pageSize : ℕ) (seen : List String) (page : Value) :
    Except String (List Value × Option String) := do
  let tasks ← rows (page.get "tasks")
  throwIf (page.get "channel_id" ≠ str channel ∨ pageSize < tasks.length ∨
    tasks.any fun t => ¬(t.get "id").isString ∨ t.get "workspace_id" ≠ str workspace ∨
      t.get "channel_id" ≠ str channel) "task_scope_mismatch"
  let next ← cursorOf (page.get "next_cursor")
  throwIf (page.get "has_more" ≠ bool next.isSome ∨
    (next.isSome ∧ (tasks = [] ∨ ∃ c ∈ next, c ∈ seen))) "invalid_or_repeated_cursor"
  .ok (tasks, next)

/-- `map.set(task.id, task)` -/
def putTask : List Value → Value → List Value := put (·.get "id")

/-- `Number(task.row_version) >= Number(prior.row_version)` -/
def newer (task prior : Value) : Bool :=
  match numberOf (task.get "row_version"), numberOf (prior.get "row_version") with
  | some v, some w => w ≤ v
  | _, _ => false

/-- the newer row of a task is kept. -/
def collectTask (tasks : List Value) (task : Value) : Except String (List Value) :=
  match tasks.find? fun t => t.get "id" = task.get "id" with
  | none => .ok (putTask tasks task)
  | some prior =>
    if prior.get "workspace_id" ≠ task.get "workspace_id" ∨
        prior.get "channel_id" ≠ task.get "channel_id" then .error "task_identity_mismatch"
    else .ok (if newer task prior then putTask tasks task else tasks)

def collectTasks (collected tasks : List Value) : Except String (List Value) :=
  tasks.foldlM collectTask (collected.foldl putTask [])

/-! ## the scan -/

structure Budget where
  pageSize : ℕ
  maxPages : ℕ
  maxRequests : ℕ

structure ScanInput where
  config : ScanConfig
  pageSize : ℚ := 100
  maxPages : ℚ := 50
  maxRequests : ℚ := 80
  resume : Option ScanResult := none
  /-- `options.save` is given. -/
  saves : Bool := true
  now : String

/-- an integer between one and a bound. -/
def bounded (q : ℚ) (max : ℕ) : Option ℕ :=
  if q.den = 1 ∧ 1 ≤ q ∧ q ≤ max then some q.num.toNat else none

def ScanInput.budget (input : ScanInput) : Option Budget := do
  let pageSize ← bounded input.pageSize 200
  let maxPages ← bounded input.maxPages 100
  let maxRequests ← bounded input.maxRequests 200
  some { pageSize, maxPages, maxRequests }

def ScanConfig.valid (config : ScanConfig) : Prop :=
  config.workspace_id ≠ "" ∧ config.scope_id ≠ "" ∧ config.channels ≠ [] ∧
    (config.channels.map (·.id)).Nodup ∧
    ∀ c ∈ config.channels, c.id ≠ "" ∧ c.name ≠ "" ∧ c.scope_id = config.scope_id

instance (config : ScanConfig) : Decidable config.valid := inferInstanceAs (Decidable (_ ∧ _))

/-- the saved result is one of the same map. -/
def ScanResult.resumes (resume : ScanResult) (config : ScanConfig) (signature : String) : Prop :=
  resume.config_signature = signature ∧
    (∀ t ∈ resume.tasks, t.get "workspace_id" = str config.workspace_id ∧
      (t.get "id").isString = true ∧ ∃ c ∈ config.channels, str c.id = t.get "channel_id") ∧
    ∀ entry ∈ resume.progress, ∃ c ∈ config.channels, c.id = entry.1

instance (resume : ScanResult) (config : ScanConfig) (signature : String) :
    Decidable (resume.resumes config signature) := inferInstanceAs (Decidable (_ ∧ _))

/-- what changes during a scan. -/
structure Scan where
  result : ScanResult
  pagesThisRun : ℕ := 0
  accessBlocks : ℕ := 0

namespace Scan

def asked (s : Scan) : Scan :=
  { s with result := { s.result with requests := s.result.requests + 1 } }

/-- `result.progress[channel] ??= …` -/
def checked (s : Scan) (channel : String) : Scan :=
  { s with result := { s.result with
      channels_checked := s.result.channels_checked + 1
      progress :=
        if (s.result.progress.lookup channel).isSome then s.result.progress
        else s.result.progress ++ [(channel, {})] } }

/-- a page was read: the progress of its channel is `progress` from now on. -/
def paged (s : Scan) (channel : String) (tasks : List Value) (progress : Progress) : Scan :=
  { s with
    result := { s.result with
      tasks
      progress := s.result.progress.map fun entry =>
        if entry.1 = channel then (channel, progress) else entry
      pages_read := s.result.pages_read + 1 }
    pagesThisRun := s.pagesThisRun + 1 }

/-- tasks of a channel are not kept. -/
def drop (s : Scan) (channel : String) : Scan :=
  { s with
    result := { s.result with
      tasks := s.result.tasks.filter (·.get "channel_id" ≠ str channel)
      progress := s.result.progress.filter (·.1 ≠ channel) }
    accessBlocks := s.accessBlocks + 1 }

def gap (s : Scan) (channel : Option String) (reason : String) : Scan :=
  { s with result := { s.result with gaps := s.result.gaps ++ [{ channel, reason }] } }

end Scan

/-- a message that is known. -/
def reasonOf (known : List String) (otherwise : String) (e : ClientError) : String :=
  match e.message with
  | some message => if message ∈ known then message else otherwise
  | none => otherwise

/-- the reason why a channel was not read. -/
def channelReason (e : ClientError) : String :=
  if e.status = num 401 ∨ e.status = num 403 then "access_denied"
  else if e.status = num 429 then "rate_limit"
  else if e.status = num 400 then "invalid_cursor"
  else reasonOf ["request_budget", "page_budget", "channel_scope_mismatch", "task_scope_mismatch",
    "task_identity_mismatch", "invalid_or_repeated_cursor"] "request_failed" e

def enumerationReason : ClientError → String :=
  reasonOf ["channel_enumeration_partial", "approved_map_changed_or_hidden", "request_budget"]
    "channel_enumeration_failed"

/-- what is thrown leaves the scan as it is then. -/
abbrev Scanning (α : Type) := Exc api (Fault × Scan) α

def request (budget : Budget) (q : Request) (s : Scan) : Scanning (Value × Scan) :=
  if budget.maxRequests ≤ s.result.requests then throw (.error "request_budget", s)
  else do
    match ← Exc.op (A := api) (Op.request q) with
    | .error e => throw (.thrown e, s.asked)
    | .ok v =>
      if v.isPlainObject then pure (v, s.asked) else throw (.error "Invalid record", s.asked)

def save (input : ScanInput) (s : Scan) : Scanning Unit :=
  if input.saves then do
    let saved : Bool ← Exc.op (A := api) (Op.save s.result)
    if saved then pure () else throw (.persistence, s)
  else pure ()

/-- a page of a channel: what it adds. -/
def readPage (input : ScanInput) (budget : Budget) (channel : String) (s : Scan)
    (progress : Progress) (page : Value) : Except String (Scan × Progress) := do
  let (tasks, next) ← checkPage input.config.workspace_id channel budget.pageSize progress.seen page
  let collected ← collectTasks s.result.tasks tasks
  let progress : Progress :=
    { cursor := next, done := next.isNone, seen := progress.seen ++ next.toList }
  .ok (s.paged channel collected progress, progress)

/-- `while (!progress.done)`, with the pages that are left of the budget. -/
def readPages (input : ScanInput) (budget : Budget) (channel : String) :
    ℕ → Scan → Progress → Scanning Scan
  | left, s, progress =>
    if progress.done then pure s
    else match left with
      | 0 => throw (.error "page_budget", s)
      | left + 1 => do
        let (page, s) ← request budget
          (.listTasks input.config.workspace_id channel budget.pageSize progress.cursor) s
        match readPage input budget channel s progress page with
        | .error message => throw (.error message, s)
        | .ok (s, progress) =>
          save input s
          readPages input budget channel left s progress

def scanChannel (input : ScanInput) (budget : Budget) (approved : ApprovedChannel) (s : Scan) :
    Scanning Scan := do
  let (shown, s) ← request budget (.showChannel input.config.workspace_id approved.id) s
  let channel := shown.get "channel"
  if ¬channel.isPlainObject then throw (.error "Invalid record", s)
  else if channel.get "id" ≠ str approved.id ∨ channel.get "name" ≠ str approved.name ∨
      channel.get "workspace_id" ≠ str input.config.workspace_id ∨
      channel.get "scope_id" ≠ str input.config.scope_id then
    throw (.error "channel_scope_mismatch", s)
  else
    let s := s.checked approved.id
    readPages input budget approved.id (budget.maxPages - s.pagesThisRun) s
      ((s.result.progress.lookup approved.id).getD {})

/-- what an error does to the channel. -/
def Scan.failed (s : Scan) (channel : String) (reason : String) : Scan :=
  if reason = "access_denied" then (s.gap channel reason).drop channel else s.gap channel reason

def Scan.stops (s : Scan) (reason : String) : Prop :=
  2 ≤ s.accessBlocks ∨ reason ∈ ["rate_limit", "request_budget", "page_budget"]

instance (s : Scan) (reason : String) : Decidable (s.stops reason) :=
  inferInstanceAs (Decidable (_ ∨ _))

def scanChannels (input : ScanInput) (budget : Budget) :
    List ApprovedChannel → Scan → Scanning Scan
  | [], s => pure s
  | approved :: rest, s => do
    match ← (scanChannel input budget approved s).attempt with
    | .ok s => scanChannels input budget rest s
    | .error (.persistence, s) => throw (.persistence, s)
    | .error (.thrown e, s) =>
      let reason := channelReason e
      let s := s.failed approved.id reason
      save input s
      if s.stops reason then pure s else scanChannels input budget rest s

/-- the channels that Tower lists are those of the map. -/
def checkChannels (config : ScanConfig) (enumeration : Value) : Except String Unit := do
  let channels ← rows (enumeration.get "channels")
  throwIf (200 ≤ channels.length ∨ (enumeration.get "next_cursor").truthy ∨
    enumeration.get "has_more" = bool true) "channel_enumeration_partial"
  throwIf (channels.length ≠ config.channels.length ∨ channels.any fun c =>
    ¬config.channels.any fun a => str a.id = c.get "id" ∧ str a.name = c.get "name" ∧
      c.get "workspace_id" = str config.workspace_id ∧ c.get "scope_id" = str config.scope_id)
    "approved_map_changed_or_hidden"

def scanMap (input : ScanInput) (budget : Budget) (s : Scan) : Scanning Scan := do
  let (enumeration, s) ← request budget
    (.listChannels input.config.workspace_id input.config.scope_id 200) s
  match checkChannels input.config enumeration with
  | .error message => throw (.error message, s)
  | .ok () => scanChannels input budget input.config.channels s

/-- a map that is not verified: nothing is kept. -/
def Scan.hidden (s : Scan) (e : ClientError) : Scan :=
  ({ s with result := { s.result with tasks := [], progress := [] } } : Scan).gap none
    (enumerationReason e)

/-- the scan is complete when nothing was missed and it was not resumed. -/
def Scan.finished (s : Scan) (input : ScanInput) : Scan :=
  let complete := s.result.gaps = [] ∧ ∀ c ∈ input.config.channels,
    (s.result.progress.lookup c.id).any (·.done)
  if input.resume.isSome ∧ complete then
    ({ s with result := { s.result with continuation_complete := some true } } : Scan).gap none
      "resumed_scan_requires_fresh_pass"
  else { s with result := { s.result with complete } }

/-- the result from which a scan starts. -/
def ScanInput.initial (input : ScanInput) (signature : String) : ScanResult :=
  match input.resume with
  | some resume => { resume with
      complete := false
      continuation_complete := none
      gaps := []
      requests := 0
      channels_checked := 0 }
  | none => { config_signature := signature, started_at := input.now }

def scanTasks (signature : ScanConfig → String) (input : ScanInput) : Scanning ScanResult :=
  let s : Scan := { result := input.initial (signature input.config) }
  match input.budget with
  | none => throw (.error "Invalid scan budget", s)
  | some budget =>
    if ¬input.config.valid then throw (.error "Invalid approved channel map", s)
    else if ∃ resume ∈ input.resume, ¬resume.resumes input.config (signature input.config) then
      throw (.error "Invalid resume or map changed", s)
    else do
      let scanned ← (scanMap input budget s).attempt
      let s ← (match scanned with
        | .ok s => pure s
        | .error (.persistence, s) => throw (.persistence, s)
        | .error (.thrown e, s) => pure (s.hidden e) : Scanning Scan)
      let s := s.finished input
      save input s
      pure s.result

end Consolidation
end WmAutopilot
