import Mathlib.Data.Int.Notation
import WmAutopilot.Js.Regex
import WmAutopilot.Js.Value

/-!
# Messages of a Codex transcript

A message is written to a transcript twice, once as an event and once as an item of the response;
one of the two is dropped.

* `CodexMessageMirrorDeduper`   the messages that were kept last, in which a copy is searched;
* `CodexMessageImporter`        the messages of a session, one for each role and turn;
* `ActivityScan`                what the agent said last, with mirrors of its own.
-/

set_option autoImplicit false

namespace WmAutopilot
namespace CodexTranscript
open Js Value

/-- Parts of the platform, and the texts of tool notes. -/
structure Host where
  /-- `Date.parse`, when it is finite. -/
  parseDate : String → Option ℤ
  toISOString : ℤ → String
  summarizeToolInput : String → Value → String
  summarizeToolOutput : Value → String
  summarizeWebSearchAction : Value → String
  summarizeReasoning : Value → String
  summarizeChangedFiles : Value → String

/-- A line of a transcript, and `new Date().toISOString()` when it is read. -/
structure Line where
  data : Value
  now : String

/-! ## records -/

/-- `CodexMessageRecordSource` -/
inductive CodexMessageRecordSource where
  | event_msg
  | response_item
  deriving DecidableEq

inductive MessageType where
  | user_message
  | agent_message
  deriving DecidableEq

/-- `CodexMessageMirrorCandidate` -/
structure CodexMessageMirrorCandidate where
  source : CodexMessageRecordSource
  type : MessageType
  phase : String
  content : String
  createdAt : String
  timestampMs : Option ℤ
  deriving DecidableEq

/-- `typeof v === "string" ? v : ""` -/
def text : Value → String
  | str s => s
  | _ => ""

variable (host : Host)

/-- `parseTimestampMs` -/
def parseTimestampMs (v : Value) : Option ℤ :=
  match v with
  | str s => host.parseDate s
  | _ => none

/-- `normaliseTimestamp(record.timestamp)` -/
def createdAt (line : Line) : String :=
  match parseTimestampMs host (line.data.get "timestamp") with
  | some timestamp => host.toISOString timestamp
  | none => line.now

/-- `extractResponseMessageContent` -/
def extractResponseMessageContent (v : Value) : String :=
  match v with
  | arr parts => "\n\n".intercalate ((parts.map fun part =>
      if part.isPlainObject then trim (text (part.get "text")) else "").filter (· ≠ ""))
  | _ => ""

/-- `extractEventMessage` -/
def extractEventMessage (line : Line) : Option CodexMessageMirrorCandidate :=
  let data := line.data.get "payload"
  let message source type phase content : CodexMessageMirrorCandidate :=
    ⟨source, type, phase, content, createdAt host line,
      parseTimestampMs host (line.data.get "timestamp")⟩
  if ¬data.isPlainObject then none
  else if line.data.get "type" = str "event_msg" then
    let content := trim (text (data.get "message"))
    if content = "" then none
    else if data.get "type" = str "user_message" then
      some (message .event_msg .user_message "" content)
    else if data.get "type" = str "agent_message" then
      some (message .event_msg .agent_message (trim (text (data.get "phase"))) content)
    else none
  else if line.data.get "type" = str "response_item" ∧ data.get "type" = str "message" then
    let role := trim (text (data.get "role"))
    let content := extractResponseMessageContent (data.get "content")
    let phase := trim (text (data.get "phase"))
    if content = "" then none
    else if role = "user" then some (message .response_item .user_message "" content)
    else if role = "assistant" ∧ (phase = "commentary" ∨ phase = "final_answer") then
      some (message .response_item .agent_message phase content)
    else none
  else none

/-- `CodexTurnError` -/
structure CodexTurnError where
  message : String
  code : Option String
  createdAt : String

/-- `extractCodexTurnError` -/
def extractCodexTurnError (line : Line) : Option CodexTurnError :=
  let data := line.data.get "payload"
  let error := data.get "error"
  let message := trim (text (error.get "message"))
  let code := trim (text (error.get "codex_error_info"))
  if line.data.get "type" ≠ str "event_msg" ∨ ¬data.isPlainObject then none
  else if data.get "type" ≠ str "task_complete" ∨ ¬error.isPlainObject ∨ message = "" then none
  else some ⟨message, if code = "" then none else some code, createdAt host line⟩

/-- `formatCodexTurnError` -/
def formatCodexTurnError (error : CodexTurnError) : String :=
  "\n\n".intercalate (["**Codex could not complete this turn.**", error.message] ++
    error.code.toList.map fun code => "Error code: \x60" ++ code ++ "\x60")

/-! ## tool notes -/

inductive Category where
  | thinking
  | tools
  deriving DecidableEq

/-- `toolNamesByCallId`, as its assignments, the newest first. -/
abbrev ToolNames := List (String × String)

def ToolNames.assign (names : ToolNames) (callId name : String) : ToolNames :=
  if callId = "" then names else (callId, name) :: names

/-- `extractResponseToolNote` -/
def extractResponseToolNote (names : ToolNames) (data : Value) : Option String × ToolNames :=
  let type := text (data.get "type")
  let callId := text (data.get "call_id")
  if type = "function_call" ∨ type = "custom_tool_call" then
    let given := trim (text (data.get "name"))
    let name :=
      if given ≠ "" then given
      else if type = "custom_tool_call" then "custom_tool" else "function"
    let detail := host.summarizeToolInput name data
    (some (if detail ≠ "" then "Tool call: " ++ name ++ " " ++ detail else "Tool call: " ++ name),
      names.assign callId name)
  else if type = "function_call_output" ∨ type = "custom_tool_call_output" then
    let name := (if callId = "" then none else names.lookup callId).getD "tool"
    let summary := host.summarizeToolOutput data
    (some (if summary ≠ "" then "Tool result: " ++ name ++ " " ++ summary
      else "Tool result: " ++ name ++ " completed"), names)
  else if type = "web_search_call" then
    (some ("Web search: " ++ host.summarizeWebSearchAction data), names)
  else if type = "reasoning" then
    let summary := host.summarizeReasoning data
    (if summary = "" then none else some ("Thinking: " ++ summary), names)
  else (none, names)

/-- `extractEventToolNote` -/
def extractEventToolNote (names : ToolNames) (data : Value) : Option String × ToolNames :=
  let type := text (data.get "type")
  if type = "patch_apply_end" then
    let files := host.summarizeChangedFiles (data.get "changes")
    let status := if data.get "success" = .bool false then "failed" else "applied"
    (some (if files ≠ "" then "Patch " ++ status ++ ": " ++ files else "Patch " ++ status),
      names.assign (text (data.get "call_id")) "apply_patch")
  else if type = "web_search_end" then (some "Web search completed", names)
  else (none, names)

/-- `extractToolWorkingNote`: the category and the content of a note, and the tool names after it. -/
def extractToolWorkingNote (names : ToolNames) (line : Line) :
    Option (Category × String) × ToolNames :=
  let data := line.data.get "payload"
  let category := if data.get "type" = str "reasoning" then Category.thinking else Category.tools
  if ¬data.isPlainObject then (none, names)
  else if line.data.get "type" = str "response_item" then
    let (note, names) := extractResponseToolNote host names data
    (note.map (category, ·), names)
  else if line.data.get "type" = str "event_msg" then
    let (note, names) := extractEventToolNote host names data
    (note.map (category, ·), names)
  else (none, names)

/-! ## mirrors -/

def MIRROR_WINDOW_MS : ℕ := 500

def RECENT_MESSAGE_LIMIT : ℕ := 8

/-- two times are close. -/
def near (s t : ℤ) : Bool := (s - t).natAbs ≤ MIRROR_WINDOW_MS

/-- one message is a mirror of another. -/
def mirrors (recent candidate : CodexMessageMirrorCandidate) : Bool :=
  recent.source ≠ candidate.source && recent.type = candidate.type &&
    recent.phase = candidate.phase && recent.content = candidate.content &&
    recent.timestampMs.any fun s => candidate.timestampMs.any fun t => near s t

/-- `CodexMessageMirrorDeduper`: its `recentMessages`, the oldest first. -/
abbrev CodexMessageMirrorDeduper := List CodexMessageMirrorCandidate

/-- the candidate is noted; the oldest message is forgotten when there are too many. -/
def CodexMessageMirrorDeduper.push (recent : CodexMessageMirrorDeduper)
    (candidate : CodexMessageMirrorCandidate) : CodexMessageMirrorDeduper :=
  if (recent ++ [candidate]).length > RECENT_MESSAGE_LIMIT then (recent ++ [candidate]).tail
  else recent ++ [candidate]

/-- `isMirrored`, and the messages after it. -/
def CodexMessageMirrorDeduper.isMirrored (recent : CodexMessageMirrorDeduper)
    (candidate : CodexMessageMirrorCandidate) : Bool × CodexMessageMirrorDeduper :=
  if candidate.timestampMs = none then (false, recent)
  else if recent.any (mirrors · candidate) then (true, recent)
  else (false, recent.push candidate)

/-! ## the importer -/

inductive Role where
  | agentError
  | agentContext
  | user
  | agentThinking
  | agentTools
  | agent
  deriving DecidableEq

/-- `ReplaceMessageInput` -/
structure Message where
  role : Role
  content : String
  createdAt : String
  deriving DecidableEq

/-- `CodexAgentMessage` -/
structure CodexAgentMessage where
  phase : String
  content : String
  createdAt : String
  deriving DecidableEq

/-- `joinMessageParts` -/
def joinMessageParts (messages : List CodexAgentMessage) : String :=
  "\n\n".intercalate (messages.map (·.content))

/-- `isInjectedAgentContext` -/
def isInjectedAgentContext (content : String) : Bool :=
  let start := Regex.all [Regex.anyCase "# AGENTS.md instructions for", .many isSpace 1 none,
    .many (fun c => !isSpace c) 1 none]
  !(start.run none (content.toList.dropWhile isSpace)).isEmpty

/-- `CodexMessageImporter` -/
structure CodexMessageImporter where
  messages : List Message := []
  toolNamesByCallId : ToolNames := []
  mirrorDeduper : CodexMessageMirrorDeduper := []
  commentary : List CodexAgentMessage := []
  tools : List CodexAgentMessage := []
  finalAnswers : List CodexAgentMessage := []

/-- the message of the parts of a role, if there are any. -/
def messageOf (role : Role) : List CodexAgentMessage → List Message
  | [] => []
  | part :: parts => [⟨role, joinMessageParts (part :: parts), part.createdAt⟩]

/-- `flushAgentTurn` -/
def CodexMessageImporter.flushAgentTurn (importer : CodexMessageImporter) : CodexMessageImporter :=
  let flushed :=
    if importer.finalAnswers ≠ [] then
      messageOf .agentThinking importer.commentary ++ messageOf .agentTools importer.tools ++
        messageOf .agent importer.finalAnswers
    else messageOf .agentThinking importer.commentary ++ messageOf .agentTools importer.tools
  { importer with
    messages := importer.messages ++ flushed, commentary := [], tools := [], finalAnswers := [] }

/-- an event that is no mirror. -/
def CodexMessageImporter.addEvent (importer : CodexMessageImporter)
    (event : CodexMessageMirrorCandidate) : CodexMessageImporter :=
  match event.type with
  | .user_message =>
    let importer := importer.flushAgentTurn
    let role := if isInjectedAgentContext event.content then Role.agentContext else Role.user
    { importer with messages := importer.messages ++ [⟨role, event.content, event.createdAt⟩] }
  | .agent_message =>
    let part := ⟨event.phase, event.content, event.createdAt⟩
    if event.phase = "final_answer" then
      { importer with finalAnswers := importer.finalAnswers ++ [part] }
    else { importer with commentary := importer.commentary ++ [part] }

/-- `addRecord` -/
def CodexMessageImporter.addRecord (importer : CodexMessageImporter) (line : Line) :
    CodexMessageImporter :=
  match extractCodexTurnError host line with
  | some error =>
    let importer := importer.flushAgentTurn
    { importer with messages :=
        importer.messages ++ [⟨.agentError, formatCodexTurnError error, error.createdAt⟩] }
  | none =>
    match extractEventMessage host line with
    | none =>
      let (note, names) := extractToolWorkingNote host importer.toolNamesByCallId line
      let importer := { importer with toolNamesByCallId := names }
      match note with
      | none => importer
      | some (.thinking, content) =>
        let part := ⟨"thinking", content, createdAt host line⟩
        { importer with commentary := importer.commentary ++ [part] }
      | some (.tools, content) =>
        let part := ⟨"tools", content, createdAt host line⟩
        { importer with tools := importer.tools ++ [part] }
    | some event =>
      let (mirrored, recent) := importer.mirrorDeduper.isMirrored event
      let importer := { importer with mirrorDeduper := recent }
      if mirrored then importer else importer.addEvent event

/-- `finish` -/
def CodexMessageImporter.finish (importer : CodexMessageImporter) : List Message :=
  importer.flushAgentTurn.messages

/-- the messages of a transcript. -/
def importMessages (lines : List Line) : List Message :=
  (lines.foldl (CodexMessageImporter.addRecord host) {}).finish

/-! ## live activity -/

/-- `activityMirrors`: the times under a source, a bucket, and the type, phase and content. -/
abbrev ActivityMirrors :=
  CodexMessageRecordSource → ℤ → MessageType × String × String → List ℤ

def CodexMessageMirrorCandidate.key (event : CodexMessageMirrorCandidate) :
    MessageType × String × String := (event.type, event.phase, event.content)

def CodexMessageRecordSource.other : CodexMessageRecordSource → CodexMessageRecordSource
  | .event_msg => .response_item
  | .response_item => .event_msg

/-- `Math.floor(timestampMs / 500)` -/
def bucketOf (timestampMs : ℤ) : ℤ := timestampMs / 500

/-- whether the event is mirrored, and the times after it. -/
def ActivityMirrors.isMirrored (noted : ActivityMirrors) (event : CodexMessageMirrorCandidate) :
    Bool × ActivityMirrors :=
  match event.timestampMs with
  | none => (false, noted)
  | some at_ =>
    let bucket := bucketOf at_
    if [bucket - 1, bucket, bucket + 1].any fun candidate =>
        (noted event.source.other candidate event.key).any (near · at_) then (true, noted)
    else (false, fun source candidate key =>
      if source = event.source ∧ candidate = bucket ∧ key = event.key then
        at_ :: noted source candidate key
      else noted source candidate key)

/-- `CodexUserVisibleActivity` -/
structure CodexUserVisibleActivity where
  content : String
  createdAt : String
  sourceId : Option ℕ := none
  turnSourceId : Option ℕ := none

/-- what the scan of the activity knows. -/
structure ActivityScan where
  latestActivity : Option CodexUserVisibleActivity := none
  activities : List CodexUserVisibleActivity := []
  turnSourceId : ℕ := 0
  activityTurns : List (ℕ × String) := []
  activityMirrors : ActivityMirrors := fun _ _ _ => []
  recordIndex : ℕ := 0

/-- an event or a record without one, when it is no mirror. -/
def ActivityScan.note (scan : ActivityScan) (line : Line)
    (event : Option CodexMessageMirrorCandidate) : ActivityScan :=
  let idle := if (extractCodexTurnError host line).isSome then
    { scan with latestActivity := none } else scan
  match event with
  | none => idle
  | some event =>
    if event.type = .user_message ∧ ¬isInjectedAgentContext event.content then
      { scan with latestActivity := none, turnSourceId := scan.recordIndex
                  activityTurns := scan.activityTurns ++ [(scan.recordIndex, event.createdAt)] }
    else if event.type = .agent_message ∧ event.phase = "commentary" ∧ trim event.content ≠ "" then
      let activity := ⟨trim event.content, event.createdAt, none, none⟩
      { scan with
        latestActivity := some activity
        activities := scan.activities ++ [{ activity with
          sourceId := some scan.recordIndex, turnSourceId := some scan.turnSourceId }] }
    else idle

/-- the scan of one more record. -/
def ActivityScan.addRecord (scan : ActivityScan) (line : Line) : ActivityScan :=
  let scan := { scan with recordIndex := scan.recordIndex + 1 }
  match extractEventMessage host line with
  | none => scan.note host line none
  | some event =>
    let (mirrored, noted) := scan.activityMirrors.isMirrored event
    let scan := { scan with activityMirrors := noted }
    if mirrored then scan else scan.note host line (some event)

/-! ## what is kept -/

/-- the importer keeps a record unless it is a mirror. -/
def CodexMessageImporter.keeps (importer : CodexMessageImporter) (line : Line) : Bool :=
  (extractEventMessage host line).all fun event => !(importer.mirrorDeduper.isMirrored event).1

/-- the scan keeps a record unless it is a mirror. -/
def ActivityScan.keeps (scan : ActivityScan) (line : Line) : Bool :=
  (extractEventMessage host line).all fun event => !(scan.activityMirrors.isMirrored event).1

/-- for each record, whether the importer keeps it. -/
def importerKeeps : CodexMessageImporter → List Line → List Bool
  | _, [] => []
  | importer, line :: lines =>
    importer.keeps host line :: importerKeeps (importer.addRecord host line) lines

/-- for each record, whether the scan keeps it. -/
def activityKeeps : ActivityScan → List Line → List Bool
  | _, [] => []
  | scan, line :: lines =>
    scan.keeps host line :: activityKeeps (scan.addRecord host line) lines

end CodexTranscript
end WmAutopilot
