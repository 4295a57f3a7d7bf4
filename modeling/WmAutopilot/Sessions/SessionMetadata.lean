import WmAutopilot.Js.Platform
import WmAutopilot.Js.Sorted
import WmAutopilot.Text.Runs

/-!
# The metadata of a session

* `normaliseSessionTags`       the tags of a session, from texts or from one text;
* `FieldRule`                  what becomes of the value of a field;
* `sessionMetadataFields`      the fields with their rules, in the order of the result;
* `normaliseSessionMetadata`   the metadata that is kept.
-/

set_option autoImplicit false

namespace WmAutopilot
namespace Sessions
namespace Metadata
open Js Value

/-- the letters of tags, and of the words that fields are compared with. -/
def isPlain (c : Char) : Bool :=
  ('a' ≤ c && c ≤ 'z') || ('0' ≤ c && c ≤ '9') || c == '-' || c == '_'

/-- What is used of the platform. -/
structure Host where
  /-- `value.toLowerCase()` -/
  toLowerCase : String → String
  toLowerCase_plain : ∀ s, (∀ c ∈ s.toList, isPlain c = true) → toLowerCase s = s
  toLowerCase_toLowerCase : ∀ s, toLowerCase (toLowerCase s) = toLowerCase s
  trim_toLowerCase : ∀ s, trim (toLowerCase (trim s)) = toLowerCase (trim s)
  /-- `Date.parse(text)`; `none` is `NaN`. -/
  dateParse : String → Option ℤ
  dateParse_empty : dateParse "" = none
  /-- `new Date(time).toISOString()` -/
  toISOString : ℤ → String
  dateParse_toISOString : ∀ text time, dateParse text = some time →
    dateParse (toISOString time) = some time
  trim_toISOString : ∀ time, trim (toISOString time) = toISOString time
  /-- `Number(value)`; `none` is not finite. -/
  toNumber : Value → Option ℚ
  toNumber_num : ∀ q, toNumber (num q) = some q
  toNumber_undefined : toNumber undefined = none

def cleanString : Value → String
  | str s => trim s
  | _ => ""

/-- `text || undefined` -/
def orUndefined (text : String) : Value := if text = "" then undefined else str text

/-- a list of texts, when there are any. -/
def listOrUndefined (texts : List String) : Value :=
  if texts = [] then undefined else arr (texts.map str)

section
variable (host : Host)

/-! ## tags -/

/-- `[a-z0-9-]` -/
def isTagChar (c : Char) : Bool := isPlain c && c != '_'

/-- a tag before it is cut to 40 characters. -/
def slugOf (raw : String) : List Char :=
  let lower := (host.toLowerCase (trim raw)).toList
  let dashed := Text.joinRuns (fun c => c == '_' || isSpace c) '-' false lower
  let plain := dashed.filter isTagChar
  Text.freeEnds '-' (Text.joinRuns (fun c => decide (c = '-')) '-' false plain)

def tagOf (raw : String) : String := String.ofList ((slugOf host raw).take 40)

/-- the loop over the texts, with the tags it has. -/
def collectTags (tags : List String) : List String → List String
  | [] => tags
  | raw :: raws =>
    if tagOf host raw = "" ∨ tagOf host raw ∈ tags then collectTags tags raws
    else if 16 ≤ tags.length + 1 then tags ++ [tagOf host raw]
    else collectTags (tags ++ [tagOf host raw]) raws

/-- `value.split(/[,\s]+/)`, less an empty text at an end: it makes no tag. -/
def splitTags (text : String) : List String :=
  ((text.toList.splitOnP fun c => c == ',' || isSpace c).map String.ofList).filter (· ≠ "")

/-- the texts among the raw values. -/
def rawTags : Value → List String
  | arr values => values.filterMap fun value =>
    match value with
    | str s => some s
    | _ => none
  | str s => splitTags s
  | _ => []

/-- `tags.length > 0 ? tags : undefined` -/
def normaliseSessionTags (value : Value) : Value :=
  listOrUndefined (collectTags host [] (rawTags value))

/-! ## other fields -/

/-- `typeof value === "string" ? value.trim().toLowerCase() : ""` -/
def loweredText : Value → String
  | str s => host.toLowerCase (trim s)
  | _ => ""

/-- `value > 0 ? Math.floor(value) : undefined` -/
def wholeOf (q : ℚ) : Value := if 0 < q then num q.floor else undefined

/-- an element of `resolvedSkillRevisions`. -/
def revisionFields (skillId revisionId digest : String) : List Value :=
  if skillId ≠ "" ∧ revisionId ≠ "" ∧ isHexKey digest = true then
    [obj [("skillId", str skillId), ("revisionId", str revisionId), ("digest", str digest)]]
  else []

def revisionOf (value : Value) : List Value :=
  revisionFields (cleanString (value.get "skillId")) (cleanString (value.get "revisionId"))
    (cleanString (value.get "digest"))

def NATIVE_AGENT_SESSION_SOURCES : List String := ["preallocated", "adapter", "agentapi", "manual"]

/-- `now` is `new Date().toISOString()`. -/
def capturedAtOf (now : String) (value : Value) : String :=
  ((host.dateParse (cleanString value)).map host.toISOString).getD now

def sourceOf (value : Value) : String :=
  if cleanString value ∈ NATIVE_AGENT_SESSION_SOURCES then cleanString value else "manual"

def nativeFields (agent sessionId workingDirectory capturedAt source : String) : Value :=
  if agent = "" ∨ sessionId = "" ∨ workingDirectory = "" then undefined
  else obj [("agent", str agent), ("sessionId", str sessionId),
    ("workingDirectory", str workingDirectory), ("capturedAt", str capturedAt),
    ("source", str source)]

/-- what is not an object has none of the fields. -/
def normaliseNativeAgentSession (now : String) (value : Value) : Value :=
  nativeFields (loweredText host (value.get "agent")) (cleanString (value.get "sessionId"))
    (cleanString (value.get "workingDirectory")) (capturedAtOf host now (value.get "capturedAt"))
    (sourceOf (value.get "source"))

def readOneOf (texts : List String) : Value → Value
  | str s => if s ∈ texts then str s else undefined
  | _ => undefined

def readLowered (texts : List String) (value : Value) : Value :=
  if loweredText host value ∈ texts then str (loweredText host value) else undefined

def readTextOrNull (value : Value) : Value :=
  if cleanString value ≠ "" then str (cleanString value)
  else if value = null then null else undefined

/-- `typeof value === "number"` -/
def readCount : Value → Value
  | num q => wholeOf q
  | _ => undefined

/-- `Number(value)` -/
def readNumber (value : Value) : Value := ((host.toNumber value).map wholeOf).getD undefined

def readTime (value : Value) : Value :=
  ((host.dateParse (cleanString value)).map fun time => str (host.toISOString time)).getD undefined

/-- the elements of an array; what is not an array ends as an empty one does. -/
def itemsOf (value : Value) : List Value := value.elements.getD []

/-- the trimmed texts that are not empty. -/
def cleanTexts (value : Value) : List String := ((itemsOf value).map cleanString).filter (· ≠ "")

def readRevisions (value : Value) : Value :=
  if (itemsOf value).flatMap revisionOf = [] then undefined
  else arr ((itemsOf value).flatMap revisionOf)

/-- What becomes of the value of a field. -/
inductive FieldRule where
  /-- `Boolean(value)` -/
  | flag
  /-- `"credits"`, or else `"subscription"`. -/
  | billing
  /-- one of these texts as it stands. -/
  | oneOf (texts : List String)
  /-- one of these texts, trimmed and in small letters. -/
  | lowered (texts : List String)
  /-- a trimmed text that is not empty. -/
  | text
  /-- the same, and `null`. -/
  | textOrNull
  /-- a number as it stands, above 0, rounded down. -/
  | count
  /-- `Number(value)`, above 0, rounded down. -/
  | number
  /-- a date as `toISOString` writes it. -/
  | time
  /-- trimmed texts that are not empty. -/
  | textList
  /-- the same, each once, at most 20. -/
  | pinned
  | tags
  | revisions
  | nativeSession
  /-- `nativeProjectTools` of a completed turn. -/
  | projectTools
  deriving DecidableEq, Repr

/-- the value that a rule leaves of `value`; `role` is the role of the session, trimmed. -/
def FieldRule.read (now role : String) (value : Value) : FieldRule → Value
  | flag => bool value.truthy
  | billing => if value = str "credits" then str "credits" else str "subscription"
  | oneOf texts => readOneOf texts value
  | lowered texts => readLowered host texts value
  | text => orUndefined (cleanString value)
  | textOrNull => readTextOrNull value
  | count => readCount value
  | number => readNumber host value
  | time => readTime host value
  | textList => listOrUndefined (cleanTexts value)
  | pinned => listOrUndefined ((cleanTexts value).eraseDups.take 20)
  | tags => normaliseSessionTags host value
  | revisions => readRevisions value
  | nativeSession => normaliseNativeAgentSession host now value
  | projectTools => if role = "completed-turn" ∧ value = bool true then bool true else undefined

end

def AGENT_TRANSPORTS : List String :=
  ["agentapi", "codex-acp", "codex-sdk", "claude-sdk", "goose-acp", "maple-acp", "deepseek-acp",
    "opencode-sdk", "pi-acp", "pi-native"]

def ACP_PERMISSION_POLICIES : List String := ["auto_approve", "ask"]

def SESSION_METADATA_NEXT_ACTIONS : List String := ["none", "reflect", "stop", "restart"]

def SESSION_METADATA_BINDING_TYPES : List String := ["thread", "task", "document", "flow_run"]

/-- the fields of the result, in order. -/
def sessionMetadataFields : List (String × FieldRule) :=
  [("AGENT", .flag),
   ("billingMode", .billing),
   ("agentTransport", .oneOf AGENT_TRANSPORTS),
   ("acpPermissionPolicy", .lowered ACP_PERMISSION_POLICIES),
   ("providerApprovalPolicy", .oneOf ["always", "manual"]),
   ("nativeAgentSession", .nativeSession),
   ("resumedFromWingmanSessionId", .text),
   ("branchedFromWingmanSessionId", .text),
   ("branchConversationMode", .oneOf ["recent", "full"]),
   ("branchConversationMessageCount", .count),
   ("role", .text),
   ("project", .text),
   ("goal", .text),
   ("nextAction", .lowered SESSION_METADATA_NEXT_ACTIONS),
   ("nextActionPayload", .text),
   ("nextActionTemplate", .text),
   ("sessionClass", .oneOf ["flightdeck_chat"]),
   ("flightdeckSubscriptionId", .text),
   ("flightdeckBackendConnectionId", .text),
   ("flightdeckTowerServiceNpub", .text),
   ("flightdeckWorkspaceId", .text),
   ("flightdeckScopeId", .text),
   ("flightdeckChannelId", .text),
   ("flightdeckThreadId", .text),
   ("flightdeckAgentNpub", .text),
   ("flightdeckRoutingKey", .text),
   ("flightdeckDeliveryMode", .oneOf ["agent_inbox"]),
   ("sessionGeneration", .number),
   ("explicitlyClosedAt", .time),
   ("bindingType", .lowered SESSION_METADATA_BINDING_TYPES),
   ("bindingId", .text),
   ("nativeProjectTools", .projectTools),
   ("flowId", .text),
   ("flowRunId", .text),
   ("pipelineRunId", .text),
   ("pipelineDefinitionId", .text),
   ("pipelineDefinitionPath", .textOrNull),
   ("retryAttempt", .number),
   ("taskIds", .textList),
   ("tags", .tags),
   ("routerRunId", .text),
   ("autoStop", .flag),
   ("routedBy", .text),
   ("agentProfileId", .text),
   ("agentChatAgentId", .text),
   ("agentChatBotNpub", .text),
   ("ownerNpub", .text),
   ("createdByNpub", .text),
   ("lastManagedByNpub", .text),
   ("chargeToNpub", .text),
   ("delegateRelationshipId", .text),
   ("wappActivityInstallationId", .text),
   ("pinnedFiles", .pinned),
   ("speechGenerateAudio", .flag),
   ("speechAlwaysRead", .flag),
   ("resolvedSkillRevisions", .revisions)]

/-- The metadata that is kept; `now` is `new Date().toISOString()`. -/
def normaliseSessionMetadata (host : Host) (now : String) (metadata : Value) : Value :=
  let role := cleanString (metadata.get "role")
  obj (sessionMetadataFields.map fun field =>
    (field.1, field.2.read host now role (metadata.get field.1)))

end Metadata
end Sessions
end WmAutopilot
