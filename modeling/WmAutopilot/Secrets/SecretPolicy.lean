import WmAutopilot.Heartbeat.RecordSyncProtocol
import WmAutopilot.Signing.NostrKindPolicy

/-!
# Policies of imported secrets

* `SecretPolicy`          who may use a secret, in which contexts, and what may be signed with it;
* `normalizeSecretPolicy` the reader of a policy, run again on the stored one at every use;
* `assertSecretUse`       whether a record allows a consumer;
* `signSecretEvent`       the event that a policy lets a key sign.
-/

set_option autoImplicit false
set_option linter.unusedVariables false

namespace WmAutopilot
namespace Secrets
open Js Value
open Heartbeat (utf16Length)
open Signing (NostrKindConstraint integerOf stringOf stringsOf tagBytes matchesExactNostrTags
  normalizeNostrKindRules)

structure SecretError where
  code : String
  status : ℕ := 400
  deriving DecidableEq, Repr

/-- what a method throws: a `SecretError`, or an error of SQLite or of the custody. -/
inductive Failure where
  | secret (e : SecretError)
  | other
  deriving DecidableEq, Repr

/-- the bytes of a key or of a text. -/
abbrev Bytes := List UInt8

/-- what the store uses of the platform, of `nostr-tools` and of its key; `none` is a throw. -/
structure Host where
  /-- `String(value)` -/
  toText : Value → String
  /-- `new URL(value)` -/
  url : String → Option Url
  /-- the text is an `npub` in its normal form. -/
  isNpub : String → Bool
  /-- `nip19.decode(value)` of an `nsec`. -/
  decodeNsec : String → Option Bytes
  nsecEncode : Bytes → String
  /-- `nip19.npubEncode(getPublicKey(bytes))` -/
  publicNpub : Bytes → Option String
  fromHex : String → Bytes
  textEncode : String → Bytes
  textDecode : Bytes → String
  /-- `finalizeEvent(event, key)` -/
  finalizeEvent : Value → Bytes → Option Value
  /-- `custody.encrypt(value, binding)` with a nonce. -/
  encrypt : ℕ → Bytes → String → String
  /-- the value that `custody.withValue(envelope, binding, operation)` opens. -/
  decrypt : String → String → Option Bytes

/-! ## the reader of policies -/

/-- `throw new SecretError(code)` -/
def refuse {α : Type} (code : String) (status : ℕ := 400) : Except SecretError α :=
  .error ⟨code, status⟩

def validatedNpub (host : Host) (value : Value) : Except SecretError String :=
  match value with
  | str s => if host.isNpub s then .ok s else refuse "invalid_npub"
  | _ => refuse "invalid_npub"

def object (value : Value) : Except SecretError Value :=
  if value.isPlainObject then .ok value else refuse "invalid_object"

/-- `/[\u0000-\u001f]/.test(value)` -/
def hasControl (s : String) : Bool := s.toList.any fun c => c.toNat ≤ 0x1f

def boundedText (value : Value) (max : ℕ := 160) : Except SecretError String :=
  match value with
  | str s => if blank s ∨ max < utf16Length s ∨ hasControl s then refuse "invalid_text"
    else .ok (trim s)
  | _ => refuse "invalid_text"

/-- `ContextSelection`; the mode is stored as it was given. -/
structure ContextSelection where
  enabled : Bool
  mode : Value
  ids : List String
  deriving DecidableEq

inductive KindMode where
  | selected
  | all
  deriving DecidableEq, Repr

structure SecretPolicy where
  identities : List String
  pipelines : ContextSelection
  agents : ContextSelection
  allowExport : Bool
  kindMode : KindMode := .selected
  kindRules : List NostrKindConstraint
  deriving DecidableEq

def selection (host : Host) (value : Value) (agents : Bool) :
    Except SecretError ContextSelection := do
  let input ← object value
  match input.get "enabled", (input.get "ids").elements with
  | .bool enabled, some values =>
    throwIf (host.toText (input.get "mode") ∉ ["all", "selected"] ∨ 128 < values.length)
      ⟨"invalid_context_policy", 400⟩
    let ids ← values.mapM fun id => if agents then validatedNpub host id else boundedText id 512
    throwIf (¬ids.Nodup ∨ (input.get "mode" = str "all" ∧ ids ≠ [])) ⟨"invalid_context_policy", 400⟩
    pure ⟨enabled, input.get "mode", ids⟩
  | _, _ => refuse "invalid_context_policy"

/-- a valid `kind` of an event. -/
def secretKind (kind : Value) : Option ℤ :=
  (integerOf kind).filter fun n => 0 ≤ n ∧ n ≤ 65535

/-- `kindMode` of a policy. -/
def readKindMode : Value → Except SecretError KindMode
  | undefined => .ok .selected
  | str "selected" => .ok .selected
  | str "all" => .ok .all
  | _ => refuse "invalid_kind_mode"

def normalizeSecretPolicy (host : Host) (value : Value) : Except SecretError SecretPolicy := do
  let input ← object value
  match (input.get "identities").elements, input.get "allowExport",
      (input.get "kindRules").elements with
  | some identityValues, .bool allowExport, some rules =>
    throwIf (128 < identityValues.length ∨ 16 < rules.length) ⟨"invalid_policy", 400⟩
    let identities ← identityValues.mapM (validatedNpub host)
    throwIf (¬identities.Nodup) ⟨"invalid_policy", 400⟩
    let kindValues ← rules.mapM fun rule => do
      let rule ← object rule
      pure (rule.get "kind")
    let kindMode ← readKindMode (input.get "kindMode")
    let kinds ← orThrow ⟨"invalid_signing_kind", 400⟩ (kindValues.mapM secretKind)
    let kindRules ← orThrow ⟨"invalid_kind_rules", 400⟩
      (normalizeNostrKindRules (arr rules) kinds).toOption
    let pipelines ← selection host (input.get "pipelines") false
    let agents ← selection host (input.get "agents") true
    pure { identities, pipelines, agents, allowExport, kindMode, kindRules }
  | _, _, _ => refuse "invalid_policy"

def deniedPolicy : SecretPolicy where
  identities := []
  pipelines := ⟨false, str "selected", []⟩
  agents := ⟨false, str "selected", []⟩
  allowExport := false
  kindRules := []

/-! ## the policy as it is stored -/

/-- an array of texts. -/
def texts (ss : List String) : Value := arr (ss.map str)

def ContextSelection.value (s : ContextSelection) : Value :=
  obj [("enabled", bool s.enabled), ("mode", s.mode), ("ids", texts s.ids)]

def KindMode.value : KindMode → Value
  | selected => str "selected"
  | all => str "all"

/-- a rule as it is stored. -/
def ruleValue (rule : NostrKindConstraint) : Value :=
  obj ([("kind", num rule.kind), ("maxContentBytes", num rule.maxContentBytes),
    ("maxTags", num rule.maxTags), ("maxTagBytes", num rule.maxTagBytes),
    ("allowedTagNames", texts rule.allowedTagNames),
    ("requiredTags", arr (rule.requiredTags.map fun tag => texts [tag.1, tag.2]))] ++
    (rule.exactTags.map fun tags => ("exactTags", arr (tags.map texts))).toList)

def SecretPolicy.value (policy : SecretPolicy) : Value :=
  obj [("identities", texts policy.identities), ("pipelines", policy.pipelines.value),
    ("agents", policy.agents.value), ("allowExport", bool policy.allowExport),
    ("kindMode", policy.kindMode.value), ("kindRules", arr (policy.kindRules.map ruleValue))]

/-! ## records and their use -/

/-- `SecretRecord["type"]` -/
inductive SecretType where
  | secret
  | nostr
  deriving DecidableEq, Repr

def SecretType.text : SecretType → String
  | secret => "secret"
  | nostr => "nostr"

structure SecretRecord where
  id : String
  ownerNpub : String
  workspaceId : String
  label : String
  type : SecretType
  publicNpub : Option String
  policy : SecretPolicy
  revision : ℕ
  createdAt : String
  updatedAt : String
  revokedAt : Option String := none
  lastUsedAt : Option String := none
  deriving DecidableEq

/-- `SecretConsumer`; the context is what the caller passed. -/
structure SecretConsumer where
  ownerNpub : String
  workspaceId : String
  identityNpub : String
  context : String
  contextId : String
  deriving DecidableEq, Repr

def assertSecretUse (host : Host) (record : SecretRecord) (consumer : SecretConsumer) :
    Except SecretError Unit := do
  throwIf (consumer.context ≠ "pipeline" ∧ consumer.context ≠ "session")
    ⟨"invalid_consumer_context", 403⟩
  let policy ← normalizeSecretPolicy host record.policy.value
  let context := if consumer.context = "pipeline" then policy.pipelines else policy.agents
  throwIf (record.revokedAt.isSome ∨ consumer.ownerNpub ≠ record.ownerNpub ∨
    consumer.workspaceId ≠ record.workspaceId ∨ consumer.identityNpub ∉ policy.identities ∨
    context.enabled = false ∨ consumer.contextId = "" ∨
    (context.mode = str "selected" ∧ consumer.contextId ∉ context.ids) ∨
    (consumer.context = "session" ∧ consumer.contextId ≠ consumer.identityNpub))
    ⟨"secret_use_denied", 403⟩

/-! ## signing -/

/-- the rule for an event: one that bounds every kind, or that of its kind. -/
def ruleFor (policy : SecretPolicy) (kind : ℤ) : Option NostrKindConstraint :=
  match policy.kindMode with
  | .all => some { kind, maxContentBytes := 8192, maxTags := 64, maxTagBytes := 16384
                   allowedTagNames := [] }
  | .selected => policy.kindRules.find? fun rule => rule.kind = kind

/-- a tag that the rule allows. -/
def tagAllowed (policy : SecretPolicy) (rule : NostrKindConstraint) (tag : List String) : Bool :=
  match tag with
  | [] => false
  | name :: _ => match policy.kindMode with
    | .all => tag.length ≤ 64
    | .selected => name ∈ rule.allowedTagNames

/-- the parts of an event that its rule allows. -/
def eventParts (policy : SecretPolicy) (event : Value) (now : ℤ) :
    Option (NostrKindConstraint × ℤ × String × List (List String)) := do
  let kind ← secretKind (event.get "kind")
  let rule ← ruleFor policy kind
  let timestamp ← integerOf ((event.get "created_at").orElse (num now))
  guard ((timestamp - now).natAbs ≤ 300)
  let content ← stringOf (event.get "content")
  guard ((content.utf8ByteSize : ℤ) ≤ rule.maxContentBytes)
  let tagValues ← (event.get "tags").elements
  guard ((tagValues.length : ℤ) ≤ rule.maxTags)
  let tags ← tagValues.mapM stringsOf
  guard (tags.all (tagAllowed policy rule))
  guard (tagBytes tags ≤ rule.maxTagBytes ∧ matchesExactNostrTags tags rule.exactTags ∧
    rule.requiredTags.all fun required =>
      tags.any fun tag => tag[0]? = some required.1 ∧ tag[1]? = some required.2)
  some (rule, timestamp, content, tags)

def signSecretEvent (host : Host) (key : Bytes) (value : Value) (policy : SecretPolicy) (now : ℤ) :
    Except Failure Value :=
  match object value with
  | .error e => .error (.secret e)
  | .ok event =>
    match eventParts policy event now with
    | none => .error (.secret ⟨"event_policy_denied", 403⟩)
    | some (rule, timestamp, content, tags) =>
      orThrow .other (host.finalizeEvent (obj [("kind", num rule.kind),
        ("created_at", num timestamp), ("content", str content),
        ("tags", arr (tags.map texts))]) key)

end Secrets
end WmAutopilot
