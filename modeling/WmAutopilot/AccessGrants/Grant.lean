import WmAutopilot.Js.Platform

/-!
# Access grants

How an incoming grant event is decoded.  The decrypted payload is any JSON value; identities are
values too, since nothing checks that they are strings.

* `Host`                   what is used of other packages: signatures, NIP-19 and NIP-44;
* `NostrAccessGrantEvent`, `DecodedAccessGrant`   the event and what is decoded of it;
* `parsePayload`           the checks of the decrypted payload, and the fields filled in;
* `decodeAccessGrantEvent` the tags compared with the payload, and the grant.
-/

set_option autoImplicit false
set_option linter.unusedVariables false

namespace WmAutopilot
namespace AccessGrants
open Js Value

/-! ## data -/

structure NostrAccessGrantEvent where
  id : String
  pubkey : String
  created_at : ℕ
  kind : ℕ
  tags : List (List String)
  content : String
  sig : String
  deriving DecidableEq

abbrev SecretKey := List UInt8

/-- What is used of other packages, and the platform. -/
structure Host extends Platform where
  verifyEvent : NostrAccessGrantEvent → Bool
  /-- the type and the data of a NIP-19 text, or what it throws. -/
  nip19Decode : String → Except Thrown (String × Value)
  npubEncode : String → String
  /-- `nip44.v2.decrypt` with the conversation key of a secret key and a public key; `none` is a
  throw. -/
  nip44Decrypt : SecretKey → String → String → Option String
  /-- `createNip98AuthHeader` -/
  nip98 : String → String → Option Value → SecretKey → String

/-- `AccessGrantAction` -/
inductive AccessGrantAction where
  | grant
  | revoked
  | deleted
  deriving DecidableEq, Repr

def AccessGrantAction.text : AccessGrantAction → String
  | grant => "grant"
  | revoked => "revoked"
  | deleted => "deleted"

/-- `AccessGrantStatus` -/
inductive AccessGrantStatus where
  | active
  | revoked
  | deleted
  | superseded
  deriving DecidableEq, Repr

def AccessGrantStatus.text : AccessGrantStatus → String
  | active => "active"
  | revoked => "revoked"
  | deleted => "deleted"
  | superseded => "superseded"

structure DecodedAccessGrant where
  event : NostrAccessGrantEvent
  payload : Value
  recipientNpub : String
  recipientPubkeyHex : String
  eventSignerNpub : String
  issuerNpub : Value
  serviceNpub : Value
  workspaceServiceNpub : Value
  workspaceOwnerNpub : Value
  appNpub : Value
  grantId : Value
  dedupeKey : String
  canonicalConnectionKey : String

def SBIP0009_ACCESS_GRANT_KIND : ℕ := 33357
def SBIP0009_APP_NAMESPACE : String := "wingman-flight-deck"
def SBIP0009_PAYLOAD_KIND : String := "wingman_flightdeck_access_grant"
def FLIGHTDECK_ONBOARDING_PAYLOAD_TYPE : String := "flightdeck_onboarding"

/-! ## tags -/

/-- `tags.find((tag) => tag[0] === name)?.[1]?.trim()` -/
def tagValue (tags : List (List String)) (name : String) : Option String :=
  ((tags.find? fun tag => tag[0]? = some name).bind fun tag => tag[1]?).map trim

def getRequiredTag (tags : List (List String)) (name : String) : Except Thrown String :=
  orThrow ⟨some ("missing_tag_" ++ name), "missing required tag: " ++ name⟩
    ((tagValue tags name).filter (· ≠ ""))

def getOptionalTag (tags : List (List String)) (name : String) : Option String :=
  (tagValue tags name).filter (· ≠ "")

def getMarkedPTag (tags : List (List String)) (marker : String) : Option String :=
  ((tags.find? fun tag => tag[0]? = some "p" ∧ tag[3]? = some marker).bind fun tag =>
    tag[1]?).map trim

/-! ## comparisons -/

def mismatch (label : String) : Thrown := ⟨some "tag_payload_mismatch", label ++ " mismatch"⟩

def assertEqual (label : String) (left right : Value) : Except Thrown Unit :=
  throwIf (left.truthy = false ∨ right.truthy = false ∨ left ≠ right) (mismatch label)

def assertEqualWhenPresent (label : String) (left right : Value) : Except Thrown Unit :=
  throwIf (left.truthy = true ∧ right.truthy = true ∧ left ≠ right) (mismatch label)

/-! ## keys -/

def decodeNpubToHex (host : Host) (npub : String) : Except Thrown String := do
  match ← host.nip19Decode npub with
  | ("npub", .str data) => return toLowerCase data
  | _ => throw ⟨some "invalid_npub", "invalid npub: " ++ npub⟩

/-- `encodeHexToNpub`; only strings have a method `trim`. -/
def encodeHexToNpub (host : Host) (pubkeyHex : Value) : Except Thrown (Option String) :=
  match pubkeyHex with
  | undefined | null => return none
  | str s =>
    let normalized := toLowerCase (trim s)
    if isHexKey normalized then return some (host.npubEncode normalized) else return none
  | _ => throw ⟨none, "pubkeyHex?.trim is not a function"⟩

/-- `value ?? encodeHexToNpub(pubkeyHex)` -/
def orNpubOf (host : Host) (value pubkeyHex : Value) : Except Thrown Value :=
  if value.nullish then ofOption <$> encodeHexToNpub host pubkeyHex else return value

/-! ## the payload -/

def normalizePayloadAction (parsed : Value) : AccessGrantAction :=
  match (parsed.get "action").getString with
  | some "grant" => .grant
  | some "revoked" => .revoked
  | some "deleted" => .deleted
  | _ =>
    match (parsed.get "status").getString with
    | some "revoked" => .revoked
    | some "deleted" => .deleted
    | _ => .grant

def normalizePayloadStatus (parsed : Value) (action : AccessGrantAction) : AccessGrantStatus :=
  match (parsed.get "status").getString with
  | some "active" => .active
  | some "revoked" => .revoked
  | some "deleted" => .deleted
  | some "superseded" => .superseded
  | _ =>
    match action with
    | .grant => .active
    | .revoked => .revoked
    | .deleted => .deleted

def payloadInvalid (message : String) : Thrown := ⟨some "payload_invalid", message⟩

/-- `payload.recipient?.npub ?? payload.recipient_npub` -/
def recipientOf (payload : Value) : Value :=
  ((payload.get "recipient").get "npub").orElse (payload.get "recipient_npub")

/-- `payload.issuer?.npub ?? payload.issued_by_npub` -/
def issuerOf (payload : Value) : Value :=
  ((payload.get "issuer").get "npub").orElse (payload.get "issued_by_npub")

/-- `getObject(payload.agent_connect_package) ?? getObject(payload.agent_connect)` -/
def agentConnectPackageOf (payload : Value) : Value :=
  (payload.get "agent_connect_package").getObject.orElse (payload.get "agent_connect").getObject

/-- the action and the status are normalised. -/
def withState (object : Value) : Value :=
  let action := normalizePayloadAction object
  let payload := object.set "action" (str action.text)
  payload.set "status" (str (normalizePayloadStatus payload action).text)

/-- the package is put in its place, when there is one. -/
def withPackage (payload : Value) : Value :=
  if (agentConnectPackageOf payload).truthy then
    payload.set "agent_connect_package" (agentConnectPackageOf payload)
  else payload

/-- a required field of the payload is missing; `appNpub` is the app of the payload. -/
def missingFields (host : Host) (payload appNpub : Value) : Bool :=
  !(recipientOf payload).truthy || !(issuerOf payload).truthy ||
    !(payload.get "issued_at").truthy || (host.dateParse (payload.get "issued_at")).isNone ||
    !((payload.get "service").get "direct_https_url").truthy ||
    !((payload.get "service").get "service_npub").truthy ||
    !((payload.get "workspace").get "owner_npub").truthy ||
    !((payload.get "workspace").get "workspace_service_npub").truthy || !appNpub.truthy

/-- `if (payload.grant?.grant_id && !payload.grant_id) payload.grant_id = payload.grant.grant_id` -/
def fillGrantId (payload : Value) : Value :=
  let grantId := (payload.get "grant").get "grant_id"
  if grantId.truthy ∧ (payload.get "grant_id").truthy = false then payload.set "grant_id" grantId
  else payload

/-- the recipient, the issuer and the app are filled in. -/
def fillIdentities (payload recipientNpub issuerNpub appNpub : Value) : Value :=
  let payload := payload.set "recipient"
    ((payload.get "recipient").orElse (obj [("npub", recipientNpub)]))
  let payload := payload.set "issuer" ((payload.get "issuer").orElse (obj [("npub", issuerNpub)]))
  payload.set "app" ((payload.get "app").set "app_npub" appNpub)

/-- the checks and normalisations of `parsePayload` on the parsed object. -/
def normalizePayload (host : Host) (object : Value) : Except Thrown Value := do
  throwIf ((object.get "kind").getString ≠ some SBIP0009_PAYLOAD_KIND ∧
      (object.get "type").getString ≠ some FLIGHTDECK_ONBOARDING_PAYLOAD_TYPE)
    (payloadInvalid "unsupported SBIP-0009 access grant payload")
  let payload := withState object
  throwIf ((payload.get "protocol").truthy = true ∧ payload.get "protocol" ≠ str "onboarding")
    (payloadInvalid "invalid onboarding protocol")
  let app := payload.get "app"
  let appNpub ← orNpubOf host (app.get "app_npub") (app.get "app_pubkey")
  let recipientNpub := recipientOf payload
  let issuerNpub := issuerOf payload
  let payload := withPackage payload
  throwIf (missingFields host payload appNpub = true)
    (payloadInvalid "payload missing required SBIP-0009 fields")
  let payload := fillGrantId payload
  throwIf (payload.get "action" = str "grant" ∧
      (payload.get "agent_connect_package").truthy = false)
    (payloadInvalid "active grant payload missing required import fields")
  throwIf ((app.get "namespace").truthy = true ∧
      app.get "namespace" ∉ [str SBIP0009_APP_NAMESPACE, str "flightdeck_pg"])
    (payloadInvalid "unsupported onboarding app namespace")
  return fillIdentities payload recipientNpub issuerNpub appNpub

def parsePayload (host : Host) (value : String) : Except Thrown Value := do
  let parsed ← orThrow (payloadInvalid "decrypted payload is not valid JSON") (host.jsonParse value)
  throwIf (parsed.isPlainObject = false) (payloadInvalid "decrypted payload must be an object")
  normalizePayload host parsed

/-! ## the grant -/

/-- `buildAccessGrantDedupeKey` of the texts of the identities. -/
def buildAccessGrantDedupeKey (serviceNpub workspaceServiceNpub appNpub recipientNpub : String) :
    String :=
  "wingman-access-grant:v1:" ++ serviceNpub ++ ":" ++ workspaceServiceNpub ++ ":" ++ appNpub ++
    ":" ++ recipientNpub

def buildAccessGrantId (host : Host) (dedupeKey : String) : String :=
  "sha256:" ++ host.sha256 dedupeKey

/-- `payload.grant_id ?? payload.grant?.grant_id ?? null` -/
def payloadGrantId (payload : Value) : Value :=
  (payload.get "grant_id").orElse ((payload.get "grant").get "grant_id")

/-- `getOptionalTag(event.tags, name) ?? value` -/
def tagOr (event : NostrAccessGrantEvent) (name : String) (value : Value) : Value :=
  (ofOption (getOptionalTag event.tags name)).orElse value

/-- the identities of a grant: each the value of a tag, or else of the payload. -/
structure GrantIdentities where
  issuer : Value
  service : Value
  workspaceService : Value
  workspaceOwner : Value
  app : Value

/-- the tags compared with the payload. -/
def checkTags (host : Host) (event : NostrAccessGrantEvent) (payload : Value)
    (recipientNpub eventSignerNpub : String) : Except Thrown GrantIdentities := do
  let app := payload.get "app"
  let service := payload.get "service"
  let workspace := payload.get "workspace"
  let tag := fun name => ofOption (getOptionalTag event.tags name)
  let appPubkey := tagOr event "app_pub" (app.get "app_pubkey")
  let appNpub ← orNpubOf host (tagOr event "app_npub" (app.get "app_npub")) appPubkey
  let serviceNpub := tagOr event "service_npub" (service.get "service_npub")
  let workspaceServiceNpub :=
    tagOr event "workspace_service_npub" (workspace.get "workspace_service_npub")
  let workspaceOwnerNpub := tagOr event "workspace_owner_npub" (workspace.get "owner_npub")
  let recipientTag := tagOr event "recipient" (recipientOf payload)
  let issuerTag := tagOr event "issuer" (issuerOf payload)
  let grantTag := tagOr event "grant" (payloadGrantId payload)
  assertEqualWhenPresent "app namespace" (tag "app") (str SBIP0009_APP_NAMESPACE)
  assertEqualWhenPresent "protocol" (tag "protocol") (str "onboarding")
  assertEqualWhenPresent "app pubkey" (tag "app_pub") (app.get "app_pubkey")
  assertEqualWhenPresent "d tag" (tag "d") (payload.get "dedupe_key")
  assertEqualWhenPresent "grant id" grantTag (payloadGrantId payload)
  assertEqualWhenPresent "recipient npub" recipientTag (recipientOf payload)
  assertEqualWhenPresent "issuer npub" issuerTag (issuerOf payload)
  assertEqual "event signer issuer" (str eventSignerNpub) issuerTag
  assertEqualWhenPresent "service npub" serviceNpub (service.get "service_npub")
  assertEqualWhenPresent "workspace service npub" workspaceServiceNpub
    (workspace.get "workspace_service_npub")
  assertEqualWhenPresent "workspace owner npub" workspaceOwnerNpub (workspace.get "owner_npub")
  let payloadAppNpub ← orNpubOf host (app.get "app_npub") (app.get "app_pubkey")
  assertEqualWhenPresent "app npub" appNpub payloadAppNpub
  throwIf ((recipientOf payload).truthy = false)
    (payloadInvalid "payload missing recipient identity")
  assertEqual "recipient target" (str recipientNpub) (recipientOf payload)
  throwIf (appNpub.truthy = false ∨ serviceNpub.truthy = false ∨
      workspaceServiceNpub.truthy = false ∨ workspaceOwnerNpub.truthy = false ∨
      issuerTag.truthy = false)
    (payloadInvalid "payload missing required workspace identity fields")
  return ⟨issuerTag, serviceNpub, workspaceServiceNpub, workspaceOwnerNpub, appNpub⟩

/-- the instant at which the grant expires, when it says one that can be parsed. -/
def expiresAt (host : Host) (payload : Value) : Option ℤ :=
  if (payload.get "expires_at").truthy then host.dateParse (payload.get "expires_at") else none

/-- the grant of a payload whose tags were checked; `now` is the time in milliseconds. -/
def buildGrant (host : Host) (event : NostrAccessGrantEvent) (payload : Value)
    (recipientNpub recipientPubkeyHex eventSignerNpub : String) (ids : GrantIdentities) (now : ℤ) :
    Except Thrown DecodedAccessGrant := do
  let serviceNpub := host.toText ids.service
  let workspaceServiceNpub := host.toText ids.workspaceService
  let appNpub := host.toText ids.app
  let dedupeKey := buildAccessGrantDedupeKey serviceNpub workspaceServiceNpub appNpub recipientNpub
  assertEqualWhenPresent "dedupe key" (str dedupeKey)
    ((payload.get "dedupe_key").orElse (ofOption (getOptionalTag event.tags "d")))
  let grantId := (payloadGrantId payload).orElse
    (tagOr event "grant" (str (buildAccessGrantId host dedupeKey)))
  throwIf (payload.get "action" = str "grant" ∧ ∃ t ∈ expiresAt host payload, t ≤ now)
    ⟨some "stale_event", "onboarding announcement is expired"⟩
  return {
    event, recipientNpub, recipientPubkeyHex, eventSignerNpub, grantId, dedupeKey
    payload := (payload.set "dedupe_key" (str dedupeKey)).set "grant_id" grantId
    issuerNpub := ids.issuer
    serviceNpub := ids.service
    workspaceServiceNpub := ids.workspaceService
    workspaceOwnerNpub := ids.workspaceOwner
    appNpub := ids.app
    canonicalConnectionKey := serviceNpub ++ ":" ++ workspaceServiceNpub ++ ":" ++ appNpub ++ ":" ++
      recipientNpub }

def signatureInvalid (message : String) : Thrown := ⟨some "signature_invalid", message⟩

/-- `getMarkedPTag(event.tags, "recipient") ?? getRequiredTag(event.tags, "p")` -/
def taggedRecipient (event : NostrAccessGrantEvent) : Except Thrown String :=
  match getMarkedPTag event.tags "recipient" with
  | some hex => return hex
  | none => getRequiredTag event.tags "p"

def decodeAccessGrantEvent (host : Host) (event : NostrAccessGrantEvent)
    (recipientSecretKey : SecretKey) (recipientNpub : String) (now : ℤ)
    (verifySignature : Bool := true) : Except Thrown DecodedAccessGrant := do
  throwIf (event.kind ≠ SBIP0009_ACCESS_GRANT_KIND) ⟨some "wrong_kind", "wrong event kind"⟩
  throwIf (verifySignature = true ∧ host.verifyEvent event = false)
    (signatureInvalid "invalid event signature")
  let recipientPubkeyHex ← decodeNpubToHex host recipientNpub
  let signer ← encodeHexToNpub host (str event.pubkey)
  let eventSignerNpub ← orThrow (signatureInvalid "invalid event signer pubkey")
    (signer.filter (· ≠ ""))
  let taggedRecipientHex ← taggedRecipient event
  throwIf (toLowerCase taggedRecipientHex ≠ recipientPubkeyHex)
    ⟨some "wrong_recipient", "recipient p tag mismatch"⟩
  let plaintext ← orThrow ⟨some "decrypt_failed", "failed to decrypt NIP-44 onboarding payload"⟩
    (host.nip44Decrypt recipientSecretKey event.pubkey event.content)
  let payload ← parsePayload host plaintext
  let ids ← checkTags host event payload recipientNpub eventSignerNpub
  buildGrant host event payload recipientNpub recipientPubkeyHex eventSignerNpub ids now

end AccessGrants
end WmAutopilot
