import WmAutopilot.AccessGrants.Tower
import WmAutopilot.AgentChat.AgentConnectImport

/-!
# Importing the package of a grant

* `assertAgentConnectMatchesGrant`       the identities of the package compared with those of the
                                         grant;
* `buildGrantScopedAgentConnectPackage`  the package that is handed to the importer;
* `processAccessGrantEvent`              decode, authorise, verify, compare, import; or, for a
                                         revocation, verify and remove.
-/

set_option autoImplicit false
set_option linter.unusedVariables false

namespace WmAutopilot
namespace AccessGrants
open Js Value AgentChat

/-! ## the package -/

def agentConnectMismatch (label : String) : Thrown :=
  ⟨some "agent_connect_mismatch", "Agent Connect " ++ label ++ " mismatch"⟩

def assertAgentConnectEqual (label : String) (left right : Value) : Except Thrown Unit :=
  throwIf (left.truthy = false ∨ right.truthy = false ∨ left ≠ right) (agentConnectMismatch label)

def assertAgentConnectEqualWhenPresent (label : String) (left right : Value) :
    Except Thrown Unit :=
  if left.truthy = false then return () else assertAgentConnectEqual label left right

/-- `normaliseUrl`; what is not a string has no method `replace`. -/
def normaliseUrl (host : Platform) (value : Value) : Except Thrown Value :=
  match value with
  | str s =>
    if s = "" then return null
    else match host.url s with
      | some url =>
        let path := stripSlashes url.pathname
        let bare : Url :=
          { url with pathname := if path = "" then "/" else path, search := "", hash := "" }
        let text := bare.href.toList
        return str (String.ofList (if text.getLast? = some '/' then text.dropLast else text))
      | none => return str (stripSlashes s)
  | v => if v.truthy then throw ⟨none, "value.replace is not a function"⟩ else return null

/-- `assertAgentConnectEqual` of two URLs. -/
def assertAgentConnectUrl (host : Platform) (label : String) (left right : Value) :
    Except Thrown Unit := do
  let left ← normaliseUrl host left
  let right ← normaliseUrl host right
  assertAgentConnectEqual label left right

/-- the text of a property, or `null`. -/
def textOf (o : Value) (key : String) : Value := ofOption (o.get key).getString

/-- `decodeConnectionToken`, with the code of a mismatch on its errors. -/
def decodeGrantToken (host : Platform) (token : String) : Except Thrown Value :=
  (decodeConnectionToken host token).mapError fun e =>
    { e with code := some "agent_connect_mismatch" }

section Package
variable (host : Host) (grant : DecodedAccessGrant)

/-- the package of the grant. -/
def DecodedAccessGrant.package : Value := (grant.payload.get "agent_connect_package").getObject

/-- `grant.payload.service.direct_https_url` -/
def DecodedAccessGrant.backendUrl : Value := (grant.payload.get "service").get "direct_https_url"

/-- a version 6 package: the identities are those of its descriptor. -/
def assertDescriptorMatchesGrant : Except Thrown Unit := do
  let pkg := grant.package
  let descriptor ← parsePgWorkspaceDescriptor host.toPlatform (pkg.get "workspace_descriptor")
  let authAppNpub := ((pkg.get "auth").getObject.get "app_npub").getString
  assertAgentConnectUrl host.toPlatform "backend URL"
    (textOf (pkg.get "service").getObject "direct_https_url") grant.backendUrl
  assertAgentConnectUrl host.toPlatform "descriptor backend URL" (str descriptor.towerBaseUrl)
    grant.backendUrl
  assertAgentConnectEqual "service npub" (str descriptor.towerServiceNpub) grant.serviceNpub
  assertAgentConnectEqual "workspace owner" (str descriptor.workspaceOwnerNpub)
    grant.workspaceOwnerNpub
  assertAgentConnectEqualWhenPresent "workspace id" (str descriptor.workspaceId)
    (ofOption grant.workspaceId)
  assertAgentConnectEqual "workspace service npub" (str descriptor.workspaceServiceNpub)
    grant.workspaceServiceNpub
  assertAgentConnectEqual "app npub" (ofOption (authAppNpub.or descriptor.appNpub)) grant.appNpub
  if authAppNpub.isSome ∧ descriptor.appNpub.isSome then
    assertAgentConnectEqual "descriptor app npub" (ofOption authAppNpub)
      (ofOption descriptor.appNpub)
  else return ()

/-- the token of a version 5 package. -/
def assertTokenMatchesGrant (token : Value) : Except Thrown Unit := do
  assertAgentConnectUrl host.toPlatform "token backend URL" (textOf token "direct_https_url")
    grant.backendUrl
  assertAgentConnectEqual "token service npub"
    (ofOption (getEither token "service_npub" "server_npub")) grant.serviceNpub
  assertAgentConnectEqual "token workspace owner" (textOf token "workspace_owner_npub")
    grant.workspaceOwnerNpub
  assertAgentConnectEqualWhenPresent "token workspace id" (textOf token "workspace_id")
    (ofOption grant.workspaceId)
  assertAgentConnectEqualWhenPresent "token workspace service npub"
    (textOf token "workspace_service_npub") grant.workspaceServiceNpub
  assertAgentConnectEqual "token app npub" (textOf token "app_npub") grant.appNpub

/-- a package of another version: the identities are its own and those of its token. -/
def assertTokenPackageMatchesGrant : Except Thrown Unit := do
  let pkg := grant.package
  let service := (pkg.get "service").getObject
  let workspace := (pkg.get "workspace").getObject
  let app := (pkg.get "app").getObject
  assertAgentConnectUrl host.toPlatform "backend URL" (textOf service "direct_https_url")
    grant.backendUrl
  assertAgentConnectEqual "service npub" (textOf service "service_npub") grant.serviceNpub
  assertAgentConnectEqual "workspace owner" (textOf workspace "owner_npub") grant.workspaceOwnerNpub
  assertAgentConnectEqualWhenPresent "workspace id" (textOf workspace "workspace_id")
    (ofOption grant.workspaceId)
  assertAgentConnectEqualWhenPresent "workspace service npub"
    (textOf workspace "workspace_service_npub") grant.workspaceServiceNpub
  assertAgentConnectEqual "app npub" (textOf app "app_npub") grant.appNpub
  assertAgentConnectEqualWhenPresent "app namespace"
    (ofOption (getEither app "namespace" "schema_namespace"))
    ((grant.payload.get "app").get "namespace")
  let token ← decodeGrantToken host.toPlatform ((pkg.get "connection_token").getString.getD "")
  assertTokenMatchesGrant host grant token

def assertAgentConnectMatchesGrant : Except Thrown Unit :=
  if host.toNumber (grant.package.get "version") = some 6 then
    assertDescriptorMatchesGrant host grant
  else assertTokenPackageMatchesGrant host grant

/-- the URLs of the service: those of the grant, or else of the package. -/
def serviceUrls (service : Value) : List (String × Value) :=
  let granted := grant.payload.get "service"
  [("relay_urls", (granted.get "relay_urls").orElse (service.get "relay_urls")),
    ("openapi_url", (granted.get "openapi_url").orElse (service.get "openapi_url")),
    ("docs_url", (granted.get "docs_url").orElse (service.get "docs_url")),
    ("health_url", (granted.get "health_url").orElse (service.get "health_url"))]

def buildGrantScopedAgentConnectPackage : Value :=
  let pkg := grant.package.orElse (obj [])
  let service := (pkg.get "service").getObject.orElse (obj [])
  if host.toNumber (pkg.get "version") = some 6 then
    pkg.spread [("service", service.spread
      (("direct_https_url", grant.backendUrl) :: serviceUrls grant service))]
  else
    let workspace := (pkg.get "workspace").getObject.orElse (obj [])
    let app := (pkg.get "app").getObject.orElse (obj [])
    let granted := grant.payload.get "workspace"
    let grantedApp := grant.payload.get "app"
    pkg.spread
      [("service", service.spread (("direct_https_url", grant.backendUrl) ::
        ("service_npub", grant.serviceNpub) :: serviceUrls grant service)),
      ("workspace", workspace.spread [("owner_npub", grant.workspaceOwnerNpub),
        ("workspace_service_npub", grant.workspaceServiceNpub),
        ("workspace_id",
          ((granted.get "workspace_id").orElse (workspace.get "workspace_id")).orElse null),
        ("label", ((granted.get "label").orElse (workspace.get "label")).orElse null),
        ("name", ((granted.get "name").orElse (workspace.get "name")).orElse null)]),
      ("app", app.spread [("app_npub", grant.appNpub),
        ("app_pubkey", (grantedApp.get "app_pubkey").orElse (app.get "app_pubkey")),
        ("namespace", (grantedApp.get "namespace").orElse (app.get "namespace"))])]

end Package

/-! ## processing an event -/

/-- `discoveryEvent` -/
structure DiscoveryEvent where
  eventId : String
  createdAt : ℕ
  dedupeKey : String
  recipientNpub : String

/-- what `importAgentConnectPackage` is called with. -/
structure ImportInput where
  managedByNpub : String
  agentProfileId : Option String
  packageJson : Value
  onboardingSource : String
  discoveryEvent : DiscoveryEvent

/-- what `handleAccessGrantRevocation` is called with. -/
structure RevocationInput where
  managedByNpub : String
  agentProfileId : Option String
  grant : DecodedAccessGrant
  verification : TowerRevocationVerificationResult

/-- The event, the identity of this agent, and its collaborators with what they answer. -/
structure ProcessAccessGrantInput where
  event : NostrAccessGrantEvent
  recipientSecretKey : SecretKey
  recipientNpub : String
  managedByNpub : String
  importAgentConnectPackage : ImportInput → Except Thrown Value
  handleAccessGrantRevocation : Option (RevocationInput → Except Thrown Value)
  agentProfileId : Option String
  fetch : Fetch
  now : ℤ
  /-- the time of a verification, as text. -/
  checkedAt : String
  processedKeys : Option (List String)
  isAuthorizedIssuerNpub : Option (Value → Bool)
  onPostConnectSync : Option (DecodedAccessGrant → Value → Except Thrown Unit)
  onPostRevocationSync : Option (DecodedAccessGrant → Value →
    TowerRevocationVerificationResult → Except Thrown Unit)

structure AccessGrantProcessResult where
  ok : Bool
  code : String
  message : String
  grant : Option DecodedAccessGrant := none
  imported : Option Value := none
  verified : Option Value := none
  verification : Option TowerRevocationVerificationResult := none

/-- The result of processing an event, the calls of the importer, and the key that was processed. -/
structure Outcome where
  result : Except Thrown AccessGrantProcessResult
  imports : List ImportInput := []
  processed : Option String := none

/-- `input.processedKeys?.has(key)` -/
def ProcessAccessGrantInput.has (input : ProcessAccessGrantInput) (key : String) : Bool :=
  (input.processedKeys.getD []).contains key

def grantIssuerIsAuthorized (grant : DecodedAccessGrant) (input : ProcessAccessGrantInput) : Bool :=
  grant.issuerNpub.truthy && match input.isAuthorizedIssuerNpub with
    | some isAuthorized => isAuthorized grant.issuerNpub
    | none => input.managedByNpub ≠ "" && grant.issuerNpub = str input.managedByNpub

section Process
variable (host : Host) (input : ProcessAccessGrantInput) (grant : DecodedAccessGrant)

/-- an answer with which nothing was imported. -/
def refused (code message : String) (verified : Option Value := none) : Outcome :=
  ⟨.ok { ok := false, code, message, grant := some grant, verified }, [], none⟩

/-- what follows a confirmed revocation. -/
def finishRevocation (key : String) (handled : Value)
    (verification : TowerRevocationVerificationResult) : Outcome :=
  match (input.onPostRevocationSync.map fun sync => sync grant handled verification).getD (.ok ()) with
  | .error e => ⟨.error e, [], none⟩
  | .ok () => ⟨.ok {
      ok := true, code := "revocation_confirmed"
      message := "Tower confirmed revocation and local connection state was refreshed."
      grant := some grant, imported := some handled, verification := some verification },
    [], some key⟩

/-- a grant whose action is not `grant`. -/
def processRevocation : Outcome :=
  let key := grant.event.id ++ ":" ++ grant.canonicalConnectionKey ++ ":revocation:" ++
    host.toText (grant.payload.get "action")
  if input.has key then
    ⟨.ok { ok := true, code := "duplicate_skipped", grant := some grant
           message := "Revocation event already processed in this runtime." }, [], none⟩
  else match verifyAccessGrantRevocationWithTower host input.fetch input.recipientSecretKey grant
      input.checkedAt with
    | .error e => refused grant "tower_revocation_verify_failed" e.message
    | .ok verification =>
      match (input.handleAccessGrantRevocation.map fun handle =>
        handle ⟨input.managedByNpub, input.agentProfileId, grant, verification⟩).getD
          (.ok undefined) with
      | .error e => ⟨.ok {
          ok := false, code := e.codeOr "revocation_handle_failed", message := e.message
          grant := some grant, verification := some verification }, [], none⟩
      | .ok handled =>
        if verification.confirmed then finishRevocation input grant key handled verification
        else ⟨.ok {
          ok := false
          code := if verification.towerResult = .access_active then
            "revocation_unconfirmed_access_active" else "revocation_unconfirmed"
          message := verification.message, grant := some grant, imported := some handled
          verification := some verification }, [], none⟩

/-- the call of the importer. -/
def importInput : ImportInput where
  managedByNpub := input.managedByNpub
  agentProfileId := input.agentProfileId
  packageJson := buildGrantScopedAgentConnectPackage host grant
  onboardingSource := "nostr_33357"
  discoveryEvent :=
    ⟨grant.event.id, grant.event.created_at, grant.dedupeKey, grant.recipientNpub⟩

/-- what the importer's answer means. -/
def readImported (verified imported : Value) : Except Thrown AccessGrantProcessResult :=
  let result := fun code message => { ok := true, code, message, grant := some grant
                                      imported := some imported, verified := some verified }
  if imported.get "ignoredLocally" = bool true then
    return result "locally_disconnected" ("A replayed discovery event was ignored because this " ++
      "workspace connection was disconnected locally.")
  else if imported.get "staleDiscoveryEvent" = bool true then
    return result "stale_replacement_skipped" ("An older discovery replacement was ignored " ++
      "because a newer event is already applied.")
  else do
    let _ ← (input.onPostConnectSync.map fun sync => sync grant imported).getD (.ok ())
    return result "imported" "Onboarding event verified and imported."

/-- the import of a verified grant. -/
def importGrant (key : String) (verified : Value) : Outcome :=
  let call := importInput host input grant
  let failed := fun (e : Thrown) => { ok := false, code := e.codeOr "import_failed"
                                      message := e.message, grant := some grant
                                      verified := some verified : AccessGrantProcessResult }
  match input.importAgentConnectPackage call with
  | .error e => ⟨.ok (failed e), [call], none⟩
  | .ok imported =>
    match readImported input grant verified imported with
    | .error e => ⟨.ok (failed e), [call], some key⟩
    | .ok result => ⟨.ok result, [call], some key⟩

/-- a grant whose action is `grant`. -/
def processGrant : Outcome :=
  if grant.payload.get "status" ≠ str "active" then
    let status := host.toText (grant.payload.get "status")
    refused grant ("grant_" ++ status) ("Grant status is " ++ status ++ ".")
  else
    let key := grant.event.id ++ ":" ++ grant.dedupeKey ++ ":grant"
    if input.has key then
      ⟨.ok { ok := true, code := "duplicate_skipped", grant := some grant
             message := "Onboarding event already processed in this runtime." }, [], none⟩
    else match verifyAccessGrantWithTower host input.fetch input.recipientSecretKey grant with
      | .error e => refused grant "tower_verify_failed" e.message
      | .ok verified =>
        match assertAgentConnectMatchesGrant host grant with
        | .error e =>
          refused grant (e.codeOr "agent_connect_mismatch") e.message (some verified)
        | .ok () => importGrant host input grant key verified

end Process

def processAccessGrantEvent (host : Host) (input : ProcessAccessGrantInput) : Outcome :=
  match decodeAccessGrantEvent host input.event input.recipientSecretKey input.recipientNpub
      input.now with
  | .error e =>
    ⟨.ok { ok := false, code := e.codeOr "grant_invalid", message := e.message }, [], none⟩
  | .ok grant =>
    if grantIssuerIsAuthorized grant input = false then
      refused grant "unauthorized_issuer"
        "Onboarding event issuer is not authorized for this Autopilot instance."
    else if grant.payload.get "action" ≠ str "grant" then processRevocation host input grant
    else processGrant host input grant

end AccessGrants
end WmAutopilot
