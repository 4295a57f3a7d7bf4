import Mathlib.Data.List.Dedup
import WmAutopilot.Js.Platform

/-!
# Agent Connect packages

What the importer reads of a package.

* `parsePgWorkspaceDescriptor`   the workspace descriptor of a version 6 package;
* `decodeConnectionToken`        the connection token of a version 5 package;
* `validateAgentConnectPackage`  the checks, and what the import goes on with.
-/

set_option autoImplicit false
set_option linter.unusedVariables false

namespace WmAutopilot
namespace AgentChat
open Js Value

/-- an `Error` without a code. -/
def error (message : String) : Thrown := ⟨none, message⟩

def normaliseBackendBaseUrl (host : Platform) (baseUrl : String) : Except Thrown String :=
  let trimmed := trim baseUrl
  match host.url trimmed with
  | some parsed =>
    if parsed.protocol = "http:" ∨ parsed.protocol = "https:" then return stripSlashes trimmed
    else throw (error "backend_base_url must be an http or https URL")
  | none => throw (error "backend_base_url must be an http or https URL")

/-! ## workspace descriptors -/

def PG_WORKSPACE_DESCRIPTOR_TYPE : String := "wingman_workspace_locator"

structure PgWorkspaceDescriptor where
  towerBaseUrl : String
  towerServiceNpub : String
  workspaceServiceNpub : String
  workspaceOwnerNpub : String
  workspaceId : String
  appNpub : Option String
  label : Option String
  capabilities : Value

/-- a property of this name may hold a credential. -/
def isCredentialKey (key : String) : Bool :=
  let normalized := toLowerCase key
  includes normalized "password" || includes normalized "credential" ||
    includes normalized "private_key" || normalized = "nsec" || normalized = "secret" ||
    normalized = "bearer" || normalized = "token" ||
    "_token".toList.isSuffixOf normalized.toList || includes normalized "access_token"

mutual

/-- the path of the first property of an object that may hold a credential. -/
def findCredentialField (value : Value) (path : List String) : Option String :=
  match value with
  | obj fs => findCredentialProperty fs path
  | _ => none

/-- `findCredentialField` on the properties of an object. -/
def findCredentialProperty (fields : List (String × Value)) (path : List String) : Option String :=
  match fields with
  | [] => none
  | (key, child) :: rest =>
    if isCredentialKey key then some (".".intercalate (path ++ [key]))
    else (findCredentialField child (path ++ [key])).or (findCredentialProperty rest path)

end

/-- `getString(identity[snake]) ?? getString(identity[camel])` -/
def getEither (value : Value) (snake camel : String) : Option String :=
  (value.get snake).getString.or (value.get camel).getString

def parsePgWorkspaceDescriptor (host : Platform) (input : Value) :
    Except Thrown PgWorkspaceDescriptor := do
  let wrapper := input.getObject
  let descriptor := if wrapper.get "type" = str PG_WORKSPACE_DESCRIPTOR_TYPE then wrapper
    else (wrapper.get "descriptor").getObject
  throwIf (descriptor.get "type" ≠ str PG_WORKSPACE_DESCRIPTOR_TYPE)
    (error "Workspace descriptor must have type wingman_workspace_locator.")
  let credentialField := findCredentialField descriptor []
  throwIf (credentialField.isSome = true)
    (error ("Workspace descriptor must not include credential field " ++ credentialField.getD "" ++
      "."))
  let identity := (descriptor.get "identity").getObject
  throwIf (identity.truthy = false)
    (error "Workspace descriptor must include a valid identity object.")
  let missing := fun field => error ("Workspace descriptor must include " ++ field ++ ".")
  let towerBaseUrl ← orThrow (missing "tower_base_url")
    (getEither descriptor "tower_base_url" "towerBaseUrl")
  let towerServiceNpub ← orThrow (missing "identity.tower_service_npub")
    (getEither identity "tower_service_npub" "towerServiceNpub")
  let workspaceServiceNpub ← orThrow (missing "identity.workspace_service_npub")
    (getEither identity "workspace_service_npub" "workspaceServiceNpub")
  let workspaceOwnerNpub ← orThrow (missing "identity.workspace_owner_npub")
    (getEither identity "workspace_owner_npub" "workspaceOwnerNpub")
  let workspaceId ← orThrow (missing "identity.workspace_id")
    (getEither identity "workspace_id" "workspaceId")
  let towerBaseUrl ← normaliseBackendBaseUrl host towerBaseUrl
  return {
    towerBaseUrl, towerServiceNpub, workspaceServiceNpub, workspaceOwnerNpub, workspaceId
    appNpub := getEither identity "app_npub" "appNpub"
    label := getEither descriptor "label" "name"
    capabilities := descriptor.get "capabilities" }

/-! ## packages -/

/-- the base64url text of a token, decoded; `none` is a `SyntaxError`. -/
def decodeTokenText (host : Platform) (token : String) : Option Value :=
  let normalised := token.toList.map fun c => if c = '-' then '+' else if c = '_' then '/' else c
  let padding := List.replicate ((4 - normalised.length % 4) % 4) '='
  host.jsonParse (host.base64Text (String.ofList (normalised ++ padding)))

def decodeConnectionToken (host : Platform) (token : String) : Except Thrown Value := do
  let parsed ← orThrow (error "connection_token does not decode to valid JSON.")
    (decodeTokenText host token)
  throwIf (parsed.isPlainObject = false) (error "connection_token must decode to a JSON object.")
  return parsed

/-- `AgentCapability` -/
inductive AgentCapability where
  | chat_intercept
  | task_dispatch
  | comment_dispatch
  | flow_dispatch
  | task_review
  | approval_dispatch
  deriving DecidableEq, Repr

def AgentCapability.ofText : String → Option AgentCapability
  | "chat_intercept" => some .chat_intercept
  | "task_dispatch" => some .task_dispatch
  | "comment_dispatch" => some .comment_dispatch
  | "flow_dispatch" => some .flow_dispatch
  | "task_review" => some .task_review
  | "approval_dispatch" => some .approval_dispatch
  | _ => none

structure AgentConnectServiceInput where
  directHttpsUrl : String
  serviceNpub : Option String
  relayUrls : List String
  openapiUrl : Option String
  docsUrl : Option String
  healthUrl : Option String

structure AgentConnectValidationResult where
  managedByNpub : String
  service : AgentConnectServiceInput
  workspaceOwnerNpub : String
  workspaceId : Option String
  workspaceServiceNpub : Option String
  workspaceTitle : Option String
  sourceAppNpub : String
  sourceAppSchemaNamespace : Option String
  supportedVersion : String
  connectionTokenRef : String
  capabilityDefaults : List AgentCapability

def getStringArray (value : Value) : List String :=
  ((value.elements.getD []).filterMap getString).reverse.dedup.reverse

def normaliseCapabilities (value : Value) : List AgentCapability :=
  (getStringArray value).filterMap AgentCapability.ofText

/-- the text between the first and the last brace. -/
def extractAgentConnectJsonText (rawText : String) : String :=
  let trimmed := trim rawText
  let fromBrace := trimmed.toList.dropWhile (· ≠ '{')
  let toBrace := (fromBrace.reverse.dropWhile (· ≠ '}')).reverse
  if toBrace = [] then trimmed else String.ofList toBrace

def parseJsonPayload (host : Platform) (rawJson : Value) : Except Thrown Value :=
  match rawJson with
  | str text => do
    let parsed ← orThrow (error "Agent Connect package is not valid JSON.")
      (host.jsonParse (extractAgentConnectJsonText text))
    throwIf (parsed.isPlainObject = false) (error "Agent Connect package must be a JSON object.")
    return parsed
  | value => return value

/-- both are present and differ. -/
def differs (outer token : Option String) : Prop :=
  ∃ a ∈ outer, ∃ b ∈ token, a ≠ b

instance (outer token : Option String) : Decidable (differs outer token) :=
  inferInstanceAs (Decidable (∃ a, a ∈ outer ∧ _))

def assertEqualWhenPresent (label : String) (outerValue tokenValue : Option String) :
    Except Thrown Unit :=
  throwIf (differs outerValue tokenValue)
    (error ("Agent Connect " ++ label ++ " does not match connection_token."))

/-- `assertEqualWhenPresent` of two URLs. -/
def assertEqualUrlWhenPresent (host : Platform) (label : String)
    (outerValue tokenValue : Option String) : Except Thrown Unit :=
  match outerValue, tokenValue with
  | some outer, some token => do
    let left ← normaliseBackendBaseUrl host outer
    let right ← normaliseBackendBaseUrl host token
    throwIf (left ≠ right)
      (error ("Agent Connect " ++ label ++ " does not match connection_token."))
  | _, _ => return ()

/-- what is read of a package in the way of its version. -/
structure PackageIdentity where
  workspaceOwnerNpub : String
  workspaceId : Option String
  workspaceServiceNpub : Option String
  workspaceTitle : Option String
  sourceAppNpub : String
  serviceNpub : Option String
  capabilityInput : Value

/-- a version 6 package: the identities are those of the descriptor. -/
def readDescriptorPackage (host : Platform) (payload : Value) (directHttpsUrl : String) :
    Except Thrown PackageIdentity := do
  throwIf ((payload.get "protocol").getString ≠ some "flightdeck_pg")
    (error "Agent Connect version 6 requires protocol flightdeck_pg.")
  let descriptor ← parsePgWorkspaceDescriptor host (payload.get "workspace_descriptor")
  let authAppNpub := ((payload.get "auth").getObject.get "app_npub").getString
  let sourceAppNpub ← orThrow (error ("Agent Connect version 6 requires auth.app_npub or " ++
    "workspace_descriptor.identity.app_npub.")) (authAppNpub.or descriptor.appNpub)
  throwIf (differs authAppNpub descriptor.appNpub)
    (error "Agent Connect app npub does not match workspace descriptor identity.")
  let backendUrl ← normaliseBackendBaseUrl host directHttpsUrl
  throwIf (backendUrl ≠ descriptor.towerBaseUrl)
    (error "Agent Connect backend URL does not match workspace descriptor.")
  return {
    sourceAppNpub
    workspaceOwnerNpub := descriptor.workspaceOwnerNpub
    workspaceId := some descriptor.workspaceId
    workspaceServiceNpub := some descriptor.workspaceServiceNpub
    workspaceTitle := descriptor.label
    serviceNpub := some descriptor.towerServiceNpub
    capabilityInput := descriptor.capabilities }

/-- a version 5 package: the identities are its own, compared with those of the token. -/
def readTokenPackage (host : Platform) (payload : Value) (directHttpsUrl : String) :
    Except Thrown PackageIdentity := do
  let workspace := (payload.get "workspace").getObject
  let missing := error ("Agent Connect requires workspace.owner_npub, app.app_npub, and " ++
    "connection_token for version 5.")
  let workspaceOwnerNpub ← orThrow missing (workspace.get "owner_npub").getString
  let sourceAppNpub ← orThrow missing ((payload.get "app").getObject.get "app_npub").getString
  let connectionToken ← orThrow missing (payload.get "connection_token").getString
  let workspaceId := (workspace.get "workspace_id").getString
  let workspaceServiceNpub := (workspace.get "workspace_service_npub").getString
  let serviceNpub := ((payload.get "service").getObject.get "service_npub").getString
  let token ← decodeConnectionToken host connectionToken
  let tokenText := fun key => (token.get key).getString
  assertEqualUrlWhenPresent host "backend URL" (some directHttpsUrl) (tokenText "direct_https_url")
  assertEqualWhenPresent "service npub" serviceNpub (getEither token "service_npub" "server_npub")
  assertEqualWhenPresent "workspace owner" (some workspaceOwnerNpub)
    (tokenText "workspace_owner_npub")
  assertEqualWhenPresent "workspace id" workspaceId (tokenText "workspace_id")
  assertEqualWhenPresent "workspace service npub" workspaceServiceNpub
    (tokenText "workspace_service_npub")
  assertEqualWhenPresent "app npub" (some sourceAppNpub) (tokenText "app_npub")
  return {
    workspaceOwnerNpub, workspaceId, workspaceServiceNpub, sourceAppNpub, serviceNpub
    workspaceTitle := getEither workspace "label" "name"
    capabilityInput := payload.get "capabilities" }

def validateAgentConnectPackage (host : Platform) (managedByNpub : String) (packageJson : Value) :
    Except Thrown AgentConnectValidationResult := do
  let payload ← parseJsonPayload host packageJson
  let service := (payload.get "service").getObject
  throwIf ((payload.get "kind").getString ≠ some "coworker_agent_connect")
    (error "Unsupported Agent Connect package kind.")
  let version := host.toNumber (payload.get "version")
  throwIf (version ≠ some 5 ∧ version ≠ some 6)
    (error ("Unsupported Agent Connect package version: " ++
      (version.map fun q => host.toText (num q)).getD "unknown" ++ "."))
  let invalidDate := error "Agent Connect generated_at must be an ISO timestamp."
  let generatedAt ← orThrow invalidDate (payload.get "generated_at").getString
  let generated ← orThrow invalidDate (host.dateParse (str generatedAt))
  let directHttpsUrl ← orThrow (error "Agent Connect requires service.direct_https_url.")
    (service.get "direct_https_url").getString
  let identity ← if version = some 6 then readDescriptorPackage host payload directHttpsUrl
    else readTokenPackage host payload directHttpsUrl
  let directHttpsUrl ← normaliseBackendBaseUrl host directHttpsUrl
  return {
    managedByNpub
    service := {
      directHttpsUrl
      serviceNpub := identity.serviceNpub
      relayUrls := getStringArray (service.get "relay_urls")
      openapiUrl := (service.get "openapi_url").getString
      docsUrl := (service.get "docs_url").getString
      healthUrl := (service.get "health_url").getString }
    workspaceOwnerNpub := identity.workspaceOwnerNpub
    workspaceId := identity.workspaceId
    workspaceServiceNpub := identity.workspaceServiceNpub
    workspaceTitle := identity.workspaceTitle
    sourceAppNpub := identity.sourceAppNpub
    sourceAppSchemaNamespace :=
      if version = some 5 then ((payload.get "app").getObject.get "schema_namespace").getString
      else none
    supportedVersion := (version.map fun q => host.toText (num q)).getD "unknown"
    connectionTokenRef := "agent-connect:" ++ identity.workspaceOwnerNpub ++ ":" ++
      identity.sourceAppNpub ++ ":" ++ host.toText (num generated)
    capabilityDefaults := normaliseCapabilities identity.capabilityInput }

end AgentChat
end WmAutopilot
