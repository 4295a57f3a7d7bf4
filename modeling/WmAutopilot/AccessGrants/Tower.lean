import Mathlib.Data.List.Dedup
import WmAutopilot.AccessGrants.Grant

/-!
# Asking Tower about a grant

* `Fetch`                     what Tower answers to each request of a verification;
* `responseAllowsAccess`, `fallbackPayloadAllowsAccess`, `payloadConfirmsRevocation`   how an answer
                              is read;
* `verifyAccessGrantWithTower`            is the access current? the payload that says so;
* `verifyAccessGrantRevocationWithTower`  was the access revoked?
-/

set_option autoImplicit false
set_option linter.unusedVariables false

namespace WmAutopilot
namespace AccessGrants
open Js Value

/-! ## requests -/

/-- the requests of a verification: each is made at most once. -/
inductive TowerStep where
  | verify
  | flightDeckMe
  | workspaceMe
  | workspaces
  | groups
  deriving DecidableEq, Repr

structure TowerRequest where
  url : String
  method : String
  authorization : String
  body : Option Value

/-- `payload` is `await response.json().catch(() => null)`. -/
structure TowerResponse where
  status : ℕ
  payload : Value

/-- `response.ok` -/
def TowerResponse.ok (r : TowerResponse) : Bool := 200 ≤ r.status && r.status ≤ 299

/-- Tower: its answer to each request, or the error of the request. -/
abbrev Fetch := TowerStep → TowerRequest → Except Thrown TowerResponse

section Requests
variable (host : Host) (fetch : Fetch) (key : SecretKey)

/-- a signed `GET`. -/
def fetchGrantPayloadJson (step : TowerStep) (url : String) : Except Thrown TowerResponse :=
  fetch step ⟨url, "GET", host.nip98 url "GET" none key, none⟩

def postVerify (url : String) (body : Value) : Except Thrown TowerResponse :=
  fetch .verify ⟨url, "POST", host.nip98 url "POST" (some body) key, some body⟩

/-- `grant.payload.service.direct_https_url.replace(/\/+$/, "")`; only strings have a `replace`. -/
def towerBaseUrl (grant : DecodedAccessGrant) : Except Thrown String :=
  match (grant.payload.get "service").get "direct_https_url" with
  | str url => return stripSlashes url
  | _ => throw ⟨none, "direct_https_url.replace is not a function"⟩

/-- a URL of the payload, when it has the origin of the service. -/
def resolveGrantPayloadUrl (baseUrl : String) (value : Value) : Option String := do
  let text ← value.getString
  let service ← host.url (baseUrl ++ "/")
  let resolved ← host.urlAt text (baseUrl ++ "/")
  if resolved.origin = service.origin then some resolved.href else none

def fetchFlightDeckPgMe (grant : DecodedAccessGrant) (baseUrl : String) :
    Except Thrown (Option TowerResponse) :=
  match resolveGrantPayloadUrl host baseUrl ((grant.payload.get "workspace").get "me_url") with
  | none => return none
  | some url => some <$> fetchGrantPayloadJson host fetch key .flightDeckMe url

/-- the listings that are asked last, with their paths. -/
def listings (grant : DecodedAccessGrant) : List (TowerStep × String) :=
  [(.workspaces, "/api/v4/workspaces?npub=" ++ host.encodeURIComponent grant.recipientNpub),
    (.groups, "/api/v4/groups?npub=" ++ host.encodeURIComponent grant.recipientNpub)]

end Requests

/-! ## reading an answer -/

/-- the text at a path of an object, when there is one. -/
def getPathStringValues (value : Value) (path : List String) : List String :=
  (path.foldl get value).getString.toList

def getIdentityValues (payload : Value) (paths : List (List String)) : List String :=
  (paths.flatMap (getPathStringValues payload)).dedup

/-- every text at the paths is one of the expected values, unless nothing is expected. -/
def exposedValuesMatch (payload : Value) (paths : List (List String)) (expectedValues : List Value) :
    Bool :=
  let allowed := expectedValues.filter truthy
  allowed = [] || (getIdentityValues payload paths).all fun value => str value ∈ allowed

def servicePaths : List (List String) :=
  [["service_npub"], ["tower_service_npub"], ["service", "service_npub"],
    ["workspace", "tower_service_npub"], ["identity", "tower_service_npub"],
    ["descriptor", "identity", "tower_service_npub"]]

def workspaceServicePaths : List (List String) :=
  [["workspace_service_npub"], ["workspace", "workspace_service_npub"],
    ["identity", "workspace_service_npub"], ["descriptor", "identity", "workspace_service_npub"]]

def workspaceOwnerPaths : List (List String) :=
  [["workspace_owner_npub"], ["owner_npub"], ["workspace", "owner_npub"],
    ["workspace", "workspace_owner_npub"], ["identity", "workspace_owner_npub"],
    ["descriptor", "identity", "workspace_owner_npub"]]

def workspaceIdPaths : List (List String) :=
  [["workspace_id"], ["v4_workspace_id"], ["workspace", "workspace_id"],
    ["workspace", "v4_workspace_id"], ["identity", "workspace_id"],
    ["descriptor", "identity", "workspace_id"]]

def appPaths : List (List String) :=
  [["app_npub"], ["workspace", "app_npub"], ["identity", "app_npub"],
    ["descriptor", "identity", "app_npub"]]

def recipientPaths : List (List String) :=
  [["recipient_npub"], ["viewer"], ["viewer_npub"], ["member_npub"], ["actor", "npub"]]

/-- `getString(grant.payload.workspace.workspace_id)` -/
def DecodedAccessGrant.workspaceId (grant : DecodedAccessGrant) : Option String :=
  ((grant.payload.get "workspace").get "workspace_id").getString

/-- the identities that the answer shows are those of the grant. -/
def towerIdentityMatchesGrant (payload : Value) (grant : DecodedAccessGrant) : Bool :=
  let workspaceAppNpub :=
    (ofOption ((grant.payload.get "workspace").get "app_npub").getString).orElse grant.appNpub
  exposedValuesMatch payload servicePaths [grant.serviceNpub] &&
    exposedValuesMatch payload workspaceServicePaths [grant.workspaceServiceNpub] &&
    exposedValuesMatch payload workspaceOwnerPaths [grant.workspaceOwnerNpub] &&
    exposedValuesMatch payload workspaceIdPaths [ofOption grant.workspaceId] &&
    exposedValuesMatch payload appPaths [workspaceAppNpub, grant.appNpub] &&
    exposedValuesMatch payload recipientPaths [str grant.recipientNpub]

def responseAllowsAccess (payload : Value) (grant : DecodedAccessGrant) : Bool :=
  payload.isObject && towerIdentityMatchesGrant payload grant &&
    (payload.get "allowed" = bool true || payload.get "active" = bool true ||
      payload.get "verified" = bool true || payload.get "current_member" = bool true ||
      (payload.get "membership").isObject)

/-- a row of a listing is of the workspace of the grant. -/
def rowMatchesGrant (row : Value) (grant : DecodedAccessGrant) : Bool :=
  row.isObject && towerIdentityMatchesGrant row grant &&
    (row.get "workspace_owner_npub" = grant.workspaceOwnerNpub ||
      row.get "owner_npub" = grant.workspaceOwnerNpub ||
      row.get "workspace_service_npub" = grant.workspaceServiceNpub ||
      (grant.serviceNpub.truthy && row.get "service_npub" = grant.serviceNpub))

def fallbackPayloadAllowsAccess (payload : Value) (grant : DecodedAccessGrant) : Bool :=
  let rows := match (payload.get "workspaces").elements with
    | some rows => rows
    | none => (payload.get "groups").elements.getD []
  payload.isObject && rows.any fun row => rowMatchesGrant row grant

/-- `TowerRevocationVerificationResult["towerResult"]` -/
inductive TowerResult where
  | access_active
  | workspace_deleted
  | workspace_not_found
  | membership_revoked
  | access_denied
  | unconfirmed
  deriving DecidableEq, Repr

/-- `getString(body.status) ?? getString(body.state)` -/
def statusOf (body : Value) : Option String :=
  (body.get "status").getString.or (body.get "state").getString

/-- `getString(body.reason) ?? getString(body.detail_code) ?? getString(body.code)` -/
def reasonOf (body : Value) : Option String :=
  ((body.get "reason").getString.or (body.get "detail_code").getString).or
    (body.get "code").getString

def payloadConfirmsRevocation (payload : Value) : Option TowerResult :=
  let status := statusOf payload
  let reason := reasonOf payload
  if payload.isObject = false then none
  else if payload.get "deleted" = bool true ∨ payload.get "tombstoned" = bool true ∨
      status = some "deleted" ∨ status = some "tombstoned" ∨
      reason = some "workspace_deleted" ∨ reason = some "workspace_tombstoned" then
    some .workspace_deleted
  else if payload.get "allowed" = bool false ∨ payload.get "active" = bool false ∨
      payload.get "verified" = bool false ∨ payload.get "current_member" = bool false ∨
      payload.get "member" = bool false ∨ status = some "revoked" ∨ status = some "inactive" ∨
      reason = some "workspace_access_revoked" ∨ reason = some "workspace_membership_revoked" ∨
      reason = some "not_workspace_member" then
    some .membership_revoked
  else none

/-! ## verification of a grant -/

section Verify
variable (host : Host) (fetch : Fetch) (key : SecretKey) (grant : DecodedAccessGrant)

/-- the request of both verifications; a revocation has more fields in the middle and at the end. -/
def verifyBody (middle last : List (String × Value)) : Value :=
  obj ([("grant_id", grant.grantId), ("dedupe_key", str grant.dedupeKey),
    ("recipient_npub", str grant.recipientNpub), ("service_npub", grant.serviceNpub)] ++ middle ++
    [("workspace_service_npub", grant.workspaceServiceNpub),
    ("workspace_owner_npub", grant.workspaceOwnerNpub), ("app_npub", grant.appNpub),
    ("workspace_app_npub", ((grant.payload.get "workspace").get "app_npub").orElse null),
    ("routing_app_npub", grant.appNpub), ("event_id", str grant.event.id)] ++ last)

/-- the statuses with which Tower says that it has no such endpoint. -/
def unavailable (r : TowerResponse) : Bool := r.status ∈ [404, 405, 501]

def towerVerifyFailed (message : String) : Thrown := ⟨some "tower_verify_failed", message⟩

/-- the first listing that has the workspace. -/
def searchListings (baseUrl : String) : List (TowerStep × String) → Except Thrown Value
  | [] => throw (towerVerifyFailed "Tower fallback verification did not confirm current access")
  | (step, path) :: rest => do
    let response ← fetchGrantPayloadJson host fetch key step (baseUrl ++ path)
    if response.ok ∧ fallbackPayloadAllowsAccess response.payload grant then
      return response.payload
    else searchListings baseUrl rest

/-- what is asked when the endpoint for verification is missing. -/
def verifyWithoutEndpoint (baseUrl : String) : Except Thrown Value := do
  match ← fetchFlightDeckPgMe host fetch key grant baseUrl with
  | some me =>
    if me.ok then
      if responseAllowsAccess me.payload grant then return me.payload
      else throw (towerVerifyFailed "Tower Flight Deck /me did not confirm current access")
    else if me.status ∈ [403, 404, 410] then
      throw (towerVerifyFailed ("Tower Flight Deck /me denied current access with HTTP " ++
        toString me.status))
    else searchListings host fetch key grant baseUrl (listings host grant)
  | none => searchListings host fetch key grant baseUrl (listings host grant)

def verifyAccessGrantWithTower : Except Thrown Value := do
  let baseUrl ← towerBaseUrl grant
  let response ← postVerify host fetch key (baseUrl ++ "/api/v4/access-grants/verify")
    (verifyBody grant [] [])
  if response.ok then
    if responseAllowsAccess response.payload grant then return response.payload
    else throw (towerVerifyFailed "Tower verification did not confirm current access")
  else if unavailable response then verifyWithoutEndpoint host fetch key grant baseUrl
  else throw (towerVerifyFailed ("Tower verification failed with HTTP " ++
    toString response.status))

end Verify

/-! ## verification of a revocation -/

structure TowerRevocationVerificationResult where
  confirmed : Bool
  towerResult : TowerResult
  checkedAt : String
  message : String
  payload : Value := undefined

section Revocation
variable (host : Host) (fetch : Fetch) (key : SecretKey) (grant : DecodedAccessGrant)
  (checkedAt : String)

/-- an answer that was read: active access first, then a revocation, then nothing. -/
def readRevocation (payload : Value) (active revoked : String) :
    Option TowerRevocationVerificationResult :=
  if responseAllowsAccess payload grant then
    some ⟨false, .access_active, checkedAt, active, payload⟩
  else (payloadConfirmsRevocation payload).map fun result =>
    ⟨true, result, checkedAt, revoked, payload⟩

/-- the statuses of a `/me` endpoint that confirm a revocation. -/
def readMeStatus (name : String) (status : ℕ) : Option TowerRevocationVerificationResult :=
  if status = 404 then some ⟨true, .workspace_not_found, checkedAt,
    "Tower " ++ name ++ " reported the workspace was not found.", undefined⟩
  else if status = 410 then some ⟨true, .workspace_deleted, checkedAt,
    "Tower " ++ name ++ " reported the workspace was deleted.", undefined⟩
  else if status = 403 then some ⟨true, .access_denied, checkedAt,
    "Tower " ++ name ++ " denied current workspace access.", undefined⟩
  else none

/-- a `/me` endpoint: its verdict, and the payloads checked so far. -/
def readMe (name : String) (checked : List Value) (response : TowerResponse) :
    Option TowerRevocationVerificationResult × List Value :=
  if response.ok then
    (readRevocation grant checkedAt response.payload
      ("Tower " ++ name ++ " still confirms current workspace access.")
      ("Tower " ++ name ++ " confirmed revoked or deleted workspace access."),
      checked ++ [response.payload])
  else (readMeStatus checkedAt name response.status, checked)

/-- the listings, for a revocation: one that has the workspace says that the access is active. -/
def searchRevokedListings (baseUrl : String) (sawWorkspaceList : Bool) (checked : List Value) :
    List (TowerStep × String) → Except Thrown TowerRevocationVerificationResult
  | [] => return if sawWorkspaceList then ⟨true, .workspace_not_found, checkedAt,
        "Tower fallback listings no longer include this workspace.", arr checked⟩
      else ⟨false, .unconfirmed, checkedAt,
        "Tower revocation verification could not confirm current access state.", arr checked⟩
  | (step, path) :: rest => do
    let response ← fetchGrantPayloadJson host fetch key step (baseUrl ++ path)
    if response.ok then
      if fallbackPayloadAllowsAccess response.payload grant then
        return ⟨false, .access_active, checkedAt,
          "Tower fallback listing still includes the workspace.", response.payload⟩
      else searchRevokedListings baseUrl true (checked ++ [response.payload]) rest
    else searchRevokedListings baseUrl sawWorkspaceList checked rest

/-- `/api/v4/workspaces/…/me`, and then the listings. -/
def verifyRevokedWorkspace (baseUrl : String) (checked : List Value) :
    Except Thrown TowerRevocationVerificationResult := do
  let (result, checked) ← match grant.workspaceId with
    | none => pure (none, checked)
    | some workspaceId =>
      readMe grant checkedAt "/me" checked <$> fetchGrantPayloadJson host fetch key .workspaceMe
        (baseUrl ++ "/api/v4/workspaces/" ++ host.encodeURIComponent workspaceId ++ "/me")
  match result with
  | some result => return result
  | none =>
    searchRevokedListings host fetch key grant checkedAt baseUrl false checked (listings host grant)

def verifyRevokedWithoutEndpoint (baseUrl : String) :
    Except Thrown TowerRevocationVerificationResult := do
  let me ← fetchFlightDeckPgMe host fetch key grant baseUrl
  let (result, checked) := match me with
    | none => (none, [])
    | some response => readMe grant checkedAt "Flight Deck /me" [] response
  match result with
  | some result => return result
  | none => verifyRevokedWorkspace host fetch key grant checkedAt baseUrl checked

def verifyAccessGrantRevocationWithTower : Except Thrown TowerRevocationVerificationResult := do
  let baseUrl ← towerBaseUrl grant
  let body := verifyBody grant
    [("workspace_id", ((grant.payload.get "workspace").get "workspace_id").orElse null)]
    [("action", grant.payload.get "action")]
  let response ← postVerify host fetch key (baseUrl ++ "/api/v4/access-grants/verify") body
  if response.ok then
    return (readRevocation grant checkedAt response.payload
      "Tower still confirms current workspace access."
      "Tower confirmed revoked or deleted workspace access.").getD
        ⟨false, .unconfirmed, checkedAt, "Tower verification response did not confirm active " ++
          "access or revoked access.", response.payload⟩
  else if response.status = 410 then
    return ⟨true, .workspace_deleted, checkedAt,
      "Tower access-grant verification reported the workspace was deleted.", undefined⟩
  else if response.status = 403 then
    return ⟨true, .access_denied, checkedAt,
      "Tower access-grant verification denied current workspace access.", undefined⟩
  else if unavailable response then
    verifyRevokedWithoutEndpoint host fetch key grant checkedAt baseUrl
  else
    return ⟨false, .unconfirmed, checkedAt, "Tower revocation verification failed with HTTP " ++
      toString response.status ++ ".", undefined⟩

end Revocation

end AccessGrants
end WmAutopilot
