import WmAutopilot.Async.Prog
import WmAutopilot.Js.Keyed
import WmAutopilot.Wapps.RemoteStorageContract
import WmAutopilot.Wapps.WappRecord

/-!
# The broker of managed app storage

* `Host`          what the broker reads: the grants file, the installations, the signers, the clock;
* `Capability`    what a token may do; tokens are kept by their digest;
* `installation`, `issue`, `revokeApp`, `validate`   `RemoteStorageBroker`, without `request`;
* `request`       one request: four times it waits for others, and it validates again each time.
-/

set_option autoImplicit false

namespace WmAutopilot
namespace Wapps
namespace RemoteStorage
open Js Value Async

/-- What the broker reads.  A file that cannot be read, or a guard that is not there, throws. -/
structure Host where
  grants : Except Failure (List RemoteStorageGrant)
  /-- `store.list()` -/
  wapps : List WappRecord
  hasAppSigningKey : String → Except Failure Bool
  forbiddenSigner : String → Except Failure Bool
  now : ℤ

/-- the data of an installation that a capability is bound to. -/
structure Installation where
  id : String
  installationId : String
  appId : String
  owner : String
  workspaceOwner : String
  appNpub : Option String
  binding : Option WappTowerBinding
  deriving DecidableEq, Repr

structure Capability where
  appId : String
  grant : RemoteStorageGrant
  installation : Installation
  /-- `none` is `NaN`. -/
  expiresAt : Option ℤ
  deriving DecidableEq, Repr

abbrev Capabilities := List (String × Capability)

/-- the broker and what it reads. -/
structure View where
  capabilities : Capabilities
  host : Host

def idleTtl : ℤ := 30 * 24 * 60 * 60 * 1000

/-- a time that is later than `now`. -/
def later (time : Option ℤ) (now : ℤ) : Prop := ∃ t ∈ time, now < t

instance (time : Option ℤ) (now : ℤ) : Decidable (later time now) := by
  unfold later
  infer_instance

/-! ## installations -/

/-- `store.get(id)` -/
def Host.get (host : Host) (id : String) : Option WappRecord :=
  host.wapps.find? fun wapp => wapp.id = id

/-- the row is the installation of the grant. -/
def Installed (grant : RemoteStorageGrant) (wapp : WappRecord) : Prop :=
  wapp.Active ∧ wapp.appId = grant.appId ∧ wapp.wappInstallationId = grant.installationId ∧
    wapp.ownerNpub = grant.ownerNpub ∧ wapp.appNpub = some grant.appNpub ∧
    wapp.towerBindingId = grant.towerBindingId ∧
    (wapp.towerBinding = none ↔ grant.towerBindingId = none)

instance (grant : RemoteStorageGrant) (wapp : WappRecord) : Decidable (Installed grant wapp) :=
  inferInstanceAs (Decidable (_ ∧ _))

def toInstallation (wapp : WappRecord) : Installation where
  id := wapp.id
  installationId := wapp.wappInstallationId
  appId := wapp.appId
  owner := wapp.ownerNpub
  workspaceOwner := wapp.workspaceOwnerNpub
  appNpub := wapp.appNpub
  binding := wapp.towerBinding

def Host.installation (host : Host) (grant : RemoteStorageGrant) :
    Except Failure Installation := do
  let wapp ← orThrow (.storage "storage_installation_invalid" 409)
    ((host.get grant.installationId).filter fun wapp => Installed grant wapp)
  let custody ← host.hasAppSigningKey wapp.id
  storageAssert (custody = true) "storage_installation_invalid" 409
  storageAssert (grant.appNpub ≠ wapp.ownerNpub ∧ grant.appNpub ≠ wapp.workspaceOwnerNpub)
    "storage_signer_not_isolated" 409
  let forbidden ← host.forbiddenSigner grant.appNpub
  storageAssert (forbidden = false ∧
    (host.wapps.filter fun row => row.Active ∧ row.appNpub = some grant.appNpub).length = 1)
    "storage_signer_not_isolated" 409
  .ok (toInstallation wapp)

/-! ## capabilities -/

section
variable (contract : Contract)

/-- `Math.min(now + idleTtl, Date.parse(grant.expiresAt))` -/
def expiry (grant : RemoteStorageGrant) (now : ℤ) : Option ℤ :=
  (contract.dateParse grant.expiresAt).map fun t => if t < now + idleTtl then t else now + idleTtl

def revokeApp (appId : String) (capabilities : Capabilities) : Capabilities :=
  capabilities.filter fun c => c.2.appId ≠ appId

/-- the capabilities that are left when the app has none and the expired ones are deleted. -/
def View.kept (view : View) (appId : String) : Capabilities :=
  (revokeApp appId view.capabilities).filter fun c => ¬∃ t ∈ c.2.expiresAt, t ≤ view.host.now

/-- the capability that is issued for an app; `none` when there is no grant for it. -/
def Host.granted (host : Host) (appId : String) : Except Failure (Option Capability) := do
  match (← host.grants).find? fun g => g.appId = appId with
  | none => .ok none
  | some grant =>
    storageAssert (later (contract.dateParse grant.expiresAt) host.now) "storage_grant_expired" 409
    let installation ← host.installation grant
    .ok (some ⟨appId, grant, installation, expiry contract grant host.now⟩)

/-- `issue(appId)`, with the token that is drawn: the capabilities afterwards. -/
def View.issue (view : View) (appId token : String) : Capabilities :=
  match view.host.granted contract appId with
  | .ok (some capability) =>
    put Prod.fst (view.kept appId) (contract.hashToken token, capability)
  | _ => view.kept appId

/-- the grant of a capability stands in the file as it was issued. -/
def stillGranted (view : View) (capability : Capability) : Except Failure RemoteStorageGrant := do
  let grants ← view.host.grants
  let current ← orThrow (.storage "storage_grant_revoked" 403)
    (grants.find? fun g => g.grantId = capability.grant.grantId)
  storageAssert (current = capability.grant ∧
    later (contract.dateParse current.expiresAt) view.host.now) "storage_grant_revoked" 403
  .ok current

def validate (view : View) (token : String) : Except Failure Capability := do
  let capability ← orThrow (.storage "capability_invalid" 401)
    (view.capabilities.lookup (contract.hashToken token))
  storageAssert (later capability.expiresAt view.host.now) "capability_invalid" 401
  let current ← stillGranted contract view capability
  let installation ← view.host.installation current
  storageAssert (installation = capability.installation) "storage_installation_changed" 409
  .ok capability

/-- the capability after `capability.expiresAt = …` -/
def Capability.renewed (capability : Capability) (now : ℤ) : Capability :=
  { capability with expiresAt := expiry contract capability.grant now }

/-- the capability of a token is renewed. -/
def View.renew (view : View) (token : String) : Capabilities :=
  view.capabilities.map fun c =>
    if c.1 = contract.hashToken token then (c.1, c.2.renewed contract view.host.now) else c

end

/-! ## what a request asks for -/

/-- what is fetched: a `POST` has an authorization and a body. -/
structure Fetched where
  url : String
  authorization : Option String := none
  body : Option String := none

inductive Op where
  /-- the state of the broker and its host, when a request goes on. -/
  | look
  | fetch (request : Fetched)
  | readStorageJson
  /-- `withAppSigningKey(id, …)`: the key that the callback is given. -/
  | openKey (id : String)
  | createWappNip98Authorization (token url nsec serializedBody : String)
  | renew (token : String)
  | respond (token : String) (response : Value)
  /-- `signal.aborted` -/
  | aborted
  | issue (appId token : String)
  | revokeApp (appId : String)
  /-- the grants file, the installations, the signers or the clock change. -/
  | change (host : Host)

def Op.Ans : Op → Type
  | .look => View
  | .fetch _ => Except Failure ℕ
  | .readStorageJson => Except Failure Value
  | .openKey _ => Except Failure String
  | .createWappNip98Authorization .. => Except Failure String
  | .aborted => Bool
  | _ => Unit

/-- the signature, the renewal and the answer are in the section of the validation before them. -/
def Op.yields : Op → Bool
  | .createWappNip98Authorization .. | .renew _ | .respond .. | .aborted => false
  | _ => true

abbrev api : Api where
  Op := Op
  Ans := Op.Ans
  yields := Op.yields

abbrev Storing (α : Type) := Exc api Failure α

/-- `status` is between 200 and 299. -/
def isOk (status : ℕ) : Prop := 200 ≤ status ∧ status < 300

instance (status : ℕ) : Decidable (isOk status) := inferInstanceAs (Decidable (_ ∧ _))

/-- what a computation throws. -/
def raise {α : Type} : Except Failure α → Storing α
  | .ok a => pure a
  | .error e => throw e

def json (request : Fetched) : Storing (ℕ × Value) := do
  let status ← Exc.tryOp (A := api) (Op.fetch request) rfl
  if 300 ≤ status ∧ status < 400 then throw (.storage "storage_redirect_denied" 502)
  else
    let body ← Exc.tryOp (A := api) Op.readStorageJson rfl
    pure (status, body)

section
variable (contract : Contract)

/-- `this.validate(token)` when the request goes on. -/
def validated (token : String) : Storing (View × Capability) := do
  let view : View ← Exc.op (A := api) Op.look
  let capability ← raise (validate contract view token)
  pure (view, capability)

def requiredFeatures : List String :=
  ["durable_idempotency", "quota_reservations", "private_objects", "immutable_completion",
    "revocable_downloads", "bounded_stream_uploads", "recovery_status", "publisher_receipts"]

/-- `Array.isArray(features) && features.includes(feature)` -/
def hasFeature (descriptor : Value) (feature : String) : Prop :=
  ∃ features ∈ (descriptor.get "features").elements, str feature ∈ features

instance (descriptor : Value) (feature : String) : Decidable (hasFeature descriptor feature) := by
  unfold hasFeature
  infer_instance

/-- the descriptor of a service that supports the operation. -/
def supports (operation : Value) (status : ℕ) (descriptor : Value) : Except Failure Unit := do
  storageAssert (isOk status ∧ descriptor.get "protocol" = str REMOTE_STORAGE_PROTOCOL ∧
    ∀ feature ∈ requiredFeatures, hasFeature descriptor feature)
    "storage_delegation_unsupported" 409
  storageAssert (isCollectionOperation (operationText contract operation) →
    hasFeature descriptor "confirmed_collection_deletion") "storage_delegation_unsupported" 409

/-- the body of the request. -/
def bodyOf (grant : RemoteStorageGrant) (operation : Value) : Value :=
  let base : Value := obj [("installation_id", str grant.installationId),
    ("app_id", str grant.appId), ("revision", str grant.revision),
    ("expected_service_npub", str grant.serviceNpub)]
  let extra := if isCollectionOperation (operationText contract operation) then
    (entries operation).filter fun f => f.1 ≠ "operation" else []
  let more :=
    if operation.get "operation" = str "prepare" then
      [("idempotency_key", operation.get "idempotencyKey"),
        ("sha256_hex", operation.get "sha256"), ("size_bytes", operation.get "sizeBytes")]
    else if operation.get "operation" = str "status" ∧ hasOwn operation "cursor" then
      [("cursor", operation.get "cursor")]
    else []
  (base.spread extra).spread more

def pathOf (grant : RemoteStorageGrant) (operation : Value) : String :=
  REMOTE_STORAGE_PREFIX ++ "/workspaces/" ++ grant.workspaceId ++ "/delegations/" ++
    grant.delegationId ++ "/" ++
    if isCollectionOperation (operationText contract operation) then
      operationText contract operation
    else if operation.get "operation" = str "prepare" then "prepare"
    else if operation.get "operation" = str "status" ∧ ¬hasOwn operation "objectId" then "status"
    else "objects/" ++
      (if hasOwn operation "objectId" then contract.toText (operation.get "objectId") else "") ++
      "/" ++ operationText contract operation

/-- the codes of the destination that are passed on. -/
def allowedErrors : List String :=
  ["storage_credits_required", "storage_budget_exhausted", "storage_idempotency_conflict",
    "storage_identity_mismatch", "storage_object_not_found", "storage_upload_incomplete",
    "storage_transfer_busy", "storage_size_invalid", "storage_billing_unconfigured",
    "storage_object_deleted", "storage_collection_not_found", "storage_collection_invalid",
    "storage_collection_incomplete", "storage_collection_sealed", "storage_anchor_role_conflict",
    "storage_collection_not_active", "storage_unsealed_collection_blocks_delete",
    "storage_unregistered_objects_block_delete", "storage_preview_limit",
    "storage_preview_not_found", "storage_preview_stale", "storage_confirmation_invalid",
    "storage_confirmation_used", "storage_job_not_found", "storage_job_conflict",
    "storage_physical_delete_unsupported", "storage_physical_policy_required",
    "storage_versioned_delete_unsupported", "storage_physical_delete_unconfirmed"]

/-- the error of an answer that is not `ok`. -/
def rejected (status : ℕ) (body : Value) : Failure :=
  if status = 401 ∨ status = 403 then .storage "storage_delegation_denied" status
  else
    let code := match body.get "error" with
      | str code => if code ∈ allowedErrors then code else "storage_destination_rejected"
      | _ => "storage_destination_rejected"
    .storage code (if status ∈ [402, 404, 409, 410, 413, 429, 503] then status else 502)

/-- what the app is told. -/
def responseOf (grant : RemoteStorageGrant) (operation : Value) (now : ℤ) (status : ℕ)
    (body : Value) : Except Failure Value :=
  if ¬isOk status then .error (rejected status body)
  else match contract.validateStorageResponse body grant operation now with
    | .ok response => .ok response
    | .error _ => .error (.storage "storage_response_invalid" 502)

/-- the part of `request` whose errors are translated. -/
def exchange (token : String) (grant : RemoteStorageGrant) (operation : Value) :
    Storing Value := do
  let (healthStatus, health) ← json { url := grant.origin ++ "/health" }
  raise (storageAssert (isOk healthStatus ∧ health.get "service_npub" = str grant.serviceNpub)
    "storage_service_identity_mismatch" 502)
  let (status, descriptor) ← json { url := grant.origin ++ REMOTE_STORAGE_PREFIX ++ "/descriptor" }
  raise (supports contract operation status descriptor)
  let _ ← validated contract token
  let url := grant.origin ++ pathOf contract grant operation
  let serializedBody := contract.stringify (bodyOf contract grant operation)
  let nsec ← Exc.tryOp (A := api) (Op.openKey grant.installationId) rfl
  -- the app may have been revoked while its key was opened
  let _ ← validated contract token
  let authorization ← Exc.tryOp (A := api)
    (Op.createWappNip98Authorization token url nsec serializedBody) rfl
  let (status, body) ← json { url, authorization := some authorization, body := some serializedBody }
  let (view, _) ← validated contract token
  let response ← raise (responseOf contract grant operation view.host.now status body)
  Exc.op (A := api) (Op.renew token)
  Exc.op (A := api) (Op.respond token response)
  pure response

def request (token : String) (value : Value) : Storing Value := do
  let (_, capability) ← validated contract token
  let grant := capability.grant
  let operation ← raise (parseStorageOperation contract value grant.maxObjectBytes)
  tryCatch (exchange contract token grant operation) fun e => do
    match e with
    | .storage code status => throw (.storage code status)
    | .other =>
      let aborted : Bool ← Exc.op (A := api) Op.aborted
      if aborted then throw (.storage "storage_timeout" 504)
      else throw (.storage "storage_destination_unavailable" 502)

end

end RemoteStorage
end Wapps
end WmAutopilot
