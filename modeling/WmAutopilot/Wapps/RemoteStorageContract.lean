import WmAutopilot.Auth.Nip98ReplayCache
import WmAutopilot.Js.Throw

/-!
# Managed app storage: grants, errors and operations

* `RemoteStorageGrant`     a grant of the grants file;
* `Failure`                a `RemoteStorageError`, or any other error;
* `parseStorageOperation`  what an app may ask for.
-/

set_option autoImplicit false

namespace WmAutopilot
namespace Wapps
namespace RemoteStorage
open Js Value Auth

structure RemoteStorageGrant where
  grantId : String
  revision : String
  installationId : String
  appId : String
  ownerNpub : String
  appNpub : String
  towerBindingId : Option String
  origin : String
  serviceNpub : String
  workspaceId : String
  delegationId : String
  expiresAt : String
  maxObjectBytes : ℕ
  /-- the order of the properties in the file: `JSON.stringify` shows it. -/
  order : List String := []
  deriving DecidableEq, Repr

/-- a `RemoteStorageError`, or another error. -/
inductive Failure where
  | storage (code : String) (status : ℕ)
  | other
  deriving DecidableEq, Repr

def storageAssert (p : Prop) [Decidable p] (code : String) (status : ℕ) : Except Failure Unit :=
  if p then .ok () else .error (.storage code status)

theorem storageAssert_ok {p : Prop} [Decidable p] {code : String} {status : ℕ} {u : Unit} :
    storageAssert p code status = .ok u ↔ p := by
  unfold storageAssert
  split <;> simp [*]

def REMOTE_STORAGE_PREFIX : String := "/api/v4/managed-app-storage"

def REMOTE_STORAGE_PROTOCOL : String := "managed-app-storage-v1"

/-! ## operations -/

/-- The conversions and the checks of other files that are used. -/
structure Contract where
  /-- `String(value)` -/
  toText : Value → String
  /-- `JSON.stringify` -/
  stringify : Value → String
  /-- `Date.parse`; `none` is `NaN`. -/
  dateParse : String → Option ℤ
  /-- the digest of a token. -/
  hashToken : String → String
  parseCollectionOperation : Value → Except Failure Value
  validateStorageResponse : Value → RemoteStorageGrant → Value → ℤ → Except Failure Value

def collectionActions : List String :=
  ["collection-begin", "collection-page", "collection-seal", "collection-abort",
    "collection-status", "collection-list", "deletion-preview", "deletion-page", "deletion-arm",
    "deletion-cancel", "deletion-confirm", "deletion-status", "deletion-resume"]

def isCollectionOperation (operation : String) : Prop := operation ∈ collectionActions

instance (operation : String) : Decidable (isCollectionOperation operation) :=
  inferInstanceAs (Decidable (_ ∈ _))

/-- `Object.entries(value)` -/
def entries : Value → List (String × Value)
  | obj fs => fs
  | _ => []

/-- `Object.hasOwn(value, key)` -/
def hasOwn (value : Value) (key : String) : Prop := key ∈ (entries value).map Prod.fst

instance (value : Value) (key : String) : Decidable (hasOwn value key) :=
  inferInstanceAs (Decidable (_ ∈ _))

/-- `storageObject(value, keys)` -/
def storageObject (value : Value) (keys : Option (List String)) : Except Failure Unit := do
  storageAssert (value.isPlainObject = true) "storage_request_invalid" 400
  storageAssert (∀ allowed ∈ keys, ∀ f ∈ entries value, f.1 ∈ allowed)
    "storage_request_invalid" 400

def isHexDigit (c : Char) : Bool := ('0' ≤ c && c ≤ '9') || ('a' ≤ c && c ≤ 'f')

/-- `storageUuid.test(value)` on a string. -/
def isStorageUuid : Value → Bool
  | str s =>
    let parts := s.splitOn "-"
    parts.map (fun p => p.toList.length) == [8, 4, 4, 4, 12] &&
      parts.all fun p => p.toList.all isHexDigit
  | _ => false

/-- `storageHash.test(value)` on a string. -/
def isStorageHash : Value → Bool
  | str s => isHexKey s
  | _ => false

/-- `/^[A-Za-z0-9_-]{1,256}$/` on a string. -/
def isCursor : Value → Bool
  | str s => 1 ≤ s.toList.length && s.toList.length ≤ 256 &&
      s.toList.all fun c => c.isAlphanum || c = '_' || c = '-'
  | _ => false

/-- `Number.isSafeInteger(value) && 0 < value && value <= maxBytes` -/
def isSize (maxBytes : ℕ) : Value → Bool
  | num q => q.den = 1 && isSafeInteger q.num && 0 < q.num && q.num ≤ maxBytes
  | _ => false

section
variable (contract : Contract)

/-- `String(row.operation)` -/
def operationText (row : Value) : String := contract.toText (row.get "operation")

def parseStorageOperation (value : Value) (maxBytes : ℕ) : Except Failure Value := do
  storageObject value none
  if isCollectionOperation (operationText contract value) then
    contract.parseCollectionOperation value
  else if value.get "operation" = str "prepare" then do
    storageObject value (some ["operation", "idempotencyKey", "sha256", "sizeBytes"])
    storageAssert (isStorageUuid (value.get "idempotencyKey") = true ∧
      isStorageHash (value.get "sha256") = true) "storage_request_invalid" 400
    storageAssert (isSize maxBytes (value.get "sizeBytes") = true) "storage_size_invalid" 413
    .ok value
  else do
    storageObject value (some ["operation", "objectId", "cursor"])
    storageAssert (hasOwn value "cursor" → value.get "operation" = str "status" ∧
      ¬hasOwn value "objectId" ∧ isCursor (value.get "cursor") = true)
      "storage_request_invalid" 400
    storageAssert (operationText contract value ∈ ["status", "complete", "download-url"])
      "storage_operation_not_allowed" 403
    storageAssert (hasOwn value "objectId" ∨ value.get "operation" ≠ str "status" →
      isStorageUuid (value.get "objectId") = true) "storage_request_invalid" 400
    .ok value

end

end RemoteStorage
end Wapps
end WmAutopilot
