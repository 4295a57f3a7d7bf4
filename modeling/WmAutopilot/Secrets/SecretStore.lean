import Mathlib.Logic.Function.Basic
import WmAutopilot.Async.Triple
import WmAutopilot.Secrets.SecretPolicy
import WmAutopilot.Sql.Table

/-!
# The store of imported secrets

Any number of handles work on one database file, so that the statements of the methods interleave.
A transaction (`create`, `update`, `revoke`) is one operation; `consume`, `withServiceCredential` and
`signHostedSite` read a row, use the secret, and stamp the record that they have read.

* `SecretRow`             a row of `imported_secrets`;
* `SecretOp`              the statements and what the methods wait for;
* `create`, `consume`, `withServiceCredential`, `signHostedSite`   the methods;
* `World`, `perform`      the rows, what was committed and what was returned;
* `system`                the handles; `restricted R` runs a stamp only where `R` holds.
-/

set_option autoImplicit false
set_option linter.unusedVariables false

namespace WmAutopilot
namespace Secrets
open Js Value Async Sql

/-- a row of `imported_secrets`. -/
structure SecretRow where
  id : String
  owner : String
  workspace : String
  metadata : SecretRecord
  envelope : String
  deriving DecidableEq

/-! ## values -/

/-- what binds an envelope to its record. -/
def binding (record : SecretRecord) : String :=
  "wm-imported-secret-v1\x00" ++ record.id ++ "\x00" ++ record.ownerNpub ++ "\x00" ++
    record.workspaceId ++ "\x00" ++ record.type.text ++ "\x00" ++ record.publicNpub.getD ""

/-- `/^[0-9a-fA-F]{64}$/` -/
def isHexKeyAnyCase (s : String) : Bool := isHexKey (toLowerCase s)

/-- the bytes of a signing key. -/
def signingKey (host : Host) (s : String) : Option Bytes :=
  if startsWith s "nsec1" then host.decodeNsec s
  else if isHexKeyAnyCase s then some (host.fromHex s)
  else none

def parseValue (host : Host) (type : SecretType) (value : Value) :
    Except SecretError (Bytes × Option String) :=
  match value with
  | str s =>
    if s = "" ∨ 65536 < s.utf8ByteSize then refuse "invalid_secret_value"
    else match type with
      | .secret => .ok (host.textEncode s, none)
      | .nostr => do
        let bytes ← orThrow ⟨"invalid_signing_key", 400⟩ (signingKey host s)
        let npub ← orThrow ⟨"invalid_signing_key", 400⟩ (host.publicNpub bytes)
        pure (bytes, some npub)
  | _ => refuse "invalid_secret_value"

/-- the type of a secret. -/
def readType : Value → Except SecretError SecretType
  | str "secret" => .ok .secret
  | str "nostr" => .ok .nostr
  | _ => refuse "invalid_secret_type"

/-! ## transactions -/

/-- `SELECT metadata, envelope FROM imported_secrets WHERE id=? AND owner=? AND workspace=?` -/
def findRow (rows : List SecretRow) (owner workspace id : String) : Except SecretError SecretRow :=
  orThrow ⟨"secret_not_found", 404⟩ (rows.find? fun row =>
    row.id = id ∧ row.owner = owner ∧ row.workspace = workspace)

/-- `UPDATE imported_secrets SET metadata=? WHERE id=?`, and the envelope when one is given. -/
def writeRow (id : String) (metadata : SecretRecord) (envelope : Option String)
    (rows : List SecretRow) : List SecretRow :=
  Sql.update (fun row => row.id = id)
    (fun row => { row with metadata, envelope := envelope.getD row.envelope }) rows

/-- the next revision, with the parts that an update may give. -/
def SecretRecord.edited (previous : SecretRecord) (label : String) (type : SecretType)
    (policy : SecretPolicy) (time : String) : SecretRecord :=
  { previous with label, type, policy, revision := previous.revision + 1, updatedAt := time }

/-- the record for a new value; another identity starts without consumers and without export. -/
def SecretRecord.rekeyed (next previous : SecretRecord) (publicNpub : Option String) :
    SecretRecord :=
  if previous.publicNpub ≠ publicNpub ∨ previous.type ≠ next.type then
    { next with publicNpub, policy := deniedPolicy }
  else { next with publicNpub }

/-- The record and the envelope that `update` writes; the nonce is random. -/
def updated (host : Host) (time : String) (nonce : ℕ) (input : Value) (row : SecretRow) :
    Except SecretError (SecretRecord × String) := do
  let previous := row.metadata
  throwIf (input.get "revision" ≠ num previous.revision) ⟨"stale_secret_revision", 409⟩
  throwIf (previous.revokedAt.isSome) ⟨"secret_revoked", 409⟩
  let type ← readType ((input.get "type").orElse (str previous.type.text))
  throwIf (type ≠ previous.type ∧ input.get "value" = undefined) ⟨"replacement_value_required", 400⟩
  let policy ← (if input.get "policy" = undefined then pure previous.policy
    else normalizeSecretPolicy host (input.get "policy") : Except SecretError SecretPolicy)
  let label ← (if input.get "label" = undefined then pure previous.label
    else boundedText (input.get "label") : Except SecretError String)
  if input.get "value" = undefined then pure (previous.edited label type policy time, row.envelope)
  else do
    let value ← parseValue host type (input.get "value")
    let next := (previous.edited label type policy time).rekeyed previous value.2
    pure (next, host.encrypt nonce value.1 (binding next))

/-- the record that `revoke` writes. -/
def SecretRecord.revoked (record : SecretRecord) (time : String) : SecretRecord :=
  { record with revokedAt := some time, updatedAt := time, revision := record.revision + 1 }

/-! ## operations -/

inductive SecretOp where
  /-- `this.row(owner, workspace, id)` -/
  | row (owner workspace id : String)
  /-- `new Date().toISOString()` -/
  | isoNow
  /-- `Date.now()`, in milliseconds. -/
  | dateNow
  | randomUUID
  | randomBytes
  /-- the transaction of `create`. -/
  | insert (row : SecretRow)
  /-- the transaction of `update`, on an object. -/
  | update (owner workspace id : String) (input : Value)
  /-- the transaction of `revoke`. -/
  | revoke (owner workspace id : String) (revision : Value)
  /-- `UPDATE imported_secrets SET metadata=? WHERE id=?` after a use. -/
  | stamp (id : String) (record : SecretRecord)
  | audit (secretId operation identity context contextId outcome : String)
  /-- the callback of `consume`. -/
  | onReturned (value : String)
  /-- the operation of a trusted service. -/
  | service (value : String)
  /-- `consume` or `withServiceCredential` has returned to this consumer. -/
  | returned (consumer : SecretConsumer)

/-- the answer of an operation. -/
abbrev SecretOp.Ans : SecretOp → Type
  | row .. => Except Failure SecretRow
  | isoNow | randomUUID => String
  | dateNow | randomBytes => ℕ
  | insert _ | stamp .. | audit .. | onReturned _ => Except Failure Unit
  | update .. | revoke .. => Except Failure SecretRecord
  | service _ => Except Failure Value
  | returned _ => Unit

/-- the handles belong to processes of their own: others may run before every operation. -/
abbrev api : Api := ⟨SecretOp, SecretOp.Ans, fun _ => true⟩

def op (o : SecretOp) : Exc api Failure o.Ans := Exc.op (A := api) o
def tryOp {α : Type} (o : SecretOp) (h : o.Ans = Except Failure α) : Exc api Failure α :=
  Exc.tryOp (A := api) o h

/-- what does not wait. -/
def now {α : Type} (x : Except Failure α) : Exc api Failure α := ExceptT.mk (.ret x)

/-- a `SecretError` is thrown as it is. -/
def checked {α : Type} (x : Except SecretError α) : Exc api Failure α := now (x.mapError .secret)

/-! ## methods -/

/-- what a new secret is made of. -/
structure NewSecret where
  type : SecretType
  policy : SecretPolicy
  label : String
  bytes : Bytes
  publicNpub : Option String

/-- the checks of `create`. -/
def readNewSecret (host : Host) (owner workspace : String) (inputValue : Value) :
    Except SecretError NewSecret := do
  let _ ← validatedNpub host (str owner)
  let _ ← boundedText (str workspace) 128
  let input ← object inputValue
  let type ← readType (input.get "type")
  let policy ← normalizeSecretPolicy host ((input.get "policy").orElse deniedPolicy.value)
  let label ← boundedText (input.get "label")
  let value ← parseValue host type (input.get "value")
  pure ⟨type, policy, label, value.1, value.2⟩

def create (host : Host) (owner workspace : String) (inputValue : Value) :
    Exc api Failure SecretRecord := do
  let new ← checked (readNewSecret host owner workspace inputValue)
  let time ← op .isoNow
  let id ← op .randomUUID
  let nonce ← op .randomBytes
  let record : SecretRecord :=
    { id, ownerNpub := owner, workspaceId := workspace, label := new.label, type := new.type
      publicNpub := new.publicNpub, policy := new.policy, revision := 1, createdAt := time
      updatedAt := time }
  tryOp (.insert ⟨id, owner, workspace, record, host.encrypt nonce new.bytes (binding record)⟩) rfl
  pure record

def update (owner workspace id : String) (inputValue : Value) : Exc api Failure SecretRecord := do
  let input ← checked (object inputValue)
  tryOp (.update owner workspace id input) rfl

def revoke (owner workspace id : String) (revision : Value) : Exc api Failure SecretRecord :=
  tryOp (.revoke owner workspace id revision) rfl

/-- what `consume` gives: a signed event with its signer, or a value. -/
inductive Released where
  | event (event : Value) (publicNpub : Option String)
  | value (value : String)

/-- the checks of `consume`. -/
def mayConsume (host : Host) (record : SecretRecord) (consumer : SecretConsumer)
    (operation : String) : Except SecretError Unit := do
  throwIf (operation ≠ "sign" ∧ operation ≠ "return") ⟨"invalid_secret_operation", 400⟩
  assertSecretUse host record consumer
  throwIf (operation = "return" ∧ record.policy.allowExport = false) ⟨"secret_export_denied", 403⟩
  throwIf (operation = "sign" ∧ record.type ≠ .nostr) ⟨"not_signing_key", 400⟩

/-- the operation of `consume` on the opened value. -/
def release (host : Host) (record : SecretRecord) (operation : String) (event : Value)
    (bytes : Bytes) : Exc api Failure Released :=
  if operation = "sign" then do
    let ms ← op .dateNow
    let signed ← now (signSecretEvent host bytes event record.policy ((ms : ℤ) / 1000))
    pure (.event signed record.publicNpub)
  else do
    let value := if record.type = .nostr then host.nsecEncode bytes else host.textDecode bytes
    tryOp (.onReturned value) rfl
    pure (.value value)

/-- the audit of a use by a consumer. -/
def auditUse (record : SecretRecord) (operation : String) (consumer : SecretConsumer)
    (outcome : String) : Exc api Failure Unit :=
  tryOp (.audit record.id operation consumer.identityNpub consumer.context consumer.contextId
    outcome) rfl

/-- the `try` of `consume`. -/
def consumeRow (host : Host) (id : String) (consumer : SecretConsumer) (operation : String)
    (event : Value) (row : SecretRow) : Exc api Failure Released := do
  let record := row.metadata
  checked (mayConsume host record consumer operation)
  let bytes ← now (orThrow .other (host.decrypt row.envelope (binding record)))
  let result ← release host record operation event bytes
  let time ← op .isoNow
  tryOp (.stamp id { record with lastUsedAt := some time }) rfl
  auditUse record operation consumer "allowed"
  pure result

/-- the error that `consume` throws in place of another. -/
def Failure.consumed : Failure → Failure
  | .secret e => .secret e
  | .other => .secret ⟨"secret_operation_failed", 503⟩

def consume (host : Host) (id : String) (consumer : SecretConsumer) (operation : String)
    (event : Value) : Exc api Failure Released := do
  let row ← tryOp (.row consumer.ownerNpub consumer.workspaceId id) rfl
  tryCatch (consumeRow host id consumer operation event row) fun error => do
    auditUse row.metadata operation consumer "denied"
    throw error.consumed

/-- the `try` of `withServiceCredential`. -/
def serviceRow (host : Host) (id : String) (consumer : SecretConsumer) (row : SecretRow) :
    Exc api Failure Value := do
  let record := row.metadata
  checked (assertSecretUse host record consumer)
  checked (throwIf (record.type ≠ .secret) ⟨"service_credential_required", 403⟩)
  let bytes ← now (orThrow .other (host.decrypt row.envelope (binding record)))
  let result ← tryOp (.service (host.textDecode bytes)) rfl
  let current ← tryOp (.row consumer.ownerNpub consumer.workspaceId id) rfl
  checked (assertSecretUse host current.metadata consumer)
  checked (throwIf (current.metadata.type ≠ .secret ∨
    current.metadata.revision ≠ record.revision) ⟨"service_credential_changed", 403⟩)
  let time ← op .isoNow
  tryOp (.stamp id { current.metadata with lastUsedAt := some time }) rfl
  auditUse current.metadata "typed_service" consumer "allowed"
  pure result

def withServiceCredential (host : Host) (id : String) (consumer : SecretConsumer) :
    Exc api Failure Value := do
  let row ← tryOp (.row consumer.ownerNpub consumer.workspaceId id) rfl
  tryCatch (serviceRow host id consumer row) fun _ => do
    auditUse row.metadata "typed_service" consumer "denied"
    throw (.secret ⟨"typed_service_denied", 403⟩)

/-- `consume`, and the observation of its return. -/
def consumeAndReturn (host : Host) (id : String) (consumer : SecretConsumer) (operation : String)
    (event : Value) : Exc api Failure Unit := do
  let _ ← consume host id consumer operation event
  op (.returned consumer)

/-- `withServiceCredential`, and the observation of its return. -/
def serveAndReturn (host : Host) (id : String) (consumer : SecretConsumer) :
    Exc api Failure Unit := do
  let _ ← withServiceCredential host id consumer
  op (.returned consumer)

/-- what custody needs of a `HostedSiteGrant`. -/
structure HostedSiteGrant where
  ownerNpub : String
  workspaceId : String
  appId : String
  secretId : String
  secretRevision : ℕ
  siteNpub : String
  url : String

def checkHostedSiteCustody (host : Host) (grant : HostedSiteGrant) : Exc api Failure Unit := do
  let row ← tryOp (.row grant.ownerNpub grant.workspaceId grant.secretId) rfl
  let record := row.metadata
  checked (throwIf (record.revokedAt.isSome ∨ record.type ≠ .nostr ∨
    record.revision ≠ grant.secretRevision ∨ record.publicNpub ≠ some grant.siteNpub)
    ⟨"site_custody_denied", 403⟩)
  let bytes ← now (orThrow .other (host.decrypt row.envelope (binding record)))
  let npub ← now (orThrow .other (host.publicNpub bytes))
  checked (throwIf (npub ≠ grant.siteNpub) ⟨"site_identity_mismatch", 503⟩)

def HOSTED_WORKSPACE_PATH : String := "/api/v4/flightdeck-pg/hosted/workspaces"

/-- the tags that a site may sign. -/
def siteTags (url : String) : List (List String) → Bool
  | [u, method, payload, user] =>
    u[0]? = some "u" && u[1]? = some url && ":".intercalate method = "method:POST" &&
      payload[0]? = some "payload" && user[0]? = some "user_event_id" &&
      [payload, user].all fun tag => tag.length = 2 && (tag[1]?.getD "" |> isHexKey)
  | _ => false

/-- what `signHostedSite` checks of its event. -/
def siteEventAllowed (host : Host) (grant : HostedSiteGrant) (event : Value) :
    Except Failure Unit := do
  let target ← orThrow .other (host.url grant.url)
  let tags ← orThrow .other ((event.get "tags").elements.bind (·.mapM Signing.stringsOf))
  throwIf (target.protocol ≠ "https:" ∨ target.pathname ≠ HOSTED_WORKSPACE_PATH ∨
    target.search ≠ "" ∨ target.hash ≠ "" ∨ event.get "kind" ≠ num 27235 ∨
    siteTags grant.url tags = false) (.secret ⟨"site_event_denied", 403⟩)

def signHostedSite (host : Host) (grant : HostedSiteGrant) (event : Value) :
    Exc api Failure Value := do
  checkHostedSiteCustody host grant
  now (siteEventAllowed host grant event)
  let row ← tryOp (.row grant.ownerNpub grant.workspaceId grant.secretId) rfl
  let record := row.metadata
  let bytes ← now (orThrow .other (host.decrypt row.envelope (binding record)))
  let result ← now (orThrow .other (host.finalizeEvent event bytes))
  let time ← op .isoNow
  tryOp (.stamp record.id { record with lastUsedAt := some time }) rfl
  tryOp (.audit record.id "hosted_site_attest" grant.siteNpub "app" grant.appId "allowed") rfl
  pure result

/-! ## the handles -/

/-- the programs of the handles. -/
inductive Spawn (host : Host) : Prog api Unit → Prop where
  | create (owner workspace : String) (input : Value) :
      Spawn host (create host owner workspace input).detach
  | update (owner workspace id : String) (input : Value) :
      Spawn host (update owner workspace id input).detach
  | revoke (owner workspace id : String) (revision : Value) :
      Spawn host (revoke owner workspace id revision).detach
  | consume (id : String) (consumer : SecretConsumer) (operation : String) (event : Value) :
      Spawn host (consumeAndReturn host id consumer operation event).detach
  | service (id : String) (consumer : SecretConsumer) :
      Spawn host (serveAndReturn host id consumer).detach
  | site (grant : HostedSiteGrant) (event : Value) :
      Spawn host (signHostedSite host grant event).detach

/-- The rows, and what happened. -/
structure World where
  rows : List SecretRow := []
  /-- the records that `create`, `update` and `revoke` have committed, latest first. -/
  committed : List SecretRecord := []
  /-- the record that a thread has read last. -/
  lastRead : ℕ → Option SecretRecord := fun _ => none
  /-- the consumers to whom something was returned, with the record read last, latest first. -/
  returned : List (SecretConsumer × Option SecretRecord) := []

/-- the state after a transaction that writes a record and its envelope. -/
def World.commit (w : World) (id : String) (record : SecretRecord) (envelope : String) : World :=
  { w with rows := writeRow id record (some envelope) w.rows, committed := record :: w.committed }

/-- What an operation of thread `κ` answers and does.  A statement of SQLite may fail, and the
transaction is rolled back. -/
def perform (host : Host) (κ : ℕ) : (o : SecretOp) → World → o.Ans → World → Prop
  | .row owner workspace id, w, r, w' =>
    r = .error .other ∧ w' = w ∨
      match findRow w.rows owner workspace id with
      | .error e => r = .error (.secret e) ∧ w' = w
      | .ok row => r = .ok row ∧
          w' = { w with lastRead := Function.update w.lastRead κ (some row.metadata) }
  | .insert row, w, r, w' =>
    r = .error .other ∧ w' = w ∨
      (∀ row' ∈ w.rows, row'.id ≠ row.id) ∧ r = .ok () ∧
        w' = { w with rows := w.rows ++ [row], committed := row.metadata :: w.committed }
  | .update owner workspace id input, w, r, w' =>
    r = .error .other ∧ w' = w ∨
      ∃ time nonce,
        match findRow w.rows owner workspace id >>= updated host time nonce input with
        | .error e => r = .error (.secret e) ∧ w' = w
        | .ok (record, envelope) => r = .ok record ∧ w' = w.commit id record envelope
  | .revoke owner workspace id revision, w, r, w' =>
    r = .error .other ∧ w' = w ∨
      ∃ time, match findRow w.rows owner workspace id with
        | .error e => r = .error (.secret e) ∧ w' = w
        | .ok row =>
          if revision ≠ num row.metadata.revision then
            r = .error (.secret ⟨"stale_secret_revision", 409⟩) ∧ w' = w
          else r = .ok (row.metadata.revoked time) ∧
            w' = w.commit id (row.metadata.revoked time) ""
  | .stamp id record, w, r, w' =>
    r = .error .other ∧ w' = w ∨
      r = .ok () ∧ w' = { w with rows := writeRow id record none w.rows }
  | .returned consumer, w, _, w' =>
    w' = { w with returned := (consumer, w.lastRead κ) :: w.returned }
  | _, w, _, w' => w' = w

/-- when the stamp of a record under an id is run. -/
abbrev When := World → String → SecretRecord → Prop

/-- The handles, when a stamp is only run where `R` holds. -/
def restricted (host : Host) (R : When) : System api World where
  perform κ o w r w' := perform host κ o w r w' ∧ ∀ id record, o = .stamp id record → R w id record
  spawn _ _ p := Spawn host p
  crash w w' := w' = w

/-- The handles. -/
def system (host : Host) : System api World := restricted host fun _ _ _ => True

/-- no secret is stored. -/
def World.Initial (w : World) : Prop := w = {}

end Secrets
end WmAutopilot
