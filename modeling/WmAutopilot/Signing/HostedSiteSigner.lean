import WmAutopilot.Async.Solo
import WmAutopilot.Auth.Nip98ReplayCache
import WmAutopilot.Js.Fields
import WmAutopilot.Secrets.SecretStore

/-!
# Attestations for hosted sites

* `HostedSiteGrant`, `GrantRow`, `UseRow`   the tables of the signer;
* `verifyHostedUserProof`   the event of a user that a request carries, if it is fresh and about the
                            request;
* `granted`, `standing`     what `authorize` checks before and after it waits for the app registry;
* `transaction`             what the transaction of `attest` does to the uses and to the secrets;
* `register`, `attest`, `revoke`   the methods of `HostedSiteSigner`, in one process: others run where a
                            method waits.
-/

set_option autoImplicit false

namespace WmAutopilot
namespace Signing
namespace HostedSite
open Js Value Async
open Secrets (SecretRow)

inductive Failure where
  /-- a `SignerError` with its code. -/
  | signer (code : String)
  /-- an error of the secret store. -/
  | secrets (e : Secrets.Failure)
  | other
  deriving DecidableEq, Repr

structure HostedSiteGrant extends Secrets.HostedSiteGrant where
  id : String
  appRoot : String
  expiresAt : ℤ

/-- a row of `hosted_site_grants`. -/
structure GrantRow where
  id : String
  credentialHash : String
  metadata : HostedSiteGrant
  revoked : Bool

/-- a row of `hosted_site_uses`. -/
structure UseRow where
  grantId : String
  eventId : String
  actor : String
  usedAt : ℤ
  deriving DecidableEq, Repr

/-- what is read of an app. -/
structure App where
  ownerNpub : Option String
  root : String
  deriving DecidableEq, Repr

/-- What is used of the platform; `none` is a throw. -/
structure Host where
  secrets : Secrets.Host
  /-- `createHash("sha256").update(text).digest("hex")` -/
  sha256 : String → String
  /-- `JSON.parse(text)` -/
  parse : String → Option Value
  /-- `JSON.parse(JSON.stringify(value))` -/
  clone : Value → Option Value
  /-- `getEventHash` of an event with these signed fields. -/
  eventHash : List Value → Option String
  /-- `schnorr.verify(sig, hash, pubkey)` -/
  schnorr : Value → String → Value → Bool

section
variable (host : Host)

/-! ## the proof of a user -/

/-- the address that a site may sign for. -/
def hostedSignupTarget (value : String) : Except Failure Unit := do
  let url ← orThrow .other (host.secrets.url value)
  throwIf (url.protocol ≠ "https:" ∨ '@' ∈ url.authority.toList ∨ url.search ≠ "" ∨ url.hash ≠ "" ∨
    url.pathname ≠ Secrets.HOSTED_WORKSPACE_PATH ∨ url.href ≠ value) (.signer "target_denied")

/-- the fields of an event that its identifier is the hash of. -/
def signedFields (event : Value) : List Value :=
  ["pubkey", "created_at", "kind", "tags", "content"].map event.get

/-- `verifyEvent(event)` -/
def verifyEvent (event : Value) : Bool :=
  match host.eventHash (signedFields event) with
  | some hash => event.get "id" = str hash && host.schnorr (event.get "sig") hash (event.get "pubkey")
  | none => false

def tagsOf (event : Value) : List (List String) :=
  (((event.get "tags").elements.bind fun tags => tags.mapM stringsOf)).getD []

def exactProofTag (event : Value) (name : String) : Option String :=
  match (tagsOf event).filter fun tag => tag.head? = some name with
  | [[_, value]] => some value
  | _ => none

/-- `Object.keys(value).sort().join(",")` -/
def sortedKeys (value : Value) : String :=
  ",".intercalate (((props value).map (·.1)).insertionSort fun a b =>
    b.toList.lex a.toList (fun c d => c.toNat < d.toNat) = false)

/-- `/^[0-9a-f]{8}-[0-9a-f]{4}-[1-8][0-9a-f]{3}-[89ab][0-9a-f]{3}-[0-9a-f]{12}$/i` -/
def isUuid (text : String) : Bool :=
  let isDigit : Char → Bool := fun c => ('0' ≤ c && c ≤ '9') || ('a' ≤ c && c ≤ 'f')
  match (toLowerCase text).toList.splitOn '-' with
  | [a, b, c, d, e] =>
    [a, b, c, d, e].map List.length = [8, 4, 4, 4, 12] && (a ++ b ++ c ++ d ++ e).all isDigit &&
      c.head?.any (fun c => '1' ≤ c && c ≤ '8') && d.head?.any (· ∈ ['8', '9', 'a', 'b'])
  | _ => false

/-- the body of a sign-up. -/
def isSignup (body : Value) : Bool :=
  body.truthy &&
    sortedKeys body = "idempotency_key,terms_version,workspace_name" &&
    (stringOf (body.get "workspace_name")).any (fun name => name = trim name &&
      1 ≤ Heartbeat.utf16Length name && Heartbeat.utf16Length name ≤ 80) &&
    (stringOf (body.get "idempotency_key")).any isUuid &&
    body.get "terms_version" = str "hosted-usd-v1"

/-- an event of a user. -/
structure UserEvent where
  id : String
  pubkey : String
  created_at : ℤ
  signed : List Value
  deriving DecidableEq

/-- `Number.isSafeInteger(event.created_at)`, and the integer. -/
def safeTime (event : Value) : Option ℤ :=
  (integerOf (event.get "created_at")).filter fun n => Auth.isSafeInteger n

/-- the event of a request that is verified and fresh. -/
def userProof (input : Value) (hash : String) (now : ℤ) : Option UserEvent := do
  let event ← host.clone (input.get "userEvent")
  guard (verifyEvent host event = true)
  let created_at ← safeTime event
  guard (-60 ≤ created_at - now ∧ created_at - now ≤ 60)
  let id ← stringOf (event.get "id")
  let pubkey ← stringOf (event.get "pubkey")
  guard (event.get "kind" = num 27235 ∧ str id = input.get "userEventId" ∧
    ofOption (exactProofTag event "u") = input.get "url" ∧
    exactProofTag event "method" = some "POST" ∧ exactProofTag event "payload" = some hash ∧
    ∀ tag ∈ tagsOf event, tag.headD "" ∉ ["user_event_id", "wm-session-capability", "delegation"])
  some { id, pubkey, created_at, signed := signedFields event }

/-- the event of a user that a request carries, and the hash of the body. -/
def verifyHostedUserProof (input : Value) (now : ℤ) : Except Failure (UserEvent × String) := do
  throwIf (input.get "method" ≠ str "POST") (.signer "method_denied")
  let payload ← orThrow (.signer "payload_denied") ((stringOf (input.get "payload")).filter
    fun payload => payload.utf8ByteSize ≤ 2048)
  let hash := host.sha256 payload
  throwIf (input.get "bodyHash" ≠ str hash) (.signer "payload_hash_mismatch")
  let body ← orThrow (.signer "payload_denied") (host.parse payload)
  throwIf (isSignup body = false) (.signer "payload_denied")
  let user ← orThrow (.signer "user_proof_invalid") (userProof host input hash now)
  .ok (user, hash)

/-! ## custody -/

/-- what the statements of the secret store answer when no other runs. -/
def secretAnswer (time : String) : (o : Secrets.SecretOp) → List SecretRow → o.Ans
  | .row owner workspace id, rows => (Secrets.findRow rows owner workspace id).mapError .secret
  | .isoNow, _ => time
  | .dateNow, _ | .randomBytes, _ => 0
  | .randomUUID, _ => ""
  | .insert _, _ | .stamp .., _ | .audit .., _ | .onReturned _, _ => .ok ()
  | .update .., _ | .revoke .., _ | .service _, _ => .error .other
  | .returned _, _ => ()

/-- what the statements of a use do to the secrets. -/
def secretEffect : Secrets.SecretOp → List SecretRow → List SecretRow
  | .stamp id record, rows => Secrets.writeRow id record none rows
  | _, rows => rows

/-- a method of the secret store when no other runs. -/
def withSecrets {α : Type} (time : String) (method : Exc Secrets.api Secrets.Failure α)
    (rows : List SecretRow) : Except Failure (α × List SecretRow) :=
  match Prog.run (secretAnswer time) secretEffect method.run rows with
  | (.ok a, rows) => .ok (a, rows)
  | (.error e, _) => .error (.secrets e)

/-! ## authority -/

/-- the state that the methods read. -/
structure View where
  apps : String → Option App := fun _ => none
  secrets : List SecretRow := []
  grants : List GrantRow := []

/-- `/^wmhost_v1_[A-Za-z0-9_-]{43}$/` -/
def isCredential (credential : String) : Bool :=
  startsWith credential "wmhost_v1_" && credential.toList.length = 53 &&
    (credential.toList.drop 10).all fun c => c.isAlphanum || c = '_' || c = '-'

/-- the grant of a credential for an app. -/
def granted (view : View) (credential : String) (appId : Value) : Except Failure HostedSiteGrant := do
  throwIf (isCredential credential = false) (.signer "unauthorized")
  let row ← orThrow (.signer "unauthorized") (view.grants.find? fun row =>
    row.credentialHash = host.sha256 credential ∧ row.revoked = false)
  throwIf (str row.metadata.appId ≠ appId) (.signer "app_denied")
  .ok row.metadata

/-- the grant still stands when the app registry has answered. -/
def standing (view : View) (grant : HostedSiteGrant) (app : Option App) : Except Failure Unit := do
  throwIf (app ≠ some ⟨some grant.ownerNpub, grant.appRoot⟩) (.signer "app_denied")
  let _ ← withSecrets ""
    (Secrets.checkHostedSiteCustody host.secrets grant.toHostedSiteGrant) view.secrets
  throwIf (¬∃ row ∈ view.grants, row.id = grant.id ∧ row.revoked = false) (.signer "unauthorized")

/-! ## attestations -/

/-- the uses of a grant since a time; an empty actor stands for every actor. -/
def countUses (uses : List UseRow) (grantId : String) (since : ℤ) (actor : String) : ℕ :=
  uses.countP fun use => use.grantId = grantId ∧ since ≤ use.usedAt ∧ (actor = "" ∨ use.actor = actor)

/-- the event that is signed. -/
def attestation (grant : HostedSiteGrant) (user : UserEvent) (bodyHash uuid : String) (now : ℤ) :
    Value :=
  let tags := [["u", grant.url], ["method", "POST"], ["payload", bodyHash],
    ["user_event_id", user.id]]
  obj [("kind", num 27235), ("created_at", num now), ("content", str uuid),
    ("tags", arr (tags.map fun tag => arr (tag.map str)))]

/-- the uses after a purge, if the event may be attested. -/
def admitted (uses : List UseRow) (grant : HostedSiteGrant) (user : UserEvent) (now : ℤ) :
    Except Failure (List UseRow) := do
  let uses := uses.filter fun use => now - 120 ≤ use.usedAt
  throwIf (∃ use ∈ uses, use.grantId = grant.id ∧ use.eventId = user.id)
    (.signer "signature_replayed")
  throwIf (120 ≤ countUses uses grant.id (now - 60) "" ∨
    12 ≤ countUses uses grant.id (now - 60) user.pubkey) (.signer "signup_rate_limited")
  .ok uses

/-- what the transaction of `attest` does to the uses and to the secrets. -/
def transaction (uses : List UseRow) (secrets : List SecretRow) (grant : HostedSiteGrant)
    (user : UserEvent) (bodyHash uuid time : String) (now : ℤ) :
    Except Failure (List UseRow × List SecretRow) := do
  let uses ← admitted uses grant user now
  let (_, secrets) ← withSecrets time (Secrets.signHostedSite host.secrets
    grant.toHostedSiteGrant (attestation grant user bodyHash uuid now)) secrets
  .ok (uses ++ [⟨grant.id, user.id, user.pubkey, now⟩], secrets)

/-! ## registrations -/

/-- the bounded texts of a registration. -/
def registrationText (input : Value) (key : String) : Except Failure String :=
  orThrow (.signer "invalid_grant") ((stringOf (input.get key)).filter fun text =>
    text ≠ "" ∧ Heartbeat.utf16Length text ≤ 2048)

/-- the grant of a registration, but for what is known later, and its expiry. -/
def readRegistration (ownerNpub : String) (input : Value) :
    Except Failure (Secrets.HostedSiteGrant × Value) := do
  throwIf (sortedKeys input ≠ "appId,expiresAt,secretId,secretRevision,siteNpub,url,workspaceId")
    (.signer "invalid_grant")
  let appId ← registrationText input "appId"
  let workspaceId ← registrationText input "workspaceId"
  let secretId ← registrationText input "secretId"
  let siteNpub ← registrationText input "siteNpub"
  let url ← registrationText input "url"
  let secretRevision ← orThrow (.signer "invalid_grant")
    ((integerOf (input.get "secretRevision")).filter fun n => Auth.isSafeInteger n ∧ 1 ≤ n)
  hostedSignupTarget host url
  .ok ({ ownerNpub, workspaceId, appId, secretId, secretRevision := secretRevision.toNat, siteNpub,
         url }, input.get "expiresAt")

/-- the expiry of a registration. -/
def readExpiry (value : Value) (now later : ℤ) : Except Failure ℤ :=
  orThrow (.signer "expiry_denied") ((integerOf value).filter fun expiresAt =>
    Auth.isSafeInteger expiresAt ∧ now < expiresAt ∧ expiresAt ≤ later + 90 * 86400)

/-- the grant of a registration, when the app registry has answered. -/
def newGrant (view : View) (grant : Secrets.HostedSiteGrant) (expiresAt : ℤ) (app : Option App) :
    Except Failure HostedSiteGrant := do
  let app ← orThrow (.signer "app_denied") (app.filter fun app =>
    app.ownerNpub = some grant.ownerNpub)
  let _ ← withSecrets "" (Secrets.checkHostedSiteCustody host.secrets grant) view.secrets
  .ok { grant with id := "", appRoot := app.root, expiresAt }

/-- the owner may revoke the grant. -/
def revocable (view : View) (owner id : String) : Except Failure Unit :=
  throwIf ((view.grants.find? fun row => row.id = id).map (·.metadata.ownerNpub) ≠ some owner)
    (.signer "grant_denied")

end

/-! ## methods -/

inductive Op where
  /-- what a method reads when it begins or goes on after `await`. -/
  | look
  /-- `this.now()` -/
  | now
  /-- `await this.app(appId)`, for an attestation or not. -/
  | lookup (attests : Bool) (appId : String)
  /-- the transaction of `register`, with a new identifier and a new credential. -/
  | insert (grant : HostedSiteGrant)
  /-- the transaction of `attest`. -/
  | attest (grant : HostedSiteGrant) (user : UserEvent) (bodyHash : String) (now : ℤ)
  /-- the transaction of `revoke`. -/
  | revoke (id : String)
  /-- observed: `authorize` returns this grant. -/
  | authorized (grant : HostedSiteGrant)
  /-- observed: `attest` is over. -/
  | ended
  /-- the registry changes an app. -/
  | setApp (appId : String) (app : Option App)
  /-- the secret store changes. -/
  | setSecrets (secrets : List SecretRow)

def Op.Ans : Op → Type
  | .look => View
  | .now => ℤ
  | .lookup .. => Option App
  | .insert _ => Except Failure HostedSiteGrant
  | .attest .. | .revoke _ => Except Failure Unit
  | _ => Unit

def Op.yields : Op → Bool
  | .look | .lookup .. | .setApp .. | .setSecrets _ => true
  | _ => false

abbrev api : Api where
  Op := Op
  Ans := Op.Ans
  yields := Op.yields

abbrev Attesting (α : Type) := Exc api Failure α

/-- what a computation throws. -/
def raise {α : Type} : Except Failure α → Attesting α
  | .ok a => pure a
  | .error e => throw e

def look : Attesting View := Exc.op (A := api) Op.look
def now : Attesting ℤ := Exc.op (A := api) Op.now

section
variable (host : Host)

def authorize (credential : String) (appId : Value) : Attesting HostedSiteGrant := do
  let view ← look
  let grant ← raise (granted host view credential appId)
  let time ← now
  raise (throwIf (grant.expiresAt ≤ time) (.signer "grant_expired"))
  let app : Option App ← Exc.op (A := api) (Op.lookup true grant.appId)
  let view ← look
  raise (standing host view grant app)
  let time ← now
  raise (throwIf (grant.expiresAt ≤ time) (.signer "grant_expired"))
  Exc.op (A := api) (Op.authorized grant)
  pure grant

def attest (credential : String) (input : Value) : Attesting Unit := do
  let grant ← authorize host credential (input.get "appId")
  let _ ← look
  raise (throwIf (input.get "url" ≠ str grant.url) (.signer "target_denied"))
  let time ← now
  let (user, bodyHash) ← raise (verifyHostedUserProof host input time)
  Exc.tryOp (A := api) (Op.attest grant user bodyHash time) rfl

def register (ownerNpub : String) (input : Value) : Attesting HostedSiteGrant := do
  let _ ← look
  let (grant, expiresAt) ← raise (readRegistration host ownerNpub input)
  let time ← now
  let later ← now
  let expiresAt ← raise (readExpiry expiresAt time later)
  let app : Option App ← Exc.op (A := api) (Op.lookup false grant.appId)
  let view ← look
  let grant ← raise (newGrant host view grant expiresAt app)
  Exc.tryOp (A := api) (Op.insert grant) rfl

def revoke (owner id : String) : Attesting Unit := do
  let view ← look
  raise (revocable view owner id)
  Exc.tryOp (A := api) (Op.revoke id) rfl

/-- `attest`, and the observation that it is over. -/
def attempt (credential : String) (input : Value) : Attesting Unit :=
  (attest host credential input).andFinally (Exc.op (A := api) Op.ended)

end

end HostedSite
end Signing
end WmAutopilot
