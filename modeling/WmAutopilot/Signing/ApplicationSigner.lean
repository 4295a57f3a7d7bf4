import WmAutopilot.Async.Prog
import WmAutopilot.Signing.NostrKindPolicy
import WmAutopilot.Sql.Table

/-!
# Signing for applications

* `ApplicationGrant`, `GrantRow`   the authority of an application, and its row by the digest of its
                                   credential;
* `authorize`        the grant of a credential and the record of its key;
* `workOf`           what a request asks to do with the key, if the grant permits it;
* `newGrant`, `swapOf`, `revocable`   the checks of registrations, updates and revocations;
* `execute`, `register`, `registerVerified`, `updateContentBoundVerified`, `revoke`   the methods of
  `ApplicationSigner`.  `vault.withKey` is the operation `openKey`.  `BrokerKeyVault` calls what it is
  given before it first waits; `deferred` is a vault that lets others run before it does.
-/

set_option autoImplicit false

namespace WmAutopilot
namespace Signing
namespace Application
open Js Value Async

inductive Failure where
  /-- a `SignerError` with its code. -/
  | signer (code : String)
  /-- any other error. -/
  | other (message : String)
  deriving DecidableEq, Repr

inductive ApplicationMethod where
  | get_public_key
  | sign_event
  | nip44_encrypt
  | nip44_decrypt
  deriving DecidableEq, Repr

def ApplicationMethod.text : ApplicationMethod → String
  | get_public_key => "get_public_key"
  | sign_event => "sign_event"
  | nip44_encrypt => "nip44_encrypt"
  | nip44_decrypt => "nip44_decrypt"

def ApplicationMethod.all : List ApplicationMethod :=
  [get_public_key, sign_event, nip44_encrypt, nip44_decrypt]

/-- the method of a text. -/
def ApplicationMethod.ofValue (value : Value) : Option ApplicationMethod :=
  all.find? fun m => str m.text = value

structure ApplicationGrantPolicy where
  methods : List ApplicationMethod
  kindRules : List NostrKindConstraint
  peers : List String
  allowAnyPeer : Bool
  deriving DecidableEq, Repr

structure ApplicationGrant where
  id : String
  ownerNpub : String
  botNpub : String
  pubkey : String
  keyId : String
  policy : ApplicationGrantPolicy
  deriving DecidableEq, Repr

/-- a row of `application_grants`. -/
structure GrantRow where
  id : String
  credentialHash : String
  grant : ApplicationGrant
  revoked : Bool
  deriving DecidableEq, Repr

/-- the columns of a key record that are read. -/
structure BotKeyRecord where
  id : String
  userNpub : String
  botPubkeyHex : String
  deriving DecidableEq, Repr

/-- What is used of the platform. -/
structure Host where
  /-- the digest of a credential. -/
  digest : String → String
  /-- `getEventHash` of the event of these values. -/
  getEventHash : Value → String

/-- the grants, and the active key record of an npub. -/
structure View where
  grants : List GrantRow := []
  lookup : String → Option BotKeyRecord := fun _ => none

/-- `credential.length` -/
def length16 (s : String) : ℕ := s.toList.foldl (fun n c => n + if c.toNat < 65536 then 1 else 2) 0

section
variable (host : Host)

/-! ## requests -/

/-- the record is that of the key of the grant. -/
def Holds (record : BotKeyRecord) (grant : ApplicationGrant) : Prop :=
  record.id = grant.keyId ∧ record.botPubkeyHex = grant.pubkey ∧ record.userNpub = grant.ownerNpub

instance (record : BotKeyRecord) (grant : ApplicationGrant) : Decidable (Holds record grant) :=
  inferInstanceAs (Decidable (_ ∧ _))

def authorize (view : View) (credential method : String) :
    Except Failure (ApplicationGrant × BotKeyRecord) := do
  throwIf (128 < length16 credential) (.signer "unauthorized")
  let row ← orThrow (.signer "unauthorized") (view.grants.find? fun row =>
    row.credentialHash = host.digest credential ∧ row.revoked = false)
  let grant := row.grant
  throwIf (method ∉ grant.policy.methods.map (·.text)) (.signer "method_denied")
  let record ← orThrow (.signer "identity_denied") (view.lookup grant.botNpub)
  throwIf (¬Holds record grant) (.signer "identity_denied")
  .ok (grant, record)

/-- an event to sign. -/
structure UnsignedEvent where
  kind : ℤ
  created_at : ℤ
  content : String
  tags : List (List String)
  deriving DecidableEq, Repr

/-- what is done with the key. -/
inductive Work where
  | publicKey
  | sign (event : UnsignedEvent)
  | encrypt (peer text : String)
  | decrypt (peer text : String)
  deriving DecidableEq, Repr

/-- the tags of an event keep a rule. -/
def TagsAllowed (rule : NostrKindConstraint) (tags : List (List String)) : Prop :=
  tagBytes tags ≤ rule.maxTagBytes ∧ (∀ tag ∈ tags, tag.headD "" ∈ rule.allowedTagNames) ∧
    (∀ required ∈ rule.requiredTags, ∃ tag ∈ tags, tag[0]? = some required.1 ∧
      tag[1]? = some required.2) ∧
    matchesExactNostrTags tags rule.exactTags = true

instance (rule : NostrKindConstraint) (tags : List (List String)) :
    Decidable (TagsAllowed rule tags) := inferInstanceAs (Decidable (_ ∧ _))

/-- `Number.isSafeInteger(value) && value >= 0`, and the integer. -/
def timeOf (value : Value) : Option ℤ :=
  (integerOf value).filter fun n => 0 ≤ n ∧ n ≤ 9007199254740991

/-- the content and the tags of an event within the sizes of a rule. -/
def sizedOf (rule : NostrKindConstraint) (event : Value) : Option (String × List (List String)) := do
  let content ← stringOf (event.get "content")
  let values ← (event.get "tags").elements
  let tags ← values.mapM stringsOf
  if (content.utf8ByteSize : ℤ) ≤ rule.maxContentBytes ∧ (tags.length : ℤ) ≤ rule.maxTags then
    some (content, tags)
  else none

/-- the event of a request, if the grant permits it. -/
def eventOf (grant : ApplicationGrant) (event : Value) : Except Failure UnsignedEvent := do
  let rule ← orThrow (.signer "kind_denied") (grant.policy.kindRules.find? fun rule =>
    integerOf (event.get "kind") = some rule.kind)
  throwIf (event.get "pubkey" ≠ str grant.pubkey) (.signer "identity_denied")
  let created_at ← orThrow (.signer "invalid_event") (timeOf (event.get "created_at"))
  let (content, tags) ← orThrow (.signer "invalid_event") (sizedOf rule event)
  throwIf (¬TagsAllowed rule tags) (.signer "tags_denied")
  throwIf (¬∃ id ∈ stringOf (event.get "id"), isHexKey id = true ∧ host.getEventHash event = id)
    (.signer "event_id_mismatch")
  .ok { kind := rule.kind, created_at, content, tags }

/-- the peer and the text of a request, if the grant permits the peer. -/
def messageOf (grant : ApplicationGrant) (params : Value) (maxBytes : ℕ) :
    Except Failure (String × String) := do
  let peer ← orThrow (.signer "peer_denied") ((stringOf (params.get "peer")).filter fun peer =>
    isHexKey peer = true ∧ (grant.policy.allowAnyPeer = true ∨ peer ∈ grant.policy.peers))
  let text ← orThrow (.signer "payload_denied") ((stringOf (params.get "text")).filter fun text =>
    text.utf8ByteSize ≤ maxBytes)
  .ok (peer, text)

/-- what a request asks to do with the key. -/
def workOf (grant : ApplicationGrant) (method : String) (params : Value) : Except Failure Work := do
  if method = "get_public_key" then .ok .publicKey
  else
    throwIf (params.isPlainObject = false) (.signer "invalid_request")
    if method = "sign_event" then
      let event ← eventOf host grant (params.get "event")
      .ok (.sign event)
    else if method = "nip44_encrypt" then
      let (peer, text) ← messageOf grant params 65535
      .ok (.encrypt peer text)
    else
      let (peer, text) ← messageOf grant params 100000
      .ok (.decrypt peer text)

end

/-! ## grants -/

/-- the record of the actor's key. -/
def ownRecord (view : View) (actorNpub botNpub pubkey : String) : Except Failure BotKeyRecord :=
  orThrow (.signer "identity_denied") ((view.lookup botNpub).filter fun record =>
    record.userNpub = actorNpub ∧ record.botPubkeyHex = pubkey)

/-- the policy of a registration, before it is checked. -/
structure PolicyInput where
  methods : Value
  kindRules : Value
  peers : Value
  allowAnyPeer : Value

def readMethods (value : Value) : Except Failure (List ApplicationMethod) := do
  let values ← orThrow (.signer "invalid_policy") value.elements
  throwIf (values = []) (.signer "invalid_policy")
  orThrow (.signer "invalid_policy") (values.mapM ApplicationMethod.ofValue)

def readAllowAnyPeer : Value → Except Failure Bool
  | .undefined => .ok false
  | .bool b => .ok b
  | _ => .error (.signer "invalid_policy")

def readPeers (value : Value) : Except Failure (List String) :=
  orThrow (.signer "invalid_policy") ((stringsOf value).filter fun peers =>
    peers.length ≤ 16 ∧ ∀ peer ∈ peers, isHexKey peer = true)

/-- `policy.kindRules?.map(r => r.kind) ?? []`, of integers that may be signed. -/
def readKinds (kindRules : Value) : Except Failure (List ℤ) := do
  if kindRules.nullish then .ok []
  else
    let rules ← orThrow (.other "kindRules.map is not a function") kindRules.elements
    orThrow (.signer "invalid_policy") ((rules.mapM fun rule => integerOf (rule.get "kind")).filter
      fun kinds => (∀ kind ∈ kinds, 0 ≤ kind ∧ kind ≤ 65535) ∧ 445 ∉ kinds ∧ 27235 ∉ kinds ∧
        kinds.length ≤ 16 ∧ kinds.Nodup)

/-- errors of the reader of rules. -/
def ruleErrors {α : Type} : Except String α → Except Failure α
  | .ok a => .ok a
  | .error e => .error (.other e)

/-- the grant of a registration; its identifier is drawn later. -/
def newGrant (view : View) (actorNpub botNpub expectedPubkey : String) (policy : PolicyInput) :
    Except Failure ApplicationGrant := do
  let record ← ownRecord view actorNpub botNpub expectedPubkey
  let methods ← readMethods policy.methods
  let allowAnyPeer ← readAllowAnyPeer policy.allowAnyPeer
  let peers ← readPeers policy.peers
  let kinds ← readKinds policy.kindRules
  let kindRules ← ruleErrors (normalizeNostrKindRules policy.kindRules kinds)
  .ok {
    id := ""
    ownerNpub := actorNpub
    botNpub := botNpub
    pubkey := expectedPubkey
    keyId := record.id
    policy := { methods, kindRules, peers, allowAnyPeer } }

/-- a rule as JSON. -/
def ruleValue (rule : NostrKindConstraint) : Value :=
  obj ([("kind", num rule.kind), ("maxContentBytes", num rule.maxContentBytes),
    ("maxTags", num rule.maxTags), ("maxTagBytes", num rule.maxTagBytes),
    ("allowedTagNames", arr (rule.allowedTagNames.map str)),
    ("requiredTags", arr (rule.requiredTags.map fun r => arr [str r.1, str r.2]))] ++
    match rule.exactTags with
    | none => []
    | some tags => [("exactTags", arr (tags.map fun tag => arr (tag.map str)))])

/-- the first rule of the kind with another bound. -/
def withBound (kind maxContentBytes : ℤ) : List NostrKindConstraint → List NostrKindConstraint
  | [] => []
  | rule :: rules =>
    if rule.kind = kind then { rule with maxContentBytes } :: rules
    else rule :: withBound kind maxContentBytes rules

/-- the record of the key of a grant that the actor expects; the key may be left out. -/
def expectedRecord (view : View) (actorNpub : String) (expected : ApplicationGrant)
    (keyId : Option String) : Except Failure BotKeyRecord := do
  throwIf (expected.ownerNpub ≠ actorNpub) (.signer "identity_denied")
  let record ← ownRecord view actorNpub expected.botNpub expected.pubkey
  throwIf (∃ id ∈ keyId, id ≠ record.id) (.signer "identity_denied")
  .ok record

/-- the grant of an update, and what replaces it. -/
def swapOf (view : View) (actorNpub : String) (expected : ApplicationGrant) (record : BotKeyRecord)
    (kind maxContentBytes : ℤ) : Except Failure (ApplicationGrant × ApplicationGrant) := do
  let current ← ownRecord view actorNpub expected.botNpub expected.pubkey
  throwIf (current.id ≠ record.id) (.signer "identity_denied")
  let row ← orThrow (.signer "grant_denied") (view.grants.find? fun row =>
    row.id = expected.id ∧ row.revoked = false)
  let before := { expected with keyId := record.id }
  throwIf (row.grant ≠ before) (.signer "stale_grant")
  throwIf (kind ∉ before.policy.kindRules.map (·.kind)) (.signer "kind_denied")
  let kindRules := withBound kind maxContentBytes before.policy.kindRules
  let normalized ← ruleErrors (normalizeNostrKindRules (arr (kindRules.map ruleValue))
    (kindRules.map (·.kind)))
  throwIf (normalized ≠ kindRules) (.signer "invalid_policy")
  .ok (before, { before with policy := { before.policy with kindRules } })

/-- the actor may revoke the grant. -/
def revocable (view : View) (actorNpub id : String) : Except Failure Unit :=
  throwIf ((view.grants.find? fun row => row.id = id).map (·.grant.ownerNpub) ≠ some actorNpub)
    (.signer "grant_denied")

/-! ## methods -/

inductive Op where
  /-- the grants and the key records, when a method begins or goes on after `await`. -/
  | look
  /-- `vault.withKey(record, …)`, up to the call of what it is given. -/
  | openKey (record : BotKeyRecord)
  /-- the grants and the key records in what the vault calls. -/
  | again
  /-- the key is used for a credential. -/
  | use (credential method : String) (checked : ApplicationGrant) (work : Work)
  /-- a row with this grant, a new identifier and a new credential. -/
  | insert (grant : ApplicationGrant)
  /-- `UPDATE … SET grant_json=? WHERE id=? AND revoked=0 AND grant_json=?` -/
  | swap (before updated : ApplicationGrant)
  | revoke (id : String)
  /-- the active key record of an npub changes. -/
  | setRecord (npub : String) (record : Option BotKeyRecord)

def Op.Ans : Op → Type
  | .look | .again => View
  | .openKey _ => Except Failure Unit
  | .swap .. => Except Failure Unit
  | .insert _ => ApplicationGrant × String
  | _ => Unit

def Op.yields (deferred : Bool) : Op → Bool
  | .look | .setRecord .. => true
  | .openKey _ => deferred
  | _ => false

/-- `deferred`: the vault lets others run before it calls what it is given. -/
abbrev api (deferred : Bool) : Api where
  Op := Op
  Ans := Op.Ans
  yields := Op.yields deferred

abbrev Executing (deferred : Bool) (α : Type) := Exc (api deferred) Failure α

section
variable (host : Host) (deferred : Bool)

/-- what a computation throws. -/
def raise {α : Type} : Except Failure α → Executing deferred α
  | .ok a => pure a
  | .error e => throw e

def look : Executing deferred View := Exc.op (A := api deferred) Op.look

def execute (credential method : String) (params : Value) : Executing deferred Unit := do
  let view ← look deferred
  let (grant, record) ← raise deferred (authorize host view credential method)
  let work ← raise deferred (workOf host grant method params)
  Exc.tryOp (A := api deferred) (Op.openKey record) rfl
  let now : View ← Exc.op (A := api deferred) Op.again
  let _ ← raise deferred (authorize host now credential method)
  Exc.op (A := api deferred) (Op.use credential method grant work)

def register (actorNpub botNpub expectedPubkey : String) (policy : PolicyInput) :
    Executing deferred (ApplicationGrant × String) := do
  let view ← look deferred
  let grant ← raise deferred (newGrant view actorNpub botNpub expectedPubkey policy)
  Exc.op (A := api deferred) (Op.insert grant)

def registerVerified (actorNpub botNpub expectedPubkey : String) (policy : PolicyInput) :
    Executing deferred (ApplicationGrant × String) := do
  let view ← look deferred
  let record ← raise deferred (ownRecord view actorNpub botNpub expectedPubkey)
  Exc.tryOp (A := api deferred) (Op.openKey record) rfl
  let view ← look deferred
  raise deferred (throwIf ((view.lookup botNpub).map (·.id) ≠ some record.id)
    (.signer "identity_denied"))
  let grant ← raise deferred (newGrant view actorNpub botNpub expectedPubkey policy)
  Exc.op (A := api deferred) (Op.insert grant)

def updateContentBoundVerified (actorNpub : String) (expected : ApplicationGrant)
    (keyId : Option String) (kind maxContentBytes : ℤ) : Executing deferred ApplicationGrant := do
  let view ← look deferred
  let record ← raise deferred (expectedRecord view actorNpub expected keyId)
  Exc.tryOp (A := api deferred) (Op.openKey record) rfl
  let view ← look deferred
  let (before, updated) ← raise deferred
    (swapOf view actorNpub expected record kind maxContentBytes)
  Exc.tryOp (A := api deferred) (Op.swap before updated) rfl
  pure updated

def revoke (actorNpub id : String) : Executing deferred Unit := do
  let view ← look deferred
  raise deferred (revocable view actorNpub id)
  Exc.op (A := api deferred) (Op.revoke id)

end

end Application
end Signing
end WmAutopilot
