import Mathlib.Logic.Relation
import WmAutopilot.Signing.CapabilityHandoff
import WmAutopilot.Signing.CapabilityRate
import WmAutopilot.Signing.NostrKindPolicy

/-!
# The life of a broker

The broker over whole runs: calls that wait between two steps, writes to the state store that fail,
and processes that end at any time.

* `Save`, `landed`        what becomes of a write to the state store;
* `WalletSpend`           a payment that waits for its reservation: `executeWalletSpend`;
* `World`, `Act`, `step`  the broker with the calls at work, and what may happen next;
* `Entry`                 what is noted in the log: the log is not part of the program;
* `Move`                  what a step does to the records, and what it notes.

A token that is drawn is new (`Ready`).  Nothing is assumed of the clock.
-/

set_option autoImplicit false
set_option linter.unusedVariables false

namespace WmAutopilot
namespace Signing
namespace Capabilities
namespace Life
open Js

/-! ## the state store -/

/-- What becomes of a `save`: the file is replaced by a rename, and what comes before and after the
rename may throw. -/
inductive Save where
  | written
  /-- it throws, and the file is the old one. -/
  | lost
  /-- it throws when the file is the new one. -/
  | late
  deriving DecidableEq

def Save.throws (save : Save) : Bool := save ≠ .written

/-- the broker after a call that writes what it did. -/
def landed (save : Save) (b b' : Broker) : Broker :=
  if save = .lost then { b' with saved := b.saved } else b'

/-! ## the wallet -/

/-- `Number.isSafeInteger(value) && value > 0`, and the integer. -/
def positiveInteger (value : Value) : Option ℤ :=
  (integerOf value).filter fun n => 0 < n ∧ n ≤ 9007199254740991

def WALLET_SPEND_METHODS : List String := ["pay_invoice"]

/-- What `executeWalletSpend` is given, and its local state; `asked` are the amounts whose authority
was found to stand, and that wait to be reserved.  The session and the constraint are those of the
capability. -/
structure WalletSpend where
  hash : String
  amountMsats : ℤ
  asked : List Value := []
  reserved : Bool := false

/-- The body of a request to the wallet. -/
structure WalletRequest where
  sessionId : String
  method : String
  amountMsats : Value

def WalletRequest.operation (body : WalletRequest) : BrokerOperation :=
  if trim body.method ∈ WALLET_SPEND_METHODS then .wallet_spend else .wallet_read

/-- the checks of a payment, up to the call of the adapter. -/
def walletSpend (capability : CapabilityRecord) (body : WalletRequest) :
    Except String WalletSpend := do
  let constraint ← orThrow "Wallet policy is missing" capability.policy.wallet
  throwIf (trim body.method ∉ constraint.spendMethods) "Wallet spend method is not allowed"
  let amountMsats ← orThrow "A positive maximum amountMsats is required"
    (positiveInteger body.amountMsats)
  return { hash := capability.tokenHash, amountMsats }

def stillAuthorized (env : Env) (capability : CapabilityRecord) : Bool :=
  capability.revokedAtMs = none && env.now < capability.expiresAtMs &&
    (env.getSession capability.sessionId).any (fun session =>
      session.npub = some capability.ownerNpub && session.active) &&
    (env.getActiveKeyForBotNpub capability.botNpub).any fun bot =>
      bot.botPubkeyHex = capability.botPubkeyHex &&
        bot.userNpub = capability.identityManagerNpub.getD capability.ownerNpub

/-- the amount, when it is within the request and the budget of the capability. -/
def withinBudget (spend : WalletSpend) (capability : CapabilityRecord) (amount : Value) :
    Option ℤ := do
  let constraint ← capability.policy.wallet
  let n ← positiveInteger amount
  guard (n ≤ spend.amountMsats ∧ n ≤ constraint.maxSpendMsats ∧
    capability.spentMsats + n ≤ constraint.maxTotalSpendMsats)
  return n

/-- every record of the session has spent `total`. -/
def withTotal (sessionId : String) (total : ℤ) (r : CapabilityRecord) : CapabilityRecord :=
  if r.sessionId = sessionId then { r with spentMsats := total } else r

/-- `Math.max(...spents)` of the records of a session; none when there are no records. -/
def highestSpent (b : Broker) (sessionId : String) : Option ℤ :=
  match (b.capabilities.filter (·.sessionId = sessionId)).map (·.spentMsats) with
  | [] => none
  | spent :: rest => some (rest.foldl max spent)

/-- the broker that has a reservation in every record of the session, and has written it. -/
def reservedBy (sessionId : String) (amount : ℤ) (b : Broker) : Broker :=
  match highestSpent b sessionId with
  | none => b.persist
  | some highest => Broker.persist { b with
      capabilities := b.capabilities.map (withTotal sessionId (highest + amount)) }

/-- the `reserve` of `handleWallet`: when the write throws the records are as they were. -/
def reserve (save : Save) (sessionId : String) (amount : ℤ) (b : Broker) : Broker :=
  if save.throws then
    { b with saved := (landed save b (reservedBy sessionId amount b)).saved }
  else reservedBy sessionId amount b

/-! ## runs -/

/-- What the log has of a run. -/
inductive Entry where
  | issued (record : CapabilityRecord)
  /-- a call that was authorised, with the owner that the session has. -/
  | accepted (hash nonce : String) (operation : BrokerOperation) (sessionId : String) (now : ℤ)
      (ownerNpub : Option String)
  /-- a call whose nonce was used up and that was not authorised: its window was full, or its write
  threw. -/
  | noted (hash nonce : String)
  /-- a refresh that was authorised set the end of a capability. -/
  | extended (hash : String) (expiresAtMs : ℤ)
  /-- a revocation that the state store has. -/
  | revoked (hash : String)
  /-- `requested` is the amount that the request named. -/
  | reserved (hash sessionId : String) (requested amount : ℤ)
  deriving DecidableEq

/-- the hash that an entry is about. -/
def Entry.hash : Entry → String
  | .issued record => record.tokenHash
  | .accepted hash .. | .noted hash _ | .extended hash _ | .revoked hash | .reserved hash .. => hash

/-- The broker of a process with the calls that are at work in it, and the log. -/
structure World where
  broker : Broker
  /-- the capabilities whose refresh was authorised and is not done. -/
  refreshing : List String := []
  spends : List WalletSpend := []
  log : List Entry := []

/-- What may happen next. -/
inductive Act where
  | issue (env : Env) (input : IssueInput) (id token : String) (save : Save)
  | revokeSession (now : ℤ) (sessionId : String) (save : Save)
  | revokeBotNpub (now : ℤ) (botNpub : String) (save : Save)
  /-- `input` is none when nothing can be issued. -/
  | reissue (env : Env) (sessionId : String) (input : Option IssueInput) (id token : String)
      (first second : Save)
  | adopt (env : Env) (request : Request) (bodySessionId : String)
  /-- a handler that only asks whether it may go on. -/
  | call (env : Env) (request : Request) (operation : BrokerOperation) (sessionId : String)
      (save : Save)
  /-- `handleRefresh`, up to the answer of `authorize`. -/
  | refresh (env : Env) (request : Request) (bodySessionId : String) (save : Save)
  /-- the rest of a refresh. -/
  | extend (i : ℕ) (now : ℤ) (save : Save)
  /-- an authorised signature used up a challenge, or gave it back. -/
  | challenge (hash : String) (usedChallenges : List String) (save : Save)
  /-- `handleWallet`, up to the call of the adapter. -/
  | spend (env : Env) (request : Request) (body : WalletRequest) (save : Save)
  /-- the adapter asks for a reservation. -/
  | ask (i : ℕ) (env : Env) (amount : Value)
  /-- a reservation that was asked for goes on. -/
  | reserve (i j : ℕ) (save : Save)
  | restart

section
variable (host : Host)

/-- `issueSessionCapability`, and whether it returned. -/
def issue (env : Env) (input : IssueInput) (id token : String) (save : Save) (w : World) :
    World × Bool :=
  match issuedRecord env w.broker input id (host.sha256 token) with
  | .error _ => (w, false)
  | .ok record =>
    let issued := Broker.persist { w.broker with
      capabilities := put (·.tokenHash) w.broker.capabilities record }
    ({ w with broker := landed save w.broker issued, log := w.log ++ [.issued record] },
      !save.throws)

/-- what the log has of a revocation. -/
def revocations (save : Save) (hashes : List String) : List Entry :=
  if save = .lost then [] else hashes.map .revoked

def revokeSession (now : ℤ) (sessionId : String) (save : Save) (w : World) : World :=
  { w with
    broker := landed save w.broker (Capabilities.revokeSession now sessionId w.broker)
    log := w.log ++ revocations save (w.broker.hashesOf sessionId) }

/-- the broker after `revokeBotNpub`. -/
def botRevoked (now : ℤ) (botNpub : String) (b : Broker) : Broker :=
  Broker.persist { b with
    capabilities := b.capabilities.map fun r => if r.botNpub = botNpub then revoked now r else r }

def revokeBotNpub (now : ℤ) (botNpub : String) (save : Save) (w : World) : World :=
  { w with
    broker := landed save w.broker (botRevoked now botNpub w.broker)
    log := w.log ++ revocations save
      ((w.broker.capabilities.filter (·.botNpub = botNpub)).map (·.tokenHash)) }

/-- the hand-offs of a reissue, when the replacement was issued. -/
def handOff (hashes : List String) (sessionId token : String) : World × Bool → World
  | (w, false) => w
  | (w, true) =>
    let handoffs := hashes.foldl
      (fun handoffs hash => put (·.hash) handoffs ⟨hash, sessionId, token⟩) w.broker.handoffs
    { w with broker := { w.broker with handoffs } }

/-- `reissueSessionCapability`: it ends at the first call that throws. -/
def reissue (env : Env) (sessionId : String) (input : Option IssueInput) (id token : String)
    (first second : Save) (w : World) : World :=
  let oldHashes := (w.broker.hashesOf sessionId).filter fun hash =>
    ((w.broker.get hash).map (·.revokedAtMs)) = some none
  let revoked := revokeSession env.now sessionId first w
  match input with
  | none => revoked
  | some input =>
    if first.throws ∧ w.broker.hashesOf sessionId ≠ [] then revoked
    else handOff oldHashes sessionId token (issue host env input id token second revoked)

def adopt (env : Env) (request : Request) (bodySessionId : String) (w : World) : World :=
  { w with broker := (handleReissueAdopt host env request bodySessionId w.broker).1 }

/-- `authorize`, with the capability when the call is authorised. -/
def authorize (env : Env) (request : Request) (operation : BrokerOperation) (sessionId : String)
    (allowExpired : Bool) (save : Save) (w : World) : World × Option CapabilityRecord :=
  match Capabilities.authorize host env request operation sessionId allowExpired w.broker with
  | (b, .authorized capability) =>
    if save.throws then
      ({ w with broker := landed save w.broker b
                log := w.log ++ [.noted capability.tokenHash request.nonceText] }, none)
    else
      let entry := .accepted capability.tokenHash request.nonceText operation sessionId env.now
        ((env.getSession sessionId).bind (·.npub))
      ({ w with broker := b, log := w.log ++ [entry] }, some capability)
  | (b, .rateLimited _) =>
    let token := (readBearerToken request.authorization).getD ""
    ({ w with broker := b, log := w.log ++ [.noted (host.sha256 token) request.nonceText] }, none)
  | (b, _) => ({ w with broker := b }, none)

def challenge (hash : String) (usedChallenges : List String) (save : Save) (w : World) : World :=
  let broker := (w.broker.modify hash fun r => { r with usedChallenges }).persist
  { w with broker := landed save w.broker broker }

/-- the rest of `handleRefresh`. -/
def extend (i : ℕ) (now : ℤ) (save : Save) (w : World) : World :=
  match w.refreshing[i]? with
  | none => w
  | some hash =>
    let expiresAtMs := now + SESSION_CAPABILITY_TTL_MS
    let broker := (w.broker.modify hash fun r => { r with expiresAtMs }).persist
    { w with
      broker := landed save w.broker broker
      refreshing := w.refreshing.eraseIdx i
      log := w.log ++ [.extended hash expiresAtMs] }

/-- a call that needs nothing more of the capability. -/
def answered (answer : World × Option CapabilityRecord) : World := answer.1

/-- a refresh at work, when the call was authorised. -/
def refreshed : World × Option CapabilityRecord → World
  | (w, none) => w
  | (w, some capability) => { w with refreshing := w.refreshing ++ [capability.tokenHash] }

/-- a payment at work, when the call was authorised. -/
def started (body : WalletRequest) : World × Option CapabilityRecord → World
  | (w, none) => w
  | (w, some capability) =>
    if body.operation = .wallet_spend then
      { w with spends := w.spends ++ (walletSpend capability body).toOption.toList }
    else w

/-- the callback of the adapter, up to its `await`. -/
def ask (i : ℕ) (env : Env) (amount : Value) (w : World) : World :=
  match w.spends[i]? with
  | none => w
  | some spend =>
    if spend.reserved || !(w.broker.get spend.hash).any (stillAuthorized env) then w
    else { w with spends := w.spends.set i { spend with asked := spend.asked ++ [amount] } }

/-- the callback of the adapter, after its `await`: the capability and the amount to reserve. -/
def granted (spend : WalletSpend) (j : ℕ) (b : Broker) : Option (CapabilityRecord × ℤ) := do
  let value ← spend.asked[j]?
  let capability ← b.get spend.hash
  let amount ← withinBudget spend capability value
  return (capability, amount)

def continueReserve (i j : ℕ) (save : Save) (w : World) : World :=
  match w.spends[i]? with
  | none => w
  | some spend =>
    let waiting := { spend with asked := spend.asked.eraseIdx j }
    match granted spend j w.broker with
    | none => { w with spends := w.spends.set i waiting }
    | some (capability, amount) =>
      let entry := .reserved capability.tokenHash capability.sessionId spend.amountMsats amount
      { w with
        broker := Life.reserve save capability.sessionId amount w.broker
        spends := w.spends.set i { waiting with reserved := !save.throws }
        log := w.log ++ if save.throws then [] else [entry] }

/-- a new process. -/
def restart (w : World) : World := { broker := w.broker.restart, log := w.log }

/-- A token that is drawn is new. -/
def Ready (w : World) : Act → Prop
  | .issue _ _ _ token _ | .reissue _ _ _ _ token _ _ =>
    (∀ r ∈ known w.broker, r.tokenHash ≠ host.sha256 token) ∧
      ∀ e ∈ w.log, e.hash ≠ host.sha256 token
  | _ => True

def step (w : World) : Act → World
  | .issue env input id token save => (issue host env input id token save w).1
  | .revokeSession now sessionId save => revokeSession now sessionId save w
  | .revokeBotNpub now botNpub save => revokeBotNpub now botNpub save w
  | .reissue env sessionId input id token first second =>
    reissue host env sessionId input id token first second w
  | .adopt env request bodySessionId => adopt host env request bodySessionId w
  | .call env request operation sessionId save =>
    answered (authorize host env request operation sessionId false save w)
  | .refresh env request bodySessionId save =>
    refreshed (authorize host env request .capability_refresh (trim bodySessionId) true save w)
  | .extend i now save => extend i now save w
  | .challenge hash usedChallenges save => challenge hash usedChallenges save w
  | .spend env request body save =>
    started body
      (authorize host env request body.operation (trim body.sessionId) false save w)
  | .ask i env amount => ask i env amount w
  | .reserve i j save => continueReserve i j save w
  | .restart => restart w

/-- The worlds that a run comes to, from a state store without capabilities. -/
inductive Reached : World → Prop where
  | start : Reached { broker := ⟨[], [], some []⟩ }
  | step {w : World} (h : Reached w) (act : Act) (hready : Ready host w act) :
      Reached (Life.step host w act)

end

/-! ## what a step does -/

/-- The capability is for what it was issued for. -/
structure SameGrant (r r' : CapabilityRecord) : Prop where
  tokenHash : r'.tokenHash = r.tokenHash
  sessionId : r'.sessionId = r.sessionId
  ownerNpub : r'.ownerNpub = r.ownerNpub
  policy : r'.policy = r.policy

/-- the state store has what the broker has. -/
def Written (b b' : Broker) : Prop :=
  b'.saved = b.saved.map fun _ => b'.capabilities.filter Broker.Kept

/-- A change of a record that uses no nonce up; `log` is the log after it. -/
structure Alters (log : List Entry) (r r' : CapabilityRecord) : Prop where
  grant : SameGrant r r'
  expires : r'.expiresAtMs = r.expiresAtMs ∨ .extended r.tokenHash r'.expiresAtMs ∈ log
  standing : r'.revokedAtMs = none → r.revokedAtMs = none ∧ r'.usedNonces = r.usedNonces

/-- What a call that is authorised has found. -/
structure Stands (env : Env) (capability : CapabilityRecord) (operation : BrokerOperation)
    (sessionId : String) : Prop where
  session : capability.sessionId = sessionId
  allowed : operation ∈ capability.policy.operations
  alive : operation = .capability_refresh ∨ env.now < capability.expiresAtMs
  owner : (env.getSession sessionId).bind (·.npub) = some capability.ownerNpub

/-- the record after a nonce is used up. -/
def withNonce (nonce : String) (callTimestamps : List ℤ) (r : CapabilityRecord) :
    CapabilityRecord :=
  { r with usedNonces := addBounded MAX_NONCES_PER_CAPABILITY r.usedNonces nonce, callTimestamps }

/-- what the log has of a call of `capability` that used a nonce up. -/
inductive Noted (capability : CapabilityRecord) (nonce : String) (b b' : Broker) : Entry → Prop where
  | noted : Noted capability nonce b b' (.noted capability.tokenHash nonce)
  | accepted {operation : BrokerOperation} {sessionId : String} {env : Env}
      (hwritten : Written b b') (h : Stands env capability operation sessionId) :
      Noted capability nonce b b' (.accepted capability.tokenHash nonce operation sessionId env.now
        ((env.getSession sessionId).bind (·.npub)))

/-- what the log may have of a change of the records by `f`. -/
inductive Marked (f : CapabilityRecord → CapabilityRecord) (b b' : Broker) : Entry → Prop where
  | extended (hash : String) (expiresAtMs : ℤ) : Marked f b b' (.extended hash expiresAtMs)
  | revoked {hash : String} (hwritten : Written b b')
      (h : ∀ r ∈ b.capabilities, r.tokenHash = hash → (f r).revokedAtMs ≠ none) :
      Marked f b b' (.revoked hash)
  | reserved (hash sessionId : String) (requested amount : ℤ) :
      Marked f b b' (.reserved hash sessionId requested amount)

/-- What a step of one process does to the records, and what it notes. -/
inductive Move : Broker × List Entry → Broker × List Entry → Prop where
  | issued {b b' : Broker} {log : List Entry} {record : CapabilityRecord}
      (hnew : ∀ r ∈ known b, r.tokenHash ≠ record.tokenHash)
      (hfresh : ∀ e ∈ log, e.hash ≠ record.tokenHash)
      (hcaps : b'.capabilities = b.capabilities ++ [record])
      (hsaved : b'.saved = b.saved ∨ Written b b') :
      Move (b, log) (b', log ++ [.issued record])
  | altered {b b' : Broker} {log es : List Entry} (f : CapabilityRecord → CapabilityRecord)
      (hf : ∀ r, Alters (log ++ es) r (f r))
      (hcaps : b'.capabilities = b.capabilities.map f) (hsaved : b'.saved = b.saved ∨ Written b b')
      (hes : ∀ e ∈ es, Marked f b b' e) :
      Move (b, log) (b', log ++ es)
  | used {b b' : Broker} {log : List Entry} {capability : CapabilityRecord} {nonce : String}
      {times : List ℤ} {e : Entry} (hget : b.get capability.tokenHash = some capability)
      (hlive : capability.revokedAtMs = none) (hunused : nonce ∉ capability.usedNonces)
      (hcaps : b'.capabilities = b.capabilities.map fun r =>
        if r.tokenHash = capability.tokenHash then withNonce nonce times capability else r)
      (hsaved : b'.saved = b.saved ∨ Written b b') (he : Noted capability nonce b b' e) :
      Move (b, log) (b', log ++ [e])
  /-- a reservation that was written before its write threw. -/
  | undone {b b' : Broker} {log : List Entry} {f : CapabilityRecord → CapabilityRecord}
      (hf : ∀ r, Alters log r (f r)) (hcaps : b'.capabilities = b.capabilities)
      (hsaved : b'.saved = b.saved.map fun _ => (b.capabilities.map f).filter Broker.Kept) :
      Move (b, log) (b', log)

end Life
end Capabilities
end Signing
end WmAutopilot
