import WmAutopilot.Js.Keyed
import WmAutopilot.Rate.SlidingWindow
import WmAutopilot.Signing.Policy

/-!
# The capability broker

* `Broker`                  the capabilities, the hand-offs that wait to be adopted, and what the state
                            store has;
* `issueSessionCapability`, `revokeSession`, `reissueSessionCapability`   the life of capabilities;
* `authorize`               the checks of a request, with its nonce and its rate;
* `handleReissueAdopt`, `handleRefresh`   the endpoints that keep a session supplied;
* `restart`                 a new process on the same state store.

The hashes of a session are those of its capabilities, in the order in which they came.
-/

set_option autoImplicit false
set_option linter.unusedVariables false

namespace WmAutopilot
namespace Signing
namespace Capabilities
open Js

/-! ## dependencies -/

/-- `SessionSnapshot`; the fields of its metadata are those that are texts. -/
structure Session where
  npub : Option String
  status : String
  agentChatAgentId : Option String := none
  agentProfileId : Option String := none
  agentChatBotNpub : Option String := none
  flightdeckAgentNpub : Option String := none
  flightdeckWorkspaceId : Option String := none

/-- `BotKeyRecord` -/
structure BotRecord where
  userNpub : String
  botNpub : String
  botPubkeyHex : String

structure InstanceIdentity where
  npub : String
  pubkeyHex : String

/-- What the dependencies answer during a call. -/
structure Env where
  now : ℤ
  getSession : String → Option Session
  getActiveKeyForBotNpub : String → Option BotRecord
  getActiveKeyForUser : String → Option BotRecord
  instanceIdentity : Option InstanceIdentity

/-- `!session || session.status === "stopped" || session.status === "error"`, negated. -/
def Session.active (session : Session) : Bool :=
  session.status ≠ "stopped" && session.status ≠ "error"

/-! ## the state -/

/-- a replacement that the holder of a token may adopt. -/
structure Handoff where
  hash : String
  sessionId : String
  replacementToken : String
  deriving DecidableEq

/-- `saved` is what the state store has, when there is one. -/
structure Broker where
  capabilities : List CapabilityRecord
  handoffs : List Handoff
  saved : Option (List CapabilityRecord)

namespace Broker

def get (b : Broker) (hash : String) : Option CapabilityRecord :=
  b.capabilities.find? (·.tokenHash = hash)

def handoff (b : Broker) (hash : String) : Option Handoff := b.handoffs.find? (·.hash = hash)

/-- `capabilityHashesBySession.get(sessionId)` -/
def hashesOf (b : Broker) (sessionId : String) : List String :=
  (b.capabilities.filter (·.sessionId = sessionId)).map (·.tokenHash)

/-- the record of a hash is changed in place. -/
def modify (b : Broker) (hash : String) (f : CapabilityRecord → CapabilityRecord) : Broker :=
  { b with capabilities := b.capabilities.map fun r => if r.tokenHash = hash then f r else r }

/-- what is written of a capability: all, but one that is revoked and has spent nothing. -/
def Kept (r : CapabilityRecord) : Prop := r.revokedAtMs = none ∨ r.spentMsats > 0

instance : DecidablePred Kept := fun _ => inferInstanceAs (Decidable (_ ∨ _))

def persist (b : Broker) : Broker :=
  { b with saved := b.saved.map fun _ => b.capabilities.filter Kept }

/-- the constructor, on what the state store has. -/
def restart (b : Broker) : Broker where
  capabilities := (b.saved.getD []).filter fun r => ¬(r.revokedAtMs ≠ none ∧ r.spentMsats = 0)
  handoffs := []
  saved := b.saved

end Broker

def readBearerToken (authorization : Option String) : Option String :=
  let header := trim (authorization.getD "")
  if startsWith (toLowerCase header) "bearer " then
    let token := trim (String.ofList (header.toList.drop 7))
    if token = "" then none else some token
  else none

/-! ## the life of capabilities -/

structure IssueInput where
  sessionId : String
  ownerNpub : String
  identityManagerNpub : Option String := none
  profileId : Option String := none
  workspaceId : Option String := none
  botNpub : Option String := none
  policy : SessionCapabilityPolicy
  ttlMs : Option ℤ := none

/-- `Boolean(text)` -/
def given (text : Option String) : Bool := text.any (· ≠ "")

/-- the record of a new capability; `id` and `hash` are new. -/
def issuedRecord (env : Env) (b : Broker) (input : IssueInput) (id hash : String) :
    Except String CapabilityRecord := do
  let session ← orThrow "Cannot issue capability for an unknown or mismatched session"
    (env.getSession input.sessionId)
  throwIf (session.npub ≠ some input.ownerNpub)
    "Cannot issue capability for an unknown or mismatched session"
  throwIf (session.active = false) "Cannot issue capability for an inactive session"
  let boundProfileId := session.agentChatAgentId <|> session.agentProfileId
  let boundBotNpub := session.agentChatBotNpub <|> session.flightdeckAgentNpub
  throwIf (given input.profileId = true ∧ boundProfileId ≠ input.profileId)
    "Session profile binding does not match requested capability identity"
  throwIf (given input.botNpub = true ∧ boundBotNpub ≠ input.botNpub)
    "Session agent identity binding does not match requested capability identity"
  let selectedBotNpub := input.botNpub <|> boundBotNpub
  let identityManagerNpub := input.identityManagerNpub.getD input.ownerNpub
  let selectedInstanceIdentity := env.instanceIdentity.filter fun identity =>
    given selectedBotNpub = true ∧ some identity.npub = selectedBotNpub
  let botRecord := if given selectedBotNpub then
      selectedBotNpub.bind env.getActiveKeyForBotNpub
    else env.getActiveKeyForUser input.ownerNpub
  throwIf (botRecord.isNone ∧ selectedInstanceIdentity.isNone)
    "Session owner has no active bot identity"
  throwIf (botRecord.any fun bot => bot.userNpub ≠ identityManagerNpub)
    "Selected agent identity is not managed by the active profile manager"
  let ttlMs := min (max (input.ttlMs.getD SESSION_CAPABILITY_TTL_MS) 1000) SESSION_CAPABILITY_TTL_MS
  return {
    id, tokenHash := hash, issuedAtMs := env.now, expiresAtMs := env.now + ttlMs
    sessionId := input.sessionId, ownerNpub := input.ownerNpub
    identityManagerNpub := some identityManagerNpub
    keySource := some (if selectedInstanceIdentity.isSome ∧ botRecord.isNone then
      .instance_identity else .agent_vault)
    botNpub := ((botRecord.map (·.botNpub)).or (selectedInstanceIdentity.map (·.npub))).getD ""
    botPubkeyHex :=
      ((botRecord.map (·.botPubkeyHex)).or (selectedInstanceIdentity.map (·.pubkeyHex))).getD ""
    profileId := input.profileId <|> boundProfileId
    workspaceId := input.workspaceId <|> session.flightdeckWorkspaceId
    policy := input.policy, revokedAtMs := none, usedNonces := [], callTimestamps := []
    spentMsats := ((b.capabilities.filter (·.sessionId = input.sessionId)).map
      (·.spentMsats)).foldl max 0
    usedChallenges := [] }

/-- `issueSessionCapability`, for a token that was drawn. -/
def issueSessionCapability (host : Host) (env : Env) (input : IssueInput) (id token : String)
    (b : Broker) : Except String Broker := do
  let record ← issuedRecord env b input id (host.sha256 token)
  return Broker.persist { b with capabilities := put (·.tokenHash) b.capabilities record }

def revoked (now : ℤ) (r : CapabilityRecord) : CapabilityRecord :=
  if r.revokedAtMs = none then { r with revokedAtMs := some now, usedNonces := [] } else r

def revokeSession (now : ℤ) (sessionId : String) (b : Broker) : Broker :=
  if b.hashesOf sessionId = [] then b
  else Broker.persist { b with
    capabilities := b.capabilities.map fun r => if r.sessionId = sessionId then revoked now r else r
    handoffs := b.handoffs.filter fun h => h.hash ∉ b.hashesOf sessionId }

/-- `reissueSessionCapability`; `issue` is the call that issues the replacement, with the token that
it draws.  When it throws the session is revoked. -/
def reissueSessionCapability (now : ℤ) (sessionId : String)
    (issue : Broker → Except String (Broker × String)) (b : Broker) :
    Broker × Except String String :=
  let oldHashes := (b.hashesOf sessionId).filter fun hash =>
    ((b.get hash).map (·.revokedAtMs)) = some none
  let b := revokeSession now sessionId b
  match issue b with
  | .error e => (b, .error e)
  | .ok (b, token) =>
    let handoffs := oldHashes.foldl
      (fun handoffs hash => put (·.hash) handoffs ⟨hash, sessionId, token⟩) b.handoffs
    ({ b with handoffs }, .ok token)

/-- the call that issues a replacement; there is no input when it throws before. -/
def issueFor (host : Host) (env : Env) (input : Option IssueInput) (id token : String)
    (b : Broker) : Except String (Broker × String) := do
  let input ← orThrow "Cannot issue capability" input
  let b ← issueSessionCapability host env input id token b
  return (b, token)

/-! ## requests -/

/-- The headers of a request. -/
structure Request where
  authorization : Option String
  nonce : Option String

/-- `request.headers.get("x-wingman-capability-nonce")?.trim() ?? ""` -/
def Request.nonceText (request : Request) : String := trim (request.nonce.getD "")

/-- `/^[A-Za-z0-9_-]{16,128}$/` -/
def isNonce (nonce : String) : Bool :=
  16 ≤ nonce.length && nonce.length ≤ 128 &&
    nonce.toList.all fun c => c.isAlphanum || c = '_' || c = '-'

structure RateLimit where
  currentCount : ℕ
  limit : ℕ
  windowMs : ℤ
  retryAfterMs : ℤ
  windowResetsAtMs : ℤ
  deriving DecidableEq

/-- What `authorize` answers. -/
inductive Verdict where
  | authorized (capability : CapabilityRecord)
  | denied (reason : String) (status : ℕ)
  | reissued
  | rateLimited (rateLimit : RateLimit)

/-- the agent of the capability is not the one that it was issued for. -/
def identityChanged (env : Env) (capability : CapabilityRecord) : Bool :=
  if capability.keySource = some .instance_identity then
    env.instanceIdentity.all fun identity =>
      identity.npub ≠ capability.botNpub || identity.pubkeyHex ≠ capability.botPubkeyHex
  else (env.getActiveKeyForBotNpub capability.botNpub).all fun bot =>
    bot.userNpub ≠ capability.identityManagerNpub.getD capability.ownerNpub ||
      bot.botNpub ≠ capability.botNpub || bot.botPubkeyHex ≠ capability.botPubkeyHex

/-- the checks before the nonce. -/
def standing (env : Env) (b : Broker) (capability : CapabilityRecord) (operation : BrokerOperation)
    (sessionId : String) (allowExpired : Bool) : Except Verdict Unit := do
  throwIf (capability.revokedAtMs ≠ none ∧ (b.handoff capability.tokenHash).isSome) .reissued
  throwIf (capability.revokedAtMs ≠ none) (.denied "Capability has been revoked" 403)
  throwIf (capability.expiresAtMs ≤ env.now ∧ allowExpired = false)
    (.denied "Capability has expired" 403)
  throwIf (capability.sessionId ≠ sessionId)
    (.denied "Capability is bound to a different session" 403)
  throwIf (operation ∉ capability.policy.operations)
    (.denied "Capability does not allow this operation" 403)
  let session ← orThrow (.denied "Session is not active" 403) (env.getSession sessionId)
  throwIf (session.active = false) (.denied "Session is not active" 403)
  throwIf (session.npub ≠ some capability.ownerNpub) (.denied "Session identity changed" 403)
  throwIf (identityChanged env capability = true) (.denied "Agent identity changed" 403)

/-- the width of the window in which calls are counted. -/
def RATE_WINDOW_MS : ℤ := 60000

def maxCalls (policy : SessionCapabilityPolicy) : ℕ :=
  policy.maxCallsPerMinute.getD DEFAULT_MAX_CALLS_PER_MINUTE

/-- the rate limit of a capability whose window is full. -/
def rateLimitOf (now : ℤ) (capability : CapabilityRecord) (recent : List ℤ) : RateLimit :=
  let windowResetsAtMs := recent.head?.getD now + RATE_WINDOW_MS
  { currentCount := recent.length, limit := maxCalls capability.policy, windowMs := RATE_WINDOW_MS
    retryAfterMs := max 1 (windowResetsAtMs - now), windowResetsAtMs }

/-- the nonce and the rate of a call. -/
def admission (now : ℤ) (nonce : String) (b : Broker) (capability : CapabilityRecord) :
    Broker × Verdict :=
  if isNonce nonce = false then (b, .denied "Missing or malformed capability nonce" 400)
  else if nonce ∈ capability.usedNonces then
    (b, .denied "Capability nonce has already been used" 403)
  else
    let recent := SlidingWindow.recent RATE_WINDOW_MS now capability.callTimestamps
    let used := { capability with
      usedNonces := addBounded MAX_NONCES_PER_CAPABILITY capability.usedNonces nonce
      callTimestamps := recent }
    if recent.length ≥ maxCalls capability.policy then
      (b.modify capability.tokenHash fun _ => used, .rateLimited (rateLimitOf now capability recent))
    else
      let called := { used with callTimestamps := recent ++ [now] }
      ((b.modify capability.tokenHash fun _ => called).persist, .authorized called)

/-- `authorize` -/
def authorize (host : Host) (env : Env) (request : Request) (operation : BrokerOperation)
    (sessionId : String) (allowExpired : Bool) (b : Broker) : Broker × Verdict :=
  match readBearerToken request.authorization with
  | none => (b, .denied "Missing capability bearer token" 401)
  | some token =>
    match b.get (host.sha256 token) with
    | none => (b, .denied "Invalid capability" 403)
    | some capability =>
      match standing env b capability operation sessionId allowExpired with
      | .error verdict => (b, verdict)
      | .ok _ => admission env.now request.nonceText b capability

/-- the checks of an adoption: the hand-off, and the session that asks. -/
def adoption (host : Host) (env : Env) (request : Request) (bodySessionId : String) (b : Broker) :
    Except String (Handoff × String) := do
  let token ← orThrow "Missing capability bearer token" (readBearerToken request.authorization)
  let none_ := "No explicit capability replacement is available"
  let handoff ← orThrow none_ (b.handoff (host.sha256 token))
  let oldCapability ← orThrow none_ (b.get (host.sha256 token))
  let sessionId := trim bodySessionId
  throwIf (sessionId ≠ handoff.sessionId ∨ oldCapability.sessionId ≠ sessionId)
    "Capability replacement is bound to a different session"
  throwIf (isNonce request.nonceText = false) "Missing or malformed capability nonce"
  throwIf (request.nonceText ∈ oldCapability.usedNonces) "Capability nonce has already been used"
  let session ← orThrow "Session is not active" (env.getSession sessionId)
  throwIf (session.npub ≠ some oldCapability.ownerNpub ∨ session.active = false)
    "Session is not active"
  return (handoff, sessionId)

/-- `handleReissueAdopt`: the replacement, or the reason why there is none. -/
def handleReissueAdopt (host : Host) (env : Env) (request : Request) (bodySessionId : String)
    (b : Broker) : Broker × Except String String :=
  match adoption host env request bodySessionId b with
  | .error e => (b, .error e)
  | .ok (handoff, sessionId) =>
    ({ b with handoffs := b.handoffs.filter fun candidate =>
        ¬(candidate.sessionId = sessionId ∧ candidate.replacementToken = handoff.replacementToken) },
      .ok handoff.replacementToken)

/-- `handleRefresh`: a capability lives on, also when it has expired. -/
def handleRefresh (host : Host) (env : Env) (request : Request) (bodySessionId : String)
    (b : Broker) : Broker × Verdict :=
  match authorize host env request .capability_refresh (trim bodySessionId) true b with
  | (b, .authorized capability) =>
    ((b.modify capability.tokenHash fun r =>
      { r with expiresAtMs := env.now + SESSION_CAPABILITY_TTL_MS }).persist, .authorized capability)
  | answer => answer

/-! ## a plain platform -/

/-- a platform on which a hash is its text. -/
def plainHost : Host where
  jsonParse _ := none
  dateParse _ := none
  url _ := none
  urlAt _ _ := none
  sha256 s := s
  base64Text _ := ""
  toText _ := ""
  toNumber := numberOf
  toNumber_num := numberOf_num
  encodeURIComponent s := s
  toUpperCase s := s
  jsonStringify _ := ""
  hmacSha256 _ _ := ""
  liveNip98Targets _ _ _ := []
  learningGrantFor _ _ := none

/-- a running session with a bot. -/
def plainEnv (now : ℤ) : Env where
  now := now
  getSession _ := some { npub := some "npub1owner", status := "running" }
  getActiveKeyForBotNpub _ := some ⟨"npub1owner", "npub1bot", "b07"⟩
  getActiveKeyForUser _ := some ⟨"npub1owner", "npub1bot", "b07"⟩
  instanceIdentity := none

end Capabilities
end Signing
end WmAutopilot
