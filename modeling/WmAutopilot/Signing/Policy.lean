import Mathlib.Data.Int.Notation
import Mathlib.Data.Nat.Notation
import WmAutopilot.Js.Platform

/-!
# Session capabilities

The data of the capability broker.

* `SessionCapabilityPolicy`   what a session may do: operations, NIP-98 targets, wallet, rate;
* `CapabilityRecord`          a capability with its replay, rate and spending state;
* `Host`                      what the broker uses of the platform, and of its dependencies when it
                              decides about a target.
-/

set_option autoImplicit false
set_option linter.unusedVariables false

namespace WmAutopilot
namespace Signing
open Js

inductive BrokerOperation where
  | identity_read
  | capability_refresh
  | nip98_sign
  | nostr_sign
  | nip44_encrypt
  | nip44_decrypt
  | blossom_authorize
  | wallet_read
  | wallet_spend
  deriving DecidableEq, Repr

/-! ## NIP-98 constraints -/

/-- `Nip98ExtraTagRule["name"]` -/
inductive ExtraTagName where
  | nonce
  | aud
  | expiration
  deriving DecidableEq, Repr

def ExtraTagName.text : ExtraTagName → String
  | nonce => "nonce"
  | aud => "aud"
  | expiration => "expiration"

/-- `Nip98ExtraTagRule["valueType"]` -/
inductive ExtraTagValueType where
  | non_empty
  | unix_timestamp
  deriving DecidableEq, Repr

structure Nip98ExtraTagRule where
  name : ExtraTagName
  valueType : ExtraTagValueType
  maxLength : ℕ
  maxFutureSeconds : Option ℕ
  deriving DecidableEq, Repr

/-- `Nip98ExactPathConstraint["extraTags"]` -/
structure Nip98ExtraTags where
  allowed : List Nip98ExtraTagRule
  required : List ExtraTagName
  omitSessionBinding : Bool := false
  deriving DecidableEq, Repr

structure Nip98ExactPathConstraint where
  path : String
  methods : List String
  requireBodyHash : Bool := false
  extraTags : Option Nip98ExtraTags := none
  deriving DecidableEq, Repr

/-- an element of `Nip98Constraint["targets"]` -/
structure Nip98Target where
  origin : String
  methods : List String
  pathPrefixes : List String
  exactPaths : List Nip98ExactPathConstraint := []
  requireBodyHashMethods : Option (List String) := none
  deriving DecidableEq, Repr

structure Nip98Constraint where
  origins : List String
  methods : List String
  pathPrefixes : List String
  bodyHashes : List String := []
  requireBodyHashMethods : Option (List String) := none
  allowAnyTarget : Bool := false
  targets : Option (List Nip98Target) := none
  deriving DecidableEq, Repr

/-! ## capabilities -/

/-- `WalletConstraint` -/
structure WalletConstraint where
  readMethods : List String
  spendMethods : List String
  maxSpendMsats : ℤ
  maxTotalSpendMsats : ℤ
  deriving DecidableEq, Repr

structure SessionCapabilityPolicy where
  operations : List BrokerOperation
  nip98 : Option Nip98Constraint := none
  wallet : Option WalletConstraint := none
  maxCallsPerMinute : Option ℕ := none
  deriving DecidableEq, Repr

/-- `CapabilityRecord["keySource"]` -/
inductive KeySource where
  | agent_vault
  | instance_identity
  deriving DecidableEq, Repr

/-- A capability; the sets are in insertion order. -/
structure CapabilityRecord where
  id : String
  tokenHash : String
  issuedAtMs : ℤ
  expiresAtMs : ℤ
  sessionId : String
  ownerNpub : String
  identityManagerNpub : Option String
  keySource : Option KeySource
  botNpub : String
  botPubkeyHex : String
  profileId : Option String
  workspaceId : Option String
  policy : SessionCapabilityPolicy
  revokedAtMs : Option ℤ
  usedNonces : List String
  callTimestamps : List ℤ
  spentMsats : ℤ
  usedChallenges : List String
  deriving DecidableEq, Repr

def SESSION_CAPABILITY_TTL_MS : ℤ := 2 * 60 * 60000
def MAX_NONCES_PER_CAPABILITY : ℕ := 2048
def DEFAULT_MAX_CALLS_PER_MINUTE : ℕ := 120
def MAX_CHALLENGES_PER_CAPABILITY : ℕ := 2048
def SESSION_BINDING_TAG : String := "wm-session-capability"

/-- The platform, and the dependencies that a decision about a target reads. -/
structure Host extends Platform where
  toUpperCase : String → String
  jsonStringify : Value → String
  /-- the HMAC of a text, in hexadecimal. -/
  hmacSha256 : String → String → String
  /-- targets that are added to those of a capability at the time of a request. -/
  liveNip98Targets : String → SessionCapabilityPolicy → Url → List Nip98Target
  /-- the learning delegation that is mapped to a bot on an origin. -/
  learningGrantFor : String → String → Option String

/-- an answer that refuses a request. -/
structure Denial where
  reason : String
  status : ℕ := 403
  deriving DecidableEq, Repr

/-! ## sets in insertion order -/

/-- `set.add(x)` -/
def addTo (xs : List String) (x : String) : List String := if x ∈ xs then xs else xs ++ [x]

/-- `set.add(x)`, and the oldest element is removed when there are more than `max`. -/
def addBounded (max : ℕ) (xs : List String) (x : String) : List String :=
  let ys := addTo xs x
  if ys.length > max then
    match ys with
    | oldest :: rest => if oldest = "" then ys else rest
    | [] => []
  else ys

end Signing
end WmAutopilot
