import Mathlib
import WmAutopilot.Js.Segments
import WmAutopilot.Signing.Policy

/-!
# NIP-98 requests

How the broker decides whether to sign an HTTP authentication event.

* `pathMatchesPrefix`, `selectTarget`   which entry of a capability a URL falls under;
* `checkTarget`                         origin, method, path and body hash against that entry;
* `validateNip98ExtraTags`, `learningGrantTagRefusal`   the tags that a request adds;
* `decideNip98`                         the whole decision on the body of a request;
* `signNip98`                           the decision, the challenge it uses up, and the event.
-/

set_option autoImplicit false
set_option linter.unusedVariables false

namespace WmAutopilot
namespace Signing
open Js Value

/-! ## texts -/

def normalizeMethod (host : Host) (value : String) : String := host.toUpperCase (trim value)
def normalizeHex (value : String) : String := toLowerCase (trim value)
def isHex64 (value : String) : Bool := isHexKey (normalizeHex value)

/-- a prefix without the slash at its end. -/
def withoutSlash (pre : String) : String :=
  if pre.toList.getLast? = some '/' ∧ pre ≠ "/" then String.ofList pre.toList.dropLast else pre

def pathMatchesPrefix (pathname pre : String) : Bool :=
  let normalized := withoutSlash pre
  pathname = normalized || startsWith pathname (normalized ++ "/")

/-- `typeof body[key] === "string" ? body[key] : ""` -/
def textOf (body : Value) (key : String) : String :=
  match body.get key with
  | str s => s
  | _ => ""

/-- `Boolean(bodyHash)` -/
def present (bodyHash : Option String) : Bool := bodyHash.any (· ≠ "")

/-! ## the tags of a request -/

/-- a tag with a name and a value. -/
abbrev Tag := String × String

/-- a pair of strings. -/
def readTag : Value → Option Tag
  | arr [str name, str value] => some (name, value)
  | _ => none

def parseNip98ExtraTags (value : Value) : Option (List Tag) :=
  match value with
  | undefined => some []
  | arr vs => vs.mapM readTag
  | _ => none

/-- `/^\d{1,12}$/` -/
def isTimestamp (value : String) : Bool :=
  1 ≤ value.length && value.length ≤ 12 && value.toList.all fun c => '0' ≤ c && c ≤ '9'

/-- what is wrong with a tag that is a time. -/
def timestampRefusal (rule : Nip98ExtraTagRule) (name value : String) (nowSeconds : ℤ) :
    Option String :=
  if isTimestamp value = false then
    some ("NIP-98 " ++ name ++ " tag must be an integer Unix timestamp")
  else
    let timestamp : ℤ := value.toNat?.getD 0
    if timestamp ≤ nowSeconds then some ("NIP-98 " ++ name ++ " tag has expired")
    else if rule.maxFutureSeconds.getD 0 = 0 ∨
        timestamp > nowSeconds + (rule.maxFutureSeconds.getD 0 : ℕ) then
      some ("NIP-98 " ++ name ++ " tag exceeds the allowed freshness window")
    else none

/-- what is wrong with a tag; the last rule of a name counts. -/
def tagRefusal (tags : List Tag) (constraint : Nip98ExtraTags) (nowSeconds : ℤ) (tag : Tag) :
    Option String :=
  match constraint.allowed.reverse.find? fun rule => rule.name.text = tag.1 with
  | none => some "NIP-98 challenge tag is not allowed"
  | some rule =>
    if (tags.filter fun candidate => candidate.1 = tag.1).length ≠ 1 then
      some "NIP-98 challenge tags must occur exactly once"
    else if blank tag.2 ∨ tag.2.utf8ByteSize > rule.maxLength then
      some ("NIP-98 " ++ tag.1 ++ " tag is empty or exceeds policy")
    else match rule.valueType with
      | .non_empty => none
      | .unix_timestamp => timestampRefusal rule tag.1 tag.2 nowSeconds

def validateNip98ExtraTags (tags : List Tag) (constraint : Option Nip98ExtraTags)
    (nowSeconds : ℤ) : Option String :=
  match constraint with
  | none => if tags = [] then none
    else some "NIP-98 challenge tags are not allowed for this target"
  | some constraint =>
    (tags.findSome? (tagRefusal tags constraint nowSeconds)).or
      (constraint.required.findSome? fun required =>
        if (tags.filter fun tag => tag.1 = required.text).length ≠ 1 then
          some ("NIP-98 challenge requires exactly one " ++ required.text ++ " tag")
        else none)

/-! ## learning delegations -/

def LEARNING_GRANT_TAG : String := "learning_grant_id"

def LEARNING_ROUTES : List String :=
  ["GET /api/v4/learning/curriculum", "GET /api/v4/learning/curriculum/traverse",
    "GET /api/v4/learning/mastery", "GET /api/v4/learning/recall/due",
    "POST /api/v4/learning/plans", "POST /api/v4/learning/lessons",
    "POST /api/v4/learning/assessments", "POST /api/v4/learning/recall"]

/-- `splitLearningGrantTags`: the delegations, and the other tags. -/
def splitLearningGrantTags (tags : List Tag) : List Tag × List Tag :=
  tags.partition fun tag => tag.1 = LEARNING_GRANT_TAG

def learningGrantTagRefusal (host : Host) (grant : List Tag) (url : Url) (method botNpub : String) :
    Option String :=
  match grant with
  | [] => none
  | [tag] =>
    if host.toUpperCase method ++ " " ++ url.pathname ∉ LEARNING_ROUTES then
      some "NIP-98 learning_grant_id tag is not allowed for this route"
    else
      let mapped := host.learningGrantFor botNpub url.origin
      if present mapped = false ∨ mapped ≠ some tag.2 then
        some "NIP-98 learning_grant_id is not the delegation configured for this agent on this Tower"
      else none
  | _ => some "NIP-98 learning_grant_id tag must occur exactly once"

/-! ## queues -/

/-- the segments of a path, as texts. -/
def pathSegments (pathname : String) : List String := (segments pathname).map String.ofList

/-- what follows `queue` in `/api/(owners/…/)?sessions/…/queue(/…)?`. -/
def queueRest (pathname : String) : Option (List String) :=
  let afterApi := match pathSegments pathname with
    | "" :: "api" :: "owners" :: owner :: rest => if owner = "" then [] else rest
    | "" :: "api" :: rest => rest
    | _ => []
  match afterApi with
  | "sessions" :: session :: "queue" :: rest => if session = "" then none else some rest
  | _ => none

def permitsSessionQueueSigning (host : Host) (pathname method sessionId : String)
    (bodyHash : Option String) : Bool :=
  match queueRest pathname with
  | none => true
  | some rest =>
    let selfPath := "/api/sessions/" ++ host.encodeURIComponent sessionId ++ "/queue"
    let act := match rest with
      | [prompt, action] => prompt ≠ "" && action ∈ ["acknowledge", "consume", "reconcile"]
      | _ => false
    (pathname = selfPath && method = "GET") ||
      (startsWith pathname (selfPath ++ "/") && act && method = "POST" && present bodyHash)

/-! ## targets -/

/-- the constraint of a capability, with the targets that are added at the time of the request. -/
def nip98Constraint (host : Host) (capability : CapabilityRecord) (url : Url) :
    Option Nip98Constraint :=
  let liveTargets := host.liveNip98Targets capability.botNpub capability.policy url
  capability.policy.nip98.map fun stored =>
    if liveTargets ≠ [] then { stored with targets := some (stored.targets.getD [] ++ liveTargets) }
    else stored

section Target
variable (host : Host) (constraint : Nip98Constraint) (url : Url)

def originTargets : List Nip98Target :=
  (constraint.targets.getD []).filter fun candidate : Nip98Target => candidate.origin = url.origin

/-- `exactMatches[0]` -/
def exactMatch : Option (Nip98Target × Nip98ExactPathConstraint) :=
  ((originTargets constraint url).flatMap fun candidate =>
    (candidate.exactPaths.filter fun exactPath => exactPath.path = url.pathname).map fun exactPath =>
      (candidate, exactPath)).head?

def prefixTargets : List Nip98Target :=
  (originTargets constraint url).filter fun candidate =>
    candidate.pathPrefixes.any fun pre => pathMatchesPrefix url.pathname pre

def legacyOriginAllowed : Bool :=
  originTargets constraint url = [] && constraint.origins.contains url.origin

/-- `exactMatch?.target ?? prefixTargets[0]` -/
def selectTarget : Option Nip98Target :=
  ((exactMatch constraint url).map Prod.fst).or (prefixTargets constraint url).head?

/-- the checks of a request against a constraint that does not allow any target. -/
def checkTarget (method : String) (bodyHash : Option String) : Except Denial Unit := do
  let exactPath := (exactMatch constraint url).map Prod.snd
  let target := selectTarget constraint url
  let allowedOrigins := match constraint.targets with
    | some targets => targets.map Nip98Target.origin
    | none => constraint.origins
  let allowedMethods := ((exactPath.map fun e => e.methods).or
    (target.map fun t => t.methods)).getD constraint.methods
  let requireBodyHashMethods :=
    (target.bind fun t => t.requireBodyHashMethods).or constraint.requireBodyHashMethods
  throwIf (url.origin ∉ allowedOrigins) ⟨"NIP-98 origin is not allowed", 403⟩
  throwIf (method ∉ allowedMethods.map (normalizeMethod host)) ⟨"NIP-98 method is not allowed", 403⟩
  throwIf (exactPath.isNone ∧ prefixTargets constraint url = [] ∧
      (legacyOriginAllowed constraint url && constraint.pathPrefixes.any fun pre =>
        pathMatchesPrefix url.pathname pre) = false)
    ⟨"NIP-98 path is not allowed", 403⟩
  throwIf (constraint.bodyHashes ≠ [] ∧ (present bodyHash = false ∨
      bodyHash.getD "" ∉ constraint.bodyHashes.map normalizeHex))
    ⟨"NIP-98 body hash is not allowed", 403⟩
  let bodyHashRequired := match exactPath with
    | some e => e.requireBodyHash
    | none => method ∈ (requireBodyHashMethods.getD []).map (normalizeMethod host)
  throwIf (bodyHashRequired = true ∧ present bodyHash = false)
    ⟨"NIP-98 body hash is required for this method", 400⟩

end Target

/-! ## the decision -/

/-- what the broker signs. -/
structure Nip98Decision where
  url : Url
  method : String
  bodyHash : Option String
  createdAt : ℤ
  extraTags : List Tag
  /-- the challenge tags of the exact path of the request, when it has them. -/
  challenge : Option Nip98ExtraTags
  challengeFingerprint : Option String

/-- the position of the rule of a name; unknown names come last. -/
def tagOrder (constraint : Nip98ExtraTags) (name : String) : ℕ :=
  match (constraint.allowed.zipIdx.reverse.find? fun rule => rule.1.name.text = name) with
  | some rule => rule.2
  | none => 9007199254740991

/-- the tags of a challenge in the order of its rules. -/
def canonicalTags (challenge : Option Nip98ExtraTags) (tags : List Tag) : List Tag :=
  match challenge with
  | some constraint =>
    tags.mergeSort fun left right => tagOrder constraint left.1 ≤ tagOrder constraint right.1
  | none => tags

/-- the payload of a challenge names the request. -/
def expectedBodyHash (host : Host) (tags : List Tag) : String :=
  let requestId := ((tags.find? fun tag => tag.1 = "nonce").map Prod.snd).getD ""
  host.sha256 (host.jsonStringify (obj [("request_id", str requestId)]))

def challengeFingerprint (host : Host) (url : Url) (method : String) (bodyHash : Option String)
    (tags : List Tag) : Option String :=
  if tags = [] then none
  else some (host.sha256 (host.jsonStringify (arr [str url.href, str method, ofOption bodyHash,
    arr (tags.map fun tag => arr [str tag.1, str tag.2])])))

/-- the tags of a request against the entry that it falls under. -/
def decideTags (host : Host) (capability : CapabilityRecord) (constraint : Nip98Constraint)
    (url : Url) (method : String) (bodyHash : Option String) (extraTags : List Tag) (now : ℤ) :
    Except Denial Nip98Decision := do
  let createdAt := now / 1000
  let challenge := (exactMatch constraint url).bind fun m => m.2.extraTags
  let (learningGrantTags, challengeTags) := splitLearningGrantTags extraTags
  match learningGrantTagRefusal host learningGrantTags url method capability.botNpub with
  | some reason => throw ⟨reason, 403⟩
  | none =>
    match if constraint.allowAnyTarget then none
        else validateNip98ExtraTags challengeTags challenge createdAt with
    | some reason => throw ⟨reason, 400⟩
    | none =>
      let canonicalChallengeTags := canonicalTags challenge challengeTags
      let canonicalExtraTags := canonicalChallengeTags ++ learningGrantTags
      throwIf (challenge.isSome ∧ bodyHash ≠ some (expectedBodyHash host canonicalExtraTags))
        ⟨"NIP-98 challenge payload hash does not match the exact request body", 400⟩
      return { url, method, bodyHash, createdAt, extraTags := canonicalExtraTags, challenge
               challengeFingerprint :=
                 challengeFingerprint host url method bodyHash canonicalChallengeTags }

def requestMethod (host : Host) (body : Value) : String :=
  match body.get "method" with
  | str s => normalizeMethod host s
  | _ => ""

def requestBodyHash (body : Value) : Option String :=
  match body.get "bodyHash" with
  | str s => some (normalizeHex s)
  | _ => none

/-- the decision on the body of a request. -/
def decideNip98 (host : Host) (capability : CapabilityRecord) (body : Value) (now : ℤ) :
    Except Denial Nip98Decision := do
  let method := requestMethod host body
  let bodyHash := requestBodyHash body
  let url ← orThrow ⟨"url must be an absolute URL", 400⟩ (host.url (trim (textOf body "url")))
  throwIf (present bodyHash = true ∧ isHex64 (bodyHash.getD "") = false)
    ⟨"bodyHash must be a SHA-256 hex digest", 400⟩
  let extraTags ← orThrow ⟨"tags must be an array of two-string tuples", 400⟩
    (parseNip98ExtraTags (body.get "tags"))
  throwIf (permitsSessionQueueSigning host url.pathname method capability.sessionId bodyHash = false)
    ⟨"Queue capability permits only exact-session list and acknowledgement", 403⟩
  let constraint ← orThrow ⟨"NIP-98 policy is missing", 403⟩ (nip98Constraint host capability url)
  throwIf (method = "") ⟨"NIP-98 method is required", 400⟩
  let _ ← if constraint.allowAnyTarget then pure ()
    else checkTarget host constraint url method bodyHash
  decideTags host capability constraint url method bodyHash extraTags now

/-! ## signing -/

/-- `createSessionBindingMac` -/
def createSessionBindingMac (host : Host) (capability : CapabilityRecord) (d : Nip98Decision) :
    String :=
  host.hmacSha256 capability.tokenHash (host.jsonStringify (arr [str capability.id,
    str capability.sessionId, str capability.botPubkeyHex, num d.createdAt, str d.url.href,
    str d.method, ofOption d.bodyHash]))

/-- the tags of the event; `random` is the nonce of a request that is no challenge. -/
def nip98Tags (host : Host) (capability : CapabilityRecord) (d : Nip98Decision) (random : String) :
    List (List String) :=
  [["u", d.url.href], ["method", d.method]] ++
    (if present d.bodyHash then [["payload", d.bodyHash.getD ""]] else []) ++
    (d.extraTags.map fun tag => [tag.1, tag.2]) ++
    (if d.challenge.isSome then [] else [["nonce", random]]) ++
    (if d.challenge.any fun c => c.omitSessionBinding then []
      else [[SESSION_BINDING_TAG, capability.id, capability.sessionId,
        createSessionBindingMac host capability d]])

/-- a challenge is signed once: the record after it was used up. -/
def useChallenge (capability : CapabilityRecord) (d : Nip98Decision) :
    Except Denial CapabilityRecord :=
  match d.challengeFingerprint with
  | none => return capability
  | some fingerprint => do
    throwIf (fingerprint ∈ capability.usedChallenges)
      ⟨"NIP-98 challenge has already been signed", 403⟩
    return { capability with
      usedChallenges := addBounded MAX_CHALLENGES_PER_CAPABILITY capability.usedChallenges fingerprint }

/-- a request of an authorised capability: the decision, the tags that are signed, and the record
after it. -/
def signNip98 (host : Host) (capability : CapabilityRecord) (body : Value) (now : ℤ)
    (random : String) : Except Denial (Nip98Decision × List (List String) × CapabilityRecord) := do
  let decision ← decideNip98 host capability body now
  let capability' ← useChallenge capability decision
  return (decision, nip98Tags host capability decision random, capability')

end Signing
end WmAutopilot
