import Mathlib.Data.List.TakeDrop
import WmAutopilot.Js.Segments
import WmAutopilot.Js.Throw
import WmAutopilot.Signing.NostrKindPolicy

/-!
# Tokens that carry what a runner may sign

* `Nip98Capability`, `NostrCapability`, `Payload`   what a token says; a list that is absent restricts
                                                nothing;
* `normalisePayload`     what is read of the text of a token;
* `mint`, `verify`       `mintSigningCapabilityToken` and `verifySigningCapabilityToken`;
* `assertNip98SigningAllowed`, `assertNostrSigningAllowed`   the checks of a request, with their errors.
-/

set_option autoImplicit false

namespace WmAutopilot
namespace Signing
namespace Token
open Js Value

def TOKEN_PREFIX : String := "wmsign_v1"
def TOKEN_AUDIENCE : String := "wingman-runner-signing"

structure Nip98Capability where
  hosts : Option (List String) := none
  methods : Option (List String) := none
  urls : Option (List String) := none
  pathPrefixes : Option (List String) := none
  deriving DecidableEq, Repr

structure NostrCapability where
  kinds : Option (List ℤ) := none
  deriving DecidableEq, Repr

structure Payload where
  exp : ℚ
  sessionId : Option String := none
  nip98 : Option Nip98Capability := none
  nostr : Option NostrCapability := none
  deriving DecidableEq, Repr

/-- a property that is left out when it is `undefined`. -/
def field {α : Type} (key : String) (f : α → Value) (a : Option α) : List (String × Value) :=
  a.toList.map fun a => (key, f a)

def strings (texts : List String) : Value := arr (texts.map str)

def Nip98Capability.toValue (capability : Nip98Capability) : Value :=
  obj (field "hosts" strings capability.hosts ++ field "methods" strings capability.methods ++
    field "urls" strings capability.urls ++ field "pathPrefixes" strings capability.pathPrefixes)

def NostrCapability.toValue (capability : NostrCapability) : Value :=
  obj (field "kinds" (fun kinds => arr (kinds.map fun (kind : ℤ) => num kind)) capability.kinds)

/-- the payload as an object. -/
def Payload.toValue (payload : Payload) : Value :=
  obj ([("aud", str TOKEN_AUDIENCE), ("v", num 1), ("exp", num payload.exp)] ++
    field "sessionId" str payload.sessionId ++ field "nip98" Nip98Capability.toValue payload.nip98 ++
    field "nostr" NostrCapability.toValue payload.nostr)

/-- `new URL(text)`: `toString()`, `hostname` and `pathname`. -/
structure ParsedUrl where
  href : String
  hostname : String
  pathname : String

/-- What is used of the platform. -/
structure Host where
  /-- `Buffer.from(JSON.stringify(value)).toString("base64url")` -/
  encodeJson : Value → String
  /-- `JSON.parse(Buffer.from(text, "base64url").toString())` -/
  decodeJson : String → Option Value
  /-- `createHmac("sha256", secret).update(text).digest("base64url")` -/
  hmac : String → String → String
  hmac_text : ∀ secret text, hmac secret text ≠ "" ∧ '.' ∉ (hmac secret text).toList
  /-- `text.toUpperCase()` and `text.toLowerCase()` -/
  upper : String → String
  lower : String → String
  upper_again : ∀ text, upper (trim (upper (trim text))) = upper (trim text)
  lower_again : ∀ text, lower (trim (lower (trim text))) = lower (trim text)
  upper_zeros : ∀ n, upper (String.ofList (List.replicate n '0')) =
    String.ofList (List.replicate n '0')
  parseUrl : String → Option ParsedUrl

section
variable (host : Host)

def signPayload (secret payloadBase64 : String) : String :=
  host.hmac secret (TOKEN_PREFIX ++ "." ++ payloadBase64)

def normaliseMethod (method : String) : String := host.upper (trim method)

def normaliseHost (name : String) : String := host.lower (trim name)

def hostMatches (pattern name : String) : Bool :=
  let pattern := (normaliseHost host pattern).toList
  let name := (normaliseHost host name).toList
  pattern = name || (['*', '.'] <+: pattern && pattern.drop 1 <:+ name &&
    (pattern.drop 1).length < name.length)

/-- `list.map(f).filter(Boolean)` of an array of strings. -/
def normalised (f : String → String) (value : Value) : Option (List String) :=
  (stringsOf value).map fun texts => (texts.map f).filter (· ≠ "")

/-- an array of integers. -/
def integersOf (value : Value) : Option (List ℤ) := value.elements.bind (·.mapM integerOf)

def normaliseNip98Capability (value : Value) : Option Nip98Capability :=
  if value.isPlainObject then
    some {
      hosts := normalised (normaliseHost host) (value.get "hosts")
      methods := normalised (normaliseMethod host) (value.get "methods")
      urls := normalised id (value.get "urls")
      pathPrefixes := normalised id (value.get "pathPrefixes") }
  else none

def normaliseNostrCapability (value : Value) : Option NostrCapability :=
  if value.isPlainObject then some { kinds := integersOf (value.get "kinds") } else none

def numberOf? : Value → Option ℚ
  | num q => some q
  | _ => none

def normalisePayload (value : Value) : Option Payload :=
  if value.isPlainObject = true ∧ value.get "aud" = str TOKEN_AUDIENCE ∧ value.get "v" = num 1 then
    (numberOf? (value.get "exp")).map fun exp => {
      exp := exp
      sessionId := (value.get "sessionId").getString
      nip98 := normaliseNip98Capability host (value.get "nip98")
      nostr := normaliseNostrCapability (value.get "nostr") }
  else none

/-- The input of a token; the time to live is finite or it is nothing. -/
structure TokenInput where
  ttlSeconds : Option ℚ
  sessionId : Option String := none
  nip98 : Value := .undefined
  nostr : Value := .undefined

/-- `Math.floor(ms / 1000)` -/
def seconds (ms : ℚ) : ℤ := (ms / 1000).floor

/-- the payload of an input. -/
def payloadOf (input : TokenInput) (ttlSeconds nowMs : ℚ) : Payload where
  exp := seconds nowMs + ttlSeconds.floor
  sessionId := input.sessionId.bind fun id => (str id).getString
  nip98 := if input.nip98.truthy then some ((normaliseNip98Capability host input.nip98).getD {})
    else none
  nostr := if input.nostr.truthy then some ((normaliseNostrCapability input.nostr).getD {})
    else none

/-- a payload and its signature. -/
def tokenOf (payloadBase64 signature : String) : String :=
  TOKEN_PREFIX ++ "." ++ payloadBase64 ++ "." ++ signature

def mint (secret : String) (input : TokenInput) (nowMs : ℚ) : Except String String := do
  throwIf (trim secret = "") "Signing token secret is required"
  let ttlSeconds ← orThrow "ttlSeconds must be greater than zero"
    (input.ttlSeconds.filter (0 < ·))
  let payloadBase64 := host.encodeJson (payloadOf host input ttlSeconds nowMs).toValue
  .ok (tokenOf payloadBase64 (signPayload host secret payloadBase64))

/-- the payload and the signature of a token. -/
def partsOf (token : String) : Option (String × String) :=
  match token.toList.splitOn '.' with
  | [start, payloadBase64, signature] =>
    if start = TOKEN_PREFIX.toList ∧ payloadBase64 ≠ [] ∧ signature ≠ [] then
      some (String.ofList payloadBase64, String.ofList signature)
    else none
  | _ => none

def verify (secret token : String) (nowMs : ℚ) : Except String Payload := do
  throwIf (trim secret = "") "Signing token secret is not configured"
  let parts ← orThrow "Invalid signing token format" (partsOf token)
  throwIf (signPayload host secret parts.1 ≠ parts.2) "Invalid signing token signature"
  let payload ← orThrow "Invalid signing token payload"
    ((host.decodeJson parts.1).bind (normalisePayload host))
  throwIf (payload.exp ≤ seconds nowMs) "Signing token has expired"
  .ok payload

def assertNip98SigningAllowed (payload : Payload) (targetUrl method : String) : Option String :=
  match payload.nip98 with
  | none => some "Signing token does not allow NIP-98 signing"
  | some capability =>
    match host.parseUrl targetUrl with
    | none => some "url must be a valid absolute URL"
    | some parsed =>
      let methods := (capability.methods.getD []).map (normaliseMethod host)
      if methods ≠ [] ∧ "*" ∉ methods ∧ normaliseMethod host method ∉ methods then
        some "Signing token does not allow this HTTP method"
      else if parsed.href ∈ capability.urls.getD [] then none
      else if (capability.hosts.getD []).all (fun pattern =>
          !hostMatches host pattern parsed.hostname) then
        some "Signing token does not allow this host"
      else if capability.pathPrefixes.getD [] ≠ [] ∧ (capability.pathPrefixes.getD []).all (fun start =>
          !startsWith parsed.pathname start) = true then
        some "Signing token does not allow this URL path"
      else none

def assertNostrSigningAllowed (payload : Payload) (kind : Value) : Option String :=
  match payload.nostr with
  | none => some "Signing token does not allow Nostr event signing"
  | some capability =>
    match (integerOf kind).filter (0 ≤ ·) with
    | none => some "event.kind must be a non-negative integer"
    | some k =>
      if capability.kinds.getD [] ≠ [] ∧ k ∉ capability.kinds.getD [] then
        some "Signing token does not allow this Nostr event kind"
      else none

end

end Token
end Signing
end WmAutopilot
