import Mathlib.Data.Int.Notation
import WmAutopilot.Async.Triple
import WmAutopilot.Auth.Nip98ReplayCache
import WmAutopilot.Js.Platform
import WmAutopilot.Js.Segments

/-!
# The verification of NIP-98 requests

`verifyNip98Request` checks the signed event of a request, samples the clock, waits for the body of
the request and asks the replay cache.  Any number of workers do so on one cache, and any of them
may be interrupted by the others at every operation.

* `signedEvent`, `fresh`, `payloadMatches`   the checks that do not wait;
* `verifyNip98Request`    the verification; a throw is a refusal;
* `World`, `perform`      the clock, the cache and what it did; a statement that fails answers
                          `false` and changes nothing;
* `system`                the workers; `restricted R` runs an `accept` only where `R` holds.
-/

set_option autoImplicit false
set_option linter.unusedVariables false

namespace WmAutopilot
namespace Auth
open Js Value Async

def NIP98_MAX_AGE_SECONDS : ℤ := 60
def NIP98_CLOCK_SKEW_SECONDS : ℤ := 15
def NIP98_REPLAY_CACHE_LIMIT : ℕ := 10000

/-- the bytes of a body. -/
abbrev Bytes := List UInt8

/-- what the verification uses of the platform and of `nostr-tools`; `none` is a throw. -/
structure Host extends Platform where
  toUpperCase : String → String
  atob : String → Option String
  /-- `verifyEvent(event)`: the id is the hash of the fields and the signature is good. -/
  verifyEvent : Value → Bool
  npubEncode : Value → Option String
  /-- `bytesToHex(sha256(bytes))` -/
  hashHex : Bytes → String
  /-- the hash of the fields tells their time apart. -/
  verifyEvent_id : ∀ event event', verifyEvent event = true → verifyEvent event' = true →
    event.get "id" = event'.get "id" → event.get "created_at" = event'.get "created_at"

structure Nip98Verification where
  signerNpub : String
  event : Value
  deriving DecidableEq

/-- what a call is given, but for the body and the cache. -/
structure Nip98Input where
  authorization : Option String
  method : String
  requestUrl : Url
  configuredBaseUrl : String
  now : Option ℤ := none
  allowedSignerNpub : Option String := none

/-! ## the checks that do not wait -/

/-- `tag[i]` -/
def index (tag : Value) (i : ℕ) : Value :=
  match tag with
  | arr vs => vs.getD i undefined
  | _ => undefined

/-- `event.tags.filter((tag) => tag[0] === name)` -/
def tagsNamed (event : Value) (name : String) : Option (List Value) :=
  (event.get "tags").elements.map fun tags => tags.filter fun tag => index tag 0 = str name

/-- the text of the only tag of a list. -/
def onlyText : List Value → Option String
  | [tag] => match index tag 1 with
    | str s => some s
    | _ => none
  | _ => none

def singleTag (event : Value) (name : String) : Option String :=
  (tagsNamed event name).bind onlyText

def canonicalNip98RequestUrl (host : Host) (requestUrl : Url) (configuredBaseUrl : String) :
    Option String :=
  let configured := trim configuredBaseUrl
  if configured = "" then some requestUrl.href
  else do
    let base ← host.url configured
    let url ← host.urlAt (requestUrl.pathname ++ requestUrl.search) base.origin
    some url.href

/-- What `verifyNip98Request` does before it reads the clock; `none` is a refusal or a throw. -/
def signedEvent (host : Host) (input : Nip98Input) : Option Nip98Verification := do
  let authHeader ← input.authorization
  guard (startsWith authHeader "Nostr ")
  let text ← host.atob (String.ofList (authHeader.toList.drop 6))
  let event ← host.jsonParse text
  guard (host.verifyEvent event ∧ event.get "kind" = num 27235)
  let signerNpub ← host.npubEncode (event.get "pubkey")
  guard (input.allowedSignerNpub.all fun allowed => allowed = "" ∨ signerNpub = allowed)
  let signedUrl ← singleTag event "u"
  let url ← canonicalNip98RequestUrl host input.requestUrl input.configuredBaseUrl
  guard (signedUrl ≠ "" ∧ signedUrl = url)
  let signedMethod ← singleTag event "method"
  guard (signedMethod ≠ "" ∧ signedMethod = host.toUpperCase input.method)
  some ⟨signerNpub, event⟩

/-- the number of a `created_at` that is a safe integer. -/
def createdAt (event : Value) : Option ℤ :=
  match event.get "created_at" with
  | num q => if q.den = 1 ∧ isSafeInteger q.num then some q.num else none
  | _ => none

/-- the event is neither from the future nor too old. -/
def fresh (created now : ℤ) : Prop :=
  ¬created > now + NIP98_CLOCK_SKEW_SECONDS ∧ ¬created < now - NIP98_MAX_AGE_SECONDS

instance (created now : ℤ) : Decidable (fresh created now) := inferInstanceAs (Decidable (_ ∧ _))

/-- the payload tags fit the body. -/
def payloadMatches (host : Host) (event : Value) (body : Bytes) : Bool :=
  match tagsNamed event "payload" with
  | none => false
  | some payloadTags =>
    if body = [] then payloadTags = []
    else (onlyText payloadTags).any fun text => toLowerCase text = host.hashHex body

/-- `event.id`, a text in every verified event. -/
def eventId (event : Value) : String :=
  match event.get "id" with
  | str id => id
  | _ => ""

/-- the time at which the replay cache may forget an event. -/
def expiry (created : ℤ) : ℤ := created + NIP98_MAX_AGE_SECONDS + NIP98_CLOCK_SKEW_SECONDS + 1

/-! ## the verification -/

inductive VerifierOp where
  /-- `Date.now()`, in milliseconds. -/
  | dateNow
  /-- `await request.clone().arrayBuffer()` -/
  | arrayBuffer
  | accept (limit : ℕ) (eventId : String) (expiresAt now : ℤ)
  | cleanup (now : ℤ)
  /-- the verification has returned this. -/
  | verified (verification : Nip98Verification)

/-- the answer of an operation. -/
abbrev VerifierOp.Ans : VerifierOp → Type
  | dateNow => ℕ
  | arrayBuffer => Except Thrown Bytes
  | accept .. => Bool
  | cleanup _ | verified _ => Unit

/-- the workers are processes of their own, so that others may run before every operation. -/
abbrev api : Api := ⟨VerifierOp, VerifierOp.Ans, fun _ => true⟩

def op (o : VerifierOp) : Exc api Thrown o.Ans := Exc.op (A := api) o
def tryOp {α : Type} (o : VerifierOp) (h : o.Ans = Except Thrown α) : Exc api Thrown α :=
  Exc.tryOp (A := api) o h

/-- `input.now ?? Math.floor(Date.now() / 1000)` -/
def sampleNow (now : Option ℤ) : Exc api Thrown ℤ :=
  match now with
  | some now => pure now
  | none => do
    let ms ← op .dateNow
    pure ((ms : ℤ) / 1000)

/-- `verifyNip98Request` from the sample of the clock on. -/
def verifyFresh (host : Host) (limit : ℕ) (now : Option ℤ) (v : Nip98Verification) :
    Exc api Thrown (Option Nip98Verification) := do
  let now ← sampleNow now
  match createdAt v.event with
  | none => pure none
  | some created =>
    if fresh created now then do
      let body ← tryOp .arrayBuffer rfl
      if payloadMatches host v.event body then do
        let accepted ← op (.accept limit (eventId v.event) (expiry created) now)
        pure (if accepted then some v else none)
      else pure none
    else pure none

def verifyNip98Request (host : Host) (limit : ℕ) (input : Nip98Input) :
    Exc api Thrown (Option Nip98Verification) :=
  match signedEvent host input with
  | none => pure none
  | some v => tryCatch (verifyFresh host limit input.now v) fun _ => pure none

/-- the observation of what a call returned. -/
def report : Option Nip98Verification → Exc api Thrown Unit
  | some v => op (.verified v)
  | none => pure ()

/-- a worker that verifies a request. -/
def handleRequest (host : Host) (limit : ℕ) (input : Nip98Input) : Exc api Thrown Unit := do
  let result ← verifyNip98Request host limit input
  report result

/-- a worker that cleans the cache up. -/
def cleanUp : Exc api Thrown Unit := do
  let now ← sampleNow none
  op (.cleanup now)

/-! ## the workers -/

/-- The clock, the cache, and what happened. -/
structure World where
  /-- in milliseconds. -/
  clock : ℕ := 0
  rows : List ReplayRow := []
  /-- what the cache did, latest first. -/
  history : List CacheEvent := []
  /-- the calls that returned a verification, latest first. -/
  accepted : List Nip98Verification := []
  /-- the threads that the cache has told to accept an event, and that have not returned it. -/
  told : List (ℕ × String) := []

/-- the clock in seconds. -/
def World.seconds (w : World) : ℤ := (w.clock : ℤ) / 1000

/-- the state after an `accept` whose statements did not fail. -/
def World.asked (w : World) (κ limit : ℕ) (id : String) (expiresAt now : ℤ) : World :=
  let result := Nip98ReplayCache.accept limit id expiresAt now w.rows
  { w with
    rows := result.2
    history := if result.1 then .admitted ⟨id, expiresAt⟩ :: .expired now :: w.history
      else w.history
    told := if result.1 then (κ, id) :: w.told else w.told }

/-- the state after a `cleanup`. -/
def World.cleaned (w : World) (now : ℤ) : World :=
  { w with
    rows := Nip98ReplayCache.cleanup now w.rows
    history := if isSafeInteger now then .expired now :: w.history else w.history }

/-- What an operation of thread `κ` answers and does.  A statement of SQLite may fail, and the
transaction is rolled back. -/
def perform (κ : ℕ) : (o : VerifierOp) → World → o.Ans → World → Prop
  | .dateNow, w, ms, w' => w.clock ≤ ms ∧ w' = { w with clock := ms }
  | .arrayBuffer, w, _, w' => w' = w
  | .accept limit id expiresAt now, w, answer, w' =>
    answer = false ∧ w' = w ∨
      answer = (Nip98ReplayCache.accept limit id expiresAt now w.rows).1 ∧
        w' = w.asked κ limit id expiresAt now
  | .cleanup now, w, _, w' => w' = w ∨ w' = w.cleaned now
  | .verified v, w, _, w' =>
    w' = { w with accepted := v :: w.accepted, told := w.told.erase (κ, eventId v.event) }

/-- the programs of the workers: any requests, whose clock is that of the host. -/
inductive Spawn (host : Host) : Prog api Unit → Prop where
  | request (limit : ℕ) (input : Nip98Input) (h : input.now = none) :
      Spawn host (handleRequest host limit input).detach
  | cleanUp : Spawn host cleanUp.detach

/-- when an `accept` of an id and an expiry is run. -/
abbrev When := World → String → ℤ → Prop

/-- The workers, when `accept` is only run where `R` holds. -/
def restricted (host : Host) (R : When) : System api World where
  perform κ o w r w' := perform κ o w r w' ∧
    ∀ limit id expiresAt now, o = .accept limit id expiresAt now → R w id expiresAt
  spawn _ _ p := Spawn host p
  crash w w' := w' = w

/-- The workers. -/
def system (host : Host) : System api World := restricted host fun _ _ _ => True

/-- nothing is cached and nothing was accepted, at any time. -/
def World.Initial (w : World) : Prop := ∃ clock, w = { clock }

end Auth
end WmAutopilot
