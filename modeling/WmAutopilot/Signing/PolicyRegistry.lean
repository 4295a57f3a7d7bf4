import WmAutopilot.Js.Keyed
import WmAutopilot.Signing.PolicyDraft

/-!
# The registry of signing policies

* `Registry`             the policies in memory, in the order in which they were set, and the
                         history of their revisions;
* `construct`            the registry that is made of what the store holds;
* `Change.planned`       what an operation leaves in memory when it comes to `persist`;
* `step`, `trace`        one operation, and operations one after the other, each with what
                         `store.save` does should it be called.

Memory is changed before `store.save` is called, and nothing takes the change back.
-/

set_option autoImplicit false

namespace WmAutopilot
namespace Signing
namespace Policies
open Js

/-! ## the data -/

def DEFAULT_AGENT_POLICY_ID : String := "builtin-default-agent"

def TOWER_FORGEJO_POLICY_ID : String := "tower-forgejo-login"

structure SigningPolicyDocument extends SigningPolicyDraft where
  revision : ℕ
  /-- `builtIn !== false`; the other value is `"template"`. -/
  builtIn : Bool
  createdAt : String
  createdBy : String
  updatedAt : String
  updatedBy : String
  deriving DecidableEq, Repr

/-- `SigningPolicyHistoryEntry["action"]` -/
inductive PolicyAction where
  | created
  | updated
  | enabled
  | disabled
  | deleted
  deriving DecidableEq, Repr

structure SigningPolicyHistoryEntry where
  policyId : String
  revision : ℕ
  action : PolicyAction
  actorNpub : String
  time : String
  snapshot : SigningPolicyDocument
  deriving DecidableEq, Repr

/-- the id and the revision that an entry assigns. -/
def SigningPolicyHistoryEntry.assigns (entry : SigningPolicyHistoryEntry) : String × ℕ :=
  (entry.policyId, entry.revision)

structure SigningPolicyEnvelope where
  policies : List SigningPolicyDocument
  history : List SigningPolicyHistoryEntry
  deriving DecidableEq, Repr

structure Registry where
  policies : List SigningPolicyDocument
  history : List SigningPolicyHistoryEntry
  deriving DecidableEq, Repr

/-! ## the registry -/

section
variable (host : PolicyHost)

def assertTowerForgejoContract (draft : SigningPolicyDraft) : Except String Unit :=
  throwIf (draft.id = TOWER_FORGEJO_POLICY_ID ∧ (draft.operations ≠ ["nip98.sign"] ∨
      draft.eventKinds ≠ [27235] ∨ draft.nostrKindRules ≠ [] ∨ draft.nip98Targets.length ≠ 1 ∨
      draft.nip98Targets.all (·.challenge.isNone) = true))
    ("The Tower Forgejo Login template must retain its dedicated kind-27235 NIP-98 challenge " ++
      "contract")

/-- policies as `list` orders them. -/
def IdLe (left right : SigningPolicyDocument) : Prop := Collated host left.id right.id

instance : DecidableRel (IdLe host) := fun left right =>
  inferInstanceAs (Decidable (Collated host left.id right.id))

instance : Std.Total (IdLe host) := ⟨fun left right => host.le_total left.id right.id⟩

instance : IsTrans SigningPolicyDocument (IdLe host) :=
  ⟨fun left middle right => host.le_trans left.id middle.id right.id⟩

namespace Registry
variable (r : Registry)

def list : List SigningPolicyDocument := r.policies.insertionSort (IdLe host)

/-- `this.policies.get(id)` -/
def get (id : String) : Option SigningPolicyDocument := r.policies.find? (·.id = id)

def getHistory (id : String) : List SigningPolicyHistoryEntry :=
  (r.history.filter (·.policyId = id)).insertionSort fun left right =>
    right.revision ≤ left.revision

/-- what `persist` gives to the store. -/
def envelope : SigningPolicyEnvelope := { policies := r.list host, history := r.history }

/-- `Math.max(existing?.revision ?? 0, ...revisions) + 1` -/
def nextRevision (id : String) (existing : Option SigningPolicyDocument) : ℕ :=
  ((r.getHistory id).map (·.revision)).foldl max ((existing.map (·.revision)).getD 0) + 1

/-- memory as `saveRevision` leaves it when it comes to `persist`. -/
def saveRevision (draft : SigningPolicyDraft) (existing : Option SigningPolicyDocument)
    (actorNpub : String) (action : PolicyAction) (builtIn : Bool) (time : String) : Registry :=
  let policy : SigningPolicyDocument :=
    { toSigningPolicyDraft := draft
      revision := r.nextRevision draft.id existing
      builtIn
      createdAt := (existing.map (·.createdAt)).getD time
      createdBy := (existing.map (·.createdBy)).getD actorNpub
      updatedAt := time
      updatedBy := actorNpub }
  { policies := put (·.id) r.policies policy
    history := r.history ++
      [⟨policy.id, policy.revision, action, actorNpub, time, policy⟩] }

/-- `existing.enabled === enabled` comes back before anything is saved: `none`. -/
def setEnabled (id : String) (enabled : Bool) (actorNpub time : String) :
    Except String (Option Registry) := do
  let existing ← orThrow "Signing policy not found" (r.get id)
  pure (if existing.enabled = enabled then none
    else some (r.saveRevision { existing.toSigningPolicyDraft with enabled } existing actorNpub
      (if enabled then .enabled else .disabled) existing.builtIn time))

/-- `draft` is `error` when the body does not have the declared types. -/
def create (draft : Except String SigningPolicyDraft) (actorNpub time : String) :
    Except String (Option Registry) := do
  let validated ← draft.bind (validateSigningPolicyDraft host)
  throwIf (validated.id = DEFAULT_AGENT_POLICY_ID ∨ (r.get validated.id).isSome = true)
    ("Signing policy ID already exists: " ++ validated.id)
  pure (some (r.saveRevision validated none actorNpub .created false time))

def update (id : String) (draft : Except String SigningPolicyDraft) (actorNpub time : String) :
    Except String (Option Registry) := do
  let existing ← orThrow "Signing policy not found" (r.get id)
  let given ← draft
  throwIf (given.id ≠ id) "Signing policy ID is immutable"
  let validated ← validateSigningPolicyDraft host given
  assertTowerForgejoContract validated
  pure (some (r.saveRevision validated existing actorNpub .updated existing.builtIn time))

def delete (id actorNpub time : String) : Except String (Option Registry) := do
  let existing ← orThrow "Signing policy not found" (r.get id)
  throwIf (existing.builtIn = true) "Built-in signing policies cannot be deleted"
  pure (some
    { policies := r.policies.filter (·.id ≠ id)
      history := r.history ++
        [⟨id, existing.revision + 1, .deleted, actorNpub, time, existing⟩] })

end Registry

/-! ## the constructor -/

/-- the loop over the policies of the store. -/
def loadPolicies (loaded : List SigningPolicyDocument) :
    List SigningPolicyDocument → Except String (List SigningPolicyDocument)
  | [] => .ok loaded
  | policy :: policies => do
    let validated ← validateSigningPolicyDraft host policy.toSigningPolicyDraft
    assertTowerForgejoContract validated
    throwIf (∃ other ∈ loaded, other.id = validated.id)
      ("Duplicate signing policy ID: " ++ validated.id)
    loadPolicies (loaded ++ [{ policy with toSigningPolicyDraft := validated }]) policies

/-- the draft of the Tower template. -/
def towerDraft (completionUrl : PolicyUrl) : SigningPolicyDraft :=
  { id := TOWER_FORGEJO_POLICY_ID
    name := "Tower Forgejo Login"
    description := "Signs Tower's one-minute Forgejo OIDC completion challenge for explicitly " ++
      "assigned agent sessions."
    enabled := false
    operations := ["nip98.sign"]
    eventKinds := [27235]
    nostrKindRules := []
    nip98Targets := [{
      origin := completionUrl.origin
      methods := ["POST"]
      exactPaths := [completionUrl.pathname]
      pathPrefixes := []
      requireBodyHash := true
      challenge := some {
        allowedTags := [⟨.nonce, .non_empty, 256, none⟩, ⟨.aud, .non_empty, 256, none⟩,
          ⟨.expiration, .unix_timestamp, 12, some 60⟩]
        requiredTags := CHALLENGE_TAGS } }]
    assignments := { profileIds := [], workspaceIds := [] } }

/-- the registry with the Tower template. -/
def withTower (policies : List SigningPolicyDocument) (history : List SigningPolicyHistoryEntry)
    (draft : SigningPolicyDraft) (time : String) : Registry :=
  let policy : SigningPolicyDocument :=
    { toSigningPolicyDraft := draft, revision := 1, builtIn := true, createdAt := time,
      createdBy := "system", updatedAt := time, updatedBy := "system" }
  { policies := put (·.id) policies policy
    history := history ++ [⟨policy.id, 1, .created, "system", time, policy⟩] }

/-- `new SigningPolicyRegistry(store, options)` up to `persist`, and whether it persists. -/
def construct (forgejoCompletionUrl time : String) (stored : SigningPolicyEnvelope) :
    Except String (Registry × Bool) := do
  let policies ← loadPolicies host [] stored.policies
  if policies.any (·.id = TOWER_FORGEJO_POLICY_ID) then
    pure ({ policies, history := stored.history }, false)
  else do
    let completionUrl ← orThrow "Invalid URL" (host.url forgejoCompletionUrl)
    let draft ← validateSigningPolicyDraft host (towerDraft completionUrl)
    pure (withTower policies stored.history draft time, true)

/-! ## operations one after the other -/

/-- What `store.save` does. -/
inductive SaveAnswer where
  | saved
  /-- it throws and nothing was written. -/
  | threwBefore
  /-- it throws after the new file is in its place. -/
  | threwAfter
  deriving DecidableEq, Repr

/-- The registry in memory and what is persisted. -/
structure World where
  memory : Registry
  stored : SigningPolicyEnvelope
  deriving DecidableEq, Repr

/-- what is persisted after `store.save`. -/
def World.persist (w : World) (memory : Registry) : SaveAnswer → SigningPolicyEnvelope
  | .threwBefore => w.stored
  | _ => memory.envelope host

/-- The operations that change the registry. -/
inductive Change where
  | create (draft : Except String SigningPolicyDraft) (actorNpub time : String)
  | update (id : String) (draft : Except String SigningPolicyDraft) (actorNpub time : String)
  | setEnabled (id : String) (enabled : Bool) (actorNpub time : String)
  | delete (id actorNpub time : String)

/-- what is in memory when the operation comes to `persist`; `none`: it does not come there. -/
def Change.planned (r : Registry) : Change → Except String (Option Registry)
  | .create draft actorNpub time => r.create host draft actorNpub time
  | .update id draft actorNpub time => r.update host id draft actorNpub time
  | .setEnabled id enabled actorNpub time => r.setEnabled id enabled actorNpub time
  | .delete id actorNpub time => r.delete id actorNpub time

inductive Operation where
  | change (change : Change)
  /-- a registry is made of what the store holds. -/
  | restore (forgejoCompletionUrl time : String)

/-- What an operation did. -/
structure Outcome where
  after : World
  /-- what `store.save` did, when it was called. -/
  save : Option SaveAnswer := none
  threw : Bool := false
  assigned : List (String × ℕ) := []

/-- The entries that a registry has beyond those it had. -/
def newlyAssigned (before after : Registry) : List (String × ℕ) :=
  (after.history.drop before.history.length).map (·.assigns)

/-- `persist` and what comes after it, once an operation has changed memory. -/
def World.change (w : World) (answer : SaveAnswer) : Except String (Option Registry) → Outcome
  | .error _ => { after := w, threw := true }
  | .ok none => { after := w }
  | .ok (some memory) =>
    { after := { memory, stored := w.persist host memory answer }
      save := some answer
      threw := decide (answer ≠ .saved)
      assigned := newlyAssigned w.memory memory }

/-- when `persist` throws in the constructor there is no new registry. -/
def World.restore (w : World) (answer : SaveAnswer) : Except String (Registry × Bool) → Outcome
  | .error _ => { after := w, threw := true }
  | .ok (memory, false) => { after := { w with memory } }
  | .ok (memory, true) =>
    { after := { memory := if answer = .saved then memory else w.memory
                 stored := w.persist host memory answer }
      save := some answer
      threw := decide (answer ≠ .saved)
      assigned := [(TOWER_FORGEJO_POLICY_ID, 1)] }

/-- One operation. -/
def step (w : World) (answer : SaveAnswer) : Operation → Outcome
  | .change change => w.change host answer (change.planned host w.memory)
  | .restore forgejoCompletionUrl time =>
    w.restore host answer (construct host forgejoCompletionUrl time w.stored)

/-- What each of the operations found and did. -/
def trace (w : World) : List (Operation × SaveAnswer) → List (World × Outcome)
  | [] => []
  | (operation, answer) :: rest =>
    let outcome := step host w answer operation
    (w, outcome) :: trace outcome.after rest

/-- The registry of an empty store, after its save. -/
def Begins (w : World) : Prop :=
  ∃ forgejoCompletionUrl time memory,
    construct host forgejoCompletionUrl time { policies := [], history := [] } = .ok (memory, true) ∧
      w = { memory, stored := memory.envelope host }

/-- An operation that throws leaves memory as it was, and as it is persisted. -/
def Atomic (turns : List (World × Outcome)) : Prop :=
  ∀ turn ∈ turns, turn.2.threw = true →
    turn.2.after.memory = turn.1.memory ∧ turn.2.after.stored = turn.2.after.memory.envelope host

/-- Each id is given greater and greater revisions. -/
def Increasing (assigned : List (String × ℕ)) : Prop :=
  assigned.Pairwise fun earlier later => earlier.1 = later.1 → earlier.2 < later.2

/-- The revisions that were ever assigned. -/
def everAssigned (w : World) (turns : List (World × Outcome)) : List (String × ℕ) :=
  w.memory.history.map (·.assigns) ++ turns.flatMap (·.2.assigned)

end

end Policies
end Signing
end WmAutopilot
