import WmAutopilot.Async.Triple
import WmAutopilot.Storage.PromptQueueStore

/-!
# The dispatch of queued prompts

`dispatchNextQueuedPromptForSession`, `maybeAutoDispatchQueuedPrompt` and what they call, as programs
over the operations `QueueOp`: the methods of the queue, the set `queueDispatchInFlight`, and the
calls of adapters and of the agent.

The server is one process: a crash ends all programs and leaves the tables.  Every operation lets
the other programs run first, except the hand-over of a prompt (`submitAdapterPrompt`,
`postMessage`), which follows the mark of the row without a break.

* `deliverSessionAgentMessage`   one delivery attempt and the certainty of its outcome;
* `dispatchQueuedPromptWithClaim`  claim, attempt, and what becomes of the claim;
* `World`, `Event`               the tables and the history of marks, hand-overs and releases;
* `perform`, `system`            what the operations do, and the programs that may run: dispatchers,
                                 operators and every other method of the queue.
-/

set_option autoImplicit false
set_option linter.unusedVariables false

namespace WmAutopilot
namespace PromptQueue
open Js Sql Async

/-! ## operations -/

/-- the session of a dispatch, as the dispatcher reads it. -/
structure SessionSnapshot where
  id : String
  role : Option String
  status : String
  agentRuntimeStatus : Option String
  /-- `resolveSessionChargeNpub(session.metadata, session.npub)` -/
  chargeNpub : Option String

/-- `failurePayload` and the payloads of the other dispatch errors. -/
inductive FailurePayload where
  | empty
  | approvalRequired
  | unresolved (promptId : String)
  | claimedPrompt (prompt : QueuedPrompt)
  | sentPrompt (prompt : QueuedPrompt)
  | failedPrompt (prompt : QueuedPrompt)

/-- what is thrown: errors of the queue, `QueueDispatchError`s, and the others. -/
inductive Thrown where
  | queue (error : QueueError)
  | dispatch (message : String) (status : ℕ) (payload : FailurePayload)
  | other (message : String)

def Thrown.message : Thrown → String
  | queue error => error.message
  | dispatch message _ _ => message
  | other message => message

/-- the readiness of a prompt target. -/
inductive Readiness where
  | ready
  | busy
  | starting
  | other
  deriving DecidableEq, Repr

/-- an HTTP response of the agent; `error` is what `parseErrorMessage` reads. -/
structure Response where
  status : ℕ
  error : String

/-- `response.ok` -/
def Response.ok (r : Response) : Bool := 200 ≤ r.status && r.status ≤ 299

/-- the methods of the queue that dispatchers do not call. -/
inductive StoreCall where
  | addPrompt (sessionId : String) (input : QueuedPromptInput)
  | updatePromptContent (sessionId promptId content : String)
  | deletePromptById (sessionId promptId : String)
  | removeNextPrompt (sessionId : String)
  | clearSessionQueue (sessionId : String)
  | supersedeDedicatedPending (sessionId bindingId : String)
  | captureFreshHumanCutoff (sessionId : String)
  | retireForFreshHumanTrigger (sessionId triggerId : String)
      (snapshot : Option (List (String × ℕ)))
  | rebindSession (sourceSessionId targetSessionId : String)
  | deletePromptsByType (type : String)
  | acknowledgePrompt (sessionId id revision actor reason : String)
  | pruneHistory (sessionId : String)

/-- the database after the method; `id` is a fresh UUID. -/
def StoreCall.run (db : PromptQueueStore) (id : String) (now : ℕ) : StoreCall → PromptQueueStore
  | addPrompt sessionId input => (db.addPrompt sessionId input id now).2
  | updatePromptContent sessionId promptId content =>
    (db.updatePromptContent sessionId promptId content).2
  | deletePromptById sessionId promptId => (db.deletePromptById sessionId promptId now).2
  | removeNextPrompt sessionId => (db.removeNextPrompt sessionId now).2
  | clearSessionQueue sessionId => db.clearSessionQueue sessionId
  | supersedeDedicatedPending sessionId bindingId =>
    (db.supersedeDedicatedPending sessionId bindingId now).2
  | captureFreshHumanCutoff sessionId => (db.captureFreshHumanCutoff sessionId now).2
  | retireForFreshHumanTrigger sessionId triggerId snapshot =>
    db.retireForFreshHumanTrigger sessionId triggerId snapshot now
  | rebindSession source target => (db.rebindSession source target).2
  | deletePromptsByType type => (db.deletePromptsByType type now).2
  | acknowledgePrompt sessionId id revision actor reason =>
    (db.acknowledgePrompt sessionId id revision actor reason now).2
  | pruneHistory sessionId => db.pruneHistory sessionId now

/-- the operations of dispatchers and operators.  The hand-overs carry the row whose content they
hand over. -/
inductive QueueOp where
  | call (c : StoreCall)
  | claimNextPrompt (sessionId : String)
  | getNextQueuedPrompt (sessionId : String)
  | getSessionQueue (sessionId : String)
  | getQueueCount (sessionId : String)
  | markClaimSending (sessionId id token : String)
  | recordClaimAcceptance (sessionId id token : String)
  | completeClaim (sessionId id token : String)
  | releaseRejectedClaim (sessionId id token : String) (certainty : DeliveryState)
  | reconcileClaim (sessionId id revision token resolution actor reason : String)
  | submitAdapterPrompt (id content : String)
  | postMessage (id content : String)
  | inFlightHas (sessionId : String)
  | inFlightAdd (sessionId : String)
  | inFlightDelete (sessionId : String)
  | setAcceptanceObserved (token : String)
  | acceptanceObserved (token : String)
  | isDraining
  | isUserApprovedForWork (userNpub : String)
  | ensureSessionReady (sessionId : String)
  | sessionPromptReadiness (sessionId : String)
  | coolingDown (sessionId : String)
  | assertPromptExecutionAllowed
  | getAdapter (sessionId : String)
  | adapterReadiness (sessionId : String)
  | waitForReady (sessionId : String)
  | buildAgentUrl (sessionId : String)
  | waitForMessageUpdate (sessionId : String)

/-- answers; an operation that may throw answers with an `Except`.  `getAdapter` answers whether
there is an adapter, and whether it delivers prompts directly. -/
def QueueOp.Ans : QueueOp → Type
  | call _ | releaseRejectedClaim _ _ _ _ | inFlightAdd _ | inFlightDelete _
  | setAcceptanceObserved _ => Unit
  | claimNextPrompt _ | getNextQueuedPrompt _ => Option QueuedPrompt
  | getSessionQueue _ => List QueuedPrompt
  | getQueueCount _ => ℕ
  | markClaimSending _ _ _ | recordClaimAcceptance _ _ _ | completeClaim _ _ _
  | submitAdapterPrompt _ _ | ensureSessionReady _ | assertPromptExecutionAllowed
  | waitForReady _ | buildAgentUrl _ => Except Thrown Unit
  | reconcileClaim _ _ _ _ _ _ _ => Except Thrown QueuedPrompt
  | postMessage _ _ => Except Thrown Response
  | inFlightHas _ | acceptanceObserved _ | isDraining | isUserApprovedForWork _
  | coolingDown _ => Bool
  | sessionPromptReadiness _ => Except Thrown Readiness
  | getAdapter _ => Option Bool
  | adapterReadiness _ => Except Thrown (Option Readiness)
  | waitForMessageUpdate _ => Except Thrown (List Value)

/-- the prompt is handed over in the section in which its row was marked. -/
def QueueOp.yields : QueueOp → Bool
  | submitAdapterPrompt _ _ | postMessage _ _ => false
  | _ => true

def api : Api := ⟨QueueOp, QueueOp.Ans, QueueOp.yields⟩

/-- programs of the server. -/
abbrev Dispatch (α : Type) := Exc api Thrown α

/-- an operation that cannot throw. -/
def op (o : QueueOp) : Dispatch (api.Ans o) := Exc.op (A := api) o

/-- an operation that may throw. -/
def tryOp {α : Type} (o : QueueOp) (h : o.Ans = Except Thrown α := by rfl) : Dispatch α :=
  Exc.tryOp (A := api) o h

/-! ## one delivery attempt -/

/-- `SessionAgentMessageResult` -/
structure Delivery where
  ok : Bool
  status : ℕ
  message : String
  certainty : DeliveryState

/-- the claimed row that is delivered, and the session it was claimed in. -/
structure ClaimedPrompt where
  sessionId : String
  prompt : QueuedPrompt
  token : String

/-- `message.toLowerCase().includes("still processing a prompt")` -/
def stillProcessing (message : String) : Bool :=
  includes (toLowerCase message) "still processing a prompt"

/-- the catch clause of a direct delivery; `sending`: the row was marked. -/
def directFailure (sending : Bool) (message : String) : Delivery :=
  if stillProcessing message then
    ⟨false, 409, "Agent working", if sending then .uncertain else .rejected⟩
  else
    ⟨false, 502, "Failed to contact agent: " ++ message, if sending then .uncertain else .unsent⟩

/-- `input.onSending`: the durable mark before the hand-over. -/
def onSending (c : ClaimedPrompt) : Dispatch Unit :=
  tryOp (.markClaimSending c.sessionId c.prompt.id c.token)

/-- the hand-over to an adapter, and its outcome. -/
def submitToAdapter (c : ClaimedPrompt) : Dispatch Delivery :=
  tryCatch
    (do
      let _ ← tryOp (.submitAdapterPrompt c.prompt.id c.prompt.content)
      return ⟨true, 200, "", .accepted⟩)
    (fun error => return directFailure true error.message)

/-- a native adapter receives the prompt itself. -/
def deliverDirectly (c : ClaimedPrompt) : Dispatch Delivery :=
  tryCatch
    (do
      let readiness : Option Readiness ← tryOp (.adapterReadiness c.sessionId)
      if readiness = some .busy ∨ readiness = some .starting then
        return ⟨false, 409, "Agent working", .rejected⟩
      let _ ← tryOp (.waitForReady c.sessionId)
      let _ ← onSending c
      submitToAdapter c)
    (fun error => return directFailure false error.message)

/-- the certainty of an HTTP error: only explicit client rejection proves nonacceptance. -/
def responseCertainty (response : Response) : DeliveryState :=
  if 400 ≤ response.status ∧ response.status < 500 ∧ response.status ≠ 408 then .rejected
  else .uncertain

/-- the hand-over by HTTP, and its outcome. -/
def postToAgent (c : ClaimedPrompt) : Dispatch Delivery :=
  tryCatch
    (do
      let response : Response ← tryOp (.postMessage c.prompt.id c.prompt.content)
      if response.ok then return ⟨true, response.status, "", .accepted⟩
      else return ⟨false, response.status, response.error, responseCertainty response⟩)
    (fun error => return ⟨false, 502, error.message, .uncertain⟩)

def submitOnce (c : ClaimedPrompt) : Dispatch Delivery :=
  tryCatch
    (do
      -- URL construction failures occur before the durable send boundary.
      let _ ← tryOp (.buildAgentUrl c.sessionId)
      let _ ← onSending c
      postToAgent c)
    (fun error => return ⟨false, 502, error.message, .unsent⟩)

/-- the agent behind an adapter is waited for. -/
def submitWhenReady (c : ClaimedPrompt) : Dispatch Delivery := do
  let waited : Option String ← tryCatch
    (do
      let _ ← tryOp (.waitForReady c.sessionId)
      return none)
    (fun error => return some error.message)
  match waited with
  | some message => return ⟨false, 502, "Failed to contact agent: " ++ message, .unsent⟩
  | none => submitOnce c

def deliverSessionAgentMessage (c : ClaimedPrompt) : Dispatch Delivery := do
  let adapter : Option Bool ← op (.getAdapter c.sessionId)
  match adapter with
  | some true => deliverDirectly c
  | some false => submitWhenReady c
  | none => submitOnce c

/-! ## dispatch -/

/-- a claim whose attempt proves nonacceptance is released. -/
def onRejected (c : ClaimedPrompt) (certainty : DeliveryState) : Dispatch Unit :=
  if certainty = .unsent ∨ certainty = .rejected then
    op (.releaseRejectedClaim c.sessionId c.prompt.id c.token certainty)
  else pure ()

def onAccepted (c : ClaimedPrompt) : Dispatch Unit := do
  let _ ← op (.setAcceptanceObserved c.token)
  let _ ← tryOp (.recordClaimAcceptance c.sessionId c.prompt.id c.token)
  tryOp (.completeClaim c.sessionId c.prompt.id c.token)

def deliverAcceptedPrompt (c : ClaimedPrompt) : Dispatch (List Value) := do
  let _ ← tryOp .assertPromptExecutionAllowed
  let result ← deliverSessionAgentMessage c
  if result.ok = false then
    let _ ← onRejected c result.certainty
    throw (.dispatch result.message result.status .empty)
  let _ ← onAccepted c
  tryOp (.waitForMessageUpdate c.sessionId)

/-- the payload of a failed dispatch; `current` is the row as it is now. -/
def failurePayload (c : ClaimedPrompt) (current : Option QueuedPrompt) (acceptanceObserved : Bool) :
    FailurePayload :=
  match current with
  | some r =>
    if r.state = .claimed ∧ r.deliveryState ≠ some .unsent then .claimedPrompt r
    else if acceptanceObserved then .sentPrompt c.prompt else .failedPrompt c.prompt
  | none => if acceptanceObserved then .sentPrompt c.prompt else .failedPrompt c.prompt

/-- the error with the payload of the failed dispatch. -/
def dispatchFailure (payload : FailurePayload) : Thrown → Thrown
  | .dispatch message status .empty => .dispatch message status payload
  | .dispatch message status own => .dispatch message status own
  | error => .dispatch ("Failed to contact agent: " ++ error.message) 502 payload

/-- a claim that was never marked is released; `current` is the row as it is now. -/
def releaseUnmarked (c : ClaimedPrompt) (current : Option QueuedPrompt) : Dispatch Unit :=
  if ∃ r ∈ current, r.state = .claimed ∧ r.deliveryState = some .unsent then
    op (.releaseRejectedClaim c.sessionId c.prompt.id c.token .unsent)
  else pure ()

/-- the catch clause of a dispatch. -/
def onDispatchError {α : Type} (c : ClaimedPrompt) (error : Thrown) : Dispatch α := do
  let queue : List QueuedPrompt ← op (.getSessionQueue c.sessionId)
  let current := queue.find? fun r => r.id = c.prompt.id
  let _ ← releaseUnmarked c current
  let acceptanceObserved : Bool ← op (.acceptanceObserved c.token)
  throw (dispatchFailure (failurePayload c current acceptanceObserved) error)

/-- the attempt on a row that has just been claimed. -/
def dispatchClaimed (session : SessionSnapshot) (prompt : QueuedPrompt) :
    Dispatch (QueuedPrompt × List Value) := do
  let c : ClaimedPrompt := ⟨session.id, prompt, prompt.claimToken.getD ""⟩
  let messages ← tryCatch (deliverAcceptedPrompt c) (onDispatchError c)
  return (prompt, messages)

def dispatchQueuedPromptWithClaim (session : SessionSnapshot) (userNpub : Option String) :
    Dispatch (QueuedPrompt × List Value) := do
  if session.role = some "completed-turn" then
    throw (.dispatch "Dedicated builders accept only managed completed turns" 409 .empty)
  match userNpub with
  | none => throw (.dispatch "Sign in to send messages" 403 .empty)
  | some npub =>
    let approved : Bool ← op (.isUserApprovedForWork npub)
    if approved = false then
      throw (.dispatch "User is not approved to use Wingman" 403 .approvalRequired)
    let _ ← tryCatch (tryOp (.ensureSessionReady session.id)) fun error => throw
      (.dispatch ("Session is not ready for prompt dispatch: " ++ error.message) 503 .empty)
    let nextPrompt : Option QueuedPrompt ← op (.claimNextPrompt session.id)
    match nextPrompt with
    | some prompt => dispatchClaimed session prompt
    | none =>
      let head : Option QueuedPrompt ← op (.getNextQueuedPrompt session.id)
      match head with
      | some r =>
        if r.state = .claimed then
          throw (.dispatch ("Queued prompt has an unresolved dispatch claim; inspect delivery " ++
            "before operator recovery") 409 (.unresolved r.id))
        else throw (.dispatch "No prompts in queue" 404 .empty)
      | none => throw (.dispatch "No prompts in queue" 404 .empty)

def dispatchNextQueuedPromptForSession (session : SessionSnapshot) (userNpub : Option String) :
    Dispatch (QueuedPrompt × List Value) := do
  let inFlight : Bool ← op (.inFlightHas session.id)
  if inFlight = true then
    throw (.dispatch "A queued delivery is already in progress" 409 .empty)
  let _ ← op (.inFlightAdd session.id)
  Exc.andFinally (dispatchQueuedPromptWithClaim session userNpub) (op (.inFlightDelete session.id))

/-- the automatic dispatch of queued prompts; wakes of the dispatch inbox do not touch the queue. -/
def maybeAutoDispatchQueuedPrompt (session : SessionSnapshot) : Dispatch Unit := do
  let draining : Bool ← op .isDraining
  if draining = true then return ()
  let inFlight : Bool ← op (.inFlightHas session.id)
  if inFlight = true then return ()
  if session.status ≠ "running" ∨ session.role = some "completed-turn" then return ()
  let queuedPromptCount : ℕ ← op (.getQueueCount session.id)
  if queuedPromptCount = 0 ∨ session.chargeNpub.isNone then return ()
  let coolingDown : Bool ← op (.coolingDown session.id)
  if coolingDown = true then return ()
  let _ ← op (.inFlightAdd session.id)
  let attempt : Dispatch Unit := tryCatch
    (do
      let readiness : Readiness ← tryOp (.sessionPromptReadiness session.id)
      if readiness ≠ .ready then return ()
      let _ ← dispatchQueuedPromptWithClaim session session.chargeNpub
      return ())
    -- the error only starts a cooldown and is logged
    (fun _ => return ())
  Exc.andFinally attempt (op (.inFlightDelete session.id))

/-- the route by which an operator reconciles a claim: refused while a delivery is in flight, before
and after the request is read. -/
def reconcile (sessionId id revision token resolution actor reason : String) : Dispatch Unit := do
  let inFlight : Bool ← op (.inFlightHas sessionId)
  if inFlight = true then return ()
  let inFlight : Bool ← op (.inFlightHas sessionId)
  if inFlight = true then return ()
  let _ ← tryOp (.reconcileClaim sessionId id revision token resolution actor reason)
  return ()

/-! ## the world -/

/-- what happened to a row: it was marked as being sent under a token, its content was handed to the
agent, its acceptance was recorded (by the dispatcher or by an operator), it was released after a
definite rejection, or an operator reconciled it with `retry`. -/
inductive Event where
  | marked (id token : String)
  | handed (id : String)
  | accepted (id : String)
  | rejected (id : String)
  | retried (id : String)
  deriving DecidableEq

/-- The tables, the memory of the process, and the history of the run: the UUIDs drawn, the thread
that drew each claim token, and the events, latest first. -/
structure World where
  queue : PromptQueueStore := {}
  inFlight : List String := []
  acceptances : List String := []
  uuids : List String := []
  tokens : List (String × ℕ) := []
  log : List Event := []

/-- a method under a claim that may throw: the event is logged when it does not. -/
def World.Claim (w : World) (x : Except QueueError Unit × PromptQueueStore) (e : Event)
    (r : Except Thrown Unit) (w' : World) : Prop :=
  r = x.1.mapError .queue ∧ w' = { w with queue := x.2
                                          log := match x.1 with
                                            | .ok () => e :: w.log
                                            | .error _ => w.log }

/-- What an operation of thread `κ` does: world before, answer, world after. -/
def perform (κ : ℕ) : (o : QueueOp) → World → o.Ans → World → Prop
  | .call c, w, _, w' => ∃ id now, id ∉ w.uuids ∧
      w' = { w with uuids := id :: w.uuids, queue := c.run w.queue id now }
  | .claimNextPrompt sessionId, w, r, w' => ∃ token now, token ∉ w.uuids ∧
      let x := w.queue.claimNextPrompt sessionId token now
      r = x.1 ∧ w' = { w with queue := x.2, uuids := token :: w.uuids
                              tokens := (token, κ) :: w.tokens }
  | .getNextQueuedPrompt sessionId, w, r, w' => r = w.queue.getNextQueuedPrompt sessionId ∧ w' = w
  | .getSessionQueue sessionId, w, r, w' => ∃ now, let x := w.queue.getSessionQueue sessionId now
      r = x.1 ∧ w' = { w with queue := x.2 }
  | .getQueueCount sessionId, w, r, w' => r = w.queue.getQueueCount sessionId ∧ w' = w
  | .markClaimSending sessionId id token, w, r, w' => ∃ now,
      w.Claim (w.queue.markClaimSending sessionId id token now) (.marked id token) r w'
  | .recordClaimAcceptance sessionId id token, w, r, w' => ∃ now,
      w.Claim (w.queue.recordClaimAcceptance sessionId id token now) (.accepted id) r w'
  | .completeClaim sessionId id token, w, r, w' => ∃ now,
      w.Claim (w.queue.completeClaim sessionId id token now) (.accepted id) r w'
  | .releaseRejectedClaim sessionId id token certainty, w, _, w' =>
      w' = { w with
        queue := w.queue.releaseRejectedClaim sessionId id token certainty
        log := if certainty = .rejected ∧
            changes (PromptQueueStore.ClaimedBy sessionId id token) w.queue.prompts ≠ 0
          then .rejected id :: w.log else w.log }
  | .reconcileClaim sessionId id revision token resolution actor reason, w, r, w' => ∃ now,
      let x := w.queue.reconcileClaim sessionId id revision token resolution actor reason now
      r = x.1.mapError .queue ∧ w' = { w with
        queue := x.2
        log := match x.1 with
          | .ok _ => (if resolution = "retry" then .retried id else .accepted id) :: w.log
          | .error _ => w.log }
  | .submitAdapterPrompt id _, w, _, w' | .postMessage id _, w, _, w' =>
      w' = { w with log := .handed id :: w.log }
  | .inFlightHas sessionId, w, r, w' => r = decide (sessionId ∈ w.inFlight) ∧ w' = w
  | .inFlightAdd sessionId, w, _, w' => w' = { w with inFlight := sessionId :: w.inFlight }
  | .inFlightDelete sessionId, w, _, w' =>
      w' = { w with inFlight := w.inFlight.filter (· ≠ sessionId) }
  | .setAcceptanceObserved token, w, _, w' => w' = { w with acceptances := token :: w.acceptances }
  | .acceptanceObserved token, w, r, w' => r = decide (token ∈ w.acceptances) ∧ w' = w
  | .isDraining, w, _, w' | .isUserApprovedForWork _, w, _, w' | .ensureSessionReady _, w, _, w'
  | .sessionPromptReadiness _, w, _, w' | .coolingDown _, w, _, w'
  | .assertPromptExecutionAllowed, w, _, w' | .getAdapter _, w, _, w'
  | .adapterReadiness _, w, _, w' | .waitForReady _, w, _, w' | .buildAgentUrl _, w, _, w'
  | .waitForMessageUpdate _, w, _, w' => w' = w

/-- the programs of the server. -/
inductive Spawn : Prog api Unit → Prop where
  | dispatch (session : SessionSnapshot) (userNpub : Option String) :
      Spawn (dispatchNextQueuedPromptForSession session userNpub).detach
  | autoDispatch (session : SessionSnapshot) :
      Spawn (maybeAutoDispatchQueuedPrompt session).detach
  | reconcile (sessionId id revision token resolution actor reason : String) :
      Spawn (reconcile sessionId id revision token resolution actor reason).detach
  | call (c : StoreCall) : Spawn (op (.call c)).detach

/-- the server over its database.  A restart prunes the history of any sessions, which is a
`pruneHistory` call of its own. -/
def system : System api World where
  perform := perform
  spawn _ _ p := Spawn p
  crash w w' := w' = { w with inFlight := [], acceptances := [] }

/-- an empty queue and no history. -/
def World.Initial (w : World) : Prop := w = {}

end PromptQueue
end WmAutopilot
