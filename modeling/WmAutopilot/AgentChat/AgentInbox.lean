import Mathlib.Data.Int.Notation
import Mathlib.Logic.Function.Basic
import WmAutopilot.Async.Triple
import WmAutopilot.Js.Throw

/-!
# The strict inbox

A poll lists a page of notifications of a subscription at its cursor, handles each of them and moves
the cursor past the page.  What was handled is recorded in a ledger before it is acknowledged.

* `Envelope`, `LedgerRow`, `AgentInboxState`   a notification; what is stored;
* `InboxOp`                    the operations on the stores, on Tower and on the handlers;
* `finish`, `handle`, `pollOnce`   the programs of `AgentInboxProcessor`;
* `liveInboxOrigin`            whether a session may still act for a notification;
* `World`, `perform`           the stores and the attempts of this process;
* `system`, `restricted`       the polls of any number of loops.
-/

set_option autoImplicit false
set_option linter.unusedVariables false

namespace WmAutopilot
namespace AgentInbox
open Js Value Async

/-! ## notifications -/

structure Source where
  type : String
  id : String
  channelId : Option String
  threadId : Option String
  taskId : Option String
  docId : Option String
  deriving DecidableEq, Repr

/-- `AgentInboxEnvelope`; a text that is missing is `none`. -/
structure Envelope where
  id : String
  seq : ℕ
  state : String
  kind : Option String := none
  reason : Option String := none
  originNotificationId : Option String := none
  occurredAt : Option String := none
  source : Option Source := none
  deriving DecidableEq, Repr

/-- `AgentInboxErrorClass` -/
inductive ErrorClass where
  | auth | cursor | gap | sourceGone | relationship | notFound | transient | unsupported | malformed
  deriving DecidableEq, Repr

structure AgentInboxError where
  status : ℕ
  code : String
  errorClass : ErrorClass
  message : String
  /-- `details.recovery_cursor`, when it is a text. -/
  recoveryCursor : Option String := none
  deriving DecidableEq, Repr

/-- what a client or a handler throws. -/
inductive Failure where
  | inbox (error : AgentInboxError)
  /-- `AgentInboxUnboundReadError` -/
  | unbound (message : String)
  | other (status : ℕ) (detailCode : Option String) (message : String)
  deriving DecidableEq, Repr

/-- `error instanceof AgentInboxError && error.errorClass === c` -/
def Failure.isClass (c : ErrorClass) : Failure → Bool
  | inbox error => error.errorClass = c
  | _ => false

/-- `Number(error?.status ?? 0)` -/
def Failure.status : Failure → ℕ
  | inbox error => error.status
  | unbound _ => 403
  | other status _ _ => status

/-- `error?.detailCode ?? "write_refused"` -/
def Failure.refusalCode : Failure → String
  | inbox _ => "write_refused"
  | unbound _ => "agent_inbox_context_unbound"
  | other _ detailCode _ => detailCode.getD "write_refused"

inductive AckOutcome where
  | handled | suppressed | sourceGone | failedPermanent
  deriving DecidableEq, Repr

/-- what is read of `AgentInboxContext`: the task of its trigger. -/
structure Context where
  task : Value := undefined

/-- what is read of a synthesized event. -/
structure FlightDeckPgEvent where
  eventId : String
  eventType : String
  entityType : String
  entityId : Option String
  operation : String
  deriving DecidableEq, Repr

def FLOW_KEYS : List String :=
  ["flow_id", "flow_run_id", "flow_step", "flowId", "flowRunId", "flowStep", "flow"]

/-- the keys of flows that are present. -/
def flowMarkersOf (source : Value) (keyPrefix : String) : List String :=
  (FLOW_KEYS.filter fun key =>
    ¬(source.get key).nullish ∧ source.get key ≠ str "").map (keyPrefix ++ ·)

/-- `[]` is `null`. -/
def flowLinkedTaskMarkers (context : Context) : List String :=
  if ¬context.task.isObject then []
  else flowMarkersOf context.task "" ++
    flowMarkersOf (context.task.get "metadata").getObject "metadata."

def synthesizeInboxEvents (n : Envelope) (source : Source) : List FlightDeckPgEvent :=
  let event (eventType entityType : String) (entityId : Option String) (operation : String) :=
    { eventId := n.id, eventType, entityType, entityId, operation : FlightDeckPgEvent }
  let invocation := event "flightdeck_pg.invocation.created" "invocation" (some source.id) "created"
  match n.kind with
  | some "chat_mention" | some "direct_message" | some "agent_direct_recipient" =>
    [event "flightdeck_pg.message.created" "message" (some source.id) "created"]
  | some "task_assigned" =>
    [event "flightdeck_pg.task_assignment.assigned" "task_assignment" source.taskId "assigned"]
  | some "task_mention" => [event "flightdeck_pg.task.created" "task" source.taskId "created"]
  | some "task_comment_mention" =>
    [event "flightdeck_pg.task_comment.created" "task_comment" (some source.id) "created"]
  | some "document_mention" =>
    [event "flightdeck_pg.document_mention_added" "doc" source.docId "updated"]
  | some "document_comment_mention" =>
    [event "flightdeck_pg.document_comment_mention_added" "doc_comment" (some source.id) "created"]
  | some "invocation" => [invocation]
  | some "document_review" =>
    [invocation, { event "flightdeck_pg.full_document_review_requested" "doc" source.docId "updated"
      with eventId := n.id ++ ":review" }]
  | _ => []

/-! ## what is stored -/

inductive AgentInboxMode where
  | legacy
  | inboxRequired
  deriving DecidableEq, Repr

/-- a row of `agent_inbox_state`. -/
structure AgentInboxState where
  mode : AgentInboxMode
  consumerId : Option String := none
  towerSubscriptionId : Option String := none
  cursor : Option String := none
  floorAt : Option String := none
  lastErrorCode : Option String := none
  lastErrorClass : Option ErrorClass := none
  deriving DecidableEq, Repr

/-- the columns that `update` sets. -/
structure Patch where
  towerSubscriptionId : Option (Option String) := none
  cursor : Option (Option String) := none
  floorAt : Option (Option String) := none
  lastErrorCode : Option (Option String) := none
  lastErrorClass : Option (Option ErrorClass) := none

def Patch.apply (patch : Patch) (state : AgentInboxState) : AgentInboxState :=
  { state with
    towerSubscriptionId := patch.towerSubscriptionId.getD state.towerSubscriptionId
    cursor := patch.cursor.getD state.cursor
    floorAt := patch.floorAt.getD state.floorAt
    lastErrorCode := patch.lastErrorCode.getD state.lastErrorCode
    lastErrorClass := patch.lastErrorClass.getD state.lastErrorClass }

/-- a row of `agent_inbox_ledger`. -/
structure LedgerRow where
  seq : ℕ
  attempts : ℕ := 0
  outcome : Option AckOutcome := none
  code : Option String := none
  startedAt : Option String := none
  handledAt : Option String := none
  ackedAt : Option String := none
  /-- `envelope_json` -/
  envelope : Option Envelope := none
  deriving DecidableEq, Repr

/-- `AgentInboxSubscription` -/
structure Created where
  subscriptionId : String
  cursor : String
  floorAt : String
  deriving DecidableEq, Repr

/-- `AgentInboxPage` -/
structure Page where
  notifications : List Envelope
  nextCursor : String
  hasMore : Bool
  deriving DecidableEq, Repr

/-- where the cursor of an update comes from, for the statements only. -/
inductive CursorSource where
  /-- no cursor is set. -/
  | none
  | created (subscription : Created)
  | recovery (error : AgentInboxError)
  | reset
  | page (page : Page)

/-! ## operations -/

/-- An operation that takes an envelope uses its id and its number only, but for `beginAttempt`. -/
inductive InboxOp where
  | get (subscriptionId : String)
  | update (subscriptionId : String) (patch : Patch) (source : CursorSource)
  | setMode (subscriptionId : String) (mode : AgentInboxMode) (consumerId : String)
  | ledger (subscriptionId : String) (n : Envelope)
  | beginAttempt (subscriptionId : String) (n : Envelope)
  | markHandled (subscriptionId : String) (n : Envelope) (outcome : AckOutcome)
      (code : Option String)
  | markAcked (subscriptionId : String) (n : Envelope)
  | beginActive (subscriptionId : String) (n : Envelope)
  | endActive (subscriptionId : String) (n : Envelope)
  | createSubscription (consumerId : String)
  | list (cursor : String)
  | context (subscriptionId : String) (n : Envelope)
  | ack (subscriptionId : String) (n : Envelope) (outcome : AckOutcome) (code : Option String)
  | reconcile (subscriptionId : String) (n : Envelope) (since : String)
  /-- `dispatch` is called, … -/
  | dispatch (subscriptionId : String) (n : Envelope) (event : FlightDeckPgEvent)
  /-- … and it settles. -/
  | settle (subscriptionId : String) (n : Envelope) (event : FlightDeckPgEvent)

/-- the answer of an operation. -/
abbrev InboxOp.Ans : InboxOp → Type
  | get _ | update .. => Option AgentInboxState
  | setMode .. | markHandled .. | markAcked .. | beginActive .. | endActive .. | dispatch .. => Unit
  | ledger .. => Option LedgerRow
  | beginAttempt .. => LedgerRow
  | createSubscription _ => Except Failure Created
  | list _ => Except Failure Page
  | context .. => Except Failure Context
  | ack .. | settle .. => Except Failure Unit
  | reconcile .. => Except Failure Bool

/-- what is awaited, and what a program begins with. -/
def InboxOp.yields : InboxOp → Bool
  | get _ | createSubscription _ | list _ | context .. | ack .. | reconcile .. | settle ..
  | setMode .. => true
  | _ => false

abbrev api : Api := ⟨InboxOp, InboxOp.Ans, InboxOp.yields⟩

abbrev Task := Exc api Failure

def op (o : InboxOp) : Task o.Ans := Exc.op (A := api) o

/-- What the programs use of their surroundings. -/
structure Host where
  maxAttempts : ℕ
  /-- `deps.reconcile` is given. -/
  reconciles : Bool
  /-- `Date.parse(value)`; `none` is `NaN`. -/
  dateParse : String → Option ℤ

/-- a text that is not empty. -/
def truthyText (text : Option String) : Bool := text.any (· ≠ "")

/-! ## handling a notification -/

inductive HandleResult where
  | done
  | retry
  | halt
  deriving DecidableEq, Repr

/-- A result with `this.lastError`. -/
abbrev Handled := HandleResult × Option Failure

/-- the outcome is recorded, and then acknowledged; `deps.record` keeps a history that is not read. -/
def finish (sub : String) (n : Envelope) (outcome : AckOutcome) (code : Option String)
    (lastError : Option Failure) : Task Handled := do
  op (.markHandled sub n outcome code)
  match ← op (.ack sub n outcome code) with
  | .ok _ => do
    op (.markAcked sub n)
    pure (.done, lastError)
  | .error error =>
    if error.isClass .notFound then do
      op (.markAcked sub n)
      pure (.done, some error)
    else pure (if error.isClass .auth then .halt else .retry, some error)

/-- what follows when the context is refused. -/
def contextRefused (sub : String) (n : Envelope) (error : Failure) : Task Handled :=
  match error with
  | .inbox e =>
    match e.errorClass with
    | .sourceGone => finish sub n .sourceGone (some "source_gone") (some error)
    | .relationship => finish sub n .suppressed (some e.code) (some error)
    | .notFound => do
      op (.markHandled sub n .suppressed (some "not_found"))
      op (.markAcked sub n)
      pure (.done, some error)
    | .auth => pure (.halt, some error)
    | _ => pure (.retry, some error)
  | _ => pure (.retry, some error)

/-- what follows when a dispatch is refused. -/
def dispatchRefused (sub : String) (n : Envelope) (error : Failure) : Task Handled :=
  match error with
  | .unbound _ => finish sub n .failedPermanent (some "context_unbound") (some error)
  | _ =>
    if error.status = 401 then pure (.halt, some error)
    else if error.status = 403 then
      finish sub n .failedPermanent (some error.refusalCode) (some error)
    else pure (.retry, some error)

/-- the events, one after the other. -/
def dispatchEach (sub : String) (n : Envelope) :
    List FlightDeckPgEvent → Task (Except Failure Unit)
  | [] => pure (.ok ())
  | event :: events => do
    op (.dispatch sub n event)
    match ← op (.settle sub n event) with
    | .ok _ => dispatchEach sub n events
    | .error error => pure (.error error)

/-- the events are dispatched as an active attempt. -/
def dispatchEvents (sub : String) (n : Envelope) (events : List FlightDeckPgEvent)
    (lastError : Option Failure) : Task Handled := do
  op (.beginActive sub n)
  let result ← dispatchEach sub n events
  op (.endActive sub n)
  match result with
  | .ok _ => finish sub n .handled none lastError
  | .error error => dispatchRefused sub n error

/-- what follows when the context is there. -/
def handleContext (sub : String) (n : Envelope) (source : Source) (context : Context)
    (lastError : Option Failure) : Task Handled :=
  if flowLinkedTaskMarkers context ≠ [] then
    finish sub n .failedPermanent (some "agent_inbox_flow_unsupported") lastError
  else match synthesizeInboxEvents n source with
    | [] => finish sub n .suppressed (some "unsupported_kind") lastError
    | events => dispatchEvents sub n events lastError

/-- an attempt, which is counted before it begins. -/
def attemptHandling (host : Host) (sub : String) (n : Envelope) (source : Source)
    (lastError : Option Failure) : Task Handled := do
  let attempt ← op (.beginAttempt sub n)
  if attempt.attempts > host.maxAttempts then
    finish sub n .failedPermanent (some "max_attempts") lastError
  else do
    match ← op (.context sub n) with
    | .ok context => handleContext sub n source context lastError
    | .error error => contextRefused sub n error

/-- an attempt that started and recorded no outcome. -/
def reconciled (host : Host) (sub : String) (n : Envelope) (ledger : Option LedgerRow) :
    Task Bool :=
  match (ledger.filter (·.handledAt.isNone)).bind (·.startedAt) with
  | some since =>
    if host.reconciles then Exc.tryOp (A := api) (.reconcile sub n since) rfl else pure false
  | none => pure false

/-- the outcome that is recorded. -/
def recordedOutcome (ledger : Option LedgerRow) : Option (AckOutcome × Option String) := do
  let row ← ledger
  let _ ← row.handledAt
  let outcome ← row.outcome
  some (outcome, row.code)

/-- a notification that is not handled yet. -/
def handleNew (host : Host) (sub : String) (n : Envelope) (ledger : Option LedgerRow)
    (lastError : Option Failure) : Task Handled :=
  if n.state = "revoked" then finish sub n .suppressed (some "revoked") lastError
  else match n.source, truthyText n.kind with
    | some source, true => do
      if ← reconciled host sub n ledger then
        finish sub n .handled (some "reconciled_in_flight") lastError
      else attemptHandling host sub n source lastError
    | _, _ => finish sub n .failedPermanent (some "malformed_envelope") lastError

def handle (host : Host) (sub : String) (n : Envelope) (lastError : Option Failure) :
    Task Handled := do
  let ledger ← op (.ledger sub n)
  if (ledger.bind (·.ackedAt)).isSome then pure (.done, lastError)
  else match recordedOutcome ledger with
    -- acknowledged only, and not executed again
    | some (outcome, code) => finish sub n outcome code lastError
    | none => handleNew host sub n ledger lastError

/-! ## a poll -/

inductive InboxPollResult where
  | idle
  | more
  | backoff (code : String)
  | halt (code : String)
  | unsupported
  deriving DecidableEq, Repr

/-- a result with `this.lastError`. -/
abbrev Polled := InboxPollResult × Option Failure

/-- `error instanceof AgentInboxError ? error : new AgentInboxError(0, "internal_error", …)` -/
def asInboxError : Failure → AgentInboxError
  | .inbox error => error
  | .unbound message | .other _ _ message =>
    { status := 0, code := "internal_error", errorClass := .transient, message }

def fail (sub : String) (error : Failure) : Task InboxPollResult := do
  let e := asInboxError error
  let _ ← op (.update sub
    { lastErrorCode := some (some e.code), lastErrorClass := some (some e.errorClass) } .none)
  pure (match e.errorClass with
    | .auth => .halt e.code
    | .unsupported => .unsupported
    | _ => .backoff e.code)

/-- `new AgentInboxError(403, "agent_inbox_halted", "auth", …)` -/
def haltedError : Failure := .inbox
  { status := 403, code := "agent_inbox_halted", errorClass := .auth
    message := "Authorization failure while handling a notification" }

/-- `this.lastError instanceof AgentInboxError ? this.lastError.code : "agent_inbox_retry"` -/
def retryCode : Option Failure → String
  | some (.inbox error) => error.code
  | _ => "agent_inbox_retry"

/-- the notifications of a page; a result ends the poll. -/
def handleAll (host : Host) (sub : String) :
    List Envelope → Option Failure → Task (Option InboxPollResult × Option Failure)
  | [], lastError => pure (none, lastError)
  | n :: rest, lastError => do
    let handled ← handle host sub n lastError
    match handled.1 with
    | .done => handleAll host sub rest handled.2
    | .halt => do
      let result ← fail sub (handled.2.getD haltedError)
      pure (some result, handled.2)
    | .retry => pure (some (.backoff (retryCode handled.2)), handled.2)

/-- what follows when a page is listed. -/
def handlePage (host : Host) (sub : String) (page : Page) (lastError : Option Failure) :
    Task Polled := do
  let handled ← handleAll host sub page.notifications lastError
  match handled.1 with
  | some result => pure (result, handled.2)
  | none => do
    let _ ← op (.update sub { cursor := some (some page.nextCursor), lastErrorCode := some none
                              lastErrorClass := some none } (.page page))
    pure (if page.hasMore then .more else .idle, handled.2)

/-- what follows when no page is listed. -/
def listRefused (sub : String) (error : Failure) (lastError : Option Failure) : Task Polled := do
  match error with
  | .inbox e =>
    match e.errorClass, e.recoveryCursor with
    | .cursor, _ => do
      let _ ← op (.update sub { cursor := some none, towerSubscriptionId := some none } .reset)
      pure (.backoff e.code, lastError)
    | .gap, some recoveryCursor => do
      let _ ← op (.update sub { cursor := some (some recoveryCursor) } (.recovery e))
      pure (.more, lastError)
    | _, _ => do
      let result ← fail sub error
      pure (result, lastError)
  | _ => do
    let result ← fail sub error
    pure (result, lastError)

/-- what follows when the subscription has a cursor. -/
def pollAt (host : Host) (sub cursor : String) (lastError : Option Failure) : Task Polled := do
  match ← op (.list cursor) with
  | .ok page => handlePage host sub page lastError
  | .error error => listRefused sub error lastError

/-- `new TypeError(…)`, of a row that is missing. -/
def missingState : Failure := .other 0 none "null is not an object"

def pollOnce (host : Host) (sub : String) (lastError : Option Failure) : Task Polled := do
  match ← op (.get sub) with
  | none => pure (.halt "agent_inbox_not_enabled", lastError)
  | some state =>
    if state.mode ≠ .inboxRequired then pure (.halt "agent_inbox_not_enabled", lastError)
    else if truthyText state.cursor ∧ truthyText state.towerSubscriptionId then
      pollAt host sub (state.cursor.getD "") lastError
    else do
      match ← op (.createSubscription (state.consumerId.getD ("autopilot:" ++ sub))) with
      | .error error => do
        let result ← fail sub error
        pure (result, lastError)
      | .ok created => do
        match ← op (.update sub
          { towerSubscriptionId := some (some created.subscriptionId)
            cursor := some (some created.cursor)
            floorAt := some (some created.floorAt) } (.created created)) with
        | none => throw missingState
        | some state => pollAt host sub (state.cursor.getD "") lastError

/-! ## the stores and the attempts -/

/-- subscription and notification. -/
abbrev Key := String × String

/-- The stores, and the attempts of this process. -/
structure World where
  states : String → Option AgentInboxState := fun _ => none
  ledger : Key → Option LedgerRow := fun _ => none
  /-- `activeAttempts` -/
  active : Key → ℕ := fun _ => 0
  /-- the attempts that were begun and have not ended, with their poll, for the statements only; so
  are the fields below. -/
  running : List (ℕ × Key) := []
  /-- how often dispatches were begun. -/
  begun : Key → ℕ := fun _ => 0
  /-- what a poll was handed as revoked. -/
  revoked : List Key := []

/-- `INSERT INTO agent_inbox_ledger … ON CONFLICT … DO UPDATE SET attempts = attempts + 1 …` -/
def attemptRow (n : Envelope) (time : String) : Option LedgerRow → LedgerRow
  | none => { seq := n.seq, attempts := 1, startedAt := some time, envelope := some n }
  | some row => { row with attempts := row.attempts + 1, startedAt := row.startedAt.or (some time)
                           envelope := some n }

/-- `INSERT INTO agent_inbox_ledger … ON CONFLICT … DO UPDATE SET outcome = excluded.outcome …` -/
def handledRow (n : Envelope) (outcome : AckOutcome) (code : Option String) (time : String) :
    Option LedgerRow → LedgerRow
  | none => { seq := n.seq, outcome := some outcome, code, handledAt := some time }
  | some row => { row with outcome := some outcome, code, handledAt := some time }

/-- `INSERT INTO agent_inbox_state … ON CONFLICT … DO UPDATE SET mode = excluded.mode …` -/
def modeState (mode : AgentInboxMode) (consumerId : String) :
    Option AgentInboxState → AgentInboxState
  | none => { mode, consumerId := some consumerId }
  | some state => { state with mode, consumerId := state.consumerId.or (some consumerId) }

def World.setRow (w : World) (key : Key) (row : Option LedgerRow) : World :=
  { w with ledger := Function.update w.ledger key row }

/-- a notification is handed to a poll; what is not acknowledged yet is noted with its outcome. -/
def World.enter (w : World) (sub : String) (n : Envelope) : World :=
  { w with revoked := if ((w.ledger (sub, n.id)).bind (·.ackedAt)).isSome ∧ n.state = "revoked" then
      (sub, n.id) :: w.revoked else w.revoked }

/-- What an operation of poll `κ` answers and does. -/
def perform (κ : ℕ) : (o : InboxOp) → World → o.Ans → World → Prop
  | .get sub, w, r, w' => r = w.states sub ∧ w' = w
  | .update sub patch _, w, r, w' => r = (w.states sub).map patch.apply ∧
      w' = { w with states := Function.update w.states sub ((w.states sub).map patch.apply) }
  | .setMode sub mode consumerId, w, _, w' => w' = { w with
      states := Function.update w.states sub (some (modeState mode consumerId (w.states sub))) }
  | .ledger sub n, w, r, w' => r = w.ledger (sub, n.id) ∧ w' = w.enter sub n
  | .beginAttempt sub n, w, r, w' => ∃ time, r = attemptRow n time (w.ledger (sub, n.id)) ∧
      w' = w.setRow (sub, n.id) (some r)
  | .markHandled sub n outcome code, w, _, w' => ∃ time,
      w' = { w.setRow (sub, n.id)
          (some (handledRow n outcome code time (w.ledger (sub, n.id)))) with
        revoked := if n.state = "revoked" then (sub, n.id) :: w.revoked else w.revoked }
  | .markAcked sub n, w, _, w' => ∃ time, w' = w.setRow (sub, n.id)
      ((w.ledger (sub, n.id)).map fun row => { row with ackedAt := some time })
  | .beginActive sub n, w, _, w' => w' = { w with
      active := Function.update w.active (sub, n.id) (w.active (sub, n.id) + 1)
      running := (κ, (sub, n.id)) :: w.running
      begun := Function.update w.begun (sub, n.id) (w.begun (sub, n.id) + 1) }
  | .endActive sub n, w, _, w' => w' = { w with
      active := Function.update w.active (sub, n.id) (w.active (sub, n.id) - 1)
      running := w.running.erase (κ, (sub, n.id)) }
  | .createSubscription _, w, _, w' | .list _, w, _, w' | .context .., w, _, w'
  | .ack .., w, _, w' | .reconcile .., w, _, w' | .dispatch .., w, _, w' | .settle .., w, _, w' =>
    w' = w

/-- a program that may be started: a poll, or an operator who sets a mode. -/
inductive Spawn (host : Host) : ℕ → Prog api Unit → Prop where
  | poll (κ : ℕ) (sub : String) (lastError : Option Failure) :
      Spawn host κ (pollOnce host sub lastError).detach
  | setMode (κ : ℕ) (sub : String) (mode : AgentInboxMode) (consumerId : String) :
      Spawn host κ (op (.setMode sub mode consumerId)).detach

/-- a process ends: what is not stored is lost. -/
def World.restarted (w : World) : World :=
  { w with active := fun _ => 0, running := [] }

/-- The polls, when an operation is only answered as `R` says. -/
def restricted (host : Host) (R : (o : InboxOp) → World → o.Ans → Prop) : System api World where
  perform κ o w r w' := R o w r ∧ perform κ o w r w'
  spawn _ κ p := Spawn host κ p
  crash w w' := w' = w.restarted

/-- any number of polls at once. -/
def system (host : Host) : System api World := restricted host fun _ _ _ => True

/-- The polls of one loop, one after the other; an operator may set modes at the same time. -/
def loop (host : Host) : System api World :=
  { system host with spawn := fun _ κ p => Spawn host κ p ∧
      ((∃ sub lastError, p = (pollOnce host sub lastError).detach) → κ = 0) }

/-- nothing is stored. -/
def World.Initial (w : World) : Prop := w = {}

/-! ## origins -/

structure InboxOrigin where
  subscriptionId : String
  notificationId : String
  deriving DecidableEq, Repr

inductive OriginRefusalCode where
  | noOrigin
  | originExpired
  deriving DecidableEq, Repr

structure LiveOrigin where
  origin : InboxOrigin
  envelope : Envelope
  towerOriginId : String
  deriving DecidableEq, Repr

section
variable (host : Host) (w : World)

def instant (value : Option String) : Option ℤ := (value.filter (· ≠ "")).bind host.dateParse

/-- `store.bindingRecord(…)` -/
def bindingRecord (origin : InboxOrigin) : Option (Envelope × LedgerRow) := do
  let row ← w.ledger (origin.subscriptionId, origin.notificationId)
  let envelope ← row.envelope
  some (envelope, row)

def isActiveInboxAttempt (key : Key) : Bool := w.active key > 0

/-- the time from which on the notifications of an established inbox count. -/
def establishedFloor (sub : String) : Option ℤ := do
  let state ← w.states sub
  if state.mode = .inboxRequired ∧ truthyText state.towerSubscriptionId then
    instant host state.floorAt
  else none

def liveRecordedOrigin (origin : Option InboxOrigin) : Except OriginRefusalCode LiveOrigin := do
  let origin ← orThrow .noOrigin origin
  let floorAt ← orThrow .originExpired (establishedFloor host w origin.subscriptionId)
  let record ← orThrow .noOrigin (bindingRecord w origin)
  throwIf (record.1.id ≠ origin.notificationId ∨ record.1.state ≠ "active") .originExpired
  let occurredAt ← orThrow .originExpired (instant host record.1.occurredAt)
  throwIf (occurredAt < floorAt) .originExpired
  let active := record.2.handledAt.isNone &&
    isActiveInboxAttempt w (origin.subscriptionId, origin.notificationId)
  throwIf (¬active ∧ record.2.outcome ≠ some .handled) .originExpired
  pure { origin, envelope := record.1, towerOriginId := record.1.id }

def selfMention : String := "self_mention"

def liveInboxOrigin (origin : Option InboxOrigin) : Except OriginRefusalCode LiveOrigin := do
  let live ← liveRecordedOrigin host w origin
  if live.envelope.reason ≠ some selfMention then pure live
  else do
    let named ← orThrow .originExpired (live.envelope.originNotificationId.filter (· ≠ ""))
    match liveRecordedOrigin host w (some ⟨live.origin.subscriptionId, named⟩) with
    | .error _ => throw .originExpired
    | .ok nonSelf => do
      throwIf (nonSelf.envelope.reason = some selfMention) .originExpired
      pure { live with towerOriginId := nonSelf.envelope.id }

end

end AgentInbox
end WmAutopilot
