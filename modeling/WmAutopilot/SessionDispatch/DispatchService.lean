import WmAutopilot.Async.Triple
import WmAutopilot.SessionDispatch.WakeRuns

/-!
# The service of session dispatches

`SessionDispatchService`: a worker is created with its dispatch, a timer looks for workers that have
ended and captures what they came to, and the supervising session handles the result.  What the
manager, the adapters and the queue answer is not determined.

* `Desk`, `Op`, `Performs`   the tables and the check that is under way; what the service calls;
* `capture`, `captureIfTerminal`, `checkRunning`   the results of the workers;
* `create`, `retryCallback`, `call`   the other methods;
* `system`                   the service: each program may be started at any time, and a crash leaves
                             the tables.
-/

set_option autoImplicit false
set_option linter.unusedVariables false

namespace WmAutopilot
namespace SessionDispatches
open Async SessionDispatchStore

/-! ## what the service asks -/

/-- `session.status`, as far as it is asked for. -/
inductive SessionStatus where
  | error | stopped | other
  deriving DecidableEq

/-- the status of a dispatch whose session has ended so. -/
def SessionStatus.ended : SessionStatus → Option TerminalStatus
  | .error => some .failed
  | .stopped => some .stopped
  | .other => none

/-- What the manager has of a worker; `native` says that a Codex session of agentapi has to be
discovered first. -/
inductive WorkerState where
  | gone
  | noAdapter (status : SessionStatus)
  | adapter (native : Bool)

/-- What the adapter and the transcript tell of the turn of a worker. -/
inductive WorkerTurn where
  | unread
  | final (content createdAt : String)
  | error (content createdAt : String)
  | session (status : SessionStatus)

/-- what of it is captured. -/
def WorkerTurn.result : WorkerTurn → Option (TerminalStatus × Option String × Option String)
  | .unread => none
  | .final content createdAt => some (.completed, some content, some createdAt)
  | .error content createdAt => some (.failed, some content, some createdAt)
  | .session status => status.ended.map fun status => (status, none, none)

/-- How the discovery of a native session stands, with the time as text. -/
inductive Discovery where
  | timedOut (now : String)
  | waiting
  | unavailable (now : String)
  | attempt

/-- `migrateLegacyDeliveredCallbacks` -/
def SessionDispatchStore.migrateLegacyDeliveredCallbacks (db : SessionDispatchStore) (now : ℕ) :
    SessionDispatchStore :=
  db.updateDispatches
    (fun d => d.state = .callbackDelivered ∧ d.terminalFingerprint ≠ none ∧
      d.callbackAcknowledgedAt = none)
    fun d => { d with
      state := .callbackPending, callbackNextAttemptAt := none, callbackExpiresAt := none
      lastError := none, updatedAt := now }

/-! ## the calls on the tables -/

section
variable (sha256 : String → String) (owner : String → Option (Option String))

/-- whether a call on the tables throws. -/
def Action.outcome (db : SessionDispatchStore) : Action → Except String Unit
  | .acknowledge id caller now => (db.acknowledge sha256 owner id caller now).1.map fun _ => ()
  | .close id caller now => (db.close sha256 owner id caller now).1.map fun _ => ()
  | .retryCallback id caller now => (db.retryCallback owner id caller now).1.map fun _ => ()
  | .markDeliveryUncertain claim now => (db.markDeliveryUncertain sha256 claim now).1
  | _ => .ok ()

end

/-- the dispatch whose callback a call retries. -/
def Action.retries : Action → List String
  | .retryCallback id _ _ => [id]
  | _ => []

/-- the calls that the tables take from other programs: of the supervising session, of the inbox, of
a person's turn and of a new session. -/
def Action.FromOutside : Action → Prop
  | .create .. | .capture .. | .noteError .. => False
  | _ => True

namespace Service

/-- The tables; the thread that holds `checking`; the dispatches whose callback was retried. -/
structure Desk where
  db : SessionDispatchStore := {}
  checking : Option ℕ := none
  retried : List String := []

inductive Op where
  /-- the event loop comes to the call. -/
  | turn
  | now
  /-- `if (this.checking) return; this.checking = true`, and `this.checking = false`. -/
  | enter
  | leave
  | list
  | act (a : Action)
  /-- the update that counts an attempt of discovery. -/
  | noteDiscovery (id : String) (now : ℕ)
  | migrate (now : ℕ)
  | worker (sessionId : String)
  | discovery (record : SessionDispatch)
  | captureNative (record : SessionDispatch)
  | hasNative (sessionId : String)
  | readTurn (record : SessionDispatch)
  | closeWorker (sessionId : String)
  | requestNextTurn (sessionId : String)
  | createSession
  /-- `snapshotWorkerOrigin` and `addPrompt`. -/
  | queuePrompt (id workerSessionId : String)
  | dispatchQueuedPrompt (workerSessionId : String)

abbrev Ans : Op → Type
  | .now => ℕ
  | .enter => Bool
  | .list => List SessionDispatch
  | .act _ => Except String Unit
  | .worker _ => WorkerState
  | .discovery _ => Discovery
  | .captureNative _ => Except String Bool
  | .hasNative _ => Bool
  | .readTurn _ => WorkerTurn
  | .createSession => Except String String
  | .closeWorker _ | .requestNextTurn _ | .queuePrompt .. | .dispatchQueuedPrompt _ =>
    Except String Unit
  | _ => Unit

def yields : Op → Bool
  | .turn | .captureNative _ | .readTurn _ | .closeWorker _ | .requestNextTurn _ | .createSession
  | .dispatchQueuedPrompt _ => true
  | _ => false

abbrev api : Api := ⟨Op, Ans, yields⟩

section Calls
variable (sha256 : String → String) (policy : WakePolicy) (owner : String → Option (Option String))

/-- What an operation does. -/
inductive Performs (κ : ℕ) : (o : Op) → Desk → Ans o → Desk → Prop where
  | turn (d : Desk) : Performs κ .turn d () d
  | now (d : Desk) (time : ℕ) : Performs κ .now d time d
  | enter (d : Desk) :
      Performs κ .enter d (d.checking == none) { d with checking := d.checking.or (some κ) }
  | leave (d : Desk) : Performs κ .leave d () { d with checking := none }
  | list (d : Desk) (records : List SessionDispatch) (h : records.Perm d.db.dispatches) :
      Performs κ .list d records d
  | act (d : Desk) (a : Action) : Performs κ (.act a) d (a.outcome sha256 owner d.db)
      { d with db := a.run sha256 policy owner d.db, retried := d.retried ++ a.retries }
  | noteDiscovery (d : Desk) (id : String) (now : ℕ) :
      Performs κ (.noteDiscovery id now) d () { d with db := (d.db.update id (fun r => r) now).2 }
  | migrate (d : Desk) (now : ℕ) : Performs κ (.migrate now) d ()
      { d with db := d.db.migrateLegacyDeliveredCallbacks now }
  | worker (d : Desk) (sessionId : String) (r : WorkerState) : Performs κ (.worker sessionId) d r d
  | discovery (d : Desk) (record : SessionDispatch) (r : Discovery) :
      Performs κ (.discovery record) d r d
  | captureNative (d : Desk) (record : SessionDispatch) (r : Except String Bool) :
      Performs κ (.captureNative record) d r d
  | hasNative (d : Desk) (sessionId : String) (r : Bool) : Performs κ (.hasNative sessionId) d r d
  | readTurn (d : Desk) (record : SessionDispatch) (r : WorkerTurn) :
      Performs κ (.readTurn record) d r d
  | closeWorker (d : Desk) (sessionId : String) (r : Except String Unit) :
      Performs κ (.closeWorker sessionId) d r d
  | requestNextTurn (d : Desk) (sessionId : String) (r : Except String Unit) :
      Performs κ (.requestNextTurn sessionId) d r d
  | createSession (d : Desk) (r : Except String String) : Performs κ .createSession d r d
  | queuePrompt (d : Desk) (id workerSessionId : String) (r : Except String Unit) :
      Performs κ (.queuePrompt id workerSessionId) d r d
  | dispatchQueuedPrompt (d : Desk) (workerSessionId : String) (r : Except String Unit) :
      Performs κ (.dispatchQueuedPrompt workerSessionId) d r d

end Calls

/-! ## the results of the workers -/

def act (a : Action) : Exc api String Unit := Exc.tryOp (A := api) (.act a) rfl

/-- `closeTerminalWorker` -/
def closeTerminalWorker (record : SessionDispatch) : Exc api String Unit :=
  tryCatch (Exc.tryOp (A := api) (.closeWorker record.workerSessionId) rfl) fun error => do
    let now ← Exc.op (A := api) .now
    act (.noteError record.dispatchId ("Worker closeout failed: " ++ error) false now)

section Programs
variable (sha256 : String → String)

/-- `capture` -/
def capture (record : SessionDispatch) (status : TerminalStatus)
    (message createdAt : Option String) : Exc api String Unit := do
  if record.terminalFingerprint = some (sha256 (status.text ++ "\x00" ++ createdAt.getD "" ++
      "\x00" ++ message.getD "")) then pure ()
  else
    let now ← Exc.op (A := api) .now
    act (.capture record status message createdAt now)
    closeTerminalWorker record
    match record.callbackSessionId with
    | none => pure ()
    | some callbackSessionId =>
      if callbackSessionId = "" then pure ()
      else Exc.tryOp (A := api) (.requestNextTurn callbackSessionId) rfl

/-- `discoverNativeCodexSession` -/
def discoverNativeCodexSession (record : SessionDispatch) : Exc api String Bool := do
  match ← Exc.op (A := api) (.discovery record) with
  | .timedOut now =>
    capture sha256 record .failed (some ("Codex completed without a discoverable native " ++
      "transcript; the completion callback could not be verified.")) (some now)
    pure false
  | .waiting => pure false
  | .unavailable now =>
    capture sha256 record .failed (some ("Codex native-session discovery is unavailable; the " ++
      "completion callback could not be verified.")) (some now)
    pure false
  | .attempt =>
    let discovered ← Exc.op (A := api) (.captureNative record)
    let now ← Exc.op (A := api) .now
    Exc.op (A := api) (.noteDiscovery record.dispatchId now)
    pure (discovered.toOption == some true)

/-- what a worker came to, when it has ended. -/
def captureResult (record : SessionDispatch) :
    Option (TerminalStatus × Option String × Option String) → Exc api String Unit
  | none => pure ()
  | some result => capture sha256 record result.1 result.2.1 result.2.2

/-- the native session of the worker is known. -/
def nativeKnown (record : SessionDispatch) (native : Bool) : Exc api String Bool := do
  if native = false then pure true
  else if ← discoverNativeCodexSession sha256 record then
    Exc.op (A := api) (.hasNative record.workerSessionId)
  else pure false

/-- `captureIfTerminal` -/
def captureIfTerminal (record : SessionDispatch) : Exc api String Unit := do
  match ← Exc.op (A := api) (.worker record.workerSessionId) with
  | .gone => pure ()
  | .noAdapter status =>
    captureResult sha256 record (status.ended.map fun status => (status, none, none))
  | .adapter native =>
    if ← nativeKnown sha256 record native then
      let turn ← Exc.op (A := api) (.readTurn record)
      captureResult sha256 record turn.result
    else pure ()

/-- the dispatches that a check found. -/
def captureAll : List SessionDispatch → Exc api String Unit
  | [] => pure ()
  | record :: records => do
    if record.state = .running then captureIfTerminal sha256 record else pure ()
    captureAll records

/-- `checkRunning` -/
def checkRunning : Exc api String Unit := do
  Exc.op (A := api) .turn
  if ← Exc.op (A := api) .enter then
    Exc.andFinally (do
      let records ← Exc.op (A := api) .list
      captureAll sha256 records) (Exc.op (A := api) .leave)
  else pure ()

/-! ## the other methods -/

/-- What is drawn and read before a dispatch is recorded. -/
structure CreateInput where
  id : String
  callbackSessionId : Option String
  ownerNpub : Option String

/-- `create`; what is checked before the dispatch is recorded may throw with the session. -/
def create (input : CreateInput) : Exc api String Unit := do
  let workerSessionId ← Exc.tryOp (A := api) .createSession rfl
  let now ← Exc.op (A := api) .now
  act (.create input.id workerSessionId input.callbackSessionId input.ownerNpub now)
  tryCatch (do
    Exc.tryOp (A := api) (.queuePrompt input.id workerSessionId) rfl
    Exc.tryOp (A := api) (.dispatchQueuedPrompt workerSessionId) rfl) fun error => do
      let now ← Exc.op (A := api) .now
      act (.noteError input.id error true now)
      throw ("Dispatch " ++ input.id ++ " created worker " ++ workerSessionId ++
        ", but its prompt could not be queued: " ++ error)

/-- `retryCallback` -/
def retryCallback (id callerSessionId : String) : Exc api String Unit := do
  Exc.op (A := api) .turn
  let now ← Exc.op (A := api) .now
  act (.retryCallback id callerSessionId now)
  Exc.tryOp (A := api) (.requestNextTurn callerSessionId) rfl

def call (a : Action) : Exc api String Unit := do
  Exc.op (A := api) .turn
  act a

/-- `migrateLegacyCallbacks` -/
def migrateLegacyCallbacks : Exc api String Unit := do
  Exc.op (A := api) .turn
  let now ← Exc.op (A := api) .now
  Exc.op (A := api) (.migrate now)

/-- a program of the service. -/
inductive Runs : Prog api Unit → Prop where
  | checkRunning : Runs (checkRunning sha256).detach
  | create (input : CreateInput) : Runs (create input).detach
  | retryCallback (id callerSessionId : String) : Runs (retryCallback id callerSessionId).detach
  | call (a : Action) (h : a.FromOutside) : Runs (call a).detach
  | migrate : Runs migrateLegacyCallbacks.detach

end Programs

/-- The service with its tables. -/
def system (sha256 : String → String) (policy : WakePolicy)
    (owner : String → Option (Option String)) : System api Desk where
  perform := Performs sha256 policy owner
  spawn _ _ p := Runs sha256 p
  crash d d' := d' = { d with checking := none }

end Service
end SessionDispatches
end WmAutopilot
