import WmAutopilot.Async.Triple
import WmAutopilot.Js.Value
import WmAutopilot.Sql.Table

/-!
# Turns of Flight Deck sessions

A turn of a session is accepted, its final reply is awaited and published to the thread of the
session, once.

* `TurnRecord`, `saveRow`, `retireRows`   the rows of the turns, and the statements on them;
* `Op`, `World`, `system`   what the bridge calls: the store, the session's chain of work, the
                            agent, the activity and Tower;
* `publish`, `publishKnownFinal`, `process`, `observe`   the methods of the bridge;
* `published`               a call of `publishKnownFinal` from outside the bridge;
* `Apart`                   what such a call has to be, for a turn to be published once.

The work of a session is one after the other; a turn that waits for its session is started in any
order here.
-/

set_option autoImplicit false
set_option linter.unusedVariables false

namespace WmAutopilot
namespace AgentChat
namespace SessionTurns
open Js Async

/-- `FlightDeckSessionTurnState` -/
inductive TurnState where
  | accepted | replyReady | completed | suppressed | failed
  deriving DecidableEq, Repr

/-- `FlightDeckSessionTurnRecord` -/
structure TurnRecord where
  turnId : String
  sessionId : String
  prompt : String
  promptType : String
  sourceMessageIds : List String
  triggerMessageId : Option String
  clientRequestId : String
  replyBody : Option String
  finalMessageIdentity : Option String
  replyCreatedAt : Option String
  publishedMessageId : Option String
  state : TurnState
  lastError : Option String
  createdAt : String
  updatedAt : String
  deriving DecidableEq, Repr

/-! ## the store -/

def find (rows : List TurnRecord) (turnId : String) : Option TurnRecord :=
  rows.find? (·.turnId = turnId)

/-- `ON CONFLICT(turn_id) DO UPDATE SET …` -/
def merged (row r : TurnRecord) : TurnRecord :=
  { row with
    replyBody := r.replyBody
    triggerMessageId := r.triggerMessageId <|> row.triggerMessageId
    finalMessageIdentity := r.finalMessageIdentity
    replyCreatedAt := row.replyCreatedAt <|> r.replyCreatedAt
    publishedMessageId := r.publishedMessageId
    state := r.state
    lastError := r.lastError
    updatedAt := r.updatedAt }

/-- `save`: a row that is suppressed stays as it is. -/
def saveRow (rows : List TurnRecord) (r : TurnRecord) : List TurnRecord :=
  if rows.any (·.turnId = r.turnId) then
    Sql.update (fun row => row.turnId = r.turnId ∧ row.state ≠ .suppressed) (merged · r) rows
  else rows ++ [r]

/-- the first words of the error of a turn that was retired. -/
def supersededBy : String := "Superseded by fresh human trigger"

/-- a row that a fresh human trigger takes. -/
def retires (sessionId : String) (turnIds : List String) (row : TurnRecord) : Prop :=
  row.sessionId = sessionId ∧ row.turnId ∈ turnIds ∧ row.state ≠ .completed ∧
    row.state ≠ .suppressed

instance (sessionId : String) (turnIds : List String) :
    DecidablePred (retires sessionId turnIds) :=
  fun _ => inferInstanceAs (Decidable (_ ∧ _ ∧ _ ∧ _))

/-- `retireForFreshHumanTrigger`: the turns that the cutoff and the snapshot leave are given. -/
def retireRows (rows : List TurnRecord) (sessionId triggerId now : String)
    (turnIds : List String) : List TurnRecord :=
  Sql.update (retires sessionId turnIds)
    (fun row => { row with
      state := .suppressed
      lastError := some (supersededBy ++ " " ++ triggerId ++ "; no completion claim")
      updatedAt := now }) rows

/-- the row says that the turn was retired. -/
def Retired (row : TurnRecord) : Prop :=
  row.state = .suppressed ∧ startsWith (row.lastError.getD "") supersededBy = true

instance : DecidablePred Retired := fun _ => inferInstanceAs (Decidable (_ ∧ _))

/-! ## the world -/

/-- A call of Tower that publishes a message. -/
structure Publication where
  turnId : String
  clientRequestId : String
  body : String
  deriving DecidableEq, Repr

/-- A thread at work on a turn. -/
structure Work where
  sessionId : String
  turnId : String
  thread : ℕ
  deriving DecidableEq

def workOf (record : TurnRecord) (κ : ℕ) : Work := ⟨record.sessionId, record.turnId, κ⟩

/-- The rows, the publish calls that were made, and the work that is under way: the turns that the
chains of the sessions are at, and the calls of `publishKnownFinal` from outside. -/
structure World where
  rows : List TurnRecord
  publications : List Publication
  chain : List Work
  calls : List Work

/-- what the bridge calls. -/
inductive Op where
  /-- a timer, or the event loop. -/
  | wake
  /-- the session's chain comes to the thread, and is left by it. -/
  | enter (record : TurnRecord)
  | leave (record : TurnRecord)
  /-- a call from outside begins, and ends. -/
  | call (record : TurnRecord) (content : String)
  | return_ (record : TurnRecord)
  | get (turnId : String)
  | save (record : TurnRecord)
  | accept (record : TurnRecord)
  | retire (sessionId triggerId now : String) (turnIds : List String)
  | now
  /-- `getSession` and `resolveFlightDeckSessionBinding`: whether there is a binding. -/
  | binding (sessionId : String)
  | resolveTriggerMessageId (sessionId : String)
  | activity
  | awaitFinal (sessionId : String)
  | evaluate (record : TurnRecord)
  | recordPublished (turnId messageId : String)
  /-- the publish call is made, and answered. -/
  | send (publication : Publication)
  | answer

/-- the answer of each; what others answer is not determined. -/
abbrev Ans : Op → Type
  | .get _ => Option TurnRecord
  | .save _ => Except String TurnRecord
  | .accept _ => Option TurnRecord
  | .now => String
  | .binding _ => Except String Bool
  | .resolveTriggerMessageId _ => Option String
  | .awaitFinal _ => Except String (String × String)
  | .evaluate _ => Except String Bool
  | .recordPublished .. => Except String Unit
  | .answer => Except String (Option String)
  | _ => Unit

def yields : Op → Bool
  | .wake | .enter _ | .call .. | .accept _ | .retire .. | .activity | .awaitFinal _ | .answer =>
    true
  | _ => false

abbrev api : Api := ⟨Op, Ans, yields⟩

/-- there is nothing to do for the record. -/
def Over (record : TurnRecord) : Prop := record.state = .completed ∨ record.state = .suppressed

instance : DecidablePred Over := fun _ => inferInstanceAs (Decidable (_ ∨ _))

/-- The turn is not completed, and its reply, if it has one, is this one. -/
def Ready (w : World) (turnId content : String) : Prop :=
  ∃ row ∈ w.rows, row.turnId = turnId ∧ row.state ≠ .completed ∧
    (row.state ≠ .suppressed → row.replyBody.getD "" ≠ "" → row.replyBody = some content)

/-- **A call from outside stands apart**: its turn is ready for it, and no other work on the turn is
under way. -/
def Apart (w : World) (record : TurnRecord) (content : String) : Prop :=
  Over record ∨ Ready w record.turnId content ∧
    ∀ work ∈ w.chain ++ w.calls, work.turnId ≠ record.turnId

/-- What an operation does; `apart` says that calls from outside stand apart. -/
inductive Performs (apart : Prop) (κ : ℕ) : (o : Op) → World → Ans o → World → Prop where
  | wake (w : World) : Performs apart κ .wake w () w
  | enter (w : World) (record : TurnRecord)
      (hfree : ∀ work ∈ w.chain, work.sessionId ≠ record.sessionId)
      (hcalls : apart → ∀ work ∈ w.calls, work.turnId ≠ record.turnId) :
      Performs apart κ (.enter record) w () { w with chain := workOf record κ :: w.chain }
  | leave (w : World) (record : TurnRecord) : Performs apart κ (.leave record) w ()
      { w with chain := w.chain.filter fun work => work ≠ workOf record κ }
  | call (w : World) (record : TurnRecord) (content : String)
      (hapart : apart → Apart w record content) : Performs apart κ (.call record content) w ()
        { w with calls := if Over record then w.calls else workOf record κ :: w.calls }
  | return_ (w : World) (record : TurnRecord) : Performs apart κ (.return_ record) w ()
      { w with calls := w.calls.filter fun work => work ≠ workOf record κ }
  | get (w : World) (turnId : String) :
      Performs apart κ (.get turnId) w (find w.rows turnId) w
  | save (w : World) (record row : TurnRecord)
      (hrow : find (saveRow w.rows record) record.turnId = some row) :
      Performs apart κ (.save record) w (.ok row) { w with rows := saveRow w.rows record }
  /-- a unique index refuses the row. -/
  | refused (w : World) (record : TurnRecord) (error : String) :
      Performs apart κ (.save record) w (.error error) w
  /-- `accept`: another generation, no binding, a row that is there, or a new row. -/
  | notAccepted (w : World) (record : TurnRecord) : Performs apart κ (.accept record) w none w
  | existing (w : World) (record row : TurnRecord) (hrow : find w.rows record.turnId = some row) :
      Performs apart κ (.accept record) w (some row) w
  | accept (w : World) (record : TurnRecord) (hnew : find w.rows record.turnId = none)
      (hstate : record.state = .accepted ∧ record.replyBody = none ∧
        record.publishedMessageId = none) :
      Performs apart κ (.accept record) w (some record)
        { w with rows := saveRow w.rows record }
  | retire (w : World) (sessionId triggerId now : String) (turnIds : List String) :
      Performs apart κ (.retire sessionId triggerId now turnIds) w ()
        { w with rows := retireRows w.rows sessionId triggerId now turnIds }
  | now (w : World) (at_ : String) : Performs apart κ .now w at_ w
  | binding (w : World) (sessionId : String) (r : Except String Bool) :
      Performs apart κ (.binding sessionId) w r w
  | resolveTriggerMessageId (w : World) (sessionId : String) (r : Option String) :
      Performs apart κ (.resolveTriggerMessageId sessionId) w r w
  | activity (w : World) : Performs apart κ .activity w () w
  | awaitFinal (w : World) (sessionId : String) (r : Except String (String × String)) :
      Performs apart κ (.awaitFinal sessionId) w r w
  | evaluate (w : World) (record : TurnRecord) (r : Except String Bool) :
      Performs apart κ (.evaluate record) w r w
  | recordPublished (w : World) (turnId messageId : String) (r : Except String Unit) :
      Performs apart κ (.recordPublished turnId messageId) w r w
  | send (w : World) (publication : Publication) : Performs apart κ (.send publication) w ()
      { w with publications := w.publications ++ [publication] }
  | answer (w : World) (r : Except String (Option String)) : Performs apart κ .answer w r w

/-! ## the bridge -/

/-- `finalIdentity` -/
structure Host where
  finalIdentity : String → String → String

section
variable (host : Host)

/-- `isRetired` -/
def isRetired (record : TurnRecord) : Exc api String Bool := do
  let latest ← Exc.op (A := api) (.get record.turnId)
  pure (latest.any fun row => decide (Retired row))

def save (record : TurnRecord) : Exc api String TurnRecord :=
  Exc.tryOp (A := api) (.save record) rfl

/-- `publishActivity`: what it publishes may fail, which is logged. -/
def publishActivity (record : TurnRecord) : Exc api String Unit := do
  if ← isRetired record then pure ()
  else Exc.op (A := api) .activity

/-- `publicationFilter?.recordPublished`, when the message has an id. -/
def recordPublished (record : TurnRecord) : Option String → Exc api String Unit
  | some messageId =>
    if messageId = "" then pure ()
    else Exc.tryOp (A := api) (.recordPublished record.turnId messageId) rfl
  | none => pure ()

/-- the publish call, and what is written when it is answered. -/
def deliver (record : TurnRecord) (body : String) : Exc api String (Option String) := do
  Exc.op (A := api) (.send ⟨record.turnId, record.clientRequestId, body⟩)
  let messageId ← Exc.tryOp (A := api) .answer rfl
  let publishedAt ← Exc.op (A := api) .now
  recordPublished record messageId
  let _ ← save { record with
    publishedMessageId := messageId, state := .completed, lastError := none,
    updatedAt := publishedAt }
  pure messageId

/-- `publish` -/
def publish (record : TurnRecord) : Exc api String (Option String) := do
  if record.state = .completed ∨ record.state = .suppressed then
    return record.publishedMessageId
  if ← isRetired record then
    return record.publishedMessageId
  let bound ← Exc.tryOp (A := api) (.binding record.sessionId) rfl
  if bound = false ∨ record.replyBody.getD "" = "" then
    return none
  let suppress ← Exc.tryOp (A := api) (.evaluate record) rfl
  if suppress then
    let now ← Exc.op (A := api) .now
    let _ ← save { record with
      publishedMessageId := none, state := .suppressed,
      lastError := some "duplicate_callback_within_window", updatedAt := now }
    return none
  deliver record (record.replyBody.getD "")

/-- `publishKnownFinal` -/
def publishKnownFinal (record : TurnRecord) (content createdAt : String) :
    Exc api String (Option String) := do
  if record.state = .completed ∨ record.state = .suppressed then
    return record.publishedMessageId
  if ← isRetired record then
    return record.publishedMessageId
  let now ← Exc.op (A := api) .now
  let ready ← save { record with
    replyBody := some content, finalMessageIdentity := some (host.finalIdentity content createdAt),
    replyCreatedAt := some createdAt, state := .replyReady, lastError := none, updatedAt := now }
  publish ready

/-- the message that triggered the turn. -/
def triggerOf (record : TurnRecord) : Exc api String (Option String) :=
  match record.triggerMessageId <|> record.sourceMessageIds.getLast? with
  | some id => pure (some id)
  | none => Exc.op (A := api) (.resolveTriggerMessageId record.sessionId)

/-- the record with the trigger. -/
def withTrigger (record : TurnRecord) (trigger : String) : Exc api String TurnRecord := do
  if record.triggerMessageId = some trigger then pure record
  else
    let now ← Exc.op (A := api) .now
    save { record with triggerMessageId := some trigger, updatedAt := now }

/-- what is done when the reply cannot be published. -/
def fail (record : TurnRecord) (error : String) : Exc api String Unit := do
  let latest ← Exc.op (A := api) (.get record.turnId)
  let latest := latest.getD record
  if latest.state = .suppressed then
    return
  let now ← Exc.op (A := api) .now
  let _ ← save { latest with state := .failed, lastError := some error, updatedAt := now }
  publishActivity record
  publishActivity record
  throw error

/-- the final reply is awaited, and published. -/
def awaitReply (record : TurnRecord) : Exc api String Unit := do
  let reply ← Exc.tryOp (A := api) (.awaitFinal record.sessionId) rfl
  publishActivity record
  let _ ← publishKnownFinal host record reply.1 reply.2
  publishActivity record

/-- a turn with its trigger. -/
def carry (record : TurnRecord) : Exc api String Unit := do
  if record.replyBody.getD "" ≠ "" then
    publishActivity record
    publishActivity record
    let _ ← publish record
    publishActivity record
  else
    publishActivity record
    tryCatch (awaitReply host record) (fail record)

/-- `process` -/
def process (record : TurnRecord) : Exc api String Unit := do
  let bound ← Exc.tryOp (A := api) (.binding record.sessionId) rfl
  if bound then
    match ← triggerOf record with
    | none => throw "no valid trigger message in its bound thread"
    | some trigger =>
      if trigger = "" then throw "no valid trigger message in its bound thread"
      else
        let record ← withTrigger record trigger
        carry host record
  else pure ()

/-- the work of a turn, when the chain of its session has come to it. -/
def work (record : TurnRecord) : Exc api String Unit := do
  let latest ← Exc.op (A := api) (.get record.turnId)
  let latest := latest.getD record
  if latest.state ≠ .completed ∧ latest.state ≠ .suppressed then process host latest
  else pure ()

/-- `observe` -/
def observe (record : TurnRecord) : Exc api String Unit := do
  Exc.op (A := api) .wake
  if record.state = .completed then pure ()
  else if ← isRetired record then pure ()
  else
    Exc.op (A := api) (.enter record)
    Exc.andFinally (work host record) (Exc.op (A := api) (.leave record))

/-- A call of `publishKnownFinal` from outside the bridge. -/
def published (record : TurnRecord) (content createdAt : String) : Exc api String Unit := do
  Exc.op (A := api) (.call record content)
  Exc.andFinally (do let _ ← publishKnownFinal host record content createdAt; pure ())
    (Exc.op (A := api) (.return_ record))

end

/-- the fields of a turn that no statement changes. -/
def sameTurn (record row : TurnRecord) : Prop :=
  record.turnId = row.turnId ∧ record.sessionId = row.sessionId ∧
    record.clientRequestId = row.clientRequestId

/-- The bridge with its store.  A record that it is given was read of the store at some time, so it
is a record of one of its turns. -/
def system (host : Host) (apart : Prop) : System api World where
  perform := Performs apart
  spawn w _ p :=
    (∃ record, (∃ row ∈ w.rows, sameTurn record row) ∧ p = (observe host record).detach) ∨
    (∃ record content createdAt, (∃ row ∈ w.rows, sameTurn record row) ∧
      p = (published host record content createdAt).detach) ∨
    (∃ record, p = (Exc.op (A := api) (.accept record) : Exc api String _).detach) ∨
    ∃ sessionId triggerId now turnIds,
      p = (Exc.op (A := api) (.retire sessionId triggerId now turnIds) :
        Exc api String _).detach
  crash w w' := w' = { w with chain := [], calls := [] }

/-- The bridge before its first turn. -/
def Start (w : World) : Prop := w.rows = [] ∧ w.publications = [] ∧ w.chain = [] ∧ w.calls = []

end SessionTurns
end AgentChat
end WmAutopilot
