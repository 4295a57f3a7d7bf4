import Mathlib.Data.List.Infix
import WmAutopilot.Js.Value
import WmAutopilot.Sql.Table

/-!
# The prompt queue

The tables of `PromptQueueStore` and its methods.  Times are milliseconds and an argument of the
method where the source reads the clock; a method that may throw answers with the database it
leaves.

* `QueuedPrompt`, `Recovery`, `Cutoff`   the rows;
* `pruneHistory`, `reorderQueue`         what most methods do around their statement;
* `addPrompt`, `claimNextPrompt`, `markClaimSending`, `recordClaimAcceptance`, `completeClaim`,
  `releaseRejectedClaim`, `reconcileClaim`, …   the methods.
-/

set_option autoImplicit false
set_option linter.unusedVariables false

namespace WmAutopilot
namespace PromptQueue
open Js Sql

/-! ## rows -/

/-- `QueuedPrompt["state"]` -/
inductive PromptState where
  | pending
  | claimed
  | dispatched
  | handled
  | superseded
  deriving DecidableEq, Repr

/-- the text of the column. -/
def PromptState.text : PromptState → String
  | .pending => "pending"
  | .claimed => "claimed"
  | .dispatched => "dispatched"
  | .handled => "handled"
  | .superseded => "superseded"

/-- `state IN ('pending', 'claimed')` -/
def PromptState.Active (s : PromptState) : Prop := s = .pending ∨ s = .claimed

/-- `state IN ('handled', 'dispatched', 'superseded')` -/
def PromptState.Terminal (s : PromptState) : Prop :=
  s = .handled ∨ s = .dispatched ∨ s = .superseded

instance : DecidablePred PromptState.Active := fun _ => inferInstanceAs (Decidable (_ ∨ _))

instance : DecidablePred PromptState.Terminal := fun _ => inferInstanceAs (Decidable (_ ∨ _ ∨ _))

/-- `delivery_state`, and the certainty of a delivery attempt. -/
inductive DeliveryState where
  | unsent
  | rejected
  | uncertain
  | accepted
  deriving DecidableEq, Repr

structure QueuedPrompt where
  rowid : ℕ
  id : String
  sessionId : String
  content : String
  timestamp : ℕ
  order : ℕ
  type : Option String
  dedupeKey : Option String
  payload : Option Value
  revision : ℕ := 1
  state : PromptState := .pending
  handledAt : Option ℕ := none
  handledBy : Option String := none
  handledReason : Option String := none
  claimToken : Option String := none
  deliveryState : Option DeliveryState := none
  deliveryId : Option String := none
  deliveryUpdatedAt : Option ℕ := none

structure QueuedPromptInput where
  content : String
  type : Option String := none
  dedupeKey : Option String := none
  payload : Option Value := none

/-- a row of `prompt_queue_recovery`. -/
structure Recovery where
  rowid : ℕ
  sessionId : String
  itemId : String
  revision : String
  deliveryId : Option String
  actor : String
  reason : String
  resolution : String
  createdAt : ℕ

/-- a row of `session_work_cutoffs`. -/
structure Cutoff where
  scope : String
  sessionId : String
  triggerId : String
  generation : ℕ
  rowCutoff : ℕ
  createdAt : ℕ

structure PromptQueueStore where
  prompts : List QueuedPrompt := []
  recovery : List Recovery := []
  cutoffs : List Cutoff := []

/-- `PromptQueueConflict` (with its HTTP status) and the other errors. -/
inductive QueueError where
  | conflict (message : String) (status : ℕ)
  | error (message : String)
  deriving DecidableEq, Repr

def QueueError.message : QueueError → String
  | conflict message _ => message
  | error message => message

namespace PromptQueueStore

/-- the answer of a method that may throw, and the database it leaves. -/
abbrev Exec (α : Type) := Except QueueError α × PromptQueueStore

def conflict {α : Type} (db : PromptQueueStore) (message : String) (status : ℕ := 409) : Exec α :=
  (.error (.conflict message status), db)

/-- `UPDATE prompt_queue SET f WHERE p` -/
def updatePrompts (db : PromptQueueStore) (p : QueuedPrompt → Prop) [DecidablePred p]
    (f : QueuedPrompt → QueuedPrompt) : PromptQueueStore :=
  { db with prompts := update p f db.prompts }

/-- `DELETE FROM prompt_queue WHERE p` -/
def deletePrompts (db : PromptQueueStore) (p : QueuedPrompt → Prop) [DecidablePred p] :
    PromptQueueStore :=
  { db with prompts := db.prompts.filter fun r => ¬p r }

/-! ## history -/

/-- the time by which terminal rows are kept. -/
def terminalTime (r : QueuedPrompt) : ℕ :=
  let delivered := r.deliveryUpdatedAt.getD r.timestamp
  if r.state = .handled ∨ r.state = .superseded then r.handledAt.getD delivered else delivered

/-- the ids of the `n` most recent terminal rows of the session. -/
def recentTerminal (db : PromptQueueStore) (sessionId : String) (n : ℕ) : List String :=
  let rows := db.prompts.filter fun r => r.sessionId = sessionId ∧ r.state.Terminal
  let newer (a b : QueuedPrompt) : Bool :=
    terminalTime b < terminalTime a ∨ terminalTime a = terminalTime b ∧ b.rowid ≤ a.rowid
  ((rows.mergeSort newer).take n).map (·.id)

/-- seven days. -/
def retryWindow : ℕ := 7 * 86400000

def pruneHistory (db : PromptQueueStore) (sessionId : String) (now : ℕ) : PromptQueueStore :=
  let recent := db.recentTerminal sessionId 1000
  let kept := db.deletePrompts fun r => r.sessionId = sessionId ∧ r.state.Terminal ∧
    (terminalTime r < now - retryWindow ∨ r.id ∉ recent)
  let shown := kept.recentTerminal sessionId 100
  let scrubbed := kept.updatePrompts
    (fun r => r.sessionId = sessionId ∧ r.state.Terminal ∧ r.content ≠ "" ∧ r.id ∉ shown)
    fun r => { r with content := "", payload := none }
  let ids := (scrubbed.prompts.filter (·.sessionId = sessionId)).map (·.id)
  let newest := ((scrubbed.recovery.filter (·.sessionId = sessionId)).reverse.take 1000).map
    (·.rowid)
  { scrubbed with recovery := scrubbed.recovery.filter fun r =>
      ¬(r.sessionId = sessionId ∧ (r.rowid ∉ newest ∨ r.itemId ∉ ids)) }

/-! ## reading the queue -/

/-- the active rows of the session, in queue order. -/
def activeQueue (db : PromptQueueStore) (sessionId : String) : List QueuedPrompt :=
  (db.prompts.filter fun r => r.sessionId = sessionId ∧ r.state.Active).mergeSort
    fun a b => a.order ≤ b.order

def getSessionQueue (db : PromptQueueStore) (sessionId : String) (now : ℕ) :
    List QueuedPrompt × PromptQueueStore :=
  let db := db.pruneHistory sessionId now
  (db.activeQueue sessionId, db)

def getNextQueuedPrompt (db : PromptQueueStore) (sessionId : String) : Option QueuedPrompt :=
  first (fun r => r.sessionId = sessionId ∧ r.state.Active) (·.order) db.prompts

def getQueueCount (db : PromptQueueStore) (sessionId : String) : ℕ :=
  changes (fun r => r.sessionId = sessionId ∧ r.state.Active) db.prompts

/-- the active rows of the session are numbered from 1 again. -/
def reorderQueue (db : PromptQueueStore) (sessionId : String) (now : ℕ) : PromptQueueStore :=
  let (prompts, db) := db.getSessionQueue sessionId now
  prompts.zipIdx.foldl (fun db (prompt, index) =>
    if prompt.order ≠ index + 1 then
      db.updatePrompts (fun r => r.id = prompt.id) fun r => { r with order := index + 1 }
    else db) db

/-! ## the methods -/

/-- the largest rowid of the table. -/
def maxRowid (db : PromptQueueStore) : ℕ := maximum (fun _ => True) (·.rowid) db.prompts

/-- `x?.trim() || null` -/
def trimmed (s : Option String) : Option String := (s.map trim).filter (· ≠ "")

/-- the index `idx_prompt_queue_dedupe` holds. -/
def DedupeUnique (prompts : List QueuedPrompt) : Prop :=
  prompts.Pairwise fun a b => ¬(a.sessionId = b.sessionId ∧ a.dedupeKey ≠ none ∧
    a.dedupeKey = b.dedupeKey ∧ a.state.Active ∧ b.state.Active)

instance (prompts : List QueuedPrompt) : Decidable (DedupeUnique prompts) :=
  inferInstanceAs (Decidable (List.Pairwise _ _))

/-- `addPrompt`; `id` is the fresh UUID. -/
def addPrompt (db : PromptQueueStore) (sessionId : String) (input : QueuedPromptInput)
    (id : String) (now : ℕ) : Exec (Option QueuedPrompt) :=
  let db := db.pruneHistory sessionId now
  let content := trim input.content
  if content = "" then (.ok none, db)
  else
    let currentCount := db.getQueueCount sessionId
    if 21 ≤ currentCount then (.error (.error "Queue limit reached (21 prompts maximum)"), db)
    else
      let row : QueuedPrompt :=
        { rowid := db.maxRowid + 1, id, sessionId, content, timestamp := now
          order := currentCount + 1, type := trimmed input.type
          dedupeKey := trimmed input.dedupeKey, payload := input.payload }
      if DedupeUnique (db.prompts ++ [row]) then
        (.ok (some row), { db with prompts := db.prompts ++ [row] })
      else (.ok none, db)

def updatePromptContent (db : PromptQueueStore) (sessionId promptId content : String) :
    Bool × PromptQueueStore :=
  let content := trim content
  if content = "" then (false, db)
  else
    let p := fun r : QueuedPrompt => r.id = promptId ∧ r.sessionId = sessionId ∧ r.state = .pending
    (0 < changes p db.prompts,
      db.updatePrompts p fun r => { r with content, revision := r.revision + 1 })

def deletePromptById (db : PromptQueueStore) (sessionId promptId : String) (now : ℕ) :
    Bool × PromptQueueStore :=
  let p := fun r : QueuedPrompt => r.id = promptId ∧ r.sessionId = sessionId ∧ r.state = .pending
  if 0 < changes p db.prompts then (true, (db.deletePrompts p).reorderQueue sessionId now)
  else (false, db)

def removeNextPrompt (db : PromptQueueStore) (sessionId : String) (now : ℕ) :
    Option QueuedPrompt × PromptQueueStore :=
  match db.getNextQueuedPrompt sessionId with
  | none => (none, db)
  | some next =>
    if next.state = .pending then
      let (deleted, db') := db.deletePromptById sessionId next.id now
      (if deleted then some next else none, db')
    else (none, db)

def clearSessionQueue (db : PromptQueueStore) (sessionId : String) : PromptQueueStore :=
  db.deletePrompts fun r => r.sessionId = sessionId ∧ r.state = .pending

/-- the next rowid of `prompt_queue_recovery`. -/
def nextRecovery (db : PromptQueueStore) : ℕ := maximum (fun _ => True) (·.rowid) db.recovery + 1

def supersedeDedicatedPending (db : PromptQueueStore) (sessionId bindingId : String) (now : ℕ) :
    Exec ℕ :=
  if sessionId = "" ∨ bindingId = "" then
    (.error (.error "Dedicated queue binding required"), db)
  else if ∃ r ∈ db.prompts, r.sessionId = sessionId ∧ r.state = .claimed then
    (.error (.error "Completed-turn session has unresolved ordinary delivery"), db)
  else
    let p := fun r : QueuedPrompt => r.sessionId = sessionId ∧ r.state = .pending
    let records := (db.prompts.filter p).zipIdx.map fun (r, i) =>
      { rowid := db.nextRecovery + i, sessionId := r.sessionId, itemId := r.id
        revision := toString r.revision, deliveryId := none, actor := bindingId
        reason := "Latest managed workshop instruction supersedes unsent ordinary prompt"
        resolution := "superseded", createdAt := now : Recovery }
    let db' : PromptQueueStore := { db with recovery := db.recovery ++ records }
    (.ok (changes p db.prompts), db'.updatePrompts p fun r =>
      { r with state := .superseded, revision := r.revision + 1 })

def sessionWorkGeneration (db : PromptQueueStore) (scope sessionId : String) : ℕ :=
  maximum (fun c : Cutoff => c.scope = scope ∧ c.sessionId = sessionId) (·.generation) db.cutoffs

/-- `retireSessionWork` with the table `prompt_queue`: `retire` runs once for each trigger. -/
def retireSessionWork (db : PromptQueueStore) (scope sessionId triggerId : String) (now : ℕ)
    (retire : ℕ → ℕ → PromptQueueStore → PromptQueueStore) : ℕ × PromptQueueStore :=
  match db.cutoffs.find? fun c =>
    c.scope = scope ∧ c.sessionId = sessionId ∧ c.triggerId = triggerId with
  | some existing => (existing.generation, db)
  | none =>
    let generation := db.sessionWorkGeneration scope sessionId + 1
    let cutoff := db.maxRowid
    let row : Cutoff :=
      { scope, sessionId, triggerId, generation, rowCutoff := cutoff, createdAt := now }
    (generation, retire cutoff now { db with cutoffs := db.cutoffs ++ [row] })

def captureFreshHumanCutoff (db : PromptQueueStore) (sessionId : String) (now : ℕ) :
    List (String × ℕ) × PromptQueueStore :=
  let (queue, db) := db.getSessionQueue sessionId now
  (queue.map fun r => (r.id, r.revision), db)

def retireForFreshHumanTrigger (db : PromptQueueStore) (sessionId triggerId : String)
    (snapshot : Option (List (String × ℕ))) (now : ℕ) : PromptQueueStore :=
  let retired := (db.retireSessionWork "prompts" sessionId triggerId now fun cutoff time db =>
    db.updatePrompts
      (fun r => r.sessionId = sessionId ∧ r.rowid ≤ cutoff ∧ r.state.Active ∧
        ∀ entries ∈ snapshot, (r.id, r.revision) ∈ entries)
      fun r => { r with
        state := .superseded, revision := r.revision + 1, handledAt := some time
        handledBy := some "fresh-human-trigger"
        handledReason :=
          some ("Superseded by fresh human trigger " ++ triggerId ++ "; completion unverified") }).2
  retired.reorderQueue sessionId now

def rebindSession (db : PromptQueueStore) (sourceSessionId targetSessionId : String) : Exec ℕ :=
  if sourceSessionId = "" ∨ targetSessionId = "" ∨ sourceSessionId = targetSessionId then (.ok 0, db)
  else
    let p := fun r : QueuedPrompt => r.sessionId = sourceSessionId
    let db' := db.updatePrompts p fun r => { r with sessionId := targetSessionId }
    if DedupeUnique db'.prompts then (.ok (changes p db.prompts), db')
    else (.error (.error "UNIQUE constraint failed: prompt_queue.session_id, prompt_queue.dedupe_key"),
      db)

def deletePromptsByType (db : PromptQueueStore) (type : String) (now : ℕ) : ℕ × PromptQueueStore :=
  let normalizedType := trim type
  if normalizedType = "" then (0, db)
  else
    let p := fun r : QueuedPrompt => r.type = some normalizedType ∧ r.state = .pending
    let sessions := ((db.prompts.filter p).map (·.sessionId)).dedup
    (changes p db.prompts,
      sessions.foldl (fun db sessionId => db.reorderQueue sessionId now) (db.deletePrompts p))

/-- `/^[1-9][0-9]*$/.test(revision)` -/
def validRevision (revision : String) : Bool :=
  match revision.toList with
  | [] => false
  | c :: cs => c.isDigit && c ≠ '0' && cs.all Char.isDigit

def acknowledgePrompt (db : PromptQueueStore) (sessionId id revision actor reason : String)
    (now : ℕ) : Exec QueuedPrompt :=
  let db := db.pruneHistory sessionId now
  if ¬validRevision revision ∨ blank actor ∨ blank reason then
    db.conflict "Revision, actor and reason are required" 400
  else match db.prompts.find? fun r => r.sessionId = sessionId ∧ r.id = id with
  | none => db.conflict "Prompt not found" 404
  | some prompt =>
    if toString prompt.revision ≠ revision then db.conflict "Prompt revision changed"
    else if prompt.state = .handled ∧ prompt.handledBy = some actor ∧
        prompt.handledReason = some (trim reason) then (.ok prompt, db)
    else if prompt.state ≠ .pending then db.conflict ("Prompt is already " ++ prompt.state.text)
    else
      let db' := (db.updatePrompts
        (fun r => r.sessionId = sessionId ∧ r.id = id ∧ toString r.revision = revision ∧
          r.state = .pending)
        fun r => { r with
          state := .handled, handledAt := some now, handledBy := some actor
          handledReason := some (trim reason) }).reorderQueue sessionId now
      -- an error inside the transaction rolls it back
      match db'.prompts.find? fun r => r.id = id with
      | some r => (.ok r, db')
      | none => (.error (.error "null is not an object"), db)

/-- `claimNextPrompt`; `claimToken` is the fresh UUID. -/
def claimNextPrompt (db : PromptQueueStore) (sessionId claimToken : String) (now : ℕ) :
    Option QueuedPrompt × PromptQueueStore :=
  match db.getNextQueuedPrompt sessionId with
  | none => (none, db)
  | some prompt =>
    if prompt.state ≠ .pending then (none, db)
    else
      (some { prompt with
          state := .claimed, claimToken := some claimToken, deliveryState := some .unsent
          deliveryId := some claimToken },
        db.updatePrompts (fun r => r.id = prompt.id ∧ r.state = .pending) fun r =>
          { r with
            state := .claimed, deliveryState := some .unsent, deliveryId := some claimToken
            deliveryUpdatedAt := some now, claimToken := some claimToken })

/-- the row while `token` is its claim. -/
def ClaimedBy (sessionId id token : String) (r : QueuedPrompt) : Prop :=
  r.sessionId = sessionId ∧ r.id = id ∧ r.claimToken = some token ∧ r.state = .claimed

instance (sessionId id token : String) : DecidablePred (ClaimedBy sessionId id token) :=
  fun _ => inferInstanceAs (Decidable (_ ∧ _ ∧ _ ∧ _))

/-- an update under a claim that throws when no row is touched. -/
def updateClaim (db : PromptQueueStore) (p : QueuedPrompt → Prop) [DecidablePred p]
    (f : QueuedPrompt → QueuedPrompt) : Exec Unit :=
  if changes p db.prompts = 0 then db.conflict "Dispatch claim changed"
  else (.ok (), db.updatePrompts p f)

def recordClaimAcceptance (db : PromptQueueStore) (sessionId id token : String) (now : ℕ) :
    Exec Unit :=
  db.updateClaim (ClaimedBy sessionId id token) fun r =>
    { r with deliveryState := some .accepted, deliveryUpdatedAt := some now }

def completeClaim (db : PromptQueueStore) (sessionId id claimToken : String) (now : ℕ) :
    Exec Unit :=
  let x := db.updateClaim (ClaimedBy sessionId id claimToken) fun r =>
    { r with
      state := .dispatched, deliveryState := some .accepted, deliveryUpdatedAt := some now }
  match x.1 with
  | .error _ => x
  | .ok () => (.ok (), x.2.reorderQueue sessionId now)

def releaseRejectedClaim (db : PromptQueueStore) (sessionId id claimToken : String)
    (certainty : DeliveryState := .rejected) : PromptQueueStore :=
  db.updatePrompts (ClaimedBy sessionId id claimToken) fun r =>
    { r with state := .pending, deliveryState := some certainty, claimToken := none }

def markClaimSending (db : PromptQueueStore) (sessionId id token : String) (now : ℕ) :
    Exec Unit :=
  db.updateClaim (fun r => ClaimedBy sessionId id token r ∧ r.deliveryState = some .unsent) fun r =>
    { r with deliveryState := some .uncertain, deliveryUpdatedAt := some now }

def reconcileClaim (db : PromptQueueStore)
    (sessionId id revision token resolution actor reason : String) (now : ℕ) :
    Exec QueuedPrompt :=
  if resolution ∉ ["accepted", "retry"] ∨ blank reason ∨ actor = "" ∨ token = "" ∨
      ¬validRevision revision then
    db.conflict "Resolution, claim token, revision, actor and reason required" 400
  else match db.prompts.find? fun r => r.sessionId = sessionId ∧ r.id = id with
  | none => db.conflict "Prompt not found" 404
  | some prompt =>
    if prompt.state ≠ .claimed ∨ toString prompt.revision ≠ revision ∨
        prompt.claimToken ≠ some token then
      db.conflict "Dispatch claim or revision changed"
    else
      let record : Recovery :=
        { rowid := db.nextRecovery, sessionId, itemId := id, revision
          deliveryId := prompt.deliveryId, actor, reason := trim reason, resolution
          createdAt := now }
      let recorded : PromptQueueStore := { db with recovery := db.recovery ++ [record] }
      let db' := (recorded.updatePrompts (fun r => r.id = id) fun r =>
        { r with
          state := if resolution = "accepted" then .handled else .pending
          revision := r.revision + 1, handledAt := some now, handledBy := some actor
          handledReason := some (resolution ++ ": " ++ trim reason)
          deliveryState := some (if resolution = "accepted" then .accepted else .unsent)
          claimToken := none }).reorderQueue sessionId now
      -- an error inside the transaction rolls it back
      match db'.prompts.find? fun r => r.id = id with
      | some r => (.ok r, db')
      | none => (.error (.error "null is not an object"), db)

end PromptQueueStore

end PromptQueue
end WmAutopilot
