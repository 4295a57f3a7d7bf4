import WmAutopilot.Async.Solo
import WmAutopilot.Async.Triple
import WmAutopilot.Sessions.IsolatedTurns

/-!
# Continuity of isolated conversations

* `Event`, `Ordered`     the history of a conversation: requests are prepared and completed in turn,
                         and the native reference stays;
* `Recorded`             what a row says of the history;
* `World`, `Later`       the table with the histories; what every operation keeps;
* `Inv`, `turning`       the invariant of the table, and what is asked of an operation;
* `send_spec`, `recover_spec`   the programs;
* `isolated_continuity`  **the histories, the rows and the replies that are recovered**;
* `completed_again`      a request that was completed earlier is prepared and completed again.
-/

set_option autoImplicit false

namespace WmAutopilot
namespace IsolatedTurns
open Js Async

/-! ## histories -/

/-- what happens in a conversation. -/
inductive Event where
  | prepared (request : CompletedTurnRequest)
  | completed (requestId : String) (result : RunResult)

/-- what was completed, latest first. -/
def completions (log : List Event) : List (String × RunResult) :=
  log.filterMap fun
    | .prepared _ => none
    | .completed requestId result => some (requestId, result)

/-- the request that was prepared last. -/
def pending : List Event → Option CompletedTurnRequest
  | [] => none
  | .prepared request :: _ => some request
  | .completed _ _ :: log => pending log

/-- the files of the project after the latest event. -/
def project : List Event → List ProjectFile
  | [] => []
  | .prepared request :: _ => request.projectFiles
  | .completed _ result :: _ => result.project

/-- a reference that was set stays. -/
def KeepsReference (log : List Event) (result : RunResult) : Prop :=
  ∀ c ∈ completions log, c.2.nativeReference ≠ "" → result.nativeReference = c.2.nativeReference

/-- **A history**, latest event first: a request is prepared, then completed, and only then another
one is prepared. -/
inductive Ordered : List Event → Prop where
  | first (request : CompletedTurnRequest) : Ordered [.prepared request]
  | complete {request : CompletedTurnRequest} {log : List Event} (result : RunResult)
      (h : Ordered (.prepared request :: log)) (href : KeepsReference log result) :
      Ordered (.completed request.requestId result :: .prepared request :: log)
  | next {requestId : String} {result : RunResult} {log : List Event}
      (request : CompletedTurnRequest) (h : Ordered (.completed requestId result :: log))
      (hne : request.requestId ≠ requestId) :
      Ordered (.prepared request :: .completed requestId result :: log)

section
variable {log log' : List Event} {e : Event} {request : CompletedTurnRequest} {requestId : String}
  {result : RunResult}

@[simp] theorem completions_prepared : completions (.prepared request :: log) = completions log :=
  rfl

@[simp] theorem completions_completed : completions (.completed requestId result :: log) =
    (requestId, result) :: completions log := rfl

theorem completions_append : completions (log ++ log') = completions log ++ completions log' :=
  List.filterMap_append

/-- the latest completion and what came before it. -/
theorem completions_cons {c : String × RunResult} {cs : List (String × RunResult)}
    (h : completions log = c :: cs) :
    ∃ after before, log = after ++ .completed c.1 c.2 :: before ∧ completions before = cs := by
  induction log with
  | nil => cases h
  | cons e log ih =>
    cases e with
    | prepared request =>
      obtain ⟨after, before, rfl, hcs⟩ := ih h
      exact ⟨.prepared request :: after, before, rfl, hcs⟩
    | completed requestId result =>
      cases h
      exact ⟨[], log, rfl, rfl⟩

theorem Ordered.tail (h : Ordered (e :: log)) (hne : log ≠ []) : Ordered log := by
  cases h with
  | first => exact absurd rfl hne
  | complete result h => exact h
  | next request h => exact h

theorem Ordered.append (h : Ordered (log ++ log')) (hne : log' ≠ []) : Ordered log' := by
  induction log with
  | nil => exact h
  | cons e log ih => exact ih (h.tail (by simp [hne]))

/-- an event after the preparation of a request completes it. -/
theorem Ordered.after_prepared (h : Ordered (e :: .prepared request :: log)) :
    ∃ result, e = .completed request.requestId result := by
  cases h
  exact ⟨_, rfl⟩

theorem Ordered.completed_pending (h : Ordered (.completed requestId result :: log)) :
    ∃ request, pending log = some request ∧ request.requestId = requestId := by
  cases h
  exact ⟨_, rfl, rfl⟩

/-- nothing happened since a request was prepared if nothing was completed. -/
theorem Ordered.unchanged (h : Ordered log) (hsuffix : Event.prepared request :: log' <:+ log)
    (hlength : (completions log).length = (completions log').length) :
    log = .prepared request :: log' := by
  obtain ⟨since, rfl⟩ := hsuffix
  cases since using List.reverseRecOn with
  | nil => rfl
  | append_singleton since e =>
    rw [List.append_assoc] at h
    have hcons : Ordered (e :: .prepared request :: log') := h.append (by simp)
    obtain ⟨result, rfl⟩ := hcons.after_prepared
    rw [List.append_assoc, completions_append, List.length_append] at hlength
    exact absurd hlength (by simp; omega)

/-- a reference that the latest result keeps is kept of all. -/
theorem Ordered.keepsReference (h : Ordered log)
    (href : ∀ c ∈ (completions log).head?, c.2.nativeReference ≠ "" →
      result.nativeReference = c.2.nativeReference) : KeepsReference log result := by
  induction h with
  | first request =>
    intro c hc
    cases hc
  | next request h hne ih => exact ih href
  | @complete request log last h hlast ih =>
    have hhead := href _ rfl
    intro c hc hset
    rcases List.mem_cons.mp hc with rfl | hc
    · exact hhead hset
    · have heq := hlast c hc hset
      exact (hhead (by rw [heq]; exact hset)).trans heq

end

/-! ## rows -/

/-- **What a row says of the history** of its conversation. -/
structure Recorded (row : IsolatedTurnState) (log : List Event) : Prop where
  ordered : Ordered log
  turns : row.turns = (completions log).length
  pending : ∃ request, pending log = some request ∧ row.pendingRequestId = request.requestId ∧
    row.prompt = request.prompt
  completed : row.completedRequestId = (completions log).head?.map (·.1)
  reply : row.reply = (completions log).head?.map (·.2.reply)
  native : row.nativeReference = (completions log).head?.map (·.2.nativeReference)
  continuity : row.continuityJson = ((completions log).head?.map (·.2.continuity)).getD []
  project : row.projectJson = project log

section
variable {row : IsolatedTurnState} {log : List Event}

/-- **A request is resolved** exactly if the latest event completed it. -/
theorem Recorded.resolved (h : Recorded row log) :
    row.completedRequestId = some row.pendingRequestId ↔
      ∃ requestId result before, log = .completed requestId result :: before := by
  obtain ⟨request, hpending, hid, -⟩ := h.pending
  rw [h.completed, hid]
  have hordered := h.ordered
  cases log with
  | nil => cases hpending
  | cons e before =>
    cases e with
    | completed requestId result =>
      refine ⟨fun _ => ⟨_, _, _, rfl⟩, fun _ => ?_⟩
      obtain ⟨request', hpending', rfl⟩ := hordered.completed_pending
      rw [show IsolatedTurns.pending (.completed request'.requestId result :: before) =
        IsolatedTurns.pending before from rfl, hpending'] at hpending
      cases hpending
      rfl
    | prepared request' =>
      cases hpending
      constructor
      · intro hsome
        cases hordered with
        | first => cases hsome
        | next _ h hne =>
          rw [completions_prepared, completions_completed] at hsome
          exact absurd (Option.some.inj hsome).symm hne
      · rintro ⟨_, _, _, h⟩
        cases h

end

/-! ## the table and its histories -/

/-- the conversation of a row. -/
def IsolatedTurnState.conversation (row : IsolatedTurnState) : String × String :=
  (row.owner, row.conversationKey)

structure World where
  rows : Rows := []
  prepared : ℕ → String → Option (String × ℕ) := fun _ _ => none
  log : String × String → List Event := fun _ => []
  recovered : List (Receipt × Recovered) := []

namespace World

def Initial (w : World) : Prop := w.rows = [] ∧ (∀ k, w.log k = []) ∧ w.recovered = []

def happened (w : World) (rows : Rows) (k : String × String) (e : Event) : World :=
  { w with rows, log := Function.update w.log k (e :: w.log k) }

/-- the request is prepared already. -/
def Pending (w : World) (owner : String) (request : CompletedTurnRequest) : Prop :=
  (ofConversation w.rows owner request.conversationKey).map (·.pendingRequestId) =
    some request.requestId

instance (w : World) (owner : String) (request : CompletedTurnRequest) :
    Decidable (w.Pending owner request) := inferInstanceAs (Decidable (_ = _))

def prepare (w : World) (owner : String) (request : CompletedTurnRequest) (config : String)
    (boundId : Option String) (newId : String) : Except String IsolatedTurnState × World :=
  match prepareRow w.rows owner request config boundId newId with
  | .error e => (.error e, w)
  | .ok (rows, row) => (.ok row, if w.Pending owner request then w
      else w.happened rows (owner, request.conversationKey) (.prepared request))

def complete (w : World) (state : IsolatedTurnState) (result : RunResult) :
    Except String Unit × World :=
  match completeRows w.rows state result with
  | .error e => (.error e, w)
  | .ok rows => (.ok (), w.happened rows state.conversation (.completed state.pendingRequestId result))

def setPrepared (w : World) (executor : ℕ) (id requestId : String) (durationMs : ℕ) : World :=
  let mine := Function.update (w.prepared executor) id (some (requestId, durationMs))
  { w with prepared := Function.update w.prepared executor mine }

def restart (w : World) (executor : ℕ) : World :=
  { w with prepared := Function.update w.prepared executor fun _ => none }

end World

/-- What an operation does: the model answers anything, and an identifier is new. -/
inductive Performs : (o : Op) → World → o.Ans → World → Prop where
  | prepareRow (owner : String) (request : CompletedTurnRequest) (config : String)
      (boundId : Option String) (newId : String) (w : World)
      (hnew : ∀ row ∈ w.rows, row.executionId ≠ newId) :
      Performs (.prepareRow owner request config boundId) w
        (w.prepare owner request config boundId newId).1
        (w.prepare owner request config boundId newId).2
  | get (id : String) (w : World) : Performs (.get id) w (get w.rows id) w
  | setPrepared (executor : ℕ) (id requestId : String) (durationMs : ℕ) (w : World) :
      Performs (.setPrepared executor id requestId durationMs) w ()
        (w.setPrepared executor id requestId durationMs)
  | getPrepared (executor : ℕ) (id : String) (w : World) :
      Performs (.getPrepared executor id) w (w.prepared executor id) w
  | run (input : RunInput) (w : World) (r : Except String RunResult) : Performs (.run input) w r w
  | complete (state : IsolatedTurnState) (result : RunResult) (w : World) :
      Performs (.complete state result) w (w.complete state result).1 (w.complete state result).2
  | recovered (receipt : Receipt) (answer : Recovered) (w : World) :
      Performs (.recovered receipt answer) w ()
        { w with recovered := (receipt, answer) :: w.recovered }
  | restart (executor : ℕ) (w : World) : Performs (.restart executor) w () (w.restart executor)

/-- an executor may do anything of the runtime with its configuration. -/
inductive Spawn (config : ℕ → String) : Prog api Unit → Prop where
  | prepare (executor : ℕ) (binding : Binding) (request : CompletedTurnRequest) :
      Spawn config (prepare executor (config executor) binding request).detach
  | checkpoint (executor : ℕ) (id : String) :
      Spawn config (checkpoint (config executor) id).detach
  | send (executor : ℕ) (id prompt : String) :
      Spawn config (send executor (config executor) id prompt).detach
  | recover (executor : ℕ) (receipt : Receipt) :
      Spawn config (recover (config executor) receipt).detach
  | restart (executor : ℕ) : Spawn config (.call (.restart executor) .ret)

/-- the executors on one store. -/
def system (config : ℕ → String) : System api World where
  perform _ := Performs
  spawn _ _ p := Spawn config p
  crash w w' := w' = { w with prepared := fun _ _ => none }

/-! ## what every operation keeps -/

/-- rows stay the rows of their conversations, and histories only grow. -/
structure Later (w w' : World) : Prop where
  rows : ∀ row ∈ w.rows, ∃ row' ∈ w'.rows, row'.executionId = row.executionId ∧
    row'.conversation = row.conversation
  log : ∀ k, w.log k <:+ w'.log k

theorem Later.refl (w : World) : Later w w :=
  ⟨fun row hrow => ⟨row, hrow, rfl, rfl⟩, fun _ => List.suffix_rfl⟩

theorem Later.trans {w w' w'' : World} (h : Later w w') (h' : Later w' w'') : Later w w'' where
  rows row hrow := by
    obtain ⟨row', hrow', hid, hconv⟩ := h.rows row hrow
    obtain ⟨row'', hrow'', hid', hconv'⟩ := h'.rows row' hrow'
    exact ⟨row'', hrow'', hid'.trans hid, hconv'.trans hconv⟩
  log k := (h.log k).trans (h'.log k)

/-- rows are updated or appended, and something happens in one conversation. -/
theorem Later.happened {w : World} {rows : Rows} {k : String × String} {e : Event}
    (hrows : ∀ row ∈ w.rows, ∃ row' ∈ rows, row'.executionId = row.executionId ∧
      row'.conversation = row.conversation) : Later w (w.happened rows k e) where
  rows := hrows
  log k' := by
    by_cases hk : k' = k
    · subst hk
      simp [World.happened]
    · simp [World.happened, Function.update_of_ne hk]

/-- an update that keeps the identity of rows. -/
theorem update_kept {p : IsolatedTurnState → Prop} [DecidablePred p]
    {f : IsolatedTurnState → IsolatedTurnState} {rows : Rows}
    (hf : ∀ row, (f row).executionId = row.executionId ∧
      (f row).conversation = row.conversation) :
    ∀ row ∈ rows, ∃ row' ∈ Sql.update p f rows, row'.executionId = row.executionId ∧
      row'.conversation = row.conversation := by
  intro row hrow
  refine ⟨_, List.mem_map_of_mem hrow, ?_⟩
  split
  · exact hf row
  · exact ⟨rfl, rfl⟩

/-! ## what the statements do -/

section
variable {rows rows' : Rows} {owner key config newId : String} {boundId : Option String}
  {request : CompletedTurnRequest} {row existing : IsolatedTurnState}

theorem ofConversation_some (h : ofConversation rows owner key = some row) :
    row ∈ rows ∧ row.conversation = (owner, key) := by
  have hconv := List.find?_some h
  obtain ⟨howner, hkey⟩ := of_decide_eq_true hconv
  exact ⟨List.mem_of_find?_eq_some h, Prod.ext howner hkey⟩

theorem ofConversation_none (h : ofConversation rows owner key = none) :
    ∀ row ∈ rows, row.conversation ≠ (owner, key) := by
  intro row hrow heq
  have hnot := List.find?_eq_none.mp h row hrow
  exact hnot (decide_eq_true ⟨congrArg Prod.fst heq, congrArg Prod.snd heq⟩)

/-- what `prepare` does to the rows. -/
inductive Prepares (rows : Rows) (owner : String) (request : CompletedTurnRequest)
    (config newId : String) : Rows → IsolatedTurnState → Prop
  | insert (hnone : ofConversation rows owner request.conversationKey = none) :
      Prepares rows owner request config newId (rows ++ [newRow newId owner request config])
        (newRow newId owner request config)
  | again (row : IsolatedTurnState)
      (hrow : ofConversation rows owner request.conversationKey = some row)
      (hpending : row.pendingRequestId = request.requestId) :
      Prepares rows owner request config newId rows row
  | next (row : IsolatedTurnState)
      (hrow : ofConversation rows owner request.conversationKey = some row)
      (hpending : row.pendingRequestId ≠ request.requestId)
      (hresolved : row.completedRequestId = some row.pendingRequestId) :
      Prepares rows owner request config newId
        (Sql.update (fun r => r.executionId = row.executionId) (·.prepared request) rows)
        (row.prepared request)

theorem prepareRow_ok
    (h : prepareRow rows owner request config boundId newId = .ok (rows', row)) :
    Prepares rows owner request config newId rows' row := by
  simp only [prepareRow, bind_ok, throwIf_ok] at h
  obtain ⟨-, -, -, -, h⟩ := h
  cases hexisting : ofConversation rows owner request.conversationKey with
  | none =>
    rw [hexisting] at h
    cases h
    exact .insert hexisting
  | some existing =>
    rw [hexisting] at h
    by_cases hpending : existing.pendingRequestId = request.requestId
    · simp only [if_pos hpending] at h
      cases h
      exact .again _ hexisting hpending
    · simp only [if_neg hpending, bind_ok, throwIf_ok] at h
      obtain ⟨-, hresolved, h⟩ := h
      cases h
      exact .next _ hexisting hpending (not_not.mp hresolved).symm

theorem completeRows_ok {state : IsolatedTurnState} {result : RunResult}
    (h : completeRows rows state result = .ok rows') :
    ¬ContinuityLost state result ∧ (∃ row ∈ rows, Bound state row) ∧
      rows' = Sql.update (Bound state) (·.completed state.pendingRequestId result) rows := by
  simp only [completeRows, bind_ok, throwIf_ok] at h
  obtain ⟨-, hkept, -, hone, h⟩ := h
  cases h
  refine ⟨hkept, Sql.changes_pos.mp ?_, rfl⟩
  omega

theorem Prepares.kept (h : Prepares rows owner request config newId rows' row) :
    ∀ r ∈ rows, ∃ r' ∈ rows', r'.executionId = r.executionId ∧
      r'.conversation = r.conversation := by
  cases h with
  | insert hnone => exact fun r hr => ⟨r, List.mem_append_left _ hr, rfl, rfl⟩
  | again => exact fun r hr => ⟨r, hr, rfl, rfl⟩
  | next => exact update_kept fun _ => ⟨rfl, rfl⟩

end

/-- **What every operation keeps.** -/
theorem Performs.later {o : Op} {w w' : World} {r : o.Ans} (h : Performs o w r w') :
    Later w w' := by
  cases h with
  | get | getPrepared | run => exact .refl w
  | setPrepared | recovered | restart => exact ⟨fun row hrow => ⟨row, hrow, rfl, rfl⟩, fun _ =>
      List.suffix_rfl⟩
  | prepareRow owner request config boundId newId _ hnew =>
    unfold World.prepare
    split
    · exact .refl w
    · next rows row hok =>
      dsimp only
      split
      · exact .refl w
      · exact .happened (prepareRow_ok hok).kept
  | complete state result =>
    unfold World.complete
    split
    · exact .refl w
    · next rows hok =>
      obtain ⟨-, -, rfl⟩ := completeRows_ok hok
      exact .happened (update_kept fun _ => ⟨rfl, rfl⟩)

/-! ## the invariant -/

/-- a reply was produced by the request of its receipt, after as many turns as its checkpoint
says. -/
def Produced (log : String × String → List Event) (receipt : Receipt) (answer : Recovered) : Prop :=
  ∃ after before result, log (receipt.owner, receipt.conversationKey) =
      after ++ .completed receipt.requestId result :: before ∧
    answer.reply = result.reply ∧ answer.nativeSessionId = result.nativeReference ∧
    receipt.checkpoint = some (completions before).length

structure Inv (w : World) : Prop where
  ids : (w.rows.map (·.executionId)).Nodup
  conversations : (w.rows.map (·.conversation)).Nodup
  recorded : ∀ row ∈ w.rows, Recorded row (w.log row.conversation)
  empty : ∀ k, (∀ row ∈ w.rows, row.conversation ≠ k) → w.log k = []
  recovered : ∀ x ∈ w.recovered, Produced w.log x.1 x.2

/-- a row as it was read at some time. -/
def Seen (value : IsolatedTurnState) (w : World) : Prop :=
  (∃ row ∈ w.rows, row.executionId = value.executionId ∧
    row.conversation = value.conversation) ∧
  ∃ log, Recorded value log ∧ log <:+ w.log value.conversation

/-- what is completed was read and was not completed; what is recovered was produced. -/
def May (o : Op) (w : World) : Prop :=
  match o with
  | .complete state _ => Seen state w ∧ state.completedRequestId ≠ some state.pendingRequestId
  | .recovered receipt answer => Produced w.log receipt answer
  | _ => True

/-- the discipline of the store. -/
def turning (config : ℕ → String) : Discipline api World where
  toSystem := system config
  Inv := Inv
  may _ := May

section
variable {w w' : World} {value row : IsolatedTurnState} {receipt : Receipt} {answer : Recovered}

theorem Seen.later (h : Seen value w) (hlater : Later w w') : Seen value w' := by
  obtain ⟨⟨row, hrow, hid, hconv⟩, log, hrecorded, hlog⟩ := h
  obtain ⟨row', hrow', hid', hconv'⟩ := hlater.rows row hrow
  exact ⟨⟨row', hrow', hid'.trans hid, hconv'.trans hconv⟩, log, hrecorded,
    hlog.trans (hlater.log _)⟩

theorem Produced.later (h : Produced w.log receipt answer) (hlater : Later w w') :
    Produced w'.log receipt answer := by
  obtain ⟨after, before, result, hlog, hanswer⟩ := h
  obtain ⟨since, hsince⟩ := hlater.log (receipt.owner, receipt.conversationKey)
  refine ⟨since ++ after, before, result, ?_, hanswer⟩
  rw [← hsince, hlog, List.append_assoc]

theorem Inv.seen (h : Inv w) (hrow : row ∈ w.rows) : Seen row w :=
  ⟨⟨row, hrow, rfl, rfl⟩, _, h.recorded row hrow, List.suffix_rfl⟩

/-- rows and histories after something happened in a conversation whose row became `row'`. -/
theorem Inv.happened (h : Inv w) {rows : Rows} {k : String × String} {e : Event}
    (hids : (rows.map (·.executionId)).Nodup) (hconvs : (rows.map (·.conversation)).Nodup)
    (hkept : ∀ row ∈ w.rows, ∃ row' ∈ rows, row'.executionId = row.executionId ∧
      row'.conversation = row.conversation)
    (hrow : ∀ row ∈ rows, row.conversation = k ∧ Recorded row (e :: w.log k) ∨
      row.conversation ≠ k ∧ row ∈ w.rows)
    (hk : ∃ row ∈ rows, row.conversation = k) : Inv (w.happened rows k e) where
  ids := hids
  conversations := hconvs
  recorded row hmem := by
    rcases hrow row hmem with ⟨rfl, hrecorded⟩ | ⟨hne, hold⟩
    · simpa [World.happened] using hrecorded
    · have := h.recorded row hold
      simpa [World.happened, Function.update_of_ne hne] using this
  empty k' hnone := by
    obtain ⟨row, hmem, rfl⟩ := hk
    have hne : k' ≠ row.conversation := fun heq => hnone row hmem heq.symm
    show Function.update w.log row.conversation _ k' = []
    rw [Function.update_of_ne hne]
    refine h.empty k' fun r hr heq => ?_
    obtain ⟨r', hr', -, hconv⟩ := hkept r hr
    exact hnone r' hr' (hconv.trans heq)
  recovered x hx := (h.recovered x hx).later (.happened hkept)

end

/-! ## the statements keep the invariant -/

section
variable {w w' : World} {row state : IsolatedTurnState} {log : List Event}
  {request : CompletedTurnRequest} {result : RunResult} {owner config newId : String}
  {boundId : Option String}

theorem Recorded.newRow (newId owner : String) (request : CompletedTurnRequest) (config : String) :
    Recorded (newRow newId owner request config) [.prepared request] :=
  ⟨.first request, rfl, ⟨request, rfl, rfl, rfl⟩, rfl, rfl, rfl, rfl, rfl⟩

/-- the next request is prepared when the last one is resolved. -/
theorem Recorded.prepared (h : Recorded row log)
    (hresolved : row.completedRequestId = some row.pendingRequestId)
    (hne : row.pendingRequestId ≠ request.requestId) :
    Recorded (row.prepared request) (.prepared request :: log) := by
  obtain ⟨requestId, last, before, rfl⟩ := h.resolved.mp hresolved
  have hlast : row.completedRequestId = some requestId := h.completed
  have hid : requestId = row.pendingRequestId := Option.some.inj (hlast.symm.trans hresolved)
  exact ⟨.next request h.ordered fun heq => hne (hid.symm.trans heq.symm), h.turns,
    ⟨request, rfl, rfl, rfl⟩, h.completed, h.reply, h.native, h.continuity, rfl⟩

/-- the request that is pending is completed. -/
theorem Recorded.complete {request : CompletedTurnRequest} {rest : List Event}
    (h : Recorded row (.prepared request :: rest)) (hkept : ¬ContinuityLost row result) :
    Recorded (row.completed row.pendingRequestId result)
      (.completed row.pendingRequestId result :: .prepared request :: rest) := by
  obtain ⟨request', hpending, hid, hprompt⟩ := h.pending
  cases hpending
  have href : KeepsReference rest result := by
    have hhead : ∀ c ∈ (completions (.prepared request :: rest)).head?,
        c.2.nativeReference ≠ "" → result.nativeReference = c.2.nativeReference := by
      intro c hc hset
      have hnative : row.nativeReference = some c.2.nativeReference := by
        rw [h.native, Option.mem_def.mp hc]
        rfl
      by_contra hne
      refine hkept (.inr ⟨c.2.nativeReference, ?_, hne⟩)
      rw [hnative]
      exact Option.filter_eq_some_iff.mpr ⟨rfl, decide_eq_true hset⟩
    exact h.ordered.keepsReference hhead
  refine ⟨?_, ?_, ⟨request, rfl, hid, hprompt⟩, rfl, rfl, rfl, rfl, rfl⟩
  · rw [hid]
    exact .complete result h.ordered href
  · exact congrArg (· + 1) h.turns

theorem eq_of_conversation (h : Inv w) {r r' : IsolatedTurnState} (hr : r ∈ w.rows)
    (hr' : r' ∈ w.rows) (heq : r.conversation = r'.conversation) : r = r' :=
  List.inj_on_of_nodup_map h.conversations hr hr' heq

theorem eq_of_id (h : Inv w) {r r' : IsolatedTurnState} (hr : r ∈ w.rows) (hr' : r' ∈ w.rows)
    (heq : r.executionId = r'.executionId) : r = r' :=
  List.inj_on_of_nodup_map h.ids hr hr' heq

/-- **Something happened to one row**, which is updated in place. -/
theorem Inv.updated (h : Inv w) (hrow : row ∈ w.rows) {p : IsolatedTurnState → Prop}
    [DecidablePred p] {f : IsolatedTurnState → IsolatedTurnState} {e : Event}
    (hp : ∀ r ∈ w.rows, p r ↔ r = row)
    (hf : ∀ r, (f r).executionId = r.executionId ∧ (f r).conversation = r.conversation)
    (hrecorded : Recorded (f row) (e :: w.log row.conversation)) :
    Inv (w.happened (Sql.update p f w.rows) row.conversation e) := by
  refine h.happened ?_ ?_ (update_kept hf) ?_ ?_
  · exact Sql.map_update (p := p) (t := w.rows) (fun r => (hf r).1) ▸ h.ids
  · exact Sql.map_update (p := p) (t := w.rows) (fun r => (hf r).2) ▸ h.conversations
  · intro r' hr'
    obtain ⟨r, hr, rfl⟩ := Sql.mem_update.mp hr'
    by_cases heq : r = row
    · subst heq
      rw [if_pos ((hp r hr).mpr rfl)]
      exact .inl ⟨(hf r).2, hrecorded⟩
    · rw [if_neg fun hpr => heq ((hp r hr).mp hpr)]
      exact .inr ⟨fun hconv => heq (eq_of_conversation h hr hrow hconv), hr⟩
  · obtain ⟨row', hrow', -, hconv⟩ := update_kept (p := p) hf row hrow
    exact ⟨row', hrow', hconv⟩

theorem Inv.prepare (h : Inv w) (hnew : ∀ row ∈ w.rows, row.executionId ≠ newId) :
    Inv (w.prepare owner request config boundId newId).2 := by
  unfold World.prepare
  split
  · exact h
  · next rows row hok =>
    cases prepareRow_ok hok with
    | again _ hrow hpending =>
      have hagain : w.Pending owner request := by
        unfold World.Pending
        rw [hrow, Option.map_some, hpending]
      dsimp only
      rw [if_pos hagain]
      exact h
    | insert hnone =>
      have hnot : ¬w.Pending owner request := by
        unfold World.Pending
        rw [hnone]
        exact nofun
      dsimp only
      rw [if_neg hnot]
      have hother := ofConversation_none hnone
      refine h.happened ?_ ?_ (fun r hr => ⟨r, List.mem_append_left _ hr, rfl, rfl⟩) ?_ ?_
      · rw [List.map_append, List.map_singleton]
        refine List.nodup_append.mpr ⟨h.ids, List.nodup_singleton _, ?_⟩
        intro id hid id' hid'
        obtain ⟨r, hr, rfl⟩ := List.mem_map.mp hid
        rw [List.mem_singleton.mp hid']
        exact hnew r hr
      · rw [List.map_append, List.map_singleton]
        refine List.nodup_append.mpr ⟨h.conversations, List.nodup_singleton _, ?_⟩
        intro k hk k' hk'
        obtain ⟨r, hr, rfl⟩ := List.mem_map.mp hk
        rw [List.mem_singleton.mp hk']
        exact hother r hr
      · intro r hr
        rcases List.mem_append.mp hr with hr | hr
        · exact .inr ⟨hother r hr, hr⟩
        · rw [List.mem_singleton.mp hr, h.empty _ hother]
          exact .inl ⟨rfl, .newRow newId owner request config⟩
      · exact ⟨newRow newId owner request config, by simp, rfl⟩
    | next row hrow hpending hresolved =>
      have hnot : ¬w.Pending owner request := by
        unfold World.Pending
        rw [hrow, Option.map_some]
        exact fun heq => hpending (Option.some.inj heq)
      dsimp only
      rw [if_neg hnot]
      obtain ⟨hmem, hconv⟩ := ofConversation_some hrow
      rw [← hconv]
      refine h.updated hmem (fun r hr => ⟨fun hid => eq_of_id h hr hmem hid, ?_⟩)
        (fun r => ⟨rfl, rfl⟩) ((h.recorded row hmem).prepared hresolved hpending)
      exact fun heq => heq ▸ rfl

/-- **A completion is of the request that is pending**: nothing has happened since it was read. -/
theorem Inv.complete (h : Inv w) (hseen : Seen state w)
    (hunresolved : state.completedRequestId ≠ some state.pendingRequestId) :
    Inv (w.complete state result).2 := by
  unfold World.complete
  split
  · exact h
  · next rows hok =>
    obtain ⟨hkept, ⟨row, hrow, hbound⟩, rfl⟩ := completeRows_ok hok
    obtain ⟨⟨row', hrow', hid', hconv'⟩, log, hrecorded, hsuffix⟩ := hseen
    obtain rfl : row = row' := eq_of_id h hrow hrow' (hbound.1.trans hid'.symm)
    obtain ⟨request, rest, rfl⟩ : ∃ request rest, log = .prepared request :: rest := by
      cases log with
      | nil =>
        obtain ⟨request, hpending, -⟩ := hrecorded.pending
        cases hpending
      | cons e rest =>
        cases e with
        | prepared request => exact ⟨request, rest, rfl⟩
        | completed requestId last =>
          exact absurd (hrecorded.resolved.mpr ⟨requestId, last, rest, rfl⟩) hunresolved
    have hnow := h.recorded row hrow
    rw [← hconv'] at hsuffix
    have hlog : w.log row.conversation = .prepared request :: rest := by
      refine hnow.ordered.unchanged hsuffix ?_
      rw [← hnow.turns, hbound.2.2, hrecorded.turns]
      rfl
    rw [hlog] at hnow
    have hnative : row.nativeReference = state.nativeReference :=
      hnow.native.trans hrecorded.native.symm
    have hkeptRow : ¬ContinuityLost row result := by
      unfold ContinuityLost
      rw [hnative]
      exact hkept
    rw [← hconv', ← hbound.2.1]
    refine h.updated hrow (fun r hr => ⟨fun hr' => ?_, ?_⟩) (fun r => ⟨rfl, rfl⟩)
      (hlog ▸ hnow.complete hkeptRow)
    · exact eq_of_id h hr hrow (hr'.1.trans hid'.symm)
    · rintro rfl
      exact hbound

end

section
variable {config : ℕ → String} {κ : ℕ} {w w' : World}

/-- **One operation** that is permitted keeps the invariant. -/
theorem turning_perform {o : Op} {r : o.Ans} (hi : (turning config).Inv w)
    (hmay : (turning config).may κ o w) (ho : (turning config).perform κ o w r w') :
    (turning config).Inv w' := by
  cases ho with
  | get | getPrepared | run => exact hi
  | setPrepared | restart =>
    have h : Inv w := hi
    exact ⟨h.ids, h.conversations, h.recorded, h.empty, h.recovered⟩
  | recovered receipt answer =>
    have h : Inv w := hi
    refine ⟨h.ids, h.conversations, h.recorded, h.empty, fun x hx => ?_⟩
    rcases List.mem_cons.mp hx with rfl | hx
    · exact hmay
    · exact h.recovered x hx
  | prepareRow _ _ _ _ _ _ hnew => exact Inv.prepare hi hnew
  | complete state result => exact Inv.complete hi hmay.1 hmay.2

/-! ## the programs -/

/-- **What `Later` keeps is stable.** -/
theorem stable_of_later {P : World → Prop} (hP : ∀ w w', P w → Later w w' → P w') :
    Stable (turning config) κ P := by
  rintro w w' hw ⟨κ', o, r, -, -, -, ho⟩
  exact hP w w' hw (Performs.later ho)

theorem stable_any : Stable (turning config) κ Any := Stable.const True

theorem stable_seen {value : IsolatedTurnState} : Stable (turning config) κ (Seen value) :=
  stable_of_later fun _ _ => Seen.later

theorem raise_spec {α : Type} {P : World → Prop} {x : Except String α} :
    Triple (turning config) κ P (raise x) (fun a w => P w ∧ x = .ok a) Any₂ := by
  cases x with
  | ok a => exact Triple.pure fun _ _ hP => ⟨hP, rfl⟩
  | error e => exact Triple.throw fun _ _ _ => trivial

/-- the row that is read was seen. -/
theorem state_spec (image id : String) :
    Triple (turning config) κ Any (state image id) Seen Any₂ := by
  unfold state
  refine Triple.bind (R := fun value w => ∀ row ∈ value, Seen row w) (Triple.op stable_any
    (fun _ _ _ => trivial) fun w value w' hi _ ho _ => ?_) fun value => ?_
  · cases ho
    exact fun row hrow => Inv.seen hi (List.mem_of_find?_eq_some hrow)
  · refine Triple.bind raise_spec fun row => ?_
    refine Triple.bind raise_spec fun _ => Triple.pure fun w _ h => ?_
    exact h.1.1 row (orThrow_ok.mp h.1.2)

theorem prepare_spec (executor : ℕ) (image : String) (binding : Binding)
    (request : CompletedTurnRequest) :
    Triple (turning config) κ Any (prepare executor image binding request) Any₂ Any₂ := by
  unfold prepare
  refine Triple.bind (R := Any₂) (Triple.tryOp stable_any (fun _ _ _ => trivial)
    (fun _ _ _ _ _ _ _ _ _ => trivial) fun _ _ _ _ _ _ _ _ _ => trivial) fun value => ?_
  exact Triple.bind (R := Any₂) (Triple.op stable_any (fun _ _ _ => trivial)
    fun _ _ _ _ _ _ _ => trivial) fun _ => Triple.pure fun _ _ _ => trivial

/-- **What is completed** was read before the run, and was not completed. -/
theorem send_spec (executor : ℕ) (image id prompt : String) :
    Triple (turning config) κ Any (send executor image id prompt) Any₂ Any₂ := by
  unfold send
  refine Triple.bind (state_spec image id) fun value => ?_
  refine Triple.bind (R := fun _ => Seen value) (Triple.op stable_seen (fun _ _ _ => trivial)
    fun w pending w' _ h ho _ => h.later (Performs.later ho)) fun pending => ?_
  refine Triple.bind raise_spec fun _ => ?_
  refine Triple.assume fun hsendable => ?_
  have hunresolved : value.completedRequestId ≠ some value.pendingRequestId :=
    (not_not.mp (throwIf_ok.mp hsendable)).2.2
  refine Triple.bind (R := fun _ => Seen value) (Triple.tryOp stable_seen (fun _ _ _ => trivial)
    (fun w r w' _ _ h ho _ _ => h.later (Performs.later ho)) fun _ _ _ _ _ _ _ _ _ => trivial)
    fun result => ?_
  refine Triple.bind (R := fun _ => Seen value) (raise_spec.post (fun _ _ _ h => h.1)
    fun _ _ _ h => h) fun _ => ?_
  refine Triple.bind (R := fun _ => Seen value) (raise_spec.post (fun _ _ _ h => h.1)
    fun _ _ _ h => h) fun _ => ?_
  refine Triple.bind (R := Any₂) (Triple.tryOp stable_seen (fun w _ h => ⟨h, hunresolved⟩)
    (fun _ _ _ _ _ _ _ _ _ => trivial) fun _ _ _ _ _ _ _ _ _ => trivial) fun _ => ?_
  refine Triple.bind (state_spec image id).any fun completed => ?_
  exact Triple.bind (R := Any₂) raise_spec.any fun _ => Triple.pure fun _ _ _ => trivial

/-- **A reply that is recovered** was produced by the request of the receipt. -/
theorem Seen.produced {value : IsolatedTurnState} {receipt : Receipt} {checkpoint : ℕ}
    {answer : Recovered} (h : Seen value w)
    (hanswer : answerOf receipt checkpoint value = .ok (some answer))
    (hcheckpoint : receipt.checkpoint = some checkpoint) : Produced w.log receipt answer := by
  obtain ⟨-, log, hrecorded, hsuffix⟩ := h
  simp only [answerOf, bind_ok, throwIf_ok] at hanswer
  obtain ⟨-, howner, hanswer⟩ := hanswer
  split at hanswer
  · next hreceipt =>
    obtain ⟨hcompleted, hturns⟩ := hreceipt
    split at hanswer
    · next reply reference hreply hnative =>
      simp only [bind_ok] at hanswer
      obtain ⟨-, -, files, -, hanswer⟩ := hanswer
      cases hanswer
      have hreply' : value.reply = some reply := (Option.filter_eq_some_iff.mp hreply).1
      have hnative' : value.nativeReference = some reference :=
        (Option.filter_eq_some_iff.mp hnative).1
      rw [hrecorded.completed] at hcompleted
      rw [hrecorded.reply] at hreply'
      rw [hrecorded.native] at hnative'
      rw [hrecorded.turns] at hturns
      cases hcompletions : completions log with
      | nil =>
        rw [hcompletions] at hcompleted
        cases hcompleted
      | cons c cs =>
        rw [hcompletions] at hcompleted hreply' hnative' hturns
        obtain ⟨after, before, hlog, hbefore⟩ := completions_cons hcompletions
        obtain ⟨since, hsince⟩ := hsuffix
        have hconv : value.conversation = (receipt.owner, receipt.conversationKey) := by
          have := not_or.mp howner
          exact Prod.ext (not_not.mp this.1) (not_not.mp this.2)
        have hid : receipt.requestId = c.1 := (Option.some.inj hcompleted).symm
        refine ⟨since ++ after, before, c.2, ?_, (Option.some.inj hreply').symm,
          (Option.some.inj hnative').symm, ?_⟩
        · rw [← hconv, ← hsince, hlog, List.append_assoc, hid]
        · rw [hcheckpoint, hbefore]
          rw [List.length_cons] at hturns
          exact congrArg some (Nat.succ.inj hturns).symm
    · cases hanswer
  · cases hanswer

theorem recover_spec (image : String) (receipt : Receipt) :
    Triple (turning config) κ Any (recover image receipt) Any₂ Any₂ := by
  unfold recover
  refine Triple.bind raise_spec.any fun id => ?_
  refine Triple.bind raise_spec fun checkpoint => ?_
  refine Triple.assume fun hcheckpoint => ?_
  refine Triple.bind (state_spec image id) fun value => ?_
  refine Triple.bind raise_spec fun answer => ?_
  refine Triple.assume fun hanswer => ?_
  cases answer with
  | none => exact Triple.pure fun _ _ _ => trivial
  | some answer =>
    refine Triple.bind (R := Any₂) (Triple.op stable_seen (fun w _ h => ?_)
      fun _ _ _ _ _ _ _ => trivial) fun _ => Triple.pure fun _ _ _ => trivial
    exact h.produced hanswer (orThrow_ok.mp hcheckpoint)

/-- **The discipline of the store is kept.** -/
theorem turning_keeps (config : ℕ → String) : (turning config).Keeps where
  perform := turning_perform
  crash hi h := by
    have hi : Inv _ := hi
    subst h
    exact ⟨hi.ids, hi.conversations, hi.recorded, hi.empty, hi.recovered⟩
  spawn hi h := by
    cases h with
    | prepare executor binding request => exact (prepare_spec executor _ binding request).detach hi
    | checkpoint executor id =>
      exact (Triple.bind (state_spec _ id).any fun _ => Triple.pure (Q := Any₂)
        fun _ _ _ => trivial : Triple _ _ Any (checkpoint _ id) Any₂ Any₂).detach hi
    | send executor id prompt => exact (send_spec executor _ id prompt).detach hi
    | recover executor receipt => exact (recover_spec _ receipt).detach hi
    | restart executor => exact fun w₁ _ _ => ⟨trivial, fun _ _ _ _ => trivial⟩

end

/-! ## continuity -/

/-- **Continuity of isolated conversations.**  In every reachable state: a conversation has one row;
the row says what its history says, in which requests are prepared and completed in turn and the
native reference stays; a reply that was recovered is the one that the request of its receipt
produced after as many turns as its checkpoint says.  And histories only grow. -/
theorem isolated_continuity (config : ℕ → String) {c : Conf api World}
    (h : Reachable (system config) World.Initial c) :
    (c.state.rows.map (·.conversation)).Nodup ∧
    (∀ row ∈ c.state.rows, Recorded row (c.state.log row.conversation)) ∧
    (∀ x ∈ c.state.recovered, Produced c.state.log x.1 x.2) ∧
    ∀ c', Steps (system config) c c' → ∀ k, c.state.log k <:+ c'.state.log k := by
  have h0 : ∀ w, World.Initial w → (turning config).Inv w := by
    rintro w ⟨hrows, hlog, hrecovered⟩
    exact ⟨by simp [hrows], by simp [hrows], by simp [hrows], fun k _ => hlog k, by
      simp [hrecovered]⟩
  have hok : ConfOk (turning config) c := (turning_keeps config).reachable h0 h
  have hi : Inv c.state := hok.inv
  refine ⟨hi.conversations, hi.recorded, hi.recovered, fun c' hs k => ?_⟩
  have hlater : Later c.state c'.state := by
    refine hok.run (turning_keeps config) Later.refl (fun _ _ _ => Later.trans)
      (fun κ o w r w' _ _ ho => Performs.later ho) (fun w w' _ hcrash => ?_) hs
    exact hcrash ▸ ⟨fun row hrow => ⟨row, hrow, rfl, rfl⟩, fun _ => List.suffix_rfl⟩
  exact hlater.log k

/-! ## a request that is prepared again -/

/-- no request is completed twice. -/
def OnceCompleted (w : World) : Prop :=
  ∀ k, ((completions (w.log k)).map (·.1)).Nodup

/-- an identifier that no row has. -/
def World.newId (w : World) : String := "execution-" ++ toString w.rows.length

def someResult : RunResult := ⟨"native", "Done", [], []⟩

def someAnswer : (o : Op) → World → o.Ans
  | .prepareRow owner request config boundId, w =>
    (w.prepare owner request config boundId w.newId).1
  | .get id, w => get w.rows id
  | .getPrepared executor id, w => w.prepared executor id
  | .run _, _ => .ok someResult
  | .complete state result, w => (w.complete state result).1
  | .setPrepared .., _ | .recovered .., _ | .restart _, _ => ()

def someEffect : Op → World → World
  | .prepareRow owner request config boundId, w =>
    (w.prepare owner request config boundId w.newId).2
  | .setPrepared executor id requestId durationMs, w => w.setPrepared executor id requestId durationMs
  | .complete state result, w => (w.complete state result).2
  | .recovered receipt answer, w => { w with recovered := (receipt, answer) :: w.recovered }
  | .restart executor, w => w.restart executor
  | _, w => w

/-- the identifier is new. -/
def isNew (_ : Op) (w : World) : Bool := w.rows.all fun row => row.executionId ≠ w.newId

theorem performs_some (o : Op) (w : World) (ho : isNew o w = true) :
    Performs o w (someAnswer o w) (someEffect o w) := by
  cases o with
  | prepareRow owner request config boundId =>
    exact .prepareRow owner request config boundId w.newId w fun row hrow =>
      of_decide_eq_true (List.all_eq_true.mp ho row hrow)
  | _ => constructor

def someRequest (requestId : String) : CompletedTurnRequest where
  conversationKey := "conversation"
  requestId := requestId
  prompt := requestId
  projectFiles := []
  durationMs := 1000

/-- the programs of a run: two requests, and the first of them again. -/
def repeated : List (Prog api Unit) :=
  ["first", "second", "first"].flatMap fun requestId =>
    [(prepare 0 "image" ⟨"owner", none⟩ (someRequest requestId)).detach,
      (send 0 "image" "execution-0" requestId).detach]

/-- the state after that run. -/
def repeatedWorld : World := Prog.runAll someAnswer someEffect repeated {}

theorem repeated_reachable :
    Reachable (system fun _ => "image") World.Initial (.idle repeatedWorld) := by
  refine Reachable.runAll 0 performs_some (fun p hp => ?_) ⟨{}, ⟨rfl, fun _ => rfl, rfl⟩, .refl⟩
    (by decide +kernel)
  obtain ⟨requestId, -, hp⟩ := List.mem_flatMap.mp hp
  rcases List.mem_cons.mp hp with rfl | hp
  · exact ⟨rfl, fun _ => .prepare 0 _ _⟩
  · rw [List.mem_singleton.mp hp]
    exact ⟨rfl, fun _ => .send 0 _ _⟩

/-- **A request is completed again** after another request of its conversation. -/
theorem completed_again : ¬∀ c, Reachable (system fun _ => "image") World.Initial c →
    OnceCompleted c.state := by
  intro h
  have honce := h _ repeated_reachable ("owner", "conversation")
  revert honce
  decide +kernel

theorem isolated_continuity_repeated : repeatedWorld.rows.length = 1 ∧
    (repeatedWorld.rows.map (·.conversation)).Nodup ∧
    ∀ row ∈ repeatedWorld.rows, Recorded row (repeatedWorld.log row.conversation) := by
  obtain ⟨hconvs, hrecorded, -⟩ := isolated_continuity (fun _ => "image") repeated_reachable
  exact ⟨by decide +kernel, hconvs, hrecorded⟩

end IsolatedTurns
end WmAutopilot
