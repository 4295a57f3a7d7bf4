import WmAutopilot.Async.Schedule
import WmAutopilot.SessionDispatch.DispatchService

/-!
# The results of the dispatches

A dispatch keeps the result that was captured for it, whatever the service does afterwards.

* `Captured`, `SameResult`   a dispatch with its result;
* `Change`, `Changes`        what a call does to the rows, and which dispatch it captures;
* `action_changes`, `performs_changes`   **every call does that**;
* `Sound`, `may`, `keeps`    a result is captured by the check that is under way, once;
* `Pass`                     what a check knows of the dispatches that it has to look at;
* `Settled`                  what is expected of a captured dispatch;
* `results_stay`             **it holds of every run**;
* `results_stay_failed`      a run in which the creation of a dispatch fails after its capture.
-/

set_option autoImplicit false
set_option linter.unusedVariables false

namespace WmAutopilot
namespace SessionDispatches
open Async Sql SessionDispatchStore

/-! ## rows -/

/-- the worker has not ended. -/
def DispatchState.Opened (state : DispatchState) : Prop := state = .creating ∨ state = .running

/-- there is nothing left to do for the dispatch. -/
def DispatchState.Final (state : DispatchState) : Prop :=
  state = .closed ∨ state = .failed ∨ state = .superseded

/-- the dispatch has a terminal status, and its result. -/
def Captured (r : SessionDispatch) : Prop := r.terminalStatus ≠ none ∧ r.terminalFingerprint ≠ none

/-- the result of a dispatch. -/
structure SameResult (r r' : SessionDispatch) : Prop where
  status : r'.terminalStatus = r.terminalStatus
  message : r'.terminalMessage = r.terminalMessage
  createdAt : r'.terminalMessageCreatedAt = r.terminalMessageCreatedAt
  fingerprint : r'.terminalFingerprint = r.terminalFingerprint

/-- What a call does to a row, when it retries and captures some dispatches. -/
structure Change (retries : List String) (captures : Option String) (r r' : SessionDispatch) :
    Prop where
  id : r'.dispatchId = r.dispatchId
  result : captures ≠ some r.dispatchId → SameResult r r'
  opened : r'.state.Opened → r.state.Opened ∧ SameResult r r'
  final : r.state.Final → r.dispatchId ∉ retries → captures ≠ some r.dispatchId → r'.state.Final

/-- What a call does to the rows: each changes in its place, and there may be a new one. -/
structure Changes (retries : List String) (captures : Option String)
    (rows rows' : List SessionDispatch) : Prop where
  rows : ∃ (f : SessionDispatch → SessionDispatch) (new : Option SessionDispatch),
    rows' = rows.map f ++ new.toList ∧ (∀ r ∈ rows, Change retries captures r (f r)) ∧
      ∀ r ∈ new, r.terminalFingerprint = none ∧ ∀ x ∈ rows, x.dispatchId ≠ r.dispatchId

/-- the dispatch that a call captures. -/
def Action.captures : Action → Option String
  | .capture record _ _ _ _ => some record.dispatchId
  | _ => none

section
variable {retries : List String} {captures : Option String} {r r' : SessionDispatch}
  {rows rows' : List SessionDispatch} {db : SessionDispatchStore}

theorem SameResult.refl (r : SessionDispatch) : SameResult r r := ⟨rfl, rfl, rfl, rfl⟩

theorem Change.refl (r : SessionDispatch) : Change retries captures r r where
  id := rfl
  result _ := .refl r
  opened h := ⟨h, .refl r⟩
  final h _ _ := h

theorem SameResult.trans {r'' : SessionDispatch} (h : SameResult r r') (h' : SameResult r' r'') :
    SameResult r r'' :=
  ⟨h'.status.trans h.status, h'.message.trans h.message, h'.createdAt.trans h.createdAt,
    h'.fingerprint.trans h.fingerprint⟩

theorem SameResult.captured (h : SameResult r r') (hr : Captured r) : Captured r' :=
  ⟨h.status ▸ hr.1, h.fingerprint ▸ hr.2⟩

theorem Change.trans {r'' : SessionDispatch} (h : Change retries captures r r')
    (h' : Change retries captures r' r'') : Change retries captures r r'' where
  id := h'.id.trans h.id
  result hne := (h.result hne).trans (h'.result (h.id ▸ hne))
  opened hopen := by
    obtain ⟨hopen', hresult'⟩ := h'.opened hopen
    obtain ⟨hopen, hresult⟩ := h.opened hopen'
    exact ⟨hopen, hresult.trans hresult'⟩
  final hfinal hretry hcapture :=
    h'.final (h.final hfinal hretry hcapture) (h.id ▸ hretry) (h.id ▸ hcapture)

/-- a change of an open or a finished dispatch that is no new result. -/
theorem Change.of_result (hid : r'.dispatchId = r.dispatchId) (hresult : SameResult r r')
    (hopened : ¬r'.state.Opened) (hfinal : r.state.Final → r.dispatchId ∉ retries → r'.state.Final) :
    Change retries captures r r' where
  id := hid
  result _ := hresult
  opened h := absurd h hopened
  final h hretry _ := hfinal h hretry

/-- rows that change in their places. -/
theorem Changes.map {f : SessionDispatch → SessionDispatch}
    (h : ∀ r ∈ rows, Change retries captures r (f r)) :
    Changes retries captures rows (rows.map f) := by
  refine ⟨f, none, ?_, h, fun r hr => absurd hr (Option.not_mem_none r)⟩
  rw [Option.toList_none, List.append_nil]

theorem Changes.refl (rows : List SessionDispatch) : Changes retries captures rows rows := by
  have hsame : Changes retries captures rows (rows.map fun r => r) := .map fun r _ => .refl r
  rwa [List.map_id'] at hsame

theorem Changes.of_eq (h : rows' = rows) : Changes retries captures rows rows' := by
  rw [h]
  exact .refl rows

/-- the rows after `UPDATE`. -/
theorem Changes.update {p : SessionDispatch → Prop} [DecidablePred p]
    {f : SessionDispatch → SessionDispatch}
    (h : ∀ r ∈ rows, p r → Change retries captures r (f r)) :
    Changes retries captures rows (Sql.update p f rows) := by
  refine .map fun r hr => ?_
  split
  · next hp => exact h r hr hp
  · exact .refl r

theorem Changes.mem (h : Changes retries captures rows rows') (hr : r ∈ rows) :
    ∃ r' ∈ rows', Change retries captures r r' := by
  obtain ⟨f, new, rfl, hf, -⟩ := h.rows
  exact ⟨f r, List.mem_append_left _ (List.mem_map_of_mem hr), hf r hr⟩

/-- a row after the call is a row before it, or it is new. -/
theorem Changes.mem' (h : Changes retries captures rows rows') (hr' : r' ∈ rows') :
    (∃ r ∈ rows, Change retries captures r r') ∨ r'.terminalFingerprint = none ∧
      ∀ x ∈ rows, x.dispatchId ≠ r'.dispatchId := by
  obtain ⟨f, new, rfl, hf, hnew⟩ := h.rows
  rcases List.mem_append.mp hr' with hold | hnew'
  · obtain ⟨r, hr, rfl⟩ := List.mem_map.mp hold
    exact .inl ⟨r, hr, hf r hr⟩
  · exact .inr (hnew r' (Option.mem_toList.mp hnew'))

/-- **Dispatches keep their ids.** -/
theorem Changes.keys (h : Changes retries captures rows rows')
    (hkeys : PrimaryKey SessionDispatch.dispatchId rows) :
    PrimaryKey SessionDispatch.dispatchId rows' := by
  obtain ⟨f, new, rfl, hf, hnew⟩ := h.rows
  have hmap : PrimaryKey SessionDispatch.dispatchId (rows.map f) := by
    unfold PrimaryKey
    rw [List.map_map]
    have hids : rows.map (SessionDispatch.dispatchId ∘ f) = rows.map SessionDispatch.dispatchId :=
      List.map_congr_left fun r hr => (hf r hr).id
    rw [hids]
    exact hkeys
  cases new with
  | none =>
    rw [Option.toList_none, List.append_nil]
    exact hmap
  | some r =>
    rw [Option.toList_some]
    refine hmap.append fun x hx => ?_
    obtain ⟨y, hy, rfl⟩ := List.mem_map.mp hx
    rw [(hf y hy).id]
    exact (hnew r rfl).2 y hy

/-! ## the calls -/

/-- **`update`**: the row of the id. -/
theorem update_changes (hkeys : PrimaryKey SessionDispatch.dispatchId db.dispatches) {id : String}
    {patch : SessionDispatch → SessionDispatch} {now : ℕ}
    (h : ∀ r ∈ db.dispatches, r.dispatchId = id →
      Change retries captures r { patch r with dispatchId := id, updatedAt := now }) :
    Changes retries captures db.dispatches (db.update id patch now).2.dispatches := by
  unfold SessionDispatchStore.update
  cases hget : db.get id with
  | none => exact .refl _
  | some current =>
    obtain ⟨hcurrent, hid⟩ := mem_of_find hget
    refine Changes.update fun r hr hrid => ?_
    rw [hkeys.eq hr hcurrent (Eq.trans hrid hid.symm)]
    exact h current hcurrent hid

end

section Calls
variable {sha256 : String → String} {policy : WakePolicy} {owner : String → Option (Option String)}
  {db : SessionDispatchStore} {retries : List String}

/-- to reconcile the wake leaves the dispatches. -/
theorem reconcile_dispatches {caller : String} {now : ℕ} :
    (db.reconcileHandledCallbacks sha256 caller now).dispatches = db.dispatches := by
  unfold reconcileHandledCallbacks
  split
  · rfl
  split
  · rfl
  split <;> rfl

theorem ofCallbackSession_mem {id caller refusal : String} {record : SessionDispatch}
    (h : db.ofCallbackSession owner id caller refusal = .ok record) :
    record ∈ db.dispatches ∧ record.dispatchId = id := by
  unfold ofCallbackSession getOwned at h
  cases hget : db.get id with
  | none =>
    rw [hget] at h
    cases h
  | some found =>
    have hfound : record = found := by
      rw [hget] at h
      dsimp only at h
      split at h
      · cases h
      · next heq =>
        split at heq
        · obtain rfl := Except.ok.inj heq
          split at h
          · cases h
          · exact (Except.ok.inj h).symm
        · split at heq
          · cases heq
          · split at heq
            · cases heq
            · obtain rfl := Except.ok.inj heq
              split at h
              · cases h
              · exact (Except.ok.inj h).symm
    rw [hfound]
    exact mem_of_find hget

theorem create_changes {id worker : String} {callback ownerNpub : Option String} {now : ℕ} :
    Changes retries none db.dispatches (db.create id worker callback ownerNpub now).dispatches := by
  unfold SessionDispatchStore.create
  split
  · exact .refl _
  · next hnew =>
    refine ⟨fun r => r, some _, by rw [List.map_id']; rfl, fun r _ => .refl r, fun r hr => ?_⟩
    obtain rfl := Option.some.inj hr
    exact ⟨rfl, fun x hx hid => hnew ⟨x, hx, hid⟩⟩

theorem capture_changes (hkeys : PrimaryKey SessionDispatch.dispatchId db.dispatches)
    {record : SessionDispatch} {status : TerminalStatus} {message createdAt : Option String}
    {now : ℕ} : Changes retries (some record.dispatchId) db.dispatches
      (db.capture sha256 record status message createdAt now).dispatches := by
  have hchange : ∀ r r' : SessionDispatch, r.dispatchId = record.dispatchId →
      r'.dispatchId = record.dispatchId → ¬r'.state.Opened →
      Change retries (some record.dispatchId) r r' := by
    intro r r' hid hid' hopened
    refine ⟨hid'.trans hid.symm, fun hne => ?_, fun h => absurd h hopened, fun _ _ hne => ?_⟩
    · exact absurd (congrArg some hid.symm) hne
    · exact absurd (congrArg some hid.symm) hne
  unfold SessionDispatchStore.capture
  dsimp only
  split
  · exact .refl _
  split
  · refine update_changes hkeys fun r _ hid => hchange r _ hid rfl ?_
    rintro (h | h) <;> cases h
  · refine update_changes hkeys fun r _ hid => hchange r _ hid rfl ?_
    rintro (h | h) <;> cases h

theorem noteError_changes (hkeys : PrimaryKey SessionDispatch.dispatchId db.dispatches)
    {id message : String} {failed : Bool} {now : ℕ} :
    Changes retries none db.dispatches (db.noteError id message failed now).dispatches := by
  refine update_changes hkeys fun r _ hid => ?_
  cases failed with
  | false => exact ⟨hid.symm, fun _ => ⟨rfl, rfl, rfl, rfl⟩, fun h => ⟨h, rfl, rfl, rfl, rfl⟩,
    fun h _ _ => h⟩
  | true =>
    refine .of_result hid.symm ⟨rfl, rfl, rfl, rfl⟩ ?_ fun _ _ => .inr (.inl rfl)
    rintro (h | h) <;> cases h

theorem acknowledge_changes (hkeys : PrimaryKey SessionDispatch.dispatchId db.dispatches)
    {id caller : String} {now : ℕ} :
    Changes retries none db.dispatches (db.acknowledge sha256 owner id caller now).2.dispatches := by
  unfold SessionDispatchStore.acknowledge
  split
  · exact .refl _
  · next record hrecord =>
    obtain ⟨hmem, hid⟩ := ofCallbackSession_mem hrecord
    split
    · exact .refl _
    · next hstate =>
      dsimp only
      rw [reconcile_dispatches]
      refine update_changes hkeys fun r hr hrid => ?_
      obtain rfl := hkeys.eq hr hmem (hrid.trans hid.symm)
      refine .of_result hrid.symm ⟨rfl, rfl, rfl, rfl⟩ ?_ fun hfinal _ => ?_
      · rintro (h | h) <;> cases h
      · refine absurd ⟨?_, ?_, ?_⟩ hstate <;> intro h <;> rw [h] at hfinal <;>
          rcases hfinal with h | h | h <;> cases h

theorem close_changes (hkeys : PrimaryKey SessionDispatch.dispatchId db.dispatches)
    {id caller : String} {now : ℕ} :
    Changes retries none db.dispatches (db.close sha256 owner id caller now).2.dispatches := by
  unfold SessionDispatchStore.close
  split
  · exact .refl _
  split
  · exact .refl _
  · dsimp only
    rw [reconcile_dispatches]
    refine update_changes hkeys fun r _ hid => ?_
    refine .of_result hid.symm ⟨rfl, rfl, rfl, rfl⟩ ?_ fun _ _ => .inl rfl
    rintro (h | h) <;> cases h

theorem retryCallback_changes (hkeys : PrimaryKey SessionDispatch.dispatchId db.dispatches)
    {id caller : String} {now : ℕ} :
    Changes [id] none db.dispatches (db.retryCallback owner id caller now).2.dispatches := by
  unfold SessionDispatchStore.retryCallback
  split
  · exact .refl _
  split
  · exact .refl _
  · refine update_changes hkeys fun r _ hid => ?_
    refine .of_result hid.symm ⟨rfl, rfl, rfl, rfl⟩ ?_ fun _ hretry => ?_
    · rintro (h | h) <;> cases h
    · exact absurd (List.mem_singleton.mpr hid) hretry

theorem retire_changes {sessionId triggerId : String} {snapshot : Option NotificationCutoff}
    {now : ℕ} : Changes retries none db.dispatches
      (db.retireForFreshHumanTrigger sessionId triggerId snapshot now).dispatches := by
  unfold retireForFreshHumanTrigger
  split
  · exact .refl _
  · refine Changes.update fun r _ _ => .of_result rfl ⟨rfl, rfl, rfl, rfl⟩ ?_ fun _ _ => ?_
    · rintro (h | h) <;> cases h
    · exact .inr (.inr rfl)

theorem rebind_changes {source target : String} {now : ℕ} :
    Changes retries none db.dispatches (db.rebindSession source target now).dispatches := by
  have hworker : ∀ r : SessionDispatch, Change retries none r (if r.workerSessionId = source then
      { r with workerSessionId := target, updatedAt := now } else r) := by
    intro r
    split
    · exact ⟨rfl, fun _ => ⟨rfl, rfl, rfl, rfl⟩, fun h => ⟨h, rfl, rfl, rfl, rfl⟩,
    fun h _ _ => h⟩
    · exact .refl r
  have hcallback : ∀ r : SessionDispatch, Change retries none r
      (if r.callbackSessionId = some source then
        { r with callbackSessionId := some target, updatedAt := now } else r) := by
    intro r
    split
    · exact ⟨rfl, fun _ => ⟨rfl, rfl, rfl, rfl⟩, fun h => ⟨h, rfl, rfl, rfl, rfl⟩,
    fun h _ _ => h⟩
    · exact .refl r
  have hmoved : Changes retries none db.dispatches
      (((db.updateDispatches (·.workerSessionId = source) fun d =>
        { d with workerSessionId := target, updatedAt := now }).updateDispatches
          (·.callbackSessionId = some source) fun d =>
            { d with callbackSessionId := some target, updatedAt := now }).dispatches) := by
    show Changes retries none db.dispatches (Sql.update _ _ (Sql.update _ _ db.dispatches))
    unfold Sql.update
    rw [List.map_map]
    refine .map fun r _ => ?_
    exact (hworker r).trans (hcallback _)
  unfold rebindSession
  split
  · exact .refl _
  · dsimp only
    split <;> exact hmoved

theorem migrate_changes {now : ℕ} : Changes retries none db.dispatches
    (db.migrateLegacyDeliveredCallbacks now).dispatches := by
  refine Changes.update fun r _ hp => .of_result rfl ⟨rfl, rfl, rfl, rfl⟩ ?_ fun hfinal _ => ?_
  · rintro (h | h) <;> cases h
  · rw [hp.1] at hfinal
    rcases hfinal with h | h | h <;> cases h

/-- **Every call changes the rows so.** -/
theorem action_changes (hkeys : PrimaryKey SessionDispatch.dispatchId db.dispatches)
    (hkey : Keyed db) (a : Action) : Changes a.retries a.captures db.dispatches
      (a.run sha256 policy owner db).dispatches := by
  cases a with
  | create id worker callback ownerNpub now => exact create_changes
  | capture record status message createdAt now => exact capture_changes hkeys
  | noteError id message failed now => exact noteError_changes hkeys
  | acknowledge id caller now => exact acknowledge_changes hkeys
  | close id caller now => exact close_changes hkeys
  | retryCallback id caller now => exact retryCallback_changes hkeys
  | claimForStableSession s now =>
    have hcases : _ ∧ Rewakes sha256 db (db.claimForStableSession sha256 policy s now).2 s ∨ _ :=
      claimForStableSession_cases hkey
    rcases hcases with ⟨-, hre⟩ | ⟨fingerprint, claim, -, -, hout⟩
    · exact .of_eq hre.dispatches
    · exact .of_eq hout.dispatches
  | noteSessionBusy s now =>
    have hre : Rewakes sha256 db (db.noteSessionBusy s now) s := noteSessionBusy_rewakes hkey
    exact .of_eq hre.dispatches
  | reconcileHandledCallbacks s now => exact .of_eq reconcile_dispatches
  | validateClaim claim now => exact .of_eq (validateClaim_rewakes hkey).dispatches
  | markDeliveryUncertain claim now => exact .of_eq (markDeliveryUncertain_rewakes hkey).dispatches
  | releaseRejectedDelivery claim =>
    have hre : Rewakes sha256 db (db.releaseRejectedDelivery claim) _ := release_rewakes hkey
    exact .of_eq hre.dispatches
  | markSubmitted claim now =>
    have hre : Rewakes sha256 db (db.markSubmitted claim now) _ := markSubmitted_rewakes hkey
    exact .of_eq hre.dispatches
  | markSubmissionFailed claim error now =>
    have hre : Rewakes sha256 db (db.markSubmissionFailed policy claim error now) _ :=
      markSubmissionFailed_rewakes hkey error
    exact .of_eq hre.dispatches
  | retireForFreshHumanTrigger s trigger snapshot now => exact retire_changes
  | rebindSession source target now => exact rebind_changes

end Calls

namespace Service

/-! ## the discipline -/

/-- what an operation retries and captures. -/
def Op.retries : Op → List String
  | .act a => a.retries
  | _ => []

def Op.captures : Op → Option String
  | .act a => a.captures
  | _ => none

/-- the dispatches have no result. -/
def Uncaptured (ids : List String) (d : Desk) : Prop :=
  ∀ r ∈ d.db.dispatches, r.dispatchId ∈ ids → r.terminalFingerprint = none

/-- What holds of the tables: a dispatch that is open has no result. -/
structure Sound (d : Desk) : Prop where
  keys : PrimaryKey SessionDispatch.dispatchId d.db.dispatches
  keyed : Keyed d.db
  opened : ∀ r ∈ d.db.dispatches, r.state.Opened → r.terminalFingerprint = none

/-- A result is captured, and `checking` is left, by the thread that holds it; the dispatch has no
result yet. -/
structure may (κ : ℕ) (o : Op) (d : Desk) : Prop where
  capture : ∀ id, o.captures = some id → d.checking = some κ ∧ Uncaptured [id] d
  leave : o = .leave → d.checking = some κ

/-- the service with its discipline. -/
def discipline (sha256 : String → String) (policy : WakePolicy)
    (owner : String → Option (Option String)) : Discipline api Desk :=
  { system sha256 policy owner with Inv := Sound, may }

section Discipline
variable {sha256 : String → String} {policy : WakePolicy} {owner : String → Option (Option String)}
  {κ : ℕ} {o : Op} {d d' : Desk} {r : Ans o} {ids : List String}

/-- **Every operation changes the rows so.** -/
theorem performs_changes (hi : Sound d) (ho : Performs sha256 policy owner κ o d r d') :
    Changes o.retries o.captures d.db.dispatches d'.db.dispatches ∧
      d'.retried = d.retried ++ o.retries ∧ Keyed d'.db := by
  cases ho with
  | act _ a => exact ⟨action_changes hi.keys hi.keyed a, rfl, (run_effect hi.keyed a).keyed⟩
  | noteDiscovery _ id now =>
    refine ⟨update_changes hi.keys fun r _ hid => ?_, (List.append_nil _).symm,
      (update_redispatches id _ now).keyed hi.keyed⟩
    exact ⟨hid.symm, fun _ => ⟨rfl, rfl, rfl, rfl⟩, fun h => ⟨h, rfl, rfl, rfl, rfl⟩,
    fun h _ _ => h⟩
  | migrate _ now =>
    have hre : Redispatches d.db (d.db.migrateLegacyDeliveredCallbacks now) := ⟨rfl, rfl⟩
    exact ⟨migrate_changes, (List.append_nil _).symm, hre.keyed hi.keyed⟩
  | _ => exact ⟨.refl _, (List.append_nil _).symm, hi.keyed⟩

/-- a row without a result gets one only when it is captured. -/
theorem Uncaptured.performs (hi : Sound d) (ho : Performs sha256 policy owner κ o d r d')
    (h : Uncaptured ids d) (hcapture : ∀ id ∈ ids, o.captures ≠ some id) : Uncaptured ids d' := by
  intro r' hr' hid
  rcases (performs_changes hi ho).1.mem' hr' with ⟨r, hr, hchange⟩ | ⟨hnone, -⟩
  · rw [hchange.id] at hid
    rw [(hchange.result (hcapture _ hid)).fingerprint]
    exact h r hr hid
  · exact hnone

theorem Sound.perform (hi : Sound d) (hmay : may κ o d)
    (ho : Performs sha256 policy owner κ o d r d') : Sound d' := by
  obtain ⟨hchanges, -, hkeyed⟩ := performs_changes hi ho
  refine ⟨hchanges.keys hi.keys, hkeyed, fun r' hr' hopen => ?_⟩
  rcases hchanges.mem' hr' with ⟨r, hr, hchange⟩ | ⟨hnone, -⟩
  · obtain ⟨hopen, hresult⟩ := hchange.opened hopen
    rw [hresult.fingerprint]
    exact hi.opened r hr hopen
  · exact hnone

/-! ## a check -/

/-- The thread holds `checking`, and the dispatches have no result. -/
def Pass (κ : ℕ) (ids : List String) (d : Desk) : Prop :=
  d.checking = some κ ∧ Uncaptured ids d

theorem Pass.nil (h : d.checking = some κ) : Pass κ [] d :=
  ⟨h, fun r _ hid => absurd hid List.not_mem_nil⟩

/-- an operation leaves `checking` to the thread that holds it. -/
theorem checking_performs (ho : Performs sha256 policy owner κ o d r d') {κ' : ℕ}
    (h : d.checking = some κ') (hleave : o ≠ .leave) : d'.checking = some κ' := by
  cases ho with
  | enter =>
    show d.checking.or (some κ) = some κ'
    rw [h]
    rfl
  | leave => exact absurd rfl hleave
  | _ => exact h

theorem Pass.performs {κ' : ℕ} (hi : Sound d) (ho : Performs sha256 policy owner κ' o d r d')
    (h : Pass κ ids d) (hcapture : ∀ id ∈ ids, o.captures ≠ some id) (hleave : o ≠ .leave) :
    Pass κ ids d' :=
  ⟨checking_performs ho h.1 hleave, h.2.performs hi ho hcapture⟩

/-- **The other threads leave a check alone.** -/
theorem pass_stable : Stable (discipline sha256 policy owner) κ (Pass κ ids) := by
  rintro d d' h ⟨κ', o, r, hne, hi, hmay, ho⟩
  have hholds : d.checking = some κ' → False := fun hκ' =>
    hne (Option.some.inj (hκ'.symm.trans h.1))
  refine Pass.performs hi ho h (fun id _ hid => hholds (hmay.capture id hid).1) ?_
  exact fun hleave => hholds (hmay.leave hleave)

theorem Pass.mono {ids' : List String} (h : Pass κ ids' d) (hids : ∀ id ∈ ids, id ∈ ids') :
    Pass κ ids d := ⟨h.1, fun r hr hid => h.2 r hr (hids _ hid)⟩

end Discipline

section Specs
variable {sha256 : String → String} {policy : WakePolicy} {owner : String → Option (Option String)}
  {κ : ℕ} {ids : List String} {record : SessionDispatch}

/-- an operation that captures nothing, in a check. -/
theorem quiet {o : Op} {E : String → Desk → Prop} (hcapture : o.captures = none)
    (hleave : o ≠ .leave) : Triple (discipline sha256 policy owner) κ (Pass κ ids)
      (Exc.op (A := api) o : Exc api String _) (fun _ => Pass κ ids) E := by
  refine Triple.op pass_stable (fun d _ _ => ⟨fun id hid => ?_, fun h => absurd h hleave⟩)
    fun d r d' hi h ho _ => ?_
  · exact absurd (hcapture.symm.trans hid) (Option.some_ne_none id).symm
  · refine Pass.performs hi ho h (fun id _ hid => ?_) hleave
    exact absurd (hcapture.symm.trans hid) (Option.some_ne_none id).symm

theorem quietTry {α : Type} {o : Op} {he : Ans o = Except String α} (hcapture : o.captures = none)
    (hleave : o ≠ .leave) : Triple (discipline sha256 policy owner) κ (Pass κ ids)
      (Exc.tryOp (A := api) o he : Exc api String α) (fun _ => Pass κ ids) fun _ => Pass κ ids := by
  have hpass : ∀ d r d', Sound d → Pass κ ids d → Performs sha256 policy owner κ o d r d' →
      Pass κ ids d' := by
    intro d r d' hi h ho
    refine Pass.performs hi ho h (fun id _ hid => ?_) hleave
    exact absurd (hcapture.symm.trans hid) (Option.some_ne_none id).symm
  refine Triple.tryOp pass_stable (fun d _ _ => ⟨fun id hid => ?_, fun h => absurd h hleave⟩)
    (fun d r d' a hi h ho _ _ => hpass d r d' hi h ho)
    fun d r d' e hi h ho _ _ => hpass d r d' hi h ho
  exact absurd (hcapture.symm.trans hid) (Option.some_ne_none id).symm

theorem closeTerminalWorker_spec : Triple (discipline sha256 policy owner) κ (Pass κ ids)
    (closeTerminalWorker record) (fun _ => Pass κ ids) fun _ => Pass κ ids := by
  refine Triple.tryCatch (quietTry rfl nofun) fun error => ?_
  exact Triple.bind (quiet rfl nofun) fun now => quietTry rfl nofun

/-- **A result is captured once.** -/
theorem capture_spec (hnew : record.dispatchId ∉ ids) (status : TerminalStatus)
    (message createdAt : Option String) :
    Triple (discipline sha256 policy owner) κ (Pass κ (record.dispatchId :: ids))
      (capture sha256 record status message createdAt) (fun _ => Pass κ ids)
      fun _ => Pass κ ids := by
  refine Triple.ite (fun _ => ?_) fun _ => ?_
  · exact Triple.pure fun d _ h => h.mono fun id hid => List.mem_cons_of_mem _ hid
  · refine Triple.bind (quiet rfl nofun) fun now => ?_
    have hcapture : ∀ d r d', Sound d → Pass κ (record.dispatchId :: ids) d →
        Performs sha256 policy owner κ (.act (.capture record status message createdAt now)) d r
          d' → Pass κ ids d' := by
      intro d r d' hi h ho
      refine Pass.performs hi ho (h.mono fun id hid => List.mem_cons_of_mem _ hid)
        (fun id hid hsome => hnew ?_) nofun
      exact Option.some.inj hsome ▸ hid
    refine Triple.bind (Triple.tryOp pass_stable (fun d _ h => ⟨fun id hid => ⟨h.1, ?_⟩, nofun⟩)
      (fun d r d' a hi h ho _ _ => hcapture d r d' hi h ho)
      fun d r d' e hi h ho _ _ => hcapture d r d' hi h ho) fun _ => ?_
    · intro r hr hmem
      refine h.2 r hr ?_
      rw [List.mem_singleton.mp hmem, ← Option.some.inj hid]
      exact List.mem_cons_self
    · refine Triple.bind closeTerminalWorker_spec fun _ => ?_
      cases record.callbackSessionId with
      | none => exact Triple.pure fun _ _ h => h
      | some callbackSessionId =>
        refine Triple.ite (fun _ => Triple.pure fun _ _ h => h) fun _ => quietTry rfl nofun

/-- what a discovery leaves: a worker that it did not find may have been captured. -/
def Left (κ : ℕ) (record : SessionDispatch) (ids : List String) (found : Bool) (d : Desk) : Prop :=
  Pass κ (if found then record.dispatchId :: ids else ids) d

theorem Left.of_pass {d : Desk} (found : Bool) (h : Pass κ (record.dispatchId :: ids) d) :
    Left κ record ids found d := by
  cases found with
  | true => exact h
  | false => exact h.mono fun id hid => List.mem_cons_of_mem _ hid

theorem discover_spec (hnew : record.dispatchId ∉ ids) :
    Triple (discipline sha256 policy owner) κ (Pass κ (record.dispatchId :: ids))
      (discoverNativeCodexSession sha256 record) (Left κ record ids) fun _ => Pass κ ids := by
  refine Triple.bind (quiet rfl nofun) fun discovery => ?_
  cases discovery with
  | timedOut now =>
    exact Triple.bind (capture_spec hnew _ _ _) fun _ => Triple.pure fun _ _ h => h
  | waiting => exact Triple.pure fun d _ h => .of_pass false h
  | unavailable now =>
    exact Triple.bind (capture_spec hnew _ _ _) fun _ => Triple.pure fun _ _ h => h
  | attempt =>
    refine Triple.bind (quiet rfl nofun) fun discovered => ?_
    refine Triple.bind (quiet rfl nofun) fun now => ?_
    refine Triple.bind (quiet rfl nofun) fun _ => ?_
    exact Triple.pure fun d _ h => .of_pass _ h

theorem nativeKnown_spec (hnew : record.dispatchId ∉ ids) (native : Bool) :
    Triple (discipline sha256 policy owner) κ (Pass κ (record.dispatchId :: ids))
      (nativeKnown sha256 record native) (Left κ record ids) fun _ => Pass κ ids := by
  refine Triple.ite (fun _ => Triple.pure fun d _ h => .of_pass true h) fun _ => ?_
  refine Triple.bind (discover_spec hnew) fun found => ?_
  cases found with
  | true =>
    have hnative : Triple (discipline sha256 policy owner) κ (Pass κ (record.dispatchId :: ids))
        (Exc.op (A := api) (.hasNative record.workerSessionId) : Exc api String Bool)
        (fun _ => Pass κ (record.dispatchId :: ids)) fun _ => Pass κ ids := quiet rfl nofun
    exact hnative.post (fun known _ _ h => .of_pass known h) fun _ _ _ h => h
  | false => exact Triple.pure fun _ _ h => h

theorem captureResult_spec (hnew : record.dispatchId ∉ ids)
    (result : Option (TerminalStatus × Option String × Option String)) :
    Triple (discipline sha256 policy owner) κ (Pass κ (record.dispatchId :: ids))
      (captureResult sha256 record result) (fun _ => Pass κ ids) fun _ => Pass κ ids := by
  cases result with
  | none => exact Triple.pure fun _ _ h => h.mono fun id hid => List.mem_cons_of_mem _ hid
  | some result => exact capture_spec hnew _ _ _

/-- **A worker that has ended.** -/
theorem captureIfTerminal_spec (hnew : record.dispatchId ∉ ids) :
    Triple (discipline sha256 policy owner) κ (Pass κ (record.dispatchId :: ids))
      (captureIfTerminal sha256 record) (fun _ => Pass κ ids) fun _ => Pass κ ids := by
  refine Triple.bind (quiet rfl nofun) fun state => ?_
  cases state with
  | gone => exact Triple.pure fun _ _ h => h.mono fun id hid => List.mem_cons_of_mem _ hid
  | noAdapter status => exact captureResult_spec hnew _
  | adapter native =>
    refine Triple.bind (nativeKnown_spec hnew native) fun known => ?_
    cases known with
    | true =>
      have hread : Triple (discipline sha256 policy owner) κ (Pass κ (record.dispatchId :: ids))
          (Exc.op (A := api) (.readTurn record) : Exc api String WorkerTurn)
          (fun _ => Pass κ (record.dispatchId :: ids)) fun _ => Pass κ ids := quiet rfl nofun
      exact Triple.bind hread fun turn => captureResult_spec hnew _
    | false => exact Triple.pure fun _ _ h => h

/-- the dispatches that a check has to look at. -/
def runningIds (records : List SessionDispatch) : List String :=
  (records.filter (·.state = .running)).map (·.dispatchId)

theorem runningIds_cons (records : List SessionDispatch) : runningIds (record :: records) =
    if record.state = .running then record.dispatchId :: runningIds records
    else runningIds records := by
  unfold runningIds
  rw [List.filter_cons]
  simp only [decide_eq_true_iff]
  split <;> rfl

/-- **The dispatches of a check**, one after the other. -/
theorem captureAll_spec (records : List SessionDispatch) (hnodup : (runningIds records).Nodup) :
    Triple (discipline sha256 policy owner) κ (Pass κ (runningIds records))
      (captureAll sha256 records) (fun _ => Pass κ []) fun _ => Pass κ [] := by
  induction records with
  | nil => exact Triple.pure fun _ _ h => h
  | cons record records ih =>
    rw [runningIds_cons] at hnodup ⊢
    refine Triple.ite (fun hrunning => ?_) fun hrunning => ?_
    · rw [if_pos hrunning] at hnodup ⊢
      obtain ⟨hnew, hnodup⟩ := List.nodup_cons.mp hnodup
      refine Triple.bind ?_ fun _ => ih hnodup
      exact (captureIfTerminal_spec hnew).post (fun _ _ _ h => h) fun _ _ _ h => Pass.nil h.1
    · rw [if_neg hrunning] at hnodup ⊢
      exact ih hnodup

/-- what a check finds: the running dispatches have no result. -/
theorem Sound.running {d : Desk} (hi : Sound d) {records : List SessionDispatch}
    (hlist : records.Perm d.db.dispatches) :
    (runningIds records).Nodup ∧ Uncaptured (runningIds records) d := by
  constructor
  · have hkeys : (records.map (·.dispatchId)).Nodup := (hlist.map _).nodup_iff.mpr hi.keys
    exact hkeys.sublist (List.filter_sublist.map _)
  · intro r hr hid
    obtain ⟨x, hx, hxid⟩ := List.mem_map.mp hid
    obtain ⟨hmem, hrunning⟩ := List.mem_filter.mp hx
    rw [hi.keys.eq hr (hlist.mem_iff.mp hmem) hxid.symm]
    exact hi.opened x (hlist.mem_iff.mp hmem) (.inr (of_decide_eq_true hrunning))

/-- an operation that captures nothing and leaves nothing is permitted anywhere. -/
theorem may_quiet {o : Op} {d : Desk} (hcapture : o.captures = none) (hleave : o ≠ .leave) :
    may κ o d := by
  refine ⟨fun id hid => ?_, fun h => absurd h hleave⟩
  exact absurd (hcapture.symm.trans hid) (Option.some_ne_none id).symm

theorem anyOp {o : Op} (hcapture : o.captures = none) (hleave : o ≠ .leave) :
    Triple (discipline sha256 policy owner) κ Async.Any (Exc.op (A := api) o : Exc api String _) Any₂
      Any₂ :=
  Triple.op (Stable.const True) (fun _ _ _ => may_quiet hcapture hleave) fun _ _ _ _ _ _ _ => trivial

theorem anyTry {α : Type} {o : Op} {he : Ans o = Except String α} (hcapture : o.captures = none)
    (hleave : o ≠ .leave) : Triple (discipline sha256 policy owner) κ Async.Any
      (Exc.tryOp (A := api) o he : Exc api String α) Any₂ Any₂ :=
  Triple.tryOp (Stable.const True) (fun _ _ _ => may_quiet hcapture hleave)
    (fun _ _ _ _ _ _ _ _ _ => trivial) fun _ _ _ _ _ _ _ _ _ => trivial

/-- **A check.** -/
theorem checkRunning_spec : Triple (discipline sha256 policy owner) κ Async.Any (checkRunning sha256) Any₂
    Any₂ := by
  refine Triple.bind (anyOp rfl nofun) fun _ => ?_
  have henter : Triple (discipline sha256 policy owner) κ Async.Any
      (Exc.op (A := api) .enter : Exc api String Bool)
      (fun entered d => entered = true → Pass κ [] d) Any₂ := by
    refine Triple.op (Stable.const True) (fun _ _ _ => may_quiet rfl nofun) fun d r d' _ _ ho _ => ?_
    cases ho with
    | enter =>
      intro hfree
      refine Pass.nil ?_
      show d.checking.or (some κ) = some κ
      rw [beq_iff_eq.mp hfree]
      rfl
  refine Triple.bind henter fun entered => ?_
  cases entered with
  | false => exact Triple.pure fun _ _ _ => trivial
  | true =>
    have hleave : Triple (discipline sha256 policy owner) κ (Pass κ [])
        (Exc.op (A := api) .leave : Exc api String Unit) Any₂ Any₂ :=
      Triple.op pass_stable (fun _ _ h => ⟨nofun, fun _ => h.1⟩) fun _ _ _ _ _ _ _ => trivial
    refine Triple.pre (P := Pass κ []) (Triple.andFinally (R := fun _ => Pass κ [])
      (F := fun _ => Pass κ []) ?_ (fun _ => hleave) fun _ => hleave) fun _ _ h => h rfl
    have hlist : Triple (discipline sha256 policy owner) κ (Pass κ [])
        (Exc.op (A := api) .list : Exc api String (List SessionDispatch))
        (fun records d => Pass κ (runningIds records) d ∧ (runningIds records).Nodup)
        fun _ => Pass κ [] := by
      refine Triple.opNow rfl (fun _ _ _ => may_quiet rfl nofun) fun d r d' hi h ho _ => ?_
      cases ho with
      | list _ _ hperm =>
        obtain ⟨hnodup, hrunning⟩ := hi.running hperm
        exact ⟨⟨h.1, hrunning⟩, hnodup⟩
    exact Triple.bind hlist fun records => Triple.assume fun hnodup => captureAll_spec records hnodup

theorem create_spec (input : CreateInput) :
    Triple (discipline sha256 policy owner) κ Async.Any (create input) Any₂ Any₂ := by
  refine Triple.bind (anyTry rfl nofun) fun workerSessionId => ?_
  refine Triple.bind (anyOp rfl nofun) fun now => ?_
  refine Triple.bind (anyTry rfl nofun) fun _ => ?_
  refine Triple.tryCatch (R := Any₂) ?_ fun error => ?_
  · exact Triple.bind (anyTry rfl nofun) fun _ => anyTry rfl nofun
  · refine Triple.bind (anyOp rfl nofun) fun now => ?_
    refine Triple.bind (anyTry rfl nofun) fun _ => ?_
    exact Triple.throw fun _ _ _ => trivial

theorem retryCallback_spec (id callerSessionId : String) :
    Triple (discipline sha256 policy owner) κ Async.Any (retryCallback id callerSessionId) Any₂ Any₂ := by
  refine Triple.bind (anyOp rfl nofun) fun _ => ?_
  refine Triple.bind (anyOp rfl nofun) fun now => ?_
  exact Triple.bind (anyTry rfl nofun) fun _ => anyTry rfl nofun

theorem call_spec {a : Action} (h : a.FromOutside) :
    Triple (discipline sha256 policy owner) κ Async.Any (call a) Any₂ Any₂ := by
  have hcapture : Op.captures (.act a) = none := by
    cases a with
    | capture => exact h.elim
    | _ => rfl
  exact Triple.bind (anyOp rfl nofun) fun _ => anyTry hcapture nofun

theorem migrate_spec :
    Triple (discipline sha256 policy owner) κ Async.Any migrateLegacyCallbacks Any₂ Any₂ := by
  refine Triple.bind (anyOp rfl nofun) fun _ => ?_
  exact Triple.bind (anyOp rfl nofun) fun now => anyOp rfl nofun

/-- **The service keeps its discipline.** -/
theorem keeps : (discipline sha256 policy owner).Keeps where
  perform hi hmay ho := hi.perform hmay ho
  crash := by
    rintro d d' hi rfl
    exact ⟨hi.keys, hi.keyed, hi.opened⟩
  spawn := by
    intro κ p d hi hp
    cases hp with
    | checkRunning => exact checkRunning_spec.detach hi
    | create input => exact (create_spec input).detach hi
    | retryCallback id callerSessionId => exact (retryCallback_spec id callerSessionId).detach hi
    | call a h => exact (call_spec h).detach hi
    | migrate => exact migrate_spec.detach hi

end Specs

/-! ## what the results are kept through -/

/-- What is expected of a captured dispatch, when the callbacks of some were retried since: its
result stays, it is not open again, and when it was final it is final. -/
structure Settled (retries : List String) (r r' : SessionDispatch) : Prop where
  id : r'.dispatchId = r.dispatchId
  result : SameResult r r'
  closed : ¬r'.state.Opened
  final : r.state.Final → r.dispatchId ∉ retries → r'.state.Final

/-- What a run makes of the captured dispatches. -/
def Settles (d d' : Desk) : Prop := ∃ retries, d'.retried = d.retried ++ retries ∧
  ∀ r ∈ d.db.dispatches, Captured r → ∃ r' ∈ d'.db.dispatches, Settled retries r r'

section Runs
variable {sha256 : String → String} {policy : WakePolicy} {owner : String → Option (Option String)}

/-- the service before anything was dispatched. -/
def Start (d : Desk) : Prop := d.db = {} ∧ d.checking = none ∧ d.retried = []

theorem Sound.start {d : Desk} (h : Start d) : Sound d := by
  obtain ⟨hdb, -⟩ := h
  refine ⟨?_, ?_, ?_⟩
  · rw [hdb]
    exact List.nodup_nil
  · rw [hdb]
    exact fun s k hk => absurd hk.symm (Option.some_ne_none k)
  · rw [hdb]
    exact fun r hr => absurd hr List.not_mem_nil

theorem Settles.refl {d : Desk} (hi : Sound d) : Settles d d := by
  refine ⟨[], (List.append_nil _).symm, fun r hr hcaptured => ⟨r, hr, rfl, .refl r, ?_, ?_⟩⟩
  · exact fun hopen => hcaptured.2 (hi.opened r hr hopen)
  · exact fun h _ => h

theorem Settles.trans {d d' d'' : Desk} (h : Settles d d') (h' : Settles d' d'') :
    Settles d d'' := by
  obtain ⟨retries, hretried, hrows⟩ := h
  obtain ⟨retries', hretried', hrows'⟩ := h'
  refine ⟨retries ++ retries', by rw [hretried', hretried, List.append_assoc], fun r hr hcap => ?_⟩
  obtain ⟨r', hr', hsettled⟩ := hrows r hr hcap
  obtain ⟨r'', hr'', hsettled'⟩ := hrows' r' hr' (hsettled.result.captured hcap)
  refine ⟨r'', hr'', hsettled'.id.trans hsettled.id, hsettled.result.trans hsettled'.result,
    hsettled'.closed, fun hfinal hretry => ?_⟩
  rw [List.mem_append, not_or] at hretry
  refine hsettled'.final (hsettled.final hfinal hretry.1) ?_
  rw [hsettled.id]
  exact hretry.2

/-- **One operation.** -/
theorem Settles.perform {κ : ℕ} {o : Op} {r : Ans o} {d d' : Desk} (hi : Sound d) (hmay : may κ o d)
    (ho : Performs sha256 policy owner κ o d r d') : Settles d d' := by
  obtain ⟨hchanges, hretried, -⟩ := performs_changes hi ho
  refine ⟨o.retries, hretried, fun r hr hcaptured => ?_⟩
  have hcapture : o.captures ≠ some r.dispatchId := by
    intro hid
    exact hcaptured.2 ((hmay.capture _ hid).2 r hr (List.mem_singleton.mpr rfl))
  obtain ⟨r', hr', hchange⟩ := hchanges.mem hr
  refine ⟨r', hr', hchange.id, hchange.result hcapture, fun hopen => ?_, fun hfinal hretry => ?_⟩
  · exact hcaptured.2 (hi.opened r hr (hchange.opened hopen).1)
  · exact hchange.final hfinal hretry hcapture

/-- **Results stay.** Whatever the programs of the service do in whatever order, a dispatch with its
result keeps it and is never open again; when it was closed, failed or superseded it stays so, until
its callback is retried. -/
theorem results_stay {c c' : Conf api Desk}
    (hc : Reachable (system sha256 policy owner) Start c)
    (hs : Steps (system sha256 policy owner) c c') : Settles c.state c'.state := by
  have hok : ConfOk (discipline sha256 policy owner) c := keeps.reachable (fun _ h => .start h) hc
  have hrun : Sound c.state → Sound c'.state ∧ Settles c.state c'.state := by
    refine hok.run keeps (R := fun d d' => Sound d → Sound d' ∧ Settles d d')
      (fun d hi => ⟨hi, .refl hi⟩) ?_ ?_ ?_ hs
    · intro d d' d'' h h' hi
      obtain ⟨hi', hsettles⟩ := h hi
      obtain ⟨hi'', hsettles'⟩ := h' hi'
      exact ⟨hi'', hsettles.trans hsettles'⟩
    · intro κ o d r d' hi hmay ho _
      exact ⟨hi.perform hmay ho, .perform hi hmay ho⟩
    · intro d d' hi hcrash _
      refine ⟨keeps.crash (D := discipline sha256 policy owner) hi hcrash, ?_⟩
      obtain rfl := hcrash
      have hsame : Settles d d := .refl hi
      exact hsame
  exact (hrun hok.inv).2

end Runs

/-! ## a run -/

/-- The worker is stopped at once, and its prompt cannot be dispatched. -/
def someAnswer : (o : Op) → Desk → Ans o
  | .now, _ => 0
  | .enter, d => d.checking == none
  | .list, d => d.db.dispatches
  | .act a, d => a.outcome id (fun _ => some none) d.db
  | .worker _, _ => .noAdapter .stopped
  | .discovery _, _ => .waiting
  | .captureNative _, _ => .ok false
  | .hasNative _, _ => false
  | .readTurn _, _ => .unread
  | .createSession, _ => .ok "worker"
  | .closeWorker _, _ => .ok ()
  | .requestNextTurn _, _ => .ok ()
  | .queuePrompt .., _ => .ok ()
  | .dispatchQueuedPrompt _, _ => .error "gone"
  | .turn, _ | .leave, _ | .noteDiscovery .., _ | .migrate _, _ => ()

def someEffect (κ : ℕ) : Op → Desk → Desk
  | .enter, d => { d with checking := d.checking.or (some κ) }
  | .leave, d => { d with checking := none }
  | .act a, d =>
    { d with db := a.run id {} (fun _ => some none) d.db, retried := d.retried ++ a.retries }
  | .noteDiscovery id now, d => { d with db := (d.db.update id (fun r => r) now).2 }
  | .migrate now, d => { d with db := d.db.migrateLegacyDeliveredCallbacks now }
  | _, d => d

theorem performs_some (κ : ℕ) (o : Op) (d : Desk) :
    Performs id {} (fun _ => some none) κ o d (someAnswer o d) (someEffect κ o d) := by
  cases o with
  | list => exact .list d _ (.refl _)
  | _ => constructor

/-- a dispatch is created, and a check comes to its worker before its prompt is dispatched. -/
def someStart : Conf api Desk :=
  .started {} [(create ⟨"d1", some "supervisor", none⟩).detach, (checkRunning id).detach]

def someRun (schedule : List ℕ) (c : Conf api Desk) : Option (Conf api Desk) :=
  c.follow (fun _ => someAnswer) someEffect (fun _ _ _ => true) schedule

/-- The worker was stopped, which is captured; then the prompt cannot be dispatched. -/
theorem results_stay_failed : ∃ c c', someRun [0, 1, 1, 1] someStart = some c ∧
    someRun [0] c = some c' ∧ Settles c.state c'.state ∧
    c.state.db.dispatches.map (·.state) = [.callbackPending] ∧
    c'.state.db.dispatches.map (fun r => (r.state, r.terminalStatus)) =
      [(.failed, some .stopped)] := by
  have hfirst : (someRun [0, 1, 1, 1] someStart).map (fun c => c.state.db.dispatches.map (·.state)) =
      some [.callbackPending] := by decide +kernel
  have hsecond : ((someRun [0, 1, 1, 1] someStart).bind (someRun [0])).map (fun c =>
      c.state.db.dispatches.map fun r => (r.state, r.terminalStatus)) =
        some [(.failed, some .stopped)] := by decide +kernel
  obtain ⟨c, hc, hstate⟩ := Option.map_eq_some_iff.mp hfirst
  rw [hc, Option.bind_some] at hsecond
  obtain ⟨c', hc', hstate'⟩ := Option.map_eq_some_iff.mp hsecond
  have hspawn : ∀ p ∈ [(create ⟨"d1", some "supervisor", none⟩).detach, (checkRunning id).detach],
      p.Suspended ∧ ∀ κ, (system id {} (fun _ => some none)).spawn {} κ p := by
    intro p hp
    rcases List.mem_cons.mp hp with rfl | hp
    · exact ⟨rfl, fun _ => .create _⟩
    · rw [List.mem_singleton.mp hp]
      exact ⟨rfl, fun _ => .checkRunning⟩
  have hwaits : someStart.Waits :=
    ⟨rfl, fun κ p hp => (hspawn p (List.mem_of_getElem? hp)).1⟩
  have hperform : ∀ κ o d, true = true → (system id {} (fun _ => some none)).perform κ o d
      (someAnswer o d) (someEffect κ o d) := fun κ o d _ => performs_some κ o d
  have hreach : Reachable (system id {} (fun _ => some none)) Start c :=
    Reachable.follow hperform ⟨rfl, rfl, rfl⟩ hspawn hc
  have hsteps : Steps (system id {} (fun _ => some none)) c c' :=
    Conf.follow_steps hperform (Conf.follow_waits hperform hwaits hc) hc'
  exact ⟨c, c', hc, hc', results_stay hreach hsteps, hstate, hstate'⟩

end Service
end SessionDispatches
end WmAutopilot
