import WmAutopilot.AgentChat.DirectChatTurnStore

/-!
# Terminal states of Agent Direct turns

The operations of `DirectChatTurnStore` one after the other, in any order and on any arguments; a
record that is saved may be a snapshot from any time.

* `StoreOp`, `step`     the operations and what each leaves in the store;
* `Absorbs`             an operation takes no turn out of a terminal state, but for the two ways out
                        that are meant (`Excepted`);
* `Meets`               what an operation has to find for that;
* `absorbs_iff`         one operation absorbs **exactly when** it meets that condition;
* `terminal_absorbing`  so does every run from the empty store.
-/

set_option autoImplicit false
set_option linter.unusedVariables false

namespace WmAutopilot
namespace DirectChat
open Sql

/-! ## the evidence of an earlier version -/

/-- the columns of `flightdeck_session_turn_publications` that are used. -/
structure LegacyPublication where
  turnId : String
  sessionId : String
  prompt : String
  clientRequestId : String
  replyBody : Option String
  publishedMessageId : Option String
  state : String
  updatedAt : ℕ

/-- the publication was sent. -/
def LegacyPublication.Sent (p : LegacyPublication) : Prop :=
  p.state = "completed" ∧ p.publishedMessageId ≠ none

instance (p : LegacyPublication) : Decidable p.Sent := inferInstanceAs (Decidable (_ ∧ _))

/-- the publication differs from the turn; a comparison with NULL is not true. -/
def LegacyPublication.Differs (p : LegacyPublication) (r : DirectChatTurnRecord) : Prop :=
  p.clientRequestId ≠ r.clientRequestId ∨ ∃ reply ∈ r.replyBody, ∃ body ∈ p.replyBody, body ≠ reply

instance (p : LegacyPublication) (r : DirectChatTurnRecord) : Decidable (p.Differs r) := by
  unfold LegacyPublication.Differs; infer_instance

/-- the publication is that of the turn. -/
def LegacyPublication.Agrees (p : LegacyPublication) (r : DirectChatTurnRecord) : Prop :=
  p.clientRequestId = r.clientRequestId ∧
    (r.replyBody = none ∨ p.replyBody ≠ none ∧ p.replyBody = r.replyBody)

instance (p : LegacyPublication) (r : DirectChatTurnRecord) : Decidable (p.Agrees r) := by
  unfold LegacyPublication.Agrees; infer_instance

namespace DirectChatTurnRecord
variable (p : LegacyPublication) (r : DirectChatTurnRecord)

def bindLegacy : DirectChatTurnRecord :=
  { r with
    sessionId := some p.sessionId
    prompt := r.prompt.or (if p.prompt = "" then none else some p.prompt)
    promptType := r.promptType.or (some "direct_chat") }

def haltLegacy : DirectChatTurnRecord :=
  if ¬r.state.Delivered ∧ r.state ≠ .integrityHalt ∧ p.Sent ∧ p.Differs r then
    { r with
      state := .integrityHalt, lastErrorClass := some "legacy_publication_mismatch"
      lastError := some ("Legacy publication evidence uses the same turn with a different client " ++
        "request id or reply body.")
      nextAttemptAt := none }
  else r

def publishLegacy : DirectChatTurnRecord :=
  if ¬r.state.Delivered ∧ p.Sent ∧ p.Agrees r then
    { r with
      state := .published, publishedMessageId := p.publishedMessageId
      publishedAt := r.publishedAt.or (some p.updatedAt), lastError := none, lastErrorClass := none }
  else r

end DirectChatTurnRecord

namespace DirectChatTurnStore

/-- the statements of `backfillBindings` on the evidence of an earlier version, when its table
exists. -/
def backfillLegacy (db : DirectChatTurnStore) (legacy : Option (List LegacyPublication)) :
    DirectChatTurnStore :=
  { db with
    turns := db.turns.map fun r =>
      match (legacy.getD []).find? fun p => p.turnId = r.turnId with
      | some p => ((r.bindLegacy p).haltLegacy p).publishLegacy p
      | none => r }

/-- what the constructor does to the rows it finds, the evidence of an earlier version included. -/
def openWithLegacy (db : DirectChatTurnStore) (intercepts : Option (List InterceptBinding))
    (subscriptions : Option (List SubscriptionBinding)) (legacy : Option (List LegacyPublication)) :
    DirectChatTurnStore :=
  ((db.backfillBindings intercepts subscriptions).backfillLegacy
    legacy).requeueLegacySubscriptionSignerHalts

/-- `freezeReply`; when it throws the store is as it was. -/
def freezeReply (sha256 : String → String) (db : DirectChatTurnStore) (turnId body : String)
    (time : ℕ) : DirectChatTurnStore :=
  match db.get turnId with
  | none => db
  | some current =>
    match buildDirectChatPublicationPayload current body with
    | none => db
    | some payload =>
      let hash := directChatPublicationPayloadHash sha256 payload
      if truthy current.payloadHash ∧ current.payloadHash ≠ some hash then db
      else if current.publicationPayload ≠ none ∧ truthy current.payloadHash then db
      else db.freeze turnId body payload hash time

end DirectChatTurnStore

/-! ## operations -/

/-- The operations of the store that write.  The others only read. -/
inductive StoreOp where
  | openStore (intercepts : Option (List InterceptBinding))
      (subscriptions : Option (List SubscriptionBinding)) (legacy : Option (List LegacyPublication))
  | save (record : DirectChatTurnRecord)
  | rebindAcceptedSession (turnId sourceId targetId : String) (now : ℕ)
  | freezeReply (turnId body : String) (time : ℕ)
  | claim (turnId owner : String) (now leaseMs : ℕ)
  | releaseAwaiting (turnId owner : String) (nextAttemptAt : ℕ) (error : Option TurnError) (now : ℕ)
  | markInterrupted (turnId : String) (error : TurnError) (time : ℕ)
  | markFailed (turnId : String) (error : TurnError) (time : ℕ) (owner : Option String)
  | markRetry (turnId owner : String) (nextAttemptAt : ℕ) (error : TurnError) (blocked : Bool)
      (now : ℕ)
  | markPublished (turnId owner messageId : String) (time : ℕ)
  | markSuppressed (turnId owner : String) (time : ℕ)
  | markIntegrityHalt (turnId : String) (error : TurnError) (time : ℕ) (owner : Option String)
  | releaseForeignLeases (ownerPrefix : String) (time : ℕ)
  | retireForFreshHumanTrigger (sessionId triggerId routingKey : String)
      (snapshot : Option (List String)) (time : ℕ)

variable (sha256 : String → String)

/-- the store after an operation; one that throws leaves it as it was. -/
def step (db : DirectChatTurnStore) : StoreOp → DirectChatTurnStore
  | .openStore intercepts subscriptions legacy => db.openWithLegacy intercepts subscriptions legacy
  | .save record => (db.upsert record).getD db
  | .rebindAcceptedSession turnId sourceId targetId now =>
    (db.rebindAcceptedSession turnId sourceId targetId now).2
  | .freezeReply turnId body time => db.freezeReply sha256 turnId body time
  | .claim turnId owner now leaseMs => (db.claim turnId owner now leaseMs).2
  | .releaseAwaiting turnId owner nextAttemptAt error now =>
    db.releaseAwaiting turnId owner nextAttemptAt error now
  | .markInterrupted turnId error time => db.markInterrupted turnId error time
  | .markFailed turnId error time owner => db.markFailed turnId error time owner
  | .markRetry turnId owner nextAttemptAt error blocked now =>
    db.markRetry turnId owner nextAttemptAt error blocked now
  | .markPublished turnId owner messageId time => (db.markPublished turnId owner messageId time).2
  | .markSuppressed turnId owner time => db.markSuppressed turnId owner time
  | .markIntegrityHalt turnId error time owner => db.markIntegrityHalt turnId error time owner
  | .releaseForeignLeases ownerPrefix time => db.releaseForeignLeases ownerPrefix time
  | .retireForFreshHumanTrigger sessionId triggerId routingKey snapshot time =>
    db.retireForFreshHumanTrigger sessionId triggerId routingKey snapshot time

/-! ## absorption -/

/-- The ways out of a terminal state that are meant: a failed turn is bound to another session, and
a halt over the identity of the agent is queued again when the store is opened. -/
def Excepted (r : DirectChatTurnRecord) : StoreOp → Prop
  | .rebindAcceptedSession turnId _ _ _ => r.turnId = turnId ∧ r.state = .failed
  | .openStore _ _ _ =>
    r.state = .integrityHalt ∧ r.lastErrorClass = some "agent_identity_mismatch"
  | _ => False

/-- the operation takes no turn out of a terminal state. -/
def Absorbs (db : DirectChatTurnStore) (op : StoreOp) : Prop :=
  ∀ r ∈ db.turns, r.state.Terminal → ∀ r' ∈ (step sha256 db op).turns, r'.turnId = r.turnId →
    r'.state.Terminal ∨ Excepted r op

/-- a terminal row that `save` still writes to: it is not frozen, and no fresh human superseded
it. -/
def Unprotected (r : DirectChatTurnRecord) : Prop :=
  r.state.Terminal ∧ r.publicationPayload = none ∧
    r.lastErrorClass.getD "" ≠ "fresh_human_supersession"

/-- What an operation has to find.  A snapshot that is not terminal is not saved over an unprotected
terminal row, and a lease that is given back is not one that a terminal row still carries. -/
def Meets (db : DirectChatTurnStore) : StoreOp → Prop
  | .save record => ∀ r ∈ db.turns, r.turnId = record.turnId → Unprotected r → record.state.Terminal
  | .releaseAwaiting turnId owner _ _ _ => ∀ r ∈ db.turns, LeasedBy turnId owner r → ¬r.state.Terminal
  | .markRetry turnId owner _ _ _ _ => ∀ r ∈ db.turns, LeasedBy turnId owner r → ¬r.state.Terminal
  | _ => True

/-- the property of every operation of a run. -/
def Along (P : DirectChatTurnStore → StoreOp → Prop) (db : DirectChatTurnStore) :
    List StoreOp → Prop
  | [] => True
  | op :: ops => P db op ∧ Along P (step sha256 db op) ops

/-! ## one operation -/

section One
variable {sha256} {db : DirectChatTurnStore} {op : StoreOp}

/-- **Rows rewritten in place.** -/
theorem absorbs_map_iff (hu : PrimaryKey (fun r : DirectChatTurnRecord => r.turnId) db.turns)
    {g : DirectChatTurnRecord → DirectChatTurnRecord}
    (hg : (step sha256 db op).turns = db.turns.map g) (hid : ∀ r, (g r).turnId = r.turnId) :
    Absorbs sha256 db op ↔
      ∀ r ∈ db.turns, r.state.Terminal → (g r).state.Terminal ∨ Excepted r op := by
  constructor
  · intro h r hr ht
    exact h r hr ht (g r) (hg ▸ List.mem_map_of_mem hr) (hid r)
  · intro h r hr ht r' hr' e
    rw [hg] at hr'
    obtain ⟨r₀, hr₀, rfl⟩ := List.mem_map.mp hr'
    obtain rfl : r₀ = r := hu.eq hr₀ hr ((hid r₀).symm.trans e)
    exact h r₀ hr₀ ht

/-- **An update** of the rows that fulfil `p`. -/
theorem absorbs_update_iff (hu : PrimaryKey (fun r : DirectChatTurnRecord => r.turnId) db.turns)
    {p : DirectChatTurnRecord → Prop} [DecidablePred p]
    {f : DirectChatTurnRecord → DirectChatTurnRecord}
    (hf : (step sha256 db op).turns = Sql.update p f db.turns)
    (hid : ∀ r, (f r).turnId = r.turnId) :
    Absorbs sha256 db op ↔
      ∀ r ∈ db.turns, r.state.Terminal → p r → (f r).state.Terminal ∨ Excepted r op := by
  rw [absorbs_map_iff hu (g := fun r => if p r then f r else r) hf fun r => ?_]
  · refine forall_congr' fun r => imp_congr_right fun _ => imp_congr_right fun ht => ?_
    by_cases hp : p r
    · rw [if_pos hp]
      exact ⟨fun h _ => h, fun h => h hp⟩
    · rw [if_neg hp]
      exact ⟨fun _ h => absurd h hp, fun _ => Or.inl ht⟩
  · by_cases hp : p r
    · rw [if_pos hp, hid]
    · rw [if_neg hp]

/-- an update that ends in a terminal state, or spares the terminal rows. -/
theorem absorbs_update (hu : PrimaryKey (fun r : DirectChatTurnRecord => r.turnId) db.turns)
    {p : DirectChatTurnRecord → Prop} [DecidablePred p]
    {f : DirectChatTurnRecord → DirectChatTurnRecord}
    (hf : (step sha256 db op).turns = Sql.update p f db.turns)
    (hid : ∀ r, (f r).turnId = r.turnId)
    (h : ∀ r, p r → r.state.Terminal → (f r).state.Terminal) : Absorbs sha256 db op :=
  (absorbs_update_iff hu hf hid).mpr fun r _ ht hp => Or.inl (h r hp ht)

theorem Absorbs.unchanged (hu : PrimaryKey (fun r : DirectChatTurnRecord => r.turnId) db.turns)
    (h : step sha256 db op = db) : Absorbs sha256 db op :=
  (absorbs_map_iff hu (g := id) (by rw [h, List.map_id]) fun _ => rfl).mpr
    fun r _ ht => Or.inl ht

/-- a lease that is given back to a state that is not terminal. -/
theorem absorbs_release_iff (hu : PrimaryKey (fun r : DirectChatTurnRecord => r.turnId) db.turns)
    {turnId owner : String} {f : DirectChatTurnRecord → DirectChatTurnRecord}
    (hf : (step sha256 db op).turns = Sql.update (LeasedBy turnId owner) f db.turns)
    (hid : ∀ r, (f r).turnId = r.turnId)
    (hs : ∀ r, ¬(f r).state.Terminal) (he : ∀ r, ¬Excepted r op) :
    Absorbs sha256 db op ↔ ∀ r ∈ db.turns, LeasedBy turnId owner r → ¬r.state.Terminal := by
  rw [absorbs_update_iff hu hf hid]
  refine forall_congr' fun r => imp_congr_right fun _ => ⟨fun h hl ht => ?_, fun h ht hl => ?_⟩
  · exact (h ht hl).elim (hs r) (he r)
  · exact absurd ht (h hl)

/-- a terminal row takes a snapshot exactly when it is unprotected. -/
theorem mergeable_iff {record r : DirectChatTurnRecord} (ht : r.state.Terminal) :
    Mergeable record r ↔ Unprotected r := by
  have hs : r.state ≠ .replyReady := by
    rintro e
    rw [e] at ht
    revert ht
    decide
  simp [Mergeable, Unprotected, ht, hs]

/-- **`save`.** -/
theorem absorbs_save_iff (hu : PrimaryKey (fun r : DirectChatTurnRecord => r.turnId) db.turns)
    (record : DirectChatTurnRecord) :
    Absorbs sha256 db (.save record) ↔ Meets db (.save record) := by
  by_cases hex : ∃ r ∈ db.turns, r.turnId = record.turnId
  · have hstep : (step sha256 db (.save record)).turns =
        Sql.update (fun r => r.turnId = record.turnId ∧ Mergeable record.values r)
          record.values.merge db.turns := by
      simp only [step, DirectChatTurnStore.upsert, if_pos hex]
      rfl
    rw [absorbs_update_iff hu hstep (fun _ => rfl)]
    refine forall_congr' fun r => imp_congr_right fun _ => ⟨fun h hid hr => ?_, fun h ht hp => ?_⟩
    · exact (h hr.1 ⟨hid, (mergeable_iff hr.1).mpr hr⟩).resolve_right id
    · exact Or.inl (h hp.1 ((mergeable_iff ht).mp hp.2))
  · have hnew : ∀ r ∈ db.turns, r.turnId ≠ record.turnId := fun r hr e => hex ⟨r, hr, e⟩
    refine iff_of_true ?_ fun r hr e => absurd e (hnew r hr)
    by_cases hc : ∃ r ∈ db.turns, r.clientRequestId = record.clientRequestId
    · refine Absorbs.unchanged hu ?_
      simp only [step, DirectChatTurnStore.upsert, if_neg hex, if_pos hc, Option.getD_none]
    · intro r hr ht r' hr' e
      have hr'' : r' ∈ db.turns ++ [record.values] := by
        simpa only [step, DirectChatTurnStore.upsert, if_neg hex, if_neg hc,
          Option.getD_some] using hr'
      rcases List.mem_append.mp hr'' with hr'' | hr''
      · obtain rfl : r' = r := hu.eq hr'' hr e
        exact Or.inl ht
      · obtain rfl := List.mem_singleton.mp hr''
        exact absurd e.symm (hnew r hr)

theorem freezeReply_absorbs
    (hu : PrimaryKey (fun r : DirectChatTurnRecord => r.turnId) db.turns) (turnId body : String)
    (time : ℕ) : Absorbs sha256 db (.freezeReply turnId body time) := by
  have hfreeze : ∀ payload hash, step sha256 db (.freezeReply turnId body time) =
      db.freeze turnId body payload hash time →
      Absorbs sha256 db (.freezeReply turnId body time) := by
    intro payload hash h
    refine absorbs_update hu (congrArg DirectChatTurnStore.turns h) (fun r => rfl) fun r hp ht => ?_
    exact absurd ht hp.2.2
  by_cases h : step sha256 db (.freezeReply turnId body time) = db
  · exact Absorbs.unchanged hu h
  · simp only [step, DirectChatTurnStore.freezeReply] at h hfreeze
    split at h
    · exact absurd rfl h
    · rename_i current hc
      simp only [hc] at hfreeze
      split at h
      · exact absurd rfl h
      · rename_i payload hp
        simp only [hp] at hfreeze
        split at h
        · exact absurd rfl h
        · rename_i h₁
          rw [if_neg h₁] at hfreeze
          split at h
          · exact absurd rfl h
          · rename_i h₂
            rw [if_neg h₂] at hfreeze
            exact hfreeze payload _ rfl

theorem retire_absorbs
    (hu : PrimaryKey (fun r : DirectChatTurnRecord => r.turnId) db.turns)
    (sessionId triggerId routingKey : String) (snapshot : Option (List String)) (time : ℕ) :
    Absorbs sha256 db
      (.retireForFreshHumanTrigger sessionId triggerId routingKey snapshot time) := by
  by_cases hc : (sessionId, triggerId) ∈ db.cutoffs
  · exact Absorbs.unchanged hu (if_pos hc)
  · have hstep : (step sha256 db
        (.retireForFreshHumanTrigger sessionId triggerId routingKey snapshot time)).turns = _ :=
      congrArg DirectChatTurnStore.turns (if_neg hc)
    exact absorbs_update hu hstep (fun r => rfl) fun r _ _ => Or.inl (Or.inr (Or.inr rfl))

/-! ### a process that opens the store -/

/-- what the bindings and the evidence of an earlier version make of a row. -/
structure Backfilled (r r' : DirectChatTurnRecord) : Prop where
  turnId : r'.turnId = r.turnId
  state : r'.state = r.state ∧ r'.lastErrorClass = r.lastErrorClass ∨
    r'.state = .published ∨
    r'.state = .integrityHalt ∧ r'.lastErrorClass = some "legacy_publication_mismatch"

theorem backfilled_legacy (p : LegacyPublication) (r : DirectChatTurnRecord) :
    Backfilled r (((r.bindLegacy p).haltLegacy p).publishLegacy p) := by
  unfold DirectChatTurnRecord.publishLegacy
  split
  · refine ⟨?_, Or.inr (Or.inl rfl)⟩
    unfold DirectChatTurnRecord.haltLegacy
    split <;> rfl
  · unfold DirectChatTurnRecord.haltLegacy
    split
    · exact ⟨rfl, Or.inr (Or.inr ⟨rfl, rfl⟩)⟩
    · exact ⟨rfl, Or.inl ⟨rfl, rfl⟩⟩

theorem backfilled_binding (db : DirectChatTurnStore)
    (intercepts : Option (List InterceptBinding)) (subscriptions : Option (List SubscriptionBinding)) :
    ∃ g : DirectChatTurnRecord → DirectChatTurnRecord,
      (db.backfillBindings intercepts subscriptions).turns = db.turns.map g ∧
        ∀ r, (g r).turnId = r.turnId ∧ (g r).state = r.state ∧
          (g r).lastErrorClass = r.lastErrorClass := by
  refine ⟨_, rfl, fun r => ?_⟩
  cases intercepts <;> cases subscriptions <;> exact ⟨rfl, rfl, rfl⟩

/-- the rows before the halts over the identity of the agent are queued again. -/
theorem backfilled_open (db : DirectChatTurnStore)
    (intercepts : Option (List InterceptBinding)) (subscriptions : Option (List SubscriptionBinding)) (legacy : Option (List LegacyPublication)) :
    ∃ g : DirectChatTurnRecord → DirectChatTurnRecord,
      ((db.backfillBindings intercepts subscriptions).backfillLegacy legacy).turns =
        db.turns.map g ∧ ∀ r, Backfilled r (g r) := by
  obtain ⟨g, hg, hr⟩ := backfilled_binding db intercepts subscriptions
  refine ⟨_, (congrArg (List.map _) hg).trans (List.map_map ..), fun r => ?_⟩
  obtain ⟨hid, hstate, hclass⟩ := hr r
  dsimp only [Function.comp]
  split
  · rename_i p _
    have hb := backfilled_legacy p (g r)
    exact ⟨hb.turnId.trans hid, hstate ▸ hclass ▸ hb.state⟩
  · exact ⟨hid, Or.inl ⟨hstate, hclass⟩⟩

theorem open_absorbs (hu : PrimaryKey (fun r : DirectChatTurnRecord => r.turnId) db.turns)
    (intercepts : Option (List InterceptBinding))
    (subscriptions : Option (List SubscriptionBinding)) (legacy : Option (List LegacyPublication)) :
    Absorbs sha256 db (.openStore intercepts subscriptions legacy) := by
  obtain ⟨g, hg, hr⟩ := backfilled_open db intercepts subscriptions legacy
  have hstep : (step sha256 db (.openStore intercepts subscriptions legacy)).turns = _ :=
    (congrArg (List.map _) hg).trans (List.map_map ..)
  refine (absorbs_map_iff hu hstep fun r => ?_).mpr fun r _ ht => ?_
  · dsimp only [Function.comp]
    split <;> exact (hr r).turnId
  · dsimp only [Function.comp]
    split
    · -- only a row that was halted so before is queued again
      rename_i hp
      refine Or.inr ?_
      rcases (hr r).state with ⟨hs, hc⟩ | hs | ⟨-, hc⟩
      · exact ⟨hs.symm.trans hp.1, hc.symm.trans hp.2.1⟩
      · exact absurd (hs.symm.trans hp.1) (by decide)
      · exact absurd (hc.symm.trans hp.2.1) (by decide)
    · refine Or.inl ?_
      rcases (hr r).state with ⟨hs, -⟩ | hs | ⟨hs, -⟩
      · exact hs ▸ ht
      · rw [hs]; decide
      · rw [hs]; decide

/-- **One operation absorbs exactly when it meets the condition.** -/
theorem absorbs_iff (hu : PrimaryKey (fun r : DirectChatTurnRecord => r.turnId) db.turns)
    (op : StoreOp) : Absorbs sha256 db op ↔ Meets db op := by
  cases op with
  | openStore intercepts subscriptions legacy =>
    exact iff_of_true (open_absorbs hu intercepts subscriptions legacy) trivial
  | save record => exact absorbs_save_iff hu record
  | rebindAcceptedSession turnId sourceId targetId now =>
    have hstep : (step sha256 db (.rebindAcceptedSession turnId sourceId targetId now)).turns =
        Sql.update (DirectChatTurnStore.Rebindable turnId sourceId)
          (DirectChatTurnStore.reboundRow targetId now) db.turns := rfl
    refine iff_of_true ((absorbs_update_iff hu hstep fun r => rfl).mpr fun r _ ht hp => ?_) trivial
    -- the other states that are bound to another session are not terminal
    rcases hp.2.2.2 with hs | hs | hs
    · exact absurd ht (by rw [hs]; decide)
    · exact absurd ht (by rw [hs]; decide)
    · exact Or.inr ⟨hp.1, hs.1⟩
  | freezeReply turnId body time => exact iff_of_true (freezeReply_absorbs hu turnId body time) trivial
  | claim turnId owner now leaseMs =>
    refine iff_of_true (absorbs_update hu rfl (fun r => rfl) fun r hp ht => ?_) trivial
    exact absurd ht hp.2.1
  | releaseAwaiting turnId owner nextAttemptAt error now =>
    refine absorbs_release_iff hu rfl (fun r => rfl) (fun r => ?_) fun r => id
    show ¬DirectChatTurnState.Terminal .awaitingReply
    decide
  | markInterrupted turnId error time =>
    refine iff_of_true (absorbs_update hu rfl (fun r => rfl) fun r hp ht => ?_) trivial
    exact ht
  | markFailed turnId error time owner =>
    refine iff_of_true (absorbs_update hu rfl (fun r => rfl) fun r hp ht => ?_) trivial
    exact Or.inr (Or.inr rfl)
  | markRetry turnId owner nextAttemptAt error blocked now =>
    refine absorbs_release_iff hu rfl (fun r => rfl) (fun r => ?_) fun r => id
    show ¬DirectChatTurnState.Terminal (if blocked then .blockedAuth else .retryWait)
    cases blocked <;> decide
  | markPublished turnId owner messageId time =>
    refine iff_of_true (absorbs_update hu rfl (fun r => rfl) fun r hp ht => ?_) trivial
    exact Or.inl (Or.inr (Or.inl rfl))
  | markSuppressed turnId owner time =>
    refine iff_of_true (absorbs_update hu rfl (fun r => rfl) fun r hp ht => ?_) trivial
    exact Or.inl (Or.inr (Or.inr rfl))
  | markIntegrityHalt turnId error time owner =>
    refine iff_of_true (absorbs_update hu rfl (fun r => rfl) fun r hp ht => ?_) trivial
    exact Or.inr (Or.inl rfl)
  | releaseForeignLeases ownerPrefix time =>
    refine iff_of_true (absorbs_update hu rfl (fun r => rfl) fun r hp ht => ?_) trivial
    exact ht
  | retireForFreshHumanTrigger sessionId triggerId routingKey snapshot time =>
    exact iff_of_true (retire_absorbs hu sessionId triggerId routingKey snapshot time) trivial

end One

/-! ## runs -/

section Runs
variable {sha256} {db : DirectChatTurnStore}

/-- What an operation does to the rows: it rewrites them under their ids, or adds one. -/
def Rewrites (db db' : DirectChatTurnStore) : Prop :=
  (∃ g : DirectChatTurnRecord → DirectChatTurnRecord, (∀ r, (g r).turnId = r.turnId) ∧
    db'.turns = db.turns.map g) ∨
  ∃ row, (∀ r ∈ db.turns, r.turnId ≠ row.turnId) ∧ db'.turns = db.turns ++ [row]

theorem Rewrites.refl (db : DirectChatTurnStore) : Rewrites db db :=
  Or.inl ⟨id, fun _ => rfl, (List.map_id _).symm⟩

theorem Rewrites.update {db' : DirectChatTurnStore} {p : DirectChatTurnRecord → Prop}
    [DecidablePred p] {f : DirectChatTurnRecord → DirectChatTurnRecord}
    (hf : db'.turns = Sql.update p f db.turns) (hid : ∀ r, (f r).turnId = r.turnId) :
    Rewrites db db' := by
  refine Or.inl ⟨_, fun r => ?_, hf⟩
  by_cases hp : p r
  · rw [if_pos hp, hid]
  · rw [if_neg hp]

theorem Rewrites.unique {db' : DirectChatTurnStore} (h : Rewrites db db')
    (hu : PrimaryKey (fun r : DirectChatTurnRecord => r.turnId) db.turns) :
    PrimaryKey (fun r : DirectChatTurnRecord => r.turnId) db'.turns := by
  rcases h with ⟨g, hid, hg⟩ | ⟨row, hnew, hrow⟩
  · have hkeys : db'.turns.map (fun r => r.turnId) = db.turns.map fun r => r.turnId := by
      rw [hg, List.map_map]
      exact List.map_congr_left fun r _ => hid r
    show (db'.turns.map fun r => r.turnId).Nodup
    rw [hkeys]
    exact hu
  · rw [hrow]
    exact hu.append hnew

theorem unique_empty :
    PrimaryKey (fun r : DirectChatTurnRecord => r.turnId) ({} : DirectChatTurnStore).turns :=
  List.nodup_nil

theorem save_rewrites (record : DirectChatTurnRecord) :
    Rewrites db (step sha256 db (.save record)) := by
  by_cases hex : ∃ r ∈ db.turns, r.turnId = record.turnId
  · refine Rewrites.update (p := fun r => r.turnId = record.turnId ∧ Mergeable record.values r)
      (f := record.values.merge) ?_ fun _ => rfl
    simp only [step, DirectChatTurnStore.upsert, if_pos hex]
    rfl
  · by_cases hc : ∃ r ∈ db.turns, r.clientRequestId = record.clientRequestId
    · have hstep : step sha256 db (.save record) = db := by
        simp only [step, DirectChatTurnStore.upsert, if_neg hex, if_pos hc, Option.getD_none]
      rw [hstep]
      exact Rewrites.refl db
    · refine Or.inr ⟨record.values, fun r hr e => hex ⟨r, hr, e⟩, ?_⟩
      simp only [step, DirectChatTurnStore.upsert, if_neg hex, if_neg hc, Option.getD_some]

theorem step_rewrites (op : StoreOp) : Rewrites db (step sha256 db op) := by
  cases op with
  | openStore intercepts subscriptions legacy =>
    obtain ⟨g, hg, hr⟩ := backfilled_open db intercepts subscriptions legacy
    have hstep : (step sha256 db (.openStore intercepts subscriptions legacy)).turns = _ :=
      (congrArg (List.map _) hg).trans (List.map_map ..)
    refine Or.inl ⟨_, fun r => ?_, hstep⟩
    dsimp only [Function.comp]
    split <;> exact (hr r).turnId
  | save record => exact save_rewrites record
  | freezeReply turnId body time =>
    simp only [step, DirectChatTurnStore.freezeReply]
    split
    · exact Rewrites.refl db
    · split
      · exact Rewrites.refl db
      · split
        · exact Rewrites.refl db
        · split
          · exact Rewrites.refl db
          · exact Rewrites.update rfl fun _ => rfl
  | retireForFreshHumanTrigger sessionId triggerId routingKey snapshot time =>
    simp only [step, DirectChatTurnStore.retireForFreshHumanTrigger]
    split
    · exact Rewrites.refl db
    · exact Rewrites.update rfl fun _ => rfl
  | rebindAcceptedSession turnId sourceId targetId now =>
    exact Rewrites.update (f := DirectChatTurnStore.reboundRow targetId now) rfl fun _ => rfl
  | claim turnId owner now leaseMs =>
    exact Rewrites.update (f := fun r => r.claimed owner now leaseMs) rfl fun _ => rfl
  | markPublished turnId owner messageId time =>
    exact Rewrites.update (f := DirectChatTurnStore.publishedRow messageId time) rfl fun _ => rfl
  | releaseAwaiting | markInterrupted | markFailed | markRetry | markSuppressed
  | markIntegrityHalt | releaseForeignLeases => exact Rewrites.update rfl fun _ => rfl

end Runs

/-- **Terminal states are absorbing.**  In a run from the empty store no operation takes a turn out
of a terminal state, but for the ways that are meant, exactly when every `save` of a snapshot that is
not terminal finds no unprotected terminal row, and every lease that `releaseAwaiting` or `markRetry`
gives back is not one of a terminal row. -/
theorem terminal_absorbing (ops : List StoreOp) :
    Along sha256 (Absorbs sha256) {} ops ↔ Along sha256 Meets {} ops := by
  have run : ∀ (ops : List StoreOp) (db : DirectChatTurnStore),
      PrimaryKey (fun r : DirectChatTurnRecord => r.turnId) db.turns →
      (Along sha256 (Absorbs sha256) db ops ↔ Along sha256 Meets db ops) := by
    intro ops
    induction ops with
    | nil => exact fun db _ => Iff.rfl
    | cons op ops ih =>
      intro db hu
      exact and_congr (absorbs_iff hu op) (ih _ ((step_rewrites op).unique hu))
  exact run ops {} unique_empty

/-- the row of a turn that a session accepted. -/
def acceptedTurn : DirectChatTurnRecord :=
  { turnId := "turn", routingKey := "key", sourceMessageIds := ["message"]
    clientRequestId := "request", state := .accepted, createdAt := 0, updatedAt := 0
    sessionId := some "session" }

/-- A snapshot of an accepted turn is saved after the turn failed, and the failed turn awaits a reply
again. -/
theorem terminal_reopened :
    ¬∀ (sha256 : String → String) (ops : List StoreOp),
      Along sha256 (Absorbs sha256) {} ops := by
  intro h
  have hrun := h id [.save acceptedTurn,
    .markFailed "turn" ⟨"The session is gone.", "session_missing"⟩ 1 none,
    .save { acceptedTurn with state := .awaitingReply, updatedAt := 2 }]
  obtain ⟨-, -, hsave, -⟩ := hrun
  have hmeets := (absorbs_iff
    ((step_rewrites _).unique ((step_rewrites _).unique unique_empty)) _).mp hsave
  refine absurd (hmeets _ (List.mem_singleton.mpr rfl) rfl ⟨?_, rfl, ?_⟩) ?_ <;> decide

end DirectChat
end WmAutopilot
