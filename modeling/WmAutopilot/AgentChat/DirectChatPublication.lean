import WmAutopilot.AgentChat.DirectChatDelivery
import WmAutopilot.Async.Triple

/-!
# The publication of an Agent Direct turn is frozen

* `Keeps`          what a row keeps: its ids and, once they are written, the publication, its hash
                   and the published message;
* `RowOk`          a row with a hash or a published message has a publication, and a published
                   message belongs to a row that is published and not leased;
* `Inv`            the invariant: rows are as they should be, and every publish call carries the
                   publication of its turn;
* `may`            what a program has to know before it saves a record or publishes;
* `Evolves`        what every operation does, and the assertions that hence survive the operations
                   of the others (`Held`, `Frozen`).
-/

set_option autoImplicit false
set_option linter.unusedVariables false

namespace WmAutopilot
namespace DirectChat
open Sql Async DirectChatTurnStore

/-! ## rows -/

/-- What a row keeps of an earlier one.  See the file header. -/
structure Keeps (r r' : DirectChatTurnRecord) : Prop where
  turnId : r'.turnId = r.turnId
  clientRequestId : r'.clientRequestId = r.clientRequestId
  payload : ∀ p ∈ r.publicationPayload, r'.publicationPayload = some p
  hash : ∀ h ∈ r.payloadHash, r'.payloadHash = some h
  published : ∀ m ∈ r.publishedMessageId, r'.publishedMessageId = some m

theorem Keeps.refl (r : DirectChatTurnRecord) : Keeps r r :=
  ⟨rfl, rfl, fun _ h => h, fun _ h => h, fun _ h => h⟩

theorem Keeps.trans {a b c : DirectChatTurnRecord} (h : Keeps a b) (h' : Keeps b c) :
    Keeps a c where
  turnId := h'.turnId.trans h.turnId
  clientRequestId := h'.clientRequestId.trans h.clientRequestId
  payload p hp := h'.payload p (h.payload p hp)
  hash x hx := h'.hash x (h.hash x hx)
  published m hm := h'.published m (h.published m hm)

/-- A row as it should be.  See the file header. -/
structure RowOk (r : DirectChatTurnRecord) : Prop where
  hash : r.publicationPayload = none → r.payloadHash = none
  publishing : r.publicationPayload = none → r.state ≠ .publishing
  published : r.publishedMessageId ≠ none →
    r.publicationPayload ≠ none ∧ r.state = .published ∧ r.leaseOwner = none

namespace RowOk
variable {r r' : DirectChatTurnRecord}

/-- a row that is not published has no published message. -/
theorem unpublished (h : RowOk r) (hs : r.state ≠ .published) : r.publishedMessageId = none := by
  by_contra hm
  exact hs (h.published hm).2.1

/-- nor has one that is leased. -/
theorem unpublished_of_leased (h : RowOk r) (hl : r.leaseOwner ≠ none) :
    r.publishedMessageId = none := by
  by_contra hm
  exact hl (h.published hm).2.2

/-- nor has one that is not frozen. -/
theorem unpublished_of_open (h : RowOk r) (hp : r.publicationPayload = none) :
    r.publishedMessageId = none := by
  by_contra hm
  exact (h.published hm).1 hp

theorem unpublished_of_open_state (h : RowOk r) (hs : ¬r.state.Delivered) :
    r.publishedMessageId = none :=
  h.unpublished fun e => hs (Or.inr (Or.inl e))

/-- **A row without a published message is rewritten** as its statement keeps its ids and its
publication. -/
theorem rewrite (h : RowOk r) (hm : r.publishedMessageId = none) (hid : r'.turnId = r.turnId)
    (hrequest : r'.clientRequestId = r.clientRequestId)
    (hpayload : r'.publicationPayload = r.publicationPayload)
    (hhash : r'.payloadHash = r.payloadHash) (hm' : r'.publishedMessageId = none)
    (hs : r'.state = .publishing → r.publicationPayload ≠ none) : RowOk r' ∧ Keeps r r' := by
  refine ⟨⟨fun hp => ?_, fun hp e => ?_, fun hne => absurd hm' hne⟩, hid, hrequest, ?_, ?_, ?_⟩
  · rw [hhash]
    exact h.hash (hpayload.symm.trans hp)
  · exact hs e (hpayload.symm.trans hp)
  · exact fun p hp => hpayload.trans hp
  · exact fun x hx => hhash.trans hx
  · intro m hx
    rw [hm] at hx
    cases hx

end RowOk

/-! ## the invariant -/

/-- the call carries the publication and the client request id of the row. -/
def Carries (r : DirectChatTurnRecord) (call : PublishCall) : Prop :=
  r.publicationPayload = some ⟨call.body, call.threadId, call.metadata⟩ ∧
    r.clientRequestId = call.clientRequestId

theorem Keeps.carries {r r' : DirectChatTurnRecord} {call : PublishCall} (hk : Keeps r r')
    (h : Carries r call) : Carries r' call :=
  ⟨hk.payload _ h.1, hk.clientRequestId.trans h.2⟩

/-- the call is that of the frozen turn. -/
def Frozen (turnId : String) (call : PublishCall) (w : World) : Prop :=
  ∃ r ∈ w.db.turns, r.turnId = turnId ∧ Carries r call

/-- The invariant.  See the file header. -/
structure Inv (w : World) : Prop where
  unique : PrimaryKey (fun r : DirectChatTurnRecord => r.turnId) w.db.turns
  rows : ∀ r ∈ w.db.turns, RowOk r
  calls : ∀ c ∈ w.calls, Frozen c.1 c.2 w

/-- A record that may be saved: what it has of a publication is that of its turn. -/
structure Snapshot (r : DirectChatTurnRecord) (w : World) : Prop where
  hash : r.publicationPayload = none → r.payloadHash = none
  publishing : r.publicationPayload = none → r.state ≠ .publishing
  published : r.publicationPayload = none → r.publishedMessageId = none
  row : r.publicationPayload ≠ none → ∃ row ∈ w.db.turns, Keeps r row

/-- what has to be known before an operation. -/
def may : DeliveryOp → World → Prop
  | .upsert record, w => Snapshot record w
  | .publish turnId call, w => Frozen turnId call w
  | _, _ => True

/-- What every operation does: rows keep what they have. -/
def Evolves (w w' : World) : Prop := ∀ r ∈ w.db.turns, ∃ r' ∈ w'.db.turns, Keeps r r'

theorem Evolves.refl (w : World) : Evolves w w := fun r hr => ⟨r, hr, Keeps.refl r⟩

theorem Evolves.trans {a b c : World} (h : Evolves a b) (h' : Evolves b c) : Evolves a c := by
  intro r hr
  obtain ⟨r₁, hr₁, hk₁⟩ := h r hr
  obtain ⟨r₂, hr₂, hk₂⟩ := h' r₁ hr₁
  exact ⟨r₂, hr₂, hk₁.trans hk₂⟩

theorem Frozen.evolve {w w' : World} {turnId : String} {call : PublishCall} (he : Evolves w w')
    (h : Frozen turnId call w) : Frozen turnId call w' := by
  obtain ⟨r, hr, hid, hc⟩ := h
  obtain ⟨r', hr', hk⟩ := he r hr
  exact ⟨r', hr', hk.turnId.trans hid, hk.carries hc⟩

/-- the step keeps the invariant and evolves. -/
def Goes (w w' : World) : Prop := Inv w' ∧ Evolves w w'

theorem Goes.refl {w : World} (h : Inv w) : Goes w w := ⟨h, Evolves.refl w⟩

/-! ## one step -/

section Step
variable {w : World}

/-- **Rows rewritten in place.** -/
theorem Goes.map (h : Inv w) {db : DirectChatTurnStore}
    {g : DirectChatTurnRecord → DirectChatTurnRecord} (hdb : db.turns = w.db.turns.map g)
    (hg : ∀ r ∈ w.db.turns, RowOk r → RowOk (g r) ∧ Keeps r (g r)) : Goes w (w.stored db) := by
  have he : Evolves w (w.stored db) := fun r hr =>
    ⟨g r, hdb ▸ List.mem_map_of_mem hr, (hg r hr (h.rows r hr)).2⟩
  refine ⟨⟨?_, fun r hr => ?_, fun c hc => (h.calls c hc).evolve he⟩, he⟩
  · have hmap : db.turns.map (fun r => r.turnId) = w.db.turns.map fun r => r.turnId := by
      rw [hdb, List.map_map]
      exact List.map_congr_left fun r hr => (hg r hr (h.rows r hr)).2.turnId
    show (db.turns.map fun r => r.turnId).Nodup
    rw [hmap]
    exact h.unique
  · have hr' : r ∈ w.db.turns.map g := hdb ▸ hr
    obtain ⟨r₀, hr₀, rfl⟩ := List.mem_map.mp hr'
    exact (hg r₀ hr₀ (h.rows r₀ hr₀)).1

/-- **An update** of the rows that fulfil `p`. -/
theorem Goes.update (h : Inv w) {db : DirectChatTurnStore} {p : DirectChatTurnRecord → Prop}
    [DecidablePred p] {f : DirectChatTurnRecord → DirectChatTurnRecord}
    (hdb : db.turns = Sql.update p f w.db.turns)
    (hf : ∀ r ∈ w.db.turns, RowOk r → p r → RowOk (f r) ∧ Keeps r (f r)) :
    Goes w (w.stored db) := by
  refine Goes.map h hdb fun r hr hok => ?_
  split
  · exact hf r hr hok ‹_›
  · exact ⟨hok, Keeps.refl r⟩

/-- **A row is appended.** -/
theorem Goes.append (h : Inv w) {db : DirectChatTurnStore} {row : DirectChatTurnRecord}
    (hdb : db.turns = w.db.turns ++ [row]) (hnew : ∀ r ∈ w.db.turns, r.turnId ≠ row.turnId)
    (hok : RowOk row) : Goes w (w.stored db) := by
  have he : Evolves w (w.stored db) := fun r hr =>
    ⟨r, hdb ▸ List.mem_append_left _ hr, Keeps.refl r⟩
  refine ⟨⟨?_, fun r hr => ?_, fun c hc => (h.calls c hc).evolve he⟩, he⟩
  · show PrimaryKey _ db.turns
    rw [hdb]
    exact h.unique.append hnew
  · have hr' : r ∈ w.db.turns ++ [row] := hdb ▸ hr
    rcases List.mem_append.mp hr' with hr' | hr'
    · exact h.rows r hr'
    · obtain rfl := List.mem_singleton.mp hr'
      exact hok

/-- the merge into a row that is not frozen brings no publication. -/
theorem merge_open {record r : DirectChatTurnRecord} (h : RowOk r) (hs : Snapshot record w)
    (hr : r.publicationPayload = none) (hrecord : record.publicationPayload = none) :
    RowOk (record.values.merge r) ∧ Keeps r (record.values.merge r) := by
  have hhash : r.payloadHash = none := h.hash hr
  have hm : r.publishedMessageId = none := h.unpublished_of_open hr
  refine h.rewrite hm rfl rfl ?_ ?_ ?_ fun e => absurd e (hs.publishing hrecord)
  · show r.publicationPayload.or record.publicationPayload = _
    rw [hr, hrecord]
    rfl
  · show r.payloadHash.or record.payloadHash = _
    rw [hhash, hs.hash hrecord]
    rfl
  · show r.publishedMessageId.or record.publishedMessageId = none
    rw [hm, hs.published hrecord]
    rfl

/-- a merge into a frozen row only ends it. -/
theorem merge_frozen {record r : DirectChatTurnRecord} (h : RowOk r)
    (hr : r.publicationPayload ≠ none) (hm : r.publishedMessageId = none)
    (hrecord : record.publishedMessageId = none) :
    RowOk (record.values.merge r) ∧ Keeps r (record.values.merge r) := by
  obtain ⟨p, hp⟩ := Option.ne_none_iff_exists'.mp hr
  have hp' : (record.values.merge r).publicationPayload = some p := by
    show r.publicationPayload.or record.publicationPayload = _
    rw [hp]
    rfl
  have hm' : (record.values.merge r).publishedMessageId = none := by
    show r.publishedMessageId.or record.publishedMessageId = none
    rw [hm, hrecord]
    rfl
  refine ⟨⟨fun e => ?_, fun e => ?_, fun e => absurd hm' e⟩, rfl, rfl, ?_, ?_, ?_⟩
  · rw [hp'] at e
    cases e
  · rw [hp'] at e
    cases e
  · intro q hq
    rw [hp'] at *
    exact hp.symm.trans hq
  · intro x hx
    show r.payloadHash.or record.payloadHash = _
    rw [show r.payloadHash = some x from hx]
    rfl
  · intro m hx
    rw [hm] at hx
    cases hx

/-- **`save`** of a record that may be saved. -/
theorem Goes.upsert (h : Inv w) {record : DirectChatTurnRecord} (hs : Snapshot record w)
    {db : DirectChatTurnStore} (hdb : w.db.upsert record = some db) : Goes w (w.stored db) := by
  -- a frozen record is one of its row
  have hrow : ∀ r ∈ w.db.turns, r.turnId = record.turnId → record.publicationPayload ≠ none →
      Keeps record r := fun r hr hid hp => by
    obtain ⟨row, hrow, hk⟩ := hs.row hp
    obtain rfl : row = r := h.unique.eq hrow hr (hk.turnId.trans hid.symm)
    exact hk
  have hopen : ∀ r ∈ w.db.turns, r.turnId = record.turnId → r.publicationPayload = none →
      record.publicationPayload = none := fun r hr hid hr' => by
    by_contra hp
    obtain ⟨p, hp'⟩ := Option.ne_none_iff_exists'.mp hp
    rw [(hrow r hr hid hp).payload p hp'] at hr'
    cases hr'
  by_cases hex : ∃ r ∈ w.db.turns, r.turnId = record.turnId
  · rw [DirectChatTurnStore.upsert, if_pos hex] at hdb
    cases hdb
    refine Goes.update h rfl fun r hr hok hp => ?_
    obtain ⟨hid, hmerge, -⟩ := hp
    by_cases hr' : r.publicationPayload = none
    · exact merge_open hok hs hr' (hopen r hr hid hr')
    · obtain ⟨hready, -, -⟩ := hmerge.resolve_left hr'
      have hm : r.publishedMessageId = none := hok.unpublished (by rw [hready]; decide)
      refine merge_frozen hok hr' hm ?_
      by_cases hp : record.publicationPayload = none
      · exact hs.published hp
      · cases hpub : record.publishedMessageId with
        | none => rfl
        | some m => exact ((hrow r hr hid hp).published m hpub).symm.trans hm
  · rw [DirectChatTurnStore.upsert, if_neg hex] at hdb
    split at hdb
    · cases hdb
    · cases hdb
      have hp : record.publicationPayload = none := by
        by_contra hp
        obtain ⟨row, hr, hk⟩ := hs.row hp
        exact hex ⟨row, hr, hk.turnId⟩
      exact Goes.append h rfl (fun r hr e => hex ⟨r, hr, e⟩)
        ⟨hs.hash, hs.publishing, fun hne => absurd (hs.published hp) hne⟩

/-- **A statement on rows without a published message** that keeps the ids and the publication. -/
theorem Goes.statement (h : Inv w) {db : DirectChatTurnStore} {p : DirectChatTurnRecord → Prop}
    [DecidablePred p] {f : DirectChatTurnRecord → DirectChatTurnRecord}
    (hdb : db.turns = Sql.update p f w.db.turns)
    (hp : ∀ r, RowOk r → p r → r.publishedMessageId = none)
    (hf : ∀ r, (f r).turnId = r.turnId ∧ (f r).clientRequestId = r.clientRequestId ∧
      (f r).publicationPayload = r.publicationPayload ∧ (f r).payloadHash = r.payloadHash)
    (hm : ∀ r, r.publishedMessageId = none → (f r).publishedMessageId = none)
    (hs : ∀ r, RowOk r → (f r).state = .publishing → r.publicationPayload ≠ none) :
    Goes w (w.stored db) :=
  Goes.update h hdb fun r _ hok hpr =>
    hok.rewrite (hp r hok hpr) (hf r).1 (hf r).2.1 (hf r).2.2.1 (hf r).2.2.2
      (hm r (hp r hok hpr)) (hs r hok)

theorem leased_unpublished {turnId owner : String} (r : DirectChatTurnRecord) (h : RowOk r)
    (hp : LeasedBy turnId owner r) : r.publishedMessageId = none :=
  h.unpublished_of_leased fun e => by
    rw [hp.2] at e
    cases e

theorem Goes.freeze (h : Inv w) (turnId body : String) (payload : DirectChatPublicationPayload)
    (hash : String) (time : ℕ) : Goes w (w.stored (w.db.freeze turnId body payload hash time)) := by
  refine Goes.update h rfl fun r _ hok hp => ?_
  obtain ⟨-, hopen, -⟩ := hp
  have hm : r.publishedMessageId = none := hok.unpublished_of_open hopen
  refine ⟨⟨fun e => (by cases e), fun e => (by cases e), fun hne => absurd hm hne⟩, rfl, rfl,
    ?_, ?_, ?_⟩
  · intro p hp
    rw [hopen] at hp
    cases hp
  · intro x hx
    rw [hok.hash hopen] at hx
    cases hx
  · intro m hx
    rw [hm] at hx
    cases hx

theorem Goes.claim (h : Inv w) (turnId owner : String) (now leaseMs : ℕ) :
    Goes w (w.stored (w.db.claim turnId owner now leaseMs).2) := by
  refine Goes.statement h rfl (fun r hok hp => ?_) (fun r => ⟨rfl, rfl, rfl, rfl⟩) (fun r => id)
    fun r hok e => ?_
  · exact hok.unpublished fun e => hp.2.1 (Or.inl (Or.inr (Or.inl e)))
  · intro hopen
    have hstate : (r.claimed owner now leaseMs).state = r.state := if_neg fun hc => hc.2 hopen
    exact hok.publishing hopen (hstate.symm.trans e)

theorem Goes.markPublished (h : Inv w) (turnId owner messageId : String) (time : ℕ) :
    Goes w (w.stored (w.db.markPublished turnId owner messageId time).2) := by
  refine Goes.update h rfl fun r _ hok hp => ?_
  have hfrozen : r.publicationPayload ≠ none := fun hopen => hok.publishing hopen hp.2
  refine ⟨⟨hok.hash, fun hopen => absurd hopen hfrozen, fun _ => ⟨hfrozen, rfl, rfl⟩⟩, rfl, rfl,
    fun _ hp => hp, fun _ hx => hx, fun m hx => ?_⟩
  rw [leased_unpublished r hok hp.1] at hx
  cases hx

theorem Goes.markFailed (h : Inv w) (turnId : String) (error : TurnError) (time : ℕ)
    (owner : Option String) : Goes w (w.stored (w.db.markFailed turnId error time owner)) :=
  Goes.statement h rfl (fun r hok hp => hok.unpublished_of_open_state hp.2.1)
    (fun r => ⟨rfl, rfl, rfl, rfl⟩) (fun r => id) fun r _ e => by cases e

theorem Goes.markIntegrityHalt (h : Inv w) (turnId : String) (error : TurnError) (time : ℕ)
    (owner : Option String) : Goes w (w.stored (w.db.markIntegrityHalt turnId error time owner)) :=
  Goes.statement h rfl (fun r hok hp => hok.unpublished_of_open_state hp.2.1)
    (fun r => ⟨rfl, rfl, rfl, rfl⟩) (fun r => id) fun r _ e => by cases e

theorem Goes.releaseAwaiting (h : Inv w) (turnId owner : String) (nextAttemptAt : ℕ)
    (error : Option TurnError) (now : ℕ) :
    Goes w (w.stored (w.db.releaseAwaiting turnId owner nextAttemptAt error now)) :=
  Goes.statement h rfl leased_unpublished (fun r => ⟨rfl, rfl, rfl, rfl⟩) (fun r => id)
    fun r _ e => by cases e

theorem Goes.markRetry (h : Inv w) (turnId owner : String) (nextAttemptAt : ℕ) (error : TurnError)
    (blockedAuth : Bool) (now : ℕ) :
    Goes w (w.stored (w.db.markRetry turnId owner nextAttemptAt error blockedAuth now)) :=
  Goes.statement h rfl leased_unpublished (fun r => ⟨rfl, rfl, rfl, rfl⟩) (fun r => id)
    fun r _ e => by cases blockedAuth <;> cases e

theorem Goes.markSuppressed (h : Inv w) (turnId owner : String) (time : ℕ) :
    Goes w (w.stored (w.db.markSuppressed turnId owner time)) :=
  Goes.statement h rfl leased_unpublished (fun r => ⟨rfl, rfl, rfl, rfl⟩) (fun r _ => rfl)
    fun r _ e => by cases e

theorem Goes.markInterrupted (h : Inv w) (turnId : String) (error : TurnError) (time : ℕ) :
    Goes w (w.stored (w.db.markInterrupted turnId error time)) :=
  Goes.statement h rfl (fun r hok hp => hok.unpublished_of_open hp.2.1)
    (fun r => ⟨rfl, rfl, rfl, rfl⟩) (fun r => id) fun r hok e hopen => hok.publishing hopen e

theorem Goes.releaseForeignLeases (h : Inv w) (ownerPrefix : String) (time : ℕ) :
    Goes w (w.stored (w.db.releaseForeignLeases ownerPrefix time)) := by
  refine Goes.statement h rfl (fun r hok hp => hok.unpublished_of_leased fun e => ?_)
    (fun r => ⟨rfl, rfl, rfl, rfl⟩) (fun r => id) fun r hok e hopen => hok.publishing hopen e
  obtain ⟨owner, howner, -⟩ := hp
  rw [e] at howner
  cases howner

theorem Goes.rebind (h : Inv w) (turnId sourceId targetId : String) (now : ℕ) :
    Goes w (w.stored (w.db.rebindAcceptedSession turnId sourceId targetId now).2) :=
  Goes.statement h rfl (fun r hok hp => hok.unpublished_of_open hp.2.2.1)
    (fun r => ⟨rfl, rfl, rfl, rfl⟩) (fun r => id) fun r _ e => by cases e

theorem Goes.retire (h : Inv w) (sessionId triggerId routingKey : String)
    (snapshot : Option (List String)) (time : ℕ) :
    Goes w (w.stored
      (w.db.retireForFreshHumanTrigger sessionId triggerId routingKey snapshot time)) := by
  unfold DirectChatTurnStore.retireForFreshHumanTrigger
  split
  · exact Goes.refl h
  · exact Goes.statement h rfl (fun r hok hp => hok.unpublished_of_open_state hp.2.1)
      (fun r => ⟨rfl, rfl, rfl, rfl⟩) (fun r => id) fun r _ e => by cases e

/-- **A process that opens the store.** -/
theorem Goes.reopen (h : Inv w) (intercepts : Option (List InterceptBinding))
    (subscriptions : Option (List SubscriptionBinding)) :
    Goes w (w.stored (w.db.reopen intercepts subscriptions)) := by
  have bound : Goes w (w.stored (w.db.backfillBindings intercepts subscriptions)) := by
    refine Goes.map h rfl fun r _ hok => ?_
    cases intercepts <;> cases subscriptions <;>
      exact ⟨⟨hok.hash, hok.publishing, hok.published⟩, rfl, rfl, fun _ h => h, fun _ h => h,
        fun _ h => h⟩
  have requeued : Goes (w.stored (w.db.backfillBindings intercepts subscriptions))
      (w.stored (w.db.reopen intercepts subscriptions)) :=
    Goes.statement bound.1 rfl (fun r hok hp => hok.unpublished (by rw [hp.1]; decide))
      (fun r => ⟨rfl, rfl, rfl, rfl⟩) (fun r => id) fun r _ e => by cases e
  exact ⟨requeued.1, bound.2.trans requeued.2⟩

/-- a call of a frozen turn. -/
theorem Goes.called (h : Inv w) {turnId : String} {call : PublishCall}
    (hf : Frozen turnId call w) : Goes w (w.called (.publish turnId call)) := by
  refine ⟨⟨h.unique, h.rows, fun c hc => ?_⟩, Evolves.refl w⟩
  rcases List.mem_append.mp hc with hc | hc
  · exact h.calls c hc
  · obtain rfl := List.mem_singleton.mp hc
    exact hf

/-- **What every permitted operation does.** -/
theorem perform_goes {o : DeliveryOp} {r : Except DeliveryError o.Result} {w' : World} (h : Inv w)
    (hm : may o w) (ho : perform o w r w') : Goes w w' := by
  cases r with
  | error e =>
    obtain rfl := ho
    cases o with
    | publish turnId call => exact Goes.called h hm
    | _ => exact Goes.refl h
  | ok a =>
    cases o with
    | park => exact ho.elim
    | jitter base =>
      obtain ⟨-, -, rfl⟩ := ho
      exact Goes.refl h
    | get _ | getPending _ | getInterruptedSessionTurn _ _ =>
      obtain ⟨-, rfl⟩ := ho
      exact Goes.refl h
    | upsert record =>
      obtain ⟨db, hdb, rfl⟩ := ho
      exact Goes.upsert h hm hdb
    | freeze turnId body payload hash time =>
      obtain rfl := ho
      exact Goes.freeze h turnId body payload hash time
    | claim turnId owner now leaseMs =>
      obtain ⟨-, rfl⟩ := ho
      exact Goes.claim h turnId owner now leaseMs
    | releaseAwaiting turnId owner nextAttemptAt error =>
      obtain ⟨now, rfl⟩ := ho
      exact Goes.releaseAwaiting h turnId owner nextAttemptAt error now
    | markInterrupted turnId error time =>
      obtain rfl := ho
      exact Goes.markInterrupted h turnId error time
    | markFailed turnId error time owner =>
      obtain rfl := ho
      exact Goes.markFailed h turnId error time owner
    | markRetry turnId owner nextAttemptAt error blockedAuth =>
      obtain ⟨now, rfl⟩ := ho
      exact Goes.markRetry h turnId owner nextAttemptAt error blockedAuth now
    | markPublished turnId owner messageId time =>
      obtain ⟨-, rfl⟩ := ho
      exact Goes.markPublished h turnId owner messageId time
    | markSuppressed turnId owner time =>
      obtain rfl := ho
      exact Goes.markSuppressed h turnId owner time
    | markIntegrityHalt turnId error time owner =>
      obtain rfl := ho
      exact Goes.markIntegrityHalt h turnId error time owner
    | releaseForeignLeases ownerPrefix time =>
      obtain rfl := ho
      exact Goes.releaseForeignLeases h ownerPrefix time
    | rebindAcceptedSession turnId sourceId targetId =>
      obtain ⟨now, -, rfl⟩ := ho
      exact Goes.rebind h turnId sourceId targetId now
    | retireForFreshHumanTrigger sessionId triggerId routingKey snapshot =>
      obtain ⟨time, rfl⟩ := ho
      exact Goes.retire h sessionId triggerId routingKey snapshot time
    | reopen intercepts subscriptions =>
      obtain rfl := ho
      exact Goes.reopen h intercepts subscriptions
    | publish turnId call =>
      obtain rfl := ho
      exact Goes.called h hm
    | _ =>
      obtain rfl := ho
      exact Goes.refl h

end Step
end DirectChat
end WmAutopilot
