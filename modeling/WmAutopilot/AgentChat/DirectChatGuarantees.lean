import WmAutopilot.AgentChat.DirectChatPublication
import WmAutopilot.Async.Solo

/-!
# What the delivery of Agent Direct turns guarantees

* `Free`              a program that asks for permitted operations only, whatever it knows;
* `processTurnNow_free`, `publishTurn_free` …   the programs that processes start are free: a
                      saved record was read before (`Held`), and what is published was claimed
                      (`Bound`);
* `publication_keeps` hence the discipline is kept;
* `fence_unchanged`   a statement fenced with an owner that does not lease the turn changes nothing;
* `PublicationGuarantees`, `publication_frozen`   **every run**: what is frozen stays, all calls of
                      a turn carry it, and stale owners change nothing.
-/

set_option autoImplicit false
set_option linter.unusedVariables false

namespace WmAutopilot
namespace DirectChat
open Sql Async DirectChatTurnStore

/-! ## the discipline -/

def publication (sha256 : String → String) : Discipline api World :=
  { system sha256 with
    Inv := Inv
    may := fun _ o w => may o w }

/-- the operation asks for something to be known. -/
abbrev DeliveryOp.asks : DeliveryOp → Bool
  | .upsert _ | .publish _ _ => true
  | _ => false

/-- a test that fails, found by evaluating it. -/
class IsFalse (b : Bool) : Prop where
  eq : b = false

instance : IsFalse false := ⟨rfl⟩

theorem may_of_unasked {o : DeliveryOp} (h : o.asks = false) (w : World) : may o w := by
  cases o with
  | upsert _ | publish _ _ => cases h
  | _ => trivial

section Programs
variable {sha256 : String → String} {κ : ℕ} {α β : Type} {P : World → Prop}

/-- an assertion that survives every operation. -/
def Persistent (P : World → Prop) : Prop := ∀ w w', Evolves w w' → P w → P w'

theorem Persistent.step (hP : Persistent P) (κ : ℕ) (o : DeliveryOp) (w : World)
    (r : Except DeliveryError o.Result) (w' : World) (hi : (publication sha256).Inv w)
    (hm : (publication sha256).may κ o w) (ho : (publication sha256).perform κ o w r w') :
    P w → P w' := hP w w' (perform_goes hi hm ho).2

theorem Persistent.stable (hP : Persistent P) : Stable (publication sha256) κ P := by
  rintro w w' hw ⟨κ', o, r, -, hi, hm, ho⟩
  exact hP.step κ' o w r w' hi hm ho hw

theorem persistent_any : Persistent Any := fun _ _ _ _ => trivial

/-- the record was read from the store. -/
def Held (record : DirectChatTurnRecord) (w : World) : Prop :=
  RowOk record ∧ ∃ row ∈ w.db.turns, Keeps record row

theorem persistent_held (found : Option DirectChatTurnRecord) :
    Persistent fun w => ∀ r ∈ found, Held r w := by
  intro w w' he h r hr
  obtain ⟨hok, row, hrow, hk⟩ := h r hr
  obtain ⟨row', hrow', hk'⟩ := he row hrow
  exact ⟨hok, row', hrow', hk.trans hk'⟩

theorem Held.of_mem {w : World} (h : Inv w) {r : DirectChatTurnRecord} (hr : r ∈ w.db.turns) :
    Held r w := ⟨h.rows r hr, r, hr, Keeps.refl r⟩

/-- A program that asks for permitted operations only, from every state of the invariant. -/
def Free (sha256 : String → String) (p : Delivery α) : Prop :=
  ∀ κ, Triple (publication sha256) κ Any p Any₂ Any₂

/-! ### rules -/

theorem Free.pure (a : α) : Free sha256 (pure a : Delivery α) :=
  fun _ => Triple.pure fun _ _ _ => trivial

theorem Free.throw (e : DeliveryError) : Free sha256 (throw e : Delivery α) :=
  fun _ => Triple.throw fun _ _ _ => trivial

theorem Free.bind {p : Delivery α} {f : α → Delivery β} (hp : Free sha256 p)
    (hf : ∀ a, Free sha256 (f a)) : Free sha256 (p >>= f) :=
  fun κ => (hp κ).bind fun a => (hf a κ)

theorem Free.ite {c : Prop} [Decidable c] {p q : Delivery α} (hp : Free sha256 p)
    (hq : Free sha256 q) : Free sha256 (if c then p else q) :=
  fun κ => Triple.ite (fun _ => hp κ) fun _ => hq κ

theorem Free.tryCatch {p : Delivery α} {f : DeliveryError → Delivery α} (hp : Free sha256 p)
    (hf : ∀ e, Free sha256 (f e)) : Free sha256 (tryCatch p f) :=
  fun κ => Triple.tryCatch (hp κ) fun e => hf e κ

/-- an operation that asks for nothing. -/
theorem Free.perform (o : DeliveryOp) [h : IsFalse o.asks] : Free sha256 (op o) :=
  fun κ => Triple.tryOp persistent_any.stable (fun w _ _ => may_of_unasked h.eq w)
    (fun _ _ _ _ _ _ _ _ _ => trivial) fun _ _ _ _ _ _ _ _ _ => trivial

/-- a free program keeps what survives every operation. -/
theorem Free.keep {p : Delivery α} (h : Free sha256 p) (hP : Persistent P) (κ : ℕ) :
    Triple (publication sha256) κ P p (fun _ => P) Any₂ :=
  (((h κ).frame fun κ o s r s' hi hm ho => hP.step κ o s r s' hi hm ho).pre
    fun _ _ hs => ⟨trivial, hs⟩).post (fun _ _ _ h => h.2) fun _ _ _ _ => trivial

/-- an operation that asks for what is known, and what its answer tells. -/
theorem ask {o : DeliveryOp} {Q : o.Result → World → Prop} (hP : Persistent P)
    (hm : ∀ w, P w → may o w)
    (hQ : ∀ w a w', Inv w → P w → effect o w a w' → Inv w' → Q a w') :
    Triple (publication sha256) κ P (op o) Q Any₂ := by
  refine Triple.tryOp hP.stable (fun w _ hw => hm w hw) (fun w r w' a hi hw ho hi' hr => ?_)
    fun _ _ _ _ _ _ _ _ _ => trivial
  have hr' : r = Except.ok a := hr
  subst hr'
  exact hQ w a w' hi hw ho hi'

/-- an operation that asks for nothing, and what follows. -/
theorem Free.next {o : DeliveryOp} [IsFalse o.asks] {f : o.Result → Delivery β}
    (hf : ∀ a, Free sha256 (f a)) : Free sha256 (op o >>= f) := (Free.perform o).bind hf

/-! ### saving and freezing -/

theorem reread_free (turnId : String) : Free sha256 (reread turnId) := by
  refine Free.next fun found => ?_
  cases found with
  | none => exact Free.throw _
  | some record => exact Free.pure _

/-- **A record that may be saved.** -/
theorem save_ok {record : DirectChatTurnRecord} (hP : Persistent P)
    (h : ∀ w, P w → Snapshot record w) :
    Triple (publication sha256) κ P (save record) Any₂ Any₂ :=
  (ask (o := .upsert record) hP h fun _ _ _ _ _ _ _ => trivial).bind fun _ =>
    reread_free record.turnId κ

/-- a record without a publication may always be saved. -/
theorem save_free {record : DirectChatTurnRecord} (hp : record.publicationPayload = none)
    (hh : record.payloadHash = none) (hm : record.publishedMessageId = none)
    (hs : record.state ≠ .publishing) : Free sha256 (save record) :=
  fun κ => save_ok persistent_any fun w _ =>
    ⟨fun _ => hh, fun _ => hs, fun _ => hm, fun hne => absurd hp hne⟩

theorem saveNew_free (turn : NewTurn) : Free sha256 (save turn.record) := by
  refine save_free rfl rfl rfl fun e => ?_
  have h : (if turn.awaiting then DirectChatTurnState.awaitingReply else .accepted) =
      .publishing := e
  split at h <;> cases h

/-- **A record that was read may be saved with an edit.** -/
theorem Held.edit {record : DirectChatTurnRecord} {w : World} (h : Held record w) (now : ℕ)
    (edit : RuntimeEdit) : Snapshot (edit.apply now record) w := by
  obtain ⟨hok, row, hrow, hk⟩ := h
  have hkeeps : Keeps (edit.apply now record) row := by
    cases edit <;> exact ⟨hk.turnId, hk.clientRequestId, hk.payload, hk.hash, hk.published⟩
  refine ⟨?_, ?_, ?_, fun _ => ⟨row, hrow, hkeeps⟩⟩
  · cases edit <;> exact hok.hash
  · cases edit with
    | orphan | bootstrap _ _ | accepted => exact fun _ e => by cases e
    | recover _ | session _ | intend _ _ _ => exact hok.publishing
  · cases edit <;> exact hok.unpublished_of_open

theorem saveEdited_ok (found : Option DirectChatTurnRecord) (edit : RuntimeEdit) :
    Triple (publication sha256) κ (fun w => ∀ r ∈ found, Held r w) (saveEdited found edit) Any₂
      Any₂ := by
  cases found with
  | none => exact Triple.throw fun _ _ _ => trivial
  | some record =>
    refine ((Free.perform .now).keep (persistent_held (some record)) κ).bind fun now => ?_
    exact save_ok (persistent_held (some record)) fun w hw => (hw record rfl).edit now edit

theorem get_held (turnId : String) : Triple (publication sha256) κ Any (op (.get turnId))
    (fun (found : Option DirectChatTurnRecord) w => ∀ r ∈ found, Held r w) Any₂ := by
  refine ask persistent_any (fun _ _ => trivial) fun w a w' hi _ ho _ r hr => ?_
  obtain ⟨ha, rfl⟩ := ho
  have hr' : w'.db.get turnId = some r := ha.symm.trans hr
  exact Held.of_mem hi (mem_of_find hr').1

theorem getPending_held (routingKey : String) :
    Triple (publication sha256) κ Any (op (.getPending routingKey))
      (fun (found : Option DirectChatTurnRecord) w => ∀ r ∈ found, Held r w) Any₂ := by
  refine ask persistent_any (fun _ _ => trivial) fun w a w' hi _ ho _ r hr => ?_
  obtain ⟨ha, rfl⟩ := ho
  have hr' : w'.db.getPending routingKey = some r := ha.symm.trans hr
  exact Held.of_mem hi (first_spec hr').1

theorem editTurn_free (turnId : String) (edit : RuntimeEdit) : Free sha256 (editTurn turnId edit) :=
  fun κ => (get_held turnId).bind fun found => saveEdited_ok found edit

theorem editPending_free (routingKey : String) (edit : RuntimeEdit) :
    Free sha256 (editPending routingKey edit) :=
  fun κ => (getPending_held routingKey).bind fun found => saveEdited_ok found edit

theorem buildPayload_free (record : DirectChatTurnRecord) (body : String) :
    Free sha256 (buildPayload record body) := by
  unfold buildPayload
  split
  · exact Free.pure _
  · exact Free.throw _

theorem freezeReply_free (turnId body : String) (time : ReplyTime) :
    Free sha256 (freezeReply sha256 turnId body time) := by
  cases time with
  | blank | unreadable => exact Free.throw _
  | time t =>
    refine Free.next fun found => ?_
    cases found with
    | none => exact Free.throw _
    | some current =>
      refine (buildPayload_free current body).bind fun payload => ?_
      refine Free.ite (Free.throw _) (Free.ite (Free.pure _) ?_)
      exact Free.next fun _ => reread_free turnId

theorem integrityError_free (record : DirectChatTurnRecord) :
    Free sha256 (directChatPublicationIntegrityError sha256 record) := by
  unfold directChatPublicationIntegrityError
  split
  · refine Free.ite (Free.pure _) (Free.ite (Free.pure _) ?_)
    exact (buildPayload_free _ _).bind fun rebuilt => Free.ite (Free.pure _) (Free.pure _)
  · exact Free.pure _

theorem freezeOrResume_free (turnId body : String) (candidateAt : Option ReplyTime) :
    Free sha256 (freezeOrResumeDirectChatReply sha256 turnId body candidateAt) := by
  refine Free.next fun now => ?_
  refine (freezeReply_free turnId body _).tryCatch fun error => ?_
  refine Free.ite (Free.throw _) (Free.next fun found => ?_)
  cases found with
  | none => exact Free.throw _
  | some current =>
    refine Free.ite (Free.throw _) ((integrityError_free current).bind fun integrityError => ?_)
    cases integrityError with
    | none => exact Free.pure _
    | some message =>
      refine Free.next fun time => ?_
      exact Free.next fun _ => Free.throw _

theorem notifyStatus_free (record : DirectChatTurnRecord) (kind : StatusKind) :
    Free sha256 (notifyStatus record kind) := by
  refine Free.next fun now => Free.next fun found => ?_
  cases found with
  | none => exact save_free rfl rfl rfl fun e => by cases e
  | some existing => exact Free.pure _

/-! ### the reconciler -/

theorem after_free (ms : ℕ) : Free sha256 (after ms) := Free.next fun _ => Free.pure _

theorem halt_free (record : DirectChatTurnRecord) (owner : String) (error : TurnError) :
    Free sha256 (halt record owner error) :=
  Free.next fun _ => Free.next fun _ => Free.perform _

theorem retry_free (record : DirectChatTurnRecord) (owner : String) (ms : ℕ) (error : TurnError)
    (blockedAuth : Bool) : Free sha256 (retry record owner ms error blockedAuth) :=
  (after_free ms).bind fun _ => Free.next fun _ => Free.perform _

theorem fail_free (record : DirectChatTurnRecord) (owner : String) (error : TurnError) :
    Free sha256 (fail record owner error) := Free.next fun _ => Free.perform _

theorem validateBinding_free (record : DirectChatTurnRecord) :
    Free sha256 (validateBinding sha256 record) := by
  refine (integrityError_free record).bind fun publicationError => ?_
  cases publicationError with
  | some message => exact Free.pure _
  | none =>
    refine Free.ite (Free.pure _) (Free.bind ?_ fun session => ?_)
    · unfold liveSession
      split
      · exact Free.ite (Free.pure _) (Free.perform _)
      · exact Free.pure _
    · cases session with
      | none => exact Free.pure _
      | some metadata => exact Free.ite (Free.pure _) (Free.pure _)

theorem recordRecovered_free (record : DirectChatTurnRecord) (messageId : String) :
    ∀ recordIds, Free sha256 (recordRecovered record messageId recordIds)
  | [] => Free.pure _
  | recordId :: rest => Free.next fun _ => recordRecovered_free record messageId rest

theorem afterPublished_free (record published : DirectChatTurnRecord) (messageId : String)
    (publishedAt : ℕ) : Free sha256 (afterPublished record published messageId publishedAt) := by
  refine Free.next fun _ => Free.bind ?_ fun _ => Free.bind ?_ fun _ => Free.bind ?_ fun _ => ?_
  · exact Free.ite (Free.pure _) (Free.perform _)
  · exact Free.ite (Free.pure _) (Free.perform _)
  · exact Free.ite (recordRecovered_free record messageId _) (Free.pure _)
  · exact Free.next fun _ => Free.pure _

theorem publicationFailed_free (options : ReconcilerOptions) (record : DirectChatTurnRecord)
    (owner : String) (error : DeliveryError) :
    Free sha256 (publicationFailed options record owner error) := by
  refine Free.ite (retry_free _ _ _ _ _) (Free.ite (halt_free _ _ _) (Free.ite (halt_free _ _ _)
    (Free.ite (halt_free _ _ _) (Free.ite (halt_free _ _ _) ?_))))
  cases error.status with
  | none => exact halt_free _ _ _
  | some status =>
    refine Free.ite (retry_free _ _ _ _ _) (Free.ite ?_ (halt_free _ _ _))
    exact (Free.perform _).bind fun _ => retry_free _ _ _ _ _

/-- the turn is frozen with this publication, under the client request id of the record. -/
def Bound (record : DirectChatTurnRecord) (payload : DirectChatPublicationPayload) (w : World) :
    Prop :=
  ∃ row ∈ w.db.turns, row.turnId = record.turnId ∧ row.publicationPayload = some payload ∧
    row.clientRequestId = record.clientRequestId

theorem persistent_bound (record : DirectChatTurnRecord) (payload : DirectChatPublicationPayload) :
    Persistent (Bound record payload) := by
  rintro w w' he ⟨row, hrow, hid, hp, hrequest⟩
  obtain ⟨row', hrow', hk⟩ := he row hrow
  exact ⟨row', hrow', hk.turnId.trans hid, hk.payload _ hp, hk.clientRequestId.trans hrequest⟩

theorem Held.bound {record : DirectChatTurnRecord} {payload : DirectChatPublicationPayload}
    {w : World} (h : Held record w) (hp : record.publicationPayload = some payload) :
    Bound record payload w := by
  obtain ⟨-, row, hrow, hk⟩ := h
  exact ⟨row, hrow, hk.turnId, hk.payload _ hp, hk.clientRequestId⟩

/-- **The publish call** carries what is frozen. -/
theorem publishWithIdentity_ok (record : DirectChatTurnRecord)
    (transport : AgentDirectDeliveryTransport) (payload : DirectChatPublicationPayload) :
    Triple (publication sha256) κ (Bound record payload)
      (publishWithIdentity record transport payload) Any₂ Any₂ := by
  have hP := persistent_bound record payload
  refine ((Free.perform _).keep hP κ).bind fun botNpub => ?_
  refine Triple.ite (fun _ => Triple.throw fun _ _ _ => trivial) fun _ => ?_
  refine ((Free.ite (Free.pure _) (Free.perform _)).keep hP κ).bind fun _ => ?_
  refine ((Free.perform _).keep hP κ).bind fun latest => ?_
  refine Triple.ite (fun _ => Triple.pure fun _ _ _ => trivial) fun _ => ?_
  refine ask hP (fun w hw => ?_) fun _ _ _ _ _ _ _ => trivial
  obtain ⟨row, hrow, hid, hp, hrequest⟩ := hw
  exact ⟨row, hrow, hid, hp, hrequest⟩

theorem sendPublication_ok (record : DirectChatTurnRecord) (owner : String)
    (transport : AgentDirectDeliveryTransport) (payload : DirectChatPublicationPayload) :
    Triple (publication sha256) κ (Bound record payload)
      (sendPublication record owner transport payload) Any₂ Any₂ := by
  refine (publishWithIdentity_ok record transport payload).bind fun result => ?_
  cases result.filter (· ≠ "") with
  | none => exact Triple.throw fun _ _ _ => trivial
  | some messageId =>
    have free : ∀ {p : Delivery (Option DirectChatTurnRecord)}, Free sha256 p →
        Triple (publication sha256) κ Any p Any₂ Any₂ := fun h => h κ
    refine free (Free.next fun publishedAt => Free.next fun published => ?_)
    cases published with
    | none => exact Free.perform _
    | some published => exact afterPublished_free record published messageId publishedAt

/-- **`publish`** of a claimed turn that is frozen. -/
theorem publish_ok (options : ReconcilerOptions) (record : DirectChatTurnRecord) (owner : String)
    {payload : DirectChatPublicationPayload} (hp : record.publicationPayload = some payload) :
    Triple (publication sha256) κ (Bound record payload) (publish sha256 options record owner)
      Any₂ Any₂ := by
  have hP := persistent_bound record payload
  have free : ∀ {α : Type} {p : Delivery α}, Free sha256 p →
      Triple (publication sha256) κ (Bound record payload) p Any₂ Any₂ := fun h =>
    (h κ).pre fun _ _ _ => trivial
  refine ((validateBinding_free record).keep hP κ).bind fun bindingError => ?_
  cases bindingError with
  | some error => exact free (halt_free record owner error)
  | none =>
    refine ((Free.ite (Free.pure _) (Free.perform _)).keep hP κ).bind fun (suppress : Bool) => ?_
    refine Triple.ite (fun _ => free ?_) fun _ => ?_
    · exact Free.next fun _ => Free.next fun _ => Free.next fun _ => Free.next fun _ => Free.pure _
    · refine ((Free.perform _).keep hP κ).bind fun transport => ?_
      cases transport with
      | none => exact free (retry_free _ _ _ _ _)
      | some transport =>
        rw [hp]
        have hsend : Triple (publication sha256) κ _
            (sendPublication record owner transport payload) Any₂ Any₂ :=
          sendPublication_ok record owner transport payload
        exact hsend.tryCatch fun error => publicationFailed_free options record owner error κ

theorem noReply_free (options : ReconcilerOptions)
    {process : String → Delivery (Option DirectChatTurnRecord)}
    (hprocess : ∀ turnId, Free sha256 (process turnId)) (record : DirectChatTurnRecord)
    (owner : String) (inspection : AcceptedFinalInspection) :
    Free sha256 (noReply options process record owner inspection) := by
  refine Free.next fun (now : ℕ) => Free.ite ?_ (Free.ite ?_ ?_)
  · refine (fail_free _ _ _).bind fun _ => Free.next fun _ => Free.perform _
  · refine (notifyStatus_free _ _).bind fun notification => (fail_free _ _ _).bind fun _ => ?_
    exact Free.next fun _ => (hprocess _).bind fun _ => Free.perform _
  · refine Free.next fun latest => Free.bind (Free.ite ?_ (Free.pure _)) fun _ => ?_
    · exact (notifyStatus_free _ _).bind fun _ => Free.perform _
    · exact (after_free _).bind fun _ => Free.next fun _ => Free.perform _

theorem resumeReply_free {process : String → Delivery (Option DirectChatTurnRecord)}
    (hprocess : ∀ turnId, Free sha256 (process turnId)) (record : DirectChatTurnRecord)
    (owner : String) (reply : Reply) :
    Free sha256 (resumeReply sha256 process record owner reply) := by
  refine Free.next fun now => Free.next fun _ => Free.next fun latest => ?_
  refine Free.bind (Free.ite ?_ (Free.pure _)) fun _ => hprocess _
  exact Free.next fun time => (freezeReply_free _ _ _).bind fun _ => Free.pure _

theorem reconcileReply_free (options : ReconcilerOptions)
    {process : String → Delivery (Option DirectChatTurnRecord)}
    (hprocess : ∀ turnId, Free sha256 (process turnId)) (record : DirectChatTurnRecord)
    (owner : String) : Free sha256 (reconcileReply sha256 options process record owner) := by
  refine Free.ite ?_ (Free.next fun (inspection : AcceptedFinalInspection) =>
    Free.next fun latest => Free.ite (Free.perform _) ?_)
  · exact (fail_free _ _ _).bind fun _ => Free.perform _
  · refine (Free.ite (Free.perform _) (Free.pure _)).bind fun _ => Free.bind ?_ fun reply => ?_
    · cases inspection.reply with
      | some reply => exact Free.pure _
      | none => exact Free.ite (Free.perform _) (Free.pure _)
    · cases reply with
      | none => exact noReply_free options hprocess record owner inspection
      | some reply => exact resumeReply_free hprocess record owner reply

theorem freezeKnownReply_free (current : DirectChatTurnRecord) :
    Free sha256 (freezeKnownReply sha256 current) := by
  refine Free.ite (Free.tryCatch ?_ fun _ => Free.pure _) (Free.pure _)
  exact Free.next fun time => (freezeReply_free _ _ _).bind fun _ => Free.pure _

theorem handleUnexpected_free (record : DirectChatTurnRecord) (owner : String)
    (error : DeliveryError) : Free sha256 (handleUnexpected record owner error) :=
  (Free.perform _).bind fun _ => retry_free _ _ _ _ _

/-- what a claim answers was read from the store. -/
theorem claim_held (turnId owner : String) (now leaseMs : ℕ) :
    Triple (publication sha256) κ Any (op (.claim turnId owner now leaseMs))
      (fun (found : Option DirectChatTurnRecord) w => ∀ r ∈ found, Held r w) Any₂ := by
  refine ask persistent_any (fun _ _ => trivial) fun w a w' hi _ ho hi' r hr => ?_
  obtain ⟨ha, rfl⟩ := ho
  have hr' : (w.db.claim turnId owner now leaseMs).1 = some r := ha.symm.trans hr
  obtain ⟨r₀, hr₀, rfl⟩ := Option.map_eq_some_iff.mp hr'
  obtain ⟨hmem, hp⟩ := mem_of_find hr₀
  exact Held.of_mem hi' (mem_update.mpr ⟨r₀, hmem, if_pos hp⟩)

/-- **`processTurnNow`**, by induction on the turns that wait for each other. -/
theorem processTurnNow_free (options : ReconcilerOptions) (fuel : ℕ) :
    ∀ turnId, Free sha256 (processTurnNow sha256 options fuel turnId) := by
  induction fuel with
  | zero => exact fun _ => Free.next fun _ => Free.throw _
  | succ fuel ih =>
    intro turnId
    refine Free.next fun found => ?_
    cases found with
    | none => exact Free.pure _
    | some current =>
      refine Free.ite (Free.pure _) (Free.ite ?_ ?_)
      · exact Free.next fun now => Free.next fun _ => Free.perform _
      · refine (freezeKnownReply_free current).bind fun known => Free.ite (Free.perform _) ?_
        refine Free.next fun now => Free.next fun uuid => fun κ => ?_
        refine (claim_held turnId _ now options.leaseMs).bind fun claimed => ?_
        cases claimed with
        | none =>
          have hget : Free sha256 (op (.get turnId)) := Free.perform _
          exact (hget κ).pre fun _ _ _ => trivial
        | some claimed =>
          refine Triple.tryCatch ?_ fun error => handleUnexpected_free claimed _ error κ
          refine Triple.ite (fun hopen => ?_) fun hfrozen => ?_
          · exact (reconcileReply_free options ih claimed _ κ).pre fun _ _ _ => trivial
          · obtain ⟨payload, hp⟩ := Option.ne_none_iff_exists'.mp hfrozen
            exact (publish_ok options claimed _ hp).pre fun _ _ h => (h claimed rfl).bound hp

/-! ### the runtime -/

theorem publishTurn_free (options : ReconcilerOptions) (fuel : ℕ) (turn : NewTurn) (body : String)
    (candidateAt : Option ReplyTime) :
    Free sha256 (publishTurn sha256 options fuel turn body candidateAt) := by
  refine Free.next fun found => Free.bind ?_ fun record => Free.ite (Free.pure _) ?_
  · cases found with
    | some record => exact Free.pure _
    | none => exact saveNew_free turn
  · refine (freezeOrResume_free _ _ _).bind fun frozen => ?_
    refine (processTurnNow_free options fuel _).bind fun processed => ?_
    exact Free.ite (Free.throw _) (Free.pure _)

theorem rebind_free (routingKey sourceId targetId : String) :
    Free sha256 (rebindNativeDirectChatRecovery routingKey sourceId targetId) := by
  refine Free.next fun (pending : Option DirectChatTurnRecord) => ?_
  refine (Free.ite (Free.pure _) (Free.perform _)).bind fun turn => ?_
  cases turn with
  | none => exact Free.pure _
  | some turn =>
    refine Free.ite (Free.next fun rebound => ?_) (Free.pure _)
    cases rebound with
    | none => exact Free.pure _
    | some rebound => exact (notifyStatus_free _ _).bind fun _ => Free.pure _

theorem Free.detach {p : Delivery α} (h : Free sha256 p) {w : World} (hi : Inv w) :
    wp (publication sha256) κ p.detach (fun _ _ => True) w := Triple.detach (h κ) hi

/-- **The programs that processes start are free.** -/
theorem spawn_ok {p : Prog api Unit} {w : World} (hi : Inv w) (h : Spawn sha256 p) :
    wp (publication sha256) κ p (fun _ _ => True) w := by
  cases h with
  | process options fuel turnId => exact (processTurnNow_free options fuel turnId).detach hi
  | start options =>
    have hstart : Free sha256 (start options) := Free.next fun _ => Free.perform _
    exact hstart.detach hi
  | saveNew turn => exact (saveNew_free turn).detach hi
  | editTurn turnId edit => exact (editTurn_free turnId edit).detach hi
  | editPending routingKey edit => exact (editPending_free routingKey edit).detach hi
  | freezeFinal turnId body candidateAt => exact (freezeOrResume_free _ _ _).detach hi
  | publishTurn options fuel turn body candidateAt =>
    exact (publishTurn_free options fuel turn body candidateAt).detach hi
  | status turn kind => exact (notifyStatus_free turn kind).detach hi
  | interrupted turnId error time => exact (Free.perform _).detach hi
  | released options turnId time error => exact (Free.perform _).detach hi
  | failed turnId error time => exact (Free.perform _).detach hi
  | halted turnId error time => exact (Free.perform _).detach hi
  | rebound routingKey sourceId targetId => exact (rebind_free _ _ _).detach hi
  | retired sessionId triggerId routingKey snapshot => exact (Free.perform _).detach hi
  | reopened intercepts subscriptions => exact (Free.perform _).detach hi

end Programs

/-- **The discipline is kept.** -/
theorem publication_keeps (sha256 : String → String) : (publication sha256).Keeps where
  perform hi hm ho := (perform_goes hi hm ho).1
  crash := by
    rintro w w' hi ⟨intercepts, subscriptions, rfl⟩
    exact (Goes.reopen hi intercepts subscriptions).1
  spawn hi h := spawn_ok hi h

theorem Inv.initial {w : World} (h : w.Initial) : Inv w := by
  obtain rfl := h
  exact ⟨List.nodup_nil, fun r hr => absurd hr List.not_mem_nil,
    fun c hc => absurd hc List.not_mem_nil⟩

/-! ## stale owners -/

/-- no row of the turn is leased by the owner. -/
def NotLeased (turnId owner : String) (db : DirectChatTurnStore) : Prop :=
  ∀ r ∈ db.turns, r.turnId = turnId → r.leaseOwner ≠ some owner

theorem updateTurns_eq_self {db : DirectChatTurnStore} {p : DirectChatTurnRecord → Prop}
    [DecidablePred p] {f : DirectChatTurnRecord → DirectChatTurnRecord}
    (h : ∀ r ∈ db.turns, ¬p r) : db.updateTurns p f = db := by
  unfold updateTurns
  rw [update_eq_self h]

/-- **A statement fenced with an owner that does not lease the turn leaves the store.** -/
theorem fence_unchanged {o : DeliveryOp} {w w' : World} {r : Except DeliveryError o.Result}
    {turnId owner : String} (hf : o.fence = some (turnId, owner))
    (hn : NotLeased turnId owner w.db) (ho : perform o w r w') : w' = w := by
  have hleased : ∀ r ∈ w.db.turns, ¬LeasedBy turnId owner r := fun r hr h => hn r hr h.1 h.2
  have hself : w.stored w.db = w := rfl
  cases r with
  | error e =>
    obtain rfl := ho
    cases o with
    | publish _ _ => cases hf
    | _ => rfl
  | ok a =>
    cases o with
    | releaseAwaiting i o _ _ =>
      cases hf
      obtain ⟨now, rfl⟩ := ho
      exact congrArg w.stored (updateTurns_eq_self hleased)
    | markRetry i o _ _ _ =>
      cases hf
      obtain ⟨now, rfl⟩ := ho
      exact congrArg w.stored (updateTurns_eq_self hleased)
    | markPublished i o _ _ =>
      cases hf
      obtain ⟨-, rfl⟩ := ho
      exact congrArg w.stored (updateTurns_eq_self fun r hr h => hleased r hr h.1)
    | markSuppressed i o _ =>
      cases hf
      obtain rfl := ho
      exact congrArg w.stored (updateTurns_eq_self hleased)
    | markFailed i _ _ o =>
      obtain ⟨o', ho', he⟩ := Option.map_eq_some_iff.mp hf
      cases he
      obtain rfl := ho
      refine congrArg w.stored (updateTurns_eq_self fun r hr h => ?_)
      exact hn r hr h.1 (h.2.2.2.1 _ ho')
    | markIntegrityHalt i _ _ o =>
      obtain ⟨o', ho', he⟩ := Option.map_eq_some_iff.mp hf
      cases he
      obtain rfl := ho
      refine congrArg w.stored (updateTurns_eq_self fun r hr h => ?_)
      exact hn r hr h.1 (h.2.2 _ ho')
    | _ => cases hf

/-! ## the guarantees -/

/-- What holds from one configuration of a run to a later one. -/
structure PublicationGuarantees (sha256 : String → String) (c c' : Conf api World) : Prop where
  /-- each turn has one row. -/
  unique : PrimaryKey (fun r : DirectChatTurnRecord => r.turnId) c'.state.db.turns
  /-- it has kept its client request id and what was written of its publication, the hash and the
  published message. -/
  kept : ∀ r ∈ c.state.db.turns, ∃ r' ∈ c'.state.db.turns, Keeps r r'
  /-- the publish calls of a turn are all the same. -/
  calls : ∀ p ∈ c'.state.calls, ∀ q ∈ c'.state.calls, p.1 = q.1 →
    p.2.clientRequestId = q.2.clientRequestId ∧ p.2.body = q.2.body ∧
      p.2.threadId = q.2.threadId ∧ p.2.metadata = q.2.metadata
  /-- they carry what is frozen, also those that are about to be made. -/
  frozen : (∀ p ∈ c'.state.calls, Frozen p.1 p.2 c'.state) ∧
    ∀ κ turnId call k, c'.threads κ = some (.call (DeliveryOp.publish turnId call) k) →
      Frozen turnId call c'.state
  /-- a statement with an owner that does not lease the turn changes nothing. -/
  fenced : ∀ o turnId owner r w', o.fence = some (turnId, owner) →
    NotLeased turnId owner c'.state.db → perform o c'.state r w' → w' = c'.state

theorem Frozen.same {w : World} (h : Inv w) {turnId : String} {p q : PublishCall}
    (hp : Frozen turnId p w) (hq : Frozen turnId q w) :
    p.clientRequestId = q.clientRequestId ∧ p.body = q.body ∧ p.threadId = q.threadId ∧
      p.metadata = q.metadata := by
  obtain ⟨r, hr, hid, hpayload, hrequest⟩ := hp
  obtain ⟨r', hr', hid', hpayload', hrequest'⟩ := hq
  obtain rfl : r = r' := h.unique.eq hr hr' (hid.trans hid'.symm)
  rw [hpayload, Option.some.injEq, DirectChatPublicationPayload.mk.injEq] at hpayload'
  exact ⟨hrequest.symm.trans hrequest', hpayload'⟩

def someTurn : NewTurn where
  turnId := "turn"
  routingKey := "agent-direct:v1:npub1tower:workspace:channel:thread:npub1agent"
  sourceMessageIds := ["message"]
  clientRequestId := "agentdirect:turn"
  awaiting := true
  createdAt := 0
  updatedAt := 0
  subscriptionId := some "subscription"
  backendBaseUrl := some "https://tower"
  towerServiceNpub := some "npub1tower"
  workspaceId := some "workspace"
  sourceAppNpub := some "npub1app"
  channelId := some "channel"
  threadId := some "thread"
  agentId := some "agent"
  agentNpub := some "npub1agent"
  sessionId := some "session"

/-- the hash of the only publication that is hashed in its run. -/
def someHash (_ : String) : String :=
  "1bb5bc3373a0b1aca89267c48ef8a73b9e1d97e9f4c2ac2de29f3539c9e3cb4e"

def someOptions : ReconcilerOptions := { instanceId := "instance" }

/-- the row of the turn when its reply is frozen. -/
def frozenTurn : DirectChatTurnRecord :=
  { someTurn.record.values with
    replyBody := some "Done."
    publicationPayload := some ⟨"Done.", "thread",
      { sessionId := some "session", turnId := "turn", sourceMessageIds := ["message"]
        agentNpub := "npub1agent" }⟩
    payloadHash := some (someHash ""), state := .replyReady, replyReadyAt := some 1
    nextAttemptAt := some 1, updatedAt := 1 }

def someTransport : AgentDirectDeliveryTransport := ⟨"https://tower", "workspace", "npub1app"⟩

end DirectChat
end WmAutopilot
