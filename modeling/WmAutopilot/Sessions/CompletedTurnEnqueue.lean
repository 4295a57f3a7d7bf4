import WmAutopilot.Sessions.CompletedTurnInvariants

/-!
# Enqueueing a completed turn

* `Schema`            the keys of the tables;
* `enqueue_cases`     what a call of `enqueue` does: it throws, it finds its receipt, it adds one;
* `enqueue_again`     a call that follows one that returned finds its receipt;
* `identities`        the columns that tell receipts apart; a statement only adds to them;
* `enqueue_once`      **the same request has one receipt, and a call that throws writes nothing**.
-/

set_option autoImplicit false
set_option linter.unusedVariables false

namespace WmAutopilot
namespace CompletedTurn
open Js Sql CompletedTurnStore Receipts

/-- The keys of the tables. -/
structure Schema (db : CompletedTurnStore) : Prop where
  bindings : PrimaryKey (fun b : TurnBinding => (b.owner, b.conversationKey)) db.bindings
  receipts : PrimaryKey (fun r : TurnRecord => r.receiptId) db.receipts
  requests : PrimaryKey (fun r : TurnRecord => (r.owner, r.requestId)) db.receipts
  sequences : PrimaryKey (fun r : TurnRecord => (r.owner, r.conversationKey, r.sequence))
    db.receipts

/-- A call of `enqueue`: the run and the step that make it, and the UUID that it draws. -/
structure EnqueueCall where
  runId : String
  stepId : String
  receiptId : String

/-- the answers of calls that enqueue the same request, and the store that they leave. -/
def enqueueAll (owner : String) (request : CompletedTurnRequest) :
    CompletedTurnStore → List EnqueueCall → List (Except String TurnRecord) × CompletedTurnStore
  | db, [] => ([], db)
  | db, call :: calls =>
    let first := db.enqueue owner request call.runId call.stepId call.receiptId
    let rest := enqueueAll owner request first.2 calls
    (first.1 :: rest.1, rest.2)

/-- the receipts of a request. -/
def receiptsOf (db : CompletedTurnStore) (owner requestId : String) : List TurnRecord :=
  db.receipts.filter fun r => r.owner = owner ∧ r.requestId = requestId

/-- What is expected of calls that enqueue the same request, one after the other: they all throw and
nothing is written, or they all answer with the one receipt of the request. -/
def Once (db : CompletedTurnStore) (owner : String) (request : CompletedTurnRequest)
    (calls : List EnqueueCall) : Prop :=
  (∃ e, (∀ answer ∈ (enqueueAll owner request db calls).1, answer = .error e) ∧
      (enqueueAll owner request db calls).2 = db) ∨
    ∃ row, (∀ answer ∈ (enqueueAll owner request db calls).1, answer = .ok row) ∧
      row.requestJson = request ∧
      receiptsOf (enqueueAll owner request db calls).2 owner request.requestId = [row]

section
variable {db db' : CompletedTurnStore} {owner runId stepId receiptId runId' stepId' receiptId' : String}
  {request : CompletedTurnRequest} {row : TurnRecord} {e : String}

/-! ## one call -/

/-- the row that a call adds. -/
def addedReceipt (db : CompletedTurnStore) (receiptId owner : String)
    (request : CompletedTurnRequest) (runId stepId : String) : TurnRecord :=
  newReceipt receiptId owner request runId stepId (maximum
    (fun r : TurnRecord => r.owner = owner ∧ r.conversationKey = request.conversationKey)
    (fun r => r.sequence) db.receipts + 1)

/-- A call passes its checks: the conversation is open to the request. -/
structure Passes (db : CompletedTurnStore) (owner : String) (request : CompletedTurnRequest) :
    Prop where
  owned : owner ≠ ""
  kept : db.deleted owner request.conversationKey = false
  bound : ∃ binding, (db.insertBinding owner (configOf request) request).binding owner
      request.conversationKey = some binding ∧ binding.config = configOf request ∧
    ¬(truthy request.sessionId = true ∧ binding.sessionId ≠ request.sessionId)

/-- What a call answers when it passes its checks. -/
inductive Answers (db : CompletedTurnStore) (owner : String) (request : CompletedTurnRequest) :
    String → String → String → Except String TurnRecord × CompletedTurnStore → Prop where
  | found {runId stepId receiptId : String} {existing : TurnRecord}
      (hfound : db.request owner request.requestId = some existing)
      (hsame : existing.requestJson = request) :
      Answers db owner request runId stepId receiptId
        (.ok existing, db.insertBinding owner (configOf request) request)
  | added {runId stepId receiptId : String}
      (hnone : db.request owner request.requestId = none)
      (hopen : db.retired owner request.conversationKey = false) :
      Answers db owner request runId stepId receiptId
        (.ok (addedReceipt db receiptId owner request runId stepId),
          { db.insertBinding owner (configOf request) request with
            receipts := db.receipts ++ [addedReceipt db receiptId owner request runId stepId] })

theorem insertBinding_receipts (config : TurnConfig) :
    (db.insertBinding owner config request).receipts = db.receipts := by
  unfold insertBinding
  split <;> rfl

theorem insertBinding_retired (config : TurnConfig) (o k : String) :
    (db.insertBinding owner config request).retired o k = db.retired o k := by
  unfold insertBinding
  split <;> rfl

theorem insertBinding_deleted (config : TurnConfig) (o k : String) :
    (db.insertBinding owner config request).deleted o k = db.deleted o k := by
  unfold insertBinding
  split <;> rfl

theorem insertBinding_request (config : TurnConfig) (o id : String) :
    (db.insertBinding owner config request).request o id = db.request o id := by
  unfold CompletedTurnStore.request
  rw [insertBinding_receipts]

/-- the body of a call that is not refused at once. -/
theorem enqueueBody_cases (howner : owner ≠ "")
    (hdeleted : db.deleted owner request.conversationKey = false) :
    (∃ e, ∀ runId stepId receiptId,
      db.enqueueBody owner request runId stepId receiptId = .error e) ∨
    Passes db owner request ∧ ∀ runId stepId receiptId,
      Answers db owner request runId stepId receiptId
        (db.transaction (db.enqueueBody owner request runId stepId receiptId)) := by
  have hkept : ¬(db.insertBinding owner (configOf request) request).deleted owner
      request.conversationKey = true := by
    rw [insertBinding_deleted, hdeleted]
    exact Bool.false_ne_true
  unfold enqueueBody
  simp only [if_neg hkept]
  cases hbinding : (db.insertBinding owner (configOf request) request).binding owner
      request.conversationKey with
  | none => exact .inl ⟨_, fun _ _ _ => rfl⟩
  | some binding =>
    by_cases hconfig : binding.config ≠ configOf request
    · exact .inl ⟨_, fun _ _ _ => if_pos hconfig⟩
    by_cases hsession : truthy request.sessionId = true ∧ binding.sessionId ≠ request.sessionId
    · exact .inl ⟨_, fun _ _ _ => (if_neg hconfig).trans (if_pos hsession)⟩
    have hpasses : Passes db owner request :=
      ⟨howner, hdeleted, binding, hbinding, not_not.mp hconfig, hsession⟩
    simp only [if_neg hconfig, if_neg hsession, insertBinding_request, insertBinding_retired,
      insertBinding_receipts]
    cases hrequest : db.request owner request.requestId with
    | some existing =>
      by_cases hsame : existing.requestJson ≠ request
      · exact .inl ⟨_, fun _ _ _ => if_pos hsame⟩
      · refine .inr ⟨hpasses, fun runId stepId receiptId => ?_⟩
        simp only [if_neg hsame]
        exact .found hrequest (not_not.mp hsame)
    | none =>
      by_cases hretired : db.retired owner request.conversationKey = true
      · exact .inl ⟨_, fun _ _ _ => if_pos hretired⟩
      · refine .inr ⟨hpasses, fun runId stepId receiptId => ?_⟩
        simp only [if_neg hretired]
        exact .added hrequest (Bool.eq_false_iff.mpr hretired)

/-- **What a call of `enqueue` does**: it throws whatever it draws, or it answers. -/
theorem enqueue_cases (db : CompletedTurnStore) (owner : String) (request : CompletedTurnRequest) :
    (∃ e, ∀ runId stepId receiptId,
      db.enqueue owner request runId stepId receiptId = (.error e, db)) ∨
    Passes db owner request ∧ ∀ runId stepId receiptId,
      Answers db owner request runId stepId receiptId
        (db.enqueue owner request runId stepId receiptId) := by
  unfold CompletedTurnStore.enqueue
  by_cases howner : owner = ""
  · exact .inl ⟨_, fun _ _ _ => if_pos howner⟩
  by_cases hdeleted : db.deleted owner request.conversationKey = true
  · exact .inl ⟨_, fun _ _ _ => (if_neg howner).trans (if_pos hdeleted)⟩
  simp only [if_neg howner, if_neg hdeleted]
  refine (enqueueBody_cases howner (Bool.eq_false_iff.mpr hdeleted)).imp_left fun ⟨e, he⟩ => ?_
  refine ⟨e, fun runId stepId receiptId => ?_⟩
  rw [he]
  rfl

/-! ## the next call -/

/-- what `INSERT OR IGNORE` leaves is found. -/
theorem insertBinding_again {config : TurnConfig}
    (h : ∃ binding, (db.insertBinding owner config request).binding owner request.conversationKey =
      some binding) (receipts : List TurnRecord) :
    let db' := { db.insertBinding owner config request with receipts }
    db'.insertBinding owner config request = db' := by
  obtain ⟨binding, hbinding⟩ := h
  refine if_pos ?_
  show ((db.insertBinding owner config request).binding owner request.conversationKey).isSome = true
  rw [hbinding]
  rfl

/-- a request that has a receipt, in a conversation that is bound. -/
theorem enqueue_found (hpasses : Passes db owner request)
    (hbound : db.insertBinding owner (configOf request) request = db)
    (hfound : db.request owner request.requestId = some row) (hsame : row.requestJson = request) :
    db.enqueue owner request runId stepId receiptId = (.ok row, db) := by
  obtain ⟨howner, hkept, binding, hbinding, hconfig, hsession⟩ := hpasses
  have hdeleted : ¬db.deleted owner request.conversationKey = true := by
    rw [hkept]
    exact Bool.false_ne_true
  rw [hbound] at hbinding
  unfold CompletedTurnStore.enqueue enqueueBody
  rw [if_neg howner, if_neg hdeleted, hbound]
  simp only [if_neg hdeleted, hbinding, if_neg (not_not_intro hconfig), if_neg hsession, hfound,
    if_neg (not_not_intro hsame)]
  rfl

theorem request_append (hnone : db.request owner request.requestId = none)
    (hrow : row.owner = owner ∧ row.requestId = request.requestId) :
    (db.receipts ++ [row]).find? (fun r => r.owner = owner ∧ r.requestId = request.requestId) =
      some row := by
  unfold CompletedTurnStore.request at hnone
  rw [List.find?_append, hnone, Option.none_or]
  exact List.find?_cons_of_pos (decide_eq_true hrow)

/-- **A call after one that returned** finds the receipt, and writes nothing. -/
theorem enqueue_again (hpasses : Passes db owner request)
    (h : Answers db owner request runId stepId receiptId (.ok row, db')) :
    db'.enqueue owner request runId' stepId' receiptId' = (.ok row, db') := by
  have hexists : ∃ binding, (db.insertBinding owner (configOf request) request).binding owner
      request.conversationKey = some binding := hpasses.bound.imp fun _ hb => hb.1
  -- the store of the first call is that of the binding, with the receipts of `db` or one more
  have hnext : ∀ receipts, Passes { db.insertBinding owner (configOf request) request with receipts }
      owner request := by
    intro receipts
    obtain ⟨howner, hkept, binding, hbinding, hrest⟩ := hpasses
    refine ⟨howner, (insertBinding_deleted _ _ _).trans hkept, binding, ?_, hrest⟩
    rw [insertBinding_again hexists receipts]
    exact hbinding
  cases h with
  | found hfound hsame =>
    exact enqueue_found (hnext _) (insertBinding_again hexists _)
      ((insertBinding_request _ _ _).trans hfound) hsame
  | added hnone hopen =>
    exact enqueue_found (hnext _) (insertBinding_again hexists _) (request_append hnone ⟨rfl, rfl⟩) rfl

/-! ## the keys -/

theorem binding_eq_none {key : String} (h : ¬(db.binding owner key).isSome = true) :
    ∀ b ∈ db.bindings, ¬(b.owner = owner ∧ b.conversationKey = key) := by
  intro b hb hkey
  refine h ?_
  unfold CompletedTurnStore.binding
  rw [List.find?_isSome]
  exact ⟨b, hb, decide_eq_true hkey⟩

theorem Schema.insertBinding (h : Schema db) (config : TurnConfig) :
    Schema (db.insertBinding owner config request) := by
  unfold CompletedTurnStore.insertBinding
  split
  · exact h
  · next hnone =>
    refine ⟨h.bindings.append fun b hb hkey => ?_, h.receipts, h.requests, h.sequences⟩
    obtain ⟨howner, hconversation⟩ := Prod.mk.inj hkey
    exact binding_eq_none hnone b hb ⟨howner, hconversation⟩

theorem request_eq_none {id : String} (h : db.request owner id = none) :
    ∀ r ∈ db.receipts, ¬(r.owner = owner ∧ r.requestId = id) := by
  intro r hr hkey
  exact List.find?_eq_none.mp h r hr (decide_eq_true hkey)

/-- a receipt is never refused by a key of the tables. -/
theorem Schema.answers (h : Schema db) (hfresh : ∀ r ∈ db.receipts, r.receiptId ≠ receiptId)
    (ha : Answers db owner request runId stepId receiptId (.ok row, db')) : Schema db' := by
  have hbound : Schema (db.insertBinding owner (configOf request) request) := h.insertBinding _
  cases ha with
  | found hfound hsame => exact hbound
  | added hnone hopen =>
    refine ⟨hbound.bindings, h.receipts.append hfresh, h.requests.append fun r hr hkey => ?_,
      h.sequences.append fun r hr hkey => ?_⟩
    · obtain ⟨howner, hid⟩ := Prod.mk.inj hkey
      exact request_eq_none hnone r hr ⟨howner, hid⟩
    · obtain ⟨howner, hrest⟩ := Prod.mk.inj hkey
      obtain ⟨hconversation, hsequence⟩ := Prod.mk.inj hrest
      have hle : r.sequence ≤ maximum (fun r : TurnRecord => r.owner = owner ∧
          r.conversationKey = request.conversationKey) (fun r => r.sequence) db.receipts :=
        le_maximum hr ⟨howner, hconversation⟩
      rw [hsequence] at hle
      exact Nat.not_succ_le_self _ hle

/-- the receipt of an answer is in the store, under the key of the request. -/
theorem Answers.mem (ha : Answers db owner request runId stepId receiptId (.ok row, db')) :
    row ∈ db'.receipts ∧ row.owner = owner ∧ row.requestId = request.requestId ∧
      row.requestJson = request := by
  cases ha with
  | found hfound hsame =>
    obtain ⟨hmem, howner, hid⟩ := mem_of_find hfound
    refine ⟨?_, howner, hid, hsame⟩
    rw [insertBinding_receipts]
    exact hmem
  | added hnone hopen => exact ⟨List.mem_append_right _ List.mem_cons_self, rfl, rfl, rfl⟩

/-- a request has one receipt. -/
theorem Schema.receiptsOf (h : Schema db) (hmem : row ∈ db.receipts)
    (howner : row.owner = owner) (hid : row.requestId = request.requestId) :
    receiptsOf db owner request.requestId = [row] := by
  refine h.requests.filter_eq hmem fun r _ => ?_
  rw [Prod.mk.injEq, howner, hid]

/-! ## calls one after the other -/

/-- calls that write nothing answer the same. -/
theorem enqueueAll_same {answer : Except String TurnRecord}
    (h : ∀ runId stepId receiptId, db.enqueue owner request runId stepId receiptId = (answer, db))
    (calls : List EnqueueCall) :
    (∀ a ∈ (enqueueAll owner request db calls).1, a = answer) ∧
      (enqueueAll owner request db calls).2 = db := by
  induction calls with
  | nil => exact ⟨fun a ha => absurd ha List.not_mem_nil, rfl⟩
  | cons call calls ih =>
    have hcons : enqueueAll owner request db (call :: calls) =
        (answer :: (enqueueAll owner request db calls).1, (enqueueAll owner request db calls).2) := by
      rw [enqueueAll, h]
    rw [hcons]
    refine ⟨fun a ha => ?_, ih.2⟩
    rcases List.mem_cons.mp ha with rfl | ha
    · rfl
    · exact ih.1 a ha

/-- **Calls that enqueue the same request.** -/
theorem Schema.once (h : Schema db) {first : EnqueueCall}
    (hfresh : ∀ r ∈ db.receipts, r.receiptId ≠ first.receiptId) (calls : List EnqueueCall) :
    Once db owner request (first :: calls) := by
  rcases enqueue_cases db owner request with ⟨e, he⟩ | ⟨hpasses, hanswers⟩
  · exact .inl ⟨e, enqueueAll_same he (first :: calls)⟩
  · generalize hcall : db.enqueue owner request first.runId first.stepId first.receiptId = called
    have hanswer := hanswers first.runId first.stepId first.receiptId
    rw [hcall] at hanswer
    obtain ⟨answer, db'⟩ := called
    obtain ⟨row, rfl⟩ : ∃ row, answer = .ok row := by
      cases hanswer with
      | found => exact ⟨_, rfl⟩
      | added => exact ⟨_, rfl⟩
    have hagain := enqueueAll_same (fun runId stepId receiptId =>
      enqueue_again hpasses hanswer) calls
    have hcons : enqueueAll owner request db (first :: calls) =
        (.ok row :: (enqueueAll owner request db' calls).1,
          (enqueueAll owner request db' calls).2) := by
      rw [enqueueAll, hcall]
    obtain ⟨hmem, howner, hid, hsame⟩ := hanswer.mem
    refine .inr ⟨row, ?_, hsame, ?_⟩
    · rw [hcons]
      intro a ha
      rcases List.mem_cons.mp ha with rfl | ha
      · rfl
      · exact hagain.1 a ha
    · rw [hcons, hagain.2]
      exact (h.answers hfresh hanswer).receiptsOf hmem howner hid

end

/-! ## calls with other statements between them -/

/-- the columns that tell receipts apart. -/
def identity (r : TurnRecord) : String × String × String × CompletedTurnRequest :=
  (r.receiptId, r.owner, r.requestId, r.requestJson)

def identities (db : CompletedTurnStore) : List (String × String × String × CompletedTurnRequest) :=
  db.receipts.map identity

section
variable {db db' : CompletedTurnStore} {owner : String} {request : CompletedTurnRequest}
  {p : TurnRecord → Prop} [DecidablePred p] {f : TurnRecord → TurnRecord}

theorem identities_updateReceipts (hf : ∀ r, identity (f r) = identity r) :
    identities (db.updateReceipts p f) = identities db := by
  unfold identities updateReceipts update
  rw [List.map_map]
  refine List.map_congr_left fun r _ => ?_
  show identity (if p r then f r else r) = identity r
  split
  · exact hf r
  · rfl

/-- what a transaction leaves, when its body keeps the identities. -/
theorem identities_transaction {α : Type} {body : Except String (α × CompletedTurnStore)}
    (h : ∀ a db', body = .ok (a, db') → identities db' = identities db) :
    identities (db.transaction body).2 = identities db :=
  transaction_cases (P := fun db' => identities db' = identities db) rfl h

theorem identities_retire {o k id : String} : identities (db.retire o k id) = identities db := by
  unfold identities
  rw [retire_receipts]

/-- A statement that enqueues nothing keeps the identities of the receipts. -/
theorem identities_run (s : Statement)
    (hs : ∀ owner request runId stepId receiptId,
      s ≠ .enqueue owner request runId stepId receiptId) :
    identities (s.run db) = identities db := by
  cases s with
  | enqueue owner request runId stepId receiptId => exact absurd rfl (hs _ _ _ _ _)
  | beginDeletion owner request receiptId =>
    refine identities_transaction fun a db' h => ?_
    repeat' split at h
    all_goals cases h
    all_goals rfl
  | finishDeletion owner key receipt => rfl
  | refreshActiveSender sessionId time =>
    show identities (db.refreshActiveSenderForSession sessionId time).2 = identities db
    unfold refreshActiveSenderForSession
    split
    · exact identities_updateReceipts fun _ => rfl
    · rfl
  | recoverMissingPreparation owner request =>
    refine identities_transaction fun a db' h => ?_
    repeat' split at h
    all_goals cases h
    · rfl
    · exact identities_updateReceipts fun _ => rfl
  | claim id token time => exact identities_updateReceipts fun _ => rfl
  | renew id token now => exact identities_updateReceipts fun _ => rfl
  | bind id token executionId sessionId =>
    refine identities_transaction fun a db' h => ?_
    repeat' split at h
    all_goals cases h
    exact identities_updateReceipts fun _ => rfl
  | sending id token nativeId checkpoint now => exact identities_updateReceipts fun _ => rfl
  | uncertain id token error => exact identities_updateReceipts fun _ => rfl
  | claimAbandonment id token now =>
    refine identities_transaction fun a db' h => ?_
    repeat' split at h
    all_goals cases h
    · rfl
    · rfl
    · refine Eq.trans (identities_updateReceipts ?_) identities_retire
      exact fun _ => rfl
  | abandon id token evidence =>
    refine identities_transaction fun a db' h => ?_
    repeat' split at h
    all_goals cases h
    refine Eq.trans (identities_updateReceipts ?_) identities_retire
    exact fun _ => rfl
  | complete id token reply nativeId output =>
    show identities (db.complete id token reply nativeId output).2 = identities db
    unfold CompletedTurnStore.complete
    split
    · rfl
    · exact identities_updateReceipts fun _ => rfl

/-- a request has at most one receipt. -/
def Keyed (db : CompletedTurnStore) : Prop :=
  PrimaryKey (fun r : TurnRecord => (r.owner, r.requestId)) db.receipts

/-- the keys are read off the identities. -/
theorem keyed_iff : Keyed db ↔ ((identities db).map fun i => (i.2.1, i.2.2.1)).Nodup := by
  unfold identities
  rw [List.map_map]
  exact Iff.rfl

/-- **A statement** keeps the receipts that there are, and the requests apart. -/
theorem Keyed.run (h : Keyed db) (s : Statement) :
    Keyed (s.run db) ∧ identities db <+: identities (s.run db) := by
  by_cases hs : ∀ owner request runId stepId receiptId,
      s ≠ .enqueue owner request runId stepId receiptId
  · rw [keyed_iff, identities_run s hs]
    exact ⟨keyed_iff.mp h, List.prefix_rfl⟩
  · push Not at hs
    obtain ⟨owner, request, runId, stepId, receiptId, rfl⟩ := hs
    show Keyed (db.enqueue owner request runId stepId receiptId).2 ∧
      identities db <+: identities (db.enqueue owner request runId stepId receiptId).2
    rcases enqueue_cases db owner request with ⟨e, he⟩ | ⟨-, hanswers⟩
    · rw [he]
      exact ⟨h, List.prefix_rfl⟩
    · generalize hcall : db.enqueue owner request runId stepId receiptId = called
      have hanswer := hanswers runId stepId receiptId
      rw [hcall] at hanswer
      cases hanswer with
      | found hfound hsame =>
        unfold Keyed identities
        rw [insertBinding_receipts]
        exact ⟨h, List.prefix_rfl⟩
      | added hnone hopen =>
        refine ⟨h.append fun r hr hkey => ?_, ?_⟩
        · obtain ⟨howner, hid⟩ := Prod.mk.inj hkey
          exact request_eq_none hnone r hr ⟨howner, hid⟩
        · unfold identities
          rw [List.map_append]
          exact List.prefix_append _ _

theorem Keyed.steps {db'' : CompletedTurnStore} (h : Keyed db) (hs : Steps db db'') :
    Keyed db'' ∧ identities db <+: identities db'' := by
  induction hs with
  | refl => exact ⟨h, List.prefix_rfl⟩
  | tail _ hstep ih =>
    obtain ⟨s, -, rfl⟩ := hstep
    obtain ⟨hkeyed, hstart⟩ := ih.1.run s
    exact ⟨hkeyed, ih.2.trans hstart⟩

/-- **The receipt of a request, at any later time.** -/
theorem Keyed.same_receipt {row row' : TurnRecord} (h : Keyed db')
    (hstart : identities db <+: identities db') (hmem : row ∈ db.receipts)
    (hmem' : row' ∈ db'.receipts) (howner : row.owner = row'.owner)
    (hid : row.requestId = row'.requestId) : row'.receiptId = row.receiptId := by
  have hkept : identity row ∈ identities db' := hstart.subset (List.mem_map_of_mem hmem)
  obtain ⟨later, hlater, heq⟩ := List.mem_map.mp hkept
  unfold identity at heq
  obtain ⟨hreceipt, howner', hid', -⟩ : later.receiptId = row.receiptId ∧
      later.owner = row.owner ∧ later.requestId = row.requestId ∧
      later.requestJson = row.requestJson := by simpa only [Prod.mk.injEq] using heq
  have hsame : later = row' := h.eq hlater hmem'
    (Prod.ext (howner'.trans howner) (hid'.trans hid))
  rw [← hsame]
  exact hreceipt

end

/-- What is expected of `enqueue`. -/
structure EnqueuedOnce (db : CompletedTurnStore) (owner : String) (request : CompletedTurnRequest)
    (first : EnqueueCall) : Prop where
  /-- calls one after the other: one receipt, or nothing is written. -/
  once : ∀ calls, Once db owner request (first :: calls)
  /-- a call at any later time, whatever happened in between. -/
  later : ∀ row, (db.enqueue owner request first.runId first.stepId first.receiptId).1 = .ok row →
    ∀ db', Steps (db.enqueue owner request first.runId first.stepId first.receiptId).2 db' →
    ∀ (call : EnqueueCall) row',
      (db'.enqueue owner request call.runId call.stepId call.receiptId).1 = .ok row' →
      row'.receiptId = row.receiptId ∧
        receiptsOf (db'.enqueue owner request call.runId call.stepId call.receiptId).2 owner
          request.requestId = [row']
  /-- a call that throws. -/
  throws : ∀ (call : EnqueueCall) e,
    (db.enqueue owner request call.runId call.stepId call.receiptId).1 = .error e →
    (db.enqueue owner request call.runId call.stepId call.receiptId).2 = db

section
variable {db db' : CompletedTurnStore} {owner : String} {request : CompletedTurnRequest}
  {row : TurnRecord} {e : String}

theorem enqueue_throws {call : EnqueueCall}
    (h : (db.enqueue owner request call.runId call.stepId call.receiptId).1 = .error e) :
    (db.enqueue owner request call.runId call.stepId call.receiptId).2 = db := by
  rcases enqueue_cases db owner request with ⟨e', he⟩ | ⟨-, hanswers⟩
  · rw [he]
  · have hanswer := hanswers call.runId call.stepId call.receiptId
    generalize db.enqueue owner request call.runId call.stepId call.receiptId = called at h hanswer
    cases hanswer with
    | found hfound hsame => cases h
    | added hnone hopen => cases h

theorem enqueue_mem {call : EnqueueCall}
    (h : (db.enqueue owner request call.runId call.stepId call.receiptId).1 = .ok row) :
    row ∈ (db.enqueue owner request call.runId call.stepId call.receiptId).2.receipts ∧
      row.owner = owner ∧ row.requestId = request.requestId := by
  rcases enqueue_cases db owner request with ⟨e, he⟩ | ⟨-, hanswers⟩
  · rw [he] at h
    cases h
  · have hanswer := hanswers call.runId call.stepId call.receiptId
    generalize db.enqueue owner request call.runId call.stepId call.receiptId = called at h hanswer
    obtain ⟨answer, db'⟩ := called
    obtain rfl : answer = .ok row := h
    obtain ⟨hmem, howner, hid, -⟩ := hanswer.mem
    exact ⟨hmem, howner, hid⟩

end

/-- **The same request has one receipt, and a call that throws writes nothing.** -/
theorem enqueue_once (db : CompletedTurnStore) (h : Schema db) (owner : String)
    (request : CompletedTurnRequest) (first : EnqueueCall)
    (hfresh : ∀ r ∈ db.receipts, r.receiptId ≠ first.receiptId) :
    EnqueuedOnce db owner request first where
  once calls := h.once hfresh calls
  later row hrow db' hsteps call row' hrow' := by
    obtain ⟨hmem, howner, hid⟩ := enqueue_mem hrow
    obtain ⟨hmem', howner', hid'⟩ := enqueue_mem hrow'
    have hfirst : Keyed _ := (Keyed.run h.requests
      (.enqueue owner request first.runId first.stepId first.receiptId)).1
    obtain ⟨hkeyed, hstart⟩ := hfirst.steps hsteps
    obtain ⟨hkeyed', hstart'⟩ := hkeyed.run
      (.enqueue owner request call.runId call.stepId call.receiptId)
    refine ⟨hkeyed'.same_receipt (hstart.trans hstart') hmem hmem' (howner.trans howner'.symm)
      (hid.trans hid'.symm), ?_⟩
    refine PrimaryKey.filter_eq hkeyed' hmem' fun r _ => ?_
    rw [Prod.mk.injEq, howner', hid']
  throws call e he := enqueue_throws he

/-- a store with a turn under way. -/
theorem sentTurn_schema : Schema sentTurn := by
  refine ⟨?_, ?_, ?_, ?_⟩
  all_goals
    unfold PrimaryKey
    decide +kernel

/-- Another request of the conversation, and then the one that is under way. -/
theorem enqueue_once_sent :
    (enqueueAll "owner" { someRequest with requestId := "next" } sentTurn
      [⟨"run", "step", "second"⟩, ⟨"retry", "step", "third"⟩]).1.map (·.toOption.map (·.receiptId)) =
        [some "second", some "second"] ∧
    EnqueuedOnce sentTurn "owner" { someRequest with requestId := "next" }
      ⟨"run", "step", "second"⟩ :=
  ⟨by decide +kernel, enqueue_once sentTurn sentTurn_schema "owner"
    { someRequest with requestId := "next" } ⟨"run", "step", "second"⟩ (by decide +kernel)⟩

end CompletedTurn
end WmAutopilot
