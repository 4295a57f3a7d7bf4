import WmAutopilot.Async.Solo
import WmAutopilot.Sessions.CompletedTurnDelivery

/-!
# What the completed-turn executors guarantee

* `fence_unchanged`   a statement fenced with a token that is not the claim leaves the database;
* `Replaced`          a claim that succeeded and is not the claim of its receipt any more;
* `Replaced.step`     it never becomes the claim again;
* `Guarantees`, `turnDelivery_guarantees`   **every reachable configuration**: sends happen once, in
                      order, after everything before them has ended, and replaced claims change
                      nothing.
-/

set_option autoImplicit false
set_option linter.unusedVariables false

namespace WmAutopilot
namespace CompletedTurn
open Js Sql Async CompletedTurnStore

/-! ## replaced claims -/

/-- `token` is not the claim of the receipt. -/
def NotClaim (id token : String) (db : CompletedTurnStore) : Prop :=
  ∀ r ∈ db.receipts, r.receiptId = id → r.claimToken ≠ some token

theorem updateReceipts_eq_self {db : CompletedTurnStore} {p : TurnRecord → Prop} [DecidablePred p]
    {f : TurnRecord → TurnRecord} (h : ∀ r ∈ db.receipts, ¬p r) : db.updateReceipts p f = db := by
  unfold updateReceipts
  rw [update_eq_self h]

/-- **A statement fenced with a token that is not the claim leaves the database.** -/
theorem fence_unchanged {rt : TurnRuntime} {κ : ℕ} {o : TurnOp} {w w' : World} {r : o.Ans}
    {id token : String} (hf : o.fence = some (id, token)) (hn : NotClaim id token w.db)
    (ho : perform rt κ o w r w') : w'.db = w.db := by
  have hn' : ∀ r ∈ w.db.receipts, ¬ClaimedBy id token r := fun r hr hc => hn r hr hc.1 hc.2
  have hget : ∀ row, w.db.get id = some row → row.claimToken ≠ some token := fun row h =>
    hn row (get_spec h).1 (get_spec h).2
  cases o with
  | renew i t =>
    obtain ⟨rfl, rfl⟩ := Prod.mk.inj (Option.some.inj hf)
    obtain ⟨now, -, rfl⟩ := ho
    exact updateReceipts_eq_self fun r hr hp => hn' r hr hp.1
  | bind i t executionId sessionId =>
    obtain ⟨rfl, rfl⟩ := Prod.mk.inj (Option.some.inj hf)
    obtain ⟨-, rfl⟩ := ho
    refine transaction_cases (P := fun db => db = w.db) rfl fun a db' hb => ?_
    cases hg : w.db.get i with
    | none => simp [hg] at hb
    | some row => simp [hg, hget row hg] at hb
  | sending i t nativeId checkpoint =>
    obtain ⟨rfl, rfl⟩ := Prod.mk.inj (Option.some.inj hf)
    obtain ⟨now, -, rfl⟩ := ho
    exact updateReceipts_eq_self fun r hr hp => hn' r hr hp.1
  | uncertain i t error =>
    obtain ⟨rfl, rfl⟩ := Prod.mk.inj (Option.some.inj hf)
    obtain rfl := ho
    exact updateReceipts_eq_self fun r hr hp => hn' r hr hp.1
  | abandon i t evidence =>
    obtain ⟨rfl, rfl⟩ := Prod.mk.inj (Option.some.inj hf)
    obtain ⟨-, rfl⟩ := ho
    refine transaction_cases (P := fun db => db = w.db) rfl fun a db' hb => ?_
    cases hg : w.db.get i with
    | none => simp [hg] at hb
    | some row => simp [hg, hget row hg] at hb
  | complete i t reply nativeId output =>
    obtain ⟨rfl, rfl⟩ := Prod.mk.inj (Option.some.inj hf)
    obtain ⟨-, rfl⟩ := ho
    show (CompletedTurnStore.complete _ _ _ _ _ _).2 = w.db
    unfold CompletedTurnStore.complete
    split
    · rfl
    · exact updateReceipts_eq_self fun r hr hp => hn' r hr hp.1
  | _ => cases hf

/-- the claim of the receipt succeeded with `token`, and is another one now. -/
def Replaced (id token : String) (w : World) : Prop :=
  (id, token) ∈ w.claims ∧ NotClaim id token w.db

/-- **A replaced claim never becomes the claim again.** -/
theorem Replaced.evolve {w w' : World} {κ : ℕ} {id token : String} (he : Evolves κ w w')
    (h : Replaced id token w) : Replaced id token w' := by
  refine ⟨he.claims h.1, fun r hr hid htok => ?_⟩
  rcases he.rows r hr with ⟨r₀, hr₀, hst, -, e | e⟩ | ⟨-, e, -⟩
  · exact h.2 r₀ hr₀ (hst.receiptId.symm.trans hid) (e ▸ htok)
  · exact e _ h.1 htok
  · rw [e] at htok
    cases htok

theorem Replaced.step {rt : TurnRuntime} {c c' : Conf api World} (hc : ConfOk (delivery rt) c)
    (hs : Step (system rt) c c') {id token : String} (h : Replaced id token c.state) :
    Replaced id token c'.state := by
  cases hs with
  | start κ p hidle hfree hp hspawn => exact h
  | perform κ o k r s' hκ hrun ho => exact h.evolve (perform_goes rt hc.inv (hc.permitted hκ) ho).2
  | kill κ => exact h
  | crash s' hs =>
    obtain rfl := hs
    exact h

theorem Replaced.steps {rt : TurnRuntime} {c c' : Conf api World} (hc : ConfOk (delivery rt) c)
    (hs : Steps (system rt) c c') {id token : String} (h : Replaced id token c.state) :
    Replaced id token c'.state := by
  induction hs with
  | refl => exact h
  | tail hs hstep ih => exact ih.step (hc.steps (delivery_keeps rt) hs) hstep

/-! ## the guarantees -/

/-- What holds of every reachable configuration. -/
structure Guarantees (rt : TurnRuntime) (c : Conf api World) : Prop where
  /-- a prompt is handed to the runtime at most once, and only for a receipt. -/
  once : c.state.sent.Nodup ∧
    ∀ id ∈ c.state.sent, ∃ r ∈ c.state.db.receipts, r.receiptId = id
  /-- the sends of one conversation happen in the order of the sequence. -/
  order : c.state.sent.Pairwise fun i j =>
    ∀ r ∈ c.state.db.receipts, ∀ r' ∈ c.state.db.receipts, r.receiptId = i → r'.receiptId = j →
      SameConversation r r' → r.sequence < r'.sequence
  /-- when a receipt is about to be sent, those before it are completed or abandoned. -/
  before : ∀ κ id executionId prompt k,
    c.threads κ = some (.call (TurnOp.send id executionId prompt) k) →
      ∀ r ∈ c.state.db.receipts, r.receiptId = id → ∀ r' ∈ c.state.db.receipts, Earlier r' r →
        r'.status = .completed ∨ r'.status = .abandoned
  /-- from now on a replaced claim stays replaced, and what is done under it changes nothing. -/
  fenced : ∀ id token, Replaced id token c.state → ∀ c', Steps (system rt) c c' →
    Replaced id token c'.state ∧ ∀ κ o r w', o.fence = some (id, token) →
      perform rt κ o c'.state r w' → w'.db = c'.state.db

/-- **At-most-once, ordered delivery of completed turns.** -/
theorem turnDelivery_guarantees (rt : TurnRuntime) (c : Conf api World)
    (h : Reachable (system rt) World.Initial c) : Guarantees rt c := by
  have hc : ConfOk (delivery rt) c :=
    (delivery_keeps rt).reachable (fun _ => Inv.initial) h
  refine ⟨⟨hc.inv.sentOnce, fun id hid => ?_⟩, hc.inv.sentOrder, ?_, ?_⟩
  · obtain ⟨t, ht⟩ := hc.inv.sentMarked id hid
    obtain ⟨r, hr, e, -⟩ := hc.inv.marked _ ht
    exact ⟨r, hr, e⟩
  · intro κ id executionId prompt k hκ r hr hid r' hr' he
    obtain ⟨t, hm, -, -⟩ : ∃ t, Marked κ id t c.state := hc.permitted hκ
    obtain ⟨r₀, hr₀, hid₀, -, hbefore⟩ := hc.inv.marked _ hm
    obtain rfl : r₀ = r := hc.inv.unique.eq hr₀ hr (hid₀.trans hid.symm)
    exact Or.inl (hbefore r' hr' he)
  · intro id token hrep c' hs
    have hrep' := hrep.steps hc hs
    exact ⟨hrep', fun κ o r w' hf ho => fence_unchanged hf hrep'.2 ho⟩

/-- a runtime that never finds evidence. -/
def silentRuntime : TurnRuntime := ⟨fun _ _ _ => False, fun _ _ _ h => h.elim⟩

/-- a request of a new conversation. -/
def firstRequest : CompletedTurnRequest where
  agent := none
  conversationKey := "conversation"
  requestId := "request"
  projectId := "project"
  prompt := "hello"
  directory := "/work"
  sessionId := none
  model := none
  executionProfile := none
  projectFiles := none
  durationMs := none

/-- the run of an executor on a new conversation up to the send of its prompt. -/
theorem turnDelivery_guarantees_first_send : ∃ c,
    Reachable (system silentRuntime) World.Initial c ∧ c.state.sent = ["receipt"] ∧ Guarantees silentRuntime c := by
  have run : ∃ p s, Solo (system silentRuntime) 0
      (executeCompletedTurn 1 ⟨"owner", firstRequest, "run", "step"⟩).detach {} p s ∧
      s.sent = ["receipt"] :=
    ⟨_, _, .step (.ok ()) rfl <|  -- authorize
      .step _ ⟨"receipt", List.not_mem_nil, rfl, rfl⟩ <|  -- enqueue
      .step _ ⟨rfl, rfl⟩ <| .step _ ⟨rfl, rfl⟩ <|  -- get, head
      .step "token" ⟨by decide, rfl⟩ <|
      .step _ ⟨0, rfl, rfl⟩ <| .step () rfl <|  -- claim, setInterval
      .step _ ⟨rfl, rfl⟩ <| .step (.ok ("session", some "session")) rfl <|  -- binding, prepare
      .step _ ⟨rfl, rfl⟩ <| .step (.ok ()) rfl <| .step (.ok ()) rfl <|  -- bind, onSession, ready
      .step (.ok ⟨none, 0⟩) rfl <| .step _ ⟨rfl, rfl⟩ <|  -- checkpoint, leaseError
      .step _ ⟨0, rfl, rfl⟩ <| .step _ ⟨0, rfl, rfl⟩ <|  -- renew, sending
      .step _ ⟨rfl, rfl⟩ <| .step () rfl <|  -- get, onTurn
      .step (.error "gone") rfl (.refl _ _), rfl⟩
  obtain ⟨p, s, hrun, hs⟩ := run
  obtain ⟨c, hc, rfl, -⟩ := hrun.reachable World.Initial rfl rfl
    (Spawn.execute 1 _)
  exact ⟨c, hc, hs, turnDelivery_guarantees silentRuntime c hc⟩

end CompletedTurn
end WmAutopilot
