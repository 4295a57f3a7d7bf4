import WmAutopilot.Async.Solo
import WmAutopilot.Server.PromptDelivery

/-!
# What the dispatch of queued prompts guarantees

* `fence_unchanged`   what is done under a token that is not the claim of the row changes nothing;
* `steps_log`         the history only grows;
* `Guarantees`, `promptDelivery_guarantees`   **every reachable configuration**: a row that was
                      marked as being sent is handed over again only after a release, and stale
                      claims change nothing.
-/

set_option autoImplicit false
set_option linter.unusedVariables false

namespace WmAutopilot
namespace PromptQueue
open Js Sql Async PromptQueueStore

/-! ## stale claims -/

/-- the row and the claim token of a method under a claim. -/
def QueueOp.fence : QueueOp → Option (String × String)
  | markClaimSending _ id token | recordClaimAcceptance _ id token | completeClaim _ id token
  | releaseRejectedClaim _ id token _ | reconcileClaim _ id _ token _ _ _ => some (id, token)
  | _ => none

/-- `token` is not the claim of the row. -/
def NotClaim (id token : String) (db : PromptQueueStore) : Prop :=
  ∀ r ∈ db.prompts, r.id = id → r.claimToken ≠ some token

theorem Claim.unchanged {w w' : World} {p : QueuedPrompt → Prop} {state : PromptState}
    {delivery : DeliveryState} {x : Except QueueError Unit × PromptQueueStore} {e : Event}
    {r : Except Thrown Unit} (hx : UnderClaim w.queue p state delivery x)
    (hn : ∀ r ∈ w.queue.prompts, ¬p r) (ho : w.Claim x e r w') : w' = w := by
  obtain ⟨-, rfl⟩ := ho
  obtain ⟨⟨err, herr⟩, hdb⟩ := hx.stale hn
  simp only [herr, hdb]

/-- **What is done under a token that is not the claim of the row changes nothing.** -/
theorem fence_unchanged {κ : ℕ} {o : QueueOp} {w w' : World} {r : o.Ans} {id token : String}
    (hf : o.fence = some (id, token)) (hn : NotClaim id token w.queue)
    (ho : perform κ o w r w') : w' = w := by
  have hn' : ∀ sessionId, ∀ r ∈ w.queue.prompts, ¬ClaimedBy sessionId id token r :=
    fun sessionId r hr hc => hn r hr hc.2.1 hc.2.2.1
  cases o with
  | markClaimSending sessionId i t =>
    obtain ⟨rfl, rfl⟩ := Prod.mk.inj (Option.some.inj hf)
    obtain ⟨now, ho⟩ := ho
    exact Claim.unchanged markClaimSending_under (fun r hr hp => hn' sessionId r hr hp.1) ho
  | recordClaimAcceptance sessionId i t =>
    obtain ⟨rfl, rfl⟩ := Prod.mk.inj (Option.some.inj hf)
    obtain ⟨now, ho⟩ := ho
    exact Claim.unchanged recordClaimAcceptance_under (hn' sessionId) ho
  | completeClaim sessionId i t =>
    obtain ⟨rfl, rfl⟩ := Prod.mk.inj (Option.some.inj hf)
    obtain ⟨now, ho⟩ := ho
    exact Claim.unchanged completeClaim_under (hn' sessionId) ho
  | releaseRejectedClaim sessionId i t certainty =>
    obtain ⟨rfl, rfl⟩ := Prod.mk.inj (Option.some.inj hf)
    obtain rfl := ho
    rw [releaseRejectedClaim_stale (hn' sessionId),
      if_neg fun hx => hx.2 (changes_eq_zero.mpr (hn' sessionId))]
  | reconcileClaim sessionId i revision t resolution actor reason =>
    obtain ⟨rfl, rfl⟩ := Prod.mk.inj (Option.some.inj hf)
    obtain ⟨now, -, rfl⟩ := ho
    rcases reconcileClaim_follows w.queue sessionId i t now revision resolution actor
      reason with ⟨⟨err, herr⟩, hdb⟩ | ⟨-, ⟨r, hr, hid, ht⟩, -⟩
    · simp only [herr, hdb]
    · exact absurd ht (hn r hr hid)
  | _ => cases hf

/-! ## the history -/

/-- **The history only grows.** -/
theorem steps_log {c c' : Conf api World} (hc : ConfOk delivery c) (hs : Steps system c c') :
    ∃ l, c'.state.log = l ++ c.state.log := by
  induction hs with
  | refl => exact ⟨[], rfl⟩
  | tail hs hstep ih =>
    obtain ⟨l, hl⟩ := ih
    have hc₁ := hc.steps dispatch_keeps hs
    cases hstep with
    | perform κ o k r s' hκ hrun ho =>
      obtain ⟨l', hl'⟩ := (perform_goes hc₁.inv (hc₁.permitted hκ) ho).2.log
      exact ⟨l' ++ l, by rw [hl', hl, List.append_assoc]⟩
    | crash s' hs' =>
      obtain rfl := hs'
      exact ⟨l, hl⟩
    | _ => exact ⟨l, hl⟩

/-- What holds of every reachable configuration. -/
structure Guarantees (c : Conf api World) : Prop where
  /-- between two hand-overs of a row it was released after a rejection, or reconciled with
  `retry`. -/
  once : ∀ id post mid pre, c.state.log = post ++ .handed id :: (mid ++ .handed id :: pre) →
    Released id mid
  /-- a row whose delivery is uncertain or accepted is handed over later only after such a release,
  except by the hand-over that its mark, the latest event, announces. -/
  marked : ∀ r ∈ c.state.queue.prompts, MarkedSent r → ∀ c', Steps system c c' →
    ∀ post mid, c'.state.log = post ++ .handed r.id :: (mid ++ c.state.log) →
      Released r.id mid ∨ mid = [] ∧ ∃ t l, c.state.log = .marked r.id t :: l
  /-- the events of later configurations are those of this one and more. -/
  history : ∀ c', Steps system c c' → ∃ l, c'.state.log = l ++ c.state.log
  /-- what is done under a token that is not the claim of the row changes nothing. -/
  stale : ∀ κ o id token r w', QueueOp.fence o = some (id, token) →
    NotClaim id token c.state.queue → perform κ o c.state r w' → w' = c.state

/-- **Queued prompts are not delivered twice.** -/
theorem promptDelivery_guarantees (c : Conf api World) (h : Reachable system World.Initial c) :
    Guarantees c := by
  have hc : ConfOk delivery c := dispatch_keeps.reachable (fun _ => Inv.initial) h
  refine ⟨fun id post mid pre hlog => ?_, fun r hr hm c' hs post mid hlog => ?_,
    fun c' hs => steps_log hc hs, fun κ o id token r w' => fence_unchanged⟩
  · have hlaw : Lawful (.handed id :: (mid ++ .handed id :: pre)) :=
      Lawful.drop (hlog ▸ hc.inv.lawful)
    refine (hlaw.handed (Or.inl rfl)).resolve_right ?_
    rintro ⟨-, t, l', e⟩
    cases e
  · have hlaw : Lawful (.handed r.id :: (mid ++ c.state.log)) :=
      Lawful.drop (hlog ▸ (hc.steps dispatch_keeps hs).inv.lawful)
    exact hlaw.handed (hc.inv.sent r hr hm)

/-- the session of a concrete run. -/
def someSession : SessionSnapshot := ⟨"session", none, "running", none, none⟩

/-- a prompt is enqueued and dispatched up to its hand-over. -/
theorem promptDelivery_guarantees_first_delivery : ∃ c, Reachable system World.Initial c ∧
    c.state.log = [.handed "prompt", .marked "prompt" "claim"] ∧ Guarantees c := by
  have enqueue : Solo system 0 (op (.call (.addPrompt "session" ⟨"hello", none, none, none⟩))).detach
      {} _ _ := .step () ⟨"prompt", 0, List.not_mem_nil, rfl⟩ (.refl _ _)
  obtain ⟨c₁, hc₁, hs₁, -, hr₁, ht₁⟩ := enqueue.reachable World.Initial rfl rfl
    (Spawn.call _)
  have dispatch : ∃ p s, Solo system 1
      (dispatchNextQueuedPromptForSession someSession (some "npub")).detach c₁.state p s ∧
      s.log = [.handed "prompt", .marked "prompt" "claim"] := by
    rw [hs₁]
    exact ⟨_, _, .step false ⟨rfl, rfl⟩ <| .step () rfl <|  -- inFlightHas, inFlightAdd
      .step true rfl <| .step (.ok ()) rfl <|  -- isUserApprovedForWork, ensureSessionReady
      .step _ ⟨"claim", 0, by decide, rfl, rfl⟩ <|  -- claimNextPrompt
      .step (.ok ()) rfl <| .step none rfl <|  -- assertPromptExecutionAllowed, getAdapter
      .step (.ok ()) rfl <| .step (.ok ()) ⟨0, rfl, rfl⟩ <|  -- buildAgentUrl, markClaimSending
      .step (.ok ⟨200, ""⟩) rfl (.refl _ _), rfl⟩
  obtain ⟨p, s, hrun, hlog⟩ := dispatch
  obtain ⟨c, hc, rfl, -⟩ := Solo.extend hc₁ hr₁ (ht₁ 1 (by decide)) hrun rfl (Spawn.dispatch _ _)
  exact ⟨c, hc, hlog, promptDelivery_guarantees c hc⟩

end PromptQueue
end WmAutopilot
