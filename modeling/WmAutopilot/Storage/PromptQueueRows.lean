import WmAutopilot.Storage.PromptQueueStore

/-!
# What the methods of the prompt queue do to its rows

`Follows M db db'`: every row of `db'` is a row of `db` (in the same order) changed as `M` says.

* `SamePhase r r'`   state, delivery state and claim are the same;
* `Ended r r'`       the same, but the row may be in a terminal state now;
* `pruneHistory_follows`, `reorderQueue_follows`, `claimNextPrompt_follows`, …   one lemma for each
                     method;
* `UnderClaim`       what a method under a claim does; by `UnderClaim.stale` **it changes nothing
                     under a claim that is not the claim of the row**.
-/

set_option autoImplicit false
set_option linter.unusedVariables false

namespace WmAutopilot
namespace PromptQueue
open Js Sql PromptQueueStore

/-- state, delivery state and claim are the same. -/
def SamePhase (r r' : QueuedPrompt) : Prop :=
  r'.state = r.state ∧ r'.deliveryState = r.deliveryState ∧ r'.claimToken = r.claimToken

/-- the same phase, but the row may be in a terminal state now. -/
def Ended (r r' : QueuedPrompt) : Prop :=
  (r'.state = r.state ∨ r'.state.Terminal) ∧ r'.deliveryState = r.deliveryState ∧
    r'.claimToken = r.claimToken

theorem SamePhase.refl (r : QueuedPrompt) : SamePhase r r := ⟨rfl, rfl, rfl⟩

theorem SamePhase.trans {a b c : QueuedPrompt} (h : SamePhase a b) (h' : SamePhase b c) :
    SamePhase a c := ⟨h'.1.trans h.1, h'.2.1.trans h.2.1, h'.2.2.trans h.2.2⟩

theorem SamePhase.ended {r r' : QueuedPrompt} (h : SamePhase r r') : Ended r r' :=
  ⟨Or.inl h.1, h.2⟩

theorem Ended.refl (r : QueuedPrompt) : Ended r r := (SamePhase.refl r).ended

theorem Ended.samePhase {a b c : QueuedPrompt} (h : Ended a b) (h' : SamePhase b c) :
    Ended a c := ⟨h'.1 ▸ h.1, h'.2.1.trans h.2.1, h'.2.2.trans h.2.2⟩

/-! ## rows that follow rows -/

/-- Rows changed as `M` says.  See the file header. -/
structure Follows (M : QueuedPrompt → QueuedPrompt → Prop) (db db' : PromptQueueStore) : Prop where
  ids : (db'.prompts.map (·.id)).Sublist (db.prompts.map (·.id))
  rows : ∀ r' ∈ db'.prompts, ∃ r ∈ db.prompts, r'.id = r.id ∧ M r r'

section Follows
variable {M N : QueuedPrompt → QueuedPrompt → Prop} {a b c db db' : PromptQueueStore}

theorem Follows.of_eq (hM : ∀ r, M r r) (h : db'.prompts = db.prompts) : Follows M db db' where
  ids := by rw [h]
  rows r hr := ⟨r, h ▸ hr, rfl, hM r⟩

theorem Follows.refl (hM : ∀ r, M r r) (db : PromptQueueStore) : Follows M db db :=
  Follows.of_eq hM rfl

theorem Follows.mono (h : Follows M db db') (hMN : ∀ r r', M r r' → N r r') : Follows N db db' where
  ids := h.ids
  rows r' hr' := by
    obtain ⟨r, hr, hid, hm⟩ := h.rows r' hr'
    exact ⟨r, hr, hid, hMN r r' hm⟩

/-- after rows changed as `M` says, rows of the same phase follow. -/
theorem Follows.samePhase (hM : ∀ {x y z}, M x y → SamePhase y z → M x z) (h : Follows M a b)
    (h' : Follows SamePhase b c) : Follows M a c where
  ids := h'.ids.trans h.ids
  rows r' hr' := by
    obtain ⟨r₁, hr₁, hid₁, hm₁⟩ := h'.rows r' hr'
    obtain ⟨r, hr, hid, hm⟩ := h.rows r₁ hr₁
    exact ⟨r, hr, hid₁.trans hid, hM hm hm₁⟩

/-- only the table of prompts matters. -/
theorem Follows.congr (h : Follows M a c) (e : b.prompts = a.prompts) : Follows M b c where
  ids := e ▸ h.ids
  rows := e ▸ h.rows

theorem Follows.trans (h : Follows SamePhase a b) (h' : Follows SamePhase b c) :
    Follows SamePhase a c := Follows.samePhase (M := SamePhase) SamePhase.trans h h'

theorem Follows.after (h : Follows SamePhase a b) (h' : Follows Ended b c) : Follows Ended a c where
  ids := h'.ids.trans h.ids
  rows r' hr' := by
    obtain ⟨r₁, hr₁, hid₁, hs, hd, ht⟩ := h'.rows r' hr'
    obtain ⟨r, hr, hid, hm⟩ := h.rows r₁ hr₁
    exact ⟨r, hr, hid₁.trans hid, hm.1 ▸ hs, hd.trans hm.2.1, ht.trans hm.2.2⟩

theorem Follows.updatePrompts {p : QueuedPrompt → Prop} [DecidablePred p]
    {f : QueuedPrompt → QueuedPrompt} (hM : ∀ r, ¬p r → M r r) (hf : ∀ r, (f r).id = r.id)
    (hp : ∀ r, p r → M r (f r)) : Follows M db (db.updatePrompts p f) where
  ids := by
    show ((update p f db.prompts).map _).Sublist _
    rw [map_update hf]
  rows r' hr' := by
    obtain ⟨r, hr, rfl⟩ := mem_update.mp hr'
    refine ⟨r, hr, ?_⟩
    split
    · exact ⟨hf r, hp r ‹_›⟩
    · exact ⟨rfl, hM r ‹_›⟩

theorem Follows.deletePrompts {p : QueuedPrompt → Prop} [DecidablePred p] (hM : ∀ r, M r r) :
    Follows M db (db.deletePrompts p) where
  ids := List.filter_sublist.map _
  rows r hr := ⟨r, List.mem_of_mem_filter hr, rfl, hM r⟩

end Follows

/-! ## the methods -/

section Methods
variable {db : PromptQueueStore} {sessionId id token : String} {now : ℕ}

theorem pruneHistory_follows : Follows SamePhase db (db.pruneHistory sessionId now) := by
  let kept := db.deletePrompts fun r => r.sessionId = sessionId ∧ r.state.Terminal ∧
    (terminalTime r < now - retryWindow ∨ r.id ∉ db.recentTerminal sessionId 1000)
  let scrubbed := kept.updatePrompts (fun r => r.sessionId = sessionId ∧ r.state.Terminal ∧
      r.content ≠ "" ∧ r.id ∉ kept.recentTerminal sessionId 100)
    fun r => { r with content := "", payload := none }
  have h₁ : Follows SamePhase db kept := Follows.deletePrompts SamePhase.refl
  have h₂ : Follows SamePhase kept scrubbed :=
    Follows.updatePrompts (fun r _ => SamePhase.refl r) (fun _ => rfl) fun _ _ => ⟨rfl, rfl, rfl⟩
  have h₃ : Follows SamePhase scrubbed (db.pruneHistory sessionId now) :=
    Follows.of_eq SamePhase.refl rfl
  exact (h₁.trans h₂).trans h₃

theorem getSessionQueue_follows : Follows SamePhase db (db.getSessionQueue sessionId now).2 :=
  pruneHistory_follows

theorem reorderQueue_follows : Follows SamePhase db (db.reorderQueue sessionId now) := by
  have step : ∀ (l : List (QueuedPrompt × ℕ)) (db : PromptQueueStore), Follows SamePhase db
      (l.foldl (fun db (x : QueuedPrompt × ℕ) => if x.1.order ≠ x.2 + 1 then
        db.updatePrompts (fun r => r.id = x.1.id) (fun r => { r with order := x.2 + 1 })
      else db) db) := by
    intro l
    induction l with
    | nil => exact Follows.refl SamePhase.refl
    | cons x l ih =>
      intro db
      rw [List.foldl_cons]
      refine Follows.trans ?_ (ih _)
      split
      · exact Follows.updatePrompts (fun r _ => SamePhase.refl r) (fun _ => rfl)
          fun _ _ => ⟨rfl, rfl, rfl⟩
      · exact Follows.refl SamePhase.refl db
  exact getSessionQueue_follows.trans (step _ _)

/-- a method after which the queue is numbered again. -/
theorem Follows.reorder {M : QueuedPrompt → QueuedPrompt → Prop} {db' : PromptQueueStore}
    (h : Follows M db db') (hM : ∀ {x y z}, M x y → SamePhase y z → M x z) :
    Follows M db (db'.reorderQueue sessionId now) := h.samePhase hM reorderQueue_follows

/-- the row that a claim touches is pending. -/
theorem claimNextPrompt_follows : Follows (fun r r' => SamePhase r r' ∨ r.state = .pending ∧
    r'.state = .claimed ∧ r'.deliveryState = some .unsent ∧ r'.claimToken = some token) db
    (db.claimNextPrompt sessionId token now).2 := by
  unfold claimNextPrompt
  split
  · exact Follows.refl (fun r => Or.inl (SamePhase.refl r)) db
  · split
    · exact Follows.refl (fun r => Or.inl (SamePhase.refl r)) db
    · exact Follows.updatePrompts (fun r _ => Or.inl (SamePhase.refl r)) (fun _ => rfl)
        fun r hp => Or.inr ⟨hp.2, rfl, rfl, rfl⟩

/-- the prompt that `claimNextPrompt` returns is claimed under the new token. -/
theorem claimNextPrompt_some {prompt : QueuedPrompt}
    (h : (db.claimNextPrompt sessionId token now).1 = some prompt) :
    prompt.claimToken = some token := by
  unfold claimNextPrompt at h
  split at h
  · cases h
  · split at h
    · cases h
    · cases h
      rfl

/-! ### methods under a claim -/

/-- the rows of `p` get a state and a delivery state and keep their claim. -/
def Becomes (p : QueuedPrompt → Prop) (state : PromptState) (delivery : DeliveryState)
    (r r' : QueuedPrompt) : Prop :=
  SamePhase r r' ∧ ¬p r ∨
    p r ∧ r'.state = state ∧ r'.deliveryState = some delivery ∧ r'.claimToken = r.claimToken

theorem Becomes.samePhase {p : QueuedPrompt → Prop} {state : PromptState}
    {delivery : DeliveryState} {x y z : QueuedPrompt} (h : Becomes p state delivery x y)
    (h' : SamePhase y z) : Becomes p state delivery x z := by
  rcases h with ⟨h, hn⟩ | ⟨hp, h₁, h₂, h₃⟩
  · exact Or.inl ⟨h.trans h', hn⟩
  · exact Or.inr ⟨hp, h'.1.trans h₁, h'.2.1.trans h₂, h'.2.2.trans h₃⟩

/-- a method under a claim: it throws and changes nothing, or there is a row of `p` and the rows of
`p` become what is said. -/
def UnderClaim (db : PromptQueueStore) (p : QueuedPrompt → Prop) (state : PromptState)
    (delivery : DeliveryState) (x : Exec Unit) : Prop :=
  (∃ e, x.1 = .error e) ∧ x.2 = db ∧ (∀ r ∈ db.prompts, ¬p r) ∨
    x.1 = .ok () ∧ (∃ r ∈ db.prompts, p r) ∧ Follows (Becomes p state delivery) db x.2

theorem updateClaim_under {p : QueuedPrompt → Prop} [DecidablePred p]
    {f : QueuedPrompt → QueuedPrompt} {state : PromptState} {delivery : DeliveryState}
    (hf : ∀ r, (f r).id = r.id)
    (hp : ∀ r, p r → (f r).state = state ∧ (f r).deliveryState = some delivery ∧
      (f r).claimToken = r.claimToken) : UnderClaim db p state delivery (db.updateClaim p f) := by
  unfold updateClaim
  split
  · rename_i h
    exact Or.inl ⟨⟨_, rfl⟩, rfl, changes_eq_zero.mp h⟩
  · rename_i h
    refine Or.inr ⟨rfl, changes_pos.mp (Nat.pos_of_ne_zero h), ?_⟩
    exact Follows.updatePrompts (fun r hn => Or.inl ⟨SamePhase.refl r, hn⟩) hf
      fun r h => Or.inr ⟨h, hp r h⟩

/-- **A method under a claim that is not the claim of the row changes nothing.** -/
theorem UnderClaim.stale {p : QueuedPrompt → Prop} {state : PromptState}
    {delivery : DeliveryState} {x : Exec Unit} (h : UnderClaim db p state delivery x)
    (hn : ∀ r ∈ db.prompts, ¬p r) : (∃ e, x.1 = .error e) ∧ x.2 = db := by
  rcases h with ⟨he, hdb, -⟩ | ⟨-, ⟨r, hr, hp⟩, -⟩
  · exact ⟨he, hdb⟩
  · exact absurd hp (hn r hr)

theorem recordClaimAcceptance_under : UnderClaim db (ClaimedBy sessionId id token) .claimed
    .accepted (db.recordClaimAcceptance sessionId id token now) :=
  updateClaim_under (fun _ => rfl) fun r h => ⟨h.2.2.2, rfl, rfl⟩

theorem markClaimSending_under : UnderClaim db
    (fun r => ClaimedBy sessionId id token r ∧ r.deliveryState = some .unsent) .claimed .uncertain
    (db.markClaimSending sessionId id token now) :=
  updateClaim_under (fun _ => rfl) fun r h => ⟨h.1.2.2.2, rfl, rfl⟩

theorem completeClaim_under : UnderClaim db (ClaimedBy sessionId id token) .dispatched
    .accepted (db.completeClaim sessionId id token now) := by
  have h : UnderClaim db (ClaimedBy sessionId id token) .dispatched .accepted
      (db.updateClaim (ClaimedBy sessionId id token) fun r => { r with
        state := .dispatched, deliveryState := some .accepted, deliveryUpdatedAt := some now }) :=
    updateClaim_under (fun _ => rfl) fun r _ => ⟨rfl, rfl, rfl⟩
  unfold completeClaim
  dsimp only
  rcases h with ⟨⟨e, he⟩, h⟩ | ⟨hok, hr, hf⟩
  · rw [he]
    exact Or.inl ⟨⟨e, he⟩, h⟩
  · rw [hok]
    exact Or.inr ⟨rfl, hr, hf.reorder Becomes.samePhase⟩

theorem releaseRejectedClaim_follows (certainty : DeliveryState) :
    Follows (fun r r' => SamePhase r r' ∧ ¬ClaimedBy sessionId id token r ∨
      ClaimedBy sessionId id token r ∧ r'.state = .pending ∧
        r'.deliveryState = some certainty ∧ r'.claimToken = none) db
      (db.releaseRejectedClaim sessionId id token certainty) :=
  Follows.updatePrompts (fun r hn => Or.inl ⟨SamePhase.refl r, hn⟩) (fun _ => rfl)
    fun r h => Or.inr ⟨h, rfl, rfl, rfl⟩

theorem releaseRejectedClaim_stale {certainty : DeliveryState}
    (h : ∀ r ∈ db.prompts, ¬ClaimedBy sessionId id token r) :
    db.releaseRejectedClaim sessionId id token certainty = db := by
  unfold releaseRejectedClaim updatePrompts
  rw [update_eq_self h]

/-- the changes of a reconciled row: handled and accepted, or pending again when the resolution is
`retry`. -/
def Reconciles (id resolution : String) (r r' : QueuedPrompt) : Prop :=
  SamePhase r r' ∧ r.id ≠ id ∨ r.id = id ∧ r'.claimToken = none ∧
    (resolution ≠ "retry" ∧ r'.state = .handled ∨
      resolution = "retry" ∧ r'.state = .pending ∧ r'.deliveryState = some .unsent)

theorem reconcileClaim_follows (db : PromptQueueStore) (sessionId id token : String) (now : ℕ)
    (revision resolution actor reason : String) :
    ((∃ e, (db.reconcileClaim sessionId id revision token resolution actor reason now).1 =
        .error e) ∧
      (db.reconcileClaim sessionId id revision token resolution actor reason now).2 = db) ∨
    (∃ r, (db.reconcileClaim sessionId id revision token resolution actor reason now).1 = .ok r) ∧
      (∃ r ∈ db.prompts, r.id = id ∧ r.claimToken = some token) ∧ Follows (Reconciles id resolution) db
        (db.reconcileClaim sessionId id revision token resolution actor reason now).2 := by
  unfold reconcileClaim
  split
  · exact Or.inl ⟨⟨_, rfl⟩, rfl⟩
  rename_i hres
  split
  · exact Or.inl ⟨⟨_, rfl⟩, rfl⟩
  rename_i prompt hfind
  obtain ⟨hmem, -, hid⟩ := mem_of_find hfind
  split
  · exact Or.inl ⟨⟨_, rfl⟩, rfl⟩
  rename_i hclaim
  have htok : prompt.claimToken = some token :=
    not_not.mp fun hn => hclaim (Or.inr (Or.inr hn))
  dsimp only
  split
  · refine Or.inr ⟨⟨_, rfl⟩, ⟨prompt, hmem, hid, htok⟩, ?_⟩
    have hretry : resolution = "accepted" ∨ resolution = "retry" := by
      simpa using not_not.mp (not_or.mp hres).1
    refine Follows.reorder (M := Reconciles id resolution) (Follows.congr
      (Follows.updatePrompts ?_ (fun _ => rfl) ?_) rfl) fun h₁ h₂ => ?_
    · exact fun r hne => Or.inl ⟨SamePhase.refl r, hne⟩
    · refine fun r hid => Or.inr ⟨hid, rfl, ?_⟩
      rcases hretry with rfl | rfl
      · exact Or.inl ⟨by decide, rfl⟩
      · exact Or.inr ⟨rfl, rfl, rfl⟩
    · rcases h₁ with ⟨h₁, hne⟩ | ⟨hid, htok, ⟨hr, hs⟩ | ⟨hr, hs, hd⟩⟩
      · exact Or.inl ⟨h₁.trans h₂, hne⟩
      · exact Or.inr ⟨hid, h₂.2.2.trans htok, Or.inl ⟨hr, h₂.1.trans hs⟩⟩
      · exact Or.inr ⟨hid, h₂.2.2.trans htok, Or.inr ⟨hr, h₂.1.trans hs, h₂.2.1.trans hd⟩⟩
  · exact Or.inl ⟨⟨_, rfl⟩, rfl⟩

/-! ### enqueueing, editing and retiring prompts -/

/-- a prompt that was just enqueued under `id`. -/
def Fresh (id : String) (r : QueuedPrompt) : Prop :=
  r.id = id ∧ r.state = .pending ∧ r.deliveryState = none ∧ r.claimToken = none

theorem addPrompt_follows (db : PromptQueueStore) (sessionId id : String) (now : ℕ)
    (input : QueuedPromptInput) :
    Follows SamePhase db (db.addPrompt sessionId input id now).2 ∨
    ∃ db₁ row, Follows SamePhase db db₁ ∧ Fresh id row ∧
      (db.addPrompt sessionId input id now).2.prompts = db₁.prompts ++ [row] := by
  unfold addPrompt
  dsimp only
  split
  · exact Or.inl pruneHistory_follows
  split
  · exact Or.inl pruneHistory_follows
  split
  · exact Or.inr ⟨_, _, pruneHistory_follows, ⟨rfl, rfl, rfl, rfl⟩, rfl⟩
  · exact Or.inl pruneHistory_follows

theorem updatePromptContent_follows {promptId content : String} :
    Follows SamePhase db (db.updatePromptContent sessionId promptId content).2 := by
  unfold updatePromptContent
  dsimp only
  split
  · exact Follows.refl SamePhase.refl db
  · exact Follows.updatePrompts (fun r _ => SamePhase.refl r) (fun _ => rfl)
      fun _ _ => ⟨rfl, rfl, rfl⟩

theorem deletePromptById_follows {promptId : String} :
    Follows SamePhase db (db.deletePromptById sessionId promptId now).2 := by
  unfold deletePromptById
  dsimp only
  split
  · exact (Follows.deletePrompts SamePhase.refl).reorder SamePhase.trans
  · exact Follows.refl SamePhase.refl db

theorem removeNextPrompt_follows : Follows SamePhase db (db.removeNextPrompt sessionId now).2 := by
  unfold removeNextPrompt
  split
  · exact Follows.refl SamePhase.refl db
  · split
    · exact deletePromptById_follows
    · exact Follows.refl SamePhase.refl db

theorem supersedeDedicatedPending_follows {bindingId : String} :
    Follows Ended db (db.supersedeDedicatedPending sessionId bindingId now).2 := by
  unfold supersedeDedicatedPending
  split
  · exact Follows.refl Ended.refl db
  split
  · exact Follows.refl Ended.refl db
  · exact Follows.congr (Follows.updatePrompts (fun r _ => Ended.refl r) (fun _ => rfl)
      fun _ _ => ⟨Or.inr (Or.inr (Or.inr rfl)), rfl, rfl⟩) rfl

theorem retireForFreshHumanTrigger_follows {triggerId : String}
    {snapshot : Option (List (String × ℕ))} :
    Follows Ended db (db.retireForFreshHumanTrigger sessionId triggerId snapshot now) := by
  unfold retireForFreshHumanTrigger
  refine Follows.reorder ?_ Ended.samePhase
  unfold retireSessionWork
  split
  · exact Follows.refl Ended.refl db
  · exact Follows.congr (Follows.updatePrompts (fun r _ => Ended.refl r) (fun _ => rfl)
      fun _ _ => ⟨Or.inr (Or.inr (Or.inr rfl)), rfl, rfl⟩) rfl

theorem rebindSession_follows {source target : String} :
    Follows SamePhase db (db.rebindSession source target).2 := by
  unfold rebindSession
  split
  · exact Follows.refl SamePhase.refl db
  dsimp only
  split
  · exact Follows.updatePrompts (fun r _ => SamePhase.refl r) (fun _ => rfl)
      fun _ _ => ⟨rfl, rfl, rfl⟩
  · exact Follows.refl SamePhase.refl db

theorem deletePromptsByType_follows {type : String} :
    Follows SamePhase db (db.deletePromptsByType type now).2 := by
  unfold deletePromptsByType
  dsimp only
  split
  · exact Follows.refl SamePhase.refl db
  · -- the sessions are numbered again one after the other
    have fold : ∀ (sessions : List String) (db : PromptQueueStore), Follows SamePhase db
        (sessions.foldl (fun db sessionId => db.reorderQueue sessionId now) db) := by
      intro sessions
      induction sessions with
      | nil => exact Follows.refl SamePhase.refl
      | cons sessionId sessions ih => exact fun db => reorderQueue_follows.trans (ih _)
    exact (Follows.deletePrompts SamePhase.refl).trans (fold _ _)

theorem acknowledgePrompt_follows {revision actor reason : String} :
    Follows Ended db (db.acknowledgePrompt sessionId id revision actor reason now).2 := by
  have hprune : Follows Ended db (db.pruneHistory sessionId now) :=
    pruneHistory_follows.mono fun _ _ => SamePhase.ended
  unfold acknowledgePrompt
  dsimp only
  split
  · exact hprune
  split
  · exact hprune
  split
  · exact hprune
  split
  · exact hprune
  split
  · exact hprune
  split
  · refine Follows.reorder ?_ Ended.samePhase
    have h : Follows SamePhase db (db.pruneHistory sessionId now) := pruneHistory_follows
    refine Follows.after h (Follows.updatePrompts (fun r _ => Ended.refl r) (fun _ => rfl) ?_)
    exact fun _ _ => ⟨Or.inr (Or.inl rfl), rfl, rfl⟩
  · exact hprune

end Methods

end PromptQueue
end WmAutopilot
