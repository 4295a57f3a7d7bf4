import WmAutopilot.Async.Triple
import WmAutopilot.Server.PromptDispatch
import WmAutopilot.Storage.PromptQueueRows

/-!
# Queued prompts are handed over at most once for each mark

* `Sending id log`   the latest of what happened to a row is a mark, a hand-over or an acceptance;
* `Lawful log`       every hand-over follows the mark of its row at once, and no row is marked while
                     it is being sent;
* `Inv`              the invariant: a row that is being sent is claimed with an uncertain or accepted
                     delivery, or has ended;
* `may`              what a dispatcher has to know before a method or a hand-over;
* `Evolves`          what every operation does to tokens and claims, and the assertions that hence
                     survive the operations of the others (`Owns`, `Releasable`);
* `dispatch_keeps`   the programs ask for permitted operations only, so the discipline is kept.
-/

set_option autoImplicit false
set_option linter.unusedVariables false

namespace WmAutopilot
namespace PromptQueue
open Js Sql Async PromptQueueStore

/-! ## the history -/

/-- the row was marked, and not released or reconciled with `retry` since; latest event first. -/
def Sending (id : String) : List Event → Prop
  | [] => False
  | .marked i _ :: l | .handed i :: l | .accepted i :: l => i = id ∨ Sending id l
  | .rejected i :: l | .retried i :: l => i ≠ id ∧ Sending id l

/-- every hand-over follows the mark of its row, and no row is marked while it is being sent. -/
def Lawful : List Event → Prop
  | [] => True
  | .handed i :: l => (∃ t l', l = .marked i t :: l') ∧ Lawful l
  | .marked i _ :: l => ¬Sending i l ∧ Lawful l
  | .accepted _ :: l | .rejected _ :: l | .retried _ :: l => Lawful l

/-- the row was released after a definite rejection, or reconciled with `retry`. -/
def Released (id : String) (l : List Event) : Prop := .rejected id ∈ l ∨ .retried id ∈ l

theorem Lawful.tail {e : Event} {l : List Event} (h : Lawful (e :: l)) : Lawful l := by
  cases e <;> first | exact h.2 | exact h

theorem Lawful.drop {l' l : List Event} (h : Lawful (l' ++ l)) : Lawful l := by
  induction l' with
  | nil => exact h
  | cons e l' ih => exact ih h.tail

/-- what is being sent stays so until it is released. -/
theorem Sending.append {id : String} {l' l : List Event} (h : Sending id l)
    (hr : ¬Released id l') : Sending id (l' ++ l) := by
  induction l' with
  | nil => exact h
  | cons e l' ih =>
    have hl : Sending id (l' ++ l) := ih fun hr' =>
      hr (hr'.imp (List.mem_cons_of_mem _) (List.mem_cons_of_mem _))
    cases e with
    | marked i t => exact Or.inr hl
    | handed i => exact Or.inr hl
    | accepted i => exact Or.inr hl
    | rejected i => exact ⟨fun e => hr (Or.inl (e ▸ List.mem_cons_self)), hl⟩
    | retried i => exact ⟨fun e => hr (Or.inr (e ▸ List.mem_cons_self)), hl⟩

/-- **A hand-over of a row that was being sent is the one its mark announced, or the row was released
in between.** -/
theorem Lawful.handed {id : String} {mid l : List Event} (h : Lawful (.handed id :: (mid ++ l)))
    (hs : Sending id l) : Released id mid ∨ mid = [] ∧ ∃ t l', l = .marked id t :: l' := by
  obtain ⟨⟨t, l', e⟩, hl⟩ := h
  cases mid with
  | nil => exact Or.inr ⟨rfl, t, l', e⟩
  | cons e₀ mid =>
    obtain ⟨rfl, rfl⟩ := List.cons.inj e
    refine Or.inl ?_
    by_contra hr
    refine hl.1 (hs.append fun hr' => hr ?_)
    exact hr'.imp (List.mem_cons_of_mem _) (List.mem_cons_of_mem _)

/-! ## the invariant -/

/-- the delivery is uncertain or accepted. -/
def MarkedSent (r : QueuedPrompt) : Prop :=
  r.deliveryState = some .uncertain ∨ r.deliveryState = some .accepted

/-- thread `κ` claimed with `token`. -/
def Owns (κ : ℕ) (token : String) (w : World) : Prop := (token, κ) ∈ w.tokens

/-- under `token` the row was not marked as being sent. -/
def Releasable (id token : String) (w : World) : Prop :=
  ∀ r ∈ w.queue.prompts, r.id = id → r.claimToken = some token → r.deliveryState = some .unsent

/-- The invariant.  See the file header. -/
structure Inv (w : World) : Prop where
  unique : PrimaryKey (fun r : QueuedPrompt => r.id) w.queue.prompts
  known : ∀ r ∈ w.queue.prompts, r.id ∈ w.uuids
  claims : ∀ r ∈ w.queue.prompts, ∀ t, r.claimToken = some t → t ∈ w.uuids
  drawn : ∀ t ∈ w.tokens, t.1 ∈ w.uuids
  tokens : PrimaryKey Prod.fst w.tokens
  logged : ∀ id, Sending id w.log → id ∈ w.uuids
  sending : ∀ r ∈ w.queue.prompts, Sending r.id w.log →
    r.state = .claimed ∧ MarkedSent r ∨ r.state.Terminal
  sent : ∀ r ∈ w.queue.prompts, MarkedSent r → Sending r.id w.log
  lawful : Lawful w.log

/-- what has to be known before an operation. -/
def may (κ : ℕ) : QueueOp → World → Prop
  | .markClaimSending _ _ token, w | .recordClaimAcceptance _ _ token, w
  | .completeClaim _ _ token, w => Owns κ token w
  | .releaseRejectedClaim _ id token certainty, w =>
    certainty = .rejected ∨ certainty = .unsent ∧ Releasable id token w
  | .submitAdapterPrompt id _, w | .postMessage id _, w => ∃ t l, w.log = .marked id t :: l
  | _, _ => True

/-- What an operation of thread `κ` does to tokens and claims: only the owner of a claim changes the
delivery state under it, and new claims are under fresh tokens. -/
structure Evolves (κ : ℕ) (w w' : World) : Prop where
  tokens : w.tokens ⊆ w'.tokens
  uuids : w.uuids ⊆ w'.uuids
  log : ∃ l, w'.log = l ++ w.log
  rows : ∀ r' ∈ w'.queue.prompts, ∀ t, r'.claimToken = some t → t ∉ w.uuids ∨
    ∃ r ∈ w.queue.prompts, r.id = r'.id ∧ r.claimToken = some t ∧
      (r'.deliveryState = r.deliveryState ∨ Owns κ t w)

/-- the invariant holds afterwards, and the operation did what operations of `κ` do. -/
def Goes (κ : ℕ) (w w' : World) : Prop := Inv w' ∧ Evolves κ w w'

/-! ## one operation -/

section Operation
variable {κ : ℕ} {w w' : World}

theorem Goes.refl (h : Inv w) : Goes κ w w :=
  ⟨h, fun _ h => h, fun _ h => h, ⟨[], rfl⟩, fun r hr t ht => Or.inr ⟨r, hr, rfl, ht, Or.inl rfl⟩⟩

theorem Goes.same (h : Inv w) (e : w' = w) : Goes κ w w' := by
  subst e
  exact Goes.refl h

/-- the history of `w'` extends that of `w`, and is lawful. -/
structure Extends (w w' : World) : Prop where
  uuids : w.uuids ⊆ w'.uuids
  tokens : w.tokens ⊆ w'.tokens
  drawn : ∀ t ∈ w'.tokens, t.1 ∈ w'.uuids
  keys : PrimaryKey Prod.fst w'.tokens
  log : ∃ l, w'.log = l ++ w.log
  logged : ∀ id, Sending id w'.log → id ∈ w'.uuids
  lawful : Lawful w'.log

/-- nothing is logged. -/
theorem Inv.extends (h : Inv w) {db : PromptQueueStore} : Extends w { w with queue := db } :=
  ⟨fun _ h => h, fun _ h => h, h.drawn, h.tokens, ⟨[], rfl⟩, h.logged, h.lawful⟩

/-- one event is logged. -/
theorem Inv.log (h : Inv w) {db : PromptQueueStore} {e : Event} (hlaw : Lawful (e :: w.log))
    (hlog : ∀ id, Sending id (e :: w.log) → id ∈ w.uuids) :
    Extends w { w with queue := db, log := e :: w.log } :=
  ⟨fun _ h => h, fun _ h => h, h.drawn, h.tokens, ⟨[e], rfl⟩, hlog, hlaw⟩

/-- **Rows changed as `M` says**: what has to be checked of each row. -/
theorem Goes.follows {M : QueuedPrompt → QueuedPrompt → Prop} (h : Inv w) (hx : Extends w w')
    (hf : Follows M w.queue w'.queue)
    (hrow : ∀ r ∈ w.queue.prompts, ∀ r', r'.id = r.id → M r r' →
      (Sending r.id w'.log → r'.state = .claimed ∧ MarkedSent r' ∨ r'.state.Terminal) ∧
      (MarkedSent r' → Sending r.id w'.log) ∧
      ∀ t, r'.claimToken = some t → t ∉ w.uuids ∧ t ∈ w'.uuids ∨
        r.claimToken = some t ∧ (r'.deliveryState = r.deliveryState ∨ Owns κ t w)) :
    Goes κ w w' := by
  refine ⟨⟨?_, ?_, ?_, hx.drawn, hx.keys, hx.logged, ?_, ?_, hx.lawful⟩, hx.tokens, hx.uuids,
    hx.log, ?_⟩
  · exact h.unique.sublist hf.ids
  all_goals
    intro r' hr'
    obtain ⟨r, hr, hid, hm⟩ := hf.rows r' hr'
    obtain ⟨hsending, hsent, hclaim⟩ := hrow r hr r' hid hm
  · exact hid ▸ hx.uuids (h.known r hr)
  · intro t ht
    rcases hclaim t ht with ⟨-, hn⟩ | ⟨ht₀, -⟩
    · exact hn
    · exact hx.uuids (h.claims r hr t ht₀)
  · exact fun hs => hsending (hid ▸ hs)
  · exact fun hs => hid ▸ hsent hs
  · intro t ht
    rcases hclaim t ht with ⟨hn, -⟩ | ⟨ht₀, hd⟩
    · exact Or.inl hn
    · exact Or.inr ⟨r, hr, hid.symm, ht₀, hd⟩

/-- what may become of a row without a trace in the history. -/
theorem Inv.ended (h : Inv w) {r r' : QueuedPrompt} (hr : r ∈ w.queue.prompts) (hm : Ended r r') :
    (Sending r.id w.log → r'.state = .claimed ∧ MarkedSent r' ∨ r'.state.Terminal) ∧
      (MarkedSent r' → Sending r.id w.log) ∧
      ∀ t, r'.claimToken = some t → t ∉ w.uuids ∧ t ∈ w.uuids ∨
        r.claimToken = some t ∧ (r'.deliveryState = r.deliveryState ∨ Owns κ t w) := by
  obtain ⟨hst, hd, ht⟩ := hm
  have hms : MarkedSent r' ↔ MarkedSent r := by rw [MarkedSent, hd, MarkedSent]
  refine ⟨fun hs => ?_, fun hs => h.sent r hr (hms.mp hs), fun t e => Or.inr ⟨ht ▸ e, Or.inl hd⟩⟩
  rcases hst with hst | hst
  · rw [hst, hms]
    exact h.sending r hr hs
  · exact Or.inr hst

theorem Goes.ended (h : Inv w) {db : PromptQueueStore} (hf : Follows Ended w.queue db) :
    Goes κ w { w with queue := db } :=
  Goes.follows h h.extends hf fun r hr r' _ hm => h.ended hr hm

theorem Goes.samePhase (h : Inv w) {db : PromptQueueStore} (hf : Follows SamePhase w.queue db) :
    Goes κ w { w with queue := db } := Goes.ended h (hf.mono fun _ _ => SamePhase.ended)

/-! ### enqueueing -/

/-- a fresh UUID. -/
theorem Inv.draw (h : Inv w) {id : String} : Inv { w with uuids := id :: w.uuids } :=
  { h with
    known := fun r hr => List.mem_cons_of_mem _ (h.known r hr)
    claims := fun r hr t ht => List.mem_cons_of_mem _ (h.claims r hr t ht)
    drawn := fun t ht => List.mem_cons_of_mem _ (h.drawn t ht)
    logged := fun i hi => List.mem_cons_of_mem _ (h.logged i hi) }

theorem Goes.draw {id : String} (h : Goes κ { w with uuids := id :: w.uuids } w') : Goes κ w w' :=
  ⟨h.1, h.2.tokens, fun _ hx => h.2.uuids (List.mem_cons_of_mem _ hx), h.2.log, fun r hr t ht =>
    (h.2.rows r hr t ht).imp_left fun hn hx => hn (List.mem_cons_of_mem _ hx)⟩

/-- **A new row** has an id that was never logged. -/
theorem Goes.append (h : Inv w) {id : String} (hid : id ∉ w.uuids) {db₁ db : PromptQueueStore}
    {row : QueuedPrompt} (hf : Follows SamePhase w.queue db₁) (hrow : Fresh id row)
    (hdb : db.prompts = db₁.prompts ++ [row]) :
    Goes κ w { w with uuids := id :: w.uuids, queue := db } := by
  obtain ⟨hi, hev⟩ : Goes κ w { w with uuids := id :: w.uuids, queue := db₁ } :=
    Goes.draw (Goes.samePhase h.draw hf)
  obtain ⟨rfl, hst, hdel, htok⟩ := hrow
  have hmem : ∀ r, r ∈ db.prompts ↔ r ∈ db₁.prompts ∨ r = row := by simp [hdb]
  have hfresh : ∀ r ∈ db₁.prompts, r.id ≠ row.id := fun r hr e => by
    obtain ⟨r₀, hr₀, e₀, -⟩ := hf.rows r hr
    exact hid (e ▸ e₀ ▸ h.known r₀ hr₀)
  have hns : ¬MarkedSent row := by simp [MarkedSent, hdel]
  refine ⟨{ hi with unique := ?_, known := ?_, claims := ?_, sending := ?_, sent := ?_ },
    { hev with rows := ?_ }⟩
  · show PrimaryKey _ db.prompts
    rw [hdb]
    exact hi.unique.append hfresh
  all_goals
    intro r hr
    rcases (hmem r).mp hr with hr | rfl
  · exact hi.known r hr
  · exact List.mem_cons_self
  · exact hi.claims r hr
  · exact fun t ht => by rw [htok] at ht; cases ht
  · exact hi.sending r hr
  · exact fun hs => absurd (h.logged _ hs) hid
  · exact hi.sent r hr
  · exact fun hs => absurd hs hns
  · exact hev.rows r hr
  · exact fun t ht => by rw [htok] at ht; cases ht

theorem Goes.call (h : Inv w) {id : String} (hid : id ∉ w.uuids) (c : StoreCall) (now : ℕ) :
    Goes κ w { w with uuids := id :: w.uuids, queue := c.run w.queue id now } := by
  have same : ∀ {db}, Follows SamePhase w.queue db →
      Goes κ w { w with uuids := id :: w.uuids, queue := db } := fun hf =>
    Goes.draw (Goes.samePhase h.draw hf)
  have ended : ∀ {db}, Follows Ended w.queue db →
      Goes κ w { w with uuids := id :: w.uuids, queue := db } := fun hf =>
    Goes.draw (Goes.ended h.draw hf)
  cases c with
  | addPrompt sessionId input =>
    rcases addPrompt_follows w.queue sessionId id now input with hf | ⟨db₁, row, hf, hrow, hdb⟩
    · exact same hf
    · exact Goes.append h hid hf hrow hdb
  | updatePromptContent sessionId promptId content => exact same updatePromptContent_follows
  | deletePromptById sessionId promptId => exact same deletePromptById_follows
  | removeNextPrompt sessionId => exact same removeNextPrompt_follows
  | clearSessionQueue sessionId => exact same (Follows.deletePrompts SamePhase.refl)
  | supersedeDedicatedPending sessionId bindingId => exact ended supersedeDedicatedPending_follows
  | captureFreshHumanCutoff sessionId => exact same getSessionQueue_follows
  | retireForFreshHumanTrigger sessionId triggerId snapshot =>
    exact ended retireForFreshHumanTrigger_follows
  | rebindSession source target => exact same rebindSession_follows
  | deletePromptsByType type => exact same deletePromptsByType_follows
  | acknowledgePrompt sessionId id revision actor reason => exact ended acknowledgePrompt_follows
  | pruneHistory sessionId => exact same pruneHistory_follows

/-! ### claims -/

/-- **A claim** is of a pending row, which is not being sent, under a fresh token. -/
theorem Goes.claim (h : Inv w) {sessionId token : String} (hf : token ∉ w.uuids) (now : ℕ) :
    Goes κ w { w with queue := (w.queue.claimNextPrompt sessionId token now).2
                      uuids := token :: w.uuids
                      tokens := (token, κ) :: w.tokens } := by
  refine Goes.follows h ⟨List.subset_cons_self _ _, List.subset_cons_self _ _, ?_, ?_, ⟨[], rfl⟩,
    fun id hs => List.mem_cons_of_mem _ (h.logged id hs), h.lawful⟩ claimNextPrompt_follows ?_
  · intro t ht
    rcases List.mem_cons.mp ht with rfl | ht
    · exact List.mem_cons_self
    · exact List.mem_cons_of_mem _ (h.drawn t ht)
  · show (token :: w.tokens.map Prod.fst).Nodup
    refine List.nodup_cons.mpr ⟨fun hm => ?_, h.tokens⟩
    obtain ⟨t, ht, e⟩ := List.mem_map.mp hm
    exact hf (e ▸ h.drawn t ht)
  · rintro r hr r' - (hm | ⟨hst, hst', hd, ht⟩)
    · obtain ⟨h₁, h₂, h₃⟩ := h.ended (κ := κ) hr hm.ended
      exact ⟨h₁, h₂, fun t e => Or.inr ((h₃ t e).resolve_left fun hn => hn.1 hn.2)⟩
    · refine ⟨fun hs => ?_, fun hs => by simp [MarkedSent, hd] at hs, fun t e => ?_⟩
      · rcases h.sending r hr hs with ⟨hc, -⟩ | hc <;> rw [hst] at hc
        · cases hc
        · rcases hc with hc | hc | hc <;> cases hc
      · obtain rfl : token = t := Option.some.inj (ht.symm.trans e)
        exact Or.inl ⟨hf, List.mem_cons_self⟩

/-- **A method under a claim** that leaves the row marked or ended. -/
theorem Goes.underClaim (h : Inv w) {sessionId id token : String} {p : QueuedPrompt → Prop}
    {state : PromptState} {delivery : DeliveryState}
    {x : Except QueueError Unit × PromptQueueStore} {e : Event} {r : Except Thrown Unit}
    (hx : UnderClaim w.queue p state delivery x) (hp : ∀ r, p r → ClaimedBy sessionId id token r)
    (hstate : state = .claimed ∨ state.Terminal)
    (hdel : delivery = .uncertain ∨ delivery = .accepted) (hown : Owns κ token w)
    (he : ∀ i, Sending i (e :: w.log) ↔ id = i ∨ Sending i w.log)
    (hlaw : (∃ r ∈ w.queue.prompts, p r) → Lawful (e :: w.log)) (ho : w.Claim x e r w') :
    Goes κ w w' := by
  obtain ⟨-, rfl⟩ := ho
  rcases hx with ⟨⟨err, herr⟩, hdb, -⟩ | ⟨hok, ⟨r₀, hr₀, hp₀⟩, hf⟩
  · exact Goes.same h (by simp only [herr, hdb])
  have hid₀ : r₀.id = id := (hp r₀ hp₀).2.1
  simp only [hok]
  refine Goes.follows h (h.log (hlaw ⟨r₀, hr₀, hp₀⟩) fun i hi => ?_) hf ?_
  · rcases (he i).mp hi with rfl | hi
    · exact hid₀ ▸ h.known r₀ hr₀
    · exact h.logged i hi
  · rintro r hr r' - (⟨hm, hn⟩ | ⟨hpr, hst, hd, ht⟩)
    · obtain ⟨h₁, h₂, h₃⟩ := h.ended (κ := κ) hr hm.ended
      refine ⟨fun hs => h₁ (((he r.id).mp hs).resolve_left fun e => hn ?_),
        fun hs => (he r.id).mpr (Or.inr (h₂ hs)), h₃⟩
      exact h.unique.eq hr hr₀ (e.symm.trans hid₀.symm) ▸ hp₀
    · have hc := hp r hpr
      have hs : MarkedSent r' := by
        rcases hdel with rfl | rfl
        · exact Or.inl hd
        · exact Or.inr hd
      refine ⟨fun _ => ?_, fun _ => (he r.id).mpr (Or.inl hc.2.1.symm), fun t e => Or.inr ?_⟩
      · rw [hst]
        exact hstate.imp_left fun e => ⟨e, hs⟩
      · obtain rfl : token = t := Option.some.inj (hc.2.2.1.symm.trans (ht.symm.trans e))
        exact ⟨hc.2.2.1, Or.inr hown⟩

/-- what is marked was not being sent. -/
theorem Inv.unsent (h : Inv w) {r : QueuedPrompt} (hr : r ∈ w.queue.prompts)
    (hc : r.state = .claimed) (hd : r.deliveryState = some .unsent) : ¬Sending r.id w.log := by
  intro hs
  rcases h.sending r hr hs with ⟨-, hm | hm⟩ | ht
  · rw [hd] at hm; cases hm
  · rw [hd] at hm; cases hm
  · rw [hc] at ht
    rcases ht with ht | ht | ht <;> cases ht

/-- **A release**: after a rejection it is logged, and otherwise the row was not being sent. -/
theorem Goes.release (h : Inv w) {sessionId id token : String} {certainty : DeliveryState}
    (hm : certainty = .rejected ∨ certainty = .unsent ∧ Releasable id token w)
    (hw : w' = { w with
      queue := w.queue.releaseRejectedClaim sessionId id token certainty
      log := if certainty = .rejected ∧ changes (ClaimedBy sessionId id token) w.queue.prompts ≠ 0
        then .rejected id :: w.log else w.log }) : Goes κ w w' := by
  obtain rfl := hw
  by_cases hc : ∃ r ∈ w.queue.prompts, ClaimedBy sessionId id token r
  swap
  · have hn : ∀ r ∈ w.queue.prompts, ¬ClaimedBy sessionId id token r := fun r hr hp => hc ⟨r, hr, hp⟩
    exact Goes.same h (by rw [releaseRejectedClaim_stale hn, if_neg fun hx => hx.2 (changes_eq_zero.mpr hn)])
  have hch : changes (ClaimedBy sessionId id token) w.queue.prompts ≠ 0 :=
    (changes_pos.mpr hc).ne'
  obtain ⟨r₀, hr₀, hp₀⟩ := hc
  rcases hm with rfl | ⟨rfl, hrel⟩
  · rw [if_pos ⟨rfl, hch⟩]
    refine Goes.follows h (h.log h.lawful fun i hi => h.logged i hi.2)
      (releaseRejectedClaim_follows _) ?_
    rintro r hr r' - (⟨hm, hn⟩ | ⟨hp, hst, hd, ht⟩)
    · obtain ⟨h₁, h₂, h₃⟩ := h.ended (κ := κ) hr hm.ended
      refine ⟨fun hs => h₁ hs.2, fun hs => ⟨fun e => hn ?_, h₂ hs⟩, h₃⟩
      exact h.unique.eq hr hr₀ (e.symm.trans hp₀.2.1.symm) ▸ hp₀
    · refine ⟨fun hs => absurd hp.2.1.symm hs.1, fun hs => ?_, fun t e => ?_⟩
      · simp [MarkedSent, hd] at hs
      · rw [ht] at e
        cases e
  · rw [if_neg fun hx => by cases hx.1]
    refine Goes.follows h h.extends (releaseRejectedClaim_follows _) ?_
    rintro r hr r' - (⟨hm, hn⟩ | ⟨hp, hst, hd, ht⟩)
    · exact h.ended hr hm.ended
    · refine ⟨fun hs => ?_, fun hs => ?_, fun t e => ?_⟩
      · exact absurd hs (h.unsent hr hp.2.2.2 (hrel r hr hp.2.1 hp.2.2.1))
      · simp [MarkedSent, hd] at hs
      · rw [ht] at e
        cases e

/-- **A reconciled row** is handled, or pending again with `retry` in the history. -/
theorem Goes.reconcile (h : Inv w) {sessionId id revision token resolution actor reason : String}
    {now : ℕ} {r : Except Thrown QueuedPrompt}
    (ho : let x := w.queue.reconcileClaim sessionId id revision token resolution actor reason now
      r = x.1.mapError .queue ∧ w' = { w with
        queue := x.2
        log := match x.1 with
          | .ok _ => (if resolution = "retry" then .retried id else .accepted id) :: w.log
          | .error _ => w.log }) : Goes κ w w' := by
  obtain ⟨-, rfl⟩ := ho
  rcases reconcileClaim_follows w.queue sessionId id token now revision resolution actor reason
    with ⟨⟨err, herr⟩, hdb⟩ | ⟨⟨r, hok⟩, ⟨r₀, hr₀, hid₀, -⟩, hf⟩
  · exact Goes.same h (by simp only [herr, hdb])
  simp only [hok]
  by_cases hretry : resolution = "retry"
  · rw [if_pos hretry]
    refine Goes.follows h (h.log h.lawful fun i hi => h.logged i hi.2) hf ?_
    rintro r hr r' - (⟨hm, hne⟩ | ⟨hid, ht, ⟨hn, -⟩ | ⟨-, hst, hd⟩⟩)
    · obtain ⟨h₁, h₂, h₃⟩ := h.ended (κ := κ) hr hm.ended
      exact ⟨fun hs => h₁ hs.2, fun hs => ⟨fun e => hne e.symm, h₂ hs⟩, h₃⟩
    · exact absurd hretry hn
    · refine ⟨fun hs => absurd hid.symm hs.1, fun hs => ?_, fun t e => ?_⟩
      · simp [MarkedSent, hd] at hs
      · rw [ht] at e
        cases e
  · rw [if_neg hretry]
    refine Goes.follows h (h.log h.lawful fun i hi => ?_) hf ?_
    · rcases hi with rfl | hi
      · exact hid₀ ▸ h.known r₀ hr₀
      · exact h.logged i hi
    · rintro r hr r' - (⟨hm, hne⟩ | ⟨hid, ht, ⟨-, hst⟩ | ⟨hr', -⟩⟩)
      · obtain ⟨h₁, h₂, h₃⟩ := h.ended (κ := κ) hr hm.ended
        exact ⟨fun hs => h₁ (hs.resolve_left fun e => hne e.symm), fun hs => Or.inr (h₂ hs), h₃⟩
      · refine ⟨fun _ => Or.inr (Or.inl hst), fun _ => Or.inl hid.symm, fun t e => ?_⟩
        rw [ht] at e
        cases e
      · exact absurd hr' hretry

/-- **A hand-over** right after the mark. -/
theorem Goes.hand (h : Inv w) {id : String} (hm : ∃ t l, w.log = .marked id t :: l) :
    Goes κ w { w with log := .handed id :: w.log } := by
  have hs : Sending id w.log := by
    obtain ⟨t, l, e⟩ := hm
    rw [e]
    exact Or.inl rfl
  have hiff : ∀ i, Sending i (.handed id :: w.log) ↔ Sending i w.log := fun i =>
    ⟨fun hi => hi.elim (fun e => e ▸ hs) fun hi => hi, Or.inr⟩
  have hx : Extends w { w with queue := w.queue, log := .handed id :: w.log } :=
    h.log ⟨hm, h.lawful⟩ fun i hi => h.logged i ((hiff i).mp hi)
  refine Goes.follows h hx (Follows.refl SamePhase.refl w.queue) fun r hr r' _ hm => ?_
  show (Sending r.id (.handed id :: w.log) → _) ∧ (_ → Sending r.id (.handed id :: w.log)) ∧ _
  rw [hiff]
  exact h.ended hr hm.ended

/-- what only changes the memory of the process. -/
theorem Goes.memory (h : Inv w) {inFlight acceptances : List String} :
    Goes κ w { w with inFlight := inFlight, acceptances := acceptances } := by
  obtain ⟨hi, he⟩ : Goes κ w w := Goes.refl h
  exact ⟨⟨hi.unique, hi.known, hi.claims, hi.drawn, hi.tokens, hi.logged, hi.sending, hi.sent,
    hi.lawful⟩, he.tokens, he.uuids, he.log, he.rows⟩

/-- **A permitted operation keeps the invariant and does what operations of its thread do.** -/
theorem perform_goes {o : QueueOp} {r : o.Ans} (h : Inv w) (hm : may κ o w)
    (ho : perform κ o w r w') : Goes κ w w' := by
  cases o with
  | call c =>
    obtain ⟨id, now, hid, rfl⟩ := ho
    exact Goes.call h hid c now
  | claimNextPrompt sessionId =>
    obtain ⟨token, now, hf, -, rfl⟩ := ho
    exact Goes.claim h hf now
  | getSessionQueue sessionId =>
    obtain ⟨now, -, rfl⟩ := ho
    exact Goes.samePhase h getSessionQueue_follows
  | markClaimSending sessionId id token =>
    obtain ⟨now, ho⟩ := ho
    refine Goes.underClaim h markClaimSending_under (fun r hp => hp.1) (Or.inl rfl) (Or.inl rfl) hm
      (fun _ => Iff.rfl) ?_ ho
    rintro ⟨r, hr, hc, hd⟩
    exact ⟨hc.2.1 ▸ h.unsent hr hc.2.2.2 hd, h.lawful⟩
  | recordClaimAcceptance sessionId id token =>
    obtain ⟨now, ho⟩ := ho
    exact Goes.underClaim h (e := .accepted id) recordClaimAcceptance_under (fun _ hp => hp)
      (Or.inl rfl) (Or.inr rfl) hm (fun _ => Iff.rfl) (fun _ => h.lawful) ho
  | completeClaim sessionId id token =>
    obtain ⟨now, ho⟩ := ho
    exact Goes.underClaim h (e := .accepted id) completeClaim_under (fun _ hp => hp)
      (Or.inr (Or.inr (Or.inl rfl))) (Or.inr rfl) hm (fun _ => Iff.rfl) (fun _ => h.lawful) ho
  | releaseRejectedClaim sessionId id token certainty => exact Goes.release h hm ho
  | reconcileClaim sessionId id revision token resolution actor reason =>
    obtain ⟨now, ho⟩ := ho
    exact Goes.reconcile h ho
  | submitAdapterPrompt id content =>
    obtain rfl := ho
    exact Goes.hand h hm
  | postMessage id content =>
    obtain rfl := ho
    exact Goes.hand h hm
  | inFlightAdd sessionId =>
    obtain rfl := ho
    exact Goes.memory h
  | inFlightDelete sessionId =>
    obtain rfl := ho
    exact Goes.memory h
  | setAcceptanceObserved token =>
    obtain rfl := ho
    exact Goes.memory h
  | getNextQueuedPrompt sessionId => exact Goes.same h ho.2
  | getQueueCount sessionId => exact Goes.same h ho.2
  | inFlightHas sessionId => exact Goes.same h ho.2
  | acceptanceObserved token => exact Goes.same h ho.2
  | isDraining => exact Goes.same h ho
  | isUserApprovedForWork userNpub => exact Goes.same h ho
  | ensureSessionReady sessionId => exact Goes.same h ho
  | sessionPromptReadiness sessionId => exact Goes.same h ho
  | coolingDown sessionId => exact Goes.same h ho
  | assertPromptExecutionAllowed => exact Goes.same h ho
  | getAdapter sessionId => exact Goes.same h ho
  | adapterReadiness sessionId => exact Goes.same h ho
  | waitForReady sessionId => exact Goes.same h ho
  | buildAgentUrl sessionId => exact Goes.same h ho
  | waitForMessageUpdate sessionId => exact Goes.same h ho

end Operation

/-! ## what survives the operations of others -/

/-- the system with its invariant and permissions. -/
def delivery : Discipline api World := { system with Inv := Inv, may := may }

section Stable
variable {κ : ℕ} {id token : String}

theorem other_evolves {w w' : World} (h : Other delivery κ w w') :
    Inv w ∧ ∃ κ', κ' ≠ κ ∧ Evolves κ' w w' := by
  obtain ⟨κ', o, r, hne, hi, hm, ho⟩ := h
  exact ⟨hi, κ', hne, (perform_goes hi hm ho).2⟩

/-- two threads do not own one token. -/
theorem Inv.owner {w : World} (h : Inv w) {κ κ' : ℕ} (h₁ : Owns κ token w) (h₂ : Owns κ' token w) :
    κ = κ' := congrArg Prod.snd (h.tokens.eq h₁ h₂ rfl)

theorem stable_any : Stable delivery κ Any := Stable.const True

theorem stable_owns : Stable delivery κ (Owns κ token) := by
  intro w w' hown ho
  obtain ⟨-, κ', -, he⟩ := other_evolves ho
  exact he.tokens hown

/-- the claim is this thread's, and its row was not marked under it. -/
def Unsent (κ : ℕ) (id token : String) (w : World) : Prop := Owns κ token w ∧ Releasable id token w

/-- **Nobody else marks a row under this thread's claim.** -/
theorem stable_unsent : Stable delivery κ (Unsent κ id token) := by
  intro w w' ⟨hown, hrel⟩ ho
  obtain ⟨hi, κ', hne, he⟩ := other_evolves ho
  refine ⟨he.tokens hown, fun r' hr' hid ht => ?_⟩
  rcases he.rows r' hr' token ht with hn | ⟨r, hr, hid₀, ht₀, hd | hown'⟩
  · exact absurd (hi.drawn _ hown) hn
  · exact hd.trans (hrel r hr (hid₀.trans hid) ht₀)
  · exact absurd (hi.owner hown' hown) hne

end Stable

/-! ## the programs -/

section Programs
variable {κ : ℕ} {α : Type} {P : World → Prop} {E : Thrown → World → Prop}

/-- an operation of which nothing is known afterwards. -/
theorem any_op {o : QueueOp} (hmay : ∀ w, may κ o w) :
    Triple delivery κ Any (op o) Any₂ E :=
  Triple.op stable_any (fun w _ _ => hmay w) fun _ _ _ _ _ _ _ => trivial

theorem any_tryOp {o : QueueOp} {h : o.Ans = Except Thrown α} (hmay : ∀ w, may κ o w) :
    Triple delivery κ Any (tryOp o h) Any₂ Any₂ :=
  Triple.tryOp stable_any (fun w _ _ => hmay w) (fun _ _ _ _ _ _ _ _ _ => trivial)
    fun _ _ _ _ _ _ _ _ _ => trivial

/-- an operation that leaves the world. -/
theorem read_op {o : QueueOp} (hP : Stable delivery κ P) (hmay : ∀ w, may κ o w)
    (hread : ∀ w r w', perform κ o w r w' → w' = w) :
    Triple delivery κ P (op o) (fun _ => P) E :=
  Triple.op hP (fun w _ _ => hmay w) fun w r w' _ hp ho _ => hread w r w' ho ▸ hp

theorem read_tryOp {o : QueueOp} {h : o.Ans = Except Thrown α} (hP : Stable delivery κ P)
    (hmay : ∀ w, may κ o w) (hread : ∀ w r w', perform κ o w r w' → w' = w) :
    Triple delivery κ P (tryOp o h) (fun _ => P) fun _ => P :=
  Triple.tryOp hP (fun w _ _ => hmay w) (fun w r w' _ _ hp ho _ _ => hread w r w' ho ▸ hp)
    fun w r w' _ _ hp ho _ _ => hread w r w' ho ▸ hp

variable {c : ClaimedPrompt}

/-- what is known of the claim after an attempt: a result that says `unsent` is right. -/
abbrev Attempted (κ : ℕ) (c : ClaimedPrompt) (d : Delivery) (w : World) : Prop :=
  Owns κ c.token w ∧ (d.certainty = .unsent → Releasable c.prompt.id c.token w)

/-- the mark: when it succeeds the latest event is the mark, and otherwise nothing changed. -/
theorem onSending_ok : Triple delivery κ (Unsent κ c.prompt.id c.token) (onSending c)
    (fun _ w => Owns κ c.token w ∧ ∃ l, w.log = .marked c.prompt.id c.token :: l)
    fun _ => Unsent κ c.prompt.id c.token := by
  unfold onSending
  refine Triple.tryOp stable_unsent (fun w _ h => h.1) (fun w r w' a hi h ho _ hr => ?_)
    (fun w r w' e hi h ho _ hr => ?_)
  all_goals
    obtain ⟨now, e, rfl⟩ := ho
    have hsending : UnderClaim w.queue _ _ _
        (w.queue.markClaimSending c.sessionId c.prompt.id c.token now) := markClaimSending_under
    rcases hsending with ⟨⟨err, herr⟩, hdb, -⟩ | ⟨hok, -, -⟩
  · have : r = .ok () := hr
    rw [e, herr] at this
    cases this
  · simp only [hok]
    exact ⟨h.1, _, rfl⟩
  · simp only [herr, hdb]
    exact h
  · have : r = .error _ := hr
    rw [e, hok] at this
    cases this

/-- **A hand-over in the section of its mark.** -/
theorem hand_ok {o : QueueOp} {h : o.Ans = Except Thrown α} (hy : o.yields = false)
    (hmay : ∀ w, may κ o w ↔ ∃ t l, w.log = .marked c.prompt.id t :: l)
    (hdo : ∀ w r w', perform κ o w r w' → w'.tokens = w.tokens) :
    Triple delivery κ
      (fun w => Owns κ c.token w ∧ ∃ l, w.log = .marked c.prompt.id c.token :: l) (tryOp o h)
      (fun _ => Owns κ c.token) fun _ => Owns κ c.token := by
  have keep : ∀ {w r w'}, Owns κ c.token w → perform κ o w r w' → Owns κ c.token w' :=
    fun h ho => show _ ∈ _ from hdo _ _ _ ho ▸ h
  exact Triple.tryOpNow hy (fun w _ h => (hmay w).mpr ⟨c.token, h.2⟩)
    (fun _ _ _ _ _ h ho _ _ => keep h.1 ho) fun _ _ _ _ _ h ho _ _ => keep h.1 ho

theorem submitToAdapter_ok : Triple delivery κ
    (fun w => Owns κ c.token w ∧ ∃ l, w.log = .marked c.prompt.id c.token :: l)
    (submitToAdapter c) (Attempted κ c) E := by
  refine Triple.tryCatch (R := fun _ => Owns κ c.token) ?_ fun error => ?_
  · refine Triple.bind (hand_ok rfl (fun _ => Iff.rfl) fun w r w' ho => ?_) fun _ => ?_
    · obtain rfl := ho
      rfl
    · exact Triple.pure fun w _ h => ⟨h, fun hc => by cases hc⟩
  · refine Triple.pure fun w _ h => ⟨h, fun hc => ?_⟩
    unfold directFailure at hc
    split at hc <;> cases hc

theorem postToAgent_ok : Triple delivery κ
    (fun w => Owns κ c.token w ∧ ∃ l, w.log = .marked c.prompt.id c.token :: l)
    (postToAgent c) (Attempted κ c) E := by
  refine Triple.tryCatch (R := fun _ => Owns κ c.token) ?_ fun error => ?_
  · refine Triple.bind (hand_ok rfl (fun _ => Iff.rfl) fun w r w' ho => ?_) fun response => ?_
    · obtain rfl := ho
      rfl
    refine Triple.ite (fun _ => ?_) fun _ => ?_
    · exact Triple.pure fun w _ h => ⟨h, fun hc => by cases hc⟩
    · refine Triple.pure fun w _ h => ⟨h, fun hc => ?_⟩
      have hc : responseCertainty response = .unsent := hc
      unfold responseCertainty at hc
      split at hc <;> cases hc
  · exact Triple.pure fun w _ h => ⟨h, fun hc => by cases hc⟩

theorem deliverDirectly_ok : Triple delivery κ (Unsent κ c.prompt.id c.token) (deliverDirectly c)
    (Attempted κ c) E := by
  refine Triple.tryCatch (R := fun _ => Unsent κ c.prompt.id c.token) ?_ fun error => ?_
  · refine Triple.bind (read_tryOp stable_unsent (fun _ => trivial) fun _ _ _ ho => ho)
      fun readiness => ?_
    refine Triple.ite (fun _ => ?_) fun _ => ?_
    · exact Triple.pure fun w _ h => ⟨h.1, fun hc => by cases hc⟩
    refine Triple.bind (read_tryOp stable_unsent (fun _ => trivial) fun _ _ _ ho => ho) fun _ => ?_
    exact Triple.bind onSending_ok fun _ => submitToAdapter_ok
  · exact Triple.pure fun w _ h => ⟨h.1, fun _ => h.2⟩

theorem submitOnce_ok : Triple delivery κ (Unsent κ c.prompt.id c.token) (submitOnce c)
    (Attempted κ c) E := by
  refine Triple.tryCatch (R := fun _ => Unsent κ c.prompt.id c.token) ?_ fun error => ?_
  · refine Triple.bind (read_tryOp stable_unsent (fun _ => trivial) fun _ _ _ ho => ho) fun _ => ?_
    exact Triple.bind onSending_ok fun _ => postToAgent_ok
  · exact Triple.pure fun w _ h => ⟨h.1, fun _ => h.2⟩

theorem submitWhenReady_ok : Triple delivery κ (Unsent κ c.prompt.id c.token) (submitWhenReady c)
    (Attempted κ c) E := by
  refine Triple.bind (R := fun _ => Unsent κ c.prompt.id c.token)
    (Triple.tryCatch (R := fun _ => Unsent κ c.prompt.id c.token) ?_ fun error => ?_) fun waited => ?_
  · refine Triple.bind (read_tryOp stable_unsent (fun _ => trivial) fun _ _ _ ho => ho) fun _ => ?_
    exact Triple.pure fun w _ h => h
  · exact Triple.pure fun w _ h => h
  · cases waited with
    | none => exact submitOnce_ok
    | some message => exact Triple.pure fun w _ h => ⟨h.1, fun _ => h.2⟩

theorem deliverSessionAgentMessage_ok : Triple delivery κ (Unsent κ c.prompt.id c.token)
    (deliverSessionAgentMessage c) (Attempted κ c) E := by
  refine Triple.bind (read_op stable_unsent (fun _ => trivial) fun _ _ _ ho => ho) fun adapter => ?_
  cases adapter with
  | none => exact submitOnce_ok
  | some direct =>
    cases direct with
    | true => exact deliverDirectly_ok
    | false => exact submitWhenReady_ok

/-! ### the dispatch -/

variable {token : String}

/-- an operation that the owner of a claim may perform. -/
theorem owns_op {o : QueueOp} (hmay : ∀ w, Owns κ token w → may κ o w) :
    Triple delivery κ (Owns κ token) (op o) (fun _ => Owns κ token) E :=
  Triple.op stable_owns (fun w _ h => hmay w h) fun w r w' hi h ho _ =>
    (perform_goes hi (hmay w h) ho).2.tokens h

theorem owns_tryOp {o : QueueOp} {h : o.Ans = Except Thrown α}
    (hmay : ∀ w, Owns κ token w → may κ o w) :
    Triple delivery κ (Owns κ token) (tryOp o h) (fun _ => Owns κ token)
      fun _ => Owns κ token :=
  Triple.tryOp stable_owns (fun w _ h => hmay w h)
    (fun w r w' _ hi h ho _ _ => (perform_goes hi (hmay w h) ho).2.tokens h)
    fun w r w' _ hi h ho _ _ => (perform_goes hi (hmay w h) ho).2.tokens h

/-- **The claim is released** after a rejection, or when the row was not marked. -/
theorem onRejected_ok {certainty : DeliveryState} : Triple delivery κ
    (fun w => Owns κ c.token w ∧ (certainty = .unsent → Releasable c.prompt.id c.token w))
    (onRejected c certainty) (fun _ => Owns κ c.token) fun _ => Owns κ c.token := by
  have release : ∀ {P : World → Prop}, Stable delivery κ P →
      (∀ w, P w → Owns κ c.token w ∧
        may κ (.releaseRejectedClaim c.sessionId c.prompt.id c.token certainty) w) →
      Triple delivery κ P (op (.releaseRejectedClaim c.sessionId c.prompt.id c.token certainty))
        (fun _ => Owns κ c.token) fun _ => Owns κ c.token := fun hP hmay =>
    Triple.op hP (fun w _ h => (hmay w h).2) fun w r w' hi h ho _ =>
      (perform_goes (o := .releaseRejectedClaim c.sessionId c.prompt.id c.token certainty) (r := r)
        hi (hmay w h).2 ho).2.tokens (hmay w h).1
  refine Triple.ite (fun hc => ?_) fun _ => Triple.pure fun _ _ h => h.1
  rcases hc with rfl | rfl
  · exact (release stable_unsent fun w h => ⟨h.1, Or.inr ⟨rfl, h.2⟩⟩).pre
      fun w _ h => ⟨h.1, h.2 rfl⟩
  · exact (release stable_owns fun w h => ⟨h, Or.inl rfl⟩).pre fun w _ h => h.1

theorem onAccepted_ok : Triple delivery κ (Owns κ c.token) (onAccepted c)
    (fun _ => Owns κ c.token) fun _ => Owns κ c.token := by
  refine Triple.bind (owns_op fun _ _ => trivial) fun _ => ?_
  refine Triple.bind (owns_tryOp fun _ h => h) fun _ => ?_
  exact owns_tryOp fun _ h => h

theorem deliverAcceptedPrompt_ok : Triple delivery κ (Unsent κ c.prompt.id c.token)
    (deliverAcceptedPrompt c) (fun _ => Owns κ c.token) fun _ => Owns κ c.token := by
  refine Triple.bind (R := fun _ => Unsent κ c.prompt.id c.token)
    ((read_tryOp (o := .assertPromptExecutionAllowed) stable_unsent (fun _ => trivial)
      fun _ _ _ ho => ho).post (fun _ _ _ h => h) fun _ _ _ h => h.1) fun _ => ?_
  refine Triple.bind deliverSessionAgentMessage_ok fun result => ?_
  refine Triple.ite (fun _ => ?_) fun _ => ?_
  · exact Triple.bind onRejected_ok fun _ => Triple.throw_bind fun _ _ h => h
  · refine Triple.pre ?_ fun _ _ h => h.1
    exact Triple.bind onAccepted_ok fun _ => owns_tryOp fun _ _ => trivial

/-- **A failed dispatch releases only a row that is not marked.** -/
theorem onDispatchError_ok {error : Thrown} : Triple delivery κ (Owns κ c.token)
    (onDispatchError c error : Dispatch α) Any₂ Any₂ := by
  refine Triple.bind (R := fun queue w => Owns κ c.token w ∧
      ((∃ r ∈ queue.find? fun r => r.id = c.prompt.id, r.state = .claimed ∧
        r.deliveryState = some .unsent) → Releasable c.prompt.id c.token w))
    (Triple.op stable_owns (fun _ _ _ => trivial) fun w r w' hi h ho hi' => ?_) fun queue => ?_
  · have he : Evolves κ w w' := (perform_goes (o := .getSessionQueue c.sessionId) hi trivial ho).2
    refine ⟨he.tokens h, ?_⟩
    obtain ⟨now, rfl, rfl⟩ := ho
    -- the row that is found is the only one with its id
    rintro ⟨x, hx, -, hd⟩ x' hx' hid -
    obtain ⟨hmem, hxid⟩ := mem_of_find hx
    have hmem' : x ∈ (w.queue.getSessionQueue c.sessionId now).2.prompts :=
      List.mem_of_mem_filter ((List.mergeSort_perm _ _).mem_iff.mp hmem)
    exact hi'.unique.eq hmem' hx' (hxid.trans hid.symm) ▸ hd
  refine Triple.bind (R := Any₂) ?_ fun _ => ?_
  · refine Triple.ite (fun hc => ?_) fun _ => Triple.pure fun _ _ _ => trivial
    refine Triple.pre (P := Unsent κ c.prompt.id c.token) ?_ fun w _ h => ⟨h.1, h.2 hc⟩
    refine Triple.op stable_unsent (fun w _ h => ?_) fun _ _ _ _ _ _ _ => trivial
    exact Or.inr ⟨rfl, h.2⟩
  · exact Triple.bind (any_op fun _ => trivial) fun _ => Triple.throw fun _ _ _ => trivial

theorem dispatchClaimed_ok (session : SessionSnapshot) (prompt : QueuedPrompt) :
    Triple delivery κ (Unsent κ prompt.id (prompt.claimToken.getD ""))
      (dispatchClaimed session prompt) Any₂ Any₂ := by
  let c : ClaimedPrompt := ⟨session.id, prompt, prompt.claimToken.getD ""⟩
  refine Triple.bind (R := Any₂) (Triple.tryCatch (R := fun _ => Owns κ (prompt.claimToken.getD ""))
    ((deliverAcceptedPrompt_ok (c := c)).post (fun _ _ _ _ => trivial) fun _ _ _ h => h)
    fun error => onDispatchError_ok (c := c))
    fun _ => Triple.pure fun _ _ _ => trivial

/-- **A prompt just claimed was not marked under its token.** -/
theorem claimNextPrompt_ok (sessionId : String) : Triple delivery κ Any
    (op (.claimNextPrompt sessionId))
    (fun (r : Option QueuedPrompt) w => ∀ prompt ∈ r,
      Unsent κ prompt.id (prompt.claimToken.getD "") w) Any₂ := by
  refine Triple.op stable_any (fun _ _ _ => trivial) fun w r w' hi _ ho _ => ?_
  obtain ⟨token, now, hf, rfl, rfl⟩ := ho
  intro prompt hp
  rw [claimNextPrompt_some hp]
  refine ⟨List.mem_cons_self, fun x' hx' _ ht => ?_⟩
  obtain ⟨x, hx, -, hm | ⟨-, -, hd, -⟩⟩ := claimNextPrompt_follows.rows x' hx'
  · exact absurd (hi.claims x hx _ (hm.2.2.symm.trans ht)) hf
  · exact hd

theorem dispatchQueuedPromptWithClaim_ok (session : SessionSnapshot) (userNpub : Option String) :
    Triple delivery κ Any (dispatchQueuedPromptWithClaim session userNpub) Any₂ Any₂ := by
  refine Triple.ite (fun _ => Triple.throw_bind fun _ _ _ => trivial) fun _ => ?_
  cases userNpub with
  | none => exact Triple.throw fun _ _ _ => trivial
  | some npub =>
    refine Triple.bind (any_op fun _ => trivial) fun approved => ?_
    refine Triple.ite (fun _ => Triple.throw_bind fun _ _ _ => trivial) fun _ => ?_
    refine Triple.bind (R := Any₂) (Triple.tryCatch (any_tryOp fun _ => trivial) fun error =>
      Triple.throw fun _ _ _ => trivial) fun _ => ?_
    refine Triple.bind (claimNextPrompt_ok session.id) fun nextPrompt => ?_
    cases nextPrompt with
    | some prompt => exact (dispatchClaimed_ok session prompt).pre fun _ _ h => h prompt rfl
    | none =>
      refine Triple.bind (R := Any₂) ((any_op (o := .getNextQueuedPrompt session.id)
        fun _ => trivial).pre fun _ _ _ => trivial) fun head => ?_
      cases head with
      | none => exact Triple.throw fun _ _ _ => trivial
      | some r => exact Triple.ite (fun _ => Triple.throw fun _ _ _ => trivial) fun _ =>
          Triple.throw fun _ _ _ => trivial

theorem dispatchNext_ok (session : SessionSnapshot) (userNpub : Option String) :
    Triple delivery κ Any (dispatchNextQueuedPromptForSession session userNpub) Any₂ Any₂ := by
  refine Triple.bind (any_op fun _ => trivial) fun inFlight => ?_
  refine Triple.ite (fun _ => Triple.throw_bind fun _ _ _ => trivial) fun _ => ?_
  refine Triple.bind (any_op fun _ => trivial) fun _ => ?_
  exact Triple.andFinally (dispatchQueuedPromptWithClaim_ok session userNpub)
    (fun _ => any_op fun _ => trivial) fun _ => any_op fun _ => trivial

theorem maybeAutoDispatch_ok (session : SessionSnapshot) :
    Triple delivery κ Any (maybeAutoDispatchQueuedPrompt session) Any₂ Any₂ := by
  refine Triple.bind (any_op fun _ => trivial) fun draining => ?_
  refine Triple.ite (fun _ => Triple.pure fun _ _ _ => trivial) fun _ => ?_
  refine Triple.bind (any_op fun _ => trivial) fun inFlight => ?_
  refine Triple.ite (fun _ => Triple.pure fun _ _ _ => trivial) fun _ => ?_
  refine Triple.ite (fun _ => Triple.pure fun _ _ _ => trivial) fun _ => ?_
  refine Triple.bind (any_op fun _ => trivial) fun queuedPromptCount => ?_
  refine Triple.ite (fun _ => Triple.pure fun _ _ _ => trivial) fun _ => ?_
  refine Triple.bind (any_op fun _ => trivial) fun coolingDown => ?_
  refine Triple.ite (fun _ => Triple.pure fun _ _ _ => trivial) fun _ => ?_
  refine Triple.bind (any_op fun _ => trivial) fun _ => ?_
  refine Triple.andFinally (R := Any₂) (F := Any₂)
    (Triple.tryCatch (R := Any₂) ?_ fun error => Triple.pure fun _ _ _ => trivial)
    (fun _ => any_op fun _ => trivial) fun _ => any_op fun _ => trivial
  refine Triple.bind (any_tryOp fun _ => trivial) fun readiness => ?_
  refine Triple.ite (fun _ => Triple.pure fun _ _ _ => trivial) fun _ => ?_
  refine Triple.bind (dispatchQueuedPromptWithClaim_ok session session.chargeNpub) fun _ => ?_
  exact Triple.pure fun _ _ _ => trivial

theorem reconcile_ok (sessionId id revision token resolution actor reason : String) :
    Triple delivery κ Any (reconcile sessionId id revision token resolution actor reason)
      Any₂ Any₂ := by
  refine Triple.bind (any_op fun _ => trivial) fun inFlight => ?_
  refine Triple.ite (fun _ => Triple.pure fun _ _ _ => trivial) fun _ => ?_
  refine Triple.bind (any_op fun _ => trivial) fun inFlight => ?_
  refine Triple.ite (fun _ => Triple.pure fun _ _ _ => trivial) fun _ => ?_
  refine Triple.bind (any_tryOp fun _ => trivial) fun _ => ?_
  exact Triple.pure fun _ _ _ => trivial

end Programs

/-! ## the discipline is kept -/

/-- **The programs of the server keep the discipline.** -/
theorem dispatch_keeps : delivery.Keeps where
  perform hi hm ho := (perform_goes hi hm ho).1
  crash hi hc := by
    obtain rfl := hc
    exact (Goes.memory (κ := 0) hi).1
  spawn hi hp := by
    cases hp with
    | dispatch session userNpub => exact (dispatchNext_ok session userNpub).detach hi
    | autoDispatch session => exact (maybeAutoDispatch_ok session).detach hi
    | reconcile sessionId id revision token resolution actor reason =>
      exact (reconcile_ok sessionId id revision token resolution actor reason).detach hi
    | call c => exact (any_op (o := .call c) (E := Any₂) fun _ => trivial).detach hi

theorem Inv.initial {w : World} (h : w.Initial) : Inv w := by
  obtain rfl := h
  constructor <;> simp [PrimaryKey, Sending, Lawful]

end PromptQueue
end WmAutopilot
