import WmAutopilot.SessionDispatch.DispatchInbox

/-!
# What the methods make of a wake

* `Follows`, `Rewakes`   the wake of one session goes on; the methods of the coordinator;
* `Claims`, `HandsOut`   the wake of one session is claimed;
* `Due`, `Covers`, `Stranded`   the premises of a claim, what it covers, and a wake that was resolved
                      for the callbacks of its inbox;
* `claimForStableSession_claims`   **a due wake is handed out**, unless it is stranded.
-/

set_option autoImplicit false
set_option linter.unusedVariables false

namespace WmAutopilot
namespace SessionDispatches
open Sql SessionDispatchStore

/-! ## wakes -/

section Wakes
variable {db db' db'' : SessionDispatchStore} {s s' : String} {k k' : CallbackWakeRecord}

/-- every wake stands under its session. -/
def Keyed (db : SessionDispatchStore) : Prop := ∀ s k, db.wakes s = some k → k.callbackSessionId = s

@[simp] theorem saveWake_dispatches (db : SessionDispatchStore) (k : CallbackWakeRecord) :
    (db.saveWake k).dispatches = db.dispatches := rfl

@[simp] theorem saveWake_cutoffs (db : SessionDispatchStore) (k : CallbackWakeRecord) :
    (db.saveWake k).cutoffs = db.cutoffs := rfl

/-- what is saved, up to the time of its creation. -/
theorem saveWake_self (db : SessionDispatchStore) {k : CallbackWakeRecord}
    (hs : k.callbackSessionId = s) :
    ∃ t, (db.saveWake k).wakes s = some { k with createdAt := t } := by
  subst hs
  exact ⟨_, Function.update_self ..⟩

theorem saveWake_ne (h : s ≠ k.callbackSessionId) : (db.saveWake k).wakes s = db.wakes s :=
  Function.update_of_ne h ..

theorem fingerprint_congr (sha256 : String → String) (h : db'.dispatches = db.dispatches)
    (s : String) : db'.getInboxFingerprint sha256 s = db.getInboxFingerprint sha256 s := by
  unfold getInboxFingerprint listUnresolvedCallbacks
  rw [h]

theorem generation_congr (h : db'.cutoffs = db.cutoffs) (s : String) :
    db'.generation s = db.generation s := by
  unfold generation
  rw [h]

variable (sha256 : String → String)

/-- `k'` may follow the wake of the session: it is resolved only for an empty inbox, and its
attempts are counted from nothing or go on with the wake's. -/
structure Follows (db : SessionDispatchStore) (s : String) (k' : CallbackWakeRecord) : Prop where
  session : k'.callbackSessionId = s
  resolved : k'.state = .resolved → db.getInboxFingerprint sha256 s = none
  fence : k'.attemptCount = 0 ∨ ∃ k, db.wakes s = some k ∧
    k'.inboxFingerprint = k.inboxFingerprint ∧ k'.attemptCount = k.attemptCount

/-- only the wake of `s` is changed. -/
structure Rewakes (db db' : SessionDispatchStore) (s : String) : Prop where
  dispatches : db'.dispatches = db.dispatches
  cutoffs : db'.cutoffs = db.cutoffs
  other : ∀ s', s' ≠ s → db'.wakes s' = db.wakes s'
  wake : db'.wakes s = db.wakes s ∨ ∃ k', db'.wakes s = some k' ∧ Follows sha256 db s k'

variable {sha256}

theorem Rewakes.refl (db : SessionDispatchStore) (s : String) : Rewakes sha256 db db s :=
  ⟨rfl, rfl, fun _ _ => rfl, Or.inl rfl⟩

theorem Follows.save (h : Follows sha256 db s k') : Rewakes sha256 db (db.saveWake k') s := by
  obtain ⟨t, ht⟩ := saveWake_self db h.session
  refine ⟨rfl, rfl, fun s' hs => saveWake_ne ?_, Or.inr ⟨_, ht, h.session, h.resolved, h.fence⟩⟩
  rwa [h.session]

theorem Rewakes.trans (h : Rewakes sha256 db db' s) (h' : Rewakes sha256 db' db'' s) :
    Rewakes sha256 db db'' s := by
  refine ⟨h'.dispatches.trans h.dispatches, h'.cutoffs.trans h.cutoffs,
    fun s' hs => (h'.other s' hs).trans (h.other s' hs), ?_⟩
  rcases h'.wake with he | ⟨k'', hk'', hf⟩
  · rw [he]
    exact h.wake
  · refine Or.inr ⟨k'', hk'', hf.session, fun hr => ?_, ?_⟩
    · rw [← fingerprint_congr sha256 h.dispatches]
      exact hf.resolved hr
    · rcases hf.fence with h0 | ⟨k', hk', hfp, hat⟩
      · exact Or.inl h0
      rcases h.wake with he | ⟨x, hx, hfx⟩
      · exact Or.inr ⟨k', he ▸ hk', hfp, hat⟩
      · obtain rfl : x = k' := Option.some.inj (hx.symm.trans hk')
        rcases hfx.fence with h0 | ⟨k, hk, hfp', hat'⟩
        · exact Or.inl (hat.trans h0)
        · exact Or.inr ⟨k, hk, hfp.trans hfp', hat.trans hat'⟩

theorem Rewakes.keyed (h : Rewakes sha256 db db' s) (hk : Keyed db) : Keyed db' := by
  intro s' k' hk'
  by_cases hs : s' = s
  · subst hs
    rcases h.wake with he | ⟨x, hx, hf⟩
    · exact hk s' k' (he ▸ hk')
    · rw [hx] at hk'
      exact Option.some.inj hk' ▸ hf.session
  · exact hk s' k' (h.other s' hs ▸ hk')

/-- a wake with the fence of another, in a state that is not the last. -/
theorem Follows.of_wake (hkey : Keyed db) (hk : db.wakes s = some k)
    (hs : k'.callbackSessionId = k.callbackSessionId)
    (hf : k'.inboxFingerprint = k.inboxFingerprint) (ha : k'.attemptCount = k.attemptCount)
    (hr : k'.state ≠ .resolved) : Follows sha256 db s k' :=
  ⟨hs.trans (hkey s k hk), fun h => absurd h hr, Or.inr ⟨k, hk, hf, ha⟩⟩

/-! ### one lemma for each method -/

section Methods
variable {policy : WakePolicy} {fingerprint : String} {now lease : ℕ}

theorem noteSessionBusy_rewakes (hkey : Keyed db) :
    Rewakes sha256 db (db.noteSessionBusy s now) s := by
  unfold noteSessionBusy getWake
  split
  · exact .refl db s
  rename_i wake hwake
  split
  · exact .refl db s
  rename_i hstate
  push Not at hstate
  refine Follows.save ?_
  refine .of_wake hkey hwake rfl rfl rfl ?_
  show wake.state ≠ .resolved
  rw [hstate.1]
  decide

theorem reconcile_rewakes (hkey : Keyed db) :
    Rewakes sha256 db (db.reconcileHandledCallbacks sha256 s now) s := by
  unfold reconcileHandledCallbacks getWake
  cases hwake : db.wakes s with
  | none => exact .refl db s
  | some wake =>
    dsimp only
    cases hempty : db.getInboxFingerprint sha256 s with
    | none => exact Follows.save ⟨hkey s wake hwake, fun _ => hempty, Or.inl rfl⟩
    | some fingerprint =>
      dsimp only
      split
      · exact .refl db s
      · exact Follows.save ⟨hkey s wake hwake, nofun, Or.inl rfl⟩

/-- the wake that `claimWake` looks at: it is for the fingerprint, and it is new or the old one. -/
theorem resetWake_spec (hkey : Keyed db) :
    Rewakes sha256 db (db.resetWake s fingerprint now) s ∧
    ∃ k, (db.resetWake s fingerprint now).wakes s = some k ∧ k.callbackSessionId = s ∧
      k.inboxFingerprint = fingerprint ∧
      (k.state = .pending ∧ k.nextRetryAt = none ∨ db.wakes s = some k) := by
  have hfresh : Follows sha256 db s
      { callbackSessionId := s, inboxFingerprint := fingerprint, createdAt := now
        updatedAt := now } := ⟨rfl, nofun, Or.inl rfl⟩
  unfold resetWake getWake
  split
  · rename_i k hk
    split
    · rename_i hfp
      exact ⟨.refl db s, k, hk, hkey s k hk, hfp, Or.inr hk⟩
    · obtain ⟨t, ht⟩ := saveWake_self db hfresh.session
      exact ⟨hfresh.save, _, ht, rfl, rfl, Or.inl ⟨rfl, rfl⟩⟩
  · obtain ⟨t, ht⟩ := saveWake_self db hfresh.session
    exact ⟨hfresh.save, _, ht, rfl, rfl, Or.inl ⟨rfl, rfl⟩⟩

/-- the wake of the session was claimed with an attempt more. -/
structure Claims (db db' : SessionDispatchStore) (s fingerprint : String) (attemptCount lease : ℕ) :
    Prop where
  dispatches : db'.dispatches = db.dispatches
  cutoffs : db'.cutoffs = db.cutoffs
  other : ∀ s', s' ≠ s → db'.wakes s' = db.wakes s'
  attempt : 0 < attemptCount
  wake : ∃ k, db'.wakes s = some k ∧ k.callbackSessionId = s ∧ k.state = .claimed ∧
    k.inboxFingerprint = fingerprint ∧ k.attemptCount = attemptCount ∧
    k.leaseExpiresAt = some lease

theorem claimWake_cases (sha256 : String → String) (hkey : Keyed db) :
    (db.claimWake s fingerprint now lease).1 = none ∧
      Rewakes sha256 db (db.claimWake s fingerprint now lease).2 s ∨
    ∃ k, (db.claimWake s fingerprint now lease).1 = some k ∧
      Claims db (db.claimWake s fingerprint now lease).2 s fingerprint k.attemptCount lease := by
  have hspec : Rewakes sha256 db (db.resetWake s fingerprint now) s ∧ _ := resetWake_spec hkey
  obtain ⟨hre, k, hk, hks, hfp, -⟩ := hspec
  unfold claimWake getWake
  dsimp only
  rw [hk]
  dsimp only
  split
  · exact Or.inl ⟨rfl, hre⟩
  · refine Or.inr ⟨_, rfl, ?_⟩
    obtain rfl := hks
    refine ⟨hre.dispatches, hre.cutoffs, fun s' hs => ?_, Nat.succ_pos _, ?_⟩
    · refine Eq.trans (saveWake_ne ?_) (hre.other s' hs)
      exact hs
    · exact ⟨_, Function.update_self .., rfl, rfl, hfp, rfl, rfl⟩

/-- what is counted keeps the fence, or starts it again. -/
theorem settledWake_cases (k : CallbackWakeRecord) (fingerprint : String) (now : ℕ) :
    settledWake policy k fingerprint now = k ∨
    (settledWake policy k fingerprint now).callbackSessionId = k.callbackSessionId ∧
      (settledWake policy k fingerprint now).state ≠ .resolved ∧
      ((settledWake policy k fingerprint now).attemptCount = 0 ∨
        (settledWake policy k fingerprint now).inboxFingerprint = k.inboxFingerprint ∧
        (settledWake policy k fingerprint now).attemptCount = k.attemptCount) := by
  unfold settledWake failedAttempt completedTurn
  split
  · split
    · exact Or.inr ⟨rfl, nofun, Or.inr ⟨rfl, rfl⟩⟩
    · exact Or.inr ⟨rfl, nofun, Or.inr ⟨rfl, rfl⟩⟩
  split
  · split
    · exact Or.inr ⟨rfl, nofun, Or.inl rfl⟩
    split
    · exact Or.inr ⟨rfl, nofun, Or.inr ⟨rfl, rfl⟩⟩
    · exact Or.inr ⟨rfl, nofun, Or.inr ⟨rfl, rfl⟩⟩
  · exact Or.inl rfl

theorem settle_rewakes (hkey : Keyed db) (hk : db.wakes s = some k) (policy : WakePolicy)
    (fingerprint : String) (now : ℕ) :
    Rewakes sha256 db (if settledWake policy k fingerprint now = k then db
      else db.saveWake (settledWake policy k fingerprint now)) s := by
  split
  · exact .refl db s
  rename_i hne
  rcases settledWake_cases k fingerprint now with he | ⟨hs, hr, hf⟩
  · exact absurd he hne
  · refine Follows.save ⟨hs.trans (hkey s k hk), fun h => absurd h hr, ?_⟩
    exact hf.imp_right fun ⟨hfp, hat⟩ => ⟨k, hk, hfp, hat⟩

/-- the claim that is handed out for a wake. -/
structure HandsOut (db db' : SessionDispatchStore) (s fingerprint : String) (lease : ℕ)
    (claim : DispatchInboxWakeClaim) : Prop extends
    Claims db db' s fingerprint claim.attemptCount lease where
  session : claim.callbackSessionId = s
  generation : claim.generation = db.generation s
  fingerprint : claim.inboxFingerprint = fingerprint

theorem handOut_cases (sha256 : String → String) (hkey : Keyed db) :
    (db.handOut policy s fingerprint now).1 = none ∧
      Rewakes sha256 db (db.handOut policy s fingerprint now).2 s ∨
    ∃ claim, (db.handOut policy s fingerprint now).1 = some claim ∧
      HandsOut db (db.handOut policy s fingerprint now).2 s fingerprint (now + policy.leaseMs)
        claim := by
  unfold handOut
  rcases claimWake_cases sha256 hkey with ⟨hnone, hre⟩ | ⟨k, hk, hc⟩
  · exact Or.inl ⟨congrArg (Option.map _) hnone, hre⟩
  · refine Or.inr ⟨_, congrArg (Option.map _) hk, hc, rfl, ?_, rfl⟩
    exact generation_congr hc.cutoffs s

theorem Rewakes.handsOut {lease : ℕ} {claim : DispatchInboxWakeClaim}
    (h : Rewakes sha256 db db' s) (h' : HandsOut db' db'' s fingerprint lease claim) :
    HandsOut db db'' s fingerprint lease claim where
  dispatches := h'.dispatches.trans h.dispatches
  cutoffs := h'.cutoffs.trans h.cutoffs
  other s' hs := (h'.other s' hs).trans (h.other s' hs)
  attempt := h'.attempt
  wake := h'.wake
  session := h'.session
  generation := h'.generation.trans (generation_congr h.cutoffs s)
  fingerprint := h'.fingerprint

theorem claimForStableSession_cases (hkey : Keyed db) :
    (db.claimForStableSession sha256 policy s now).1 = none ∧
      Rewakes sha256 db (db.claimForStableSession sha256 policy s now).2 s ∨
    ∃ fingerprint claim, db.getInboxFingerprint sha256 s = some fingerprint ∧
      (db.claimForStableSession sha256 policy s now).1 = some claim ∧
      HandsOut db (db.claimForStableSession sha256 policy s now).2 s fingerprint
        (now + policy.leaseMs) claim := by
  unfold claimForStableSession getWake
  split
  · exact Or.inl ⟨rfl, .refl db s⟩
  · rename_i wake hempty hwake
    split
    · exact Or.inl ⟨rfl, .refl db s⟩
    · refine Or.inl ⟨rfl, Follows.save ⟨hkey s wake hwake, fun _ => hempty, ?_⟩⟩
      exact Or.inr ⟨wake, hwake, rfl, rfl⟩
  · rename_i fingerprint hfp hwake
    rcases handOut_cases sha256 hkey with h | ⟨claim, hclaim, hout⟩
    · exact Or.inl h
    · exact Or.inr ⟨fingerprint, claim, hfp, hclaim, hout⟩
  · rename_i fingerprint wake hfp hwake
    have hre : Rewakes sha256 db _ s := settle_rewakes hkey hwake policy fingerprint now
    dsimp only
    generalize (if settledWake policy wake fingerprint now = wake then db
      else db.saveWake (settledWake policy wake fingerprint now)) = settled at hre ⊢
    split
    · exact Or.inl ⟨rfl, hre⟩
    rcases handOut_cases sha256 (hre.keyed hkey) with ⟨hnone, h⟩ | ⟨claim, hclaim, hout⟩
    · exact Or.inl ⟨hnone, hre.trans h⟩
    · exact Or.inr ⟨fingerprint, claim, hfp, hclaim, hre.handsOut hout⟩

/-! ### what is reported under a fence -/

variable {claim : DispatchInboxWakeClaim} {states : List CallbackWakeState}

theorem fenced_some (h : db.fenced claim states = some k) :
    claim.generation = db.generation claim.callbackSessionId ∧
      db.wakes claim.callbackSessionId = some k ∧ k.state ∈ states ∧
      k.inboxFingerprint = claim.inboxFingerprint ∧ k.attemptCount = claim.attemptCount := by
  unfold fenced getWake at h
  split at h
  · cases h
  rename_i hgen
  obtain ⟨hk, hp⟩ := Option.filter_eq_some_iff.mp h
  exact ⟨not_not.mp hgen, hk, by simpa using hp⟩

theorem release_rewakes (hkey : Keyed db) :
    Rewakes sha256 db (db.releaseRejectedDelivery claim) claim.callbackSessionId := by
  unfold releaseRejectedDelivery
  split
  · exact .refl db _
  · rename_i wake hwake
    obtain ⟨-, hk, -⟩ := fenced_some hwake
    refine Follows.save ?_
    exact .of_wake hkey hk rfl rfl rfl nofun

theorem markSubmitted_rewakes (hkey : Keyed db) :
    Rewakes sha256 db (db.markSubmitted claim now) claim.callbackSessionId := by
  unfold markSubmitted
  split
  · exact .refl db _
  · rename_i wake hwake
    obtain ⟨-, hk, -⟩ := fenced_some hwake
    refine Follows.save ?_
    exact .of_wake hkey hk rfl rfl rfl nofun

theorem markSubmissionFailed_rewakes (hkey : Keyed db) (error : String) :
    Rewakes sha256 db (db.markSubmissionFailed policy claim error now) claim.callbackSessionId := by
  unfold markSubmissionFailed
  split
  · exact .refl db _
  · rename_i wake hwake
    obtain ⟨-, hk, -⟩ := fenced_some hwake
    refine Follows.save ?_
    unfold failedAttempt
    split
    · exact .of_wake hkey hk rfl rfl rfl nofun
    · exact .of_wake hkey hk rfl rfl rfl nofun

theorem validateClaim_rewakes (hkey : Keyed db) :
    Rewakes sha256 db (db.validateClaim sha256 claim now).2 claim.callbackSessionId := by
  unfold validateClaim
  split
  · exact .refl db _
  · exact reconcile_rewakes hkey

theorem markDeliveryUncertain_rewakes (hkey : Keyed db) :
    Rewakes sha256 db (db.markDeliveryUncertain sha256 claim now).2 claim.callbackSessionId := by
  have hre : Rewakes sha256 db (db.validateClaim sha256 claim now).2 claim.callbackSessionId :=
    validateClaim_rewakes hkey
  unfold markDeliveryUncertain getWake
  split <;> rename_i db' heq <;> rw [heq] at hre
  · exact hre
  split
  · exact hre
  · rename_i wake hwake
    refine hre.trans (Follows.save ?_)
    exact .of_wake (hre.keyed hkey) hwake rfl rfl rfl nofun

end Methods

end Wakes

/-! ## when a wake is handed out -/

section Due
variable {sha256 : String → String} {policy : WakePolicy} {db : SessionDispatchStore}
  {s fingerprint : String} {k : CallbackWakeRecord} {now lease : ℕ}

/-- The wake of the session is due: its inbox holds a callback, and its wake, once an expired lease
has been counted as a failed attempt and an ended turn as done, is not outstanding, not blocked for
the inbox, and past its retry time. -/
def Due (sha256 : String → String) (policy : WakePolicy) (db : SessionDispatchStore) (s : String)
    (now : ℕ) : Prop :=
  ∃ fingerprint, db.getInboxFingerprint sha256 s = some fingerprint ∧
    ∀ k, db.wakes s = some k → ¬Waiting (settledWake policy k fingerprint now) fingerprint now

/-- The claim covers the inbox: it is for the fingerprint of all its callbacks, and the wake is
leased to it. -/
structure Covers (sha256 : String → String) (policy : WakePolicy) (db : SessionDispatchStore)
    (s : String) (now : ℕ) (claim : DispatchInboxWakeClaim) : Prop where
  session : claim.callbackSessionId = s
  inbox : db.getInboxFingerprint sha256 s = some claim.inboxFingerprint
  leased : ∃ k, (db.claimForStableSession sha256 policy s now).2.wakes s = some k ∧
    k.state = .claimed ∧ k.inboxFingerprint = claim.inboxFingerprint ∧
    k.attemptCount = claim.attemptCount ∧ k.leaseExpiresAt = some (now + policy.leaseMs)

/-- the wake was resolved for the callbacks that are in the inbox again. -/
def Stranded (sha256 : String → String) (db : SessionDispatchStore) (s : String) : Prop :=
  ∃ k, db.wakes s = some k ∧ k.state = .resolved ∧
    db.getInboxFingerprint sha256 s = some k.inboxFingerprint

/-- a wake that may be claimed is claimed. -/
theorem claimWake_claims (hkey : Keyed db)
    (hready : ∀ k, db.wakes s = some k → k.inboxFingerprint = fingerprint →
      k.state = .pending ∧ ∀ t ∈ k.nextRetryAt, t ≤ now) :
    ∃ k, (db.claimWake s fingerprint now lease).1 = some k := by
  have hspec : Rewakes id db (db.resetWake s fingerprint now) s ∧ _ := resetWake_spec hkey
  obtain ⟨-, k, hk, -, hfp, hnew⟩ := hspec
  have hpending : k.state = .pending ∧ ∀ t ∈ k.nextRetryAt, t ≤ now := by
    rcases hnew with ⟨hs, hn⟩ | hold
    · exact ⟨hs, fun t ht => by rw [hn] at ht; cases ht⟩
    · exact hready k hold hfp
  unfold claimWake getWake
  dsimp only
  rw [hk]
  dsimp only
  rw [if_neg]
  · exact ⟨_, rfl⟩
  · rintro (hs | ⟨t, ht, hlt⟩)
    · exact hs hpending.1
    · exact absurd (hpending.2 t ht) (not_le.mpr hlt)

/-- a wake that was resolved for the inbox is never claimed. -/
theorem claimWake_resolved {k' : CallbackWakeRecord} (hk : db.wakes s = some k)
    (hr : k.state = .resolved) :
    (db.claimWake s k.inboxFingerprint now lease).1 ≠ some k' := by
  have hreset : db.resetWake s k.inboxFingerprint now = db := by
    unfold resetWake getWake
    rw [hk]
    exact if_pos rfl
  unfold claimWake getWake
  dsimp only
  rw [hreset, hk]
  dsimp only
  rw [if_pos (Or.inl (by rw [hr]; decide))]
  exact nofun

/-- what is stored once the wake is settled. -/
theorem settled_wakes (hkey : Keyed db) (hk : db.wakes s = some k) (policy : WakePolicy)
    (fingerprint : String) (now : ℕ) :
    ∃ t, (if settledWake policy k fingerprint now = k then db
      else db.saveWake (settledWake policy k fingerprint now)).wakes s =
        some { settledWake policy k fingerprint now with createdAt := t } := by
  split
  · rename_i he
    exact ⟨k.createdAt, by rw [he, hk]⟩
  · rename_i hne
    have hs : (settledWake policy k fingerprint now).callbackSessionId = s := by
      rcases settledWake_cases k fingerprint now with he | ⟨hs, -⟩
      · exact absurd he hne
      · exact hs.trans (hkey s k hk)
    exact saveWake_self db hs

theorem not_waiting (h : ¬Waiting k fingerprint now) (hfp : k.inboxFingerprint = fingerprint)
    (hr : k.state ≠ .resolved) : k.state = .pending ∧ ∀ t ∈ k.nextRetryAt, t ≤ now := by
  simp only [Waiting, not_or] at h
  obtain ⟨hc, hsub, hb, hn⟩ := h
  refine ⟨?_, fun t ht => not_lt.mp fun hlt => hn ⟨t, ht, hlt⟩⟩
  cases hs : k.state with
  | pending => rfl
  | claimed => exact absurd hs hc
  | submitted => exact absurd hs hsub
  | blocked => exact absurd ⟨hs, hfp⟩ hb
  | resolved => exact absurd hs hr

/-- **A due wake is handed out**, unless it was resolved for the callbacks of the inbox. -/
theorem claimForStableSession_claims (hkey : Keyed db) (hdue : Due sha256 policy db s now) :
    (∃ claim, (db.claimForStableSession sha256 policy s now).1 = some claim) ↔
      ¬Stranded sha256 db s := by
  obtain ⟨fingerprint, hfp, hwait⟩ := hdue
  have hout : ∀ d : SessionDispatchStore, (∃ claim, (d.handOut policy s fingerprint now).1 =
      some claim) ↔ ∃ k, (d.claimWake s fingerprint now (now + policy.leaseMs)).1 = some k := by
    intro d
    constructor
    · rintro ⟨claim, h⟩
      obtain ⟨k, hk, -⟩ := Option.map_eq_some_iff.mp h
      exact ⟨k, hk⟩
    · rintro ⟨k, hk⟩
      exact ⟨_, congrArg (Option.map _) hk⟩
  unfold claimForStableSession getWake
  rw [hfp]
  cases hk : db.wakes s with
  | none =>
    refine iff_of_true ((hout db).mpr (claimWake_claims hkey fun k h => ?_)) ?_
    · rw [hk] at h
      cases h
    · rintro ⟨k, h, -⟩
      rw [hk] at h
      cases h
  | some k =>
    dsimp only
    rw [if_neg (hwait k hk), hout]
    obtain ⟨t, ht⟩ := settled_wakes hkey hk policy fingerprint now
    have hre : Rewakes sha256 db _ s := settle_rewakes hkey hk policy fingerprint now
    constructor
    · rintro ⟨k', hk'⟩ ⟨x, hx, hr, hxfp⟩
      obtain rfl : x = k := Option.some.inj (hx.symm.trans hk)
      obtain rfl : fingerprint = x.inboxFingerprint := Option.some.inj (hfp.symm.trans hxfp)
      have hself : settledWake policy x x.inboxFingerprint now = x := by simp [settledWake, hr]
      rw [if_pos hself] at hk'
      exact absurd hk' (claimWake_resolved hx hr)
    · intro hns
      refine claimWake_claims (hre.keyed hkey) fun k' hk' hkfp => ?_
      obtain rfl := Option.some.inj (ht.symm.trans hk')
      have hr : (settledWake policy k fingerprint now).state ≠ .resolved := by
        rcases settledWake_cases k fingerprint now with he | ⟨-, hr, -⟩
        · rw [he] at hkfp ⊢
          exact fun hr => hns ⟨k, hk, hr, hfp.trans (congrArg some hkfp.symm)⟩
        · exact hr
      have hp := not_waiting (hwait k hk) hkfp hr
      exact hp

end Due

end SessionDispatches
end WmAutopilot
