import Mathlib.Logic.Relation
import WmAutopilot.SessionDispatch.WakeSteps

/-!
# Wakes over whole runs

The store under all its methods, in any order and with any arguments.

* `Action`, `World`   the calls; the store, and the claims that were handed out, in their order;
* `Effect`, `run_effect`   **what any call does to the wakes**;
* `Action.Returns`, `no_lost_wake`   the calls that bring an inbox back to a wake that was resolved
                      for it; **in every other run a due wake is handed out**;
* `Inv`, `superseded_inert`   the fence of a wake is the one of the last claim; **a claim that was
                      superseded changes nothing**, where no later claim carries its fence;
* `lostWake`, `returned`   two runs where they do.
-/

set_option autoImplicit false
set_option linter.unusedVariables false

namespace WmAutopilot
namespace SessionDispatches
open Sql SessionDispatchStore

/-! ## calls -/

inductive Action where
  | create (id workerSessionId : String) (callbackSessionId ownerNpub : Option String) (now : ℕ)
  | capture (record : SessionDispatch) (status : TerminalStatus)
      (message createdAt : Option String) (now : ℕ)
  | noteError (id message : String) (failed : Bool) (now : ℕ)
  | acknowledge (id callerSessionId : String) (now : ℕ)
  | close (id callerSessionId : String) (now : ℕ)
  | retryCallback (id callerSessionId : String) (now : ℕ)
  | claimForStableSession (callbackSessionId : String) (now : ℕ)
  | noteSessionBusy (callbackSessionId : String) (now : ℕ)
  | reconcileHandledCallbacks (callbackSessionId : String) (now : ℕ)
  | validateClaim (claim : DispatchInboxWakeClaim) (now : ℕ)
  | markDeliveryUncertain (claim : DispatchInboxWakeClaim) (now : ℕ)
  | releaseRejectedDelivery (claim : DispatchInboxWakeClaim)
  | markSubmitted (claim : DispatchInboxWakeClaim) (now : ℕ)
  | markSubmissionFailed (claim : DispatchInboxWakeClaim) (error : String) (now : ℕ)
  | retireForFreshHumanTrigger (sessionId triggerId : String)
      (snapshot : Option NotificationCutoff) (now : ℕ)
  | rebindSession (sourceSessionId targetSessionId : String) (now : ℕ)

/-- the store, and the claims that were handed out. -/
structure World where
  db : SessionDispatchStore := {}
  claims : List DispatchInboxWakeClaim := []

section Calls
variable (sha256 : String → String) (policy : WakePolicy) (owner : String → Option (Option String))

def Action.run (db : SessionDispatchStore) : Action → SessionDispatchStore
  | create id worker callback ownerNpub now => db.create id worker callback ownerNpub now
  | capture record status message createdAt now => db.capture sha256 record status message createdAt now
  | noteError id message failed now => db.noteError id message failed now
  | acknowledge id caller now => (db.acknowledge sha256 owner id caller now).2
  | close id caller now => (db.close sha256 owner id caller now).2
  | retryCallback id caller now => (db.retryCallback owner id caller now).2
  | claimForStableSession s now => (db.claimForStableSession sha256 policy s now).2
  | noteSessionBusy s now => db.noteSessionBusy s now
  | reconcileHandledCallbacks s now => db.reconcileHandledCallbacks sha256 s now
  | validateClaim claim now => (db.validateClaim sha256 claim now).2
  | markDeliveryUncertain claim now => (db.markDeliveryUncertain sha256 claim now).2
  | releaseRejectedDelivery claim => db.releaseRejectedDelivery claim
  | markSubmitted claim now => db.markSubmitted claim now
  | markSubmissionFailed claim error now => db.markSubmissionFailed policy claim error now
  | retireForFreshHumanTrigger s trigger snapshot now =>
    db.retireForFreshHumanTrigger s trigger snapshot now
  | rebindSession source target now => db.rebindSession source target now

/-- the claim that a call hands out. -/
def Action.claims (db : SessionDispatchStore) : Action → List DispatchInboxWakeClaim
  | claimForStableSession s now => (db.claimForStableSession sha256 policy s now).1.toList
  | _ => []

def World.after (w : World) (a : Action) : World where
  db := a.run sha256 policy owner w.db
  claims := w.claims ++ a.claims sha256 policy w.db

/-- a run in which every call is permitted. -/
def Run (P : World → Action → Prop) : World → World → Prop :=
  Relation.ReflTransGen fun w w' => ∃ a, P w a ∧ w.after sha256 policy owner a = w'

end Calls

/-- any call. -/
def Any (w : World) (a : Action) : Prop := True

/-! ## one call -/

/-- only dispatches are changed. -/
structure Redispatches (db db' : SessionDispatchStore) : Prop where
  wakes : db'.wakes = db.wakes
  cutoffs : db'.cutoffs = db.cutoffs

/-- the call resolves the wake `k` of `s` although its inbox may not be empty. -/
def Action.Resolves (s : String) (k : CallbackWakeRecord) : Action → Prop
  | .retireForFreshHumanTrigger sessionId _ snapshot _ => s = sessionId ∧ Captured snapshot k
  | _ => False

section Effects
variable (sha256 : String → String) (policy : WakePolicy) (owner : String → Option (Option String))

/-- What a call does to the wakes.  A wake is resolved for an empty inbox, or it was resolved; its
attempts start again or go on, and a claim carries them. -/
structure Effect (db : SessionDispatchStore) (a : Action) : Prop where
  keyed : Keyed (a.run sha256 policy owner db)
  resolved : ∀ s k', (a.run sha256 policy owner db).wakes s = some k' → k'.state = .resolved →
    (a.run sha256 policy owner db).getInboxFingerprint sha256 s = none ∨
    ∃ k, db.wakes s = some k ∧ k.inboxFingerprint = k'.inboxFingerprint ∧
      (k.state = .resolved ∨ a.Resolves s k)
  fence : ∀ s k', (a.run sha256 policy owner db).wakes s = some k' → 0 < k'.attemptCount →
    (∃ k, db.wakes s = some k ∧ k'.inboxFingerprint = k.inboxFingerprint ∧
      k'.attemptCount = k.attemptCount) ∨
    ∃ c ∈ a.claims sha256 policy db, c.callbackSessionId = s
  generation : ∀ s, db.generation s ≤ (a.run sha256 policy owner db).generation s
  claims : a.claims sha256 policy db = [] ∨ ∃ c, a.claims sha256 policy db = [c] ∧
    0 < c.attemptCount ∧ c.generation = db.generation c.callbackSessionId ∧
    ∃ k, (a.run sha256 policy owner db).wakes c.callbackSessionId = some k ∧
      k.inboxFingerprint = c.inboxFingerprint ∧ k.attemptCount = c.attemptCount

variable {sha256 policy owner} {db db' : SessionDispatchStore} {s : String} {a : Action}

theorem Redispatches.refl (db : SessionDispatchStore) : Redispatches db db := ⟨rfl, rfl⟩

theorem Redispatches.keyed (h : Redispatches db db') (hkey : Keyed db) : Keyed db' := by
  unfold Keyed
  rw [h.wakes]
  exact hkey

/-- dispatches are changed, and then the wake of a session. -/
theorem Effect.of_rewakes (hkey : Keyed db) (hd : Redispatches db db')
    (hre : Rewakes sha256 db' (a.run sha256 policy owner db) s)
    (hclaims : a.claims sha256 policy db = []) : Effect sha256 policy owner db a where
  keyed := hre.keyed (hd.keyed hkey)
  resolved s' k' hk' hr := by
    by_cases hs : s' = s
    · subst hs
      rcases hre.wake with he | ⟨x, hx, hf⟩
      · rw [he, hd.wakes] at hk'
        exact Or.inr ⟨k', hk', rfl, Or.inl hr⟩
      · obtain rfl : x = k' := Option.some.inj (hx.symm.trans hk')
        rw [fingerprint_congr sha256 hre.dispatches]
        exact Or.inl (hf.resolved hr)
    · rw [hre.other s' hs, hd.wakes] at hk'
      exact Or.inr ⟨k', hk', rfl, Or.inl hr⟩
  fence s' k' hk' hpos := by
    refine Or.inl ?_
    by_cases hs : s' = s
    · subst hs
      rcases hre.wake with he | ⟨x, hx, hf⟩
      · rw [he, hd.wakes] at hk'
        exact ⟨k', hk', rfl, rfl⟩
      · obtain rfl : x = k' := Option.some.inj (hx.symm.trans hk')
        rcases hf.fence with h0 | hk
        · omega
        · rwa [hd.wakes] at hk
    · rw [hre.other s' hs, hd.wakes] at hk'
      exact ⟨k', hk', rfl, rfl⟩
  generation s' := (generation_congr (hre.cutoffs.trans hd.cutoffs) s').ge
  claims := Or.inl hclaims

/-- only dispatches are changed. -/
theorem Effect.of_redispatches (hkey : Keyed db)
    (hd : Redispatches db (a.run sha256 policy owner db))
    (hclaims : a.claims sha256 policy db = []) : Effect sha256 policy owner db a :=
  .of_rewakes hkey hd (.refl _ "") hclaims

theorem update_redispatches (id : String) (patch : SessionDispatch → SessionDispatch) (now : ℕ) :
    Redispatches db (db.update id patch now).2 := by
  unfold SessionDispatchStore.update
  split
  · exact .refl db
  · exact ⟨rfl, rfl⟩

theorem create_redispatches (id worker : String) (callback ownerNpub : Option String) (now : ℕ) :
    Redispatches db (db.create id worker callback ownerNpub now) := by
  unfold create
  split
  · exact .refl db
  · exact ⟨rfl, rfl⟩

theorem capture_redispatches (record : SessionDispatch) (status : TerminalStatus)
    (message createdAt : Option String) (now : ℕ) :
    Redispatches db (db.capture sha256 record status message createdAt now) := by
  unfold capture
  dsimp only
  split
  · exact .refl db
  split
  · exact update_redispatches _ _ now
  · exact update_redispatches _ _ now

theorem retryCallback_redispatches (id caller : String) (now : ℕ) :
    Redispatches db (db.retryCallback owner id caller now).2 := by
  unfold retryCallback
  split
  · exact .refl db
  split
  · exact .refl db
  · exact update_redispatches _ _ now

/-- a dispatch is updated, and the wake is reconciled with the inbox. -/
theorem acknowledge_rewakes (hkey : Keyed db) (id caller : String) (now : ℕ) :
    ∃ db', Redispatches db db' ∧
      Rewakes sha256 db' (db.acknowledge sha256 owner id caller now).2 caller := by
  unfold acknowledge
  split
  · exact ⟨db, .refl db, .refl db caller⟩
  split
  · exact ⟨db, .refl db, .refl db caller⟩
  · refine ⟨_, ?_, reconcile_rewakes ?_⟩
    · exact update_redispatches id _ now
    · exact (update_redispatches id _ now).keyed hkey

theorem close_rewakes (hkey : Keyed db) (id caller : String) (now : ℕ) :
    ∃ db', Redispatches db db' ∧
      Rewakes sha256 db' (db.close sha256 owner id caller now).2 caller := by
  unfold close
  split
  · exact ⟨db, .refl db, .refl db caller⟩
  split
  · exact ⟨db, .refl db, .refl db caller⟩
  · refine ⟨_, ?_, reconcile_rewakes ?_⟩
    · exact update_redispatches id _ now
    · exact (update_redispatches id _ now).keyed hkey

theorem generation_append (rows : List Cutoff) (s : String) :
    db.generation s ≤ { db with cutoffs := db.cutoffs ++ rows }.generation s := by
  unfold generation maximum
  rw [List.filter_append, List.map_append, List.foldr_append]
  induction ((db.cutoffs.filter fun c => c.scope = "callbacks" ∧ c.sessionId = s).map
      (·.generation)) with
  | nil => exact Nat.zero_le _
  | cons n l ih => exact max_le_max le_rfl ih

theorem retire_effect (hkey : Keyed db) (sessionId triggerId : String)
    (snapshot : Option NotificationCutoff) (now : ℕ) :
    Effect sha256 policy owner db (.retireForFreshHumanTrigger sessionId triggerId snapshot now) := by
  have hw : ∀ s k', ((Action.retireForFreshHumanTrigger sessionId triggerId snapshot now).run sha256
      policy owner db).wakes s = some k' → db.wakes s = some k' ∨ ∃ k, db.wakes s = some k ∧
      k'.callbackSessionId = k.callbackSessionId ∧ k'.inboxFingerprint = k.inboxFingerprint ∧
      k'.attemptCount = k.attemptCount ∧ s = sessionId ∧ Captured snapshot k := by
    intro s k' hk'
    dsimp only [Action.run] at hk'
    unfold retireForFreshHumanTrigger at hk'
    split at hk'
    · exact Or.inl hk'
    by_cases hs : s = sessionId
    · subst hs
      obtain ⟨k, hk, rfl⟩ := Option.map_eq_some_iff.mp
        ((Function.update_self (β := fun _ => Option CallbackWakeRecord) ..).symm.trans hk')
      split
      · exact Or.inr ⟨k, hk, rfl, rfl, rfl, rfl, ‹_›⟩
      · exact Or.inl hk
    · exact Or.inl ((Function.update_of_ne hs ..).symm.trans hk')
  refine ⟨fun s k' hk' => ?_, fun s k' hk' hr => ?_, fun s k' hk' _ => ?_, fun s => ?_, Or.inl rfl⟩
  · rcases hw s k' hk' with h | ⟨k, hk, hs, -⟩
    · exact hkey s k' h
    · exact hs.trans (hkey s k hk)
  · rcases hw s k' hk' with h | ⟨k, hk, -, hfp, -, hs, hcap⟩
    · exact Or.inr ⟨k', h, rfl, Or.inl hr⟩
    · exact Or.inr ⟨k, hk, hfp.symm, Or.inr ⟨hs, hcap⟩⟩
  · rcases hw s k' hk' with h | ⟨k, hk, -, hfp, hat, -⟩
    · exact Or.inl ⟨k', h, rfl, rfl⟩
    · exact Or.inl ⟨k, hk, hfp, hat⟩
  · dsimp only [Action.run]
    unfold retireForFreshHumanTrigger
    split
    · exact le_rfl
    · exact generation_append _ s

theorem rebind_effect (hkey : Keyed db) (source target : String) (now : ℕ) :
    Effect sha256 policy owner db (.rebindSession source target now) := by
  have hcut : ((Action.rebindSession source target now).run sha256 policy owner db).cutoffs =
      db.cutoffs := by
    dsimp only [Action.run]
    unfold rebindSession
    split
    · rfl
    dsimp only
    split <;> rfl
  have hw : ∀ s k', ((Action.rebindSession source target now).run sha256 policy owner db).wakes s =
      some k' → db.wakes s = some k' ∨
      k'.callbackSessionId = s ∧ k'.state = .pending ∧ k'.attemptCount = 0 := by
    intro s k' hk'
    dsimp only [Action.run] at hk'
    unfold rebindSession at hk'
    split at hk'
    · exact Or.inl hk'
    dsimp only at hk'
    split at hk'
    · exact Or.inl hk'
    rename_i wake hwake
    by_cases hs : s = target
    · subst hs
      have hk := Option.some.inj
        ((Function.update_self (β := fun _ => Option CallbackWakeRecord) ..).symm.trans hk')
      cases ht : db.wakes s with
      | none =>
        rw [ht] at hk
        exact Or.inr (hk ▸ ⟨rfl, rfl, rfl⟩)
      | some x =>
        rw [ht] at hk
        exact Or.inl (congrArg some hk)
    · have hk := (Function.update_of_ne hs ..).symm.trans hk'
      by_cases hs' : s = source
      · subst hs'
        rw [Function.update_self] at hk
        cases hk
      · exact Or.inl ((Function.update_of_ne hs' ..).symm.trans hk)
  refine ⟨fun s k' hk' => ?_, fun s k' hk' hr => ?_, fun s k' hk' hpos => ?_,
    fun s => (generation_congr hcut s).ge, Or.inl rfl⟩
  · rcases hw s k' hk' with h | ⟨hs, -⟩
    · exact hkey s k' h
    · exact hs
  · rcases hw s k' hk' with h | ⟨-, hp, -⟩
    · exact Or.inr ⟨k', h, rfl, Or.inl hr⟩
    · rw [hp] at hr
      cases hr
  · rcases hw s k' hk' with h | ⟨-, -, h0⟩
    · exact Or.inl ⟨k', h, rfl, rfl⟩
    · omega

theorem claim_effect (hkey : Keyed db) (s : String) (now : ℕ) :
    Effect sha256 policy owner db (.claimForStableSession s now) := by
  have hcases : _ ∧ Rewakes sha256 db (db.claimForStableSession sha256 policy s now).2 s ∨ _ :=
    claimForStableSession_cases hkey
  rcases hcases with ⟨hnone, hre⟩ | ⟨fingerprint, claim, hfp, hclaim, hout⟩
  · refine .of_rewakes hkey (.refl db) hre ?_
    dsimp only [Action.claims]
    rw [hnone]
    rfl
  · have hlist : (Action.claimForStableSession s now).claims sha256 policy db = [claim] := by
      dsimp only [Action.claims]
      rw [hclaim]
      rfl
    obtain ⟨k, hk, hks, hstate, hkfp, hkat, -⟩ := hout.wake
    have hw : ∀ s' k', ((Action.claimForStableSession s now).run sha256 policy owner db).wakes s' =
        some k' → s' = s ∧ k' = k ∨ db.wakes s' = some k' := by
      intro s' k' hk'
      by_cases hs : s' = s
      · subst hs
        exact Or.inl ⟨rfl, Option.some.inj (hk'.symm.trans hk)⟩
      · exact Or.inr ((hout.other s' hs).symm.trans hk')
    refine ⟨fun s' k' hk' => ?_, fun s' k' hk' hr => ?_, fun s' k' hk' hpos => ?_,
      fun s' => (generation_congr hout.cutoffs s').ge, Or.inr ⟨claim, hlist, hout.attempt, ?_, k, ?_⟩⟩
    · rcases hw s' k' hk' with ⟨rfl, rfl⟩ | h
      · exact hks
      · exact hkey s' k' h
    · rcases hw s' k' hk' with ⟨rfl, rfl⟩ | h
      · rw [hstate] at hr
        cases hr
      · exact Or.inr ⟨k', h, rfl, Or.inl hr⟩
    · rcases hw s' k' hk' with ⟨rfl, rfl⟩ | h
      · exact Or.inr ⟨claim, hlist ▸ List.mem_singleton_self claim, hout.session⟩
      · exact Or.inl ⟨k', h, rfl, rfl⟩
    · rw [hout.session]
      exact hout.generation
    · rw [hout.session]
      exact ⟨hk, hkfp.trans hout.fingerprint.symm, hkat⟩

/-- **What any call does.** -/
theorem run_effect (hkey : Keyed db) (a : Action) : Effect sha256 policy owner db a := by
  cases a with
  | create id worker callback ownerNpub now =>
    exact .of_redispatches hkey (create_redispatches id worker callback ownerNpub now) rfl
  | capture record status message createdAt now =>
    exact .of_redispatches hkey (capture_redispatches record status message createdAt now) rfl
  | noteError id message failed now =>
    exact .of_redispatches hkey (update_redispatches id _ now) rfl
  | acknowledge id caller now =>
    obtain ⟨db', hd, hre⟩ := acknowledge_rewakes hkey id caller now
    exact .of_rewakes hkey hd hre rfl
  | close id caller now =>
    obtain ⟨db', hd, hre⟩ := close_rewakes hkey id caller now
    exact .of_rewakes hkey hd hre rfl
  | retryCallback id caller now =>
    exact .of_redispatches hkey (retryCallback_redispatches id caller now) rfl
  | claimForStableSession s now => exact claim_effect hkey s now
  | noteSessionBusy s now => exact .of_rewakes hkey (.refl db) (noteSessionBusy_rewakes hkey) rfl
  | reconcileHandledCallbacks s now => exact .of_rewakes hkey (.refl db) (reconcile_rewakes hkey) rfl
  | validateClaim claim now => exact .of_rewakes hkey (.refl db) (validateClaim_rewakes hkey) rfl
  | markDeliveryUncertain claim now =>
    exact .of_rewakes hkey (.refl db) (markDeliveryUncertain_rewakes hkey) rfl
  | releaseRejectedDelivery claim =>
    exact .of_rewakes hkey (.refl db) (release_rewakes hkey) rfl
  | markSubmitted claim now => exact .of_rewakes hkey (.refl db) (markSubmitted_rewakes hkey) rfl
  | markSubmissionFailed claim error now =>
    exact .of_rewakes hkey (.refl db) (markSubmissionFailed_rewakes hkey error) rfl
  | retireForFreshHumanTrigger s trigger snapshot now => exact retire_effect hkey s trigger snapshot now
  | rebindSession source target now => exact rebind_effect hkey source target now

end Effects

/-! ## no wake is lost -/

section Runs
variable (sha256 : String → String) (policy : WakePolicy) (owner : String → Option (Option String))

/-- The call leaves an inbox with the callbacks for which its wake was resolved, or is resolved by
the call. -/
def Action.Returns (w : World) (a : Action) : Prop :=
  ∃ s k, w.db.wakes s = some k ∧ (k.state = .resolved ∨ a.Resolves s k) ∧
    (a.run sha256 policy owner w.db).getInboxFingerprint sha256 s = some k.inboxFingerprint

variable {sha256 policy owner} {P : World → Action → Prop} {w w' : World} {s : String} {now : ℕ}

theorem keyed_run (h : Run sha256 policy owner P {} w) : Keyed w.db := by
  induction h with
  | refl => exact nofun
  | tail _ hstep ih =>
    obtain ⟨a, -, rfl⟩ := hstep
    exact (run_effect ih a).keyed

theorem not_stranded
    (h : Run sha256 policy owner (fun w a => ¬a.Returns sha256 policy owner w) {} w) (s : String) :
    ¬Stranded sha256 w.db s := by
  induction h with
  | refl => exact nofun
  | tail hsteps hstep ih =>
    obtain ⟨a, ha, rfl⟩ := hstep
    rintro ⟨k', hk', hr, hfp⟩
    rcases (run_effect (keyed_run hsteps) a).resolved s k' hk' hr with hnone | ⟨k, hk, he, hres⟩
    · exact absurd (hnone.symm.trans hfp) nofun
    · exact ha ⟨s, k, hk, hres, he ▸ hfp⟩

/-- **No lost wake.**  In every run in which no inbox returns to the callbacks for which its wake was
resolved, a due wake is handed out, and the claim covers the inbox. -/
theorem no_lost_wake
    (h : Run sha256 policy owner (fun w a => ¬a.Returns sha256 policy owner w) {} w)
    (hdue : Due sha256 policy w.db s now) :
    ∃ claim, (w.db.claimForStableSession sha256 policy s now).1 = some claim ∧
      Covers sha256 policy w.db s now claim := by
  have hkey := keyed_run h
  obtain ⟨claim, hclaim⟩ := (claimForStableSession_claims hkey hdue).mpr (not_stranded h s)
  refine ⟨claim, hclaim, ?_⟩
  have hcases : _ ∧ Rewakes sha256 w.db (w.db.claimForStableSession sha256 policy s now).2 s ∨ _ :=
    claimForStableSession_cases hkey
  rcases hcases with ⟨hnone, -⟩ | ⟨fingerprint, c, hfp, hc, hout⟩
  · rw [hclaim] at hnone
    cases hnone
  · obtain rfl : c = claim := Option.some.inj (hc.symm.trans hclaim)
    obtain ⟨k, hk, -, hstate, hkfp, hkat, hlease⟩ := hout.wake
    refine ⟨hout.session, hfp.trans (congrArg some hout.fingerprint.symm), k, hk, hstate,
      hkfp.trans hout.fingerprint.symm, hkat, hlease⟩

/-! ## superseded claims -/

/-- the two claims carry one fence. -/
def SameFence (c l : DispatchInboxWakeClaim) : Prop :=
  l.generation = c.generation ∧ l.inboxFingerprint = c.inboxFingerprint ∧
    l.attemptCount = c.attemptCount

/-- Nothing that is reported with the claim changes the store; to validate it reconciles the wake
with the inbox, as any caller may. -/
structure Inert (sha256 : String → String) (policy : WakePolicy) (db : SessionDispatchStore)
    (claim : DispatchInboxWakeClaim) : Prop where
  submitted : ∀ now, db.markSubmitted claim now = db
  released : db.releaseRejectedDelivery claim = db
  failed : ∀ error now, db.markSubmissionFailed policy claim error now = db
  validated : ∀ now, db.validateClaim sha256 claim now = (false, db) ∨
    db.validateClaim sha256 claim now =
      (false, db.reconcileHandledCallbacks sha256 claim.callbackSessionId now)
  uncertain : ∀ now, db.markDeliveryUncertain sha256 claim now =
    (.error "Wake claim changed before delivery", (db.validateClaim sha256 claim now).2)

/-- What a run keeps.  A wake with attempts carries the fence of the last claim of its session. -/
structure Inv (w : World) : Prop where
  keyed : Keyed w.db
  attempts : ∀ c ∈ w.claims, 0 < c.attemptCount ∧ c.generation ≤ w.db.generation c.callbackSessionId
  ordered : w.claims.Pairwise fun c l =>
    c.callbackSessionId = l.callbackSessionId → c.generation ≤ l.generation
  last : ∀ s k, w.db.wakes s = some k → 0 < k.attemptCount →
    ∃ c, (w.claims.filter (·.callbackSessionId = s)).getLast? = some c ∧
      c.inboxFingerprint = k.inboxFingerprint ∧ c.attemptCount = k.attemptCount

theorem Inv.empty : Inv {} :=
  ⟨nofun, fun c hc => absurd hc List.not_mem_nil, List.Pairwise.nil, nofun⟩

theorem Inv.after (hi : Inv w) (a : Action) : Inv (w.after sha256 policy owner a) := by
  have he : Effect sha256 policy owner w.db a := run_effect hi.keyed a
  have hgen : ∀ c ∈ w.claims, 0 < c.attemptCount ∧
      c.generation ≤ (a.run sha256 policy owner w.db).generation c.callbackSessionId :=
    fun c hc => ⟨(hi.attempts c hc).1, (hi.attempts c hc).2.trans (he.generation _)⟩
  rcases he.claims with hnil | ⟨c, hone, hpos, hcgen, k, hk, hfp, hat⟩
  · have hw : (w.after sha256 policy owner a).claims = w.claims := by
      simp [World.after, hnil]
    refine ⟨he.keyed, hw ▸ hgen, hw ▸ hi.ordered, fun s k' hk' hpos => ?_⟩
    rw [hw]
    rcases he.fence s k' hk' hpos with ⟨k, hk, hfp, hat⟩ | ⟨c, hc, -⟩
    · obtain ⟨c, hc, hcfp, hcat⟩ := hi.last s k hk (hat ▸ hpos)
      exact ⟨c, hc, hcfp.trans hfp.symm, hcat.trans hat.symm⟩
    · rw [hnil] at hc
      exact absurd hc List.not_mem_nil
  · have hw : (w.after sha256 policy owner a).claims = w.claims ++ [c] := congrArg _ hone
    refine ⟨he.keyed, ?_, ?_, fun s k' hk' hpos' => ?_⟩
    · rw [hw]
      intro x hx
      rcases List.mem_append.mp hx with hx | hx
      · exact hgen x hx
      · rw [List.mem_singleton.mp hx]
        exact ⟨hpos, hcgen.le.trans (he.generation _)⟩
    · rw [hw]
      refine List.pairwise_append.mpr ⟨hi.ordered, List.pairwise_singleton .., fun x hx y hy e => ?_⟩
      rw [List.mem_singleton.mp hy] at e ⊢
      rw [hcgen, ← e]
      exact (hi.attempts x hx).2
    · rw [hw, List.filter_append]
      by_cases hs : c.callbackSessionId = s
      · subst hs
        obtain rfl : k = k' := Option.some.inj (hk.symm.trans hk')
        exact ⟨c, by simp, hfp.symm, hat.symm⟩
      · have hskip : [c].filter (·.callbackSessionId = s) = [] := by simp [hs]
        rw [hskip, List.append_nil]
        rcases he.fence s k' hk' hpos' with ⟨x, hx, hxfp, hxat⟩ | ⟨x, hx, hxs⟩
        · obtain ⟨l, hl, hlfp, hlat⟩ := hi.last s x hx (hxat ▸ hpos')
          exact ⟨l, hl, hlfp.trans hxfp.symm, hlat.trans hxat.symm⟩
        · rw [hone] at hx
          exact absurd ((List.mem_singleton.mp hx) ▸ hxs) hs

theorem Inv.run (h : Run sha256 policy owner P {} w) : Inv w := by
  induction h with
  | refl => exact Inv.empty
  | tail _ hstep ih =>
    obtain ⟨a, -, rfl⟩ := hstep
    exact ih.after a

/-- the wake of the session does not carry the fence of the claim. -/
def Mismatch (db : SessionDispatchStore) (claim : DispatchInboxWakeClaim) : Prop :=
  claim.generation = db.generation claim.callbackSessionId →
    ∀ k, db.wakes claim.callbackSessionId = some k →
      ¬(k.inboxFingerprint = claim.inboxFingerprint ∧ k.attemptCount = claim.attemptCount)

theorem Mismatch.fenced {db : SessionDispatchStore} {claim : DispatchInboxWakeClaim}
    (h : Mismatch db claim) (states : List CallbackWakeState) : db.fenced claim states = none := by
  cases e : db.fenced claim states with
  | none => rfl
  | some k =>
    obtain ⟨hgen, hk, -, hfp, hat⟩ := fenced_some e
    exact absurd ⟨hfp, hat⟩ (h hgen k hk)

theorem Mismatch.rewakes {db db' : SessionDispatchStore} {claim : DispatchInboxWakeClaim}
    (h : Mismatch db claim) (hpos : 0 < claim.attemptCount)
    (hre : Rewakes sha256 db db' claim.callbackSessionId) : Mismatch db' claim := by
  intro hgen k' hk' ⟨hfp, hat⟩
  rw [generation_congr hre.cutoffs] at hgen
  rcases hre.wake with he | ⟨x, hx, hf⟩
  · exact h hgen k' (he ▸ hk') ⟨hfp, hat⟩
  · obtain rfl : x = k' := Option.some.inj (hx.symm.trans hk')
    rcases hf.fence with h0 | ⟨k, hk, hkfp, hkat⟩
    · omega
    · exact h hgen k hk ⟨hkfp.symm.trans hfp, hkat.symm.trans hat⟩

theorem Mismatch.inert {db : SessionDispatchStore} {claim : DispatchInboxWakeClaim}
    (h : Mismatch db claim) (hkey : Keyed db) (hpos : 0 < claim.attemptCount) :
    Inert sha256 policy db claim := by
  have hv : ∀ now, db.validateClaim sha256 claim now = (false, db) ∨
      db.validateClaim sha256 claim now =
        (false, db.reconcileHandledCallbacks sha256 claim.callbackSessionId now) := by
    intro now
    unfold validateClaim
    split
    · exact Or.inl rfl
    · have hm : Mismatch (db.reconcileHandledCallbacks sha256 claim.callbackSessionId now) claim :=
        h.rewakes hpos (reconcile_rewakes hkey)
      dsimp only
      rw [hm.fenced]
      exact Or.inr rfl
  refine ⟨fun now => ?_, ?_, fun error now => ?_, hv, fun now => ?_⟩
  · rw [markSubmitted, h.fenced]
  · rw [releaseRejectedDelivery, h.fenced]
  · rw [markSubmissionFailed, h.fenced]
  · unfold markDeliveryUncertain
    rcases hv now with e | e <;> rw [e]

/-- **Superseded claims are inert.**  A claim after which another was handed out for its session
changes nothing any more, if no later claim of the session carries its fence. -/
theorem superseded_inert (h : Run sha256 policy owner P {} w)
    {earlier later : List DispatchInboxWakeClaim} {c : DispatchInboxWakeClaim}
    (hclaims : w.claims = earlier ++ c :: later)
    (hsuperseded : ∃ l ∈ later, l.callbackSessionId = c.callbackSessionId)
    (hfence : ∀ l ∈ later, l.callbackSessionId = c.callbackSessionId → ¬SameFence c l) :
    Inert sha256 policy w.db c := by
  have hi := Inv.run h
  have hc : c ∈ w.claims := hclaims ▸ List.mem_append_right _ List.mem_cons_self
  obtain ⟨hpos, -⟩ := hi.attempts c hc
  refine Mismatch.inert (fun hgen k hk ⟨hfp, hat⟩ => ?_) hi.keyed hpos
  obtain ⟨l, hl, hlfp, hlat⟩ := hi.last _ k hk (hat ▸ hpos)
  -- the last claim of the session is one of the later ones
  have hmem : l ∈ later ∧ l.callbackSessionId = c.callbackSessionId := by
    obtain ⟨x, hx, hxs⟩ := hsuperseded
    rw [hclaims, List.filter_append, List.filter_cons_of_pos (by simp)] at hl
    have hne : later.filter (·.callbackSessionId = c.callbackSessionId) ≠ [] :=
      List.ne_nil_of_mem (List.mem_filter.mpr ⟨hx, by simpa using hxs⟩)
    rw [List.getLast?_append_of_ne_nil _ (List.cons_ne_nil _ _), List.getLast?_cons,
      List.getLast?_eq_some_getLast hne] at hl
    have hin := List.getLast_mem hne
    rw [Option.getD_some] at hl
    obtain rfl := Option.some.inj hl
    simpa using hin
  refine hfence l hmem.1 hmem.2 ⟨?_, hlfp.trans hfp, hlat.trans hat⟩
  have hge : c.generation ≤ l.generation := by
    have hp := (List.pairwise_append.mp (hclaims ▸ hi.ordered)).2.1
    exact List.rel_of_pairwise_cons hp hmem.1 hmem.2.symm
  have hle : l.generation ≤ w.db.generation l.callbackSessionId :=
    (hi.attempts l (hclaims ▸ List.mem_append_right _ (List.mem_cons_of_mem _ hmem.1))).2
  rw [hmem.2, ← hgen] at hle
  exact le_antisymm hle hge

end Runs

/-! ## some runs -/

/-- calls in any order are a run. -/
theorem run_foldl {sha256 : String → String} {policy : WakePolicy}
    {owner : String → Option (Option String)} {w : World} (calls : List Action) :
    Run sha256 policy owner Any w (calls.foldl (fun w a => w.after sha256 policy owner a) w) := by
  induction calls generalizing w with
  | nil => exact .refl
  | cons a l ih => exact .head ⟨a, trivial, rfl⟩ ih

/-- the store after some calls, where texts are their own hashes and no session has an owner. -/
def afterCalls (calls : List Action) : World :=
  calls.foldl (fun w a => w.after id {} (fun _ => some none) a) {}

/-- a worker of the session `supervisor` ends its turn. -/
def arrives (id message : String) : List Action :=
  [.create id "worker" (some "supervisor") none 0,
  .capture ⟨0, id, "worker", some "supervisor", none, .running, none, none, none, none, none, 0, none,
    none, none, none, none, none, 0, 0⟩ .completed (some message) (some "now") 1]

theorem no_lost_wake_first :
    ∃ claim, ((afterCalls (arrives "d1" "Done")).db.claimForStableSession id {} "supervisor" 2).1 =
      some claim ∧ Covers id {} (afterCalls (arrives "d1" "Done")).db "supervisor" 2 claim := by
  have hfirst : Run id {} (fun _ => some none) (fun w a => ¬a.Returns id {} (fun _ => some none) w) {}
      (afterCalls (arrives "d1" "Done")) := by
    refine .tail (.single ⟨_, ?_, rfl⟩) ⟨_, ?_, rfl⟩
    · rintro ⟨s, k, hk, -⟩
      cases hk
    · rintro ⟨s, k, hk, -⟩
      cases hk
  refine no_lost_wake hfirst ⟨"d1:completed\x00now\x00Done", by decide +kernel, fun k hk => ?_⟩
  cases hk

/-- the claim for the callback of `d1`. -/
def firstClaim : DispatchInboxWakeClaim :=
  { generation := 0, callbackSessionId := "supervisor"
    inboxFingerprint := "d1:completed\x00now\x00Done", attemptCount := 1 }

/-- The callback of `d1` is reviewed and acknowledged, which resolves the wake; then it is retried. -/
def lostWake : World :=
  afterCalls (arrives "d1" "Done" ++ [.claimForStableSession "supervisor" 2,
    .markDeliveryUncertain firstClaim 3, .markSubmitted firstClaim 4,
    .noteSessionBusy "supervisor" 5, .acknowledge "d1" "supervisor" 6,
    .retryCallback "d1" "supervisor" 7])

theorem no_lost_wake_fails :
    ¬∀ w, Run id {} (fun _ => some none) Any {} w → ∀ s now, Due id {} w.db s now →
      ∃ claim, (w.db.claimForStableSession id {} s now).1 = some claim ∧
        Covers id {} w.db s now claim := by
  intro hall
  have hwait : (lostWake.db.wakes "supervisor").all (fun k => decide
      ¬Waiting (settledWake {} k "d1:completed\x00now\x00Done" 100000000)
        "d1:completed\x00now\x00Done" 100000000) = true := by decide +kernel
  have hdue : Due id {} lostWake.db "supervisor" 100000000 := by
    refine ⟨"d1:completed\x00now\x00Done", by decide +kernel, fun k hk => ?_⟩
    rw [hk] at hwait
    exact of_decide_eq_true hwait
  obtain ⟨claim, hclaim, -⟩ := hall lostWake (run_foldl _) "supervisor" 100000000 hdue
  have hnone : (lostWake.db.claimForStableSession id {} "supervisor" 100000000).1 = none := by
    decide +kernel
  rw [hnone] at hclaim
  cases hclaim

/-- The wake of the callback is claimed twice: the first lease expires. -/
def leaseExpires : World :=
  afterCalls (arrives "d1" "Done" ++ [.claimForStableSession "supervisor" 2,
    .claimForStableSession "supervisor" 400000, .claimForStableSession "supervisor" 500000])

theorem superseded_inert_expired : Inert id {} leaseExpires.db firstClaim := by
  have hrun : Run id {} (fun _ => some none) Any {} leaseExpires := run_foldl _
  have hclaims : leaseExpires.claims = [] ++ firstClaim :: [{ firstClaim with attemptCount := 2 }] := by
    decide +kernel
  refine superseded_inert hrun hclaims ⟨_, List.mem_singleton_self _, rfl⟩ fun l hl _ hsame => ?_
  rw [List.mem_singleton.mp hl] at hsame
  exact absurd hsame.2.2 (by decide)

/-- A second callback arrives and is acknowledged: the inbox is again the one of the first claim, and
its wake is claimed again, for the first time. -/
def returned : World :=
  afterCalls (arrives "d1" "Done" ++ [.claimForStableSession "supervisor" 2] ++
    arrives "d2" "Done" ++ [.reconcileHandledCallbacks "supervisor" 3,
    .claimForStableSession "supervisor" 4, .acknowledge "d2" "supervisor" 5,
    .claimForStableSession "supervisor" 6])

theorem superseded_inert_fails :
    ¬∀ w, Run id {} (fun _ => some none) Any {} w →
      ∀ earlier c later, w.claims = earlier ++ c :: later →
        (∃ l ∈ later, l.callbackSessionId = c.callbackSessionId) → Inert id {} w.db c := by
  intro hall
  have hclaims : returned.claims = [] ++ firstClaim ::
      [{ firstClaim with
          inboxFingerprint := "d1:completed\x00now\x00Done\nd2:completed\x00now\x00Done" },
        firstClaim] := by decide +kernel
  have hinert : Inert id {} returned.db firstClaim :=
    hall returned (run_foldl _) _ _ _ hclaims ⟨_, List.mem_cons_self, rfl⟩
  have hstate : ((returned.db.markSubmitted firstClaim 7).wakes "supervisor").map (·.state) ≠
      (returned.db.wakes "supervisor").map (·.state) := by decide +kernel
  rw [hinert.submitted] at hstate
  exact hstate rfl

end SessionDispatches
end WmAutopilot
