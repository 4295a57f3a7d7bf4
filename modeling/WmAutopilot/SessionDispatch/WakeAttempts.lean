import WmAutopilot.SessionDispatch.WakeRuns

/-!
# The attempts on one inbox

While the inbox of a session stays as it is, its wake is claimed a limited number of times.

* `Moves`            what happens to the attempts on one inbox, and the attempts that are handed out;
* `Moves.few`, `Moves.increasing`, `Moves.spent`   they are limited, they are numbered, and the last
                     one is the last;
* `run_moves`        **every call moves the wake of a session so**;
* `Undisturbed`      the calls that leave the inbox as it is;
* `BoundedWakes`     what is expected of a run of such calls;
* `bounded_wake_attempts`   **they keep to the limit**;
* `blocked_fails`    a late report of the last claim, where the wake does not stay blocked.
-/

set_option autoImplicit false
set_option linter.unusedVariables false

namespace WmAutopilot
namespace SessionDispatches
open Sql SessionDispatchStore

/-! ## the attempts on an inbox -/

/-- the state of a wake and its attempts, as far as they are for an inbox. -/
def viewOf (fingerprint : String) : Option CallbackWakeRecord → Option (CallbackWakeState × ℕ)
  | none => none
  | some k => if k.inboxFingerprint = fingerprint then some (k.state, k.attemptCount) else none

/-- a claim is with a worker, or it may have been delivered. -/
def CallbackWakeState.Out (state : CallbackWakeState) : Prop :=
  state = .claimed ∨ state = .submitted ∨ state = .blocked

/-- What happens to the attempts on an inbox, and the attempts that are handed out; how the delivery
of a claim went may be reported late. -/
inductive Moves (limit : ℕ) (late : Prop) :
    Option (CallbackWakeState × ℕ) → List ℕ → Option (CallbackWakeState × ℕ) → Prop where
  | stay (view : Option (CallbackWakeState × ℕ)) : Moves limit late view [] view
  | start : Moves limit late none [] (some (.pending, 0))
  | fail {state : CallbackWakeState} (n : ℕ) (h : state = .claimed ∨ state = .submitted) :
    Moves limit late (some (state, n)) [] (some (if limit ≤ n then .blocked else .pending, n))
  | uncertain (n : ℕ) : Moves limit late (some (.claimed, n)) [] (some (.blocked, n))
  | release (n : ℕ) (hlate : late) : Moves limit late (some (.blocked, n)) [] (some (.claimed, n))
  | submit {state : CallbackWakeState} (n : ℕ) (h : state = .claimed ∨ state = .blocked ∧ late) :
    Moves limit late (some (state, n)) [] (some (.submitted, n))
  | claim (n : ℕ) : Moves limit late (some (.pending, n)) [n + 1] (some (.claimed, n + 1))
  | trans {view view' view'' : Option (CallbackWakeState × ℕ)} {out out' : List ℕ}
      (h : Moves limit late view out view') (h' : Moves limit late view' out' view'') :
    Moves limit late view (out ++ out') view''

/-- the attempts that may still be handed out. -/
def remaining (limit : ℕ) : Option (CallbackWakeState × ℕ) → ℕ
  | none => limit
  | some (.pending, n) => max 1 (limit - n)
  | some (_, n) => limit - n

def countOf : Option (CallbackWakeState × ℕ) → ℕ
  | none => 0
  | some (_, n) => n

section
variable {limit : ℕ} {late : Prop} {view view' : Option (CallbackWakeState × ℕ)} {out : List ℕ}

theorem remaining_le (hpos : 0 < limit) : remaining limit view ≤ limit := by
  rcases view with _ | ⟨state, n⟩
  · exact le_refl limit
  · cases state with
    | pending =>
      show max 1 (limit - n) ≤ limit
      omega
    | claimed => exact Nat.sub_le limit n
    | submitted => exact Nat.sub_le limit n
    | blocked => exact Nat.sub_le limit n
    | resolved => exact Nat.sub_le limit n

/-- **An attempt is taken from those that remain.** -/
theorem Moves.few (hpos : 0 < limit) (h : Moves limit late view out view') :
    out.length + remaining limit view' ≤ remaining limit view := by
  induction h with
  | stay view => exact (Nat.zero_add _).le
  | start =>
    show 0 + max 1 (limit - 0) ≤ limit
    omega
  | @fail state n hstate =>
    have hbefore : remaining limit (some (state, n)) = limit - n := by
      rcases hstate with rfl | rfl <;> rfl
    rw [hbefore]
    split
    · exact (Nat.zero_add _).le
    · show 0 + max 1 (limit - n) ≤ limit - n
      omega
  | uncertain n => exact (Nat.zero_add _).le
  | release n hlate => exact (Nat.zero_add _).le
  | @submit state n hstate =>
    have hbefore : remaining limit (some (state, n)) = limit - n := by
      rcases hstate with rfl | ⟨rfl, -⟩ <;> rfl
    rw [hbefore]
    exact (Nat.zero_add _).le
  | claim n =>
    show 1 + (limit - (n + 1)) ≤ max 1 (limit - n)
    omega
  | trans _ _ ih ih' =>
    rw [List.length_append]
    omega

/-- **The attempts are numbered in their order.** -/
theorem Moves.increasing (h : Moves limit late view out view') :
    countOf view ≤ countOf view' ∧ (∀ n ∈ out, countOf view < n ∧ n ≤ countOf view') ∧
      out.Pairwise (· < ·) := by
  induction h with
  | stay view => exact ⟨le_refl _, fun n hn => absurd hn List.not_mem_nil, .nil⟩
  | start => exact ⟨le_refl _, fun n hn => absurd hn List.not_mem_nil, .nil⟩
  | fail n hstate => exact ⟨le_refl _, fun n hn => absurd hn List.not_mem_nil, .nil⟩
  | uncertain n => exact ⟨le_refl _, fun n hn => absurd hn List.not_mem_nil, .nil⟩
  | release n hlate => exact ⟨le_refl _, fun n hn => absurd hn List.not_mem_nil, .nil⟩
  | submit n hstate => exact ⟨le_refl _, fun n hn => absurd hn List.not_mem_nil, .nil⟩
  | claim n =>
    refine ⟨Nat.le_succ n, fun m hm => ?_, List.pairwise_singleton ..⟩
    rw [List.mem_singleton.mp hm]
    exact ⟨Nat.lt_succ_self n, le_refl _⟩
  | trans _ _ ih ih' =>
    obtain ⟨hle, hbounds, hsorted⟩ := ih
    obtain ⟨hle', hbounds', hsorted'⟩ := ih'
    refine ⟨hle.trans hle', fun n hn => ?_, ?_⟩
    · rcases List.mem_append.mp hn with hn | hn
      · exact ⟨(hbounds n hn).1, (hbounds n hn).2.trans hle'⟩
      · exact ⟨hle.trans_lt (hbounds' n hn).1, (hbounds' n hn).2⟩
    · refine List.pairwise_append.mpr ⟨hsorted, hsorted', fun n hn m hm => ?_⟩
      exact (hbounds n hn).2.trans_lt (hbounds' m hm).1

theorem Moves.mono {late' : Prop} (hlate : late → late') (h : Moves limit late view out view') :
    Moves limit late' view out view' := by
  induction h with
  | stay view => exact .stay view
  | start => exact .start
  | fail n hstate => exact .fail n hstate
  | uncertain n => exact .uncertain n
  | release n h => exact .release n (hlate h)
  | submit n hstate => exact .submit n (hstate.imp_right fun h => ⟨h.1, hlate h.2⟩)
  | claim n => exact .claim n
  | trans _ _ ih ih' => exact .trans ih ih'

/-- **Only a late report moves a blocked wake.** -/
theorem Moves.blocked (h : Moves limit late view out view') (hlate : ¬late) {n : ℕ}
    (hview : view = some (.blocked, n)) : out = [] ∧ view' = some (.blocked, n) := by
  induction h with
  | stay view => exact ⟨rfl, hview⟩
  | start => cases hview
  | fail m hstate =>
    obtain ⟨rfl, rfl⟩ := Prod.mk.inj (Option.some.inj hview)
    exact absurd hstate (by rintro (h | h) <;> cases h)
  | uncertain m => cases hview
  | release m h => exact absurd h hlate
  | submit m hstate =>
    obtain ⟨rfl, rfl⟩ := Prod.mk.inj (Option.some.inj hview)
    rcases hstate with h | h
    · cases h
    · exact absurd h.2 hlate
  | claim m => cases hview
  | trans _ _ ih ih' =>
    obtain ⟨rfl, hview'⟩ := ih hview
    obtain ⟨rfl, hend⟩ := ih' hview'
    exact ⟨rfl, hend⟩

/-- **After the last attempt there is no other.** -/
theorem Moves.spent (h : Moves limit late view out view') {state : CallbackWakeState} {n : ℕ}
    (hview : view = some (state, n)) (hlast : limit ≤ n) (hout : state.Out) :
    out = [] ∧ ∃ state' : CallbackWakeState, state'.Out ∧ view' = some (state', n) := by
  induction h generalizing state with
  | stay view => exact ⟨rfl, state, hout, hview⟩
  | start => cases hview
  | fail m hstate =>
    obtain ⟨rfl, rfl⟩ := Prod.mk.inj (Option.some.inj hview)
    rw [if_pos hlast]
    exact ⟨rfl, .blocked, .inr (.inr rfl), rfl⟩
  | uncertain m =>
    obtain ⟨rfl, rfl⟩ := Prod.mk.inj (Option.some.inj hview)
    exact ⟨rfl, .blocked, .inr (.inr rfl), rfl⟩
  | release m hlate =>
    obtain ⟨rfl, rfl⟩ := Prod.mk.inj (Option.some.inj hview)
    exact ⟨rfl, .claimed, .inl rfl, rfl⟩
  | submit m hstate =>
    obtain ⟨rfl, rfl⟩ := Prod.mk.inj (Option.some.inj hview)
    exact ⟨rfl, .submitted, .inr (.inl rfl), rfl⟩
  | claim m =>
    obtain ⟨rfl, rfl⟩ := Prod.mk.inj (Option.some.inj hview)
    exact absurd hout (by rintro (h | h | h) <;> cases h)
  | trans _ _ ih ih' =>
    obtain ⟨rfl, state', hout', hview'⟩ := ih hview hout
    obtain ⟨rfl, hend⟩ := ih' hview' hout'
    exact ⟨rfl, hend⟩

end

/-! ## the calls -/

section Calls
variable {sha256 : String → String} {policy : WakePolicy} {db db' : SessionDispatchStore}
  {s fingerprint : String} {k k' : CallbackWakeRecord} {now lease limit : ℕ} {late : Prop}
  {claim : DispatchInboxWakeClaim}

/-- nothing is handed out, and then something may be. -/
theorem Moves.andThen {view view' view'' : Option (CallbackWakeState × ℕ)} {out : List ℕ}
    (h : Moves limit late view [] view') (h' : Moves limit late view' out view'') :
    Moves limit late view out view'' := h.trans h'

/-- the claim is for the attempt of the wake. -/
def SameAttempt (claim : DispatchInboxWakeClaim) (k : CallbackWakeRecord) : Prop :=
  k.inboxFingerprint = claim.inboxFingerprint ∧ k.attemptCount = claim.attemptCount

theorem viewOf_self (h : k.inboxFingerprint = fingerprint) :
    viewOf fingerprint (some k) = some (k.state, k.attemptCount) := if_pos h

theorem viewOf_ne (h : k.inboxFingerprint ≠ fingerprint) : viewOf fingerprint (some k) = none :=
  if_neg h

theorem viewOf_saveWake (h : k.callbackSessionId = s) :
    viewOf fingerprint ((db.saveWake k).wakes s) = viewOf fingerprint (some k) := by
  obtain ⟨t, ht⟩ := saveWake_self db h
  rw [ht]
  rfl

/-- a wake is saved for the inbox that it was for. -/
theorem Moves.save (hk : db.wakes s = some k) (hs : k'.callbackSessionId = s)
    (hfp : k'.inboxFingerprint = k.inboxFingerprint)
    (h : Moves limit late (some (k.state, k.attemptCount)) [] (some (k'.state, k'.attemptCount))) :
    Moves limit late (viewOf fingerprint (db.wakes s)) []
      (viewOf fingerprint ((db.saveWake k').wakes s)) := by
  rw [viewOf_saveWake hs, hk]
  by_cases hf : k.inboxFingerprint = fingerprint
  · rw [viewOf_self hf, viewOf_self (hfp.trans hf)]
    exact h
  · rw [viewOf_ne hf, viewOf_ne (hfp ▸ hf)]
    exact .stay none

/-- a wake starts again for the inbox, when there is none or it was for another. -/
theorem Moves.restart (hold : viewOf fingerprint (db.wakes s) = none) (hs : k'.callbackSessionId = s)
    (hfp : k'.inboxFingerprint = fingerprint) (hstate : k'.state = .pending)
    (hcount : k'.attemptCount = 0) :
    Moves limit late (viewOf fingerprint (db.wakes s)) []
      (viewOf fingerprint ((db.saveWake k').wakes s)) := by
  rw [viewOf_saveWake hs, hold, viewOf_self hfp, hstate, hcount]
  exact .start

theorem noteSessionBusy_moves (hkey : Keyed db) :
    Moves limit late (viewOf fingerprint (db.wakes s)) []
      (viewOf fingerprint ((db.noteSessionBusy s now).wakes s)) := by
  unfold noteSessionBusy getWake
  cases hk : db.wakes s with
  | none =>
    dsimp only
    rw [hk]
    exact .stay none
  | some wake =>
    dsimp only
    rw [← hk]
    split
    · exact .stay _
    · refine Moves.save hk ?_ rfl (.stay _)
      exact hkey s wake hk

theorem reconcile_moves (hkey : Keyed db)
    (hinbox : db.getInboxFingerprint sha256 s = some fingerprint) :
    Moves limit late (viewOf fingerprint (db.wakes s)) []
      (viewOf fingerprint ((db.reconcileHandledCallbacks sha256 s now).wakes s)) := by
  unfold reconcileHandledCallbacks getWake
  rw [hinbox]
  cases hk : db.wakes s with
  | none =>
    dsimp only
    rw [hk]
    exact .stay none
  | some wake =>
    dsimp only
    rw [← hk]
    split
    · exact .stay _
    · next hne =>
      have hold : viewOf fingerprint (db.wakes s) = none := by
        rw [hk]
        exact viewOf_ne fun h => hne h.symm
      refine Moves.restart hold ?_ rfl rfl rfl
      exact hkey s wake hk

theorem validateClaim_moves (hkey : Keyed db) (hs : claim.callbackSessionId = s)
    (hinbox : db.getInboxFingerprint sha256 s = some fingerprint) :
    Moves limit late (viewOf fingerprint (db.wakes s)) []
      (viewOf fingerprint ((db.validateClaim sha256 claim now).2.wakes s)) := by
  subst hs
  unfold validateClaim
  split
  · exact .stay _
  · exact reconcile_moves hkey hinbox

/-- a claim that is valid stands in the wake. -/
theorem validateClaim_true {db' : SessionDispatchStore}
    (h : db.validateClaim sha256 claim now = (true, db')) :
    ∃ wake, db'.wakes claim.callbackSessionId = some wake ∧ wake.state = .claimed := by
  unfold validateClaim at h
  split at h
  · cases h
  · obtain ⟨hvalid, rfl⟩ := Prod.mk.inj h
    obtain ⟨wake, hwake, -⟩ := Option.any_eq_true _ _ |>.mp hvalid
    obtain ⟨-, hk, hstate, -⟩ := fenced_some hwake
    exact ⟨wake, hk, List.mem_singleton.mp hstate⟩

theorem markDeliveryUncertain_moves (hkey : Keyed db) (hs : claim.callbackSessionId = s)
    (hinbox : db.getInboxFingerprint sha256 s = some fingerprint) :
    Moves limit late (viewOf fingerprint (db.wakes s)) []
      (viewOf fingerprint ((db.markDeliveryUncertain sha256 claim now).2.wakes s)) := by
  have hvalidate : Moves limit late (viewOf fingerprint (db.wakes s)) []
      (viewOf fingerprint ((db.validateClaim sha256 claim now).2.wakes s)) :=
    validateClaim_moves hkey hs hinbox
  have hre : Rewakes sha256 db (db.validateClaim sha256 claim now).2 claim.callbackSessionId :=
    validateClaim_rewakes hkey
  subst hs
  unfold markDeliveryUncertain getWake
  split
  · next db' heq =>
    rw [heq] at hvalidate
    exact hvalidate
  · next db' heq =>
    obtain ⟨wake, hwake, hstate⟩ := validateClaim_true heq
    rw [heq] at hvalidate hre
    rw [hwake]
    refine hvalidate.andThen (Moves.save hwake ?_ rfl ?_)
    · exact hre.keyed hkey _ wake hwake
    · rw [hstate]
      exact .uncertain wake.attemptCount

theorem release_moves (hkey : Keyed db) (hs : claim.callbackSessionId = s)
    (hlate : ∀ k, db.wakes s = some k → SameAttempt claim k → late) :
    Moves limit late (viewOf fingerprint (db.wakes s)) []
      (viewOf fingerprint ((db.releaseRejectedDelivery claim).wakes s)) := by
  subst hs
  unfold releaseRejectedDelivery
  split
  · exact .stay _
  · next wake hwake =>
    obtain ⟨-, hk, hstate, hfence⟩ := fenced_some hwake
    refine Moves.save hk (hkey _ wake hk) rfl ?_
    rw [List.mem_singleton.mp hstate]
    exact .release wake.attemptCount (hlate wake hk hfence)

theorem markSubmitted_moves (hkey : Keyed db) (hs : claim.callbackSessionId = s)
    (hlate : ∀ k, db.wakes s = some k → SameAttempt claim k → late) :
    Moves limit late (viewOf fingerprint (db.wakes s)) []
      (viewOf fingerprint ((db.markSubmitted claim now).wakes s)) := by
  subst hs
  unfold markSubmitted
  split
  · exact .stay _
  · next wake hwake =>
    obtain ⟨-, hk, hstate, hfence⟩ := fenced_some hwake
    refine Moves.save hk (hkey _ wake hk) rfl (.submit wake.attemptCount ?_)
    refine (List.mem_cons.mp hstate).imp_right fun h => ⟨List.mem_singleton.mp h, ?_⟩
    exact hlate wake hk hfence

/-- an attempt that fails keeps its inbox and its number. -/
theorem failedAttempt_moves (policy : WakePolicy) (k : CallbackWakeRecord) (error : String)
    (now : ℕ) :
    (failedAttempt policy k error now).callbackSessionId = k.callbackSessionId ∧
    (failedAttempt policy k error now).inboxFingerprint = k.inboxFingerprint ∧
    (failedAttempt policy k error now).attemptCount = k.attemptCount ∧
    (failedAttempt policy k error now).state =
      if policy.maxAttempts ≤ k.attemptCount then .blocked else .pending := by
  unfold failedAttempt
  split <;> exact ⟨rfl, rfl, rfl, rfl⟩

theorem markSubmissionFailed_moves (hkey : Keyed db) (hs : claim.callbackSessionId = s)
    (error : String) :
    Moves policy.maxAttempts late (viewOf fingerprint (db.wakes s)) []
      (viewOf fingerprint ((db.markSubmissionFailed policy claim error now).wakes s)) := by
  subst hs
  unfold markSubmissionFailed
  split
  · exact .stay _
  · next wake hwake =>
    obtain ⟨-, hk, hstate, -⟩ := fenced_some hwake
    obtain ⟨hsession, hfp, hcount, hfailed⟩ := failedAttempt_moves policy wake error now
    refine Moves.save hk (hsession.trans (hkey _ wake hk)) hfp ?_
    rw [hcount, hfailed]
    exact .fail wake.attemptCount (.inl (List.mem_singleton.mp hstate))

/-- what is settled before a claim: a failed attempt, an ended turn, or a new inbox. -/
theorem settledWake_moves (hk : db.wakes s = some k) :
    Moves policy.maxAttempts late (viewOf fingerprint (some k)) []
      (viewOf fingerprint (some (settledWake policy k fingerprint now))) := by
  have hfail : ∀ k' : CallbackWakeRecord, k'.inboxFingerprint = k.inboxFingerprint →
      k'.attemptCount = k.attemptCount →
      k'.state = (if policy.maxAttempts ≤ k.attemptCount then .blocked else .pending) →
      k.state = .claimed ∨ k.state = .submitted →
      Moves policy.maxAttempts late (viewOf fingerprint (some k)) [] (viewOf fingerprint (some k')) := by
    intro k' hfp hcount hstate hout
    by_cases hf : k.inboxFingerprint = fingerprint
    · rw [viewOf_self hf, viewOf_self (hfp.trans hf), hcount, hstate]
      exact .fail k.attemptCount hout
    · rw [viewOf_ne hf, viewOf_ne (hfp ▸ hf)]
      exact .stay none
  unfold settledWake
  split
  · next hclaimed =>
    obtain ⟨-, hfp, hcount, hstate⟩ := failedAttempt_moves policy k
      "Wake claim lease expired before submission" now
    exact hfail _ hfp hcount hstate (.inl hclaimed.1)
  split
  · next hsubmitted =>
    unfold completedTurn
    split
    · next hne =>
      rw [viewOf_ne hne, viewOf_self (by rfl)]
      exact .start
    split
    · next hlast => exact hfail _ rfl rfl (if_pos hlast).symm (.inr hsubmitted.1)
    · next hmore => exact hfail _ rfl rfl (if_neg hmore).symm (.inr hsubmitted.1)
  · exact .stay _

/-- the wake that `claimWake` looks at. -/
theorem resetWake_moves (hkey : Keyed db) :
    Moves limit late (viewOf fingerprint (db.wakes s)) []
      (viewOf fingerprint ((db.resetWake s fingerprint now).wakes s)) := by
  unfold resetWake getWake
  cases hk : db.wakes s with
  | none =>
    dsimp only
    rw [← hk]
    exact Moves.restart (congrArg (viewOf fingerprint) hk) rfl rfl rfl rfl
  | some wake =>
    dsimp only
    rw [← hk]
    split
    · exact .stay _
    · next hne =>
      have hold : viewOf fingerprint (db.wakes s) = none := by
        rw [hk]
        exact viewOf_ne hne
      exact Moves.restart hold rfl rfl rfl rfl

/-- **A wake that is claimed** was pending, and its attempts are one more. -/
theorem claimWake_moves (hkey : Keyed db) :
    Moves limit late (viewOf fingerprint (db.wakes s))
      ((db.claimWake s fingerprint now lease).1.toList.map (·.attemptCount))
      (viewOf fingerprint ((db.claimWake s fingerprint now lease).2.wakes s)) := by
  have hreset : Moves limit late (viewOf fingerprint (db.wakes s)) []
      (viewOf fingerprint ((db.resetWake s fingerprint now).wakes s)) := resetWake_moves hkey
  have hspec : Rewakes id db (db.resetWake s fingerprint now) s ∧ _ := resetWake_spec hkey
  obtain ⟨-, ready, hready, hs, hfp, -⟩ := hspec
  unfold claimWake getWake
  dsimp only
  rw [hready]
  dsimp only
  split
  · exact hreset
  · next hpending =>
    rw [not_or, not_not] at hpending
    refine hreset.andThen ?_
    rw [viewOf_saveWake (by exact hs), viewOf_self (by exact hfp), hready, viewOf_self hfp,
      hpending.1]
    exact .claim ready.attemptCount

theorem claimForStableSession_moves (hkey : Keyed db)
    (hinbox : db.getInboxFingerprint sha256 s = some fingerprint) :
    Moves policy.maxAttempts late (viewOf fingerprint (db.wakes s))
      ((db.claimForStableSession sha256 policy s now).1.toList.map (·.attemptCount))
      (viewOf fingerprint ((db.claimForStableSession sha256 policy s now).2.wakes s)) := by
  have hout : ∀ d : SessionDispatchStore, Keyed d →
      Moves policy.maxAttempts late (viewOf fingerprint (d.wakes s))
        ((d.handOut policy s fingerprint now).1.toList.map (·.attemptCount))
        (viewOf fingerprint ((d.handOut policy s fingerprint now).2.wakes s)) := by
    intro d hd
    have hclaim : Moves policy.maxAttempts late (viewOf fingerprint (d.wakes s)) _
      (viewOf fingerprint ((d.claimWake s fingerprint now (now + policy.leaseMs)).2.wakes s)) :=
      claimWake_moves hd
    unfold handOut
    dsimp only
    cases hone : (d.claimWake s fingerprint now (now + policy.leaseMs)).1 with
    | none => rw [hone] at hclaim; exact hclaim
    | some wake => rw [hone] at hclaim; exact hclaim
  unfold claimForStableSession getWake
  rw [hinbox]
  cases hk : db.wakes s with
  | none =>
    dsimp only
    rw [← hk]
    exact hout db hkey
  | some wake =>
    have hre : Rewakes sha256 db _ s := settle_rewakes hkey hk policy fingerprint now
    obtain ⟨t, ht⟩ := settled_wakes hkey hk policy fingerprint now
    have hsettled : Moves policy.maxAttempts late (viewOf fingerprint (db.wakes s)) []
        (viewOf fingerprint ((if settledWake policy wake fingerprint now = wake then db
          else db.saveWake (settledWake policy wake fingerprint now)).wakes s)) := by
      rw [ht, hk]
      exact settledWake_moves hk
    dsimp only
    rw [← hk]
    generalize (if settledWake policy wake fingerprint now = wake then db
      else db.saveWake (settledWake policy wake fingerprint now)) = settled at hre hsettled ⊢
    split
    · exact hsettled
    · exact hsettled.andThen (hout settled (hre.keyed hkey))

/-- a session whose inbox is empty is handed nothing. -/
theorem claimForStableSession_empty (hinbox : db.getInboxFingerprint sha256 s = none) :
    (db.claimForStableSession sha256 policy s now).1 = none := by
  unfold claimForStableSession
  rw [hinbox]
  cases db.getWake s with
  | none => rfl
  | some wake =>
    dsimp only
    split <;> rfl

/-- a dispatch is updated, and then the wake is reconciled with the inbox. -/
theorem acknowledge_cases (owner : String → Option (Option String)) (id caller : String) (now : ℕ) :
    (db.acknowledge sha256 owner id caller now).2 = db ∨ ∃ db', Redispatches db db' ∧
      (db.acknowledge sha256 owner id caller now).2 =
        db'.reconcileHandledCallbacks sha256 caller now := by
  unfold acknowledge
  split
  · exact .inl rfl
  split
  · exact .inl rfl
  · exact .inr ⟨_, update_redispatches id _ now, rfl⟩

theorem close_cases (owner : String → Option (Option String)) (id caller : String) (now : ℕ) :
    (db.close sha256 owner id caller now).2 = db ∨ ∃ db', Redispatches db db' ∧
      (db.close sha256 owner id caller now).2 =
        db'.reconcileHandledCallbacks sha256 caller now := by
  unfold close
  split
  · exact .inl rfl
  split
  · exact .inl rfl
  · exact .inr ⟨_, update_redispatches id _ now, rfl⟩

/-- a wake that is not touched. -/
theorem Moves.of_wakes (h : db'.wakes s = db.wakes s) :
    Moves limit late (viewOf fingerprint (db.wakes s)) [] (viewOf fingerprint (db'.wakes s)) := by
  rw [h]
  exact .stay _

/-- only dispatches change, and then the wake of some session is reconciled. -/
theorem Moves.of_reconcile {caller : String} (hkey : Keyed db) (hd : Redispatches db db')
    (hinbox : (db'.reconcileHandledCallbacks sha256 caller now).getInboxFingerprint sha256 s =
      some fingerprint) :
    Moves limit late (viewOf fingerprint (db.wakes s)) []
      (viewOf fingerprint ((db'.reconcileHandledCallbacks sha256 caller now).wakes s)) := by
  have hre : Rewakes sha256 db' (db'.reconcileHandledCallbacks sha256 caller now) caller :=
    reconcile_rewakes (hd.keyed hkey)
  rw [← hd.wakes]
  by_cases hs : s = caller
  · subst hs
    rw [fingerprint_congr sha256 hre.dispatches] at hinbox
    exact reconcile_moves (hd.keyed hkey) hinbox
  · exact .of_wakes (hre.other s hs)

/-- the callbacks of a session that was rebound are in the inbox of another. -/
theorem rebind_inbox {source target : String}
    (hne : ¬(source = "" ∨ target = "" ∨ source = target)) :
    (db.rebindSession source target now).getInboxFingerprint sha256 source = none := by
  have hdispatches : ∀ d ∈ (db.rebindSession source target now).dispatches,
      d.callbackSessionId ≠ some source := by
    intro d hd hsource
    have hmoved : ∃ rows, d ∈ Sql.update (·.callbackSessionId = some source) (fun d =>
        { d with callbackSessionId := some target, updatedAt := now }) rows := by
      unfold rebindSession at hd
      rw [if_neg hne] at hd
      dsimp only at hd
      split at hd <;> exact ⟨_, hd⟩
    obtain ⟨rows, hmem⟩ := hmoved
    obtain ⟨r, -, rfl⟩ := mem_update.mp hmem
    split at hsource
    · exact hne (.inr (.inr (Option.some.inj hsource).symm))
    · next hr => exact hr hsource
  unfold getInboxFingerprint listUnresolvedCallbacks fingerprintOf
  rw [List.filter_eq_nil_iff.mpr fun d hd => by
    rw [decide_eq_true_iff]
    exact fun h => hdispatches d hd h.1]
  rfl

theorem rebind_moves {source target : String} (hkey : Keyed db)
    (hinbox : (db.rebindSession source target now).getInboxFingerprint sha256 s =
      some fingerprint) :
    Moves limit late (viewOf fingerprint (db.wakes s)) []
      (viewOf fingerprint ((db.rebindSession source target now).wakes s)) := by
  by_cases hsame : source = "" ∨ target = "" ∨ source = target
  · have hdb : db.rebindSession source target now = db := if_pos hsame
    rw [hdb]
    exact .stay _
  · have hsource : s ≠ source := by
      rintro rfl
      rw [rebind_inbox hsame] at hinbox
      cases hinbox
    unfold rebindSession
    rw [if_neg hsame]
    dsimp only
    cases hwake : db.wakes source with
    | none => exact .of_wakes rfl
    | some wake =>
      dsimp only
      by_cases htarget : s = target
      · subst htarget
        rw [Function.update_self]
        cases hold : db.wakes s with
        | some k => exact .stay _
        | none =>
          by_cases hfp : wake.inboxFingerprint = fingerprint
          · rw [Option.getD_none, viewOf_self (by exact hfp)]
            exact .start
          · rw [Option.getD_none, viewOf_ne (by exact hfp)]
            exact .stay none
      · rw [Function.update_of_ne htarget, Function.update_of_ne hsource]
        exact .stay _

end Calls

/-! ## runs -/

/-- a person takes the session up. -/
def Action.RetiresFor (s : String) : Action → Prop
  | .retireForFreshHumanTrigger sessionId _ _ _ => sessionId = s
  | _ => False

/-- how the delivery of the claim of a wake went is reported. -/
def Action.Reports (s : String) (k : CallbackWakeRecord) : Action → Prop
  | .markSubmitted claim _ => claim.callbackSessionId = s ∧ SameAttempt claim k
  | .releaseRejectedDelivery claim => claim.callbackSessionId = s ∧ SameAttempt claim k
  | _ => False

section Runs
variable (sha256 : String → String) (policy : WakePolicy) (owner : String → Option (Option String))

/-- The call leaves the inbox of the session as it is, and no person takes the session up. -/
def Undisturbed (s : String) (w : World) (a : Action) : Prop :=
  (a.run sha256 policy owner w.db).getInboxFingerprint sha256 s =
    w.db.getInboxFingerprint sha256 s ∧ ¬a.RetiresFor s

/-- the claims of a session that were handed out from one world to a later one. -/
def issued (s : String) (w w' : World) : List DispatchInboxWakeClaim :=
  (w'.claims.drop w.claims.length).filter (·.callbackSessionId = s)

/-- the wake of its session stands for the claim, with a worker or delivered. -/
def Outstanding (db : SessionDispatchStore) (c : DispatchInboxWakeClaim) : Prop :=
  ∃ k, db.wakes c.callbackSessionId = some k ∧ k.inboxFingerprint = c.inboxFingerprint ∧
    k.attemptCount = c.attemptCount ∧ k.state.Out

variable {sha256 policy owner} {P : World → Action → Prop} {w w' w'' : World}
  {db : SessionDispatchStore} {s fingerprint : String} {now : ℕ}

/-- **Every call moves the wake of a session**, while its inbox stays as it is. -/
theorem run_moves (hkey : Keyed w.db) {a : Action} (ha : Undisturbed sha256 policy owner s w a)
    (hinbox : w.db.getInboxFingerprint sha256 s = some fingerprint) :
    Moves policy.maxAttempts (∃ k, w.db.wakes s = some k ∧ a.Reports s k)
      (viewOf fingerprint (w.db.wakes s))
      (((a.claims sha256 policy w.db).filter (·.callbackSessionId = s)).map (·.attemptCount))
      (viewOf fingerprint ((a.run sha256 policy owner w.db).wakes s)) := by
  obtain ⟨hsame, hperson⟩ := ha
  have hinbox' : (a.run sha256 policy owner w.db).getInboxFingerprint sha256 s = some fingerprint :=
    hsame.trans hinbox
  cases a with
  | create id worker callback ownerNpub now =>
    exact .of_wakes (congrFun (create_redispatches id worker callback ownerNpub now).wakes s)
  | capture record status message createdAt now =>
    exact .of_wakes (congrFun (capture_redispatches record status message createdAt now).wakes s)
  | noteError id message failed now =>
    exact .of_wakes (congrFun (update_redispatches id _ now).wakes s)
  | acknowledge id caller now =>
    rcases acknowledge_cases owner id caller now with heq | ⟨db', hd, heq⟩
    · exact .of_wakes (congrFun (congrArg wakes heq) s)
    · dsimp only [Action.run] at hinbox' ⊢
      rw [heq] at hinbox' ⊢
      exact .of_reconcile hkey hd hinbox'
  | close id caller now =>
    rcases close_cases owner id caller now with heq | ⟨db', hd, heq⟩
    · exact .of_wakes (congrFun (congrArg wakes heq) s)
    · dsimp only [Action.run] at hinbox' ⊢
      rw [heq] at hinbox' ⊢
      exact .of_reconcile hkey hd hinbox'
  | retryCallback id caller now =>
    exact .of_wakes (congrFun (retryCallback_redispatches id caller now).wakes s)
  | claimForStableSession s' now =>
    have hcases : _ ∧ Rewakes sha256 w.db (w.db.claimForStableSession sha256 policy s' now).2 s' ∨ _ :=
      claimForStableSession_cases hkey
    by_cases hs : s = s'
    · subst hs
      have hall : ((w.db.claimForStableSession sha256 policy s now).1.toList.filter
          (·.callbackSessionId = s)) = (w.db.claimForStableSession sha256 policy s now).1.toList := by
        refine List.filter_eq_self.mpr fun c hc => decide_eq_true ?_
        rcases hcases with ⟨hnone, -⟩ | ⟨fingerprint, claim, -, hclaim, hout⟩
        · rw [hnone] at hc
          exact absurd hc List.not_mem_nil
        · rw [hclaim] at hc
          rw [List.mem_singleton.mp hc]
          exact hout.session
      dsimp only [Action.claims, Action.run]
      rw [hall]
      exact claimForStableSession_moves hkey hinbox
    · have hnone : ((w.db.claimForStableSession sha256 policy s' now).1.toList.filter
          (·.callbackSessionId = s)) = [] := by
        refine List.filter_eq_nil_iff.mpr fun c hc hcs => hs ?_
        rcases hcases with ⟨hnone, -⟩ | ⟨fingerprint, claim, -, hclaim, hout⟩
        · rw [hnone] at hc
          exact absurd hc List.not_mem_nil
        · rw [hclaim] at hc
          rw [List.mem_singleton.mp hc] at hcs
          exact (of_decide_eq_true hcs).symm.trans hout.session
      have hother : (w.db.claimForStableSession sha256 policy s' now).2.wakes s = w.db.wakes s := by
        rcases hcases with ⟨-, hre⟩ | ⟨fingerprint, claim, -, -, hout⟩
        · exact hre.other s hs
        · exact hout.other s hs
      dsimp only [Action.claims, Action.run]
      rw [hnone]
      exact .of_wakes hother
  | noteSessionBusy s' now =>
    by_cases hs : s = s'
    · subst hs
      exact noteSessionBusy_moves hkey
    · have hre : Rewakes sha256 w.db (w.db.noteSessionBusy s' now) s' := noteSessionBusy_rewakes hkey
      exact .of_wakes (hre.other s hs)
  | reconcileHandledCallbacks s' now => exact .of_reconcile hkey (.refl w.db) hinbox'
  | validateClaim claim now =>
    by_cases hs : s = claim.callbackSessionId
    · exact validateClaim_moves hkey hs.symm hinbox
    · exact .of_wakes ((validateClaim_rewakes hkey).other s hs)
  | markDeliveryUncertain claim now =>
    by_cases hs : s = claim.callbackSessionId
    · exact markDeliveryUncertain_moves hkey hs.symm hinbox
    · exact .of_wakes ((markDeliveryUncertain_rewakes hkey).other s hs)
  | releaseRejectedDelivery claim =>
    by_cases hs : s = claim.callbackSessionId
    · exact release_moves hkey hs.symm fun k hk hsame => ⟨k, hk, hs.symm, hsame⟩
    · have hre : Rewakes sha256 w.db (w.db.releaseRejectedDelivery claim) _ := release_rewakes hkey
      exact .of_wakes (hre.other s hs)
  | markSubmitted claim now =>
    by_cases hs : s = claim.callbackSessionId
    · exact markSubmitted_moves hkey hs.symm fun k hk hsame => ⟨k, hk, hs.symm, hsame⟩
    · have hre : Rewakes sha256 w.db (w.db.markSubmitted claim now) _ := markSubmitted_rewakes hkey
      exact .of_wakes (hre.other s hs)
  | markSubmissionFailed claim error now =>
    by_cases hs : s = claim.callbackSessionId
    · exact markSubmissionFailed_moves hkey hs.symm error
    · have hre : Rewakes sha256 w.db (w.db.markSubmissionFailed policy claim error now) _ :=
        markSubmissionFailed_rewakes hkey error
      exact .of_wakes (hre.other s hs)
  | retireForFreshHumanTrigger s' trigger snapshot now =>
    refine .of_wakes ?_
    show (w.db.retireForFreshHumanTrigger s' trigger snapshot now).wakes s = w.db.wakes s
    unfold retireForFreshHumanTrigger
    split
    · rfl
    · exact Function.update_of_ne (fun hs => hperson hs.symm) ..
  | rebindSession source target now => exact rebind_moves hkey hinbox'

/-- what a run of undisturbed calls keeps of its first world. -/
structure Stretch (sha256 : String → String) (policy : WakePolicy) (s : String) (w w' : World) :
    Prop where
  keyed : Keyed w'.db
  inbox : w'.db.getInboxFingerprint sha256 s = w.db.getInboxFingerprint sha256 s
  claims : ∃ later, w'.claims = w.claims ++ later
  covers : ∀ c ∈ issued s w w', c.callbackSessionId = s ∧
    w.db.getInboxFingerprint sha256 s = some c.inboxFingerprint
  moves : ∀ fingerprint, w.db.getInboxFingerprint sha256 s = some fingerprint →
    Moves policy.maxAttempts True (viewOf fingerprint (w.db.wakes s))
      ((issued s w w').map (·.attemptCount)) (viewOf fingerprint (w'.db.wakes s))

theorem issued_append {later : List DispatchInboxWakeClaim} (h : w'.claims = w.claims ++ later) :
    issued s w w' = later.filter (·.callbackSessionId = s) := by
  unfold issued
  rw [h, List.drop_left]

/-- the claims that a call hands out are for the inbox of their session. -/
theorem claims_cover (hkey : Keyed db) {a : Action} {c : DispatchInboxWakeClaim}
    (hc : c ∈ a.claims sha256 policy db) :
    db.getInboxFingerprint sha256 c.callbackSessionId = some c.inboxFingerprint := by
  cases a with
  | claimForStableSession s now =>
    have hcases : _ ∧ Rewakes sha256 db (db.claimForStableSession sha256 policy s now).2 s ∨ _ :=
      claimForStableSession_cases hkey
    dsimp only [Action.claims] at hc
    rcases hcases with ⟨hnone, -⟩ | ⟨fingerprint, claim, hinbox, hclaim, hout⟩
    · rw [hnone] at hc
      exact absurd hc List.not_mem_nil
    · rw [hclaim] at hc
      rw [List.mem_singleton.mp hc, hout.session, hout.fingerprint]
      exact hinbox
  | _ => exact absurd hc List.not_mem_nil

theorem Stretch.refl (hkey : Keyed w.db) : Stretch sha256 policy s w w := by
  have hnone : issued s w w = [] := issued_append (List.append_nil w.claims).symm
  refine ⟨hkey, rfl, ⟨[], (List.append_nil _).symm⟩, fun c hc => ?_, fun fingerprint h => ?_⟩
  · rw [hnone] at hc
    exact absurd hc List.not_mem_nil
  · rw [hnone]
    exact .stay _

/-- **One call more.** -/
theorem Stretch.after (h : Stretch sha256 policy s w w') {a : Action}
    (ha : Undisturbed sha256 policy owner s w' a) :
    Stretch sha256 policy s w (w'.after sha256 policy owner a) := by
  obtain ⟨later, hlater⟩ := h.claims
  have hclaims : (w'.after sha256 policy owner a).claims =
      w.claims ++ (later ++ a.claims sha256 policy w'.db) := by
    show w'.claims ++ a.claims sha256 policy w'.db = _
    rw [hlater, List.append_assoc]
  have hissued : issued s w (w'.after sha256 policy owner a) =
      issued s w w' ++ (a.claims sha256 policy w'.db).filter (·.callbackSessionId = s) := by
    rw [issued_append hclaims, issued_append hlater, List.filter_append]
  refine ⟨(run_effect h.keyed a).keyed, ha.1.trans h.inbox, ⟨_, hclaims⟩, fun c hc => ?_,
    fun fingerprint hinbox => ?_⟩
  · rw [hissued] at hc
    rcases List.mem_append.mp hc with hold | hnew
    · exact h.covers c hold
    · obtain ⟨hmem, hs⟩ := List.mem_filter.mp hnew
      have hsession : c.callbackSessionId = s := of_decide_eq_true hs
      refine ⟨hsession, ?_⟩
      rw [← h.inbox, ← hsession]
      exact claims_cover h.keyed hmem
  · rw [hissued, List.map_append]
    refine (h.moves fingerprint hinbox).trans ?_
    exact (run_moves h.keyed ha (h.inbox.trans hinbox)).mono fun _ => trivial

theorem Stretch.run (hkey : Keyed w.db)
    (h : Run sha256 policy owner (Undisturbed sha256 policy owner s) w w') :
    Stretch sha256 policy s w w' := by
  induction h with
  | refl => exact .refl hkey
  | tail _ hstep ih =>
    obtain ⟨a, ha, rfl⟩ := hstep
    exact ih.after ha

/-! ## the limit -/

/-- the claim of the wake is with a worker that has time left. -/
def Live (k : CallbackWakeRecord) (now : ℕ) : Prop :=
  k.state = .claimed ∧ ¬leaseExpired k now ∨
    k.state = .submitted ∧ k.busyObservedAt = none ∧ ¬leaseExpired k now

/-- What becomes of the wake `k` of a session when its last attempt was handed out. -/
structure Spent (sha256 : String → String) (policy : WakePolicy)
    (owner : String → Option (Option String)) (s : String) (w : World) (k : CallbackWakeRecord) :
    Prop where
  /-- the attempt fails, or its turn ends: the wake is blocked. -/
  expired : ∀ now, k.state = .claimed → leaseExpired k now → ∃ k',
    (w.db.claimForStableSession sha256 policy s now).2.wakes s = some k' ∧ k'.state = .blocked
  failed : ∀ claim error now, k.state = .claimed → claim.callbackSessionId = s →
    claim.generation = w.db.generation s → SameAttempt claim k → ∃ k',
      (w.db.markSubmissionFailed policy claim error now).wakes s = some k' ∧ k'.state = .blocked
  ended : ∀ now, k.state = .submitted → k.busyObservedAt ≠ none ∨ leaseExpired k now → ∃ k',
    (w.db.claimForStableSession sha256 policy s now).2.wakes s = some k' ∧ k'.state = .blocked
  /-- nothing is handed out any more, and the wake is not pending again. -/
  last : ∀ w', Run sha256 policy owner (Undisturbed sha256 policy owner s) w w' →
    issued s w w' = [] ∧ ∃ k', w'.db.wakes s = some k' ∧ k'.inboxFingerprint = k.inboxFingerprint ∧
      k'.attemptCount = k.attemptCount ∧ k'.state.Out

/-- What is expected of a run of undisturbed calls. -/
structure BoundedWakes (sha256 : String → String) (policy : WakePolicy)
    (owner : String → Option (Option String)) (s : String) (w w' : World) : Prop where
  /-- the claims keep to the limit. -/
  few : (issued s w w').length ≤ policy.maxAttempts
  /-- one of them is outstanding at most. -/
  one : (issued s w w').Pairwise fun c c' => ¬(Outstanding w'.db c ∧ Outstanding w'.db c')
  /-- none is handed out while another has time left. -/
  free : ∀ now claim k, (w'.db.claimForStableSession sha256 policy s now).1 = some claim →
    w'.db.wakes s = some k → ¬Live k now
  /-- the wake of the last is blocked when it fails. -/
  last : ∀ k, w'.db.wakes s = some k →
    w'.db.getInboxFingerprint sha256 s = some k.inboxFingerprint →
    policy.maxAttempts ≤ k.attemptCount → k.state.Out → Spent sha256 policy owner s w' k
  /-- and a blocked wake stays blocked until the delivery of its claim is reported. -/
  blocked : ∀ k, w'.db.wakes s = some k →
    w'.db.getInboxFingerprint sha256 s = some k.inboxFingerprint → k.state = .blocked →
    ∀ w'', Run sha256 policy owner
        (fun w a => Undisturbed sha256 policy owner s w a ∧ ¬a.Reports s k) w' w'' →
      issued s w' w'' = [] ∧ ∃ k', w''.db.wakes s = some k' ∧
        k'.inboxFingerprint = k.inboxFingerprint ∧ k'.attemptCount = k.attemptCount ∧
        k'.state = .blocked

/-- the wake that a view was taken of. -/
theorem viewOf_some {wake : Option CallbackWakeRecord} {state : CallbackWakeState} {n : ℕ}
    (h : viewOf fingerprint wake = some (state, n)) :
    ∃ k, wake = some k ∧ k.inboxFingerprint = fingerprint ∧ k.state = state ∧
      k.attemptCount = n := by
  cases wake with
  | none => cases h
  | some k =>
    by_cases hfp : k.inboxFingerprint = fingerprint
    · rw [viewOf_self hfp] at h
      obtain ⟨hstate, hcount⟩ := Prod.mk.inj (Option.some.inj h)
      exact ⟨k, rfl, hfp, hstate, hcount⟩
    · rw [viewOf_ne hfp] at h
      cases h

theorem Stretch.few (hpos : 0 < policy.maxAttempts) (h : Stretch sha256 policy s w w') :
    (issued s w w').length ≤ policy.maxAttempts := by
  cases hinbox : w.db.getInboxFingerprint sha256 s with
  | none =>
    have hnone : issued s w w' = [] := by
      refine List.eq_nil_iff_forall_not_mem.mpr fun c hc => ?_
      exact absurd (hinbox.symm.trans (h.covers c hc).2) (Option.some_ne_none _).symm
    rw [hnone]
    exact Nat.zero_le _
  | some fingerprint =>
    have hmoves := (h.moves fingerprint hinbox).few hpos
    have hlimit : remaining policy.maxAttempts (viewOf fingerprint (w.db.wakes s)) ≤
        policy.maxAttempts := remaining_le hpos
    rw [List.length_map] at hmoves
    omega

theorem Stretch.one (h : Stretch sha256 policy s w w') :
    (issued s w w').Pairwise fun c c' => ¬(Outstanding w'.db c ∧ Outstanding w'.db c') := by
  cases hinbox : w.db.getInboxFingerprint sha256 s with
  | none =>
    have hnone : issued s w w' = [] := by
      refine List.eq_nil_iff_forall_not_mem.mpr fun c hc => ?_
      exact absurd (hinbox.symm.trans (h.covers c hc).2) (Option.some_ne_none _).symm
    rw [hnone]
    exact .nil
  | some fingerprint =>
    have hsorted := List.pairwise_map.mp (h.moves fingerprint hinbox).increasing.2.2
    refine hsorted.imp_of_mem fun {c c'} hc hc' hlt hboth => ?_
    obtain ⟨⟨k, hk, -, hcount, -⟩, ⟨k', hk', -, hcount', -⟩⟩ := hboth
    rw [(h.covers c hc).1] at hk
    rw [(h.covers c' hc').1, hk] at hk'
    obtain rfl := Option.some.inj hk'
    exact absurd (hcount.symm.trans hcount') (Nat.ne_of_lt hlt)

theorem settledWake_live {k : CallbackWakeRecord} (h : Live k now) :
    settledWake policy k fingerprint now = k ∧ Waiting k fingerprint now := by
  unfold settledWake
  rcases h with ⟨hstate, hlease⟩ | ⟨hstate, hbusy, hlease⟩
  · rw [if_neg fun h => hlease h.2, if_neg (by rw [hstate]; exact fun h => nomatch h.1)]
    exact ⟨rfl, .inl hstate⟩
  · rw [if_neg fun h => hlease h.2, if_neg fun h => h.2.elim (absurd hbusy) hlease]
    exact ⟨rfl, .inr (.inl hstate)⟩

/-- nothing is handed out while a claim has time left. -/
theorem claimForStableSession_live {claim : DispatchInboxWakeClaim} {k : CallbackWakeRecord}
    (hclaim : (db.claimForStableSession sha256 policy s now).1 = some claim)
    (hk : db.wakes s = some k) : ¬Live k now := by
  intro hlive
  cases hinbox : db.getInboxFingerprint sha256 s with
  | none =>
    rw [claimForStableSession_empty hinbox] at hclaim
    cases hclaim
  | some fingerprint =>
    obtain ⟨hsettled, hwaiting⟩ : settledWake policy k fingerprint now = k ∧
        Waiting k fingerprint now := settledWake_live hlive
    unfold claimForStableSession getWake at hclaim
    rw [hinbox, hk] at hclaim
    dsimp only at hclaim
    rw [hsettled, if_pos rfl, if_pos hwaiting] at hclaim
    cases hclaim

/-- **An attempt that ends blocks the wake**, when it was the last. -/
theorem claimForStableSession_blocks {k k' : CallbackWakeRecord} (hkey : Keyed db)
    (hk : db.wakes s = some k) (hinbox : db.getInboxFingerprint sha256 s = some k.inboxFingerprint)
    (hsettled : settledWake policy k k.inboxFingerprint now = k')
    (hfp : k'.inboxFingerprint = k.inboxFingerprint) (hstate : k'.state = .blocked) :
    ∃ k', (db.claimForStableSession sha256 policy s now).2.wakes s = some k' ∧
      k'.state = .blocked := by
  subst hsettled
  obtain ⟨t, ht⟩ := settled_wakes hkey hk policy k.inboxFingerprint now
  unfold claimForStableSession getWake
  rw [hinbox, hk]
  dsimp only
  rw [if_pos (.inr (.inr (.inl ⟨hstate, hfp⟩)))]
  exact ⟨_, ht, hstate⟩

theorem blocking_state {k : CallbackWakeRecord} (hlast : policy.maxAttempts ≤ k.attemptCount)
    (error : String) : failedAttempt policy k error now = k.blocking error now := if_pos hlast

theorem Spent.of_last {k : CallbackWakeRecord} (hkey : Keyed w.db) (hk : w.db.wakes s = some k)
    (hinbox : w.db.getInboxFingerprint sha256 s = some k.inboxFingerprint)
    (hlast : policy.maxAttempts ≤ k.attemptCount) (hout : k.state.Out) :
    Spent sha256 policy owner s w k where
  expired now hstate hlease := by
    have hsettled : settledWake policy k k.inboxFingerprint now =
        k.blocking "Wake claim lease expired before submission" now := by
      unfold settledWake
      rw [if_pos ⟨hstate, hlease⟩, blocking_state hlast]
    exact claimForStableSession_blocks hkey hk hinbox hsettled rfl rfl
  failed claim error now hstate hs hgeneration hsame := by
    subst hs
    have hfenced : w.db.fenced claim [.claimed] = some k := by
      unfold fenced getWake
      rw [if_neg fun h => h hgeneration, hk]
      refine Option.filter_eq_some_iff.mpr ⟨rfl, decide_eq_true ?_⟩
      exact ⟨List.mem_singleton.mpr hstate, hsame⟩
    obtain ⟨t, ht⟩ : ∃ t, (w.db.saveWake (k.blocking error now)).wakes claim.callbackSessionId =
        some { k.blocking error now with createdAt := t } := saveWake_self w.db (hkey _ k hk)
    unfold markSubmissionFailed
    rw [hfenced]
    dsimp only
    rw [blocking_state hlast, ht]
    exact ⟨_, rfl, rfl⟩
  ended now hstate hended := by
    have hsettled : settledWake policy k k.inboxFingerprint now = k.blocking
        ("Inbox remained unchanged after " ++ toString k.attemptCount ++ " wake turns") now := by
      unfold settledWake completedTurn
      rw [if_neg (by rw [hstate]; exact fun h => nomatch h.1), if_pos ⟨hstate, hended⟩,
        if_neg fun h => h rfl, if_pos hlast]
    exact claimForStableSession_blocks hkey hk hinbox hsettled rfl rfl
  last w' hrun := by
    have hstretch := Stretch.run hkey hrun
    have hview : viewOf k.inboxFingerprint (w.db.wakes s) = some (k.state, k.attemptCount) := by
      rw [hk]
      exact viewOf_self rfl
    obtain ⟨hnone, state', hout', hview'⟩ :=
      (hstretch.moves k.inboxFingerprint hinbox).spent hview hlast hout
    obtain ⟨k', hk', hfp, rfl, hcount⟩ := viewOf_some hview'
    exact ⟨List.map_eq_nil_iff.mp hnone, k', hk', hfp, hcount, hout'⟩

theorem Action.Reports.of_same {k k' : CallbackWakeRecord} {a : Action}
    (hfp : k'.inboxFingerprint = k.inboxFingerprint) (hcount : k'.attemptCount = k.attemptCount)
    (h : a.Reports s k') : a.Reports s k := by
  cases a with
  | markSubmitted claim now => exact ⟨h.1, hfp.symm.trans h.2.1, hcount.symm.trans h.2.2⟩
  | releaseRejectedDelivery claim => exact ⟨h.1, hfp.symm.trans h.2.1, hcount.symm.trans h.2.2⟩
  | _ => exact h.elim

/-- **A blocked wake stays blocked** until the delivery of its claim is reported. -/
theorem stays_blocked {k : CallbackWakeRecord} (hkey : Keyed w.db) (hk : w.db.wakes s = some k)
    (hinbox : w.db.getInboxFingerprint sha256 s = some k.inboxFingerprint)
    (hstate : k.state = .blocked)
    (h : Run sha256 policy owner
      (fun w a => Undisturbed sha256 policy owner s w a ∧ ¬a.Reports s k) w w') :
    Stretch sha256 policy s w w' ∧ issued s w w' = [] ∧
      viewOf k.inboxFingerprint (w'.db.wakes s) = some (.blocked, k.attemptCount) := by
  induction h with
  | refl =>
    refine ⟨.refl hkey, issued_append (List.append_nil w.claims).symm, ?_⟩
    rw [hk, viewOf_self rfl, hstate]
  | @tail w₁ w₂ _ hstep ih =>
    obtain ⟨a, ⟨ha, hreport⟩, rfl⟩ := hstep
    obtain ⟨hstretch, hnone, hview⟩ := ih
    have hlate : ¬∃ k', w₁.db.wakes s = some k' ∧ a.Reports s k' := by
      rintro ⟨k', hk', hreports⟩
      obtain ⟨x, hx, hfp, -, hcount⟩ := viewOf_some hview
      obtain rfl : x = k' := Option.some.inj (hx.symm.trans hk')
      exact hreport (hreports.of_same hfp hcount)
    obtain ⟨hempty, hview'⟩ :=
      (run_moves hstretch.keyed ha (hstretch.inbox.trans hinbox)).blocked hlate hview
    obtain ⟨later, hlater⟩ := hstretch.claims
    have hclaims : (w₁.after sha256 policy owner a).claims =
        w.claims ++ (later ++ a.claims sha256 policy w₁.db) := by
      show w₁.claims ++ a.claims sha256 policy w₁.db = _
      rw [hlater, List.append_assoc]
    refine ⟨hstretch.after ha, ?_, hview'⟩
    rw [issued_append hclaims, List.filter_append, ← issued_append hlater, hnone,
      List.map_eq_nil_iff.mp hempty]
    rfl

/-- **Bounded wake attempts.** While the inbox of a session stays as it is, its claims keep to the
limit, one is outstanding at most, and after the last nothing is handed out: the wake is blocked when
the last fails, and only a report of the delivery of that claim takes it on. -/
theorem bounded_wake_attempts (hpos : 0 < policy.maxAttempts)
    (hstart : Run sha256 policy owner Any {} w)
    (hrun : Run sha256 policy owner (Undisturbed sha256 policy owner s) w w') :
    BoundedWakes sha256 policy owner s w w' := by
  have hstretch := Stretch.run (keyed_run hstart) hrun
  refine ⟨hstretch.few hpos, hstretch.one, fun now claim k hclaim hk => ?_,
    fun k hk hinbox hlast hout => ?_, fun k hk hinbox hstate w'' h => ?_⟩
  · exact claimForStableSession_live hclaim hk
  · exact Spent.of_last hstretch.keyed hk hinbox hlast hout
  · obtain ⟨-, hnone, hview⟩ := stays_blocked hstretch.keyed hk hinbox hstate h
    obtain ⟨k', hk', hfp, hstate', hcount⟩ := viewOf_some hview
    exact ⟨hnone, k', hk', hfp, hcount, hstate'⟩

end Runs

/-- **The policy of the environment permits an attempt**, whatever the environment says. -/
theorem resolved_positive (parseInt : String → Option ℤ) (env : String → Option String) :
    0 < (resolveDispatchInboxWakePolicy parseInt env).maxAttempts := by
  show 0 < positiveInteger parseInt _ 3
  unfold positiveInteger
  split
  · decide
  · split
    · next hpositive => exact Int.lt_toNat.mpr hpositive
    · decide

/-! ## some runs -/

/-- a worker of the session `supervisor` has ended its turn. -/
def arrived : World := afterCalls (arrives "d1" "Done")

/-- the wake of its callback is claimed, and the lease expires. -/
theorem bounded_wake_attempts_expired : BoundedWakes id {} (fun _ => some none) "supervisor" arrived
    ((arrived.after id {} (fun _ => some none) (.claimForStableSession "supervisor" 2)).after id {}
      (fun _ => some none) (.claimForStableSession "supervisor" 400000)) := by
  have hclaim : Undisturbed id {} (fun _ => some none) "supervisor" arrived
      (.claimForStableSession "supervisor" 2) := ⟨by decide +kernel, id⟩
  have hexpire : Undisturbed id {} (fun _ => some none) "supervisor"
      (arrived.after id {} (fun _ => some none) (.claimForStableSession "supervisor" 2))
      (.claimForStableSession "supervisor" 400000) := ⟨by decide +kernel, id⟩
  exact bounded_wake_attempts (by decide) (run_foldl _)
    ((Relation.ReflTransGen.refl.tail ⟨_, hclaim, rfl⟩).tail ⟨_, hexpire, rfl⟩)

/-- The last lease expires, which blocks the wake; then its delivery is reported. -/
theorem blocked_fails : ¬∀ (policy : WakePolicy) (w w' : World) (k : CallbackWakeRecord),
    0 < policy.maxAttempts → Run id policy (fun _ => some none) Any {} w →
    w.db.wakes "supervisor" = some k →
    w.db.getInboxFingerprint id "supervisor" = some k.inboxFingerprint →
    policy.maxAttempts ≤ k.attemptCount → k.state = .blocked →
    Run id policy (fun _ => some none) (Undisturbed id policy (fun _ => some none) "supervisor") w w' →
    ∃ k', w'.db.wakes "supervisor" = some k' ∧ k'.state = .blocked := by
  intro hall
  let policy : WakePolicy := { maxAttempts := 1 }
  let calls := arrives "d1" "Done" ++
    [.claimForStableSession "supervisor" 2, .claimForStableSession "supervisor" 400000]
  let w : World := calls.foldl (fun w a => w.after id policy (fun _ => some none) a) {}
  have hblocked : ∃ k, w.db.wakes "supervisor" = some k ∧
      w.db.getInboxFingerprint id "supervisor" = some k.inboxFingerprint ∧
      1 ≤ k.attemptCount ∧ k.state = .blocked := by
    have hwake : (w.db.wakes "supervisor").any (fun k => decide
        (w.db.getInboxFingerprint id "supervisor" = some k.inboxFingerprint ∧
          1 ≤ k.attemptCount ∧ k.state = .blocked)) = true := by decide +kernel
    obtain ⟨k, hk, hp⟩ := Option.any_eq_true _ _ |>.mp hwake
    exact ⟨k, hk, of_decide_eq_true hp⟩
  obtain ⟨k, hk, hinbox, hlast, hstate⟩ := hblocked
  have hreport : Undisturbed id policy (fun _ => some none) "supervisor" w
      (.markSubmitted firstClaim 400001) := ⟨by decide +kernel, id⟩
  obtain ⟨k', hk', hblocked⟩ := hall policy w _ k (by decide) (run_foldl _) hk hinbox hlast hstate
    (.single ⟨_, hreport, rfl⟩)
  have hsubmitted : (((w.after id policy (fun _ => some none)
      (.markSubmitted firstClaim 400001)).db.wakes "supervisor").map (·.state)) =
      some .submitted := by decide +kernel
  rw [hk'] at hsubmitted
  exact absurd (hblocked.symm.trans (Option.some.inj hsubmitted)) (by decide)

end SessionDispatches
end WmAutopilot
