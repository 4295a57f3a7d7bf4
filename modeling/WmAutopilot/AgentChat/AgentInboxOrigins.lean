import WmAutopilot.AgentChat.AgentInboxOnce

/-!
# Origins that are live

* `Dead`             a notification for which no session may act any more;
* `OriginsSound`     every origin that names a dead notification is refused, directly and through a
                     `self_mention`;
* `NotAfter`         a notification is not handed as revoked after `handled` was recorded of it, nor
                     is `handled` recorded of it then;
* `origins_sound`    **in every run of that kind** the origins are sound;
* `revoked_live`     a notification that is revoked after it was acknowledged stays live.
-/

set_option autoImplicit false

namespace WmAutopilot
namespace AgentInbox
open Js Value Async

/-- the floor of the subscription, established or not. -/
def floorOf (host : Host) (w : World) (sub : String) : Option ℤ :=
  (w.states sub).bind fun state => instant host state.floorAt

/-- a notification that occurred before the floor. -/
def PreFloor (host : Host) (w : World) (sub id : String) : Prop :=
  ∃ record floor time, bindingRecord w ⟨sub, id⟩ = some record ∧ floorOf host w sub = some floor ∧
    instant host record.1.occurredAt = some time ∧ time < floor

/-- no session may act for it any more. -/
def Dead (host : Host) (w : World) (sub id : String) : Prop :=
  (sub, id) ∈ w.revoked ∨
    ((w.ledger (sub, id)).bind (·.outcome) ≠ some .handled ∧ ∀ κ, (κ, (sub, id)) ∉ w.running) ∨
    PreFloor host w sub id

/-- an origin that names a notification through a `self_mention`. -/
def NamesBySelf (w : World) (origin : InboxOrigin) (id : String) : Prop :=
  ∃ record, bindingRecord w origin = some record ∧ record.1.reason = some selfMention ∧
    record.1.originNotificationId = some id

/-- **What holds of the origins.** -/
structure OriginsSound (host : Host) (w : World) : Prop where
  direct : ∀ sub id, Dead host w sub id → ∀ live,
    liveInboxOrigin host w (some ⟨sub, id⟩) ≠ .ok live
  through : ∀ sub id, Dead host w sub id → ∀ own, NamesBySelf w ⟨sub, own⟩ id → ∀ live,
    liveInboxOrigin host w (some ⟨sub, own⟩) ≠ .ok live
  /-- a `self_mention` acts only while the notification it names is itself live. -/
  named : ∀ origin live, liveInboxOrigin host w (some origin) = .ok live →
    live.envelope.reason = some selfMention → ∃ id nonSelf,
      live.envelope.originNotificationId = some id ∧ nonSelf.envelope.reason ≠ some selfMention ∧
      liveInboxOrigin host w (some ⟨origin.subscriptionId, id⟩) = .ok nonSelf ∧
      live.towerOriginId = nonSelf.envelope.id

/-! ## what is accepted -/

/-- What is recorded of an origin that is accepted. -/
structure Accepted (host : Host) (w : World) (origin : InboxOrigin) (live : LiveOrigin) : Prop where
  same : live.origin = origin
  recorded : ∃ row, bindingRecord w origin = some (live.envelope, row) ∧
    (row.handledAt = none ∧ 0 < w.active (origin.subscriptionId, origin.notificationId) ∨
      row.outcome = some .handled)
  late : ∃ floor time, floorOf host w origin.subscriptionId = some floor ∧
    instant host live.envelope.occurredAt = some time ∧ floor ≤ time

section
variable {host : Host} {w : World} {origin : InboxOrigin} {live : LiveOrigin} {sub id : String}

theorem establishedFloor_some {floor : ℤ} (h : establishedFloor host w sub = some floor) :
    floorOf host w sub = some floor := by
  unfold establishedFloor at h
  unfold floorOf
  cases hs : w.states sub with
  | none =>
    rw [hs] at h
    cases h
  | some state =>
    rw [hs] at h
    simp only [Option.bind_eq_bind, Option.bind_some] at h ⊢
    split at h
    · exact h
    · cases h

theorem accepted_of_ok (h : liveRecordedOrigin host w (some origin) = .ok live) :
    Accepted host w origin live := by
  simp only [liveRecordedOrigin, bind_ok, orThrow_ok, throwIf_ok, Option.some.injEq] at h
  obtain ⟨origin', rfl, floor, hfloor, ⟨envelope, row⟩, hrecord, -, -, time, htime, -, hlate, -,
    hactive, hlive⟩ := h
  obtain rfl := Except.ok.inj hlive
  refine ⟨rfl, ⟨row, hrecord, ?_⟩, floor, time, establishedFloor_some hfloor, htime,
    Int.not_lt.mp hlate⟩
  by_cases ho : row.outcome = some .handled
  · exact .inr ho
  · have hact : (row.handledAt.isNone &&
        isActiveInboxAttempt w (origin.subscriptionId, origin.notificationId)) = true :=
      not_not.mp fun hn => hactive ⟨hn, ho⟩
    obtain ⟨hhandled, ha⟩ := Bool.and_eq_true_iff.mp hact
    exact .inl ⟨Option.isNone_iff_eq_none.mp hhandled, of_decide_eq_true ha⟩

theorem liveInboxOrigin_ok (h : liveInboxOrigin host w (some origin) = .ok live) :
    ∃ recorded, liveRecordedOrigin host w (some origin) = .ok recorded ∧
      recorded.envelope = live.envelope ∧ (live.envelope.reason = some selfMention →
        ∃ id nonSelf, live.envelope.originNotificationId = some id ∧
          liveRecordedOrigin host w (some ⟨origin.subscriptionId, id⟩) = .ok nonSelf ∧
          nonSelf.envelope.reason ≠ some selfMention ∧ live.towerOriginId = nonSelf.envelope.id) := by
  obtain ⟨recorded, hrecorded, h⟩ := bind_ok.mp h
  by_cases hself : recorded.envelope.reason = some selfMention
  · rw [if_neg (not_not.mpr hself)] at h
    obtain ⟨id, hid, h⟩ := bind_ok.mp h
    have hid' := (Option.filter_eq_some_iff.mp (orThrow_ok.mp hid)).1
    have horigin : recorded.origin = origin := (accepted_of_ok hrecorded).same
    rw [horigin] at h
    cases hn : liveRecordedOrigin host w (some ⟨origin.subscriptionId, id⟩) with
    | error e =>
      rw [hn] at h
      cases h
    | ok nonSelf =>
      rw [hn] at h
      obtain ⟨u, hreason, h⟩ := bind_ok.mp h
      obtain rfl := Except.ok.inj h
      exact ⟨recorded, hrecorded, rfl, fun _ => ⟨id, nonSelf, hid', hn, throwIf_ok.mp hreason, rfl⟩⟩
  · rw [if_pos hself] at h
    obtain rfl := Except.ok.inj h
    exact ⟨_, hrecorded, rfl, fun hs => absurd hs hself⟩

/-- an origin that is no `self_mention` acts for itself. -/
theorem liveInboxOrigin_nonSelf (h : liveRecordedOrigin host w (some origin) = .ok live)
    (hne : live.envelope.reason ≠ some selfMention) :
    liveInboxOrigin host w (some origin) = .ok live := by
  unfold liveInboxOrigin
  rw [h]
  exact if_pos hne

theorem bindingRecord_row {envelope : Envelope} {row : LedgerRow}
    (h : bindingRecord w origin = some (envelope, row)) :
    w.ledger (origin.subscriptionId, origin.notificationId) = some row := by
  unfold bindingRecord at h
  obtain ⟨row', hrow, h⟩ := Option.bind_eq_some_iff.mp h
  obtain ⟨envelope', -, h⟩ := Option.bind_eq_some_iff.mp h
  obtain ⟨-, rfl⟩ := Prod.mk.inj (Option.some.inj h)
  exact hrow

end

/-! ## runs -/

/-- a notification is not handed as revoked after `handled` was recorded of it, nor is `handled`
recorded of it then. -/
def NotAfter : Answers
  | .ledger sub n, w, _ => n.state = "revoked" → ∀ code, w.recorded (sub, n.id) ≠ some (.handled, code)
  | .markHandled sub n outcome _, w, _ => outcome = .handled →
      n.state ≠ "revoked" ∧ (sub, n.id) ∉ w.revoked
  | _, _, _ => True

/-- what was handed as revoked has another outcome. -/
def RevokedOk (w : World) : Prop :=
  ∀ key ∈ w.revoked, ∃ outcome code, w.recorded key = some (outcome, code) ∧ outcome ≠ .handled

section
variable {host : Host} {κ : ℕ} {w w' : World}

theorem perform_revoked {o : InboxOp} {r : o.Ans} (ho : perform κ o w r w') {key : Key}
    (hkey : key ∈ w'.revoked) : key ∈ w.revoked ∨
      (∃ sub n, o = .ledger sub n ∧ key = (sub, n.id) ∧ w.Acked key ∧ n.state = "revoked" ∧
        w'.recorded key = w.recorded key) ∨
      ∃ sub n outcome code, o = .markHandled sub n outcome code ∧ key = (sub, n.id) ∧
        n.state = "revoked" ∧ w'.recorded key = some (outcome, code) := by
  cases o with
  | ledger sub n =>
    obtain ⟨-, rfl⟩ := ho
    change key ∈ (if ((w.ledger (sub, n.id)).bind (·.ackedAt)).isSome ∧ n.state = "revoked" then
      (sub, n.id) :: w.revoked else w.revoked) at hkey
    split at hkey
    · rename_i hc
      rcases List.mem_cons.mp hkey with rfl | hkey
      · exact .inr (.inl ⟨sub, n, rfl, rfl, hc.1, hc.2, rfl⟩)
      · exact .inl hkey
    · exact .inl hkey
  | markHandled sub n outcome code =>
    have hrecorded := recorded_markHandled ho
    obtain ⟨time, rfl⟩ := ho
    change key ∈ (if n.state = "revoked" then (sub, n.id) :: w.revoked else w.revoked) at hkey
    split at hkey
    · rcases List.mem_cons.mp hkey with rfl | hkey
      · exact .inr (.inr ⟨sub, n, outcome, code, rfl, rfl, ‹_›, hrecorded⟩)
      · exact .inl hkey
    · exact .inl hkey
  | beginAttempt =>
    obtain ⟨time, -, rfl⟩ := ho
    exact .inl hkey
  | markAcked =>
    obtain ⟨time, rfl⟩ := ho
    exact .inl hkey
  | get | update =>
    obtain ⟨-, rfl⟩ := ho
    exact .inl hkey
  | setMode | beginActive | endActive | createSubscription | list | context | ack
  | reconcile | dispatch | settle =>
    obtain rfl := ho
    exact .inl hkey

/-- **One operation of these runs** keeps the outcomes of what is revoked. -/
theorem RevokedOk.perform {o : InboxOp} {r : o.Ans} (h : RevokedOk w)
    (hi : Inv NotAfter host False w) (hR : NotAfter o w r) (ho : perform κ o w r w') :
    RevokedOk w' := by
  intro key hkey
  rcases perform_revoked ho hkey with hold | ⟨sub, n, rfl, rfl, hacked, hn, he⟩ |
    ⟨sub, n, outcome, code, rfl, rfl, hn, he⟩
  · obtain ⟨outcome, code, hrecorded, hne⟩ := h key hold
    rcases perform_recorded ho key with he | ⟨sub, n, outcome', code', rfl, rfl, he⟩
    · exact ⟨outcome, code, he.trans hrecorded, hne⟩
    · exact ⟨outcome', code', he, fun hh => (hR hh).2 hold⟩
  · obtain ⟨⟨outcome, code⟩, hrecorded⟩ := Option.isSome_iff_exists.mp (hi.acked _ hacked)
    refine ⟨outcome, code, he.trans hrecorded, fun hh => ?_⟩
    rw [hh] at hrecorded
    exact hR hn code hrecorded
  · exact ⟨outcome, code, he, fun hh => (hR hh).1 hn⟩

/-- what is dead is not accepted. -/
theorem not_accepted {sub id : String} {live : LiveOrigin} (hi : Inv NotAfter host False w)
    (hr : RevokedOk w) (hdead : Dead host w sub id) : ¬Accepted host w ⟨sub, id⟩ live := by
  rintro ⟨-, ⟨row, hrecord, hrow⟩, floor, time, hfloor, htime, hlate⟩
  have hledger : w.ledger (sub, id) = some row := bindingRecord_row hrecord
  rcases hdead with hrevoked | ⟨hne, hnot⟩ | ⟨record, floor', time', hrecord', hfloor', htime', hlt⟩
  · obtain ⟨outcome, code, hrecorded, hne⟩ := hr _ hrevoked
    unfold World.recorded at hrecorded
    rw [hledger] at hrecorded
    obtain ⟨handledAt, hhandled, hrecorded⟩ := Option.bind_eq_some_iff.mp hrecorded
    obtain ⟨outcome', houtcome, hrecorded⟩ := Option.bind_eq_some_iff.mp hrecorded
    obtain ⟨rfl, -⟩ := Prod.mk.inj (Option.some.inj hrecorded)
    rcases hrow with ⟨hnone, -⟩ | hh
    · rw [hnone] at hhandled
      cases hhandled
    · exact hne (Option.some.inj (houtcome.symm.trans hh))
  · rcases hrow with ⟨-, ha⟩ | hh
    · rw [hi.active (sub, id)] at ha
      obtain ⟨⟨κ, key⟩, hmem, hkey⟩ := List.countP_pos_iff.mp ha
      obtain rfl : key = (sub, id) := of_decide_eq_true hkey
      exact hnot κ hmem
    · rw [hledger] at hne
      exact hne hh
  · rw [hrecord] at hrecord'
    obtain rfl := Option.some.inj hrecord'
    rw [hfloor] at hfloor'
    rw [htime] at htime'
    obtain rfl := Option.some.inj hfloor'
    obtain rfl := Option.some.inj htime'
    exact absurd hlt (Int.not_lt.mpr hlate)

theorem sound_of_inv (hi : Inv NotAfter host False w) (hr : RevokedOk w) : OriginsSound host w where
  direct sub id hdead live h := by
    obtain ⟨recorded, hrecorded, -⟩ := liveInboxOrigin_ok h
    exact not_accepted hi hr hdead (accepted_of_ok hrecorded)
  through sub id hdead own hnames live h := by
    obtain ⟨recorded, hrecorded, henvelope, hself⟩ := liveInboxOrigin_ok h
    obtain ⟨record, hrecord, hreason, hid⟩ := hnames
    obtain ⟨row, hrow, -⟩ := (accepted_of_ok hrecorded).recorded
    rw [hrow] at hrecord
    obtain rfl := Option.some.inj hrecord
    rw [henvelope] at hreason hid
    obtain ⟨id', nonSelf, hid', hnon, -⟩ := hself hreason
    obtain rfl : id = id' := Option.some.inj (hid.symm.trans hid')
    exact not_accepted hi hr hdead (accepted_of_ok hnon)
  named origin live h hreason := by
    obtain ⟨recorded, -, -, hself⟩ := liveInboxOrigin_ok h
    obtain ⟨id, nonSelf, hid, hnon, hne, htower⟩ := hself hreason
    exact ⟨id, nonSelf, hid, hne, liveInboxOrigin_nonSelf hnon hne, htower⟩

end

/-- **No origin acts for a revoked or unfinished notification**, in every run in which none is handed
as revoked after `handled` was recorded of it, and the other way round. -/
theorem origins_sound (host : Host) {c : Conf api World}
    (hc : Reachable (restricted host NotAfter) World.Initial c) : OriginsSound host c.state := by
  have K := polls_keeps (polls_restricted NotAfter host)
  obtain ⟨w, rfl, hsteps⟩ := hc
  have ok₀ : ConfOk (polls NotAfter host False (restricted host NotAfter)) (.idle {}) :=
    .idle (Inv.initial rfl)
  have hrevoked : RevokedOk c.state := by
    refine ok₀.run K (R := fun w w' => RevokedOk w → RevokedOk w') (fun _ h => h)
      (fun _ _ _ h h' hw => h' (h hw)) (fun κ o w r w' hi _ ho h => h.perform hi ho.1 ho.2)
      (fun w w' _ hcrash h => ?_) hsteps fun key hkey => absurd hkey List.not_mem_nil
    rw [hcrash]
    exact h
  exact sound_of_inv (ok₀.steps K hsteps).inv hrevoked

/-! ## a notification that is revoked -/

/-- Tower lists the notification as revoked. -/
def revokedScript : Script := { someScript with
  page := .ok { notifications := [{ someEnvelope with state := "revoked" }], nextCursor := "c1"
                hasMore := false } }

def okNotAfter : InboxOp → World → Bool
  | .ledger sub n, w => n.state ≠ "revoked" ∨ (w.recorded (sub, n.id)).all (·.1 ≠ .handled)
  | .markHandled sub n outcome _, w => outcome ≠ .handled ∨
      n.state ≠ "revoked" ∧ w.revoked.all (· ≠ (sub, n.id)) = true
  | _, _ => true

theorem notAfter_of_ok {o : InboxOp} {w : World} {script : Script} (h : okNotAfter o w = true) :
    NotAfter o w (script.ans o w) := by
  cases o with
  | ledger sub n =>
    intro hn code hrecorded
    rcases of_decide_eq_true h with h | h
    · exact h hn
    · rw [hrecorded] at h
      simp at h
  | markHandled sub n outcome code =>
    intro houtcome
    rcases of_decide_eq_true h with h | h
    · exact absurd houtcome h
    · exact ⟨h.1, fun hmem => of_decide_eq_true (List.all_eq_true.mp h.2 _ hmem) rfl⟩
  | _ => trivial

def optedIn : World := ({} : World).after 1 someScript optIn

/-- it is revoked, and its origin is refused. -/
theorem origins_sound_some : ∃ c : Conf api World, ("s", "n") ∈ c.state.revoked ∧
    OriginsSound someHost c.state := by
  have first : Solo (restricted someHost NotAfter) 1 optIn {} (.ret ()) optedIn :=
    .step () ⟨trivial, rfl⟩ (.refl _ _)
  obtain ⟨c₁, hc₁, hs₁, -, hr₁, ht₁⟩ := first.reachable World.Initial rfl
    (rfl : api.yields (.setMode "s" .inboxRequired "consumer") = true)
    (.setMode 1 "s" .inboxRequired "consumer")
  have second : Solo (restricted someHost NotAfter) 0 somePoll c₁.state (.ret ())
      (optedIn.after 0 revokedScript somePoll) := by
    rw [hs₁]
    exact solo_script (M := restricted someHost NotAfter) (fun hr ho => ⟨hr, ho⟩) revokedScript
      okNotAfter (fun _ _ h => notAfter_of_ok h) somePoll _ (by decide +kernel)
  obtain ⟨c₂, hc₂, hs₂, -⟩ := second.extend hc₁ hr₁ (ht₁ 0 (by decide))
    (rfl : api.yields (.get "s") = true) (.poll 0 "s" none)
  refine ⟨c₂, ?_, origins_sound someHost hc₂⟩
  rw [hs₂]
  decide +kernel

/-- handled and acknowledged, and then listed as revoked. -/
def revokedWorld : World :=
  (optedIn.after 0 someScript somePoll).after 2 revokedScript somePoll

/-- **A notification that is revoked after it was acknowledged stays live.** -/
theorem revoked_live : ¬∀ host c, Reachable (system host) World.Initial c →
    OriginsSound host c.state := by
  intro h
  have run : ∀ κ script p w, Solo (system someHost) κ p w (.ret ()) (w.after κ script p) :=
    fun κ script p w => solo_script (R := fun _ _ _ => True) (M := system someHost)
      (fun _ ho => ⟨trivial, ho⟩) script (fun _ _ => true) (fun _ _ _ => trivial) p w (allowed_all ..)
  obtain ⟨c₁, hc₁, hs₁, -, hr₁, ht₁⟩ := (run 1 someScript optIn {}).reachable World.Initial rfl
    (rfl : api.yields (.setMode "s" .inboxRequired "consumer") = true)
    (.setMode 1 "s" .inboxRequired "consumer")
  obtain ⟨c₂, hc₂, hs₂, -, hr₂, ht₂⟩ := (run 0 someScript somePoll c₁.state).extend hc₁ hr₁
    (ht₁ 0 (by decide)) (rfl : api.yields (.get "s") = true) (.poll 0 "s" none)
  obtain ⟨c₃, hc₃, hs₃, -⟩ := (run 2 revokedScript somePoll c₂.state).extend hc₂ hr₂
    ((ht₂ 2 (by decide)).trans (ht₁ 2 (by decide))) (rfl : api.yields (.get "s") = true)
    (.poll 2 "s" none)
  have hstate : c₃.state = revokedWorld := by rw [hs₃, hs₂, hs₁]; rfl
  have hdead : Dead someHost c₃.state "s" "n" := by
    rw [hstate]
    exact .inl (by decide +kernel)
  refine (h someHost c₃ hc₃).direct "s" "n" hdead
    ⟨⟨"s", "n"⟩, someEnvelope, "n"⟩ ?_
  rw [hstate]
  decide +kernel

end AgentInbox
end WmAutopilot
