import WmAutopilot.AgentChat.AgentInboxOnce

/-!
# Refused authorizations and the bound of attempts

* `OnlyAuth`        the attempts at a notification that fail are refused authorization;
* `FewAttempts`     an attempt at it begins only while fewer than `maxAttempts` were counted;
* `NotConsumed`     it is acknowledged only as handled, no cursor passes it before, and it is
                    dispatched when it is authorized again;
* `not_consumed`    **with few attempts it is not consumed**, in any run of any number of polls;
* `consumed`        after `maxAttempts` refusals it is acknowledged as failed.
-/

set_option autoImplicit false

namespace WmAutopilot
namespace AgentInbox
open Js Value Async

/-- a notification that has something to dispatch. -/
def Supported (n : Envelope) : Prop :=
  n.state ≠ "revoked" ∧ truthyText n.kind = true ∧
    ∃ source, n.source = some source ∧ synthesizeInboxEvents n source ≠ []

/-- the attempts at a notification that fail are refused authorization. -/
def OnlyAuth (key : Key) : Answers
  | .ledger sub n, _, _ => (sub, n.id) = key → Supported n
  | .context sub n, _, .ok context => (sub, n.id) = key → flowLinkedTaskMarkers context = []
  | .context sub n, _, .error error => (sub, n.id) = key → error.isClass .auth = true
  | .settle sub n _, _, .error error => (sub, n.id) = key → error.status = 401
  | _, _, _ => True

/-- an attempt at it begins only while fewer than `maxAttempts` were counted. -/
def FewAttempts (host : Host) (key : Key) : Answers
  | .beginAttempt sub n, w, _ => (sub, n.id) = key → w.attempts key < host.maxAttempts
  | _, _, _ => True

/-- Tower answers this page and this context. -/
def Authorized (page : Page) (context : Context) : Answers
  | .list _, _, answer => answer = .ok page
  | .context .., _, answer => answer = .ok context
  | .reconcile .., _, answer => answer = .ok false
  | _, _, _ => True

/-- **What refused authorizations do not do.** -/
structure NotConsumed (host : Host) (key : Key) (c : Conf api World) : Prop where
  recorded : ∀ outcome code, c.state.recorded key = some (outcome, code) → outcome = .handled
  acknowledged : ∀ κ sub n outcome code k, (sub, n.id) = key →
    c.threads κ = some (.call (.ack sub n outcome code) k) → outcome = .handled
  /-- a cursor passes it after it is handled. -/
  cursor : ∀ κ sub patch page k, c.threads κ = some (.call (.update sub patch (.page page)) k) →
    ∀ n ∈ page.notifications, (sub, n.id) = key →
      ∃ code, c.state.recorded key = some (.handled, code)
  /-- when it is authorized again, the next poll that comes to it dispatches it. -/
  dispatched : ∀ κ sub state n before after nextCursor hasMore context lastError,
    c.state.states sub = some state → state.mode = .inboxRequired →
    truthyText state.cursor = true → truthyText state.towerSubscriptionId = true →
    (∀ m ∈ before, c.state.Acked (sub, m.id)) → (sub, n.id) = key → Supported n →
    c.state.recorded key = none → c.state.attempts key < host.maxAttempts →
    flowLinkedTaskMarkers context = [] →
      ∃ event w', Reach (restricted host
          (Authorized ⟨before ++ n :: after, nextCursor, hasMore⟩ context)) κ
        (pollOnce host sub lastError).run c.state (.dispatch sub n event) w'

/-! ## what is recorded -/

section
variable {host : Host} {key : Key} {outcome : AckOutcome} {code : Option String}

/-- the answers of the runs. -/
def Bounded (host : Host) (key : Key) : Answers := fun o w r =>
  OnlyAuth key o w r ∧ FewAttempts host key o w r

/-- **Every exit that is left** says that the notification is handled. -/
theorem exit_handled {sub : String} {n : Envelope} (hkey : (sub, n.id) = key)
    (hn : ∃ w r, Bounded host key (.ledger sub n) w r)
    (h : Exit (Bounded host key) host sub n outcome code) : outcome = .handled := by
  obtain ⟨w₀, r₀, hn, -⟩ := hn
  obtain ⟨hactive, hkind, source, hsource, hevents⟩ := hn hkey
  have hauth : ∀ {w : World} {e : AgentInboxError},
      Bounded host key (.context sub n) w (.error (.inbox e)) → e.errorClass = .auth := by
    intro w e he
    exact of_decide_eq_true (he.1 hkey)
  cases h with
  | reconciled | handled => rfl
  | revoked h => exact absurd h hactive
  | malformed h =>
    rcases h with h | h
    · rw [hsource] at h
      cases h
    · rw [hkind] at h
      cases h
  | maxAttempts w row h hrow hmax =>
    have hfew : w.attempts key < host.maxAttempts := h.2 hkey
    rw [hrow, hkey] at hmax
    exact absurd hfew (Nat.not_lt.mpr (Nat.le_of_lt_succ hmax))
  | sourceGone w e h he | relationship w e h he | notFound w e h he =>
    rw [hauth h] at he
    cases he
  | flow w context h hflow => exact absurd (h.1 hkey) hflow
  | unsupportedKind source' hs h =>
    rw [hsource] at hs
    obtain rfl := Option.some.inj hs
    exact absurd h hevents
  | unbound w event message h =>
    have hstatus : (403 : ℕ) = 401 := h.1 hkey
    cases hstatus
  | refused w event e h he =>
    have hstatus : e.status = 401 := h.1 hkey
    rw [he] at hstatus
    cases hstatus

theorem caused_handled (h : Caused (Bounded host key) host key outcome code) :
    outcome = .handled := by
  obtain ⟨sub, n, hkey, hn, hexit⟩ := h
  exact exit_handled hkey.symm hn hexit

end

/-! ## an authorized poll -/

section
variable {host : Host} {page : Page} {context : Context} {κ : ℕ} {w : World} {sub : String}
  {n : Envelope} {lastError : Option Failure}

theorem ran_now {o : InboxOp} {r : o.Ans} {w' : World} (hR : Authorized page context o w r)
    (ho : perform κ o w r w') :
    Ran (restricted host (Authorized page context)) κ (op o) w (.ok r) w' := Ran.op ⟨hR, ho⟩

/-- an acknowledged notification is passed. -/
theorem ran_acked (h : w.Acked (sub, n.id)) : ∃ w', w'.ledger = w.ledger ∧
    Ran (restricted host (Authorized page context)) κ (handle host sub n lastError) w
      (.ok (.done, lastError)) w' := by
  refine ⟨w.enter sub n, rfl, ?_⟩
  refine Ran.bind (ran_now (r := w.ledger (sub, n.id)) trivial ⟨rfl, rfl⟩) ?_
  unfold World.Acked at h
  rw [if_pos h]
  exact .pure _ _

theorem reach_dispatchEvents {event : FlightDeckPgEvent} {events : List FlightDeckPgEvent} :
    ∃ w', Reach (restricted host (Authorized page context)) κ
      (dispatchEvents sub n (event :: events) lastError).run w (.dispatch sub n event) w' :=
  ⟨_, (ran_now (o := .beginActive sub n) (r := ()) trivial rfl).reach (Ran.reach_bind
    (Ran.reach_bind (.here _ _ _)))⟩

/-- an attempt is made, and it dispatches. -/
theorem reach_attempt {source : Source}
    (hevents : synthesizeInboxEvents n source ≠ []) (hflow : flowLinkedTaskMarkers context = [])
    (hfew : w.attempts (sub, n.id) < host.maxAttempts) :
    ∃ event w', Reach (restricted host (Authorized page context)) κ
      (attemptHandling host sub n source lastError).run w (.dispatch sub n event) w' := by
  have hattempt : ¬(attemptRow n "T" (w.ledger (sub, n.id))).attempts > host.maxAttempts := by
    rw [attemptRow_attempts]
    exact Nat.not_lt.mpr hfew
  let w₁ := w.setRow (sub, n.id) (some (attemptRow n "T" (w.ledger (sub, n.id))))
  obtain ⟨event, events, he⟩ := List.exists_cons_of_ne_nil hevents
  have hdispatch : ∃ w', Reach (restricted host (Authorized page context)) κ
      (dispatchEvents sub n (event :: events) lastError).run w₁ (.dispatch sub n event) w' :=
    reach_dispatchEvents
  obtain ⟨w', hreach⟩ := hdispatch
  refine ⟨event, w', (ran_now (o := .beginAttempt sub n) trivial ⟨"T", rfl, rfl⟩).reach ?_⟩
  rw [if_neg hattempt]
  refine (ran_now (o := .context sub n) (r := .ok context) rfl rfl).reach ?_
  show Reach _ κ (handleContext sub n source context lastError).run w₁ _ _
  unfold handleContext
  rw [if_neg (not_not.mpr hflow), he]
  exact hreach

/-- no handler has accepted it. -/
theorem ran_reconciled (row : Option LedgerRow) :
    Ran (restricted host (Authorized page context)) κ (reconciled host sub n row) w (.ok false)
      w := by
  unfold reconciled
  cases (row.filter (·.handledAt.isNone)).bind (·.startedAt) with
  | none => exact .pure _ _
  | some since =>
    show Ran _ κ (if host.reconciles = true then _ else _) w _ w
    split
    · exact Ran.tryOp (A := api) (o := .reconcile sub n since) (r := .ok false) ⟨rfl, rfl⟩
    · exact .pure _ _

/-- **A notification that is not handled is dispatched.** -/
theorem reach_handle (hn : Supported n) (hflow : flowLinkedTaskMarkers context = [])
    (hacked : ¬w.Acked (sub, n.id)) (hnone : w.recorded (sub, n.id) = none)
    (hfew : w.attempts (sub, n.id) < host.maxAttempts) :
    ∃ event w', Reach (restricted host (Authorized page context)) κ
      (handle host sub n lastError).run w (.dispatch sub n event) w' := by
  obtain ⟨hactive, hkind, source, hs, hevents⟩ := hn
  have hattempt : ∃ event w', Reach (restricted host (Authorized page context)) κ
      (attemptHandling host sub n source lastError).run (w.enter sub n) (.dispatch sub n event) w' :=
    reach_attempt hevents hflow hfew
  obtain ⟨event, w', hreach⟩ := hattempt
  refine ⟨event, w', (ran_now (o := .ledger sub n) (r := w.ledger (sub, n.id)) trivial
    ⟨rfl, rfl⟩).reach ?_⟩
  unfold World.Acked at hacked
  unfold World.recorded at hnone
  rw [if_neg hacked, hnone]
  show Reach _ κ (handleNew host sub n _ lastError).run _ _ _
  unfold handleNew
  rw [if_neg hactive, hs, hkind]
  exact (ran_reconciled _).reach hreach

/-- the notifications before it are passed. -/
theorem reach_handleAll (after : List Envelope) (hn : Supported n)
    (hflow : flowLinkedTaskMarkers context = []) (hacked : ¬w.Acked (sub, n.id))
    (hnone : w.recorded (sub, n.id) = none) (hfew : w.attempts (sub, n.id) < host.maxAttempts) :
    ∀ (before : List Envelope), (∀ m ∈ before, w.Acked (sub, m.id)) → ∀ u : World,
      u.ledger = w.ledger → ∃ event w', Reach (restricted host (Authorized page context)) κ
        (handleAll host sub (before ++ n :: after) lastError).run u (.dispatch sub n event) w' := by
  intro before hbefore
  induction before with
  | nil =>
    intro u hu
    have hacked' : ¬u.Acked (sub, n.id) := by unfold World.Acked; rw [hu]; exact hacked
    have hnone' : u.recorded (sub, n.id) = none := by unfold World.recorded; rw [hu]; exact hnone
    have hfew' : u.attempts (sub, n.id) < host.maxAttempts := by
      unfold World.attempts
      rw [hu]
      exact hfew
    have hhandle : ∃ event w', Reach (restricted host (Authorized page context)) κ
        (handle host sub n lastError).run u (.dispatch sub n event) w' :=
      reach_handle hn hflow hacked' hnone' hfew'
    obtain ⟨event, w', hreach⟩ := hhandle
    exact ⟨event, w', Ran.reach_bind hreach⟩
  | cons m before ih =>
    intro u hu
    have hm : u.Acked (sub, m.id) := by
      unfold World.Acked
      rw [hu]
      exact hbefore m List.mem_cons_self
    have hpass : ∃ u', u'.ledger = u.ledger ∧ Ran (restricted host (Authorized page context)) κ
        (handle host sub m lastError) u (.ok (.done, lastError)) u' := ran_acked hm
    obtain ⟨u', hu', hran⟩ := hpass
    obtain ⟨event, w', hreach⟩ := ih (fun m hm => hbefore m (List.mem_cons_of_mem _ hm)) u'
      (hu'.trans hu)
    exact ⟨event, w', hran.reach hreach⟩

end

/-! ## the main result -/

/-- **Refused authorizations do not consume a notification**, if an attempt at it begins only while
fewer than `maxAttempts` were counted. -/
theorem not_consumed (host : Host) (key : Key) {c : Conf api World}
    (hc : Reachable (restricted host (Bounded host key)) World.Initial c) :
    NotConsumed host key c := by
  have ok : ConfOk (polls (Bounded host key) host False (restricted host (Bounded host key))) c :=
    (polls_keeps (polls_restricted _ host)).reachable (fun w hw => .initial hw) hc
  have hrecorded : ∀ outcome code, c.state.recorded key = some (outcome, code) →
      outcome = .handled := fun outcome code h => caused_handled (ok.inv.caused key outcome code h)
  refine ⟨hrecorded, fun κ sub n outcome code k hkey hκ => ?_,
    fun κ sub patch page k hκ n hn hkey => ?_,
    fun κ sub state n before after nextCursor hasMore context lastError hstate hmode hcursor htower
      hbefore hkey hn hnone hfew hflow => ?_⟩
  · have hcaused := (ok.permitted hκ).1.1
    rw [hkey] at hcaused
    exact caused_handled hcaused
  · have hacked : c.state.Acked (sub, n.id) := (ok.permitted hκ).1.2 n hn
    rw [hkey] at hacked
    obtain ⟨⟨outcome, code⟩, ho⟩ := Option.isSome_iff_exists.mp (ok.inv.acked key hacked)
    obtain rfl := hrecorded outcome code ho
    exact ⟨code, ho⟩
  · subst hkey
    have hacked : ¬c.state.Acked (sub, n.id) := by
      intro h
      have := ok.inv.acked _ h
      rw [hnone] at this
      cases this
    have hall : ∃ event w', Reach (restricted host
        (Authorized ⟨before ++ n :: after, nextCursor, hasMore⟩ context)) κ
        (handleAll host sub (before ++ n :: after) lastError).run c.state (.dispatch sub n event) w' :=
      reach_handleAll after hn hflow hacked hnone hfew before hbefore c.state rfl
    obtain ⟨event, w', hreach⟩ := hall
    refine ⟨event, w', (ran_now (o := .get sub) (r := some state) trivial ⟨hstate.symm, rfl⟩).reach ?_⟩
    show Reach _ κ (if state.mode ≠ .inboxRequired then _ else if
      truthyText state.cursor = true ∧ truthyText state.towerSubscriptionId = true then _ else
        _ : Task Polled).run _ _ _
    rw [if_neg (not_not.mpr hmode), if_pos ⟨hcursor, htower⟩]
    refine (ran_now (o := .list _) (r := .ok ⟨before ++ n :: after, nextCursor, hasMore⟩) rfl
      rfl).reach ?_
    exact Ran.reach_bind hreach

/-! ## runs -/

/-- Tower refuses the context. -/
def refusedScript : Script := { someScript with
  context := .error (.inbox
    { status := 401, code := "unauthorized", errorClass := .auth, message := "unauthorized" }) }

/-- what the polls of these runs perform. -/
def okAuth : InboxOp → World → Bool
  | .ledger _ n, _ => n = someEnvelope
  | _, _ => true

/-- … and few attempts are begun. -/
def okBounded : InboxOp → World → Bool
  | .ledger _ n, _ => n = someEnvelope
  | .beginAttempt sub n, w => w.attempts (sub, n.id) < someHost.maxAttempts
  | _, _ => true

theorem supported_some : Supported someEnvelope :=
  ⟨by decide, by decide, _, rfl, by decide⟩

theorem onlyAuth_refused {o : InboxOp} {w : World} (h : okAuth o w = true) :
    OnlyAuth ("s", "n") o w (refusedScript.ans o w) := by
  cases o with
  | ledger sub n =>
    obtain rfl : n = someEnvelope := of_decide_eq_true h
    exact fun _ => supported_some
  | context => exact fun _ => rfl
  | _ => trivial

theorem bounded_refused {o : InboxOp} {w : World} (h : okBounded o w = true) :
    Bounded someHost ("s", "n") o w (refusedScript.ans o w) := by
  cases o with
  | ledger sub n => exact ⟨onlyAuth_refused h, trivial⟩
  | beginAttempt sub n =>
    refine ⟨onlyAuth_refused rfl, fun hkey => ?_⟩
    rw [← hkey]
    exact of_decide_eq_true h
  | _ => exact ⟨onlyAuth_refused rfl, trivial⟩

/-- the world after so many polls that were refused. -/
def refusedWorld : ℕ → World
  | 0 => ({} : World).after 1 someScript optIn
  | i + 1 => (refusedWorld i).after 0 refusedScript somePoll

section
variable {R : Answers}

theorem reachable_optIn (h : R (.setMode "s" .inboxRequired "consumer") {} ()) :
    ∃ c, Reachable (restricted someHost R) World.Initial c ∧ c.state = refusedWorld 0 ∧
      c.running = none ∧ c.threads 0 = none := by
  have run : Solo (restricted someHost R) 1 optIn {} (.ret ()) (refusedWorld 0) :=
    .step () ⟨h, rfl⟩ (.refl _ _)
  obtain ⟨c, hc, hs, -, hr, ht⟩ := run.reachable World.Initial rfl
    (rfl : api.yields (.setMode "s" .inboxRequired "consumer") = true)
    (.setMode 1 "s" .inboxRequired "consumer")
  exact ⟨c, hc, hs, hr, ht 0 (by decide)⟩

/-- so many polls, one after the other. -/
theorem reachable_refused (ok : InboxOp → World → Bool)
    (hR : ∀ o w, ok o w = true → R o w (refusedScript.ans o w)) (m : ℕ)
    (h : R (.setMode "s" .inboxRequired "consumer") {} ())
    (hok : ∀ i < m, somePoll.allowed refusedScript.ans (effect 0) ok (refusedWorld i) = true) :
    ∃ c, Reachable (restricted someHost R) World.Initial c ∧ c.state = refusedWorld m ∧
      c.running = none ∧ c.threads 0 = none := by
  induction m with
  | zero => exact reachable_optIn h
  | succ m ih =>
    obtain ⟨c, hc, hs, hr, ht⟩ := ih fun i hi => hok i (Nat.lt_succ_of_lt hi)
    have run : Solo (restricted someHost R) 0 somePoll c.state (.ret ()) (refusedWorld (m + 1)) := by
      rw [hs]
      exact solo_script (M := restricted someHost R) (fun hr ho => ⟨hr, ho⟩) refusedScript ok hR
        somePoll _ (hok m (Nat.lt_succ_self m))
    obtain ⟨c', hc', hs', -, hr', ht'⟩ := run.extend hc hr ht
      (rfl : api.yields (.get "s") = true) (.poll 0 "s" none)
    exact ⟨_, hc'.forget hr' 0, hs', hr', by simp⟩

end

/-- five polls are refused, and nothing is recorded. -/
theorem not_consumed_some : ∃ c : Conf api World, c.state.attempts ("s", "n") = 5 ∧
    c.state.recorded ("s", "n") = none ∧ NotConsumed someHost ("s", "n") c := by
  obtain ⟨c, hc, hs, -⟩ := reachable_refused (R := Bounded someHost ("s", "n"))
    okBounded (fun o w h => bounded_refused h) 5 ⟨trivial, trivial⟩ (by decide +kernel)
  refine ⟨c, ?_, ?_, not_consumed someHost ("s", "n") hc⟩
  · rw [hs]
    decide +kernel
  · rw [hs]
    decide +kernel

/-- **After five refusals the notification is acknowledged as failed**, on the sixth poll. -/
theorem consumed : ¬∀ host key c, Reachable (restricted host (OnlyAuth key)) World.Initial c →
    NotConsumed host key c := by
  intro h
  obtain ⟨c, hc, hs, -⟩ := reachable_refused (R := OnlyAuth ("s", "n")) okAuth
    (fun o w h => onlyAuth_refused h) 6 trivial (by decide +kernel)
  have hfailed : c.state.recorded ("s", "n") = some (.failedPermanent, some "max_attempts") := by
    rw [hs]
    decide +kernel
  have := (h someHost ("s", "n") c hc).recorded _ _ hfailed
  cases this

end AgentInbox
end WmAutopilot
