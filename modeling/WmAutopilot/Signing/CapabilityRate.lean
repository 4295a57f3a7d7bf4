import WmAutopilot.Signing.CapabilityBroker

/-!
# The rate of a capability

* `World`, `Act`, `step`   the broker with a log of the calls of `authorize`, and what happens to it:
                           calls, refreshes, hand-offs, new capabilities, revocations, restarts;
* `Effect`                 what a call does to the broker;
* `Tracks`                 the window of a capability holds the calls that were authorised;
* `Inv`, `Inv.step`        what holds between the steps;
* `RateLimited`            what is expected of the log;
* `sliding_window`         **every run is rate limited**.
-/

set_option autoImplicit false
set_option linter.unusedVariables false

namespace WmAutopilot
namespace Signing
namespace Capabilities
open Js SlidingWindow

/-! ## runs -/

/-- How a call of a capability ended. -/
inductive Ending where
  | authorized
  | rateLimited
  | denied
  deriving DecidableEq

/-- A call of `authorize` with the token of a capability. -/
structure Call where
  hash : String
  limit : ℕ
  now : ℤ
  ending : Ending
  deriving DecidableEq

structure World where
  broker : Broker
  log : List Call

def Verdict.ending : Verdict → Ending
  | .authorized _ => .authorized
  | .rateLimited _ => .rateLimited
  | .denied .. | .reissued => .denied

/-- the capability whose token a request has. -/
def presented (host : Host) (b : Broker) (request : Request) : Option CapabilityRecord :=
  (readBearerToken request.authorization).bind fun token => b.get (host.sha256 token)

/-- what a call adds to the log. -/
def logged (host : Host) (b : Broker) (request : Request) (now : ℤ) (verdict : Verdict) :
    List Call :=
  (presented host b request).toList.map fun capability =>
    ⟨capability.tokenHash, maxCalls capability.policy, now, verdict.ending⟩

/-- What happens to the broker. -/
inductive Act where
  | authorize (env : Env) (request : Request) (operation : BrokerOperation) (sessionId : String)
  | refresh (env : Env) (request : Request) (sessionId : String)
  | adopt (env : Env) (request : Request) (sessionId : String)
  | issue (env : Env) (input : IssueInput) (id token : String)
  | revoke (now : ℤ) (sessionId : String)
  /-- `input` is none when nothing can be issued. -/
  | reissue (env : Env) (sessionId : String) (input : Option IssueInput) (id token : String)
  /-- what an authorised call goes on to use up. -/
  | spend (hash : String) (spentMsats : ℤ) (usedChallenges : List String)
  | restart

/-- the broker after a call that may throw. -/
def orSame (b : Broker) (outcome : Except String Broker) : Broker := outcome.toOption.getD b

def step (host : Host) (w : World) : Act → World
  | .authorize env request operation sessionId =>
    let answer := authorize host env request operation sessionId false w.broker
    ⟨answer.1, w.log ++ logged host w.broker request env.now answer.2⟩
  | .refresh env request sessionId =>
    let answer := handleRefresh host env request sessionId w.broker
    ⟨answer.1, w.log ++ logged host w.broker request env.now answer.2⟩
  | .adopt env request sessionId =>
    { w with broker := (handleReissueAdopt host env request sessionId w.broker).1 }
  | .issue env input id token =>
    { w with broker := orSame w.broker (issueSessionCapability host env input id token w.broker) }
  | .revoke now sessionId => { w with broker := revokeSession now sessionId w.broker }
  | .reissue env sessionId input id token =>
    let issue := issueFor host env input id token
    { w with broker := (reissueSessionCapability env.now sessionId issue w.broker).1 }
  | .spend hash spentMsats usedChallenges =>
    { w with broker := (w.broker.modify hash fun r => { r with spentMsats, usedChallenges }).persist }
  | .restart => { w with broker := w.broker.restart }

/-- the records of the broker and of its state store. -/
def known (b : Broker) : List CapabilityRecord := b.capabilities ++ b.saved.getD []

/-- The clock does not go back, and a token that is drawn is new. -/
def Ready (host : Host) (w : World) : Act → Prop
  | .authorize env .. | .refresh env .. => ∀ call ∈ w.log, call.now ≤ env.now
  | .issue _ _ _ token | .reissue _ _ _ _ token =>
    (∀ r ∈ known w.broker, r.tokenHash ≠ host.sha256 token) ∧
      ∀ call ∈ w.log, call.hash ≠ host.sha256 token
  | _ => True

/-- The worlds that a run comes to, from a broker with no capability. -/
inductive Reached (host : Host) : World → Prop where
  | start (stored : Bool) : Reached host ⟨⟨[], [], if stored then some [] else none⟩, []⟩
  | step {w : World} (h : Reached host w) (act : Act) (hready : Ready host w act) :
      Reached host (step host w act)

/-- the times of the authorised calls of a capability. -/
def authorized (hash : String) (log : List Call) : List ℤ :=
  (log.filter fun call => call.hash = hash ∧ call.ending = .authorized).map (·.now)

/-- **What is expected of the log**: no window of a minute holds more authorised calls of a capability
than its limit, and a call is refused only when the window ending at it is full of authorised
calls. -/
structure RateLimited (log : List Call) : Prop where
  bounded : ∀ call ∈ log, Bounded RATE_WINDOW_MS call.limit (authorized call.hash log)
  refused : ∀ before call after, log = before ++ call :: after → call.ending = .rateLimited →
    call.limit ≤ (recent RATE_WINDOW_MS call.now (authorized call.hash before)).length

/-- The window of a capability holds the calls that were authorised, and no other. -/
def Tracks (log : List Call) (r : CapabilityRecord) : Prop :=
  ∀ now, (∀ call ∈ log, call.now ≤ now) →
    recent RATE_WINDOW_MS now r.callTimestamps =
      recent RATE_WINDOW_MS now (authorized r.tokenHash log)

/-- What a call does to the broker: nothing when it is denied, and else the window of the capability
is pruned, with the call in it when there is room. -/
inductive Effect (host : Host) (now : ℤ) (request : Request) (b : Broker) : Broker → Verdict → Prop
    where
  | denied {verdict : Verdict} (hending : verdict.ending = .denied) :
      Effect host now request b b verdict
  | full (capability : CapabilityRecord) (nonces : List String) {rateLimit : RateLimit}
      (hfound : presented host b request = some capability)
      (hfull : maxCalls capability.policy ≤
        (recent RATE_WINDOW_MS now capability.callTimestamps).length) :
      Effect host now request b
        (b.modify capability.tokenHash fun _ => { capability with
          usedNonces := nonces
          callTimestamps := recent RATE_WINDOW_MS now capability.callTimestamps })
        (.rateLimited rateLimit)
  | called (capability : CapabilityRecord) (nonces : List String) {result : CapabilityRecord}
      (hfound : presented host b request = some capability)
      (hfree : (recent RATE_WINDOW_MS now capability.callTimestamps).length <
        maxCalls capability.policy) :
      Effect host now request b
        (b.modify capability.tokenHash fun _ => { capability with
          usedNonces := nonces
          callTimestamps := recent RATE_WINDOW_MS now capability.callTimestamps ++ [now] }).persist
        (.authorized result)

/-- What holds between the steps. -/
structure Inv (w : World) : Prop where
  tracks : ∀ r ∈ known w.broker, Tracks w.log r
  limits : ∀ r ∈ known w.broker, ∀ call ∈ w.log, call.hash = r.tokenHash →
    call.limit = maxCalls r.policy
  policies : ∀ r ∈ known w.broker, ∀ r' ∈ known w.broker, r.tokenHash = r'.tokenHash →
    r.policy = r'.policy
  rate : RateLimited w.log

section
variable {host : Host} {env : Env} {request : Request} {operation : BrokerOperation}
  {sessionId hash id token : String} {allowExpired : Bool} {b b' : Broker} {w : World}
  {r r' : CapabilityRecord} {log : List Call} {call : Call} {now : ℤ} {nonce : String}
  {input : IssueInput} {verdict : Verdict}

/-! ## records -/

/-- what counts of a record is the same. -/
structure Alike (r r' : CapabilityRecord) : Prop where
  tokenHash : r'.tokenHash = r.tokenHash
  callTimestamps : r'.callTimestamps = r.callTimestamps
  policy : r'.policy = r.policy

theorem Alike.refl (r : CapabilityRecord) : Alike r r := ⟨rfl, rfl, rfl⟩

/-- the records of `b'` are those of `b`. -/
def Comes (b b' : Broker) : Prop := ∀ r' ∈ known b', ∃ r ∈ known b, Alike r r'

theorem Comes.refl (b : Broker) : Comes b b := fun r hr => ⟨r, hr, .refl r⟩

theorem Comes.trans {b'' : Broker} (h : Comes b b') (h' : Comes b' b'') : Comes b b'' := by
  intro r'' hr''
  obtain ⟨r', hr', halike'⟩ := h' r'' hr''
  obtain ⟨r, hr, halike⟩ := h r' hr'
  exact ⟨r, hr, halike'.tokenHash.trans halike.tokenHash,
    halike'.callTimestamps.trans halike.callTimestamps, halike'.policy.trans halike.policy⟩

theorem mem_known : r ∈ known b ↔ r ∈ b.capabilities ∨ r ∈ b.saved.getD [] := List.mem_append

theorem mem_saved_persist (hr : r ∈ b.persist.saved.getD []) : r ∈ b.capabilities := by
  unfold Broker.persist at hr
  cases hsaved : b.saved with
  | none => rw [hsaved] at hr; cases hr
  | some saved =>
    rw [hsaved] at hr
    exact List.mem_of_mem_filter hr

/-- what is written is what there is. -/
theorem mem_known_persist (hr : r ∈ known b.persist) : r ∈ b.capabilities :=
  (mem_known.mp hr).elim id mem_saved_persist

theorem comes_persist : Comes b b.persist :=
  fun r hr => ⟨r, mem_known.mpr (.inl (mem_known_persist hr)), .refl r⟩

/-- records that are changed in what does not count. -/
theorem comes_map {f : CapabilityRecord → CapabilityRecord} (hf : ∀ r, Alike r (f r))
    {handoffs : List Handoff} :
    Comes b { b with capabilities := b.capabilities.map f, handoffs } := by
  intro r' hr'
  rcases mem_known.mp hr' with hr' | hr'
  · obtain ⟨r, hr, rfl⟩ := List.mem_map.mp hr'
    exact ⟨r, mem_known.mpr (.inl hr), hf r⟩
  · exact ⟨r', mem_known.mpr (.inr hr'), .refl r'⟩

theorem alike_revoked : Alike r (revoked now r) := by
  unfold revoked
  split <;> exact ⟨rfl, rfl, rfl⟩

theorem comes_revokeSession : Comes b (revokeSession now sessionId b) := by
  unfold revokeSession
  split
  · exact .refl b
  · refine (comes_map fun r => ?_).trans comes_persist
    split
    · exact alike_revoked
    · exact .refl r

theorem comes_restart : Comes b b.restart := by
  intro r hr
  refine ⟨r, mem_known.mpr (.inr ?_), .refl r⟩
  exact (mem_known.mp hr).elim List.mem_of_mem_filter id

theorem comes_modify {f : CapabilityRecord → CapabilityRecord} (hf : ∀ r, Alike r (f r)) :
    Comes b (b.modify hash f) := by
  refine comes_map fun r => ?_
  split
  · exact hf r
  · exact .refl r

theorem comes_spend {spentMsats : ℤ} {usedChallenges : List String} :
    Comes b (b.modify hash fun r => { r with spentMsats, usedChallenges }).persist := by
  refine (comes_modify fun r => ?_).trans comes_persist
  exact ⟨rfl, rfl, rfl⟩

theorem comes_adopt : Comes b (handleReissueAdopt host env request sessionId b).1 := by
  unfold handleReissueAdopt
  split
  · exact .refl b
  · exact fun r hr => ⟨r, hr, .refl r⟩

/-- The records of `b'` are those of `b`, and a new one without calls. -/
def ComesNew (hash : String) (policy : SessionCapabilityPolicy) (b b' : Broker) : Prop :=
  ∀ r' ∈ known b', (∃ r ∈ known b, Alike r r') ∨
    r'.tokenHash = hash ∧ r'.callTimestamps = [] ∧ r'.policy = policy

theorem Comes.comesNew {policy : SessionCapabilityPolicy} {b'' : Broker} (h : Comes b b')
    (h' : ComesNew hash policy b' b'') : ComesNew hash policy b b'' := by
  intro r'' hr''
  refine (h' r'' hr'').imp_left fun ⟨r', hr', halike'⟩ => ?_
  obtain ⟨r, hr, halike⟩ := h r' hr'
  exact ⟨r, hr, halike'.tokenHash.trans halike.tokenHash,
    halike'.callTimestamps.trans halike.callTimestamps, halike'.policy.trans halike.policy⟩

/-- a capability that was issued has the hash of its token, no calls, and the policy of the call. -/
theorem issuedRecord_ok (h : issuedRecord env b input id hash = .ok r) :
    r.tokenHash = hash ∧ r.callTimestamps = [] ∧ r.policy = input.policy := by
  unfold issuedRecord at h
  simp only [bind_ok] at h
  obtain ⟨session, -, -, -, -, -, -, -, -, -, -, -, -, -, h⟩ := h
  cases h
  exact ⟨rfl, rfl, rfl⟩

theorem comesNew_issue (h : issueSessionCapability host env input id token b = .ok b') :
    ComesNew (host.sha256 token) input.policy b b' := by
  obtain ⟨record, hrecord, heq⟩ := bind_ok.mp h
  obtain rfl := Except.ok.inj heq
  intro r' hr'
  rcases mem_put.mp (mem_known_persist hr') with rfl | ⟨hold, -⟩
  · exact .inr (issuedRecord_ok hrecord)
  · exact .inl ⟨r', mem_known.mpr (.inl hold), .refl r'⟩

theorem comesNew_orSame : ∃ policy, ComesNew (host.sha256 token) policy b
    (orSame b (issueSessionCapability host env input id token b)) := by
  cases h : issueSessionCapability host env input id token b with
  | ok b' => exact ⟨input.policy, comesNew_issue h⟩
  | error e => exact ⟨input.policy, fun r hr => .inl ⟨r, hr, .refl r⟩⟩

theorem comesNew_reissue {input : Option IssueInput} :
    ∃ policy, ComesNew (host.sha256 token) policy b
      (reissueSessionCapability now sessionId (issueFor host env input id token) b).1 := by
  unfold reissueSessionCapability
  dsimp only
  cases h : issueFor host env input id token (revokeSession now sessionId b) with
  | error e =>
    exact ⟨⟨[], none, none, none⟩, fun r hr => .inl (comes_revokeSession r hr)⟩
  | ok issued =>
    obtain ⟨b', token'⟩ := issued
    unfold issueFor at h
    obtain ⟨input, -, h⟩ := bind_ok.mp h
    obtain ⟨b₁, hissue, h⟩ := bind_ok.mp h
    cases h
    have hnew : ComesNew (host.sha256 token) input.policy b b' :=
      comes_revokeSession.comesNew (comesNew_issue hissue)
    exact ⟨input.policy, fun r hr => hnew r hr⟩

/-! ## the log -/

theorem authorized_append {log' : List Call} :
    authorized hash (log ++ log') = authorized hash log ++ authorized hash log' := by
  unfold authorized
  rw [List.filter_append, List.map_append]

/-- a call that was not authorised, or of another capability. -/
theorem authorized_of_not (h : ¬(call.hash = hash ∧ call.ending = .authorized)) :
    authorized hash [call] = [] := by
  unfold authorized
  rw [List.filter_cons_of_neg (by rw [decide_eq_true_iff]; exact h)]
  rfl

theorem authorized_of_ending (hhash : call.hash = hash) (h : call.ending = .authorized) :
    authorized hash [call] = [call.now] := by
  have hfilter : [call].filter (fun call => call.hash = hash ∧ call.ending = .authorized) = [call] :=
    List.filter_cons_of_pos (decide_eq_true (And.intro hhash h))
  unfold authorized
  rw [hfilter]
  rfl

/-- what a call that was not authorised leaves as it was. -/
theorem authorized_append_of_not (h : ¬(call.hash = hash ∧ call.ending = .authorized)) :
    authorized hash (log ++ [call]) = authorized hash log := by
  rw [authorized_append, authorized_of_not h, List.append_nil]

theorem Tracks.of_alike (h : Tracks log r) (halike : Alike r r') : Tracks log r' := by
  intro now hnow
  rw [halike.callTimestamps, halike.tokenHash]
  exact h now hnow

/-- a capability without calls. -/
theorem tracks_of_fresh (hnone : ∀ call ∈ log, call.hash ≠ r.tokenHash)
    (htimes : r.callTimestamps = []) : Tracks log r := by
  intro now _
  have hauthorized : authorized r.tokenHash log = [] := by
    unfold authorized
    rw [List.map_eq_nil_iff, List.filter_eq_nil_iff]
    intro call hcall
    rw [decide_eq_true_iff]
    exact fun h => hnone call hcall h.1
  rw [htimes, hauthorized]

theorem Inv.comes (h : Inv w) (hc : Comes w.broker b') : Inv ⟨b', w.log⟩ where
  tracks r' hr' := by
    obtain ⟨r, hr, halike⟩ := hc r' hr'
    exact (h.tracks r hr).of_alike halike
  limits r' hr' call hcall hhash := by
    obtain ⟨r, hr, halike⟩ := hc r' hr'
    rw [halike.policy]
    exact h.limits r hr call hcall (hhash.trans halike.tokenHash)
  policies r₁ hr₁ r₂ hr₂ hhash := by
    obtain ⟨r, hr, halike⟩ := hc r₁ hr₁
    obtain ⟨r', hr', halike'⟩ := hc r₂ hr₂
    rw [halike.policy, halike'.policy]
    exact h.policies r hr r' hr'
      (halike.tokenHash.symm.trans (hhash.trans halike'.tokenHash))
  rate := h.rate

/-- **A new capability.** -/
theorem Inv.comesNew {policy : SessionCapabilityPolicy} (h : Inv w)
    (hc : ComesNew hash policy w.broker b') (hnew : ∀ r ∈ known w.broker, r.tokenHash ≠ hash)
    (hlog : ∀ call ∈ w.log, call.hash ≠ hash) : Inv ⟨b', w.log⟩ where
  tracks r' hr' := by
    rcases hc r' hr' with ⟨r, hr, halike⟩ | ⟨hhash, htimes, -⟩
    · exact (h.tracks r hr).of_alike halike
    · exact tracks_of_fresh (fun call hcall => hhash ▸ hlog call hcall) htimes
  limits r' hr' call hcall hhash := by
    rcases hc r' hr' with ⟨r, hr, halike⟩ | ⟨hhash', -, -⟩
    · rw [halike.policy]
      exact h.limits r hr call hcall (hhash.trans halike.tokenHash)
    · exact absurd (hhash.trans hhash') (hlog call hcall)
  policies r₁ hr₁ r₂ hr₂ hhash := by
    rcases hc r₁ hr₁ with ⟨r, hr, halike⟩ | ⟨hhash₁, -, hpolicy₁⟩
    · rcases hc r₂ hr₂ with ⟨r', hr', halike'⟩ | ⟨hhash₂, -, -⟩
      · rw [halike.policy, halike'.policy]
        exact h.policies r hr r' hr'
          (halike.tokenHash.symm.trans (hhash.trans halike'.tokenHash))
      · exact absurd (halike.tokenHash.symm.trans (hhash.trans hhash₂)) (hnew r hr)
    · rcases hc r₂ hr₂ with ⟨r', hr', halike'⟩ | ⟨-, -, hpolicy₂⟩
      · exact absurd (halike'.tokenHash.symm.trans (hhash.symm.trans hhash₁)) (hnew r' hr')
      · rw [hpolicy₁, hpolicy₂]
  rate := h.rate

/-! ## calls -/

theorem presented_of {token : String} {capability : CapabilityRecord}
    (htoken : readBearerToken request.authorization = some token)
    (hget : b.get (host.sha256 token) = some capability) :
    presented host b request = some capability := by
  unfold presented
  rw [htoken]
  exact hget

theorem mem_of_presented {capability : CapabilityRecord}
    (h : presented host b request = some capability) : capability ∈ b.capabilities := by
  obtain ⟨token, -, hget⟩ := Option.bind_eq_some_iff.mp h
  exact List.mem_of_find?_eq_some hget

/-- a refusal before the nonce is a denial. -/
theorem standing_throws {capability : CapabilityRecord} :
    Throws (fun verdict => verdict.ending = .denied)
      (standing env b capability operation sessionId allowExpired) := by
  unfold standing
  refine .bind (.throwIf rfl) fun _ => ?_
  refine .bind (.throwIf rfl) fun _ => ?_
  refine .bind (.throwIf rfl) fun _ => ?_
  refine .bind (.throwIf rfl) fun _ => ?_
  refine .bind (.throwIf rfl) fun _ => ?_
  refine .bind (.orThrow rfl) fun session => ?_
  refine .bind (.throwIf rfl) fun _ => ?_
  refine .bind (.throwIf rfl) fun _ => ?_
  exact .throwIf rfl

theorem admission_effect {capability : CapabilityRecord}
    (hfound : presented host b request = some capability) :
    Effect host now request b (admission now nonce b capability).1
      (admission now nonce b capability).2 := by
  unfold admission
  dsimp only
  split
  · exact .denied rfl
  · split
    · exact .denied rfl
    · split
      · next hfull => exact .full capability _ hfound hfull
      · next hfree => exact .called capability _ hfound (Nat.lt_of_not_ge hfree)

theorem authorize_effect :
    Effect host env.now request b
      (authorize host env request operation sessionId allowExpired b).1
      (authorize host env request operation sessionId allowExpired b).2 := by
  unfold authorize
  cases htoken : readBearerToken request.authorization with
  | none => exact .denied rfl
  | some token =>
    dsimp only
    cases hget : b.get (host.sha256 token) with
    | none => exact .denied rfl
    | some capability =>
      dsimp only
      cases hstanding : standing env b capability operation sessionId allowExpired with
      | error verdict => exact .denied (standing_throws verdict hstanding)
      | ok _ => exact admission_effect (presented_of htoken hget)

/-- the call of a capability. -/
def callOf (capability : CapabilityRecord) (now : ℤ) (ending : Ending) : Call :=
  ⟨capability.tokenHash, maxCalls capability.policy, now, ending⟩

theorem authorized_callOf {capability : CapabilityRecord} :
    authorized capability.tokenHash [callOf capability now .authorized] = [now] :=
  authorized_of_ending rfl rfl

theorem logged_of_presented {capability : CapabilityRecord}
    (h : presented host b request = some capability) :
    logged host b request now verdict = [callOf capability now verdict.ending] := by
  unfold logged
  rw [h]
  rfl

/-- the records that a call leaves: those of before, and those of its capability with the new
window. -/
theorem mem_known_modify {capability : CapabilityRecord} {nonces : List String} {times : List ℤ}
    (hr : r' ∈ known (b.modify capability.tokenHash fun _ =>
      { capability with usedNonces := nonces, callTimestamps := times })) :
    r' ∈ known b ∨ r'.tokenHash = capability.tokenHash ∧ r'.policy = capability.policy ∧
      r'.callTimestamps = times := by
  rcases mem_known.mp hr with hr | hr
  · obtain ⟨r, hold, rfl⟩ := List.mem_map.mp hr
    split
    · exact .inr ⟨rfl, rfl, rfl⟩
    · exact .inl (mem_known.mpr (.inl hold))
  · exact .inl (mem_known.mpr (.inr hr))

/-- what is written after a call: the records of the other capabilities, and those of its capability
with the new window. -/
theorem mem_known_modify_persist {capability : CapabilityRecord} {nonces : List String}
    {times : List ℤ}
    (hr : r' ∈ known (b.modify capability.tokenHash fun _ =>
      { capability with usedNonces := nonces, callTimestamps := times }).persist) :
    r' ∈ known b ∧ r'.tokenHash ≠ capability.tokenHash ∨
      r'.tokenHash = capability.tokenHash ∧ r'.policy = capability.policy ∧
      r'.callTimestamps = times := by
  obtain ⟨r, hold, rfl⟩ := List.mem_map.mp (mem_known_persist hr)
  split
  · exact .inr ⟨rfl, rfl, rfl⟩
  · next hne => exact .inl ⟨mem_known.mpr (.inl hold), hne⟩

/-- what is authorised of a capability is bounded by its limit. -/
theorem Inv.bounded (h : Inv w) (hr : r ∈ known w.broker) :
    Bounded RATE_WINDOW_MS (maxCalls r.policy) (authorized r.tokenHash w.log) := by
  by_cases hcalled : ∃ call ∈ w.log, call.hash = r.tokenHash
  · obtain ⟨call, hcall, hhash⟩ := hcalled
    have hbounded := h.rate.bounded call hcall
    rw [h.limits r hr call hcall hhash, hhash] at hbounded
    exact hbounded
  · have hnone : authorized r.tokenHash w.log = [] := by
      unfold authorized
      rw [List.map_eq_nil_iff, List.filter_eq_nil_iff]
      intro call hcall
      rw [decide_eq_true_iff]
      exact fun h => hcalled ⟨call, hcall, h.1⟩
    rw [hnone]
    exact bounded_nil

/-- a log with one call more. -/
theorem RateLimited.append (h : RateLimited log)
    (hbounded : ∀ call' ∈ log ++ [call],
      Bounded RATE_WINDOW_MS call'.limit (authorized call'.hash (log ++ [call])))
    (hrefused : call.ending = .rateLimited →
      call.limit ≤ (recent RATE_WINDOW_MS call.now (authorized call.hash log)).length) :
    RateLimited (log ++ [call]) where
  bounded := hbounded
  refused before call' after heq hending := by
    rcases List.eq_nil_or_concat after with rfl | ⟨after', last, rfl⟩
    · obtain ⟨rfl, hlast⟩ := List.append_inj' heq rfl
      cases hlast
      exact hrefused hending
    · rw [List.concat_eq_append, ← List.cons_append, ← List.append_assoc] at heq
      exact h.refused before call' after' (List.append_inj' heq rfl).1 hending

/-- a call that was not authorised leaves the log bounded. -/
theorem Inv.rate_append (h : Inv w) {capability : CapabilityRecord}
    (hmem : capability ∈ known w.broker) {ending : Ending} (hnot : ending ≠ .authorized)
    (hrefused : ending = .rateLimited → maxCalls capability.policy ≤
      (recent RATE_WINDOW_MS now (authorized capability.tokenHash w.log)).length) :
    RateLimited (w.log ++ [callOf capability now ending]) := by
  refine h.rate.append (fun call' hcall' => ?_) hrefused
  rw [authorized_append_of_not fun hand => hnot hand.2]
  rcases List.mem_append.mp hcall' with hold | hnew
  · exact h.rate.bounded call' hold
  · rw [List.mem_singleton.mp hnew]
    exact h.bounded hmem

/-- an authorised call leaves the log bounded: its window was not full. -/
theorem Inv.rate_authorized (h : Inv w) {capability : CapabilityRecord}
    (hmem : capability ∈ known w.broker)
    (hfree : (recent RATE_WINDOW_MS now (authorized capability.tokenHash w.log)).length <
      maxCalls capability.policy) :
    RateLimited (w.log ++ [callOf capability now .authorized]) := by
  have hbounded : Bounded RATE_WINDOW_MS (maxCalls capability.policy)
      (authorized capability.tokenHash (w.log ++ [callOf capability now .authorized])) := by
    rw [authorized_append, authorized_callOf]
    exact (h.bounded hmem).append hfree
  refine h.rate.append (fun call' hcall' => ?_) nofun
  rcases List.mem_append.mp hcall' with hold | hnew
  · by_cases hhash : call'.hash = capability.tokenHash
    · rw [h.limits capability hmem call' hold hhash, hhash]
      exact hbounded
    · rw [authorized_append_of_not fun hand => hhash hand.1.symm]
      exact h.rate.bounded call' hold
  · rw [List.mem_singleton.mp hnew]
    exact hbounded

/-- a call that was not authorised says nothing new of a window. -/
theorem Tracks.append_of_not (h : Tracks log r)
    (hnot : ¬(call.hash = r.tokenHash ∧ call.ending = .authorized)) : Tracks (log ++ [call]) r := by
  intro later hlater
  rw [authorized_append_of_not hnot]
  exact h later fun call' hcall' => hlater call' (List.mem_append_left _ hcall')

/-- the window of a capability, pruned. -/
theorem Tracks.pruned (h : Tracks log r) (hnow : call.now = now)
    (hnot : call.ending ≠ .authorized) (hhash : r'.tokenHash = r.tokenHash)
    (htimes : r'.callTimestamps = recent RATE_WINDOW_MS now r.callTimestamps) :
    Tracks (log ++ [call]) r' := by
  intro later hlater
  have hle : now ≤ later := by
    rw [← hnow]
    exact hlater call (List.mem_append_right _ List.mem_cons_self)
  rw [authorized_append_of_not fun hand => hnot hand.2, htimes, hhash, recent_recent hle]
  exact h later fun call' hcall' => hlater call' (List.mem_append_left _ hcall')

/-- the window of a capability, with the call that was authorised. -/
theorem Tracks.called (h : Tracks log r) (hhash : r'.tokenHash = r.tokenHash)
    (htimes : r'.callTimestamps = recent RATE_WINDOW_MS now r.callTimestamps ++ [now]) :
    Tracks (log ++ [callOf r now .authorized]) r' := by
  intro later hlater
  have hle : now ≤ later := hlater _ (List.mem_append_right _ List.mem_cons_self)
  rw [htimes, hhash, authorized_append, authorized_callOf, recent_append, recent_append,
    recent_recent hle]
  rw [h later fun call' hcall' => hlater call' (List.mem_append_left _ hcall')]

/-- the limits of a log with one call more. -/
theorem Inv.limits_append (h : Inv w) {capability : CapabilityRecord} {ending : Ending}
    (hmem : capability ∈ known w.broker) (hr : r ∈ known w.broker) (hcall : call ∈
      w.log ++ [callOf capability now ending]) (hhash : call.hash = r.tokenHash) :
    call.limit = maxCalls r.policy := by
  rcases List.mem_append.mp hcall with hold | hnew
  · exact h.limits r hr call hold hhash
  · rw [List.mem_singleton.mp hnew] at hhash ⊢
    rw [← h.policies capability hmem r hr hhash]
    rfl

/-- records that are those of before, or have the hash and the policy of one of them. -/
theorem Inv.like (hmem : r ∈ known b) (hr' : r' ∈ known b ∨
    r'.tokenHash = r.tokenHash ∧ r'.policy = r.policy) :
    ∃ r'' ∈ known b, r'.tokenHash = r''.tokenHash ∧ r'.policy = r''.policy := by
  rcases hr' with hr' | ⟨hhash, hpolicy⟩
  · exact ⟨r', hr', rfl, rfl⟩
  · exact ⟨r, hmem, hhash, hpolicy⟩

/-- What a call leaves, when its log is rate limited and its windows track it. -/
theorem Inv.after (h : Inv w) {capability : CapabilityRecord} {ending : Ending}
    (hmem : capability ∈ known w.broker)
    (hlike : ∀ r' ∈ known b', r' ∈ known w.broker ∨
      r'.tokenHash = capability.tokenHash ∧ r'.policy = capability.policy)
    (htracks : ∀ r' ∈ known b', Tracks (w.log ++ [callOf capability now ending]) r')
    (hrate : RateLimited (w.log ++ [callOf capability now ending])) :
    Inv ⟨b', w.log ++ [callOf capability now ending]⟩ where
  tracks := htracks
  limits r' hr' call hcall hhash := by
    obtain ⟨r, hr, hsame, hpolicy⟩ := Inv.like hmem (hlike r' hr')
    rw [hpolicy]
    exact h.limits_append hmem hr hcall (hhash.trans hsame)
  policies r₁ hr₁ r₂ hr₂ hhash := by
    obtain ⟨r, hr, hsame, hpolicy⟩ := Inv.like hmem (hlike r₁ hr₁)
    obtain ⟨r', hr', hsame', hpolicy'⟩ := Inv.like hmem (hlike r₂ hr₂)
    rw [hpolicy, hpolicy']
    exact h.policies r hr r' hr' (hsame.symm.trans (hhash.trans hsame'))
  rate := hrate

/-- A call that is denied. -/
theorem Inv.denied (h : Inv w) {capability : CapabilityRecord}
    (hmem : capability ∈ known w.broker) :
    Inv ⟨w.broker, w.log ++ [callOf capability now .denied]⟩ := by
  refine h.after hmem (fun r hr => .inl hr) (fun r hr => ?_) (h.rate_append hmem nofun nofun)
  exact (h.tracks r hr).append_of_not fun hand => nomatch hand.2

/-- A call that is refused for its rate. -/
theorem Inv.full (h : Inv w) (hready : ∀ call ∈ w.log, call.now ≤ now)
    {capability : CapabilityRecord} {nonces : List String} (hmem : capability ∈ known w.broker)
    (hfull : maxCalls capability.policy ≤
      (recent RATE_WINDOW_MS now capability.callTimestamps).length) :
    Inv ⟨w.broker.modify capability.tokenHash fun _ => { capability with
        usedNonces := nonces
        callTimestamps := recent RATE_WINDOW_MS now capability.callTimestamps },
      w.log ++ [callOf capability now .rateLimited]⟩ := by
  have htracks := h.tracks capability hmem
  refine h.after hmem (fun r' hr' => ?_) (fun r' hr' => ?_) ?_
  · exact (mem_known_modify hr').imp_right fun hnew => ⟨hnew.1, hnew.2.1⟩
  · rcases mem_known_modify hr' with hold | ⟨hhash, -, htimes⟩
    · exact (h.tracks r' hold).append_of_not fun hand => nomatch hand.2
    · exact htracks.pruned rfl nofun hhash htimes
  · refine h.rate_append hmem nofun fun _ => ?_
    rw [← htracks now hready]
    exact hfull

/-- A call that is authorised. -/
theorem Inv.called (h : Inv w) (hready : ∀ call ∈ w.log, call.now ≤ now)
    {capability : CapabilityRecord} {nonces : List String} (hmem : capability ∈ known w.broker)
    (hfree : (recent RATE_WINDOW_MS now capability.callTimestamps).length <
      maxCalls capability.policy) :
    Inv ⟨(w.broker.modify capability.tokenHash fun _ => { capability with
        usedNonces := nonces
        callTimestamps := recent RATE_WINDOW_MS now capability.callTimestamps ++ [now] }).persist,
      w.log ++ [callOf capability now .authorized]⟩ := by
  have htracks := h.tracks capability hmem
  refine h.after hmem (fun r' hr' => ?_) (fun r' hr' => ?_) ?_
  · exact (mem_known_modify_persist hr').imp And.left fun hnew => ⟨hnew.1, hnew.2.1⟩
  · rcases mem_known_modify_persist hr' with ⟨hold, hne⟩ | ⟨hhash, -, htimes⟩
    · exact (h.tracks r' hold).append_of_not fun hand => hne hand.1.symm
    · exact htracks.called hhash htimes
  · refine h.rate_authorized hmem ?_
    rw [← htracks now hready]
    exact hfree

theorem Inv.effect (h : Inv w) (he : Effect host now request w.broker b' verdict)
    (hready : ∀ call ∈ w.log, call.now ≤ now) :
    Inv ⟨b', w.log ++ logged host w.broker request now verdict⟩ := by
  cases he with
  | denied hending =>
    cases hfound : presented host w.broker request with
    | none =>
      have hlogged : logged host w.broker request now verdict = [] := by
        unfold logged
        rw [hfound]
        rfl
      rw [hlogged, List.append_nil]
      exact h
    | some capability =>
      rw [logged_of_presented hfound, hending]
      exact h.denied (mem_known.mpr (.inl (mem_of_presented hfound)))
  | full capability nonces hfound hfull =>
    rw [logged_of_presented hfound]
    exact h.full hready (mem_known.mpr (.inl (mem_of_presented hfound))) hfull
  | called capability nonces hfound hfree =>
    rw [logged_of_presented hfound]
    exact h.called hready (mem_known.mpr (.inl (mem_of_presented hfound))) hfree

/-! ## runs -/

/-- a refresh is a call, and then a later end. -/
theorem handleRefresh_effect :
    ∃ b', Effect host env.now request b b' (handleRefresh host env request sessionId b).2 ∧
      Comes b' (handleRefresh host env request sessionId b).1 := by
  have heffect : Effect host env.now request b
      (authorize host env request .capability_refresh (trim sessionId) true b).1
      (authorize host env request .capability_refresh (trim sessionId) true b).2 :=
    authorize_effect
  unfold handleRefresh
  split
  · next b' capability heq =>
    rw [heq] at heffect
    refine ⟨b', heffect, (comes_modify fun r => ?_).trans comes_persist⟩
    exact ⟨rfl, rfl, rfl⟩
  · exact ⟨_, heffect, .refl _⟩

theorem Inv.authorize (h : Inv w) (hready : ∀ call ∈ w.log, call.now ≤ env.now) :
    Inv (step host w (.authorize env request operation sessionId)) :=
  h.effect authorize_effect hready

theorem Inv.refresh (h : Inv w) (hready : ∀ call ∈ w.log, call.now ≤ env.now) :
    Inv (step host w (.refresh env request sessionId)) := by
  obtain ⟨b', heffect, hcomes⟩ : ∃ b', Effect host env.now request w.broker b'
      (handleRefresh host env request sessionId w.broker).2 ∧
      Comes b' (handleRefresh host env request sessionId w.broker).1 := handleRefresh_effect
  have hcalled := h.effect heffect hready
  exact hcalled.comes hcomes

theorem Inv.issue (h : Inv w) (hready : Ready host w (.issue env input id token)) :
    Inv (step host w (.issue env input id token)) := by
  obtain ⟨policy, hnew⟩ : ∃ policy, ComesNew (host.sha256 token) policy w.broker
    (orSame w.broker (issueSessionCapability host env input id token w.broker)) := comesNew_orSame
  exact h.comesNew hnew hready.1 hready.2

theorem Inv.reissue {input : Option IssueInput} (h : Inv w)
    (hready : Ready host w (.reissue env sessionId input id token)) :
    Inv (step host w (.reissue env sessionId input id token)) := by
  obtain ⟨policy, hnew⟩ : ∃ policy, ComesNew (host.sha256 token) policy w.broker
    (reissueSessionCapability env.now sessionId (issueFor host env input id token) w.broker).1 :=
    comesNew_reissue
  exact h.comesNew hnew hready.1 hready.2

theorem Inv.step (h : Inv w) {act : Act} (hready : Ready host w act) : Inv (step host w act) := by
  cases act with
  | authorize env request operation sessionId => exact h.authorize hready
  | refresh env request sessionId => exact h.refresh hready
  | adopt env request sessionId => exact h.comes comes_adopt
  | issue env input id token => exact h.issue hready
  | revoke now sessionId => exact h.comes comes_revokeSession
  | reissue env sessionId input id token => exact h.reissue hready
  | spend hash spentMsats usedChallenges => exact h.comes comes_spend
  | restart => exact h.comes comes_restart

theorem inv_start (stored : Bool) : Inv ⟨⟨[], [], if stored then some [] else none⟩, []⟩ := by
  have hnone : ∀ r, r ∉ known ⟨[], [], if stored then some [] else none⟩ := by
    intro r hr
    cases stored <;> cases hr
  exact {
    tracks := fun r hr => absurd hr (hnone r)
    limits := fun r hr => absurd hr (hnone r)
    policies := fun r hr => absurd hr (hnone r)
    rate := ⟨nofun, fun before call after heq => absurd heq.symm (by simp)⟩ }

theorem Reached.inv (h : Reached host w) : Inv w := by
  induction h with
  | start stored => exact inv_start stored
  | step _ act hready ih => exact ih.step hready

end

def onceAMinute : IssueInput where
  sessionId := "s1"
  ownerNpub := "npub1owner"
  policy := { operations := [.identity_read, .capability_refresh], maxCallsPerMinute := some 1 }

def tokenCall (token nonce : String) : Request := ⟨some ("Bearer " ++ token), some nonce⟩

/-- The session asks twice in a minute, and again in the next one. -/
def threeCalls : List Act :=
  [.issue (plainEnv 0) onceAMinute "c1" "t1",
    .authorize (plainEnv 1000) (tokenCall "t1" "nonce-0123456789") .identity_read "s1",
    .authorize (plainEnv 60999) (tokenCall "t1" "nonce-1123456789") .identity_read "s1",
    .restart,
    .refresh (plainEnv 61000) (tokenCall "t1" "nonce-2123456789") "s1"]

instance (host : Host) (w : World) : (act : Act) → Decidable (Ready host w act)
  | .authorize env .. | .refresh env .. =>
    inferInstanceAs (Decidable (∀ call ∈ w.log, call.now ≤ env.now))
  | .issue .. | .reissue .. => inferInstanceAs (Decidable (_ ∧ _))
  | .adopt .. | .revoke .. | .spend .. | .restart => .isTrue trivial

/-- the steps of a run are ready, one after the other. -/
def ReadyAll (host : Host) : World → List Act → Prop
  | _, [] => True
  | w, act :: acts => Ready host w act ∧ ReadyAll host (Capabilities.step host w act) acts

instance (host : Host) : (w : World) → (acts : List Act) → Decidable (ReadyAll host w acts)
  | _, [] => .isTrue trivial
  | w, act :: acts =>
    let _ : Decidable (ReadyAll host (Capabilities.step host w act) acts) :=
      instDecidableReadyAll host _ acts
    inferInstanceAs (Decidable (_ ∧ _))

theorem Reached.runAll {host : Host} {acts : List Act} {w : World} (h : Reached host w)
    (hready : ReadyAll host w acts) : Reached host (acts.foldl (Capabilities.step host) w) := by
  induction acts generalizing w with
  | nil => exact h
  | cons act acts ih => exact ih (h.step act hready.1) hready.2

/-- the end of the run. -/
def afterThreeCalls : World := threeCalls.foldl (step plainHost) ⟨⟨[], [], some []⟩, []⟩

end Capabilities
end Signing
end WmAutopilot
