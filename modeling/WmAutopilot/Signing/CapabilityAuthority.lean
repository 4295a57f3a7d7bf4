import WmAutopilot.Async.History
import WmAutopilot.Signing.CapabilityMoves

/-!
# What a call may rely on

* `Granted`            the authority of a call: a capability that was issued, for this session and
                       operation, that is not revoked and has not expired;
* `Remembers`          a nonce is kept until as many others were used as the broker keeps;
* `Tracked`            what the log says of a record, of the broker or of its state store;
* `accepted_granted`   **every call that is authorised has its authority in the log before it**;
* `nonce_once`         **a nonce is not accepted again before 2048 others were used**.
-/

set_option autoImplicit false
set_option linter.unusedVariables false

namespace WmAutopilot
namespace Signing
namespace Capabilities
namespace Life
open Js Async

/-- the entry is about a nonce of the capability with this hash. -/
def Entry.notes (hash : String) : Entry → Bool
  | .accepted hash' .. | .noted hash' _ => hash' = hash
  | _ => false

/-- The authority of a call in the log before it. -/
structure Granted (past : List Entry) (hash : String) (operation : BrokerOperation)
    (sessionId : String) (now : ℤ) (ownerNpub : Option String) (record : CapabilityRecord) :
    Prop where
  issued : .issued record ∈ past
  token : record.tokenHash = hash
  session : record.sessionId = sessionId
  owner : ownerNpub = some record.ownerNpub
  allowed : operation ∈ record.policy.operations
  unrevoked : .revoked hash ∉ past
  alive : operation = .capability_refresh ∨ now < record.expiresAtMs ∨
    ∃ expiresAtMs, .extended hash expiresAtMs ∈ past ∧ now < expiresAtMs

/-- A nonce that was accepted is kept, unless too many were used after it. -/
def Remembers (log : List Entry) (hash : String) (nonces : List String) : Prop :=
  ∀ before nonce operation sessionId now owner after,
    log = before ++ .accepted hash nonce operation sessionId now owner :: after →
    MAX_NONCES_PER_CAPABILITY ≤ after.countP (Entry.notes hash) ∨
      ∃ older newer, nonces = older ++ nonce :: newer ∧
        newer.length ≤ after.countP (Entry.notes hash)

/-- What the log says of a record. -/
structure Tracked (log : List Entry) (r : CapabilityRecord) : Prop where
  granted : ∃ record, .issued record ∈ log ∧ SameGrant record r ∧
    (r.expiresAtMs = record.expiresAtMs ∨ .extended r.tokenHash r.expiresAtMs ∈ log)
  unrevoked : r.revokedAtMs = none → .revoked r.tokenHash ∉ log
  remembers : r.revokedAtMs = none → Remembers log r.tokenHash r.usedNonces

/-- What is expected of an entry of the log. -/
def Lawful (past : List Entry) : Entry → Prop
  | .accepted hash nonce operation sessionId now owner =>
    (∃ record, Granted past hash operation sessionId now owner record) ∧
      ∀ before operation' sessionId' now' owner' mid,
        past = before ++ .accepted hash nonce operation' sessionId' now' owner' :: mid →
        MAX_NONCES_PER_CAPABILITY ≤ mid.countP (Entry.notes hash)
  | _ => True

section
variable {host : Host} {b b' : Broker} {w : World} {r r' capability : CapabilityRecord}
  {log es : List Entry} {e : Entry} {hash nonce x : String} {nonces : List String} {max : ℕ}

/-! ## the nonces that are kept -/

/-- a new nonce comes last, and the oldest one goes when there is no room. -/
theorem addBounded_cases (h : x ∉ nonces) :
    addBounded max nonces x = nonces ++ [x] ∨
      max ≤ nonces.length ∧ ∃ oldest, nonces ++ [x] = oldest :: addBounded max nonces x := by
  have hadd : addTo nonces x = nonces ++ [x] := if_neg h
  unfold addBounded
  simp only [hadd]
  split
  · next hfull =>
    rw [List.length_append, List.length_singleton] at hfull
    cases nonces with
    | nil =>
      dsimp only [List.nil_append]
      split
      · exact .inl rfl
      · exact .inr ⟨Nat.lt_succ_iff.mp hfull, x, rfl⟩
    | cons oldest rest =>
      dsimp only [List.cons_append]
      split
      · exact .inl rfl
      · exact .inr ⟨Nat.lt_succ_iff.mp hfull, oldest, rfl⟩
  · exact .inl rfl

theorem Remembers.mono (h : Remembers log hash nonces)
    (hes : ∀ e ∈ es, ∀ nonce operation sessionId now owner,
      e ≠ .accepted hash nonce operation sessionId now owner) :
    Remembers (log ++ es) hash nonces := by
  intro before nonce operation sessionId now owner after heq
  rcases append_split heq with ⟨after', hlog, rfl⟩ | ⟨before', -, hes'⟩
  · rw [List.countP_append]
    rcases h _ _ _ _ _ _ _ hlog with hmany | ⟨older, newer, hnonces, hle⟩
    · exact .inl (by omega)
    · exact .inr ⟨older, newer, hnonces, by omega⟩
  · exact absurd rfl (hes _ (hes' ▸ List.mem_append_right _ List.mem_cons_self) _ _ _ _ _)

/-- the nonce of a call is the newest of those that are kept. -/
theorem Remembers.used (h : Remembers log hash nonces) (hunused : nonce ∉ nonces)
    (hnotes : e.notes hash = true)
    (hnonce : ∀ nonce' operation sessionId now owner,
      e = .accepted hash nonce' operation sessionId now owner → nonce' = nonce) :
    Remembers (log ++ [e]) hash (addBounded MAX_NONCES_PER_CAPABILITY nonces nonce) := by
  intro before nonce' operation sessionId now owner after heq
  rcases append_split heq with ⟨after', hlog, rfl⟩ | ⟨before', -, hes⟩
  · rw [List.countP_append, List.countP_singleton, if_pos hnotes]
    rcases h _ _ _ _ _ _ _ hlog with hmany | ⟨older, newer, hnonces, hle⟩
    · exact .inl (by omega)
    · subst hnonces
      have hle' : (newer ++ [nonce]).length ≤ after'.countP (Entry.notes hash) + 1 := by
        rw [List.length_append]
        exact Nat.succ_le_succ hle
      rcases addBounded_cases hunused with heq | ⟨hfull, oldest, heq⟩
      · exact .inr ⟨older, newer ++ [nonce], heq.trans (List.append_assoc _ _ _), hle'⟩
      · cases older with
        | nil =>
          -- the nonce itself goes: as many were used after it as are kept
          rw [List.nil_append, List.length_cons] at hfull
          exact .inl (by omega)
        | cons y older =>
          rw [List.append_assoc] at heq
          exact .inr ⟨older, newer ++ [nonce], (List.cons.inj heq).2.symm, hle'⟩
  · cases before' with
    | cons y before' => exact absurd (List.cons.inj hes).2.symm (by simp)
    | nil =>
      obtain ⟨rfl, rfl⟩ := List.cons.inj hes
      obtain rfl := hnonce _ _ _ _ _ rfl
      refine .inr ?_
      rcases addBounded_cases hunused with heq | ⟨hfull, oldest, heq⟩
      · exact ⟨nonces, [], heq, Nat.zero_le _⟩
      · cases nonces with
        | nil => exact absurd hfull (by decide)
        | cons y nonces => exact ⟨nonces, [], (List.cons.inj heq).2.symm, Nat.zero_le _⟩

/-! ## what a move keeps -/

theorem Tracked.altered (h : Tracked log r) (ha : Alters (log ++ es) r r')
    (hrevoked : .revoked r.tokenHash ∈ es → r'.revokedAtMs ≠ none)
    (hes : ∀ e ∈ es, ∀ nonce operation sessionId now owner,
      e ≠ .accepted r.tokenHash nonce operation sessionId now owner) :
    Tracked (log ++ es) r' where
  granted := by
    obtain ⟨record, hissued, hsame, hexpires⟩ := h.granted
    refine ⟨record, List.mem_append_left _ hissued, hsame.trans ha.grant, ?_⟩
    rw [ha.grant.tokenHash]
    rcases ha.expires with heq | hnew
    · rw [heq]
      exact hexpires.imp_right fun h => List.mem_append_left _ h
    · exact .inr hnew
  unrevoked hlive hmem := by
    rw [ha.grant.tokenHash] at hmem
    exact (List.mem_append.mp hmem).elim (h.unrevoked (ha.standing hlive).1) fun hmem =>
      hrevoked hmem hlive
  remembers hlive := by
    rw [ha.grant.tokenHash, (ha.standing hlive).2]
    exact (h.remembers (ha.standing hlive).1).mono hes

/-- a record that stays as it is. -/
theorem Tracked.mono (h : Tracked log r) (hrevoked : .revoked r.tokenHash ∉ es)
    (hes : ∀ e ∈ es, ∀ nonce operation sessionId now owner,
      e ≠ .accepted r.tokenHash nonce operation sessionId now owner) : Tracked (log ++ es) r :=
  h.altered .refl (fun hmem => absurd hmem hrevoked) hes

/-- The records of `b'` are those that it has, or old ones of the state store. -/
theorem known_stored (hsaved : b'.saved = b.saved ∨ Written b b') (h : r' ∈ known b') :
    r' ∈ b'.capabilities ∨ ¬Written b b' ∧ r' ∈ b.saved.getD [] := by
  rcases mem_known.mp h with hr | hr
  · exact .inl hr
  · by_cases hwritten : Written b b'
    · rw [hwritten] at hr
      cases hb : b.saved with
      | none => rw [hb] at hr; cases hr
      | some saved =>
        rw [hb] at hr
        exact .inl (List.mem_of_mem_filter hr)
    · exact .inr ⟨hwritten, (hsaved.resolve_right hwritten) ▸ hr⟩

/-- What holds of the records and of the log. -/
def Accounted (c : Broker × List Entry) : Prop :=
  (∀ r ∈ known c.1, Tracked c.2 r) ∧ Each Lawful c.2

theorem accounted_issued {record : CapabilityRecord} (h : Accounted (b, log))
    (hnew : ∀ r ∈ known b, r.tokenHash ≠ record.tokenHash)
    (hfresh : ∀ e ∈ log, e.hash ≠ record.tokenHash)
    (hcaps : b'.capabilities = b.capabilities ++ [record])
    (hsaved : b'.saved = b.saved ∨ Written b b') : Accounted (b', log ++ [.issued record]) := by
  have hold : ∀ r ∈ known b, Tracked (log ++ [.issued record]) r := fun r hr =>
    (h.1 r hr).mono (by simp) (by simp)
  have hrecord : Tracked (log ++ [.issued record]) record := by
    refine ⟨⟨record, by simp, .refl record, .inl rfl⟩, fun _ hmem => ?_, fun _ => ?_⟩
    · rcases List.mem_append.mp hmem with hmem | hmem
      · exact hfresh _ hmem rfl
      · cases List.mem_singleton.mp hmem
    · intro before nonce operation sessionId now owner after heq
      have hmem : Entry.accepted record.tokenHash nonce operation sessionId now owner ∈
          log ++ [.issued record] := heq ▸ List.mem_append_right _ List.mem_cons_self
      rcases List.mem_append.mp hmem with hmem | hmem
      · exact absurd rfl (hfresh _ hmem)
      · cases List.mem_singleton.mp hmem
  refine ⟨fun r hr => ?_, h.2.concat trivial⟩
  rcases known_stored hsaved hr with hr | ⟨-, hr⟩
  · rw [hcaps] at hr
    rcases List.mem_append.mp hr with hr | hr
    · exact hold r (mem_known.mpr (.inl hr))
    · obtain rfl := List.mem_singleton.mp hr
      exact hrecord
  · exact hold r (mem_known.mpr (.inr hr))

theorem Marked.not_accepted {f : CapabilityRecord → CapabilityRecord} (h : Marked f b b' e) :
    ∀ nonce operation sessionId now owner,
      e ≠ .accepted hash nonce operation sessionId now owner := by
  cases h <;> exact fun _ _ _ _ _ => nofun

theorem Marked.lawful {f : CapabilityRecord → CapabilityRecord} (h : Marked f b b' e)
    (past : List Entry) : Lawful past e := by
  cases h <;> trivial

theorem accounted_altered {f : CapabilityRecord → CapabilityRecord} (h : Accounted (b, log))
    (hf : ∀ r, Alters (log ++ es) r (f r)) (hcaps : b'.capabilities = b.capabilities.map f)
    (hsaved : b'.saved = b.saved ∨ Written b b') (hes : ∀ e ∈ es, Marked f b b' e) :
    Accounted (b', log ++ es) := by
  refine ⟨fun r' hr' => ?_, h.2.append fun e he past _ => (hes e he).lawful past⟩
  rcases known_stored hsaved hr' with hr' | ⟨hwritten, hr'⟩
  · rw [hcaps] at hr'
    obtain ⟨r, hr, rfl⟩ := List.mem_map.mp hr'
    refine (h.1 r (mem_known.mpr (.inl hr))).altered (hf r) (fun hmem => ?_)
      fun e he => (hes e he).not_accepted
    cases hes _ hmem with
    | revoked hwritten h => exact h r hr rfl
  · refine (h.1 r' (mem_known.mpr (.inr hr'))).mono (fun hmem => ?_)
      fun e he => (hes e he).not_accepted
    cases hes _ hmem with
    | revoked hwritten' h => exact hwritten hwritten'

/-- what a call that is authorised has found is in the log. -/
theorem Tracked.granted_of {env : Env} {operation : BrokerOperation} {sessionId : String}
    (h : Tracked log capability) (hlive : capability.revokedAtMs = none)
    (hstands : Stands env capability operation sessionId) :
    ∃ record, Granted log capability.tokenHash operation sessionId env.now
      ((env.getSession sessionId).bind (·.npub)) record := by
  obtain ⟨record, hissued, hsame, hexpires⟩ := h.granted
  refine ⟨record, hissued, hsame.tokenHash.symm, hsame.sessionId ▸ hstands.session,
    hsame.ownerNpub ▸ hstands.owner, hsame.policy ▸ hstands.allowed, h.unrevoked hlive, ?_⟩
  refine hstands.alive.imp_right fun hnow => ?_
  rcases hexpires with heq | hextended
  · exact .inl (heq ▸ hnow)
  · exact .inr ⟨_, hextended, hnow⟩

theorem Noted.notes (h : Noted capability nonce b b' e) : e.notes capability.tokenHash = true := by
  cases h <;> exact decide_eq_true rfl

theorem Noted.accepted_eq {nonce' sessionId : String} {operation : BrokerOperation} {now : ℤ}
    {owner : Option String} (h : Noted capability nonce b b' e)
    (heq : e = .accepted hash nonce' operation sessionId now owner) :
    hash = capability.tokenHash ∧ nonce' = nonce ∧ Written b b' := by
  cases h with
  | noted => cases heq
  | accepted hwritten hstands =>
    obtain ⟨rfl, rfl, -⟩ := Entry.accepted.inj heq
    exact ⟨rfl, rfl, hwritten⟩

theorem Tracked.withNonce {times : List ℤ} (h : Tracked log capability)
    (hlive : capability.revokedAtMs = none) (hunused : nonce ∉ capability.usedNonces)
    (he : Noted capability nonce b b' e) :
    Tracked (log ++ [e]) (withNonce nonce times capability) where
  granted := by
    obtain ⟨record, hissued, hsame, hexpires⟩ := h.granted
    exact ⟨record, List.mem_append_left _ hissued, hsame.trans sameGrant_withNonce,
      hexpires.imp_right fun h => List.mem_append_left _ h⟩
  unrevoked _ hmem := by
    rcases List.mem_append.mp hmem with hmem | hmem
    · exact h.unrevoked hlive hmem
    · cases List.mem_singleton.mp hmem
      cases he
  remembers _ := by
    exact (h.remembers hlive).used hunused he.notes fun _ _ _ _ _ heq => (he.accepted_eq heq).2.1

theorem accounted_used {times : List ℤ} (h : Accounted (b, log))
    (hget : b.get capability.tokenHash = some capability) (hlive : capability.revokedAtMs = none)
    (hunused : nonce ∉ capability.usedNonces)
    (hcaps : b'.capabilities = b.capabilities.map fun r =>
      if r.tokenHash = capability.tokenHash then withNonce nonce times capability else r)
    (hsaved : b'.saved = b.saved ∨ Written b b') (he : Noted capability nonce b b' e) :
    Accounted (b', log ++ [e]) := by
  have hmem : capability ∈ b.capabilities := List.mem_of_find?_eq_some hget
  have hcap := h.1 capability (mem_known.mpr (.inl hmem))
  have hold : ∀ r ∈ known b, (∀ nonce operation sessionId now owner,
      e ≠ .accepted r.tokenHash nonce operation sessionId now owner) →
      Tracked (log ++ [e]) r := by
    intro r hr hne
    refine (h.1 r hr).mono (fun hmem => ?_) fun e' he' => List.mem_singleton.mp he' ▸ hne
    cases List.mem_singleton.mp hmem
    cases he
  refine ⟨fun r' hr' => ?_, h.2.concat ?_⟩
  · rcases known_stored hsaved hr' with hr' | ⟨hwritten, hr'⟩
    · rw [hcaps] at hr'
      obtain ⟨r, hr, rfl⟩ := List.mem_map.mp hr'
      split
      · exact hcap.withNonce hlive hunused he
      · next hne =>
        exact hold r (mem_known.mpr (.inl hr)) fun _ _ _ _ _ heq => hne (he.accepted_eq heq).1
    · exact hold r' (mem_known.mpr (.inr hr')) fun _ _ _ _ _ heq =>
        hwritten (he.accepted_eq heq).2.2
  · cases he with
    | noted => trivial
    | accepted hwritten hstands =>
      refine ⟨hcap.granted_of hlive hstands, fun before _ _ _ _ mid heq => ?_⟩
      have hkept := hcap.remembers hlive _ _ _ _ _ _ _ heq
      refine hkept.resolve_right fun ⟨older, newer, hmem, _⟩ => ?_
      exact hunused (hmem ▸ List.mem_append_right _ List.mem_cons_self)

theorem Accounted.move {c c' : Broker × List Entry} (h : Accounted c) (hmove : Move c c') :
    Accounted c' := by
  cases hmove with
  | issued hnew hfresh hcaps hsaved => exact accounted_issued h hnew hfresh hcaps hsaved
  | altered f hf hcaps hsaved hes => exact accounted_altered h hf hcaps hsaved hes
  | used hget hlive hunused hcaps hsaved he =>
    exact accounted_used h hget hlive hunused hcaps hsaved he
  | @undone b b' log f hf hcaps hsaved =>
    refine ⟨fun r' hr' => ?_, h.2⟩
    rcases mem_known.mp hr' with hr' | hr'
    · exact h.1 r' (mem_known.mpr (.inl (hcaps ▸ hr')))
    · rw [hsaved] at hr'
      cases hb : b.saved with
      | none => rw [hb] at hr'; cases hr'
      | some saved =>
        rw [hb] at hr'
        obtain ⟨r, hr, rfl⟩ := List.mem_map.mp (List.mem_of_mem_filter hr')
        have hr := (h.1 r (mem_known.mpr (.inl hr))).altered (by rw [List.append_nil]; exact hf r)
          (fun hmem => absurd hmem List.not_mem_nil) fun e he => absurd he List.not_mem_nil
        rwa [List.append_nil] at hr

theorem accounted_start : Accounted (⟨[], [], some []⟩, []) :=
  ⟨fun r hr => absurd hr List.not_mem_nil, each_nil⟩

theorem Accounted.restart (h : Accounted (b, log)) : Accounted (b.restart, log) :=
  ⟨fun r hr => h.1 r (mem_known.mpr (.inr
    ((mem_known.mp hr).elim List.mem_of_mem_filter id))), h.2⟩

theorem Reached.accounted (h : Reached host w) : Accounted (w.broker, w.log) :=
  (h.keeps (I := Accounted) accounted_start (fun h _ hmove => h.move hmove) Accounted.restart).1

end

/-! ## a run -/

/-- the act draws a token. -/
def Act.draws : Act → Bool
  | .issue .. | .reissue .. => true
  | _ => false

theorem Reached.calls {host : Host} {w : World} {acts : List Act} (h : Reached host w)
    (hacts : ∀ act ∈ acts, act.draws = false) : Reached host (acts.foldl (Life.step host) w) := by
  induction acts generalizing w with
  | nil => exact h
  | cons act acts ih =>
    refine ih (h.step act ?_) fun act hact => hacts act (List.mem_cons_of_mem _ hact)
    have hact := hacts act List.mem_cons_self
    cases act <;> trivial

def mayPay : IssueInput where
  sessionId := "s1"
  ownerNpub := "npub1owner"
  policy := ⟨[.identity_read, .wallet_spend], none, some ⟨[], ["pay_invoice"], 4000, 5000⟩, none⟩

/-- The session pays, the process ends, and the session goes on with the next one. -/
def payments : List Act :=
  [.issue (plainEnv 0) mayPay "c1" "t1" .written,
    .spend (plainEnv 1000) (tokenCall "t1" "nonce-0123456789") ⟨"s1", "pay_invoice", .num 4500⟩
      .written,
    .ask 0 (plainEnv 1000) (.num 3000),
    .reserve 0 0 .written,
    .restart,
    .call (plainEnv 2000) (tokenCall "t1" "nonce-1123456789") .identity_read "s1" .written]

def afterPayments : World := payments.foldl (step plainHost) { broker := ⟨[], [], some []⟩ }

theorem afterPayments_reached : Reached plainHost afterPayments := by
  have hissued : Reached plainHost (step plainHost { broker := ⟨[], [], some []⟩ }
      (.issue (plainEnv 0) mayPay "c1" "t1" .written)) :=
    Reached.start.step _ ⟨fun r hr => absurd hr List.not_mem_nil,
      fun e he => absurd he List.not_mem_nil⟩
  exact hissued.calls (by decide : ∀ act ∈ payments.tail, act.draws = false)

/-! ## what holds of every run -/

/-- **Every call that is authorised has its authority in the log before it.**  Its capability was
issued for the session and the operation, to the owner that the session has; no revocation of it is
in the state store; and it has not expired, unless the call is the refresh itself.  This holds across
reissues, writes that fail and new processes. -/
theorem accepted_granted (host : Host) (w : World) (h : Reached host w) (before after : List Entry)
    (hash nonce sessionId : String) (operation : BrokerOperation) (now : ℤ)
    (owner : Option String)
    (hlog : w.log = before ++ .accepted hash nonce operation sessionId now owner :: after) :
    ∃ record, Granted before hash operation sessionId now owner record :=
  (h.accounted.2 before _ after hlog).1

theorem accepted_granted_payments :
    ∃ record, Granted (afterPayments.log.take 3) "t1" .identity_read "s1" 2000
      (some "npub1owner") record :=
  accepted_granted plainHost afterPayments afterPayments_reached (afterPayments.log.take 3) []
    "t1" "nonce-1123456789" "s1" .identity_read 2000 _ (by decide +kernel)

/-- **A nonce is not accepted again before 2048 others were used.**  Calls that were refused for
their rate, or whose write threw, count as well; reissues, refreshes and new processes forget no
nonce. -/
theorem nonce_once (host : Host) (w : World) (h : Reached host w) (before mid after : List Entry)
    (hash nonce nonce' sessionId sessionId' : String) (operation operation' : BrokerOperation)
    (now now' : ℤ) (owner owner' : Option String)
    (hlog : w.log = before ++ .accepted hash nonce operation sessionId now owner ::
      (mid ++ .accepted hash nonce' operation' sessionId' now' owner' :: after))
    (hfew : mid.countP (Entry.notes hash) < MAX_NONCES_PER_CAPABILITY) : nonce ≠ nonce' := by
  rintro rfl
  rw [← List.cons_append, ← List.append_assoc] at hlog
  have hmany := (h.accounted.2 _ _ _ hlog).2 before operation sessionId now owner mid rfl
  exact absurd hmany (Nat.not_le_of_lt hfew)

theorem nonce_once_payments :
    (afterPayments.log.drop 1).length = 3 ∧ "nonce-0123456789" ≠ "nonce-1123456789" :=
  ⟨by decide +kernel, nonce_once plainHost afterPayments afterPayments_reached
    (afterPayments.log.take 1) [.reserved "t1" "s1" 4500 3000] [] "t1" _ _ "s1" "s1" .wallet_spend
    .identity_read 1000 2000 (some "npub1owner") (some "npub1owner") (by decide +kernel) (by decide)⟩

end Life
end Capabilities
end Signing
end WmAutopilot
