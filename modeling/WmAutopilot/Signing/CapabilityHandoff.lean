import WmAutopilot.Signing.CapabilityBroker

/-!
# The hand-off of a capability

When a capability is reissued, the holder of the old token adopts the new one.

* `World`, `Act`, `step`   the broker with what is known of one session: the token that its process
                           holds, the newest token, the reissues since the last adoption;
* `Attempt`, `Supplied`    the holder of a token can adopt the newest one;
* `Inv`, `Inv.step`        what holds between the calls;
* `supplied_iff`           **when the holder is not left without a route**;
* `holder_stranded`         two reissues before the holder comes back.
-/

set_option autoImplicit false
set_option linter.unusedVariables false

namespace WmAutopilot
namespace Signing
namespace Capabilities
namespace Handoffs
open Js

/-! ## histories -/

/-- The broker, and a session: `held` is the token that was adopted last, `newest` the token that was
issued last.  `calls` counts the reissues since that adoption; `issued` tells whether the last one
issued a token. -/
structure World where
  broker : Broker
  held : String
  newest : String
  calls : ℕ
  issued : Bool

inductive Act where
  /-- `input` is none when nothing can be issued. -/
  | reissue (env : Env) (sessionId : String) (input : Option IssueInput) (id token : String)
  | adopt (env : Env) (request : Request) (bodySessionId : String)

/-- the session `sid` after a call that reissued its capability. -/
def World.reissued (w : World) (b : Broker) (outcome : Except String String) : World where
  broker := b
  held := w.held
  newest := outcome.toOption.getD w.newest
  calls := w.calls + 1
  issued := outcome.toBool

/-- the session after an adoption. -/
def World.adopted (w : World) (b : Broker) : Except String String → World
  | .ok token => { w with broker := b, held := token, calls := 0 }
  | .error _ => { w with broker := b }

def step (host : Host) (sid : String) (w : World) : Act → World
  | .reissue env sessionId input id token =>
    let answer := reissueSessionCapability env.now sessionId (issueFor host env input id token)
      w.broker
    if sessionId = sid then w.reissued answer.1 answer.2 else { w with broker := answer.1 }
  | .adopt env request bodySessionId =>
    let answer := handleReissueAdopt host env request bodySessionId w.broker
    if trim bodySessionId = sid then w.adopted answer.1 answer.2 else { w with broker := answer.1 }

/-- a token that a header can have. -/
def Bearer (token : String) : Prop := readBearerToken (some ("Bearer " ++ token)) = some token

instance (token : String) : Decidable (Bearer token) := inferInstanceAs (Decidable (_ = _))

/-- A token that is drawn is new, and it is issued for the session. -/
def Ready (host : Host) (w : World) : Act → Prop
  | .reissue _ sessionId input _ token =>
    (∀ r ∈ w.broker.capabilities, r.tokenHash ≠ host.sha256 token) ∧
      (∀ issue, input = some issue → issue.sessionId = sessionId) ∧ Bearer token
  | .adopt .. => True

/-- The session has a live capability with this token, and nothing waits to be adopted; the id of a
session has no blanks around it. -/
structure Start (host : Host) (sid token : String) (b : Broker) : Prop where
  trimmed : trim sid = sid
  distinct : (b.capabilities.map (·.tokenHash)).Nodup
  own : ∀ h ∈ b.handoffs, ∃ r ∈ b.capabilities, r.tokenHash = h.hash ∧ r.sessionId = h.sessionId
  idle : ∀ h ∈ b.handoffs, h.sessionId ≠ sid
  initial : ∃ r ∈ b.capabilities, r.tokenHash = host.sha256 token ∧ r.sessionId = sid ∧
    r.revokedAtMs = none
  bearer : Bearer token

/-- The worlds that a history comes to. -/
inductive Reached (host : Host) (sid : String) : World → Prop where
  | start {token : String} {b : Broker} (h : Start host sid token b) :
      Reached host sid ⟨b, token, token, 0, true⟩
  | step {w : World} (h : Reached host sid w) (act : Act) (hready : Ready host w act) :
      Reached host sid (step host sid w act)

/-- The holder of `held` asks for its replacement, with a fresh nonce, while the session runs for the
same owner and the newest token is neither revoked nor expired. -/
structure Attempt (host : Host) (sid : String) (w : World) (env : Env) (request : Request) :
    Prop where
  token : readBearerToken request.authorization = some w.held
  nonce : isNonce request.nonceText = true
  unused : ∀ r, w.broker.get (host.sha256 w.held) = some r → request.nonceText ∉ r.usedNonces
  session : ∀ r, w.broker.get (host.sha256 w.held) = some r →
    ∃ session, env.getSession sid = some session ∧ session.active = true ∧
      session.npub = some r.ownerNpub
  live : ∃ r, w.broker.get (host.sha256 w.newest) = some r ∧ r.revokedAtMs = none ∧
    env.now < r.expiresAtMs

/-- **The holder is not left without a route**: it has the newest token, or it can adopt it. -/
def Supplied (host : Host) (sid : String) (w : World) : Prop :=
  w.newest = w.held ∨ ∀ env request, Attempt host sid w env request →
    (handleReissueAdopt host env request sid w.broker).2 = .ok w.newest

/-- What holds between the calls. -/
structure Inv (host : Host) (sid : String) (w : World) : Prop where
  distinct : (w.broker.capabilities.map (·.tokenHash)).Nodup
  own : ∀ h ∈ w.broker.handoffs, ∃ r ∈ w.broker.capabilities,
    r.tokenHash = h.hash ∧ r.sessionId = h.sessionId
  held : ∃ r ∈ w.broker.capabilities, r.tokenHash = host.sha256 w.held ∧ r.sessionId = sid
  newest : ∃ r ∈ w.broker.capabilities, r.tokenHash = host.sha256 w.newest ∧ r.sessionId = sid
  live : w.issued = true → ∃ r ∈ w.broker.capabilities, r.tokenHash = host.sha256 w.newest ∧
    r.sessionId = sid ∧ r.revokedAtMs = none
  stale : 0 < w.calls → ∀ r ∈ w.broker.capabilities, r.sessionId = sid → r.revokedAtMs = none →
    r.tokenHash = host.sha256 w.newest ∧ w.issued = true
  waits : ∀ h ∈ w.broker.handoffs, h.sessionId = sid → h.replacementToken = w.newest ∧
    w.issued = true
  adopted : w.calls = 0 → w.newest = w.held ∧ w.issued = true
  apart : 0 < w.calls → w.issued = true → host.sha256 w.newest ≠ host.sha256 w.held
  once : w.calls = 1 → w.issued = true →
    w.broker.handoff (host.sha256 w.held) = some ⟨host.sha256 w.held, sid, w.newest⟩
  twice : 1 < w.calls → w.broker.handoff (host.sha256 w.held) = none
  clean : 0 < w.calls → ∀ r ∈ w.broker.capabilities, r.sessionId = sid →
    r.tokenHash = host.sha256 w.held → r.usedNonces = []
  bearers : Bearer w.held ∧ Bearer w.newest

section
variable {host : Host} {sid sessionId hash id token : String} {env : Env} {request : Request}
  {b b' : Broker} {w : World} {r r' : CapabilityRecord} {now : ℤ} {h : Handoff}
  {hashes : List String} {handoffs : List Handoff} {input : Option IssueInput} {e : String}

/-! ## hand-offs -/

/-- the hand-offs that a reissue adds. -/
def added (hashes : List String) (sessionId token : String) (handoffs : List Handoff) :
    List Handoff :=
  hashes.foldl (fun handoffs hash => put (·.hash) handoffs ⟨hash, sessionId, token⟩) handoffs

theorem find?_added : (added hashes sessionId token handoffs).find? (·.hash = hash) =
    if hash ∈ hashes then some ⟨hash, sessionId, token⟩ else handoffs.find? (·.hash = hash) := by
  induction hashes generalizing handoffs with
  | nil => rfl
  | cons first rest ih =>
    refine ih.trans ?_
    by_cases hrest : hash ∈ rest
    · rw [if_pos hrest, if_pos (List.mem_cons_of_mem _ hrest)]
    · rw [if_neg hrest]
      by_cases hfirst : hash = first
      · subst hfirst
        rw [if_pos List.mem_cons_self]
        exact @find?_put_self Handoff String _ (·.hash) handoffs ⟨hash, sessionId, token⟩
      · rw [if_neg fun hmem => (List.mem_cons.mp hmem).elim hfirst hrest]
        exact find?_put_of_ne hfirst

theorem mem_added (hmem : h ∈ added hashes sessionId token handoffs) :
    h ∈ handoffs ∨ h.hash ∈ hashes ∧ h = ⟨h.hash, sessionId, token⟩ := by
  induction hashes generalizing handoffs with
  | nil => exact .inl hmem
  | cons first hashes ih =>
    rcases ih hmem with hold | ⟨hin, heq⟩
    · rcases mem_put.mp hold with rfl | ⟨hold, -⟩
      · exact .inr ⟨List.mem_cons_self, rfl⟩
      · exact .inl hold
    · exact .inr ⟨List.mem_cons_of_mem _ hin, heq⟩

/-- what is taken away besides the hand-off of a token. -/
theorem find?_filter_of {p : Handoff → Bool} (hp : ∀ h ∈ handoffs, h.hash = hash → p h = true) :
    (handoffs.filter p).find? (·.hash = hash) = handoffs.find? (·.hash = hash) := by
  induction handoffs with
  | nil => rfl
  | cons first rest ih =>
    have hrest := ih fun h hmem => hp h (List.mem_cons_of_mem _ hmem)
    by_cases hfirst : first.hash = hash
    · rw [List.filter_cons_of_pos (hp first List.mem_cons_self hfirst), List.find?_cons,
        List.find?_cons, decide_eq_true hfirst]
    · rw [List.find?_cons, decide_eq_false hfirst, ← hrest]
      rw [List.filter_cons]
      split
      · rw [List.find?_cons, decide_eq_false hfirst]
      · rfl

theorem find?_filter_of_not {p : Handoff → Bool} (hp : ∀ h, h.hash = hash → p h = false) :
    (handoffs.filter p).find? (·.hash = hash) = none := by
  rw [List.find?_eq_none]
  intro h hmem heq
  have hpos := (List.mem_filter.mp hmem).2
  rw [hp h (of_decide_eq_true heq)] at hpos
  exact absurd hpos Bool.false_ne_true

/-! ## reissues -/

theorem mem_hashesOf : hash ∈ b.hashesOf sessionId ↔
    ∃ r ∈ b.capabilities, r.sessionId = sessionId ∧ r.tokenHash = hash := by
  unfold Broker.hashesOf
  rw [List.mem_map]
  refine exists_congr fun r => ?_
  rw [List.mem_filter, decide_eq_true_iff, and_assoc]

/-- the records of a session are revoked. -/
def revokedIn (now : ℤ) (sessionId : String) (r : CapabilityRecord) : CapabilityRecord :=
  if r.sessionId = sessionId then revoked now r else r

theorem revokedIn_of_ne (h : r.sessionId ≠ sessionId) : revokedIn now sessionId r = r := if_neg h

theorem revokedIn_tokenHash : (revokedIn now sessionId r).tokenHash = r.tokenHash := by
  unfold revokedIn revoked
  split
  · split <;> rfl
  · rfl

theorem revokedIn_sessionId : (revokedIn now sessionId r).sessionId = r.sessionId := by
  unfold revokedIn revoked
  split
  · split <;> rfl
  · rfl

theorem revokedIn_revoked (h : r.sessionId = sessionId) :
    (revokedIn now sessionId r).revokedAtMs ≠ none := by
  unfold revokedIn revoked
  rw [if_pos h]
  split
  · exact Option.some_ne_none now
  · next hrevoked => exact hrevoked

/-- a record that is revoked now forgets its nonces. -/
theorem revokedIn_usedNonces (h : r.sessionId = sessionId)
    (hclean : r.revokedAtMs = none ∨ r.usedNonces = []) :
    (revokedIn now sessionId r).usedNonces = [] := by
  unfold revokedIn revoked
  rw [if_pos h]
  split
  · rfl
  · next hrevoked => exact hclean.resolve_left hrevoked

theorem revokeSession_capabilities :
    (revokeSession now sessionId b).capabilities =
      b.capabilities.map (revokedIn now sessionId) := by
  unfold revokeSession
  split
  · next hnone =>
    refine ((List.map_congr_left fun r hr => revokedIn_of_ne fun hsession => ?_).trans
      (List.map_id _)).symm
    have hmem : r.tokenHash ∈ b.hashesOf sessionId := mem_hashesOf.mpr ⟨r, hr, hsession, rfl⟩
    rw [hnone] at hmem
    cases hmem
  · rfl

theorem revokeSession_handoffs :
    (revokeSession now sessionId b).handoffs =
      b.handoffs.filter fun h => h.hash ∉ b.hashesOf sessionId := by
  unfold revokeSession
  split
  · next hnone =>
    rw [hnone]
    exact (List.filter_eq_self.mpr fun h _ => decide_eq_true List.not_mem_nil).symm
  · rfl

/-- the hashes whose holders may adopt what is issued. -/
def oldHashes (b : Broker) (sessionId : String) : List String :=
  (b.hashesOf sessionId).filter fun hash => ((b.get hash).map (·.revokedAtMs)) = some none

/-- a new capability has the hash of its token, and it is live. -/
theorem issuedRecord_ok {input : IssueInput} (h : issuedRecord env b input id hash = .ok r) :
    r.tokenHash = hash ∧ r.sessionId = input.sessionId ∧ r.revokedAtMs = none := by
  unfold issuedRecord at h
  simp only [bind_ok] at h
  obtain ⟨session, -, -, -, -, -, -, -, -, -, -, -, -, -, h⟩ := h
  cases h
  exact ⟨rfl, rfl, rfl⟩

theorem issueFor_ok {newest : String}
    (hsession : ∀ issue, input = some issue → issue.sessionId = sessionId)
    (hnew : ∀ r ∈ b.capabilities, r.tokenHash ≠ host.sha256 token)
    (h : issueFor host env input id token b = .ok (b', newest)) :
    newest = token ∧ b'.handoffs = b.handoffs ∧
      ∃ record : CapabilityRecord, record.tokenHash = host.sha256 token ∧
        record.sessionId = sessionId ∧ record.revokedAtMs = none ∧
        b'.capabilities = b.capabilities ++ [record] := by
  unfold issueFor at h
  obtain ⟨issue, hissue, h⟩ := bind_ok.mp h
  obtain ⟨b₁, hissued, h⟩ := bind_ok.mp h
  cases h
  obtain ⟨record, hrecord, heq⟩ := bind_ok.mp hissued
  obtain rfl := Except.ok.inj heq
  obtain ⟨hhash, hsame, hlive⟩ := issuedRecord_ok hrecord
  refine ⟨rfl, rfl, record, hhash, hsame.trans (hsession issue (orThrow_ok.mp hissue)), hlive, ?_⟩
  exact put_of_new fun r hr => hhash ▸ hnew r hr

/-- The broker after a reissue, whether a token was issued or not: the capabilities of the session are
revoked, and the holders of those that were live may adopt what was issued. -/
structure Reissued (host : Host) (now : ℤ) (sessionId token : String) (b b' : Broker)
    (record : Option CapabilityRecord) : Prop where
  capabilities : b'.capabilities = b.capabilities.map (revokedIn now sessionId) ++ record.toList
  handoffs : b'.handoffs = added (if record.isSome then oldHashes b sessionId else []) sessionId token
    (b.handoffs.filter fun h => h.hash ∉ b.hashesOf sessionId)
  issued : ∀ r, record = some r → r.tokenHash = host.sha256 token ∧ r.sessionId = sessionId ∧
    r.revokedAtMs = none

theorem reissue_spec {outcome : Except String String}
    (hready : Ready host w (.reissue env sessionId input id token))
    (h : reissueSessionCapability env.now sessionId (issueFor host env input id token) w.broker =
      (b', outcome)) :
    ∃ record, Reissued host env.now sessionId token w.broker b' record ∧
      (record = none ∧ (∃ e, outcome = .error e) ∨
        record.isSome = true ∧ outcome = .ok token) := by
  obtain ⟨hnew, hsession, -⟩ := hready
  unfold reissueSessionCapability at h
  dsimp only at h
  cases hissue : issueFor host env input id token (revokeSession env.now sessionId w.broker) with
  | error e =>
    rw [hissue] at h
    cases h
    exact ⟨none, ⟨revokeSession_capabilities.trans (List.append_nil _).symm, revokeSession_handoffs,
      fun r hr => nomatch hr⟩, .inl ⟨rfl, e, rfl⟩⟩
  | ok issued =>
    obtain ⟨b₁, newest⟩ := issued
    rw [hissue] at h
    cases h
    have hnew' : ∀ r ∈ (revokeSession env.now sessionId w.broker).capabilities,
        r.tokenHash ≠ host.sha256 token := by
      intro r hr
      rw [revokeSession_capabilities] at hr
      obtain ⟨old, hold, rfl⟩ := List.mem_map.mp hr
      rw [revokedIn_tokenHash]
      exact hnew old hold
    obtain ⟨rfl, hhandoffs, record, hhash, hsame, hlive, hcapabilities⟩ :=
      issueFor_ok hsession hnew' hissue
    rw [revokeSession_capabilities] at hcapabilities
    rw [revokeSession_handoffs] at hhandoffs
    refine ⟨some record, ⟨hcapabilities, ?_, ?_⟩, .inr ⟨rfl, rfl⟩⟩
    · rw [← hhandoffs]
      rfl
    · intro r hr
      obtain rfl := Option.some.inj hr
      exact ⟨hhash, hsame, hlive⟩

/-! ## what a history keeps -/

theorem eq_of_hash (hdistinct : (b.capabilities.map (·.tokenHash)).Nodup)
    (hr : r ∈ b.capabilities) (hr' : r' ∈ b.capabilities) (h : r.tokenHash = r'.tokenHash) :
    r = r' :=
  List.inj_on_of_nodup_map hdistinct hr hr' h

theorem get_of_mem (hdistinct : (b.capabilities.map (·.tokenHash)).Nodup)
    (hr : r ∈ b.capabilities) (hhash : r.tokenHash = hash) : b.get hash = some r := by
  unfold Broker.get
  cases hfind : b.capabilities.find? (·.tokenHash = hash) with
  | none => exact absurd (decide_eq_true hhash) (List.find?_eq_none.mp hfind r hr)
  | some r' =>
    have hfound : r'.tokenHash = hash := by
      simpa only [decide_eq_true_iff] using List.find?_some hfind
    rw [eq_of_hash hdistinct (List.mem_of_find?_eq_some hfind) hr (hfound.trans hhash.symm)]

theorem mem_oldHashes (hdistinct : (b.capabilities.map (·.tokenHash)).Nodup) :
    hash ∈ oldHashes b sessionId ↔
      ∃ r ∈ b.capabilities, r.sessionId = sessionId ∧ r.tokenHash = hash ∧
        r.revokedAtMs = none := by
  unfold oldHashes
  rw [List.mem_filter, mem_hashesOf, decide_eq_true_iff]
  constructor
  · rintro ⟨⟨r, hr, hsession, hhash⟩, hlive⟩
    rw [get_of_mem hdistinct hr hhash] at hlive
    exact ⟨r, hr, hsession, hhash, Option.some.inj hlive⟩
  · rintro ⟨r, hr, hsession, hhash, hlive⟩
    refine ⟨⟨r, hr, hsession, hhash⟩, ?_⟩
    rw [get_of_mem hdistinct hr hhash]
    exact congrArg some hlive

/-- the hashes of another session are not those of this one. -/
theorem not_mem_hashesOf (hdistinct : (b.capabilities.map (·.tokenHash)).Nodup)
    (hr : r ∈ b.capabilities) (hother : r.sessionId ≠ sessionId) :
    r.tokenHash ∉ b.hashesOf sessionId := by
  intro hmem
  obtain ⟨r', hr', hsession, hhash⟩ := mem_hashesOf.mp hmem
  exact hother (eq_of_hash hdistinct hr' hr hhash ▸ hsession)

theorem oldHashes_subset (hmem : hash ∈ oldHashes b sessionId) : hash ∈ b.hashesOf sessionId :=
  List.mem_of_mem_filter hmem

/-- What leaves a session as it was. -/
structure Frame (sid hash : String) (b b' : Broker) : Prop where
  distinct : (b'.capabilities.map (·.tokenHash)).Nodup
  own : ∀ h ∈ b'.handoffs, ∃ r ∈ b'.capabilities, r.tokenHash = h.hash ∧ r.sessionId = h.sessionId
  records : ∀ r, r.sessionId = sid → (r ∈ b'.capabilities ↔ r ∈ b.capabilities)
  waits : ∀ h ∈ b'.handoffs, h.sessionId = sid → h ∈ b.handoffs
  handoff : b'.handoff hash = b.handoff hash

theorem Inv.frame (hw : Inv host sid w) (hf : Frame sid (host.sha256 w.held) w.broker b') :
    Inv host sid { w with broker := b' } where
  distinct := hf.distinct
  own := hf.own
  held := by
    obtain ⟨r, hr, hhash, hsession⟩ := hw.held
    exact ⟨r, (hf.records r hsession).mpr hr, hhash, hsession⟩
  newest := by
    obtain ⟨r, hr, hhash, hsession⟩ := hw.newest
    exact ⟨r, (hf.records r hsession).mpr hr, hhash, hsession⟩
  live hissued := by
    obtain ⟨r, hr, hhash, hsession, hlive⟩ := hw.live hissued
    exact ⟨r, (hf.records r hsession).mpr hr, hhash, hsession, hlive⟩
  stale hcalls r hr hsession := hw.stale hcalls r ((hf.records r hsession).mp hr) hsession
  waits h hmem hsession := hw.waits h (hf.waits h hmem hsession) hsession
  adopted := hw.adopted
  apart := hw.apart
  once hcalls hissued := hf.handoff.trans (hw.once hcalls hissued)
  twice hcalls := hf.handoff.trans (hw.twice hcalls)
  clean hcalls r hr hsession := hw.clean hcalls r ((hf.records r hsession).mp hr) hsession
  bearers := hw.bearers

/-- revoking keeps the hashes. -/
theorem hashes_revokedIn {records : List CapabilityRecord} :
    (records.map (revokedIn now sessionId)).map (·.tokenHash) = records.map (·.tokenHash) := by
  rw [List.map_map]
  exact List.map_congr_left fun r _ => revokedIn_tokenHash

theorem own_revokedIn
    (hown : ∃ r ∈ b.capabilities, r.tokenHash = h.hash ∧ r.sessionId = h.sessionId) :
    ∃ r ∈ b.capabilities.map (revokedIn now sessionId),
      r.tokenHash = h.hash ∧ r.sessionId = h.sessionId := by
  obtain ⟨r, hr, hhash, hsession⟩ := hown
  exact ⟨_, List.mem_map_of_mem hr, revokedIn_tokenHash.trans hhash,
    revokedIn_sessionId.trans hsession⟩

/-- the records of another session. -/
theorem mem_revokedIn_of_ne (hother : r.sessionId ≠ sessionId) :
    r ∈ b.capabilities.map (revokedIn now sessionId) ↔ r ∈ b.capabilities := by
  constructor
  · intro hr
    obtain ⟨old, hold, rfl⟩ := List.mem_map.mp hr
    rw [revokedIn_sessionId] at hother
    rw [revokedIn_of_ne hother]
    exact hold
  · intro hr
    exact List.mem_map.mpr ⟨r, hr, revokedIn_of_ne hother⟩

/-! ## steps -/

section
variable {record : Option CapabilityRecord}

/-- the hashes stay distinct. -/
theorem Reissued.distinct (hb : Reissued host now sessionId token b b' record)
    (hdistinct : (b.capabilities.map (·.tokenHash)).Nodup)
    (hnew : ∀ r ∈ b.capabilities, r.tokenHash ≠ host.sha256 token) :
    (b'.capabilities.map (·.tokenHash)).Nodup := by
  rw [hb.capabilities, List.map_append, hashes_revokedIn, List.nodup_append]
  refine ⟨hdistinct, by cases record <;> simp, fun hash hmem hash' hmem' heq => ?_⟩
  obtain ⟨r, hr, rfl⟩ := List.mem_map.mp hmem
  obtain ⟨r', hr', rfl⟩ := List.mem_map.mp hmem'
  exact hnew r hr (heq.trans (hb.issued r' (Option.mem_toList.mp hr')).1)

/-- a hand-off belongs to a capability of its session. -/
theorem Reissued.own (hb : Reissued host now sessionId token b b' record)
    (hown : ∀ h ∈ b.handoffs, ∃ r ∈ b.capabilities,
      r.tokenHash = h.hash ∧ r.sessionId = h.sessionId) :
    ∀ h ∈ b'.handoffs, ∃ r ∈ b'.capabilities, r.tokenHash = h.hash ∧ r.sessionId = h.sessionId := by
  intro h hmem
  have hold : ∃ r ∈ b.capabilities, r.tokenHash = h.hash ∧ r.sessionId = h.sessionId := by
    rw [hb.handoffs] at hmem
    rcases mem_added hmem with hmem | ⟨hin, heq⟩
    · exact hown h (List.mem_of_mem_filter hmem)
    · have hin' : h.hash ∈ b.hashesOf sessionId := by
        split at hin
        · exact oldHashes_subset hin
        · cases hin
      obtain ⟨r, hr, hsession, hhash⟩ := mem_hashesOf.mp hin'
      exact ⟨r, hr, hhash, hsession.trans (congrArg Handoff.sessionId heq).symm⟩
  obtain ⟨r, hr, hand⟩ : ∃ r ∈ b.capabilities.map (revokedIn now sessionId),
    r.tokenHash = h.hash ∧ r.sessionId = h.sessionId := own_revokedIn hold
  rw [hb.capabilities]
  exact ⟨r, List.mem_append_left _ hr, hand⟩

/-- the hand-off of a token after a reissue. -/
theorem Reissued.handoff (hb : Reissued host now sessionId token b b' record) :
    b'.handoff hash = if hash ∈ (if record.isSome then oldHashes b sessionId else []) then
        some ⟨hash, sessionId, token⟩
      else if hash ∈ b.hashesOf sessionId then none else b.handoff hash := by
  unfold Broker.handoff
  rw [hb.handoffs, find?_added]
  congr 1
  split
  · next hmem =>
    refine find?_filter_of_not fun h hhash => decide_eq_false ?_
    rw [hhash]
    exact not_not_intro hmem
  · next hmem =>
    refine find?_filter_of fun h _ hhash => decide_eq_true ?_
    rw [hhash]
    exact hmem

/-- the hand-offs of the session itself lead to the new token. -/
theorem Reissued.waits (hb : Reissued host now sessionId token b b' record)
    (hown : ∀ h ∈ b.handoffs, ∃ r ∈ b.capabilities,
      r.tokenHash = h.hash ∧ r.sessionId = h.sessionId) :
    ∀ h ∈ b'.handoffs, h.sessionId = sessionId →
      h.replacementToken = token ∧ record.isSome = true := by
  intro h hmem hsession
  rw [hb.handoffs] at hmem
  rcases mem_added hmem with hmem | ⟨hin, heq⟩
  · obtain ⟨r, hr, hhash, hsame⟩ := hown h (List.mem_of_mem_filter hmem)
    have hnot := of_decide_eq_true (List.mem_filter.mp hmem).2
    exact absurd (mem_hashesOf.mpr ⟨r, hr, hsame.trans hsession, hhash⟩) hnot
  · refine ⟨congrArg Handoff.replacementToken heq, ?_⟩
    split at hin
    · assumption
    · cases hin

/-- What a reissue of another session leaves. -/
theorem Reissued.frame (hb : Reissued host now sessionId token b b' record)
    (hw : Inv host sid w) (hbroker : w.broker = b) (hother : sessionId ≠ sid)
    (hnew : ∀ r ∈ b.capabilities, r.tokenHash ≠ host.sha256 token) :
    Frame sid (host.sha256 w.held) b b' := by
  subst hbroker
  refine ⟨hb.distinct hw.distinct hnew, hb.own hw.own, fun r hsession => ?_,
    fun h hmem hsession => ?_, ?_⟩
  · have hne : r.sessionId ≠ sessionId := hsession.trans_ne hother.symm
    rw [hb.capabilities, List.mem_append, mem_revokedIn_of_ne hne]
    refine or_iff_left fun hr => ?_
    exact hne (hb.issued r (Option.mem_toList.mp hr)).2.1
  · rw [hb.handoffs] at hmem
    rcases mem_added hmem with hmem | ⟨-, heq⟩
    · exact List.mem_of_mem_filter hmem
    · exact absurd ((congrArg Handoff.sessionId heq).symm.trans hsession) hother
  · obtain ⟨r, hr, hhash, hsession⟩ := hw.held
    have hnot : host.sha256 w.held ∉ w.broker.hashesOf sessionId := by
      rw [← hhash]
      exact not_mem_hashesOf hw.distinct hr (hsession.trans_ne hother.symm)
    rw [hb.handoff, if_neg, if_neg hnot]
    intro hin
    split at hin
    · exact hnot (oldHashes_subset hin)
    · cases hin

/-- no capability of before is live after it. -/
theorem Reissued.mem_live (hb : Reissued host now sessionId token b b' record)
    (hr : r ∈ b'.capabilities) (hsession : r.sessionId = sessionId)
    (hlive : r.revokedAtMs = none) : record = some r := by
  rw [hb.capabilities, List.mem_append] at hr
  rcases hr with hr | hr
  · obtain ⟨old, hold, rfl⟩ := List.mem_map.mp hr
    rw [revokedIn_sessionId] at hsession
    exact absurd hlive (revokedIn_revoked hsession)
  · exact Option.mem_toList.mp hr

/-- the hash of the holder is one of its session. -/
theorem Inv.held_mem (hw : Inv host sid w) :
    host.sha256 w.held ∈ w.broker.hashesOf sid := by
  obtain ⟨r, hr, hhash, hsession⟩ := hw.held
  exact mem_hashesOf.mpr ⟨r, hr, hsession, hhash⟩

/-- the holder may adopt what is issued when no reissue came before, and only then. -/
theorem Inv.held_mem_oldHashes (hw : Inv host sid w) :
    host.sha256 w.held ∈ oldHashes w.broker sid ↔ w.calls = 0 := by
  rw [mem_oldHashes hw.distinct]
  constructor
  · rintro ⟨r, hr, hsession, hhash, hlive⟩
    by_contra hcalls
    have hpos : 0 < w.calls := Nat.pos_of_ne_zero hcalls
    obtain ⟨hnewest, hissued⟩ := hw.stale hpos r hr hsession hlive
    exact hw.apart hpos hissued (hnewest.symm.trans hhash)
  · intro hcalls
    obtain ⟨hnewest, hissued⟩ := hw.adopted hcalls
    obtain ⟨r, hr, hhash, hsession, hlive⟩ := hw.live hissued
    exact ⟨r, hr, hsession, hhash.trans (congrArg host.sha256 hnewest), hlive⟩

/-- a reissue of the session leaves nothing on the capability that is held. -/
theorem Reissued.clean (hb : Reissued host now sid token w.broker b' record)
    (hw : Inv host sid w) (hnew : ∀ r ∈ w.broker.capabilities, r.tokenHash ≠ host.sha256 token)
    (hr : r ∈ b'.capabilities) (hsession : r.sessionId = sid)
    (hhash : r.tokenHash = host.sha256 w.held) : r.usedNonces = [] := by
  rw [hb.capabilities, List.mem_append] at hr
  rcases hr with hr | hr
  · obtain ⟨old, hold, rfl⟩ := List.mem_map.mp hr
    rw [revokedIn_sessionId] at hsession
    rw [revokedIn_tokenHash] at hhash
    refine revokedIn_usedNonces hsession ?_
    by_cases hcalls : w.calls = 0
    · obtain ⟨hnewest, hissued⟩ := hw.adopted hcalls
      obtain ⟨r, hr, hhash', -, hlive⟩ := hw.live hissued
      rw [hnewest] at hhash'
      exact .inl (eq_of_hash hw.distinct hold hr (hhash.trans hhash'.symm) ▸ hlive)
    · exact .inr (hw.clean (Nat.pos_of_ne_zero hcalls) old hold hsession hhash)
  · obtain ⟨held, hheld, hhash', -⟩ := hw.held
    have hissued := (hb.issued r (Option.mem_toList.mp hr)).1
    exact absurd (hhash'.trans (hhash.symm.trans hissued)) (hnew held hheld)

/-- a capability is known after a reissue as before it. -/
theorem Reissued.known (hb : Reissued host now sid token b b' record)
    (h : ∃ r ∈ b.capabilities, r.tokenHash = hash ∧ r.sessionId = sid) :
    ∃ r ∈ b'.capabilities, r.tokenHash = hash ∧ r.sessionId = sid := by
  obtain ⟨r, hr, hhash, hsession⟩ := h
  refine ⟨revokedIn now sid r, ?_, revokedIn_tokenHash.trans hhash,
    revokedIn_sessionId.trans hsession⟩
  rw [hb.capabilities]
  exact List.mem_append_left _ (List.mem_map_of_mem hr)

theorem Reissued.mem_issued {issued : CapabilityRecord}
    (hb : Reissued host now sid token b b' (some issued)) : issued ∈ b'.capabilities := by
  rw [hb.capabilities]
  exact List.mem_append_right _ (Option.mem_toList.mpr rfl)

/-- a session whose capability could not be reissued. -/
theorem Inv.reissue_error (hw : Inv host sid w)
    (hb : Reissued host now sid token w.broker b' none)
    (hnew : ∀ r ∈ w.broker.capabilities, r.tokenHash ≠ host.sha256 token) :
    Inv host sid (w.reissued b' (.error e)) where
  distinct := hb.distinct hw.distinct hnew
  own := hb.own hw.own
  held := hb.known hw.held
  newest := hb.known hw.newest
  live := nofun
  stale _ r hr hsession hlive := nomatch hb.mem_live hr hsession hlive
  waits h hmem hsession := nomatch (hb.waits hw.own h hmem hsession).2
  adopted := nofun
  apart _ := nofun
  once _ := nofun
  twice _ := by
    show b'.handoff _ = none
    rw [hb.handoff]
    exact (if_neg List.not_mem_nil).trans (if_pos hw.held_mem)
  clean _ r hr hsession hhash := hb.clean hw hnew hr hsession hhash
  bearers := hw.bearers

/-- **A session whose capability was reissued.** -/
theorem Inv.reissue_ok {issued : CapabilityRecord} (hw : Inv host sid w)
    (hb : Reissued host now sid token w.broker b' (some issued))
    (hnew : ∀ r ∈ w.broker.capabilities, r.tokenHash ≠ host.sha256 token)
    (hbearer : Bearer token) : Inv host sid (w.reissued b' (.ok token)) where
  distinct := hb.distinct hw.distinct hnew
  own := hb.own hw.own
  held := hb.known hw.held
  newest := by
    obtain ⟨hhash, hsession, -⟩ := hb.issued issued rfl
    exact ⟨issued, hb.mem_issued, hhash, hsession⟩
  live _ := by
    obtain ⟨hhash, hsession, hlive⟩ := hb.issued issued rfl
    exact ⟨issued, hb.mem_issued, hhash, hsession, hlive⟩
  stale _ r hr hsession hlive :=
    ⟨(hb.issued r (hb.mem_live hr hsession hlive)).1, rfl⟩
  waits h hmem hsession := ⟨(hb.waits hw.own h hmem hsession).1, rfl⟩
  adopted := nofun
  apart _ _ := by
    obtain ⟨r, hr, hhash, -⟩ := hw.held
    exact fun heq => hnew r hr (hhash.trans heq.symm)
  once hcalls _ := by
    have hzero : w.calls = 0 := Nat.succ.inj hcalls
    show b'.handoff _ = _
    rw [hb.handoff]
    exact if_pos (hw.held_mem_oldHashes.mpr hzero)
  twice hcalls := by
    have hpos : w.calls ≠ 0 := Nat.ne_of_gt (Nat.lt_of_succ_lt_succ hcalls)
    show b'.handoff _ = none
    rw [hb.handoff]
    exact (if_neg fun hmem => hpos (hw.held_mem_oldHashes.mp hmem)).trans (if_pos hw.held_mem)
  clean _ r hr hsession hhash := hb.clean hw hnew hr hsession hhash
  bearers := ⟨hw.bearers.1, hbearer⟩

end

/-- What an adoption that succeeds finds and takes away. -/
theorem adopt_ok {bodySessionId newest : String}
    (h : handleReissueAdopt host env request bodySessionId b = (b', .ok newest)) :
    b'.capabilities = b.capabilities ∧
      (∃ h ∈ b.handoffs, h.sessionId = trim bodySessionId ∧ h.replacementToken = newest) ∧
      b'.handoffs = b.handoffs.filter fun candidate =>
        ¬(candidate.sessionId = trim bodySessionId ∧ candidate.replacementToken = newest) := by
  unfold handleReissueAdopt at h
  split at h
  · cases h
  · next handoff sessionId heq =>
    cases h
    unfold adoption at heq
    simp only [bind_ok, orThrow_ok, throwIf_ok] at heq
    obtain ⟨token, -, found, hfound, old, -, -, hsession, -, -, -, -, -, -, -, -, heq⟩ := heq
    cases heq
    have hmem : handoff ∈ b.handoffs := List.mem_of_find?_eq_some hfound
    have hsame : trim bodySessionId = handoff.sessionId := not_not.mp (not_or.mp hsession).1
    exact ⟨rfl, ⟨handoff, hmem, hsame.symm, rfl⟩, rfl⟩

/-- an adoption that fails changes nothing. -/
theorem adopt_error {bodySessionId : String}
    (h : handleReissueAdopt host env request bodySessionId b = (b', .error e)) : b' = b := by
  unfold handleReissueAdopt at h
  split at h
  · cases h
    rfl
  · cases h

/-- What an adoption of another session leaves. -/
theorem Inv.frame_adopt {bodySessionId newest : String} (hw : Inv host sid w)
    (hother : trim bodySessionId ≠ sid)
    (h : handleReissueAdopt host env request bodySessionId w.broker = (b', .ok newest)) :
    Frame sid (host.sha256 w.held) w.broker b' := by
  obtain ⟨hcapabilities, -, hhandoffs⟩ := adopt_ok h
  refine ⟨?_, fun h hmem => ?_, fun r _ => ?_, fun h hmem _ => ?_, ?_⟩
  · rw [hcapabilities]
    exact hw.distinct
  · rw [hcapabilities]
    rw [hhandoffs] at hmem
    exact hw.own h (List.mem_of_mem_filter hmem)
  · rw [hcapabilities]
  · rw [hhandoffs] at hmem
    exact List.mem_of_mem_filter hmem
  · unfold Broker.handoff
    rw [hhandoffs]
    refine find?_filter_of fun h hmem hhash => decide_eq_true fun hand => ?_
    obtain ⟨r, hr, hheld, hsession⟩ := hw.held
    obtain ⟨r', hr', hhash', hsession'⟩ := hw.own h hmem
    have hsame : r = r' := eq_of_hash hw.distinct hr hr' (hheld.trans (hhash'.trans hhash).symm)
    exact hother (hand.1.symm.trans (hsession'.symm.trans (hsame ▸ hsession)))

/-- **The session adopts the newest token.** -/
theorem Inv.adopt_ok {bodySessionId newest : String} (hw : Inv host sid w)
    (hsame : trim bodySessionId = sid)
    (h : handleReissueAdopt host env request bodySessionId w.broker = (b', .ok newest)) :
    Inv host sid (w.adopted b' (.ok newest)) := by
  obtain ⟨hcapabilities, ⟨found, hfound, hsession, rfl⟩, hhandoffs⟩ := Handoffs.adopt_ok h
  obtain ⟨hnewest, hissued⟩ := hw.waits found hfound (hsession.trans hsame)
  rw [hnewest]
  exact {
    distinct := by
      show (b'.capabilities.map (·.tokenHash)).Nodup
      rw [hcapabilities]
      exact hw.distinct
    own := fun h hmem => by
      show ∃ r ∈ b'.capabilities, _
      rw [hcapabilities]
      exact hw.own h (List.mem_of_mem_filter (hhandoffs ▸ hmem))
    held := by
      show ∃ r ∈ b'.capabilities, _
      rw [hcapabilities]
      exact hw.newest
    newest := by
      show ∃ r ∈ b'.capabilities, _
      rw [hcapabilities]
      exact hw.newest
    live := fun _ => by
      show ∃ r ∈ b'.capabilities, _
      rw [hcapabilities]
      exact hw.live hissued
    stale := nofun
    waits := fun h hmem => hw.waits h (List.mem_of_mem_filter (hhandoffs ▸ hmem))
    adopted := fun _ => ⟨rfl, hissued⟩
    apart := nofun
    once := nofun
    twice := nofun
    clean := nofun
    bearers := ⟨hw.bearers.2, hw.bearers.2⟩ }

theorem Inv.step (hw : Inv host sid w) {act : Act} (hready : Ready host w act) :
    Inv host sid (step host sid w act) := by
  cases act with
  | reissue env sessionId input id token =>
    generalize hanswer : reissueSessionCapability env.now sessionId
      (issueFor host env input id token) w.broker = answer
    obtain ⟨b', outcome⟩ := answer
    obtain ⟨record, hb, houtcome⟩ := reissue_spec hready hanswer
    unfold Handoffs.step
    dsimp only
    rw [hanswer]
    split
    · next hsame =>
      subst hsame
      rcases houtcome with ⟨rfl, e, rfl⟩ | ⟨hissued, rfl⟩
      · exact hw.reissue_error hb hready.1
      · obtain ⟨issued, rfl⟩ := Option.isSome_iff_exists.mp hissued
        exact hw.reissue_ok hb hready.1 hready.2.2
    · next hother => exact hw.frame (hb.frame hw rfl hother hready.1)
  | adopt env request bodySessionId =>
    generalize hanswer : handleReissueAdopt host env request bodySessionId w.broker = answer
    obtain ⟨b', outcome⟩ := answer
    unfold Handoffs.step
    dsimp only
    rw [hanswer]
    cases outcome with
    | error e =>
      obtain rfl := adopt_error hanswer
      split <;> exact hw
    | ok newest =>
      split
      · next hsame => exact hw.adopt_ok hsame hanswer
      · next hother => exact hw.frame (hw.frame_adopt hother hanswer)

theorem Start.inv (h : Start host sid token b) : Inv host sid ⟨b, token, token, 0, true⟩ where
  distinct := h.distinct
  own := h.own
  held := h.initial.imp fun r hr => ⟨hr.1, hr.2.1, hr.2.2.1⟩
  newest := h.initial.imp fun r hr => ⟨hr.1, hr.2.1, hr.2.2.1⟩
  live _ := h.initial
  stale := nofun
  waits x hmem hsession := absurd hsession (h.idle x hmem)
  adopted _ := ⟨rfl, rfl⟩
  apart := nofun
  once := nofun
  twice := nofun
  clean := nofun
  bearers := ⟨h.bearer, h.bearer⟩

theorem Reached.inv (h : Reached host sid w) : Inv host sid w := by
  induction h with
  | start h => exact h.inv
  | step _ act hready ih => exact ih.step hready

/-! ## the holder -/

/-- a hand-off that waits is given to whoever holds its token. -/
theorem Attempt.adopts (hw : Inv host sid w) (ha : Attempt host sid w env request)
    (htrim : trim sid = sid)
    (hwaits : w.broker.handoff (host.sha256 w.held) = some ⟨host.sha256 w.held, sid, w.newest⟩) :
    (handleReissueAdopt host env request sid w.broker).2 = .ok w.newest := by
  obtain ⟨r, hr, hhash, hsession⟩ := hw.held
  have hget : w.broker.get (host.sha256 w.held) = some r := get_of_mem hw.distinct hr hhash
  obtain ⟨session, hsome, hactive, howner⟩ := ha.session r hget
  have hadoption : adoption host env request sid w.broker =
      .ok (⟨host.sha256 w.held, sid, w.newest⟩, sid) := by
    unfold adoption
    simp only [bind_ok, orThrow_ok, throwIf_ok, htrim]
    refine ⟨w.held, ha.token, _, hwaits, r, hget, ⟨⟩, ?_, ⟨⟩, ?_, ⟨⟩, ha.unused r hget, session,
      hsome, ⟨⟩, ?_, rfl⟩
    · exact not_or.mpr ⟨not_not_intro rfl, not_not_intro hsession⟩
    · rw [ha.nonce]
      exact Bool.noConfusion
    · rw [hactive]
      exact not_or.mpr ⟨not_not_intro howner, Bool.noConfusion⟩
  unfold handleReissueAdopt
  rw [hadoption]

/-- without a hand-off nothing is adopted. -/
theorem not_adopts (htoken : readBearerToken request.authorization = some w.held)
    (hnone : w.broker.handoff (host.sha256 w.held) = none) :
    (handleReissueAdopt host env request sid w.broker).2 ≠ .ok w.newest := by
  have hadoption : adoption host env request sid w.broker =
      .error "No explicit capability replacement is available" := by
    unfold adoption
    rw [htoken]
    show (orThrow _ (w.broker.handoff (host.sha256 w.held)) >>= _) = _
    rw [hnone]
    rfl
  unfold handleReissueAdopt
  rw [hadoption]
  exact nofun

/-- the holder may always ask, while the newest token is live. -/
theorem Inv.exists_attempt (hw : Inv host sid w) (hcalls : 0 < w.calls)
    (hissued : w.issued = true) : ∃ env request, Attempt host sid w env request := by
  obtain ⟨held, hheld, hhash, hsession⟩ := hw.held
  obtain ⟨newest, hnewest, hhash', -, hlive⟩ := hw.live hissued
  have hget : w.broker.get (host.sha256 w.held) = some held := get_of_mem hw.distinct hheld hhash
  have hclean : held.usedNonces = [] := hw.clean hcalls held hheld hsession hhash
  refine ⟨⟨newest.expiresAtMs - 1,
      fun _ => some { npub := some held.ownerNpub, status := "running" },
      fun _ => none, fun _ => none, none⟩,
    ⟨some ("Bearer " ++ w.held), some "nonce-0123456789"⟩, hw.bearers.1, ?_, ?_, ?_, ?_⟩
  · show isNonce (trim "nonce-0123456789") = true
    decide +kernel
  · intro r hr
    rw [hget] at hr
    obtain rfl := Option.some.inj hr
    rw [hclean]
    exact List.not_mem_nil
  · intro r hr
    rw [hget] at hr
    obtain rfl := Option.some.inj hr
    exact ⟨_, rfl, rfl, rfl⟩
  · exact ⟨newest, get_of_mem hw.distinct hnewest hhash', hlive, by
      show newest.expiresAtMs - 1 < newest.expiresAtMs
      omega⟩

/-- **A second reissue leaves the holder without a route.** -/
theorem Inv.stranded (hw : Inv host sid w) (hcalls : 1 < w.calls) (hissued : w.issued = true) :
    ¬Supplied host sid w := by
  have hpos : 0 < w.calls := Nat.lt_of_succ_lt hcalls
  rintro (hsame | hadopts)
  · exact hw.apart hpos hissued (congrArg host.sha256 hsame)
  · obtain ⟨env, request, ha⟩ := hw.exists_attempt hpos hissued
    exact not_adopts ha.token (hw.twice hcalls) (hadopts env request ha)

theorem Reached.trimmed (h : Reached host sid w) : trim sid = sid := by
  induction h with
  | start h => exact h.trimmed
  | step _ _ _ ih => exact ih

end

/-- **When the holder is not left without a route.**  In every history: when the session was reissued
at most once since its last adoption, or when its last reissue issued no token.  A second reissue
takes back what waits for the holder, and leaves the new token to the one that nobody adopted. -/
theorem supplied_iff (host : Host) (sid : String) (w : World) (h : Reached host sid w) :
    Supplied host sid w ↔ w.calls ≤ 1 ∨ w.issued = false := by
  have hw := h.inv
  constructor
  · intro hsupplied
    by_contra hnot
    obtain ⟨hcalls, hissued⟩ := not_or.mp hnot
    exact hw.stranded (Nat.lt_of_not_le hcalls) (Bool.of_not_eq_false hissued) hsupplied
  · intro hcond
    by_cases hzero : w.calls = 0
    · exact .inl (hw.adopted hzero).1
    · have hpos : 0 < w.calls := Nat.pos_of_ne_zero hzero
      refine .inr fun env request ha => ?_
      have hissued : w.issued = true := by
        obtain ⟨r, hget, hlive, -⟩ := ha.live
        obtain ⟨r', hr', hhash, hsession⟩ := hw.newest
        rw [get_of_mem hw.distinct hr' hhash] at hget
        obtain rfl := Option.some.inj hget
        exact (hw.stale hpos r' hr' hsession hlive).2
      have honce : w.calls = 1 := by
        refine Nat.le_antisymm (hcond.resolve_right ?_) hpos
        rw [hissued]
        exact Bool.noConfusion
      exact ha.adopts hw h.trimmed (hw.once honce hissued)

/-! ## a session -/

def plainInput : IssueInput where
  sessionId := "s1"
  ownerNpub := "npub1owner"
  policy := { operations := [.identity_read, .capability_refresh] }

/-- a session with its first capability. -/
def firstIssued : Broker :=
  (issueSessionCapability plainHost (plainEnv 0) plainInput "c0" "t0" ⟨[], [], none⟩).toOption.getD
    ⟨[], [], none⟩

theorem firstIssued_start : Start plainHost "s1" "t0" firstIssued where
  trimmed := by decide +kernel
  distinct := by decide +kernel
  own := by decide +kernel
  idle := by decide +kernel
  initial := by decide +kernel
  bearer := by decide +kernel

/-- the capability of the session is reissued. -/
def reissueWith (now : ℤ) (id token : String) : Act :=
  .reissue (plainEnv now) "s1" (some plainInput) id token

theorem ready_reissueWith {w : World} {now : ℤ} {id token : String}
    (hnew : ∀ r ∈ w.broker.capabilities, r.tokenHash ≠ plainHost.sha256 token)
    (hbearer : Bearer token) : Ready plainHost w (reissueWith now id token) :=
  ⟨hnew, fun _ h => Option.some.inj h ▸ rfl, hbearer⟩

/-- the mode is saved once, -/
def reissuedOnce : World :=
  step plainHost "s1" ⟨firstIssued, "t0", "t0", 0, true⟩ (reissueWith 1000 "c1" "t1")

/-- and then once more, before the process of the session has made a call. -/
def reissuedTwice : World := step plainHost "s1" reissuedOnce (reissueWith 2000 "c2" "t2")

theorem reissuedOnce_reached : Reached plainHost "s1" reissuedOnce :=
  (Reached.start firstIssued_start).step _
    (ready_reissueWith (by decide +kernel) (by decide +kernel))

theorem supplied_iff_once : (reissuedOnce.newest = "t1" ∧ reissuedOnce.calls = 1) ∧
    (Supplied plainHost "s1" reissuedOnce ↔
      reissuedOnce.calls ≤ 1 ∨ reissuedOnce.issued = false) :=
  ⟨by decide +kernel, supplied_iff plainHost "s1" reissuedOnce reissuedOnce_reached⟩

theorem holder_stranded :
    ¬∀ (host : Host) (sid : String) (w : World), Reached host sid w → Supplied host sid w := by
  intro hall
  have htwice : Reached plainHost "s1" reissuedTwice :=
    reissuedOnce_reached.step _ (ready_reissueWith (by decide +kernel) (by decide +kernel))
  have hstranded : ¬Supplied plainHost "s1" reissuedTwice :=
    htwice.inv.stranded (by decide +kernel) (by decide +kernel)
  exact hstranded (hall plainHost "s1" reissuedTwice htwice)

end Handoffs
end Capabilities
end Signing
end WmAutopilot
