import WmAutopilot.Signing.CapabilityLife

/-!
# The moves of a broker

* `step_moves`      every step of a process is a sequence of moves;
* `Distinct`        records have hashes of their own;
* `Reached.keeps`   **what moves and restarts keep holds in every run**.
-/

set_option autoImplicit false
set_option linter.unusedVariables false

namespace WmAutopilot
namespace Signing
namespace Capabilities
namespace Life
open Js Handoffs

abbrev Moves : Broker × List Entry → Broker × List Entry → Prop := Relation.ReflTransGen Move

section
variable {host : Host} {env : Env} {request : Request} {operation : BrokerOperation}
  {sessionId hash id token nonce : String} {allowExpired : Bool} {save : Save} {now : ℤ}
  {b b' : Broker} {w : World} {r r' capability : CapabilityRecord} {log es : List Entry}

/-! ## writes -/

theorem written_persist (h : b'.saved = b.saved) : Written b b'.persist := by
  show b'.saved.map _ = b.saved.map _
  rw [h]
  rfl

theorem written_modify {f : CapabilityRecord → CapabilityRecord} :
    Written b (b.modify hash f).persist := written_persist rfl

theorem landed_capabilities : (landed save b b').capabilities = b'.capabilities := by
  unfold landed
  split <;> rfl

theorem landed_saved (h : b'.saved = b.saved ∨ Written b b') :
    (landed save b b').saved = b.saved ∨ Written b (landed save b b') := by
  unfold landed
  split
  · exact .inl rfl
  · exact h

theorem landed_written (hsave : save ≠ .lost) (h : Written b b') :
    Written b (landed save b b') := by
  unfold landed
  rwa [if_neg hsave]

/-! ## records -/

theorem SameGrant.refl (r : CapabilityRecord) : SameGrant r r :=
  ⟨rfl, rfl, rfl, rfl⟩

theorem SameGrant.trans {r'' : CapabilityRecord} (h : SameGrant r r') (h' : SameGrant r' r'') :
    SameGrant r r'' where
  tokenHash := h'.tokenHash.trans h.tokenHash
  sessionId := h'.sessionId.trans h.sessionId
  ownerNpub := h'.ownerNpub.trans h.ownerNpub
  policy := h'.policy.trans h.policy

theorem sameGrant_withNonce {times : List ℤ} : SameGrant r (withNonce nonce times r) :=
  ⟨rfl, rfl, rfl, rfl⟩

theorem Alters.refl : Alters log r r := ⟨.refl r, .inl rfl, fun h => ⟨h, rfl⟩⟩

theorem alters_withTotal {total : ℤ} : Alters log r (withTotal sessionId total r) := by
  unfold withTotal
  split
  · exact ⟨⟨rfl, rfl, rfl, rfl⟩, .inl rfl, fun h => ⟨h, rfl⟩⟩
  · exact .refl

theorem alters_revoked : Alters log r (revoked now r) := by
  unfold revoked
  split
  · exact ⟨⟨rfl, rfl, rfl, rfl⟩, .inl rfl, nofun⟩
  · exact .refl

theorem revoked_revokedAtMs : (revoked now r).revokedAtMs ≠ none := by
  unfold revoked
  split
  · exact Option.some_ne_none now
  · next h => exact h

theorem alters_if {p : Prop} [Decidable p] (h : p → Alters log r r') :
    Alters log r (if p then r' else r) := by
  split
  · next hp => exact h hp
  · exact .refl

/-! ## the steps of a process -/

theorem move_same (hcaps : b'.capabilities = b.capabilities) (hsaved : b'.saved = b.saved) :
    Moves (b, log) (b', log) := by
  have h : Move (b, log) (b', log ++ []) :=
    .altered id (fun r => .refl) (by rw [hcaps, List.map_id]) (.inl hsaved)
      fun e he => absurd he List.not_mem_nil
  rw [List.append_nil] at h
  exact .single h

theorem move_modify {f : CapabilityRecord → CapabilityRecord}
    (hf : ∀ r, r.tokenHash = hash → Alters (log ++ es) r (f r))
    (hes : ∀ e ∈ es, ∃ hash expiresAtMs, e = .extended hash expiresAtMs) :
    Moves (b, log) (landed save b (b.modify hash f).persist, log ++ es) := by
  refine .single (.altered (fun r => if r.tokenHash = hash then f r else r)
    (fun r => alters_if (hf r)) landed_capabilities (landed_saved (.inr written_modify))
    fun e he => ?_)
  obtain ⟨hash, expiresAtMs, rfl⟩ := hes e he
  exact .extended hash expiresAtMs

theorem issue_moves {input : IssueInput}
    (hnew : ∀ r ∈ known w.broker, r.tokenHash ≠ host.sha256 token)
    (hfresh : ∀ e ∈ w.log, e.hash ≠ host.sha256 token) :
    Moves (w.broker, w.log)
      ((issue host env input id token save w).1.broker,
        (issue host env input id token save w).1.log) := by
  unfold issue
  cases h : issuedRecord env w.broker input id (host.sha256 token) with
  | error e => exact .refl
  | ok record =>
    obtain ⟨hhash, -⟩ := issuedRecord_ok h
    rw [← hhash] at hnew hfresh
    refine .single (.issued hnew hfresh ?_ (landed_saved (.inr (written_persist rfl))))
    rw [landed_capabilities]
    exact put_of_new fun r hr => hnew r (mem_known.mpr (.inl hr))

/-- the records with some hashes are revoked. -/
theorem revocation_moves {p : CapabilityRecord → Prop} [DecidablePred p] {hashes : List String}
    (hdistinct : (b.capabilities.map (·.tokenHash)).Nodup)
    (hcaps : b'.capabilities = b.capabilities.map fun r => if p r then revoked now r else r)
    (hsaved : hashes = [] ∧ b'.saved = b.saved ∨ Written b b')
    (hhashes : ∀ hash ∈ hashes, ∃ r ∈ b.capabilities, p r ∧ r.tokenHash = hash) :
    Moves (b, log) (landed save b b', log ++ revocations save hashes) := by
  refine .single (.altered (fun r => if p r then revoked now r else r)
    (fun r => alters_if fun _ => alters_revoked) (landed_capabilities.trans hcaps)
    (landed_saved (hsaved.imp_left And.right)) fun e he => ?_)
  unfold revocations at he
  split at he
  · cases he
  · next hsave =>
    obtain ⟨hash, hhash, rfl⟩ := List.mem_map.mp he
    have hwritten : Written b b' :=
      hsaved.resolve_left fun h => List.not_mem_nil (h.1 ▸ hhash)
    refine .revoked (landed_written hsave hwritten) fun r hr hr' => ?_
    obtain ⟨r', hmem, hp, rfl⟩ := hhashes hash hhash
    obtain rfl := eq_of_hash hdistinct hr hmem hr'
    rw [if_pos hp]
    exact revoked_revokedAtMs

theorem revokeSession_moves (hdistinct : (w.broker.capabilities.map (·.tokenHash)).Nodup) :
    Moves (w.broker, w.log)
      ((revokeSession now sessionId save w).broker, (revokeSession now sessionId save w).log) := by
  refine revocation_moves (p := fun r => r.sessionId = sessionId) hdistinct
    revokeSession_capabilities ?_ fun hash hhash => mem_hashesOf.mp hhash
  unfold Capabilities.revokeSession
  split
  · next hnone => exact .inl ⟨hnone, rfl⟩
  · exact .inr (written_persist rfl)

theorem known_landed (h : r ∈ known (landed save b b')) : r ∈ known b' ∨ r ∈ known b := by
  unfold landed at h
  split at h
  · exact (mem_known.mp h).imp (fun h => mem_known.mpr (.inl h)) fun h => mem_known.mpr (.inr h)
  · exact .inl h

/-- a revocation makes no hash known, in the broker or in the log. -/
theorem revokeSession_new (hnew : ∀ r ∈ known w.broker, r.tokenHash ≠ hash)
    (hfresh : ∀ e ∈ w.log, e.hash ≠ hash) :
    (∀ r ∈ known (revokeSession now sessionId save w).broker, r.tokenHash ≠ hash) ∧
      ∀ e ∈ (revokeSession now sessionId save w).log, e.hash ≠ hash := by
  constructor
  · intro r hr
    rcases known_landed hr with hr | hr
    · obtain ⟨r', hr', halike⟩ := comes_revokeSession r hr
      exact halike.tokenHash ▸ hnew r' hr'
    · exact hnew r hr
  · intro e he
    rcases List.mem_append.mp he with he | he
    · exact hfresh e he
    · unfold revocations at he
      split at he
      · cases he
      · obtain ⟨hash', hmem, rfl⟩ := List.mem_map.mp he
        obtain ⟨r, hr, -, rfl⟩ := mem_hashesOf.mp hmem
        exact hnew r (mem_known.mpr (.inl hr))

theorem revokeBotNpub_moves {botNpub : String}
    (hdistinct : (w.broker.capabilities.map (·.tokenHash)).Nodup) :
    Moves (w.broker, w.log)
      ((revokeBotNpub now botNpub save w).broker, (revokeBotNpub now botNpub save w).log) := by
  refine revocation_moves (p := fun r => r.botNpub = botNpub) hdistinct rfl
    (.inr (written_persist rfl)) fun hash hhash => ?_
  obtain ⟨r, hr, rfl⟩ := List.mem_map.mp hhash
  obtain ⟨hmem, hbot⟩ := List.mem_filter.mp hr
  exact ⟨r, hmem, of_decide_eq_true hbot, rfl⟩

/-! ## calls -/

theorem hash_of_get (h : b.get hash = some r) : r.tokenHash = hash := by
  unfold Broker.get at h
  simpa only [decide_eq_true_iff] using List.find?_some h

/-- a call has passed every check before its rate. -/
structure Passes (host : Host) (env : Env) (request : Request) (operation : BrokerOperation)
    (sessionId : String) (b : Broker) (capability : CapabilityRecord) : Prop where
  get : b.get capability.tokenHash = some capability
  hash : capability.tokenHash = host.sha256 ((readBearerToken request.authorization).getD "")
  live : capability.revokedAtMs = none
  unused : request.nonceText ∉ capability.usedNonces
  stands : Stands env capability operation sessionId

theorem standing_ok {u : Unit}
    (h : standing env b capability operation sessionId allowExpired = .ok u)
    (hrefresh : allowExpired = true → operation = .capability_refresh) :
    capability.revokedAtMs = none ∧ Stands env capability operation sessionId := by
  unfold standing at h
  simp only [bind_ok, throwIf_ok, orThrow_ok] at h
  obtain ⟨_, -, _, hlive, _, hexpires, _, hsession, _, hallowed, session, hget, _, -, _, hnpub, -⟩ :=
    h
  refine ⟨not_not.mp hlive, not_not.mp hsession, not_not.mp hallowed, ?_, ?_⟩
  · by_cases hle : capability.expiresAtMs ≤ env.now
    · exact .inl (hrefresh (Bool.not_eq_false _ ▸ fun h => hexpires ⟨hle, h⟩))
    · exact .inr (lt_of_not_ge hle)
  · rw [hget]
    exact not_not.mp hnpub

theorem not_expired (h : false = true) : operation = .capability_refresh :=
  absurd h Bool.false_ne_true

/-- **What a call of `authorize` does**: nothing, or it uses the nonce up. -/
theorem authorize_cases {verdict : Verdict}
    (hrefresh : allowExpired = true → operation = .capability_refresh)
    (h : Capabilities.authorize host env request operation sessionId allowExpired b =
      (b', verdict)) :
    (b' = b ∧ verdict.ending = .denied) ∨
      ∃ capability times, Passes host env request operation sessionId b capability ∧
        ((∃ rateLimit, verdict = .rateLimited rateLimit ∧ b' =
            b.modify capability.tokenHash fun _ => withNonce request.nonceText times capability) ∨
          verdict = .authorized (withNonce request.nonceText times capability) ∧ b' =
            (b.modify capability.tokenHash fun _ =>
              withNonce request.nonceText times capability).persist) := by
  unfold Capabilities.authorize at h
  cases htoken : readBearerToken request.authorization with
  | none =>
    rw [htoken] at h
    cases h
    exact .inl ⟨rfl, rfl⟩
  | some token =>
    rw [htoken] at h
    dsimp only at h
    cases hget : b.get (host.sha256 token) with
    | none =>
      rw [hget] at h
      cases h
      exact .inl ⟨rfl, rfl⟩
    | some capability =>
      rw [hget] at h
      dsimp only at h
      have hhash := hash_of_get hget
      cases hstanding : standing env b capability operation sessionId allowExpired with
      | error verdict' =>
        rw [hstanding] at h
        cases h
        exact .inl ⟨rfl, standing_throws verdict hstanding⟩
      | ok _ =>
        rw [hstanding] at h
        obtain ⟨hlive, hstands⟩ := standing_ok hstanding hrefresh
        change admission env.now request.nonceText b capability = _ at h
        unfold admission at h
        dsimp only at h
        split at h
        · cases h
          exact .inl ⟨rfl, rfl⟩
        · split at h
          · cases h
            exact .inl ⟨rfl, rfl⟩
          · next hunused =>
            have hpasses : Passes host env request operation sessionId b capability :=
              ⟨hhash ▸ hget, by rw [htoken]; exact hhash, hlive, hunused, hstands⟩
            split at h
            · cases h
              exact .inr ⟨capability, _, hpasses, .inl ⟨_, rfl, rfl⟩⟩
            · cases h
              exact .inr ⟨capability, _, hpasses, .inr ⟨rfl, rfl⟩⟩

/-- the move of a call that uses its nonce up. -/
theorem Passes.move {times : List ℤ} {e : Entry}
    (h : Passes host env request operation sessionId b capability)
    (hcaps : b'.capabilities = (b.modify capability.tokenHash fun _ =>
      withNonce request.nonceText times capability).capabilities)
    (hsaved : b'.saved = b.saved ∨ Written b b')
    (he : Noted capability request.nonceText b b' e) : Moves (b, log) (b', log ++ [e]) :=
  .single (.used h.get h.live h.unused hcaps hsaved he)

theorem authorize_moves (hrefresh : allowExpired = true → operation = .capability_refresh) :
    Moves (w.broker, w.log)
      ((authorize host env request operation sessionId allowExpired save w).1.broker,
        (authorize host env request operation sessionId allowExpired save w).1.log) := by
  unfold authorize
  cases h : Capabilities.authorize host env request operation sessionId allowExpired w.broker with
  | mk b' verdict =>
    rcases authorize_cases hrefresh h with ⟨rfl, hdenied⟩ |
      ⟨capability, times, hpasses, ⟨rateLimit, rfl, rfl⟩ | ⟨rfl, rfl⟩⟩
    · cases verdict with
      | authorized => cases hdenied
      | rateLimited => cases hdenied
      | denied reason status => exact .refl
      | reissued => exact .refl
    · exact hpasses.move rfl (.inl rfl) (hpasses.hash ▸ .noted)
    · dsimp only
      split
      · exact hpasses.move landed_capabilities (landed_saved (.inr written_modify)) .noted
      · exact hpasses.move rfl (.inr written_modify) (.accepted written_modify hpasses.stands)

/-! ## reservations -/

theorem reservedBy_alters {amount : ℤ} :
    ∃ f : CapabilityRecord → CapabilityRecord, (∀ log r, Alters log r (f r)) ∧
      reservedBy sessionId amount b =
        Broker.persist { b with capabilities := b.capabilities.map f } := by
  unfold reservedBy
  cases highestSpent b sessionId with
  | none => exact ⟨id, fun log r => .refl, by rw [List.map_id]⟩
  | some highest => exact ⟨_, fun log r => alters_withTotal, rfl⟩

theorem reserve_moves {amount : ℤ} {e : Entry} (he : ∀ f b', Marked f b b' e) :
    Moves (b, log)
      (reserve save sessionId amount b, log ++ if save.throws then [] else [e]) := by
  obtain ⟨f, hf, hreserved⟩ := @reservedBy_alters sessionId b amount
  unfold reserve
  rw [hreserved]
  cases save with
  | written =>
    exact .single (.altered f (hf _) rfl (.inr (written_persist rfl))
      fun e' he' => List.mem_singleton.mp he' ▸ he _ _)
  | lost =>
    show Moves (b, log) (_, log ++ [])
    rw [List.append_nil]
    exact move_same rfl rfl
  | late =>
    show Moves (b, log) (_, log ++ [])
    rw [List.append_nil]
    exact .single (.undone (hf _) rfl rfl)

theorem continueReserve_moves {i j : ℕ} :
    Moves (w.broker, w.log)
      ((continueReserve i j save w).broker, (continueReserve i j save w).log) := by
  unfold continueReserve
  cases w.spends[i]? with
  | none => exact .refl
  | some spend =>
    dsimp only
    cases granted spend j w.broker with
    | none => exact .refl
    | some found => exact reserve_moves fun f b' => .reserved _ _ _ _

/-! ## the other steps -/

theorem handOff_moves {hashes : List String} {answer : World × Bool} :
    Moves (answer.1.broker, answer.1.log)
      ((handOff hashes sessionId token answer).broker,
        (handOff hashes sessionId token answer).log) := by
  obtain ⟨w, returned⟩ := answer
  cases returned with
  | false => exact .refl
  | true => exact move_same rfl rfl

theorem adopt_moves :
    Moves (w.broker, w.log)
      ((adopt host env request sessionId w).broker, (adopt host env request sessionId w).log) := by
  unfold adopt handleReissueAdopt
  cases adoption host env request sessionId w.broker with
  | error e => exact .refl
  | ok found => exact move_same rfl rfl

theorem answered_same {answer : World × Option CapabilityRecord} :
    (answered answer).broker = answer.1.broker ∧ (answered answer).log = answer.1.log := ⟨rfl, rfl⟩

theorem refreshed_same {answer : World × Option CapabilityRecord} :
    (refreshed answer).broker = answer.1.broker ∧ (refreshed answer).log = answer.1.log := by
  obtain ⟨w, capability⟩ := answer
  cases capability <;> exact ⟨rfl, rfl⟩

theorem started_same {body : WalletRequest} {answer : World × Option CapabilityRecord} :
    (started body answer).broker = answer.1.broker ∧ (started body answer).log = answer.1.log := by
  obtain ⟨w, capability⟩ := answer
  cases capability with
  | none => exact ⟨rfl, rfl⟩
  | some capability =>
    unfold started
    dsimp only
    split <;> exact ⟨rfl, rfl⟩

theorem extend_moves {i : ℕ} :
    Moves (w.broker, w.log) ((extend i now save w).broker, (extend i now save w).log) := by
  unfold extend
  split
  · exact .refl
  · next hash _ =>
    refine move_modify (fun r hr => ?_) fun e he => ⟨hash, _, List.mem_singleton.mp he⟩
    exact ⟨⟨rfl, rfl, rfl, rfl⟩,
      .inr (List.mem_append_right _ (hr ▸ List.mem_singleton_self _)), fun h => ⟨h, rfl⟩⟩

theorem ask_moves {i : ℕ} {amount : Value} :
    Moves (w.broker, w.log) ((ask i env amount w).broker, (ask i env amount w).log) := by
  unfold ask
  split
  · exact .refl
  · split <;> exact .refl

theorem challenge_moves {usedChallenges : List String} :
    Moves (w.broker, w.log)
      ((challenge hash usedChallenges save w).broker,
        (challenge hash usedChallenges save w).log) := by
  have h : Moves (w.broker, w.log)
      ((challenge hash usedChallenges save w).broker, w.log ++ []) :=
    move_modify (fun r _ => ⟨⟨rfl, rfl, rfl, rfl⟩, .inl rfl, fun h => ⟨h, rfl⟩⟩)
      fun e he => absurd he List.not_mem_nil
  rwa [List.append_nil] at h

theorem reissue_moves {input : Option IssueInput} {first second : Save}
    (hdistinct : (w.broker.capabilities.map (·.tokenHash)).Nodup)
    (hready : Ready host w (.reissue env sessionId input id token first second)) :
    Moves (w.broker, w.log)
      ((reissue host env sessionId input id token first second w).broker,
        (reissue host env sessionId input id token first second w).log) := by
  have hrevoked : Moves (w.broker, w.log)
      ((revokeSession env.now sessionId first w).broker, _) := revokeSession_moves hdistinct
  unfold reissue
  cases input with
  | none => exact hrevoked
  | some input =>
    dsimp only
    split
    · exact hrevoked
    · obtain ⟨hnew, hfresh⟩ := revokeSession_new hready.1 hready.2
      exact hrevoked.trans ((issue_moves hnew hfresh).trans handOff_moves)

/-! ## runs -/

/-- the hashes of the records, and those of the state store, are distinct. -/
def Distinct (c : Broker × List Entry) : Prop :=
  (c.1.capabilities.map (·.tokenHash)).Nodup ∧ ((c.1.saved.getD []).map (·.tokenHash)).Nodup

theorem nodup_filter {rs : List CapabilityRecord} {p : CapabilityRecord → Bool}
    (h : (rs.map (·.tokenHash)).Nodup) : ((rs.filter p).map (·.tokenHash)).Nodup :=
  List.Nodup.sublist (List.filter_sublist.map _) h

theorem nodup_map {rs : List CapabilityRecord} {f : CapabilityRecord → CapabilityRecord}
    (hf : ∀ r, (f r).tokenHash = r.tokenHash) (h : (rs.map (·.tokenHash)).Nodup) :
    ((rs.map f).map (·.tokenHash)).Nodup := by
  rw [List.map_map]
  rwa [show (fun r : CapabilityRecord => r.tokenHash) ∘ f = (·.tokenHash) from funext hf]

theorem nodup_saved {saved : Option (List CapabilityRecord)} {rs : List CapabilityRecord}
    {p : CapabilityRecord → Bool} (h : (rs.map (·.tokenHash)).Nodup) :
    (((saved.map fun _ => rs.filter p).getD []).map (·.tokenHash)).Nodup := by
  cases saved with
  | none => exact List.nodup_nil
  | some _ => exact nodup_filter h

theorem distinct_stored (h : Distinct (b, log)) (hcaps : (b'.capabilities.map (·.tokenHash)).Nodup)
    (hsaved : b'.saved = b.saved ∨ Written b b') : Distinct (b', es) := by
  refine ⟨hcaps, ?_⟩
  rcases hsaved with hsaved | hsaved
  · show ((b'.saved.getD []).map _).Nodup
    rw [hsaved]
    exact h.2
  · show ((b'.saved.getD []).map _).Nodup
    rw [hsaved]
    exact nodup_saved hcaps

theorem Move.distinct {c c' : Broker × List Entry} (h : Move c c') (hd : Distinct c) :
    Distinct c' := by
  cases h with
  | @issued b b' log record hnew hfresh hcaps hsaved =>
    refine distinct_stored hd ?_ hsaved
    rw [hcaps, List.map_append]
    refine List.Nodup.append hd.1 (List.nodup_singleton _) fun hash hmem hmem' => ?_
    obtain ⟨r, hr, rfl⟩ := List.mem_map.mp hmem
    exact hnew r (mem_known.mpr (.inl hr)) (List.mem_singleton.mp hmem')
  | altered f hf hcaps hsaved hes =>
    exact distinct_stored hd (hcaps ▸ nodup_map (fun r => (hf r).grant.tokenHash) hd.1) hsaved
  | used hget hlive hunused hcaps hsaved he =>
    refine distinct_stored hd (hcaps ▸ nodup_map (fun r => ?_) hd.1) hsaved
    split
    · next hsame => exact hsame.symm
    · rfl
  | undone hf hcaps hsaved =>
    refine ⟨hcaps ▸ hd.1, ?_⟩
    rw [hsaved]
    exact nodup_saved (nodup_map (fun r => (hf r).grant.tokenHash) hd.1)

theorem step_moves (h : Distinct (w.broker, w.log)) {act : Act} (hready : Ready host w act)
    (hact : act ≠ .restart) :
    Moves (w.broker, w.log) ((step host w act).broker, (step host w act).log) := by
  cases act with
  | issue env input id token save => exact issue_moves hready.1 hready.2
  | revokeSession now sessionId save => exact revokeSession_moves h.1
  | revokeBotNpub now botNpub save => exact revokeBotNpub_moves h.1
  | reissue env sessionId input id token first second => exact reissue_moves h.1 hready
  | adopt env request bodySessionId => exact adopt_moves
  | call env request operation sessionId save =>
    rw [step, answered_same.1, answered_same.2]
    exact authorize_moves not_expired
  | refresh env request bodySessionId save =>
    rw [step, refreshed_same.1, refreshed_same.2]
    exact authorize_moves fun _ => rfl
  | extend i now save => exact extend_moves
  | challenge hash usedChallenges save => exact challenge_moves
  | spend env request body save =>
    rw [step, started_same.1, started_same.2]
    exact authorize_moves not_expired
  | ask i env amount => exact ask_moves
  | reserve i j save => exact continueReserve_moves
  | restart => exact absurd rfl hact

/-- **What moves and restarts keep holds in every run.** -/
theorem Reached.keeps {I : Broker × List Entry → Prop} (hstart : I (⟨[], [], some []⟩, []))
    (hmove : ∀ {c c'}, I c → Distinct c → Move c c' → I c')
    (hrestart : ∀ {b log}, I (b, log) → I (b.restart, log)) (h : Reached host w) :
    I (w.broker, w.log) ∧ Distinct (w.broker, w.log) := by
  induction h with
  | start => exact ⟨hstart, List.nodup_nil, List.nodup_nil⟩
  | @step w h act hready ih =>
    obtain ⟨hI, hd⟩ := ih
    by_cases hact : act = .restart
    · subst hact
      exact ⟨hrestart hI, nodup_filter hd.2, hd.2⟩
    · have hkeep : ∀ {c c'}, Moves c c' → I c → Distinct c → I c' ∧ Distinct c' := by
        intro c c' hc hI hd
        induction hc with
        | refl => exact ⟨hI, hd⟩
        | tail hc hm ih => exact ⟨hmove ih.1 ih.2 hm, hm.distinct ih.2⟩
      exact hkeep (step_moves hd hready hact) hI hd

end

end Life
end Capabilities
end Signing
end WmAutopilot
