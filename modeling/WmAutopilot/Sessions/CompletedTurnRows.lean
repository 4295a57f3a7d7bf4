import WmAutopilot.Sessions.CompletedTurnStore

/-!
# What the statements of the completed-turn store do to the receipts

Every statement except `enqueue` rewrites receipts in place.  `Rewrites new db db' g`: the receipts
of `db'` are those of `db` mapped by `g`, no receipt changes its identity or its place in the
conversation, every status `Moves`, a claim token that changes becomes `new`, and no conversation
stops being retired.  `Quiet` statements start, abandon and complete nothing.

* `Rewrites.refl`, `Rewrites.update`   the two ways in which it comes about;
* `claim_rewrites`, `sending_quiet`, …   one lemma for each statement;
* `enqueue_appends`      `enqueue` leaves the receipts or appends one queued receipt behind all
                         receipts of a conversation that is not retired.
-/

set_option autoImplicit false
set_option linter.unusedVariables false

namespace WmAutopilot
namespace CompletedTurn
open Js Sql CompletedTurnStore

/-! ## moves of a receipt -/

theorem SameTurn.refl (r : TurnRecord) : SameTurn r r := ⟨rfl, rfl, rfl, rfl⟩

theorem SameConversation.symm {r r' : TurnRecord} (h : SameConversation r r') :
    SameConversation r' r := ⟨h.1.symm, h.2.symm⟩

theorem SameConversation.trans {a b c : TurnRecord} (h : SameConversation a b)
    (h' : SameConversation b c) : SameConversation a c := ⟨h.1.trans h'.1, h.2.trans h'.2⟩

/-- `r'` comes before `r` in its conversation. -/
def Earlier (r' r : TurnRecord) : Prop := SameConversation r' r ∧ r'.sequence < r.sequence

theorem SameTurn.conversation {a b a' b' : TurnRecord} (ha : SameTurn a a') (hb : SameTurn b b') :
    SameConversation a' b' ↔ SameConversation a b := by
  unfold SameConversation
  rw [ha.owner, ha.conversationKey, hb.owner, hb.conversationKey]

theorem SameTurn.earlier {a b a' b' : TurnRecord} (ha : SameTurn a a') (hb : SameTurn b b') :
    Earlier a' b' ↔ Earlier a b := by
  unfold Earlier
  rw [ha.conversation hb, ha.sequence, hb.sequence]

/-- The changes of status that statements make.  A claim starts a queued turn, a recovered
preparation queues it again, a mark sends it, and from then on it only ends. -/
def Moves (a b : TurnStatus) : Prop :=
  a = b ∨ (a = .queued ∧ b = .preparing) ∨ (a = .preparing ∧ b = .queued) ∨
    (a = .preparing ∧ b = .sending) ∨ (a = .sending ∧ b = .uncertain) ∨
    (Abandonable a ∧ b = .abandoning) ∨ ((a = .sending ∨ a = .uncertain) ∧ b = .completed) ∨
    (a ≠ .completed ∧ b = .abandoned)

theorem Moves.refl (a : TurnStatus) : Moves a a := Or.inl rfl

/-- **A final status is never left.** -/
theorem Moves.final {a b : TurnStatus} (h : Moves a b) (ha : a.Final) : b = a := by
  rcases ha with rfl | rfl <;> simpa [Moves, Abandonable, eq_comm] using h

/-- the turn has been marked as being sent at some time. -/
def TurnStatus.Past (s : TurnStatus) : Prop := s ≠ .queued ∧ s ≠ .preparing

/-- **A turn that has been marked never becomes sendable again.** -/
theorem Moves.past {a b : TurnStatus} (h : Moves a b) (ha : a.Past) : b.Past := by
  obtain ⟨hq, hp⟩ := ha
  rcases h with h | h | h | h | h | h | h | h <;> simp_all [TurnStatus.Past]

theorem TurnStatus.Past.of_final {s : TurnStatus} (h : s.Final) : s.Past := by
  rcases h with rfl | rfl <;> simp [TurnStatus.Past]

/-! ## rewriting receipts -/

/-- Receipts rewritten in place.  See the file header. -/
structure Rewrites (new : Option String) (db db' : CompletedTurnStore)
    (g : TurnRecord → TurnRecord) : Prop where
  receipts : db'.receipts = db.receipts.map g
  same : ∀ r ∈ db.receipts, SameTurn r (g r)
  moves : ∀ r ∈ db.receipts, Moves r.status (g r).status
  token : ∀ r ∈ db.receipts, (g r).claimToken = r.claimToken ∨ (g r).claimToken = new
  retired : ∀ owner key, db.retired owner key = true → db'.retired owner key = true

/-- receipts rewritten in place, none of which is started, abandoned or completed. -/
structure Quiet (new : Option String) (db db' : CompletedTurnStore)
    (g : TurnRecord → TurnRecord) : Prop extends Rewrites new db db' g where
  queued : ∀ r ∈ db.receipts, r.status = .queued → (g r).status = .queued
  ended : ∀ r ∈ db.receipts, (g r).status.Final → (g r).status = r.status

theorem Quiet.refl (new : Option String) {db db' : CompletedTurnStore}
    (h : db'.receipts = db.receipts) (hr : db'.retirements = db.retirements) :
    Quiet new db db' id where
  receipts := by rw [h, List.map_id]
  same r _ := SameTurn.refl r
  moves r _ := Moves.refl r.status
  token _ _ := Or.inl rfl
  retired owner key h := by rwa [CompletedTurnStore.retired, hr]
  queued _ _ h := h
  ended _ _ _ := rfl

section Update
variable {new : Option String} {db db' : CompletedTurnStore} {p : TurnRecord → Prop}
  [DecidablePred p] {f : TurnRecord → TurnRecord}

/-- an `UPDATE` of receipts, after a retirement that may have been inserted. -/
theorem Rewrites.update (h : db'.receipts = Sql.update p f db.receipts)
    (hr : ∀ owner key, db.retired owner key = true → db'.retired owner key = true)
    (hf : ∀ r, SameTurn r (f r)) (hm : ∀ r ∈ db.receipts, p r → Moves r.status (f r).status)
    (ht : ∀ r, (f r).claimToken = r.claimToken ∨ (f r).claimToken = new) :
    Rewrites new db db' fun r => if p r then f r else r where
  receipts := h
  same r _ := by
    split
    · exact hf r
    · exact SameTurn.refl r
  moves r hr := by
    split
    · exact hm r hr ‹_›
    · exact Moves.refl r.status
  token r _ := by
    split
    · exact ht r
    · exact Or.inl rfl
  retired := hr

theorem Quiet.update (h : Rewrites new db db' fun r => if p r then f r else r)
    (hq : ∀ r ∈ db.receipts, p r → r.status = .queued → (f r).status = .queued)
    (he : ∀ r ∈ db.receipts, p r → (f r).status.Final → (f r).status = r.status) :
    Quiet new db db' fun r => if p r then f r else r where
  toRewrites := h
  queued r hr h := by
    split
    · exact hq r hr ‹_› h
    · exact h
  ended r hr := by
    split
    · exact he r hr ‹_›
    · exact fun _ => rfl

end Update

theorem Rewrites.mem {new : Option String} {db db' : CompletedTurnStore}
    {g : TurnRecord → TurnRecord} (h : Rewrites new db db' g) {r : TurnRecord} :
    r ∈ db'.receipts ↔ ∃ r₀ ∈ db.receipts, g r₀ = r := by
  rw [h.receipts, List.mem_map]

theorem Rewrites.forall {new : Option String} {db db' : CompletedTurnStore}
    {g : TurnRecord → TurnRecord} (h : Rewrites new db db' g) {P : TurnRecord → Prop} :
    (∀ r ∈ db'.receipts, P r) ↔ ∀ r ∈ db.receipts, P (g r) := by
  rw [h.receipts, List.forall_mem_map]

/-! ## retirements -/

theorem retired_iff {db : CompletedTurnStore} {owner key : String} :
    db.retired owner key = true ↔
      ∃ d ∈ db.retirements, d.owner = owner ∧ d.conversationKey = key := by
  simp [CompletedTurnStore.retired]

/-- a retired conversation stays retired. -/
theorem retired_retire {db : CompletedTurnStore} {owner key id o k : String}
    (h : db.retired o k = true) : (db.retire owner key id).retired o k = true := by
  unfold CompletedTurnStore.retire
  split
  · exact h
  · obtain ⟨d, hd, hk⟩ := retired_iff.mp h
    exact retired_iff.mpr ⟨d, List.mem_append_left _ hd, hk⟩

theorem retire_retired {db : CompletedTurnStore} {owner key id : String} :
    (db.retire owner key id).retired owner key = true := by
  unfold CompletedTurnStore.retire
  split
  · assumption
  · exact retired_iff.mpr ⟨⟨owner, key, id⟩, by simp, rfl, rfl⟩

theorem retire_receipts {db : CompletedTurnStore} {owner key id : String} :
    (db.retire owner key id).receipts = db.receipts := by
  unfold CompletedTurnStore.retire
  split <;> rfl

/-! ## the statements -/

theorem transaction_cases {α : Type} {db : CompletedTurnStore} {P : CompletedTurnStore → Prop}
    {body : Except String (α × CompletedTurnStore)} (h : P db)
    (hb : ∀ a db', body = .ok (a, db') → P db') : P (db.transaction body).2 := by
  cases body with
  | ok x => exact hb x.1 x.2 rfl
  | error e => exact h

theorem get_spec {db : CompletedTurnStore} {id : String} {r : TurnRecord} (h : db.get id = some r) :
    r ∈ db.receipts ∧ r.receiptId = id := mem_of_find h

theorem head_spec {db : CompletedTurnStore} {owner key : String} {r : TurnRecord}
    (h : db.head owner key = some r) :
    r ∈ db.receipts ∧ ∀ r' ∈ db.receipts, Earlier r' r → r'.status.Final := by
  obtain ⟨hr, ⟨ho, hk, -⟩, hmin⟩ := first_spec h
  refine ⟨hr, fun r' hr' he => ?_⟩
  by_contra hf
  have := hmin r' hr' ⟨he.1.1.trans ho, he.1.2.trans hk, hf⟩
  exact absurd he.2 (not_lt.mpr this)

section Statements
variable {db : CompletedTurnStore} {id token : String}

theorem claim_rewrites (db : CompletedTurnStore) (id token : String) (time : ℕ) : ∃ g, Rewrites (some token) db (db.claim id token time).2 g ∧
    (∀ r ∈ db.receipts, r.receiptId ≠ id → (g r).status = r.status) ∧
    ∀ r ∈ db.receipts, (g r).status.Final → (g r).status = r.status := by
  refine ⟨_, Rewrites.update rfl (fun _ _ h => h) (fun r => ⟨rfl, rfl, rfl, rfl⟩)
    (fun r _ _ => ?_) (fun r => Or.inr rfl), fun r _ h => ?_, fun r _ => ?_⟩
  · show Moves r.status (if r.status = .queued then .preparing else r.status)
    split
    · exact Or.inr (Or.inl ⟨‹_›, rfl⟩)
    · exact Moves.refl _
  · rw [if_neg fun hc : Claimable id time r => h hc.1]
  · split
    · show (if r.status = .queued then TurnStatus.preparing else r.status).Final → _
      split
      · exact fun h => by rcases h with h | h <;> cases h
      · exact fun _ => rfl
    · exact fun _ => rfl

theorem renew_quiet (db : CompletedTurnStore) (id token : String) (now : ℕ) : ∃ g, Quiet none db (db.renew id token now).2 g :=
  ⟨_, Quiet.update (Rewrites.update rfl (fun _ _ h => h) (fun r => ⟨rfl, rfl, rfl, rfl⟩)
    (fun r _ _ => Moves.refl _) (fun r => Or.inl rfl)) (fun r _ _ h => h) (fun r _ _ _ => rfl)⟩

theorem sending_quiet (db : CompletedTurnStore) (id token : String) (nativeId : Option String) (checkpoint now : ℕ) :
    ∃ g, Quiet none db (db.sending id token nativeId checkpoint now).2 g := by
  refine ⟨_, Quiet.update (Rewrites.update rfl (fun _ _ h => h) (fun r => ⟨rfl, rfl, rfl, rfl⟩)
    (fun r _ h => Or.inr (Or.inr (Or.inr (Or.inl ⟨h.2, rfl⟩)))) (fun r => Or.inl rfl))
    (fun r _ h hq => ?_) (fun r _ _ hf => ?_)⟩
  · rw [h.2] at hq
    cases hq
  · rcases hf with hf | hf <;> cases hf

theorem uncertain_quiet (error : String) : ∃ g, Quiet none db (db.uncertain id token error) g := by
  refine ⟨_, Quiet.update (Rewrites.update rfl (fun _ _ h => h) (fun r => ⟨rfl, rfl, rfl, rfl⟩)
    (fun r _ _ => ?_) (fun r => Or.inr rfl)) (fun r _ _ h => ?_) (fun r _ _ => ?_)⟩
  · show Moves r.status (if r.status = .sending then .uncertain else r.status)
    split
    · exact Or.inr (Or.inr (Or.inr (Or.inr (Or.inl ⟨‹_›, rfl⟩))))
    · exact Moves.refl _
  · show (if r.status = .sending then .uncertain else r.status) = .queued
    rw [h]
    rfl
  · show (if r.status = .sending then TurnStatus.uncertain else r.status).Final → _
    split
    · exact fun h => by rcases h with h | h <;> cases h
    · exact fun _ => rfl

theorem bind_quiet (executionId : String) (sessionId : Option String) :
    ∃ g, Quiet none db (db.bind id token executionId sessionId).2 g := by
  unfold CompletedTurnStore.bind transaction
  cases db.get id with
  | none => exact ⟨_, Quiet.refl _ rfl rfl⟩
  | some row =>
    by_cases h : row.claimToken ≠ some token ∨ row.status ≠ .preparing
    · simp only [if_pos h]
      exact ⟨_, Quiet.refl _ rfl rfl⟩
    · simp only [if_neg h]
      exact ⟨_, Quiet.update (Rewrites.update rfl (fun _ _ h => h)
        (fun r => ⟨rfl, rfl, rfl, rfl⟩) (fun r _ _ => Moves.refl _) (fun r => Or.inl rfl))
        (fun r _ _ h => h) (fun r _ _ _ => rfl)⟩

theorem recoverMissingPreparation_quiet (hu : PrimaryKey (fun r : TurnRecord => r.receiptId) db.receipts)
    (owner : String) (request : CompletedTurnRequest) :
    ∃ g, Quiet none db (db.recoverMissingPreparation owner request).2 g := by
  unfold CompletedTurnStore.recoverMissingPreparation transaction
  cases hr : db.request owner request.requestId with
  | none => exact ⟨_, Quiet.refl _ rfl rfl⟩
  | some row =>
    have hrow : row ∈ db.receipts := (mem_of_find hr).1
    by_cases h₁ : row.requestJson ≠ request
    · simp only [if_pos h₁]
      exact ⟨_, Quiet.refl _ rfl rfl⟩
    by_cases h₂ : row.status = .completed ∨ row.status = .queued
    · simp only [if_neg h₁, if_pos h₂]
      exact ⟨_, Quiet.refl _ rfl rfl⟩
    by_cases h₃ : MissingPreparation row
    · simp only [if_neg h₁, if_neg h₂, if_neg (not_not.mpr h₃)]
      -- the row that is queued again is the one that was checked
      have hp : ∀ r ∈ db.receipts, r.receiptId = row.receiptId → r.status = .preparing :=
        fun r hr h => hu.eq hr hrow h ▸ h₃.1
      exact ⟨_, Quiet.update (Rewrites.update rfl (fun _ _ h => h)
        (fun r => ⟨rfl, rfl, rfl, rfl⟩) (fun r hr h => Or.inr (Or.inr (Or.inl ⟨hp r hr h, rfl⟩)))
        (fun r => Or.inl rfl)) (fun r _ _ _ => rfl)
        (fun r _ _ hf => by rcases hf with hf | hf <;> cases hf)⟩
    · simp only [if_neg h₁, if_neg h₂, if_pos h₃]
      exact ⟨_, Quiet.refl _ rfl rfl⟩

theorem refreshActiveSender_quiet (sessionId : String) (time : ℕ) :
    ∃ g, Quiet none db (db.refreshActiveSenderForSession sessionId time).2 g := by
  unfold CompletedTurnStore.refreshActiveSenderForSession
  split
  · exact ⟨_, Quiet.update (Rewrites.update rfl (fun _ _ h => h)
      (fun r => ⟨rfl, rfl, rfl, rfl⟩) (fun r _ _ => Moves.refl _) (fun r => Or.inl rfl))
      (fun r _ _ h => h) (fun r _ _ _ => rfl)⟩
  · exact ⟨_, Quiet.refl _ rfl rfl⟩

theorem claimAbandonment_quiet {db : CompletedTurnStore} (id token : String)
    (hu : PrimaryKey (fun r : TurnRecord => r.receiptId) db.receipts)
    (now : ℕ) : ∃ g, Quiet (some token) db (db.claimAbandonment id token now).2 g := by
  unfold CompletedTurnStore.claimAbandonment transaction
  cases hr : db.get id with
  | none => exact ⟨_, Quiet.refl _ rfl rfl⟩
  | some row =>
    by_cases h₁ : row.status = .abandoning ∧ now < row.leaseUntil
    · simp only [if_pos h₁]
      exact ⟨_, Quiet.refl _ rfl rfl⟩
    by_cases h₂ : Abandonable row.status
    · simp only [if_neg h₁, if_neg (not_not.mpr h₂)]
      have hp : ∀ r ∈ db.receipts, r.receiptId = id → Abandonable r.status := fun r hr' h =>
        hu.eq hr' (get_spec hr).1 (h.trans (get_spec hr).2.symm) ▸ h₂
      refine ⟨_, Quiet.update (Rewrites.update (congrArg _ retire_receipts)
        (fun _ _ h => retired_retire h) (fun r => ⟨rfl, rfl, rfl, rfl⟩)
        (fun r hr h => Or.inr (Or.inr (Or.inr (Or.inr (Or.inr (Or.inl ⟨hp r hr h.1, rfl⟩))))))
        (fun r => Or.inr rfl)) (fun r hr h hq => ?_)
        (fun r _ _ hf => by rcases hf with hf | hf <;> cases hf)⟩
      have := hp r hr h.1
      rw [hq] at this
      simp [Abandonable] at this
    · simp only [if_neg h₁, if_pos h₂]
      exact ⟨_, Quiet.refl _ rfl rfl⟩

theorem beginDeletion_quiet (db : CompletedTurnStore) (id owner : String) (request : DeletionRequest) :
    ∃ g, Quiet none db (db.beginDeletion owner request id).2 g := by
  unfold CompletedTurnStore.beginDeletion transaction
  refine ⟨_, Quiet.refl _ ?_ ?_⟩ <;> grind

/-- the receipt that is completed was being sent, or its outcome was uncertain. -/
theorem complete_rewrites (db : CompletedTurnStore) (id token : String) (reply nativeId : String) (output : Option Value) :
    ∃ g, Rewrites none db (db.complete id token reply nativeId output).2 g ∧
      ∀ r ∈ db.receipts, (g r).status = r.status ∨
        r.receiptId = id ∧ r.status.Past ∧ (g r).status = .completed := by
  unfold CompletedTurnStore.complete
  split
  · exact ⟨_, (Quiet.refl _ rfl rfl).toRewrites, fun r _ => Or.inl rfl⟩
  · refine ⟨_, Rewrites.update rfl (fun _ _ h => h) (fun r => ⟨rfl, rfl, rfl, rfl⟩)
      (fun r _ h => Or.inr (Or.inr (Or.inr (Or.inr (Or.inr (Or.inr (Or.inl ⟨h.2, rfl⟩)))))))
      (fun r => Or.inr rfl), fun r _ => ?_⟩
    split
    · rename_i h
      refine Or.inr ⟨h.1.1, ?_, rfl⟩
      rcases h.2 with h | h <;> simp [TurnStatus.Past, h]
    · exact Or.inl rfl

/-- either nothing is abandoned, or a whole conversation is, and it is retired. -/
theorem abandon_rewrites (db : CompletedTurnStore) (id token : String) (evidence : Value) :
    ∃ g, Rewrites none db (db.abandon id token evidence).2 g ∧
      ((∀ r ∈ db.receipts, (g r).status = r.status) ∨
        ∃ row ∈ db.receipts, (db.abandon id token evidence).2.retired row.owner row.conversationKey ∧
          ∀ r ∈ db.receipts, (SameConversation r row → (g r).status.Final) ∧
            ((g r).status = r.status ∨ SameConversation r row ∧ (g r).status = .abandoned)) := by
  unfold CompletedTurnStore.abandon transaction
  cases hr : db.get id with
  | none => exact ⟨_, (Quiet.refl _ rfl rfl).toRewrites, Or.inl fun _ _ => rfl⟩
  | some row =>
    by_cases h : row.claimToken ≠ some token ∨ row.status ≠ .abandoning
    · simp only [if_pos h]
      exact ⟨_, (Quiet.refl _ rfl rfl).toRewrites, Or.inl fun _ _ => rfl⟩
    · simp only [if_neg h]
      refine ⟨_, Rewrites.update (congrArg _ retire_receipts) (fun _ _ h => retired_retire h)
        (fun r => ⟨rfl, rfl, rfl, rfl⟩)
        (fun r _ h => Or.inr (Or.inr (Or.inr (Or.inr (Or.inr (Or.inr (Or.inr ⟨h.2.2, rfl⟩)))))))
        (fun r => Or.inr rfl), Or.inr ⟨row, (get_spec hr).1, retire_retired, fun r _ => ⟨?_, ?_⟩⟩⟩
      · intro hc
        split
        · exact Or.inr rfl
        · rename_i hp
          exact Or.inl (by_contra fun hn => hp ⟨hc.1, hc.2, hn⟩)
      · split
        · rename_i hp
          exact Or.inr ⟨⟨hp.1, hp.2.1⟩, rfl⟩
        · exact Or.inl rfl

/-- the receipts are left, or a queued one is appended behind the others of its conversation. -/
def Appends (db : CompletedTurnStore) (id owner : String) (request : CompletedTurnRequest)
    (runId stepId : String) (db' : CompletedTurnStore) : Prop :=
  db'.retirements = db.retirements ∧ (db'.receipts = db.receipts ∨
    db.retired owner request.conversationKey = false ∧
    db'.receipts = db.receipts ++ [newReceipt id owner request runId stepId (maximum
      (fun r : TurnRecord => r.owner = owner ∧ r.conversationKey = request.conversationKey)
      (fun r => r.sequence) db.receipts + 1)])

theorem enqueue_appends (db : CompletedTurnStore) (id owner : String) (request : CompletedTurnRequest) (runId stepId : String) :
    Appends db id owner request runId stepId (db.enqueue owner request runId stepId id).2 := by
  have hb : (db.insertBinding owner (configOf request) request).receipts = db.receipts ∧
      (db.insertBinding owner (configOf request) request).retirements = db.retirements := by
    unfold insertBinding
    split <;> exact ⟨rfl, rfl⟩
  unfold CompletedTurnStore.enqueue
  split
  · exact ⟨rfl, Or.inl rfl⟩
  split
  · exact ⟨rfl, Or.inl rfl⟩
  refine transaction_cases (P := Appends db id owner request runId stepId) ⟨rfl, Or.inl rfl⟩
    fun row db' h => ?_
  simp only [enqueueBody] at h
  split at h
  · cases h
  split at h
  · cases h
  split at h
  · cases h
  split at h
  · cases h
  split at h
  · split at h
    · cases h
    · cases h
      exact ⟨hb.2, Or.inl hb.1⟩
  split at h
  · cases h
  · rename_i hret
    cases h
    rw [CompletedTurnStore.retired, hb.2] at hret
    refine ⟨hb.2, Or.inr ⟨Bool.eq_false_iff.mpr hret, ?_⟩⟩
    rw [hb.1]

end Statements

end CompletedTurn
end WmAutopilot
