import Mathlib.Logic.Relation
import WmAutopilot.Sessions.CompletedTurnRows

/-!
# Invariants of the receipts

The store under all its statements, in any order and with any arguments.

* `Statement`, `Step`, `Reachable`   the statements, and the databases that they lead to;
* `RowOk`, `Inv`      what holds of each receipt, and of the receipts of a conversation;
* `Keeps`             what a receipt keeps for ever;
* `Inv.update`        **the step lemma** of the statements that rewrite receipts in place;
* `step_keeps`, `Reachable.inv`   one step, and a whole run;
* `receipt_invariants`   sender tokens, written fields, final receipts, ended conversations.
-/

set_option autoImplicit false
set_option linter.unusedVariables false

namespace WmAutopilot
namespace CompletedTurn
namespace Receipts
open Js Sql CompletedTurnStore

/-! ## statements -/

/-- A call of a method that writes, with the times that it reads and the UUID that it draws. -/
inductive Statement where
  | enqueue (owner : String) (request : CompletedTurnRequest) (runId stepId receiptId : String)
  | beginDeletion (owner : String) (request : DeletionRequest) (receiptId : String)
  | finishDeletion (owner key : String) (receipt : Value)
  | refreshActiveSender (sessionId : String) (time : ℕ)
  | recoverMissingPreparation (owner : String) (request : CompletedTurnRequest)
  | claim (id token : String) (time : ℕ)
  | renew (id token : String) (now : ℕ)
  | bind (id token executionId : String) (sessionId : Option String)
  | sending (id token : String) (nativeId : Option String) (checkpoint now : ℕ)
  | uncertain (id token error : String)
  | claimAbandonment (id token : String) (now : ℕ)
  | abandon (id token : String) (evidence : Value)
  | complete (id token reply nativeId : String) (output : Option Value)

def Statement.run (db : CompletedTurnStore) : Statement → CompletedTurnStore
  | enqueue owner request runId stepId receiptId =>
    (db.enqueue owner request runId stepId receiptId).2
  | beginDeletion owner request receiptId => (db.beginDeletion owner request receiptId).2
  | finishDeletion owner key receipt => db.finishDeletion owner key receipt
  | refreshActiveSender sessionId time => (db.refreshActiveSenderForSession sessionId time).2
  | recoverMissingPreparation owner request => (db.recoverMissingPreparation owner request).2
  | claim id token time => (db.claim id token time).2
  | renew id token now => (db.renew id token now).2
  | bind id token executionId sessionId => (db.bind id token executionId sessionId).2
  | sending id token nativeId checkpoint now => (db.sending id token nativeId checkpoint now).2
  | uncertain id token error => db.uncertain id token error
  | claimAbandonment id token now => (db.claimAbandonment id token now).2
  | abandon id token evidence => (db.abandon id token evidence).2
  | complete id token reply nativeId output => (db.complete id token reply nativeId output).2

/-- the UUID of a new receipt is that of no receipt. -/
def Statement.Fresh (db : CompletedTurnStore) : Statement → Prop
  | enqueue _ _ _ _ receiptId => ∀ r ∈ db.receipts, r.receiptId ≠ receiptId
  | _ => True

def Step (db db' : CompletedTurnStore) : Prop := ∃ s : Statement, s.Fresh db ∧ s.run db = db'

abbrev Steps : CompletedTurnStore → CompletedTurnStore → Prop := Relation.ReflTransGen Step

def Reachable (db : CompletedTurnStore) : Prop := Steps {} db

/-! ## invariants -/

/-- what holds of a receipt. -/
structure RowOk (r : TurnRecord) : Prop where
  sender : ∀ t ∈ r.senderToken, r.status = .sending ∧ r.claimToken = some t
  native : r.nativeSessionId ≠ none → r.status.Past
  reply : r.reply ≠ none → r.status.Final
  output : r.outputJson ≠ none → r.status.Final

structure Inv (db : CompletedTurnStore) : Prop where
  unique : PrimaryKey (fun r : TurnRecord => r.receiptId) db.receipts
  rows : ∀ r ∈ db.receipts, RowOk r
  /-- an abandonment ends a whole conversation, which is retired. -/
  abandoned : ∀ r ∈ db.receipts, r.status = .abandoned →
    db.retired r.owner r.conversationKey = true ∧
      ∀ r' ∈ db.receipts, SameConversation r' r → r'.status.Final
  deleted : ∀ r ∈ db.receipts, db.deleted r.owner r.conversationKey = true → r.status.Final

/-- What a receipt keeps: its identity, and what was written.  The native session that was recorded
when the turn was sent may be replaced once, when it completes. -/
structure Keeps (r r' : TurnRecord) : Prop where
  same : SameTurn r r'
  reply : r.reply ≠ none → r'.reply = r.reply
  output : r.outputJson ≠ none → r'.outputJson = r.outputJson
  native : r.nativeSessionId ≠ none → r'.nativeSessionId = r.nativeSessionId ∨
    ¬r.status.Final ∧ r'.status = .completed
  final : r.status.Final → r'.status = r.status ∧ r'.reply = r.reply ∧
    r'.outputJson = r.outputJson ∧ r'.nativeSessionId = r.nativeSessionId

theorem sameTurn_trans {a b c : TurnRecord} (h : SameTurn a b) (h' : SameTurn b c) : SameTurn a c :=
  ⟨h'.receiptId.trans h.receiptId, h'.owner.trans h.owner,
    h'.conversationKey.trans h.conversationKey, h'.sequence.trans h.sequence⟩

theorem Keeps.refl (r : TurnRecord) : Keeps r r :=
  ⟨SameTurn.refl r, fun _ => rfl, fun _ => rfl, fun _ => Or.inl rfl, fun _ => ⟨rfl, rfl, rfl, rfl⟩⟩

theorem Keeps.trans {a b c : TurnRecord} (h : Keeps a b) (h' : Keeps b c) : Keeps a c where
  same := sameTurn_trans h.same h'.same
  reply ha := (h'.reply (by rwa [h.reply ha])).trans (h.reply ha)
  output ha := (h'.output (by rwa [h.output ha])).trans (h.output ha)
  native ha := by
    rcases h.native ha with e | ⟨hopen, hb⟩
    · rcases h'.native (by rwa [e]) with e' | ⟨hopen, hc⟩
      · exact Or.inl (e'.trans e)
      · exact Or.inr ⟨fun hf => hopen ((h.final hf).1 ▸ hf), hc⟩
    · exact Or.inr ⟨hopen, ((h'.final (Or.inl hb)).1).trans hb⟩
  final ha := by
    obtain ⟨e₁, e₂, e₃, e₄⟩ := h.final ha
    obtain ⟨f₁, f₂, f₃, f₄⟩ := h'.final (e₁ ▸ ha)
    exact ⟨f₁.trans e₁, f₂.trans e₂, f₃.trans e₃, f₄.trans e₄⟩

/-- a receipt whose fields were not written. -/
theorem Keeps.of_eq {r r' : TurnRecord} (h : SameTurn r r') (hs : r.status.Final → r'.status = r.status)
    (hr : r'.reply = r.reply) (ho : r'.outputJson = r.outputJson)
    (hn : r'.nativeSessionId = r.nativeSessionId) : Keeps r r' :=
  ⟨h, fun _ => hr, fun _ => ho, fun _ => Or.inl hn, fun hf => ⟨hs hf, hr, ho, hn⟩⟩

/-- a receipt that has not ended carries no reply and no output. -/
theorem RowOk.blank {r : TurnRecord} (h : RowOk r) (ho : ¬r.status.Final) :
    r.reply = none ∧ r.outputJson = none :=
  ⟨by_contra fun hn => ho (h.reply hn), by_contra fun hn => ho (h.output hn)⟩

/-- a receipt without a sender. -/
theorem RowOk.unsent {r : TurnRecord} (hs : r.senderToken = none) (hp : r.status.Past)
    (hreply : r.reply ≠ none → r.status.Final) (houtput : r.outputJson ≠ none → r.status.Final) :
    RowOk r :=
  ⟨fun t ht => (by rw [hs] at ht; cases ht), fun _ => hp, hreply, houtput⟩

theorem past_abandoning : TurnStatus.abandoning.Past := ⟨by decide, by decide⟩

/-- a receipt that has not ended may be written. -/
theorem Keeps.of_open {r r' : TurnRecord} (h : RowOk r) (ho : ¬r.status.Final) (hs : SameTurn r r')
    (hn : r.nativeSessionId ≠ none → r'.nativeSessionId = r.nativeSessionId ∨
      r'.status = .completed) : Keeps r r' :=
  ⟨hs, fun hr => absurd (h.blank ho).1 hr, fun hr => absurd (h.blank ho).2 hr,
    fun hr => (hn hr).imp_right fun e => ⟨ho, e⟩, fun hf => absurd hf ho⟩

/-- What one step does to the receipts and to the ends of conversations. -/
structure Evolves (db db' : CompletedTurnStore) : Prop where
  receipts : ∀ r ∈ db.receipts, ∃ r' ∈ db'.receipts, Keeps r r'
  retired : ∀ owner key, db.retired owner key = true → db'.retired owner key = true
  deleted : ∀ owner key, db.deleted owner key = true → db'.deleted owner key = true

theorem Evolves.refl (db : CompletedTurnStore) : Evolves db db :=
  ⟨fun r hr => ⟨r, hr, Keeps.refl r⟩, fun _ _ h => h, fun _ _ h => h⟩

theorem Evolves.trans {a b c : CompletedTurnStore} (h : Evolves a b) (h' : Evolves b c) :
    Evolves a c where
  receipts r hr := by
    obtain ⟨r', hr', hk⟩ := h.receipts r hr
    obtain ⟨r'', hr'', hk'⟩ := h'.receipts r' hr'
    exact ⟨r'', hr'', hk.trans hk'⟩
  retired owner key hr := h'.retired owner key (h.retired owner key hr)
  deleted owner key hr := h'.deleted owner key (h.deleted owner key hr)

/-- the invariant, and what the step did. -/
def Good (db db' : CompletedTurnStore) : Prop := Inv db' ∧ Evolves db db'

theorem Good.refl {db : CompletedTurnStore} (h : Inv db) : Good db db := ⟨h, Evolves.refl db⟩

/-! ## receipts rewritten in place -/

section Update
variable {db db' : CompletedTurnStore} {p : TurnRecord → Prop} [DecidablePred p]
  {f : TurnRecord → TurnRecord}

/-- **The step lemma.**  Receipts are rewritten to good ones that keep what they must keep; those that
are abandoned by the step are those of a conversation that ends as a whole. -/
theorem Inv.update (h : Inv db) (hr : db'.receipts = Sql.update p f db.receipts)
    (hret : ∀ owner key, db.retired owner key = true → db'.retired owner key = true)
    (hdel : db'.deletions = db.deletions)
    (hrow : ∀ r ∈ db.receipts, p r → RowOk (f r) ∧ Keeps r (f r))
    (hab : ∀ r ∈ db.receipts, p r → (f r).status = .abandoned → r.status ≠ .abandoned →
      db'.retired r.owner r.conversationKey = true ∧
        ∀ r' ∈ db'.receipts, SameConversation r' r → r'.status.Final) : Good db db' := by
  have hk : ∀ r ∈ db.receipts, RowOk (if p r then f r else r) ∧ Keeps r (if p r then f r else r) := by
    intro r hm
    split
    · exact hrow r hm ‹_›
    · exact ⟨h.rows r hm, Keeps.refl r⟩
  have hmem : ∀ r' ∈ db'.receipts, ∃ r ∈ db.receipts, (if p r then f r else r) = r' := by
    intro r' hm
    rw [hr] at hm
    exact mem_update.mp hm
  have hd : ∀ owner key, db'.deleted owner key = db.deleted owner key := fun owner key => by
    rw [CompletedTurnStore.deleted, hdel]
    rfl
  have hfinal : ∀ r ∈ db.receipts, r.status.Final → (if p r then f r else r).status.Final :=
    fun r hm hf => ((hk r hm).2.final hf).1 ▸ hf
  refine ⟨⟨?_, ?_, ?_, ?_⟩, ⟨fun r hm => ?_, hret, fun owner key e => (hd owner key).trans e⟩⟩
  · rw [hr, PrimaryKey, Sql.update, List.map_map]
    refine (congrArg List.Nodup (List.map_congr_left fun r hm => ?_)).mp h.unique
    exact ((hk r hm).2.same.receiptId).symm
  · intro r' hm'
    obtain ⟨r, hm, rfl⟩ := hmem r' hm'
    exact (hk r hm).1
  · intro r' hm' hs
    obtain ⟨r, hm, rfl⟩ := hmem r' hm'
    have hsame := (hk r hm).2.same
    by_cases hold : r.status = .abandoned
    · obtain ⟨hretired, hall⟩ := h.abandoned r hm hold
      refine ⟨by rw [hsame.owner, hsame.conversationKey]; exact hret _ _ hretired, fun q hq hc => ?_⟩
      obtain ⟨q, hqm, rfl⟩ := hmem q hq
      exact hfinal q hqm (hall q hqm (((hk q hqm).2.same.conversation hsame).mp hc))
    · by_cases hp : p r
      · rw [if_pos hp] at hs hsame ⊢
        obtain ⟨hretired, hall⟩ := hab r hm hp hs hold
        refine ⟨by rw [hsame.owner, hsame.conversationKey]; exact hretired, fun q hq hc => ?_⟩
        exact hall q hq ((SameTurn.conversation (SameTurn.refl q) hsame).mp hc)
      · rw [if_neg hp] at hs
        exact absurd hs hold
  · intro r' hm' hdl
    obtain ⟨r, hm, rfl⟩ := hmem r' hm'
    have hsame := (hk r hm).2.same
    rw [hd, hsame.owner, hsame.conversationKey] at hdl
    exact hfinal r hm (h.deleted r hm hdl)
  · refine ⟨if p r then f r else r, ?_, (hk r hm).2⟩
    rw [hr]
    exact mem_update.mpr ⟨r, hm, rfl⟩

/-- a statement that updates receipts and abandons none. -/
theorem Inv.updateReceipts (h : Inv db)
    (hrow : ∀ r ∈ db.receipts, p r → RowOk (f r) ∧ Keeps r (f r) ∧
      ((f r).status = .abandoned → r.status = .abandoned)) :
    Good db (db.updateReceipts p f) :=
  h.update rfl (fun _ _ h => h) rfl (fun r hr hp => ⟨(hrow r hr hp).1, (hrow r hr hp).2.1⟩)
    fun r hr hp hs hn => absurd ((hrow r hr hp).2.2 hs) hn

end Update

/-! ## one lemma for each statement -/

section Statements
variable {db : CompletedTurnStore} (h : Inv db)

theorem good_transaction {α : Type} {body : Except String (α × CompletedTurnStore)}
    (h : Inv db) (hb : ∀ a db', body = .ok (a, db') → Good db db') :
    Good db (db.transaction body).2 := transaction_cases (Good.refl h) hb

include h

theorem good_claim (id token : String) (time : ℕ) : Good db (db.claim id token time).2 := by
  refine h.updateReceipts fun r hr ⟨_, hopen, _⟩ => ?_
  have hf : ¬r.status.Final := fun hf => hopen (Or.inl hf)
  obtain ⟨hreply, houtput⟩ := (h.rows r hr).blank hf
  refine ⟨⟨nofun, fun hn => ?_, fun hn => absurd hreply hn, fun hn => absurd houtput hn⟩,
    .of_open (h.rows r hr) hf ⟨rfl, rfl, rfl, rfl⟩ fun _ => Or.inl rfl, ?_⟩
  · have hpast := (h.rows r hr).native hn
    show TurnStatus.Past (if r.status = .queued then .preparing else r.status)
    rwa [if_neg hpast.1]
  · show (if r.status = .queued then TurnStatus.preparing else r.status) = .abandoned → _
    split
    · exact nofun
    · exact fun e => e

theorem good_renew (id token : String) (now : ℕ) : Good db (db.renew id token now).2 := by
  refine h.updateReceipts fun r hr _ => ?_
  have hrow := h.rows r hr
  exact ⟨⟨hrow.sender, hrow.native, hrow.reply, hrow.output⟩,
    .of_eq ⟨rfl, rfl, rfl, rfl⟩ (fun _ => rfl) rfl rfl rfl, fun e => e⟩

theorem good_bind (id token executionId : String) (sessionId : Option String) :
    Good db (db.bind id token executionId sessionId).2 := by
  refine good_transaction h fun a db' hb => ?_
  split at hb
  · cases hb
  split at hb
  · cases hb
  obtain ⟨-, rfl⟩ := Prod.mk.inj (Except.ok.inj hb)
  refine h.update rfl (fun _ _ h => h) rfl (fun r hr _ => ?_) fun r hr hp hs hn => absurd hs hn
  have hrow := h.rows r hr
  exact ⟨⟨hrow.sender, hrow.native, hrow.reply, hrow.output⟩,
    .of_eq ⟨rfl, rfl, rfl, rfl⟩ (fun _ => rfl) rfl rfl rfl⟩

theorem good_sending (id token : String) (nativeId : Option String) (checkpoint now : ℕ) :
    Good db (db.sending id token nativeId checkpoint now).2 := by
  refine h.updateReceipts fun r hr ⟨⟨_, hclaim⟩, hprep⟩ => ?_
  have hf : ¬r.status.Final := by rw [hprep]; decide
  obtain ⟨hreply, houtput⟩ := (h.rows r hr).blank hf
  refine ⟨⟨fun t ht => ⟨rfl, hclaim.trans ht⟩, fun _ => ⟨nofun, nofun⟩,
    fun hn => absurd hreply hn, fun hn => absurd houtput hn⟩,
    .of_open (h.rows r hr) hf ⟨rfl, rfl, rfl, rfl⟩ fun hn => ?_, nofun⟩
  -- nothing was recorded before the turn was sent
  exact absurd hprep ((h.rows r hr).native hn).2

theorem good_uncertain (id token error : String) : Good db (db.uncertain id token error) := by
  refine h.updateReceipts fun r hr _ => ?_
  have hrow := h.rows r hr
  have hstatus : r.status.Final → (if r.status = .sending then .uncertain else r.status) = r.status :=
    fun hf => if_neg fun e => by rw [e] at hf; exact absurd hf (by decide)
  refine ⟨⟨nofun, fun hn => ?_, fun hn => ?_, fun hn => ?_⟩,
    .of_eq ⟨rfl, rfl, rfl, rfl⟩ hstatus rfl rfl rfl, ?_⟩
  · show TurnStatus.Past (if r.status = .sending then .uncertain else r.status)
    split
    · exact ⟨nofun, nofun⟩
    · exact hrow.native hn
  · exact (hstatus (hrow.reply hn)).symm ▸ hrow.reply hn
  · exact (hstatus (hrow.output hn)).symm ▸ hrow.output hn
  · show (if r.status = .sending then TurnStatus.uncertain else r.status) = .abandoned → _
    split
    · exact nofun
    · exact fun e => e

theorem good_refresh (sessionId : String) (time : ℕ) :
    Good db (db.refreshActiveSenderForSession sessionId time).2 := by
  unfold refreshActiveSenderForSession
  split
  · refine h.updateReceipts fun r hr _ => ?_
    have hrow := h.rows r hr
    exact ⟨⟨hrow.sender, hrow.native, hrow.reply, hrow.output⟩,
      .of_eq ⟨rfl, rfl, rfl, rfl⟩ (fun _ => rfl) rfl rfl rfl, fun e => e⟩
  · exact Good.refl h

theorem good_recover (owner : String) (request : CompletedTurnRequest) :
    Good db (db.recoverMissingPreparation owner request).2 := by
  refine good_transaction h fun a db' hb => ?_
  split at hb
  · cases hb
  rename_i row hrow
  split at hb
  · cases hb
  split at hb
  · obtain ⟨-, rfl⟩ := Prod.mk.inj (Except.ok.inj hb)
    exact Good.refl h
  split at hb
  · cases hb
  rename_i hmissing
  obtain ⟨-, rfl⟩ := Prod.mk.inj (Except.ok.inj hb)
  have hprep := (not_not.mp hmissing).1
  refine h.updateReceipts fun r hr hid => ?_
  -- the row that is queued again is the one that was checked
  obtain rfl : r = row := h.unique.eq hr (mem_of_find hrow).1 hid
  have hok := h.rows r hr
  have hf : ¬r.status.Final := by rw [hprep]; decide
  obtain ⟨hreply, houtput⟩ := hok.blank hf
  refine ⟨⟨fun t ht => ?_, fun hn => absurd hprep (hok.native hn).2, fun hn => absurd hreply hn,
    fun hn => absurd houtput hn⟩,
    .of_open hok hf ⟨rfl, rfl, rfl, rfl⟩ fun _ => Or.inl rfl, fun e => by cases e⟩
  have hsend : r.status = .sending := (hok.sender t ht).1
  rw [hprep] at hsend
  cases hsend

theorem good_claimAbandonment (id token : String) (now : ℕ) :
    Good db (db.claimAbandonment id token now).2 := by
  refine good_transaction h fun a db' hb => ?_
  split at hb
  · cases hb
  split at hb
  · obtain ⟨-, rfl⟩ := Prod.mk.inj (Except.ok.inj hb)
    exact Good.refl h
  split at hb
  · obtain ⟨-, rfl⟩ := Prod.mk.inj (Except.ok.inj hb)
    exact Good.refl h
  obtain ⟨-, rfl⟩ := Prod.mk.inj (Except.ok.inj hb)
  refine h.update (congrArg _ retire_receipts) (fun _ _ h => retired_retire h)
    (by unfold retire; split <;> rfl) (fun r hr hp => ?_) (fun r hr hp hs hn => by cases hs)
  have hf : ¬r.status.Final := hp.2
  obtain ⟨hreply, houtput⟩ := (h.rows r hr).blank hf
  exact ⟨.unsent rfl past_abandoning (fun hn => absurd hreply hn) fun hn => absurd houtput hn,
    .of_open (h.rows r hr) hf ⟨rfl, rfl, rfl, rfl⟩ fun _ => Or.inl rfl⟩

/-- **An abandonment ends the whole conversation.**  None of its receipts was abandoned before: the
receipt that is being abandoned had not ended. -/
theorem good_abandon (id token : String) (evidence : Value) :
    Good db (db.abandon id token evidence).2 := by
  refine good_transaction h fun a db' hb => ?_
  split at hb
  · cases hb
  rename_i row hrow
  split at hb
  · cases hb
  rename_i hclaim
  obtain ⟨-, rfl⟩ := Prod.mk.inj (Except.ok.inj hb)
  have hrow := (get_spec hrow).1
  have hstatus : row.status = .abandoning := by
    by_contra hn
    exact hclaim (Or.inr hn)
  have hnone : ∀ r ∈ db.receipts, SameConversation r row → r.status ≠ .abandoned := fun r hr hc hs => by
    have := (h.abandoned r hr hs).2 row hrow hc.symm
    rw [hstatus] at this
    exact absurd this (by decide)
  refine h.update (congrArg _ retire_receipts) (fun _ _ h => retired_retire h)
    (by unfold retire; split <;> rfl) (fun r hr hp => ?_) (fun r hr hp _ _ => ?_) <;>
    obtain ⟨ho, hk, hc⟩ := hp
  · have hf : ¬r.status.Final := fun hf => hf.elim hc (hnone r hr ⟨ho, hk⟩)
    obtain ⟨hreply, -⟩ := (h.rows r hr).blank hf
    exact ⟨.unsent rfl (.of_final (Or.inr rfl)) (fun hn => absurd hreply hn) fun _ => Or.inr rfl,
      .of_open (h.rows r hr) hf ⟨rfl, rfl, rfl, rfl⟩ fun _ => Or.inl rfl⟩
  · refine ⟨by rw [ho, hk]; exact retire_retired, fun q hq hcq => ?_⟩
    change q ∈ Sql.update _ _ (db.retire _ _ _).receipts at hq
    rw [retire_receipts] at hq
    obtain ⟨q₀, hq₀, rfl⟩ := mem_update.mp hq
    split
    · exact Or.inr rfl
    · rename_i hp
      rw [if_neg hp] at hcq
      exact Or.inl (by_contra fun hn => hp ⟨hcq.1.trans ho, hcq.2.trans hk, hn⟩)

theorem good_complete (id token reply nativeId : String) (output : Option Value) :
    Good db (db.complete id token reply nativeId output).2 := by
  unfold CompletedTurnStore.complete
  split
  · exact Good.refl h
  refine h.updateReceipts fun r hr hp => ?_
  have hf : ¬r.status.Final := by rcases hp.2 with e | e <;> rw [e] <;> decide
  exact ⟨.unsent rfl (.of_final (Or.inl rfl)) (fun _ => Or.inl rfl) fun _ => Or.inl rfl,
    .of_open (h.rows r hr) hf ⟨rfl, rfl, rfl, rfl⟩ fun _ => Or.inr rfl, fun e => by cases e⟩

theorem good_finishDeletion (owner key : String) (receipt : Value) :
    Good db (db.finishDeletion owner key receipt) := by
  have hd : ∀ o k, (db.finishDeletion owner key receipt).deleted o k = db.deleted o k := by
    intro o k
    unfold CompletedTurnStore.deleted finishDeletion Sql.update
    rw [List.any_map]
    refine congrArg (List.any db.deletions) (funext fun d => ?_)
    dsimp only [Function.comp]
    split <;> rfl
  exact ⟨⟨h.unique, h.rows, h.abandoned, fun r hr hdl => h.deleted r hr ((hd _ _).symm.trans hdl)⟩,
    fun r hr => ⟨r, hr, Keeps.refl r⟩, fun _ _ h => h, fun o k hdl => (hd o k).trans hdl⟩

/-- a conversation is deleted when all its receipts have ended. -/
theorem good_beginDeletion (owner : String) (request : DeletionRequest) (receiptId : String) :
    Good db (db.beginDeletion owner request receiptId).2 := by
  refine good_transaction h fun a db' hb => ?_
  split at hb
  · split at hb
    · cases hb
    · obtain ⟨-, rfl⟩ := Prod.mk.inj (Except.ok.inj hb)
      exact Good.refl h
  split at hb
  · cases hb
  split at hb
  · cases hb
  split at hb
  · cases hb
  rename_i hhead
  obtain ⟨-, rfl⟩ := Prod.mk.inj (Except.ok.inj hb)
  have hall : ∀ r ∈ db.receipts, r.owner = owner → r.conversationKey = request.conversationKey →
      r.status.Final := by
    intro r hr ho hk
    by_contra hf
    have hsome : ∃ r', db.head owner request.conversationKey = some r' :=
      first_isSome hr ⟨ho, hk, hf⟩
    exact hhead (Option.isSome_iff_exists.mpr hsome)
  refine ⟨⟨h.unique, h.rows, h.abandoned, fun r hr hdl => ?_⟩,
    fun r hr => ⟨r, hr, Keeps.refl r⟩, fun _ _ h => h, fun o k hdl => ?_⟩
  · rw [CompletedTurnStore.deleted, List.any_append, Bool.or_eq_true] at hdl
    rcases hdl with hdl | hdl
    · exact h.deleted r hr hdl
    · simp only [List.any_cons, List.any_nil, Bool.or_false, Bool.and_eq_true,
        decide_eq_true_eq] at hdl
      exact hall r hr hdl.1.symm hdl.2.symm
  · rw [CompletedTurnStore.deleted, List.any_append, Bool.or_eq_true]
    exact Or.inl hdl

end Statements

/-! ## enqueue -/

section Enqueue
variable {db : CompletedTurnStore} {owner runId stepId receiptId : String}
  {request : CompletedTurnRequest}

/-- a deleted conversation takes no turn. -/
theorem enqueue_deleted (h : db.deleted owner request.conversationKey = true) :
    ∃ e, db.enqueue owner request runId stepId receiptId = (.error e, db) := by
  unfold CompletedTurnStore.enqueue
  split
  · exact ⟨_, rfl⟩
  · exact ⟨_, rfl⟩

theorem enqueue_deletions :
    (db.enqueue owner request runId stepId receiptId).2.deletions = db.deletions := by
  have hb : (db.insertBinding owner (configOf request) request).deletions = db.deletions := by
    unfold insertBinding
    split <;> rfl
  unfold CompletedTurnStore.enqueue
  split
  · rfl
  split
  · rfl
  refine transaction_cases (P := fun db' => db'.deletions = db.deletions) rfl fun row db' h => ?_
  unfold enqueueBody at h
  dsimp only at h
  repeat' split at h
  all_goals cases h
  all_goals exact hb

/-- a retired conversation takes no new turn; a request that it has is answered with its receipt. -/
theorem enqueue_retired (h : db.retired owner request.conversationKey = true) {row : TurnRecord}
    (hok : (db.enqueue owner request runId stepId receiptId).1 = .ok row) :
    row ∈ db.receipts ∧ row.owner = owner ∧ row.requestJson = request := by
  have hb : (db.insertBinding owner (configOf request) request).receipts = db.receipts ∧
      (db.insertBinding owner (configOf request) request).retirements = db.retirements := by
    unfold insertBinding
    split <;> exact ⟨rfl, rfl⟩
  unfold CompletedTurnStore.enqueue at hok
  split at hok
  · cases hok
  split at hok
  · cases hok
  unfold transaction at hok
  split at hok
  · rename_i row' db' hbody
    obtain rfl := Except.ok.inj hok
    unfold enqueueBody at hbody
    dsimp only at hbody
    split at hbody
    · cases hbody
    split at hbody
    · cases hbody
    split at hbody
    · cases hbody
    split at hbody
    · cases hbody
    split at hbody
    · rename_i existing hexisting
      split at hbody
      · cases hbody
      · rename_i hsame
        obtain ⟨rfl, -⟩ := Prod.mk.inj (Except.ok.inj hbody)
        obtain ⟨hmem, ho, -⟩ := mem_of_find hexisting
        exact ⟨hb.1 ▸ hmem, ho, not_not.mp hsame⟩
    · rw [if_pos (by rwa [CompletedTurnStore.retired, hb.2])] at hbody
      cases hbody
  · cases hok

theorem good_enqueue (h : Inv db) (hfresh : ∀ r ∈ db.receipts, r.receiptId ≠ receiptId) :
    Good db (db.enqueue owner request runId stepId receiptId).2 := by
  obtain ⟨hret, hrec⟩ := enqueue_appends db receiptId owner request runId stepId
  have hdel : (db.enqueue owner request runId stepId receiptId).2.deletions = db.deletions :=
    enqueue_deletions
  have hretired : ∀ o k, (db.enqueue owner request runId stepId receiptId).2.retired o k =
      db.retired o k := fun o k => by
    rw [CompletedTurnStore.retired, hret]
    rfl
  have hdeleted : ∀ o k, (db.enqueue owner request runId stepId receiptId).2.deleted o k =
      db.deleted o k := fun o k => by
    rw [CompletedTurnStore.deleted, hdel]
    rfl
  by_cases hd : db.deleted owner request.conversationKey = true
  · obtain ⟨e, he⟩ : ∃ e, db.enqueue owner request runId stepId receiptId = (.error e, db) :=
      enqueue_deleted hd
    rw [he]
    exact Good.refl h
  rcases hrec with hrec | ⟨hopen, hrec⟩
  · refine ⟨⟨hrec ▸ h.unique, hrec ▸ h.rows, ?_, ?_⟩, ⟨fun r hr => ⟨r, hrec ▸ hr, Keeps.refl r⟩,
      fun o k hx => (hretired o k).trans hx, fun o k hx => (hdeleted o k).trans hx⟩⟩
    · simp only [hrec, hretired]
      exact h.abandoned
    · simp only [hrec, hdeleted]
      exact h.deleted
  · generalize hrow : newReceipt receiptId owner request runId stepId _ = row at hrec
    have hstatus : row.status = .queued := hrow ▸ rfl
    have hconv : row.owner = owner ∧ row.conversationKey = request.conversationKey := hrow ▸ ⟨rfl, rfl⟩
    have hid : row.receiptId = receiptId := hrow ▸ rfl
    have hok : RowOk row := by
      subst hrow
      exact ⟨fun t ht => (by cases ht), fun hn => absurd rfl hn, fun hn => absurd rfl hn,
        fun hn => absurd rfl hn⟩
    refine ⟨⟨?_, ?_, ?_, ?_⟩, ⟨fun r hr => ⟨r, ?_, Keeps.refl r⟩,
      fun o k hx => (hretired o k).trans hx, fun o k hx => (hdeleted o k).trans hx⟩⟩
    · rw [hrec]
      exact h.unique.append fun r hr => hid ▸ hfresh r hr
    · simp only [hrec, List.forall_mem_append, List.forall_mem_singleton]
      exact ⟨h.rows, hok⟩
    · simp only [hrec, hretired, List.forall_mem_append, List.forall_mem_singleton, hstatus]
      refine ⟨fun r hr hs => ⟨(h.abandoned r hr hs).1, (h.abandoned r hr hs).2, fun hc => ?_⟩,
        fun e => by cases e⟩
      -- the conversation of the new receipt is not retired, and none of its receipts was abandoned
      have := (h.abandoned r hr hs).1
      rw [← hc.1, ← hc.2, hconv.1, hconv.2, hopen] at this
      cases this
    · simp only [hrec, hdeleted, List.forall_mem_append, List.forall_mem_singleton]
      refine ⟨h.deleted, fun hx => ?_⟩
      rw [hconv.1, hconv.2] at hx
      exact absurd hx hd
    · rw [hrec]
      exact List.mem_append_left _ hr

end Enqueue

/-! ## runs -/

theorem step_keeps {db db' : CompletedTurnStore} (h : Inv db) (hs : Step db db') : Good db db' := by
  obtain ⟨s, hfresh, rfl⟩ := hs
  cases s with
  | enqueue owner request runId stepId receiptId => exact good_enqueue h hfresh
  | beginDeletion owner request receiptId => exact good_beginDeletion h owner request receiptId
  | finishDeletion owner key receipt => exact good_finishDeletion h owner key receipt
  | refreshActiveSender sessionId time => exact good_refresh h sessionId time
  | recoverMissingPreparation owner request => exact good_recover h owner request
  | claim id token time => exact good_claim h id token time
  | renew id token now => exact good_renew h id token now
  | bind id token executionId sessionId => exact good_bind h id token executionId sessionId
  | sending id token nativeId checkpoint now =>
    exact good_sending h id token nativeId checkpoint now
  | uncertain id token error => exact good_uncertain h id token error
  | claimAbandonment id token now => exact good_claimAbandonment h id token now
  | abandon id token evidence => exact good_abandon h id token evidence
  | complete id token reply nativeId output => exact good_complete h id token reply nativeId output

theorem Inv.empty : Inv {} :=
  ⟨List.nodup_nil, fun r hr => absurd hr List.not_mem_nil, fun r hr => absurd hr List.not_mem_nil,
    fun r hr => absurd hr List.not_mem_nil⟩

theorem Inv.steps {db db' : CompletedTurnStore} (h : Inv db) (hs : Steps db db') : Good db db' := by
  induction hs with
  | refl => exact Good.refl h
  | tail _ hstep ih =>
    obtain ⟨hi, he⟩ := step_keeps ih.1 hstep
    exact ⟨hi, ih.2.trans he⟩

theorem Reachable.inv {db : CompletedTurnStore} (h : Reachable db) : Inv db := (Inv.empty.steps h).1

/-- What holds of a database, and of every later one. -/
structure ReceiptInvariants (db db' : CompletedTurnStore) : Prop where
  sender : ∀ r ∈ db.receipts, ∀ t ∈ r.senderToken, r.status = .sending ∧ r.claimToken = some t
  /-- what was written stays, and a final receipt stays as it is. -/
  keeps : ∀ r ∈ db.receipts, ∃ r' ∈ db'.receipts, Keeps r r'
  /-- a conversation that is deleted, or of which a receipt was abandoned, has ended. -/
  ended : ∀ r ∈ db'.receipts, db.deleted r.owner r.conversationKey = true ∨
    (∃ q ∈ db.receipts, SameConversation q r ∧ q.status = .abandoned) → r.status.Final
  deleted : ∀ owner request runId stepId receiptId,
    db.deleted owner request.conversationKey = true →
      ∃ e, db'.enqueue owner request runId stepId receiptId = (.error e, db')
  retired : ∀ owner request runId stepId receiptId,
    db.retired owner request.conversationKey = true →
      (db'.enqueue owner request runId stepId receiptId).2.receipts = db'.receipts ∧
      ∀ row, (db'.enqueue owner request runId stepId receiptId).1 = .ok row →
        row ∈ db'.receipts ∧ row.owner = owner ∧ row.requestJson = request

/-- **In every run: sender tokens, written fields, final receipts and ended conversations.** -/
theorem receipt_invariants (db db' : CompletedTurnStore) (h : Reachable db) (hs : Steps db db') :
    ReceiptInvariants db db' := by
  have hi := h.inv
  obtain ⟨hi', he⟩ := hi.steps hs
  refine ⟨fun r hr => (hi.rows r hr).sender, he.receipts, fun r hr hend => ?_,
    fun owner request runId stepId receiptId hd => enqueue_deleted (he.deleted _ _ hd),
    fun owner request runId stepId receiptId hd =>
      ⟨?_, fun row hok => enqueue_retired (he.retired _ _ hd) hok⟩⟩
  · rcases hend with hd | ⟨q, hq, hc, hab⟩
    · exact hi'.deleted r hr (he.deleted _ _ hd)
    · obtain ⟨q', hq', hk⟩ := he.receipts q hq
      have hab' : q'.status = .abandoned := (hk.final (Or.inr hab)).1.trans hab
      refine (hi'.abandoned q' hq' hab').2 r hr ?_
      exact ((SameTurn.refl r).conversation hk.same).mpr hc.symm
  · rcases (enqueue_appends db' receiptId owner request runId stepId).2 with e | ⟨hopen, -⟩
    · exact e
    · rw [he.retired _ _ hd] at hopen
      cases hopen

/-! ## a turn that completes in another native session, and one that is abandoned -/

def someRequest : CompletedTurnRequest where
  agent := none
  conversationKey := "conversation"
  requestId := "request"
  projectId := "project"
  prompt := "hello"
  directory := "/work"
  sessionId := none
  model := none
  executionProfile := none
  projectFiles := none
  durationMs := none

/-- a turn that was claimed. -/
def claimedTurn : CompletedTurnStore :=
  (Statement.claim "receipt" "token" 0).run
    ((Statement.enqueue "owner" someRequest "run" "step" "receipt").run {})

/-- the turn was sent in one native session. -/
def sentTurn : CompletedTurnStore := (Statement.sending "receipt" "token" (some "a") 0 1).run claimedTurn

/-- it completed in another. -/
def completedTurn : CompletedTurnStore :=
  (Statement.complete "receipt" "token" "done" "b" none).run sentTurn

/-- its abandonment has begun. -/
def abandoningTurn : CompletedTurnStore := (Statement.claimAbandonment "receipt" "other" 1).run sentTurn

theorem reachable_sentTurn : Reachable sentTurn :=
  ((Relation.ReflTransGen.refl.tail
    ⟨.enqueue "owner" someRequest "run" "step" "receipt", fun r hr => absurd hr List.not_mem_nil,
      rfl⟩).tail ⟨.claim "receipt" "token" 0, trivial, rfl⟩).tail
    ⟨.sending "receipt" "token" (some "a") 0 1, trivial, rfl⟩

theorem receipt_invariants_sent : ReceiptInvariants sentTurn completedTurn :=
  receipt_invariants sentTurn completedTurn reachable_sentTurn
    (.single ⟨.complete "receipt" "token" "done" "b" none, trivial, rfl⟩)

/-- **The native session may change, and a conversation that is retired may have an open receipt and
answer an enqueue.** -/
theorem receipt_invariants_fail :
    (¬∀ db db', Reachable db → Step db db' → ∀ r ∈ db.receipts, ∀ r' ∈ db'.receipts,
      r'.receiptId = r.receiptId → r.nativeSessionId ≠ none →
        r'.nativeSessionId = r.nativeSessionId) ∧
    (¬∀ db, Reachable db → ∀ r ∈ db.receipts, db.retired r.owner r.conversationKey = true →
      r.status.Final) ∧
    ¬∀ db, Reachable db → ∀ owner request runId stepId receiptId,
      db.retired owner request.conversationKey = true →
        ∃ e, (db.enqueue owner request runId stepId receiptId).1 = .error e := by
  have habandoning : Reachable abandoningTurn :=
    reachable_sentTurn.tail ⟨.claimAbandonment "receipt" "other" 1, trivial, rfl⟩
  have hsent : ("receipt", some "a") ∈
      sentTurn.receipts.map fun r => (r.receiptId, r.nativeSessionId) := by decide +kernel
  have hcompleted : ("receipt", some "b") ∈
      completedTurn.receipts.map fun r => (r.receiptId, r.nativeSessionId) := by decide +kernel
  have hopen : TurnStatus.abandoning ∈ abandoningTurn.receipts.map fun r => r.status := by
    decide +kernel
  refine ⟨fun h => ?_, fun h => ?_, fun h => ?_⟩
  · obtain ⟨r, hr, e⟩ := List.mem_map.mp hsent
    obtain ⟨r', hr', e'⟩ := List.mem_map.mp hcompleted
    obtain ⟨hid, hn⟩ := Prod.mk.inj e
    obtain ⟨hid', hn'⟩ := Prod.mk.inj e'
    have := h sentTurn completedTurn reachable_sentTurn
      ⟨.complete "receipt" "token" "done" "b" none, trivial, rfl⟩ r hr r' hr' (hid'.trans hid.symm)
      (by rw [hn]; exact nofun)
    rw [hn, hn'] at this
    exact absurd this (by decide)
  · obtain ⟨r, hr, e⟩ := List.mem_map.mp hopen
    have hret : ∀ r ∈ abandoningTurn.receipts,
        abandoningTurn.retired r.owner r.conversationKey = true := by decide +kernel
    have := h abandoningTurn habandoning r hr (hret r hr)
    rw [e] at this
    exact absurd this (by decide)
  · obtain ⟨e, he⟩ := h abandoningTurn habandoning "owner" someRequest "run" "step" "fresh"
      (by decide +kernel)
    have hok : (abandoningTurn.enqueue "owner" someRequest "run" "step" "fresh").1.toOption.isSome =
        true := by decide +kernel
    rw [he] at hok
    cases hok

end Receipts
end CompletedTurn
end WmAutopilot
