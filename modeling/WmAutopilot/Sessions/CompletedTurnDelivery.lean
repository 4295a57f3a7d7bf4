import WmAutopilot.Async.Triple
import WmAutopilot.Sessions.CompletedTurnRows
import WmAutopilot.Sessions.CompletedTurnService

/-!
# Completed turns are sent at most once and in order

* `Inv`           the invariant: a receipt that is not queued any more has only final receipts
                  before it; a marked receipt has only completed receipts before it and is never
                  sendable again; what is sent was marked, what is completed was sent;
* `may`           what an executor has to know before a statement or a call;
* `Evolves`       what every operation does to receipts and history, and the assertions that hence
                  survive the operations of the others (`Settled`, `Drawn`, `Marked`, `Sent`);
* `execute_ok`, `abandon_ok`   executors and abandonments ask for permitted operations only;
* `delivery_keeps`             hence the discipline is kept.
-/

set_option autoImplicit false
set_option linter.unusedVariables false

namespace WmAutopilot
namespace CompletedTurn
open Js Sql Async CompletedTurnStore

/-! ## the invariant -/

/-- the receipts before that of `id` are final. -/
def Settled (id : String) (w : World) : Prop :=
  id ∈ w.uuids ∧ ∀ r ∈ w.db.receipts, r.receiptId = id →
    ∀ r' ∈ w.db.receipts, Earlier r' r → r'.status.Final

/-- thread `κ` drew `token` and has not claimed with it. -/
def Drawn (κ : ℕ) (token : String) (w : World) : Prop :=
  (token, κ) ∈ w.tokens ∧ ∀ c ∈ w.claims, c.2 ≠ token

/-- thread `κ` marked the receipt of `id` and has not sent it. -/
def Marked (κ : ℕ) (id token : String) (w : World) : Prop :=
  (id, token) ∈ w.marks ∧ (token, κ) ∈ w.tokens ∧ id ∉ w.sent

/-- the prompt of the receipt was handed to the runtime. -/
def Sent (id : String) (w : World) : Prop := id ∈ w.sent

/-- The invariant.  See the file header. -/
structure Inv (w : World) : Prop where
  unique : PrimaryKey (fun r : TurnRecord => r.receiptId) w.db.receipts
  known : ∀ r ∈ w.db.receipts, r.receiptId ∈ w.uuids
  distinct : ∀ r ∈ w.db.receipts, ∀ r' ∈ w.db.receipts,
    SameConversation r r' → r.sequence = r'.sequence → r = r'
  settled : ∀ r ∈ w.db.receipts, r.status ≠ .queued →
    ∀ r' ∈ w.db.receipts, Earlier r' r → r'.status.Final
  abandoned : ∀ r ∈ w.db.receipts, r.status = .abandoned →
    w.db.retired r.owner r.conversationKey = true ∧
      ∀ r' ∈ w.db.receipts, SameConversation r' r → r'.status.Final
  drawn : ∀ t ∈ w.tokens, t.1 ∈ w.uuids
  tokens : PrimaryKey Prod.fst w.tokens
  claims : ∀ c ∈ w.claims, c.2 ∈ w.uuids
  marks : PrimaryKey Prod.fst w.marks
  marked : ∀ m ∈ w.marks, ∃ r ∈ w.db.receipts, r.receiptId = m.1 ∧ r.status.Past ∧
    ∀ r' ∈ w.db.receipts, Earlier r' r → r'.status = .completed
  sentMarked : ∀ id ∈ w.sent, ∃ t, (id, t) ∈ w.marks
  sentOnce : w.sent.Nodup
  sentOrder : w.sent.Pairwise fun i j => ∀ r ∈ w.db.receipts, ∀ r' ∈ w.db.receipts,
    r.receiptId = i → r'.receiptId = j → SameConversation r r' → r.sequence < r'.sequence
  completed : ∀ r ∈ w.db.receipts, r.status = .completed → r.receiptId ∈ w.sent

/-- what has to be known before an operation. -/
def may (κ : ℕ) : TurnOp → World → Prop
  | .claim id token, w => Settled id w ∧ Drawn κ token w
  | .claimAbandonment _ token, w => Drawn κ token w
  | .complete id _ _ _ _, w => Sent id w
  | .send id _ _, w => ∃ token, Marked κ id token w
  | _, _ => True

/-! ## one step of the invariant -/

section Preserve
variable {w w' : World} {new : Option String} {g : TurnRecord → TurnRecord}

/-- **Receipts rewritten in place keep the invariant**, if what is started has only final receipts
before it, what is abandoned is the rest of a retired conversation, and what is completed was
sent. -/
theorem Inv.rewrite (h : Inv w) (hg : Rewrites new w.db w'.db g) (hu : w'.uuids = w.uuids)
    (ht : w'.tokens = w.tokens) (hc : ∀ c ∈ w'.claims, c.2 ∈ w.uuids) (hm : w'.marks = w.marks)
    (hs : w'.sent = w.sent)
    (start : ∀ r ∈ w.db.receipts, r.status = .queued → (g r).status ≠ .queued →
      ∀ r' ∈ w.db.receipts, Earlier r' r → (g r').status.Final)
    (abandon : ∀ r ∈ w.db.receipts, (g r).status = .abandoned → r.status ≠ .abandoned →
      w'.db.retired r.owner r.conversationKey = true ∧
        ∀ r' ∈ w.db.receipts, SameConversation r' r → (g r').status.Final)
    (complete : ∀ r ∈ w.db.receipts, (g r).status = .completed → r.status ≠ .completed →
      r.receiptId ∈ w.sent) : Inv w' := by
  have final : ∀ r ∈ w.db.receipts, r.status.Final → (g r).status.Final := fun r hr hf => by
    rw [(hg.moves r hr).final hf]; exact hf
  refine ⟨?_, ?_, ?_, ?_, ?_, ?_, ?_, ?_, ?_, ?_, ?_, ?_, ?_, ?_⟩
  · rw [PrimaryKey, hg.receipts, List.map_map,
      show w.db.receipts.map ((fun r : TurnRecord => r.receiptId) ∘ g) =
        w.db.receipts.map fun r => r.receiptId from
        List.map_congr_left fun r hr => (hg.same r hr).receiptId]
    exact h.unique
  · refine hg.forall.mpr fun r hr => ?_
    rw [(hg.same r hr).receiptId, hu]
    exact h.known r hr
  · refine hg.forall.mpr fun r hr => hg.forall.mpr fun r' hr' hc he => ?_
    rw [(hg.same r hr).conversation (hg.same r' hr')] at hc
    rw [(hg.same r hr).sequence, (hg.same r' hr').sequence] at he
    rw [h.distinct r hr r' hr' hc he]
  · refine hg.forall.mpr fun r hr hq => hg.forall.mpr fun r' hr' he => ?_
    rw [(hg.same r' hr').earlier (hg.same r hr)] at he
    by_cases hq₀ : r.status = .queued
    · exact start r hr hq₀ hq r' hr' he
    · exact final r' hr' (h.settled r hr hq₀ r' hr' he)
  · refine hg.forall.mpr fun r hr ha => ?_
    rw [(hg.same r hr).owner, (hg.same r hr).conversationKey]
    have key : w'.db.retired r.owner r.conversationKey = true ∧
        ∀ r' ∈ w.db.receipts, SameConversation r' r → (g r').status.Final := by
      by_cases ha₀ : r.status = .abandoned
      · obtain ⟨hr₁, hr₂⟩ := h.abandoned r hr ha₀
        exact ⟨hg.retired _ _ hr₁, fun r' hr' hc => final r' hr' (hr₂ r' hr' hc)⟩
      · exact abandon r hr ha ha₀
    exact ⟨key.1, hg.forall.mpr fun r' hr' hc =>
      key.2 r' hr' (((hg.same r' hr').conversation (hg.same r hr)).mp hc)⟩
  · rw [ht, hu]; exact h.drawn
  · rw [ht]; exact h.tokens
  · rw [hu]; exact hc
  · rw [hm]; exact h.marks
  · intro m hm'
    rw [hm] at hm'
    obtain ⟨r, hr, hid, hp, he⟩ := h.marked m hm'
    refine ⟨g r, hg.mem.mpr ⟨r, hr, rfl⟩, (hg.same r hr).receiptId.trans hid,
      (hg.moves r hr).past hp, hg.forall.mpr fun r' hr' he' => ?_⟩
    have hc := he r' hr' (((hg.same r' hr').earlier (hg.same r hr)).mp he')
    exact ((hg.moves r' hr').final (Or.inl hc)).trans hc
  · rw [hs, hm]; exact h.sentMarked
  · rw [hs]; exact h.sentOnce
  · rw [hs]
    refine h.sentOrder.imp fun hij => hg.forall.mpr fun r hr => hg.forall.mpr fun r' hr' => ?_
    rw [(hg.same r hr).conversation (hg.same r' hr'), (hg.same r hr).receiptId,
      (hg.same r' hr').receiptId, (hg.same r hr).sequence, (hg.same r' hr').sequence]
    exact hij r hr r' hr'
  · refine hg.forall.mpr fun r hr hc => ?_
    rw [(hg.same r hr).receiptId, hs]
    by_cases hc₀ : r.status = .completed
    · exact h.completed r hr hc₀
    · exact complete r hr hc hc₀

/-- quiet statements keep the invariant. -/
theorem Inv.quiet (h : Inv w) (hg : Quiet new w.db w'.db g) (hu : w'.uuids = w.uuids)
    (ht : w'.tokens = w.tokens) (hc : ∀ c ∈ w'.claims, c.2 ∈ w.uuids) (hm : w'.marks = w.marks)
    (hs : w'.sent = w.sent) : Inv w' := by
  refine h.rewrite hg.toRewrites hu ht hc hm hs (fun r hr hq hq' => ?_) (fun r hr ha ha' => ?_)
    (fun r hr hc hc' => ?_)
  · exact absurd (hg.queued r hr hq) hq'
  · exact absurd ((hg.ended r hr (Or.inr ha)).symm.trans ha) ha'
  · exact absurd ((hg.ended r hr (Or.inl hc)).symm.trans hc) hc'

/-- what only reads the database, or changes what the timers share, keeps the invariant. -/
theorem Inv.congr (h : Inv w) (hdb : w'.db.receipts = w.db.receipts)
    (hr : w'.db.retirements = w.db.retirements) (hu : w'.uuids = w.uuids)
    (ht : w'.tokens = w.tokens) (hc : w'.claims = w.claims) (hm : w'.marks = w.marks)
    (hs : w'.sent = w.sent) : Inv w' :=
  h.quiet (Quiet.refl none hdb hr) hu ht (hc ▸ h.claims) hm hs

/-- a fresh UUID. -/
theorem Inv.draw (h : Inv w) (id : String) : Inv { w with uuids := id :: w.uuids } :=
  { h with
    known := fun r hr => List.mem_cons_of_mem _ (h.known r hr)
    drawn := fun t ht => List.mem_cons_of_mem _ (h.drawn t ht)
    claims := fun c hc => List.mem_cons_of_mem _ (h.claims c hc) }

/-- a fresh token of thread `κ`. -/
theorem Inv.token (h : Inv w) {κ : ℕ} {token : String} (hf : token ∉ w.uuids) :
    Inv { w with uuids := token :: w.uuids, tokens := (token, κ) :: w.tokens } := by
  refine { h.draw token with drawn := fun t ht => ?_, tokens := ?_ }
  · rcases List.mem_cons.mp ht with rfl | ht
    · exact List.mem_cons_self
    · exact List.mem_cons_of_mem _ (h.drawn t ht)
  · show (token :: w.tokens.map Prod.fst).Nodup
    refine List.nodup_cons.mpr ⟨fun hm => ?_, h.tokens⟩
    obtain ⟨t, ht, e⟩ := List.mem_map.mp hm
    exact hf (e ▸ h.drawn t ht)

/-- **A mark.**  The receipt is past preparation, was not marked before, and has only completed
receipts before it. -/
theorem Inv.mark (h : Inv w) {id token : String} {r : TurnRecord} (hr : r ∈ w.db.receipts)
    (hid : r.receiptId = id) (hp : r.status.Past) (hn : ∀ m ∈ w.marks, m.1 ≠ id)
    (he : ∀ r' ∈ w.db.receipts, Earlier r' r → r'.status = .completed) :
    Inv { w with marks := (id, token) :: w.marks } := by
  refine { h with marks := ?_, marked := fun m hm => ?_, sentMarked := fun i hi => ?_ }
  · show (id :: w.marks.map Prod.fst).Nodup
    refine List.nodup_cons.mpr ⟨fun hm => ?_, h.marks⟩
    obtain ⟨m, hm, e⟩ := List.mem_map.mp hm
    exact hn m hm e
  · rcases List.mem_cons.mp hm with rfl | hm
    · exact ⟨r, hr, hid, hp, he⟩
    · exact h.marked m hm
  · obtain ⟨t, ht⟩ := h.sentMarked i hi
    exact ⟨t, List.mem_cons_of_mem _ ht⟩

/-- **A send.**  A receipt sent before and later in the conversation would make this one completed,
hence sent. -/
theorem Inv.send (h : Inv w) {κ : ℕ} {id token : String} (hm : Marked κ id token w) :
    Inv { w with sent := w.sent ++ [id] } := by
  obtain ⟨hmark, -, hns⟩ := hm
  refine { h with
    sentMarked := fun i hi => ?_, sentOnce := ?_, sentOrder := ?_
    completed := fun r hr hc => List.mem_append_left _ (h.completed r hr hc) }
  · rcases List.mem_append.mp hi with hi | hi
    · exact h.sentMarked i hi
    · obtain rfl : i = id := by simpa using hi
      exact ⟨token, hmark⟩
  · refine List.nodup_append.mpr ⟨h.sentOnce, by simp, fun a ha b hb => ?_⟩
    obtain rfl : b = id := by simpa using hb
    exact fun e => hns (e ▸ ha)
  · refine List.pairwise_append.mpr ⟨h.sentOrder, by simp, fun i hi j hj r hr r' hr' hri hrj hc => ?_⟩
    obtain rfl : j = id := by simpa using hj
    by_contra hlt
    have hne : r.sequence ≠ r'.sequence := fun e => by
      obtain rfl := h.distinct r hr r' hr' hc e
      exact hns (hri.symm.trans hrj ▸ hi)
    obtain ⟨t, ht⟩ := h.sentMarked i hi
    obtain ⟨r₀, hr₀, hid, -, he⟩ := h.marked _ ht
    obtain rfl : r₀ = r := h.unique.eq hr₀ hr (hid.trans hri.symm)
    have hcomp := he r' hr' ⟨hc.symm, by omega⟩
    exact hns (hrj ▸ h.completed r' hr' hcomp)

/-- **A new receipt.**  It comes after the others of its conversation. -/
theorem Inv.append (h : Inv w) (row : TurnRecord) (hid : row.receiptId ∉ w.uuids)
    (hq : row.status = .queued)
    (hlast : ∀ r ∈ w.db.receipts, SameConversation r row → r.sequence < row.sequence)
    (hret : w.db.retired row.owner row.conversationKey = false) :
    Inv { w with uuids := row.receiptId :: w.uuids
                 db := { w.db with receipts := w.db.receipts ++ [row] } } := by
  have hold : ∀ r ∈ w.db.receipts, ¬Earlier row r := fun r hr he => by
    have := hlast r hr he.1.symm
    have := he.2
    omega
  have hmem : ∀ r, r ∈ w.db.receipts ++ [row] ↔ r ∈ w.db.receipts ∨ r = row := by simp
  have hfresh : ∀ r ∈ w.db.receipts, r.receiptId ≠ row.receiptId := fun r hr e =>
    hid (e ▸ h.known r hr)
  refine { h.draw row.receiptId with
    unique := h.unique.append hfresh, known := ?_, distinct := ?_, settled := ?_
    abandoned := ?_, marked := ?_, sentOrder := ?_, completed := ?_ }
  · intro r m
    rcases (hmem r).mp m with hr | rfl
    · exact List.mem_cons_of_mem _ (h.known r hr)
    · exact List.mem_cons_self
  · intro r m r' m' hc he
    rcases (hmem r).mp m with hr | rfl <;> rcases (hmem r').mp m' with hr' | rfl
    · exact h.distinct r hr r' hr' hc he
    · exact absurd he (hlast r hr hc).ne
    · exact absurd he (hlast r' hr' hc.symm).ne'
    · rfl
  · intro r m hnq r' m' he
    rcases (hmem r).mp m with hr | rfl
    · rcases (hmem r').mp m' with hr' | rfl
      · exact h.settled r hr hnq r' hr' he
      · exact absurd he (hold r hr)
    · exact absurd hq hnq
  · intro r m ha
    rcases (hmem r).mp m with hr | rfl
    · obtain ⟨h₁, h₂⟩ := h.abandoned r hr ha
      refine ⟨h₁, fun r' m' hc => ?_⟩
      rcases (hmem r').mp m' with hr' | rfl
      · exact h₂ r' hr' hc
      · rw [hc.1, hc.2, h₁] at hret
        cases hret
    · rw [hq] at ha
      cases ha
  · intro m hm
    obtain ⟨r, hr, hrid, hp, he⟩ := h.marked m hm
    refine ⟨r, (hmem r).mpr (Or.inl hr), hrid, hp, fun r' m' he' => ?_⟩
    rcases (hmem r').mp m' with hr' | rfl
    · exact he r' hr' he'
    · exact absurd he' (hold r hr)
  · refine h.sentOrder.imp_of_mem fun {i j} hi hj hij r m r' m' hri hrj hc => ?_
    have hsent : ∀ i ∈ w.sent, i ≠ row.receiptId := fun i hi e => by
      obtain ⟨t, ht⟩ := h.sentMarked i hi
      obtain ⟨r, hr, hrid, -⟩ := h.marked _ ht
      exact hfresh r hr (hrid.trans e)
    rcases (hmem r).mp m with hr | rfl
    · rcases (hmem r').mp m' with hr' | rfl
      · exact hij r hr r' hr' hri hrj hc
      · exact absurd hrj.symm (hsent j hj)
    · exact absurd hri.symm (hsent i hi)
  · intro r m hc
    rcases (hmem r).mp m with hr | rfl
    · exact h.completed r hr hc
    · rw [hq] at hc
      cases hc

end Preserve

/-! ## one operation -/

/-- What an operation of thread `κ` does to receipts and history: receipts move, or a new one comes
last; a claim token changes to one that was never claimed with; only the drawer of a token claims
with it, and only the marker of a receipt sends it. -/
structure Evolves (κ : ℕ) (w w' : World) : Prop where
  uuids : w.uuids ⊆ w'.uuids
  tokens : w.tokens ⊆ w'.tokens
  claims : w.claims ⊆ w'.claims
  marks : w.marks ⊆ w'.marks
  sent : w.sent ⊆ w'.sent
  claimed : ∀ c ∈ w'.claims, c ∈ w.claims ∨ (c.2, κ) ∈ w.tokens
  sentBy : ∀ id ∈ w'.sent, id ∈ w.sent ∨ ∃ t, (id, t) ∈ w.marks ∧ (t, κ) ∈ w.tokens
  rows : ∀ r' ∈ w'.db.receipts,
    (∃ r ∈ w.db.receipts, SameTurn r r' ∧ Moves r.status r'.status ∧
      (r'.claimToken = r.claimToken ∨ ∀ c ∈ w.claims, r'.claimToken ≠ some c.2)) ∨
    r'.receiptId ∉ w.uuids ∧ r'.claimToken = none ∧
      ∀ r ∈ w.db.receipts, SameConversation r r' → r.sequence < r'.sequence

section Operation
variable {w w' : World} {new : Option String} {g : TurnRecord → TurnRecord} {κ : ℕ}

theorem Evolves.rewrite (hg : Rewrites new w.db w'.db g) (hn : ∀ c ∈ w.claims, new ≠ some c.2)
    (hu : w.uuids ⊆ w'.uuids) (ht : w.tokens ⊆ w'.tokens) (hc : w.claims ⊆ w'.claims)
    (hm : w.marks ⊆ w'.marks) (hs : w.sent ⊆ w'.sent)
    (hc' : ∀ c ∈ w'.claims, c ∈ w.claims ∨ (c.2, κ) ∈ w.tokens)
    (hs' : ∀ id ∈ w'.sent, id ∈ w.sent ∨ ∃ t, (id, t) ∈ w.marks ∧ (t, κ) ∈ w.tokens) :
    Evolves κ w w' where
  uuids := hu
  tokens := ht
  claims := hc
  marks := hm
  sent := hs
  claimed := hc'
  sentBy := hs'
  rows := hg.forall.mpr fun r hr => Or.inl ⟨r, hr, hg.same r hr, hg.moves r hr, by
    rcases hg.token r hr with e | e
    · exact Or.inl e
    · exact Or.inr (e ▸ hn)⟩

/-- a statement that rewrites receipts and leaves no trace in the history. -/
theorem Evolves.statement {db : CompletedTurnStore} (hg : Rewrites none w.db db g) :
    Evolves κ w { w with db := db } :=
  Evolves.rewrite hg (fun _ _ h => by cases h) (fun _ h => h) (fun _ h => h) (fun _ h => h)
    (fun _ h => h) (fun _ h => h) (fun _ h => Or.inl h) (fun _ h => Or.inl h)

/-- the invariant holds afterwards, and the operation did what operations of `κ` do. -/
def Goes (κ : ℕ) (w w' : World) : Prop := Inv w' ∧ Evolves κ w w'

theorem Goes.refl (h : Inv w) : Goes κ w w :=
  ⟨h, Evolves.statement (Quiet.refl none rfl rfl).toRewrites⟩

theorem Goes.same (h : Inv w) (e : w' = w) : Goes κ w w' := by
  subst e
  exact Goes.refl h

theorem Goes.quiet (h : Inv w) {db : CompletedTurnStore} (hg : ∃ g, Quiet none w.db db g) :
    Goes κ w { w with db := db } := by
  obtain ⟨g, hg⟩ := hg
  exact ⟨h.quiet hg rfl rfl h.claims rfl rfl, Evolves.statement hg.toRewrites⟩

/-- the database gets no other receipts or retirements, and the history at most more UUIDs. -/
theorem Goes.timer (h : Inv w) (hr : w'.db.receipts = w.db.receipts)
    (ht : w'.db.retirements = w.db.retirements) (hu : w'.uuids = w.uuids)
    (hk : w'.tokens = w.tokens) (hc : w'.claims = w.claims) (hm : w'.marks = w.marks)
    (hs : w'.sent = w.sent) : Goes κ w w' := by
  refine ⟨h.congr hr ht hu hk hc hm hs, ?_⟩
  exact Evolves.rewrite (Quiet.refl none hr ht).toRewrites (fun _ _ h => by cases h)
    (fun _ h => hu ▸ h) (fun _ h => hk ▸ h) (fun _ h => hc ▸ h) (fun _ h => hm ▸ h)
    (fun _ h => hs ▸ h) (fun _ h => Or.inl (hc ▸ h)) (fun _ h => Or.inl (hs ▸ h))

theorem Goes.enqueue (h : Inv w) {id : String} (hid : id ∉ w.uuids) (owner : String)
    (request : CompletedTurnRequest) (runId stepId : String) :
    Goes κ w { w with uuids := id :: w.uuids
                      db := (w.db.enqueue owner request runId stepId id).2 } := by
  obtain ⟨hr, hrow | ⟨hret, hrow⟩⟩ := enqueue_appends w.db id owner request runId stepId
  · refine ⟨(h.draw id).congr hrow hr rfl rfl rfl rfl rfl, ?_⟩
    exact Evolves.rewrite (Quiet.refl none hrow hr).toRewrites (fun _ _ h => by cases h)
      (List.subset_cons_self _ _) (fun _ h => h) (fun _ h => h) (fun _ h => h) (fun _ h => h)
      (fun _ h => Or.inl h) (fun _ h => Or.inl h)
  · have hlast : ∀ r ∈ w.db.receipts, SameConversation r
        (newReceipt id owner request runId stepId (maximum
          (fun r : TurnRecord => r.owner = owner ∧ r.conversationKey = request.conversationKey)
          (fun r => r.sequence) w.db.receipts + 1)) → r.sequence < maximum
          (fun r : TurnRecord => r.owner = owner ∧ r.conversationKey = request.conversationKey)
          (fun r => r.sequence) w.db.receipts + 1 :=
      fun r hr hc => Nat.lt_succ_of_le (le_maximum hr hc)
    refine ⟨(h.append (newReceipt id owner request runId stepId _) hid rfl hlast hret).congr
      hrow hr rfl rfl rfl rfl rfl, ?_⟩
    refine ⟨List.subset_cons_self _ _, fun _ h => h, fun _ h => h, fun _ h => h, fun _ h => h,
      fun _ h => Or.inl h, fun _ h => Or.inl h, fun r hr' => ?_⟩
    rw [show ({ w with uuids := id :: w.uuids, db := (w.db.enqueue owner request runId stepId id).2 } :
      World).db.receipts = _ from hrow, List.mem_append, List.mem_singleton] at hr'
    rcases hr' with hr' | rfl
    · exact Or.inl ⟨r, hr', SameTurn.refl r, Moves.refl _, Or.inl rfl⟩
    · exact Or.inr ⟨hid, rfl, hlast⟩

theorem Goes.claim (h : Inv w) {id token : String} (hs : Settled id w) (hd : Drawn κ token w)
    (now : ℕ) {claims : List (String × String)}
    (hc : claims = (id, token) :: w.claims ∨ claims = w.claims) :
    Goes κ w { w with db := (w.db.claim id token now).2, claims := claims } := by
  obtain ⟨g, hg, hother, hend⟩ := claim_rewrites w.db id token now
  have hcl : ∀ c ∈ claims, c ∈ w.claims ∨ c = (id, token) := by
    rcases hc with rfl | rfl
    · exact fun c hc => (List.mem_cons.mp hc).symm
    · exact fun c hc => Or.inl hc
  have hsub : w.claims ⊆ claims := by
    rcases hc with rfl | rfl
    · exact List.subset_cons_self _ _
    · exact fun _ h => h
  refine ⟨h.rewrite hg rfl rfl (fun c hc => ?_) rfl rfl (fun r hr hq hq' r' hr' he => ?_)
    (fun r hr ha ha' => ?_) (fun r hr hc hc' => ?_),
    Evolves.rewrite hg (fun c hc e => hd.2 c hc (by simpa using e.symm)) (fun _ h => h)
      (fun _ h => h) hsub (fun _ h => h) (fun _ h => h) (fun c hc => ?_) (fun _ h => Or.inl h)⟩
  · rcases hcl c hc with hc | rfl
    · exact h.claims c hc
    · exact h.drawn _ hd.1
  · have hid : r.receiptId = id := by
      by_contra hne
      exact hq' ((hother r hr hne).trans hq)
    have hf := hs.2 r hr hid r' hr' he
    rw [(hg.moves r' hr').final hf]
    exact hf
  · exact absurd ((hend r hr (Or.inr ha)).symm.trans ha) ha'
  · exact absurd ((hend r hr (Or.inl hc)).symm.trans hc) hc'
  · rcases hcl c hc with hc | rfl
    · exact Or.inl hc
    · exact Or.inr hd.1

theorem Goes.claimAbandonment (h : Inv w) {id token : String} (hd : Drawn κ token w) (now : ℕ)
    {claims : List (String × String)}
    (hc : claims = (id, token) :: w.claims ∨ claims = w.claims) :
    Goes κ w { w with db := (w.db.claimAbandonment id token now).2, claims := claims } := by
  obtain ⟨g, hg⟩ := claimAbandonment_quiet id token h.unique now
  have hcl : ∀ c ∈ claims, c ∈ w.claims ∨ c = (id, token) := by
    rcases hc with rfl | rfl
    · exact fun c hc => (List.mem_cons.mp hc).symm
    · exact fun c hc => Or.inl hc
  have hsub : w.claims ⊆ claims := by
    rcases hc with rfl | rfl
    · exact List.subset_cons_self _ _
    · exact fun _ h => h
  refine ⟨h.quiet hg rfl rfl (fun c hc => ?_) rfl rfl,
    Evolves.rewrite hg.toRewrites (fun c hc e => hd.2 c hc (by simpa using e.symm)) (fun _ h => h)
      (fun _ h => h) hsub (fun _ h => h) (fun _ h => h) (fun c hc => ?_) (fun _ h => Or.inl h)⟩
  · rcases hcl c hc with hc | rfl
    · exact h.claims c hc
    · exact h.drawn _ hd.1
  · rcases hcl c hc with hc | rfl
    · exact Or.inl hc
    · exact Or.inr hd.1

/-- before a receipt that is being prepared there are only completed ones: a conversation with an
abandoned receipt has no other receipts than final ones. -/
theorem Inv.before_preparing (h : Inv w) {r : TurnRecord} (hr : r ∈ w.db.receipts)
    (hp : r.status = .preparing) :
    ∀ r' ∈ w.db.receipts, Earlier r' r → r'.status = .completed := by
  intro r' hr' he
  rcases h.settled r hr (by rw [hp]; decide) r' hr' he with hc | ha
  · exact hc
  · have hf := (h.abandoned r' hr' ha).2 r hr he.1.symm
    rw [hp] at hf
    rcases hf with hf | hf <;> cases hf

/-- what is being prepared was never marked. -/
theorem Inv.unmarked (h : Inv w) {r : TurnRecord} (hr : r ∈ w.db.receipts)
    (hp : r.status = .preparing) : ∀ m ∈ w.marks, m.1 ≠ r.receiptId := by
  intro m hm e
  obtain ⟨r₀, hr₀, hid, hp₀, -⟩ := h.marked m hm
  obtain rfl : r₀ = r := h.unique.eq hr₀ hr (hid.trans e)
  exact hp₀.2 hp

/-- `sending` succeeds on a receipt that is being prepared only. -/
theorem sending_ok_iff {db : CompletedTurnStore} {id token : String} {nativeId : Option String}
    {checkpoint now : ℕ} : (db.sending id token nativeId checkpoint now).1 = .ok () ↔
      changes (fun r => ClaimedBy id token r ∧ r.status = .preparing) db.receipts = 1 := by
  show (if _ then Except.ok () else Except.error _) = Except.ok () ↔ _
  split <;> simpa

theorem Goes.sending (h : Inv w) {id token : String} (nativeId : Option String)
    (checkpoint now : ℕ) : Goes κ w
      { w with db := (w.db.sending id token nativeId checkpoint now).2
               marks := match (w.db.sending id token nativeId checkpoint now).1 with
                 | .ok () => (id, token) :: w.marks
                 | .error _ => w.marks } := by
  obtain ⟨g, hg⟩ := sending_quiet w.db id token nativeId checkpoint now
  have hq : Goes κ w { w with db := (w.db.sending id token nativeId checkpoint now).2 } :=
    Goes.quiet h ⟨g, hg⟩
  cases hx : (w.db.sending id token nativeId checkpoint now).1 with
  | error e => exact hq
  | ok u =>
    have hch := sending_ok_iff.mp hx
    obtain ⟨r, hr, hcl, hp⟩ := changes_pos.mp (by rw [hch]; exact Nat.one_pos)
    -- `r'` is the row of `r` after the mark
    let r' : TurnRecord := { r with
      status := .sending, nativeSessionId := nativeId, checkpoint := some checkpoint
      senderToken := some token, senderLeaseUntil := now + 120000 }
    have hsame : SameTurn r r' := ⟨rfl, rfl, rfl, rfl⟩
    refine ⟨hq.1.mark (r := r') (mem_update.mpr ⟨r, hr, if_pos ⟨hcl, hp⟩⟩) hcl.1
      (by constructor <;> simp [r']) (hcl.1 ▸ h.unmarked hr hp) ?_,
      { hq.2 with marks := List.subset_cons_self _ _ }⟩
    refine hg.forall.mpr fun x hx he => ?_
    have hc := h.before_preparing hr hp x hx (((hg.same x hx).earlier hsame).mp he)
    exact ((hg.moves x hx).final (Or.inl hc)).trans hc

theorem Goes.complete (h : Inv w) {id token : String} (hs : Sent id w) (reply nativeId : String)
    (output : Option Value) :
    Goes κ w { w with db := (w.db.complete id token reply nativeId output).2 } := by
  obtain ⟨g, hg, hst⟩ := complete_rewrites w.db id token reply nativeId
    output
  refine ⟨h.rewrite hg rfl rfl h.claims rfl rfl (fun r hr hq hq' => ?_) (fun r hr ha ha' => ?_)
    (fun r hr hc hc' => ?_), Evolves.statement hg⟩ <;> rcases hst r hr with e | ⟨hid, hp, e⟩
  · exact absurd (e.trans hq) hq'
  · exact absurd hq hp.1
  · exact absurd (e.symm.trans ha) ha'
  · rw [e] at ha
    cases ha
  · exact absurd (e.symm.trans hc) hc'
  · exact hid ▸ hs

theorem Goes.abandon (h : Inv w) {id token : String} (evidence : Value) :
    Goes κ w { w with db := (w.db.abandon id token evidence).2 } := by
  obtain ⟨g, hg, hst⟩ := abandon_rewrites w.db id token evidence
  rcases hst with hst | ⟨row, hrow, hret, hst⟩
  · exact Goes.quiet h ⟨g, ⟨hg, fun r hr hq => (hst r hr).trans hq, fun r hr _ => hst r hr⟩⟩
  refine ⟨h.rewrite hg rfl rfl h.claims rfl rfl (fun r hr hq hq' r' hr' he => ?_)
    (fun r hr ha ha' => ?_) (fun r hr hc hc' => ?_), Evolves.statement hg⟩
  · rcases (hst r hr).2 with e | ⟨hc, -⟩
    · exact absurd (e.trans hq) hq'
    · exact (hst r' hr').1 (he.1.trans hc)
  · rcases (hst r hr).2 with e | ⟨hc, -⟩
    · exact absurd (e.symm.trans ha) ha'
    · exact ⟨hc.1 ▸ hc.2 ▸ hret, fun r' hr' hc' => (hst r' hr').1 (hc'.trans hc)⟩
  · rcases (hst r hr).2 with e | ⟨-, e⟩
    · exact absurd (e.symm.trans hc) hc'
    · rw [e] at hc
      cases hc

theorem Goes.send (h : Inv w) {id token : String} (hm : Marked κ id token w) :
    Goes κ w { w with sent := w.sent ++ [id] } := by
  have hs := h.send hm
  obtain ⟨hmark, hown, -⟩ := hm
  refine ⟨hs, { (Goes.refl (κ := κ) h).2 with
    sent := List.subset_append_left _ _, sentBy := fun i hi => ?_ }⟩
  rcases List.mem_append.mp hi with hi | hi
  · exact Or.inl hi
  · obtain rfl : i = id := by simpa using hi
    exact Or.inr ⟨token, hmark, hown⟩

theorem Goes.token (h : Inv w) {token : String} (hf : token ∉ w.uuids) :
    Goes κ w { w with uuids := token :: w.uuids, tokens := (token, κ) :: w.tokens } :=
  ⟨h.token hf, { (Goes.refl (κ := κ) h).2 with
    uuids := List.subset_cons_self _ _, tokens := List.subset_cons_self _ _ }⟩

/-- **A permitted operation keeps the invariant and does what operations of its thread do.** -/
theorem perform_goes (rt : TurnRuntime) {o : TurnOp} {r : o.Ans} (h : Inv w) (hm : may κ o w)
    (ho : perform rt κ o w r w') : Goes κ w w' := by
  cases o with
  | park => exact ho.elim
  | randomUUID =>
    obtain ⟨hf, rfl⟩ := ho
    exact Goes.token h hf
  | enqueue owner request runId stepId =>
    obtain ⟨id, hid, -, rfl⟩ := ho
    exact Goes.enqueue h hid owner request runId stepId
  | claim id token =>
    obtain ⟨now, -, rfl⟩ := ho
    refine Goes.claim h hm.1 hm.2 now ?_
    split
    · exact Or.inl rfl
    · exact Or.inr rfl
  | renew id token =>
    obtain ⟨now, -, rfl⟩ := ho
    obtain ⟨g, hg⟩ := renew_quiet w.db id token now
    exact Goes.quiet h ⟨g, hg⟩
  | bind id token executionId sessionId =>
    obtain ⟨-, rfl⟩ := ho
    exact Goes.quiet h (bind_quiet executionId sessionId)
  | sending id token nativeId checkpoint =>
    obtain ⟨now, -, rfl⟩ := ho
    exact Goes.sending h nativeId checkpoint now
  | uncertain id token error =>
    obtain rfl := ho
    exact Goes.quiet h (uncertain_quiet error)
  | claimAbandonment id token =>
    obtain ⟨now, -, rfl⟩ := ho
    refine Goes.claimAbandonment h hm now ?_
    split
    · exact Or.inl rfl
    · exact Or.inr rfl
  | abandon id token evidence =>
    obtain ⟨-, rfl⟩ := ho
    exact Goes.abandon h evidence
  | complete id token reply nativeId output =>
    obtain ⟨-, rfl⟩ := ho
    exact Goes.complete h hm reply nativeId output
  | recoverMissingPreparation owner request =>
    obtain ⟨-, rfl⟩ := ho
    exact Goes.quiet h (recoverMissingPreparation_quiet h.unique owner request)
  | refreshActiveSenderForSession sessionId =>
    obtain ⟨now, -, rfl⟩ := ho
    exact Goes.quiet h (refreshActiveSender_quiet sessionId now)
  | beginDeletion owner request =>
    obtain ⟨id, -, -, rfl⟩ := ho
    obtain ⟨g, hg⟩ := beginDeletion_quiet w.db id owner request
    exact ⟨(h.draw id).quiet hg rfl rfl (h.draw id).claims rfl rfl,
      Evolves.rewrite hg.toRewrites (fun _ _ h => by cases h) (List.subset_cons_self _ _)
        (fun _ h => h) (fun _ h => h) (fun _ h => h) (fun _ h => h) (fun _ h => Or.inl h)
        (fun _ h => Or.inl h)⟩
  | finishDeletion owner key receipt =>
    obtain rfl := ho
    exact Goes.quiet h ⟨_, Quiet.refl _ rfl rfl⟩
  | send id executionId prompt =>
    obtain rfl := ho
    obtain ⟨token, hmark⟩ := hm
    exact Goes.send h hmark
  | setInterval id token => exact Goes.timer h (ho ▸ rfl) (ho ▸ rfl) (ho ▸ rfl) (ho ▸ rfl) (ho ▸ rfl) (ho ▸ rfl) (ho ▸ rfl)
  | clearInterval id token => exact Goes.timer h (ho ▸ rfl) (ho ▸ rfl) (ho ▸ rfl) (ho ▸ rfl) (ho ▸ rfl) (ho ▸ rfl) (ho ▸ rfl)
  | setLeaseError token error => exact Goes.timer h (ho ▸ rfl) (ho ▸ rfl) (ho ▸ rfl) (ho ▸ rfl) (ho ▸ rfl) (ho ▸ rfl) (ho ▸ rfl)
  | get id => exact Goes.same h ho.2
  | head owner key => exact Goes.same h ho.2
  | request owner requestId => exact Goes.same h ho.2
  | binding owner key => exact Goes.same h ho.2
  | leaseError token => exact Goes.same h ho.2
  | recover row => exact Goes.same h ho.1
  | authorize request owner => exact Goes.same h ho
  | prepare binding request recovering => exact Goes.same h ho
  | ready executionId => exact Goes.same h ho
  | checkpoint executionId => exact Goes.same h ho
  | runtimeAbandon row => exact Goes.same h ho
  | onSession row sessionId executionId => exact Goes.same h ho
  | onTurn row => exact Goes.same h ho

end Operation

/-! ## what survives the operations of others -/

/-- the system with its invariant and permissions. -/
def delivery (rt : TurnRuntime) : Discipline api World :=
  { system rt with Inv := Inv, may := may }

/-- an assertion that no operation of any thread destroys. -/
def Persistent (P : World → Prop) : Prop :=
  ∀ κ w w', Inv w → Evolves κ w w' → P w → P w'

/-- thread `κ` drew `token`. -/
def Owns (κ : ℕ) (token : String) (w : World) : Prop := (token, κ) ∈ w.tokens

theorem persistent_any : Persistent Any := fun _ _ _ _ _ _ => trivial

theorem persistent_owns (κ : ℕ) (token : String) : Persistent (Owns κ token) :=
  fun _ _ _ _ he h => he.tokens h

theorem persistent_sent (id : String) : Persistent (Sent id) := fun _ _ _ _ he h => he.sent h

/-- **Nothing is ever inserted before a receipt, and what is final stays final.** -/
theorem persistent_settled (id : String) : Persistent (Settled id) := by
  intro κ w w' hi he ⟨hid, hs⟩
  refine ⟨he.uuids hid, fun r hr hrid r' hr' hlt => ?_⟩
  rcases he.rows r hr with ⟨r₀, hr₀, hst, -⟩ | ⟨hnew, -⟩
  · rcases he.rows r' hr' with ⟨r₀', hr₀', hst', hmv, -⟩ | ⟨-, -, hlast⟩
    · have hf := hs r₀ hr₀ (hst.receiptId.symm.trans hrid) r₀' hr₀' ((hst'.earlier hst).mp hlt)
      rw [hmv.final hf]
      exact hf
    · have hc : SameConversation r₀ r' :=
        (hst.conversation (SameTurn.refl r')).mp hlt.1.symm
      have := hlast r₀ hr₀ hc
      have := hlt.2
      rw [hst.sequence] at this
      omega
  · exact absurd (hrid ▸ hid) hnew

section Stable
variable {rt : TurnRuntime} {κ : ℕ} {id token : String}

theorem other_evolves {w w' : World} (h : Other (delivery rt) κ w w') :
    Inv w ∧ ∃ κ', κ' ≠ κ ∧ Evolves κ' w w' := by
  obtain ⟨κ', o, r, hne, hi, hm, ho⟩ := h
  exact ⟨hi, κ', hne, (perform_goes rt hi hm ho).2⟩

theorem Persistent.stable {P : World → Prop} (h : Persistent P) : Stable (delivery rt) κ P := by
  intro w w' hp ho
  obtain ⟨hi, κ', -, he⟩ := other_evolves ho
  exact h κ' w w' hi he hp

/-- two threads do not own one token. -/
theorem Inv.owner {w : World} (h : Inv w) {κ κ' : ℕ} (h₁ : Owns κ token w) (h₂ : Owns κ' token w) :
    κ = κ' := congrArg Prod.snd (h.tokens.eq h₁ h₂ rfl)

theorem stable_drawn : Stable (delivery rt) κ (Drawn κ token) := by
  intro w w' ⟨hown, hcl⟩ ho
  obtain ⟨hi, κ', hne, he⟩ := other_evolves ho
  refine ⟨he.tokens hown, fun c hc e => ?_⟩
  rcases he.claimed c hc with hc | hc
  · exact hcl c hc e
  · exact hne (hi.owner (e ▸ hc) hown)

theorem stable_marked : Stable (delivery rt) κ (Marked κ id token) := by
  intro w w' ⟨hm, hown, hns⟩ ho
  obtain ⟨hi, κ', hne, he⟩ := other_evolves ho
  refine ⟨he.marks hm, he.tokens hown, fun hs => ?_⟩
  rcases he.sentBy id hs with hs | ⟨t, ht, hown'⟩
  · exact hns hs
  · obtain rfl : t = token := congrArg Prod.snd (hi.marks.eq ht hm rfl)
    exact hne (hi.owner hown' hown)

end Stable

/-! ## the programs -/

section Programs
variable {rt : TurnRuntime} {κ : ℕ} {α : Type} {P : World → Prop}

/-- an operation through which a persistent assertion is carried. -/
theorem keep_op (hP : Persistent P) {o : TurnOp} (hmay : ∀ w, P w → may κ o w) :
    Triple (delivery rt) κ P (op o) (fun _ => P) Any₂ :=
  Triple.op hP.stable (fun w _ hp => hmay w hp) fun w r w' hi hp ho _ =>
    hP κ w w' hi (perform_goes rt hi (hmay w hp) ho).2 hp

theorem keep_tryOp (hP : Persistent P) {o : TurnOp} {h : o.Ans = Except String α}
    (hmay : ∀ w, P w → may κ o w) :
    Triple (delivery rt) κ P (tryOp o h : Turn α) (fun _ => P) Any₂ :=
  Triple.tryOp hP.stable (fun w _ hp => hmay w hp)
    (fun w r w' _ hi hp ho _ _ => hP κ w w' hi (perform_goes rt hi (hmay w hp) ho).2 hp)
    (fun _ _ _ _ _ _ _ _ _ => trivial)

theorem nonNull_ok (a : Option α) : Triple (delivery rt) κ P (nonNull a) (fun _ => P) Any₂ := by
  cases a with
  | none => exact Triple.throw fun _ _ _ => trivial
  | some a => exact Triple.pure fun _ _ h => h

theorem checkLease_ok (hP : Persistent P) (token : String) :
    Triple (delivery rt) κ P (checkLease token) (fun _ => P) Any₂ := by
  refine Triple.bind (keep_op hP fun _ _ => trivial) fun leaseError => ?_
  cases leaseError with
  | none => exact Triple.pure fun _ _ h => h
  | some error => exact Triple.throw fun _ _ _ => trivial

theorem targetReceipt_ok (targetId : String) :
    Triple (delivery rt) κ Any (targetReceipt targetId) Any₂ Any₂ := by
  refine Triple.bind (keep_op persistent_any fun _ _ => trivial) fun found => ?_
  exact Triple.bind (nonNull_ok found) fun row => Triple.pure fun _ _ _ => trivial

/-- a completion, after the send. -/
theorem complete_ok (id token reply nativeId : String) (output : Option Value) :
    Triple (delivery rt) κ (Sent id) (tryOp (.complete id token reply nativeId output) : Turn Unit)
      Any₂ Any₂ :=
  (keep_tryOp (persistent_sent id) (o := .complete id token reply nativeId output)
    fun _ h => h).any

/-- **Recovery completes a turn only from evidence that it was sent.** -/
theorem recoverTurn_ok (head : TurnRecord) (token : String) :
    Triple (delivery rt) κ Any (recoverTurn head token) Any₂ Any₂ := by
  refine Triple.bind (keep_op persistent_any fun _ _ => trivial) fun _ => ?_
  refine Triple.bind (R := fun evidence w => evidence.isSome → Sent head.receiptId w)
    (Triple.tryOp persistent_any.stable (fun _ _ _ => trivial) (fun w r w' a hi _ ho _ hr => ?_)
      (fun _ _ _ _ _ _ _ _ _ => trivial)) fun evidence => ?_
  · cases a with
    | none => exact fun h => by cases h
    | some e =>
      obtain ⟨rfl, hrec⟩ := ho
      exact fun _ => rt.recovers_sent _ _ _ (hrec e hr)
  · cases evidence with
    | none => exact Triple.throw fun _ _ _ => trivial
    | some e => exact (complete_ok _ _ _ _ _).pre fun _ _ h => h rfl

/-- the mark: afterwards the receipt is this thread's to send. -/
theorem sending_ok (id token : String) (nativeId : Option String) (checkpoint : ℕ) :
    Triple (delivery rt) κ (Owns κ token)
      (tryOp (.sending id token nativeId checkpoint) : Turn Unit)
      (fun _ => Marked κ id token) Any₂ := by
  refine Triple.tryOp (persistent_owns κ token).stable (fun _ _ _ => trivial)
    (fun w r w' a hi hown ho _ hr => ?_) (fun _ _ _ _ _ _ _ _ _ => trivial)
  obtain ⟨now, e, rfl⟩ := ho
  have hx : (w.db.sending id token nativeId checkpoint now).1 = .ok () := e.symm.trans hr
  obtain ⟨row, hrow, hcl, hp⟩ := changes_pos.mp
    (show 0 < changes _ w.db.receipts by rw [sending_ok_iff.mp hx]; exact Nat.one_pos)
  refine ⟨?_, hown, fun hs => ?_⟩
  · simp only [hx]
    exact List.mem_cons_self
  · obtain ⟨t, ht⟩ := hi.sentMarked id hs
    exact hi.unmarked hrow hp _ ht hcl.1.symm

/-- **A turn is sent by the thread that marked it.** -/
theorem deliverTurn_ok (owner : String) (request : CompletedTurnRequest) (head : TurnRecord)
    (token : String) :
    Triple (delivery rt) κ (Owns κ token) (deliverTurn owner request head token) Any₂ Any₂ := by
  have hown := persistent_owns κ token
  have hsent := persistent_sent head.receiptId
  refine Triple.bind (keep_op hown fun _ _ => trivial) fun found => ?_
  refine Triple.bind (nonNull_ok found) fun binding => ?_
  refine Triple.bind (keep_tryOp hown fun _ _ => trivial) fun prepared => ?_
  refine Triple.bind (keep_tryOp hown fun _ _ => trivial) fun _ => ?_
  refine Triple.bind (keep_tryOp hown fun _ _ => trivial) fun _ => ?_
  refine Triple.bind (keep_tryOp hown fun _ _ => trivial) fun _ => ?_
  refine Triple.bind (keep_tryOp hown fun _ _ => trivial) fun checkpoint => ?_
  refine Triple.bind (checkLease_ok hown token) fun _ => ?_
  refine Triple.bind (keep_tryOp hown fun _ _ => trivial) fun _ => ?_
  refine Triple.bind (sending_ok _ _ _ _) fun _ => ?_
  -- the row is read again for the observer: nothing of the mark changes
  refine Triple.bind (R := fun _ => Marked κ head.receiptId token)
    (Triple.op stable_marked (fun _ _ _ => trivial) fun w r w' _ h ho _ => ho.2 ▸ h) fun row => ?_
  refine Triple.bind (R := fun _ => Marked κ head.receiptId token)
    (Triple.op stable_marked (fun _ _ _ => trivial) fun w r w' _ h ho _ => ?_) fun _ => ?_
  · obtain rfl : w' = w := ho
    exact h
  refine Triple.bind (R := fun _ => Sent head.receiptId)
    (Triple.tryOp stable_marked (fun _ _ h => ⟨token, h⟩) (fun w r w' _ _ _ ho _ _ => ?_)
      (fun _ _ _ _ _ _ _ _ _ => trivial)) fun completed => ?_
  · obtain rfl := ho
    exact List.mem_append_right _ (List.mem_singleton.mpr rfl)
  refine Triple.bind (checkLease_ok hsent token) fun _ => ?_
  exact Triple.ite (fun _ => Triple.throw_bind fun _ _ _ => trivial) fun _ =>
    complete_ok _ _ _ _ _

/-- a token just drawn. -/
theorem randomUUID_ok (hP : Persistent P) : Triple (delivery rt) κ P
    (op .randomUUID : Turn String) (fun token w => P w ∧ Drawn κ token w) Any₂ := by
  refine Triple.op hP.stable (fun _ _ _ => trivial) fun w r w' hi hp ho _ => ?_
  have he := (perform_goes rt (o := .randomUUID) hi trivial ho).2
  obtain ⟨hf, rfl⟩ := ho
  exact ⟨hP κ _ _ hi he hp, List.mem_cons_self, fun c hc e => hf (e ▸ hi.claims c hc)⟩

theorem clearInterval_ok (id token : String) :
    Triple (delivery rt) κ Any (op (.clearInterval id token) : Turn Unit) Any₂ Any₂ :=
  keep_op persistent_any (o := .clearInterval id token) fun _ _ => trivial

/-- **A round of the loop claims the head under a token of its own.** -/
theorem drainHead_ok (owner : String) (request : CompletedTurnRequest) (targetId : String)
    (head : TurnRecord) :
    Triple (delivery rt) κ (Settled head.receiptId) (drainHead owner request targetId head)
      Any₂ Any₂ := by
  refine Triple.bind (randomUUID_ok (persistent_settled _)) fun token => ?_
  refine Triple.bind (R := fun _ => Owns κ token)
    (Triple.op ((persistent_settled _).stable.and stable_drawn) (fun _ _ h => h)
      fun w r w' hi h ho _ => (perform_goes rt (o := .claim _ _) hi h ho).2.tokens h.2.1)
    fun claimed => ?_
  refine Triple.ite (fun _ => ?_) fun _ => ?_
  · refine Triple.bind (Triple.pre (targetReceipt_ok targetId) fun _ _ _ => trivial) fun receipt => ?_
    exact Triple.pure fun _ _ _ => trivial
  refine Triple.bind (keep_op (persistent_owns κ token) fun _ _ => trivial) fun _ => ?_
  refine Triple.andFinally (R := Any₂) (F := Any₂)
    (Triple.tryCatch (R := Any₂) ?_ fun error => ?_)
    (fun _ => clearInterval_ok _ _) (fun _ => clearInterval_ok _ _)
  · refine Triple.ite (fun _ => ?_) fun _ => ?_
    · refine Triple.bind ((recoverTurn_ok head token).pre fun _ _ _ => trivial) fun _ => ?_
      exact Triple.pure fun _ _ _ => trivial
    · refine Triple.bind (deliverTurn_ok owner request head token) fun _ => ?_
      exact Triple.pure fun _ _ _ => trivial
  · refine Triple.bind (keep_op persistent_any fun _ _ => trivial) fun _ => ?_
    exact Triple.bind (targetReceipt_ok targetId) fun _ => Triple.pure fun _ _ _ => trivial

theorem drain_ok (owner : String) (request : CompletedTurnRequest) (targetId : String) (fuel : ℕ) :
    Triple (delivery rt) κ Any (drain owner request targetId fuel) Any₂ Any₂ := by
  induction fuel with
  | zero =>
    exact Triple.bind (keep_op persistent_any fun _ _ => trivial) fun _ =>
      Triple.throw fun _ _ _ => trivial
  | succ fuel ih =>
    refine Triple.bind (keep_op persistent_any fun _ _ => trivial) fun found => ?_
    refine Triple.bind (nonNull_ok found) fun target => ?_
    refine Triple.ite (fun _ => targetReceipt_ok targetId) fun _ => ?_
    -- the head that is read has only final receipts before it, and keeps them
    refine Triple.bind (R := fun found w => ∀ head ∈ found, Settled head.receiptId w)
      (Triple.op persistent_any.stable (fun _ _ _ => trivial) fun w r w' hi _ ho _ => ?_)
      fun found => ?_
    · obtain ⟨rfl, rfl⟩ := ho
      intro head hh
      obtain ⟨hr, he⟩ := head_spec hh
      exact ⟨hi.known head hr, fun r hr' hid => hi.unique.eq hr' hr hid ▸ he⟩
    refine Triple.bind (R := fun head w => Settled head.receiptId w) ?_ fun head => ?_
    · cases found with
      | none => exact Triple.throw fun _ _ _ => trivial
      | some head => exact Triple.pure fun _ _ h => h head rfl
    · refine Triple.bind (drainHead_ok owner request targetId head) fun result => ?_
      cases result with
      | none => exact ih
      | some receipt => exact Triple.pure fun _ _ _ => trivial

theorem execute_ok (fuel : ℕ) (input : ExecuteInput) :
    Triple (delivery rt) κ Any (executeCompletedTurn fuel input) Any₂ Any₂ := by
  refine Triple.ite (fun _ => Triple.throw_bind fun _ _ _ => trivial) fun _ => ?_
  refine Triple.bind (keep_tryOp persistent_any fun _ _ => trivial) fun _ => ?_
  refine Triple.bind (keep_tryOp persistent_any fun _ _ => trivial) fun target => ?_
  exact drain_ok _ _ _ _

theorem stopTurn_ok (row : TurnRecord) (token : String) :
    Triple (delivery rt) κ Any (stopTurn row token) Any₂ Any₂ := by
  refine Triple.bind (keep_tryOp persistent_any fun _ _ => trivial) fun evidence => ?_
  refine Triple.bind (checkLease_ok persistent_any token) fun _ => ?_
  refine Triple.bind (keep_tryOp persistent_any fun _ _ => trivial) fun _ => ?_
  refine Triple.bind (keep_tryOp persistent_any fun _ _ => trivial) fun _ => ?_
  exact targetReceipt_ok _

/-- **An abandonment claims under a token of its own.** -/
theorem abandon_ok (runtimeAbandons : Bool) (owner : String) (request : CompletedTurnRequest) :
    Triple (delivery rt) κ Any (abandonCompletedTurn runtimeAbandons owner request) Any₂ Any₂ := by
  refine Triple.ite (fun _ => Triple.throw_bind fun _ _ _ => trivial) fun _ => ?_
  refine Triple.bind (keep_op persistent_any fun _ _ => trivial) fun found => ?_
  cases found with
  | none => exact Triple.throw fun _ _ _ => trivial
  | some row =>
    refine Triple.ite (fun _ => Triple.throw_bind fun _ _ _ => trivial) fun _ => ?_
    refine Triple.bind (keep_tryOp persistent_any fun _ _ => trivial) fun _ => ?_
    refine Triple.ite (fun _ => Triple.pure fun _ _ _ => trivial) fun _ => ?_
    refine Triple.bind (keep_op persistent_any fun _ _ => trivial) fun head => ?_
    refine Triple.ite (fun _ => Triple.throw_bind fun _ _ _ => trivial) fun _ => ?_
    refine Triple.bind (randomUUID_ok persistent_any) fun token => ?_
    refine Triple.bind (R := Any₂)
      (Triple.tryOp (persistent_any.stable.and stable_drawn) (fun _ _ h => h.2)
        (fun _ _ _ _ _ _ _ _ _ => trivial) (fun _ _ _ _ _ _ _ _ _ => trivial)) fun claimed => ?_
    refine Triple.ite (fun _ => Triple.throw_bind fun _ _ _ => trivial) fun _ => ?_
    refine Triple.bind (keep_op persistent_any fun _ _ => trivial) fun _ => ?_
    refine Triple.andFinally (R := Any₂) (F := Any₂)
      (Triple.tryCatch (R := Any₂) (stopTurn_ok row token) fun error => ?_)
      (fun _ => clearInterval_ok _ _) (fun _ => clearInterval_ok _ _)
    refine Triple.bind (keep_op persistent_any fun _ _ => trivial) fun _ => ?_
    exact Triple.throw fun _ _ _ => trivial

theorem heartbeat_ok (id token : String) :
    Triple (delivery rt) κ Any (heartbeat id token) Any₂ Any₂ :=
  Triple.tryCatch (keep_tryOp persistent_any fun _ _ => trivial) fun _ =>
    keep_op persistent_any fun _ _ => trivial

end Programs

/-! ## the discipline is kept -/

theorem spawn_ok {rt : TurnRuntime} {κ : ℕ} {p : Prog api Unit} {w : World} (h : Inv w)
    (hp : Spawn w p) : wp (delivery rt) κ p (fun _ _ => True) w := by
  cases hp with
  | execute fuel input => exact (execute_ok fuel input).detach h
  | abandon runtimeAbandons owner request =>
    exact (abandon_ok runtimeAbandons owner request).detach h
  | tick id token _ => exact (heartbeat_ok id token).detach h
  | recover owner request =>
    refine Triple.detach (keep_tryOp persistent_any ?_) h
    exact fun _ _ => trivial
  | refresh sessionId =>
    refine Triple.detach (keep_op persistent_any ?_) h
    exact fun _ _ => trivial
  | beginDeletion owner request =>
    refine Triple.detach (keep_tryOp persistent_any ?_) h
    exact fun _ _ => trivial
  | finishDeletion owner key receipt =>
    refine Triple.detach (keep_op persistent_any ?_) h
    exact fun _ _ => trivial

/-- **The executors keep the discipline.** -/
theorem delivery_keeps (rt : TurnRuntime) : (delivery rt).Keeps where
  perform hi hm ho := (perform_goes rt hi hm ho).1
  crash hi hc := by
    obtain rfl := hc
    exact hi.congr rfl rfl rfl rfl rfl rfl rfl
  spawn hi hp := spawn_ok hi hp

theorem Inv.initial {w : World} (h : w.Initial) : Inv w := by
  obtain rfl := h
  constructor <;> simp [PrimaryKey]

end CompletedTurn
end WmAutopilot
