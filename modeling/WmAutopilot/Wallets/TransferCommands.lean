import Mathlib.Data.List.Perm.Basic
import WmAutopilot.Wallets.TransferInvariants

/-!
# The commands on wallets

* `tryOp_holds`, `save_holds`             one operation on a locked wallet;
* `tieSend_triple`, `tieReceive_triple`   a row is tied to a send that was prepared for it and to a
                                          receive of its proofs;
* `withWallet_triple`                     a wallet is used under its lock;
* `processes_keeps`                       **every command keeps the invariant**, among any number of
                                          others.
-/

set_option autoImplicit false
set_option linter.unusedVariables false

namespace WmAutopilot
namespace Wallets
open Js Async Sql

section
variable {host : Host} {units : String → String} {κ : ℕ} {ns : List String} {a n : String}
  {α : Type} {P Q : WalletMap → Prop}

/-! ## operations under locks -/

/-- **An operation that saves no row**, on a locked wallet. -/
theorem tryOp_holds {o : WalletOp} {he : o.Ans = Except Thrown α} (F : α → WalletMap → Prop)
    (hP : Durable ns P) (hown : ∀ n, o.wallet = some n → n ∈ ns) (hs : o.saves = false)
    (hl : o.keepsLocks = true)
    (hF : ∀ w r w' x, Inv w → P w.wallets → Attributed o w → perform units κ o w r w' →
      he ▸ r = Except.ok x → F x w'.wallets) :
    Triple (processes host units) κ (Holds κ ns P) (tryOp o he)
      (fun x => Holds κ ns fun W => P W ∧ F x W) (fun _ => Locked κ ns) := by
  have hgoes : ∀ w r w', Inv w → Holds κ ns P w → perform units κ o w r w' →
      (∀ n ∈ ns, w'.locks n = some κ) ∧ P w'.wallets := by
    rintro w r w' hi ⟨hlocks, hp⟩ ho
    obtain ⟨hg, hj⟩ := perform_goes hi hs ho
    exact ⟨fun n hn => by rw [perform_locks hl ho]; exact hlocks n hn,
      hP.persists _ _ hg.kept hj hp⟩
  refine Triple.tryOp (stable_holds hP) (fun w _ h => ⟨fun n hn => h.1 n (hown n hn), ?_⟩)
    (fun w r w' x hi h ho _ hx => ?_) fun w r w' e hi h ho _ _ => ?_
  · rintro m row rfl
    cases hs
  · obtain ⟨hlocks, hp⟩ := hgoes w r w' hi h ho.2
    exact ⟨hlocks, hp, hF w r w' x hi h.2 ho.1 ho.2 hx⟩
  · exact ⟨(hgoes w r w' hi h ho.2).1, trivial⟩

/-- an operation of which the answer says nothing. -/
theorem tryOp_keeps {o : WalletOp} {he : o.Ans = Except Thrown α} (hP : Durable ns P)
    (hown : ∀ n, o.wallet = some n → n ∈ ns) (hs : o.saves = false) (hl : o.keepsLocks = true) :
    Triple (processes host units) κ (Holds κ ns P) (tryOp o he)
      (fun _ => Holds κ ns P) (fun _ => Locked κ ns) :=
  (tryOp_holds (fun _ _ => True) hP hown hs hl fun _ _ _ _ _ _ _ _ _ => trivial).post
    (fun _ _ _ h => ⟨h.1, h.2.1⟩) fun _ _ _ h => h

/-- what does not wait. -/
theorem now_holds {x : Except Thrown α} : Triple (processes host units) κ (Holds κ ns P) (now x)
    (fun a => Holds κ ns fun W => P W ∧ x = .ok a) (fun _ => Locked κ ns) := by
  intro w hi h
  cases x with
  | ok a => exact ⟨hi, h.1, h.2, rfl⟩
  | error e => exact ⟨hi, h.1, trivial⟩

theorem refuse_holds {message : String} {R : α → World → Prop} :
    Triple (processes host units) κ (Holds κ ns P) (now (inputError message)) R
      (fun _ => Locked κ ns) := fun w hi h => ⟨hi, h.1, trivial⟩

theorem pure_holds {x : α} {F : α → WalletMap → Prop} (h : ∀ W, P W → F x W) :
    Triple (processes host units) κ (Holds κ ns P) (pure x : Exc api Thrown α)
      (fun x => Holds κ ns (F x)) (fun _ => Locked κ ns) :=
  Triple.pure fun w _ hw => ⟨hw.1, h _ hw.2⟩

/-- **A row is saved** where the invariant lets it, and what is known of the operations stays. -/
theorem save_holds {row : Transfer} (hP : Durable ns P) (ha : a ∈ ns)
    (hsaves : ∀ w, Inv w → P w.wallets → Saves w.wallets a row)
    (hQ : ∀ W u, (∀ n, (Function.update W a u n).sends = (W n).sends) →
      (∀ n, (Function.update W a u n).receives = (W n).receives) → row ∈ u.journal → P W →
        Q (Function.update W a u)) :
    Triple (processes host units) κ (Holds κ ns P) (tryOp (.saveTransfer a row) rfl)
      (fun _ => Holds κ ns Q) (fun _ => Locked κ ns) := by
  refine Triple.tryOp (stable_holds hP) (fun w hi h => ⟨?_, ?_⟩) ?_ ?_
  · intro m hm
    obtain rfl := Option.some.inj hm
    exact h.1 a ha
  · rintro m row' e
    cases e
    exact hsaves w hi h.2
  · rintro w r w' x hi h ⟨-, ho⟩ - hx
    rcases ho with ⟨⟨e, he⟩, -⟩ | ⟨-, rfl⟩
    · rw [he] at hx
      cases hx
    · refine ⟨h.1, hQ _ _ (fun m => ?_) (fun m => ?_) (saveRow_mem ..) h.2⟩ <;>
        by_cases e : m = a
      · rw [e, Function.update_self]
      · rw [Function.update_of_ne e]
      · rw [e, Function.update_self]
      · rw [Function.update_of_ne e]
  · rintro w r w' x hi h ⟨-, ho⟩ - -
    rcases ho with ⟨-, rfl⟩ | ⟨-, rfl⟩ <;> exact ⟨h.1, trivial⟩

/-- a send that is known stays so when a row is saved. -/
theorem Known.of_sends {W W' : WalletMap} {send : SendOperation} (h : Known n send W)
    (hs : (W' n).sends = (W n).sends) : Known n send W' := by
  obtain ⟨s, hmem, hk⟩ := h
  exact ⟨s, hs ▸ hmem, hk⟩

theorem known_of_mem {W : WalletMap} {send : SendOperation} (h : send ∈ (W n).sends) :
    Known n send W := ⟨send, h, .refl send⟩

theorem knownReceive_of_mem {W : WalletMap} {receive : ReceiveOperation}
    (h : receive ∈ (W n).receives) : KnownReceive n receive W := ⟨receive, h, .refl receive⟩

/-! ## answers -/

theorem reads_ok {x : α} {w w' : World} {r : Except Thrown α} {y : α}
    (h : Reads w r w' x) (hr : r = .ok y) : w' = w ∧ y = x := by
  obtain ⟨rfl, ⟨e, he⟩ | he⟩ := h
  · rw [he] at hr
    cases hr
  · rw [he] at hr
    exact ⟨rfl, (Except.ok.inj hr).symm⟩

/-- what an executed or refreshed send answers. -/
theorem advanceSend_ok {id : String} {w w' : World} {r : Except Thrown SendOperation}
    {send : SendOperation} (ho : AdvanceSend n id w r w')
    (hu : PrimaryKey SendOperation.id (w.wallets n).sends) (hr : r = .ok send) :
    Known n send w'.wallets ∧ send.id = id := by
  rcases ho with ⟨⟨e, he⟩, -⟩ | ⟨s, hs, state, token, hid, -, rfl, ⟨e, he⟩ | he⟩
  · rw [he] at hr
    cases hr
  · rw [he] at hr
    cases hr
  · rw [he] at hr
    obtain rfl := Except.ok.inj hr
    refine ⟨known_of_mem ?_, hid⟩
    show _ ∈ (Function.update w.wallets n _ n).sends
    rw [Function.update_self]
    exact mem_update.mpr ⟨s, hs, if_pos hid⟩

theorem sendPrepare_ok {mint amount unit : String} {transferId : Option String} {w w' : World}
    {r : Except Thrown SendOperation} {send : SendOperation}
    (ho : perform units κ (.sendPrepare n mint amount unit transferId) w r w') (hr : r = .ok send) :
    Known n send w'.wallets ∧ send.preparedFor = transferId := by
  rcases ho with ⟨⟨e, he⟩, -⟩ | ⟨s, -, -, -, -, -, -, hfor, -, rfl, ⟨e, he⟩ | he⟩
  · rw [he] at hr
    cases hr
  · rw [he] at hr
    cases hr
  · rw [he] at hr
    obtain rfl := Except.ok.inj hr
    refine ⟨known_of_mem ?_, hfor⟩
    show _ ∈ (Function.update w.wallets n _ n).sends
    rw [Function.update_self]
    exact List.mem_append_right _ (List.mem_singleton.mpr rfl)

theorem receivePrepare_ok {token : Token} {w w' : World} {r : Except Thrown ReceiveOperation}
    {receive : ReceiveOperation} (ho : perform units κ (.receivePrepare n token) w r w')
    (hr : r = .ok receive) :
    KnownReceive n receive w'.wallets ∧ receive.inputProofs = token.proofs := by
  rcases ho with ⟨⟨e, he⟩, -⟩ | ⟨x, -, hproofs, -, -, rfl, ⟨e, he⟩ | he⟩
  · rw [he] at hr
    cases hr
  · rw [he] at hr
    cases hr
  · rw [he] at hr
    obtain rfl := Except.ok.inj hr
    refine ⟨knownReceive_of_mem ?_, hproofs⟩
    show _ ∈ (Function.update w.wallets n _ n).receives
    rw [Function.update_self]
    exact List.mem_append_right _ (List.mem_singleton.mpr rfl)

/-- **Equal fingerprints are of the same proofs.** -/
theorem perm_of_fingerprint {proofs proofs' : List Proof}
    (h : proofFingerprint host proofs = proofFingerprint host proofs') : proofs.Perm proofs' := by
  have hsorted := host.stringify_inj _ _ h
  have hperm : (proofs.map (proofText host)).Perm (proofs'.map (proofText host)) := by
    have h₁ := List.perm_insertionSort (fun a b => SessionDispatches.SessionDispatchStore.utf16 a ≤
      SessionDispatches.SessionDispatchStore.utf16 b) (proofs.map (proofText host))
    have h₂ := List.perm_insertionSort (fun a b => SessionDispatches.SessionDispatchStore.utf16 a ≤
      SessionDispatches.SessionDispatchStore.utf16 b) (proofs'.map (proofText host))
    rw [hsorted] at h₁
    exact h₁.symm.trans h₂
  refine (List.map_perm_map_iff fun p p' e => ?_).mp hperm
  have htexts := host.stringify_inj _ _ e
  cases p
  cases p'
  simpa using htexts

/-! ## the steps of a transfer -/

/-- a fact that does not speak of the wallets. -/
theorem holds_assume {p : Prop} {prog : Exc api Thrown α} {R : α → World → Prop}
    {E : Thrown → World → Prop}
    (h : p → Triple (processes host units) κ (Holds κ ns P) prog R E) :
    Triple (processes host units) κ (Holds κ ns fun W => P W ∧ p) prog R E :=
  fun w hi hw => h hw.2.2 w hi ⟨hw.1, hw.2.1⟩

theorem holds_pre {prog : Exc api Thrown α} {R : α → World → Prop} {E : Thrown → World → Prop}
    (h : Triple (processes host units) κ (Holds κ ns Q) prog R E) (hPQ : ∀ W, P W → Q W) :
    Triple (processes host units) κ (Holds κ ns P) prog R E :=
  h.pre fun w _ hw => ⟨hw.1, hPQ _ hw.2⟩

/-- a row of a journal is the only one with its id. -/
theorem row_eq {w : World} (hi : Inv w) {row row' : Transfer} (h : row ∈ (w.wallets a).journal)
    (h' : row' ∈ (w.wallets a).journal) (hid : row'.id = row.id) : row' = row :=
  (hi a).rows.eq h' h hid

/-- what `tieSend` gives for a row. -/
structure Tied (a : String) (row row' : Transfer) (send : SendOperation) (W : WalletMap) : Prop where
  mem : row' ∈ (W a).journal
  known : Known a send W
  sendId : row'.sendId = some send.id
  state : row'.state = row.state
  recipient : row'.recipient = row.recipient

/-- the row that `tieSend` saves. -/
theorem saves_tied {w : World} {row : Transfer} {send : SendOperation} (hi : Inv w)
    (hrow : row ∈ (w.wallets a).journal) (hnone : row.sendId = none)
    (hsend : Known a send w.wallets) (hfor : send.preparedFor = some row.id) :
    Saves w.wallets a { row with sendId := some send.id, previousSendIds := [] } := by
  have hok := (hi a).ok row hrow
  refine ⟨⟨fun s hs => ?_, fun r hr => ?_, hok.other⟩, fun row' hrow' hid => ?_⟩
  · obtain ⟨s', hs', hkept⟩ := hsend
    exact ⟨s', hs', hkept.id_eq.trans (Option.some.inj hs), hkept.preparedFor_eq.trans hfor⟩
  · obtain ⟨s', -, hid, -⟩ := hok.redeemed r hr
    rw [hnone] at hid
    cases hid
  · obtain rfl := row_eq hi hrow hrow' hid
    refine ⟨rfl, rfl, Nat.le_refl _, fun s hs => ?_, fun r hr => hr⟩
    rw [hnone] at hs
    cases hs

/-- what is known of the sends that a resumption finds. -/
def Found (a : String) (row : Transfer) (sends : List SendOperation) (W : WalletMap) : Prop :=
  ∀ s ∈ sends, Known a s W ∧ (Candidate row s → s.preparedFor = some row.id)

theorem chooseSend_triple {mint : String} {row : Transfer} {sends : List SendOperation}
    (ha : a ∈ ns) : Triple (processes host units) κ
      (Holds κ ns fun W => row ∈ (W a).journal ∧ Found a row sends W)
      (chooseSend a mint row sends)
      (fun send => Holds κ ns fun W => row ∈ (W a).journal ∧
        (Known a send W ∧ send.preparedFor = some row.id)) (fun _ => Locked κ ns) := by
  unfold chooseSend
  split
  · refine holds_pre (tryOp_holds (fun send W => Known a send W ∧
      send.preparedFor = some row.id) (durable_row ha row) (fun n e => Option.some.inj e ▸ ha)
      rfl rfl ?_) fun W h => h.1
    exact fun w r w' x hi _ _ ho hx => sendPrepare_ok ho hx
  · rename_i send hcandidates
    refine pure_holds (F := fun (send : SendOperation) W => row ∈ (W a).journal ∧
      (Known a send W ∧ send.preparedFor = some row.id)) fun W h => ?_
    have hmem : send ∈ sends.filter (Candidate row) := hcandidates ▸ List.mem_singleton.mpr rfl
    obtain ⟨hsend, hcandidate⟩ := List.mem_filter.mp hmem
    obtain ⟨hknown, hfor⟩ := h.2 send hsend
    exact ⟨h.1, hknown, hfor (of_decide_eq_true hcandidate)⟩
  · exact refuse_holds

/-- **A row is tied to a send that was prepared for it.** -/
theorem tieSend_triple {mint : String} {row : Transfer} (ha : a ∈ ns) :
    Triple (processes host units) κ (Holds κ ns fun W => row ∈ (W a).journal)
      (tieSend a mint row) (fun x => Holds κ ns (Tied a row x.1 x.2)) (fun _ => Locked κ ns) := by
  have hwallet : ∀ n, some a = some n → n ∈ ns := fun n e => Option.some.inj e ▸ ha
  unfold tieSend
  split
  · rename_i sendId hid
    refine Triple.bind (tryOp_holds (fun send W => ∀ s, send = some s → Known a s W ∧ s.id = sendId)
      (durable_row ha row) hwallet rfl rfl ?_) fun found => ?_
    · rintro w r w' x hi - - ho hx s rfl
      obtain ⟨rfl, hfind⟩ := reads_ok ho hx
      exact ⟨known_of_mem (List.mem_of_find?_eq_some hfind.symm),
        by simpa using List.find?_some hfind.symm⟩
    · refine Triple.bind now_holds fun send => holds_assume fun hsend => ?_
      refine pure_holds (F := fun x : Transfer × SendOperation => Tied a row x.1 x.2) fun W h => ?_
      obtain ⟨hknown, hsid⟩ := h.2 send (orThrow_ok.mp hsend)
      exact ⟨h.1, hknown, hid.trans (congrArg some hsid.symm), rfl, rfl⟩
  · rename_i hnone
    refine Triple.bind (tryOp_holds (Found a row) (durable_row ha row) hwallet rfl rfl ?_)
      fun sends => ?_
    · rintro w r w' x hi - hattributed ho hx s hs
      obtain ⟨rfl, rfl⟩ := reads_ok ho hx
      obtain ⟨hmem, hmint⟩ := List.mem_filter.mp hs
      exact ⟨known_of_mem hmem, hattributed s hmem (of_decide_eq_true hmint)⟩
    refine Triple.bind (chooseSend_triple ha) fun send => ?_
    refine Triple.bind (save_holds
      (Q := Tied a row { row with sendId := some send.id, previousSendIds := [] } send)
      ((durable_row ha row).and ((durable_known ha send).and (.const _))) ha ?_ ?_) fun _ => ?_
    · exact fun w hi h => saves_tied hi h.1 hnone h.2.1 h.2.2
    · refine fun W u hsends _ hrow h => ⟨?_, h.2.1.of_sends (hsends a), rfl, rfl, rfl⟩
      rwa [Function.update_self]
    · exact pure_holds (F := fun x : Transfer × SendOperation => Tied a row x.1 x.2) fun W h => h

theorem advanceSend_triple {send : SendOperation} {P : WalletMap → Prop} (hP : Durable ns P)
    (ha : a ∈ ns) : Triple (processes host units) κ (Holds κ ns fun W => P W ∧ Known a send W)
      (advanceSend a send)
      (fun send' => Holds κ ns fun W => P W ∧ (Known a send' W ∧ send'.id = send.id))
      (fun _ => Locked κ ns) := by
  have hwallet : ∀ n, some a = some n → n ∈ ns := fun n e => Option.some.inj e ▸ ha
  unfold advanceSend
  split
  · refine holds_pre (tryOp_holds (fun send' W => Known a send' W ∧ send'.id = send.id) hP hwallet
      rfl rfl ?_) fun W h => h.1
    exact fun w r w' x hi _ _ ho hx => advanceSend_ok ho (hi a).sends hx
  · refine holds_pre (tryOp_holds (fun send' W => Known a send' W ∧ send'.id = send.id) hP hwallet
      rfl rfl ?_) fun W h => h.1
    exact fun w r w' x hi _ _ ho hx => advanceSend_ok ho (hi a).sends hx
  · exact pure_holds (F := fun (send' : SendOperation) W =>
      P W ∧ (Known a send' W ∧ send'.id = send.id)) fun W h => ⟨h.1, h.2, rfl⟩

/-- a send that was seen with a token. -/
def Redeemable (a id : String) (x : SendOperation × Token) (W : WalletMap) : Prop :=
  Known a x.1 W ∧ x.1.id = id ∧ x.1.token = some x.2

theorem redeemableSend_triple {send : SendOperation} {P : WalletMap → Prop} (hP : Durable ns P)
    (ha : a ∈ ns) : Triple (processes host units) κ (Holds κ ns fun W => P W ∧ Known a send W)
      (redeemableSend a send) (fun x => Holds κ ns fun W => P W ∧ Redeemable a send.id x W)
      (fun _ => Locked κ ns) := by
  refine Triple.bind (advanceSend_triple hP ha) fun send' => ?_
  split
  · rename_i token htoken
    refine Triple.ite (fun _ => ?_) fun _ => refuse_holds
    exact pure_holds (F := fun x W => P W ∧ Redeemable a send.id x W) fun W h =>
      ⟨h.1, h.2.1, h.2.2, htoken⟩
  · exact refuse_holds

/-- what `tieReceive` and `redeem` give for a row. -/
structure Carried (a : String) (row row' : Transfer) (W : WalletMap) : Prop where
  mem : row' ∈ (W a).journal
  state : row'.state = row.state
  recipient : row'.recipient = row.recipient

theorem chooseReceive_triple {b : String} {token : Token} {receives : List ReceiveOperation}
    {P : WalletMap → Prop} (hP : Durable ns P) (hb : b ∈ ns) :
    Triple (processes host units) κ
      (Holds κ ns fun W => P W ∧ ∀ r ∈ receives, KnownReceive b r W)
      (chooseReceive host b token receives)
      (fun receive => Holds κ ns fun W => P W ∧ (KnownReceive b receive W ∧
        receive.inputProofs.Perm token.proofs)) (fun _ => Locked κ ns) := by
  unfold chooseReceive
  split
  · refine holds_pre (tryOp_holds (fun receive W => KnownReceive b receive W ∧
      receive.inputProofs.Perm token.proofs) hP (fun n e => Option.some.inj e ▸ hb) rfl rfl ?_)
      fun W h => h.1
    intro w r w' x hi _ _ ho hx
    obtain ⟨hknown, hproofs⟩ := receivePrepare_ok ho hx
    exact ⟨hknown, hproofs ▸ .refl _⟩
  · rename_i receive hfound
    refine pure_holds (F := fun (receive : ReceiveOperation) W => P W ∧
      (KnownReceive b receive W ∧ receive.inputProofs.Perm token.proofs)) fun W h => ?_
    have hmem := hfound ▸ List.mem_singleton.mpr (rfl : receive = receive)
    obtain ⟨hreceive, hsame⟩ := List.mem_filter.mp hmem
    exact ⟨h.1, h.2 receive hreceive, perm_of_fingerprint (of_decide_eq_true hsame)⟩
  · exact refuse_holds

/-- the row that `tieReceive` saves. -/
theorem saves_received {w : World} {row : Transfer} {x : SendOperation × Token}
    {receive : ReceiveOperation} {id : String} (hi : Inv w) (hrow : row ∈ (w.wallets a).journal)
    (hnone : row.receiveId = none) (hid : row.sendId = some id) (hx : Redeemable a id x w.wallets)
    (hreceive : KnownReceive row.recipient receive w.wallets)
    (hperm : receive.inputProofs.Perm x.2.proofs) :
    Saves w.wallets a { row with receiveId := some receive.id } := by
  have hok := (hi a).ok row hrow
  refine ⟨⟨hok.tied, fun r hr => ?_, hok.other⟩, fun row' hrow' heq => ?_⟩
  · obtain ⟨⟨send, hsend, hkept⟩, hxid, htoken⟩ := hx
    obtain ⟨receive', hreceive', hkept'⟩ := hreceive
    have hsid : row.sendId = some send.id := by rw [hid, hkept.id_eq, hxid]
    exact ⟨send, hsend, hsid, x.2, hkept.2 _ htoken, receive', hreceive',
      hkept'.id_eq.trans (Option.some.inj hr), hkept'.inputProofs_eq ▸ hperm⟩
  · obtain rfl := row_eq hi hrow hrow' heq
    refine ⟨rfl, rfl, Nat.le_refl _, fun s hs => hs, fun r hr => ?_⟩
    rw [hnone] at hr
    cases hr

/-- **A row is tied to a receive of the proofs of its send.** -/
theorem tieReceive_triple {mint : String} (id : String) {row : Transfer} {x : SendOperation × Token}
    (ha : a ∈ ns) (hb : row.recipient ∈ ns) (hid : row.sendId = some id) :
    Triple (processes host units) κ
      (Holds κ ns fun W => row ∈ (W a).journal ∧ Redeemable a id x W)
      (tieReceive host a mint row x.2) (fun y => Holds κ ns (Carried a row y.1))
      (fun _ => Locked κ ns) := by
  have hwallet : ∀ n, some row.recipient = some n → n ∈ ns := fun n e => Option.some.inj e ▸ hb
  have hP : Durable ns fun W => row ∈ (W a).journal ∧ Redeemable a id x W :=
    (durable_row ha row).and ((durable_known ha x.1).and (.const _))
  unfold tieReceive
  split
  · refine Triple.bind (tryOp_keeps hP hwallet rfl rfl) fun found => ?_
    refine Triple.bind now_holds fun receive => ?_
    exact pure_holds (F := fun y : Transfer × ReceiveOperation => Carried a row y.1) fun W h =>
      ⟨h.1.1, rfl, rfl⟩
  · rename_i hnone
    refine Triple.bind (tryOp_holds (fun receives W =>
      ∀ r ∈ receives, KnownReceive row.recipient r W) hP hwallet rfl rfl ?_) fun receives => ?_
    · rintro w r w' y hi - - ho hy s hs
      obtain ⟨rfl, rfl⟩ := reads_ok ho hy
      exact knownReceive_of_mem (List.mem_filter.mp hs).1
    refine Triple.bind (chooseReceive_triple hP hb) fun receive => ?_
    refine Triple.bind (save_holds (Q := Carried a row { row with receiveId := some receive.id })
      (hP.and ((durable_knownReceive hb receive).and (.const _))) ha ?_ ?_) fun _ => ?_
    · exact fun w hi h => saves_received hi h.1.1 hnone hid h.1.2 h.2.1 h.2.2
    · refine fun W u _ _ hrow h => ⟨?_, rfl, rfl⟩
      rwa [Function.update_self]
    · exact pure_holds (F := fun y : Transfer × ReceiveOperation => Carried a row y.1) fun W h => h

/-- a row that only moves forward may be saved. -/
theorem saves_state {w : World} {row : Transfer} {state : TransferState} (hi : Inv w)
    (hrow : row ∈ (w.wallets a).journal) (hstate : row.state.rank ≤ state.rank) :
    Saves w.wallets a { row with state } := by
  have hok := (hi a).ok row hrow
  refine ⟨⟨hok.tied, hok.redeemed, hok.other⟩, fun row' hrow' heq => ?_⟩
  obtain rfl := row_eq hi hrow hrow' heq
  exact ⟨rfl, rfl, hstate, fun s hs => hs, fun r hr => hr⟩

/-- the state of a row is saved. -/
theorem saveState_triple {row : Transfer} {state : TransferState} {P : WalletMap → Prop}
    (hP : Durable ns P) (ha : a ∈ ns) (hstate : row.state.rank ≤ state.rank)
    (hsends : ∀ W W', (∀ n, (W' n).sends = (W n).sends) → P W → P W') :
    Triple (processes host units) κ (Holds κ ns fun W => row ∈ (W a).journal ∧ P W)
      (tryOp (.saveTransfer a { row with state }) rfl)
      (fun _ => Holds κ ns fun W => { row with state } ∈ (W a).journal ∧ P W)
      (fun _ => Locked κ ns) := by
  refine save_holds ((durable_row ha row).and hP) ha (fun w hi h => saves_state hi h.1 hstate) ?_
  intro W u hs _ hrow h
  refine ⟨?_, hsends _ _ hs h.2⟩
  rwa [Function.update_self]

theorem redeem_triple {row : Transfer} {receive : ReceiveOperation} (ha : a ∈ ns)
    (hb : row.recipient ∈ ns) (hstate : row.state = .sent) :
    Triple (processes host units) κ (Holds κ ns fun W => row ∈ (W a).journal)
      (redeem a row receive)
      (fun row' => Holds κ ns fun W => row' ∈ (W a).journal ∧ row'.state = .received)
      (fun _ => Locked κ ns) := by
  have hwallet : ∀ n, some row.recipient = some n → n ∈ ns := fun n e => Option.some.inj e ▸ hb
  have hrow := durable_row ha row
  have hstay : ∀ {receive : ReceiveOperation}, Triple (processes host units) κ
      (Holds κ ns fun W => row ∈ (W a).journal) (pure receive : Exc api Thrown _)
      (fun _ => Holds κ ns fun W => row ∈ (W a).journal) (fun _ => Locked κ ns) :=
    Triple.pure fun w _ h => h
  unfold redeem
  refine Triple.bind (R := fun _ => Holds κ ns fun W => row ∈ (W a).journal)
    (Triple.ite (fun _ => tryOp_keeps hrow hwallet rfl rfl) fun _ => hstay) fun receive => ?_
  refine Triple.bind (R := fun _ => Holds κ ns fun W => row ∈ (W a).journal)
    (Triple.ite (fun _ => tryOp_keeps hrow hwallet rfl rfl) fun _ => hstay) fun receive => ?_
  refine Triple.ite (fun _ => refuse_holds) fun _ => ?_
  refine Triple.bind (holds_pre (saveState_triple (.const True) ha ?_ fun _ _ _ h => h)
    fun W h => ⟨h, trivial⟩) fun _ => ?_
  · rw [hstate]
    decide
  · exact pure_holds (F := fun (row' : Transfer) W =>
      row' ∈ (W a).journal ∧ row'.state = .received) fun W h => ⟨h.1, rfl⟩

/-- **A transfer keeps the invariant** when it starts with a row that is not received yet. -/
theorem transferOn_triple {mint : String} {row : Transfer} (ha : a ∈ ns)
    (hb : row.recipient ∈ ns) (hstate : row.state = .preparing ∨ row.state = .sent) :
    Triple (processes host units) κ (Holds κ ns fun W => row ∈ (W a).journal)
      (transferOn host a mint row) (fun _ => Locked κ ns) (fun _ => Locked κ ns) := by
  have hwallet : ∀ n, some a = some n → n ∈ ns := fun n e => Option.some.inj e ▸ ha
  refine Triple.bind (tieSend_triple ha) fun x => ?_
  refine Triple.bind (holds_pre (redeemableSend_triple (P := fun W => x.1 ∈ (W a).journal ∧
    (x.1.sendId = some x.2.id ∧ x.1.state = row.state ∧ x.1.recipient = row.recipient))
    ((durable_row ha x.1).and (.const _)) ha)
    fun W h => ⟨⟨h.mem, h.sendId, h.state, h.recipient⟩, h.known⟩) fun y => ?_
  refine holds_pre (holds_assume (p := x.1.sendId = some x.2.id ∧ x.1.state = row.state ∧
    x.1.recipient = row.recipient) (P := fun W => x.1 ∈ (W a).journal ∧ Redeemable a x.2.id y W)
    fun hx => ?_) fun W h => ⟨⟨h.1.1, h.2⟩, h.1.2⟩
  have hrank : x.1.state.rank ≤ TransferState.sent.rank := by
    rw [hx.2.1]
    rcases hstate with h | h <;> simp [h, TransferState.rank]
  refine Triple.bind (saveState_triple ((durable_known ha y.1).and (.const _)) ha hrank ?_)
    fun _ => ?_
  · exact fun W W' hs h => ⟨h.1.of_sends (hs a), h.2⟩
  refine Triple.bind (tieReceive_triple x.2.id ha (hx.2.2 ▸ hb) hx.1) fun z => ?_
  refine holds_pre (holds_assume (p := z.1.state = .sent ∧ z.1.recipient = x.1.recipient)
    (P := fun W => z.1 ∈ (W a).journal) fun hz => ?_)
    fun W h => ⟨h.mem, h.state, h.recipient⟩
  refine Triple.bind (redeem_triple ha (hz.2 ▸ hx.2.2 ▸ hb) hz.1) fun row' => ?_
  refine holds_assume fun hreceived => ?_
  refine Triple.bind (tryOp_keeps (durable_row ha row') hwallet rfl rfl) fun send => ?_
  refine Triple.ite (fun _ => refuse_holds) fun _ => ?_
  refine Triple.bind (holds_pre (saveState_triple (.const True) ha ?_ fun _ _ _ h => h)
    fun W h => ⟨h, trivial⟩) fun _ => ?_
  · rw [hreceived]
    decide
  · exact Triple.pure fun w _ h => ⟨h.1, trivial⟩

/-! ## a row to start with -/

/-- a row that may be transferred. -/
def Transferable (a : String) (row : Transfer) (W : WalletMap) : Prop :=
  row ∈ (W a).journal ∧ (row.state = .preparing ∨ row.state = .sent)

theorem durable_transferable (ha : a ∈ ns) (row : Transfer) : Durable ns (Transferable a row) :=
  (durable_row ha row).and (.const _)

/-- a row that is not journaled yet may be saved. -/
theorem saves_new {W : WalletMap} {row : Transfer} (hsend : row.sendId = none)
    (hreceive : row.receiveId = none) (hother : row.recipient ≠ a)
    (hfresh : ∀ row' ∈ (W a).journal, row'.id ≠ row.id) : Saves W a row := by
  refine ⟨⟨fun s hs => ?_, fun r hr => ?_, hother⟩, fun row' hrow' hid => ?_⟩
  · rw [hsend] at hs
    cases hs
  · rw [hreceive] at hr
    cases hr
  · exact absurd hid (hfresh row' hrow')

theorem saveNew_triple (row : Transfer) (ha : a ∈ ns) (hstate : row.state = .preparing)
    (hsend : row.sendId = none) (hreceive : row.receiveId = none) (hother : row.recipient ≠ a) :
    Triple (processes host units) κ
      (Holds κ ns fun W => ∀ row' ∈ (W a).journal, row'.id ≠ row.id)
      (do
        tryOp (.saveTransfer a row) rfl
        pure row)
      (fun row' => Holds κ ns fun W => Transferable a row' W ∧ row'.recipient = row.recipient)
      (fun _ => Locked κ ns) := by
  refine Triple.bind (save_holds (Q := fun W => row ∈ (W a).journal) (durable_fresh ha row.id) ha
    (fun w _ h => saves_new hsend hreceive hother h) ?_) fun _ => ?_
  · intro W u _ _ hrow _
    rwa [Function.update_self]
  · exact pure_holds (F := fun (row' : Transfer) W => Transferable a row' W ∧
      row'.recipient = row.recipient) fun W h => ⟨⟨h, Or.inl hstate⟩, rfl⟩

theorem newTransfer_triple {recipient mint unit : String} {input : TransferInput} (ha : a ∈ ns)
    (hother : recipient ≠ a) :
    Triple (processes host units) κ (Locked κ ns) (newTransfer a recipient mint unit input)
      (fun row => Holds κ ns fun W => Transferable a row W ∧ row.recipient = recipient)
      (fun _ => Locked κ ns) := by
  have hwallet : ∀ n, some a = some n → n ∈ ns := fun n e => Option.some.inj e ▸ ha
  have hdurable : Durable ns fun _ => True := .const True
  refine Triple.bind now_holds fun amount => ?_
  refine Triple.bind (R := fun id => Holds κ ns fun W => ∀ row ∈ (W a).journal, row.id ≠ id)
    (Triple.op (stable_holds (hdurable.and (.const _))) (fun w _ _ => ⟨fun n e => ?_, ?_⟩) ?_)
    fun id => ?_
  · cases e
  · rintro n row e
    cases e
  · rintro w id w' - h ⟨-, hfresh, rfl⟩ -
    exact ⟨h.1, hfresh a⟩
  refine Triple.bind (tryOp_keeps (durable_fresh ha id) hwallet rfl rfl) fun sends => ?_
  let row : Transfer :=
    { id, recipient, mint, amount, unit, state := .preparing, sendId := none, receiveId := none
      previousSendIds := sends.map (·.id) }
  exact saveNew_triple row ha rfl rfl rfl hother

/-- **A resumed transfer is one that is not received yet.** -/
theorem resumedTransfer_triple {id : Option String} (ha : a ∈ ns) :
    Triple (processes host units) κ (Locked κ ns) (resumedTransfer a id)
      (fun found => Holds κ ns fun W => ∀ row, found = some row → Transferable a row W)
      (fun _ => Locked κ ns) := by
  unfold resumedTransfer
  split
  · rename_i id _
    refine Triple.bind (tryOp_holds (fun found W => ∀ row, found = some row → Transferable a row W)
      (.const True) (fun n e => Option.some.inj e ▸ ha) rfl rfl ?_) fun found => ?_
    · rintro w r w' x - - hopen ho hx row rfl
      obtain ⟨rfl, hfind⟩ := reads_ok ho hx
      have hid : row.id = id := by simpa using List.find?_some hfind.symm
      have hmem := List.mem_of_find?_eq_some hfind.symm
      exact ⟨hmem, hopen row hmem hid⟩
    · split
      · rename_i row
        exact pure_holds (F := fun (found : Option Transfer) W =>
          ∀ row, found = some row → Transferable a row W) fun W h => h.2
      · exact refuse_holds
  · exact pure_holds (F := fun (found : Option Transfer) W =>
      ∀ row, found = some row → Transferable a row W) fun W _ row e => (by cases e)

/-! ## the commands -/

theorem trustedMint_triple {value : Option String} (hP : Durable ns P) (hn : n ∈ ns) :
    Triple (processes host units) κ (Holds κ ns P) (trustedMint host n value)
      (fun _ => Holds κ ns P) (fun _ => Locked κ ns) := by
  refine Triple.bind now_holds fun mint => ?_
  refine holds_pre ?_ fun W h => h.1
  refine Triple.bind (tryOp_keeps hP (fun n e => Option.some.inj e ▸ hn) rfl rfl) fun trusted => ?_
  exact Triple.ite (fun _ => Triple.pure fun _ _ h => h) fun _ => refuse_holds

/-- **A wallet is used under its lock**, which its process did not hold before. -/
theorem withWallet_triple {callback : String → Exc api Thrown α} (hP : Durable ns P)
    (h : n ∉ ns → ∀ unit, Triple (processes host units) κ (Holds κ (n :: ns) P) (callback unit)
      (fun _ => Locked κ (n :: ns)) (fun _ => Locked κ (n :: ns))) :
    Triple (processes host units) κ (Holds κ ns P) (withWallet n callback)
      (fun _ => Locked κ ns) (fun _ => Locked κ ns) := by
  have hfresh : Triple (processes host units) κ (Holds κ ns P) (tryOp (.acquire n) rfl)
      (fun _ w => Holds κ (n :: ns) P w ∧ n ∉ ns) (fun _ => Locked κ ns) := by
    refine Triple.tryOp (stable_holds hP) (fun w _ _ => ⟨fun n e => ?_, ?_⟩) ?_ ?_
    · cases e
    · rintro m row e
      cases e
    · rintro w r w' x hi hw ⟨-, ho⟩ - hx
      rcases ho with ⟨⟨e, he⟩, -⟩ | ⟨hfree, -, rfl⟩
      · rw [he] at hx
        cases hx
      · have hnew : n ∉ ns := by
          intro hn
          rw [hw.1 n hn] at hfree
          cases hfree
        refine ⟨⟨fun m hm => ?_, hw.2⟩, hnew⟩
        by_cases e : m = n
        · subst e
          exact Function.update_self ..
        · refine (Function.update_of_ne e ..).trans (hw.1 m ?_)
          exact (List.mem_cons.mp hm).resolve_left e
    · rintro w r w' x hi hw ⟨-, ho⟩ - hx
      rcases ho with ⟨-, rfl⟩ | ⟨-, hr, -⟩
      · exact ⟨hw.1, trivial⟩
      · rw [hr] at hx
        cases hx
  refine Triple.bind hfresh fun _ => Triple.assume fun hnew => ?_
  have hrelease : ∀ {R : WalletMap → Prop}, Triple (processes host units) κ (Locked κ (n :: ns))
      (op (.release n)) (fun _ => Locked κ ns) (fun _ => Locked κ ns) := by
    intro _
    refine Triple.op (stable_holds (.const True)) (fun w _ hw => ⟨fun m e => ?_, ?_⟩) ?_
    · obtain rfl := Option.some.inj e
      exact hw.1 n List.mem_cons_self
    · rintro m row e
      cases e
    · rintro w r w' - hw ⟨-, rfl⟩ -
      refine ⟨fun m hm => ?_, trivial⟩
      have e : m ≠ n := fun e => hnew (e ▸ hm)
      exact (Function.update_of_ne e ..).trans (hw.1 m (List.mem_cons_of_mem n hm))
  have hwallet : ∀ m, some n = some m → m ∈ n :: ns :=
    fun m e => Option.some.inj e ▸ List.mem_cons_self
  exact Triple.andFinally (Triple.bind (tryOp_keeps hP.cons hwallet rfl rfl) fun unit => h hnew unit)
    (fun _ => hrelease (R := P)) fun _ => hrelease (R := P)

theorem rowOf_triple {recipient mint unit : String} {found : Option Transfer}
    {input : TransferInput} (ha : a ∈ ns) (hother : recipient ≠ a)
    (hrecipient : ∀ row, found = some row → row.recipient = recipient) :
    Triple (processes host units) κ
      (Holds κ ns fun W => ∀ row, found = some row → Transferable a row W)
      (rowOf a recipient mint unit found input)
      (fun row => Holds κ ns fun W => Transferable a row W ∧ row.recipient = recipient)
      (fun _ => Locked κ ns) := by
  unfold rowOf
  split
  · rename_i row
    exact pure_holds (F := fun (row : Transfer) W => Transferable a row W ∧
      row.recipient = recipient) fun W h => ⟨h row rfl, hrecipient row rfl⟩
  · exact holds_pre (newTransfer_triple ha hother) fun W _ => trivial

theorem durable_found {found : Option Transfer} (ha : a ∈ ns) :
    Durable ns fun W => ∀ row, found = some row → Transferable a row W :=
  ⟨fun W W' h hw row e => (durable_transferable ha row).own W W' h (hw row e),
    fun W W' hk hj hw row e => (durable_transferable ha row).persists W W' hk hj (hw row e)⟩

theorem recipientOf_ok {found : Option Transfer} {input : TransferInput} {recipient : String}
    (h : recipientOf found input = .ok recipient) {row : Transfer} (hrow : found = some row) :
    row.recipient = recipient := by
  subst hrow
  exact Except.ok.inj h

/-- **`transferToBot` keeps the invariant.** -/
theorem transferToBot_triple {unit : String} {input : TransferInput} :
    Triple (processes host units) κ (Locked κ [a]) (transferToBot host a unit input)
      (fun _ => Locked κ [a]) (fun _ => Locked κ [a]) := by
  have ha : a ∈ [a] := List.mem_singleton.mpr rfl
  refine Triple.bind (resumedTransfer_triple ha) fun found => ?_
  refine Triple.bind now_holds fun recipient => holds_assume fun hrecipient => ?_
  refine Triple.ite (fun _ => refuse_holds) fun hother => ?_
  refine withWallet_triple (durable_found ha) fun _ destinationUnit => ?_
  have ha : a ∈ [recipient, a] := List.mem_cons_of_mem _ ha
  have hb : recipient ∈ [recipient, a] := List.mem_cons_self
  refine Triple.ite (fun _ => refuse_holds) fun _ => ?_
  refine Triple.bind (trustedMint_triple (durable_found ha) ha) fun mint => ?_
  refine Triple.bind (trustedMint_triple (durable_found ha) hb) fun _ => ?_
  refine Triple.bind (rowOf_triple ha hother fun row => recipientOf_ok hrecipient) fun row => ?_
  refine holds_pre (holds_assume (p := row.recipient = recipient ∧
    (row.state = .preparing ∨ row.state = .sent)) (P := fun W => row ∈ (W a).journal)
    fun hrow => ?_) fun W h => ⟨h.1.1, h.2, h.1.2⟩
  exact transferOn_triple ha (hrow.1 ▸ hb) hrow.2

theorem locked_nil (w : World) : Locked κ [] w := ⟨fun _ h => absurd h List.not_mem_nil, trivial⟩

theorem command_triple {callback : String → Exc api Thrown α}
    (h : ∀ unit, Triple (processes host units) κ (Locked κ [n]) (callback unit)
      (fun _ => Locked κ [n]) (fun _ => Locked κ [n])) :
    Triple (processes host units) κ Any (withWallet n callback) Any₂ Any₂ :=
  ((withWallet_triple (.const True) fun _ => h).pre fun w _ _ => locked_nil w).any

theorem transferCommand_triple {source : String} {input : TransferInput} :
    Triple (processes host units) κ Any (transferCommand host source input) Any₂ Any₂ :=
  command_triple fun _ => transferToBot_triple

theorem operatorCommand_triple {npub : String} :
    Triple (processes host units) κ Any (operatorCommand npub) Any₂ Any₂ := by
  refine command_triple fun unit => ?_
  refine Triple.op (stable_holds (.const True)) (fun w _ h => ⟨fun n e => ?_, ?_⟩) ?_
  · obtain rfl := Option.some.inj e
    exact h.1 npub List.mem_cons_self
  · rintro n row e
    cases e
  · rintro w r w' - h ⟨-, ho⟩ -
    exact ⟨fun n hn => by rw [perform_locks rfl ho]; exact h.1 n hn, trivial⟩

theorem unlock_triple : Triple (processes host units) κ Any (op .unlock) Any₂ Any₂ := by
  refine Triple.op (fun _ _ _ _ => trivial) (fun w _ _ => ⟨fun n e => ?_, ?_⟩)
    fun _ _ _ _ _ _ _ => trivial
  · cases e
  · rintro n row e
    cases e

/-- **The discipline of the processes is kept.** -/
theorem processes_keeps (host : Host) (units : String → String) :
    (processes host units).Keeps where
  perform hi hmay ho := (perform_inv hi hmay ho.2).1
  crash hi hs := by
    subst hs
    exact hi
  spawn hi hp := by
    cases hp with
    | transfer source input => exact transferCommand_triple.detach hi
    | operator npub => exact operatorCommand_triple.detach hi
    | unlock => exact unlock_triple.detach hi

end

end Wallets
end WmAutopilot
