import WmAutopilot.Wallets.WalletTransfers

/-!
# The journal of transfers among processes

* `RowOk`                 what holds of a row of the journal: its send was prepared for it, and its
                          receive redeems the proofs of that send;
* `Attributed`            what a resumption has to find: only sends that were prepared for its row,
                          and a row that is not received yet;
* `Inv`, `processes`      the invariant of the processes and what each operation may ask for;
* `perform_inv`           **one permitted operation** keeps the invariant, and rows go forward;
* `Durable`, `Holds`      what a process knows of the wallets whose locks it holds;
* `stable_holds`          the other processes do not change it.
-/

set_option autoImplicit false
set_option linter.unusedVariables false

namespace WmAutopilot
namespace Wallets
open Js Async Sql

/-! ## what is kept -/

/-- the wallets of all bots. -/
abbrev WalletMap := String → Wallet

theorem SendKept.refl (send : SendOperation) : SendKept send send := ⟨rfl, fun _ h => h⟩

theorem SendKept.trans {s₁ s₂ s₃ : SendOperation} (h : SendKept s₁ s₂) (h' : SendKept s₂ s₃) :
    SendKept s₁ s₃ := by
  refine ⟨?_, fun token ht => h'.2 token (h.2 token ht)⟩
  rw [h'.1, h.1]

theorem SendKept.id_eq {s s' : SendOperation} (h : SendKept s s') : s'.id = s.id :=
  (congrArg SendOperation.id h.1).trans rfl

theorem SendKept.preparedFor_eq {s s' : SendOperation} (h : SendKept s s') :
    s'.preparedFor = s.preparedFor := (congrArg SendOperation.preparedFor h.1).trans rfl

theorem ReceiveKept.refl (receive : ReceiveOperation) : ReceiveKept receive receive := rfl

theorem ReceiveKept.trans {r₁ r₂ r₃ : ReceiveOperation} (h : ReceiveKept r₁ r₂)
    (h' : ReceiveKept r₂ r₃) : ReceiveKept r₁ r₃ := by
  unfold ReceiveKept at *
  rw [h', h]

theorem ReceiveKept.id_eq {r r' : ReceiveOperation} (h : ReceiveKept r r') : r'.id = r.id :=
  (congrArg ReceiveOperation.id h).trans rfl

theorem ReceiveKept.inputProofs_eq {r r' : ReceiveOperation} (h : ReceiveKept r r') :
    r'.inputProofs = r.inputProofs := (congrArg ReceiveOperation.inputProofs h).trans rfl

/-- Operations stay in their wallets. -/
structure Kept (W W' : WalletMap) : Prop where
  sends : ∀ n, ∀ send ∈ (W n).sends, ∃ send' ∈ (W' n).sends, SendKept send send'
  receives : ∀ n, ∀ receive ∈ (W n).receives, ∃ receive' ∈ (W' n).receives,
    ReceiveKept receive receive'

section
variable {W W' : WalletMap} {n : String} {u : Wallet}

theorem Kept.refl (W : WalletMap) : Kept W W :=
  ⟨fun _ s hs => ⟨s, hs, .refl s⟩, fun _ r hr => ⟨r, hr, .refl r⟩⟩

/-- one wallet changes. -/
theorem Kept.update (hs : ∀ send ∈ (W n).sends, ∃ send' ∈ u.sends, SendKept send send')
    (hr : ∀ receive ∈ (W n).receives, ∃ receive' ∈ u.receives, ReceiveKept receive receive') :
    Kept W (Function.update W n u) := by
  refine ⟨fun m send h => ?_, fun m receive h => ?_⟩ <;> by_cases e : m = n
  · subst e
    rw [Function.update_self]
    exact hs send h
  · rw [Function.update_of_ne e]
    exact ⟨send, h, .refl send⟩
  · subst e
    rw [Function.update_self]
    exact hr receive h
  · rw [Function.update_of_ne e]
    exact ⟨receive, h, .refl receive⟩

/-- the operations of a wallet do not change. -/
theorem Kept.same (hs : u.sends = (W n).sends) (hr : u.receives = (W n).receives) :
    Kept W (Function.update W n u) :=
  .update (fun s h => ⟨s, hs ▸ h, .refl s⟩) fun r h => ⟨r, hr ▸ h, .refl r⟩

end

/-! ## rows -/

/-- how far a transfer is. -/
def TransferState.rank : TransferState → ℕ
  | preparing => 0
  | sent => 1
  | received => 2
  | completed => 3

/-- what a row may become. -/
structure Forward (row row' : Transfer) : Prop where
  id : row'.id = row.id
  recipient : row'.recipient = row.recipient
  state : row.state.rank ≤ row'.state.rank
  sendId : ∀ s, row.sendId = some s → row'.sendId = some s
  receiveId : ∀ r, row.receiveId = some r → row'.receiveId = some r

theorem Forward.refl (row : Transfer) : Forward row row :=
  ⟨rfl, rfl, Nat.le_refl _, fun _ h => h, fun _ h => h⟩

theorem Forward.trans {row₁ row₂ row₃ : Transfer} (h : Forward row₁ row₂) (h' : Forward row₂ row₃) :
    Forward row₁ row₃ :=
  ⟨h'.id.trans h.id, h'.recipient.trans h.recipient, Nat.le_trans h.state h'.state,
    fun s hs => h'.sendId s (h.sendId s hs), fun r hr => h'.receiveId r (h.receiveId r hr)⟩

/-- What holds of a row of the journal of wallet `n`. -/
structure RowOk (W : WalletMap) (n : String) (row : Transfer) : Prop where
  /-- its send was prepared for it. -/
  tied : ∀ s, row.sendId = some s → ∃ send ∈ (W n).sends, send.id = s ∧
    send.preparedFor = some row.id
  /-- its receive redeems the proofs of its send. -/
  redeemed : ∀ r, row.receiveId = some r → ∃ send ∈ (W n).sends, row.sendId = some send.id ∧
    ∃ token, send.token = some token ∧ ∃ receive ∈ (W row.recipient).receives, receive.id = r ∧
      receive.inputProofs.Perm token.proofs
  other : row.recipient ≠ n

theorem RowOk.mono {W W' : WalletMap} {n : String} {row : Transfer} (h : RowOk W n row)
    (hk : Kept W W') : RowOk W' n row := by
  refine ⟨fun s hs => ?_, fun r hr => ?_, h.other⟩
  · obtain ⟨send, hsend, hid, hfor⟩ := h.tied s hs
    obtain ⟨send', hsend', hkept⟩ := hk.sends n send hsend
    exact ⟨send', hsend', hkept.id_eq.trans hid, hkept.preparedFor_eq.trans hfor⟩
  · obtain ⟨send, hsend, hid, token, htoken, receive, hreceive, hrid, hperm⟩ := h.redeemed r hr
    obtain ⟨send', hsend', hkept⟩ := hk.sends n send hsend
    obtain ⟨receive', hreceive', hkeptR⟩ := hk.receives _ receive hreceive
    refine ⟨send', hsend', hid.trans (congrArg some hkept.id_eq.symm), token, hkept.2 token htoken,
      receive', hreceive', hkeptR.id_eq.trans hrid, ?_⟩
    rw [hkeptR.inputProofs_eq]
    exact hperm

/-! ## the invariant -/

/-- What a resumption has to find: the sends that may be that of its row were prepared for it, and
the row is not received yet. -/
def Attributed : WalletOp → World → Prop
  | .sendsByMint npub mint (some row), w => ∀ send ∈ (w.wallets npub).sends, send.mintUrl = mint →
      Candidate row send → send.preparedFor = some row.id
  | .transferGet npub id, w => ∀ row ∈ (w.wallets npub).journal, row.id = id →
      row.state = .preparing ∨ row.state = .sent
  | _, _ => True

/-- the wallet that an operation uses under its lock. -/
def WalletOp.wallet : WalletOp → Option String
  | acquire _ | unlock | randomUUID => none
  | release n | openWallet n | operate n | isTrustedMint n _ | transferGet n _ | saveTransfer n _
  | sendsByMint n _ _ | sendGet n _ | sendPrepare n _ _ _ _ | sendExecute n _ | sendRefresh n _
  | receivesByMint n _ | receiveGet n _ | receivePrepare n _ | receiveExecute n _
  | receiveRefresh n _ => some n

/-- a row that may be saved. -/
def Saves (W : WalletMap) (n : String) (row : Transfer) : Prop :=
  RowOk W n row ∧ ∀ row' ∈ (W n).journal, row'.id = row.id → Forward row' row

/-- what process `κ` asks for. -/
def may (κ : ℕ) (o : WalletOp) (w : World) : Prop :=
  (∀ n, o.wallet = some n → w.locks n = some κ) ∧
    ∀ n row, o = .saveTransfer n row → Saves w.wallets n row

/-- What holds of a wallet. -/
structure WalletOk (W : WalletMap) (n : String) : Prop where
  rows : PrimaryKey Transfer.id (W n).journal
  sends : PrimaryKey SendOperation.id (W n).sends
  receives : PrimaryKey ReceiveOperation.id (W n).receives
  ok : ∀ row ∈ (W n).journal, RowOk W n row

/-- The invariant. -/
def Inv (w : World) : Prop := ∀ n, WalletOk w.wallets n

/-- the processes with their invariant. -/
def processes (host : Host) (units : String → String) : Discipline api World :=
  { restricted host units Attributed with Inv := Inv, may := may }

section
variable {units : String → String} {κ : ℕ} {w w' : World}

theorem Inv.initial (h : w.Initial) : Inv w := by
  subst h
  exact fun n => ⟨List.nodup_nil, List.nodup_nil, List.nodup_nil,
    fun row h => absurd h List.not_mem_nil⟩

/-! ## what one operation does -/

/-- What an operation does to the wallets. -/
structure Goes (W W' : WalletMap) : Prop where
  kept : Kept W W'
  sends : ∀ n, PrimaryKey SendOperation.id (W n).sends → PrimaryKey SendOperation.id (W' n).sends
  receives : ∀ n, PrimaryKey ReceiveOperation.id (W n).receives →
    PrimaryKey ReceiveOperation.id (W' n).receives

theorem Goes.refl (W : WalletMap) : Goes W W := ⟨.refl W, fun _ h => h, fun _ h => h⟩

theorem Goes.update {W : WalletMap} {n : String} {u : Wallet} (hk : Kept W (Function.update W n u))
    (hs : PrimaryKey SendOperation.id (W n).sends → PrimaryKey SendOperation.id u.sends)
    (hr : PrimaryKey ReceiveOperation.id (W n).receives →
      PrimaryKey ReceiveOperation.id u.receives) : Goes W (Function.update W n u) := by
  refine ⟨hk, fun m h => ?_, fun m h => ?_⟩ <;> by_cases e : m = n
  · subst e
    rw [Function.update_self]
    exact hs h
  · rwa [Function.update_of_ne e]
  · subst e
    rw [Function.update_self]
    exact hr h
  · rwa [Function.update_of_ne e]

theorem journal_setWallet {npub : String} {u : Wallet}
    (h : u.journal = (w.wallets npub).journal) (n : String) :
    ((w.setWallet npub u).wallets n).journal = (w.wallets n).journal := by
  show (Function.update w.wallets npub u n).journal = _
  by_cases e : n = npub
  · subst e
    rw [Function.update_self, h]
  · rw [Function.update_of_ne e]

theorem advanceSend_goes {npub id : String} {r : Except Thrown SendOperation}
    (ho : AdvanceSend npub id w r w') (hu : PrimaryKey SendOperation.id (w.wallets npub).sends) :
    Goes w.wallets w'.wallets ∧ ∀ n, (w'.wallets n).journal = (w.wallets n).journal := by
  rcases ho with ⟨-, rfl⟩ | ⟨send, hsend, state, token, hid, htoken, rfl, -⟩
  · exact ⟨.refl _, fun _ => rfl⟩
  · refine ⟨.update (.update (fun s hs => ?_) fun r hr => ⟨r, hr, .refl r⟩)
      (fun h => h.update fun _ => rfl) (fun h => h), journal_setWallet rfl⟩
    refine ⟨_, mem_update.mpr ⟨s, hs, rfl⟩, ?_⟩
    by_cases e : s.id = id
    · obtain rfl : s = send := hu.eq hs hsend (e.trans hid.symm)
      rw [if_pos e]
      exact ⟨rfl, htoken⟩
    · rw [if_neg e]
      exact .refl s

theorem advanceReceive_goes {npub id : String} {r : Except Thrown ReceiveOperation}
    (ho : AdvanceReceive npub id w r w') :
    Goes w.wallets w'.wallets ∧ ∀ n, (w'.wallets n).journal = (w.wallets n).journal := by
  rcases ho with ⟨-, rfl⟩ | ⟨receive, -, state, -, rfl, -⟩
  · exact ⟨.refl _, fun _ => rfl⟩
  · refine ⟨.update (.update (fun s hs => ⟨s, hs, .refl s⟩) fun r hr => ?_) (fun h => h)
      fun h => h.update fun _ => rfl, journal_setWallet rfl⟩
    refine ⟨_, mem_update.mpr ⟨r, hr, rfl⟩, ?_⟩
    by_cases e : r.id = id
    · rw [if_pos e]
      exact rfl
    · rw [if_neg e]
      exact .refl r

/-- an operation that saves a row. -/
def WalletOp.saves : WalletOp → Bool
  | saveTransfer .. => true
  | _ => false

/-- **An operation that saves no row** keeps the operations and changes no journal. -/
theorem perform_goes {o : WalletOp} {r : o.Ans} (hi : Inv w) (hs : o.saves = false)
    (ho : perform units κ o w r w') :
    Goes w.wallets w'.wallets ∧ ∀ n, (w'.wallets n).journal = (w.wallets n).journal := by
  have stay : w'.wallets = w.wallets → Goes w.wallets w'.wallets ∧
      ∀ n, (w'.wallets n).journal = (w.wallets n).journal := by
    intro h
    rw [h]
    exact ⟨.refl _, fun _ => rfl⟩
  cases o with
  | saveTransfer npub row => cases hs
  | acquire npub =>
    rcases ho with ⟨-, rfl⟩ | ⟨-, -, rfl⟩ <;> exact stay rfl
  | release npub =>
    obtain rfl := ho
    exact stay rfl
  | unlock =>
    obtain rfl := ho
    exact stay rfl
  | isTrustedMint npub mint =>
    obtain rfl := ho
    exact stay rfl
  | randomUUID =>
    obtain ⟨-, rfl⟩ := ho
    exact stay rfl
  | openWallet | transferGet | sendsByMint | sendGet | receivesByMint | receiveGet =>
    obtain ⟨rfl, -⟩ := ho
    exact stay rfl
  | operate npub =>
    obtain ⟨u', hu', rfl⟩ := ho
    exact ⟨.update (.update hu'.sends hu'.receives) (fun _ => hu'.uniqueSends)
      fun _ => hu'.uniqueReceives, journal_setWallet hu'.journal⟩
  | sendPrepare npub mint amount unit transferId =>
    rcases ho with ⟨-, rfl⟩ | ⟨send, -, -, -, -, -, -, -, hnew, rfl, -⟩
    · exact stay rfl
    · exact ⟨.update (.update (fun s h => ⟨s, List.mem_append_left _ h, .refl s⟩)
        fun r h => ⟨r, h, .refl r⟩) (fun h => h.append hnew) id, journal_setWallet rfl⟩
  | sendExecute npub id => exact advanceSend_goes ho (hi npub).sends
  | sendRefresh npub id => exact advanceSend_goes ho (hi npub).sends
  | receivePrepare npub token =>
    rcases ho with ⟨-, rfl⟩ | ⟨receive, -, -, -, hnew, rfl, -⟩
    · exact stay rfl
    · exact ⟨.update (.update (fun s h => ⟨s, h, .refl s⟩)
        fun r h => ⟨r, List.mem_append_left _ h, .refl r⟩) id fun h => h.append hnew,
        journal_setWallet rfl⟩
  | receiveExecute npub id => exact advanceReceive_goes ho
  | receiveRefresh npub id => exact advanceReceive_goes ho

theorem mem_saveRow {row row' : Transfer} {journal : List Transfer} (h : row' ∈ saveRow row journal) :
    row' = row ∨ row' ∈ journal ∧ row'.id ≠ row.id := by
  rcases List.mem_append.mp h with h | h
  · obtain ⟨h, hne⟩ := List.mem_filter.mp h
    exact Or.inr ⟨h, by simpa using hne⟩
  · exact Or.inl (List.mem_singleton.mp h)

theorem saveRow_mem (row : Transfer) (journal : List Transfer) : row ∈ saveRow row journal :=
  List.mem_append_right _ (List.mem_singleton.mpr rfl)

theorem mem_saveRow_of_ne {row row' : Transfer} {journal : List Transfer} (h : row' ∈ journal)
    (hne : row'.id ≠ row.id) : row' ∈ saveRow row journal :=
  List.mem_append_left _ (List.mem_filter.mpr ⟨h, by simpa using hne⟩)

theorem PrimaryKey.saveRow {row : Transfer} {journal : List Transfer}
    (h : PrimaryKey Transfer.id journal) : PrimaryKey Transfer.id (saveRow row journal) := by
  refine PrimaryKey.append (List.Nodup.sublist (List.Sublist.map _ List.filter_sublist) h) ?_
  intro r hr
  have hne := (List.mem_filter.mp hr).2
  simpa using hne

/-- the rows of a journal go forward. -/
def RowsForward (W W' : WalletMap) : Prop :=
  ∀ n, ∀ row ∈ (W n).journal, ∃ row' ∈ (W' n).journal, Forward row row'

theorem RowsForward.trans {W W' W'' : WalletMap} (h : RowsForward W W') (h' : RowsForward W' W'') :
    RowsForward W W'' := by
  intro n row hrow
  obtain ⟨row', hrow', hf⟩ := h n row hrow
  obtain ⟨row'', hrow'', hf'⟩ := h' n row' hrow'
  exact ⟨row'', hrow'', hf.trans hf'⟩

theorem RowsForward.same {W W' : WalletMap} (h : ∀ n, (W' n).journal = (W n).journal) :
    RowsForward W W' := fun n row hrow => ⟨row, h n ▸ hrow, .refl row⟩

/-- **A permitted operation** keeps the invariant, and rows go forward. -/
theorem perform_inv {o : WalletOp} {r : o.Ans} (hi : Inv w) (hmay : may κ o w)
    (ho : perform units κ o w r w') : Inv w' ∧ RowsForward w.wallets w'.wallets := by
  cases hsave : o.saves with
  | false =>
    obtain ⟨hg, hj⟩ := perform_goes hi hsave ho
    refine ⟨fun n => ⟨?_, hg.sends n (hi n).sends, hg.receives n (hi n).receives,
      fun row hrow => ?_⟩, .same hj⟩
    · rw [hj]
      exact (hi n).rows
    · rw [hj] at hrow
      exact ((hi n).ok row hrow).mono hg.kept
  | true =>
    cases o with
    | saveTransfer npub row =>
      rcases ho with ⟨-, rfl⟩ | ⟨-, rfl⟩
      · exact ⟨hi, .same fun _ => rfl⟩
      · obtain ⟨hok, hforward⟩ := hmay.2 npub row rfl
        have hk : Kept w.wallets (w.setWallet npub { w.wallets npub with
            journal := saveRow row (w.wallets npub).journal }).wallets := .same rfl rfl
        refine ⟨fun n => ?_, fun n row' hrow' => ?_⟩
        · by_cases e : n = npub
          · subst e
            refine ⟨?_, ?_, ?_, fun row' hrow' => ?_⟩
            all_goals simp only [World.setWallet, Function.update_self] at *
            · exact PrimaryKey.saveRow (hi n).rows
            · exact (hi n).sends
            · exact (hi n).receives
            · rcases mem_saveRow hrow' with rfl | ⟨hrow', -⟩
              · exact hok.mono hk
              · exact ((hi n).ok row' hrow').mono hk
          · have heq : (w.setWallet npub { w.wallets npub with
                journal := saveRow row (w.wallets npub).journal }).wallets n = w.wallets n :=
              Function.update_of_ne e ..
            refine ⟨?_, ?_, ?_, fun row' hrow' => ((hi n).ok row' ?_).mono hk⟩
            all_goals rw [heq] at *
            · exact (hi n).rows
            · exact (hi n).sends
            · exact (hi n).receives
            · exact hrow'
        · by_cases e : n = npub
          · subst e
            simp only [World.setWallet, Function.update_self]
            by_cases eid : row'.id = row.id
            · exact ⟨row, saveRow_mem .., hforward row' hrow' eid⟩
            · exact ⟨row', mem_saveRow_of_ne hrow' eid, .refl row'⟩
          · refine ⟨row', ?_, .refl row'⟩
            show row' ∈ (Function.update w.wallets npub _ n).journal
            rwa [Function.update_of_ne e]
    | _ => cases hsave

/-! ## what a process knows under its locks -/

/-- What depends on the wallets `ns` only, and stays true while operations go on and the journals
do not change. -/
structure Durable (ns : List String) (P : WalletMap → Prop) : Prop where
  own : ∀ W W', (∀ n ∈ ns, W' n = W n) → P W → P W'
  persists : ∀ W W', Kept W W' → (∀ n, (W' n).journal = (W n).journal) → P W → P W'

/-- process `κ` holds the locks of the wallets `ns` and knows `P` of them. -/
def Holds (κ : ℕ) (ns : List String) (P : WalletMap → Prop) (w : World) : Prop :=
  (∀ n ∈ ns, w.locks n = some κ) ∧ P w.wallets

/-- process `κ` holds the locks of the wallets `ns`. -/
abbrev Locked (κ : ℕ) (ns : List String) : World → Prop := Holds κ ns fun _ => True

/-- a send that was seen in wallet `n`. -/
def Known (n : String) (send : SendOperation) (W : WalletMap) : Prop :=
  ∃ s ∈ (W n).sends, SendKept send s

/-- a receive that was seen in wallet `n`. -/
def KnownReceive (n : String) (receive : ReceiveOperation) (W : WalletMap) : Prop :=
  ∃ r ∈ (W n).receives, ReceiveKept receive r

section
variable {ns : List String} {n : String} {P Q : WalletMap → Prop}

theorem Durable.and (hP : Durable ns P) (hQ : Durable ns Q) : Durable ns fun W => P W ∧ Q W :=
  ⟨fun W W' h hw => ⟨hP.own W W' h hw.1, hQ.own W W' h hw.2⟩,
    fun W W' hk hj hw => ⟨hP.persists W W' hk hj hw.1, hQ.persists W W' hk hj hw.2⟩⟩

theorem Durable.const (p : Prop) : Durable ns fun _ => p :=
  ⟨fun _ _ _ h => h, fun _ _ _ _ h => h⟩

theorem Durable.cons (hP : Durable ns P) : Durable (n :: ns) P :=
  ⟨fun W W' h => hP.own W W' fun m hm => h m (List.mem_cons_of_mem n hm), hP.persists⟩

theorem durable_row (hn : n ∈ ns) (row : Transfer) :
    Durable ns fun W => row ∈ (W n).journal :=
  ⟨fun W W' h hw => by rw [h n hn]; exact hw, fun W W' _ hj hw => by rw [hj n]; exact hw⟩

theorem durable_fresh (hn : n ∈ ns) (id : String) :
    Durable ns fun W => ∀ row ∈ (W n).journal, row.id ≠ id :=
  ⟨fun W W' h hw => by rw [h n hn]; exact hw, fun W W' _ hj hw => by rw [hj n]; exact hw⟩

theorem durable_known (hn : n ∈ ns) (send : SendOperation) : Durable ns (Known n send) := by
  refine ⟨fun W W' h hw => ?_, fun W W' hk _ hw => ?_⟩
  · unfold Known
    rw [h n hn]
    exact hw
  · obtain ⟨s, hs, hkept⟩ := hw
    obtain ⟨s', hs', hkept'⟩ := hk.sends n s hs
    exact ⟨s', hs', hkept.trans hkept'⟩

theorem durable_knownReceive (hn : n ∈ ns) (receive : ReceiveOperation) :
    Durable ns (KnownReceive n receive) := by
  refine ⟨fun W W' h hw => ?_, fun W W' hk _ hw => ?_⟩
  · unfold KnownReceive
    rw [h n hn]
    exact hw
  · obtain ⟨r, hr, hkept⟩ := hw
    obtain ⟨r', hr', hkept'⟩ := hk.receives n r hr
    exact ⟨r', hr', hkept.trans hkept'⟩

end

/-- an operation that changes no lock. -/
def WalletOp.keepsLocks : WalletOp → Bool
  | acquire _ | release _ | unlock => false
  | _ => true

theorem perform_locks {o : WalletOp} {r : o.Ans} (hl : o.keepsLocks = true)
    (ho : perform units κ o w r w') : w'.locks = w.locks := by
  cases o with
  | acquire | release | unlock => cases hl
  | isTrustedMint npub mint =>
    obtain rfl := ho
    rfl
  | randomUUID =>
    obtain ⟨-, rfl⟩ := ho
    rfl
  | openWallet | transferGet | sendsByMint | sendGet | receivesByMint | receiveGet =>
    obtain ⟨rfl, -⟩ := ho
    rfl
  | operate npub =>
    obtain ⟨u', -, rfl⟩ := ho
    rfl
  | saveTransfer npub row =>
    rcases ho with ⟨-, rfl⟩ | ⟨-, rfl⟩ <;> rfl
  | sendPrepare npub mint amount unit transferId =>
    rcases ho with ⟨-, rfl⟩ | ⟨send, -, -, -, -, -, -, -, -, rfl, -⟩ <;> rfl
  | sendExecute | sendRefresh =>
    rcases ho with ⟨-, rfl⟩ | ⟨send, -, state, token, -, -, rfl, -⟩ <;> rfl
  | receivePrepare npub token =>
    rcases ho with ⟨-, rfl⟩ | ⟨receive, -, -, -, -, rfl, -⟩ <;> rfl
  | receiveExecute | receiveRefresh =>
    rcases ho with ⟨-, rfl⟩ | ⟨receive, -, state, -, rfl, -⟩ <;> rfl

/-- an operation changes the wallet that it uses only. -/
theorem perform_wallet {o : WalletOp} {r : o.Ans} (ho : perform units κ o w r w') {n : String}
    (hn : o.wallet ≠ some n) : w'.wallets n = w.wallets n := by
  have other : ∀ {npub : String} (u : Wallet), some npub ≠ some n →
      (w.setWallet npub u).wallets n = w.wallets n := fun u h =>
    Function.update_of_ne (fun e => h (congrArg some e.symm)) ..
  cases o with
  | acquire npub =>
    rcases ho with ⟨-, rfl⟩ | ⟨-, -, rfl⟩ <;> rfl
  | release | unlock | isTrustedMint =>
    obtain rfl := ho
    rfl
  | randomUUID =>
    obtain ⟨-, rfl⟩ := ho
    rfl
  | openWallet | transferGet | sendsByMint | sendGet | receivesByMint | receiveGet =>
    obtain ⟨rfl, -⟩ := ho
    rfl
  | operate npub =>
    obtain ⟨u', -, rfl⟩ := ho
    exact other u' hn
  | saveTransfer npub row =>
    rcases ho with ⟨-, rfl⟩ | ⟨-, rfl⟩
    · rfl
    · exact other _ hn
  | sendPrepare npub mint amount unit transferId =>
    rcases ho with ⟨-, rfl⟩ | ⟨send, -, -, -, -, -, -, -, -, rfl, -⟩
    · rfl
    · exact other _ hn
  | sendExecute | sendRefresh =>
    rcases ho with ⟨-, rfl⟩ | ⟨send, -, state, token, -, -, rfl, -⟩
    · rfl
    · exact other _ hn
  | receivePrepare npub token =>
    rcases ho with ⟨-, rfl⟩ | ⟨receive, -, -, -, -, rfl, -⟩
    · rfl
    · exact other _ hn
  | receiveExecute | receiveRefresh =>
    rcases ho with ⟨-, rfl⟩ | ⟨receive, -, state, -, rfl, -⟩
    · rfl
    · exact other _ hn

/-- **Another process** changes neither a locked wallet nor its lock. -/
theorem other_unchanged {o : WalletOp} {r : o.Ans} {κ' : ℕ} {n : String} (hne : κ' ≠ κ)
    (hn : w.locks n = some κ) (hmay : may κ' o w) (ho : perform units κ' o w r w') :
    w'.wallets n = w.wallets n ∧ w'.locks n = some κ := by
  have hwallet : o.wallet ≠ some n := fun h =>
    hne (Option.some.inj ((hmay.1 n h).symm.trans hn))
  refine ⟨perform_wallet ho hwallet, ?_⟩
  cases hl : o.keepsLocks with
  | true => rw [perform_locks hl ho, hn]
  | false =>
    cases o with
    | acquire npub =>
      rcases ho with ⟨-, rfl⟩ | ⟨hfree, -, rfl⟩
      · exact hn
      · have e : n ≠ npub := by
          rintro rfl
          rw [hn] at hfree
          cases hfree
        exact (Function.update_of_ne e ..).trans hn
    | release npub =>
      obtain rfl := ho
      exact (Function.update_of_ne (fun e => hwallet (congrArg some e.symm)) ..).trans hn
    | unlock =>
      obtain rfl := ho
      show (if w.locks n = some κ' then none else w.locks n) = some κ
      rw [hn, if_neg fun e => hne (Option.some.inj e).symm]
    | _ => cases hl

variable {host : Host} {ns : List String} {n : String} {P Q : WalletMap → Prop}

theorem stable_holds (hP : Durable ns P) : Stable (processes host units) κ (Holds κ ns P) := by
  rintro w w' ⟨hlocks, hp⟩ ⟨κ', o, r, hne, -, hmay, -, ho⟩
  have hkept := fun n hn => other_unchanged hne (hlocks n hn) hmay ho
  exact ⟨fun n hn => (hkept n hn).2, hP.own _ _ (fun n hn => (hkept n hn).1) hp⟩

end

end Wallets
end WmAutopilot
