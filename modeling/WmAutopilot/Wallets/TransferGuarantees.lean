import WmAutopilot.Async.Solo
import WmAutopilot.Wallets.TransferCommands

/-!
# A transfer moves value once

* `TransferGuarantees`    a transfer is tied to one send and one receive, and its state moves forward;
* `transfer_once`         **in attributed runs of the processes** this holds of every journal;
* `transfer_twice`        a resumption that takes the send of another payment.
-/

set_option autoImplicit false

namespace WmAutopilot
namespace Wallets
open Js Async Sql

section
variable {host : Host} {units : String → String}

/-- What holds of the wallets between two moments of a run. -/
structure TransferGuarantees (w w' : World) : Prop where
  /-- the send and the receive of a row do not change, and its state moves forward only. -/
  forward : RowsForward w.wallets w'.wallets
  /-- the send of a row was prepared for it, and its receive redeems the proofs of that send. -/
  rows : ∀ n, ∀ row ∈ (w'.wallets n).journal, RowOk w'.wallets n row
  /-- two rows of a journal do not share a send. -/
  unshared : ∀ n, ∀ row ∈ (w'.wallets n).journal, ∀ row' ∈ (w'.wallets n).journal, ∀ sendId,
    row.sendId = some sendId → row'.sendId = some sendId → row = row'

/-- rows with the same send are the same. -/
theorem unshared_of_inv {w : World} (hi : Inv w) {n : String} {row row' : Transfer}
    (hrow : row ∈ (w.wallets n).journal) (hrow' : row' ∈ (w.wallets n).journal) {sendId : String}
    (h : row.sendId = some sendId) (h' : row'.sendId = some sendId) : row = row' := by
  obtain ⟨send, hsend, hid, hfor⟩ := ((hi n).ok row hrow).tied sendId h
  obtain ⟨send', hsend', hid', hfor'⟩ := ((hi n).ok row' hrow').tied sendId h'
  obtain rfl := (hi n).sends.eq hsend hsend' (hid.trans hid'.symm)
  exact (hi n).rows.eq hrow hrow' (Option.some.inj (hfor.symm.trans hfor'))

/-- **A transfer moves value once** in runs in which a resumption only finds sends that were prepared
for its row, and a row that is not received yet: it is tied to one send, which was prepared for it,
and to one receive, of the proofs of that send; and its state moves forward only. -/
theorem transfer_once (host : Host) (units : String → String) {c c' : Conf api World}
    (h : Reachable (restricted host units Attributed) World.Initial c)
    (hs : Steps (restricted host units Attributed) c c') : TransferGuarantees c.state c'.state := by
  have K := processes_keeps host units
  have hok : ConfOk (processes host units) c := K.reachable (fun w => Inv.initial) h
  have hinv : Inv c'.state := (hok.steps K hs).inv
  have hforward : RowsForward c.state.wallets c'.state.wallets := by
    refine hok.run K (R := fun w w' => RowsForward w.wallets w'.wallets) ?_ ?_ ?_ ?_ hs
    · exact fun w => .same fun _ => rfl
    · exact fun w w' w'' => .trans
    · exact fun κ o w r w' hi hmay ho => (perform_inv hi hmay ho.2).2
    · rintro w w' - rfl
      exact .same fun _ => rfl
  exact ⟨hforward, fun n row => (hinv n).ok row, fun n row hrow row' hrow' sendId =>
    unshared_of_inv hinv hrow hrow'⟩

end

/-! ## runs -/

/-- a text of a JSON array of texts, without control characters. -/
def escaped : List Char → List Char
  | [] => ['"']
  | c :: rest => if c = '"' ∨ c = '\\' then '\\' :: c :: escaped rest else c :: escaped rest

def texts : List String → List Char
  | [] => [']']
  | [text] => '"' :: (escaped text.toList ++ [']'])
  | text :: text' :: rest => '"' :: (escaped text.toList ++ ',' :: texts (text' :: rest))

theorem escaped_inj {a b x y : List Char} (h : escaped a ++ x = escaped b ++ y) :
    a = b ∧ x = y := by
  induction a generalizing b with
  | nil =>
    cases b with
    | nil => exact ⟨rfl, (List.cons.inj h).2⟩
    | cons c b =>
      rw [escaped, escaped] at h
      split at h <;> rename_i hc <;> simp only [List.cons_append, List.cons.injEq] at h
      · exact absurd h.1 (by decide)
      · exact absurd (Or.inl h.1.symm) hc
  | cons c a ih =>
    cases b with
    | nil =>
      rw [escaped, escaped] at h
      split at h <;> rename_i hc <;> simp only [List.cons_append, List.cons.injEq] at h
      · exact absurd h.1 (by decide)
      · exact absurd (Or.inl h.1) hc
    | cons d b =>
      rw [escaped, escaped] at h
      split at h <;> split at h <;> rename_i hc hd <;>
        simp only [List.cons_append, List.cons.injEq] at h
      · obtain ⟨rfl, rfl⟩ := ih h.2.2
        exact ⟨by rw [h.2.1], rfl⟩
      · exact absurd (Or.inr h.1.symm) hd
      · exact absurd (Or.inr h.1) hc
      · obtain ⟨rfl, rfl⟩ := ih h.2
        exact ⟨by rw [h.1], rfl⟩

theorem texts_inj {a b : List String} (h : texts a = texts b) : a = b := by
  induction a generalizing b with
  | nil =>
    rcases b with _ | ⟨t, _ | ⟨t', rest'⟩⟩
    · rfl
    · simp [texts] at h
    · simp [texts] at h
  | cons s rest ih =>
    rcases b with _ | ⟨t, rest'⟩
    · rcases rest with _ | ⟨s', rest⟩ <;> simp [texts] at h
    rcases rest with _ | ⟨s', rest⟩ <;> rcases rest' with _ | ⟨t', rest'⟩
    all_goals obtain ⟨hs, hx⟩ := escaped_inj (List.cons.inj h).2
    · rw [String.toList_inj.mp hs]
    · simp at hx
    · simp at hx
    · rw [String.toList_inj.mp hs, ih (List.cons.inj hx).2]

/-- a platform that knows one URL. -/
def someHost : Host where
  url text := if text = "https://mint" then
    some { protocol := "https:", authority := "//mint", pathname := "/", origin := "https://mint" }
    else none
  stringify l := String.ofList ('[' :: texts l)
  stringify_inj _ _ h := texts_inj (List.cons.inj (String.ofList_injective h)).2

abbrev someUnits (_ : String) : String := "sat"

theorem mintUrl_some : mintUrl someHost (some "https://mint") = .ok "https://mint" := by
  decide +kernel

theorem positiveAmount_some : positiveAmount (some "5") = .ok "5" := by
  decide +kernel

theorem recipient_some : requiredText (some "b") "--to-bot" = .ok "b" := by
  decide +kernel

/-- the wallets of two bots. -/
def pair (u v : Wallet) : WalletMap := fun n => if n = "a" then u else if n = "b" then v else {}

/-- no lock is held. -/
def free (W : WalletMap) : World := ⟨W, fun _ => none⟩

/-- process `κ` holds the locks of both. -/
def held (κ : ℕ) (W : WalletMap) : World :=
  ⟨W, Function.update (Function.update (fun _ => none) "a" (some κ)) "b" (some κ)⟩

theorem setWallet_a (κ : ℕ) (u u' v : Wallet) :
    (held κ (pair u v)).setWallet "a" u' = held κ (pair u' v) := by
  refine congrArg (held κ) (funext fun n => ?_)
  by_cases e : n = "a" <;> simp [pair, held, e]

theorem setWallet_b (κ : ℕ) (u v v' : Wallet) :
    (held κ (pair u v)).setWallet "b" v' = held κ (pair u v') := by
  refine congrArg (held κ) (funext fun n => ?_)
  by_cases e : n = "b" <;> simp [pair, held, e]

section
variable {R : WalletOp → World → Prop} {κ : ℕ} {α : Type}

/-- one operation. -/
theorem ran_op {o : WalletOp} {he : o.Ans = Except Thrown α} {r : o.Ans} {w w' : World}
    (hR : R o w) (ho : perform someUnits κ o w r w') :
    Ran (restricted someHost someUnits R) κ (tryOp o he) w (he ▸ r) w' := Ran.tryOp ⟨hR, ho⟩

theorem ran_now {x : Except Thrown α} {a : α} (h : x = .ok a) (w : World) :
    Ran (restricted someHost someUnits R) κ (now x) w (.ok a) w := by
  subst h
  exact .ret _ _

/-- a wallet is used by a process. -/
theorem ran_withWallet (hR : ∀ o w, Attributed o w → R o w) {n : String}
    {callback : String → Exc api Thrown α} {w : World} (w' : World) {r : Except Thrown α}
    (hfree : w.locks n = none)
    (h : Ran (restricted someHost someUnits R) κ (callback "sat")
      { w with locks := Function.update w.locks n (some κ) } r w') :
    Ran (restricted someHost someUnits R) κ (withWallet n callback) w r
      { w' with locks := Function.update w'.locks n none } := by
  refine Ran.bind (ran_op (o := .acquire n) (r := .ok ()) (hR _ _ trivial)
    (.inr ⟨hfree, rfl, rfl⟩)) ?_
  refine Ran.andFinally (Ran.bind (ran_op (o := .openWallet n) (r := .ok "sat") (hR _ _ trivial)
    ⟨rfl, .inr rfl⟩) h) ?_
  exact Ran.op ⟨hR _ _ trivial, rfl⟩

theorem ran_trustedMint (hR : ∀ o w, Attributed o w → R o w) (n : String) (w : World) :
    Ran (restricted someHost someUnits R) κ (trustedMint someHost n (some "https://mint")) w
      (.ok "https://mint") w := by
  refine (ran_now mintUrl_some w).bind (Ran.bind (ran_op (o := .isTrustedMint n "https://mint") (r := .ok true)
    (hR _ _ trivial) rfl) ?_)
  exact .pure _ _

/-- a row is saved. -/
theorem ran_save (hR : ∀ o w, Attributed o w → R o w) (row : Transfer) (u v : Wallet) :
    Ran (restricted someHost someUnits R) κ (tryOp (.saveTransfer "a" row) rfl)
      (held κ (pair u v)) (.ok ())
      (held κ (pair { u with journal := saveRow row u.journal } v)) := by
  refine ran_op (o := .saveTransfer "a" row) (r := .ok ()) (hR _ _ trivial) (.inr ⟨rfl, ?_⟩)
  exact (setWallet_a κ u _ v).symm

/-- **A transfer runs under both locks.** -/
theorem ran_transfer (input : TransferInput) (found : Option Transfer)
    (hR : ∀ o w, Attributed o w → R o w) {W W' W'' : WalletMap} {row : Transfer} {r : Except Thrown Transfer}
    (hfound : ∀ w, w.wallets = W → Ran (restricted someHost someUnits R) κ
      (resumedTransfer "a" input.id) w (.ok found) w)
    (hrecipient : recipientOf found input = .ok "b")
    (hmint : (found.map (·.mint)).or input.mint = some "https://mint")
    (hrow : Ran (restricted someHost someUnits R) κ
      (rowOf "a" "b" "https://mint" "sat" found input) (held κ W) (.ok row) (held κ W'))
    (h : Ran (restricted someHost someUnits R) κ
      (transferOn someHost "a" "https://mint" row) (held κ W') r (held κ W'')) :
    Ran (restricted someHost someUnits R) κ (transferCommand someHost "a" input) (free W) r
      (free W'') := by
  have hlocks : free W'' =
      ⟨W'', Function.update (Function.update (held κ W'').locks "b" none) "a" none⟩ := by
    refine congrArg (World.mk W'') (funext fun n => ?_)
    by_cases ea : n = "a"
    · simp [ea]
    · by_cases eb : n = "b" <;> simp [ea, eb, held]
  rw [hlocks]
  refine ran_withWallet hR ⟨W'', Function.update (held κ W'').locks "b" none⟩ rfl ?_
  refine Ran.bind (hfound _ rfl) ?_
  refine Ran.bind (ran_now hrecipient _) ?_
  rw [if_neg (by decide)]
  refine ran_withWallet hR (held κ W'') rfl ?_
  rw [if_neg (by decide)]
  rw [hmint]
  refine Ran.bind (ran_trustedMint hR "a" _) ?_
  refine Ran.bind (ran_trustedMint hR "b" _) ?_
  exact Ran.bind hrow h

/-- what the new transfer is asked with. -/
def someInput : TransferInput where
  recipient := some "b"
  mint := some "https://mint"
  amount := some "5"

/-- a row of the transfer. -/
def someRow (state : TransferState) (sendId receiveId : Option String) : Transfer where
  id := "t"
  recipient := "b"
  mint := "https://mint"
  amount := "5"
  unit := "sat"
  state := state
  sendId := sendId
  receiveId := receiveId
  previousSendIds := []

/-- a send of the amount of the transfer. -/
def someSend (id : String) (preparedFor : Option String) (state : OperationState)
    (token : Option Token) : SendOperation where
  id := id
  mintUrl := "https://mint"
  unit := "sat"
  amount := "5"
  method := "default"
  state := state
  token := token
  preparedFor := preparedFor

def someToken : Token := ⟨"https://mint", [⟨"00", "5", "C", "secret"⟩]⟩

def someReceive (state : OperationState) : ReceiveOperation where
  id := "r"
  mintUrl := "https://mint"
  inputProofs := someToken.proofs
  state := state

/-- the wallet of the sender. -/
def sender (send : SendOperation) (row : Transfer) : Wallet where
  sends := [send]
  journal := [row]

theorem ran_new (hR : ∀ o w, Attributed o w → R o w) :
    Ran (restricted someHost someUnits R) κ (rowOf "a" "b" "https://mint" "sat" none someInput)
      (held κ (pair {} {})) (.ok (someRow .preparing none none))
      (held κ (pair { journal := [someRow .preparing none none] } {})) := by
  refine Ran.bind (ran_now positiveAmount_some _) ?_
  refine Ran.bind (a := "t") (Ran.op ⟨hR _ _ trivial, ?_, rfl⟩) ?_
  · intro n row hrow
    simp only [held, pair] at hrow
    split at hrow
    · cases hrow
    · split at hrow <;> cases hrow
  refine Ran.bind (ran_op (o := .sendsByMint "a" "https://mint" none) (r := .ok [])
    (hR _ _ trivial) ⟨rfl, .inr rfl⟩) ?_
  exact Ran.bind (ran_save hR (someRow .preparing none none) {} {}) (.pure _ _)

/-- a row is tied to a send that is prepared for it. -/
theorem ran_tieSend (hR : ∀ o w, Attributed o w → R o w) :
    Ran (restricted someHost someUnits R) κ
      (tieSend "a" "https://mint" (someRow .preparing none none))
      (held κ (pair { journal := [someRow .preparing none none] } {}))
      (.ok (someRow .preparing (some "s") none, someSend "s" (some "t") .prepared none))
      (held κ (pair (sender (someSend "s" (some "t") .prepared none)
        (someRow .preparing (some "s") none)) {})) := by
  refine Ran.bind (ran_op (o := .sendsByMint "a" "https://mint" (some (someRow .preparing none none)))
    (r := .ok []) (hR _ _ fun s h => ?_) ⟨rfl, .inr rfl⟩) ?_
  · exact absurd h List.not_mem_nil
  refine Ran.bind (ran_op (o := .sendPrepare "a" "https://mint" "5" "sat" (some "t"))
    (r := .ok (someSend "s" (some "t") .prepared none)) (hR _ _ trivial)
    (.inr ⟨_, rfl, rfl, rfl, rfl, rfl, rfl, rfl, ?_, (setWallet_a ..).symm, .inr rfl⟩)) ?_
  · exact fun s h => absurd h List.not_mem_nil
  exact Ran.bind (ran_save hR (someRow .preparing (some "s") none) _ {}) (.pure _ _)

theorem advanceSend_some (send : SendOperation) (state : OperationState) (token : Option Token)
    (ht : ∀ t, send.token = some t → token = some t) (row : Transfer) (v : Wallet) :
    AdvanceSend "a" send.id (held κ (pair (sender send row) v)) (.ok { send with state, token })
      (held κ (pair (sender { send with state, token } row) v)) := by
  refine .inr ⟨send, List.mem_singleton.mpr rfl, state, token, rfl, ht, ?_, .inr rfl⟩
  refine .trans ?_ (setWallet_a ..).symm
  simp [held, pair, sender, Sql.update]

theorem advanceReceive_some (receive : ReceiveOperation) (state : OperationState) (u : Wallet) :
    AdvanceReceive "b" receive.id (held κ (pair u { receives := [receive] }))
      (.ok { receive with state }) (held κ (pair u { receives := [{ receive with state }] })) := by
  refine .inr ⟨receive, List.mem_singleton.mpr rfl, state, rfl, ?_, .inr rfl⟩
  refine .trans ?_ (setWallet_b ..).symm
  simp [held, pair, Sql.update]

/-- the send is executed. -/
theorem ran_redeemableSend (hR : ∀ o w, Attributed o w → R o w) (row : Transfer) (v : Wallet) :
    Ran (restricted someHost someUnits R) κ
      (redeemableSend "a" (someSend "s" (some "t") .prepared none))
      (held κ (pair (sender (someSend "s" (some "t") .prepared none) row) v))
      (.ok (someSend "s" (some "t") .pending (some someToken), someToken))
      (held κ (pair (sender (someSend "s" (some "t") .pending (some someToken)) row) v)) := by
  refine Ran.bind (ran_op (o := .sendExecute "a" "s") (hR _ _ trivial)
    (advanceSend_some (someSend "s" (some "t") .prepared none) .pending (some someToken)
      (fun _ h => (by cases h)) row v)) ?_
  exact .pure _ _

/-- a receive of its proofs is prepared. -/
theorem ran_tieReceive (hR : ∀ o w, Attributed o w → R o w) (send : SendOperation) :
    Ran (restricted someHost someUnits R) κ
      (tieReceive someHost "a" "https://mint" (someRow .sent (some "s") none) someToken)
      (held κ (pair (sender send (someRow .sent (some "s") none)) {}))
      (.ok (someRow .sent (some "s") (some "r"), someReceive .prepared))
      (held κ (pair (sender send (someRow .sent (some "s") (some "r")))
        { receives := [someReceive .prepared] })) := by
  refine Ran.bind (ran_op (o := .receivesByMint "b" "https://mint") (r := .ok []) (hR _ _ trivial)
    ⟨rfl, .inr rfl⟩) ?_
  refine Ran.bind (ran_op (o := .receivePrepare "b" someToken) (r := .ok (someReceive .prepared))
    (hR _ _ trivial) (.inr ⟨_, rfl, rfl, rfl, ?_, (setWallet_b ..).symm, .inr rfl⟩)) ?_
  · exact fun x h => absurd h List.not_mem_nil
  exact Ran.bind (ran_save hR (someRow .sent (some "s") (some "r")) _ _) (.pure _ _)

/-- the receive is executed. -/
theorem ran_redeem (hR : ∀ o w, Attributed o w → R o w) (send : SendOperation) :
    Ran (restricted someHost someUnits R) κ
      (redeem "a" (someRow .sent (some "s") (some "r")) (someReceive .prepared))
      (held κ (pair (sender send (someRow .sent (some "s") (some "r")))
        { receives := [someReceive .prepared] }))
      (.ok (someRow .received (some "s") (some "r")))
      (held κ (pair (sender send (someRow .received (some "s") (some "r")))
        { receives := [someReceive .finalized] })) := by
  refine Ran.bind (.pure (someReceive .prepared) _) ?_
  refine Ran.bind (ran_op (o := .receiveExecute "b" "r") (hR _ _ trivial)
    (advanceReceive_some (someReceive .prepared) .finalized _)) ?_
  exact Ran.bind (ran_save hR (someRow .received (some "s") (some "r")) _ _) (.pure _ _)

/-- the wallets after a whole transfer. -/
def transferred : WalletMap :=
  pair (sender (someSend "s" (some "t") .finalized (some someToken))
    (someRow .completed (some "s") (some "r"))) { receives := [someReceive .finalized] }

/-- a whole transfer. -/
theorem ran_transferOn (hR : ∀ o w, Attributed o w → R o w) :
    Ran (restricted someHost someUnits R) κ
      (transferOn someHost "a" "https://mint" (someRow .preparing none none))
      (held κ (pair { journal := [someRow .preparing none none] } {}))
      (.ok (someRow .completed (some "s") (some "r"))) (held κ transferred) := by
  refine Ran.bind (ran_tieSend hR) ?_
  refine Ran.bind (ran_redeemableSend hR _ _) ?_
  refine Ran.bind (ran_save hR (someRow .sent (some "s") none) _ _) ?_
  refine Ran.bind (ran_tieReceive hR _) ?_
  refine Ran.bind (ran_redeem hR _) ?_
  refine Ran.bind (ran_op (o := .sendRefresh "a" "s") (hR _ _ trivial)
    (advanceSend_some (someSend "s" (some "t") .pending (some someToken)) .finalized
      (some someToken) (fun _ h => h) _ _)) ?_
  exact Ran.bind (ran_save hR (someRow .completed (some "s") (some "r")) _ _) (.pure _ _)

end

theorem free_initial : free (pair {} {}) = {} := by
  refine congrArg free (funext fun n => ?_) |>.trans rfl
  simp [pair]

/-- a program that may be started. -/
def Startable (R : WalletOp → World → Prop) (p : Prog api Unit) : Prop :=
  p.Suspended ∧ ∀ κ w, (restricted someHost someUnits R).spawn w κ p

theorem startable_transfer (R : WalletOp → World → Prop) (input : TransferInput) :
    Startable R (transferCommand someHost "a" input).detach :=
  ⟨(rfl : api.yields (.acquire "a") = true), fun _ _ => .transfer "a" input⟩

/-- a whole transfer. -/
theorem transferred_some : ∃ p, Startable Attributed p ∧
    Solo (restricted someHost someUnits Attributed) 0 p {} (.ret ()) (free transferred) := by
  refine ⟨_, startable_transfer Attributed someInput, ?_⟩
  rw [← free_initial]
  exact (ran_transfer someInput none (fun _ _ h => h)
    (fun w _ => .pure none w) recipient_some rfl (ran_new fun _ _ h => h)
    (ran_transferOn fun _ _ h => h)).solo

theorem transfer_once_some : ∃ c c' : Conf api World,
    (∃ row ∈ (c'.state.wallets "a").journal, row.state = .completed) ∧
      TransferGuarantees c.state c'.state := by
  obtain ⟨p, hp, run⟩ := transferred_some
  obtain ⟨c', hsteps, hs, -⟩ := Solo.started (c := .idle {}) rfl rfl run hp.1 (hp.2 _ _)
  refine ⟨.idle {}, c', ⟨someRow .completed (some "s") (some "r"), ?_, rfl⟩,
    transfer_once someHost someUnits ⟨{}, rfl, .refl⟩ hsteps⟩
  rw [hs]
  exact List.mem_singleton.mpr rfl

/-- every operation is run. -/
theorem unrestricted (o : WalletOp) (w : World) (_ : Attributed o w) : True := trivial

/-- the mint does not answer when the send is prepared. -/
theorem refused_some : ∃ p, Startable (fun _ _ => True) p ∧ Solo (system someHost someUnits) 0 p {}
    (.ret ()) (free (pair { journal := [someRow .preparing none none] } {})) := by
  refine ⟨_, startable_transfer _ someInput, ?_⟩
  rw [← free_initial]
  refine (ran_transfer (r := .error { message := "unreachable" }) someInput none unrestricted
    (fun w _ => .pure none w) recipient_some rfl (ran_new unrestricted) ?_).solo
  refine Ran.throws (Ran.bind (ran_op (o := .sendsByMint "a" "https://mint"
    (some (someRow .preparing none none))) (r := .ok []) trivial ⟨rfl, .inr rfl⟩) ?_)
  exact Ran.throws (ran_op (o := .sendPrepare "a" "https://mint" "5" "sat" (some "t"))
    (r := .error { message := "unreachable" }) trivial (.inl ⟨⟨_, rfl⟩, rfl⟩))

/-- the operator prepares a send of the same amount, for another payment. -/
theorem operated_some : ∃ p, Startable (fun _ _ => True) p ∧ Solo (system someHost someUnits) 1 p
    (free (pair { journal := [someRow .preparing none none] } {})) (.ret ())
    (free (pair (sender (someSend "o" none .prepared none) (someRow .preparing none none)) {})) := by
  refine ⟨(operatorCommand "a").detach,
    ⟨(rfl : api.yields (.acquire "a") = true), fun _ _ => .operator "a"⟩, ?_⟩
  have hfree : free (pair (sender (someSend "o" none .prepared none)
      (someRow .preparing none none)) {}) =
      ⟨pair (sender (someSend "o" none .prepared none) (someRow .preparing none none)) {},
        Function.update (Function.update (fun _ => none) "a" (some 1)) "a" none⟩ := by
    refine congrArg (World.mk _) (funext fun n => ?_)
    by_cases e : n = "a" <;> simp [e]
  rw [hfree]
  have hoperated : Operated { journal := [someRow .preparing none none] }
      (sender (someSend "o" none .prepared none) (someRow .preparing none none)) := by
    refine ⟨rfl, by decide, by decide, fun _ h => absurd h List.not_mem_nil, fun _ h => ?_,
      fun _ h => absurd h List.not_mem_nil⟩
    rw [List.mem_singleton.mp h]
    exact .inr rfl
  have hrun : Ran (system someHost someUnits) 1 (op (.operate "a"))
      ⟨pair { journal := [someRow .preparing none none] } {},
        Function.update (fun _ => none) "a" (some 1)⟩ (.ok ())
      ⟨pair (sender (someSend "o" none .prepared none) (someRow .preparing none none)) {},
        Function.update (fun _ => none) "a" (some 1)⟩ := by
    refine Ran.op ⟨trivial, _, hoperated, ?_⟩
    refine congrArg (fun W => World.mk W _) (funext fun n => ?_)
    by_cases e : n = "a" <;> simp [pair, e]
  have hcommand : Ran (system someHost someUnits) 1 (operatorCommand "a")
      (free (pair { journal := [someRow .preparing none none] } {})) (.ok ()) _ :=
    ran_withWallet unrestricted _ rfl hrun
  exact hcommand.solo

/-- the transfer is resumed, and takes that send. -/
theorem resumed_some : ∃ p, Startable (fun _ _ => True) p ∧ Solo (system someHost someUnits) 2 p
    (free (pair (sender (someSend "o" none .prepared none) (someRow .preparing none none)) {}))
    (.ret ())
    (free (pair (sender (someSend "o" none .prepared none)
      (someRow .preparing (some "o") none)) {})) := by
  refine ⟨_, startable_transfer _ { id := some "t" }, ?_⟩
  refine (ran_transfer (r := .error { message := "unreachable" }) { id := some "t" }
    (some (someRow .preparing none none)) unrestricted ?_ rfl rfl (.pure _ _) ?_).solo
  · rintro w hw
    exact Ran.bind (ran_op (o := .transferGet "a" "t") (r := .ok (some (someRow .preparing none none)))
      trivial ⟨rfl, .inr (by rw [hw]; rfl)⟩) (.pure _ _)
  refine Ran.bind (Ran.bind (ran_op (o := .sendsByMint "a" "https://mint"
    (some (someRow .preparing none none))) (r := .ok [someSend "o" none .prepared none]) trivial
    ⟨rfl, .inr rfl⟩) (Ran.bind (.pure (someSend "o" none .prepared none) _)
    (Ran.bind (ran_save unrestricted (someRow .preparing (some "o") none) _ _) (.pure _ _)))) ?_
  exact Ran.throws (Ran.throws (ran_op (o := .sendExecute "a" "o")
    (r := .error { message := "unreachable" }) trivial (.inl ⟨⟨_, rfl⟩, rfl⟩)))

/-- **A transfer takes the send of another payment** when it is resumed. -/
theorem transfer_twice :
    ¬∀ host units c c', Reachable (system host units) World.Initial c →
      Steps (system host units) c c' → TransferGuarantees c.state c'.state := by
  intro h
  obtain ⟨p₀, hp₀, refused⟩ := refused_some
  obtain ⟨p₁, hp₁, operated⟩ := operated_some
  obtain ⟨p₂, hp₂, resumed⟩ := resumed_some
  obtain ⟨c₀, hc₀, hs₀, -, hr₀, ht₀⟩ := refused.reachable World.Initial rfl hp₀.1 (hp₀.2 _ _)
  rw [← hs₀] at operated
  obtain ⟨c₁, hc₁, hs₁, -, hr₁, ht₁⟩ :=
    operated.extend hc₀ hr₀ (ht₀ 1 (by decide)) hp₁.1 (hp₁.2 _ _)
  rw [← hs₁] at resumed
  obtain ⟨c₂, hc₂, hs₂, -⟩ := resumed.extend hc₁ hr₁
    ((ht₁ 2 (by decide)).trans (ht₀ 2 (by decide))) hp₂.1 (hp₂.2 _ _)
  have hrow : someRow .preparing (some "o") none ∈ (c₂.state.wallets "a").journal := by
    rw [hs₂]
    exact List.mem_singleton.mpr rfl
  obtain ⟨send, hsend, -, hfor⟩ := ((h someHost someUnits c₂ c₂ hc₂ .refl).rows _ _ hrow).tied _ rfl
  rw [hs₂] at hsend
  rw [List.mem_singleton.mp hsend] at hfor
  cases hfor

end Wallets
end WmAutopilot
