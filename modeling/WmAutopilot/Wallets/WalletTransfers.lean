import Mathlib.Logic.Function.Basic
import WmAutopilot.Async.Triple
import WmAutopilot.Js.Platform
import WmAutopilot.SessionDispatch.DispatchStore
import WmAutopilot.Sql.Table

/-!
# Transfers between the wallets of bots

`transferToBot` moves value from the wallet of a bot to the wallet of another by a send of the one
and a receive of the other, and keeps a journal of it in the first wallet.

* `SendOperation`, `ReceiveOperation`, `Transfer`, `Wallet`   what a wallet holds;
* `WalletOp`                the operations, also of the wallet library, of which the documented
                            behaviour is assumed: an operation keeps its id, mint, unit, amount and
                            proofs, and its token once it has one;
* `withWallet`, `transferToBot`   the programs; a wallet is used under its lock only;
* `World`, `perform`        the wallets and their locks;
* `system`                  the processes; `restricted` attributes what a resumption finds.
-/

set_option autoImplicit false
set_option linter.unusedVariables false

namespace WmAutopilot
namespace Wallets
open Js Async
open SessionDispatches.SessionDispatchStore (utf16)

/-! ## what a wallet holds -/

/-- a proof of value: keyset, amount, signature and secret. -/
structure Proof where
  id : String
  amount : String
  C : String
  secret : String
  deriving DecidableEq, Repr

/-- the state of an operation of the wallet library. -/
inductive OperationState where
  | prepared
  | executing
  | pending
  | finalized
  | other (name : String)
  deriving DecidableEq, Repr

/-- the token of a send. -/
structure Token where
  mint : String
  proofs : List Proof
  deriving DecidableEq, Repr

structure SendOperation where
  id : String
  mintUrl : String
  unit : String
  amount : String
  method : String
  state : OperationState
  token : Option Token := none
  /-- the transfer that it was prepared for, for the statements only. -/
  preparedFor : Option String := none
  deriving DecidableEq, Repr

structure ReceiveOperation where
  id : String
  mintUrl : String
  inputProofs : List Proof
  state : OperationState
  deriving DecidableEq, Repr

/-- `Transfer["state"]` -/
inductive TransferState where
  | preparing
  | sent
  | received
  | completed
  deriving DecidableEq, Repr

/-- a row of `autopilot_wallet_transfers`. -/
structure Transfer where
  id : String
  recipient : String
  mint : String
  amount : String
  unit : String
  state : TransferState
  sendId : Option String
  receiveId : Option String
  previousSendIds : List String
  deriving DecidableEq, Repr

structure Wallet where
  sends : List SendOperation := []
  receives : List ReceiveOperation := []
  journal : List Transfer := []
  deriving DecidableEq, Repr

/-! ## operations -/

inductive WalletOp where
  /-- `acquireWalletLock(directory)` -/
  | acquire (npub : String)
  | release (npub : String)
  /-- `unlockWallet`: the locks of the process that had this slot before. -/
  | unlock
  /-- configuration, database and manager; the unit of the wallet. -/
  | openWallet (npub : String)
  /-- the other commands of an operator on a wallet. -/
  | operate (npub : String)
  | isTrustedMint (npub mint : String)
  | randomUUID
  | transferGet (npub id : String)
  | saveTransfer (npub : String) (row : Transfer)
  /-- `sendOperationRepository.getByMintUrl(mint)`, when it is read for a row of the journal. -/
  | sendsByMint (npub mint : String) (row : Option Transfer)
  | sendGet (npub id : String)
  /-- `ops.send.prepare({ mintUrl, amount, unit })`, for a transfer or for another payment. -/
  | sendPrepare (npub mint amount unit : String) (transferId : Option String)
  | sendExecute (npub id : String)
  | sendRefresh (npub id : String)
  | receivesByMint (npub mint : String)
  | receiveGet (npub id : String)
  | receivePrepare (npub : String) (token : Token)
  | receiveExecute (npub id : String)
  | receiveRefresh (npub id : String)

/-- the answer of an operation. -/
abbrev WalletOp.Ans : WalletOp → Type
  | acquire _ | saveTransfer .. => Except Thrown Unit
  | release _ | unlock | operate _ => Unit
  | openWallet _ => Except Thrown String
  | isTrustedMint .. => Except Thrown Bool
  | randomUUID => String
  | transferGet .. => Except Thrown (Option Transfer)
  | sendsByMint .. => Except Thrown (List SendOperation)
  | sendGet .. => Except Thrown (Option SendOperation)
  | sendPrepare .. | sendExecute .. | sendRefresh .. => Except Thrown SendOperation
  | receivesByMint .. => Except Thrown (List ReceiveOperation)
  | receiveGet .. => Except Thrown (Option ReceiveOperation)
  | receivePrepare .. | receiveExecute .. | receiveRefresh .. => Except Thrown ReceiveOperation

/-- the processes of the operator and of the agents. -/
abbrev api : Api := ⟨WalletOp, WalletOp.Ans, fun _ => true⟩

def op (o : WalletOp) : Exc api Thrown o.Ans := Exc.op (A := api) o
def tryOp {α : Type} (o : WalletOp) (h : o.Ans = Except Thrown α) : Exc api Thrown α :=
  Exc.tryOp (A := api) o h

/-- what does not wait. -/
def now {α : Type} (x : Except Thrown α) : Exc api Thrown α := ExceptT.mk (.ret x)

/-- what is used of the platform; `none` is a throw. -/
structure Host where
  /-- `new URL(value)` -/
  url : String → Option Url
  /-- `JSON.stringify` of an array of texts, which tells arrays apart. -/
  stringify : List String → String
  stringify_inj : ∀ a b, stringify a = stringify b → a = b

/-! ## checks -/

/-- `new WalletInputError(message)` -/
def inputError {α : Type} (message : String) : Except Thrown α := .error { message }

def requiredText (value : Option String) (name : String) : Except Thrown String :=
  match value with
  | some text => if blank text then inputError (name ++ " is required") else .ok (trim text)
  | none => inputError (name ++ " is required")

/-- `/^[1-9][0-9]*$/` -/
def isPositive (text : String) : Bool :=
  text.toList.all Char.isDigit && text.toList.head?.any (· ≠ '0')

def positiveAmount (value : Option String) : Except Thrown String := do
  let text ← requiredText value "amount"
  if isPositive text then pure text
  else inputError "amount must be a positive integer in the configured unit"

/-- a text without the slash at its end. -/
def withoutSlash (text : String) : String :=
  if text.toList.getLast? = some '/' then String.ofList text.toList.dropLast else text

def mintUrl (host : Host) (value : Option String) : Except Thrown String := do
  let text ← requiredText value "mint"
  let url ← orThrow { message := "Invalid URL" } (host.url text)
  -- a user or a password stands before an `@`
  if url.protocol ≠ "https:" ∨ '@' ∈ url.authority.toList ∨ url.search ≠ "" ∨ url.hash ≠ "" then
    inputError "Mint must be an HTTPS URL without credentials, query or fragment"
  else pure (withoutSlash url.href)

def trustedMint (host : Host) (npub : String) (value : Option String) : Exc api Thrown String := do
  let mint ← now (mintUrl host value)
  let trusted ← tryOp (.isTrustedMint npub mint) rfl
  if trusted then pure mint
  else now (inputError "Mint must be explicitly trusted by the operator")

/-- the text of a proof. -/
def proofText (host : Host) (proof : Proof) : String :=
  host.stringify [proof.id, proof.amount, proof.C, proof.secret]

def proofFingerprint (host : Host) (proofs : List Proof) : String :=
  host.stringify ((proofs.map (proofText host)).insertionSort fun a b =>
    utf16 a ≤ utf16 b)

/-! ## the transfer -/

/-- `store.withWallet(npub, callback)`, on the unit of the wallet. -/
def withWallet {α : Type} (npub : String) (callback : String → Exc api Thrown α) :
    Exc api Thrown α := do
  tryOp (.acquire npub) rfl
  (do
    let unit ← tryOp (.openWallet npub) rfl
    callback unit).andFinally (op (.release npub))

structure TransferInput where
  recipient : Option String := none
  mint : Option String := none
  amount : Option String := none
  id : Option String := none

/-- a new row, journaled. -/
def newTransfer (source recipient mint unit : String) (input : TransferInput) :
    Exc api Thrown Transfer := do
  let amount ← now (positiveAmount input.amount)
  let id ← op .randomUUID
  let sends ← tryOp (.sendsByMint source mint none) rfl
  let transfer : Transfer :=
    { id, recipient, mint, amount, unit, state := .preparing, sendId := none, receiveId := none
      previousSendIds := sends.map (·.id) }
  tryOp (.saveTransfer source transfer) rfl
  pure transfer

/-- the sends that may be that of a row: prepared since, on the same mint, unit and amount. -/
def Candidate (row : Transfer) (send : SendOperation) : Prop :=
  send.id ∉ row.previousSendIds ∧ send.unit = row.unit ∧ send.amount = row.amount ∧
    send.method = "default"

instance (row : Transfer) (send : SendOperation) : Decidable (Candidate row send) :=
  inferInstanceAs (Decidable (_ ∧ _))

/-- the only candidate, or a send that is prepared now. -/
def chooseSend (source mint : String) (row : Transfer) (sends : List SendOperation) :
    Exc api Thrown SendOperation :=
  match sends.filter (Candidate row) with
  | [] => tryOp (.sendPrepare source mint row.amount row.unit (some row.id)) rfl
  | [send] => pure send
  | _ => now (inputError "Transfer preparation is ambiguous; operator inspection required")

/-- the send that a row is tied to, tied now when it was not. -/
def tieSend (source mint : String) (row : Transfer) : Exc api Thrown (Transfer × SendOperation) :=
  match row.sendId with
  | some sendId => do
    let send ← tryOp (.sendGet source sendId) rfl
    let send ← now (orThrow { message := "Transfer send operation is missing" } send)
    pure (row, send)
  | none => do
    let sends ← tryOp (.sendsByMint source mint (some row)) rfl
    let send ← chooseSend source mint row sends
    let row := { row with sendId := some send.id, previousSendIds := [] }
    tryOp (.saveTransfer source row) rfl
    pure (row, send)

/-- the send, executed when it was not. -/
def advanceSend (source : String) (send : SendOperation) : Exc api Thrown SendOperation :=
  match send.state with
  | .prepared => tryOp (.sendExecute source send.id) rfl
  | .executing => tryOp (.sendRefresh source send.id) rfl
  | _ => pure send

/-- the executed send with its token. -/
def redeemableSend (source : String) (send : SendOperation) :
    Exc api Thrown (SendOperation × Token) := do
  let send ← advanceSend source send
  match send.token with
  | some token =>
    if send.state = .pending ∨ send.state = .finalized then pure (send, token)
    else now (inputError
      "Transfer send has no redeemable persisted token; inspect source operation")
  | none => now (inputError
      "Transfer send has no redeemable persisted token; inspect source operation")

/-- the only receive of the proofs of a token, or one that is prepared now. -/
def chooseReceive (host : Host) (recipient : String) (token : Token)
    (receives : List ReceiveOperation) : Exc api Thrown ReceiveOperation :=
  match receives.filter fun receive =>
    proofFingerprint host receive.inputProofs = proofFingerprint host token.proofs with
  | [] => tryOp (.receivePrepare recipient token) rfl
  | [receive] => pure receive
  | _ => now (inputError "Transfer redemption is ambiguous; operator inspection required")

/-- the receive that a row is tied to, tied now when it was not. -/
def tieReceive (host : Host) (source mint : String) (row : Transfer) (token : Token) :
    Exc api Thrown (Transfer × ReceiveOperation) :=
  match row.receiveId with
  | some receiveId => do
    let receive ← tryOp (.receiveGet row.recipient receiveId) rfl
    let receive ← now (orThrow { message := "Transfer receive operation is missing" } receive)
    pure (row, receive)
  | none => do
    let receives ← tryOp (.receivesByMint row.recipient mint) rfl
    let receive ← chooseReceive host row.recipient token receives
    let row := { row with receiveId := some receive.id }
    tryOp (.saveTransfer source row) rfl
    pure (row, receive)

/-- the receive is executed, and the transfer received. -/
def redeem (source : String) (row : Transfer) (receive : ReceiveOperation) :
    Exc api Thrown Transfer := do
  let receive ← (if receive.state = .executing then
      tryOp (.receiveRefresh row.recipient receive.id) rfl
    else pure receive : Exc api Thrown ReceiveOperation)
  let receive ← (if receive.state = .prepared then
      tryOp (.receiveExecute row.recipient receive.id) rfl
    else pure receive : Exc api Thrown ReceiveOperation)
  if receive.state ≠ .finalized then
    now (inputError "Transfer receive requires operator reconciliation before retrying")
  else do
    let row := { row with state := .received }
    tryOp (.saveTransfer source row) rfl
    pure row

/-- what follows when both wallets are open and the mint is trusted. -/
def transferOn (host : Host) (source mint : String) (row : Transfer) : Exc api Thrown Transfer := do
  let tied ← tieSend source mint row
  let redeemable ← redeemableSend source tied.2
  let row := { tied.1 with state := .sent }
  tryOp (.saveTransfer source row) rfl
  let received ← tieReceive host source mint row redeemable.2
  let row ← redeem source received.1 received.2
  let send ← tryOp (.sendRefresh source redeemable.1.id) rfl
  if send.state ≠ .finalized then
    now (inputError "Recipient received funds; source redemption confirmation is still pending")
  else do
    let row := { row with state := .completed }
    tryOp (.saveTransfer source row) rfl
    pure row

/-- the row of a transfer that is resumed. -/
def resumedTransfer (source : String) (id : Option String) :
    Exc api Thrown (Option Transfer) :=
  match id.filter (· ≠ "") with
  | some id => do
    let found ← tryOp (.transferGet source id) rfl
    match found with
    | some transfer => pure (some transfer)
    | none => now (inputError "Transfer journal does not exist in this source wallet")
  | none => pure none

/-- the recipient of the row, or of the input. -/
def recipientOf (transfer : Option Transfer) (input : TransferInput) : Except Thrown String :=
  match transfer with
  | some transfer => .ok transfer.recipient
  | none => requiredText input.recipient "--to-bot"

/-- the row that is resumed, or a new one. -/
def rowOf (source recipient mint unit : String) (transfer : Option Transfer)
    (input : TransferInput) : Exc api Thrown Transfer :=
  match transfer with
  | some transfer => pure transfer
  | none => newTransfer source recipient mint unit input

/-- `transferToBot` on an open source wallet with its unit. -/
def transferToBot (host : Host) (source unit : String) (input : TransferInput) :
    Exc api Thrown Transfer := do
  let transfer ← resumedTransfer source input.id
  let recipient ← now (recipientOf transfer input)
  if recipient = source then now (inputError "Transfer recipient must be another bot")
  else withWallet recipient fun destinationUnit =>
    if destinationUnit ≠ unit then now (inputError "Transfer wallets must use the same unit")
    else do
      let mint ← trustedMint host source ((transfer.map (·.mint)).or input.mint)
      let _ ← trustedMint host recipient (some mint)
      let row ← rowOf source recipient mint unit transfer input
      transferOn host source mint row

/-- the commands `transfer-to-bot` and `transfer-resume`. -/
def transferCommand (host : Host) (source : String) (input : TransferInput) :
    Exc api Thrown Transfer :=
  withWallet source fun unit => transferToBot host source unit input

/-- the other commands of an operator on a wallet. -/
def operatorCommand (npub : String) : Exc api Thrown Unit :=
  withWallet npub fun _ => op (.operate npub)

/-! ## the processes -/

/-- The wallets, and the process that holds the lock of each. -/
structure World where
  wallets : String → Wallet := fun _ => {}
  locks : String → Option ℕ := fun _ => none

def World.setWallet (w : World) (npub : String) (wallet : Wallet) : World :=
  { w with wallets := Function.update w.wallets npub wallet }

/-- a send keeps what it was prepared with, and its token once it has one. -/
def SendKept (send send' : SendOperation) : Prop :=
  send' = { send with state := send'.state, token := send'.token } ∧
    ∀ token, send.token = some token → send'.token = some token

/-- a receive keeps what it was prepared with. -/
def ReceiveKept (receive receive' : ReceiveOperation) : Prop :=
  receive' = { receive with state := receive'.state }

/-- What the other commands of an operator do to a wallet: operations go on, and there are new ones,
which are for no transfer. -/
structure Operated (u u' : Wallet) : Prop where
  journal : u'.journal = u.journal
  uniqueSends : (u'.sends.map (·.id)).Nodup
  uniqueReceives : (u'.receives.map (·.id)).Nodup
  sends : ∀ send ∈ u.sends, ∃ send' ∈ u'.sends, SendKept send send'
  newSends : ∀ send' ∈ u'.sends, (∃ send ∈ u.sends, SendKept send send') ∨ send'.preparedFor = none
  receives : ∀ receive ∈ u.receives, ∃ receive' ∈ u'.receives, ReceiveKept receive receive'

/-- `INSERT OR REPLACE INTO autopilot_wallet_transfers …` -/
def saveRow (row : Transfer) (journal : List Transfer) : List Transfer :=
  (journal.filter fun r => r.id ≠ row.id) ++ [row]

/-- an answer that reads: an error, or a value. -/
def Reads {α : Type} (w : World) (r : Except Thrown α) (w' : World) (value : α) : Prop :=
  w' = w ∧ ((∃ e, r = .error e) ∨ r = .ok value)

/-- a send is executed or refreshed; the answer may be lost. -/
def AdvanceSend (npub id : String) (w : World) (r : Except Thrown SendOperation) (w' : World) :
    Prop :=
  (∃ e, r = .error e) ∧ w' = w ∨
    ∃ send ∈ (w.wallets npub).sends, ∃ state token, send.id = id ∧
      (∀ t, send.token = some t → token = some t) ∧
      w' = w.setWallet npub { w.wallets npub with
        sends := Sql.update (fun s => s.id = id) (fun s => { s with state, token })
          (w.wallets npub).sends } ∧
      ((∃ e, r = .error e) ∨ r = .ok { send with state, token })

/-- a receive is executed or refreshed; the answer may be lost. -/
def AdvanceReceive (npub id : String) (w : World) (r : Except Thrown ReceiveOperation)
    (w' : World) : Prop :=
  (∃ e, r = .error e) ∧ w' = w ∨
    ∃ receive ∈ (w.wallets npub).receives, ∃ state, receive.id = id ∧
      w' = w.setWallet npub { w.wallets npub with
        receives := Sql.update (fun x => x.id = id) (fun x => { x with state })
          (w.wallets npub).receives } ∧
      ((∃ e, r = .error e) ∨ r = .ok { receive with state })

/-- What an operation of process `κ` answers and does. -/
def perform (units : String → String) (κ : ℕ) : (o : WalletOp) → World → o.Ans → World → Prop
  | .acquire npub, w, r, w' =>
    (∃ e, r = .error e) ∧ w' = w ∨ w.locks npub = none ∧ r = .ok () ∧
      w' = { w with locks := Function.update w.locks npub (some κ) }
  | .release npub, w, _, w' => w' = { w with locks := Function.update w.locks npub none }
  | .unlock, w, _, w' =>
    w' = { w with locks := fun npub => if w.locks npub = some κ then none else w.locks npub }
  | .openWallet npub, w, r, w' => Reads w r w' (units npub)
  | .operate npub, w, _, w' => ∃ u', Operated (w.wallets npub) u' ∧ w' = w.setWallet npub u'
  | .isTrustedMint .., w, _, w' => w' = w
  | .randomUUID, w, id, w' => (∀ npub, ∀ row ∈ (w.wallets npub).journal, row.id ≠ id) ∧ w' = w
  | .transferGet npub id, w, r, w' =>
    Reads w r w' ((w.wallets npub).journal.find? fun row => row.id = id)
  | .saveTransfer npub row, w, r, w' =>
    (∃ e, r = .error e) ∧ w' = w ∨ r = .ok () ∧ w' = w.setWallet npub { w.wallets npub with
      journal := saveRow row (w.wallets npub).journal }
  | .sendsByMint npub mint _, w, r, w' =>
    Reads w r w' ((w.wallets npub).sends.filter fun send => send.mintUrl = mint)
  | .sendGet npub id, w, r, w' =>
    Reads w r w' ((w.wallets npub).sends.find? fun send => send.id = id)
  | .sendPrepare npub mint amount unit transferId, w, r, w' =>
    (∃ e, r = .error e) ∧ w' = w ∨ ∃ send : SendOperation,
      send.mintUrl = mint ∧ send.amount = amount ∧ send.unit = unit ∧ send.method = "default" ∧
      send.state = .prepared ∧ send.token = none ∧ send.preparedFor = transferId ∧
      (∀ s ∈ (w.wallets npub).sends, s.id ≠ send.id) ∧
      w' = w.setWallet npub { w.wallets npub with sends := (w.wallets npub).sends ++ [send] } ∧
      ((∃ e, r = .error e) ∨ r = .ok send)
  | .sendExecute npub id, w, r, w' | .sendRefresh npub id, w, r, w' => AdvanceSend npub id w r w'
  | .receivesByMint npub mint, w, r, w' =>
    Reads w r w' ((w.wallets npub).receives.filter fun receive => receive.mintUrl = mint)
  | .receiveGet npub id, w, r, w' =>
    Reads w r w' ((w.wallets npub).receives.find? fun receive => receive.id = id)
  | .receivePrepare npub token, w, r, w' =>
    (∃ e, r = .error e) ∧ w' = w ∨ ∃ receive : ReceiveOperation,
      receive.mintUrl = token.mint ∧ receive.inputProofs = token.proofs ∧
      receive.state = .prepared ∧ (∀ x ∈ (w.wallets npub).receives, x.id ≠ receive.id) ∧
      w' = w.setWallet npub { w.wallets npub with
        receives := (w.wallets npub).receives ++ [receive] } ∧
      ((∃ e, r = .error e) ∨ r = .ok receive)
  | .receiveExecute npub id, w, r, w' | .receiveRefresh npub id, w, r, w' =>
    AdvanceReceive npub id w r w'

/-- the programs of the processes. -/
inductive Spawn (host : Host) : Prog api Unit → Prop where
  | transfer (source : String) (input : TransferInput) :
      Spawn host (transferCommand host source input).detach
  | operator (npub : String) : Spawn host (operatorCommand npub).detach
  | unlock : Spawn host (op .unlock).detach

/-- The processes, when an operation is only run where `R` holds. -/
def restricted (host : Host) (units : String → String) (R : WalletOp → World → Prop) :
    System api World where
  perform κ o w r w' := R o w ∧ perform units κ o w r w'
  spawn _ _ p := Spawn host p
  crash w w' := w' = { w with locks := fun _ => none }

/-- The processes. -/
def system (host : Host) (units : String → String) : System api World :=
  restricted host units fun _ _ => True

/-- no wallet has an operation or a journal, and no lock is held. -/
def World.Initial (w : World) : Prop := w = {}

end Wallets
end WmAutopilot
