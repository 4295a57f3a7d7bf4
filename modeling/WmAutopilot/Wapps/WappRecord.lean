import Mathlib.Data.Nat.Notation

/-!
# Installed web apps

`WappRecord`, with its Tower binding: what the brokers that act for an installation read of its row.
-/

set_option autoImplicit false

namespace WmAutopilot
namespace Wapps

inductive WappRecordState where
  | active
  | archived
  | deleted
  deriving DecidableEq, Repr

inductive WappStatus where
  | active
  | archived
  deriving DecidableEq, Repr

structure WappTowerBinding where
  id : String
  label : String
  towerUrl : String
  workspaceId : Option String
  workspaceOwnerNpub : String
  userAlias : Option String
  isDefault : Bool
  createdAt : String
  updatedAt : String
  deriving DecidableEq, Repr

structure WappRecord where
  id : String
  wappInstallationId : String
  appId : String
  ownerNpub : String
  workspaceOwnerNpub : String
  towerBindingId : Option String
  towerBinding : Option WappTowerBinding
  appNpub : Option String
  status : WappStatus
  recordState : WappRecordState
  deriving DecidableEq, Repr

/-- `recordState === "active" && status === "active"` -/
def WappRecord.Active (wapp : WappRecord) : Prop :=
  wapp.recordState = .active ∧ wapp.status = .active

instance (wapp : WappRecord) : Decidable wapp.Active := inferInstanceAs (Decidable (_ ∧ _))

end Wapps
end WmAutopilot
