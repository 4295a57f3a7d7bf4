import WmAutopilot.Async.Solo
import WmAutopilot.Async.Triple
import WmAutopilot.Wapps.RemoteStorageBroker

/-!
# Revocation of managed app storage

* `World`, `Use`     the broker among its requests, and each signature or answer with what held then;
* `Granted`          what `validate` checks;
* `Inv`, `storage`   the invariant: one capability for an app, never a dropped one, none that outlives
                     its grant;
* `request_spec`     a request signs and answers only in the section of a validation;
* `storage_sound`    of every interleaving: each use is of a capability that was not dropped and whose
                     grant and installation are at that time what they were when it was issued;
* `restored_grant`   a grant that was removed for a while is used again.
-/

set_option autoImplicit false

namespace WmAutopilot
namespace Wapps
namespace RemoteStorage
open Js Value Async

/-- a signature or an answer: the token, the broker, and what had happened. -/
structure Use where
  token : String
  view : View
  dropped : List String
  /-- the hosts since the token was issued. -/
  since : List Host

structure World where
  view : View
  /-- the digests that were issued, and those that were dropped. -/
  issued : List String := []
  dropped : List String := []
  since : String → List Host := fun _ => []
  uses : List Use := []

namespace World

def Initial (w : World) : Prop :=
  w.view.capabilities = [] ∧ w.issued = [] ∧ w.dropped = [] ∧ w.uses = []

/-- the capabilities change: those that are gone were dropped. -/
def keep (w : World) (capabilities : Capabilities) : World :=
  { w with
    view := { w.view with capabilities }
    dropped := (w.view.capabilities.map Prod.fst).filter
      (fun d => d ∉ capabilities.map Prod.fst) ++ w.dropped }

end World

section
variable (contract : Contract)

namespace World

def use (w : World) (token : String) : World :=
  { w with uses := ⟨token, w.view, w.dropped, w.since (contract.hashToken token)⟩ :: w.uses }

def issue (w : World) (appId token : String) : World :=
  { w.keep (w.view.issue contract appId token) with
    issued := contract.hashToken token :: w.issued
    since := Function.update w.since (contract.hashToken token) [w.view.host] }

def renew (w : World) (token : String) : World :=
  { w with view := { w.view with capabilities := w.view.renew contract token } }

def change (w : World) (host : Host) : World :=
  { w with view := { w.view with host }, since := fun d => host :: w.since d }

end World

/-- What an operation does: the service and the custody answer anything, and a token is new. -/
inductive Performs : (o : Op) → World → o.Ans → World → Prop where
  | look (w : World) : Performs .look w w.view w
  | fetch (request : Fetched) (w : World) (r : Except Failure ℕ) : Performs (.fetch request) w r w
  | readStorageJson (w : World) (r : Except Failure Value) : Performs .readStorageJson w r w
  | openKey (id : String) (w : World) (r : Except Failure String) : Performs (.openKey id) w r w
  | sign (token url nsec serializedBody : String) (w : World) (r : Except Failure String) :
      Performs (.createWappNip98Authorization token url nsec serializedBody) w r
        (w.use contract token)
  | renew (token : String) (w : World) : Performs (.renew token) w () (w.renew contract token)
  | respond (token : String) (response : Value) (w : World) :
      Performs (.respond token response) w () (w.use contract token)
  | aborted (w : World) (r : Bool) : Performs .aborted w r w
  | issue (appId token : String) (w : World) (hnew : contract.hashToken token ∉ w.issued) :
      Performs (.issue appId token) w () (w.issue contract appId token)
  | revokeApp (appId : String) (w : World) :
      Performs (.revokeApp appId) w () (w.keep (revokeApp appId w.view.capabilities))
  | change (host : Host) (w : World) : Performs (.change host) w () (w.change host)

inductive Spawn : Prog api Unit → Prop where
  | request (token : String) (value : Value) : Spawn (request contract token value).detach
  | issue (appId token : String) : Spawn (.call (.issue appId token) .ret)
  | revokeApp (appId : String) : Spawn (.call (.revokeApp appId) .ret)
  | change (host : Host) : Spawn (.call (.change host) .ret)

/-- the requests, the issues and revocations, and what changes on the host. -/
def system : System api World where
  perform _ := Performs contract
  spawn _ _ p := Spawn contract p
  crash w w' := w' = w.keep []

/-! ## what `validate` checks -/

/-- **A token is usable**: its capability is there and has not expired, the grants file holds its
grant, which has not expired, and the installation is the one it was issued for. -/
structure Granted (view : View) (token : String) (capability : Capability) : Prop where
  present : view.capabilities.lookup (contract.hashToken token) = some capability
  unexpired : later capability.expiresAt view.host.now
  granted : ∃ grants, view.host.grants = .ok grants ∧ capability.grant ∈ grants ∧
    grants.find? (fun g => g.grantId = capability.grant.grantId) = some capability.grant
  grantUnexpired : later (contract.dateParse capability.grant.expiresAt) view.host.now
  installed : view.host.installation capability.grant = .ok capability.installation

variable {contract} {w w' : World} {view : View} {token : String} {capability : Capability}

theorem stillGranted_ok {current : RemoteStorageGrant} :
    stillGranted contract view capability = .ok current ↔ current = capability.grant ∧
      later (contract.dateParse current.expiresAt) view.host.now ∧
      ∃ grants, view.host.grants = .ok grants ∧
        grants.find? (fun g => g.grantId = capability.grant.grantId) = some current := by
  simp only [stillGranted, bind_ok, orThrow_ok, storageAssert_ok]
  constructor
  · rintro ⟨grants, hgrants, current', hfind, -, ⟨heq, hlater⟩, h⟩
    cases h
    exact ⟨heq, hlater, grants, hgrants, hfind⟩
  · rintro ⟨heq, hlater, grants, hgrants, hfind⟩
    exact ⟨grants, hgrants, current, hfind, (), ⟨heq, hlater⟩, rfl⟩

/-- **`validate`** returns the capability of a token that is usable. -/
theorem validate_ok :
    validate contract view token = .ok capability ↔ Granted contract view token capability := by
  simp only [validate, bind_ok, orThrow_ok, storageAssert_ok]
  constructor
  · rintro ⟨c, hpresent, -, hunexpired, current, hcurrent, installation, hinst, -, heq, h⟩
    cases h
    obtain ⟨rfl, hlater, grants, hgrants, hfind⟩ := stillGranted_ok.mp hcurrent
    exact ⟨hpresent, hunexpired, ⟨grants, hgrants, List.mem_of_find?_eq_some hfind, hfind⟩,
      hlater, heq ▸ hinst⟩
  · intro h
    obtain ⟨grants, hgrants, -, hfind⟩ := h.granted
    exact ⟨capability, h.present, (), h.unexpired, capability.grant,
      stillGranted_ok.mpr ⟨rfl, h.grantUnexpired, grants, hgrants, hfind⟩,
      capability.installation, h.installed, (), rfl, rfl⟩

theorem mem_of_lookup {d : String} {capabilities : Capabilities}
    (h : capabilities.lookup d = some capability) : (d, capability) ∈ capabilities := by
  obtain ⟨before, after, rfl, -⟩ := List.lookup_eq_some_iff.mp h
  exact List.mem_append_right _ List.mem_cons_self

/-! ## the renewal -/

theorem lookup_renew (h : view.capabilities.lookup (contract.hashToken token) = some capability) :
    (view.renew contract token).lookup (contract.hashToken token) =
      some (capability.renewed contract view.host.now) := by
  obtain ⟨before, after, hcaps, hne⟩ := List.lookup_eq_some_iff.mp h
  rw [View.renew, hcaps, List.map_append, List.map_cons, if_pos rfl]
  refine List.lookup_eq_some_iff.mpr ⟨_, _, rfl, fun p hp => ?_⟩
  obtain ⟨c, hc, rfl⟩ := List.mem_map.mp hp
  split
  · exact hne c hc
  · exact hne c hc

theorem later_expiry {grant : RemoteStorageGrant} {now : ℤ}
    (h : later (contract.dateParse grant.expiresAt) now) :
    later (expiry contract grant now) now := by
  obtain ⟨t, ht, hlt⟩ := h
  refine ⟨_, Option.mem_map_of_mem _ ht, ?_⟩
  unfold idleTtl
  split <;> omega

/-- **A renewed capability is usable.** -/
theorem Granted.renew (h : Granted contract view token capability) :
    Granted contract { view with capabilities := view.renew contract token } token
      (capability.renewed contract view.host.now) where
  present := lookup_renew h.present
  unexpired := later_expiry h.grantUnexpired
  granted := h.granted
  grantUnexpired := h.grantUnexpired
  installed := h.installed

/-! ## the invariant -/

section
variable (contract)

/-- the capability does not outlive its grant. -/
def NotAfter (capability : Capability) : Prop :=
  ∀ e ∈ capability.expiresAt, ∃ t ∈ contract.dateParse capability.grant.expiresAt, e ≤ t

/-- a use of a token that was usable and was not dropped. -/
def Lawful (use : Use) : Prop :=
  contract.hashToken use.token ∉ use.dropped ∧
    ∃ capability, Granted contract use.view use.token capability

structure Inv (w : World) : Prop where
  apps : ∀ c ∈ w.view.capabilities, ∀ c' ∈ w.view.capabilities,
    c.2.appId = c'.2.appId → c = c'
  issued : ∀ c ∈ w.view.capabilities, c.1 ∈ w.issued
  live : ∀ c ∈ w.view.capabilities, c.1 ∉ w.dropped
  dropped : ∀ d ∈ w.dropped, d ∈ w.issued
  bounded : ∀ c ∈ w.view.capabilities, NotAfter contract c.2
  uses : ∀ use ∈ w.uses, Lawful contract use

/-- a signature or an answer is of a usable token. -/
def May (o : Op) (w : World) : Prop :=
  match o with
  | .createWappNip98Authorization token .. | .respond token _ =>
    ∃ capability, Granted contract w.view token capability
  | _ => True

/-- the discipline of the broker. -/
def storage : Discipline api World where
  toSystem := system contract
  Inv := Inv contract
  may _ := May contract

end

theorem Inv.use (h : Inv contract w) (hg : Granted contract w.view token capability) :
    Inv contract (w.use contract token) where
  apps := h.apps
  issued := h.issued
  live := h.live
  dropped := h.dropped
  bounded := h.bounded
  uses use huse := by
    rcases List.mem_cons.mp huse with rfl | huse
    · exact ⟨h.live _ (mem_of_lookup hg.present), capability, hg⟩
    · exact h.uses use huse

/-- capabilities that are deleted were dropped. -/
theorem Inv.keep (h : Inv contract w) {capabilities : Capabilities}
    (hsub : ∀ c ∈ capabilities, c ∈ w.view.capabilities) : Inv contract (w.keep capabilities) where
  apps c hc c' hc' := h.apps c (hsub c hc) c' (hsub c' hc')
  issued c hc := h.issued c (hsub c hc)
  live c hc hd := by
    rcases List.mem_append.mp hd with hd | hd
    · exact of_decide_eq_true (List.mem_filter.mp hd).2 (List.mem_map_of_mem hc)
    · exact h.live c (hsub c hc) hd
  dropped d hd := by
    rcases List.mem_append.mp hd with hd | hd
    · obtain ⟨c, hc, rfl⟩ := List.mem_map.mp (List.mem_filter.mp hd).1
      exact h.issued c hc
    · exact h.dropped d hd
  bounded c hc := h.bounded c (hsub c hc)
  uses := h.uses

theorem notAfter_expiry {grant : RemoteStorageGrant} {now : ℤ} :
    ∀ e ∈ expiry contract grant now, ∃ t ∈ contract.dateParse grant.expiresAt, e ≤ t := by
  intro e he
  obtain ⟨t, ht, rfl⟩ := Option.map_eq_some_iff.mp he
  refine ⟨t, ht, ?_⟩
  split <;> omega

/-- what is issued for an app is bound to it. -/
theorem granted_ok {host : Host} {appId : String}
    (h : host.granted contract appId = .ok (some capability)) :
    capability.appId = appId ∧ NotAfter contract capability := by
  simp only [Host.granted, bind_ok] at h
  obtain ⟨grants, -, h⟩ := h
  split at h
  · cases h
  · simp only [bind_ok] at h
    obtain ⟨-, -, installation, -, h⟩ := h
    cases h
    exact ⟨rfl, notAfter_expiry⟩

theorem mem_kept {appId : String} {c : String × Capability} (hc : c ∈ view.kept appId) :
    c ∈ view.capabilities ∧ c.2.appId ≠ appId := by
  have hrevoked := (List.mem_filter.mp hc).1
  exact ⟨(List.mem_filter.mp hrevoked).1, of_decide_eq_true (List.mem_filter.mp hrevoked).2⟩

/-- what an issue leaves: kept capabilities and, when there is a grant, a new one. -/
theorem mem_issue {appId : String} {c : String × Capability}
    (hc : c ∈ view.issue contract appId token) :
    c ∈ view.kept appId ∨ ∃ capability, view.host.granted contract appId = .ok (some capability) ∧
      c = (contract.hashToken token, capability) := by
  unfold View.issue at hc
  split at hc
  · next capability hgranted =>
    rcases eq_or_mem_of_mem_put hc with rfl | hc
    · exact .inr ⟨capability, hgranted, rfl⟩
    · exact .inl hc
  · exact .inl hc

theorem Inv.issue (h : Inv contract w) {appId : String}
    (hnew : contract.hashToken token ∉ w.issued) : Inv contract (w.issue contract appId token) where
  apps c hc c' hc' happ := by
    rcases mem_issue hc with hk | ⟨a, ha, rfl⟩ <;>
      rcases mem_issue hc' with hk' | ⟨a', ha', rfl⟩
    · exact h.apps c (mem_kept hk).1 c' (mem_kept hk').1 happ
    · exact absurd (happ.trans (granted_ok ha').1) (mem_kept hk).2
    · exact absurd (happ.symm.trans (granted_ok ha).1) (mem_kept hk').2
    · rw [ha] at ha'
      cases ha'
      rfl
  issued c hc := by
    rcases mem_issue hc with hk | ⟨a, -, rfl⟩
    · exact List.mem_cons_of_mem _ (h.issued c (mem_kept hk).1)
    · exact List.mem_cons_self
  live c hc hd := by
    rcases List.mem_append.mp hd with hd | hd
    · exact of_decide_eq_true (List.mem_filter.mp hd).2 (List.mem_map_of_mem hc)
    · rcases mem_issue hc with hk | ⟨a, -, rfl⟩
      · exact h.live c (mem_kept hk).1 hd
      · exact hnew (h.dropped _ hd)
  dropped d hd := by
    rcases List.mem_append.mp hd with hd | hd
    · obtain ⟨c, hc, rfl⟩ := List.mem_map.mp (List.mem_filter.mp hd).1
      exact List.mem_cons_of_mem _ (h.issued c hc)
    · exact List.mem_cons_of_mem _ (h.dropped d hd)
  bounded c hc := by
    rcases mem_issue hc with hk | ⟨a, ha, rfl⟩
    · exact h.bounded c (mem_kept hk).1
    · exact (granted_ok ha).2
  uses := h.uses

/-- a renewal keeps the token, the app and the grant. -/
theorem mem_renew {c : String × Capability} (hc : c ∈ view.renew contract token) :
    ∃ c' ∈ view.capabilities, c = c' ∨ c = (c'.1, c'.2.renewed contract view.host.now) := by
  obtain ⟨c', hc', rfl⟩ := List.mem_map.mp hc
  refine ⟨c', hc', ?_⟩
  split
  · exact .inr rfl
  · exact .inl rfl

theorem Inv.renew (h : Inv contract w) : Inv contract (w.renew contract token) where
  apps c hc c' hc' happ := by
    obtain ⟨x, hx, rfl⟩ := List.mem_map.mp hc
    obtain ⟨x', hx', rfl⟩ := List.mem_map.mp hc'
    have heq : x = x' := h.apps x hx x' hx' (by split at happ <;> split at happ <;> exact happ)
    rw [heq]
  issued c hc := by
    obtain ⟨c', hc', rfl | rfl⟩ := mem_renew hc
    · exact h.issued _ hc'
    · exact h.issued c' hc'
  live c hc := by
    obtain ⟨c', hc', rfl | rfl⟩ := mem_renew hc
    · exact h.live _ hc'
    · exact h.live c' hc'
  dropped := h.dropped
  bounded c hc := by
    obtain ⟨c', hc', rfl | rfl⟩ := mem_renew hc
    · exact h.bounded _ hc'
    · exact notAfter_expiry
  uses := h.uses

theorem Inv.change (h : Inv contract w) (host : Host) : Inv contract (w.change host) :=
  ⟨h.apps, h.issued, h.live, h.dropped, h.bounded, h.uses⟩

/-- **One operation** that is permitted keeps the invariant. -/
theorem storage_perform {κ : ℕ} {o : Op} {r : o.Ans} (hi : (storage contract).Inv w)
    (hmay : (storage contract).may κ o w) (ho : (storage contract).perform κ o w r w') :
    (storage contract).Inv w' := by
  cases ho with
  | look | fetch | readStorageJson | openKey | aborted => exact hi
  | sign =>
    obtain ⟨capability, hg⟩ := hmay
    exact Inv.use hi hg
  | respond =>
    obtain ⟨capability, hg⟩ := hmay
    exact Inv.use hi hg
  | renew => exact Inv.renew hi
  | issue _ _ _ hnew => exact Inv.issue hi hnew
  | revokeApp => exact Inv.keep hi fun c hc => (List.mem_filter.mp hc).1
  | change host => exact Inv.change hi host

/-! ## a request -/

section
variable {κ : ℕ}

/-- The broker is as it was seen, and the token is usable. -/
def Validated (contract : Contract) (token : String) (r : View × Capability) (w : World) : Prop :=
  w.view = r.1 ∧ Granted contract r.1 token r.2

theorem stable_any : Stable (storage contract) κ Any := Stable.const True

theorem json_spec (request : Fetched) :
    Triple (storage contract) κ Any (json request) Any₂ Any₂ := by
  unfold json
  refine Triple.bind (R := Any₂) (Triple.tryOp stable_any (fun _ _ _ => trivial)
    (fun _ _ _ _ _ _ _ _ _ => trivial) fun _ _ _ _ _ _ _ _ _ => trivial) fun status => ?_
  refine Triple.ite (fun _ => Triple.throw fun _ _ _ => trivial) fun _ => ?_
  exact Triple.bind (R := Any₂) (Triple.tryOp stable_any (fun _ _ _ => trivial)
    (fun _ _ _ _ _ _ _ _ _ => trivial) fun _ _ _ _ _ _ _ _ _ => trivial)
    fun body => Triple.pure fun _ _ _ => trivial

/-- what a computation returns. -/
theorem raise_spec {α : Type} {P : World → Prop} {x : Except Failure α} :
    Triple (storage contract) κ P (raise x) (fun a w => P w ∧ x = .ok a) Any₂ := by
  cases x with
  | ok a => exact Triple.pure fun _ _ hP => ⟨hP, rfl⟩
  | error e => exact Triple.throw fun _ _ _ => trivial

theorem validated_spec :
    Triple (storage contract) κ Any (validated contract token) (Validated contract token)
      Any₂ := by
  unfold validated
  refine Triple.bind (R := fun view w => w.view = view) (Triple.op stable_any
    (fun _ _ _ => trivial) fun w view w' _ _ ho _ => ?_) fun view => ?_
  · cases ho
    rfl
  · refine Triple.bind raise_spec fun capability => Triple.pure fun w _ h => ?_
    exact ⟨h.1, validate_ok.mp h.2⟩

/-- **A request signs and answers in the section of a validation.** -/
theorem exchange_spec (grant : RemoteStorageGrant) (operation : Value) :
    Triple (storage contract) κ Any (exchange contract token grant operation) Any₂ Any₂ := by
  unfold exchange
  refine Triple.bind (R := Any₂) (json_spec _) fun health => ?_
  refine Triple.bind raise_spec.any fun _ => ?_
  refine Triple.bind (R := Any₂) (json_spec _) fun descriptor => ?_
  refine Triple.bind raise_spec.any fun _ => ?_
  refine Triple.bind validated_spec.any fun _ => ?_
  refine Triple.bind (R := Any₂) (Triple.tryOp stable_any (fun _ _ _ => trivial)
    (fun _ _ _ _ _ _ _ _ _ => trivial) fun _ _ _ _ _ _ _ _ _ => trivial) fun nsec => ?_
  refine Triple.bind validated_spec fun seen => ?_
  refine Triple.bind (R := Any₂) (Triple.tryOpNow rfl (fun w _ h => ?_)
    (fun _ _ _ _ _ _ _ _ _ => trivial) fun _ _ _ _ _ _ _ _ _ => trivial) fun authorization => ?_
  · exact ⟨seen.2, h.1 ▸ h.2⟩
  refine Triple.bind (R := Any₂) (json_spec _) fun answer => ?_
  refine Triple.bind validated_spec fun seen => ?_
  refine Triple.bind raise_spec fun response => ?_
  refine Triple.bind (R := fun _ w => ∃ capability, Granted contract w.view token capability)
    (Triple.opNow rfl (fun _ _ _ => trivial) fun w _ w' _ h ho _ => ?_) fun _ => ?_
  · cases ho
    exact ⟨_, (h.1.1 ▸ h.1.2 : Granted contract w.view token seen.2).renew⟩
  · exact Triple.bind (R := Any₂) (Triple.opNow rfl (fun w _ h => h) fun _ _ _ _ _ _ _ => trivial)
      fun _ => Triple.pure fun _ _ _ => trivial

theorem request_spec (value : Value) :
    Triple (storage contract) κ Any (request contract token value) Any₂ Any₂ := by
  unfold request
  refine Triple.bind validated_spec.any fun seen => ?_
  refine Triple.bind raise_spec.any fun operation => ?_
  refine Triple.tryCatch (exchange_spec _ _) fun e => ?_
  cases e with
  | storage code status => exact Triple.throw fun _ _ _ => trivial
  | other =>
    refine Triple.bind (R := Any₂) (Triple.opNow rfl (fun _ _ _ => trivial)
      fun _ _ _ _ _ _ _ => trivial) fun aborted => ?_
    exact Triple.ite (fun _ => Triple.throw fun _ _ _ => trivial)
      fun _ => Triple.throw fun _ _ _ => trivial

end

/-- one operation that may always be asked for. -/
theorem wp_call_any {κ : ℕ} {o : Op} {k : o.Ans → Prog api Unit} (hk : k = fun _ => .ret ())
    (hmay : ∀ w, May contract o w) :
    wp (storage contract) κ (.call o k) (fun _ _ => True) w := by
  subst hk
  exact fun w₁ _ _ => ⟨hmay w₁, fun _ _ _ _ => trivial⟩

/-- **The discipline of the broker is kept.** -/
theorem storage_keeps : (storage contract).Keeps where
  perform := storage_perform
  crash hi h := h ▸ Inv.keep hi fun c hc => absurd hc List.not_mem_nil
  spawn hi h := by
    cases h with
    | request token value => exact (request_spec value).detach hi
    | issue | revokeApp | change => exact wp_call_any rfl fun _ => trivial

/-! ## revocation -/

section
variable (contract)

/-- the file held the grant of the token ever since the token was issued. -/
def StoodSince (use : Use) : Prop :=
  ∀ capability, Granted contract use.view use.token capability →
    ∀ host ∈ use.since, ∃ grants, host.grants = .ok grants ∧ capability.grant ∈ grants

/-- at most one token of an app is usable. -/
def OneToken (view : View) : Prop :=
  ∀ t t' a a', Granted contract view t a → Granted contract view t' a' → a.appId = a'.appId →
    t = t'

end

theorem Inv.oneToken (h : Inv contract w) (hhash : Function.Injective contract.hashToken) :
    OneToken contract w.view := by
  intro t t' a a' ha ha' happ
  have heq := h.apps _ (mem_of_lookup ha.present) _ (mem_of_lookup ha'.present) happ
  exact hhash (congrArg Prod.fst heq)

/-- **Revocation.**  Whatever is interleaved: each signature and each answer is of a token that was
not dropped and is usable at that time; one token of an app is usable; no capability outlives its
grant. -/
theorem storage_sound (contract : Contract) (hhash : Function.Injective contract.hashToken)
    {c : Conf api World} (h : Reachable (system contract) World.Initial c) :
    (∀ use ∈ c.state.uses, Lawful contract use) ∧ OneToken contract c.state.view ∧
      ∀ d capability, (d, capability) ∈ c.state.view.capabilities →
        NotAfter contract capability := by
  have h0 : ∀ w, World.Initial w → (storage contract).Inv w := by
    rintro w ⟨hcaps, hissued, hdropped, huses⟩
    exact ⟨by simp [hcaps], by simp [hcaps], by simp [hcaps], by simp [hdropped], by simp [hcaps],
      by simp [huses]⟩
  have hi : Inv contract c.state := (storage_keeps.reachable h0 h).inv
  exact ⟨hi.uses, hi.oneToken hhash, fun d capability hc => hi.bounded _ hc⟩

end

/-! ## a grant that is removed for a while -/

def someContract : Contract where
  toText v := match v with
    | str s => s
    | _ => ""
  stringify _ := ""
  dateParse _ := some 100
  hashToken token := token
  parseCollectionOperation _ := .error .other
  validateStorageResponse body _ _ _ := .ok body

def someGrant : RemoteStorageGrant where
  grantId := "grant"
  revision := "1"
  installationId := "installation"
  appId := "app"
  ownerNpub := "owner"
  appNpub := "signer"
  towerBindingId := none
  origin := "https://storage.example"
  serviceNpub := "service"
  workspaceId := "workspace"
  delegationId := "delegation"
  expiresAt := "tomorrow"
  maxObjectBytes := 64

def someWapp : WappRecord where
  id := "installation"
  wappInstallationId := "installation"
  appId := "app"
  ownerNpub := "owner"
  workspaceOwnerNpub := "owner"
  towerBindingId := none
  towerBinding := none
  appNpub := some "signer"
  status := .active
  recordState := .active

/-- a host with this grants file. -/
def hostOf (grants : List RemoteStorageGrant) : Host where
  grants := .ok grants
  wapps := [someWapp]
  hasAppSigningKey _ := .ok true
  forbiddenSigner _ := .ok false
  now := 0

/-- the answer of the service to every request. -/
def someBody : Value := obj [("service_npub", str "service"),
  ("protocol", str REMOTE_STORAGE_PROTOCOL), ("features", arr (requiredFeatures.map str))]

def someAnswer : (o : Op) → World → o.Ans
  | .look, w => w.view
  | .fetch _, _ => .ok 200
  | .readStorageJson, _ => .ok someBody
  | .openKey _, _ => .ok "nsec"
  | .createWappNip98Authorization .., _ => .ok "Nostr"
  | .renew _, _ | .respond .., _ | .issue .., _ | .revokeApp _, _ | .change _, _ => ()
  | .aborted, _ => false

def someEffect : Op → World → World
  | .createWappNip98Authorization token .., w | .respond token _, w => w.use someContract token
  | .renew token, w => w.renew someContract token
  | .issue appId token, w => w.issue someContract appId token
  | .revokeApp appId, w => w.keep (revokeApp appId w.view.capabilities)
  | .change host, w => w.change host
  | _, w => w

/-- the token is new. -/
def isNew : Op → World → Bool
  | .issue _ token, w => token ∉ w.issued
  | _, _ => true

theorem solo_some (κ : ℕ) (p : Prog api Unit) (w : World)
    (hp : p.allowed someAnswer someEffect isNew w = true) :
    Solo (system someContract) κ p w (.ret ()) (p.run someAnswer someEffect w).2 := by
  refine Solo.of_run (fun o s ho => ?_) p w hp
  cases o with
  | issue appId token => exact .issue appId token s (of_decide_eq_true ho)
  | _ => constructor

/-- the capability is issued, and the grants file is emptied and restored. -/
def restored : World :=
  (((World.mk ⟨[], hostOf [someGrant]⟩ [] [] (fun _ => []) []).issue someContract "app"
    "token").change (hostOf [])).change (hostOf [someGrant])

def someRequest : Prog api Unit :=
  (request someContract "token" (obj [("operation", str "status")])).detach

/-- the grants file is empty. -/
def emptied (host : Host) : Bool :=
  match host.grants with
  | .ok [] => true
  | _ => false

/-- a use of a token whose grant was not in the file for a while. -/
def interrupted (use : Use) : Bool :=
  (validate someContract use.view use.token).toBool && use.since.any emptied

theorem interrupted_not_stood {use : Use} (h : interrupted use = true) :
    ¬StoodSince someContract use := by
  intro hstood
  obtain ⟨hvalid, hany⟩ := Bool.and_eq_true_iff.mp h
  obtain ⟨host, hhost, hempty⟩ := List.any_eq_true.mp hany
  cases hv : validate someContract use.view use.token with
  | error e => rw [hv] at hvalid; cases hvalid
  | ok capability =>
    obtain ⟨grants, hgrants, hmem⟩ := hstood capability (validate_ok.mp hv) host hhost
    unfold emptied at hempty
    rw [hgrants] at hempty
    cases grants with
    | nil => cases hmem
    | cons grant grants => cases hempty

/-- the request is answered after the file was emptied and restored. -/
theorem interrupted_run : ∃ c : Conf api World, Reachable (system someContract) World.Initial c ∧
    c.state.uses.any interrupted = true := by
  have issue := solo_some 0 (.call (.issue "app" "token") .ret)
    ⟨⟨[], hostOf [someGrant]⟩, [], [], fun _ => [], []⟩ (by decide +kernel)
  obtain ⟨c₁, hc₁, hs₁, -, hr₁, ht₁⟩ := issue.reachable World.Initial ⟨rfl, rfl, rfl, rfl⟩ rfl
    (.issue "app" "token")
  have empty := solo_some 1 (.call (.change (hostOf [])) .ret) c₁.state rfl
  obtain ⟨c₂, hc₂, hs₂, -, hr₂, ht₂⟩ := empty.extend hc₁ hr₁ (ht₁ 1 (by decide)) rfl
    (.change (hostOf []))
  have restore := solo_some 2 (.call (.change (hostOf [someGrant])) .ret) c₂.state rfl
  obtain ⟨c₃, hc₃, hs₃, -, hr₃, ht₃⟩ := restore.extend hc₂ hr₂
    ((ht₂ 2 (by decide)).trans (ht₁ 2 (by decide))) rfl (.change (hostOf [someGrant]))
  have hrestored : c₃.state = restored := by rw [hs₃, hs₂, hs₁]; rfl
  have use := solo_some 3 someRequest c₃.state (by rw [hrestored]; decide +kernel)
  obtain ⟨c₄, hc₄, hs₄, -⟩ := use.extend hc₃ hr₃
    ((ht₃ 3 (by decide)).trans ((ht₂ 3 (by decide)).trans (ht₁ 3 (by decide)))) rfl
    (.request "token" (obj [("operation", str "status")]))
  refine ⟨c₄, hc₄, ?_⟩
  rw [hs₄, hrestored]
  decide +kernel

/-- **A grant is used again** after it was removed and restored. -/
theorem restored_grant : ¬∀ contract c, Function.Injective contract.hashToken →
    Reachable (system contract) World.Initial c →
    ∀ use ∈ c.state.uses, StoodSince contract use := by
  intro h
  obtain ⟨c, hc, hany⟩ := interrupted_run
  obtain ⟨use, huse, hinterrupted⟩ := List.any_eq_true.mp hany
  exact interrupted_not_stood hinterrupted (h someContract c (fun _ _ e => e) hc use huse)

/-- a request that was signed and answered. -/
theorem storage_sound_some : ∃ c : Conf api World, c.state.uses.any interrupted = true ∧
    (∀ use ∈ c.state.uses, Lawful someContract use) ∧ OneToken someContract c.state.view := by
  obtain ⟨c, hc, hany⟩ := interrupted_run
  obtain ⟨huses, hone, -⟩ := storage_sound someContract (fun _ _ e => e) hc
  exact ⟨c, hany, huses, hone⟩

end RemoteStorage
end Wapps
end WmAutopilot
