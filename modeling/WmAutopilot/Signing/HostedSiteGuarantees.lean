import WmAutopilot.Async.Schedule
import WmAutopilot.Async.Triple
import WmAutopilot.Signing.HostedSiteSigner
import WmAutopilot.Sql.Windows

/-!
# What is attested for hosted sites

* `Attestation`, `World`   the tables, the clock and the secrets, with every attestation;
* `Undisturbed`            while an attempt waits, its grant is not revoked and does not expire, and its
                           app does not change;
* `Counted`                the uses are the attestations since the last purge;
* `Inv`, `signer`          the invariant, and what is asked of an operation;
* `hosted_attestations`    **each event once, within the limits, and, if attempts are undisturbed,
                           under a grant that stands**;
* `revoked_between`        a grant that is revoked after `authorize` and before the transaction.
-/

set_option autoImplicit false

namespace WmAutopilot
namespace Signing
namespace HostedSite
open Js Value Async Sql
open Secrets (SecretRow)

/-- an event that was signed, and the state at that time. -/
structure Attestation where
  grant : HostedSiteGrant
  user : UserEvent
  usedAt : ℤ
  view : View

/-- the row of its use. -/
def Attestation.use (a : Attestation) : UseRow := ⟨a.grant.id, a.user.id, a.user.pubkey, a.usedAt⟩

/-- an attempt since the app registry was asked. -/
structure Attempt where
  appId : String
  app : Option App
  /-- what `authorize` has returned. -/
  grant : Option HostedSiteGrant := none

structure World where
  clock : ℤ := 0
  view : View := {}
  uses : List UseRow := []
  /-- in the order of time. -/
  attested : List Attestation := []
  /-- the attempt of a thread. -/
  attempts : ℕ → Option Attempt := fun _ => none

namespace World

def Initial (w : World) : Prop :=
  w.view.grants = [] ∧ w.uses = [] ∧ w.attested = [] ∧ ∀ κ, w.attempts κ = none

def withGrants (w : World) (grants : List GrantRow) : World :=
  { w with view := { w.view with grants } }

def withSecrets (w : World) (secrets : List SecretRow) : World :=
  { w with view := { w.view with secrets } }

def setAttempt (w : World) (κ : ℕ) (attempt : Option Attempt) : World :=
  { w with attempts := Function.update w.attempts κ attempt }

def authorized (w : World) (κ : ℕ) (grant : HostedSiteGrant) : World :=
  w.setAttempt κ ((w.attempts κ).map fun attempt => { attempt with grant := some grant })

def revoke (w : World) (id : String) : World :=
  w.withGrants (Sql.update (fun row => row.id = id) (fun row => { row with revoked := true })
    w.view.grants)

def setApp (w : World) (appId : String) (app : Option App) : World :=
  let apps := Function.update w.view.apps appId app
  { w with view := { w.view with apps } }

/-- the state after the transaction of `attest`. -/
def attest (w : World) (grant : HostedSiteGrant) (user : UserEvent) (time : ℤ)
    (uses : List UseRow) (secrets : List SecretRow) : World :=
  { w.withSecrets secrets with
    uses := uses
    attested := w.attested ++ [⟨grant, user, time, w.view⟩] }

end World

section
variable (host : Host)

def World.insert (w : World) (grant : HostedSiteGrant) (id credential : String) : World :=
  w.withGrants (w.view.grants ++ [⟨id, host.sha256 credential, { grant with id }, false⟩])

/-- What an operation of a thread does.  The clock does not go back, an identifier and a credential
are new, and a transaction that fails is rolled back. -/
inductive Performs (κ : ℕ) : (o : Op) → World → o.Ans → World → Prop where
  | look (w : World) : Performs κ .look w w.view w
  | now (time : ℤ) (w : World) (htime : w.clock ≤ time) :
      Performs κ .now w time { w with clock := time }
  | lookup (attests : Bool) (appId : String) (w : World) :
      Performs κ (.lookup attests appId) w (w.view.apps appId)
        (if attests then w.setAttempt κ (some ⟨appId, w.view.apps appId, none⟩) else w)
  | insert (grant : HostedSiteGrant) (id credential : String) (w : World)
      (hid : ∀ row ∈ w.view.grants, row.id ≠ id)
      (hcredential : ∀ row ∈ w.view.grants, row.credentialHash ≠ host.sha256 credential) :
      Performs κ (.insert grant) w (.ok { grant with id }) (w.insert host grant id credential)
  | insertFails (grant : HostedSiteGrant) (e : Failure) (w : World) :
      Performs κ (.insert grant) w (.error e) w
  | attest (grant : HostedSiteGrant) (user : UserEvent) (bodyHash uuid time : String) (now : ℤ)
      (uses : List UseRow) (secrets : List SecretRow) (w : World)
      (h : transaction host w.uses w.view.secrets grant user bodyHash uuid time now =
        .ok (uses, secrets)) :
      Performs κ (.attest grant user bodyHash now) w (.ok ()) (w.attest grant user now uses secrets)
  | attestFails (grant : HostedSiteGrant) (user : UserEvent) (bodyHash : String) (now : ℤ)
      (e : Failure) (secrets : List SecretRow) (w : World) :
      -- the time of the last use of the secret may have been written
      Performs κ (.attest grant user bodyHash now) w (.error e) (w.withSecrets secrets)
  | revoke (id : String) (w : World) : Performs κ (.revoke id) w (.ok ()) (w.revoke id)
  | revokeFails (id : String) (e : Failure) (w : World) : Performs κ (.revoke id) w (.error e) w
  | authorized (grant : HostedSiteGrant) (w : World) :
      Performs κ (.authorized grant) w () (w.authorized κ grant)
  | ended (w : World) : Performs κ .ended w () (w.setAttempt κ none)
  | setApp (appId : String) (app : Option App) (w : World) :
      Performs κ (.setApp appId app) w () (w.setApp appId app)
  | setSecrets (secrets : List SecretRow) (w : World) :
      Performs κ (.setSecrets secrets) w () (w.withSecrets secrets)

inductive Spawn : Prog api Unit → Prop where
  | attempt (credential : String) (input : Value) : Spawn (attempt host credential input).detach
  | register (ownerNpub : String) (input : Value) : Spawn (register host ownerNpub input).detach
  | revoke (owner id : String) : Spawn (revoke owner id).detach
  | setApp (appId : String) (app : Option App) : Spawn (.call (.setApp appId app) .ret)
  | setSecrets (secrets : List SecretRow) : Spawn (.call (.setSecrets secrets) .ret)

/-- **While an attempt waits**, its app does not change, and from the return of `authorize` its grant
is not revoked, and the clock does not come to its expiry before the thread `κ` of the attempt reads it
again. -/
def Undisturbed (κ : ℕ) (w : World) : (o : Op) → o.Ans → Prop
  | .setApp appId _, _ => ∀ κ', ∀ attempt ∈ w.attempts κ', attempt.appId ≠ appId
  | .revoke id, _ => ∀ κ', ∀ attempt ∈ w.attempts κ', ∀ grant ∈ attempt.grant, grant.id ≠ id
  | .now, (time : ℤ) => ∀ attempt ∈ w.attempts κ, ∀ grant ∈ attempt.grant, time < grant.expiresAt
  | _, _ => True

/-- The signer in one process; `calm`: attempts are undisturbed. -/
def system (calm : Prop) : System api World where
  perform κ o w r w' := Performs host κ o w r w' ∧ (calm → Undisturbed κ w o r)
  spawn _ _ p := Spawn host p
  crash w w' := w' = { w with attempts := fun _ => none }

end

/-! ## custody -/

section
variable {host : Host} {time : String} {rows rows' : List SecretRow}

theorem withSecrets_ok {α : Type} {method : Exc Secrets.api Secrets.Failure α} {a : α} :
    withSecrets time method rows = .ok (a, rows') ↔
      Prog.run (secretAnswer time) secretEffect method.run rows = (.ok a, rows') := by
  unfold withSecrets
  split
  · next a' rows₁ hrun =>
    rw [hrun]
    simp
  · next e rows₁ hrun =>
    rw [hrun]
    simp

/-- the secret of a grant has the recorded revision. -/
def InCustody (secrets : List SecretRow) (grant : Secrets.HostedSiteGrant) : Prop :=
  ∃ row, Secrets.findRow secrets grant.ownerNpub grant.workspaceId grant.secretId = .ok row ∧
    row.metadata.revokedAt = none ∧ row.metadata.type = .nostr ∧
    row.metadata.revision = grant.secretRevision ∧ row.metadata.publicNpub = some grant.siteNpub

/-- a check of the secret store that passes. -/
theorem checked_ok {α : Type} {x : Except Secrets.SecretError α} {a : α}
    (h : Prog.run (secretAnswer time) secretEffect (Secrets.checked x).run rows = (.ok a, rows')) :
    x = .ok a ∧ rows' = rows := by
  cases x with
  | error e => cases h
  | ok b =>
    cases h
    exact ⟨rfl, rfl⟩

theorem row_ok {owner workspace id : String} {row : SecretRow}
    (h : Prog.run (secretAnswer time) secretEffect
      (Secrets.tryOp (.row owner workspace id) rfl).run rows = (.ok row, rows')) :
    Secrets.findRow rows owner workspace id = .ok row ∧ rows' = rows := by
  have hchecked : Prog.run (secretAnswer time) secretEffect
    (Secrets.checked (Secrets.findRow rows owner workspace id)).run rows = (.ok row, rows') := h
  exact checked_ok hchecked

theorem checkHostedSiteCustody_ok {grant : Secrets.HostedSiteGrant}
    (h : Prog.run (secretAnswer time) secretEffect
      (Secrets.checkHostedSiteCustody host.secrets grant).run rows = (.ok (), rows')) :
    InCustody rows grant := by
  unfold Secrets.checkHostedSiteCustody at h
  obtain ⟨row, rows₁, hrow, h⟩ := Exc.run_bind_ok.mp h
  obtain ⟨_, rows₂, hcheck, -⟩ := Exc.run_bind_ok.mp h
  obtain ⟨hfind, rfl⟩ := row_ok hrow
  obtain ⟨hcustody, -⟩ := checked_ok hcheck
  have hcustody := throwIf_ok.mp hcustody
  push Not at hcustody
  obtain ⟨hrevoked, htype, hrevision, hnpub⟩ := hcustody
  refine ⟨row, hfind, ?_, htype, hrevision, hnpub⟩
  cases hrow : row.metadata.revokedAt with
  | none => rfl
  | some revokedAt => exact absurd (by rw [hrow]; rfl) hrevoked

/-- **What is signed for a site** is signed in custody. -/
theorem signHostedSite_ok {grant : Secrets.HostedSiteGrant} {event value : Value}
    (h : withSecrets time (Secrets.signHostedSite host.secrets grant event) rows =
      .ok (value, rows')) : InCustody rows grant := by
  unfold Secrets.signHostedSite at h
  obtain ⟨_, rows₁, hcheck, -⟩ := Exc.run_bind_ok.mp (withSecrets_ok.mp h)
  exact checkHostedSiteCustody_ok hcheck

end

/-! ## proofs of users -/

/-- the event of a user is the one of its identifier, and is fresh. -/
structure Verified (host : Host) (user : UserEvent) (now : ℤ) : Prop where
  id : host.eventHash user.signed = some user.id
  created_at : user.signed[1]?.bind integerOf = some user.created_at
  early : -60 ≤ user.created_at - now
  late : user.created_at - now ≤ 60

section
variable {host : Host} {input : Value} {now : ℤ} {user : UserEvent} {hash : String}

theorem verifyEvent_ok {event : Value} {id : String} (h : verifyEvent host event = true)
    (hid : stringOf (event.get "id") = some id) :
    host.eventHash (signedFields event) = some id := by
  unfold verifyEvent at h
  split at h
  · next hash hhash =>
    obtain ⟨heq, -⟩ := Bool.and_eq_true_iff.mp h
    rw [of_decide_eq_true heq] at hid
    cases hid
    exact hhash
  · cases h

theorem userProof_ok (h : userProof host input hash now = some user) : Verified host user now := by
  unfold userProof at h
  obtain ⟨event, -, h⟩ := Option.bind_eq_some_iff.mp h
  obtain ⟨_, hverified, h⟩ := Option.bind_eq_some_iff.mp h
  obtain ⟨created, hcreated, h⟩ := Option.bind_eq_some_iff.mp h
  obtain ⟨_, hfresh, h⟩ := Option.bind_eq_some_iff.mp h
  obtain ⟨id, hid, h⟩ := Option.bind_eq_some_iff.mp h
  obtain ⟨pubkey, -, h⟩ := Option.bind_eq_some_iff.mp h
  obtain ⟨_, -, h⟩ := Option.bind_eq_some_iff.mp h
  cases h
  obtain ⟨hearly, hlate⟩ := of_guard hfresh
  exact ⟨verifyEvent_ok (of_guard hverified) hid, (Option.filter_eq_some_iff.mp hcreated).1, hearly,
    hlate⟩

/-- **A proof that passes the checks** is a verified, fresh event. -/
theorem verifyHostedUserProof_ok (h : verifyHostedUserProof host input now = .ok (user, hash)) :
    Verified host user now := by
  simp only [verifyHostedUserProof, bind_ok, orThrow_ok] at h
  obtain ⟨-, -, payload, -, -, -, body, -, -, -, found, hfound, h⟩ := h
  cases h
  exact userProof_ok hfound

/-- **An event is attested once**: with the same signed fields it has the same identifier and the same
time, and what was attested of it is within two minutes. -/
theorem Verified.same {user' : UserEvent} {now' : ℤ} (h : Verified host user now)
    (h' : Verified host user' now') (hsigned : user.signed = user'.signed) :
    user.id = user'.id ∧ now' - 120 ≤ now := by
  have hid := h.id
  have hcreated := h.created_at
  rw [hsigned] at hid hcreated
  have hsame : user.created_at = user'.created_at :=
    Option.some.inj (hcreated.symm.trans h'.created_at)
  have := h.late
  have := h.early
  have := h'.early
  have := h'.late
  exact ⟨Option.some.inj (hid.symm.trans h'.id), by omega⟩

end

/-! ## uses -/

/-- **The uses are the attestations since the last purge.** -/
def Counted (w : World) : Prop :=
  ∃ horizon ≤ w.clock - 120, w.uses = (kept (·.usedAt) horizon w.attested).map Attestation.use

/-- each event once for a grant. -/
def Single (attested : List Attestation) : Prop :=
  (attested.map fun a => (a.grant.id, a.user.signed)).Nodup

/-- the attestations of a grant, of one user or of all. -/
def Limited (attested : List Attestation) : Prop :=
  ∀ grantId,
    Windowed (·.usedAt) 60 120 (attested.filter fun a => a.grant.id = grantId) ∧
    ∀ actor, Windowed (·.usedAt) 60 12
      (attested.filter fun a => a.grant.id = grantId ∧ a.user.pubkey = actor)

section
variable {uses uses' : List UseRow} {attested : List Attestation} {grant : HostedSiteGrant}
  {user : UserEvent} {now horizon since : ℤ} {actor : String}

/-- what a purge leaves. -/
theorem purged (huses : uses = (kept (·.usedAt) horizon attested).map Attestation.use)
    (hhorizon : horizon ≤ now - 120) :
    (uses.filter fun use => now - 120 ≤ use.usedAt) =
      (kept (·.usedAt) (now - 120) attested).map Attestation.use := by
  rw [huses, List.filter_map, ← kept_kept hhorizon]
  rfl

theorem countUses_kept (hsince : horizon ≤ since) :
    countUses ((kept (·.usedAt) horizon attested).map Attestation.use) grant.id since actor =
      attested.countP fun a => a.grant.id = grant.id ∧ since ≤ a.usedAt ∧
        (actor = "" ∨ a.user.pubkey = actor) := by
  rw [countUses, List.countP_map, kept, List.countP_filter]
  refine List.countP_congr fun a _ => ?_
  rw [Bool.and_eq_true]
  refine ⟨fun h => h.1, fun h => ⟨h, decide_eq_true ?_⟩⟩
  exact le_trans hsince (of_decide_eq_true h).2.1

/-- **What is admitted** is new to its grant and within the limits. -/
theorem admitted_ok (huses : uses = (kept (·.usedAt) horizon attested).map Attestation.use)
    (hhorizon : horizon ≤ now - 120) (h : admitted uses grant user now = .ok uses') :
    uses' = (kept (·.usedAt) (now - 120) attested).map Attestation.use ∧
    (∀ a ∈ attested, now - 120 ≤ a.usedAt → a.grant.id = grant.id → a.user.id ≠ user.id) ∧
    (attested.countP fun a => a.grant.id = grant.id ∧ now - 60 ≤ a.usedAt) < 120 ∧
    (attested.countP fun a => a.grant.id = grant.id ∧ a.user.pubkey = user.pubkey ∧
      now - 60 ≤ a.usedAt) < 12 := by
  unfold admitted at h
  obtain ⟨_, hreplay, h⟩ := bind_ok.mp h
  obtain ⟨_, hlimit, h⟩ := bind_ok.mp h
  cases h
  have hpurged := purged huses hhorizon
  have hreplay := throwIf_ok.mp hreplay
  have hlimit := throwIf_ok.mp hlimit
  rw [hpurged] at hreplay hlimit ⊢
  rw [countUses_kept (by omega), countUses_kept (by omega)] at hlimit
  push Not at hreplay hlimit
  refine ⟨rfl, fun a ha htime hgrant heq => ?_, lt_of_le_of_lt ?_ hlimit.1,
    lt_of_le_of_lt ?_ hlimit.2⟩
  · exact hreplay a.use (List.mem_map_of_mem (mem_kept.mpr ⟨ha, htime⟩)) hgrant heq
  · refine List.countP_mono_left fun a _ h => ?_
    simp only [decide_eq_true_eq] at h ⊢
    exact ⟨h.1, h.2, Or.inl trivial⟩
  · refine List.countP_mono_left fun a _ h => ?_
    simp only [decide_eq_true_eq] at h ⊢
    exact ⟨h.1, h.2.2, Or.inr h.2.1⟩

/-- **One more attestation keeps the limits.** -/
theorem Limited.append (h : Limited attested) {a : Attestation}
    (hall : (attested.countP fun b => b.grant.id = a.grant.id ∧ a.usedAt - 60 ≤ b.usedAt) < 120)
    (hone : (attested.countP fun b => b.grant.id = a.grant.id ∧ b.user.pubkey = a.user.pubkey ∧
      a.usedAt - 60 ≤ b.usedAt) < 12) : Limited (attested ++ [a]) := by
  refine fun grantId => ⟨?_, fun actor => ?_⟩
  · rw [List.filter_append]
    by_cases hgrant : a.grant.id = grantId
    · rw [List.filter_cons_of_pos (by simpa using hgrant)]
      refine (h grantId).1.append ?_
      rw [List.countP_filter]
      refine lt_of_le_of_lt (List.countP_mono_left fun b _ hb => ?_) hall
      simp only [Bool.and_eq_true, decide_eq_true_eq] at hb ⊢
      exact ⟨hb.2.trans hgrant.symm, hb.1⟩
    · rw [List.filter_cons_of_neg (by simpa using hgrant), List.filter_nil, List.append_nil]
      exact (h grantId).1
  · rw [List.filter_append]
    by_cases hmine : a.grant.id = grantId ∧ a.user.pubkey = actor
    · rw [List.filter_cons_of_pos (by simpa using hmine)]
      refine ((h grantId).2 actor).append ?_
      rw [List.countP_filter]
      refine lt_of_le_of_lt (List.countP_mono_left fun b _ hb => ?_) hone
      simp only [Bool.and_eq_true, decide_eq_true_eq] at hb ⊢
      exact ⟨hb.2.1.trans hmine.1.symm, hb.2.2.trans hmine.2.symm, hb.1⟩
    · rw [List.filter_cons_of_neg (by simpa using hmine), List.filter_nil, List.append_nil]
      exact (h grantId).2 actor

end

/-! ## the invariant -/

/-- the grant is stored and is not revoked. -/
def Stands (view : View) (grant : HostedSiteGrant) : Prop :=
  ∃ row ∈ view.grants, row.id = grant.id ∧ row.metadata = grant ∧ row.revoked = false

/-- the app of a grant is the recorded one. -/
def appOf (grant : HostedSiteGrant) : App := ⟨some grant.ownerNpub, grant.appRoot⟩

/-- **An attestation under a grant that stands**: it is not revoked and not expired, and its app is
the recorded one. -/
def Standing (a : Attestation) : Prop :=
  Stands a.view a.grant ∧ a.usedAt < a.grant.expiresAt ∧
    a.view.apps a.grant.appId = some (appOf a.grant)

/-- what is known while an attempt waits, if attempts are undisturbed. -/
structure Waiting (w : World) (attempt : Attempt) : Prop where
  app : w.view.apps attempt.appId = attempt.app
  stands : ∀ grant ∈ attempt.grant, Stands w.view grant

/-- The invariant.  See the file header. -/
structure Inv (host : Host) (calm : Prop) (w : World) : Prop where
  ids : PrimaryKey (·.id) w.view.grants
  credentials : PrimaryKey (·.credentialHash) w.view.grants
  named : ∀ row ∈ w.view.grants, row.metadata.id = row.id
  counted : Counted w
  verified : ∀ a ∈ w.attested, Verified host a.user a.usedAt
  custody : ∀ a ∈ w.attested, PrimaryKey (·.id) a.view.grants ∧
    InCustody a.view.secrets a.grant.toHostedSiteGrant
  single : Single w.attested
  limited : Limited w.attested
  waiting : calm → ∀ κ, ∀ attempt ∈ w.attempts κ, Waiting w attempt
  standing : calm → ∀ a ∈ w.attested, Standing a

/-- a grant that was read. -/
def Known (grant : HostedSiteGrant) (w : World) : Prop :=
  ∃ row ∈ w.view.grants, row.id = grant.id ∧ row.metadata = grant

/-- what is asked of an operation. -/
def May (host : Host) (calm : Prop) (κ : ℕ) : Op → World → Prop
  | .authorized grant, w => Stands w.view grant ∧
      w.attempts κ = some ⟨grant.appId, some (appOf grant), none⟩
  | .attest grant user _ now, w => Verified host user now ∧ w.clock = now ∧
      (calm → now < grant.expiresAt) ∧
      w.attempts κ = some ⟨grant.appId, some (appOf grant), some grant⟩
  | _, _ => True

/-- the discipline of the signer. -/
def signer (host : Host) (calm : Prop) : Discipline api World :=
  { toSystem := system host calm, Inv := Inv host calm, may := May host calm }

section
variable {host : Host} {calm : Prop} {w w' : World} {κ : ℕ}

/-- only the attempts change. -/
theorem Inv.setAttempt (hi : Inv host calm w) {attempt : Option Attempt}
    (h : calm → ∀ a ∈ attempt, Waiting w a) : Inv host calm (w.setAttempt κ attempt) where
  ids := hi.ids
  credentials := hi.credentials
  named := hi.named
  counted := hi.counted
  verified := hi.verified
  custody := hi.custody
  single := hi.single
  limited := hi.limited
  waiting hcalm κ' a ha := by
    have ha : a ∈ Function.update w.attempts κ attempt κ' := ha
    have hw : Waiting w a := by
      by_cases hκ : κ' = κ
      · rw [hκ, Function.update_self] at ha
        exact h hcalm a ha
      · rw [Function.update_of_ne hκ] at ha
        exact hi.waiting hcalm κ' a ha
    exact ⟨hw.app, hw.stands⟩
  standing := hi.standing

/-- the clock goes on, and the state that methods read changes. -/
theorem Inv.keep (hi : Inv host calm w) {clock : ℤ} {view : View} (hclock : w.clock ≤ clock)
    (hids : PrimaryKey (·.id) view.grants) (hcredentials : PrimaryKey (·.credentialHash) view.grants)
    (hnamed : ∀ row ∈ view.grants, row.metadata.id = row.id)
    (hwaiting : calm → ∀ κ, ∀ attempt ∈ w.attempts κ, Waiting w attempt →
      Waiting { w with clock, view } attempt) : Inv host calm { w with clock, view } where
  ids := hids
  credentials := hcredentials
  named := hnamed
  counted := by
    obtain ⟨horizon, hhorizon, huses⟩ := hi.counted
    exact ⟨horizon, by show horizon ≤ clock - 120; omega, huses⟩
  verified := hi.verified
  custody := hi.custody
  single := hi.single
  limited := hi.limited
  waiting hcalm κ attempt ha := hwaiting hcalm κ attempt ha (hi.waiting hcalm κ attempt ha)
  standing := hi.standing

theorem Stands.mono {view view' : View} {grant : HostedSiteGrant} (h : Stands view grant)
    (hrows : ∀ row ∈ view.grants, row.id = grant.id → row ∈ view'.grants) : Stands view' grant := by
  obtain ⟨row, hrow, hid, hrest⟩ := h
  exact ⟨row, hrows row hrow hid, hid, hrest⟩

theorem Inv.now (hi : Inv host calm w) {time : ℤ} (htime : w.clock ≤ time) :
    Inv host calm { w with clock := time } :=
  hi.keep htime hi.ids hi.credentials hi.named fun _ _ _ _ hw => ⟨hw.app, hw.stands⟩

theorem Inv.insert (hi : Inv host calm w) {grant : HostedSiteGrant} {id credential : String}
    (hid : ∀ row ∈ w.view.grants, row.id ≠ id)
    (hcredential : ∀ row ∈ w.view.grants, row.credentialHash ≠ host.sha256 credential) :
    Inv host calm (w.insert host grant id credential) := by
  refine hi.keep le_rfl (hi.ids.append hid) (hi.credentials.append hcredential) (fun row hrow => ?_)
    fun _ κ attempt _ hw => ⟨hw.app, fun grant hgrant => ?_⟩
  · rcases List.mem_append.mp hrow with hrow | hrow
    · exact hi.named row hrow
    · rw [List.mem_singleton.mp hrow]
  · exact (hw.stands grant hgrant).mono fun row hrow _ => List.mem_append_left _ hrow

theorem Inv.revoke (hi : Inv host calm w) {id : String} {r : Op.Ans (.revoke id)}
    (hcalm : calm → Undisturbed κ w (.revoke id) r) : Inv host calm (w.revoke id) := by
  refine hi.keep le_rfl (hi.ids.update fun _ => rfl) (hi.credentials.update fun _ => rfl)
    (fun row hrow => ?_) fun hc κ attempt ha hw => ⟨hw.app, fun grant hgrant => ?_⟩
  · obtain ⟨old, hold, rfl⟩ := Sql.mem_update.mp hrow
    split <;> exact hi.named old hold
  · refine (hw.stands grant hgrant).mono fun row hrow hid => Sql.mem_update_of_not hrow fun heq => ?_
    exact hcalm hc κ attempt ha grant hgrant (hid.symm.trans heq)

theorem Inv.setApp (hi : Inv host calm w) {appId : String} {app : Option App}
    (hcalm : calm → Undisturbed κ w (.setApp appId app) ()) : Inv host calm (w.setApp appId app) :=
  hi.keep le_rfl hi.ids hi.credentials hi.named fun hc κ attempt ha hw =>
    ⟨(Function.update_of_ne (hcalm hc κ attempt ha) ..).trans hw.app, hw.stands⟩

theorem Inv.setSecrets (hi : Inv host calm w) (secrets : List SecretRow) :
    Inv host calm (w.withSecrets secrets) :=
  hi.keep le_rfl hi.ids hi.credentials hi.named fun _ _ _ _ hw => ⟨hw.app, hw.stands⟩

/-- **An attestation** is new, within the limits and in custody. -/
theorem Inv.attest (hi : Inv host calm w) {grant : HostedSiteGrant} {user : UserEvent}
    {bodyHash uuid time : String} {now : ℤ} {uses : List UseRow} {secrets : List SecretRow}
    (hverified : Verified host user now) (hclock : w.clock = now)
    (hexpiry : calm → now < grant.expiresAt)
    (hattempt : w.attempts κ = some ⟨grant.appId, some (appOf grant), some grant⟩)
    (h : transaction host w.uses w.view.secrets grant user bodyHash uuid time now =
      .ok (uses, secrets)) : Inv host calm (w.attest grant user now uses secrets) := by
  obtain ⟨horizon, hhorizon, huses⟩ := hi.counted
  obtain ⟨uses', hadmitted, h⟩ := bind_ok.mp h
  obtain ⟨signed, hsigned, h⟩ := bind_ok.mp h
  cases h
  obtain ⟨rfl, hnew, hall, hone⟩ := admitted_ok huses (by omega) hadmitted
  let a : Attestation := ⟨grant, user, now, w.view⟩
  have hlast : ∀ {P : Attestation → Prop}, (∀ b ∈ w.attested, P b) → P a →
      ∀ b ∈ w.attested ++ [a], P b := by
    intro P hold ha b hb
    rcases List.mem_append.mp hb with hb | hb
    · exact hold b hb
    · rw [List.mem_singleton.mp hb]
      exact ha
  refine ⟨hi.ids, hi.credentials, hi.named, ⟨now - 120, ?_, ?_⟩, hlast hi.verified hverified,
    hlast hi.custody ⟨hi.ids, signHostedSite_ok hsigned⟩, ?_, hi.limited.append hall hone,
    fun hcalm κ' attempt ha => ?_, fun hcalm => hlast (hi.standing hcalm) ?_⟩
  · show now - 120 ≤ w.clock - 120
    omega
  · have hkept : kept (·.usedAt) (now - 120) [a] = [a] :=
      List.filter_cons_of_pos (decide_eq_true (by show now - 120 ≤ now; omega))
    show _ = (kept (·.usedAt) (now - 120) (w.attested ++ [a])).map Attestation.use
    rw [kept_append, hkept, List.map_append]
    rfl
  · show ((w.attested ++ [a]).map fun b => (b.grant.id, b.user.signed)).Nodup
    rw [List.map_append]
    refine List.nodup_append.mpr ⟨hi.single, List.nodup_singleton _, fun x hx y hy heq => ?_⟩
    obtain ⟨b, hb, rfl⟩ := List.mem_map.mp hx
    obtain rfl := List.mem_singleton.mp hy
    obtain ⟨hgrant, hsame⟩ := Prod.ext_iff.mp heq
    obtain ⟨hid, htime⟩ := (hi.verified b hb).same hverified hsame
    exact hnew b hb htime hgrant hid
  · have hw := hi.waiting hcalm κ' attempt ha
    exact ⟨hw.app, hw.stands⟩
  · have hw := hi.waiting hcalm κ _ hattempt
    exact ⟨hw.stands grant rfl, hexpiry hcalm, hw.app⟩

/-- **One operation** that is permitted keeps the invariant. -/
theorem signer_perform {o : Op} {r : o.Ans} (hi : (signer host calm).Inv w)
    (hmay : (signer host calm).may κ o w) (ho : (signer host calm).perform κ o w r w') :
    (signer host calm).Inv w' := by
  have hi : Inv host calm w := hi
  obtain ⟨ho, hcalm⟩ := ho
  cases ho with
  | look | insertFails | revokeFails => exact hi
  | now time _ htime => exact hi.now htime
  | lookup attests appId =>
    cases attests with
    | false => exact hi
    | true =>
      refine hi.setAttempt fun _ a ha => ?_
      cases ha
      exact ⟨rfl, nofun⟩
  | insert grant id credential _ hid hcredential => exact hi.insert hid hcredential
  | attest grant user bodyHash uuid time now uses secrets _ h =>
    exact hi.attest hmay.1 hmay.2.1 hmay.2.2.1 hmay.2.2.2 h
  | attestFails grant user bodyHash now e secrets => exact hi.setSecrets secrets
  | revoke id => exact hi.revoke hcalm
  | authorized grant =>
    obtain ⟨hstands, hattempt⟩ := hmay
    refine hi.setAttempt fun hc a ha => ?_
    rw [hattempt] at ha
    cases ha
    have hw := hi.waiting hc κ _ hattempt
    refine ⟨hw.app, fun g hg => ?_⟩
    cases hg
    exact hstands
  | ended => exact hi.setAttempt fun _ a ha => nomatch ha
  | setApp appId app => exact hi.setApp hcalm
  | setSecrets secrets => exact hi.setSecrets secrets

/-! ## the programs -/

/-- **Others do not change the attempt of a thread.** -/
theorem stable_attempt {attempt : Option Attempt} :
    Stable (signer host calm) κ fun w => w.attempts κ = attempt := by
  rintro w w' h ⟨κ', o, r, hne, -, -, ho, -⟩
  cases ho with
  | lookup attests appId =>
    cases attests with
    | false => exact h
    | true => exact (Function.update_of_ne hne.symm ..).trans h
  | authorized grant => exact (Function.update_of_ne hne.symm ..).trans h
  | ended => exact (Function.update_of_ne hne.symm ..).trans h
  | _ => exact h

/-- **A grant that was read stays.** -/
theorem stable_known {grant : HostedSiteGrant} : Stable (signer host calm) κ (Known grant) := by
  rintro w w' ⟨row, hrow, hid, hgrant⟩ ⟨κ', o, r, -, -, -, ho, -⟩
  cases ho with
  | insert => exact ⟨row, List.mem_append_left _ hrow, hid, hgrant⟩
  | revoke id =>
    refine ⟨_, Sql.mem_update.mpr ⟨row, hrow, rfl⟩, ?_⟩
    split <;> exact ⟨hid, hgrant⟩
  | lookup attests appId =>
    cases attests with
    | false => exact ⟨row, hrow, hid, hgrant⟩
    | true => exact ⟨row, hrow, hid, hgrant⟩
  | _ => exact ⟨row, hrow, hid, hgrant⟩

theorem stable_any : Stable (signer host calm) κ Any := Stable.const True

theorem stable_and {P Q : World → Prop} (hP : Stable (signer host calm) κ P)
    (hQ : Stable (signer host calm) κ Q) : Stable (signer host calm) κ fun w => P w ∧ Q w :=
  fun w w' h ho => ⟨hP w w' h.1 ho, hQ w w' h.2 ho⟩

theorem raise_spec {α : Type} {P : World → Prop} {x : Except Failure α} :
    Triple (signer host calm) κ P (raise x) (fun a w => P w ∧ x = .ok a) Any₂ := by
  cases x with
  | ok a => exact Triple.pure fun _ _ hP => ⟨hP, rfl⟩
  | error e => exact Triple.throw fun _ _ _ => trivial

theorem look_spec {P : World → Prop} (hP : Stable (signer host calm) κ P) :
    Triple (signer host calm) κ P look (fun view w => P w ∧ view = w.view) Any₂ := by
  refine Triple.op hP (fun _ _ _ => trivial) fun w view w' _ h ho _ => ?_
  obtain ⟨ho, -⟩ := ho
  cases ho
  exact ⟨h, rfl⟩

/-- the clock is read; what does not speak of the clock stays. -/
theorem now_spec {P : World → Prop} (hP : ∀ w time, P w → P { w with clock := time }) :
    Triple (signer host calm) κ P now (fun time w => P w ∧ w.clock = time ∧
      (calm → ∀ attempt ∈ w.attempts κ, ∀ grant ∈ attempt.grant, time < grant.expiresAt)) Any₂ := by
  refine Triple.opNow rfl (fun _ _ _ => trivial) fun w time w' _ h ho _ => ?_
  obtain ⟨ho, hcalm⟩ := ho
  cases ho
  exact ⟨hP w time h, rfl, hcalm⟩

theorem granted_ok {view : View} {credential : String} {appId : Value} {grant : HostedSiteGrant}
    (h : granted host view credential appId = .ok grant) :
    ∃ row ∈ view.grants, row.metadata = grant := by
  simp only [granted, bind_ok, orThrow_ok] at h
  obtain ⟨-, -, row, hrow, -, -, h⟩ := h
  cases h
  exact ⟨row, List.mem_of_find?_eq_some hrow, rfl⟩

theorem standing_ok {view : View} {grant : HostedSiteGrant} {app : Option App}
    (h : standing host view grant app = .ok ()) :
    app = some (appOf grant) ∧ ∃ row ∈ view.grants, row.id = grant.id ∧ row.revoked = false := by
  simp only [standing, bind_ok, throwIf_ok] at h
  obtain ⟨-, happ, -, -, hrow⟩ := h
  exact ⟨not_not.mp happ, not_not.mp hrow⟩

/-- **What `authorize` returns** stood when it returned. -/
theorem authorize_spec (credential : String) (appId : Value) :
    Triple (signer host calm) κ Any (authorize host credential appId)
      (fun grant w => w.attempts κ = some ⟨grant.appId, some (appOf grant), some grant⟩) Any₂ := by
  unfold authorize
  refine Triple.bind (look_spec stable_any) fun view => ?_
  refine Triple.bind raise_spec fun grant => ?_
  refine Triple.pre (P := Known grant) ?_ fun w hi h => ?_
  swap
  · obtain ⟨⟨-, rfl⟩, hgranted⟩ := h
    obtain ⟨row, hrow, hgrant⟩ := granted_ok hgranted
    have hi : Inv host calm w := hi
    exact ⟨row, hrow, (hi.named row hrow).symm.trans (by rw [hgrant]), hgrant⟩
  refine Triple.bind (now_spec fun _ _ h => h) fun time => ?_
  refine Triple.bind (R := fun _ => Known grant) (raise_spec.post (fun _ _ _ h => h.1.1)
    fun _ _ _ h => h) fun _ => ?_
  let Asked (app : Option App) : World → Prop := fun w =>
    w.attempts κ = some ⟨grant.appId, app, none⟩ ∧ Known grant w
  have hAsked : ∀ app, Stable (signer host calm) κ (Asked app) := fun app =>
    stable_and stable_attempt stable_known
  refine Triple.bind (R := Asked) (Triple.op stable_known (fun _ _ _ => trivial)
    fun w app w' _ h ho _ => ?_) fun app => ?_
  · obtain ⟨ho, -⟩ := ho
    cases ho
    exact ⟨Function.update_self .., h⟩
  refine Triple.bind (look_spec (hAsked app)) fun view => ?_
  refine Triple.bind raise_spec fun _ => ?_
  refine Triple.assume fun hstanding => ?_
  obtain ⟨rfl, row, hrow, hid, hrevoked⟩ := standing_ok hstanding
  refine Triple.pre (P := fun w => Stands w.view grant ∧
    w.attempts κ = some ⟨grant.appId, some (appOf grant), none⟩) ?_ fun w hi h => ?_
  swap
  · obtain ⟨⟨hattempt, known, hknown, hid', hgrant⟩, rfl⟩ := h
    have hi : Inv host calm w := hi
    obtain rfl := hi.ids.eq hknown hrow (hid'.trans hid.symm)
    exact ⟨⟨known, hrow, hid, hgrant, hrevoked⟩, hattempt⟩
  refine Triple.bind (now_spec fun _ _ h => h) fun time => ?_
  refine Triple.bind raise_spec fun _ => ?_
  refine Triple.bind (R := fun _ w =>
    w.attempts κ = some ⟨grant.appId, some (appOf grant), some grant⟩)
    (Triple.opNow rfl (fun w _ h => h.1.1) fun w _ w' _ h ho _ => ?_) fun _ =>
    Triple.pure fun _ _ h => h
  · obtain ⟨ho, -⟩ := ho
    cases ho
    show Function.update w.attempts κ _ κ = _
    rw [Function.update_self, h.1.1.2]
    rfl

/-- **What is attested** was verified when the clock was read. -/
theorem attest_spec (credential : String) (input : Value) :
    Triple (signer host calm) κ Any (attest host credential input) Any₂ Any₂ := by
  unfold attest
  refine Triple.bind (authorize_spec credential _) fun grant => ?_
  refine Triple.bind (look_spec stable_attempt) fun view => ?_
  refine Triple.bind (R := fun _ w =>
    w.attempts κ = some ⟨grant.appId, some (appOf grant), some grant⟩)
    (raise_spec.post (fun _ _ _ h => h.1.1) fun _ _ _ h => h) fun _ => ?_
  refine Triple.bind (now_spec fun _ _ h => h) fun time => ?_
  refine Triple.bind raise_spec fun proof => ?_
  obtain ⟨user, bodyHash⟩ := proof
  refine Triple.assume fun hverified => ?_
  refine Triple.tryOpNow rfl (fun w _ h => ?_) (fun _ _ _ _ _ _ _ _ _ => trivial)
    fun _ _ _ _ _ _ _ _ _ => trivial
  obtain ⟨hattempt, hclock, hcalm⟩ := h
  exact ⟨verifyHostedUserProof_ok hverified, hclock, fun hc => hcalm hc _ hattempt grant rfl,
    hattempt⟩

theorem attempt_spec (credential : String) (input : Value) :
    Triple (signer host calm) κ Any (attempt host credential input) Any₂ Any₂ := by
  have hended : Triple (signer host calm) κ Any
      (Exc.op (A := api) Op.ended : Attesting Unit) Any₂ Any₂ :=
    Triple.opNow rfl (fun _ _ _ => trivial) fun _ _ _ _ _ _ _ => trivial
  exact Triple.andFinally (attest_spec credential input) (fun _ => hended) fun _ => hended

theorem register_spec (ownerNpub : String) (input : Value) :
    Triple (signer host calm) κ Any (register host ownerNpub input) Any₂ Any₂ := by
  unfold register
  refine Triple.bind (look_spec stable_any).any fun _ => ?_
  refine Triple.bind raise_spec.any fun registration => ?_
  obtain ⟨grant, expiry⟩ := registration
  refine Triple.bind (now_spec fun _ _ h => h).any fun time => ?_
  refine Triple.bind (now_spec fun _ _ h => h).any fun later => ?_
  refine Triple.bind raise_spec.any fun expiresAt => ?_
  refine Triple.bind (R := Any₂) (Triple.op stable_any (fun _ _ _ => trivial)
    fun _ _ _ _ _ _ _ => trivial) fun app => ?_
  refine Triple.bind (look_spec stable_any).any fun view => ?_
  refine Triple.bind raise_spec.any fun grant => ?_
  exact Triple.tryOp stable_any (fun _ _ _ => trivial) (fun _ _ _ _ _ _ _ _ _ => trivial)
    fun _ _ _ _ _ _ _ _ _ => trivial

theorem revoke_spec (owner id : String) :
    Triple (signer host calm) κ Any (revoke owner id) Any₂ Any₂ := by
  unfold revoke
  refine Triple.bind (look_spec stable_any).any fun view => ?_
  refine Triple.bind raise_spec.any fun _ => ?_
  exact Triple.tryOp stable_any (fun _ _ _ => trivial) (fun _ _ _ _ _ _ _ _ _ => trivial)
    fun _ _ _ _ _ _ _ _ _ => trivial

/-- **The discipline of the signer is kept.** -/
theorem signer_keeps (host : Host) (calm : Prop) : (signer host calm).Keeps where
  perform := signer_perform
  crash hi h := by
    have hi : Inv _ _ _ := hi
    subst h
    exact ⟨hi.ids, hi.credentials, hi.named, hi.counted, hi.verified, hi.custody, hi.single,
      hi.limited, fun _ _ _ ha => (nomatch ha), hi.standing⟩
  spawn hi h := by
    cases h with
    | attempt credential input => exact (attempt_spec credential input).detach hi
    | register ownerNpub input => exact (register_spec ownerNpub input).detach hi
    | revoke owner id => exact (revoke_spec owner id).detach hi
    | setApp appId app => exact fun w₁ _ _ => ⟨trivial, fun _ _ _ _ => trivial⟩
    | setSecrets secrets => exact fun w₁ _ _ => ⟨trivial, fun _ _ _ _ => trivial⟩

end

/-! ## attestations -/

/-- **Attestations of hosted sites.**  In every reachable state: the uses are the attestations since
the last purge; each event was attested once for a grant; no window of a minute has more than 120
attestations of a grant, or 12 of one user; the secret had the recorded revision.  And if attempts are
undisturbed, every attestation was under a grant that stood. -/
theorem hosted_attestations (host : Host) (calm : Prop) {c : Conf api World}
    (h : Reachable (system host calm) World.Initial c) :
    Counted c.state ∧ Single c.state.attested ∧ Limited c.state.attested ∧
    (∀ a ∈ c.state.attested, PrimaryKey (·.id) a.view.grants ∧
      InCustody a.view.secrets a.grant.toHostedSiteGrant) ∧
    (calm → ∀ a ∈ c.state.attested, Standing a) := by
  have h0 : ∀ w, World.Initial w → (signer host calm).Inv w := by
    rintro w ⟨hgrants, huses, hattested, hattempts⟩
    exact ⟨by simp [PrimaryKey, hgrants], by simp [PrimaryKey, hgrants], by simp [hgrants],
      ⟨_, le_rfl, by rw [huses, hattested]; rfl⟩, by simp [hattested], by simp [hattested],
      by simp [Single, hattested], by simp [Limited, hattested, Windowed.nil],
      by simp [hattempts], by simp [hattested]⟩
  have hi : Inv host calm c.state := ((signer_keeps host calm).reachable h0 h).inv
  exact ⟨hi.counted, hi.single, hi.limited, hi.custody, hi.standing⟩

/-! ## a grant that is revoked in between -/

def someHex : String := "0000000000000000000000000000000000000000000000000000000000000000"

def someUrl : String := "https://site.example" ++ Secrets.HOSTED_WORKSPACE_PATH

/-- the body of a sign-up. -/
def someBody : Value :=
  obj [("workspace_name", str "Site"), ("terms_version", str "hosted-usd-v1"),
    ("idempotency_key", str "00000000-0000-4000-8000-000000000000")]

def someSecrets : Secrets.Host where
  toText _ := ""
  url _ := some ⟨"https:", "//site.example", Secrets.HOSTED_WORKSPACE_PATH, "", "",
    "https://site.example"⟩
  isNpub _ := true
  decodeNsec _ := none
  nsecEncode _ := ""
  publicNpub _ := some "site"
  fromHex _ := []
  textEncode _ := []
  textDecode _ := ""
  finalizeEvent event _ := some event
  encrypt _ _ _ := "sealed"
  decrypt _ _ := some []

def someHost : Host where
  secrets := someSecrets
  sha256 _ := someHex
  parse _ := some someBody
  clone := some
  eventHash _ := some someHex
  schnorr _ _ _ := true

def someCredential : String := "wmhost_v1_" ++ "0000000000000000000000000000000000000000000"

def someSecret : SecretRow where
  id := "secret"
  owner := "owner"
  workspace := "local"
  metadata := ⟨"secret", "owner", "local", "", .nostr, some "site", Secrets.deniedPolicy, 1, "", "",
    none, none⟩
  envelope := "sealed"

def someWorld : World where
  view := {
    apps := fun _ => some ⟨some "owner", "/app"⟩
    secrets := [someSecret] }

/-- the transaction of `attest`. -/
def someTransaction (w : World) (grant : HostedSiteGrant) (user : UserEvent) (bodyHash : String)
    (now : ℤ) : Except Failure Unit × World :=
  match transaction someHost w.uses w.view.secrets grant user bodyHash "" "" now with
  | .ok (uses, secrets) => (.ok (), w.attest grant user now uses secrets)
  | .error e => (.error e, w)

theorem performs_someTransaction (κ : ℕ) (grant : HostedSiteGrant) (user : UserEvent)
    (bodyHash : String) (now : ℤ) (w : World) :
    Performs someHost κ (.attest grant user bodyHash now) w
      (someTransaction w grant user bodyHash now).1
      (someTransaction w grant user bodyHash now).2 := by
  unfold someTransaction
  split
  · next h => exact .attest grant user bodyHash "" "" now _ _ w h
  · next e h => exact .attestFails grant user bodyHash now e w.view.secrets w

def someAnswer : (o : Op) → World → o.Ans
  | .look, w => w.view
  | .now, w => w.clock
  | .lookup _ appId, w => w.view.apps appId
  | .insert grant, _ => .ok { grant with id := "grant" }
  | .attest grant user bodyHash now, w => (someTransaction w grant user bodyHash now).1
  | .revoke _, _ => .ok ()
  | .authorized _, _ | .ended, _ | .setApp .., _ | .setSecrets _, _ => ()

def someEffect (κ : ℕ) : Op → World → World
  | .lookup attests appId, w =>
    if attests then w.setAttempt κ (some ⟨appId, w.view.apps appId, none⟩) else w
  | .insert grant, w => w.insert someHost grant "grant" someCredential
  | .attest grant user bodyHash now, w => (someTransaction w grant user bodyHash now).2
  | .revoke id, w => w.revoke id
  | .authorized grant, w => w.authorized κ grant
  | .ended, w => w.setAttempt κ none
  | .setApp appId app, w => w.setApp appId app
  | .setSecrets secrets, w => w.withSecrets secrets
  | _, w => w

/-- a grant is inserted into an empty table; `calm`: nothing is revoked, and no grant has expired. -/
def someAllowed (calm : Bool) (κ : ℕ) : Op → World → Bool
  | .insert _, w => w.view.grants.isEmpty
  | .revoke _, _ | .setApp .., _ => !calm
  | .now, w => !calm || (w.attempts κ).all fun attempt => attempt.grant.all fun grant =>
      w.clock < grant.expiresAt
  | _, _ => true

theorem performs_some (calm : Bool) (κ : ℕ) (o : Op) (w : World)
    (ho : someAllowed calm κ o w = true) :
    (system someHost (calm = true)).perform κ o w (someAnswer o w) (someEffect κ o w) := by
  cases o with
  | insert grant =>
    have hempty : w.view.grants = [] := List.isEmpty_iff.mp ho
    exact ⟨.insert grant "grant" someCredential w (by simp [hempty]) (by simp [hempty]),
      fun _ => trivial⟩
  | revoke | setApp =>
    cases calm with
    | false => exact ⟨by constructor, nofun⟩
    | true => cases ho
  | now =>
    refine ⟨.now w.clock w le_rfl, fun hcalm attempt hattempt grant hgrant => ?_⟩
    subst hcalm
    have hall : (w.attempts κ).all (fun attempt => attempt.grant.all fun grant =>
      w.clock < grant.expiresAt) = true := ho
    rw [show w.attempts κ = some attempt from hattempt] at hall
    have hall : attempt.grant.all (fun grant => w.clock < grant.expiresAt) = true := hall
    rw [show attempt.grant = some grant from hgrant] at hall
    have hbefore : w.clock < grant.expiresAt := of_decide_eq_true hall
    exact hbefore
  | attest grant user bodyHash now =>
    exact ⟨performs_someTransaction κ grant user bodyHash now w, fun _ => trivial⟩
  | _ => exact ⟨by constructor, fun _ => trivial⟩

/-- a registration of a grant for an hour. -/
def someRegistration : Prog api Unit :=
  (register someHost "owner" (obj [("appId", str "app"), ("expiresAt", num 3600),
    ("secretId", str "secret"), ("secretRevision", num 1), ("siteNpub", str "site"),
    ("url", str someUrl), ("workspaceId", str "local")])).detach

def someEvent : Value :=
  obj [("id", str someHex), ("pubkey", str "user"), ("created_at", num 0), ("kind", num 27235),
    ("tags", arr [arr [str "u", str someUrl], arr [str "method", str "POST"],
      arr [str "payload", str someHex]]), ("content", str ""), ("sig", str "")]

def someAttempt : Prog api Unit :=
  (attempt someHost someCredential (obj [("appId", str "app"), ("url", str someUrl),
    ("method", str "POST"), ("payload", str "body"), ("bodyHash", str someHex),
    ("userEventId", str someHex), ("userEvent", someEvent)])).detach

/-- the registration, then the attempt. -/
def attested : Option (Conf api World) :=
  (Conf.started someWorld [someRegistration, someAttempt]).follow (fun _ => someAnswer) someEffect
    (someAllowed true) [0, 0, 0, 1, 1, 1, 1]

/-- the grant is revoked before the transaction of the attempt. -/
def revoked : Option (Conf api World) :=
  (Conf.started someWorld [someRegistration, someAttempt, (revoke "owner" "grant").detach]).follow
    (fun _ => someAnswer) someEffect (someAllowed false) [0, 0, 0, 1, 1, 1, 2, 1]

theorem spawn_some {calm : Prop} {p : Prog api Unit}
    (hp : p ∈ [someRegistration, someAttempt, (revoke "owner" "grant").detach]) :
    p.Suspended ∧ ∀ κ, (system someHost calm).spawn someWorld κ p := by
  rcases List.mem_cons.mp hp with rfl | hp
  · exact ⟨rfl, fun _ => .register _ _⟩
  · rcases List.mem_cons.mp hp with rfl | hp
    · exact ⟨rfl, fun _ => .attempt _ _⟩
    · rw [List.mem_singleton.mp hp]
      exact ⟨rfl, fun _ => .revoke _ _⟩

theorem someWorld_initial : someWorld.Initial := ⟨rfl, rfl, rfl, fun _ => rfl⟩

/-- **A grant that is revoked** when `authorize` has returned is attested under. -/
theorem revoked_between : ¬∀ c, Reachable (system someHost False) World.Initial c →
    ∀ a ∈ c.state.attested, Standing a := by
  intro h
  have hrun : revoked.map (fun c => decide (c.state.attested ≠ [] ∧ ∀ a ∈ c.state.attested,
      ∀ row ∈ a.view.grants, row.revoked = true)) = some true := by decide +kernel
  obtain ⟨c, hc, hstate⟩ := Option.map_eq_some_iff.mp hrun
  obtain ⟨hne, hrevoked⟩ := of_decide_eq_true hstate
  have hreach : Reachable (system someHost False) World.Initial c := by
    refine Reachable.follow (fun κ o w ho => ?_) someWorld_initial (fun p => spawn_some) hc
    obtain ⟨hperforms, -⟩ := performs_some false κ o w ho
    exact ⟨hperforms, nofun⟩
  obtain ⟨a, ha⟩ := List.exists_mem_of_ne_nil _ hne
  obtain ⟨⟨row, hrow, -, -, hstands⟩, -⟩ := h c hreach a ha
  rw [hrevoked a ha row hrow] at hstands
  cases hstands

theorem hosted_attestations_once : ∃ c, Reachable (system someHost (true = true)) World.Initial c ∧
    c.state.attested.length = 1 ∧ Single c.state.attested ∧ Limited c.state.attested ∧
    ∀ a ∈ c.state.attested, Standing a := by
  have hrun : attested.map (fun c => c.state.attested.length) = some 1 := by decide +kernel
  obtain ⟨c, hc, hlength⟩ := Option.map_eq_some_iff.mp hrun
  have hreach : Reachable (system someHost (true = true)) World.Initial c :=
    Reachable.follow (performs_some true) someWorld_initial
      (fun p hp => spawn_some (by
        rcases List.mem_cons.mp hp with rfl | hp
        · exact List.mem_cons_self
        · rw [List.mem_singleton.mp hp]
          exact List.mem_cons_of_mem _ List.mem_cons_self)) hc
  obtain ⟨-, hsingle, hlimited, -, hstanding⟩ :=
    hosted_attestations someHost (true = true) hreach
  exact ⟨c, hreach, hlength, hsingle, hlimited, hstanding rfl⟩

end HostedSite
end Signing
end WmAutopilot
