import WmAutopilot.Async.Schedule
import WmAutopilot.Async.Triple
import WmAutopilot.Signing.ApplicationSigner

/-!
# What an application may do with a key

* `World`, `Use`, `Swap`   the grants and key records, with every use of a key and every update;
* `eraseBounds`            a grant without its content bounds: what an update keeps;
* `Permits`, `workOf_ok`   what a grant permits, and that what a request asks for is permitted;
* `Followed`, `OneWinner`  updates of a grant follow one another;
* `Lawful`                 a use that the grant in force permits;
* `Inv`, `signer`          the invariant, and what is asked of an operation;
* `execute_spec`           the grants are read again when the key is at hand;
* `application_sound`      **of every interleaving**: each use is lawful, and updates from one
                           expected grant that change it do not both succeed unless it was
                           restored;
* `unchanged_bound`        two updates from one grant that both succeed, and a bound that is lowered
                           while a vault waits.
-/

set_option autoImplicit false

namespace WmAutopilot
namespace Signing
namespace Application
open Js Value Async

/-- a use of a key: what was checked, and the grants and key records at the use. -/
structure Use where
  credential : String
  method : String
  checked : ApplicationGrant
  work : Work
  view : View

/-- an update that succeeded. -/
structure Swap where
  before : ApplicationGrant
  updated : ApplicationGrant
  deriving DecidableEq

structure World where
  view : View := {}
  uses : List Use := []
  /-- latest first. -/
  swaps : List Swap := []

namespace World

def Initial (w : World) : Prop := w.view.grants = [] ∧ w.uses = [] ∧ w.swaps = []

def withGrants (w : World) (grants : List GrantRow) : World :=
  { w with view := { w.view with grants } }

/-- the row that an update is of. -/
def Stands (before : ApplicationGrant) (row : GrantRow) : Prop :=
  row.id = before.id ∧ row.revoked = false ∧ row.grant = before

instance (before : ApplicationGrant) (row : GrantRow) : Decidable (Stands before row) :=
  inferInstanceAs (Decidable (_ ∧ _))

def swap (w : World) (before updated : ApplicationGrant) : Except Failure Unit × World :=
  if Sql.changes (Stands before) w.view.grants = 1 then
    (.ok (), { w.withGrants (Sql.update (Stands before) (fun row => { row with grant := updated })
        w.view.grants) with swaps := ⟨before, updated⟩ :: w.swaps })
  else (.error (.signer "stale_grant"), w)

def revoke (w : World) (id : String) : World :=
  w.withGrants (Sql.update (fun row => row.id = id) (fun row => { row with revoked := true })
    w.view.grants)

def setRecord (w : World) (npub : String) (record : Option BotKeyRecord) : World :=
  let lookup := Function.update w.view.lookup npub record
  { w with view := { w.view with lookup } }

def use (w : World) (credential method : String) (checked : ApplicationGrant) (work : Work) :
    World :=
  { w with uses := ⟨credential, method, checked, work, w.view⟩ :: w.uses }

end World

section
variable (host : Host)

def World.insert (w : World) (grant : ApplicationGrant) (id credential : String) : World :=
  w.withGrants (w.view.grants ++ [⟨id, host.digest credential, { grant with id }, false⟩])

/-- What an operation does: the vault answers anything; an identifier and a credential are new. -/
inductive Performs : (o : Op) → World → o.Ans → World → Prop where
  | look (w : World) : Performs .look w w.view w
  | openKey (record : BotKeyRecord) (w : World) (r : Except Failure Unit) :
      Performs (.openKey record) w r w
  | again (w : World) : Performs .again w w.view w
  | use (credential method : String) (checked : ApplicationGrant) (work : Work) (w : World) :
      Performs (.use credential method checked work) w () (w.use credential method checked work)
  | insert (grant : ApplicationGrant) (id credential : String) (w : World)
      (hid : ∀ row ∈ w.view.grants, row.id ≠ id)
      (hcredential : ∀ row ∈ w.view.grants, row.credentialHash ≠ host.digest credential) :
      Performs (.insert grant) w ({ grant with id }, credential) (w.insert host grant id credential)
  | swap (before updated : ApplicationGrant) (w : World) :
      Performs (.swap before updated) w (w.swap before updated).1 (w.swap before updated).2
  | revoke (id : String) (w : World) : Performs (.revoke id) w () (w.revoke id)
  | setRecord (npub : String) (record : Option BotKeyRecord) (w : World) :
      Performs (.setRecord npub record) w () (w.setRecord npub record)

variable (deferred : Bool)

inductive Spawn : Prog (api deferred) Unit → Prop where
  | execute (credential method : String) (params : Value) :
      Spawn (execute host deferred credential method params).detach
  | register (actorNpub botNpub expectedPubkey : String) (policy : PolicyInput) :
      Spawn (register deferred actorNpub botNpub expectedPubkey policy).detach
  | registerVerified (actorNpub botNpub expectedPubkey : String) (policy : PolicyInput) :
      Spawn (registerVerified deferred actorNpub botNpub expectedPubkey policy).detach
  | updateContentBoundVerified (actorNpub : String) (expected : ApplicationGrant)
      (keyId : Option String) (kind maxContentBytes : ℤ) :
      Spawn (updateContentBoundVerified deferred actorNpub expected keyId kind
        maxContentBytes).detach
  | revoke (actorNpub id : String) : Spawn (revoke deferred actorNpub id).detach
  | setRecord (npub : String) (record : Option BotKeyRecord) :
      Spawn (.call (.setRecord npub record) .ret)

/-- the calls of the signer, and what changes the key records; the grants survive a crash. -/
def system : System (api deferred) World where
  perform _ := Performs host
  spawn _ _ p := Spawn host deferred p
  crash w w' := w' = w

end

/-! ## what an update keeps -/

/-- a rule without its content bound. -/
def eraseBound (rule : NostrKindConstraint) : NostrKindConstraint := { rule with maxContentBytes := 0 }

/-- a grant without its content bounds. -/
def eraseBounds (grant : ApplicationGrant) : ApplicationGrant :=
  { grant with
    policy := { grant.policy with kindRules := grant.policy.kindRules.map eraseBound } }

theorem map_withBound (kind maxContentBytes : ℤ) (rules : List NostrKindConstraint) :
    (withBound kind maxContentBytes rules).map eraseBound = rules.map eraseBound := by
  induction rules with
  | nil => rfl
  | cons rule rules ih =>
    unfold withBound
    split
    · rfl
    · rw [List.map_cons, ih, List.map_cons]

/-- What a grant permits, without the size of a content. -/
def PermitsButSize (grant : ApplicationGrant) : Work → Prop
  | .publicKey => True
  | .sign event => ∃ rule ∈ grant.policy.kindRules, rule.kind = event.kind ∧
      (event.tags.length : ℤ) ≤ rule.maxTags ∧ TagsAllowed rule event.tags
  | .encrypt peer _ | .decrypt peer _ =>
    grant.policy.allowAnyPeer = true ∨ peer ∈ grant.policy.peers

/-- **What a grant permits.** -/
def Permits (grant : ApplicationGrant) : Work → Prop
  | .sign event => ∃ rule ∈ grant.policy.kindRules, rule.kind = event.kind ∧
      (event.content.utf8ByteSize : ℤ) ≤ rule.maxContentBytes ∧
      (event.tags.length : ℤ) ≤ rule.maxTags ∧ TagsAllowed rule event.tags
  | work => PermitsButSize grant work

section
variable {grant grant' : ApplicationGrant} {work : Work}

theorem Permits.butSize (h : Permits grant work) : PermitsButSize grant work := by
  cases work with
  | sign event =>
    obtain ⟨rule, hrule, hkind, -, htags⟩ := h
    exact ⟨rule, hrule, hkind, htags⟩
  | publicKey | encrypt | decrypt => exact h

/-- what is permitted but for the size does not depend on the bounds. -/
theorem PermitsButSize.erased (h : PermitsButSize grant work)
    (heq : eraseBounds grant = eraseBounds grant') : PermitsButSize grant' work := by
  have hpolicy := congrArg ApplicationGrant.policy heq
  cases work with
  | publicKey => trivial
  | encrypt | decrypt =>
    have hany := congrArg ApplicationGrantPolicy.allowAnyPeer hpolicy
    have hpeers := congrArg ApplicationGrantPolicy.peers hpolicy
    exact h.imp hany.symm.trans hpeers.subst
  | sign event =>
    have hrules : grant.policy.kindRules.map eraseBound = grant'.policy.kindRules.map eraseBound :=
      congrArg ApplicationGrantPolicy.kindRules hpolicy
    obtain ⟨rule, hrule, hkind, hcount, htags⟩ := h
    have hmem : eraseBound rule ∈ grant'.policy.kindRules.map eraseBound :=
      hrules ▸ List.mem_map_of_mem hrule
    obtain ⟨rule', hrule', heq'⟩ := List.mem_map.mp hmem
    have hsame : ∀ n, { rule' with maxContentBytes := n } = { rule with maxContentBytes := n } :=
      fun n => congrArg (fun r : NostrKindConstraint => { r with maxContentBytes := n }) heq'
    obtain ⟨k, n, t, b, names, req, ex⟩ := rule
    obtain ⟨k', n', t', b', names', req', ex'⟩ := rule'
    cases hsame 0
    exact ⟨_, hrule', hkind, hcount, htags⟩

end

/-! ## what a request asks for -/

/-- the method of what is done with the key. -/
def Work.method : Work → ApplicationMethod
  | .publicKey => .get_public_key
  | .sign _ => .sign_event
  | .encrypt .. => .nip44_encrypt
  | .decrypt .. => .nip44_decrypt

section
variable {host : Host} {view : View} {credential method : String} {params value : Value}
  {grant : ApplicationGrant} {record : BotKeyRecord} {work : Work}

/-- the row that authorises. -/
theorem authorize_ok (h : authorize host view credential method = .ok (grant, record)) :
    ∃ row ∈ view.grants, row.credentialHash = host.digest credential ∧ row.revoked = false ∧
      row.grant = grant ∧ method ∈ grant.policy.methods.map (·.text) ∧
      view.lookup grant.botNpub = some record ∧ Holds record grant := by
  simp only [authorize, bind_ok, throwIf_ok, orThrow_ok] at h
  obtain ⟨-, -, row, hrow, -, hmethod, found, hlookup, -, hholds, h⟩ := h
  cases h
  obtain ⟨hmem, hcredential, hrevoked⟩ := Sql.mem_of_find hrow
  exact ⟨row, hmem, hcredential, hrevoked, rfl, not_not.mp hmethod, hlookup, not_not.mp hholds⟩

/-- **An event that passes the checks** is one that the grant permits. -/
theorem eventOf_permits {event : UnsignedEvent} (h : eventOf host grant value = .ok event) :
    Permits grant (.sign event) := by
  simp only [eventOf, bind_ok, throwIf_ok, orThrow_ok] at h
  obtain ⟨rule, hrule, -, -, createdAt, -, sized, hsized, -, htags, -, -, h⟩ := h
  cases h
  unfold sizedOf at hsized
  simp only [Option.bind_eq_bind, Option.bind_eq_some_iff, Option.ite_none_right_eq_some] at hsized
  obtain ⟨content, -, values, -, tags, -, hbounds, hsized⟩ := hsized
  cases hsized
  exact ⟨rule, List.mem_of_find?_eq_some hrule, rfl, hbounds.1, hbounds.2, not_not.mp htags⟩

theorem messageOf_permits {peer text : String} {maxBytes : ℕ}
    (h : messageOf grant params maxBytes = .ok (peer, text)) :
    grant.policy.allowAnyPeer = true ∨ peer ∈ grant.policy.peers := by
  simp only [messageOf, bind_ok, orThrow_ok, Option.filter_eq_some_iff] at h
  obtain ⟨found, ⟨-, hpeer⟩, body, -, h⟩ := h
  cases h
  exact (of_decide_eq_true hpeer).2

/-- **What a request asks for** is permitted, and is what its method does. -/
theorem workOf_ok (h : workOf host grant method params = .ok work)
    (hmethod : method ∈ grant.policy.methods.map (·.text)) :
    Permits grant work ∧ work.method ∈ grant.policy.methods := by
  obtain ⟨m, hm, rfl⟩ := List.mem_map.mp hmethod
  unfold workOf at h
  cases m with
  | get_public_key =>
    rw [if_pos (show ApplicationMethod.get_public_key.text = "get_public_key" from rfl)] at h
    cases h
    exact ⟨trivial, hm⟩
  | sign_event =>
    rw [if_neg (show ¬ApplicationMethod.sign_event.text = "get_public_key" by decide),
      if_pos (show ApplicationMethod.sign_event.text = "sign_event" from rfl)] at h
    simp only [bind_ok] at h
    obtain ⟨-, -, event, hevent, h⟩ := h
    cases h
    exact ⟨eventOf_permits hevent, hm⟩
  | nip44_encrypt =>
    rw [if_neg (show ¬ApplicationMethod.nip44_encrypt.text = "get_public_key" by decide),
      if_neg (show ¬ApplicationMethod.nip44_encrypt.text = "sign_event" by decide),
      if_pos (show ApplicationMethod.nip44_encrypt.text = "nip44_encrypt" from rfl)] at h
    simp only [bind_ok] at h
    obtain ⟨-, -, message, hmessage, h⟩ := h
    cases h
    exact ⟨messageOf_permits hmessage, hm⟩
  | nip44_decrypt =>
    rw [if_neg (show ¬ApplicationMethod.nip44_decrypt.text = "get_public_key" by decide),
      if_neg (show ¬ApplicationMethod.nip44_decrypt.text = "sign_event" by decide),
      if_neg (show ¬ApplicationMethod.nip44_decrypt.text = "nip44_encrypt" by decide)] at h
    simp only [bind_ok] at h
    obtain ⟨-, -, message, hmessage, h⟩ := h
    cases h
    exact ⟨messageOf_permits hmessage, hm⟩

end

/-- **An update** is of the grant that is stored, and keeps all but its bounds. -/
theorem swapOf_ok {view : View} {actorNpub : String} {expected before updated : ApplicationGrant}
    {record : BotKeyRecord} {kind maxContentBytes : ℤ}
    (h : swapOf view actorNpub expected record kind maxContentBytes = .ok (before, updated)) :
    updated.id = before.id ∧ eraseBounds updated = eraseBounds before := by
  simp only [swapOf, bind_ok, throwIf_ok, orThrow_ok] at h
  obtain ⟨-, -, -, -, -, -, -, -, -, -, -, -, -, -, h⟩ := h
  cases h
  refine ⟨rfl, ?_⟩
  simp only [eraseBounds, map_withBound]

/-! ## updates that follow one another -/

/-- the grant of an identifier after its latest update. -/
def currentOf (swaps : List Swap) (id : String) : Option ApplicationGrant :=
  (swaps.find? fun u => u.before.id = id).map (·.updated)

/-- each update is of the grant that the update before it left. -/
def Followed : List Swap → Prop
  | [] => True
  | u :: older => Followed older ∧ ∀ grant ∈ currentOf older u.before.id, u.before = grant

/-- **One winner**: of two updates of one grant, the earlier changed nothing, or an update between
them restored it. -/
def OneWinner (swaps : List Swap) : Prop :=
  ∀ newer later mid earlier older, swaps = newer ++ later :: mid ++ earlier :: older →
    later.before = earlier.before →
      earlier.updated = earlier.before ∨ ∃ u ∈ mid, u.updated = earlier.before

theorem Followed.append {newer older : List Swap} (h : Followed (newer ++ older)) :
    Followed older := by
  induction newer with
  | nil => exact h
  | cons u newer ih => exact ih h.1

theorem Followed.oneWinner {swaps : List Swap} (h : Followed swaps) : OneWinner swaps := by
  rintro newer later mid earlier older rfl hbefore
  rw [List.append_assoc] at h
  have hcurrent : ∀ grant ∈ currentOf (mid ++ earlier :: older) later.before.id,
      later.before = grant := h.append.2
  cases hfind : mid.find? fun u => u.before.id = later.before.id with
  | some u =>
    refine Or.inr ⟨u, List.mem_of_find?_eq_some hfind, ?_⟩
    refine (hbefore.symm.trans (hcurrent u.updated ?_)).symm
    rw [currentOf, List.find?_append, hfind]
    rfl
  | none =>
    refine Or.inl (hbefore.symm.trans (hcurrent earlier.updated ?_)).symm
    rw [currentOf, List.find?_append, hfind, Option.none_or,
      List.find?_cons_of_pos (by simp [hbefore])]
    rfl

/-! ## the invariant -/

/-- **A use is lawful**: at that time the credential has a grant that is not revoked, that has the
method, whose key record holds, and that permits what is done but for the size of a content; the
size is within the bound of the grant that was checked, which may differ in its bounds only, and
not at all if the vault does not let others run. -/
def Lawful (host : Host) (deferred : Bool) (use : Use) : Prop :=
  Permits use.checked use.work ∧
  ∃ row ∈ use.view.grants, row.credentialHash = host.digest use.credential ∧ row.revoked = false ∧
    use.work.method ∈ row.grant.policy.methods ∧
    (∃ record, use.view.lookup row.grant.botNpub = some record ∧ Holds record row.grant) ∧
    PermitsButSize row.grant use.work ∧
    eraseBounds row.grant = eraseBounds use.checked ∧
    (deferred = false → row.grant = use.checked)

/-- The invariant.  See the file header. -/
structure Inv (host : Host) (deferred : Bool) (w : World) : Prop where
  ids : Sql.PrimaryKey (·.id) w.view.grants
  credentials : Sql.PrimaryKey (·.credentialHash) w.view.grants
  named : ∀ row ∈ w.view.grants, row.grant.id = row.id
  followed : Followed w.swaps
  current : ∀ row ∈ w.view.grants, ∀ grant ∈ currentOf w.swaps row.id, row.grant = grant
  known : ∀ u ∈ w.swaps, ∃ row ∈ w.view.grants, row.id = u.before.id
  uses : ∀ use ∈ w.uses, Lawful host deferred use

/-- what is asked of an operation. -/
def May (host : Host) (deferred : Bool) : Op → World → Prop
  | .use credential method checked work, w =>
    Lawful host deferred ⟨credential, method, checked, work, w.view⟩
  | .swap before updated, _ => updated.id = before.id ∧ eraseBounds updated = eraseBounds before
  | _, _ => True

/-- the discipline of the signer. -/
def signer (host : Host) (deferred : Bool) : Discipline (api deferred) World :=
  { toSystem := system host deferred, Inv := Inv host deferred, may := fun _ => May host deferred }

section
variable {host : Host} {deferred : Bool} {w : World}

theorem currentOf_unknown {swaps : List Swap} {id : String} (h : ∀ u ∈ swaps, u.before.id ≠ id) :
    currentOf swaps id = none := by
  rw [currentOf, List.find?_eq_none.mpr fun u hu => by simpa using h u hu]
  rfl

theorem Inv.insert (hi : Inv host deferred w) {grant : ApplicationGrant} {id credential : String}
    (hid : ∀ row ∈ w.view.grants, row.id ≠ id)
    (hcredential : ∀ row ∈ w.view.grants, row.credentialHash ≠ host.digest credential) :
    Inv host deferred (w.insert host grant id credential) where
  ids := hi.ids.append hid
  credentials := hi.credentials.append hcredential
  named row hrow := by
    rcases List.mem_append.mp hrow with hrow | hrow
    · exact hi.named row hrow
    · rw [List.mem_singleton.mp hrow]
  followed := hi.followed
  current row hrow := by
    rcases List.mem_append.mp hrow with hrow | hrow
    · exact hi.current row hrow
    · have hnone : currentOf w.swaps id = none := by
        refine currentOf_unknown fun u hu heq => ?_
        obtain ⟨row', hrow', hid'⟩ := hi.known u hu
        exact hid row' hrow' (hid'.trans heq)
      intro grant hgrant
      rw [List.mem_singleton.mp hrow] at hgrant
      rw [show (w.insert host _ id credential).swaps = w.swaps from rfl, hnone] at hgrant
      cases hgrant
  known u hu := by
    obtain ⟨row, hrow, hid⟩ := hi.known u hu
    exact ⟨row, List.mem_append_left _ hrow, hid⟩
  uses := hi.uses

theorem Inv.revoke (hi : Inv host deferred w) (id : String) : Inv host deferred (w.revoke id) where
  ids := hi.ids.update fun _ => rfl
  credentials := hi.credentials.update fun _ => rfl
  named row hrow := by
    obtain ⟨old, hold, rfl⟩ := Sql.mem_update.mp hrow
    split <;> exact hi.named old hold
  followed := hi.followed
  current row hrow := by
    obtain ⟨old, hold, rfl⟩ := Sql.mem_update.mp hrow
    split <;> exact hi.current old hold
  known u hu := by
    obtain ⟨row, hrow, hid⟩ := hi.known u hu
    refine ⟨_, Sql.mem_update.mpr ⟨row, hrow, rfl⟩, ?_⟩
    split <;> exact hid
  uses := hi.uses

/-- the row of an update is the one that stood. -/
theorem Inv.stands (hi : Inv host deferred w) {before : ApplicationGrant} {row : GrantRow}
    (hrow : row ∈ w.view.grants) (hid : row.id = before.id)
    (hchanges : Sql.changes (World.Stands before) w.view.grants = 1) : World.Stands before row := by
  obtain ⟨other, hother, hstands⟩ := Sql.changes_pos.mp (hchanges ▸ Nat.one_pos)
  rwa [hi.ids.eq hrow hother (hid.trans hstands.1.symm)]

theorem Inv.swap (hi : Inv host deferred w) {before updated : ApplicationGrant}
    (hid : updated.id = before.id) : Inv host deferred (w.swap before updated).2 := by
  unfold World.swap
  split
  · next hchanges =>
    have hrows : ∀ row ∈ Sql.update (World.Stands before)
        (fun row => { row with grant := updated }) w.view.grants,
        row.id ≠ before.id ∧ row ∈ w.view.grants ∨ row.id = before.id ∧ row.grant = updated := by
      intro row hrow
      obtain ⟨old, hold, rfl⟩ := Sql.mem_update.mp hrow
      by_cases hold' : old.id = before.id
      · rw [if_pos (hi.stands hold hold' hchanges)]
        exact Or.inr ⟨hold', rfl⟩
      · rw [if_neg fun h => hold' h.1]
        exact Or.inl ⟨hold', hold⟩
    refine ⟨hi.ids.update fun _ => rfl, hi.credentials.update fun _ => rfl, fun row hrow => ?_,
      ⟨hi.followed, fun grant hgrant => ?_⟩, fun row hrow grant hgrant => ?_, fun u hu => ?_,
      hi.uses⟩
    · rcases hrows row hrow with ⟨-, h⟩ | ⟨h, hgrant⟩
      · exact hi.named row h
      · rw [hgrant, hid, h]
    · obtain ⟨row, hrow, hstands⟩ := Sql.changes_pos.mp (hchanges ▸ Nat.one_pos)
      exact hstands.2.2.symm.trans (hi.current row hrow grant (hstands.1 ▸ hgrant))
    · rcases hrows row hrow with ⟨hne, h⟩ | ⟨h, hrowGrant⟩
      · refine hi.current row h grant ?_
        rwa [currentOf, List.find?_cons_of_neg (by simpa using Ne.symm hne)] at hgrant
      · rw [h, currentOf, List.find?_cons_of_pos (by simp)] at hgrant
        cases hgrant
        exact hrowGrant
    · have hkept : ∀ row ∈ w.view.grants, ∃ row' ∈ Sql.update (World.Stands before)
          (fun row => { row with grant := updated }) w.view.grants, row'.id = row.id := by
        refine fun row hrow => ⟨_, Sql.mem_update.mpr ⟨row, hrow, rfl⟩, ?_⟩
        split <;> rfl
      rcases List.mem_cons.mp hu with rfl | hu
      · obtain ⟨row, hrow, hstands⟩ := Sql.changes_pos.mp (hchanges ▸ Nat.one_pos)
        obtain ⟨row', hrow', hid'⟩ := hkept row hrow
        exact ⟨row', hrow', hid'.trans hstands.1⟩
      · obtain ⟨row, hrow, hid⟩ := hi.known u hu
        obtain ⟨row', hrow', hid'⟩ := hkept row hrow
        exact ⟨row', hrow', hid'.trans hid⟩
  · exact hi

/-- **One operation** that is permitted keeps the invariant. -/
theorem signer_perform {κ : ℕ} {w' : World} {o : Op} {r : o.Ans} (hi : (signer host deferred).Inv w)
    (hmay : (signer host deferred).may κ o w) (ho : (signer host deferred).perform κ o w r w') :
    (signer host deferred).Inv w' := by
  have hi : Inv host deferred w := hi
  cases ho with
  | look | openKey | again => exact hi
  | use credential method checked work =>
    refine ⟨hi.ids, hi.credentials, hi.named, hi.followed, hi.current, hi.known, fun use huse => ?_⟩
    rcases List.mem_cons.mp huse with rfl | huse
    · exact hmay
    · exact hi.uses use huse
  | insert grant id credential _ hid hcredential => exact hi.insert hid hcredential
  | swap before updated => exact hi.swap hmay.1
  | revoke id => exact hi.revoke id
  | setRecord npub record =>
    exact ⟨hi.ids, hi.credentials, hi.named, hi.followed, hi.current, hi.known, hi.uses⟩

/-! ## the programs -/

/-- the credential has a grant that differs from what was checked in its bounds only. -/
def Known (host : Host) (credential : String) (checked : ApplicationGrant) (w : World) : Prop :=
  ∃ row ∈ w.view.grants, row.credentialHash = host.digest credential ∧
    eraseBounds row.grant = eraseBounds checked

/-- rows of the grants stay, with all but their bounds. -/
theorem Known.perform {κ : ℕ} {w' : World} {credential : String} {checked : ApplicationGrant}
    {o : Op} {r : o.Ans} (h : Known host credential checked w) (hmay : May host deferred o w)
    (ho : (signer host deferred).perform κ o w r w') : Known host credential checked w' := by
  obtain ⟨row, hrow, hcredential, hchecked⟩ := h
  cases ho with
  | look | openKey | again | use | setRecord => exact ⟨row, hrow, hcredential, hchecked⟩
  | insert => exact ⟨row, List.mem_append_left _ hrow, hcredential, hchecked⟩
  | revoke id =>
    refine ⟨_, Sql.mem_update.mpr ⟨row, hrow, rfl⟩, ?_⟩
    split <;> exact ⟨hcredential, hchecked⟩
  | swap before updated =>
    unfold World.swap
    split
    · refine ⟨_, Sql.mem_update.mpr ⟨row, hrow, rfl⟩, ?_⟩
      split
      · next hstands =>
        refine ⟨hcredential, hmay.2.trans ?_⟩
        rw [← hstands.2.2]
        exact hchecked
      · exact ⟨hcredential, hchecked⟩
    · exact ⟨row, hrow, hcredential, hchecked⟩

variable {κ : ℕ}

theorem stable_any : Stable (signer host deferred) κ Any := Stable.const True

theorem stable_known {credential : String} {checked : ApplicationGrant} :
    Stable (signer host deferred) κ (Known host credential checked) := by
  rintro w w' h ⟨κ', o, r, -, -, hmay, ho⟩
  exact h.perform hmay ho

theorem raise_spec {α : Type} {P : World → Prop} {x : Except Failure α} :
    Triple (signer host deferred) κ P (raise deferred x) (fun a w => P w ∧ x = .ok a) Any₂ := by
  cases x with
  | ok a => exact Triple.pure fun _ _ hP => ⟨hP, rfl⟩
  | error e => exact Triple.throw fun _ _ _ => trivial

theorem look_spec : Triple (signer host deferred) κ Any (look deferred)
    (fun view w => view = w.view) Any₂ := by
  refine Triple.op stable_any (fun _ _ _ => trivial) fun w view w' _ _ ho _ => ?_
  cases ho
  rfl

/-- opening a key, of which nothing is asked. -/
theorem openKey_spec {record : BotKeyRecord} : Triple (signer host deferred) κ Any
    (Exc.tryOp (A := api deferred) (Op.openKey record) rfl : Executing deferred Unit) Any₂ Any₂ :=
  Triple.tryOp stable_any (fun _ _ _ => trivial) (fun _ _ _ _ _ _ _ _ _ => trivial)
    fun _ _ _ _ _ _ _ _ _ => trivial

/-- **A request that is authorised again** uses the key lawfully. -/
theorem lawful_of_authorize (hi : Inv host deferred w) {credential method : String}
    {params : Value} {checked grant : ApplicationGrant} {record : BotKeyRecord} {work : Work}
    (hwork : workOf host checked method params = .ok work)
    (hmethod : method ∈ checked.policy.methods.map (·.text))
    (hknown : Known host credential checked w)
    (hsame : deferred = false → grant = checked)
    (hnow : authorize host w.view credential method = .ok (grant, record)) :
    Lawful host deferred ⟨credential, method, checked, work, w.view⟩ := by
  obtain ⟨row, hrow, hcredential, hrevoked, rfl, -, hlookup, hholds⟩ := authorize_ok hnow
  obtain ⟨known, hmem, hcredential', hchecked⟩ := hknown
  obtain rfl := hi.credentials.eq hmem hrow (hcredential'.trans hcredential.symm)
  obtain ⟨hpermits, hallowed⟩ := workOf_ok hwork hmethod
  have hpolicy : (eraseBounds known.grant).policy.methods = (eraseBounds checked).policy.methods := by
    rw [hchecked]
  refine ⟨hpermits, known, hrow, hcredential, hrevoked, ?_, ⟨record, hlookup, hholds⟩,
    hpermits.butSize.erased hchecked.symm, hchecked, hsame⟩
  exact hpolicy.symm ▸ hallowed

/-- **The grants are read again** when the key is at hand. -/
theorem execute_spec (credential method : String) (params : Value) :
    Triple (signer host deferred) κ Any (execute host deferred credential method params)
      Any₂ Any₂ := by
  unfold execute
  refine Triple.bind look_spec fun view => ?_
  refine Triple.bind raise_spec fun checked => ?_
  obtain ⟨grant, record⟩ := checked
  refine Triple.bind raise_spec fun work => ?_
  refine Triple.assume fun hwork => Triple.assume fun hchecked => ?_
  obtain ⟨row, hrow, hcredential, -, hgrant, hmethod, -⟩ := authorize_ok hchecked
  -- what stays while the vault opens the key, which it may do at once
  let Kept : World → Prop := fun w =>
    Known host credential grant w ∧ (deferred = false → w.view = view)
  refine Triple.bind (R := fun _ => Kept) ?_ fun _ => ?_
  · refine Triple.pre (P := Kept) (Triple.tryOp_of_yields (fun hyields => ?_)
      (fun _ _ _ => trivial) (fun w r w' a _ h ho _ _ => by cases ho; exact h)
      fun _ _ _ _ _ _ _ _ _ => trivial) fun w _ hview => ?_
    · rintro w w' ⟨hknown, -⟩ hother
      exact ⟨stable_known w w' hknown hother, fun h => absurd (hyields.symm.trans h) (by decide)⟩
    · subst hview
      exact ⟨⟨row, hrow, hcredential, congrArg eraseBounds hgrant⟩, fun _ => rfl⟩
  refine Triple.bind (R := fun now w => Kept w ∧ now = w.view) (Triple.opNow rfl
    (fun _ _ _ => trivial) fun w now w' _ h ho _ => by cases ho; exact ⟨h, rfl⟩) fun now => ?_
  refine Triple.bind raise_spec fun again => ?_
  obtain ⟨grant', record'⟩ := again
  refine Triple.opNow rfl (fun w hi h => ?_) fun _ _ _ _ _ _ _ => trivial
  obtain ⟨⟨⟨hknown, hview⟩, rfl⟩, hnow⟩ := h
  refine lawful_of_authorize hi hwork hmethod hknown (fun hnotDeferred => ?_) hnow
  rw [hview hnotDeferred, hchecked] at hnow
  cases hnow
  rfl

/-- a row is inserted, if nothing is asked of what came before. -/
theorem insert_spec {grant : ApplicationGrant} : Triple (signer host deferred) κ Any
    (Exc.op (A := api deferred) (Op.insert grant) : Executing deferred _) Any₂ Any₂ :=
  Triple.op stable_any (fun _ _ _ => trivial) fun _ _ _ _ _ _ _ => trivial

theorem register_spec (actorNpub botNpub expectedPubkey : String) (policy : PolicyInput) :
    Triple (signer host deferred) κ Any
      (register deferred actorNpub botNpub expectedPubkey policy) Any₂ Any₂ := by
  unfold register
  exact Triple.bind look_spec.any fun _ => Triple.bind raise_spec.any fun _ => insert_spec

theorem registerVerified_spec (actorNpub botNpub expectedPubkey : String) (policy : PolicyInput) :
    Triple (signer host deferred) κ Any
      (registerVerified deferred actorNpub botNpub expectedPubkey policy) Any₂ Any₂ := by
  unfold registerVerified
  refine Triple.bind look_spec.any fun view => ?_
  refine Triple.bind raise_spec.any fun record => ?_
  refine Triple.bind openKey_spec fun _ => ?_
  refine Triple.bind look_spec.any fun view => ?_
  exact Triple.bind raise_spec.any fun _ => Triple.bind raise_spec.any fun _ => insert_spec

/-- **An update keeps all but a bound.** -/
theorem updateContentBoundVerified_spec (actorNpub : String) (expected : ApplicationGrant)
    (keyId : Option String) (kind maxContentBytes : ℤ) :
    Triple (signer host deferred) κ Any
      (updateContentBoundVerified deferred actorNpub expected keyId kind maxContentBytes)
      Any₂ Any₂ := by
  unfold updateContentBoundVerified
  refine Triple.bind look_spec.any fun view => ?_
  refine Triple.bind raise_spec.any fun record => ?_
  refine Triple.bind openKey_spec fun _ => ?_
  refine Triple.bind look_spec.any fun view => ?_
  refine Triple.bind raise_spec fun change => ?_
  obtain ⟨before, updated⟩ := change
  refine Triple.assume fun hswap => ?_
  exact Triple.bind (R := Any₂) (Triple.tryOp stable_any (fun _ _ _ => swapOf_ok hswap)
    (fun _ _ _ _ _ _ _ _ _ => trivial) fun _ _ _ _ _ _ _ _ _ => trivial) fun _ =>
    Triple.pure fun _ _ _ => trivial

theorem revoke_spec (actorNpub id : String) :
    Triple (signer host deferred) κ Any (revoke deferred actorNpub id) Any₂ Any₂ := by
  unfold revoke
  refine Triple.bind look_spec.any fun view => Triple.bind raise_spec.any fun _ => ?_
  exact Triple.op stable_any (fun _ _ _ => trivial) fun _ _ _ _ _ _ _ => trivial

/-- **The discipline of the signer is kept.** -/
theorem signer_keeps (host : Host) (deferred : Bool) : (signer host deferred).Keeps where
  perform := signer_perform
  crash hi h := h ▸ hi
  spawn hi h := by
    cases h with
    | execute credential method params => exact (execute_spec credential method params).detach hi
    | register actorNpub botNpub expectedPubkey policy =>
      exact (register_spec actorNpub botNpub expectedPubkey policy).detach hi
    | registerVerified actorNpub botNpub expectedPubkey policy =>
      exact (registerVerified_spec actorNpub botNpub expectedPubkey policy).detach hi
    | updateContentBoundVerified actorNpub expected keyId kind maxContentBytes =>
      exact (updateContentBoundVerified_spec actorNpub expected keyId kind
        maxContentBytes).detach hi
    | revoke actorNpub id => exact (revoke_spec actorNpub id).detach hi
    | setRecord npub record => exact fun w₁ _ _ => ⟨trivial, fun _ _ _ _ => trivial⟩

end

/-- **An application signs under the grant in force.**  In every reachable state: each use of a key
was lawful; and of two updates of one grant that succeeded, the earlier changed nothing or an update
between them restored it. -/
theorem application_sound (host : Host) (deferred : Bool) {c : Conf (api deferred) World}
    (h : Reachable (system host deferred) World.Initial c) :
    (∀ use ∈ c.state.uses, Lawful host deferred use) ∧ OneWinner c.state.swaps := by
  have h0 : ∀ w, World.Initial w → (signer host deferred).Inv w := by
    rintro w ⟨hgrants, huses, hswaps⟩
    exact ⟨by simp [Sql.PrimaryKey, hgrants], by simp [Sql.PrimaryKey, hgrants], by simp [hgrants],
      by rw [hswaps]; exact trivial, by simp [hgrants], by simp [hswaps], by simp [huses]⟩
  have hi : Inv host deferred c.state := ((signer_keeps host deferred).reachable h0 h).inv
  exact ⟨hi.uses, hi.followed.oneWinner⟩

/-! ## concrete runs -/

/-- the grant in force at a use permits it. -/
def InForce (host : Host) (use : Use) : Prop :=
  ∃ row ∈ use.view.grants, row.credentialHash = host.digest use.credential ∧ row.revoked = false ∧
    Permits row.grant use.work

def someId : String := "0000000000000000000000000000000000000000000000000000000000000000"

def someHost : Host := ⟨id, fun _ => someId⟩

def someAnswer (deferred : Bool) : (o : (api deferred).Op) → World → (api deferred).Ans o
  | .look, w => w.view
  | .again, w => w.view
  | .openKey _, _ => .ok ()
  | .swap before updated, w => (w.swap before updated).1
  | .insert grant, _ => ({ grant with id := "grant" }, "credential")
  | .use .., _ | .revoke _, _ | .setRecord .., _ => ()

def someEffect : Op → World → World
  | .use credential method checked work, w => w.use credential method checked work
  | .swap before updated, w => (w.swap before updated).2
  | .insert grant, w => w.insert someHost grant "grant" "credential"
  | .revoke id, w => w.revoke id
  | .setRecord npub record, w => w.setRecord npub record
  | _, w => w

/-- a grant is inserted into an empty table. -/
def insertsFirst : Op → World → Bool
  | .insert _, w => w.view.grants.isEmpty
  | _, _ => true

theorem performs_some (deferred : Bool) (κ : ℕ) (o : Op) (w : World)
    (ho : insertsFirst o w = true) :
    (system someHost deferred).perform κ o w (someAnswer deferred o w) (someEffect o w) := by
  cases o with
  | insert grant =>
    have hempty : w.view.grants = [] := List.isEmpty_iff.mp ho
    exact Performs.insert grant "grant" "credential" w (by simp [hempty]) (by simp [hempty])
  | _ => constructor

def someRecord : BotKeyRecord := ⟨"key", "owner", someId⟩

/-- a key record and no grants. -/
def someWorld : World := { view := { lookup := fun _ => some someRecord } }

def someRule (maxContentBytes : ℤ) : NostrKindConstraint :=
  { kind := 1, maxContentBytes, maxTags := 0, maxTagBytes := 0, allowedTagNames := [] }

def someGrant : ApplicationGrant :=
  ⟨"grant", "owner", "bot", someId, "key", ⟨[.sign_event], [someRule 2], [], false⟩⟩

def someRegistration (deferred : Bool) : Prog (api deferred) Unit :=
  (register deferred "owner" "bot" someId {
    methods := arr [str "sign_event"]
    kindRules := arr [ruleValue (someRule 2)]
    peers := arr []
    allowAnyPeer := .undefined }).detach

def someUpdate (deferred : Bool) (maxContentBytes : ℤ) : Prog (api deferred) Unit :=
  (updateContentBoundVerified deferred "owner" someGrant none 1 maxContentBytes).detach

def someSigning (deferred : Bool) : Prog (api deferred) Unit :=
  (execute someHost deferred "credential" "sign_event" (obj [("event", obj [("kind", num 1),
    ("pubkey", str someId), ("created_at", num 0), ("content", str "ab"), ("tags", arr []),
    ("id", str someId)])])).detach

/-- two updates from one grant to the bound that it has, each begun before the other ends. -/
def twoUpdates : Option (Conf (api false) World) :=
  (Conf.started someWorld [someRegistration false, someUpdate false 2, someUpdate false 2]).follow
    (fun _ => someAnswer false) (fun _ => someEffect) (fun _ => insertsFirst) [0, 1, 2, 1, 2]

/-- a bound is lowered while the vault opens the key. -/
def loweredBound : Option (Conf (api true) World) :=
  (Conf.started someWorld [someRegistration true, someSigning true, someUpdate true 1]).follow
    (fun _ => someAnswer true) (fun _ => someEffect) (fun _ => insertsFirst) [0, 1, 2, 2, 2, 1]

theorem twoUpdates_reachable {c : Conf (api false) World} (h : twoUpdates = some c) :
    Reachable (system someHost false) World.Initial c := by
  refine Reachable.follow (performs_some false) ⟨rfl, rfl, rfl⟩ ?_ h
  simp only [List.forall_mem_cons]
  exact ⟨⟨rfl, fun _ => .register ..⟩, ⟨rfl, fun _ => .updateContentBoundVerified ..⟩,
    ⟨rfl, fun _ => .updateContentBoundVerified ..⟩, by simp⟩

theorem loweredBound_reachable {c : Conf (api true) World} (h : loweredBound = some c) :
    Reachable (system someHost true) World.Initial c := by
  refine Reachable.follow (performs_some true) ⟨rfl, rfl, rfl⟩ ?_ h
  simp only [List.forall_mem_cons]
  exact ⟨⟨rfl, fun _ => .register ..⟩, ⟨rfl, fun _ => .execute ..⟩,
    ⟨rfl, fun _ => .updateContentBoundVerified ..⟩, by simp⟩

instance (grant : ApplicationGrant) : (work : Work) → Decidable (Permits grant work)
  | .sign event => inferInstanceAs (Decidable (∃ rule ∈ grant.policy.kindRules,
      rule.kind = event.kind ∧ (event.content.utf8ByteSize : ℤ) ≤ rule.maxContentBytes ∧
      (event.tags.length : ℤ) ≤ rule.maxTags ∧ TagsAllowed rule event.tags))
  | .publicKey => isTrue trivial
  | .encrypt .. | .decrypt .. => inferInstanceAs (Decidable (_ ∨ _))

/-- the state that a schedule comes to has a property. -/
theorem holds_of_follow {deferred : Bool} (run : Option (Conf (api deferred) World))
    {P : World → Prop} [DecidablePred P]
    (h : run.map (fun c => decide (P c.state)) = some true) : ∃ c, run = some c ∧ P c.state := by
  obtain ⟨c, hc, hP⟩ := Option.map_eq_some_iff.mp h
  exact ⟨c, hc, of_decide_eq_true hP⟩

/-- **Two updates from one grant succeed** when they leave it unchanged; and a content may exceed the
bound in force if it was lowered while the vault let others run. -/
theorem unchanged_bound :
    (∃ c, Reachable (system someHost false) World.Initial c ∧
      ¬(c.state.swaps.map (·.before)).Nodup) ∧
    ∃ c, Reachable (system someHost true) World.Initial c ∧
      ¬∀ use ∈ c.state.uses, InForce someHost use := by
  constructor
  · obtain ⟨c, hc, hswaps⟩ := holds_of_follow twoUpdates
      (P := fun w => ¬(w.swaps.map (·.before)).Nodup) (by decide +kernel)
    exact ⟨c, twoUpdates_reachable hc, hswaps⟩
  · obtain ⟨c, hc, huses⟩ := holds_of_follow loweredBound
      (P := fun w => w.uses ≠ [] ∧ ∀ use ∈ w.uses, ∀ row ∈ use.view.grants,
        ¬Permits row.grant use.work) (by decide +kernel)
    refine ⟨c, loweredBound_reachable hc, fun hall => ?_⟩
    obtain ⟨use, huse⟩ := List.exists_mem_of_ne_nil _ huses.1
    obtain ⟨row, hrow, -, -, hpermits⟩ := hall use huse
    exact huses.2 use huse row hrow hpermits

theorem application_sound_lowered : ∃ c, Reachable (system someHost true) World.Initial c ∧
    c.state.uses.length = 1 ∧ (∀ use ∈ c.state.uses, Lawful someHost true use) ∧
    OneWinner c.state.swaps := by
  obtain ⟨c, hc, huses⟩ := holds_of_follow loweredBound
    (P := fun w => w.uses.length = 1) (by decide +kernel)
  exact ⟨c, loweredBound_reachable hc, huses,
    application_sound someHost true (loweredBound_reachable hc)⟩

end Application
end Signing
end WmAutopilot
