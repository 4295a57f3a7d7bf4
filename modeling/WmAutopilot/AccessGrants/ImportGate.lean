import WmAutopilot.AccessGrants.Decoded
import WmAutopilot.AccessGrants.Import

/-!
# The gate before the import

* `Identities`          the identities of a document: grant, package, token, descriptor;
* `matches_ok`          the package of a grant that is imported names no other identity than the grant;
* `validated_identities`  **the identities that the importer goes on with are those of the grant**;
* `process_imports`     when the importer is called;
* `Gate`, `import_gate` **nothing is imported that did not pass the gate**.
-/

set_option autoImplicit false
set_option linter.unusedVariables false

namespace WmAutopilot
namespace AccessGrants
open Js Value AgentChat

/-! ## comparisons -/

theorem assertAgentConnectEqual_ok {label : String} {left right : Value} {u : Unit} :
    assertAgentConnectEqual label left right = .ok u ↔
      left.truthy = true ∧ right.truthy = true ∧ left = right := by
  rw [assertAgentConnectEqual, throwIf_ok]
  simp only [not_or, Bool.not_eq_false, not_not]

theorem assertAgentConnectEqualWhenPresent_ok {label : String} {left right : Value} {u : Unit} :
    assertAgentConnectEqualWhenPresent label left right = .ok u ↔
      (left.truthy = true → right.truthy = true ∧ left = right) := by
  unfold assertAgentConnectEqualWhenPresent
  split
  · rename_i h
    simp [h, pure, Except.pure]
  · rename_i h
    have hl : left.truthy = true := by simpa using h
    rw [assertAgentConnectEqual_ok]
    exact ⟨fun h _ => h.2, fun h => ⟨hl, h hl⟩⟩

/-! ## the identities of a package -/

/-- the identities that a document names. -/
@[ext] structure Identities where
  service : Option String
  workspaceOwner : Option String
  workspaceId : Option String
  workspaceService : Option String
  app : Option String

/-- every identity of `ids` that is present is that of `other`. -/
structure Identities.Within (ids other : Identities) : Prop where
  service : ∀ npub ∈ ids.service, npub ∈ other.service
  workspaceOwner : ∀ npub ∈ ids.workspaceOwner, npub ∈ other.workspaceOwner
  workspaceId : ∀ id ∈ ids.workspaceId, id ∈ other.workspaceId
  workspaceService : ∀ npub ∈ ids.workspaceService, npub ∈ other.workspaceService
  app : ∀ npub ∈ ids.app, npub ∈ other.app

def DecodedAccessGrant.identities (grant : DecodedAccessGrant) : Identities :=
  ⟨grant.serviceNpub.getString, grant.workspaceOwnerNpub.getString, grant.workspaceId,
    grant.workspaceServiceNpub.getString, grant.appNpub.getString⟩

/-- the identities in a descriptor, with the app of the package beside it. -/
def descriptorIdentities (descriptor : PgWorkspaceDescriptor) (app : Option String) : Identities :=
  ⟨some descriptor.towerServiceNpub, some descriptor.workspaceOwnerNpub,
    some descriptor.workspaceId, some descriptor.workspaceServiceNpub, app⟩

/-- the identities in a package of another version than 6. -/
def packageIdentities (pkg : Value) : Identities :=
  let workspace := (pkg.get "workspace").getObject
  ⟨((pkg.get "service").getObject.get "service_npub").getString,
    (workspace.get "owner_npub").getString, (workspace.get "workspace_id").getString,
    (workspace.get "workspace_service_npub").getString,
    ((pkg.get "app").getObject.get "app_npub").getString⟩

def tokenIdentities (token : Value) : Identities :=
  ⟨getEither token "service_npub" "server_npub", (token.get "workspace_owner_npub").getString,
    (token.get "workspace_id").getString, (token.get "workspace_service_npub").getString,
    (token.get "app_npub").getString⟩

/-- the identities that the importer goes on with. -/
def validatedIdentities (v : AgentConnectValidationResult) : Identities :=
  ⟨v.service.serviceNpub, some v.workspaceOwnerNpub, v.workspaceId, v.workspaceServiceNpub,
    some v.sourceAppNpub⟩

/-! ## the comparison with the grant -/

/-- a text that is equal to an identity of the grant is what is read of it. -/
theorem getString_of_textEqual {label : String} {v right : Value} {u : Unit}
    (h : assertAgentConnectEqual label (ofOption v.getString) right = .ok u) :
    right.getString = v.getString := by
  obtain ⟨ht, -, rfl⟩ := assertAgentConnectEqual_ok.mp h
  cases hv : v.getString with
  | none => rfl
  | some s => exact getString_str hv

/-- `some s` was read of some value. -/
def Text (o : Option String) : Prop := ∃ v : Value, v.getString = o

theorem text_or {a b : Option String} (ha : Text a) (hb : Text b) : Text (a.or b) := by
  cases a with
  | none => exact hb
  | some s => exact ha

theorem text_getEither (value : Value) (snake camel : String) : Text (getEither value snake camel) :=
  text_or ⟨_, rfl⟩ ⟨_, rfl⟩

theorem textEqual {label : String} {o : Option String} {right : Value} {u : Unit} (ho : Text o)
    (h : assertAgentConnectEqual label (ofOption o) right = .ok u) : right.getString = o := by
  obtain ⟨v, rfl⟩ := ho
  exact getString_of_textEqual h

theorem textEqualWhenPresent {label : String} {o : Option String} {right : Value} {u : Unit}
    (ho : Text o) (h : assertAgentConnectEqualWhenPresent label (ofOption o) right = .ok u) :
    ∀ s ∈ o, right.getString = some s := by
  rintro s rfl
  obtain ⟨v, hv⟩ := ho
  obtain ⟨-, rfl⟩ := assertAgentConnectEqualWhenPresent_ok.mp h (truthy_of_getString hv)
  exact getString_str hv

theorem ofOption_text {o : Option String} (ho : Text o) : (ofOption o).getString = o := by
  obtain ⟨v, rfl⟩ := ho
  cases hv : v.getString with
  | none => rfl
  | some s => exact getString_str hv

theorem text_workspaceId (grant : DecodedAccessGrant) : Text grant.workspaceId := ⟨_, rfl⟩

/-- the identities of a descriptor are texts. -/
theorem parsePgWorkspaceDescriptor_ok {host : Platform} {input : Value} {d : PgWorkspaceDescriptor}
    (h : parsePgWorkspaceDescriptor host input = .ok d) :
    Text (some d.towerServiceNpub) ∧ Text (some d.workspaceOwnerNpub) ∧
      Text (some d.workspaceId) ∧ Text (some d.workspaceServiceNpub) ∧ Text d.appNpub := by
  obtain ⟨_, -, h⟩ := bind_ok.mp h
  obtain ⟨_, -, h⟩ := bind_ok.mp h
  obtain ⟨_, -, h⟩ := bind_ok.mp h
  obtain ⟨_, -, h⟩ := bind_ok.mp h
  obtain ⟨towerServiceNpub, hservice, h⟩ := bind_ok.mp h
  obtain ⟨workspaceServiceNpub, hws, h⟩ := bind_ok.mp h
  obtain ⟨workspaceOwnerNpub, howner, h⟩ := bind_ok.mp h
  obtain ⟨workspaceId, hid, h⟩ := bind_ok.mp h
  obtain ⟨_, -, h⟩ := bind_ok.mp h
  obtain rfl := (Except.ok.inj h).symm
  exact ⟨orThrow_ok.mp hservice ▸ text_getEither .., orThrow_ok.mp howner ▸ text_getEither ..,
    orThrow_ok.mp hid ▸ text_getEither .., orThrow_ok.mp hws ▸ text_getEither ..,
    text_getEither ..⟩

section Matches
variable {host : Host} {grant : DecodedAccessGrant}

/-- the app that the package names beside its descriptor. -/
def authApp (pkg : Value) : Option String := ((pkg.get "auth").getObject.get "app_npub").getString

/-- **The descriptor of a package names the identities of the grant**, and so does the app beside
it. -/
theorem assertDescriptorMatchesGrant_ok {u : Unit}
    (h : assertDescriptorMatchesGrant host grant = .ok u) :
    ∃ d, parsePgWorkspaceDescriptor host.toPlatform (grant.package.get "workspace_descriptor") =
        .ok d ∧
      descriptorIdentities d ((authApp grant.package).or d.appNpub) = grant.identities := by
  obtain ⟨d, hd, h⟩ := bind_ok.mp h
  obtain ⟨_, -, h⟩ := bind_ok.mp h
  obtain ⟨_, -, h⟩ := bind_ok.mp h
  obtain ⟨_, hservice, h⟩ := bind_ok.mp h
  obtain ⟨_, howner, h⟩ := bind_ok.mp h
  obtain ⟨_, hid, h⟩ := bind_ok.mp h
  obtain ⟨_, hws, h⟩ := bind_ok.mp h
  obtain ⟨_, happ, -⟩ := bind_ok.mp h
  obtain ⟨htower, hworkspaceOwner, hworkspaceId, hworkspace, happNpub⟩ := parsePgWorkspaceDescriptor_ok hd
  refine ⟨d, hd, Identities.ext ?_ ?_ ?_ ?_ ?_⟩
  · exact (textEqual (o := some d.towerServiceNpub) htower hservice).symm
  · exact (textEqual (o := some d.workspaceOwnerNpub) hworkspaceOwner howner).symm
  · have := textEqualWhenPresent (o := some d.workspaceId) hworkspaceId hid d.workspaceId rfl
    exact (this.symm.trans (ofOption_text (text_workspaceId grant)))
  · exact (textEqual (o := some d.workspaceServiceNpub) hworkspace hws).symm
  · exact (textEqual (text_or ⟨_, rfl⟩ happNpub) happ).symm

/-- the token of a package names no other identity than the grant. -/
theorem assertTokenMatchesGrant_ok {token : Value} {u : Unit}
    (h : assertTokenMatchesGrant host grant token = .ok u) :
    (tokenIdentities token).Within grant.identities := by
  obtain ⟨_, -, h⟩ := bind_ok.mp h
  obtain ⟨_, hservice, h⟩ := bind_ok.mp h
  obtain ⟨_, howner, h⟩ := bind_ok.mp h
  obtain ⟨_, hid, h⟩ := bind_ok.mp h
  obtain ⟨_, hws, happ⟩ := bind_ok.mp h
  refine ⟨fun s hs => ?_, fun s hs => ?_, fun s hs => ?_, fun s hs => ?_, fun s hs => ?_⟩
  · exact (textEqual (text_getEither ..) hservice).trans hs
  · exact (getString_of_textEqual howner).trans hs
  · exact (ofOption_text (text_workspaceId grant)).symm.trans
      (textEqualWhenPresent ⟨_, rfl⟩ hid s hs)
  · exact textEqualWhenPresent ⟨_, rfl⟩ hws s hs
  · exact (getString_of_textEqual happ).trans hs

/-- **A package of another version, and its token, name no other identity than the grant**; the
service, the workspace owner and the app are named. -/
theorem assertTokenPackageMatchesGrant_ok {u : Unit}
    (h : assertTokenPackageMatchesGrant host grant = .ok u) :
    let ids := packageIdentities grant.package
    ids.Within grant.identities ∧ ids.service = grant.identities.service ∧
      ids.workspaceOwner = grant.identities.workspaceOwner ∧ ids.app = grant.identities.app ∧
      ∃ token, decodeConnectionToken host.toPlatform
          ((grant.package.get "connection_token").getString.getD "") = .ok token ∧
        (tokenIdentities token).Within grant.identities := by
  obtain ⟨_, -, h⟩ := bind_ok.mp h
  obtain ⟨_, hservice, h⟩ := bind_ok.mp h
  obtain ⟨_, howner, h⟩ := bind_ok.mp h
  obtain ⟨_, hid, h⟩ := bind_ok.mp h
  obtain ⟨_, hws, h⟩ := bind_ok.mp h
  obtain ⟨_, happ, h⟩ := bind_ok.mp h
  obtain ⟨_, -, h⟩ := bind_ok.mp h
  obtain ⟨token, htoken, h⟩ := bind_ok.mp h
  have es := getString_of_textEqual hservice
  have eo := getString_of_textEqual howner
  have ea := getString_of_textEqual happ
  have htoken' : decodeConnectionToken host.toPlatform
      ((grant.package.get "connection_token").getString.getD "") = .ok token := by
    unfold decodeGrantToken at htoken
    cases hd : decodeConnectionToken host.toPlatform
        ((grant.package.get "connection_token").getString.getD "") with
    | error e => rw [hd] at htoken; cases htoken
    | ok t => rw [hd] at htoken; exact htoken
  refine ⟨⟨fun s hs => es.trans hs, fun s hs => eo.trans hs, fun s hs => ?_, fun s hs => ?_,
    fun s hs => ea.trans hs⟩, es.symm, eo.symm, ea.symm, token, htoken',
    assertTokenMatchesGrant_ok h⟩
  · exact (ofOption_text (text_workspaceId grant)).symm.trans
      (textEqualWhenPresent ⟨_, rfl⟩ hid s hs)
  · exact textEqualWhenPresent ⟨_, rfl⟩ hws s hs

end Matches

/-! ## what the importer reads -/

def PackageIdentity.identities (p : PackageIdentity) : Identities :=
  ⟨p.serviceNpub, some p.workspaceOwnerNpub, p.workspaceId, p.workspaceServiceNpub,
    some p.sourceAppNpub⟩

theorem readDescriptorPackage_ok {host : Platform} {payload : Value} {url : String}
    {p : PackageIdentity} (h : readDescriptorPackage host payload url = .ok p) :
    ∃ d, parsePgWorkspaceDescriptor host (payload.get "workspace_descriptor") = .ok d ∧
      PackageIdentity.identities p = descriptorIdentities d ((authApp payload).or d.appNpub) := by
  obtain ⟨_, -, h⟩ := bind_ok.mp h
  obtain ⟨d, hd, h⟩ := bind_ok.mp h
  obtain ⟨_, happ, h⟩ := bind_ok.mp h
  obtain ⟨_, -, h⟩ := bind_ok.mp h
  obtain ⟨_, -, h⟩ := bind_ok.mp h
  obtain ⟨_, -, h⟩ := bind_ok.mp h
  obtain rfl := (Except.ok.inj h).symm
  exact ⟨d, hd, Identities.ext rfl rfl rfl rfl (orThrow_ok.mp happ).symm⟩

theorem readTokenPackage_ok {host : Platform} {payload : Value} {url : String}
    {p : PackageIdentity} (h : readTokenPackage host payload url = .ok p) :
    PackageIdentity.identities p = packageIdentities payload := by
  obtain ⟨_, howner, h⟩ := bind_ok.mp h
  obtain ⟨_, happ, h⟩ := bind_ok.mp h
  obtain ⟨_, -, h⟩ := bind_ok.mp h
  obtain ⟨_, -, h⟩ := bind_ok.mp h
  obtain ⟨_, -, h⟩ := bind_ok.mp h
  obtain ⟨_, -, h⟩ := bind_ok.mp h
  obtain ⟨_, -, h⟩ := bind_ok.mp h
  obtain ⟨_, -, h⟩ := bind_ok.mp h
  obtain ⟨_, -, h⟩ := bind_ok.mp h
  obtain ⟨_, -, h⟩ := bind_ok.mp h
  obtain rfl := (Except.ok.inj h).symm
  exact Identities.ext rfl (orThrow_ok.mp howner).symm rfl rfl (orThrow_ok.mp happ).symm

theorem validate_ok {host : Platform} {managedByNpub : String} {payload : Value}
    {v : AgentConnectValidationResult} (ho : payload.isPlainObject = true)
    (h : validateAgentConnectPackage host managedByNpub payload = .ok v) :
    ∃ url p, (if host.toNumber (payload.get "version") = some 6 then
        readDescriptorPackage host payload url else readTokenPackage host payload url) = .ok p ∧
      validatedIdentities v = PackageIdentity.identities p := by
  obtain ⟨payload', hpayload, h⟩ := bind_ok.mp h
  obtain rfl : payload = payload' := by
    cases payload with
    | obj fs => exact Except.ok.inj hpayload
    | _ => cases ho
  obtain ⟨_, -, h⟩ := bind_ok.mp h
  obtain ⟨_, -, h⟩ := bind_ok.mp h
  obtain ⟨_, -, h⟩ := bind_ok.mp h
  obtain ⟨_, -, h⟩ := bind_ok.mp h
  obtain ⟨url, -, h⟩ := bind_ok.mp h
  refine ⟨url, ?_⟩
  dsimp only at h
  split at h
  all_goals
    rename_i hversion
    obtain ⟨p, hp, h⟩ := bind_ok.mp h
    obtain ⟨_, -, h⟩ := bind_ok.mp h
    obtain rfl := (Except.ok.inj h).symm
    refine ⟨p, ?_, rfl⟩
  · rw [if_pos hversion, hp]
  · rw [if_neg hversion, hp]

theorem get_orElse_empty (v : Value) (k : String) : (v.orElse (obj [])).get k = v.get k := by
  cases v <;> rfl

section Scoped
variable {host : Host} {grant : DecodedAccessGrant}

theorem isPlainObject_scoped :
    (buildGrantScopedAgentConnectPackage host grant).isPlainObject = true := by
  unfold buildGrantScopedAgentConnectPackage
  dsimp only
  split <;> exact isPlainObject_spread ..

/-- the package that is handed over has the fields of the package of the grant, except those that
the grant scopes. -/
theorem get_scoped (k : String) (hk : k ∉ ["service", "workspace", "app"]) :
    (buildGrantScopedAgentConnectPackage host grant).get k = grant.package.get k := by
  simp only [List.mem_cons, List.not_mem_nil, or_false, not_or] at hk
  unfold buildGrantScopedAgentConnectPackage
  dsimp only
  split
  all_goals
    rw [(get_spread ..).1]
    simp [lookup_cons, hk, get_orElse_empty]

/-- the workspace id of the grant, or of the package when the grant names none. -/
theorem getString_granted {granted own : Value}
    (h : ∀ id ∈ own.getString, id ∈ granted.getString) :
    ((granted.orElse own).orElse null).getString = granted.getString := by
  rw [getString_orElse_null]
  rcases nullish_or_orElse granted own with ⟨hg, e⟩ | e
  · rw [e]
    cases ho : own.getString with
    | none => exact (getString_of_nullish hg).symm
    | some id => exact (h id ho).symm
  · rw [e]

/-- a version that is not 6: the identities of the grant are put into the package. -/
theorem packageIdentities_scoped (hv : host.toNumber (grant.package.get "version") ≠ some 6)
    (hm : (packageIdentities grant.package).Within grant.identities) :
    packageIdentities (buildGrantScopedAgentConnectPackage host grant) = grant.identities := by
  unfold buildGrantScopedAgentConnectPackage packageIdentities
  simp only [get_orElse_empty, if_neg hv, (get_spread ..).1, List.reverse_cons, List.reverse_nil,
    List.nil_append, List.cons_append, lookup_cons, serviceUrls]
  refine Identities.ext ?_ ?_ ?_ ?_ ?_
  · simp [(get_spread ..).1, lookup_cons, DecodedAccessGrant.identities]
  · simp [(get_spread ..).1, lookup_cons, DecodedAccessGrant.identities]
  · simp [(get_spread ..).1, lookup_cons, DecodedAccessGrant.identities]
    exact getString_granted hm.workspaceId
  · simp [(get_spread ..).1, lookup_cons, DecodedAccessGrant.identities]
  · simp [(get_spread ..).1, lookup_cons, DecodedAccessGrant.identities]

/-- **The identities that the importer goes on with are those of the grant.** -/
theorem validated_identities {managedByNpub : String} {v : AgentConnectValidationResult} {u : Unit}
    (hm : assertAgentConnectMatchesGrant host grant = .ok u)
    (hv : validateAgentConnectPackage host.toPlatform managedByNpub
      (buildGrantScopedAgentConnectPackage host grant) = .ok v) :
    validatedIdentities v = grant.identities := by
  obtain ⟨url, p, hp, e⟩ := validate_ok isPlainObject_scoped hv
  rw [get_scoped "version" (by decide)] at hp
  unfold assertAgentConnectMatchesGrant at hm
  rw [e]
  split at hm
  · rename_i hversion
    rw [if_pos hversion] at hp
    obtain ⟨d, hd, hids⟩ := assertDescriptorMatchesGrant_ok hm
    obtain ⟨d', hd', e'⟩ := readDescriptorPackage_ok hp
    rw [get_scoped "workspace_descriptor" (by decide), hd] at hd'
    obtain rfl := Except.ok.inj hd'
    have happ : authApp (buildGrantScopedAgentConnectPackage host grant) = authApp grant.package := by
      unfold authApp
      rw [get_scoped "auth" (by decide)]
    rw [e', happ, hids]
  · rename_i hversion
    rw [if_neg hversion] at hp
    exact (readTokenPackage_ok hp).trans
      (packageIdentities_scoped hversion (assertTokenPackageMatchesGrant_ok hm).1)

end Scoped

/-! ## the gate -/

/-- the identities that the decrypted payload names; `app` is that of `app_npub` or of the key. -/
def payloadIdentities (object app : Value) : Identities :=
  let workspace := object.get "workspace"
  ⟨((object.get "service").get "service_npub").getString, (workspace.get "owner_npub").getString,
    (workspace.get "workspace_id").getString,
    (workspace.get "workspace_service_npub").getString, app.getString⟩

section Process
variable {host : Host} {input : ProcessAccessGrantInput} {grant : DecodedAccessGrant}
  {call : ImportInput}

theorem processRevocation_imports : (processRevocation host input grant).imports = [] := by
  unfold processRevocation finishRevocation refused
  dsimp only
  repeat' split
  all_goals rfl

theorem importGrant_imports (key : String) (verified : Value) :
    (importGrant host input grant key verified).imports = [importInput host input grant] := by
  unfold importGrant
  dsimp only
  split
  · rfl
  · split <;> rfl

theorem processGrant_imports (h : call ∈ (processGrant host input grant).imports) :
    grant.payload.get "status" = str "active" ∧
      (∃ verified, verifyAccessGrantWithTower host input.fetch input.recipientSecretKey grant =
        .ok verified) ∧
      assertAgentConnectMatchesGrant host grant = .ok () ∧ call = importInput host input grant := by
  unfold processGrant at h
  split at h
  · cases h
  rename_i hstatus
  dsimp only at h
  split at h
  · cases h
  split at h
  · cases h
  rename_i verified hverified
  split at h
  · cases h
  rename_i hmatches
  rw [importGrant_imports] at h
  exact ⟨not_not.mp hstatus, ⟨verified, hverified⟩, hmatches, List.mem_singleton.mp h⟩

/-- the importer is called for a grant that was decoded, whose issuer is authorised, which is an
active grant, which Tower verified, and whose package matches. -/
theorem process_imports (h : call ∈ (processAccessGrantEvent host input).imports) :
    ∃ grant, decodeAccessGrantEvent host input.event input.recipientSecretKey input.recipientNpub
        input.now = .ok grant ∧
      grantIssuerIsAuthorized grant input = true ∧ grant.payload.get "action" = str "grant" ∧
      call ∈ (processGrant host input grant).imports := by
  unfold processAccessGrantEvent at h
  split at h
  · cases h
  rename_i grant hgrant
  split at h
  · cases h
  rename_i hauthorised
  split at h
  · rw [processRevocation_imports] at h
    cases h
  rename_i haction
  exact ⟨grant, hgrant, by simpa using hauthorised, not_not.mp haction, h⟩

end Process

/-- What is known when the importer is called: `object` is the decrypted payload. -/
structure Gate (host : Host) (input : ProcessAccessGrantInput) (call : ImportInput)
    (object : Value) (grant : DecodedAccessGrant) : Prop where
  /-- signature, signer, recipient, and identities that are those of the payload. -/
  decoded : Decoded host input.event input.recipientSecretKey input.recipientNpub input.now object
    grant
  authorised : grantIssuerIsAuthorized grant input = true
  state : (withState object).get "action" = str "grant" ∧
    (withState object).get "status" = str "active"
  unexpired : ∀ t ∈ expiresAt host object, input.now < t
  tower : ∃ payload,
    verifyAccessGrantWithTower host input.fetch input.recipientSecretKey grant = .ok payload
  identities : grant.identities = payloadIdentities object grant.appNpub
  /-- every identity that is read of the package is that of the grant. -/
  package : ∀ v, validateAgentConnectPackage host.toPlatform call.managedByNpub call.packageJson =
    .ok v → validatedIdentities v = grant.identities
  /-- so are those of the token. -/
  token : host.toNumber (call.packageJson.get "version") ≠ some 6 →
    ∃ token, decodeConnectionToken host.toPlatform
        ((call.packageJson.get "connection_token").getString.getD "") = .ok token ∧
      (tokenIdentities token).Within grant.identities
  recipient : call.managedByNpub = input.managedByNpub ∧
    call.discoveryEvent.eventId = input.event.id ∧
    call.discoveryEvent.recipientNpub = input.recipientNpub

/-- **Nothing is imported that did not pass the gate.** -/
theorem import_gate (host : Host) (input : ProcessAccessGrantInput) (call : ImportInput)
    (h : call ∈ (processAccessGrantEvent host input).imports) :
    ∃ object grant, Gate host input call object grant := by
  obtain ⟨grant, hgrant, hauthorised, haction, h⟩ := process_imports h
  obtain ⟨hstatus, htower, hmatches, rfl⟩ := processGrant_imports h
  obtain ⟨object, hd⟩ := decode_ok hgrant
  refine ⟨object, grant, hd, hauthorised, ⟨hd.state.1 ▸ haction, hd.state.2 ▸ hstatus⟩,
    hd.fresh haction, htower, ?_, fun v hv => validated_identities hmatches hv, fun hversion => ?_,
    rfl, ?_, hd.recipient.2.1⟩
  · refine Identities.ext ?_ ?_ ?_ ?_ rfl
    · exact congrArg getString hd.service.1
    · exact congrArg getString hd.workspaceOwner.1
    · show ((grant.payload.get "workspace").get "workspace_id").getString = _
      rw [hd.workspace]
      rfl
    · exact congrArg getString hd.workspaceService.1
  · have e : ∀ k ∉ ["service", "workspace", "app"],
        (importInput host input grant).packageJson.get k = grant.package.get k := get_scoped
    rw [e _ (by decide)] at hversion
    rw [e _ (by decide)]
    unfold assertAgentConnectMatchesGrant at hmatches
    rw [if_neg hversion] at hmatches
    exact (assertTokenPackageMatchesGrant_ok hmatches).2.2.2.2
  · exact congrArg NostrAccessGrantEvent.id hd.event

/-! ## a package that names another service -/

section Example

def issuerHex : String := "79be667ef9dcbbac55a06295ce870b07029bfcdb2dce28d959f2815b16f81798"
def issuerNpub : String := "npub10xlxvlhemja6c4dqv22uapctqupfhlxm9h8z3k2e72q4k9hcz7vqpkge6d"
def botHex : String := "c6047f9441ed7d6d3045406e95c07cd85c778e4b8cef3ca7abac09b95c709ee5"
def botNpub : String := "npub1ccz8l9zpa47k6vz9gphftsrumpw80rjt3nhnefat4symjhrsnmjs38mnyd"
def serviceNpub : String := "npub1lycg5qvjtrp3qjf5f7zl382j9x6nrjz9sdhenvyxq8c3808qxmus6gq266"
def ownerNpub : String := "npub1ujfahuwppkq0xkq7fyzfxzc5qnxxcyuspms8tpr5l222h6xye5fsccv64k"
def workspaceNpub : String := "npub1979aung6qusfx4d55ujs5hz39r5ghp9am3se4d7t4r2knvjqaljqevzcrp"
def appNpub : String := "npub1lluhh4t4tmh2ggz98g2r25346wp0v3e0s452rze0q4apgcpfw4tqf7pfhd"
def otherNpub : String := "npub1tj7lqerwtk6w4guc7djl96n6pc75rxm7qvcw888f90w7mjkylx7qmwjus6"
def towerUrl : String := "https://tower.example.com"
def issuedAt : String := "2026-01-01T00:00:00Z"

/-- a version 6 package whose service is not that of its descriptor. -/
def twoServicePackage : Value :=
  obj [("kind", str "coworker_agent_connect"), ("version", num 6),
    ("protocol", str "flightdeck_pg"), ("generated_at", str issuedAt),
    ("service", obj [("direct_https_url", str towerUrl), ("service_npub", str otherNpub)]),
    ("workspace_descriptor", obj [("type", str PG_WORKSPACE_DESCRIPTOR_TYPE),
      ("tower_base_url", str towerUrl),
      ("identity", obj [("tower_service_npub", str serviceNpub),
        ("workspace_service_npub", str workspaceNpub), ("workspace_owner_npub", str ownerNpub),
        ("workspace_id", str "ws-1"), ("app_npub", str appNpub)])])]

/-- a grant with that package. -/
def twoServicePayload : Value :=
  obj [("type", str FLIGHTDECK_ONBOARDING_PAYLOAD_TYPE), ("action", str "grant"),
    ("status", str "active"), ("issued_at", str issuedAt),
    ("recipient", obj [("npub", str botNpub)]), ("issuer", obj [("npub", str issuerNpub)]),
    ("service", obj [("direct_https_url", str towerUrl), ("service_npub", str serviceNpub)]),
    ("workspace", obj [("owner_npub", str ownerNpub), ("workspace_service_npub", str workspaceNpub),
      ("workspace_id", str "ws-1")]),
    ("app", obj [("app_npub", str appNpub)]), ("agent_connect_package", twoServicePackage)]

mutual

/-- the JSON text of a value whose texts need no escapes and whose numbers are integers. -/
def stringify : Value → String
  | str s => "\"" ++ s ++ "\""
  | num q => toString q.num
  | obj fs => "\x7b" ++ stringifyFields fs ++ "\x7d"
  | _ => "null"

/-- the text between the braces. -/
def stringifyFields : List (String × Value) → String
  | [] => ""
  | [(k, v)] => "\"" ++ k ++ "\":" ++ stringify v
  | (k, v) :: fs => "\"" ++ k ++ "\":" ++ stringify v ++ "," ++ stringifyFields fs

end

/-- a signed event for the bot, and a platform on which it is decrypted to the payload. -/
def onboardingEvent : NostrAccessGrantEvent :=
  ⟨"e1", issuerHex, 1767225600, SBIP0009_ACCESS_GRANT_KIND, [["p", botHex]], "ciphertext", "sig"⟩

def onboardingHost : Host where
  verifyEvent event := event = onboardingEvent
  nip19Decode s := if s = botNpub then .ok ("npub", str botHex) else .error ⟨none, "invalid"⟩
  npubEncode hex := if hex = issuerHex then issuerNpub else botNpub
  nip44Decrypt _ sender content :=
    if sender = issuerHex ∧ content = "ciphertext" then some (stringify twoServicePayload) else none
  jsonParse s := if s = stringify twoServicePayload then some twoServicePayload else none
  dateParse v := if v = str issuedAt then some 1767225600000 else none
  url s := if s = towerUrl then
      some ⟨"https:", "//tower.example.com", "/", "", "", towerUrl⟩ else none
  urlAt _ _ := none
  sha256 s := s
  base64Text _ := ""
  toText
    | str s => s
    | _ => ""
  toNumber := numberOf
  toNumber_num := numberOf_num
  encodeURIComponent s := s
  nip98 _ _ _ _ := "Nostr "

/-- Tower allows the grant. -/
def onboardingInput : ProcessAccessGrantInput where
  event := onboardingEvent
  recipientSecretKey := []
  recipientNpub := botNpub
  managedByNpub := issuerNpub
  importAgentConnectPackage _ := .ok null
  handleAccessGrantRevocation := none
  agentProfileId := none
  fetch _ _ := .ok ⟨200, obj [("allowed", bool true)]⟩
  now := 1767225601000
  checkedAt := "2026-01-01T00:00:01Z"
  processedKeys := none
  isAuthorizedIssuerNpub := none
  onPostConnectSync := none
  onPostRevocationSync := none

end Example

/-- the package that is imported names the other service. -/
theorem onboarding_imports :
    ((processAccessGrantEvent onboardingHost onboardingInput).imports.head?.map fun call =>
      (packageIdentities call.packageJson).service) = some (some otherNpub) := by
  decide +kernel

theorem onboarding_call : ∃ call, call ∈ (processAccessGrantEvent onboardingHost
    onboardingInput).imports ∧ (packageIdentities call.packageJson).service = some otherNpub := by
  obtain ⟨call, hcall, e⟩ := Option.map_eq_some_iff.mp onboarding_imports
  exact ⟨call, List.mem_of_head? hcall, e⟩

/-- the gate of a call that is made. -/
theorem import_gate_onboarding : ∃ call object grant,
    Gate onboardingHost onboardingInput call object grant := by
  obtain ⟨call, hcall, -⟩ := onboarding_call
  exact ⟨call, import_gate onboardingHost onboardingInput call hcall⟩

/-- **A package that is imported may name another service than its grant**: of a version 6 package
the descriptor is compared, and not the service beside it. -/
theorem package_names_other_service : ¬∀ (host : Host) (input : ProcessAccessGrantInput)
    (call : ImportInput) (grant : DecodedAccessGrant), call ∈ (processAccessGrantEvent host input).imports →
      decodeAccessGrantEvent host input.event input.recipientSecretKey input.recipientNpub
        input.now = .ok grant →
      (packageIdentities call.packageJson).Within grant.identities := by
  intro h
  obtain ⟨call, hcall, e⟩ := onboarding_call
  obtain ⟨grant, hgrant, -⟩ := process_imports hcall
  obtain ⟨object, hd⟩ := decode_ok hgrant
  obtain ⟨text, -, hparse, -⟩ := hd.payload
  have hobject : twoServicePayload = object := by
    change (if text = _ then _ else _) = _ at hparse
    split at hparse
    · exact Option.some.inj hparse
    · cases hparse
  have hservice : grant.serviceNpub.getString = some otherNpub :=
    (h _ _ call grant hcall hgrant).service otherNpub e
  rw [hd.service.1, ← hobject] at hservice
  exact absurd hservice (by decide +kernel)

end AccessGrants
end WmAutopilot
