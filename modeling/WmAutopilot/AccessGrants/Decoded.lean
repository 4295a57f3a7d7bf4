import WmAutopilot.AccessGrants.Grant

/-!
# What is known of a decoded grant

* `tagOr_eq`            a tag is compared with the field it stands for;
* `normalizePayload_ok` normalisation keeps the identities of the payload;
* `checkTags_ok`        the identities that the tags leave are those of the payload;
* `Decoded`, `decode_ok`   signature, signer, recipient, expiry, and **identities that are those of the
                        decrypted payload**.
-/

set_option autoImplicit false
set_option linter.unusedVariables false

namespace WmAutopilot
namespace AccessGrants
open Js Value

/-! ## comparisons -/

theorem assertEqual_ok {label : String} {left right : Value} {u : Unit} :
    assertEqual label left right = .ok u ↔
      left.truthy = true ∧ right.truthy = true ∧ left = right := by
  rw [assertEqual, throwIf_ok]
  simp only [not_or, Bool.not_eq_false, not_not]

theorem assertEqualWhenPresent_ok {label : String} {left right : Value} {u : Unit}
    (h : assertEqualWhenPresent label left right = .ok u) (hl : left.truthy = true)
    (hr : right.truthy = true) : left = right := by
  rw [assertEqualWhenPresent, throwIf_ok] at h
  exact not_not.mp fun hn => h ⟨hl, hr, hn⟩

/-! ## tags -/

theorem getOptionalTag_ne {tags : List (List String)} {name s : String}
    (h : getOptionalTag tags name = some s) : (str s).truthy = true := by
  have := (Option.filter_eq_some_iff.mp h).2
  simpa [truthy] using this

/-- **A tag that is not empty is compared with the field it stands for**: it cannot replace it. -/
theorem tagOr_eq {event : NostrAccessGrantEvent} {name label : String} {value : Value} {u : Unit}
    (hv : value.truthy = true)
    (h : assertEqualWhenPresent label (tagOr event name value) value = .ok u) :
    tagOr event name value = value := by
  unfold tagOr at h ⊢
  cases ht : getOptionalTag event.tags name with
  | none => rfl
  | some s =>
    rw [ht] at h
    exact assertEqualWhenPresent_ok h (getOptionalTag_ne ht) hv

/-! ## the payload -/

/-- what `parsePayload` guarantees: required fields are there, and identities stay as they were. -/
structure Normalized (host : Host) (object payload : Value) : Prop where
  service : payload.get "service" = object.get "service"
  workspace : payload.get "workspace" = object.get "workspace"
  expires : payload.get "expires_at" = object.get "expires_at"
  state : payload.get "action" = (withState object).get "action" ∧
    payload.get "status" = (withState object).get "status"
  serviceNpub : ((object.get "service").get "service_npub").truthy = true
  workspaceOwnerNpub : ((object.get "workspace").get "owner_npub").truthy = true
  workspaceServiceNpub : ((object.get "workspace").get "workspace_service_npub").truthy = true
  recipient : recipientOf payload = recipientOf object ∧ (recipientOf object).truthy = true
  issuer : issuerOf payload = issuerOf object ∧ (issuerOf object).truthy = true
  app : orNpubOf host ((object.get "app").get "app_npub") ((object.get "app").get "app_pubkey") =
    .ok ((payload.get "app").get "app_npub") ∧ ((payload.get "app").get "app_npub").truthy = true

/-- a recipient or an issuer that is filled in is the one that was found. -/
theorem filled_npub {v r w : Value} (hr : r.truthy = true) (e : r = (v.get "npub").orElse w) :
    ((v.orElse (obj [("npub", r)])).get "npub").orElse w = r := by
  have hself : ((obj [("npub", r)]).get "npub").orElse w = r := orElse_of_truthy hr
  cases v <;> first | exact hself | exact e.symm

/-- `payload'` has the fields of `payload`, except those of `ks`. -/
def SameExcept (ks : List String) (payload payload' : Value) : Prop :=
  ∀ k ∉ ks, payload'.get k = payload.get k

theorem withState_same (object : Value) :
    SameExcept ["action", "status"] object (withState object) := by
  intro k hk
  simp only [List.mem_cons, List.not_mem_nil, or_false, not_or] at hk
  exact (get_set_of_ne hk.2).trans (get_set_of_ne hk.1)

theorem withPackage_same (payload : Value) :
    SameExcept ["agent_connect_package"] payload (withPackage payload) := by
  intro k hk
  unfold withPackage
  split
  · exact get_set_of_ne (by simpa using hk)
  · rfl

theorem fillGrantId_same (payload : Value) :
    SameExcept ["grant_id"] payload (fillGrantId payload) := by
  intro k hk
  unfold fillGrantId
  dsimp only
  split
  · exact get_set_of_ne (by simpa using hk)
  · rfl

theorem fillIdentities_same (payload recipientNpub issuerNpub appNpub : Value) :
    SameExcept ["recipient", "issuer", "app"] payload
      (fillIdentities payload recipientNpub issuerNpub appNpub) := by
  intro k hk
  simp only [List.mem_cons, List.not_mem_nil, or_false, not_or] at hk
  exact ((get_set_of_ne hk.2.2).trans (get_set_of_ne hk.2.1)).trans (get_set_of_ne hk.1)

theorem fillIdentities_get {payload : Value} (recipientNpub issuerNpub appNpub : Value)
    (ho : payload.isPlainObject = true) :
    let filled := fillIdentities payload recipientNpub issuerNpub appNpub
    filled.get "recipient" =
        (payload.get "recipient").orElse (obj [("npub", recipientNpub)]) ∧
      filled.get "issuer" = (payload.get "issuer").orElse (obj [("npub", issuerNpub)]) ∧
      filled.get "app" = (payload.get "app").set "app_npub" appNpub := by
  simp [fillIdentities, ho]

theorem SameExcept.recipientOf {ks : List String} {payload payload' : Value}
    (h : SameExcept ks payload payload') (h₁ : "recipient" ∉ ks) (h₂ : "recipient_npub" ∉ ks) :
    recipientOf payload' = recipientOf payload := by
  unfold AccessGrants.recipientOf
  rw [h _ h₁, h _ h₂]

theorem SameExcept.issuerOf {ks : List String} {payload payload' : Value}
    (h : SameExcept ks payload payload') (h₁ : "issuer" ∉ ks) (h₂ : "issued_by_npub" ∉ ks) :
    issuerOf payload' = issuerOf payload := by
  unfold AccessGrants.issuerOf
  rw [h _ h₁, h _ h₂]

/-- only an object has an app with a key. -/
theorem isPlainObject_of_orNpubOf {host : Host} {app appNpub : Value}
    (h : orNpubOf host (app.get "app_npub") (app.get "app_pubkey") = .ok appNpub)
    (ht : appNpub.truthy = true) : app.isPlainObject = true := by
  cases app with
  | obj fs => rfl
  | _ => cases h; cases ht

/-- **Normalisation keeps the identities of the payload.** -/
theorem normalizePayload_ok {host : Host} {object payload : Value}
    (ho : object.isPlainObject = true) (h : normalizePayload host object = .ok payload) :
    Normalized host object payload := by
  obtain ⟨_, -, h⟩ := bind_ok.mp h
  obtain ⟨_, -, h⟩ := bind_ok.mp h
  obtain ⟨appNpub, happ, h⟩ := bind_ok.mp h
  obtain ⟨_, hmissing, h⟩ := bind_ok.mp h
  obtain ⟨_, -, h⟩ := bind_ok.mp h
  obtain ⟨_, -, h⟩ := bind_ok.mp h
  obtain rfl := (Except.ok.inj h).symm
  let p₁ := withState object
  let p₂ := withPackage p₁
  let p₃ := fillGrantId p₂
  have h₁ : SameExcept _ object p₁ := withState_same object
  have h₂ : SameExcept _ p₁ p₂ := withPackage_same p₁
  have h₃ : SameExcept _ p₂ p₃ := fillGrantId_same p₂
  have h₄ : SameExcept _ p₃ _ := fillIdentities_same p₃ (recipientOf p₁) (issuerOf p₁) appNpub
  have hr₁ : recipientOf p₁ = recipientOf object := h₁.recipientOf (by decide) (by decide)
  have hi₁ : issuerOf p₁ = issuerOf object := h₁.issuerOf (by decide) (by decide)
  have happ₁ : p₁.get "app" = object.get "app" := h₁ "app" (by decide)
  have hp₂ : ∀ k ∉ ["action", "status", "agent_connect_package"], p₂.get k = object.get k := by
    intro k hk
    simp only [List.mem_cons, List.not_mem_nil, or_false, not_or] at hk
    exact (h₂ k (by simpa using hk.2.2)).trans (h₁ k (by simp [hk]))
  have hp₃ : ∀ k ∉ ["action", "status", "agent_connect_package", "grant_id"],
      p₃.get k = object.get k := by
    intro k hk
    simp only [List.mem_cons, List.not_mem_nil, or_false, not_or] at hk
    exact (h₃ k (by simp [hk])).trans (hp₂ k (by simp [hk]))
  -- the required fields
  have hfields : missingFields host p₂ appNpub = false := by
    simpa using throwIf_ok.mp hmissing
  have hr₂ : recipientOf p₂ = recipientOf object :=
    (h₂.recipientOf (by decide) (by decide)).trans hr₁
  have hi₂ : issuerOf p₂ = issuerOf object := (h₂.issuerOf (by decide) (by decide)).trans hi₁
  simp only [missingFields, hr₂, hi₂, hp₂ "service" (by decide), hp₂ "workspace" (by decide),
    Bool.or_eq_false_iff, Bool.not_eq_false'] at hfields
  obtain ⟨⟨⟨⟨⟨⟨⟨⟨hr, hi⟩, -⟩, -⟩, -⟩, hs⟩, hw⟩, hws⟩, ha⟩ := hfields
  have happ' : orNpubOf host ((object.get "app").get "app_npub")
      ((object.get "app").get "app_pubkey") = .ok appNpub := happ₁ ▸ happ
  -- the fields that are filled in
  have ho₃ : p₃.isPlainObject = true := by
    have ho₂ : p₂.isPlainObject = true := by
      show (withPackage (withState object)).isPlainObject = true
      unfold withPackage withState
      split <;> simp [ho]
    show (fillGrantId p₂).isPlainObject = true
    unfold fillGrantId
    dsimp only
    split <;> simp [ho₂]
  obtain ⟨hfr, hfi, hfa⟩ := fillIdentities_get (recipientOf p₁) (issuerOf p₁) appNpub ho₃
  have hout : ∀ k ∉ ["recipient", "issuer", "app"], k ∉ ["action", "status",
      "agent_connect_package", "grant_id"] → (fillIdentities p₃ (recipientOf p₁) (issuerOf p₁)
        appNpub).get k = object.get k := fun k hk hk' => (h₄ k hk).trans (hp₃ k hk')
  refine ⟨hout "service" (by decide) (by decide), hout "workspace" (by decide) (by decide),
    hout "expires_at" (by decide) (by decide), ⟨?_, ?_⟩, hs, hw, hws, ⟨?_, hr⟩, ⟨?_, hi⟩, ?_⟩
  · exact ((h₄ "action" (by decide)).trans (h₃ "action" (by decide))).trans (h₂ "action" (by decide))
  · exact ((h₄ "status" (by decide)).trans (h₃ "status" (by decide))).trans (h₂ "status" (by decide))
  · show ((Value.get _ "recipient").get "npub").orElse (Value.get _ "recipient_npub") = _
    rw [hfr, hout "recipient_npub" (by decide) (by decide), hr₁, hp₃ "recipient" (by decide)]
    exact filled_npub hr rfl
  · show ((Value.get _ "issuer").get "npub").orElse (Value.get _ "issued_by_npub") = _
    rw [hfi, hout "issued_by_npub" (by decide) (by decide), hi₁, hp₃ "issuer" (by decide)]
    exact filled_npub hi rfl
  · have happ₃ : (p₃.get "app").isPlainObject = true := by
      rw [hp₃ "app" (by decide)]
      exact isPlainObject_of_orNpubOf happ' ha
    show orNpubOf _ _ _ = .ok ((Value.get _ "app").get "app_npub") ∧ _
    rw [hfa, get_set_self happ₃]
    exact ⟨happ', ha⟩

/-! ## the tags and the grant -/

theorem tagOr_truthy {event : NostrAccessGrantEvent} {name : String} {value : Value}
    (hv : value.truthy = true) : (tagOr event name value).truthy = true := by
  unfold tagOr
  cases ht : getOptionalTag event.tags name with
  | none => exact hv
  | some s => exact getOptionalTag_ne ht

theorem orNpubOf_of_truthy {host : Host} {value pubkeyHex : Value} (hv : value.truthy = true) :
    orNpubOf host value pubkeyHex = .ok value := by
  cases value <;> first | rfl | cases hv

/-- **The identities that the tags leave are those of the payload.** -/
theorem checkTags_ok {host : Host} {event : NostrAccessGrantEvent} {object payload : Value}
    {recipientNpub signer : String} {ids : GrantIdentities} (hn : Normalized host object payload)
    (h : checkTags host event payload recipientNpub signer = .ok ids) :
    ids.service = (object.get "service").get "service_npub" ∧
      ids.workspaceService = (object.get "workspace").get "workspace_service_npub" ∧
      ids.workspaceOwner = (object.get "workspace").get "owner_npub" ∧
      ids.app = (payload.get "app").get "app_npub" ∧
      issuerOf object = str signer ∧ ids.issuer = str signer ∧
      recipientOf object = str recipientNpub := by
  obtain ⟨appNpub, happ, h⟩ := bind_ok.mp h
  obtain ⟨_, -, h⟩ := bind_ok.mp h
  obtain ⟨_, -, h⟩ := bind_ok.mp h
  obtain ⟨_, -, h⟩ := bind_ok.mp h
  obtain ⟨_, -, h⟩ := bind_ok.mp h
  obtain ⟨_, -, h⟩ := bind_ok.mp h
  obtain ⟨_, -, h⟩ := bind_ok.mp h
  obtain ⟨_, hissuer, h⟩ := bind_ok.mp h
  obtain ⟨_, hsigner, h⟩ := bind_ok.mp h
  obtain ⟨_, hservice, h⟩ := bind_ok.mp h
  obtain ⟨_, hws, h⟩ := bind_ok.mp h
  obtain ⟨_, howner, h⟩ := bind_ok.mp h
  obtain ⟨payloadAppNpub, hpayloadApp, h⟩ := bind_ok.mp h
  obtain ⟨_, happEq, h⟩ := bind_ok.mp h
  obtain ⟨_, -, h⟩ := bind_ok.mp h
  obtain ⟨_, hrecipient, h⟩ := bind_ok.mp h
  obtain ⟨_, -, h⟩ := bind_ok.mp h
  obtain rfl := (Except.ok.inj h).symm
  rw [hn.service] at hservice
  rw [hn.workspace] at hws howner
  rw [hn.issuer.1] at hissuer
  have hi := tagOr_eq hn.issuer.2 hissuer
  have hsig : str signer = issuerOf object := by
    have he := (assertEqual_ok.mp hsigner).2.2
    rw [hn.issuer.1] at he
    exact he.trans hi
  obtain rfl : tagOr event "app_npub" ((payload.get "app").get "app_npub") = appNpub :=
    Except.ok.inj ((orNpubOf_of_truthy (tagOr_truthy hn.app.2)).symm.trans happ)
  obtain rfl : (payload.get "app").get "app_npub" = payloadAppNpub :=
    Except.ok.inj ((orNpubOf_of_truthy hn.app.2).symm.trans hpayloadApp)
  refine ⟨?_, ?_, ?_, tagOr_eq hn.app.2 happEq, hsig.symm, ?_, ?_⟩
  · show tagOr event _ ((payload.get "service").get _) = _
    rw [hn.service]
    exact tagOr_eq hn.serviceNpub hservice
  · show tagOr event _ ((payload.get "workspace").get _) = _
    rw [hn.workspace]
    exact tagOr_eq hn.workspaceServiceNpub hws
  · show tagOr event _ ((payload.get "workspace").get _) = _
    rw [hn.workspace]
    exact tagOr_eq hn.workspaceOwnerNpub howner
  · show tagOr event _ (issuerOf payload) = _
    rw [hn.issuer.1, hi, hsig]
  · exact hn.recipient.1 ▸ ((assertEqual_ok.mp hrecipient).2.2).symm

/-- What is known of a grant that was decoded from an event: `object` is the decrypted payload. -/
structure Decoded (host : Host) (event : NostrAccessGrantEvent) (key : SecretKey)
    (recipientNpub : String) (now : ℤ) (object : Value) (grant : DecodedAccessGrant) : Prop where
  verified : host.verifyEvent event = true
  /-- the payload is what this agent decrypts of the event. -/
  payload : ∃ text, host.nip44Decrypt key event.pubkey event.content = some text ∧
    host.jsonParse text = some object ∧ object.isPlainObject = true
  /-- the signer of the event is the issuer that the payload names. -/
  signer : encodeHexToNpub host (str event.pubkey) = .ok (some grant.eventSignerNpub) ∧
    issuerOf object = str grant.eventSignerNpub ∧ grant.issuerNpub = str grant.eventSignerNpub
  /-- the payload and the `p` tag name this agent. -/
  recipient : recipientOf object = str recipientNpub ∧ grant.recipientNpub = recipientNpub ∧
    ∃ hex, taggedRecipient event = .ok hex ∧
      decodeNpubToHex host recipientNpub = .ok (toLowerCase hex)
  event : grant.event = event
  service : grant.serviceNpub = (object.get "service").get "service_npub" ∧
    grant.serviceNpub.truthy = true
  workspaceService : grant.workspaceServiceNpub =
      (object.get "workspace").get "workspace_service_npub" ∧
    grant.workspaceServiceNpub.truthy = true
  workspaceOwner : grant.workspaceOwnerNpub = (object.get "workspace").get "owner_npub" ∧
    grant.workspaceOwnerNpub.truthy = true
  app : orNpubOf host ((object.get "app").get "app_npub") ((object.get "app").get "app_pubkey") =
    .ok grant.appNpub ∧ grant.appNpub.truthy = true
  workspace : grant.payload.get "workspace" = object.get "workspace"
  /-- the action and the status are those of the payload, normalised. -/
  state : grant.payload.get "action" = (withState object).get "action" ∧
    grant.payload.get "status" = (withState object).get "status"
  /-- a grant that says when it expires has not expired. -/
  fresh : grant.payload.get "action" = str "grant" → ∀ t ∈ expiresAt host object, now < t

theorem buildGrant_ok {host : Host} {event : NostrAccessGrantEvent} {object payload : Value}
    {recipientNpub hex signer : String} {ids : GrantIdentities} {now : ℤ}
    {grant : DecodedAccessGrant} (hn : Normalized host object payload)
    (h : buildGrant host event payload recipientNpub hex signer ids now = .ok grant) :
    (grant.event = event ∧ grant.recipientNpub = recipientNpub ∧ grant.eventSignerNpub = signer ∧
      grant.issuerNpub = ids.issuer) ∧
    (grant.serviceNpub = ids.service ∧ grant.workspaceServiceNpub = ids.workspaceService ∧
      grant.workspaceOwnerNpub = ids.workspaceOwner ∧ grant.appNpub = ids.app) ∧
    grant.payload.get "workspace" = object.get "workspace" ∧
    (grant.payload.get "action" = (withState object).get "action" ∧
      grant.payload.get "status" = (withState object).get "status") ∧
    (grant.payload.get "action" = str "grant" → ∀ t ∈ expiresAt host object, now < t) := by
  obtain ⟨_, -, h⟩ := bind_ok.mp h
  obtain ⟨_, hfresh, h⟩ := bind_ok.mp h
  obtain rfl := (Except.ok.inj h).symm
  have hsame : ∀ {v w : Value} (k : String), k ≠ "dedupe_key" → k ≠ "grant_id" →
      ((payload.set "dedupe_key" v).set "grant_id" w).get k = payload.get k := fun k hk hk' =>
    (get_set_of_ne hk').trans (get_set_of_ne hk)
  refine ⟨⟨rfl, rfl, rfl, rfl⟩, ⟨rfl, rfl, rfl, rfl⟩, ?_, ⟨?_, ?_⟩, fun haction t ht => ?_⟩
  · exact (hsame _ (by decide) (by decide)).trans hn.workspace
  · exact (hsame _ (by decide) (by decide)).trans hn.state.1
  · exact (hsame _ (by decide) (by decide)).trans hn.state.2
  · have ha : payload.get "action" = str "grant" :=
      (hsame _ (by decide) (by decide)).symm.trans haction
    have he : expiresAt host payload = expiresAt host object := by
      unfold expiresAt
      rw [hn.expires]
    by_contra hlt
    exact throwIf_ok.mp hfresh ⟨ha, t, he ▸ ht, by omega⟩

/-- **A grant that was decoded.** -/
theorem decode_ok {host : Host} {event : NostrAccessGrantEvent} {key : SecretKey}
    {recipientNpub : String} {now : ℤ} {grant : DecodedAccessGrant}
    (h : decodeAccessGrantEvent host event key recipientNpub now = .ok grant) :
    ∃ object, Decoded host event key recipientNpub now object grant := by
  obtain ⟨_, -, h⟩ := bind_ok.mp h
  obtain ⟨_, hverify, h⟩ := bind_ok.mp h
  obtain ⟨hex, hhex, h⟩ := bind_ok.mp h
  obtain ⟨signer?, hencode, h⟩ := bind_ok.mp h
  obtain ⟨signer, hsigner, h⟩ := bind_ok.mp h
  obtain ⟨tagged, htagged, h⟩ := bind_ok.mp h
  obtain ⟨_, hsame, h⟩ := bind_ok.mp h
  obtain ⟨text, htext, h⟩ := bind_ok.mp h
  obtain ⟨payload, hparse, h⟩ := bind_ok.mp h
  obtain ⟨ids, hids, h⟩ := bind_ok.mp h
  obtain ⟨object, hobject, hparse⟩ := bind_ok.mp hparse
  obtain ⟨_, hplain, hnorm⟩ := bind_ok.mp hparse
  have ho : object.isPlainObject = true := by simpa using throwIf_ok.mp hplain
  have hn := normalizePayload_ok ho hnorm
  obtain ⟨hs, hws, hwo, ha, hiss, hids', hrec⟩ := checkTags_ok hn hids
  obtain ⟨⟨e₁, e₂, e₄, e₅⟩, ⟨e₆, e₇, e₈, e₉⟩, hwork, hstate, hfresh⟩ := buildGrant_ok hn h
  have hsome : signer? = some signer :=
    (Option.filter_eq_some_iff.mp (orThrow_ok.mp hsigner)).1
  refine ⟨object, ?_, ⟨text, orThrow_ok.mp htext, orThrow_ok.mp hobject, ho⟩, ?_, ?_, e₁, ?_, ?_, ?_,
    ?_, hwork, hstate, hfresh⟩
  · simpa using throwIf_ok.mp hverify
  · rw [e₄, e₅]
    exact ⟨hsome ▸ hencode, hiss, hids'⟩
  · obtain rfl : toLowerCase tagged = hex := not_not.mp (throwIf_ok.mp hsame)
    exact ⟨hrec, e₂, tagged, htagged, hhex⟩
  · rw [e₆, hs]
    exact ⟨rfl, hn.serviceNpub⟩
  · rw [e₇, hws]
    exact ⟨rfl, hn.workspaceServiceNpub⟩
  · rw [e₈, hwo]
    exact ⟨rfl, hn.workspaceOwnerNpub⟩
  · rw [e₉, ha]
    exact hn.app

end AccessGrants
end WmAutopilot
