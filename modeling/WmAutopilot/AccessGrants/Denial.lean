import WmAutopilot.AccessGrants.Tower

/-!
# Denials in Tower's answers

An answer may carry a denial beside an affirmative field, and the verification reads only the
latter.

* `Affirms`, `Revokes`, `Denies`   the fields of an answer that say one or the other;
* `Read step payload`    the verification comes to the answer of `step`;
* `verify_ok_iff`        it succeeds with exactly the answers it reads that admit the grant;
* `denialRespected_iff`  **a denial is respected exactly when no answer contradicts itself**.
-/

set_option autoImplicit false
set_option linter.unusedVariables false

namespace WmAutopilot
namespace AccessGrants
open Js Value

/-! ## fields -/

/-- an affirmative field. -/
def Affirms (payload : Value) : Prop :=
  (∃ k ∈ ["allowed", "active", "verified", "current_member"], payload.get k = bool true) ∨
    (payload.get "membership").isObject = true

/-- a field that says that the access was revoked or the workspace deleted. -/
def Revokes (payload : Value) : Prop :=
  (∃ k ∈ ["deleted", "tombstoned"], payload.get k = bool true) ∨
    (∃ k ∈ ["allowed", "active", "verified", "current_member", "member"],
      payload.get k = bool false) ∨
    (∃ s ∈ ["deleted", "tombstoned", "revoked", "inactive"], statusOf payload = some s) ∨
    ∃ s ∈ ["workspace_deleted", "workspace_tombstoned", "workspace_access_revoked",
      "workspace_membership_revoked", "not_workspace_member"], reasonOf payload = some s

/-- `allowed: false`, or a status that is revoked or deleted. -/
def Denies (payload : Value) : Prop :=
  payload.get "allowed" = bool false ∨
    ∃ k ∈ ["status", "state"], ∃ s ∈ ["revoked", "deleted"], (payload.get k).getString = some s

/-- a row of a listing is of the workspace of the grant. -/
def ListsGrant (payload : Value) (grant : DecodedAccessGrant) : Prop :=
  ∃ rows, (payload.get "workspaces").elements.or (payload.get "groups").elements = some rows ∧
    ∃ row ∈ rows, rowMatchesGrant row grant = true

section Fields
variable {payload : Value} {grant : DecodedAccessGrant}

/-- what has fields is an object. -/
theorem isObject_of_get {k : String} (h : payload.get k ≠ undefined) : payload.isObject = true := by
  cases payload with
  | obj fs => rfl
  | _ => exact absurd rfl h

theorem Affirms.isObject (h : Affirms payload) : payload.isObject = true := by
  rcases h with ⟨k, -, h⟩ | h
  · exact isObject_of_get (k := k) (by rw [h]; exact nofun)
  · refine isObject_of_get (k := "membership") fun e => ?_
    rw [e] at h
    cases h

theorem responseAllowsAccess_iff : responseAllowsAccess payload grant = true ↔
    towerIdentityMatchesGrant payload grant = true ∧ Affirms payload := by
  have h : responseAllowsAccess payload grant = true ↔ payload.isObject = true ∧
      towerIdentityMatchesGrant payload grant = true ∧ Affirms payload := by
    simp only [responseAllowsAccess, Affirms, Bool.and_eq_true, Bool.or_eq_true,
      decide_eq_true_eq, List.mem_cons, List.not_mem_nil, or_false, exists_eq_or_imp,
      exists_eq_left, and_assoc, or_assoc]
  rw [h]
  exact ⟨fun h => h.2, fun h => ⟨h.2.isObject, h⟩⟩

theorem fallbackPayloadAllowsAccess_iff :
    fallbackPayloadAllowsAccess payload grant = true ↔ ListsGrant payload grant := by
  unfold fallbackPayloadAllowsAccess ListsGrant
  cases hw : (payload.get "workspaces").elements with
  | some rows =>
    have ho : payload.isObject = true :=
      isObject_of_get (k := "workspaces") fun e => by rw [e] at hw; cases hw
    simp [ho]
  | none =>
    cases hg : (payload.get "groups").elements with
    | some rows =>
      have ho : payload.isObject = true :=
        isObject_of_get (k := "groups") fun e => by rw [e] at hg; cases hg
      simp [ho]
    | none => simp

/-- the texts that `payloadConfirmsRevocation` reads are fields of an object. -/
theorem isObject_of_text {k : String} {s : String} (h : (payload.get k).getString = some s) :
    payload.isObject = true :=
  isObject_of_get (k := k) fun e => by rw [e] at h; cases h

theorem Revokes.isObject (h : Revokes payload) : payload.isObject = true := by
  rcases h with ⟨k, -, h⟩ | ⟨k, -, h⟩ | ⟨s, -, h⟩ | ⟨s, -, h⟩
  · exact isObject_of_get (k := k) (by rw [h]; exact nofun)
  · exact isObject_of_get (k := k) (by rw [h]; exact nofun)
  · rcases Option.or_eq_some_iff.mp h with h | ⟨-, h⟩ <;> exact isObject_of_text h
  · rcases Option.or_eq_some_iff.mp h with h | ⟨-, h⟩
    · rcases Option.or_eq_some_iff.mp h with h | ⟨-, h⟩ <;> exact isObject_of_text h
    · exact isObject_of_text h

theorem payloadConfirmsRevocation_iff :
    (payloadConfirmsRevocation payload).isSome = true ↔ Revokes payload := by
  by_cases ho : payload.isObject = true
  swap
  · refine ⟨fun h => ?_, fun h => absurd h.isObject ho⟩
    rw [payloadConfirmsRevocation, if_pos (by simpa using ho)] at h
    cases h
  rw [payloadConfirmsRevocation, if_neg (by simp [ho])]
  simp only [Revokes, List.mem_cons, List.not_mem_nil, or_false, exists_eq_or_imp, exists_eq_left]
  split
  · rename_i h
    simp only [Option.isSome_some, true_iff]
    tauto
  · rename_i h
    split
    · rename_i h'
      simp only [Option.isSome_some, true_iff]
      tauto
    · rename_i h'
      simp only [Option.isSome_none, Bool.false_eq_true, false_iff]
      tauto

end Fields

/-! ## the answers that are read -/

section Read
variable (host : Host) (fetch : Fetch) (key : SecretKey) (grant : DecodedAccessGrant)

/-- the answer of the endpoint for verification. -/
def VerifyAnswer (baseUrl : String) (r : TowerResponse) : Prop :=
  towerBaseUrl grant = .ok baseUrl ∧ postVerify host fetch key
    (baseUrl ++ "/api/v4/access-grants/verify") (verifyBody grant [] []) = .ok r

/-- there is no endpoint for verification. -/
def WithoutEndpoint (baseUrl : String) : Prop :=
  ∃ r, VerifyAnswer host fetch key grant baseUrl r ∧ r.ok = false ∧ unavailable r = true

/-- the workspace has no `/me`, or it answers with an error that is not a refusal. -/
def SilentMe (baseUrl : String) : Prop :=
  ∃ me, fetchFlightDeckPgMe host fetch key grant baseUrl = .ok me ∧
    ∀ r ∈ me, r.ok = false ∧ r.status ∉ [403, 404, 410]

/-- the answer of a listing. -/
def Listing (baseUrl : String) (step : TowerStep) (path : String) (r : TowerResponse) : Prop :=
  fetchGrantPayloadJson host fetch key step (baseUrl ++ path) = .ok r

/-- The verification comes to the answer of a step and reads its payload. -/
inductive Read : TowerStep → Value → Prop where
  | verify {baseUrl : String} {r : TowerResponse} (h : VerifyAnswer host fetch key grant baseUrl r)
      (hok : r.ok = true) : Read .verify r.payload
  | me {baseUrl : String} {r : TowerResponse} (h : WithoutEndpoint host fetch key grant baseUrl)
      (hme : fetchFlightDeckPgMe host fetch key grant baseUrl = .ok (some r)) (hok : r.ok = true) :
      Read .flightDeckMe r.payload
  | workspaces {baseUrl : String} {r : TowerResponse}
      (h : WithoutEndpoint host fetch key grant baseUrl)
      (hme : SilentMe host fetch key grant baseUrl)
      (hr : Listing host fetch key baseUrl .workspaces
        ("/api/v4/workspaces?npub=" ++ host.encodeURIComponent grant.recipientNpub) r)
      (hok : r.ok = true) : Read .workspaces r.payload
  | groups {baseUrl : String} {r₀ r : TowerResponse}
      (h : WithoutEndpoint host fetch key grant baseUrl)
      (hme : SilentMe host fetch key grant baseUrl)
      (hr₀ : Listing host fetch key baseUrl .workspaces
        ("/api/v4/workspaces?npub=" ++ host.encodeURIComponent grant.recipientNpub) r₀)
      (hno : r₀.ok = true → ¬ListsGrant r₀.payload grant)
      (hr : Listing host fetch key baseUrl .groups
        ("/api/v4/groups?npub=" ++ host.encodeURIComponent grant.recipientNpub) r)
      (hok : r.ok = true) : Read .groups r.payload

/-- what makes the answer of a step admit the grant: a row in a listing, and elsewhere an affirmative
field beside the identities of the grant. -/
def Admits : TowerStep → Value → Prop
  | .workspaces, payload | .groups, payload => ListsGrant payload grant
  | _, payload => towerIdentityMatchesGrant payload grant = true ∧ Affirms payload

end Read

section Verify
variable {host : Host} {fetch : Fetch} {key : SecretKey} {grant : DecodedAccessGrant}
  {baseUrl : String} {payload : Value}

/-- a listing is searched after those before it did not have the workspace. -/
theorem searchListings_cons {step : TowerStep} {path : String} {rest : List (TowerStep × String)} :
    searchListings host fetch key grant baseUrl ((step, path) :: rest) = .ok payload ↔
      ∃ r, Listing host fetch key baseUrl step path r ∧
        (r.ok = true ∧ ListsGrant r.payload grant ∧ payload = r.payload ∨
          (r.ok = true → ¬ListsGrant r.payload grant) ∧
            searchListings host fetch key grant baseUrl rest = .ok payload) := by
  rw [searchListings, bind_ok]
  refine exists_congr fun r => and_congr_right fun _ => ?_
  simp only [← fallbackPayloadAllowsAccess_iff]
  split
  · rename_i h
    constructor
    · exact fun e => Or.inl ⟨h.1, h.2, (Except.ok.inj e).symm⟩
    · rintro (⟨-, -, rfl⟩ | ⟨hn, -⟩)
      · rfl
      · exact absurd h.2 (hn h.1)
  · rename_i h
    constructor
    · exact fun e => Or.inr ⟨fun hok hl => h ⟨hok, hl⟩, e⟩
    · rintro (⟨hok, hl, -⟩ | ⟨-, e⟩)
      · exact absurd ⟨hok, hl⟩ h
      · exact e

/-- without an endpoint, and with a `/me` that says nothing, the listings decide. -/
theorem searchListings_ok (h : WithoutEndpoint host fetch key grant baseUrl)
    (hme : SilentMe host fetch key grant baseUrl) :
    searchListings host fetch key grant baseUrl (listings host grant) = .ok payload →
      ∃ step, Read host fetch key grant step payload ∧ Admits grant step payload := by
  intro hs
  obtain ⟨r₀, hr₀, ⟨hok, hl, rfl⟩ | ⟨hno, hs⟩⟩ := searchListings_cons.mp hs
  · exact ⟨.workspaces, .workspaces h hme hr₀ hok, hl⟩
  obtain ⟨r, hr, ⟨hok, hl, rfl⟩ | ⟨-, hs⟩⟩ := searchListings_cons.mp hs
  · exact ⟨.groups, .groups h hme hr₀ hno hr hok, hl⟩
  · cases hs

theorem verifyWithoutEndpoint_silent (hme : SilentMe host fetch key grant baseUrl) :
    verifyWithoutEndpoint host fetch key grant baseUrl =
      searchListings host fetch key grant baseUrl (listings host grant) := by
  obtain ⟨me, hme, hsilent⟩ := hme
  rw [verifyWithoutEndpoint, hme]
  cases me with
  | none => rfl
  | some r =>
    obtain ⟨hok, hst⟩ := hsilent r rfl
    show (if r.ok = true then _ else if _ then _ else _) = _
    rw [if_neg (by simp [hok]), if_neg hst]

theorem verifyWithoutEndpoint_ok (h : WithoutEndpoint host fetch key grant baseUrl)
    (hv : verifyWithoutEndpoint host fetch key grant baseUrl = .ok payload) :
    ∃ step, Read host fetch key grant step payload ∧ Admits grant step payload := by
  obtain ⟨me, hme, -⟩ := bind_ok.mp hv
  by_cases hs : SilentMe host fetch key grant baseUrl
  · exact searchListings_ok h hs (verifyWithoutEndpoint_silent hs ▸ hv)
  rw [verifyWithoutEndpoint, hme] at hv
  cases me with
  | none => exact absurd ⟨none, hme, nofun⟩ hs
  | some r =>
    change (if r.ok = true then _ else if _ then _ else _) = _ at hv
    split at hv
    · rename_i hok
      split at hv
      · rename_i ha
        obtain rfl : r.payload = payload := Except.ok.inj hv
        exact ⟨.flightDeckMe, .me h hme hok, responseAllowsAccess_iff.mp ha⟩
      · cases hv
    · rename_i hok
      split at hv
      · cases hv
      · rename_i hst
        refine absurd ⟨some r, hme, fun r' hr' => ?_⟩ hs
        obtain rfl : r = r' := Option.some.inj hr'
        exact ⟨by simpa using hok, hst⟩

/-- **The verification succeeds with exactly the answers it reads that admit the grant.** -/
theorem verify_ok_iff : verifyAccessGrantWithTower host fetch key grant = .ok payload ↔
    ∃ step, Read host fetch key grant step payload ∧ Admits grant step payload := by
  -- at an endpoint that answers, the verification goes on as that answer says
  have unfold_verify : ∀ {baseUrl r}, VerifyAnswer host fetch key grant baseUrl r →
      verifyAccessGrantWithTower host fetch key grant =
        if r.ok then
          if responseAllowsAccess r.payload grant then .ok r.payload
          else .error (towerVerifyFailed "Tower verification did not confirm current access")
        else if unavailable r then verifyWithoutEndpoint host fetch key grant baseUrl
        else .error (towerVerifyFailed ("Tower verification failed with HTTP " ++
          toString r.status)) := by
    rintro baseUrl r ⟨hb, hr⟩
    rw [verifyAccessGrantWithTower, hb]
    show (postVerify _ _ _ _ _ >>= _) = _
    rw [hr]
    rfl
  have unfold_without : ∀ {baseUrl}, WithoutEndpoint host fetch key grant baseUrl →
      verifyAccessGrantWithTower host fetch key grant =
        verifyWithoutEndpoint host fetch key grant baseUrl := by
    rintro baseUrl ⟨r, hr, hok, hun⟩
    rw [unfold_verify hr, if_neg (by simp [hok]), if_pos hun]
  constructor
  · intro hv
    obtain ⟨baseUrl, hb, hv'⟩ := bind_ok.mp hv
    obtain ⟨r, hr, -⟩ := bind_ok.mp hv'
    have ha : VerifyAnswer host fetch key grant baseUrl r := ⟨hb, hr⟩
    rw [unfold_verify ha] at hv
    split at hv
    · rename_i hok
      split at hv
      · rename_i hallow
        obtain rfl : r.payload = payload := Except.ok.inj hv
        exact ⟨.verify, .verify ha hok, responseAllowsAccess_iff.mp hallow⟩
      · cases hv
    · rename_i hok
      split at hv
      · rename_i hun
        exact verifyWithoutEndpoint_ok ⟨r, ha, by simpa using hok, hun⟩ hv
      · cases hv
  · rintro ⟨step, hread, hadm⟩
    cases hread with
    | verify h hok => rw [unfold_verify h, if_pos hok, if_pos (responseAllowsAccess_iff.mpr hadm)]
    | @me baseUrl r h hme hok =>
      rw [unfold_without h, verifyWithoutEndpoint, hme]
      show (if r.ok = true then _ else _) = _
      rw [if_pos hok, if_pos (responseAllowsAccess_iff.mpr hadm)]
      rfl
    | workspaces h hme hr hok =>
      rw [unfold_without h, verifyWithoutEndpoint_silent hme]
      exact searchListings_cons.mpr ⟨_, hr, Or.inl ⟨hok, hadm, rfl⟩⟩
    | groups h hme hr₀ hno hr hok =>
      rw [unfold_without h, verifyWithoutEndpoint_silent hme]
      exact searchListings_cons.mpr ⟨_, hr₀, Or.inr ⟨hno,
        searchListings_cons.mpr ⟨_, hr, Or.inl ⟨hok, hadm, rfl⟩⟩⟩⟩

end Verify

/-! ## denials -/

section Denials
variable (host : Host) (fetch : Fetch) (key : SecretKey) (grant : DecodedAccessGrant)
  (payload : Value)

/-- No answer both allows access and confirms a revocation, and the verification does not succeed
with an answer that denies. -/
def DenialRespected : Prop :=
  ¬(responseAllowsAccess payload grant = true ∧ (payloadConfirmsRevocation payload).isSome = true) ∧
    ∀ answer, verifyAccessGrantWithTower host fetch key grant = .ok answer → ¬Denies answer

/-- The answers do not contradict themselves: what shows the identities of the grant has no
affirmative field beside a revocation, and no answer that is read denies beside what admits the
grant. -/
def Consistent : Prop :=
  (towerIdentityMatchesGrant payload grant = true → Affirms payload → ¬Revokes payload) ∧
    ∀ step answer, Read host fetch key grant step answer → Denies answer →
      ¬Admits grant step answer

/-- **A denial is respected exactly when no answer contradicts itself.** -/
theorem denialRespected_iff : DenialRespected host fetch key grant payload ↔
    Consistent host fetch key grant payload := by
  have hpayload : ¬(responseAllowsAccess payload grant = true ∧
      (payloadConfirmsRevocation payload).isSome = true) ↔
      (towerIdentityMatchesGrant payload grant = true → Affirms payload → ¬Revokes payload) := by
    rw [responseAllowsAccess_iff, payloadConfirmsRevocation_iff]
    tauto
  refine and_congr hpayload ⟨fun h step answer hread hden hadm => ?_, fun h answer hv hden => ?_⟩
  · exact h answer (verify_ok_iff.mpr ⟨step, hread, hadm⟩) hden
  · obtain ⟨step, hread, hadm⟩ := verify_ok_iff.mp hv
    exact h step answer hread hden hadm

end Denials

/-- a platform on which nothing can be decoded. -/
def bareHost : Host where
  verifyEvent _ := false
  nip19Decode _ := .error ⟨none, "invalid"⟩
  npubEncode hex := "npub1" ++ hex
  nip44Decrypt _ _ _ := none
  jsonParse _ := none
  dateParse _ := none
  url _ := none
  urlAt _ _ := none
  sha256 s := s
  base64Text _ := ""
  toText _ := ""
  toNumber := numberOf
  toNumber_num := numberOf_num
  encodeURIComponent s := s
  nip98 _ _ _ _ := "Nostr "

/-- a grant of a workspace. -/
def someGrant : DecodedAccessGrant where
  event := ⟨"event", "", 0, SBIP0009_ACCESS_GRANT_KIND, [], "", ""⟩
  payload := obj [("service", obj [("direct_https_url", str "https://tower.example.com")]),
    ("workspace", obj [])]
  recipientNpub := "npub1bot"
  recipientPubkeyHex := ""
  eventSignerNpub := "npub1issuer"
  issuerNpub := str "npub1issuer"
  serviceNpub := str "npub1service"
  workspaceServiceNpub := str "npub1workspace"
  workspaceOwnerNpub := str "npub1owner"
  appNpub := str "npub1app"
  grantId := str "grant"
  dedupeKey := "dedupe"
  canonicalConnectionKey := "connection"

/-- an answer that denies, and shows the membership that was revoked. -/
def contradictory : Value :=
  obj [("allowed", bool false), ("status", str "revoked"),
    ("membership", obj [("role", str "member")])]

/-- **An answer that denies verifies the grant**, and is a revocation as well. -/
theorem denial_not_respected :
    ¬DenialRespected bareHost (fun _ _ => .ok ⟨200, contradictory⟩) [] someGrant contradictory ∧
      verifyAccessGrantWithTower bareHost (fun _ _ => .ok ⟨200, contradictory⟩) [] someGrant =
        .ok contradictory ∧ Denies contradictory := by
  refine ⟨fun h => h.1 ⟨by decide, by decide⟩, ?_, Or.inl rfl⟩
  have hanswer : VerifyAnswer bareHost (fun _ _ => .ok ⟨200, contradictory⟩) [] someGrant
      "https://tower.example.com" ⟨200, contradictory⟩ := ⟨rfl, rfl⟩
  exact verify_ok_iff.mpr ⟨.verify, .verify hanswer rfl, by decide, Or.inr rfl⟩

end AccessGrants
end WmAutopilot
