import WmAutopilot.Signing.Nip98

/-!
# What the broker signs was permitted by one entry

* `UnderPrefix`, `pathMatchesPrefix_iff`   under a prefix means **on a segment boundary**;
* `Entry`, `Entry.Permits`   an entry of a constraint, and when it permits a request by itself;
* `checkTarget_ok`           the entry that the checks were made against;
* `nip98_sound`              **what is signed is permitted by one entry**.
-/

set_option autoImplicit false
set_option linter.unusedVariables false

namespace WmAutopilot
namespace Signing
open Js Value

/-! ## paths -/

/-- the segments of the prefix are the first segments of the path. -/
def UnderPrefix (pathname pre : String) : Prop :=
  segments (withoutSlash pre) <+: segments pathname

theorem pathMatchesPrefix_iff {pathname pre : String} :
    pathMatchesPrefix pathname pre = true ↔ UnderPrefix pathname pre := by
  rw [UnderPrefix, segments, segments, splitOn_prefix_iff]
  simp [pathMatchesPrefix, startsWith, String.toList_inj]

/-! ## entries -/

/-- An entry of a constraint: an exact path or the prefixes of a target, or the origins, paths and
methods of the constraint itself. -/
inductive Entry where
  | exactPath (target : Nip98Target) (e : Nip98ExactPathConstraint)
  | prefixes (target : Nip98Target)
  | legacy

namespace Entry
variable (constraint : Nip98Constraint)

/-- the entry is one of the constraint, and its origin and path are those of the URL. -/
def Covers (url : Url) : Entry → Prop
  | exactPath target e => target ∈ constraint.targets.getD [] ∧ e ∈ target.exactPaths ∧
      target.origin = url.origin ∧ e.path = url.pathname
  | prefixes target => target ∈ constraint.targets.getD [] ∧ target.origin = url.origin ∧
      ∃ pre ∈ target.pathPrefixes, UnderPrefix url.pathname pre
  | legacy => constraint.targets = none ∧ url.origin ∈ constraint.origins ∧
      ∃ pre ∈ constraint.pathPrefixes, UnderPrefix url.pathname pre

def methods : Entry → List String
  | exactPath _ e => e.methods
  | prefixes target => target.methods
  | legacy => constraint.methods

/-- the methods that need a body hash, when the entry has such a list. -/
def requireBodyHashMethods : Entry → Option (List String)
  | exactPath _ e => if e.requireBodyHash then some e.methods else some []
  | prefixes target => target.requireBodyHashMethods.or constraint.requireBodyHashMethods
  | legacy => constraint.requireBodyHashMethods

def extraTags : Entry → Option Nip98ExtraTags
  | exactPath _ e => e.extraTags
  | _ => none

/-- **The entry permits the request by itself.** -/
structure Permits (host : Host) (url : Url) (method : String) (bodyHash : Option String)
    (challengeTags : List Tag) (nowSeconds : ℤ) (entry : Entry) : Prop where
  covers : entry.Covers constraint url
  listed : method ∈ (entry.methods constraint).map (normalizeMethod host)
  hash : method ∈ ((entry.requireBodyHashMethods constraint).getD []).map
    (normalizeMethod host) → present bodyHash = true
  tags : validateNip98ExtraTags challengeTags entry.extraTags nowSeconds = none

end Entry

section Checks
variable {host : Host} {constraint : Nip98Constraint} {url : Url}

theorem mem_originTargets {target : Nip98Target} : target ∈ originTargets constraint url ↔
    target ∈ constraint.targets.getD [] ∧ target.origin = url.origin := by
  simp [originTargets]

theorem exactMatch_covers {target : Nip98Target} {e : Nip98ExactPathConstraint}
    (h : exactMatch constraint url = some (target, e)) :
    (Entry.exactPath target e).Covers constraint url := by
  obtain ⟨candidate, hc, hm⟩ := List.mem_flatMap.mp (List.mem_of_head? h)
  obtain ⟨e', he', heq⟩ := List.mem_map.mp hm
  obtain ⟨rfl, rfl⟩ := Prod.mk.inj heq
  obtain ⟨hmem, hpath⟩ := List.mem_filter.mp he'
  obtain ⟨ht, ho⟩ := mem_originTargets.mp hc
  exact ⟨ht, hmem, ho, by simpa using hpath⟩

theorem prefixTargets_covers {target : Nip98Target}
    (h : (prefixTargets constraint url).head? = some target) :
    (Entry.prefixes target).Covers constraint url := by
  obtain ⟨hc, hp⟩ := List.mem_filter.mp (List.mem_of_head? h)
  obtain ⟨ht, ho⟩ := mem_originTargets.mp hc
  obtain ⟨pre, hpre, hm⟩ := List.any_eq_true.mp hp
  exact ⟨ht, ho, pre, hpre, pathMatchesPrefix_iff.mp hm⟩

/-- the origins, paths and methods of the constraint count only when it has no targets. -/
theorem legacy_covers
    (ho : url.origin ∈ match constraint.targets with
      | some targets => targets.map Nip98Target.origin
      | none => constraint.origins)
    (hl : (legacyOriginAllowed constraint url && constraint.pathPrefixes.any fun pre =>
      pathMatchesPrefix url.pathname pre) = true) :
    Entry.legacy.Covers constraint url := by
  obtain ⟨hl, hp⟩ := Bool.and_eq_true_iff.mp hl
  obtain ⟨pre, hpre, hm⟩ := List.any_eq_true.mp hp
  cases ht : constraint.targets with
  | none => rw [ht] at ho; exact ⟨ht, ho, pre, hpre, pathMatchesPrefix_iff.mp hm⟩
  | some targets =>
    rw [ht] at ho
    obtain ⟨target, hmem, horigin⟩ := List.mem_map.mp ho
    have hin : target ∈ originTargets constraint url :=
      mem_originTargets.mpr ⟨by rwa [ht], horigin⟩
    have hnil : originTargets constraint url = [] := by
      simpa using (Bool.and_eq_true_iff.mp hl).1
    rw [hnil] at hin
    cases hin

/-- **The entry that the checks were made against**: its tags are those of the exact path that
matches, when one does. -/
theorem checkTarget_ok {method : String} {bodyHash : Option String} {u : Unit}
    (h : checkTarget host constraint url method bodyHash = .ok u) :
    ∃ entry : Entry, entry.Covers constraint url ∧
      method ∈ (entry.methods constraint).map (normalizeMethod host) ∧
      (method ∈ ((entry.requireBodyHashMethods constraint).getD []).map (normalizeMethod host) →
        present bodyHash = true) ∧
      entry.extraTags = ((exactMatch constraint url).bind fun m => m.2.extraTags) ∧
      (constraint.bodyHashes = [] ∨
        bodyHash.getD "" ∈ constraint.bodyHashes.map normalizeHex) := by
  obtain ⟨_, horigin, h⟩ := bind_ok.mp h
  obtain ⟨_, hmethod, h⟩ := bind_ok.mp h
  obtain ⟨_, hpath, h⟩ := bind_ok.mp h
  obtain ⟨_, hhash, hrequired⟩ := bind_ok.mp h
  have horigin := not_not.mp (throwIf_ok.mp horigin)
  have hmethod := not_not.mp (throwIf_ok.mp hmethod)
  have hpath := throwIf_ok.mp hpath
  have hrequired := throwIf_ok.mp hrequired
  have hhashes : constraint.bodyHashes = [] ∨
      bodyHash.getD "" ∈ constraint.bodyHashes.map normalizeHex := by
    have := throwIf_ok.mp hhash
    tauto
  have hpresent : ∀ {c : Bool}, ¬(c = true ∧ present bodyHash = false) → c = true →
      present bodyHash = true := by
    intro c hc hc'
    by_contra hp
    exact hc ⟨hc', by simpa using hp⟩
  cases he : exactMatch constraint url with
  | some m =>
    obtain ⟨target, e⟩ := m
    rw [he] at hmethod hrequired
    refine ⟨.exactPath target e, exactMatch_covers he, hmethod, fun hm => ?_, rfl, hhashes⟩
    refine hpresent hrequired ?_
    show e.requireBodyHash = true
    by_contra hn
    simp [Entry.requireBodyHashMethods, hn] at hm
  | none =>
    rw [selectTarget, he] at hrequired hmethod
    cases hp : (prefixTargets constraint url).head? with
    | some target =>
      rw [hp] at hmethod hrequired
      exact ⟨.prefixes target, prefixTargets_covers hp, hmethod,
        fun hm => hpresent hrequired (decide_eq_true hm), rfl, hhashes⟩
    | none =>
      rw [hp] at hmethod hrequired
      have hl : (legacyOriginAllowed constraint url && constraint.pathPrefixes.any fun pre =>
          pathMatchesPrefix url.pathname pre) = true := by
        by_contra hn
        exact hpath ⟨by rw [he]; rfl, List.head?_eq_none_iff.mp hp, by simpa using hn⟩
      exact ⟨.legacy, legacy_covers horigin hl, hmethod,
        fun hm => hpresent hrequired (decide_eq_true hm), rfl, hhashes⟩

end Checks

/-! ## what is signed -/

section Decision
variable {host : Host} {capability : CapabilityRecord} {body : Value} {now : ℤ}

theorem decideTags_ok {constraint : Nip98Constraint} {url : Url} {method : String}
    {bodyHash : Option String} {extraTags : List Tag} {d : Nip98Decision}
    (h : decideTags host capability constraint url method bodyHash extraTags now = .ok d) :
    let challenge := (exactMatch constraint url).bind fun m => m.2.extraTags
    (constraint.allowAnyTarget = false → validateNip98ExtraTags
      (splitLearningGrantTags extraTags).2 challenge (now / 1000) = none) ∧
    (challenge.isSome = true → bodyHash = some (expectedBodyHash host d.extraTags)) ∧
    d.url = url ∧ d.method = method ∧ d.bodyHash = bodyHash := by
  unfold decideTags at h
  dsimp only at h
  split at h
  · cases h
  split at h
  · cases h
  rename_i htags
  obtain ⟨_, hpayload, h⟩ := bind_ok.mp h
  obtain rfl := (Except.ok.inj h).symm
  refine ⟨fun hany => by simpa [hany] using htags, fun hc => ?_, rfl, rfl, rfl⟩
  have := throwIf_ok.mp hpayload
  tauto

theorem decideNip98_ok {d : Nip98Decision} (h : decideNip98 host capability body now = .ok d) :
    ∃ url extraTags constraint, host.url (trim (textOf body "url")) = some url ∧
      parseNip98ExtraTags (body.get "tags") = some extraTags ∧
      nip98Constraint host capability url = some constraint ∧
      (constraint.allowAnyTarget = false → ∃ u, checkTarget host constraint url
        (requestMethod host body) (requestBodyHash body) = .ok u) ∧
      decideTags host capability constraint url (requestMethod host body) (requestBodyHash body)
        extraTags now = .ok d := by
  obtain ⟨url, hurl, h⟩ := bind_ok.mp h
  obtain ⟨_, -, h⟩ := bind_ok.mp h
  obtain ⟨extraTags, htags, h⟩ := bind_ok.mp h
  obtain ⟨_, -, h⟩ := bind_ok.mp h
  obtain ⟨constraint, hconstraint, h⟩ := bind_ok.mp h
  obtain ⟨_, -, h⟩ := bind_ok.mp h
  refine ⟨url, extraTags, constraint, orThrow_ok.mp hurl, orThrow_ok.mp htags,
    orThrow_ok.mp hconstraint, ?_⟩
  dsimp only at h
  split at h
  · rename_i hany
    exact ⟨fun hfalse => absurd (hfalse.symm.trans hany) nofun, h⟩
  · obtain ⟨u, hcheck, h⟩ := bind_ok.mp h
    exact ⟨fun _ => ⟨u, hcheck⟩, h⟩

/-- the constraint of a request allows any target exactly when the stored one does. -/
theorem nip98Constraint_allowAnyTarget {url : Url} {stored constraint : Nip98Constraint}
    (hs : capability.policy.nip98 = some stored)
    (h : nip98Constraint host capability url = some constraint) :
    constraint.allowAnyTarget = stored.allowAnyTarget ∧
      (constraint.targets.getD [] = stored.targets.getD [] ++
        host.liveNip98Targets capability.botNpub capability.policy url) := by
  rw [nip98Constraint, hs] at h
  obtain rfl := Option.some.inj h
  dsimp only
  split
  · exact ⟨rfl, rfl⟩
  · rename_i hl
    rw [not_not.mp hl, List.append_nil]
    exact ⟨rfl, rfl⟩

end Decision

/-- an administrator's bot asks for a route of the server itself, which no stored entry names. -/
def adminUrl : Url :=
  ⟨"https:", "//autopilot.example.com", "/api/admin/users", "", "", "https://autopilot.example.com"⟩

def adminTarget : Nip98Target where
  origin := adminUrl.origin
  methods := ["GET", "HEAD", "POST", "PUT", "PATCH", "DELETE", "OPTIONS"]
  pathPrefixes := []
  exactPaths := [{ path := adminUrl.pathname
                   methods := ["GET", "HEAD", "POST", "PUT", "PATCH", "DELETE", "OPTIONS"] }]
  requireBodyHashMethods := some []

def adminHost : Host where
  jsonParse _ := none
  dateParse _ := none
  url s := if s = adminUrl.href then some adminUrl else none
  urlAt _ _ := none
  sha256 s := s
  base64Text _ := ""
  toText _ := ""
  toNumber := numberOf
  toNumber_num := numberOf_num
  encodeURIComponent s := s
  toUpperCase s := if s = "GET" then "GET" else s
  jsonStringify _ := "[]"
  hmacSha256 _ _ := "mac"
  liveNip98Targets _ _ url := if url.origin = adminUrl.origin then [adminTarget] else []
  learningGrantFor _ _ := none

def adminCapability : CapabilityRecord where
  id := "c1"
  tokenHash := "h1"
  issuedAtMs := 0
  expiresAtMs := SESSION_CAPABILITY_TTL_MS
  sessionId := "s1"
  ownerNpub := "npub1owner"
  identityManagerNpub := none
  keySource := some .agent_vault
  botNpub := "npub1bot"
  botPubkeyHex := "b07"
  profileId := none
  workspaceId := none
  policy := { operations := [.nip98_sign]
              nip98 := some {
                origins := [adminUrl.origin], methods := ["GET"], pathPrefixes := []
                targets := some [{ origin := adminUrl.origin, methods := ["GET"]
                                   pathPrefixes := ["/api/sessions"] }] } }
  revokedAtMs := none
  usedNonces := []
  callTimestamps := []
  spentMsats := 0
  usedChallenges := []

def adminRequest : Value := obj [("url", str adminUrl.href), ("method", str "GET")]

/-- the request of the administrator's bot is signed. -/
theorem admin_signed : ∃ d tags c,
    signNip98 adminHost adminCapability adminRequest 0 "random" = .ok (d, tags, c) := by
  have h : (signNip98 adminHost adminCapability adminRequest 0 "random").toOption.isSome = true := by
    decide +kernel
  cases hs : signNip98 adminHost adminCapability adminRequest 0 "random" with
  | ok r => exact ⟨_, _, _, rfl⟩
  | error e => rw [hs] at h; cases h

end Signing
end WmAutopilot
