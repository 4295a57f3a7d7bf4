import WmAutopilot.Js.Regex
import WmAutopilot.Js.Sorted
import WmAutopilot.Signing.NostrKindPolicy
import WmAutopilot.Signing.Policy

/-!
# Drafts of signing policies

* `SigningPolicyDraft`            what an administrator writes;
* `validateSigningPolicyDraft`    the checks, and the normal form that is kept;
* `ruleValue`                     a kind rule as it stands in the file of the store;
* `validate_again`                a normal form that is checked again comes back unchanged.

A draft has the declared types; what a body of other types does is `malformed`, an error.
-/

set_option autoImplicit false

namespace WmAutopilot
namespace Signing
namespace Policies
open Js Value

/-! ## the data -/

structure SigningPolicyAssignment where
  profileIds : List String
  workspaceIds : List String
  deriving DecidableEq, Repr

/-- `SigningPolicyNip98Target["challenge"]`; `omitSessionBinding` is `true`. -/
structure Challenge where
  allowedTags : List Nip98ExtraTagRule
  requiredTags : List ExtraTagName
  deriving DecidableEq, Repr

structure SigningPolicyNip98Target where
  origin : String
  methods : List String
  exactPaths : List String
  pathPrefixes : List String
  requireBodyHash : Bool
  challenge : Option Challenge := none
  deriving DecidableEq, Repr

structure SigningPolicyDraft where
  id : String
  name : String
  description : String
  enabled : Bool
  operations : List String
  eventKinds : List ℤ
  nostrKindRules : List NostrKindConstraint
  nip98Targets : List SigningPolicyNip98Target
  assignments : SigningPolicyAssignment
  deriving DecidableEq, Repr

/-- the parts of a URL that are looked at. -/
structure PolicyUrl where
  protocol : String
  origin : String
  username : String
  password : String
  pathname : String

/-- What is used of the platform. -/
structure PolicyHost where
  /-- `new URL(value)` -/
  url : String → Option PolicyUrl
  /-- `nip19.decode` gives an npub that is encoded as it was. -/
  isNpub : String → Bool
  /-- `left.localeCompare(right) <= 0` -/
  le : String → String → Bool
  le_total : ∀ left right, le left right = true ∨ le right left = true
  le_trans : ∀ a b c, le a b = true → le b c = true → le a c = true
  /-- `value.toUpperCase()` -/
  toUpperCase : String → String
  toUpperCase_method : ∀ method ∈ ["GET", "POST", "PUT", "PATCH", "DELETE"],
    toUpperCase method = method

/-- `BROKER_OPERATIONS` -/
def BROKER_OPERATIONS : List String :=
  ["identity.read", "capability.refresh", "nip98.sign", "nostr.sign", "nip44.encrypt",
    "nip44.decrypt", "blossom.authorize", "wallet.read", "wallet.spend"]

def HTTP_METHODS : List String := ["GET", "POST", "PUT", "PATCH", "DELETE"]

def MUTATING_METHODS : List String := ["POST", "PUT", "PATCH", "DELETE"]

def CHALLENGE_TAGS : List ExtraTagName := [.nonce, .aud, .expiration]

def DEFAULT_AGENT_NOSTR_EVENT_KINDS : List ℤ :=
  [0, 1, 3, 4, 7, 3063, 10002, 24242, 30063, 30078, 32267, 33358]

/-- `value.length` -/
def textLength (s : String) : ℕ := (s.toList.map Regex.units).foldl (· + ·) 0

/-! ## the checks -/

section
variable (host : PolicyHost)

/-- `left.localeCompare(right) <= 0` -/
def Collated (left right : String) : Prop := host.le left right = true

instance : DecidableRel (Collated host) := fun left right =>
  inferInstanceAs (Decidable (host.le left right = true))

instance : Std.Total (Collated host) := ⟨host.le_total⟩

instance : IsTrans String (Collated host) := ⟨host.le_trans⟩

/-- `/^http:\/\/(npub1[…]{58})\.fips:([1-9][0-9]{0,4})$/`: the npub and the port. -/
def fipsParts (value : String) : Option (String × String) :=
  let isBech32 c := "023456789acdefghjklmnpqrstuvwxyz".toList.any fun known => decide (known = c)
  let rest := value.toList.drop 7
  let npub := rest.take 63
  let port := (rest.drop 63).drop 6
  if value.toList.take 7 = "http://".toList ∧ npub.take 5 = "npub1".toList ∧ npub.length = 63 ∧
      (npub.drop 5).all isBech32 = true ∧ (rest.drop 63).take 6 = ".fips:".toList ∧
      port ≠ [] ∧ port.length ≤ 5 ∧ port.head? ≠ some '0' ∧ port.all Regex.isDigit = true then
    some (String.ofList npub, String.ofList port)
  else none

/-- `Number(digits)` -/
def decimal (digits : String) : ℕ :=
  digits.toList.foldl (fun n c => 10 * n + (c.toNat - '0'.toNat)) 0

def isCanonicalFipsOrigin (value : String) : Bool :=
  match fipsParts value with
  | none => false
  | some (npub, port) => decide (decimal port ≤ 65535) && host.isNpub npub

def normalizeOrigin (value : String) : Except String String := do
  let parsed ← orThrow "NIP-98 origin must be a valid absolute URL" (host.url value)
  throwIf (parsed.protocol ≠ "https:" ∧ isCanonicalFipsOrigin host value = false ∨
      parsed.origin ≠ value ∨ parsed.username ≠ "" ∨ parsed.password ≠ "" ∨
      includes value "*" = true)
    ("Custom NIP-98 origins must be exact HTTPS origins or canonical lowercase " ++
      "http://<checksummed-npub>.fips:<port> origins (port 1-65535 except 80, no leading zeros), " ++
      "without wildcards, credentials, paths, queries, or fragments")
  pure parsed.origin

def normalizePath (field value : String) : Except String String := do
  throwIf (startsWith value "/" = false ∨ includes value "?" = true ∨ includes value "#" = true ∨
      includes value "*" = true)
    (field ++ " must be an exact absolute path without wildcards, query, or fragment")
  let normalized := if 1 < textLength value then stripSlashes value else value
  throwIf (normalized ∈ ["/", "/api", "/api/v4"]) (field ++ " is overbroad")
  pure normalized

/-- `normalize` of `validateAssignments` -/
def normalizeIds (label : String) (items : List String) : Except String (List String) := do
  let trimmed ← items.mapM fun item => do
    throwIf (trim item = "" ∨ 200 < textLength item) (label ++ " contains an invalid ID")
    pure (trim item)
  pure (sortedUnique (Collated host) trimmed)

def validateAssignments (value : SigningPolicyAssignment) :
    Except String SigningPolicyAssignment := do
  let profileIds ← normalizeIds host "profileIds" value.profileIds
  let workspaceIds ← normalizeIds host "workspaceIds" value.workspaceIds
  pure { profileIds, workspaceIds }

/-- a rule of `allowedTags`. -/
def checkTagRule (rule : Nip98ExtraTagRule) : Except String Unit := do
  let expectedType := if rule.name = .expiration then ExtraTagValueType.unix_timestamp
    else ExtraTagValueType.non_empty
  throwIf (rule.valueType ≠ expectedType) ("Invalid " ++ rule.name.text ++ " value rule")
  throwIf (rule.maxLength < 1 ∨ 512 < rule.maxLength)
    ("Invalid " ++ rule.name.text ++ " maximum length")
  if rule.name = .expiration then
    throwIf (rule.maxFutureSeconds.all fun seconds => decide (seconds < 1 ∨ 60 < seconds))
      "Challenge expiration window must be between 1 and 60 seconds"
  else
    throwIf (rule.maxFutureSeconds.isSome = true) "Only expiration may define maxFutureSeconds"

/-- the sorted names of tags, joined. -/
def joinedNames (names : List ExtraTagName) : String :=
  String.intercalate "," (sortedUnique (Collated host) (names.map (·.text)))

def validateChallenge (challenge : Challenge) : Except String Unit := do
  let names := challenge.allowedTags.map (·.name)
  throwIf (¬names.Nodup ∨ joinedNames host names ≠ "aud,expiration,nonce")
    "Challenge policies may allow only nonce, aud, and expiration exactly once"
  throwIf (joinedNames host challenge.requiredTags ≠ "aud,expiration,nonce")
    "Challenge policies must require nonce, aud, and expiration"
  challenge.allowedTags.forM checkTagRule

/-- a target. -/
def validateTarget (target : SigningPolicyNip98Target) :
    Except String SigningPolicyNip98Target := do
  let origin ← normalizeOrigin host target.origin
  throwIf (target.methods = []) "NIP-98 target methods are required"
  let upper ← target.methods.mapM fun method => do
    let normalized := host.toUpperCase (trim method)
    throwIf (normalized ∉ HTTP_METHODS) ("Unsafe or unknown HTTP method: " ++ normalized)
    pure normalized
  let methods := sortedUnique (Collated host) upper
  let exact ← target.exactPaths.mapM (normalizePath "exactPaths")
  let exactPaths := sortedUnique (Collated host) exact
  let pathStarts ← target.pathPrefixes.mapM (normalizePath "pathPrefixes")
  let pathPrefixes := sortedUnique (Collated host) pathStarts
  throwIf (exactPaths.length + pathPrefixes.length = 0)
    "NIP-98 target requires an exact path or path prefix"
  throwIf ((∃ method ∈ methods, method ∈ MUTATING_METHODS) ∧ target.requireBodyHash = false)
    "Mutating custom NIP-98 targets must require a payload hash"
  target.challenge.toList.forM (validateChallenge host)
  throwIf (target.challenge.isSome = true ∧ (methods ≠ ["POST"] ∨ exactPaths.length ≠ 1 ∨
      pathPrefixes ≠ [] ∨ (∃ path ∈ exactPaths,
        ¬"/authorize/complete".toList <:+ path.toList) ∨ target.requireBodyHash = false))
    ("Forgejo challenge targets require one exact /authorize/complete path, POST, and a " ++
      "payload hash")
  pure { target with origin, methods, exactPaths, pathPrefixes }

/-- the keys of the paths of a target. -/
def targetKeys (target : SigningPolicyNip98Target) : List String :=
  target.exactPaths.map (target.origin ++ "|exact|" ++ ·) ++
    target.pathPrefixes.map (target.origin ++ "|prefix|" ++ ·)

/-- `/^[a-z][a-z0-9-]{2,63}$/` -/
def isPolicyId (id : String) : Bool :=
  let inside (c : Char) : Bool := ('a' ≤ c && c ≤ 'z') || ('0' ≤ c && c ≤ '9') || c == '-'
  (id.toList.head?.any fun c => 'a' ≤ c && c ≤ 'z') && id.toList.all inside &&
    3 ≤ id.toList.length && id.toList.length ≤ 64

/-- the JSON of a list of texts. -/
def textsValue (texts : List String) : Value := arr (texts.map str)

/-- the JSON of a kind rule. -/
def ruleValue (rule : NostrKindConstraint) : Value :=
  obj ([("kind", num rule.kind), ("maxContentBytes", num rule.maxContentBytes),
      ("maxTags", num rule.maxTags), ("maxTagBytes", num rule.maxTagBytes),
      ("allowedTagNames", textsValue rule.allowedTagNames),
      ("requiredTags", arr (rule.requiredTags.map fun pair => arr [str pair.1, str pair.2]))] ++
    rule.exactTags.toList.map fun tags => ("exactTags", arr (tags.map textsValue)))

/-- `validateSigningPolicyDraft` -/
def validateSigningPolicyDraft (input : SigningPolicyDraft) : Except String SigningPolicyDraft := do
  let id := trim input.id
  throwIf (isPolicyId id = false)
    "Policy ID must be 3-64 lowercase letters, numbers, or hyphens"
  let name := trim input.name
  let description := trim input.description
  throwIf (name = "" ∨ 100 < textLength name)
    "Policy name is required and must be at most 100 characters"
  throwIf (description = "" ∨ 1000 < textLength description)
    "Policy description is required and must be at most 1000 characters"
  throwIf (input.operations = []) "At least one broker operation is required"
  let known ← input.operations.mapM fun operation => do
    throwIf (operation ∉ BROKER_OPERATIONS) ("Unknown broker operation: " ++ operation)
    pure operation
  let operations := sortedUnique (Collated host) known
  throwIf (∃ operation ∈ operations, operation ∉ ["nip98.sign", "nostr.sign"])
    "Custom policies may add only constrained NIP-98 or Nostr signing authority"
  throwIf (input.eventKinds = [] ∨ ∃ kind ∈ input.eventKinds, kind < 0 ∨ 65535 < kind)
    "eventKinds must contain valid non-negative integer kinds"
  let eventKinds := sortedUnique (fun left right : ℤ => left ≤ right) input.eventKinds
  throwIf ("nostr.sign" ∈ operations ∧ 27235 ∈ eventKinds)
    "Generic Nostr policies cannot add kind 27235"
  throwIf ("nip98.sign" ∈ operations ∧ 27235 ∉ eventKinds)
    "NIP-98 policies must declare event kind 27235"
  throwIf ("nip98.sign" ∈ operations ∧ "nostr.sign" ∉ operations ∧ eventKinds ≠ [27235])
    "Dedicated NIP-98 policies may declare only event kind 27235"
  let customKinds := if "nostr.sign" ∈ operations then
    eventKinds.filter (· ∉ DEFAULT_AGENT_NOSTR_EVENT_KINDS) else []
  let nostrKindRules ← normalizeNostrKindRules (arr (input.nostrKindRules.map ruleValue)) customKinds
  throwIf (decide ("nip98.sign" ∈ operations) ≠ decide (0 < input.nip98Targets.length))
    "NIP-98 policies require targets and non-NIP-98 policies cannot define them"
  let nip98Targets ← input.nip98Targets.mapM (validateTarget host)
  throwIf (¬(nip98Targets.flatMap targetKeys).Nodup)
    "Signing policy contains duplicate NIP-98 targets"
  let assignments ← validateAssignments host input.assignments
  pure { id, name, description, enabled := input.enabled, operations, eventKinds, nostrKindRules,
         nip98Targets, assignments }

end

/-! ## a normal form that is read again -/

section
variable {α : Type} {f : α → Except String α} {host : PolicyHost}

/-- when no element changes, the list does not. -/
theorem mapM_same {xs ys : List α} (hf : ∀ x ∈ xs, ∀ y, f x = .ok y → y = x)
    (h : xs.mapM f = .ok ys) : ys = xs := by
  induction xs generalizing ys with
  | nil =>
    cases h
    rfl
  | cons x xs ih =>
    rw [List.mapM_cons] at h
    obtain ⟨y, hy, h⟩ := bind_ok.mp h
    obtain ⟨ys', hys', h⟩ := bind_ok.mp h
    cases h
    rw [hf x List.mem_cons_self y hy,
      ih (fun x' hx' => hf x' (List.mem_cons_of_mem _ hx')) hys']

/-- texts that were normalised, sorted and then normalised again. -/
theorem mapM_sorted_again {f : String → Except String String} {xs ys zs : List String}
    (hf : ∀ x y z, f x = .ok y → f y = .ok z → z = y) (h : xs.mapM f = .ok ys)
    (h' : (sortedUnique (Collated host) ys).mapM f = .ok zs) :
    sortedUnique (Collated host) zs = sortedUnique (Collated host) ys := by
  have hsame : zs = sortedUnique (Collated host) ys := by
    refine mapM_same (fun y hy z hz => ?_) h'
    obtain ⟨x, -, hx⟩ := mem_of_mapM_ok h y (mem_sortedUnique.mp hy)
    exact hf x y z hx hz
  rw [hsame, sortedUnique_idem]

theorem stripSlashes_idem (s : String) : stripSlashes (stripSlashes s) = stripSlashes s := by
  unfold stripSlashes
  rw [String.toList_ofList, List.rdropWhile_idempotent]

theorem normalizePath_ok {field value path : String} (h : normalizePath field value = .ok path) :
    path = if 1 < textLength value then stripSlashes value else value := by
  unfold normalizePath at h
  obtain ⟨_, -, h⟩ := bind_ok.mp h
  obtain ⟨_, -, h⟩ := bind_ok.mp h
  cases h
  rfl

theorem normalizePath_again {field value path path' : String}
    (h : normalizePath field value = .ok path) (h' : normalizePath field path = .ok path') :
    path' = path := by
  rw [normalizePath_ok h']
  split
  · rename_i hlong
    rw [normalizePath_ok h] at hlong ⊢
    split
    · exact stripSlashes_idem value
    · rename_i hshort
      rw [if_neg hshort] at hlong
      exact absurd hlong hshort
  · rfl

theorem normalizeOrigin_ok {value origin : String} (h : normalizeOrigin host value = .ok origin) :
    origin = value := by
  unfold normalizeOrigin at h
  obtain ⟨parsed, -, h⟩ := bind_ok.mp h
  obtain ⟨_, hguard, h⟩ := bind_ok.mp h
  cases h
  have hguard' := throwIf_ok.mp hguard
  simp only [not_or, not_not] at hguard'
  exact hguard'.2.1

theorem normalizeIds_again {label : String} {items ids ids' : List String}
    (h : normalizeIds host label items = .ok ids) (h' : normalizeIds host label ids = .ok ids') :
    ids' = ids := by
  unfold normalizeIds at h h'
  obtain ⟨trimmed, htrimmed, h⟩ := bind_ok.mp h
  cases h
  obtain ⟨trimmed', htrimmed', h'⟩ := bind_ok.mp h'
  cases h'
  refine mapM_sorted_again (fun x y z hy hz => ?_) htrimmed htrimmed'
  obtain ⟨_, -, hy⟩ := bind_ok.mp hy
  obtain ⟨_, -, hz⟩ := bind_ok.mp hz
  rw [← Except.ok.inj hz, ← Except.ok.inj hy]
  exact trim_trim x

theorem validateAssignments_again {value value' value'' : SigningPolicyAssignment}
    (h : validateAssignments host value = .ok value')
    (h' : validateAssignments host value' = .ok value'') : value'' = value' := by
  unfold validateAssignments at h h'
  obtain ⟨profileIds, hprofiles, h⟩ := bind_ok.mp h
  obtain ⟨workspaceIds, hworkspaces, h⟩ := bind_ok.mp h
  cases h
  obtain ⟨profileIds', hprofiles', h'⟩ := bind_ok.mp h'
  obtain ⟨workspaceIds', hworkspaces', h'⟩ := bind_ok.mp h'
  cases h'
  rw [normalizeIds_again hprofiles hprofiles', normalizeIds_again hworkspaces hworkspaces']

/-- a method that was accepted has no blanks around it and stands in capitals. -/
theorem method_again {method : String} (h : method ∈ HTTP_METHODS) :
    host.toUpperCase (trim method) = method := by
  have htrim : trim method = method := by
    have hall : ∀ m ∈ HTTP_METHODS, trim m = m := by decide +kernel
    exact hall method h
  rw [htrim, host.toUpperCase_method method h]

theorem validateTarget_again {target target' target'' : SigningPolicyNip98Target}
    (h : validateTarget host target = .ok target')
    (h' : validateTarget host target' = .ok target'') : target'' = target' := by
  unfold validateTarget at h
  obtain ⟨origin, -, h⟩ := bind_ok.mp h
  obtain ⟨_, -, h⟩ := bind_ok.mp h
  obtain ⟨upper, hupper, h⟩ := bind_ok.mp h
  obtain ⟨exact, hexact, h⟩ := bind_ok.mp h
  obtain ⟨starts, hstarts, h⟩ := bind_ok.mp h
  obtain ⟨_, -, h⟩ := bind_ok.mp h
  obtain ⟨_, -, h⟩ := bind_ok.mp h
  obtain ⟨_, -, h⟩ := bind_ok.mp h
  obtain ⟨_, -, h⟩ := bind_ok.mp h
  cases h
  unfold validateTarget at h'
  obtain ⟨origin', horigin', h'⟩ := bind_ok.mp h'
  obtain ⟨_, -, h'⟩ := bind_ok.mp h'
  obtain ⟨upper', hupper', h'⟩ := bind_ok.mp h'
  obtain ⟨exact', hexact', h'⟩ := bind_ok.mp h'
  obtain ⟨starts', hstarts', h'⟩ := bind_ok.mp h'
  obtain ⟨_, -, h'⟩ := bind_ok.mp h'
  obtain ⟨_, -, h'⟩ := bind_ok.mp h'
  obtain ⟨_, -, h'⟩ := bind_ok.mp h'
  obtain ⟨_, -, h'⟩ := bind_ok.mp h'
  cases h'
  have hmethods : sortedUnique (Collated host) upper' = sortedUnique (Collated host) upper := by
    refine mapM_sorted_again (fun x y z hy hz => ?_) hupper hupper'
    obtain ⟨_, hguard, hy⟩ := bind_ok.mp hy
    obtain ⟨_, -, hz⟩ := bind_ok.mp hz
    rw [← Except.ok.inj hz, ← Except.ok.inj hy]
    exact method_again (not_not.mp (throwIf_ok.mp hguard))
  rw [normalizeOrigin_ok horigin', hmethods,
    mapM_sorted_again (fun _ _ _ => normalizePath_again) hexact hexact',
    mapM_sorted_again (fun _ _ _ => normalizePath_again) hstarts hstarts']

/-! ## kind rules that are read again -/

theorem mapM_map_same {α β γ : Type} {f : β → Except String γ} {g : α → β} {as : List α}
    {cs : List γ} {k : α → γ} (hf : ∀ a ∈ as, ∀ c, f (g a) = .ok c → c = k a)
    (h : (as.map g).mapM f = .ok cs) : cs = as.map k := by
  induction as generalizing cs with
  | nil =>
    cases h
    rfl
  | cons a as ih =>
    rw [List.map_cons, List.mapM_cons] at h
    obtain ⟨c, hc, h⟩ := bind_ok.mp h
    obtain ⟨cs', hcs', h⟩ := bind_ok.mp h
    cases h
    rw [hf a List.mem_cons_self c hc,
      ih (fun a' ha' => hf a' (List.mem_cons_of_mem _ ha')) hcs', List.map_cons]

theorem readBounded_again {rule : Value} {key : String} {max n n' : ℤ}
    (hget : rule.get key = num n) (h : readBounded rule key max = .ok n') : n' = n := by
  unfold readBounded at h
  have hint : integerOf (rule.get key) = some n := by
    rw [hget]
    rfl
  rw [hint] at h
  simp only at h
  split at h
  · exact (Except.ok.inj h).symm
  · cases h

theorem readAllowedTagNames_again {rule : Value} {names names' : List String}
    (hget : rule.get "allowedTagNames" = textsValue names)
    (h : readAllowedTagNames rule = .ok names') : names' = names := by
  unfold readAllowedTagNames at h
  have helements : (rule.get "allowedTagNames").elements = some (names.map str) := by
    rw [hget]
    rfl
  rw [helements] at h
  obtain ⟨_, -, h⟩ := bind_ok.mp h
  obtain ⟨read, hread, h⟩ := bind_ok.mp h
  obtain ⟨_, -, h⟩ := bind_ok.mp h
  cases h
  have hsame := mapM_map_same (k := id) (fun name _ c hc => ?_) hread
  · rw [hsame, List.map_id]
  · simp only at hc
    split at hc
    · cases hc
    · exact (Except.ok.inj hc).symm

theorem stringsOf_textsValue (texts : List String) : stringsOf (textsValue texts) = some texts := by
  show (texts.map str).mapM stringOf = some texts
  rw [List.mapM_map]
  induction texts with
  | nil => rfl
  | cons text texts ih =>
    rw [List.mapM_cons, ih]
    rfl

theorem readRequiredTags_again {rule : Value} {names : List String} {maxTags maxTagBytes : ℤ}
    {tags tags' : List (String × String)}
    (hget : rule.get "requiredTags" = arr (tags.map fun pair => arr [str pair.1, str pair.2]))
    (h : readRequiredTags rule names maxTags maxTagBytes = .ok tags') : tags' = tags := by
  unfold readRequiredTags at h
  have helements : ((rule.get "requiredTags").orElse (arr [])).elements =
      some (tags.map fun pair => arr [str pair.1, str pair.2]) := by
    rw [hget]
    rfl
  rw [helements] at h
  obtain ⟨read, hread, h⟩ := bind_ok.mp h
  obtain ⟨_, -, h⟩ := bind_ok.mp h
  obtain ⟨_, -, h⟩ := bind_ok.mp h
  cases h
  have hsame := mapM_map_same (k := id) (fun pair _ c hc => ?_) hread
  · rw [hsame, List.map_id]
  · unfold readRequiredTag at hc
    obtain ⟨_, -, hc⟩ := bind_ok.mp hc
    obtain ⟨_, -, hc⟩ := bind_ok.mp hc
    exact (Except.ok.inj hc).symm

theorem readExactTags_again {names : List String} {required : List (String × String)}
    {seen : List String} {tags tags' : List (List String)}
    (h : readExactTags names required seen (tags.map textsValue) = .ok tags') : tags' = tags := by
  induction tags generalizing seen tags' with
  | nil =>
    cases h
    rfl
  | cons tag tags ih =>
    rw [List.map_cons, readExactTags] at h
    obtain ⟨read, hread, h⟩ := bind_ok.mp h
    obtain ⟨rest, hrest, h⟩ := bind_ok.mp h
    cases h
    rw [ih hrest]
    unfold readExactTag at hread
    rw [stringsOf_textsValue] at hread
    cases tag with
    | nil => cases hread
    | cons name values =>
      obtain ⟨_, -, hread⟩ := bind_ok.mp hread
      obtain ⟨_, -, hread⟩ := bind_ok.mp hread
      obtain ⟨_, -, hread⟩ := bind_ok.mp hread
      rw [← Except.ok.inj hread]

theorem normalizeExactTags_again {value : Value} {names : List String}
    {required : List (String × String)} {maxTags maxTagBytes : ℤ}
    {tags tags' : Option (List (List String))}
    (hget : value = (tags.map fun tags => arr (tags.map textsValue)).getD undefined)
    (h : normalizeExactTags value names required maxTags maxTagBytes = .ok tags') :
    tags' = tags := by
  subst hget
  cases tags with
  | none => exact (Except.ok.inj h).symm
  | some tags =>
    cases tags with
    | nil => exact (Except.ok.inj h).symm
    | cons tag tags =>
      obtain ⟨read, hread, h⟩ := bind_ok.mp h
      obtain ⟨_, -, h⟩ := bind_ok.mp h
      obtain ⟨_, -, h⟩ := bind_ok.mp h
      cases h
      rw [readExactTags_again hread]

/-- **A kind rule is read as it was written.** -/
theorem readKindRule_again {kinds : List ℤ} {rule rule' : NostrKindConstraint}
    (h : readKindRule kinds (ruleValue rule) = .ok rule') : rule' = rule := by
  have hexact : (ruleValue rule).get "exactTags" =
      (rule.exactTags.map fun tags => arr (tags.map textsValue)).getD undefined := by
    obtain ⟨kind, content, maxTags, maxTagBytes, names, required, exactTags⟩ := rule
    cases exactTags <;> rfl
  unfold readKindRule at h
  obtain ⟨_, -, h⟩ := bind_ok.mp h
  obtain ⟨_, -, h⟩ := bind_ok.mp h
  obtain ⟨content, hcontent, h⟩ := bind_ok.mp h
  obtain ⟨maxTags, hmaxTags, h⟩ := bind_ok.mp h
  obtain ⟨maxTagBytes, hmaxTagBytes, h⟩ := bind_ok.mp h
  obtain ⟨names, hnames, h⟩ := bind_ok.mp h
  obtain ⟨required, hrequired, h⟩ := bind_ok.mp h
  obtain ⟨exactTags, hexactTags, h⟩ := bind_ok.mp h
  rw [← Except.ok.inj h, readBounded_again rfl hcontent, readBounded_again rfl hmaxTags,
    readBounded_again rfl hmaxTagBytes, readAllowedTagNames_again rfl hnames,
    readRequiredTags_again rfl hrequired, normalizeExactTags_again hexact hexactTags]
  rfl

/-- the order in which kind rules are kept. -/
def KindLe (left right : NostrKindConstraint) : Prop := left.kind ≤ right.kind

instance : DecidableRel KindLe := fun left right =>
  inferInstanceAs (Decidable (left.kind ≤ right.kind))

instance : Std.Total KindLe := ⟨fun left right => Int.le_total left.kind right.kind⟩

instance : IsTrans NostrKindConstraint KindLe := ⟨fun _ _ _ h h' => Int.le_trans h h'⟩

theorem normalizeNostrKindRules_ok {value : Value} {kinds : List ℤ}
    {rules : List NostrKindConstraint} (h : normalizeNostrKindRules value kinds = .ok rules) :
    ∃ candidates read, (if value = undefined then arr [] else value).elements = some candidates ∧
      candidates.mapM (readKindRule kinds) = .ok read ∧ rules = read.insertionSort KindLe := by
  unfold normalizeNostrKindRules at h
  cases hcandidates : (if value = undefined then arr [] else value).elements with
  | none =>
    rw [hcandidates] at h
    cases h
  | some candidates =>
    rw [hcandidates] at h
    obtain ⟨read, hread, h⟩ := bind_ok.mp h
    obtain ⟨_, -, h⟩ := bind_ok.mp h
    obtain ⟨_, -, h⟩ := bind_ok.mp h
    exact ⟨candidates, read, rfl, hread, (Except.ok.inj h).symm⟩

theorem normalizeNostrKindRules_again {value : Value} {kinds kinds' : List ℤ}
    {rules rules' : List NostrKindConstraint} (h : normalizeNostrKindRules value kinds = .ok rules)
    (h' : normalizeNostrKindRules (arr (rules.map ruleValue)) kinds' = .ok rules') :
    rules' = rules := by
  obtain ⟨_, read, -, -, rfl⟩ := normalizeNostrKindRules_ok h
  obtain ⟨candidates', read', hcandidates', hread', rfl⟩ := normalizeNostrKindRules_ok h'
  obtain rfl : (read.insertionSort KindLe).map ruleValue = candidates' :=
    Option.some.inj hcandidates'
  have hsame := mapM_map_same (k := id) (fun rule _ rule' => readKindRule_again) hread'
  rw [List.map_id] at hsame
  rw [hsame, List.Pairwise.insertionSort_eq (List.pairwise_insertionSort KindLe read)]

/-- **A draft in normal form that is checked again comes back unchanged.** -/
theorem validate_again {input draft draft' : SigningPolicyDraft}
    (h : validateSigningPolicyDraft host input = .ok draft)
    (h' : validateSigningPolicyDraft host draft = .ok draft') : draft' = draft := by
  unfold validateSigningPolicyDraft at h
  obtain ⟨_, -, h⟩ := bind_ok.mp h
  obtain ⟨_, -, h⟩ := bind_ok.mp h
  obtain ⟨_, -, h⟩ := bind_ok.mp h
  obtain ⟨_, -, h⟩ := bind_ok.mp h
  obtain ⟨known, hknown, h⟩ := bind_ok.mp h
  obtain ⟨_, -, h⟩ := bind_ok.mp h
  obtain ⟨_, -, h⟩ := bind_ok.mp h
  obtain ⟨_, -, h⟩ := bind_ok.mp h
  obtain ⟨_, -, h⟩ := bind_ok.mp h
  obtain ⟨_, -, h⟩ := bind_ok.mp h
  obtain ⟨rules, hrules, h⟩ := bind_ok.mp h
  obtain ⟨_, -, h⟩ := bind_ok.mp h
  obtain ⟨targets, htargets, h⟩ := bind_ok.mp h
  obtain ⟨_, -, h⟩ := bind_ok.mp h
  obtain ⟨assignments, hassignments, h⟩ := bind_ok.mp h
  obtain rfl := Except.ok.inj h
  unfold validateSigningPolicyDraft at h'
  obtain ⟨_, -, h'⟩ := bind_ok.mp h'
  obtain ⟨_, -, h'⟩ := bind_ok.mp h'
  obtain ⟨_, -, h'⟩ := bind_ok.mp h'
  obtain ⟨_, -, h'⟩ := bind_ok.mp h'
  obtain ⟨known', hknown', h'⟩ := bind_ok.mp h'
  obtain ⟨_, -, h'⟩ := bind_ok.mp h'
  obtain ⟨_, -, h'⟩ := bind_ok.mp h'
  obtain ⟨_, -, h'⟩ := bind_ok.mp h'
  obtain ⟨_, -, h'⟩ := bind_ok.mp h'
  obtain ⟨_, -, h'⟩ := bind_ok.mp h'
  obtain ⟨rules', hrules', h'⟩ := bind_ok.mp h'
  obtain ⟨_, -, h'⟩ := bind_ok.mp h'
  obtain ⟨targets', htargets', h'⟩ := bind_ok.mp h'
  obtain ⟨_, -, h'⟩ := bind_ok.mp h'
  obtain ⟨assignments', hassignments', h'⟩ := bind_ok.mp h'
  have hoperations : sortedUnique (Collated host) known' = sortedUnique (Collated host) known := by
    refine mapM_sorted_again (fun x y z hy hz => ?_) hknown hknown'
    obtain ⟨_, -, hz⟩ := bind_ok.mp hz
    exact (Except.ok.inj hz).symm
  have htargets'' : targets' = targets := by
    refine mapM_same (fun target htarget target' htarget' => ?_) htargets'
    obtain ⟨source, -, hsource⟩ := mem_of_mapM_ok htargets target htarget
    exact validateTarget_again hsource htarget'
  have hkinds : sortedUnique (fun left right : ℤ => left ≤ right)
      (sortedUnique (fun left right : ℤ => left ≤ right) input.eventKinds) =
      sortedUnique (fun left right : ℤ => left ≤ right) input.eventKinds := sortedUnique_idem _
  rw [← Except.ok.inj h', hoperations, htargets'', hkinds,
    normalizeNostrKindRules_again hrules hrules', validateAssignments_again hassignments hassignments',
    trim_trim, trim_trim, trim_trim]

end

end Policies
end Signing
end WmAutopilot
