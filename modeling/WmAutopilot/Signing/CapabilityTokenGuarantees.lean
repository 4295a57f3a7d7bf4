import Mathlib.Data.Rat.Defs
import WmAutopilot.Js.Scan
import WmAutopilot.Signing.CapabilityToken

/-!
# What a token lets a runner sign

* `normalised_again`   what was normalised at minting is read as it is;
* `partsOf_tokenOf`    a token is read back;
* `Nip98Within`, `NostrWithin`   a request that the input of the token covers;
* `MethodsKept`, `PrefixesKept`, `KindsKept`   the lists that still restrict when they are read;
* `tokens_widen_nothing`   **a token that verifies was minted, and covers what its input covers exactly
                          when its lists are kept**;
* `blank_methods`      a list of blank methods restricts nothing.
-/

set_option autoImplicit false

namespace WmAutopilot
namespace Signing
namespace Token
open Js Value

/-! ## what is read of a token -/

section
variable {f : String → String} {texts : List String} {value : Value}

theorem mapM_stringOf (texts : List String) : (texts.map str).mapM stringOf = some texts := by
  induction texts with
  | nil => rfl
  | cons text texts ih => simp [List.mapM_cons, stringOf, ih]

theorem stringsOf_strings (texts : List String) : stringsOf (strings texts) = some texts :=
  mapM_stringOf texts

theorem mapM_integerOf (kinds : List ℤ) :
    (kinds.map fun (kind : ℤ) => num kind).mapM integerOf = some kinds := by
  induction kinds with
  | nil => rfl
  | cons kind kinds ih => simp [List.mapM_cons, integerOf, ih]

/-- **What was normalised** stays as it is. -/
theorem normalised_again (hf : ∀ text, f (f text) = f text) (texts : List String) :
    (((texts.map f).filter (· ≠ "")).map f).filter (· ≠ "") = (texts.map f).filter (· ≠ "") := by
  induction texts with
  | nil => rfl
  | cons text texts ih =>
    rw [List.map_cons]
    by_cases h : f text = ""
    · simpa [h] using ih
    · simpa [h, hf] using ih

theorem lookup_field {α : Type} (key k : String) (g : α → Value) (a : Option α) :
    (field key g a).lookup k = if k = key then a.map g else none := by
  cases a with
  | none => simp [field]
  | some a =>
    show [(key, g a)].lookup k = _
    rw [lookup_cons]
    rfl

end

section
variable {host : Host} {capability : Nip98Capability} {payload : Payload}

theorem methods_again (text : String) :
    normaliseMethod host (normaliseMethod host text) = normaliseMethod host text :=
  host.upper_again text

theorem hosts_again (text : String) :
    normaliseHost host (normaliseHost host text) = normaliseHost host text :=
  host.lower_again text

theorem hostMatches_again (pattern name : String) :
    hostMatches host (normaliseHost host pattern) name = hostMatches host pattern name := by
  unfold hostMatches
  rw [hosts_again]

/-- the properties of a capability. -/
theorem get_capability (capability : Nip98Capability) :
    capability.toValue.get "hosts" = (capability.hosts.map strings).getD .undefined ∧
      capability.toValue.get "methods" = (capability.methods.map strings).getD .undefined ∧
      capability.toValue.get "urls" = (capability.urls.map strings).getD .undefined ∧
      capability.toValue.get "pathPrefixes" =
        (capability.pathPrefixes.map strings).getD .undefined := by
  simp [Nip98Capability.toValue, Value.get, List.lookup_append, lookup_field]

/-- a list that is read again. -/
def again (f : String → String) (texts : Option (List String)) : Option (List String) :=
  texts.map fun texts => (texts.map f).filter (· ≠ "")

theorem normalised_strings (f : String → String) (texts : Option (List String)) :
    normalised f ((texts.map strings).getD .undefined) = again f texts := by
  cases texts with
  | none => rfl
  | some texts =>
    show (stringsOf (strings texts)).map _ = _
    rw [stringsOf_strings]
    rfl

theorem again_normalised {f : String → String} (hf : ∀ text, f (f text) = f text) (value : Value) :
    again f (normalised f value) = normalised f value := by
  unfold again normalised
  rw [Option.map_map]
  exact congrArg (fun g => (stringsOf value).map g) (funext fun texts => normalised_again hf texts)

/-- what the input of a token becomes. -/
def capabilityOf (host : Host) (value : Value) : Nip98Capability where
  hosts := normalised (normaliseHost host) (value.get "hosts")
  methods := normalised (normaliseMethod host) (value.get "methods")
  urls := normalised id (value.get "urls")
  pathPrefixes := normalised id (value.get "pathPrefixes")

theorem normaliseNip98_getD (value : Value) :
    (normaliseNip98Capability host value).getD {} = capabilityOf host value := by
  cases value <;> rfl

/-- **A capability is read as it was minted.** -/
theorem normaliseNip98_capabilityOf (value : Value) :
    normaliseNip98Capability host (capabilityOf host value).toValue =
      some (capabilityOf host value) := by
  obtain ⟨hhosts, hmethods, hurls, hurlStarts⟩ := get_capability (capabilityOf host value)
  rw [normaliseNip98Capability, hhosts, hmethods, hurls, hurlStarts, normalised_strings,
    normalised_strings, normalised_strings, normalised_strings]
  simp only [capabilityOf, again_normalised hosts_again, again_normalised methods_again,
    again_normalised (f := id) fun _ => rfl]
  rfl

theorem normaliseNostr_getD (value : Value) :
    (normaliseNostrCapability value).getD {} = { kinds := integersOf (value.get "kinds") } := by
  cases value <;> rfl

theorem normaliseNostr_toValue (capability : NostrCapability) :
    normaliseNostrCapability capability.toValue = some capability := by
  obtain ⟨kinds⟩ := capability
  have hkinds : integersOf ((NostrCapability.mk kinds).toValue.get "kinds") = kinds := by
    cases kinds with
    | none => rfl
    | some kinds => exact mapM_integerOf kinds
  rw [normaliseNostrCapability, hkinds]
  rfl

theorem get_payload (payload : Payload) :
    payload.toValue.get "aud" = str TOKEN_AUDIENCE ∧ payload.toValue.get "v" = num 1 ∧
      payload.toValue.get "exp" = num payload.exp ∧
      payload.toValue.get "sessionId" = (payload.sessionId.map str).getD .undefined ∧
      payload.toValue.get "nip98" = (payload.nip98.map (·.toValue)).getD .undefined ∧
      payload.toValue.get "nostr" = (payload.nostr.map (·.toValue)).getD .undefined := by
  simp [Payload.toValue, Value.get, List.lookup_append, lookup_cons, lookup_field]

/-- **A payload is read as it was minted.** -/
theorem normalisePayload_payloadOf (input : TokenInput) (ttlSeconds nowMs : ℚ) :
    normalisePayload host (payloadOf host input ttlSeconds nowMs).toValue =
      some (payloadOf host input ttlSeconds nowMs) := by
  obtain ⟨haud, hv, hexp, hsession, hnip98, hnostr⟩ :=
    get_payload (payloadOf host input ttlSeconds nowMs)
  have hid : ((((payloadOf host input ttlSeconds nowMs).sessionId.map str).getD
      .undefined)).getString = (payloadOf host input ttlSeconds nowMs).sessionId := by
    show ((((input.sessionId.bind fun id => (str id).getString).map str).getD
      .undefined)).getString = input.sessionId.bind fun id => (str id).getString
    cases hid : input.sessionId.bind fun id => (str id).getString with
    | none => rfl
    | some id =>
      obtain ⟨id', -, hstring⟩ := Option.bind_eq_some_iff.mp hid
      exact getString_str hstring
  rw [normalisePayload, haud, hv, hexp, hsession, hnip98, hnostr, hid, if_pos ⟨rfl, rfl, rfl⟩]
  refine congrArg some ?_
  have hnip98 : normaliseNip98Capability host (((payloadOf host input ttlSeconds nowMs).nip98.map
      (·.toValue)).getD .undefined) = (payloadOf host input ttlSeconds nowMs).nip98 := by
    unfold payloadOf
    dsimp only
    split
    · rw [normaliseNip98_getD]
      exact normaliseNip98_capabilityOf _
    · rfl
  have hnostr : normaliseNostrCapability (((payloadOf host input ttlSeconds nowMs).nostr.map
      (·.toValue)).getD .undefined) = (payloadOf host input ttlSeconds nowMs).nostr := by
    unfold payloadOf
    dsimp only
    split
    · exact normaliseNostr_toValue _
    · rfl
  rw [hnip98, hnostr]

/-! ## tokens -/

theorem partsOf_tokenOf {text signature : String} (htext : text ≠ "" ∧ '.' ∉ text.toList)
    (hsignature : signature ≠ "" ∧ '.' ∉ signature.toList) :
    partsOf (tokenOf text signature) = some (text, signature) := by
  have hsplit : (tokenOf text signature).toList.splitOn '.' =
      [TOKEN_PREFIX.toList, text.toList, signature.toList] := by
    have hlist : (tokenOf text signature).toList =
        TOKEN_PREFIX.toList ++ '.' :: (text.toList ++ '.' :: signature.toList) := by
      simp [tokenOf]
    rw [hlist, List.splitOn_append_cons_self_of_not_mem (by decide),
      List.splitOn_append_cons_self_of_not_mem htext.2, List.splitOn_eq_singleton hsignature.2]
  have hne : text.toList ≠ [] ∧ signature.toList ≠ [] := by
    constructor
    · simpa using htext.1
    · simpa using hsignature.1
  unfold partsOf
  rw [hsplit]
  dsimp only
  rw [if_pos ⟨rfl, hne⟩, String.ofList_toList, String.ofList_toList]

/-- what is read is what the token is made of. -/
theorem tokenOf_partsOf {token text signature : String}
    (h : partsOf token = some (text, signature)) : token = tokenOf text signature := by
  unfold partsOf at h
  split at h
  · next start text' signature' hsplit =>
    obtain ⟨hstart, hpair⟩ := Option.ite_none_right_eq_some.mp h
    obtain ⟨rfl, rfl⟩ := Prod.mk.inj (Option.some.inj hpair)
    rw [hstart.1] at hsplit
    have hlist : token.toList = ['.'].intercalate [TOKEN_PREFIX.toList, text', signature'] := by
      rw [← hsplit, List.intercalate_splitOn]
    rw [← String.ofList_toList (s := token), hlist]
    simp [tokenOf, List.intercalate, String.ofList_append, String.append_assoc]
  · cases h

/-- JSON and base64url: what is written of a payload is read again, and has no dot. -/
structure ReadsBack (host : Host) (payload : Payload) : Prop where
  decode : host.decodeJson (host.encodeJson payload.toValue) = some payload.toValue
  text : host.encodeJson payload.toValue ≠ "" ∧ '.' ∉ (host.encodeJson payload.toValue).toList

/-- **A token that was minted** verifies until it expires, as it was minted. -/
theorem verify_tokenOf {secret : String} {input : TokenInput} {ttlSeconds nowMs later : ℚ}
    {payload : Payload} (hread : ReadsBack host (payloadOf host input ttlSeconds nowMs))
    (h : verify host secret (tokenOf
      (host.encodeJson (payloadOf host input ttlSeconds nowMs).toValue)
      (signPayload host secret (host.encodeJson (payloadOf host input ttlSeconds nowMs).toValue)))
      later = .ok payload) :
    payload = payloadOf host input ttlSeconds nowMs ∧
      seconds later < seconds nowMs + ttlSeconds.floor := by
  obtain ⟨_, -, h⟩ := bind_ok.mp h
  obtain ⟨parts, hparts, h⟩ := bind_ok.mp h
  obtain ⟨_, -, h⟩ := bind_ok.mp h
  obtain ⟨payload', hpayload, h⟩ := bind_ok.mp h
  obtain ⟨_, hexpired, h⟩ := bind_ok.mp h
  cases h
  have htoken : partsOf (tokenOf (host.encodeJson (payloadOf host input ttlSeconds nowMs).toValue)
      (signPayload host secret (host.encodeJson (payloadOf host input ttlSeconds nowMs).toValue))) =
      some (_, _) := partsOf_tokenOf hread.text (host.hmac_text _ _)
  rw [htoken] at hparts
  cases orThrow_ok.mp hparts
  have hdecode := orThrow_ok.mp hpayload
  dsimp only at hdecode
  rw [hread.decode, Option.bind_some, normalisePayload_payloadOf] at hdecode
  cases hdecode
  refine ⟨rfl, ?_⟩
  have hlater := throwIf_ok.mp hexpired
  have hexp : (payloadOf host input ttlSeconds nowMs).exp =
    ((seconds nowMs + ttlSeconds.floor : ℤ) : ℚ) := by
    simp [payloadOf]
  rw [hexp] at hlater
  exact lt_of_not_ge fun hle => hlater (by exact_mod_cast hle)

end

/-! ## requests -/

/-- a text of an array that was given. -/
def Listed (value : Value) (key text : String) : Prop :=
  ∃ vs, value.get key = arr vs ∧ str text ∈ vs

/-- an array that was given and is not empty. -/
def Given (value : Value) (key : String) (vs : List Value) : Prop := value.get key = arr vs ∧ vs ≠ []

section
variable (host : Host)

def MethodListed (value : Value) (method : String) : Prop :=
  ∃ m, Listed value "methods" m ∧
    (normaliseMethod host m = "*" ∨ normaliseMethod host m = normaliseMethod host method)

def HostListed (value : Value) (parsed : ParsedUrl) : Prop :=
  ∃ pattern, Listed value "hosts" pattern ∧ hostMatches host pattern parsed.hostname = true

def PathListed (value : Value) (parsed : ParsedUrl) : Prop :=
  ∃ start, Listed value "pathPrefixes" start ∧ startsWith parsed.pathname start = true

/-- **A request that the nip98 part of an input covers.** -/
structure Nip98Within (value : Value) (targetUrl method : String) : Prop where
  given : value.truthy = true
  method : ∀ vs, Given value "methods" vs → MethodListed host value method
  url : ∃ parsed, host.parseUrl targetUrl = some parsed ∧ (Listed value "urls" parsed.href ∨
    HostListed host value parsed ∧ ∀ vs, Given value "pathPrefixes" vs → PathListed value parsed)

/-- **A kind that the nostr part of an input covers.** -/
structure NostrWithin (value kind : Value) : Prop where
  given : value.truthy = true
  kind : ∀ vs, Given value "kinds" vs → kind ∈ vs

/-- a list of methods that still restricts when it is read, or lists every method. -/
def MethodsKept (value : Value) : Prop := ∀ vs, Given value "methods" vs →
  (∃ m, Listed value "methods" m ∧ normaliseMethod host m = "*") ∨
    ∃ texts, stringsOf (arr vs) = some texts ∧ ∃ m ∈ texts, normaliseMethod host m ≠ ""

/-- a list of starts of paths that still restricts when it is read. -/
def PrefixesKept (value : Value) : Prop := ∀ vs, Given value "pathPrefixes" vs →
  ∃ texts, stringsOf (arr vs) = some texts

/-- a list of kinds that still restricts when it is read. -/
def KindsKept (value : Value) : Prop := ∀ vs, Given value "kinds" vs →
  ∃ kinds, integersOf (arr vs) = some kinds

/-- the URLs that are let through by what is read. -/
def Passes (value : Value) (targetUrl : String) : Prop :=
  ∃ parsed, host.parseUrl targetUrl = some parsed ∧
    (parsed.href ∈ (capabilityOf host value).urls.getD [] ∨
      (∃ pattern ∈ (capabilityOf host value).hosts.getD [],
        hostMatches host pattern parsed.hostname = true) ∧
      ((capabilityOf host value).pathPrefixes.getD [] ≠ [] →
        ∃ start ∈ (capabilityOf host value).pathPrefixes.getD [],
          startsWith parsed.pathname start = true))

/-- a URL of the hosts that is none of the URLs, below no start of a path. -/
def Outside (value : Value) (targetUrl : String) : Prop :=
  ∃ parsed, host.parseUrl targetUrl = some parsed ∧
    (∃ pattern ∈ (capabilityOf host value).hosts.getD [],
      hostMatches host pattern parsed.hostname = true) ∧
    ¬Listed value "urls" parsed.href ∧ ¬PathListed value parsed

/-- **The lists of a nip98 part are kept**, or nothing depends on it. -/
def Nip98Kept (value : Value) : Prop := value.truthy = true →
  (MethodsKept host value ∨ ∀ targetUrl, ¬Passes host value targetUrl) ∧
    (PrefixesKept value ∨ ∀ targetUrl, ¬Outside host value targetUrl)

def NostrKept (value : Value) : Prop := value.truthy = true → KindsKept value

end

section
variable {host : Host} {value : Value} {key targetUrl method : String} {vs : List Value}

theorem mem_of_mapM_stringOf {texts : List String} (h : vs.mapM stringOf = some texts) :
    vs = texts.map str := by
  induction vs generalizing texts with
  | nil =>
    cases h
    rfl
  | cons v vs ih =>
    rw [List.mapM_cons] at h
    obtain ⟨text, htext, h⟩ := Option.bind_eq_some_iff.mp h
    obtain ⟨texts', htexts, h⟩ := Option.bind_eq_some_iff.mp h
    cases h
    cases v with
    | str s =>
      cases htext
      rw [ih htexts, List.map_cons]
    | _ => cases htext

/-- an array of strings. -/
theorem stringsOf_some {texts : List String} (h : stringsOf value = some texts) :
    value = strings texts := by
  obtain ⟨vs, hvs, h⟩ := Option.bind_eq_some_iff.mp h
  cases value with
  | arr ws =>
    cases hvs
    rw [mem_of_mapM_stringOf h, strings]
  | _ => cases hvs

theorem mem_strings {texts : List String} {text : String} :
    str text ∈ texts.map str ↔ text ∈ texts := by
  simp

/-- **What is read of a list** was given. -/
theorem listed_of_normalised {f : String → String} {text : String}
    (h : text ∈ (normalised f (value.get key)).getD []) : ∃ t, Listed value key t ∧ f t = text := by
  cases hstrings : stringsOf (value.get key) with
  | none =>
    rw [normalised, hstrings] at h
    cases h
  | some texts =>
    rw [normalised, hstrings] at h
    obtain ⟨hmem, -⟩ := List.mem_filter.mp h
    obtain ⟨t, ht, rfl⟩ := List.mem_map.mp hmem
    exact ⟨t, ⟨_, stringsOf_some hstrings, mem_strings.mpr ht⟩, rfl⟩

/-- **A list that is read** has what was given and is not blank. -/
theorem mem_normalised {f : String → String} {texts : List String} {t : String}
    (h : stringsOf (value.get key) = some texts) (ht : t ∈ texts) (hne : f t ≠ "") :
    f t ∈ (normalised f (value.get key)).getD [] := by
  rw [normalised, h]
  exact List.mem_filter.mpr ⟨List.mem_map_of_mem ht, decide_eq_true hne⟩

/-- the methods that are read, which are compared. -/
theorem methods_map (value : Value) :
    ((capabilityOf host value).methods.getD []).map (normaliseMethod host) =
      (capabilityOf host value).methods.getD [] := by
  have hid : ∀ m ∈ (capabilityOf host value).methods.getD [], normaliseMethod host m = id m := by
    intro m hm
    obtain ⟨t, -, rfl⟩ := listed_of_normalised hm
    exact methods_again t
  rw [List.map_congr_left hid, List.map_id]

/-- **A request is allowed** when the method and the URL are. -/
theorem nip98_allowed {payload : Payload} (hpayload : payload.nip98 = some (capabilityOf host value)) :
    assertNip98SigningAllowed host payload targetUrl method = none ↔
      ((capabilityOf host value).methods.getD [] ≠ [] →
        "*" ∈ (capabilityOf host value).methods.getD [] ∨
          normaliseMethod host method ∈ (capabilityOf host value).methods.getD []) ∧
      Passes host value targetUrl := by
  unfold assertNip98SigningAllowed Passes
  rw [hpayload]
  dsimp only
  rw [methods_map]
  cases host.parseUrl targetUrl with
  | none => simp
  | some parsed =>
    dsimp only
    by_cases hmethod : (capabilityOf host value).methods.getD [] ≠ [] ∧
        "*" ∉ (capabilityOf host value).methods.getD [] ∧
        normaliseMethod host method ∉ (capabilityOf host value).methods.getD []
    · rw [if_pos hmethod]
      refine ⟨nofun, fun h => ?_⟩
      rcases h.1 hmethod.1 with hall | hmem
      · exact absurd hall hmethod.2.1
      · exact absurd hmem hmethod.2.2
    rw [if_neg hmethod]
    have hmethod' : (capabilityOf host value).methods.getD [] ≠ [] →
        "*" ∈ (capabilityOf host value).methods.getD [] ∨
          normaliseMethod host method ∈ (capabilityOf host value).methods.getD [] := by
      intro hne
      by_contra hno
      push Not at hno
      exact hmethod ⟨hne, hno⟩
    by_cases hurl : parsed.href ∈ (capabilityOf host value).urls.getD []
    · rw [if_pos hurl]
      exact ⟨fun _ => ⟨hmethod', parsed, rfl, Or.inl hurl⟩, fun _ => rfl⟩
    rw [if_neg hurl]
    by_cases hhost : ∃ pattern ∈ (capabilityOf host value).hosts.getD [],
        hostMatches host pattern parsed.hostname = true
    · rw [if_neg (by simpa using hhost)]
      by_cases hpath : (capabilityOf host value).pathPrefixes.getD [] ≠ [] →
          ∃ start ∈ (capabilityOf host value).pathPrefixes.getD [],
            startsWith parsed.pathname start = true
      · rw [if_neg (by simpa using hpath)]
        exact ⟨fun _ => ⟨hmethod', parsed, rfl, Or.inr ⟨hhost, hpath⟩⟩, fun _ => rfl⟩
      · rw [if_pos (by simpa using hpath)]
        refine ⟨nofun, fun h => ?_⟩
        obtain ⟨-, _, heq, hpass⟩ := h
        cases heq
        rcases hpass with hmem | ⟨-, hstart⟩
        · exact absurd hmem hurl
        · exact absurd hstart hpath
    · rw [if_pos (by simpa using hhost)]
      refine ⟨nofun, fun h => ?_⟩
      obtain ⟨-, _, heq, hpass⟩ := h
      cases heq
      rcases hpass with hmem | ⟨hmatch, -⟩
      · exact absurd hmem hurl
      · exact absurd hmatch hhost

/-- a list that is kept restricts what is allowed. -/
theorem methodListed_of_kept (hkept : MethodsKept host value)
    (h : (capabilityOf host value).methods.getD [] ≠ [] →
      "*" ∈ (capabilityOf host value).methods.getD [] ∨
        normaliseMethod host method ∈ (capabilityOf host value).methods.getD [])
    (hgiven : Given value "methods" vs) : MethodListed host value method := by
  rcases hkept vs hgiven with ⟨m, hlisted, hall⟩ | ⟨texts, htexts, m, hm, hne⟩
  · exact ⟨m, hlisted, Or.inl hall⟩
  · have hread : normaliseMethod host m ∈ (capabilityOf host value).methods.getD [] :=
      mem_normalised (by rw [hgiven.1, htexts]) hm hne
    rcases h (List.ne_nil_of_mem hread) with hall | hmem
    · obtain ⟨t, hlisted, ht⟩ := listed_of_normalised hall
      exact ⟨t, hlisted, Or.inl ht⟩
    · obtain ⟨t, hlisted, ht⟩ := listed_of_normalised hmem
      exact ⟨t, hlisted, Or.inr ht⟩

theorem hostListed_of_read {parsed : ParsedUrl}
    (h : ∃ pattern ∈ (capabilityOf host value).hosts.getD [],
      hostMatches host pattern parsed.hostname = true) : HostListed host value parsed := by
  obtain ⟨pattern, hpattern, hmatch⟩ := h
  obtain ⟨t, hlisted, rfl⟩ := listed_of_normalised hpattern
  exact ⟨t, hlisted, by rwa [hostMatches_again] at hmatch⟩

theorem pathListed_of_kept {parsed : ParsedUrl} (hkept : PrefixesKept value)
    (h : (capabilityOf host value).pathPrefixes.getD [] ≠ [] →
      ∃ start ∈ (capabilityOf host value).pathPrefixes.getD [],
        startsWith parsed.pathname start = true)
    (hgiven : Given value "pathPrefixes" vs) : PathListed value parsed := by
  obtain ⟨texts, htexts⟩ := hkept vs hgiven
  have hvs : vs = texts.map str := mem_of_mapM_stringOf htexts
  by_cases hempty : "" ∈ texts
  · refine ⟨"", ⟨vs, hgiven.1, hvs ▸ mem_strings.mpr hempty⟩, ?_⟩
    simp [startsWith]
  · obtain ⟨t, ht⟩ := List.exists_mem_of_ne_nil texts fun hnil =>
      hgiven.2 (by rw [hvs, hnil, List.map_nil])
    have hread : t ∈ (capabilityOf host value).pathPrefixes.getD [] :=
      mem_normalised (f := id) (by rw [hgiven.1, htexts]) ht fun heq => hempty (heq ▸ ht)
    obtain ⟨start, hstart, hpath⟩ := h (List.ne_nil_of_mem hread)
    obtain ⟨t', hlisted, rfl⟩ := listed_of_normalised hstart
    exact ⟨t', hlisted, hpath⟩

/-- a length that no text of a list has. -/
theorem exists_longer (texts : List String) : ∃ n, ∀ text ∈ texts, text.length < n := by
  induction texts with
  | nil => exact ⟨0, fun _ h => absurd h List.not_mem_nil⟩
  | cons text texts ih =>
    obtain ⟨n, hn⟩ := ih
    refine ⟨n + text.length + 1, fun t ht => ?_⟩
    rcases List.mem_cons.mp ht with rfl | ht
    · omega
    · have := hn t ht
      omega

theorem normaliseMethod_zeros (n : ℕ) :
    normaliseMethod host (String.ofList (List.replicate n '0')) =
      String.ofList (List.replicate n '0') := by
  have htrim : trim (String.ofList (List.replicate n '0')) = String.ofList (List.replicate n '0') := by
    refine trim_of_no_space fun c hc => ?_
    rw [String.toList_ofList] at hc
    rw [List.eq_of_mem_replicate hc]
    decide
  rw [normaliseMethod, htrim, host.upper_zeros]

/-- **A list that is not kept restricts nothing.** -/
theorem methods_of_not_kept (h : ¬MethodsKept host value) :
    (capabilityOf host value).methods.getD [] = [] ∧
      ∃ vs method, Given value "methods" vs ∧ ¬MethodListed host value method := by
  unfold MethodsKept at h
  push Not at h
  obtain ⟨vs, hgiven, hall, hblank⟩ := h
  constructor
  · refine List.eq_nil_iff_forall_not_mem.mpr fun m hm => ?_
    cases htexts : stringsOf (value.get "methods") with
    | none =>
      have hnone : (capabilityOf host value).methods = none := by
        show normalised _ _ = none
        rw [normalised, htexts]
        rfl
      rw [hnone] at hm
      cases hm
    | some texts =>
      have hread : (capabilityOf host value).methods =
          some ((texts.map (normaliseMethod host)).filter (· ≠ "")) := by
        show normalised _ _ = _
        rw [normalised, htexts]
        rfl
      rw [hread] at hm
      obtain ⟨hmem, hne⟩ := List.mem_filter.mp hm
      obtain ⟨t, ht, rfl⟩ := List.mem_map.mp hmem
      exact of_decide_eq_true hne (hblank texts (by rw [← hgiven.1, htexts]) t ht)
  · obtain ⟨n, hn⟩ := exists_longer ((vs.filterMap stringOf).map (normaliseMethod host))
    refine ⟨vs, String.ofList (List.replicate n '0'), hgiven, ?_⟩
    rintro ⟨m, hlisted, hmethod⟩
    rcases hmethod with hmethod | hmethod
    · exact hall m hlisted hmethod
    · obtain ⟨ws, hws, hmem⟩ := hlisted
      have hvs : ws = vs := Value.arr.inj (hws.symm.trans hgiven.1)
      have hlt := hn (normaliseMethod host m) (List.mem_map_of_mem
        (List.mem_filterMap.mpr ⟨str m, hvs ▸ hmem, rfl⟩))
      rw [hmethod, normaliseMethod_zeros] at hlt
      simp at hlt

theorem prefixes_of_not_kept (h : ¬PrefixesKept value) :
    (capabilityOf host value).pathPrefixes.getD [] = [] ∧ ∃ vs, Given value "pathPrefixes" vs := by
  unfold PrefixesKept at h
  push Not at h
  obtain ⟨vs, hgiven, hmixed⟩ := h
  refine ⟨?_, vs, hgiven⟩
  have hnone : stringsOf (value.get "pathPrefixes") = none := by
    rw [hgiven.1]
    exact Option.eq_none_iff_forall_ne_some.mpr hmixed
  show (normalised id (value.get "pathPrefixes")).getD [] = []
  rw [normalised, hnone]
  rfl

/-- some method is allowed. -/
theorem exists_method (host : Host) (value : Value) : ∃ method,
    (capabilityOf host value).methods.getD [] ≠ [] →
      "*" ∈ (capabilityOf host value).methods.getD [] ∨
        normaliseMethod host method ∈ (capabilityOf host value).methods.getD [] := by
  by_cases hnil : (capabilityOf host value).methods.getD [] = []
  · exact ⟨"", fun h => absurd hnil h⟩
  · obtain ⟨m, hm⟩ := List.exists_mem_of_ne_nil _ hnil
    obtain ⟨t, -, rfl⟩ := listed_of_normalised hm
    exact ⟨_, fun _ => Or.inr (by rw [methods_again]; exact hm)⟩

/-- **What is allowed is covered exactly when the lists are kept.** -/
theorem nip98_within_iff {payload : Payload} (hgiven : value.truthy = true)
    (hpayload : payload.nip98 = some (capabilityOf host value)) :
    (∀ targetUrl method, assertNip98SigningAllowed host payload targetUrl method = none →
      Nip98Within host value targetUrl method) ↔ Nip98Kept host value := by
  constructor
  · intro h _
    constructor
    · by_contra hno
      rw [not_or] at hno
      obtain ⟨hkept, hpasses⟩ := hno
      push Not at hpasses
      obtain ⟨targetUrl, hpass⟩ := hpasses
      obtain ⟨hnil, vs, method, hvs, hmethod⟩ := methods_of_not_kept hkept
      have hallowed : assertNip98SigningAllowed host payload targetUrl method = none :=
        (nip98_allowed hpayload).mpr ⟨fun hne => absurd hnil hne, hpass⟩
      exact hmethod ((h targetUrl method hallowed).method vs hvs)
    · by_contra hno
      rw [not_or] at hno
      obtain ⟨hkept, houtside⟩ := hno
      push Not at houtside
      obtain ⟨targetUrl, parsed, hparsed, hhost, hurl, hpath⟩ := houtside
      obtain ⟨hnil, vs, hvs⟩ := prefixes_of_not_kept hkept
      obtain ⟨method, hmethod⟩ := exists_method host value
      have hallowed := (nip98_allowed hpayload).mpr
        ⟨hmethod, parsed, hparsed, Or.inr ⟨hhost, fun hne => absurd hnil hne⟩⟩
      obtain ⟨_, heq, hwithin⟩ := (h targetUrl method hallowed).url
      cases hparsed.symm.trans heq
      rcases hwithin with hlisted | ⟨-, hstart⟩
      · exact hurl hlisted
      · exact hpath (hstart vs hvs)
  · intro hkept targetUrl method hallowed
    obtain ⟨hmethods, hurlStarts⟩ := hkept hgiven
    obtain ⟨hmethod, hpass⟩ := (nip98_allowed hpayload).mp hallowed
    have hpass' := hpass
    obtain ⟨parsed, hparsed, hurl⟩ := hpass
    refine ⟨hgiven, fun vs hvs => ?_, parsed, hparsed, ?_⟩
    · rcases hmethods with hkept | hnone
      · exact methodListed_of_kept hkept hmethod hvs
      · exact absurd hpass' (hnone targetUrl)
    · rcases hurl with hmem | ⟨hhost, hpath⟩
      · obtain ⟨t, hlisted, rfl⟩ := listed_of_normalised hmem
        exact Or.inl hlisted
      · by_cases hlisted : Listed value "urls" parsed.href
        · exact Or.inl hlisted
        · refine Or.inr ⟨hostListed_of_read hhost, fun vs hvs => ?_⟩
          rcases hurlStarts with hkept | hnone
          · exact pathListed_of_kept hkept hpath hvs
          · by_contra hpathListed
            exact hnone targetUrl ⟨parsed, hparsed, hhost, hlisted, hpathListed⟩

/-! ## kinds -/

theorem integerOf_some {v : Value} {k : ℤ} (h : integerOf v = some k) : v = num k := by
  cases v with
  | num q =>
    obtain ⟨hden, h⟩ := Option.ite_none_right_eq_some.mp h
    cases h
    exact congrArg num (Rat.den_eq_one_iff q |>.mp hden).symm
  | _ => cases h

theorem mem_of_mapM_integerOf {kinds : List ℤ} (h : vs.mapM integerOf = some kinds) {k : ℤ} :
    k ∈ kinds ↔ num k ∈ vs := by
  induction vs generalizing kinds with
  | nil =>
    cases h
    simp
  | cons v vs ih =>
    rw [List.mapM_cons] at h
    obtain ⟨kind, hkind, h⟩ := Option.bind_eq_some_iff.mp h
    obtain ⟨kinds', hkinds, h⟩ := Option.bind_eq_some_iff.mp h
    cases h
    rw [List.mem_cons, List.mem_cons, ih hkinds, integerOf_some hkind]
    simp

theorem nostr_allowed {payload : Payload} {kind : Value}
    (hpayload : payload.nostr = some { kinds := integersOf (value.get "kinds") }) :
    assertNostrSigningAllowed payload kind = none ↔ ∃ k, integerOf kind = some k ∧ 0 ≤ k ∧
      ((integersOf (value.get "kinds")).getD [] ≠ [] →
        k ∈ (integersOf (value.get "kinds")).getD []) := by
  unfold assertNostrSigningAllowed
  rw [hpayload]
  dsimp only
  cases hkind : (integerOf kind).filter (0 ≤ ·) with
  | none =>
    refine ⟨nofun, fun ⟨k, hk, hpos, _⟩ => ?_⟩
    rw [hk] at hkind
    simp only [Option.filter_some, ite_eq_right_iff] at hkind
    exact absurd (hkind (decide_eq_true hpos)) nofun
  | some k =>
    obtain ⟨hk, hpos⟩ := Option.filter_eq_some_iff.mp hkind
    dsimp only
    by_cases hlist : (integersOf (value.get "kinds")).getD [] ≠ [] ∧
        k ∉ (integersOf (value.get "kinds")).getD []
    · rw [if_pos hlist]
      refine ⟨nofun, fun ⟨k', hk', _, hmem⟩ => ?_⟩
      cases hk.symm.trans hk'
      exact absurd (hmem hlist.1) hlist.2
    · rw [if_neg hlist]
      refine ⟨fun _ => ⟨k, hk, of_decide_eq_true hpos, fun hne => ?_⟩, fun _ => rfl⟩
      by_contra hno
      exact hlist ⟨hne, hno⟩

/-- **A kind that is allowed is covered exactly when the list is kept.** -/
theorem nostr_within_iff {payload : Payload} (hgiven : value.truthy = true)
    (hpayload : payload.nostr = some { kinds := integersOf (value.get "kinds") }) :
    (∀ kind, assertNostrSigningAllowed payload kind = none → NostrWithin value kind) ↔
      NostrKept value := by
  constructor
  · intro h _ vs hvs
    by_contra hno
    have hnone : integersOf (value.get "kinds") = none := by
      rw [hvs.1]
      exact Option.eq_none_iff_forall_ne_some.mpr fun kinds hkinds => hno ⟨kinds, hkinds⟩
    -- a kind that is greater than every integer of the list
    obtain ⟨k, hk⟩ : ∃ k : ℕ, ∀ v ∈ vs, ∀ n : ℤ, v = num n → n < k := by
      clear hvs hno
      induction vs with
      | nil => exact ⟨0, fun v hv => absurd hv List.not_mem_nil⟩
      | cons v vs ih =>
        obtain ⟨k, hk⟩ := ih
        refine ⟨k + (((integerOf v).getD 0).toNat + 1), fun w hw n hn => ?_⟩
        rcases List.mem_cons.mp hw with rfl | hw
        · subst hn
          have hint : integerOf (num (n : ℚ)) = some n := by simp [integerOf]
          rw [hint, Option.getD_some]
          omega
        · have hlt := hk w hw n hn
          omega
    have hallowed : assertNostrSigningAllowed payload (num ((k : ℤ) : ℚ)) = none := by
      refine (nostr_allowed hpayload).mpr ⟨k, by simp [integerOf], Int.natCast_nonneg k, ?_⟩
      rw [hnone]
      exact fun hne => absurd rfl hne
    have hlt := hk _ ((h _ hallowed).kind vs hvs) k rfl
    omega
  · intro hkept kind hallowed
    obtain ⟨k, hk, -, hmem⟩ := (nostr_allowed hpayload).mp hallowed
    refine ⟨hgiven, fun vs hvs => ?_⟩
    obtain ⟨kinds, hkinds⟩ := hkept hgiven vs hvs
    have hlist : integersOf (value.get "kinds") = some kinds := by rw [hvs.1, hkinds]
    rw [hlist, Option.getD_some] at hmem
    have hne : kinds ≠ [] := by
      rintro rfl
      obtain ⟨v, hv⟩ := List.exists_mem_of_ne_nil vs hvs.2
      cases vs with
      | nil => exact hvs.2 rfl
      | cons v vs =>
        have hcons : (v :: vs).mapM integerOf = some [] := hkinds
        rw [List.mapM_cons] at hcons
        obtain ⟨_, -, hcons⟩ := Option.bind_eq_some_iff.mp hcons
        obtain ⟨_, -, hcons⟩ := Option.bind_eq_some_iff.mp hcons
        cases hcons
    rw [integerOf_some hk]
    exact (mem_of_mapM_integerOf hkinds).mp (hmem hne)

end

/-! ## every token that verifies -/

/-- **No signature was forged**: the text that a token presents with its signature was signed by a call
of `mint`. -/
def Unforged (host : Host) (secret : String) (minted : List (TokenInput × ℚ)) (token : String) :
    Prop :=
  ∀ text, token = tokenOf text (signPayload host secret text) →
    ∃ m ∈ minted, ∃ ttlSeconds, m.1.ttlSeconds = some ttlSeconds ∧ 0 < ttlSeconds ∧
      text = host.encodeJson (payloadOf host m.1 ttlSeconds m.2).toValue

/-- **A token that verifies** was minted and has not expired, and covers what its input covers exactly
when its lists are kept. -/
theorem tokens_widen_nothing (host : Host) (secret : String) (minted : List (TokenInput × ℚ))
    (hread : ∀ m ∈ minted, ∀ ttlSeconds, m.1.ttlSeconds = some ttlSeconds →
      ReadsBack host (payloadOf host m.1 ttlSeconds m.2))
    (token : String) (hunforged : Unforged host secret minted token) (later : ℚ)
    {payload : Payload} (h : verify host secret token later = .ok payload) :
    ∃ m ∈ minted, mint host secret m.1 m.2 = .ok token ∧
      (∃ ttlSeconds, m.1.ttlSeconds = some ttlSeconds ∧
        seconds later < seconds m.2 + ttlSeconds.floor) ∧
      ((∀ targetUrl method, assertNip98SigningAllowed host payload targetUrl method = none →
        Nip98Within host m.1.nip98 targetUrl method) ↔ Nip98Kept host m.1.nip98) ∧
      ((∀ kind, assertNostrSigningAllowed payload kind = none → NostrWithin m.1.nostr kind) ↔
        NostrKept m.1.nostr) := by
  have hverify := h
  obtain ⟨_, hsecret, h⟩ := bind_ok.mp h
  obtain ⟨parts, hparts, h⟩ := bind_ok.mp h
  obtain ⟨_, hsignature, -⟩ := bind_ok.mp h
  have htoken := tokenOf_partsOf (orThrow_ok.mp hparts)
  have hsigned := not_not.mp (throwIf_ok.mp hsignature)
  rw [← hsigned] at htoken
  obtain ⟨m, hm, ttlSeconds, httl, hpos, htext⟩ := hunforged parts.1 htoken
  rw [htext] at htoken
  obtain ⟨hpayload, hlater⟩ := verify_tokenOf (hread m hm ttlSeconds httl) (htoken ▸ hverify)
  refine ⟨m, hm, ?_, ⟨ttlSeconds, httl, hlater⟩, ?_, ?_⟩
  · have hfilter : m.1.ttlSeconds.filter (0 < ·) = some ttlSeconds := by simp [httl, hpos]
    rw [mint, hfilter, htoken]
    exact bind_ok.mpr ⟨(), throwIf_ok.mpr (throwIf_ok.mp hsecret), rfl⟩
  · by_cases hgiven : m.1.nip98.truthy = true
    · refine nip98_within_iff hgiven ?_
      rw [hpayload, payloadOf, if_pos hgiven, normaliseNip98_getD]
    · refine ⟨fun _ h => absurd h hgiven, fun _ targetUrl method hallowed => ?_⟩
      have hnone : payload.nip98 = none := by rw [hpayload, payloadOf, if_neg hgiven]
      rw [assertNip98SigningAllowed, hnone] at hallowed
      cases hallowed
  · by_cases hgiven : m.1.nostr.truthy = true
    · refine nostr_within_iff hgiven ?_
      rw [hpayload, payloadOf, if_pos hgiven, normaliseNostr_getD]
    · refine ⟨fun _ h => absurd h hgiven, fun _ kind hallowed => ?_⟩
      have hnone : payload.nostr = none := by rw [hpayload, payloadOf, if_neg hgiven]
      rw [assertNostrSigningAllowed, hnone] at hallowed
      cases hallowed

/-! ## a list of blank methods -/

/-- a platform with one payload. -/
def someHost (payload : Payload) : Host where
  encodeJson _ := "e30"
  decodeJson _ := some payload.toValue
  hmac _ _ := "c2ln"
  hmac_text _ _ := by decide
  upper text := text
  lower text := text
  upper_again text := trim_trim text
  lower_again text := trim_trim text
  upper_zeros _ := rfl
  parseUrl text := if text = "https://api.example.com/" then
      some ⟨"https://api.example.com/", "api.example.com", "/"⟩
    else none

/-- an input for an hour. -/
def someInput (methods : List Value) : TokenInput where
  ttlSeconds := some 3600
  nip98 := obj [("hosts", arr [str "api.example.com"]), ("methods", arr methods)]

/-- what an input becomes. -/
def somePayload (methods : List Value) : Payload :=
  payloadOf (someHost { exp := 0 }) (someInput methods) 3600 0

def someToken : String := tokenOf "e30" "c2ln"

theorem payloadOf_some (payload : Payload) (methods : List Value) :
    payloadOf (someHost payload) (someInput methods) 3600 0 = somePayload methods := rfl

theorem readsBack_some (methods : List Value) : ∀ m ∈ [(someInput methods, (0 : ℚ))], ∀ ttlSeconds,
    m.1.ttlSeconds = some ttlSeconds → ReadsBack (someHost (somePayload methods))
      (payloadOf (someHost (somePayload methods)) m.1 ttlSeconds m.2) := by
  intro m hm ttlSeconds httl
  obtain rfl := List.mem_singleton.mp hm
  cases httl
  rw [payloadOf_some]
  have htext : ("e30" : String) ≠ "" ∧ '.' ∉ ("e30" : String).toList := by decide
  exact ⟨rfl, htext⟩

theorem unforged_some (payload : Payload) (methods : List Value) :
    Unforged (someHost payload) "secret" [(someInput methods, 0)] someToken := by
  intro text htext
  refine ⟨_, List.mem_singleton_self _, 3600, rfl, by decide, ?_⟩
  have hparts : partsOf (tokenOf text (signPayload (someHost payload) "secret" text)) =
      some ("e30", "c2ln") := by
    rw [← htext]
    decide +kernel
  have hsame := tokenOf_partsOf hparts
  have hlist := congrArg String.toList hsame
  simp only [tokenOf, signPayload, someHost, String.toList_append] at hlist
  exact String.toList_inj.mp (List.append_cancel_left (List.append_cancel_right
    (List.append_cancel_right hlist)))

/-- **A list of blank methods restricts nothing.** -/
theorem blank_methods :
    mint (someHost (somePayload [str " "])) "secret" (someInput [str " "]) 0 = .ok someToken ∧
      verify (someHost (somePayload [str " "])) "secret" someToken 0 =
        .ok (somePayload [str " "]) ∧
      assertNip98SigningAllowed (someHost (somePayload [str " "])) (somePayload [str " "])
        "https://api.example.com/" "DELETE" = none ∧
      ¬Nip98Within (someHost (somePayload [str " "])) (someInput [str " "]).nip98
        "https://api.example.com/" "DELETE" := by
  refine ⟨by decide +kernel, by decide +kernel, by decide +kernel, fun h => ?_⟩
  obtain ⟨m, ⟨vs, hvs, hm⟩, hmethod⟩ := h.method [str " "] ⟨rfl, by decide⟩
  have hvs : vs = [str " "] := Value.arr.inj (hvs.symm.trans rfl)
  rw [hvs, List.mem_singleton] at hm
  cases hm
  revert hmethod
  decide +kernel

theorem listed_methods : ∃ payload,
    verify (someHost (somePayload [str "GET"])) "secret" someToken 0 = .ok payload ∧
      ∃ m ∈ [(someInput [str "GET"], (0 : ℚ))],
        mint (someHost (somePayload [str "GET"])) "secret" m.1 m.2 = .ok someToken ∧
        ((∀ targetUrl method, assertNip98SigningAllowed (someHost (somePayload [str "GET"])) payload
          targetUrl method = none → Nip98Within (someHost (somePayload [str "GET"])) m.1.nip98
          targetUrl method) ↔ Nip98Kept (someHost (somePayload [str "GET"])) m.1.nip98) := by
  have hverify : verify (someHost (somePayload [str "GET"])) "secret" someToken 0 =
      .ok (somePayload [str "GET"]) := by
    decide +kernel
  obtain ⟨m, hm, hmint, -, hwithin, -⟩ := tokens_widen_nothing (someHost (somePayload [str "GET"]))
    "secret" [(someInput [str "GET"], 0)] (readsBack_some _) someToken (unforged_some _ _) 0 hverify
  exact ⟨_, hverify, m, hm, hmint, hwithin⟩

end Token
end Signing
end WmAutopilot
