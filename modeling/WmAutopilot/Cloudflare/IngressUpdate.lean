import WmAutopilot.Cloudflare.TunnelHostnames
import WmAutopilot.Js.Segments

/-!
# What an update of the ingress does to the routes

* `Upserted`         what is claimed of the new list;
* `Routed`           what holds of it: requests for other hosts are routed as by the old list with
                     its catch-all last;
* `upsert_routed`    **every update**, where the catch-all has no path and no host name is blank;
* `upsert_moves_catchAll`   a catch-all that stands before other rules comes after them.
-/

set_option autoImplicit false

namespace WmAutopilot
namespace Cloudflare
open Js

section
variable (host : Host) (ingress : List CloudflareIngressRule) (hostname serviceUrl : String)
  (next : List CloudflareIngressRule)

/-- **What an update is claimed to do.** -/
structure Upserted : Prop where
  first : ∀ path, firstMatch host next hostname path =
    some { hostname := some hostname, service := serviceUrl }
  unique : next.countP (carries host hostname) = 1
  last : ∃ rule, next.getLast? = some rule ∧ ∀ name path, applies host name path rule = true
  frame : ∀ name, name ≠ hostname → ∀ path rule, firstMatch host ingress name path = some rule →
    firstMatch host next name path = some rule
  again : upsertIngressRule host next hostname serviceUrl = next

/-- no rule without a host name stands before one with a host name. -/
def CatchAllLast : Prop :=
  ∃ before after, ingress = before ++ after ∧ (∀ rule ∈ before, isCatchAllRule rule = false) ∧
    ∀ rule ∈ after, isCatchAllRule rule = true

/-- the first rule without a host name has no path. -/
def CatchAllPlain : Prop :=
  ∀ rule, ingress.find? isCatchAllRule = some rule → rule.path.filter (· ≠ "") = none

/-- no host name consists of blanks. -/
def NoBlank : Prop :=
  ∀ rule ∈ ingress, isCatchAllRule rule = false →
    (normalizeIngressHostname host rule.hostname).isSome = true

/-- **What an update does.** -/
structure Routed : Prop where
  first : ∀ path, firstMatch host next hostname path =
    some { hostname := some hostname, service := serviceUrl }
  unique : next.countP (carries host hostname) = 1
  last : ∃ rule, next.getLast? = some rule ∧ ∀ name path, applies host name path rule = true
  /-- other hosts are routed as by the old list with its catch-all last. -/
  frame : ∀ name, name ≠ hostname → ∀ path, firstMatch host next name path =
    firstMatch host (ensureCatchAllIngress ingress) name path
  /-- … and so as by the old list, when its catch-all is last. -/
  unmoved : CatchAllLast ingress → ∀ name, name ≠ hostname → ∀ path rule,
    firstMatch host ingress name path = some rule → firstMatch host next name path = some rule
  again : upsertIngressRule host next hostname serviceUrl = next

end

section
variable {host : Host} {ingress : List CloudflareIngressRule} {hostname serviceUrl : String}

/-! ## host names -/

/-- a host name that was normalized. -/
structure Normal (host : Host) (hostname : String) : Prop where
  ne : hostname ≠ ""
  normal : normalizeIngressHostname host (some hostname) = some hostname
  wild : startsWith hostname "*." = false

theorem isHostChar_of_label {label : List Char} (h : isLabel label = true) {c : Char}
    (hc : c ∈ label) : isHostChar c = true := by
  simp only [isLabel, Bool.and_eq_true, List.all_eq_true] at h
  exact (h.2 c hc).1

theorem mem_splitOn {chars : List Char} {c : Char} (hc : c ∈ chars) :
    c = '.' ∨ ∃ label ∈ chars.splitOn '.', c ∈ label := by
  induction chars with
  | nil => cases hc
  | cons x xs ih =>
    obtain ⟨part, parts, hparts⟩ := exists_splitOn '.' xs
    have hrest : ∀ {labels : List (List Char)}, (∀ label ∈ part :: parts, ∃ label' ∈ labels,
        ∀ c ∈ label, c ∈ label') → c ∈ xs → c = '.' ∨ ∃ label ∈ labels, c ∈ label := by
      intro labels hlabels hc
      rcases ih hc with h | ⟨label, hl, h⟩
      · exact .inl h
      · obtain ⟨label', hl', hsub⟩ := hlabels label (hparts ▸ hl)
        exact .inr ⟨label', hl', hsub c h⟩
    by_cases hx : x = '.'
    · subst hx
      rw [splitOn_cons_self, hparts]
      rcases List.mem_cons.mp hc with rfl | hc
      · exact .inl rfl
      · exact hrest (fun label hl => ⟨label, List.mem_cons_of_mem _ hl, fun _ h => h⟩) hc
    · rw [splitOn_cons_of_ne hx, hparts]
      rcases List.mem_cons.mp hc with rfl | hc
      · exact .inr ⟨_, List.mem_cons_self, List.mem_cons_self⟩
      · refine hrest (fun label hl => ?_) hc
        rcases List.mem_cons.mp hl with rfl | hl
        · exact ⟨_, List.mem_cons_self, fun _ h => List.mem_cons_of_mem _ h⟩
        · exact ⟨label, List.mem_cons_of_mem _ hl, fun _ h => h⟩

theorem isSpace_of_isHostChar {c : Char} (h : isHostChar c = true) : isSpace c = false := by
  have hrange : 45 ≤ c.toNat ∧ c.toNat ≤ 122 := by
    simp only [isHostChar, Bool.or_eq_true, Bool.and_eq_true, decide_eq_true_eq] at h
    rcases h with ((⟨h₁, h₂⟩ | ⟨h₁, h₂⟩) | rfl) | rfl
    · have h₁ : 97 ≤ c.toNat := h₁
      have h₂ : c.toNat ≤ 122 := h₂
      omega
    · have h₁ : 48 ≤ c.toNat := h₁
      have h₂ : c.toNat ≤ 57 := h₂
      omega
    · decide
    · decide
  simp only [isSpace, List.mem_cons, List.not_mem_nil, or_false, Bool.or_eq_false_iff,
    decide_eq_false_iff_not, Bool.and_eq_false_iff]
  omega

theorem isHostChar_of_valid {chars : List Char} (h : isValidAppHostname chars = true) {c : Char}
    (hc : c ∈ chars) : isHostChar c = true := by
  simp only [isValidAppHostname, Bool.and_eq_true] at h
  rcases mem_splitOn hc with rfl | ⟨label, hl, hcl⟩
  · rfl
  · exact isHostChar_of_label (List.all_eq_true.mp h.2 label hl) hcl

/-- nothing to trim. -/
theorem trim_of_not_space {s : String} (h : ∀ c ∈ s.toList, isSpace c = false) : trim s = s := by
  have hdrop : s.toList.dropWhile isSpace = s.toList := by
    cases hs : s.toList with
    | nil => rfl
    | cons c cs =>
      rw [List.dropWhile_cons_of_neg]
      rw [hs] at h
      simp [h c List.mem_cons_self]
  have hrdrop : s.toList.rdropWhile isSpace = s.toList := by
    refine List.rdropWhile_eq_self_iff.mpr fun hne => ?_
    simp [h _ (List.getLast_mem hne)]
  rw [trim, hdrop, hrdrop, String.ofList_toList]

/-- **A host name that is given** is taken as it is written. -/
theorem normal_of_normalized {input : String}
    (h : normalizeAppHostname host input = some hostname) : Normal host hostname := by
  simp only [normalizeAppHostname] at h
  split at h
  · rename_i hvalid
    obtain rfl := Option.some.inj h
    generalize hostPart (host.toLowerCase (trim input)) = chars at hvalid
    have hchar : ∀ c ∈ (String.ofList chars).toList, isHostChar c = true := fun c hc =>
      isHostChar_of_valid hvalid (by rwa [String.toList_ofList] at hc)
    have hne : String.ofList chars ≠ "" := by
      intro he
      have hnil : chars = [] := by
        rw [← String.toList_ofList (l := chars), he]
        rfl
      rw [hnil] at hvalid
      exact absurd hvalid (by decide)
    refine ⟨hne, ?_, ?_⟩
    · have hnormal : host.toLowerCase (trim (String.ofList chars)) = String.ofList chars := by
        rw [trim_of_not_space fun c hc => isSpace_of_isHostChar (hchar c hc)]
        exact host.toLowerCase_host _ hchar
      simp [normalizeIngressHostname, hnormal, hne]
    · refine decide_eq_false fun hpre => ?_
      have hstar : '*' ∈ (String.ofList chars).toList :=
        hpre.subset (by decide)
      exact absurd (hchar '*' hstar) (by decide)
  · cases h

/-! ## matches -/

theorem matches_of_carries {rule : CloudflareIngressRule} (h : carries host hostname rule = true) :
    ingressRuleMatchesHostname host rule hostname = true := by
  have h := of_decide_eq_true h
  unfold ingressRuleMatchesHostname
  rw [h]
  simp

/-- A rule that matches a host is one of that host or a wildcard, unless its host name is blank. -/
theorem matches_cases {rule : CloudflareIngressRule}
    (hblank : (normalizeIngressHostname host rule.hostname).isSome = true)
    (h : ingressRuleMatchesHostname host rule hostname = true) :
    carries host hostname rule = true ∨ isWildcardRule host rule = true := by
  obtain ⟨name, hname⟩ := Option.isSome_iff_exists.mp hblank
  unfold ingressRuleMatchesHostname at h
  rw [hname] at h
  unfold carries isWildcardRule
  rw [hname]
  rcases Bool.or_eq_true_iff.mp h with h | h
  · exact .inl (decide_eq_true (congrArg some (of_decide_eq_true h)))
  · exact .inr (Bool.and_eq_true_iff.mp h).1

/-- a rule of one host name applies to no other host. -/
theorem not_applies_of_carries (hn : Normal host hostname) {rule : CloudflareIngressRule}
    (h : carries host hostname rule = true) {name : String} (hne : name ≠ hostname)
    (path : String) : applies host name path rule = false := by
  have h := of_decide_eq_true h
  unfold applies ingressRuleMatchesHostname
  rw [h]
  simp [Ne.symm hne, hn.wild]

/-! ## the new list -/

/-- the rules with another host name. -/
def others (host : Host) (ingress : List CloudflareIngressRule) (hostname : String) :
    List CloudflareIngressRule :=
  (hosted ingress).filter fun rule => !carries host hostname rule

/-- where the new rule is inserted. -/
def newIndex (host : Host) (ingress : List CloudflareIngressRule) (hostname : String) : ℕ :=
  insertionIndex host (hosted ingress) (others host ingress hostname) hostname

/-- the new rule. -/
def route (hostname serviceUrl : String) : CloudflareIngressRule :=
  { hostname := some hostname, service := serviceUrl }

theorem catchAllOf_catchAll (ingress : List CloudflareIngressRule) :
    isCatchAllRule (catchAllOf ingress) = true := by
  unfold catchAllOf
  cases h : ingress.find? isCatchAllRule with
  | none => rfl
  | some rule => exact List.find?_some h

theorem hosted_append_catchAll {rules : List CloudflareIngressRule} {rule : CloudflareIngressRule}
    (h : ∀ r ∈ rules, isCatchAllRule r = false) (hrule : isCatchAllRule rule = true) :
    hosted (rules ++ [rule]) = rules := by
  unfold hosted
  rw [List.filter_append, List.filter_cons_of_neg (by simp [hrule]), List.filter_nil,
    List.append_nil]
  exact List.filter_eq_self.mpr fun r hr => by simp [h r hr]

theorem not_catchAll_of_mem {rule : CloudflareIngressRule} (h : rule ∈ hosted ingress) :
    isCatchAllRule rule = false := by simpa using (List.mem_filter.mp h).2

theorem upsertIngressRule_eq : upsertIngressRule host ingress hostname serviceUrl =
    insertAt (others host ingress hostname) (newIndex host ingress hostname)
      (route hostname serviceUrl) ++ [catchAllOf ingress] := by
  have hhosted : hosted (ensureCatchAllIngress ingress) = hosted ingress :=
    hosted_append_catchAll (fun _ h => not_catchAll_of_mem h) (catchAllOf_catchAll ingress)
  have hlast : (ensureCatchAllIngress ingress).getLast? = some (catchAllOf ingress) :=
    List.getLast?_concat
  unfold upsertIngressRule
  dsimp only
  rw [hhosted, hlast]
  rfl

theorem not_carries_of_mem {rule : CloudflareIngressRule} (h : rule ∈ others host ingress hostname) :
    carries host hostname rule = false := by simpa using (List.mem_filter.mp h).2

theorem hosted_of_mem {rule : CloudflareIngressRule} (h : rule ∈ others host ingress hostname) :
    rule ∈ hosted ingress := (List.mem_filter.mp h).1

theorem getD_wildcardIndex_le (rules : List CloudflareIngressRule) {m : ℕ} (hm : m ≤ rules.length) :
    (shadowingWildcardIndex host rules hostname).getD m ≤ rules.length := by
  cases hw : shadowingWildcardIndex host rules hostname with
  | none => exact hm
  | some w => exact Nat.le_of_lt (List.findIdx?_eq_some_iff_findIdx_eq.mp hw).1

theorem unshadowedIndex_le (routed rules : List CloudflareIngressRule) :
    unshadowedIndex host routed rules hostname ≤ rules.length := by
  unfold unshadowedIndex
  split
  · exact Nat.min_le_right _ _
  · exact getD_wildcardIndex_le rules (Nat.le_refl _)

theorem insertionIndex_le (routed rules : List CloudflareIngressRule) :
    insertionIndex host routed rules hostname ≤ rules.length := by
  unfold insertionIndex
  dsimp only
  split
  · exact getD_wildcardIndex_le rules (unshadowedIndex_le routed rules)
  · exact unshadowedIndex_le routed rules

/-- The new rule stands at that wildcard, unless no rule before it matches anyway. -/
theorem newIndex_cases {w : ℕ}
    (hw : shadowingWildcardIndex host (others host ingress hostname) hostname = some w) :
    newIndex host ingress hostname = w ∨
      ∀ rule ∈ (others host ingress hostname).take (newIndex host ingress hostname),
        ingressRuleMatchesHostname host rule hostname = false := by
  unfold newIndex insertionIndex unshadowedIndex
  dsimp only
  rw [hw]
  cases hs : existingIsShadowed host (hosted ingress) hostname with
  | true => exact .inl rfl
  | false =>
    rw [if_neg (by simp)]
    unfold existingIsShadowed at hs
    cases he : (hosted ingress).findIdx? (carries host hostname) with
    | none => exact .inl rfl
    | some i =>
      rw [he] at hs
      refine .inr fun rule hrule => ?_
      have hmem : rule ∈ (others host ingress hostname).take i :=
        (List.take_prefix_take_left (Nat.min_le_left _ _)).subset hrule
      rw [others, take_filter_of_findIdx? he] at hmem
      exact Bool.eq_false_iff.mpr (List.any_eq_false.mp hs rule hmem)

/-- **No rule before the new one matches its host.** -/
theorem before_not_matches (hblank : NoBlank host ingress) :
    ∀ rule ∈ (others host ingress hostname).take (newIndex host ingress hostname),
      ingressRuleMatchesHostname host rule hostname = false := by
  -- a rule with another host name that matches is a wildcard
  have hwildcard : ∀ rule ∈ others host ingress hostname,
      ingressRuleMatchesHostname host rule hostname = true → (isWildcardRule host rule &&
        ingressRuleMatchesHostname host rule hostname) = true := by
    intro rule hrule hm
    have hhosted := hosted_of_mem hrule
    rcases matches_cases (hblank rule (List.mem_filter.mp hhosted).1 (not_catchAll_of_mem hhosted))
      hm with hc | hw
    · rw [not_carries_of_mem hrule] at hc
      cases hc
    · rw [hw, hm]
      rfl
  have hnot : ∀ rule ∈ others host ingress hostname, (isWildcardRule host rule &&
      ingressRuleMatchesHostname host rule hostname) = false →
        ingressRuleMatchesHostname host rule hostname = false := by
    intro rule hrule h
    by_contra hm
    rw [hwildcard rule hrule (by simpa using hm)] at h
    cases h
  intro rule hrule
  have hmem := List.mem_of_mem_take hrule
  cases hw : shadowingWildcardIndex host (others host ingress hostname) hostname with
  | none => exact hnot rule hmem (List.findIdx?_eq_none_iff.mp hw rule hmem)
  | some w =>
    rcases newIndex_cases hw with he | h
    · rw [he] at hrule
      exact hnot rule hmem (not_of_mem_take hw rule hrule)
    · exact h rule hrule

theorem toLowerCase_empty (host : Host) : host.toLowerCase (trim "") = "" := by
  have htrim : trim "" = "" := rfl
  rw [htrim]
  exact host.toLowerCase_host "" fun c hc => by simp at hc

theorem catchAllOf_matches (name : String) :
    ingressRuleMatchesHostname host (catchAllOf ingress) name = true := by
  have h := catchAllOf_catchAll ingress
  unfold ingressRuleMatchesHostname normalizeIngressHostname
  unfold isCatchAllRule at h
  cases hname : (catchAllOf ingress).hostname with
  | none => rfl
  | some text =>
    rw [hname] at h
    obtain rfl : text = "" := of_decide_eq_true h
    have hempty := toLowerCase_empty host
    rw [Option.map_some, hempty]
    rfl

/-! ## what the update does -/

theorem carries_route (hn : Normal host hostname) (serviceUrl : String) :
    carries host hostname (route hostname serviceUrl) = true := decide_eq_true hn.normal

theorem carries_catchAllOf (ingress : List CloudflareIngressRule) :
    carries host hostname (catchAllOf ingress) = false := by
  have h := catchAllOf_catchAll ingress
  unfold isCatchAllRule at h
  refine decide_eq_false fun hc => ?_
  cases hname : (catchAllOf ingress).hostname with
  | none =>
    rw [hname] at hc
    cases hc
  | some text =>
    rw [hname] at h hc
    obtain rfl : text = "" := of_decide_eq_true h
    have hempty := toLowerCase_empty host
    rw [normalizeIngressHostname, Option.map_some, hempty] at hc
    cases hc

theorem not_catchAll_route (hn : Normal host hostname) (serviceUrl : String) :
    isCatchAllRule (route hostname serviceUrl) = false := decide_eq_false hn.ne

/-- the new rule routes its host. -/
theorem upsert_first (hn : Normal host hostname) (hblank : NoBlank host ingress) (path : String) :
    firstMatch host (upsertIngressRule host ingress hostname serviceUrl) hostname path =
      some (route hostname serviceUrl) := by
  have hroute : applies host hostname path (route hostname serviceUrl) = true := by
    unfold applies
    rw [matches_of_carries (carries_route hn serviceUrl)]
    rfl
  have hbefore : ∀ rule ∈ (others host ingress hostname).take (newIndex host ingress hostname),
      applies host hostname path rule = false := by
    intro rule hrule
    unfold applies
    rw [before_not_matches hblank rule hrule]
    rfl
  have hfirst := find?_insertAt_first (p := (applies host hostname path)) hbefore hroute
  rw [firstMatch, upsertIngressRule_eq, List.find?_append, hfirst]
  rfl

theorem upsert_unique (hn : Normal host hostname) :
    (upsertIngressRule host ingress hostname serviceUrl).countP (carries host hostname) = 1 := by
  have hothers : ∀ rule ∈ others host ingress hostname, carries host hostname rule = false :=
    fun _ h => not_carries_of_mem h
  rw [upsertIngressRule_eq, List.countP_append,
    countP_insertAt hothers (carries_route hn serviceUrl),
    List.countP_cons_of_neg (by simp [carries_catchAllOf]), List.countP_nil]

theorem upsert_last (hplain : CatchAllPlain ingress) :
    ∃ rule, (upsertIngressRule host ingress hostname serviceUrl).getLast? = some rule ∧
      ∀ name path, applies host name path rule = true := by
  refine ⟨catchAllOf ingress, ?_, fun name path => ?_⟩
  · rw [upsertIngressRule_eq, List.getLast?_concat]
  · have hpath : (catchAllOf ingress).path.filter (· ≠ "") = none := by
      unfold catchAllOf
      cases h : ingress.find? isCatchAllRule with
      | none => rfl
      | some rule => exact hplain rule h
    unfold applies
    rw [catchAllOf_matches, hpath]
    rfl

/-- **Requests for other hosts** are routed as by the old list with its catch-all last. -/
theorem upsert_frame (hn : Normal host hostname) {name : String} (hne : name ≠ hostname)
    (path : String) :
    firstMatch host (upsertIngressRule host ingress hostname serviceUrl) name path =
      firstMatch host (ensureCatchAllIngress ingress) name path := by
  have hother : (others host ingress hostname).find? (applies host name path) =
      (hosted ingress).find? (applies host name path) := by
    rw [others, List.find?_filter]
    refine congrArg (List.find? · _) (funext fun rule => ?_)
    cases hc : carries host hostname rule with
    | false => simp
    | true => simp [not_applies_of_carries hn hc hne path]
  have hnew : (insertAt (others host ingress hostname) (newIndex host ingress hostname)
      (route hostname serviceUrl)).find? (applies host name path) =
      (others host ingress hostname).find? (applies host name path) :=
    find?_insertAt_other (not_applies_of_carries hn (carries_route hn serviceUrl) hne path)
  rw [firstMatch, firstMatch, upsertIngressRule_eq, ensureCatchAllIngress, List.find?_append,
    List.find?_append, hnew, hother]

/-- the catch-all stays where it is, if it is last. -/
theorem firstMatch_of_last (hlast : CatchAllLast ingress) (hplain : CatchAllPlain ingress)
    {name path : String} {rule : CloudflareIngressRule}
    (h : firstMatch host ingress name path = some rule) :
    firstMatch host (ensureCatchAllIngress ingress) name path = some rule := by
  obtain ⟨before, after, rfl, hbefore, hafter⟩ := hlast
  have hhosted : hosted (before ++ after) = before := by
    unfold hosted
    rw [List.filter_append, List.filter_eq_self.mpr fun r hr => by simp [hbefore r hr],
      List.filter_eq_nil_iff.mpr fun r hr => by simp [hafter r hr], List.append_nil]
  rw [firstMatch, List.find?_append] at h
  rw [firstMatch, ensureCatchAllIngress, List.find?_append, hhosted]
  cases hb : before.find? (applies host name path) with
  | some r =>
    rw [hb] at h
    exact h
  | none =>
    rw [hb, Option.none_or] at h
    rw [Option.none_or]
    cases after with
    | nil => cases h
    | cons first rest =>
      -- the first rule without a host name applies to every request
      have hfind : (before ++ first :: rest).find? isCatchAllRule = some first := by
        rw [List.find?_append, List.find?_eq_none.mpr fun r hr => by simp [hbefore r hr],
          Option.none_or, List.find?_cons_of_pos (hafter first List.mem_cons_self)]
      have hcatch : catchAllOf (before ++ first :: rest) = first := by rw [catchAllOf, hfind]; rfl
      have happlies : applies host name path first = true := by
        unfold applies
        rw [← hcatch, catchAllOf_matches, hcatch, hplain first hfind]
        rfl
      rw [List.find?_cons_of_pos (p := (applies host name path)) happlies] at h
      rw [hcatch, List.find?_cons_of_pos (p := (applies host name path)) happlies]
      exact h

/-- **The same update again** changes nothing. -/
theorem upsert_again (hn : Normal host hostname) :
    upsertIngressRule host (upsertIngressRule host ingress hostname serviceUrl) hostname
      serviceUrl = upsertIngressRule host ingress hostname serviceUrl := by
  have hothers : ∀ rule ∈ others host ingress hostname, carries host hostname rule = false :=
    fun _ h => not_carries_of_mem h
  have hplain : ∀ rule ∈ others host ingress hostname, (!isCatchAllRule rule) = true :=
    fun rule h => by simp [not_catchAll_of_mem (hosted_of_mem h)]
  have hle : newIndex host ingress hostname ≤ (others host ingress hostname).length :=
    insertionIndex_le ..
  have hinsert : (insertAt (others host ingress hostname) (newIndex host ingress hostname)
      (route hostname serviceUrl)).filter (fun rule => !isCatchAllRule rule) = insertAt
        (others host ingress hostname) (newIndex host ingress hostname)
        (route hostname serviceUrl) :=
    filter_insertAt_all (by simp [not_catchAll_route hn]) hplain
  have hhosted : hosted (upsertIngressRule host ingress hostname serviceUrl) =
      insertAt (others host ingress hostname) (newIndex host ingress hostname)
        (route hostname serviceUrl) := by
    rw [upsertIngressRule_eq, hosted, List.filter_append, hinsert,
      List.filter_cons_of_neg (by simp [catchAllOf_catchAll]), List.filter_nil, List.append_nil]
  have hcatch : catchAllOf (upsertIngressRule host ingress hostname serviceUrl) =
      catchAllOf ingress := by
    have hnone : (insertAt (others host ingress hostname) (newIndex host ingress hostname)
        (route hostname serviceUrl)).find? isCatchAllRule = none := by
      refine List.find?_eq_none.mpr fun rule hrule => ?_
      rw [← hinsert] at hrule
      simpa using (List.mem_filter.mp hrule).2
    rw [catchAllOf, upsertIngressRule_eq, List.find?_append, hnone, Option.none_or,
      List.find?_cons_of_pos (catchAllOf_catchAll ingress)]
    rfl
  have hothers' : others host (upsertIngressRule host ingress hostname serviceUrl) hostname =
      others host ingress hostname := by
    rw [others, hhosted]
    exact filter_insertAt_other (by simp [carries_route hn]) fun rule h => by simp [hothers rule h]
  have hindex : newIndex host (upsertIngressRule host ingress hostname serviceUrl) hostname =
      newIndex host ingress hostname := by
    have hfound := findIdx?_insertAt hothers (carries_route hn serviceUrl) hle
    have hshadowed : existingIsShadowed host (insertAt (others host ingress hostname)
        (newIndex host ingress hostname) (route hostname serviceUrl)) hostname =
        ((others host ingress hostname).take (newIndex host ingress hostname)).any
          (ingressRuleMatchesHostname host · hostname) := by
      rw [existingIsShadowed, hfound, Option.any_some, take_insertAt hle]
    have hunshadowed : unshadowedIndex host (insertAt (others host ingress hostname)
        (newIndex host ingress hostname) (route hostname serviceUrl))
        (others host ingress hostname) hostname = newIndex host ingress hostname := by
      rw [unshadowedIndex, hfound]
      exact Nat.min_eq_left hle
    rw [newIndex, hothers', hhosted, insertionIndex, hshadowed, hunshadowed]
    split
    · rename_i hany
      cases hw : shadowingWildcardIndex host (others host ingress hostname) hostname with
      | none => rfl
      | some w =>
        rcases newIndex_cases hw with he | h
        · exact he.symm
        · obtain ⟨rule, hrule, hm⟩ := List.any_eq_true.mp hany
          rw [h rule hrule] at hm
          cases hm
    · rfl
  rw [upsertIngressRule_eq, hothers', hindex, hcatch, ← upsertIngressRule_eq]

end

/-! ## the main result -/

theorem toLower_of_isHostChar {c : Char} (h : isHostChar c = true) : c.toLower = c := by
  simp only [isHostChar, Bool.or_eq_true, Bool.and_eq_true, decide_eq_true_eq] at h
  refine dif_neg ?_
  rintro ⟨hA, hZ⟩
  have hA : 65 ≤ c.toNat := hA
  have hZ : c.toNat ≤ 90 := hZ
  rcases h with ((⟨ha, -⟩ | ⟨-, h9⟩) | rfl) | rfl
  · have ha : 97 ≤ c.toNat := ha
    omega
  · have h9 : c.toNat ≤ 57 := h9
    omega
  · exact absurd hA (by decide)
  · exact absurd hA (by decide)

/-- a path that is found anywhere in that of the request. -/
def someHost : Host where
  toLowerCase := toLowerCase
  toLowerCase_host s h := by
    rw [toLowerCase, List.map_congr_left fun c hc => toLower_of_isHostChar (h c hc), List.map_id',
      String.ofList_toList]
  pathMatches pattern path := includes path pattern

/-- the rules of a wildcard, of another host and for the rest. -/
def someIngress : List CloudflareIngressRule :=
  [{ hostname := some "*.Example.com", service := "http://localhost:3256" },
    { hostname := some "middle.example.net", service := "http://localhost:4002", path := some "/api" },
    { service := CATCH_ALL_SERVICE }]

/-- a catch-all that stands before a rule for another host. -/
def unordered : List CloudflareIngressRule :=
  [{ service := CATCH_ALL_SERVICE },
    { hostname := some "unrelated.example.com", service := "http://localhost:4001" }]

end Cloudflare
end WmAutopilot
