import WmAutopilot.Js.Throw
import WmAutopilot.Signing.PolicyDraft

/-!
# Events under a kind rule

* `checkNostrEvent`   what the broker checks of an event of a custom kind, before it signs;
* `ReadRule`          what the reader of kind rules has checked of a rule;
* `leastTags`         the shortest tags that a rule can ask for;
* `usable_iff`        a rule that was read has an event exactly when its required tags fit together.

A pair of `requiredTags` is checked against `maxTagBytes` by itself; only `normalizeExactTags` adds
the pairs up, and it leaves before it does so when there are no exact tags.
-/

set_option autoImplicit false

namespace WmAutopilot
namespace Signing
open Js Value

/-! ## the checks of the broker -/

/-- content and tags: their types, the bytes of the content and the number of tags. -/
def checkNostrShape (rule : NostrKindConstraint) (content tags : Value) :
    Except String (String × List (List String)) := do
  let text ← orThrow "Nostr event content exceeds policy" (stringOf content)
  throwIf (rule.maxContentBytes < (text.utf8ByteSize : ℤ)) "Nostr event content exceeds policy"
  let values ← orThrow "Nostr event tags exceed policy" tags.elements
  throwIf (rule.maxTags < (values.length : ℤ)) "Nostr event tags exceed policy"
  let stringTags ← orThrow "Nostr event tags exceed policy" (values.mapM stringsOf)
  pure (text, stringTags)

/-- the bytes and the names of the tags, required tags and exact tags. -/
def checkNostrTags (rule : NostrKindConstraint) (stringTags : List (List String)) :
    Except String Unit := do
  throwIf (rule.maxTagBytes < tagBytes stringTags) "Nostr event tags exceed byte policy"
  throwIf (∃ tag ∈ stringTags, tag.head?.getD "" ∉ rule.allowedTagNames)
    "Nostr event tag is not allowed"
  throwIf (∃ required ∈ rule.requiredTags, ¬∃ tag ∈ stringTags,
      tag[0]? = some required.1 ∧ tag[1]? = some required.2)
    "Nostr event is missing a required tag"
  throwIf (matchesExactNostrTags stringTags rule.exactTags = false)
    "Nostr event violates an exact tag constraint"

/-- `handleNostrEvent` once the rule of the kind is found; `reservedEventError` looks at a few kinds
that have a protocol of their own. -/
def checkNostrEvent (reservedEventError : ℤ → String → List (List String) → Option String)
    (rule : NostrKindConstraint) (content tags : Value) :
    Except String (String × List (List String)) := do
  let event ← checkNostrShape rule content tags
  throwIf ((reservedEventError rule.kind event.1 event.2).isSome = true)
    ((reservedEventError rule.kind event.1 event.2).getD "")
  checkNostrTags rule event.2
  pure event

/-- Some event passes all that is checked under the rule. -/
def Usable (rule : NostrKindConstraint) : Prop :=
  ∃ content tags text stringTags, checkNostrShape rule content tags = .ok (text, stringTags) ∧
    checkNostrTags rule stringTags = .ok ()

/-- `[name, value]` -/
def requiredTag (required : String × String) : List String := [required.1, required.2]

/-- There are exact tags, or all required tags together keep to the bytes of the rule. -/
def Budgeted (rule : NostrKindConstraint) : Prop :=
  rule.exactTags.getD [] ≠ [] ∨ tagBytes (rule.requiredTags.map requiredTag) ≤ rule.maxTagBytes

section
variable {rule : NostrKindConstraint} {value content tags : Value} {text : String}
  {stringTags : List (List String)}

/-! ## what the checks say -/

theorem checkNostrShape_ok : checkNostrShape rule content tags = .ok (text, stringTags) ↔
    stringOf content = some text ∧ (text.utf8ByteSize : ℤ) ≤ rule.maxContentBytes ∧
      ∃ values, tags.elements = some values ∧ (values.length : ℤ) ≤ rule.maxTags ∧
        values.mapM stringsOf = some stringTags := by
  unfold checkNostrShape
  constructor
  · intro h
    obtain ⟨text', htext, h⟩ := bind_ok.mp h
    obtain ⟨_, hbytes, h⟩ := bind_ok.mp h
    obtain ⟨values, hvalues, h⟩ := bind_ok.mp h
    obtain ⟨_, hcount, h⟩ := bind_ok.mp h
    obtain ⟨stringTags', htags, h⟩ := bind_ok.mp h
    obtain ⟨rfl, rfl⟩ := Prod.mk.inj (Except.ok.inj h)
    exact ⟨orThrow_ok.mp htext, not_lt.mp (throwIf_ok.mp hbytes), values, orThrow_ok.mp hvalues,
      not_lt.mp (throwIf_ok.mp hcount), orThrow_ok.mp htags⟩
  · intro ⟨htext, hbytes, values, hvalues, hcount, htags⟩
    refine bind_ok.mpr ⟨text, orThrow_ok.mpr htext, ?_⟩
    refine bind_ok.mpr ⟨(), throwIf_ok.mpr (not_lt.mpr hbytes), ?_⟩
    refine bind_ok.mpr ⟨values, orThrow_ok.mpr hvalues, ?_⟩
    refine bind_ok.mpr ⟨(), throwIf_ok.mpr (not_lt.mpr hcount), ?_⟩
    exact bind_ok.mpr ⟨stringTags, orThrow_ok.mpr htags, rfl⟩

theorem checkNostrTags_ok : checkNostrTags rule stringTags = .ok () ↔
    tagBytes stringTags ≤ rule.maxTagBytes ∧
      (∀ tag ∈ stringTags, tag.head?.getD "" ∈ rule.allowedTagNames) ∧
      (∀ required ∈ rule.requiredTags, ∃ tag ∈ stringTags,
        tag[0]? = some required.1 ∧ tag[1]? = some required.2) ∧
      matchesExactNostrTags stringTags rule.exactTags = true := by
  unfold checkNostrTags
  constructor
  · intro h
    obtain ⟨_, hbytes, h⟩ := bind_ok.mp h
    obtain ⟨_, hnames, h⟩ := bind_ok.mp h
    obtain ⟨_, hrequired, h⟩ := bind_ok.mp h
    refine ⟨not_lt.mp (throwIf_ok.mp hbytes), fun tag htag => ?_, fun required hmem => ?_, ?_⟩
    · by_contra hname
      exact throwIf_ok.mp hnames ⟨tag, htag, hname⟩
    · by_contra hnone
      exact throwIf_ok.mp hrequired ⟨required, hmem, hnone⟩
    · exact Bool.eq_true_of_not_eq_false (throwIf_ok.mp h)
  · intro ⟨hbytes, hnames, hrequired, hexact⟩
    refine bind_ok.mpr ⟨(), throwIf_ok.mpr (not_lt.mpr hbytes), ?_⟩
    refine bind_ok.mpr ⟨(), throwIf_ok.mpr fun ⟨tag, htag, hname⟩ => hname (hnames tag htag), ?_⟩
    refine bind_ok.mpr ⟨(), throwIf_ok.mpr fun ⟨required, hmem, hnone⟩ =>
      hnone (hrequired required hmem), ?_⟩
    exact throwIf_ok.mpr fun hfalse => Bool.false_ne_true (hfalse.symm.trans hexact)

/-- **The broker signs an event exactly when it passes under the rule and no protocol reserves
its kind.** -/
theorem checkNostrEvent_ok {reserved : ℤ → String → List (List String) → Option String} :
    checkNostrEvent reserved rule content tags = .ok (text, stringTags) ↔
      checkNostrShape rule content tags = .ok (text, stringTags) ∧
        reserved rule.kind text stringTags = none ∧ checkNostrTags rule stringTags = .ok () := by
  unfold checkNostrEvent
  constructor
  · intro h
    obtain ⟨event, hshape, h⟩ := bind_ok.mp h
    obtain ⟨_, hreserved, h⟩ := bind_ok.mp h
    obtain ⟨_, htags, h⟩ := bind_ok.mp h
    obtain rfl := Except.ok.inj h
    exact ⟨hshape, by simpa using throwIf_ok.mp hreserved, htags⟩
  · intro ⟨hshape, hreserved, htags⟩
    refine bind_ok.mpr ⟨(text, stringTags), hshape, ?_⟩
    refine bind_ok.mpr ⟨(), throwIf_ok.mpr (by simp [hreserved]), ?_⟩
    exact bind_ok.mpr ⟨(), htags, rfl⟩

/-! ## bytes of tags -/

theorem foldl_bytes (texts : List String) (n : ℤ) :
    texts.foldl (fun bytes text => bytes + (text.utf8ByteSize : ℤ)) n =
      n + texts.foldl (fun bytes text => bytes + (text.utf8ByteSize : ℤ)) 0 := by
  induction texts generalizing n with
  | nil => exact (Int.add_zero n).symm
  | cons text texts ih =>
    rw [List.foldl_cons, List.foldl_cons, ih, ih (0 + _)]
    omega

theorem tagBytes_append (left right : List (List String)) :
    tagBytes (left ++ right) = tagBytes left + tagBytes right := by
  unfold tagBytes
  rw [List.flatten_append, List.foldl_append, foldl_bytes]

theorem tagBytes_cons (tag : List String) (tags : List (List String)) :
    tagBytes (tag :: tags) = tagBytes [tag] + tagBytes tags :=
  tagBytes_append [tag] tags

theorem tagBytes_nonneg (tags : List (List String)) : 0 ≤ tagBytes tags := by
  unfold tagBytes
  induction tags.flatten with
  | nil => exact le_rfl
  | cons text texts ih =>
    rw [List.foldl_cons, foldl_bytes]
    omega

/-- a tag that starts with a required pair has its bytes. -/
theorem requiredTag_bytes_le {tag : List String} {required : String × String}
    (hname : tag[0]? = some required.1) (hvalue : tag[1]? = some required.2) :
    tagBytes [requiredTag required] ≤ tagBytes [tag] := by
  obtain _ | ⟨name, _ | ⟨value, rest⟩⟩ := tag
  · cases hname
  · cases hvalue
  · obtain rfl : name = required.1 := Option.some.inj hname
    obtain rfl : value = required.2 := Option.some.inj hvalue
    have hsplit : tagBytes [required.1 :: required.2 :: rest] =
        tagBytes [requiredTag required] + tagBytes [rest] := by
      unfold tagBytes requiredTag
      rw [List.flatten_singleton, List.flatten_singleton, List.flatten_singleton]
      show ([required.1, required.2] ++ rest).foldl _ 0 = _
      rw [List.foldl_append, foldl_bytes]
    have hrest := tagBytes_nonneg [rest]
    omega

/-- **Different required pairs stand in different tags.** -/
theorem required_bytes_le {required : List (String × String)} (hnodup : required.Nodup)
    (h : ∀ pair ∈ required, ∃ tag ∈ stringTags, tag[0]? = some pair.1 ∧ tag[1]? = some pair.2) :
    tagBytes (required.map requiredTag) ≤ tagBytes stringTags := by
  induction required generalizing stringTags with
  | nil => exact tagBytes_nonneg stringTags
  | cons pair required ih =>
    obtain ⟨hpair, hnodup⟩ := List.nodup_cons.mp hnodup
    obtain ⟨tag, htag, hname, hvalue⟩ := h pair List.mem_cons_self
    obtain ⟨before, after, rfl⟩ := List.append_of_mem htag
    have hrest : tagBytes (required.map requiredTag) ≤ tagBytes (before ++ after) := by
      refine ih hnodup fun other hother => ?_
      obtain ⟨tag', htag', hname', hvalue'⟩ := h other (List.mem_cons_of_mem _ hother)
      have hne : tag' ≠ tag := by
        rintro rfl
        have hsame : other = pair := Prod.ext (Option.some.inj (hname'.symm.trans hname))
          (Option.some.inj (hvalue'.symm.trans hvalue))
        exact hpair (hsame ▸ hother)
      refine ⟨tag', ?_, hname', hvalue'⟩
      rcases List.mem_append.mp htag' with htag' | htag'
      · exact List.mem_append_left _ htag'
      · exact List.mem_append_right _ ((List.mem_cons.mp htag').resolve_left hne)
    have htagBytes := requiredTag_bytes_le hname hvalue
    rw [List.map_cons, tagBytes_cons, tagBytes_append, tagBytes_cons tag after]
    rw [tagBytes_append] at hrest
    omega

/-! ## what the reader has checked -/

/-- the names of exact tags. -/
def exactNames (rule : NostrKindConstraint) : List (Option String) :=
  (rule.exactTags.getD []).map (·.head?)

/-- the required pairs whose name no exact tag has. -/
def remainingRequired (rule : NostrKindConstraint) : List (String × String) :=
  rule.requiredTags.filter fun required =>
    !(exactNames rule).any fun name => decide (name = some required.1)

/-- the exact tags, and the required pairs that are left. -/
def leastTags (rule : NostrKindConstraint) : List (List String) :=
  rule.exactTags.getD [] ++ (remainingRequired rule).map requiredTag

section
variable {rule : NostrKindConstraint}

theorem not_any_exactNames {name : String} :
    (!(exactNames rule).any fun other => decide (other = some name)) = true ↔
      some name ∉ exactNames rule := by
  rw [Bool.not_eq_true', List.any_eq_false]
  constructor
  · intro hnone hmem
    exact hnone _ hmem (decide_eq_true rfl)
  · intro hnot other hother hsame
    obtain rfl := of_decide_eq_true hsame
    exact hnot hother

theorem mem_remainingRequired {required : String × String} : required ∈ remainingRequired rule ↔
    required ∈ rule.requiredTags ∧ some required.1 ∉ exactNames rule := by
  unfold remainingRequired
  rw [List.mem_filter, not_any_exactNames]

theorem remainingRequired_eq : remainingRequired rule = rule.requiredTags.filter fun required =>
    some required.1 ∉ (rule.exactTags.getD []).map (·.head?) := by
  refine List.filter_congr fun required _ => ?_
  exact Bool.eq_iff_iff.mpr (not_any_exactNames.trans decide_eq_true_iff.symm)

end

/-- What is known of a rule that was read. -/
structure ReadRule (rule : NostrKindConstraint) : Prop where
  content : 0 ≤ rule.maxContentBytes
  named : ∀ required ∈ rule.requiredTags, required.1 ∈ rule.allowedTagNames
  counted : (rule.requiredTags.length : ℤ) ≤ rule.maxTags
  distinct : rule.requiredTags.Nodup
  exact : ∀ tag ∈ rule.exactTags.getD [], ∃ name values, tag = name :: values ∧
    name ∈ rule.allowedTagNames ∧
    ∀ required ∈ rule.requiredTags, required.1 = name → values.head? = some required.2
  exactNodup : (exactNames rule).Nodup
  exactBudget : rule.exactTags.getD [] ≠ [] → ((leastTags rule).length : ℤ) ≤ rule.maxTags ∧
    tagBytes (leastTags rule) ≤ rule.maxTagBytes

theorem readBounded_ok {key : String} {max n : ℤ} (h : readBounded value key max = .ok n) :
    0 ≤ n := by
  unfold readBounded at h
  split at h
  · split at h
    · next hbounds =>
      obtain rfl := Except.ok.inj h
      exact hbounds.1
    · cases h
  · cases h

theorem readRequiredTag_ok {names : List String} {maxTagBytes : ℤ} {pair : String × String}
    (h : readRequiredTag names maxTagBytes value = .ok pair) : pair.1 ∈ names := by
  unfold readRequiredTag at h
  split at h
  · obtain ⟨_, hname, h⟩ := bind_ok.mp h
    obtain ⟨_, -, h⟩ := bind_ok.mp h
    obtain rfl := Except.ok.inj h
    exact not_not.mp (throwIf_ok.mp hname)
  · cases h

theorem readRequiredTags_ok {names : List String} {maxTags maxTagBytes : ℤ}
    {required : List (String × String)}
    (h : readRequiredTags value names maxTags maxTagBytes = .ok required) :
    (∀ pair ∈ required, pair.1 ∈ names) ∧ (required.length : ℤ) ≤ maxTags ∧ required.Nodup := by
  unfold readRequiredTags at h
  split at h
  · cases h
  · obtain ⟨read, hread, h⟩ := bind_ok.mp h
    obtain ⟨_, hcount, h⟩ := bind_ok.mp h
    obtain ⟨_, hdistinct, h⟩ := bind_ok.mp h
    obtain rfl := Except.ok.inj h
    refine ⟨fun pair hpair => ?_, not_lt.mp (throwIf_ok.mp hcount),
      not_not.mp (throwIf_ok.mp hdistinct)⟩
    obtain ⟨_, -, hpair⟩ := mem_of_mapM_ok hread pair hpair
    exact readRequiredTag_ok hpair

theorem readExactTag_ok {names : List String} {required : List (String × String)}
    {seen tag : List String} (h : readExactTag names required seen value = .ok tag) :
    ∃ name values, tag = name :: values ∧ name ∈ names ∧ name ∉ seen ∧
      ∀ pair ∈ required, pair.1 = name → values.head? = some pair.2 := by
  unfold readExactTag at h
  split at h
  · next name values _ =>
    obtain ⟨_, hname, h⟩ := bind_ok.mp h
    obtain ⟨_, hseen, h⟩ := bind_ok.mp h
    obtain ⟨_, hrequired, h⟩ := bind_ok.mp h
    obtain rfl := Except.ok.inj h
    refine ⟨name, values, rfl, not_not.mp (throwIf_ok.mp hname), throwIf_ok.mp hseen, ?_⟩
    intro pair hpair hsame
    by_contra hvalue
    exact throwIf_ok.mp hrequired ⟨pair, hpair, hsame, hvalue⟩
  · cases h

theorem readExactTags_ok {names : List String} {required : List (String × String)}
    {seen : List String} {values : List Value} {tags : List (List String)}
    (h : readExactTags names required seen values = .ok tags) :
    (∀ tag ∈ tags, ∃ name rest, tag = name :: rest ∧ name ∈ names ∧ name ∉ seen ∧
      ∀ pair ∈ required, pair.1 = name → rest.head? = some pair.2) ∧
    (tags.map (·.head?)).Nodup := by
  induction values generalizing seen tags with
  | nil =>
    cases h
    exact ⟨fun tag htag => absurd htag List.not_mem_nil, List.nodup_nil⟩
  | cons value values ih =>
    unfold readExactTags at h
    obtain ⟨tag, htag, h⟩ := bind_ok.mp h
    obtain ⟨tags', htags', h⟩ := bind_ok.mp h
    obtain rfl := Except.ok.inj h
    obtain ⟨hall, hnodup⟩ := ih htags'
    obtain ⟨name, rest, rfl, hfirst⟩ := readExactTag_ok htag
    refine ⟨fun other hother => ?_, ?_⟩
    · rcases List.mem_cons.mp hother with rfl | hother
      · exact ⟨name, rest, rfl, hfirst⟩
      · obtain ⟨name', rest', hother', hname, hseen, hrequired⟩ := hall other hother
        exact ⟨name', rest', hother', hname, fun hmem => hseen (List.mem_cons_of_mem _ hmem),
          hrequired⟩
    · refine List.nodup_cons.mpr ⟨fun hmem => ?_, hnodup⟩
      obtain ⟨other, hother, hhead⟩ := List.mem_map.mp hmem
      obtain ⟨name', rest', rfl, -, hseen, -⟩ := hall other hother
      obtain rfl : name' = name := Option.some.inj hhead
      exact hseen List.mem_cons_self

/-- exact tags that were read, with what is known when there are any. -/
theorem normalizeExactTags_ok {names : List String} {required : List (String × String)}
    {maxTags maxTagBytes : ℤ} {tags : Option (List (List String))}
    (h : normalizeExactTags value names required maxTags maxTagBytes = .ok tags) :
    tags.getD [] = [] ∨
      ∃ values, readExactTags names required [] values = .ok (tags.getD []) ∧
        (((tags.getD []).length + (required.filter fun pair =>
          some pair.1 ∉ (tags.getD []).map (·.head?)).length : ℕ) : ℤ) ≤ maxTags ∧
        tagBytes (tags.getD [] ++ (required.filter fun pair =>
          some pair.1 ∉ (tags.getD []).map (·.head?)).map requiredTag) ≤ maxTagBytes := by
  unfold normalizeExactTags at h
  split at h
  · cases h
    exact .inl rfl
  · split at h
    · cases h
    · cases h
      exact .inl rfl
    · obtain ⟨read, hread, h⟩ := bind_ok.mp h
      obtain ⟨_, hcount, h⟩ := bind_ok.mp h
      obtain ⟨_, hbytes, h⟩ := bind_ok.mp h
      obtain rfl := Except.ok.inj h
      exact .inr ⟨_, hread, not_lt.mp (throwIf_ok.mp hcount), not_lt.mp (throwIf_ok.mp hbytes)⟩

theorem readKindRule_readRule {kinds : List ℤ} (h : readKindRule kinds value = .ok rule) :
    ReadRule rule := by
  unfold readKindRule at h
  obtain ⟨_, -, h⟩ := bind_ok.mp h
  split at h
  · cases h
  · obtain ⟨_, -, h⟩ := bind_ok.mp h
    obtain ⟨maxContentBytes, hcontent, h⟩ := bind_ok.mp h
    obtain ⟨maxTags, -, h⟩ := bind_ok.mp h
    obtain ⟨maxTagBytes, -, h⟩ := bind_ok.mp h
    obtain ⟨names, -, h⟩ := bind_ok.mp h
    obtain ⟨required, hrequired, h⟩ := bind_ok.mp h
    obtain ⟨exactTags, hexact, h⟩ := bind_ok.mp h
    obtain rfl := Except.ok.inj h
    obtain ⟨hnamed, hcounted, hdistinct⟩ := readRequiredTags_ok hrequired
    obtain hnone | ⟨values, hvalues, hcount, hbytes⟩ := normalizeExactTags_ok hexact
    · refine ⟨readBounded_ok hcontent, hnamed, hcounted, hdistinct, ?_, ?_, ?_⟩
      · intro tag htag
        rw [hnone] at htag
        exact absurd htag List.not_mem_nil
      · show ((exactTags.getD []).map (·.head?)).Nodup
        rw [hnone]
        exact List.nodup_nil
      · exact fun hne => absurd hnone hne
    · obtain ⟨hall, hnodup⟩ := readExactTags_ok hvalues
      refine ⟨readBounded_ok hcontent, hnamed, hcounted, hdistinct, ?_, hnodup, fun _ => ⟨?_, ?_⟩⟩
      · intro tag htag
        obtain ⟨name, rest, heq, hname, -, hpairs⟩ := hall tag htag
        exact ⟨name, rest, heq, hname, hpairs⟩
      · rw [leastTags, List.length_append, List.length_map, remainingRequired_eq]
        exact hcount
      · rw [leastTags, remainingRequired_eq]
        exact hbytes

/-! ## the least tags -/

theorem ReadRule.head_mem_exactNames (h : ReadRule rule) {tag : List String}
    (htag : tag ∈ rule.exactTags.getD []) :
    ∃ name values, tag = name :: values ∧ some name ∈ exactNames rule := by
  obtain ⟨name, values, rfl, -⟩ := h.exact tag htag
  exact ⟨name, values, rfl, List.mem_map.mpr ⟨_, htag, rfl⟩⟩

theorem mem_leastTags {tag : List String} : tag ∈ leastTags rule ↔
    tag ∈ rule.exactTags.getD [] ∨ ∃ required ∈ rule.requiredTags,
      some required.1 ∉ exactNames rule ∧ requiredTag required = tag := by
  unfold leastTags
  rw [List.mem_append, List.mem_map]
  refine or_congr_right ⟨?_, ?_⟩
  · rintro ⟨required, hmem, heq⟩
    obtain ⟨hmem, hname⟩ := mem_remainingRequired.mp hmem
    exact ⟨required, hmem, hname, heq⟩
  · rintro ⟨required, hmem, hname, heq⟩
    exact ⟨required, mem_remainingRequired.mpr ⟨hmem, hname⟩, heq⟩

theorem ReadRule.leastTags_allowed (h : ReadRule rule) :
    ∀ tag ∈ leastTags rule, tag.head?.getD "" ∈ rule.allowedTagNames := by
  intro tag htag
  rcases mem_leastTags.mp htag with htag | ⟨required, hmem, -, rfl⟩
  · obtain ⟨name, values, rfl, hname, -⟩ := h.exact tag htag
    exact hname
  · exact h.named required hmem

theorem ReadRule.leastTags_required (h : ReadRule rule) :
    ∀ required ∈ rule.requiredTags, ∃ tag ∈ leastTags rule,
      tag[0]? = some required.1 ∧ tag[1]? = some required.2 := by
  intro required hmem
  by_cases hname : some required.1 ∈ exactNames rule
  · -- the exact tag of this name has the required value
    obtain ⟨tag, htag, hhead⟩ := List.mem_map.mp hname
    obtain ⟨name, values, rfl, -, hvalue⟩ := h.exact tag htag
    obtain rfl : name = required.1 := Option.some.inj hhead
    refine ⟨_, mem_leastTags.mpr (.inl htag), rfl, ?_⟩
    rw [List.getElem?_cons_succ, ← List.head?_eq_getElem?]
    exact hvalue required hmem rfl
  · exact ⟨requiredTag required, mem_leastTags.mpr (.inr ⟨required, hmem, hname, rfl⟩), rfl, rfl⟩

/-- among tags with different names, the tags with the name of one of them. -/
theorem filter_head_eq {tags : List (List String)} (hnodup : (tags.map (·.head?)).Nodup)
    {expected : List String} (hmem : expected ∈ tags) :
    tags.filter (fun tag => tag.head? = expected.head?) = [expected] := by
  induction tags with
  | nil => exact absurd hmem List.not_mem_nil
  | cons tag tags ih =>
    obtain ⟨hnew, hnodup⟩ := List.nodup_cons.mp hnodup
    rcases List.mem_cons.mp hmem with rfl | hmem
    · have hrest : tags.filter (fun tag => tag.head? = expected.head?) = [] := by
        refine List.filter_eq_nil_iff.mpr fun other hother hsame => hnew ?_
        exact List.mem_map.mpr ⟨other, hother, of_decide_eq_true hsame⟩
      rw [List.filter_cons, if_pos (decide_eq_true rfl), hrest]
    · have hne : ¬decide (tag.head? = expected.head?) = true := by
        intro hsame
        refine hnew (List.mem_map.mpr ⟨expected, hmem, ?_⟩)
        exact (of_decide_eq_true hsame).symm
      rw [List.filter_cons, if_neg hne]
      exact ih hnodup hmem

theorem ReadRule.leastTags_exact (h : ReadRule rule) :
    matchesExactNostrTags (leastTags rule) rule.exactTags = true := by
  unfold matchesExactNostrTags
  refine List.all_eq_true.mpr fun expected hmem => ?_
  have hmatches : (leastTags rule).filter (fun tag => tag.head? = expected.head?) = [expected] := by
    have hothers : ((remainingRequired rule).map requiredTag).filter
        (fun tag => tag.head? = expected.head?) = [] := by
      refine List.filter_eq_nil_iff.mpr fun tag htag hsame => ?_
      obtain ⟨required, hrequired, rfl⟩ := List.mem_map.mp htag
      refine (mem_remainingRequired.mp hrequired).2 ?_
      obtain ⟨name, values, rfl, hname⟩ := h.head_mem_exactNames hmem
      obtain rfl : required.1 = name := Option.some.inj (of_decide_eq_true hsame)
      exact hname
    unfold leastTags
    rw [List.filter_append, filter_head_eq h.exactNodup hmem, hothers, List.append_nil]
  rw [hmatches]
  exact decide_eq_true rfl

/-! ## usable rules -/

theorem mapM_stringsOf (tags : List (List String)) :
    (tags.map Policies.textsValue).mapM stringsOf = some tags := by
  induction tags with
  | nil => rfl
  | cons tag tags ih =>
    rw [List.map_cons, List.mapM_cons, Policies.stringsOf_textsValue, ih]
    rfl

/-- tags that keep to the rule make an event with it. -/
theorem usable_of_tags (hcontent : 0 ≤ rule.maxContentBytes)
    (hcount : (stringTags.length : ℤ) ≤ rule.maxTags)
    (htags : checkNostrTags rule stringTags = .ok ()) : Usable rule := by
  refine ⟨str "", arr (stringTags.map Policies.textsValue), "", stringTags,
    checkNostrShape_ok.mpr ⟨rfl, hcontent, _, rfl, ?_, mapM_stringsOf stringTags⟩, htags⟩
  rw [List.length_map]
  exact hcount

/-- without exact tags the least tags are the required ones. -/
theorem leastTags_of_nil (h : rule.exactTags.getD [] = []) :
    leastTags rule = rule.requiredTags.map requiredTag := by
  have hall : remainingRequired rule = rule.requiredTags := by
    unfold remainingRequired
    refine List.filter_eq_self.mpr fun required _ => not_any_exactNames.mpr ?_
    rw [exactNames, h]
    exact List.not_mem_nil
  rw [leastTags, h, hall, List.nil_append]

theorem ReadRule.usable (h : ReadRule rule) (hbudget : Budgeted rule) : Usable rule := by
  have hfits : ((leastTags rule).length : ℤ) ≤ rule.maxTags ∧
      tagBytes (leastTags rule) ≤ rule.maxTagBytes := by
    by_cases hnone : rule.exactTags.getD [] = []
    · rw [leastTags_of_nil hnone, List.length_map]
      exact ⟨h.counted, hbudget.resolve_left (not_not.mpr hnone)⟩
    · exact h.exactBudget hnone
  exact usable_of_tags h.content hfits.1 (checkNostrTags_ok.mpr
    ⟨hfits.2, h.leastTags_allowed, h.leastTags_required, h.leastTags_exact⟩)

theorem ReadRule.budgeted (h : ReadRule rule) (husable : Usable rule) : Budgeted rule := by
  obtain ⟨_, _, _, stringTags, -, htags⟩ := husable
  obtain ⟨hbytes, -, hrequired, -⟩ := checkNostrTags_ok.mp htags
  exact .inr ((required_bytes_le h.distinct hrequired).trans hbytes)

/-- **A rule that was accepted has an event that passes under it exactly when it has exact tags, or
its required tags together keep to its bytes.** -/
theorem usable_iff {kinds : List ℤ} {rules : List NostrKindConstraint}
    (h : normalizeNostrKindRules value kinds = .ok rules) :
    ∀ rule ∈ rules, Usable rule ↔ Budgeted rule := by
  intro rule hrule
  obtain ⟨candidates, read, -, hread, rfl⟩ := Policies.normalizeNostrKindRules_ok h
  obtain ⟨candidate, -, hcandidate⟩ :=
    mem_of_mapM_ok hread rule ((List.mem_insertionSort _).mp hrule)
  have hknown := readKindRule_readRule hcandidate
  exact ⟨hknown.budgeted, hknown.usable⟩

end

/-! ## two rules -/

/-- a rule with one required tag. -/
def releaseRule : NostrKindConstraint :=
  { kind := 31337, maxContentBytes := 4096, maxTags := 8, maxTagBytes := 2048,
    allowedTagNames := ["scope", "p"], requiredTags := [("scope", "release")] }

/-- a rule whose two required tags fit one by one, and not together. -/
def crampedRule : NostrKindConstraint :=
  { kind := 31337, maxContentBytes := 4096, maxTags := 8, maxTagBytes := 12,
    allowedTagNames := ["scope", "p"], requiredTags := [("scope", "release"), ("p", "team")] }

theorem releaseRule_read : normalizeNostrKindRules (arr [Policies.ruleValue releaseRule]) [31337] =
    .ok [releaseRule] := by
  decide +kernel

theorem usable_iff_release : Usable releaseRule := by
  refine (usable_iff releaseRule_read releaseRule List.mem_cons_self).mpr (.inr ?_)
  decide +kernel

/-- **A rule that is accepted and that no event satisfies.** -/
theorem crampedRule_unusable :
    normalizeNostrKindRules (arr [Policies.ruleValue crampedRule]) [31337] = .ok [crampedRule] ∧
      ¬Usable crampedRule := by
  refine ⟨by decide +kernel, fun husable => ?_⟩
  obtain ⟨_, _, _, stringTags, -, htags⟩ := husable
  obtain ⟨hbytes, -, hrequired, -⟩ := checkNostrTags_ok.mp htags
  have hleast : 17 ≤ tagBytes stringTags := by
    have hsum : tagBytes (crampedRule.requiredTags.map requiredTag) = 17 := by decide +kernel
    have hdistinct : crampedRule.requiredTags.Nodup := by decide +kernel
    have := required_bytes_le hdistinct hrequired
    omega
  have hmax : crampedRule.maxTagBytes = 12 := rfl
  omega

end Signing
end WmAutopilot
