import WmAutopilot.Sessions.SessionMetadata

/-!
# Tags that are normalised again

* `reachedTags`      the texts that the loop looks at;
* `Cut`              one of them is cut right behind a hyphen;
* `tagOf_tag`        a tag that is normalised again loses the hyphen at its end;
* `tags_again_iff`   tags are normalised once, unless one was cut there.
-/

set_option autoImplicit false

namespace WmAutopilot
namespace Sessions
namespace Metadata
open Js Value

section
variable (host : Host)

/-- the texts that the loop looks at, with the tags it has. -/
def reachedTags (tags : List String) : List String → List String
  | [] => []
  | raw :: raws =>
    raw :: (if tagOf host raw = "" ∨ tagOf host raw ∈ tags then reachedTags tags raws
      else if 16 ≤ tags.length + 1 then []
      else reachedTags (tags ++ [tagOf host raw]) raws)

/-- The loop looks at a text that is longer than 40 characters as a slug, the last of which
is a hyphen. -/
def Cut (raws : List String) : Prop :=
  ∃ raw ∈ reachedTags host [] raws, (slugOf host raw)[39]? = some '-'

end

section
variable {host : Host} {raw tag : String} {raws tags : List String} {cs : List Char}

/-! ## one tag -/

/-- A slug of letters of tags. -/
structure TagChars (cs : List Char) : Prop where
  slug : Text.Slug '-' cs
  plain : ∀ c ∈ cs, isTagChar c = true

theorem isTagChar_hyphen : isTagChar '-' = true := by decide

theorem slugOf_spaced (raw : String) : Text.Spaced '-' (Text.joinRuns (fun c => decide (c = '-')) '-'
    false ((Text.joinRuns (fun c => c == '_' || isSpace c) '-' false
      (host.toLowerCase (trim raw)).toList).filter isTagChar)) :=
  Text.spaced_joinRuns

theorem slugOf_tagChars (raw : String) : TagChars (slugOf host raw) := by
  refine ⟨Text.slug_freeEnds (slugOf_spaced raw), fun c hc => ?_⟩
  rcases Text.mem_joinRuns (Text.freeEnds_sublist.subset hc) with rfl | hc
  · exact isTagChar_hyphen
  · exact (List.mem_filter.mp hc).2

theorem getLast_slugOf (raw : String) : (slugOf host raw).getLast? ≠ some '-' :=
  Text.getLast_freeEnds (slugOf_spaced raw)

theorem toList_tagOf (raw : String) : (tagOf host raw).toList = (slugOf host raw).take 40 := by
  rw [tagOf, String.toList_ofList]

theorem tagOf_tagChars (raw : String) : TagChars (tagOf host raw).toList := by
  rw [toList_tagOf]
  exact ⟨(slugOf_tagChars raw).slug.take 40, fun c hc =>
    (slugOf_tagChars raw).plain c (List.mem_of_mem_take hc)⟩

theorem length_tagOf (raw : String) : (tagOf host raw).toList.length ≤ 40 := by
  rw [toList_tagOf]
  exact List.length_take_le 40 _

/-- **A tag ends with a hyphen when it was cut right behind it.** -/
theorem getLast_tagOf :
    (tagOf host raw).toList.getLast? = some '-' ↔ (slugOf host raw)[39]? = some '-' := by
  rw [toList_tagOf, List.getLast?_take, if_neg (by decide)]
  cases hcut : (slugOf host raw)[39]? with
  | none =>
    rw [Option.none_or]
    exact ⟨fun h => absurd h (getLast_slugOf raw), nofun⟩
  | some c => exact Iff.rfl

theorem not_isSpace_of_tagChar {c : Char} (h : isTagChar c = true) : isSpace c = false := by
  have hplain : isPlain c = true := (Bool.and_eq_true _ _ ▸ h).1
  simp only [isPlain, Bool.or_eq_true, Bool.and_eq_true, decide_eq_true_eq, beq_iff_eq] at hplain
  by_contra hspace
  have hspace := Bool.eq_true_of_not_eq_false hspace
  rcases hplain with ((⟨h1, h2⟩ | ⟨h1, h2⟩) | rfl) | rfl
  · simp only [isSpace, Bool.or_eq_true, decide_eq_true_eq, Bool.and_eq_true] at hspace
    have h1 : 97 ≤ c.toNat := h1
    have h2 : c.toNat ≤ 122 := h2
    simp only [List.mem_cons, List.not_mem_nil, or_false] at hspace
    omega
  · simp only [isSpace, Bool.or_eq_true, decide_eq_true_eq, Bool.and_eq_true] at hspace
    have h1 : 48 ≤ c.toNat := h1
    have h2 : c.toNat ≤ 57 := h2
    simp only [List.mem_cons, List.not_mem_nil, or_false] at hspace
    omega
  · exact absurd hspace (by decide)
  · exact absurd hspace (by decide)

/-- the steps before the ends are freed leave letters of tags as they are. -/
theorem slugOf_of_tagChars (h : TagChars cs) : slugOf host (String.ofList cs) =
    Text.freeEnd '-' cs := by
  have hspace : ∀ c ∈ cs, isSpace c = false := fun c hc => not_isSpace_of_tagChar (h.plain c hc)
  have htrim : trim (String.ofList cs) = String.ofList cs :=
    trim_of_no_space (by rwa [String.toList_ofList])
  have hplain : ∀ c ∈ cs, isPlain c = true ∧ ¬c = '_' := fun c hc => by
    simpa [isTagChar] using h.plain c hc
  have hlower : host.toLowerCase (String.ofList cs) = String.ofList cs := by
    refine host.toLowerCase_plain _ fun c hc => (hplain c ?_).1
    rwa [String.toList_ofList] at hc
  have hdash : Text.joinRuns (fun c => c == '_' || isSpace c) '-' false cs = cs := by
    refine Text.joinRuns_of_none fun c hc => ?_
    rw [hspace c hc, Bool.or_false, beq_eq_false_iff_ne]
    exact (hplain c hc).2
  have hfilter : cs.filter isTagChar = cs := List.filter_eq_self.mpr h.plain
  have hruns : Text.joinRuns (fun c => decide (c = '-')) '-' false cs = cs :=
    Text.joinRuns_of_spaced h.slug.spaced nofun
  unfold slugOf
  rw [htrim, hlower, String.toList_ofList]
  simp only [hdash, hfilter, hruns]
  exact Text.freeEnds_slug h.slug

/-- **A tag that is normalised again loses the hyphen at its end.** -/
theorem tagOf_tag (htag : TagChars tag.toList) (hlength : tag.toList.length ≤ 40) :
    tagOf host tag = String.ofList (Text.freeEnd '-' tag.toList) := by
  have hslug : slugOf host (String.ofList tag.toList) = Text.freeEnd '-' tag.toList :=
    slugOf_of_tagChars htag
  rw [String.ofList_toList] at hslug
  rw [tagOf, hslug, List.take_of_length_le]
  exact (List.Sublist.length_le Text.freeEnd_sublist).trans hlength

theorem tagOf_tag_eq_self (htag : TagChars tag.toList) (hlength : tag.toList.length ≤ 40)
    (hlast : tag.toList.getLast? ≠ some '-') : tagOf host tag = tag := by
  rw [tagOf_tag htag hlength, Text.freeEnd, if_neg hlast, String.ofList_toList]

/-! ## the loop -/

/-- each tag is that of a text that was reached, and has something in it. -/
theorem mem_collectTags (h : tag ∈ collectTags host tags raws) :
    tag ∈ tags ∨ tag ≠ "" ∧ ∃ raw ∈ reachedTags host tags raws, tag = tagOf host raw := by
  induction raws generalizing tags with
  | nil => exact .inl h
  | cons raw raws ih =>
    unfold collectTags at h
    unfold reachedTags
    split at h
    · next hold =>
      rw [if_pos hold]
      rcases ih h with h | ⟨hne, raw', hraw, heq⟩
      · exact .inl h
      · exact .inr ⟨hne, raw', List.mem_cons_of_mem _ hraw, heq⟩
    · next hold =>
      rw [if_neg hold]
      have hnew : ∀ {rest : List String}, tag ∈ tags ++ [tagOf host raw] →
          tag ∈ tags ∨ tag ≠ "" ∧ ∃ raw' ∈ raw :: rest, tag = tagOf host raw' := by
        intro rest hmem
        rcases List.mem_append.mp hmem with hmem | hmem
        · exact .inl hmem
        · obtain rfl := List.mem_singleton.mp hmem
          exact .inr ⟨fun he => hold (.inl he), raw, List.mem_cons_self, rfl⟩
      split at h
      · exact hnew h
      · next hfull =>
        rw [if_neg hfull]
        rcases ih h with h | ⟨hne, raw', hraw, heq⟩
        · exact hnew h
        · exact .inr ⟨hne, raw', List.mem_cons_of_mem _ hraw, heq⟩

theorem subset_collectTags : tags ⊆ collectTags host tags raws := by
  induction raws generalizing tags with
  | nil => exact List.Subset.refl tags
  | cons raw raws ih =>
    unfold collectTags
    split
    · exact ih
    · split
      · exact List.subset_append_left _ _
      · exact List.Subset.trans (List.subset_append_left _ _) ih

/-- a text that was reached has given its tag. -/
theorem tagOf_mem_collectTags (h : raw ∈ reachedTags host tags raws) :
    tagOf host raw = "" ∨ tagOf host raw ∈ collectTags host tags raws := by
  induction raws generalizing tags with
  | nil => exact absurd h List.not_mem_nil
  | cons first raws ih =>
    unfold reachedTags at h
    unfold collectTags
    rcases List.mem_cons.mp h with rfl | h
    · split
      · next hold => exact hold.imp_right fun hmem => subset_collectTags hmem
      · split
        · exact .inr (List.mem_append_right _ (List.mem_singleton_self _))
        · exact .inr (subset_collectTags (List.mem_append_right _ (List.mem_singleton_self _)))
    · split at h
      · next hold =>
        rw [if_pos hold]
        exact ih h
      · next hold =>
        rw [if_neg hold]
        split at h
        · exact absurd h List.not_mem_nil
        · next hfull =>
          rw [if_neg hfull]
          exact ih h

theorem reachedTags_subset : reachedTags host tags raws ⊆ raws := by
  induction raws generalizing tags with
  | nil => exact List.Subset.refl _
  | cons raw raws ih =>
    unfold reachedTags
    refine List.cons_subset_cons raw ?_
    split
    · exact ih
    · split
      · exact List.nil_subset _
      · exact ih

/-- the tags are distinct and at most 16. -/
theorem collectTags_nodup (h : tags.Nodup) (hlength : tags.length < 16) :
    (collectTags host tags raws).Nodup ∧ (collectTags host tags raws).length ≤ 16 := by
  induction raws generalizing tags with
  | nil => exact ⟨h, hlength.le⟩
  | cons raw raws ih =>
    unfold collectTags
    split
    · exact ih h hlength
    · next hold =>
      have hnew : tagOf host raw ∉ tags := fun hmem => hold (.inr hmem)
      have hnodup : (tags ++ [tagOf host raw]).Nodup :=
        h.append (List.nodup_singleton _) (List.disjoint_singleton.mpr hnew)
      have hsucc : (tags ++ [tagOf host raw]).length = tags.length + 1 := by
        rw [List.length_append, List.length_singleton]
      split
      · exact ⟨hnodup, by omega⟩
      · exact ih hnodup (by omega)

/-- tags that are their own tags are collected as they are. -/
theorem collectTags_self (hfixed : ∀ tag ∈ raws, tagOf host tag = tag ∧ tag ≠ "")
    (hnodup : (tags ++ raws).Nodup) (hlength : (tags ++ raws).length ≤ 16) :
    collectTags host tags raws = tags ++ raws := by
  induction raws generalizing tags with
  | nil => exact (List.append_nil tags).symm
  | cons tag raws ih =>
    obtain ⟨htag, hne⟩ := hfixed tag List.mem_cons_self
    have hsplit : tags ++ tag :: raws = (tags ++ [tag]) ++ raws :=
      (List.append_cons tags tag raws)
    have hnew : ¬(tag = "" ∨ tag ∈ tags) := by
      refine not_or.mpr ⟨hne, fun hmem => ?_⟩
      exact List.disjoint_of_nodup_append hnodup hmem List.mem_cons_self
    rw [hsplit] at hnodup hlength
    have hrest := ih (fun other hother => hfixed other (List.mem_cons_of_mem _ hother)) hnodup hlength
    rw [collectTags, htag, if_neg hnew, hsplit]
    split
    · next hfull =>
      -- the sixteenth tag is the last one
      have hnil : raws = [] := by
        rw [List.length_append, List.length_append, List.length_singleton] at hlength
        exact List.length_eq_zero_iff.mp (by omega)
      rw [hnil, List.append_nil]
    · exact hrest

/-! ## tags again -/

/-- What is known of tags that were collected. -/
structure Collected (host : Host) (tags : List String) : Prop where
  made : ∀ tag ∈ tags, tag ≠ "" ∧ ∃ raw, tag = tagOf host raw
  distinct : tags.Nodup
  few : tags.length ≤ 16

theorem collected_collectTags (raws : List String) : Collected host (collectTags host [] raws) := by
  obtain ⟨hnodup, hlength⟩ : (collectTags host [] raws).Nodup ∧ (collectTags host [] raws).length ≤ 16 :=
    collectTags_nodup List.nodup_nil (by decide)
  refine ⟨fun tag htag => ?_, hnodup, hlength⟩
  obtain ⟨hne, raw, -, heq⟩ := (mem_collectTags htag).resolve_left List.not_mem_nil
  exact ⟨hne, raw, heq⟩

/-- **Collected tags are collected again as they are exactly when none ends with a hyphen.** -/
theorem Collected.again_iff (h : Collected host tags) :
    collectTags host [] tags = tags ↔ ∀ tag ∈ tags, tag.toList.getLast? ≠ some '-' := by
  constructor
  · intro hsame tag htag
    rw [← hsame] at htag
    obtain ⟨-, raw, hraw, rfl⟩ := (mem_collectTags htag).resolve_left List.not_mem_nil
    obtain ⟨-, first, rfl⟩ := h.made raw (reachedTags_subset hraw)
    rw [tagOf_tag (tagOf_tagChars first) (length_tagOf first), String.toList_ofList]
    exact Text.getLast_freeEnd (tagOf_tagChars first).slug.spaced
  · intro hlast
    refine collectTags_self (fun tag htag => ?_) h.distinct h.few
    obtain ⟨hne, first, rfl⟩ := h.made tag htag
    exact ⟨tagOf_tag_eq_self (tagOf_tagChars first) (length_tagOf first) (hlast _ htag), hne⟩

/-- a tag that ends with a hyphen is one that was cut there. -/
theorem cut_iff : Cut host raws ↔
    ∃ tag ∈ collectTags host [] raws, tag.toList.getLast? = some '-' := by
  constructor
  · intro ⟨raw, hraw, hcut⟩
    have hlast := getLast_tagOf.mpr hcut
    refine ⟨tagOf host raw, (tagOf_mem_collectTags hraw).resolve_left fun hempty => ?_, hlast⟩
    rw [hempty] at hlast
    cases hlast
  · intro ⟨tag, htag, hlast⟩
    obtain ⟨-, raw, hraw, rfl⟩ := (mem_collectTags htag).resolve_left List.not_mem_nil
    exact ⟨raw, hraw, getLast_tagOf.mp hlast⟩

theorem rawTags_listOrUndefined (texts : List String) : rawTags (listOrUndefined texts) = texts := by
  unfold listOrUndefined
  split
  · next hnil =>
    rw [hnil]
    rfl
  · show (texts.map str).filterMap _ = texts
    rw [List.filterMap_map]
    exact List.filterMap_some

/-- **Tags are normalised once, unless a text was cut right behind a hyphen.** -/
theorem tags_again_iff (value : Value) :
    normaliseSessionTags host (normaliseSessionTags host value) = normaliseSessionTags host value ↔
      ¬Cut host (rawTags value) := by
  have hagain : normaliseSessionTags host (normaliseSessionTags host value) =
      normaliseSessionTags host value ↔
      collectTags host [] (collectTags host [] (rawTags value)) =
        collectTags host [] (rawTags value) := by
    unfold normaliseSessionTags
    rw [rawTags_listOrUndefined]
    refine ⟨fun h => ?_, fun h => congrArg listOrUndefined h⟩
    have hraw := congrArg rawTags h
    rwa [rawTags_listOrUndefined, rawTags_listOrUndefined] at hraw
  rw [hagain, (collected_collectTags _).again_iff, cut_iff]
  constructor
  · intro h ⟨tag, htag, hlast⟩
    exact h tag htag hlast
  · intro h tag htag hlast
    exact h ⟨tag, htag, hlast⟩

end

end Metadata
end Sessions
end WmAutopilot
