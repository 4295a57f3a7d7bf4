import Mathlib.Algebra.Order.Ring.Unbundled.Rat
import Mathlib.Data.List.Nodup
import WmAutopilot.Pipelines.JevReranker

/-!
# What a re-ranking selects

* `Greedy`, `greedy`        the loop over entries that are all wanted;
* `select_eq`               the selection is the greedy one over the first entries of the ranking;
* `FollowsPolicy`           what is asked of a selection;
* `select_follows`          **the selection follows the policy**;
* `select_sublist`          a higher threshold selects no more;
* `reranks_iff`             a re-ranking fails open whenever a judgment has no probability iff no
                            judgment has a value that is only converted to one;
* `null_probability`        a probability that is `null` is taken for `0`.
-/

set_option autoImplicit false

namespace WmAutopilot
namespace Pipelines
namespace JevReranker
open Js Value

/-! ## the ranking -/

theorem rankBefore_trans {a b c : RankedCandidate} (hab : RankBefore a b) (hbc : RankBefore b c) :
    RankBefore a c := by
  rcases hab with hab | ⟨hab, hrank⟩
  · rcases hbc with hbc | ⟨hbc, -⟩
    · exact .inl (hbc.trans hab)
    · exact .inl (hbc ▸ hab)
  · rcases hbc with hbc | ⟨hbc, hrank'⟩
    · exact .inl (hab ▸ hbc)
    · exact .inr ⟨hbc.trans hab, by omega⟩

theorem rankBefore_total (a b : RankedCandidate) : RankBefore a b ∨ RankBefore b a := by
  unfold RankBefore
  rcases lt_trichotomy a.probability b.probability with h | h | h
  · exact .inr (.inl h)
  · by_cases hle : a.originalRank < b.originalRank ∨
        a.originalRank = b.originalRank ∧ a.originalIndex ≤ b.originalIndex
    · exact .inl (.inr ⟨h.symm, hle⟩)
    · exact .inr (.inr ⟨h, by omega⟩)
  · exact .inl (.inl h)

instance : Std.Total RankBefore := ⟨rankBefore_total⟩

instance : IsTrans RankedCandidate RankBefore := ⟨fun _ _ _ => rankBefore_trans⟩

/-- entries at the threshold come first. -/
theorem filter_eq_take {p : RankedCandidate → Bool} {ranked : List RankedCandidate}
    (hsorted : ranked.Pairwise RankBefore)
    (hp : ∀ a b, RankBefore a b → p b = true → p a = true) :
    ranked.filter p = ranked.take (ranked.filter p).length := by
  induction ranked with
  | nil => rfl
  | cons a ranked ih =>
    obtain ⟨ha, hsorted⟩ := List.pairwise_cons.mp hsorted
    cases hpa : p a with
    | true =>
      rw [List.filter_cons_of_pos hpa, List.length_cons, List.take_succ_cons, ← ih hsorted]
    | false =>
      have hnone : ranked.filter p = [] := by
        refine List.filter_eq_nil_iff.mpr fun b hb hpb => ?_
        rw [hp a b (ha b hb) hpb] at hpa
        cases hpa
      rw [List.filter_cons_of_neg (by simp [hpa]), hnone, List.length_nil, List.take_zero]

/-! ## the loop -/

section
variable {policy : Policy} {minimum : ℕ} {s : Selection} {entries ranked : List RankedCandidate}

/-- one turn of the loop at an entry that is wanted. -/
def greedyStep (policy : Policy) (minimum : ℕ) (s : Selection) (entry : RankedCandidate) :
    Selection :=
  if policy.maximumShortlist ≤ s.taken.length then s
  else if minimum ≤ s.taken.length ∧
      policy.contextBudgetChars < s.usedChars + entry.estimatedChars then s
  else ⟨s.taken ++ [entry], s.usedChars + entry.estimatedChars⟩

def greedy (policy : Policy) (minimum : ℕ) (s : Selection) (entries : List RankedCandidate) :
    Selection := entries.foldl (greedyStep policy minimum) s

/-- the characters of some entries. -/
def chars (entries : List RankedCandidate) : ℕ :=
  entries.foldl (fun n e => n + e.estimatedChars) 0

theorem chars_append_singleton (entries : List RankedCandidate) (e : RankedCandidate) :
    chars (entries ++ [e]) = chars entries + e.estimatedChars := by
  simp [chars, List.foldl_append]

/-- a turn takes the entry or leaves everything as it is. -/
theorem greedyStep_cases (policy : Policy) (minimum : ℕ) (s : Selection) (e : RankedCandidate) :
    greedyStep policy minimum s e = s ∨
      greedyStep policy minimum s e = ⟨s.taken ++ [e], s.usedChars + e.estimatedChars⟩ ∧
        s.taken.length < policy.maximumShortlist ∧
        (minimum ≤ s.taken.length → s.usedChars + e.estimatedChars ≤ policy.contextBudgetChars) := by
  unfold greedyStep
  split
  · exact .inl rfl
  · split
    · exact .inl rfl
    · exact .inr ⟨rfl, by omega, fun _ => by omega⟩

/-- what is taken is some of the entries, after what was taken before. -/
theorem greedy_taken (s : Selection) (entries : List RankedCandidate) :
    ∃ more, more.Sublist entries ∧ (greedy policy minimum s entries).taken = s.taken ++ more := by
  induction entries generalizing s with
  | nil => exact ⟨[], .slnil, (List.append_nil _).symm⟩
  | cons e entries ih =>
    obtain ⟨more, hsub, htaken⟩ := ih (greedyStep policy minimum s e)
    rcases greedyStep_cases policy minimum s e with heq | ⟨heq, -⟩
    · rw [heq] at htaken
      exact ⟨more, hsub.cons e, by rw [greedy, List.foldl_cons, heq]; exact htaken⟩
    · rw [heq] at htaken
      refine ⟨e :: more, hsub.cons_cons e, ?_⟩
      rw [greedy, List.foldl_cons, heq]
      exact htaken.trans (by simp)

/-- **What a turn keeps**, the loop keeps. -/
theorem greedy_keeps {P : Selection → Prop}
    (hP : ∀ s e, P s → P (greedyStep policy minimum s e)) (hs : P s) :
    P (greedy policy minimum s entries) := by
  induction entries generalizing s with
  | nil => exact hs
  | cons e entries ih => exact ih (hP s e hs)

theorem greedy_length (hs : s.taken.length ≤ policy.maximumShortlist) :
    (greedy policy minimum s entries).taken.length ≤ policy.maximumShortlist := by
  refine greedy_keeps (P := fun s => s.taken.length ≤ policy.maximumShortlist) (fun s e h => ?_) hs
  rcases greedyStep_cases policy minimum s e with heq | ⟨heq, hlt, -⟩
  · rw [heq]
    exact h
  · rw [heq, List.length_append, List.length_singleton]
    exact hlt

theorem greedy_usedChars (hs : s.usedChars = chars s.taken) :
    (greedy policy minimum s entries).usedChars =
      chars (greedy policy minimum s entries).taken := by
  refine greedy_keeps (P := fun s => s.usedChars = chars s.taken) (fun s e h => ?_) hs
  rcases greedyStep_cases policy minimum s e with heq | ⟨heq, -⟩
  · rw [heq]
    exact h
  · rw [heq, chars_append_singleton, ← h]

/-- beyond the minimum, the budget is not exceeded by what is added. -/
theorem greedy_budget (hs : minimum ≤ s.taken.length) :
    (greedy policy minimum s entries).usedChars ≤ policy.contextBudgetChars ∨
      (greedy policy minimum s entries).usedChars = s.usedChars := by
  refine (greedy_keeps (P := fun r => minimum ≤ r.taken.length ∧
    (r.usedChars ≤ policy.contextBudgetChars ∨ r.usedChars = s.usedChars))
    (fun r e h => ?_) ⟨hs, .inr rfl⟩).2
  rcases greedyStep_cases policy minimum r e with heq | ⟨heq, -, hfits⟩
  · rw [heq]
    exact h
  · rw [heq, List.length_append]
    exact ⟨by have := h.1; omega, .inl (hfits h.1)⟩

/-- up to the minimum, every entry is taken. -/
theorem greedy_minimum (hminimum : minimum ≤ policy.maximumShortlist)
    (hs : s.taken.length + entries.length ≤ minimum) :
    (greedy policy minimum s entries).taken = s.taken ++ entries := by
  induction entries generalizing s with
  | nil => exact (List.append_nil _).symm
  | cons e entries ih =>
    rw [List.length_cons] at hs
    have hstep : greedyStep policy minimum s e =
        ⟨s.taken ++ [e], s.usedChars + e.estimatedChars⟩ := by
      rw [greedyStep, if_neg (by omega), if_neg (by omega)]
    rw [greedy, List.foldl_cons, hstep]
    refine (ih ?_).trans (by simp)
    rw [List.length_append, List.length_singleton]
    omega

/-! ## what is wanted -/

/-- the minimum. -/
def leading (policy : Policy) (ranked : List RankedCandidate) : List RankedCandidate :=
  ranked.take (minimumCount policy ranked)

/-- the best entries at the threshold. -/
def atThreshold (policy : Policy) (ranked : List RankedCandidate) : List RankedCandidate :=
  (ranked.filter fun e => policy.threshold ≤ e.probability).take policy.maximumShortlist

/-- the longer of the two. -/
def best (policy : Policy) (ranked : List RankedCandidate) : List RankedCandidate :=
  if (leading policy ranked).length ≤ (atThreshold policy ranked).length then
    atThreshold policy ranked
  else leading policy ranked

theorem leading_eq (policy : Policy) (ranked : List RankedCandidate) :
    leading policy ranked = ranked.take policy.minimumShortlist := by
  unfold leading minimumCount
  split
  · next h => rw [List.take_length, List.take_of_length_le h]
  · rfl

theorem length_leading (policy : Policy) (ranked : List RankedCandidate) :
    (leading policy ranked).length = minimumCount policy ranked := by
  rw [leading, List.length_take_of_le]
  unfold minimumCount
  split <;> omega

theorem prefix_atThreshold (hsorted : ranked.Pairwise RankBefore) :
    atThreshold policy ranked <+: ranked := by
  have hfilter := filter_eq_take (p := fun e => policy.threshold ≤ e.probability) hsorted
    fun a b hab hb => by
      have hb := of_decide_eq_true hb
      rcases hab with hlt | ⟨heq, -⟩
      · exact decide_eq_true (hb.trans hlt.le)
      · exact decide_eq_true (heq ▸ hb)
  unfold atThreshold
  rw [hfilter]
  exact (List.take_prefix _ _).trans (List.take_prefix _ _)

theorem prefix_best (hsorted : ranked.Pairwise RankBefore) : best policy ranked <+: ranked := by
  unfold best
  split
  · exact prefix_atThreshold hsorted
  · exact List.take_prefix _ _

theorem leading_prefix_best (hsorted : ranked.Pairwise RankBefore) :
    leading policy ranked <+: best policy ranked := by
  unfold best
  split
  · next h =>
    exact List.prefix_of_prefix_length_le (List.take_prefix _ _) (prefix_atThreshold hsorted) h
  · exact List.prefix_rfl

theorem prefix_atThreshold_best (hsorted : ranked.Pairwise RankBefore) :
    atThreshold policy ranked <+: best policy ranked := by
  unfold best
  split
  · exact List.prefix_rfl
  · next h =>
    exact List.prefix_of_prefix_length_le (prefix_atThreshold hsorted) (List.take_prefix _ _)
      (by omega)

/-- **What is wanted** are the first entries of the ranking. -/
theorem mem_wanted (hsorted : ranked.Pairwise RankBefore) (i : ℕ) :
    i ∈ wanted policy ranked ↔ i ∈ (best policy ranked).map (·.originalIndex) := by
  have hl : leading policy ranked ⊆ best policy ranked := (leading_prefix_best hsorted).subset
  have ht : atThreshold policy ranked ⊆ best policy ranked :=
    (prefix_atThreshold_best hsorted).subset
  show i ∈ (leading policy ranked).map _ ++ (atThreshold policy ranked).map _ ↔ _
  rw [List.mem_append]
  constructor
  · rintro (h | h)
    · exact List.map_subset _ hl h
    · exact List.map_subset _ ht h
  · intro h
    unfold best at h
    split at h
    · exact .inr h
    · exact .inl h

/-- **The selection** is the greedy one over the first entries of the ranking. -/
theorem select_eq (hsorted : ranked.Pairwise RankBefore)
    (hnodup : (ranked.map (·.originalIndex)).Nodup) :
    select policy ranked =
      greedy policy (minimumCount policy ranked) {} (best policy ranked) := by
  obtain ⟨others, hranked⟩ : best policy ranked <+: ranked := prefix_best hsorted
  have hwanted : ∀ i, i ∈ wanted policy ranked ↔ i ∈ (best policy ranked).map (·.originalIndex) :=
    mem_wanted hsorted
  have hothers : ∀ e ∈ others, ∀ s, selectStep policy (minimumCount policy ranked)
      (wanted policy ranked) s e = s := by
    intro e he s
    have hnot : e.originalIndex ∉ wanted policy ranked := by
      intro hmem
      rw [← hranked, List.map_append] at hnodup
      exact (List.nodup_append.mp hnodup).2.2 _ ((hwanted _).mp hmem) _
        (List.mem_map_of_mem he) rfl
    rw [selectStep, if_pos (.inl hnot)]
  have hbest : ∀ s, ∀ e ∈ best policy ranked, selectStep policy (minimumCount policy ranked)
      (wanted policy ranked) s e = greedyStep policy (minimumCount policy ranked) s e := by
    intro s e he
    have hmem : e.originalIndex ∈ wanted policy ranked :=
      (hwanted _).mpr (List.mem_map_of_mem he)
    simp only [selectStep, greedyStep, hmem, not_true_eq_false, false_or]
  have hskip : ∀ (s : Selection) (l : List RankedCandidate), (∀ e ∈ l, ∀ s, selectStep policy
      (minimumCount policy ranked) (wanted policy ranked) s e = s) →
      l.foldl (selectStep policy (minimumCount policy ranked) (wanted policy ranked)) s = s := by
    intro s l hl
    induction l with
    | nil => rfl
    | cons e l ih =>
      rw [List.foldl_cons, hl e List.mem_cons_self]
      exact ih fun e' he' => hl e' (List.mem_cons_of_mem _ he')
  unfold select
  conv_lhs => rw [← hranked]
  rw [List.foldl_append, hranked, hskip _ _ hothers]
  exact List.foldl_ext _ _ _ hbest

/-- **What is asked of a selection** from a ranking: `chosen` are the entries selected. -/
structure FollowsPolicy (policy : Policy) (entries ranked : List RankedCandidate)
    (chosen : RankedCandidate → Bool) (r : Rerank) : Prop where
  perm : ranked.Perm entries
  sorted : ranked.Pairwise RankBefore
  selected : r.selectedCandidates = (ranked.filter chosen).map (·.candidate)
  reported : (r.rankings.map fun x => (x.candidateId, x.included)) =
    ranked.map fun e => (e.candidateId, chosen e)
  excluded : r.excludedCandidates = r.rankings.filter fun x => x.included = false
  minimum : ∀ e ∈ ranked.take policy.minimumShortlist, chosen e = true
  threshold : ∀ e ∈ ranked, chosen e = true →
    e ∈ ranked.take policy.minimumShortlist ∨ policy.threshold ≤ e.probability
  maximum : (ranked.filter chosen).length ≤ policy.maximumShortlist
  budget : policy.contextBudgetChars < chars (ranked.filter chosen) →
    policy.contextBudgetChars < chars (ranked.take policy.minimumShortlist)

/-- what was taken is found again in the ranking. -/
theorem filter_has {taken : List RankedCandidate} (hsub : taken.Sublist ranked)
    (hnodup : (ranked.map (·.originalIndex)).Nodup) :
    (ranked.filter fun e => e.originalIndex ∈ taken.map (·.originalIndex)) = taken := by
  induction hsub with
  | slnil => rfl
  | @cons taken ranked e hsub ih =>
    rw [List.map_cons, List.nodup_cons] at hnodup
    have hnot : e.originalIndex ∉ taken.map (·.originalIndex) := fun h =>
      hnodup.1 (List.map_subset _ hsub.subset h)
    rw [List.filter_cons_of_neg (by simpa using hnot), ih hnodup.2]
  | @cons_cons taken ranked e hsub ih =>
    rw [List.map_cons, List.nodup_cons] at hnodup
    rw [List.filter_cons_of_pos (by simp)]
    refine congrArg (e :: ·) (Eq.trans (List.filter_congr fun x hx => ?_) (ih hnodup.2))
    have hne : x.originalIndex ≠ e.originalIndex := fun he =>
      hnodup.1 (he ▸ List.mem_map_of_mem hx)
    simp [hne]

theorem select_taken_sublist (hsorted : ranked.Pairwise RankBefore)
    (hnodup : (ranked.map (·.originalIndex)).Nodup) :
    (select policy ranked).taken.Sublist (best policy ranked) := by
  rw [select_eq hsorted hnodup]
  obtain ⟨more, hsub, htaken⟩ : ∃ more, more.Sublist (best policy ranked) ∧
      (greedy policy (minimumCount policy ranked) {} (best policy ranked)).taken = [] ++ more :=
    greedy_taken {} _
  exact htaken ▸ hsub

/-- **The loop takes the minimum first.** -/
theorem select_split (hsorted : ranked.Pairwise RankBefore)
    (hnodup : (ranked.map (·.originalIndex)).Nodup) :
    ∃ s rest, s.taken = leading policy ranked ∧ s.usedChars = chars (leading policy ranked) ∧
      select policy ranked = greedy policy (minimumCount policy ranked) s rest := by
  obtain ⟨rest, hbest⟩ : leading policy ranked <+: best policy ranked :=
    leading_prefix_best hsorted
  have hlength := length_leading policy ranked
  have hcount : minimumCount policy ranked ≤ policy.maximumShortlist := by
    have := policy.minimum_le
    unfold minimumCount
    split <;> omega
  have htaken : (greedy policy (minimumCount policy ranked) {} (leading policy ranked)).taken =
      leading policy ranked :=
    (greedy_minimum hcount (by simp [hlength])).trans (List.nil_append _)
  refine ⟨greedy policy (minimumCount policy ranked) {} (leading policy ranked), rest, htaken, ?_,
    ?_⟩
  · rw [greedy_usedChars rfl, htaken]
  · rw [select_eq hsorted hnodup, ← hbest, greedy, List.foldl_append]
    rfl

/-- **The selection follows the policy.** -/
theorem select_follows (numbers : Numbers) {entries : List RankedCandidate}
    (hperm : ranked.Perm entries) (hsorted : ranked.Pairwise RankBefore)
    (hnodup : (ranked.map (·.originalIndex)).Nodup) :
    FollowsPolicy policy entries ranked (select policy ranked).has
      (rerankedResult numbers policy ranked) := by
  have hsub : (select policy ranked).taken.Sublist ranked :=
    (select_taken_sublist hsorted hnodup).trans (prefix_best hsorted).sublist
  have hfilter : ranked.filter (select policy ranked).has = (select policy ranked).taken :=
    filter_has hsub hnodup
  have hhas : ∀ e ∈ ranked, (select policy ranked).has e = true → e ∈ (select policy ranked).taken :=
    fun e he h => hfilter ▸ List.mem_filter.mpr ⟨he, h⟩
  obtain ⟨s, rest, htaken, hused, hselect⟩ : ∃ s rest, s.taken = leading policy ranked ∧
      s.usedChars = chars (leading policy ranked) ∧
      select policy ranked = greedy policy (minimumCount policy ranked) s rest :=
    select_split hsorted hnodup
  obtain ⟨more, -, hmore⟩ : ∃ more, more.Sublist rest ∧
      (greedy policy (minimumCount policy ranked) s rest).taken = s.taken ++ more :=
    greedy_taken s rest
  refine ⟨hperm, hsorted, rfl, ?_, ?_, ?_, ?_, ?_, ?_⟩
  · have hfst : ranked.map (fun e => (e.candidateId, (select policy ranked).has e)) =
        ranked.zipIdx.map ((fun e => (e.candidateId, (select policy ranked).has e)) ∘ Prod.fst) := by
      rw [← List.map_map, List.zipIdx_map_fst]
    rw [hfst]
    exact List.map_map
  · refine List.filter_congr fun x _ => ?_
    cases x.included <;> rfl
  · intro e he
    rw [← leading_eq, ← htaken] at he
    have hmem : e ∈ (select policy ranked).taken := by
      rw [hselect, hmore]
      exact List.mem_append_left _ he
    exact decide_eq_true (List.mem_map_of_mem hmem)
  · intro e he h
    have hbest := (select_taken_sublist hsorted hnodup).subset (hhas e he h)
    unfold best at hbest
    split at hbest
    · exact .inr (of_decide_eq_true (List.mem_filter.mp (List.mem_of_mem_take hbest)).2)
    · exact .inl (leading_eq policy ranked ▸ hbest)
  · rw [hfilter, select_eq hsorted hnodup]
    exact greedy_length (Nat.zero_le _)
  · intro hover
    have hchars : chars (ranked.filter (select policy ranked).has) =
        (select policy ranked).usedChars := by
      rw [hfilter, select_eq hsorted hnodup]
      exact (greedy_usedChars rfl).symm
    rw [hchars, hselect] at hover
    have hlength : minimumCount policy ranked ≤ s.taken.length := by
      rw [htaken, length_leading]
    rcases greedy_budget hlength with h | h
    · exact absurd hover (Nat.not_lt.mpr h)
    · rw [h, hused, leading_eq] at hover
      exact hover

end

/-! ## a higher threshold -/

/-- the same policy, with a threshold that is not lower. -/
structure Raised (policy policy' : Policy) : Prop where
  threshold : policy.threshold ≤ policy'.threshold
  minimum : policy.minimumShortlist = policy'.minimumShortlist
  maximum : policy.maximumShortlist = policy'.maximumShortlist
  budget : policy.contextBudgetChars = policy'.contextBudgetChars

section
variable {policy policy' : Policy} {ranked : List RankedCandidate}

theorem Raised.leading (h : Raised policy policy') (ranked : List RankedCandidate) :
    leading policy' ranked = leading policy ranked := by
  rw [leading_eq, leading_eq, h.minimum]

theorem Raised.atThreshold (h : Raised policy policy') (hsorted : ranked.Pairwise RankBefore) :
    atThreshold policy' ranked <+: atThreshold policy ranked := by
  refine List.prefix_of_prefix_length_le (prefix_atThreshold hsorted)
    (prefix_atThreshold hsorted) ?_
  have hfewer : (ranked.filter fun e => policy'.threshold ≤ e.probability).length ≤
      (ranked.filter fun e => policy.threshold ≤ e.probability).length := by
    refine (List.monotone_filter_right ranked fun e he => ?_).length_le
    exact decide_eq_true (h.threshold.trans (of_decide_eq_true he))
  have hmax := h.maximum
  simp only [JevReranker.atThreshold, List.length_take]
  omega

theorem Raised.best (h : Raised policy policy') (hsorted : ranked.Pairwise RankBefore) :
    best policy' ranked <+: best policy ranked := by
  unfold JevReranker.best
  split
  · exact (h.atThreshold hsorted).trans (prefix_atThreshold_best hsorted)
  · rw [h.leading]
    exact leading_prefix_best hsorted

/-- the loop does not look at the threshold. -/
theorem Raised.greedy (h : Raised policy policy') (minimum : ℕ) (s : Selection)
    (entries : List RankedCandidate) :
    greedy policy' minimum s entries = greedy policy minimum s entries := by
  refine List.foldl_ext _ _ _ fun s e _ => ?_
  rw [greedyStep, greedyStep, h.maximum, h.budget]

/-- **A higher threshold selects no more.** -/
theorem Raised.select (h : Raised policy policy') (hsorted : ranked.Pairwise RankBefore)
    (hnodup : (ranked.map (·.originalIndex)).Nodup) :
    (select policy' ranked).taken <+: (select policy ranked).taken := by
  obtain ⟨more, hbest⟩ := h.best hsorted
  have hcount : minimumCount policy' ranked = minimumCount policy ranked := by
    rw [minimumCount, minimumCount, h.minimum]
  obtain ⟨added, -, hadded⟩ : ∃ added, added.Sublist more ∧
      (JevReranker.greedy policy (minimumCount policy ranked)
        (JevReranker.select policy' ranked) more).taken =
      (JevReranker.select policy' ranked).taken ++ added := greedy_taken _ _
  refine ⟨added, ?_⟩
  rw [← hadded, select_eq hsorted hnodup, select_eq hsorted hnodup, hcount, h.greedy, ← hbest,
    JevReranker.greedy, JevReranker.greedy, JevReranker.greedy, List.foldl_append]

end

/-! ## the claim -/

/-- a judgment that succeeded and has a JSON number between 0 and 1 as its probability. -/
def Sound (result : Value) : Prop :=
  result.get "shadowStatus" = str "ok" ∧ (answerOf result).get "type" = str "noul" ∧
    ∃ q, (answerOf result).get "noul" = num q ∧ 0 ≤ q ∧ q ≤ 1

/-- each candidate has a judgment, and each judgment a probability. -/
def Judged (candidates items : List Value) : Prop :=
  items.length = candidates.length ∧ ∀ i < candidates.length, Sound (resultAt items i)

section
variable (numbers : Numbers)

/-- all candidates in their order when a judgment is missing, and else what the policy says. -/
def Outcome (input : RerankInput) : Prop :=
  let r := composeJevRerank numbers input
  (¬Judged input.objects input.items → r.selectedCandidates = input.objects) ∧
    (Judged input.objects input.items → ∃ ranked chosen, FollowsPolicy (input.policy numbers)
      (rankedCandidates numbers input.objects input.items) ranked chosen r)

/-- **For every configuration** the outcome is right, and a higher threshold selects no more. -/
def Reranks (input : RerankInput) : Prop :=
  (∀ config, Outcome numbers { input with config }) ∧
    ∀ config config', Raised ({ input with config }.policy numbers)
      ({ input with config := config' }.policy numbers) →
      (composeJevRerank numbers { input with config := config' }).selectedCandidates.Sublist
        (composeJevRerank numbers { input with config }).selectedCandidates

/-- **No value is only converted to a probability**: if every judgment passes the check, every
probability is a JSON number. -/
def NoConversion (input : RerankInput) : Prop :=
  input.items.length = input.objects.length →
    (∀ i < input.objects.length, Valid numbers (resultAt input.items i)) →
    ∀ i < input.objects.length, ∃ q, (answerOf (resultAt input.items i)).get "noul" = num q

end

section
variable {numbers : Numbers} {input : RerankInput} {candidates items : List Value}

theorem validateJudgments_ok : validateJudgments numbers candidates items = .ok () ↔
    items.length = candidates.length ∧
      ∀ i < candidates.length, Valid numbers (resultAt items i) := by
  unfold validateJudgments
  by_cases hlength : items.length = candidates.length
  · rw [if_neg (not_not.mpr hlength)]
    cases hfirst : firstInvalid numbers candidates items with
    | some c =>
      obtain ⟨candidate, index⟩ := c
      obtain ⟨hmem, hinvalid⟩ := And.intro (List.mem_of_find?_eq_some hfirst)
        (List.find?_some hfirst)
      constructor
      · intro h
        cases h
      · intro h
        exact absurd (h.2 index (List.mem_zipIdx' hmem).1) (of_decide_eq_true hinvalid)
    | none =>
      refine ⟨fun _ => ⟨hlength, fun i hi => ?_⟩, fun _ => rfl⟩
      have hall := List.find?_eq_none.mp hfirst (candidates[i], i)
        (List.mem_zipIdx_iff_getElem?.mpr (List.getElem?_eq_getElem hi))
      simpa using hall
  · rw [if_pos hlength]
    exact ⟨(nomatch ·), fun h => absurd h.1 hlength⟩

theorem Sound.valid {result : Value} (h : Sound result) : Valid numbers result := by
  obtain ⟨hstatus, htype, q, hq, h0, h1⟩ := h
  exact ⟨hstatus, htype, q, hq ▸ numbers.finiteNumber_num q, h0, h1⟩

theorem Sound.of_valid {result : Value} (h : Valid numbers result)
    (hnum : ∃ q, (answerOf result).get "noul" = num q) : Sound result := by
  obtain ⟨hstatus, htype, q, hq, h0, h1⟩ := h
  obtain ⟨q', hq'⟩ := hnum
  rw [hq', numbers.finiteNumber_num] at hq
  cases hq
  exact ⟨hstatus, htype, q, hq', h0, h1⟩

theorem ranking_perm :
    (ranking numbers candidates items).Perm (rankedCandidates numbers candidates items) :=
  List.perm_insertionSort _ _

theorem ranking_sorted : (ranking numbers candidates items).Pairwise RankBefore :=
  List.pairwise_insertionSort _ _

theorem ranking_nodup :
    ((ranking numbers candidates items).map (·.originalIndex)).Nodup := by
  have hindexes : (rankedCandidates numbers candidates items).map (·.originalIndex) =
      List.range candidates.length := by
    rw [rankedCandidates, List.map_map, List.range_eq_range', ← List.zipIdx_map_snd]
    rfl
  exact (ranking_perm.map _).nodup_iff.mpr (hindexes ▸ List.nodup_range)

/-- the selected candidates are what the loop took. -/
theorem rerankedResult_selected (policy : Policy) :
    (rerankedResult numbers policy (ranking numbers candidates items)).selectedCandidates =
      (select policy (ranking numbers candidates items)).taken.map (·.candidate) := by
  have hsub : (select policy (ranking numbers candidates items)).taken.Sublist
      (ranking numbers candidates items) :=
    (select_taken_sublist ranking_sorted ranking_nodup).trans (prefix_best ranking_sorted).sublist
  exact congrArg (List.map _) (filter_has hsub ranking_nodup)

theorem composeJevRerank_refused {refusal : Refusal} (hempty : input.objects ≠ [])
    (hv : validateJudgments numbers input.objects input.items = .error refusal) :
    composeJevRerank numbers input = buildFailOpenResult numbers (input.policy numbers)
      input.objects input.items refusal := by
  simp only [composeJevRerank, if_neg hempty, hv]

theorem composeJevRerank_used (hempty : input.objects ≠ [])
    (hv : validateJudgments numbers input.objects input.items = .ok ()) :
    composeJevRerank numbers input = rerankedResult numbers (input.policy numbers)
      (ranking numbers input.objects input.items) := by
  simp only [composeJevRerank, if_neg hempty, hv]

/-- the three cases of `composeJevRerank`. -/
theorem composeJevRerank_cases (numbers : Numbers) (input : RerankInput) :
    (input.objects = [] ∧ ∀ config, composeJevRerank numbers { input with config } =
      buildResult .empty "no_candidates" [] [] [] ({ input with config }.policy numbers)) ∨
    (input.objects ≠ [] ∧ ¬validateJudgments numbers input.objects input.items = .ok () ∧
      ∀ config, (composeJevRerank numbers { input with config }).selectedCandidates =
        input.objects) ∨
    (input.objects ≠ [] ∧ validateJudgments numbers input.objects input.items = .ok () ∧
      ∀ config, composeJevRerank numbers { input with config } = rerankedResult numbers
        ({ input with config }.policy numbers)
        (ranking numbers input.objects input.items)) := by
  by_cases hempty : input.objects = []
  · exact .inl ⟨hempty, fun config => if_pos hempty⟩
  · cases hv : validateJudgments numbers input.objects input.items with
    | error refusal =>
      refine .inr (.inl ⟨hempty, by simp, fun config => ?_⟩)
      have hrun : composeJevRerank numbers { input with config } = buildFailOpenResult numbers
          ({ input with config }.policy numbers) input.objects input.items refusal :=
        composeJevRerank_refused hempty hv
      rw [hrun]
      rfl
    | ok u =>
      refine .inr (.inr ⟨hempty, rfl, fun config => ?_⟩)
      exact composeJevRerank_used hempty hv

/-- without candidates there is nothing to follow. -/
theorem follows_empty (policy : Policy) :
    FollowsPolicy policy [] [] (fun _ => true)
      (buildResult .empty "no_candidates" [] [] [] policy) where
  perm := .nil
  sorted := .nil
  selected := rfl
  reported := rfl
  excluded := rfl
  minimum := fun e he => absurd he (by simp)
  threshold := fun e he => absurd he (by simp)
  maximum := Nat.zero_le _
  budget := fun h => by simpa using h

/-- **Judgments that are used** are judgments with a probability, unless one is converted. -/
theorem judged_iff (h : NoConversion numbers input) :
    validateJudgments numbers input.objects input.items = .ok () ↔
      Judged input.objects input.items := by
  rw [validateJudgments_ok]
  constructor
  · rintro ⟨hlength, hvalid⟩
    exact ⟨hlength, fun i hi => .of_valid (hvalid i hi) (h hlength hvalid i hi)⟩
  · rintro ⟨hlength, hsound⟩
    exact ⟨hlength, fun i hi => (hsound i hi).valid⟩

theorem Judged.valid (h : Judged candidates items) :
    validateJudgments numbers candidates items = .ok () :=
  validateJudgments_ok.mpr ⟨h.1, fun i hi => (h.2 i hi).valid⟩

/-- a configuration that selects nothing. -/
def selectsNone : Value := obj [("minimumShortlist", num 0), ("maximumShortlist", num (1 / 2))]

theorem selectsNone_maximum (numbers : Numbers) (input : RerankInput) :
    ({ input with config := selectsNone }.policy numbers).maximumShortlist = 0 := by
  have hmin : nonNegativeInteger numbers ((asObject selectsNone).get "minimumShortlist") 1 = 0 := by
    show nonNegativeInteger numbers (num 0) 1 = 0
    rw [nonNegativeInteger, numbers.finiteNumber_num]
    rfl
  have hmax : positiveInteger numbers ((asObject selectsNone).get "maximumShortlist") 20 = 0 := by
    show positiveInteger numbers (num (1 / 2)) 20 = 0
    rw [positiveInteger, numbers.finiteNumber_num]
    decide +kernel
  show (if nonNegativeInteger numbers ((asObject selectsNone).get "minimumShortlist") 1 ≤
    positiveInteger numbers ((asObject selectsNone).get "maximumShortlist") 20 then _ else _) = 0
  rw [hmin, hmax]
  rfl

/-- what is selected follows the policy when the judgments are used. -/
theorem reranked_follows {config : Value}
    (hrun : composeJevRerank numbers { input with config } = rerankedResult numbers
      ({ input with config }.policy numbers) (ranking numbers input.objects input.items)) :
    FollowsPolicy ({ input with config }.policy numbers)
      (rankedCandidates numbers input.objects input.items)
      (ranking numbers input.objects input.items)
      (select ({ input with config }.policy numbers)
        (ranking numbers input.objects input.items)).has
      (composeJevRerank numbers { input with config }) :=
  hrun ▸ select_follows numbers ranking_perm ranking_sorted ranking_nodup

theorem reranks_monotone (numbers : Numbers) (input : RerankInput) {config config' : Value}
    (h : Raised ({ input with config }.policy numbers)
      ({ input with config := config' }.policy numbers)) :
    (composeJevRerank numbers { input with config := config' }).selectedCandidates.Sublist
      (composeJevRerank numbers { input with config }).selectedCandidates := by
  rcases composeJevRerank_cases numbers input with ⟨-, hrun⟩ | ⟨-, -, hrun⟩ | ⟨-, -, hrun⟩
  · rw [hrun, hrun]
    exact .refl _
  · rw [hrun, hrun]
  · rw [hrun, hrun, rerankedResult_selected, rerankedResult_selected]
    exact (h.select ranking_sorted ranking_nodup).sublist.map _

/-- a configuration that selects nothing shows a judgment that is converted. -/
theorem Reranks.noConversion (h : Reranks numbers input) : NoConversion numbers input := by
  intro hlength hvalid i hi
  have hused : validateJudgments numbers input.objects input.items = .ok () :=
    validateJudgments_ok.mpr ⟨hlength, hvalid⟩
  by_contra hnot
  have hnotJudged : ¬Judged input.objects input.items := by
    rintro ⟨-, hsound⟩
    obtain ⟨-, -, q, hq, -⟩ := hsound i hi
    exact hnot ⟨q, hq⟩
  have hall : (composeJevRerank numbers { input with config := selectsNone }).selectedCandidates =
      input.objects := (h.1 selectsNone).1 hnotJudged
  rcases composeJevRerank_cases numbers input with ⟨hempty, -⟩ | ⟨-, hrefused, -⟩ | ⟨hne, -, hrun⟩
  · rw [hempty] at hi
    exact absurd hi (Nat.not_lt_zero i)
  · exact hrefused hused
  · have hmax := (reranked_follows (hrun selectsNone)).maximum
    have hselected := (reranked_follows (hrun selectsNone)).selected
    rw [selectsNone_maximum, Nat.le_zero, List.length_eq_zero_iff] at hmax
    rw [hmax, hall] at hselected
    exact hne hselected

/-- without a conversion the outcome is right. -/
theorem outcome_of_noConversion (h : NoConversion numbers input) (config : Value) :
    Outcome numbers { input with config } := by
  rcases composeJevRerank_cases numbers input with ⟨hempty, hrun⟩ | ⟨-, hrefused, hrun⟩ |
      ⟨-, hused, hrun⟩
  · refine ⟨fun _ => ?_, fun _ => ⟨[], fun _ => true, ?_⟩⟩
    · rw [hrun]
      exact hempty.symm
    · have hentries : rankedCandidates numbers input.objects input.items = [] := by
        rw [hempty]
        rfl
      show FollowsPolicy _ (rankedCandidates numbers input.objects input.items) _ _ _
      rw [hrun, hentries]
      exact follows_empty _
  · refine ⟨fun _ => hrun config, fun hjudged => ?_⟩
    exact absurd hjudged.valid hrefused
  · refine ⟨fun hnot => absurd ((judged_iff h).mp hused) hnot, fun _ => ?_⟩
    exact ⟨_, _, reranked_follows (hrun config)⟩

/-- **A re-ranking** fails open or follows its policy under every configuration, and selects no more
for a higher threshold, exactly if no value is only converted to a probability. -/
theorem reranks_iff (numbers : Numbers) (input : RerankInput) :
    Reranks numbers input ↔ NoConversion numbers input :=
  ⟨Reranks.noConversion, fun h =>
    ⟨outcome_of_noConversion h, fun _ _ => reranks_monotone numbers input⟩⟩

/-! ## a probability that is `null` -/

/-- `Number(value)` of numbers and of `null`; the length does not matter here. -/
def plainNumbers : Numbers where
  finiteNumber
    | num q => some q
    | null => some 0
    | _ => none
  finiteNumber_num _ := rfl
  jsonLength _ := 2

/-- two candidates, the first judged without a probability. -/
def nullJudgment : RerankInput where
  candidates := arr [obj [("id", str "a")], obj [("id", str "b")]]
  judgments := obj [("items", arr [judgment null, judgment (num 1)])]
  config := obj []
where
  judgment (noul : Value) : Value := obj [("result", obj [("shadowStatus", str "ok"),
    ("answers", obj [("relevance", obj [("type", str "noul"), ("noul", noul)])])])]

/-- **A probability that is `null`** is taken for `0`, and its candidate is not selected. -/
theorem null_probability : ¬Reranks plainNumbers nullJudgment := by
  intro h
  obtain ⟨q, hq⟩ := h.noConversion (by decide +kernel) (by decide +kernel) 0 (by decide +kernel)
  have hnull : (answerOf (resultAt nullJudgment.items 0)).get "noul" = null := by decide +kernel
  rw [hnull] at hq
  cases hq

end

end JevReranker
end Pipelines
end WmAutopilot
