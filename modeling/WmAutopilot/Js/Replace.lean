import WmAutopilot.Js.Regex
import WmAutopilot.Text.Marking

/-!
# Replacing the matches of a pattern

* `replaceAll`         `t.replace(r, f)` with the `g` flag, where `f` writes what stands for a match;
* `keepGroups`         the replacement `$1` marker `$2`;
* `replaceAll_marks`   when each match is replaced by the marker between two of its ends, some
                       stretches of the text were replaced by the marker;
* `replaceAll_of_test` a text without a match stays as it is;
* `groupFree`          patterns without a group of their own.
-/

set_option autoImplicit false

namespace Js
namespace Regex
open Text

/-- what becomes of `s` after the next `skip` characters. -/
def replaceFrom (r : Regex) (f : Match → List Char) : ℕ → Option Char → List Char → List Char
  | 0, before, [] => ((r.run before []).head?.map f).getD []
  | _ + 1, _, [] => []
  | skip + 1, _, c :: s => replaceFrom r f skip (some c) s
  | 0, before, c :: s =>
    match (r.run before (c :: s)).head? with
    | none => c :: replaceFrom r f 0 (some c) s
    | some m =>
      if m.text = [] then f m ++ c :: replaceFrom r f 0 (some c) s
      else f m ++ replaceFrom r f (m.text.length - 1) (some c) s

/-- `s.replace(r, f)` -/
def replaceAll (r : Regex) (f : Match → List Char) (s : List Char) : List Char :=
  replaceFrom r f 0 none s

/-- the replacement `$1` marker `$2`; a group that is not there is empty. -/
def keepGroups (marker : List Char) (m : Match) : List Char :=
  m.groups.getD 0 [] ++ marker ++ m.groups.getD 1 []

section
variable {r q : Regex} {f : Match → List Char} {marker : List Char}

/-- the characters to skip are those of a text in front. -/
theorem replaceFrom_append (k s : List Char) (before : Option Char) :
    ∃ b, replaceFrom r f k.length before (k ++ s) = replaceFrom r f 0 b s := by
  induction k generalizing before with
  | nil => exact ⟨before, rfl⟩
  | cons c k ih => exact ih (some c)

/-- what replaces a match is the marker between two ends of the match. -/
def Between (r : Regex) (f : Match → List Char) (marker : List Char) : Prop :=
  ∀ before s, ∀ m ∈ r.run before s, ∃ x y z, m.text = x ++ y ++ z ∧ f m = x ++ marker ++ z

theorem replaceFrom_marks (h : Between r f marker) (before : Option Char) (s : List Char) :
    Marks marker s (replaceFrom r f 0 before s) := by
  induction hn : s.length using Nat.strong_induction_on generalizing s before with
  | _ n ih =>
    subst hn
    cases s with
    | nil =>
      rw [replaceFrom]
      cases hm : (r.run before []).head? with
      | none => exact .nil
      | some m =>
        have hmem := List.mem_of_mem_head? (Option.mem_def.mpr hm)
        obtain ⟨x, y, z, htext, hf⟩ := h before [] m hmem
        have hnil := (List.append_eq_nil_iff.mp (run_split hmem)).1
        rw [htext, List.append_eq_nil_iff, List.append_eq_nil_iff] at hnil
        obtain ⟨⟨rfl, rfl⟩, rfl⟩ := hnil
        have hmarks : Marks marker [] (marker ++ []) := Marks.nil.mark []
        rw [Option.map_some, Option.getD_some, hf]
        exact hmarks
    | cons c s =>
      rw [replaceFrom]
      cases hm : (r.run before (c :: s)).head? with
      | none => exact (ih s.length (Nat.lt_succ_self _) (some c) s rfl).keep c
      | some m =>
        have hmem := List.mem_of_mem_head? (Option.mem_def.mpr hm)
        obtain ⟨x, y, z, htext, hf⟩ := h before (c :: s) m hmem
        have hsplit := run_split hmem
        show Marks marker (c :: s) (if m.text = [] then _ else _)
        split
        · rename_i hnil
          rw [htext, List.append_eq_nil_iff, List.append_eq_nil_iff] at hnil
          obtain ⟨⟨rfl, rfl⟩, rfl⟩ := hnil
          have hrest := (ih s.length (Nat.lt_succ_self _) (some c) s rfl).keep c
          have hmarks := hrest.between [] [] []
          rw [hf]
          exact hmarks
        · rename_i hne
          obtain ⟨d, k, hk⟩ := List.exists_cons_of_ne_nil hne
          rw [hk] at hsplit
          obtain ⟨rfl, hs⟩ := List.cons.inj hsplit
          replace hs : s = k ++ m.rest := hs.symm
          subst hs
          have hlast : m.text.length - 1 = k.length := by rw [hk, List.length_cons]; omega
          obtain ⟨b, hb⟩ := replaceFrom_append (r := r) (f := f) k m.rest (some d)
          have hless : m.rest.length < (d :: (k ++ m.rest)).length := by
            rw [List.length_cons, List.length_append]
            omega
          have hmarks := (ih _ hless b m.rest rfl).between x y z
          rw [← htext, hk] at hmarks
          rw [hlast, hb, hf]
          exact hmarks

/-- **Only stretches of the text are replaced by the marker.** -/
theorem replaceAll_marks (h : Between r f marker) (s : List Char) :
    Marks marker s (replaceAll r f s) :=
  replaceFrom_marks h none s

/-- without a match nothing is replaced. -/
theorem replaceAll_of_test (s : List Char) (h : r.test s = false) : replaceAll r f s = s := by
  have key : ∀ b, matchesFrom r 0 b s = [] → replaceFrom r f 0 b s = s := by
    clear h
    induction s with
    | nil =>
      intro b hb
      rw [matchesFrom, Option.toList_eq_nil_iff] at hb
      rw [replaceFrom, hb]
      rfl
    | cons c s ih =>
      intro b hb
      rw [matchesFrom] at hb
      rw [replaceFrom]
      cases hm : (r.run b (c :: s)).head? with
      | none =>
        rw [hm] at hb
        exact congrArg (c :: ·) (ih (some c) hb)
      | some m =>
        rw [hm] at hb
        exact absurd hb (List.cons_ne_nil _ _)
  refine key none (List.isEmpty_iff.mp ?_)
  rw [test, Bool.not_eq_false'] at h
  exact h

/-! ## groups at the ends -/

/-- A pattern without groups. -/
def groupFree : Regex → Bool
  | group _ => false
  | seq r q | alt r q => groupFree r && groupFree q
  | _ => true

theorem groups_of_groupFree (h : r.groupFree = true) {before : Option Char} {s : List Char}
    {m : Match} (hm : m ∈ r.run before s) : m.groups = [] := by
  induction r generalizing before s m with
  | empty =>
    rw [run, List.mem_singleton] at hm
    rw [hm]
  | set p =>
    cases s with
    | nil => exact absurd hm List.not_mem_nil
    | cons c s =>
      rw [run] at hm
      split at hm
      · rw [List.mem_singleton.mp hm]
      · exact absurd hm List.not_mem_nil
  | many p least most =>
    rw [run] at hm
    obtain ⟨x, -, rfl⟩ := List.mem_map.mp hm
    rfl
  | seq r q ihr ihq =>
    obtain ⟨hr, hq⟩ := (Bool.and_eq_true_iff ..).mp h
    rw [run] at hm
    obtain ⟨m₁, h₁, hm⟩ := List.mem_flatMap.mp hm
    obtain ⟨m₂, h₂, rfl⟩ := List.mem_map.mp hm
    show m₁.groups ++ m₂.groups = []
    rw [ihr hr h₁, ihq hq h₂, List.append_nil]
  | alt r q ihr ihq =>
    obtain ⟨hr, hq⟩ := (Bool.and_eq_true_iff ..).mp h
    rw [run] at hm
    rcases List.mem_append.mp hm with hm | hm
    · exact ihr hr hm
    · exact ihq hq hm
  | group r => exact absurd h Bool.false_ne_true
  | notBefore r | notAfter p | boundary =>
    rw [run] at hm
    split at hm
    · first
      | exact absurd hm List.not_mem_nil
      | rw [List.mem_singleton.mp hm]
    · first
      | exact absurd hm List.not_mem_nil
      | rw [List.mem_singleton.mp hm]

/-- a pattern without groups is replaced whole. -/
theorem between_whole (h : r.groupFree = true) : Between r (keepGroups marker) marker := by
  intro before s m hm
  refine ⟨[], m.text, [], by rw [List.nil_append, List.append_nil], ?_⟩
  rw [keepGroups, groups_of_groupFree h hm]
  rfl

/-- `\b` in front changes nothing. -/
theorem between_boundary (h : Between r (keepGroups marker) marker) :
    Between (seq boundary r) (keepGroups marker) marker := by
  intro before s m hm
  rw [run] at hm
  obtain ⟨m₁, h₁, hm⟩ := List.mem_flatMap.mp hm
  obtain ⟨m₂, h₂, rfl⟩ := List.mem_map.mp hm
  have hempty : m₁ = ⟨[], [], s⟩ := by
    rw [run] at h₁
    split at h₁
    · exact List.mem_singleton.mp h₁
    · exact absurd h₁ List.not_mem_nil
  subst hempty
  exact h _ _ m₂ h₂

/-- `(r)q`: what the group took is kept. -/
theorem between_first (hr : r.groupFree = true) (hq : q.groupFree = true) :
    Between (seq (group r) q) (keepGroups marker) marker := by
  intro before s m hm
  rw [run] at hm
  obtain ⟨m₁, h₁, hm⟩ := List.mem_flatMap.mp hm
  obtain ⟨m₂, h₂, rfl⟩ := List.mem_map.mp hm
  rw [run] at h₁
  obtain ⟨m₀, h₀, rfl⟩ := List.mem_map.mp h₁
  refine ⟨m₀.text, m₂.text, [], by rw [List.append_nil], ?_⟩
  rw [keepGroups, groups_of_groupFree hr h₀, groups_of_groupFree hq h₂]
  rfl

/-- `(r)q(p)`: what the two groups took is kept. -/
theorem between_both {p : Regex} (hr : r.groupFree = true) (hq : q.groupFree = true)
    (hp : p.groupFree = true) :
    Between (seq (group r) (seq q (group p))) (keepGroups marker) marker := by
  intro before s m hm
  rw [run] at hm
  obtain ⟨m₁, h₁, hm⟩ := List.mem_flatMap.mp hm
  obtain ⟨m₂, h₂, rfl⟩ := List.mem_map.mp hm
  rw [run] at h₁
  rw [run] at h₂
  obtain ⟨m₀, h₀, rfl⟩ := List.mem_map.mp h₁
  obtain ⟨m₃, h₃, hm₂⟩ := List.mem_flatMap.mp h₂
  obtain ⟨m₄, h₄, rfl⟩ := List.mem_map.mp hm₂
  rw [run] at h₄
  obtain ⟨m₅, h₅, rfl⟩ := List.mem_map.mp h₄
  refine ⟨m₀.text, m₃.text, m₅.text, (List.append_assoc ..).symm, ?_⟩
  rw [keepGroups, groups_of_groupFree hr h₀, groups_of_groupFree hq h₃, groups_of_groupFree hp h₅]
  rfl

end

end Regex
end Js
