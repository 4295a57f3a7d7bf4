import Mathlib.Data.List.Induction
import Mathlib.Data.List.Sort

/-!
# Sorted lists without repetitions

* `sortedUnique r xs`    `[...new Set(xs)].sort(r)`;
* `sortedUnique_self`    what is sorted and without repetitions stays as it is;
* `sortedUnique_idem`    so it is normalised once;
* `textLe`               the order of texts by their code units, that of `sort()`.
-/

set_option autoImplicit false

namespace Js
variable {α : Type}

section
variable [DecidableEq α] {xs : List α} {x : α}

theorem eraseDups_append_of_mem (h : x ∈ xs) : (xs ++ [x]).eraseDups = xs.eraseDups := by
  have hnone : [x].removeAll xs = [] := by simpa [List.removeAll] using h
  rw [List.eraseDups_append, hnone, List.eraseDups_nil, List.append_nil]

theorem eraseDups_append_of_not (h : x ∉ xs) :
    (xs ++ [x]).eraseDups = xs.eraseDups ++ [x] := by
  have hone : [x].removeAll xs = [x] := by simpa [List.removeAll] using h
  rw [List.eraseDups_append, hone]
  rfl

theorem nodup_eraseDups (xs : List α) : xs.eraseDups.Nodup := by
  induction xs using List.reverseRecOn with
  | nil => exact List.nodup_nil
  | append_singleton xs x ih =>
    by_cases h : x ∈ xs
    · rw [eraseDups_append_of_mem h]
      exact ih
    · rw [eraseDups_append_of_not h]
      exact ih.append (List.nodup_singleton x)
        (List.disjoint_singleton.mpr fun hx => h (List.mem_eraseDups.mp hx))

theorem eraseDups_of_nodup (h : xs.Nodup) : xs.eraseDups = xs := by
  induction xs using List.reverseRecOn with
  | nil => rfl
  | append_singleton xs x ih =>
    have hx : x ∉ xs := by
      intro hx
      exact List.disjoint_of_nodup_append h hx (List.mem_singleton_self x)
    rw [eraseDups_append_of_not hx, ih (List.Nodup.of_append_left h)]

end

/-- `[...new Set(xs)].sort(r)` -/
def sortedUnique [DecidableEq α] (r : α → α → Prop) [DecidableRel r] (xs : List α) : List α :=
  xs.eraseDups.insertionSort r

section
variable [DecidableEq α] {r : α → α → Prop} [DecidableRel r] {xs : List α}

theorem mem_sortedUnique {x : α} : x ∈ sortedUnique r xs ↔ x ∈ xs := by
  rw [sortedUnique, List.mem_insertionSort, List.mem_eraseDups]

theorem nodup_sortedUnique (xs : List α) : (sortedUnique r xs).Nodup :=
  (List.perm_insertionSort r _).nodup_iff.mpr (nodup_eraseDups xs)

theorem sortedUnique_self (hsorted : xs.Pairwise r) (hnodup : xs.Nodup) :
    sortedUnique r xs = xs := by
  rw [sortedUnique, eraseDups_of_nodup hnodup, List.Pairwise.insertionSort_eq hsorted]

/-- **Sorting once is enough.** -/
theorem sortedUnique_idem [Std.Total r] [IsTrans α r] (xs : List α) :
    sortedUnique r (sortedUnique r xs) = sortedUnique r xs :=
  sortedUnique_self (List.pairwise_insertionSort r _) (nodup_sortedUnique xs)

end

/-! ## the order of texts -/

/-- the UTF-16 code units of a text. -/
def codeUnits (s : String) : List ℕ :=
  s.toList.flatMap fun c =>
    if c.toNat < 0x10000 then [c.toNat]
    else [0xD800 + (c.toNat - 0x10000) / 0x400, 0xDC00 + (c.toNat - 0x10000) % 0x400]

def unitsLe : List ℕ → List ℕ → Bool
  | [], _ => true
  | _ :: _, [] => false
  | m :: ms, n :: ns => decide (m < n) || (decide (m = n) && unitsLe ms ns)

theorem unitsLe_total (ms ns : List ℕ) : unitsLe ms ns = true ∨ unitsLe ns ms = true := by
  induction ms generalizing ns with
  | nil => exact .inl rfl
  | cons m ms ih =>
    cases ns with
    | nil => exact .inr rfl
    | cons n ns =>
      simp only [unitsLe, Bool.or_eq_true, Bool.and_eq_true, decide_eq_true_eq]
      have hrest := ih ns
      grind

theorem unitsLe_trans {ls ms ns : List ℕ} (h : unitsLe ls ms = true) (h' : unitsLe ms ns = true) :
    unitsLe ls ns = true := by
  induction ls generalizing ms ns with
  | nil => rfl
  | cons l ls ih =>
    cases ms with
    | nil => cases h
    | cons m ms =>
      cases ns with
      | nil => cases h'
      | cons n ns =>
        simp only [unitsLe, Bool.or_eq_true, Bool.and_eq_true, decide_eq_true_eq] at h h' ⊢
        rcases h with h | ⟨h, hrest⟩ <;> rcases h' with h' | ⟨h', hrest'⟩
        · exact .inl (h.trans h')
        · exact .inl (h' ▸ h)
        · exact .inl (h ▸ h')
        · exact .inr ⟨h.trans h', ih hrest hrest'⟩

/-- `left <= right` -/
def textLe (left right : String) : Bool := unitsLe (codeUnits left) (codeUnits right)

theorem textLe_total (left right : String) : textLe left right = true ∨ textLe right left = true :=
  unitsLe_total _ _

theorem textLe_trans (a b c : String) (h : textLe a b = true) (h' : textLe b c = true) :
    textLe a c = true :=
  unitsLe_trans h h'

end Js
