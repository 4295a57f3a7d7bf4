import Mathlib.Algebra.Order.Group.Int
import Mathlib.Data.List.Basic
import Mathlib.Order.Basic

/-!
# Logs with times, and what is kept of them

* `Windowed time span limit xs`   no window of length `span` has more than `limit` entries;
* `kept time horizon xs`          the entries that are not before a horizon;
* `Windowed.append`               **a log in which the entries are counted before one is added**;
* `kept_kept`                     a later purge of what an earlier one has kept.
-/

set_option autoImplicit false

namespace Sql
variable {α : Type} {time : α → ℤ} {span horizon : ℤ} {limit : ℕ} {xs : List α} {x : α}

/-- no window has more than `limit` entries. -/
def Windowed (time : α → ℤ) (span : ℤ) (limit : ℕ) (xs : List α) : Prop :=
  ∀ start, xs.countP (fun x => start ≤ time x ∧ time x ≤ start + span) ≤ limit

/-- the entries that are not before a horizon. -/
def kept (time : α → ℤ) (horizon : ℤ) (xs : List α) : List α :=
  xs.filter fun x => horizon ≤ time x

theorem Windowed.nil : Windowed time span limit [] := fun _ => Nat.zero_le _

/-- **An entry is added** when fewer than `limit` entries are in the window that ends with it. -/
theorem Windowed.append (h : Windowed time span limit xs)
    (hcount : xs.countP (fun y => time x - span ≤ time y) < limit) :
    Windowed time span limit (xs ++ [x]) := by
  intro start
  rw [List.countP_append]
  by_cases hx : start ≤ time x ∧ time x ≤ start + span
  · -- what is in a window with the last entry is in the window that ends with it
    have hsub : xs.countP (fun y => start ≤ time y ∧ time y ≤ start + span) ≤
        xs.countP (fun y => time x - span ≤ time y) := by
      refine List.countP_mono_left fun y _ hin => ?_
      simp only [decide_eq_true_eq] at hin ⊢
      omega
    have hone : [x].countP (fun y => start ≤ time y ∧ time y ≤ start + span) = 1 := by
      rw [List.countP_singleton, if_pos (decide_eq_true hx)]
    omega
  · have hnone : [x].countP (fun y => start ≤ time y ∧ time y ≤ start + span) = 0 := by
      rw [List.countP_singleton, if_neg (by simpa using hx)]
    have := h start
    omega

theorem mem_kept : x ∈ kept time horizon xs ↔ x ∈ xs ∧ horizon ≤ time x := by
  simp [kept, List.mem_filter]

/-- **A later purge** of what an earlier one has kept. -/
theorem kept_kept {horizon' : ℤ} (h : horizon ≤ horizon') :
    kept time horizon' (kept time horizon xs) = kept time horizon' xs := by
  rw [kept, kept, List.filter_filter]
  refine List.filter_congr fun x _ => ?_
  have hiff : (horizon' ≤ time x ∧ horizon ≤ time x) ↔ horizon' ≤ time x := by omega
  simpa using fun hx => (hiff.mpr hx).2

theorem kept_append {ys : List α} :
    kept time horizon (xs ++ ys) = kept time horizon xs ++ kept time horizon ys :=
  List.filter_append ..

end Sql
