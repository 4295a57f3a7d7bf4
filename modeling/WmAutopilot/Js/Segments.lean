import Mathlib.Data.List.Basic
import WmAutopilot.Js.Value

/-!
# Segments of a path

* `sep_notMem_of_mem_splitOn` no part contains the separator;
* `splitOn_prefix_iff`   a list is another, or is followed in it by a separator, **exactly when its
                         parts are the first parts of the other**;
* `segments`             the parts of a path between its slashes.
-/

set_option autoImplicit false

namespace Js

variable {α : Type}

/-- a first part that starts with an element comes from a list that does. -/
theorem modifyHead_prefix {x y : α} {xs ys : List (List α)} (hx : xs ≠ []) :
    xs.modifyHead (List.cons x) <+: ys.modifyHead (List.cons y) ↔ x = y ∧ xs <+: ys := by
  cases xs with
  | nil => exact absurd rfl hx
  | cons a as =>
    cases ys with
    | nil => simp
    | cons b bs => simp [List.cons_prefix_cons, and_assoc]

section
variable [DecidableEq α] {sep : α}

theorem splitOn_cons_self (xs : List α) : (sep :: xs).splitOn sep = [] :: xs.splitOn sep := by
  simp [List.splitOn, List.splitOnP_cons_eq_if_modifyHead]

theorem splitOn_cons_of_ne {x : α} (h : x ≠ sep) (xs : List α) :
    (x :: xs).splitOn sep = (xs.splitOn sep).modifyHead (List.cons x) := by
  simp [List.splitOn, List.splitOnP_cons_eq_if_modifyHead, h]

/-- the parts of a list are never none. -/
theorem exists_splitOn (sep : α) (xs : List α) : ∃ y ys, xs.splitOn sep = y :: ys :=
  List.exists_cons_of_ne_nil (List.splitOn_ne_nil sep xs)

/-- no part contains the separator. -/
theorem sep_notMem_of_mem_splitOn {xs part : List α} (h : part ∈ xs.splitOn sep) :
    sep ∉ part := by
  induction xs generalizing part with
  | nil =>
    obtain rfl := List.mem_singleton.mp h
    exact List.not_mem_nil
  | cons x xs ih =>
    by_cases hx : x = sep
    · subst hx
      rw [splitOn_cons_self] at h
      rcases List.mem_cons.mp h with rfl | h
      · exact List.not_mem_nil
      · exact ih h
    · rw [splitOn_cons_of_ne hx] at h
      obtain ⟨y, ys, hy⟩ := exists_splitOn sep xs
      rw [hy, List.modifyHead_cons] at h
      rcases List.mem_cons.mp h with rfl | h
      · refine fun hm => (List.mem_cons.mp hm).elim (fun e => hx e.symm) (ih ?_)
        rw [hy]
        exact List.mem_cons_self
      · refine ih ?_
        rw [hy]
        exact List.mem_cons_of_mem _ h

theorem splitOn_prefix_iff (xs ys : List α) :
    xs.splitOn sep <+: ys.splitOn sep ↔ ys = xs ∨ xs ++ [sep] <+: ys := by
  induction xs generalizing ys with
  | nil =>
    cases ys with
    | nil => simp
    | cons y ys =>
      by_cases hy : y = sep
      · subst hy
        simp [splitOn_cons_self, List.cons_prefix_cons]
      · obtain ⟨z, zs, hz⟩ := exists_splitOn sep ys
        simp [splitOn_cons_of_ne hy, hz, List.cons_prefix_cons, Ne.symm hy]
  | cons x xs ih =>
    cases ys with
    | nil =>
      by_cases hx : x = sep
      · subst hx
        simp [splitOn_cons_self, List.cons_prefix_cons, List.splitOn_ne_nil]
      · obtain ⟨z, zs, hz⟩ := exists_splitOn sep xs
        simp [splitOn_cons_of_ne hx, hz, List.cons_prefix_cons]
    | cons y ys =>
      by_cases hx : x = sep
      · subst hx
        by_cases hy : y = x
        · subst hy
          rw [splitOn_cons_self, splitOn_cons_self, List.cons_prefix_cons, ih]
          simp [List.cons_prefix_cons]
        · obtain ⟨z, zs, hz⟩ := exists_splitOn x ys
          simp [splitOn_cons_self, splitOn_cons_of_ne hy, hz, List.cons_prefix_cons, hy, Ne.symm hy]
      · by_cases hy : y = sep
        · subst hy
          obtain ⟨z, zs, hz⟩ := exists_splitOn y xs
          simp [splitOn_cons_self, splitOn_cons_of_ne hx, hz, List.cons_prefix_cons, hx, Ne.symm hx]
        · rw [splitOn_cons_of_ne hx, splitOn_cons_of_ne hy,
            modifyHead_prefix (List.splitOn_ne_nil sep xs), ih]
          simp only [List.cons_append, List.cons_prefix_cons, List.cons.injEq]
          constructor
          · rintro ⟨rfl, rfl | h⟩
            · exact Or.inl ⟨rfl, rfl⟩
            · exact Or.inr ⟨rfl, h⟩
          · rintro (⟨rfl, rfl⟩ | ⟨rfl, h⟩)
            · exact ⟨rfl, Or.inl rfl⟩
            · exact ⟨rfl, Or.inr h⟩

end

/-- the parts of a path between its slashes. -/
def segments (path : String) : List (List Char) := path.toList.splitOn '/'

end Js
