import Mathlib.Data.List.Basic

/-!
# One element more in an array

* `insertAt`                  `xs.splice(i, 0, a)`;
* `find?_insertAt_first`      the first match is the new element, when none before it matches;
* `find?_insertAt_other`      the first match does not change, when the new element does not match;
* `not_of_mem_take`, `take_filter_of_findIdx?`   what stands before the first match of `p` does not
                              match, and stays there without the matches.
-/

set_option autoImplicit false

namespace Js
variable {α : Type} {p : α → Bool} {xs : List α} {a : α} {i : ℕ}

/-- `xs.splice(i, 0, a)` -/
def insertAt (xs : List α) (i : ℕ) (a : α) : List α := xs.take i ++ a :: xs.drop i

theorem find?_insertAt_first (h : ∀ x ∈ xs.take i, p x = false) (ha : p a = true) :
    (insertAt xs i a).find? p = some a := by
  have hnone : (xs.take i).find? p = none := List.find?_eq_none.mpr fun x hx => by simp [h x hx]
  rw [insertAt, List.find?_append, hnone, Option.none_or, List.find?_cons_of_pos ha]

theorem find?_insertAt_other (ha : p a = false) : (insertAt xs i a).find? p = xs.find? p := by
  rw [insertAt, List.find?_append, List.find?_cons_of_neg (by simp [ha]), ← List.find?_append,
    List.take_append_drop]

theorem filter_insertAt_other (ha : p a = false) (h : ∀ x ∈ xs, p x = true) :
    (insertAt xs i a).filter p = xs := by
  rw [insertAt, List.filter_append, List.filter_cons_of_neg (by simp [ha]), ← List.filter_append,
    List.take_append_drop]
  exact List.filter_eq_self.mpr h

theorem filter_insertAt_all (ha : p a = true) (h : ∀ x ∈ xs, p x = true) :
    (insertAt xs i a).filter p = insertAt xs i a := by
  refine List.filter_eq_self.mpr fun x hx => ?_
  rcases List.mem_append.mp hx with hx | hx
  · exact h x (List.mem_of_mem_take hx)
  · rcases List.mem_cons.mp hx with rfl | hx
    · exact ha
    · exact h x (List.mem_of_mem_drop hx)

theorem countP_insertAt (h : ∀ x ∈ xs, p x = false) (ha : p a = true) :
    (insertAt xs i a).countP p = 1 := by
  have htake : (xs.take i).countP p = 0 :=
    List.countP_eq_zero.mpr fun x hx => by simp [h x (List.mem_of_mem_take hx)]
  have hdrop : (xs.drop i).countP p = 0 :=
    List.countP_eq_zero.mpr fun x hx => by simp [h x (List.mem_of_mem_drop hx)]
  rw [insertAt, List.countP_append, List.countP_cons_of_pos ha, htake, hdrop]

/-- where the new element is found. -/
theorem findIdx?_insertAt (h : ∀ x ∈ xs, p x = false) (ha : p a = true) (hi : i ≤ xs.length) :
    (insertAt xs i a).findIdx? p = some i := by
  have hnone : (xs.take i).findIdx? p = none :=
    List.findIdx?_eq_none_iff.mpr fun x hx => h x (List.mem_of_mem_take hx)
  rw [insertAt, List.findIdx?_append, hnone, List.findIdx?_cons, if_pos ha]
  simp [hi]

theorem take_insertAt (hi : i ≤ xs.length) : (insertAt xs i a).take i = xs.take i := by
  rw [insertAt, List.take_append_of_le_length (by simp [hi]), List.take_take, Nat.min_self]

theorem not_of_mem_take (h : xs.findIdx? p = some i) : ∀ x ∈ xs.take i, p x = false := by
  induction xs generalizing i with
  | nil => cases h
  | cons y ys ih =>
    rw [List.findIdx?_cons] at h
    cases hy : p y with
    | true =>
      rw [hy, if_pos rfl] at h
      obtain rfl := Option.some.inj h
      exact fun x hx => absurd hx List.not_mem_nil
    | false =>
      rw [hy, if_neg (by simp)] at h
      obtain ⟨j, hj, rfl⟩ := Option.map_eq_some_iff.mp h
      rw [List.take_succ_cons]
      exact List.forall_mem_cons.mpr ⟨hy, ih hj⟩

/-- **What stands before the first match.** -/
theorem take_filter_of_findIdx? (h : xs.findIdx? p = some i) :
    (xs.filter fun x => !p x).take i = xs.take i := by
  induction xs generalizing i with
  | nil => cases h
  | cons x xs ih =>
    rw [List.findIdx?_cons] at h
    cases hx : p x with
    | true =>
      rw [hx, if_pos rfl] at h
      obtain rfl := Option.some.inj h
      rfl
    | false =>
      rw [hx, if_neg (by simp)] at h
      obtain ⟨j, hj, rfl⟩ := Option.map_eq_some_iff.mp h
      rw [List.filter_cons_of_pos (by simp [hx]), List.take_succ_cons, List.take_succ_cons, ih hj]

end Js
