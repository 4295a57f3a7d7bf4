import Mathlib.Data.List.Sort

/-!
# Tables read in pages by their key

A loop reads the rows after the last key that it has seen, in the order of the key and at most
`limit` of them, until there are no more.

* `Listing table`             the entries of a table that is a function;
* `ordered key xs`            `ORDER BY key`;
* `pageAfter key limit xs`    `WHERE key > after ORDER BY key LIMIT limit`;
* `scan`                      the loop, with a step for each row;
* `scan_eq`                   **where the pages end does not matter**: the steps are those of all rows
                              after the first key, in order.
-/

set_option autoImplicit false
set_option linter.unusedVariables false

namespace Sql

/-- the entries of a table, one for each key. -/
structure Listing {κ α : Type} (table : κ → Option α) where
  entries : List (κ × α)
  mem : ∀ k a, (k, a) ∈ entries ↔ table k = some a
  nodup : (entries.map (·.1)).Nodup

variable {α β κ ε : Type} [LinearOrder κ] (key : α → κ)

/-- `ORDER BY key` -/
def ordered (xs : List α) : List α := xs.insertionSort fun a b => key a ≤ key b

/-- the rows after a key. -/
def after (xs : List α) (k : κ) : List α := (ordered key xs).filter fun x => k < key x

/-- `WHERE key > k ORDER BY key LIMIT limit` -/
def pageAfter (limit : ℕ) (xs : List α) (k : κ) : List α := (after key xs k).take limit

variable {key} {limit : ℕ} {xs : List α} {k : κ} {x : α}

theorem mem_after : x ∈ after key xs k ↔ x ∈ xs ∧ k < key x := by
  unfold after ordered
  rw [List.mem_filter, List.mem_insertionSort, decide_eq_true_iff]

/-- the rows after a row that comes after `k`. -/
theorem after_after (hx : k ≤ key x) :
    after key xs (key x) = (after key xs k).filter fun y => key x < key y := by
  unfold after
  rw [List.filter_filter]
  refine List.filter_congr fun y _ => ?_
  have hiff : (key x < key y ∧ k < key y) ↔ key x < key y :=
    ⟨And.left, fun h => ⟨h, lt_of_le_of_lt hx h⟩⟩
  simpa using fun h => (hiff.mpr h).2

theorem length_after_lt (hx : x ∈ after key xs k) :
    (after key xs (key x)).length < (after key xs k).length := by
  rw [after_after (le_of_lt (mem_after.mp hx).2), List.length_filter_lt_length_iff_exists]
  exact ⟨x, hx, by simp⟩

variable (key) in
/-- The loop that reads the rows in pages. -/
def scan (limit : ℕ) (xs : List α) (step : β → α → Except ε β) (k : κ) (b : β) : Except ε β :=
  match h : pageAfter key limit xs k with
  | [] => .ok b
  | x :: page => do
    let b' ← (x :: page).foldlM step b
    scan limit xs step (key ((x :: page).getLast (List.cons_ne_nil x page))) b'
termination_by (after key xs k).length
decreasing_by
  refine length_after_lt (List.mem_of_mem_take (i := limit) ?_)
  show _ ∈ pageAfter key limit xs k
  rw [h]
  exact List.getLast_mem _

/-! ## the pages put together -/

theorem pairwise_after (hkeys : (xs.map key).Nodup) :
    (after key xs k).Pairwise fun a b => key a < key b := by
  have hsorted : (ordered key xs).Pairwise fun a b => key a ≤ key b :=
    List.pairwise_insertionSort _ xs
  have hnodup : (ordered key xs).Pairwise fun a b => key a ≠ key b := by
    rw [← List.pairwise_map]
    exact ((List.perm_insertionSort _ xs).map key).nodup_iff.mpr hkeys
  exact ((hsorted.and hnodup).imp fun h => lt_of_le_of_ne h.1 h.2).filter _

/-- the last row of a list in order is its greatest. -/
theorem le_getLast {l : List α} (h : l.Pairwise fun a b => key a < key b) (hne : l ≠ [])
    (hx : x ∈ l) : key x ≤ key (l.getLast hne) := by
  rw [← List.dropLast_append_getLast hne, List.pairwise_append] at h
  rw [← List.dropLast_append_getLast hne, List.mem_append, List.mem_singleton] at hx
  rcases hx with hx | rfl
  · exact le_of_lt (h.2.2 x hx _ (List.mem_singleton_self _))
  · exact le_rfl

/-- **What comes after a page** is what its last row leaves. -/
theorem after_getLast (hkeys : (xs.map key).Nodup) (hne : pageAfter key limit xs k ≠ []) :
    after key xs (key ((pageAfter key limit xs k).getLast hne)) =
      (after key xs k).drop limit := by
  have hmem := List.getLast_mem hne
  have hpair : (after key xs k).Pairwise fun a b => key a < key b := pairwise_after hkeys
  rw [← List.take_append_drop limit (after key xs k), List.pairwise_append] at hpair
  obtain ⟨htake, -, hbetween⟩ := hpair
  rw [after_after (le_of_lt (mem_after.mp (List.mem_of_mem_take hmem)).2)]
  conv_lhs => rw [← List.take_append_drop limit (after key xs k)]
  rw [List.filter_append, List.filter_eq_nil_iff.mpr, List.nil_append, List.filter_eq_self.mpr]
  · exact fun y hy => decide_eq_true (hbetween _ hmem y hy)
  · intro y hy
    rw [decide_eq_true_iff]
    exact not_lt.mpr (le_getLast htake hne hy)

/-- **Where the pages end does not matter.** -/
theorem scan_eq (hlimit : 0 < limit) (hkeys : (xs.map key).Nodup) (step : β → α → Except ε β)
    (k : κ) (b : β) : scan key limit xs step k b = (after key xs k).foldlM step b := by
  induction hn : (after key xs k).length using Nat.strong_induction_on generalizing k b with
  | _ n ih =>
    rw [scan]
    split
    · rename_i hnil
      have : after key xs k = [] := by
        rcases List.take_eq_nil_iff.mp hnil with h | h
        · exact absurd h (Nat.ne_of_gt hlimit)
        · exact h
      rw [this]
      rfl
    · rename_i x page hpage
      have hne : pageAfter key limit xs k ≠ [] := hpage ▸ List.cons_ne_nil x page
      have hlast : key ((x :: page).getLast (List.cons_ne_nil x page)) =
          key ((pageAfter key limit xs k).getLast hne) := by
        congr 2
        exact hpage.symm
      have hmem : (x :: page).getLast (List.cons_ne_nil x page) ∈ pageAfter key limit xs k := by
        rw [hpage]
        exact List.getLast_mem _
      conv_rhs => rw [← List.take_append_drop limit (after key xs k), List.foldlM_append]
      rw [← after_getLast hkeys hne, ← hlast]
      show (_ >>= _ : Except ε β) = ((pageAfter key limit xs k).foldlM step b >>= _)
      rw [hpage]
      refine bind_congr fun b' => ?_
      exact ih _ (hn ▸ length_after_lt (List.mem_of_mem_take hmem)) _ _ rfl

end Sql
