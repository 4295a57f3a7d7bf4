import Mathlib.Data.List.Sort

/-!
# Stable sorting

`Array.prototype.sort` leaves elements that compare as equal in the order in which they stood.

* `Tied r a b`               neither of `a`, `b` comes before the other;
* `insertionSort_filter`     the elements tied with one stay in their order;
* `eq_of_sorted_filter`      sorted lists are told apart by their tied elements;
* `insertionSort_eq_iff`     so lists sort alike exactly when each class of tied elements stands
                             in the same order in both.
-/

set_option autoImplicit false

namespace Js

section
variable {α : Type} {r : α → α → Prop} [DecidableRel r]

/-- Neither comes before the other. -/
def Tied (r : α → α → Prop) (a b : α) : Prop := r a b ∧ r b a

instance (a b : α) : Decidable (Tied r a b) := inferInstanceAs (Decidable (r a b ∧ r b a))

variable {xs ys : List α} {a b c : α}

theorem orderedInsert_filter {p : α → Bool} (hp : ∀ b, p a = true → p b = true → r a b)
    (xs : List α) : (xs.orderedInsert r a).filter p = (a :: xs).filter p := by
  induction xs with
  | nil => rfl
  | cons b xs ih =>
    rw [List.orderedInsert_cons]
    split
    · rfl
    · next hab =>
      rw [List.filter_cons, ih]
      cases ha : p a with
      | false =>
        have hna : ¬p a = true := by rw [ha]; exact Bool.false_ne_true
        rw [List.filter_cons_of_neg hna, List.filter_cons_of_neg hna, List.filter_cons]
      | true =>
        -- `b` stands before `a`, so it is not among the elements that are kept
        have hnb : ¬p b = true := fun hb => hab (hp b ha hb)
        rw [if_neg hnb, List.filter_cons_of_pos ha, List.filter_cons_of_pos ha,
          List.filter_cons_of_neg hnb]

omit [DecidableRel r] in
theorem Tied.refl [Std.Total r] (a : α) : Tied r a a :=
  (Std.Total.total (r := r) a a).elim (fun h => ⟨h, h⟩) fun h => ⟨h, h⟩

omit [DecidableRel r] in
/-- the first element of a sorted list comes before each of it. -/
theorem head_le [Std.Total r] (h : (a :: xs).Pairwise r) (hb : b ∈ a :: xs) : r a b := by
  rcases List.mem_cons.mp hb with rfl | hb
  · exact (Tied.refl (r := r) b).1
  · exact (List.pairwise_cons.mp h).1 b hb

theorem mem_filter_tied [Std.Total r] : a ∈ xs.filter (Tied r a ·) ↔ a ∈ xs := by
  rw [List.mem_filter]
  exact ⟨fun h => h.1, fun h => ⟨h, decide_eq_true (Tied.refl (r := r) a)⟩⟩

theorem mem_of_filter [Std.Total r]
    (h : ∀ a, xs.filter (Tied r a ·) = ys.filter (Tied r a ·)) : a ∈ xs ↔ a ∈ ys := by
  have hxs : a ∈ xs.filter (Tied r a ·) ↔ a ∈ xs := mem_filter_tied
  rw [← hxs, h a, mem_filter_tied]

/-- **Sorted lists are told apart by their tied elements.** -/
theorem eq_of_sorted_filter [Std.Total r] (hxs : xs.Pairwise r) (hys : ys.Pairwise r)
    (h : ∀ a, xs.filter (Tied r a ·) = ys.filter (Tied r a ·)) : xs = ys := by
  induction xs generalizing ys with
  | nil =>
    cases ys with
    | nil => rfl
    | cons y ys => exact absurd ((mem_of_filter h).mpr List.mem_cons_self) List.not_mem_nil
  | cons x xs ih =>
    cases ys with
    | nil => exact absurd ((mem_of_filter h).mp List.mem_cons_self) List.not_mem_nil
    | cons y ys =>
      have htied : Tied r x y := ⟨head_le hxs ((mem_of_filter h).mpr List.mem_cons_self),
        head_le hys ((mem_of_filter h).mp List.mem_cons_self)⟩
      have hhead := h x
      rw [List.filter_cons, List.filter_cons, if_pos (decide_eq_true (Tied.refl (r := r) x)),
        if_pos (decide_eq_true htied)] at hhead
      obtain rfl : x = y := (List.cons.inj hhead).1
      have hrest : ∀ a, xs.filter (Tied r a ·) = ys.filter (Tied r a ·) := by
        intro a
        have ha := h a
        rw [List.filter_cons, List.filter_cons] at ha
        split at ha
        · exact (List.cons.inj ha).2
        · exact ha
      rw [ih (List.pairwise_cons.mp hxs).2 (List.pairwise_cons.mp hys).2 hrest]

variable [IsTrans α r]

/-- **Tied elements stay in their order.** -/
theorem insertionSort_filter (a : α) (xs : List α) :
    (xs.insertionSort r).filter (Tied r a ·) = xs.filter (Tied r a ·) := by
  induction xs with
  | nil => rfl
  | cons x xs ih =>
    rw [List.insertionSort_cons, orderedInsert_filter, List.filter_cons, List.filter_cons, ih]
    intro b hx hb
    have hx : Tied r a x := of_decide_eq_true hx
    have hb : Tied r a b := of_decide_eq_true hb
    exact IsTrans.trans x a b hx.2 hb.1

/-- **Lists sort alike exactly when tied elements stand in the same order in both.** -/
theorem insertionSort_eq_iff [Std.Total r] : xs.insertionSort r = ys.insertionSort r ↔
    ∀ a, xs.filter (Tied r a ·) = ys.filter (Tied r a ·) := by
  constructor
  · intro h a
    rw [← insertionSort_filter a xs, h, insertionSort_filter]
  · intro h
    refine eq_of_sorted_filter (List.pairwise_insertionSort r xs) (List.pairwise_insertionSort r ys)
      fun a => ?_
    rw [insertionSort_filter, insertionSort_filter, h a]

end
end Js
