import Mathlib.Data.List.Nodup

/-!
# Lists with a key

`put key xs x` is `map.set(key(x), x)` of a `Map` that is a list in the order of insertion: the
element with this key is replaced where it stands, a new one comes last.  `foldl_put` is
`new Map(xs.map(x => [key(x), x]))` of a list that has each key once.
-/

set_option autoImplicit false

namespace Js
variable {α κ : Type} [DecidableEq κ] {key : α → κ} {xs ys : List α} {x y : α}

def put (key : α → κ) (xs : List α) (x : α) : List α :=
  if xs.any fun y => key y = key x then xs.map fun y => if key y = key x then x else y
  else xs ++ [x]

theorem put_of_new (h : ∀ y ∈ xs, key y ≠ key x) : put key xs x = xs ++ [x] := by
  rw [put, if_neg]
  simpa using h

theorem eq_or_mem_of_mem_put (h : y ∈ put key xs x) : y = x ∨ y ∈ xs := by
  unfold put at h
  split at h
  · obtain ⟨z, hz, hy⟩ := List.mem_map.mp h
    split at hy
    · exact .inl hy.symm
    · exact .inr (hy ▸ hz)
  · rcases List.mem_append.mp h with h | h
    · exact .inr h
    · exact .inl (List.mem_singleton.mp h)

theorem mem_put_self : x ∈ put key xs x := by
  unfold put
  split
  · next h =>
    obtain ⟨y, hy, hkey⟩ := List.any_eq_true.mp h
    exact List.mem_map.mpr ⟨y, hy, if_pos (by simpa using hkey)⟩
  · exact List.mem_append_right _ (List.mem_singleton_self x)

theorem mem_put_of_ne (hy : y ∈ xs) (hne : key y ≠ key x) : y ∈ put key xs x := by
  unfold put
  split
  · exact List.mem_map.mpr ⟨y, hy, if_neg hne⟩
  · exact List.mem_append_left _ hy

theorem mem_put : y ∈ put key xs x ↔ y = x ∨ y ∈ xs ∧ key y ≠ key x := by
  constructor
  · intro h
    by_cases hkey : key y = key x
    · refine .inl ?_
      unfold put at h
      split at h
      · obtain ⟨z, -, hz⟩ := List.mem_map.mp h
        split at hz
        · exact hz.symm
        · next hne => exact absurd (hz ▸ hkey) hne
      · next hnew =>
        rcases List.mem_append.mp h with h | h
        · exact absurd (List.any_eq_true.mpr ⟨y, h, by simpa using hkey⟩) hnew
        · exact List.mem_singleton.mp h
    · exact (eq_or_mem_of_mem_put h).imp_right fun hy => ⟨hy, hkey⟩
  · rintro (rfl | ⟨hy, hne⟩)
    · exact mem_put_self
    · exact mem_put_of_ne hy hne

/-- the keys stay distinct. -/
theorem nodup_put (h : (xs.map key).Nodup) : ((put key xs x).map key).Nodup := by
  unfold put
  split
  · have hkeys : (xs.map fun y => if key y = key x then x else y).map key = xs.map key := by
      rw [List.map_map]
      refine List.map_congr_left fun y _ => ?_
      simp only [Function.comp_apply]
      split
      · next hkey => exact hkey.symm
      · rfl
    exact hkeys ▸ h
  · next hnew =>
    rw [List.map_append, List.nodup_append]
    refine ⟨h, by simp, fun a ha b hb => ?_⟩
    obtain ⟨y, hy, rfl⟩ := List.mem_map.mp ha
    obtain rfl : b = key x := by simpa using hb
    intro hkey
    exact hnew (List.any_eq_true.mpr ⟨y, hy, by simpa using hkey⟩)

/-! ## what is found -/

theorem put_of_mem (h : ∃ y ∈ xs, key y = key x) :
    put key xs x = xs.map fun y => if key y = key x then x else y := by
  rw [put, if_pos]
  simpa using h

theorem put_cons_of_ne (h : key y ≠ key x) : put key (y :: xs) x = y :: put key xs x := by
  unfold put
  rw [List.any_cons, decide_eq_false h, Bool.false_or]
  split
  · rw [List.map_cons, if_neg h]
  · rfl

theorem put_cons_of_eq (h : key y = key x) :
    put key (y :: xs) x = x :: xs.map fun y => if key y = key x then x else y := by
  rw [put_of_mem ⟨y, List.mem_cons_self, h⟩, List.map_cons, if_pos h]

theorem find?_put_self : (put key xs x).find? (key · = key x) = some x := by
  have hx : decide (key x = key x) = true := decide_eq_true rfl
  induction xs with
  | nil => exact List.find?_cons_of_pos hx
  | cons y ys ih =>
    by_cases hy : key y = key x
    · rw [put_cons_of_eq hy]
      exact List.find?_cons_of_pos hx
    · rw [put_cons_of_ne hy, List.find?_cons, decide_eq_false hy]
      exact ih

theorem find?_put_of_ne {k : κ} (h : k ≠ key x) :
    (put key xs x).find? (key · = k) = xs.find? (key · = k) := by
  have hmap : ∀ ys : List α, (ys.map fun y => if key y = key x then x else y).find? (key · = k) =
      ys.find? (key · = k) := by
    intro ys
    induction ys with
    | nil => rfl
    | cons y ys ih =>
      by_cases hy : key y = key x
      · rw [List.map_cons, if_pos hy, List.find?_cons, List.find?_cons, hy,
          decide_eq_false (Ne.symm h)]
        exact ih
      · rw [List.map_cons, if_neg hy, List.find?_cons, List.find?_cons, ih]
  unfold put
  split
  · exact hmap xs
  · rw [List.find?_append, List.find?_cons, decide_eq_false (Ne.symm h)]
    exact Option.or_none

/-- a list that has each key once. -/
theorem foldl_put (h : (xs.map key).Nodup) : xs.foldl (put key) [] = xs := by
  suffices ∀ acc, ((acc ++ xs).map key).Nodup → xs.foldl (put key) acc = acc ++ xs by
    simpa using this [] (by simpa using h)
  induction xs with
  | nil => simp
  | cons x xs ih =>
    intro acc hacc
    have hnew : ∀ y ∈ acc, key y ≠ key x := by
      rw [List.map_append, List.nodup_append] at hacc
      exact fun y hy => hacc.2.2 (key y) (List.mem_map_of_mem hy) (key x) (by simp)
    have hrest : ((acc ++ [x] ++ xs).map key).Nodup := by simpa using hacc
    rw [List.foldl_cons, put_of_new hnew, ih ?_ _ hrest]
    · simp
    · exact (List.nodup_cons.mp (by simpa using h)).2

end Js
