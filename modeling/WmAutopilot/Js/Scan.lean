import WmAutopilot.Js.Segments

/-!
# Scans, and what is cut off at separators

* `scan`                     a step over the elements of a list, with what it puts out;
* `scan_append`              a scan in parts is a scan of the whole;
* `complete`, `remainder`    the parts of a list that a separator ends, and what is left after the last
                             separator;
* `complete_append`          **what more is added only goes to what is left.**
-/

set_option autoImplicit false

namespace Js

section
variable {σ α β : Type} (step : σ → α → σ × List β)

/-- a step over the elements of a list. -/
def scan : σ → List α → σ × List β
  | s, [] => (s, [])
  | s, a :: as => ((scan (step s a).1 as).1, (step s a).2 ++ (scan (step s a).1 as).2)

variable {step} {s : σ}

@[simp] theorem scan_nil : scan step s [] = (s, []) := rfl

theorem scan_cons (a : α) (as : List α) : scan step s (a :: as) =
    ((scan step (step s a).1 as).1, (step s a).2 ++ (scan step (step s a).1 as).2) := rfl

theorem scan_append (as bs : List α) : scan step s (as ++ bs) =
    ((scan step (scan step s as).1 bs).1,
      (scan step s as).2 ++ (scan step (scan step s as).1 bs).2) := by
  induction as generalizing s with
  | nil => rfl
  | cons a as ih =>
    rw [List.cons_append, scan_cons, scan_cons, ih]
    simp only [List.append_assoc]

end

section
variable {α : Type} [DecidableEq α] {sep : α}

/-- the parts that a separator ends. -/
def complete (sep : α) (xs : List α) : List (List α) := (xs.splitOn sep).dropLast

/-- what is left after the last separator. -/
def remainder (sep : α) (xs : List α) : List α := (xs.splitOn sep).getLastD []

theorem splitOn_eq (xs : List α) : xs.splitOn sep = complete sep xs ++ [remainder sep xs] := by
  obtain ⟨init, last, h⟩ :=
    (List.eq_nil_or_concat (xs.splitOn sep)).resolve_left (List.splitOn_ne_nil sep xs)
  have h : xs.splitOn sep = init ++ [last] := by simpa using h
  rw [complete, remainder, h]
  simp

theorem complete_of_notMem {xs : List α} (h : sep ∉ xs) : complete sep xs = [] := by
  rw [complete, List.splitOn_eq_singleton h]
  rfl

theorem remainder_of_notMem {xs : List α} (h : sep ∉ xs) : remainder sep xs = xs := by
  rw [remainder, List.splitOn_eq_singleton h]
  rfl

theorem complete_append_cons {xs : List α} (h : sep ∉ xs) (ys : List α) :
    complete sep (xs ++ sep :: ys) = xs :: complete sep ys := by
  rw [complete, List.splitOn_append_cons_self_of_not_mem h, splitOn_eq, ← List.cons_append,
    List.dropLast_concat]

theorem remainder_append_cons {xs : List α} (h : sep ∉ xs) (ys : List α) :
    remainder sep (xs ++ sep :: ys) = remainder sep ys := by
  rw [remainder, List.splitOn_append_cons_self_of_not_mem h, splitOn_eq, ← List.cons_append,
    List.getLastD_concat]

@[simp] theorem complete_nil : complete sep [] = [] := complete_of_notMem List.not_mem_nil

@[simp] theorem remainder_nil : remainder sep [] = [] := remainder_of_notMem List.not_mem_nil

/-- **What more is added** only goes to what is left. -/
theorem split_append (xs ys : List α) :
    complete sep (xs ++ ys) = complete sep xs ++ complete sep (remainder sep xs ++ ys) ∧
      remainder sep (xs ++ ys) = remainder sep (remainder sep xs ++ ys) := by
  induction hn : xs.length using Nat.strong_induction_on generalizing xs with
  | _ n ih =>
    by_cases h : sep ∈ xs
    · obtain ⟨as, bs, rfl, has⟩ := List.eq_append_cons_of_mem h
      obtain ⟨hcomplete, hremainder⟩ := ih bs.length (by simp [← hn]; omega) bs rfl
      rw [complete_append_cons has, remainder_append_cons has, List.append_assoc, List.cons_append,
        complete_append_cons has, remainder_append_cons has, hcomplete, hremainder]
      exact ⟨rfl, rfl⟩
    · rw [complete_of_notMem h, remainder_of_notMem h]
      exact ⟨rfl, rfl⟩

theorem complete_append (xs ys : List α) :
    complete sep (xs ++ ys) = complete sep xs ++ complete sep (remainder sep xs ++ ys) :=
  (split_append xs ys).1

theorem remainder_append (xs ys : List α) :
    remainder sep (xs ++ ys) = remainder sep (remainder sep xs ++ ys) := (split_append xs ys).2

end

end Js
