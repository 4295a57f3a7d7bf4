import Mathlib.Algebra.Order.Group.Int
import Mathlib.Data.Int.Notation

/-!
# Sliding windows of times

* `recent width now times`       the times of the window that ends at `now`;
* `within width start times`     the times of the half-open window that starts at `start`;
* `Bounded width limit times`    no window of that width holds more than `limit` times;
* `Bounded.append`               a time that comes when the window ending at it is not full keeps that.
-/

set_option autoImplicit false

namespace SlidingWindow

/-- the times of the window that ends at `now`. -/
def recent (width now : ℤ) (times : List ℤ) : List ℤ := times.filter fun t => now - width < t

/-- the times of the window that starts at `start`. -/
def within (width start : ℤ) (times : List ℤ) : List ℤ :=
  times.filter fun t => start ≤ t ∧ t < start + width

/-- no window holds more than `limit` times. -/
def Bounded (width : ℤ) (limit : ℕ) (times : List ℤ) : Prop :=
  ∀ start, (within width start times).length ≤ limit

section
variable {width now later start t : ℤ} {limit : ℕ} {times times' : List ℤ}

theorem recent_append :
    recent width now (times ++ times') = recent width now times ++ recent width now times' :=
  List.filter_append ..

/-- what a window leaves out, a later one leaves out. -/
theorem recent_recent (h : now ≤ later) :
    recent width later (recent width now times) = recent width later times := by
  unfold recent
  rw [List.filter_filter]
  refine List.filter_congr fun t _ => ?_
  rw [← Bool.decide_and, decide_eq_decide]
  omega

theorem bounded_nil : Bounded width limit [] := fun _ => Nat.zero_le _

theorem within_append :
    within width start (times ++ times') = within width start times ++ within width start times' :=
  List.filter_append ..

/-- a window around `now` holds no more of the earlier times than the window ending at `now`. -/
theorem length_within_le (h : now < start + width) :
    (within width start times).length ≤ (recent width now times).length := by
  unfold within recent
  rw [← List.countP_eq_length_filter, ← List.countP_eq_length_filter]
  refine List.countP_mono_left fun t _ ht => ?_
  rw [decide_eq_true_iff] at ht ⊢
  omega

/-- **A time at which the window is not full.** -/
theorem Bounded.append (h : Bounded width limit times)
    (hfree : (recent width now times).length < limit) : Bounded width limit (times ++ [now]) := by
  intro start
  rw [within_append, List.length_append]
  by_cases hin : start ≤ now ∧ now < start + width
  · have hle : (within width start times).length ≤ (recent width now times).length :=
      length_within_le hin.2
    have hone : (within width start [now]).length ≤ 1 := List.length_filter_le ..
    omega
  · have hnone : within width start [now] = [] :=
      List.filter_cons_of_neg (by rw [decide_eq_true_iff]; exact hin)
    rw [hnone]
    exact h start

end

end SlidingWindow
