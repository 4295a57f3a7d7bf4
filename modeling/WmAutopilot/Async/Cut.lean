import WmAutopilot.Async.Prog

/-!
# Programs that are cut off

A program whose operations have a function for their effect is run for a number of operations, and
is then cut off by a crash, which loses the program and keeps the state.

* `Effects`        the effect and the answer of each operation;
* `cut n p s`      `p` run from `s` for at most `n` operations: the state, and what `p` returned
                   with the operations that are left;
* `cut_bind`       a program after another one;
* `cut_returns`    what a program returns when it is not cut off;
* `cut_keeps`      what every operation keeps is kept, wherever the program is cut.
-/

set_option autoImplicit false

namespace Async

/-- the effect and the answer of each operation. -/
abbrev Effects (A : Api) (S : Type) : Type := (o : A.Op) → S → S × A.Ans o

variable {A : Api} {S α β : Type}

/-- A program that is cut off.  See the file header. -/
def cut (E : Effects A S) : ℕ → Prog A α → S → S × Option (α × ℕ)
  | n, .ret a, s => (s, some (a, n))
  | 0, .call _ _, s => (s, none)
  | n + 1, .call o k, s => cut E n (k (E o s).2) (E o s).1

section
variable {E : Effects A S} {n : ℕ} {s : S}

@[simp] theorem cut_ret (a : α) : cut E n (.ret a) s = (s, some (a, n)) := by
  cases n <;> rfl

@[simp] theorem cut_pure (a : α) : cut E n (pure a) s = (s, some (a, n)) := cut_ret a

@[simp] theorem cut_succ (o : A.Op) (k : A.Ans o → Prog A α) :
    cut E (n + 1) (.call o k) s = cut E n (k (E o s).2) (E o s).1 := rfl

/-- what follows a program that was run. -/
def andThen (E : Effects A S) (f : α → Prog A β) : S × Option (α × ℕ) → S × Option (β × ℕ)
  | (s, none) => (s, none)
  | (s, some (a, n)) => cut E n (f a) s

theorem andThen_none (f : α → Prog A β) : andThen E f (s, none) = (s, none) := rfl

theorem andThen_some (f : α → Prog A β) (a : α) :
    andThen E f (s, some (a, n)) = cut E n (f a) s := rfl

/-- **A program after another one** has the operations that the first one left. -/
theorem cut_bind (p : Prog A α) (f : α → Prog A β) :
    cut E n (p >>= f) s = andThen E f (cut E n p s) := by
  induction p generalizing n s with
  | ret a =>
    rw [Prog.ret_bind, cut_ret]
    rfl
  | call o k ih =>
    rw [Prog.call_bind]
    cases n with
    | zero => rfl
    | succ n => rw [cut_succ, cut_succ, ih]

/-- one operation. -/
theorem cut_perform (o : A.Op) :
    cut E n (Prog.perform o) s =
      if n = 0 then (s, none) else ((E o s).1, some ((E o s).2, n - 1)) := by
  cases n with
  | zero => rfl
  | succ n =>
    rw [if_neg (Nat.succ_ne_zero n)]
    exact cut_ret _

/-- what a program returns satisfies `Q`, whatever its operations answer. -/
def Prog.Returns (Q : α → Prop) : Prog A α → Prop
  | .ret a => Q a
  | .call _ k => ∀ r, (k r).Returns Q

/-- what a program that was not cut off has returned. -/
theorem cut_returns {Q : α → Prop} {p : Prog A α} (h : p.Returns Q) {a : α} {k : ℕ}
    (hcut : (cut E n p s).2 = some (a, k)) : Q a := by
  induction p generalizing n s with
  | ret b =>
    rw [cut_ret] at hcut
    cases hcut
    exact h
  | call o f ih =>
    cases n with
    | zero => cases hcut
    | succ n => exact ih _ (h _) hcut

/-- **What every operation keeps is kept**, wherever the program is cut. -/
theorem cut_keeps {P : S → Prop} (h : ∀ o s, P s → P (E o s).1) (p : Prog A α) (hs : P s) :
    P (cut E n p s).1 := by
  induction p generalizing n s with
  | ret a =>
    rw [cut_ret]
    exact hs
  | call o k ih =>
    cases n with
    | zero => exact hs
    | succ n => exact ih _ (h o s hs)

end
end Async
