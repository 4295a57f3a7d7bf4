import WmAutopilot.Async.Solo
import WmAutopilot.Async.Triple

/-!
# Programs run one at a time

* `Alone`     a system in which only thread `0` performs operations: every assertion is stable;
* `Turn`      a program is started, run alone, and left anywhere: at its end or before any operation;
* `Turns`     turns one after the other;
* `Discipline.turns`   **the rule**: what every program of a turn keeps, all turns keep.
-/

set_option autoImplicit false

namespace Async
variable {A : Api} {S : Type} {α ε ε' : Type}

/-- only thread `0` performs operations. -/
def Alone (M : System A S) : Prop := ∀ κ o s r s', M.perform κ o s r s' → κ = 0

/-- the system of the operations of one thread. -/
def System.alone (perform : (o : A.Op) → S → A.Ans o → S → Prop) : System A S where
  perform κ o s r s' := κ = 0 ∧ perform o s r s'
  spawn _ _ _ := False
  crash _ _ := False

theorem System.alone_alone (perform : (o : A.Op) → S → A.Ans o → S → Prop) :
    Alone (System.alone perform) := fun _ _ _ _ _ h => h.1

/-- A program is started and run alone.  See the file header. -/
inductive Turn (M : System A S) (start : S → Prog A Unit → S → Prop) : S → S → Prop where
  | intro {s s₀ s' : S} {p p' : Prog A Unit} (hstart : start s p s₀)
      (hrun : Solo M 0 p s₀ p' s') : Turn M start s s'

/-- turns one after the other. -/
abbrev Turns (M : System A S) (start : S → Prog A Unit → S → Prop) : S → S → Prop :=
  Relation.ReflTransGen (Turn M start)

variable {D : Discipline A S}

theorem Stable.alone (h : Alone D.toSystem) {P : S → Prop} : Stable D 0 P := by
  rintro s s' - ⟨κ, o, r, hne, -, -, ho⟩
  exact absurd (h κ o s r s' ho) hne

/-- what a program alone asks for is permitted, as far as it is run. -/
theorem Solo.keeps (hperform : ∀ {κ o s r s'}, D.Inv s → D.may κ o s → D.perform κ o s r s' →
    D.Inv s') {κ : ℕ} {p p' : Prog A Unit} {s s' : S} {Q : Unit → S → Prop}
    (h : Solo D.toSystem κ p s p' s') (hi : D.Inv s) (hp : wp D κ p Q s) :
    D.Inv s' ∧ wp D κ p' Q s' := by
  induction h with
  | refl p s => exact ⟨hi, hp⟩
  | @step o k s s₁ s₂ p' r ho _ ih =>
    obtain ⟨hmay, hk⟩ := hp s (by split; exacts [.refl, rfl]) hi
    have hi₁ := hperform hi hmay ho
    exact ih hi₁ (hk r s₁ ho hi₁)

/-- **What the programs of all turns keep.** -/
theorem Discipline.turns (hperform : ∀ {κ o s r s'}, D.Inv s → D.may κ o s →
    D.perform κ o s r s' → D.Inv s') {start : S → Prog A Unit → S → Prop}
    (hstart : ∀ s p s₀, D.Inv s → start s p s₀ → D.Inv s₀ ∧ wp D 0 p (fun _ _ => True) s₀)
    {s s' : S} (hi : D.Inv s) (h : Turns D.toSystem start s s') : D.Inv s' := by
  induction h with
  | refl => exact hi
  | tail _ hturn ih =>
    obtain ⟨hs, hrun⟩ := hturn
    obtain ⟨hi₀, hp⟩ := hstart _ _ _ ih hs
    exact (hrun.keeps hperform hi₀ hp).1

end Async
