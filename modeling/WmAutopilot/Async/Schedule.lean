import Mathlib.Data.List.Induction
import WmAutopilot.Async.Solo

/-!
# Runs of several threads by a schedule

`ans κ` answers thread `κ`, `effect κ` is what its operations do, and `ok κ` says when that is so.

* `Prog.pause`, `Prog.resume`   a thread runs until it next lets the others run;
* `Conf.resume`, `Conf.follow`  the pool when one thread does so, and when the threads of a list do so
                                in turn;
* `Conf.started`                the pool in which programs were started;
* `Reachable.follow`            **what a schedule comes to is reached**;
* `Conf.Done`                   every thread has returned.
-/

set_option autoImplicit false

namespace Async
variable {A : Api} {S α : Type}

section
variable (ans : (o : A.Op) → S → A.Ans o) (effect : A.Op → S → S) (ok : A.Op → S → Bool)

/-- a program until it lets the others run. -/
def Prog.pause : Prog A α → S → Option (Prog A α × S)
  | .ret a, s => some (.ret a, s)
  | .call o k, s =>
    if A.yields o then some (.call o k, s)
    else if ok o s then (k (ans o s)).pause (effect o s) else none

/-- a program that waits, until it waits again. -/
def Prog.resume : Prog A α → S → Option (Prog A α × S)
  | .ret a, s => some (.ret a, s)
  | .call o k, s => if ok o s then (k (ans o s)).pause ans effect ok (effect o s) else none

end

section
variable (ans : ℕ → (o : A.Op) → S → A.Ans o) (effect : ℕ → A.Op → S → S)
  (ok : ℕ → A.Op → S → Bool)

/-- one thread goes on until it waits again. -/
def Conf.resume (c : Conf A S) (κ : ℕ) : Option (Conf A S) := do
  let p ← c.threads κ
  let (p, s) ← p.resume (ans κ) (effect κ) (ok κ) c.state
  some ⟨s, Function.update c.threads κ (some p), none⟩

/-- threads go on in turn. -/
def Conf.follow : List ℕ → Conf A S → Option (Conf A S)
  | [], c => some c
  | κ :: κs, c => (c.resume ans effect ok κ).bind (Conf.follow κs)

end

/-- the pool of these programs. -/
def Conf.started (s : S) (ps : List (Prog A Unit)) : Conf A S := ⟨s, fun κ => ps[κ]?, none⟩

def Prog.returned : Prog A α → Bool
  | .ret _ => true
  | .call .. => false

/-- every thread has returned. -/
def Conf.Done (c : Conf A S) : Prop := ∀ κ, ∀ p ∈ c.threads κ, p.returned = true

section
variable {ans : (o : A.Op) → S → A.Ans o} {effect : A.Op → S → S} {ok : A.Op → S → Bool}
  {M : System A S} {κ : ℕ} {p p' : Prog A Unit} {s s' : S}

theorem Prog.pause_solo (h : ∀ o s, ok o s = true → M.perform κ o s (ans o s) (effect o s))
    (hp : p.pause ans effect ok s = some (p', s')) : Solo M κ p s p' s' ∧ p'.Suspended := by
  induction p generalizing s with
  | ret a =>
    cases hp
    exact ⟨.refl _ _, trivial⟩
  | call o k ih =>
    unfold Prog.pause at hp
    split at hp
    · next hyields =>
      cases hp
      exact ⟨.refl _ _, hyields⟩
    · obtain ⟨hok, hp⟩ := Option.ite_none_right_eq_some.mp hp
      obtain ⟨hsolo, hsuspended⟩ := ih _ hp
      exact ⟨.step _ (h o s hok) hsolo, hsuspended⟩

theorem Prog.resume_solo (h : ∀ o s, ok o s = true → M.perform κ o s (ans o s) (effect o s))
    (hp : p.resume ans effect ok s = some (p', s')) : Solo M κ p s p' s' ∧ p'.Suspended := by
  cases p with
  | ret a =>
    cases hp
    exact ⟨.refl _ _, trivial⟩
  | call o k =>
    obtain ⟨hok, hp⟩ := Option.ite_none_right_eq_some.mp hp
    obtain ⟨hsolo, hsuspended⟩ := Prog.pause_solo h hp
    exact ⟨.step _ (h o s hok) hsolo, hsuspended⟩

end

section
variable {ans : ℕ → (o : A.Op) → S → A.Ans o} {effect : ℕ → A.Op → S → S}
  {ok : ℕ → A.Op → S → Bool} {M : System A S} {κ : ℕ} {s : S}

/-- every thread of the pool waits, and none is inside a section. -/
def Conf.Waits (c : Conf A S) : Prop :=
  c.running = none ∧ ∀ κ, ∀ p ∈ c.threads κ, p.Suspended

theorem Conf.resume_steps (h : ∀ κ o s, ok κ o s = true → M.perform κ o s (ans κ o s) (effect κ o s))
    {c c' : Conf A S} (hc : c.Waits) (hr : c.resume ans effect ok κ = some c') :
    Steps M c c' ∧ c'.Waits := by
  simp only [Conf.resume, Option.bind_eq_bind, Option.bind_eq_some_iff, Option.some.injEq] at hr
  obtain ⟨p, hp, ⟨p', s'⟩, hresume, rfl⟩ := hr
  obtain ⟨hsolo, hsuspended⟩ := Prog.resume_solo (h κ) hresume
  obtain ⟨c', hsteps, hstate, hκ, hrun, hother⟩ :=
    hsolo.steps c rfl hp (hc.1.trans (if_pos (hc.2 κ p hp)).symm)
  have heq : c' = ⟨s', Function.update c.threads κ (some p'), none⟩ := by
    cases c' with
    | mk state threads running =>
      cases hstate
      obtain rfl : running = none := hrun.trans (if_pos hsuspended)
      refine congrArg (fun t => Conf.mk _ t none) (funext fun κ' => ?_)
      by_cases hne : κ' = κ
      · rw [hne, Function.update_self]
        exact hκ
      · rw [Function.update_of_ne hne]
        exact hother κ' hne
  refine ⟨heq ▸ hsteps, rfl, fun κ' q hq => ?_⟩
  have hq : q ∈ Function.update c.threads κ (some p') κ' := hq
  by_cases hne : κ' = κ
  · rw [hne, Function.update_self] at hq
    cases hq
    exact hsuspended
  · rw [Function.update_of_ne hne] at hq
    exact hc.2 κ' q hq

theorem Conf.follow_steps (h : ∀ κ o s, ok κ o s = true → M.perform κ o s (ans κ o s) (effect κ o s))
    {κs : List ℕ} {c c' : Conf A S} (hc : c.Waits) (hf : c.follow ans effect ok κs = some c') :
    Steps M c c' := by
  induction κs generalizing c with
  | nil =>
    cases hf
    exact .refl
  | cons κ κs ih =>
    obtain ⟨c₁, hr, hf⟩ := Option.bind_eq_some_iff.mp hf
    obtain ⟨hsteps, hc₁⟩ := Conf.resume_steps h hc hr
    exact hsteps.trans (ih hc₁ hf)

/-- the threads of a schedule wait again. -/
theorem Conf.follow_waits (h : ∀ κ o s, ok κ o s = true → M.perform κ o s (ans κ o s) (effect κ o s))
    {κs : List ℕ} {c c' : Conf A S} (hc : c.Waits) (hf : c.follow ans effect ok κs = some c') :
    c'.Waits := by
  induction κs generalizing c with
  | nil =>
    cases hf
    exact hc
  | cons κ κs ih =>
    obtain ⟨c₁, hr, hf⟩ := Option.bind_eq_some_iff.mp hf
    exact ih (Conf.resume_steps h hc hr).2 hf

/-- programs are started one after the other. -/
theorem Reachable.started {init : S → Prop} {ps : List (Prog A Unit)} (hs : init s)
    (hps : ∀ p ∈ ps, p.Suspended ∧ ∀ κ, M.spawn s κ p) : Reachable M init (.started s ps) := by
  induction ps using List.reverseRecOn with
  | nil => exact ⟨s, hs, .refl⟩
  | append_singleton ps p ih =>
    obtain ⟨s₀, hs₀, hsteps⟩ := ih fun q hq => hps q (List.mem_append_left _ hq)
    obtain ⟨hp, hspawn⟩ := hps p (List.mem_append_right _ List.mem_cons_self)
    have hstart : Step M (.started s ps) _ := Step.start (.started s ps) ps.length p rfl
      (List.getElem?_eq_none (Nat.le_refl _)) hp (hspawn _)
    refine ⟨s₀, hs₀, hsteps.tail ?_⟩
    have hthreads : (fun κ => (ps ++ [p])[κ]?) =
        Function.update (fun κ => ps[κ]?) ps.length (some p) := by
      funext κ
      by_cases hκ : κ = ps.length
      · rw [hκ, Function.update_self, List.getElem?_concat_length]
      · rw [Function.update_of_ne hκ]
        rcases Nat.lt_or_gt_of_ne hκ with hlt | hgt
        · exact List.getElem?_append_left hlt
        · rw [List.getElem?_eq_none (Nat.le_of_lt hgt), List.getElem?_eq_none (by simp; omega)]
    show Step M _ ⟨s, fun κ => (ps ++ [p])[κ]?, none⟩
    rw [hthreads]
    exact hstart

/-- **What a schedule comes to is reached.** -/
theorem Reachable.follow {init : S → Prop}
    (h : ∀ κ o s, ok κ o s = true → M.perform κ o s (ans κ o s) (effect κ o s))
    {ps : List (Prog A Unit)} {κs : List ℕ} {c : Conf A S} (hs : init s)
    (hps : ∀ p ∈ ps, p.Suspended ∧ ∀ κ, M.spawn s κ p)
    (hf : (Conf.started s ps).follow ans effect ok κs = some c) : Reachable M init c := by
  obtain ⟨s₀, hs₀, hsteps⟩ := Reachable.started hs hps
  refine ⟨s₀, hs₀, hsteps.trans (Conf.follow_steps h ⟨rfl, fun κ p hp => ?_⟩ hf)⟩
  exact (hps p (List.mem_of_getElem? hp)).1

theorem Conf.follow_none {κs : List ℕ} {c c' : Conf A S}
    (hf : c.follow ans effect ok κs = some c') (hnone : c.threads κ = none) :
    c'.threads κ = none := by
  induction κs generalizing c with
  | nil =>
    cases hf
    exact hnone
  | cons κ' κs ih =>
    obtain ⟨c₁, hr, hf⟩ := Option.bind_eq_some_iff.mp hf
    refine ih hf ?_
    simp only [Conf.resume, Option.bind_eq_bind, Option.bind_eq_some_iff, Option.some.injEq] at hr
    obtain ⟨p, hp, r, -, rfl⟩ := hr
    show Function.update c.threads κ' (some r.1) κ = none
    rw [Function.update_of_ne, hnone]
    rintro rfl
    rw [hnone] at hp
    cases hp

theorem Conf.done_of_follow {ps : List (Prog A Unit)} {κs : List ℕ} {c : Conf A S}
    (hf : (Conf.started s ps).follow ans effect ok κs = some c)
    (h : ∀ κ < ps.length, (c.threads κ).all Prog.returned = true) : c.Done := by
  intro κ p hp
  rcases Nat.lt_or_ge κ ps.length with hlt | hge
  · exact (Option.all_eq_true ..).mp (h κ hlt) p hp
  · have hnone : c.threads κ = none := Conf.follow_none hf (List.getElem?_eq_none hge)
    rw [hnone] at hp
    cases hp

end

end Async
