import WmAutopilot.Async.Pool

/-!
# Runs of one thread

`Solo M κ p s p' s'`: thread `κ` alone runs `p` from `s` until `p'` is left in `s'`.  Such a run is
a run of the pool (`Solo.steps`), which is how concrete runs are exhibited: the runs of several
threads one after the other (`Solo.extend`), from an idle pool (`Solo.reachable`).  When the answers
and the effects are functions, a run is computed (`Prog.run`, `Solo.of_run`, `Reachable.runAll`).

`Ran M κ p s r s'`: alone, a program that may throw returns or throws `r` in `s'`.  Such runs are
composed as the program is: `bind`, `throws`, `andFinally`, `op`, `tryOp`; `solo` is the whole run.
`Reach` is a run to an operation.
-/

set_option autoImplicit false

namespace Async
variable {A : Api} {S : Type} {M : System A S} {κ : ℕ}

/-- A run of one thread.  See the file header. -/
inductive Solo (M : System A S) (κ : ℕ) : Prog A Unit → S → Prog A Unit → S → Prop where
  | refl (p : Prog A Unit) (s : S) : Solo M κ p s p s
  | step {o : A.Op} {k : A.Ans o → Prog A Unit} {s s' s'' : S} {p : Prog A Unit} (r : A.Ans o)
      (ho : M.perform κ o s r s') (h : Solo M κ (k r) s' p s'') : Solo M κ (.call o k) s p s''

/-- the thread that runs after thread `κ` has come to `p`. -/
def runningAt (κ : ℕ) (p : Prog A Unit) : Option ℕ := if p.Suspended then none else some κ

/-- **A run of one thread is a run of the pool.** -/
theorem Solo.steps {p p' : Prog A Unit} {s s' : S} (h : Solo M κ p s p' s') :
    ∀ c : Conf A S, c.state = s → c.threads κ = some p → c.running = runningAt κ p →
      ∃ c', Steps M c c' ∧ c'.state = s' ∧ c'.threads κ = some p' ∧
        c'.running = runningAt κ p' ∧ ∀ κ', κ' ≠ κ → c'.threads κ' = c.threads κ' := by
  induction h with
  | refl p s => exact fun c hs hp hr => ⟨c, .refl, hs, hp, hr, fun _ _ => rfl⟩
  | @step o k s s₁ s₂ p₂ r ho h ih =>
    rintro c rfl hp hr
    have hrun : c.running = some κ ∨ c.running = none ∧ A.yields o = true := by
      unfold runningAt at hr
      split at hr
      · exact Or.inr ⟨hr, by assumption⟩
      · exact Or.inl hr
    obtain ⟨c', hs, h₁, h₂, h₃, h₄⟩ := ih
      ⟨s₁, Function.update c.threads κ (some (k r)), runningAt κ (k r)⟩ rfl (by simp) rfl
    refine ⟨c', (Relation.ReflTransGen.single (Step.perform c κ o k r s₁ hp hrun ho)).trans hs,
      h₁, h₂, h₃, fun κ' hne => (h₄ κ' hne).trans ?_⟩
    exact Function.update_of_ne hne ..

/-- a run of a thread started while no other thread is inside a section. -/
theorem Solo.started {p p' : Prog A Unit} {s' : S} {c : Conf A S} (hidle : c.running = none)
    (hfree : c.threads κ = none) (h : Solo M κ p c.state p' s') (hp : p.Suspended)
    (hs : M.spawn c.state κ p) :
    ∃ c', Steps M c c' ∧ c'.state = s' ∧ c'.threads κ = some p' ∧
      c'.running = runningAt κ p' ∧ ∀ κ', κ' ≠ κ → c'.threads κ' = c.threads κ' := by
  let c₀ : Conf A S := { c with threads := Function.update c.threads κ (some p) }
  have hstart : Step M c c₀ := Step.start c κ p hidle hfree hp hs
  obtain ⟨c', hsteps, h₁, h₂, h₃, h₄⟩ := h.steps c₀ rfl (by simp [c₀])
    (hidle.trans (if_pos hp).symm)
  refine ⟨c', Relation.ReflTransGen.head hstart hsteps, h₁, h₂, h₃, fun κ' hne => ?_⟩
  exact (h₄ κ' hne).trans (Function.update_of_ne hne ..)

/-- a reachable configuration, extended by such a run. -/
theorem Solo.extend {p p' : Prog A Unit} {s' : S} {init : S → Prop} {c : Conf A S}
    (hc : Reachable M init c) (hidle : c.running = none) (hfree : c.threads κ = none)
    (h : Solo M κ p c.state p' s') (hp : p.Suspended) (hs : M.spawn c.state κ p) :
    ∃ c', Reachable M init c' ∧ c'.state = s' ∧ c'.threads κ = some p' ∧
      c'.running = runningAt κ p' ∧ ∀ κ', κ' ≠ κ → c'.threads κ' = c.threads κ' := by
  obtain ⟨c', hsteps, hc'⟩ := h.started hidle hfree hp hs
  obtain ⟨s₀, hs₀, hreach⟩ := hc
  exact ⟨c', ⟨s₀, hs₀, hreach.trans hsteps⟩, hc'⟩

/-- a run of a thread just started on an idle pool. -/
theorem Solo.reachable {p p' : Prog A Unit} {s s' : S} (init : S → Prop) (h : Solo M κ p s p' s')
    (hi : init s) (hp : p.Suspended) (hs : M.spawn s κ p) :
    ∃ c, Reachable M init c ∧ c.state = s' ∧ c.threads κ = some p' ∧
      c.running = runningAt κ p' ∧ ∀ κ', κ' ≠ κ → c.threads κ' = none :=
  Solo.extend (c := .idle s) ⟨s, hi, .refl⟩ rfl rfl h hp hs

/-- a thread that has come to its end is forgotten. -/
theorem Reachable.forget {init : S → Prop} {c : Conf A S} (hc : Reachable M init c)
    (hidle : c.running = none) (κ : ℕ) :
    Reachable M init { c with threads := Function.update c.threads κ none } := by
  obtain ⟨s₀, hs₀, hreach⟩ := hc
  have hkill := Step.kill (M := M) c κ
  rw [hidle, if_neg (by simp)] at hkill
  refine ⟨s₀, hs₀, hreach.tail ?_⟩
  rw [hidle]
  exact hkill

/-- **A thread that runs alone to its end** leaves the pool idle. -/
theorem Solo.idle {p : Prog A Unit} {s s' : S} {init : S → Prop} (κ : ℕ)
    (hc : Reachable M init (.idle s)) (h : Solo M κ p s (.ret ()) s') (hp : p.Suspended)
    (hs : M.spawn s κ p) : Reachable M init (.idle s') := by
  obtain ⟨c, hc, hstate, hκ, hrun, hother⟩ := h.extend (c := .idle s) hc rfl rfl hp hs
  have hforget := hc.forget hrun κ
  have heq : { c with threads := Function.update c.threads κ none } = Conf.idle s' := by
    cases c with
    | mk state threads running =>
      cases hstate
      cases hrun
      refine congrArg (fun t => Conf.mk _ t none) (funext fun κ' => ?_)
      by_cases hne : κ' = κ
      · rw [hne, Function.update_self]
      · rw [Function.update_of_ne hne]
        exact hother κ' hne
  rwa [heq] at hforget

/-! ## runs that are computed -/

section
variable (ans : (o : A.Op) → S → A.Ans o) (effect : A.Op → S → S) {α : Type}

/-- the run of a program when `ans` answers and `effect` is what an operation does. -/
def Prog.run : Prog A α → S → α × S
  | .ret a, s => (a, s)
  | .call o k, s => (k (ans o s)).run (effect o s)

/-- every operation of that run is `ok`. -/
def Prog.allowed (ok : A.Op → S → Bool) : Prog A α → S → Bool
  | .ret _, _ => true
  | .call o k, s => ok o s && (k (ans o s)).allowed ok (effect o s)

variable {ans effect}

theorem Prog.run_bind {β : Type} (p : Prog A α) (f : α → Prog A β) (s : S) :
    (p >>= f).run ans effect s = (f (p.run ans effect s).1).run ans effect (p.run ans effect s).2 := by
  induction p generalizing s with
  | ret a => rfl
  | call o k ih => exact ih _ _

/-- **A run that returns** has returned before. -/
theorem Exc.run_bind_ok {β ε : Type} {p : Exc A ε α} {f : α → Exc A ε β} {s s'' : S} {b : β} :
    Prog.run ans effect (p >>= f).run s = (.ok b, s'') ↔
      ∃ a s', Prog.run ans effect p.run s = (.ok a, s') ∧
        Prog.run ans effect (f a).run s' = (.ok b, s'') := by
  have hbind : Prog.run ans effect (p.run >>= ExceptT.bindCont f) s = _ :=
    Prog.run_bind p.run (ExceptT.bindCont f) s
  constructor
  · intro h
    have h := hbind.symm.trans h
    cases hp : Prog.run ans effect p.run s with
    | mk r s' =>
      rw [hp] at h
      cases r with
      | ok a => exact ⟨a, s', rfl, h⟩
      | error e => cases h
  · rintro ⟨a, s', hp, hf⟩
    refine hbind.trans ?_
    rw [hp]
    exact hf

/-- **A computed run is a run.** -/
theorem Solo.of_run {ok : A.Op → S → Bool}
    (h : ∀ o s, ok o s = true → M.perform κ o s (ans o s) (effect o s)) (p : Prog A Unit) (s : S)
    (hp : p.allowed ans effect ok s = true) : Solo M κ p s (.ret ()) (p.run ans effect s).2 := by
  induction p generalizing s with
  | ret a => exact .refl _ _
  | call o k ih =>
    obtain ⟨ho, hk⟩ := Bool.and_eq_true_iff.mp hp
    exact .step _ (h o s ho) (ih _ _ hk)

end

section
variable (ans : (o : A.Op) → S → A.Ans o) (effect : A.Op → S → S)

/-- programs run one after the other. -/
def Prog.runAll (ps : List (Prog A Unit)) (s : S) : S :=
  ps.foldl (fun s p => (p.run ans effect s).2) s

/-- every operation of these runs is `ok`. -/
def Prog.allowedAll (ok : A.Op → S → Bool) : List (Prog A Unit) → S → Bool
  | [], _ => true
  | p :: ps, s => p.allowed ans effect ok s &&
      Prog.allowedAll ok ps (p.run ans effect s).2

variable {ans effect}

/-- **Computed runs one after the other** are a run of the pool. -/
theorem Reachable.runAll {ok : A.Op → S → Bool} {init : S → Prop} (κ : ℕ)
    (h : ∀ o s, ok o s = true → M.perform κ o s (ans o s) (effect o s)) {ps : List (Prog A Unit)}
    (hps : ∀ p ∈ ps, p.Suspended ∧ ∀ s, M.spawn s κ p) {s : S}
    (hs : Reachable M init (.idle s)) (hok : Prog.allowedAll ans effect ok ps s = true) :
    Reachable M init (.idle (Prog.runAll ans effect ps s)) := by
  induction ps generalizing s with
  | nil => exact hs
  | cons p ps ih =>
    obtain ⟨hp, hrest⟩ := Bool.and_eq_true_iff.mp hok
    obtain ⟨hsuspended, hspawn⟩ := hps p List.mem_cons_self
    exact ih (fun q hq => hps q (List.mem_cons_of_mem _ hq))
      ((Solo.of_run h p s hp).idle κ hs hsuspended (hspawn s)) hrest

end

/-! ## runs of programs that may throw -/

variable {α β ε : Type}

/-- a run to the value of a program. -/
inductive Returned (M : System A S) (κ : ℕ) : Prog A α → S → α → S → Prop where
  | ret (a : α) (s : S) : Returned M κ (.ret a) s a s
  | call {o : A.Op} {k : A.Ans o → Prog A α} {s s' s'' : S} {a : α} (r : A.Ans o)
      (ho : M.perform κ o s r s') (h : Returned M κ (k r) s' a s'') :
      Returned M κ (.call o k) s a s''

theorem Returned.bind {p : Prog A α} {f : α → Prog A β} {s s' s'' : S} {a : α} {b : β}
    (h : Returned M κ p s a s') (h' : Returned M κ (f a) s' b s'') :
    Returned M κ (p >>= f) s b s'' := by
  induction h with
  | ret a s => exact h'
  | call r ho _ ih => exact .call r ho (ih h')

theorem Returned.solo {p : Prog A Unit} {s s' : S} {a : Unit} (h : Returned M κ p s a s') :
    Solo M κ p s (.ret ()) s' := by
  induction h with
  | ret a s => exact .refl _ _
  | call r ho _ ih => exact .step r ho ih

/-- A run to an operation that a program is about to perform. -/
inductive Reach (M : System A S) (κ : ℕ) : Prog A α → S → A.Op → S → Prop where
  | here (o : A.Op) (k : A.Ans o → Prog A α) (s : S) : Reach M κ (.call o k) s o s
  | call {o o' : A.Op} {k : A.Ans o → Prog A α} {s s' s'' : S} (r : A.Ans o)
      (ho : M.perform κ o s r s') (h : Reach M κ (k r) s' o' s'') : Reach M κ (.call o k) s o' s''

theorem Reach.bind {p : Prog A α} {f : α → Prog A β} {s s' : S} {o : A.Op}
    (h : Reach M κ p s o s') : Reach M κ (p >>= f) s o s' := by
  induction h with
  | here o k s => exact .here _ _ _
  | call r ho _ ih => exact .call r ho ih

theorem Returned.reach {p : Prog A α} {f : α → Prog A β} {s s' s'' : S} {a : α} {o : A.Op}
    (h : Returned M κ p s a s') (h' : Reach M κ (f a) s' o s'') : Reach M κ (p >>= f) s o s'' := by
  induction h with
  | ret a s => exact h'
  | call r ho _ ih => exact .call r ho (ih h')

/-- A run to what a program returns or throws.  See the file header. -/
def Ran (M : System A S) (κ : ℕ) (p : Exc A ε α) (s : S) (r : Except ε α) (s' : S) : Prop :=
  Returned M κ p.run s r s'

namespace Ran
variable {s s' s'' : S} {a : α} {e : ε}

theorem pure (a : α) (s : S) : Ran M κ (pure a : Exc A ε α) s (.ok a) s := .ret _ s

theorem bind {p : Exc A ε α} {f : α → Exc A ε β} {r : Except ε β} (h : Ran M κ p s (.ok a) s')
    (h' : Ran M κ (f a) s' r s'') : Ran M κ (p >>= f) s r s'' :=
  Returned.bind (p := p.run) (f := ExceptT.bindCont f) h h'

theorem throws {p : Exc A ε α} {f : α → Exc A ε β} (h : Ran M κ p s (.error e) s') :
    Ran M κ (p >>= f) s (.error e) s' :=
  Returned.bind (p := p.run) (f := ExceptT.bindCont f) h (.ret _ _)

theorem andFinally {p : Exc A ε α} {f : Exc A ε Unit} {r : Except ε α} (h : Ran M κ p s r s')
    (h' : Ran M κ f s' (.ok ()) s'') : Ran M κ (p.andFinally f) s r s'' :=
  Returned.bind (p := p.run) h (Returned.bind (p := f.run) h' (.ret _ _))

theorem op {o : A.Op} {r : A.Ans o} (ho : M.perform κ o s r s') :
    Ran M κ (Exc.op o : Exc A ε _) s (.ok r) s' := .call r ho (.ret _ _)

theorem tryOp {o : A.Op} {he : A.Ans o = Except ε α} {r : A.Ans o} (ho : M.perform κ o s r s') :
    Ran M κ (Exc.tryOp o he : Exc A ε α) s (he ▸ r) s' := .call r ho (.ret _ _)

theorem reach {p : Exc A ε α} {f : α → Exc A ε β} {o : A.Op} (h : Ran M κ p s (.ok a) s')
    (h' : Reach M κ (f a).run s' o s'') : Reach M κ (p >>= f).run s o s'' :=
  Returned.reach (p := p.run) (f := ExceptT.bindCont f) h h'

theorem reach_bind {p : Exc A ε α} {f : α → Exc A ε β} {o : A.Op} (h : Reach M κ p.run s o s') :
    Reach M κ (p >>= f).run s o s' :=
  Reach.bind (p := p.run) (f := ExceptT.bindCont f) h

theorem solo {p : Exc A ε α} {r : Except ε α} (h : Ran M κ p s r s') :
    Solo M κ p.detach s (.ret ()) s' :=
  (Returned.bind (p := p.run) h (.ret () s')).solo

end Ran

end Async
