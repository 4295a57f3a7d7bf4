import WmAutopilot.Async.Prog

/-!
# Pools of programs over one shared state, and their invariants

`System A S`: how an operation performed by thread `κ` changes the shared state (a relation: the
answer of a remote party and the time are not determined), which programs may be started, and what
of the state a crash leaves.

`Step`: a thread is started, performs one operation, is killed at any point, or everything crashes.
While one thread is inside an uninterrupted section (`running`), only it may perform operations.

A `Discipline` of a system is an invariant `Inv` of the shared state and a permission `may κ o s`
for each operation; it is kept (`Keeps`) if a permitted operation preserves `Inv` and every program
that may be started asks for permitted operations only.  What a program asks for is computed by
`wp`, which lets the other threads perform any permitted operations (`Meanwhile`) whenever the
program yields.

* `wp_bind`             `wp` of a sequence;
* `wp_call_stable`      one operation, from an assertion that the other threads keep;
* `wp_frame`            what every permitted operation keeps;
* `Keeps.reachable`     **in every reachable configuration of a kept discipline `Inv` holds**;
* `ConfOk.run`          a run from there does what its operations do.
-/

set_option autoImplicit false

namespace Async

/-- shared state, operations on it, the programs that may be started and the effect of a crash. -/
structure System (A : Api) (S : Type) where
  /-- thread `κ` performs `o`: state before, answer, state after. -/
  perform : ℕ → (o : A.Op) → S → A.Ans o → S → Prop
  /-- in this state thread `κ` may be started with this program. -/
  spawn : S → ℕ → Prog A Unit → Prop
  /-- what a crash of all threads makes of the state. -/
  crash : S → S → Prop

/-- shared state, threads, and the thread that is inside an uninterrupted section. -/
structure Conf (A : Api) (S : Type) where
  state : S
  threads : ℕ → Option (Prog A Unit)
  running : Option ℕ

section Step
variable {A : Api} {S : Type}

/-- the configuration with no thread. -/
def Conf.idle (s : S) : Conf A S := ⟨s, fun _ => none, none⟩

/-- One step of a pool.  See the file header. -/
inductive Step (M : System A S) : Conf A S → Conf A S → Prop where
  | start (c : Conf A S) (κ : ℕ) (p : Prog A Unit) (hidle : c.running = none)
      (hfree : c.threads κ = none) (hp : p.Suspended) (hspawn : M.spawn c.state κ p) :
      Step M c { c with threads := Function.update c.threads κ (some p) }
  | perform (c : Conf A S) (κ : ℕ) (o : A.Op) (k : A.Ans o → Prog A Unit) (r : A.Ans o) (s' : S)
      (hκ : c.threads κ = some (.call o k))
      (hrun : c.running = some κ ∨ c.running = none ∧ A.yields o = true)
      (ho : M.perform κ o c.state r s') :
      Step M c ⟨s', Function.update c.threads κ (some (k r)),
        if (k r).Suspended then none else some κ⟩
  | kill (c : Conf A S) (κ : ℕ) :
      Step M c { c with threads := Function.update c.threads κ none
                        running := if c.running = some κ then none else c.running }
  | crash (c : Conf A S) (s' : S) (hs : M.crash c.state s') : Step M c (.idle s')

/-- finitely many steps. -/
abbrev Steps (M : System A S) : Conf A S → Conf A S → Prop := Relation.ReflTransGen (Step M)

/-- reached from the idle pool on an initial state. -/
def Reachable (M : System A S) (init : S → Prop) (c : Conf A S) : Prop :=
  ∃ s, init s ∧ Steps M (.idle s) c

end Step

/-! ## the weakest precondition of a program among others -/

/-- a system with an invariant of its state and a permission for each operation. -/
structure Discipline (A : Api) (S : Type) extends System A S where
  Inv : S → Prop
  may : ℕ → A.Op → S → Prop

section WP
variable {A : Api} {S : Type} (D : Discipline A S) {α β : Type}

/-- another thread than `κ` performs one permitted operation. -/
def Other (κ : ℕ) (s s' : S) : Prop :=
  ∃ κ' o r, κ' ≠ κ ∧ D.Inv s ∧ D.may κ' o s ∧ D.perform κ' o s r s'

/-- other threads than `κ` perform permitted operations. -/
abbrev Meanwhile (κ : ℕ) : S → S → Prop := Relation.ReflTransGen (Other D κ)

/-- an assertion that the threads other than `κ` keep. -/
def Stable (κ : ℕ) (P : S → Prop) : Prop := ∀ s s', P s → Other D κ s s' → P s'

/-- Every operation that thread `κ` asks for is permitted, and `Q` holds when the program returns.
At an operation that yields, the other threads may come first. -/
def wp (κ : ℕ) : Prog A α → (α → S → Prop) → S → Prop
  | .ret a, Q, s => Q a s
  | .call o k, Q, s => ∀ s₁, (if A.yields o then Meanwhile D κ s s₁ else s₁ = s) → D.Inv s₁ →
      D.may κ o s₁ ∧ ∀ r s₂, D.perform κ o s₁ r s₂ → D.Inv s₂ → wp κ (k r) Q s₂

variable {D} {κ : ℕ}

theorem Stable.meanwhile {P : S → Prop} (h : Stable D κ P) {s s' : S} (hs : P s)
    (hm : Meanwhile D κ s s') : P s' := by
  induction hm with
  | refl => exact hs
  | tail _ ho ih => exact h _ _ ih ho

theorem Stable.and {P P' : S → Prop} (h : Stable D κ P) (h' : Stable D κ P') :
    Stable D κ fun s => P s ∧ P' s :=
  fun s s' hs ho => ⟨h s s' hs.1 ho, h' s s' hs.2 ho⟩

theorem Stable.const (p : Prop) : Stable D κ fun _ => p := fun _ _ hs _ => hs

theorem wp_mono {p : Prog A α} {Q Q' : α → S → Prop} (hQ : ∀ a s, Q a s → Q' a s) :
    ∀ {s : S}, wp D κ p Q s → wp D κ p Q' s := by
  induction p with
  | ret a => exact fun h => hQ a _ h
  | call o k ih =>
    intro s h s₁ hm hi
    obtain ⟨hmay, hk⟩ := h s₁ hm hi
    exact ⟨hmay, fun r s₂ ho hi₂ => ih r (hk r s₂ ho hi₂)⟩

/-- **`wp` of a sequence.** -/
theorem wp_bind (p : Prog A α) (f : α → Prog A β) (Q : β → S → Prop) (s : S) :
    wp D κ (p >>= f) Q s ↔ wp D κ p (fun a => wp D κ (f a) Q) s := by
  induction p generalizing s with
  | ret a => exact Iff.rfl
  | call o k ih =>
    simp only [Prog.call_bind, wp]
    exact forall_congr' fun s₁ => imp_congr_right fun _ => imp_congr_right fun _ =>
      and_congr_right fun _ => forall_congr' fun r => forall_congr' fun s₂ =>
        imp_congr_right fun _ => imp_congr_right fun _ => ih r s₂

/-- **One operation, from an assertion that the other threads keep** if they come first. -/
theorem wp_call_stable {P : S → Prop} {o : A.Op} (hP : A.yields o = true → Stable D κ P)
    {k : A.Ans o → Prog A α} {Q : α → S → Prop} {s : S} (hs : P s)
    (hmay : ∀ s, D.Inv s → P s → D.may κ o s)
    (hk : ∀ s r s', D.Inv s → P s → D.perform κ o s r s' → D.Inv s' → wp D κ (k r) Q s') :
    wp D κ (.call o k) Q s := by
  intro s₁ hm hi
  have h₁ : P s₁ := by
    split at hm
    · exact (hP ‹_›).meanwhile hs hm
    · exact hm ▸ hs
  exact ⟨hmay s₁ hi h₁, fun r s₂ ho hi₂ => hk s₁ r s₂ hi h₁ ho hi₂⟩

/-- what the other threads do before a suspended program goes on does not matter to it. -/
theorem wp_of_other {p : Prog A α} {Q : α → S → Prop} (hQ : ∀ a s s', Q a s → Q a s')
    (hp : p.Suspended) {s s' : S} (ho : Other D κ s s') (h : wp D κ p Q s) : wp D κ p Q s' := by
  cases p with
  | ret a => exact hQ a s s' h
  | call o k =>
    have hy : A.yields o = true := hp
    intro s₁ hm hi
    rw [if_pos hy] at hm
    exact h s₁ (by rw [if_pos hy]; exact Relation.ReflTransGen.head ho hm) hi

/-- **What every permitted operation keeps, a program keeps.** -/
theorem wp_frame {P : S → Prop}
    (hP : ∀ κ o s r s', D.Inv s → D.may κ o s → D.perform κ o s r s' → P s → P s')
    {p : Prog A α} {Q : α → S → Prop} :
    ∀ {s : S}, P s → wp D κ p Q s → wp D κ p (fun a s => Q a s ∧ P s) s := by
  have hother : Stable D κ P := by
    rintro s s' hs ⟨κ', o, r, -, hi, hmay, ho⟩
    exact hP κ' o s r s' hi hmay ho hs
  induction p with
  | ret a => exact fun hs h => ⟨h, hs⟩
  | call o k ih =>
    intro s hs h s₁ hm hi
    have hs₁ : P s₁ := by
      split at hm
      · exact hother.meanwhile hs hm
      · exact hm ▸ hs
    obtain ⟨hmay, hk⟩ := h s₁ hm hi
    exact ⟨hmay, fun r s₂ ho hi₂ => ih r (hP κ o s₁ r s₂ hi hmay ho hs₁) (hk r s₂ ho hi₂)⟩

end WP

/-! ## kept disciplines -/

section Keeps
variable {A : Api} {S : Type}

/-- **A kept discipline.**  See the file header. -/
structure Discipline.Keeps (D : Discipline A S) : Prop where
  perform : ∀ {κ o s r s'}, D.Inv s → D.may κ o s → D.perform κ o s r s' → D.Inv s'
  crash : ∀ {s s'}, D.Inv s → D.crash s s' → D.Inv s'
  spawn : ∀ {κ p s}, D.Inv s → D.spawn s κ p → wp D κ p (fun _ _ => True) s

/-- what holds of every reachable configuration of a kept discipline. -/
structure ConfOk (D : Discipline A S) (c : Conf A S) : Prop where
  inv : D.Inv c.state
  threads : ∀ κ p, c.threads κ = some p → wp D κ p (fun _ _ => True) c.state
  running : ∀ κ p, c.threads κ = some p → p.Suspended ∨ c.running = some κ

variable {D : Discipline A S}

theorem ConfOk.idle {s : S} (h : D.Inv s) : ConfOk D (.idle s) where
  inv := h
  threads _ _ h := by cases h
  running _ _ h := by cases h

/-- the operation that a thread is about to perform is permitted. -/
theorem ConfOk.permitted {c : Conf A S} (h : ConfOk D c) {κ : ℕ} {o : A.Op}
    {k : A.Ans o → Prog A Unit} (hκ : c.threads κ = some (.call o k)) : D.may κ o c.state := by
  refine (h.threads κ _ hκ c.state ?_ h.inv).1
  split
  · exact Relation.ReflTransGen.refl
  · rfl

/-- **One step keeps a kept discipline.** -/
theorem ConfOk.step (K : D.Keeps) {c c' : Conf A S} (h : ConfOk D c)
    (hs : Step D.toSystem c c') : ConfOk D c' := by
  cases hs with
  | start κ p hidle hfree hp hspawn =>
    refine ⟨h.inv, fun κ' p' hp' => ?_, fun κ' p' hp' => ?_⟩ <;>
      by_cases e : κ' = κ
    · subst e
      obtain rfl : p = p' := by simpa using hp'
      exact K.spawn h.inv hspawn
    · exact h.threads κ' p' (by simpa [Function.update_of_ne e] using hp')
    · subst e
      obtain rfl : p = p' := by simpa using hp'
      exact Or.inl hp
    · exact h.running κ' p' (by simpa [Function.update_of_ne e] using hp')
  | perform κ o k r s' hκ hrun ho =>
    have hmay := h.permitted hκ
    have hinv : D.Inv s' := K.perform h.inv hmay ho
    -- the other threads are outside their sections: one of them inside would be `running`
    have hother : ∀ κ' p', κ' ≠ κ → c.threads κ' = some p' → p'.Suspended := by
      intro κ' p' e hc
      rcases h.running κ' p' hc with hs | hs
      · exact hs
      · rcases hrun with hr | ⟨hr, -⟩ <;> rw [hs] at hr <;> simp_all
    refine ⟨hinv, fun κ' p' hp' => ?_, fun κ' p' hp' => ?_⟩ <;>
      by_cases e : κ' = κ
    · subst e
      obtain rfl : k r = p' := by simpa using hp'
      refine (h.threads κ' _ hκ c.state ?_ h.inv).2 r s' ho hinv
      split
      · exact Relation.ReflTransGen.refl
      · rfl
    · have hc : c.threads κ' = some p' := by simpa [Function.update_of_ne e] using hp'
      exact wp_of_other (fun _ _ _ h => h) (hother κ' p' e hc)
        ⟨κ, o, r, Ne.symm e, h.inv, hmay, ho⟩ (h.threads κ' p' hc)
    · subst e
      obtain rfl : k r = p' := by simpa using hp'
      by_cases hk : (k r).Suspended
      · exact Or.inl hk
      · exact Or.inr (if_neg hk)
    · exact Or.inl (hother κ' p' e (by simpa [Function.update_of_ne e] using hp'))
  | kill κ =>
    refine ⟨h.inv, fun κ' p' hp' => ?_, fun κ' p' hp' => ?_⟩ <;>
      by_cases e : κ' = κ
    · subst e; simp at hp'
    · exact h.threads κ' p' (by simpa [Function.update_of_ne e] using hp')
    · subst e; simp at hp'
    · have hc : c.threads κ' = some p' := by simpa [Function.update_of_ne e] using hp'
      rcases h.running κ' p' hc with hs | hs
      · exact Or.inl hs
      · refine Or.inr ?_
        show (if c.running = some κ then none else c.running) = some κ'
        rw [hs, if_neg (by simpa using e)]
  | crash s' hs => exact ConfOk.idle (K.crash h.inv hs)

theorem ConfOk.steps (K : D.Keeps) {c c' : Conf A S} (h : ConfOk D c)
    (hs : Steps D.toSystem c c') : ConfOk D c' := by
  induction hs with
  | refl => exact h
  | tail _ hstep ih => exact ih.step K hstep

/-- **In every reachable configuration of a kept discipline the invariant holds**, and every thread
asks for permitted operations only. -/
theorem Discipline.Keeps.reachable (K : D.Keeps) {init : S → Prop} (h0 : ∀ s, init s → D.Inv s)
    {c : Conf A S} (h : Reachable D.toSystem init c) : ConfOk D c := by
  obtain ⟨s, hs, hsteps⟩ := h
  exact (ConfOk.idle (h0 s hs)).steps K hsteps

/-- **What every permitted operation and a crash do, a run does.** -/
theorem ConfOk.run (K : D.Keeps) {R : S → S → Prop} (hrefl : ∀ s, R s s)
    (htrans : ∀ s s' s'', R s s' → R s' s'' → R s s'')
    (hperform : ∀ κ o s r s', D.Inv s → D.may κ o s → D.perform κ o s r s' → R s s')
    (hcrash : ∀ s s', D.Inv s → D.crash s s' → R s s') {c c' : Conf A S} (h : ConfOk D c)
    (hs : Steps D.toSystem c c') : R c.state c'.state := by
  induction hs with
  | refl => exact hrefl _
  | tail hs hstep ih =>
    refine htrans _ _ _ ih ?_
    have hc := h.steps K hs
    cases hstep with
    | start κ p hidle hfree hp hspawn => exact hrefl _
    | perform κ o k r s' hκ hrun ho => exact hperform κ o _ r s' hc.inv (hc.permitted hκ) ho
    | kill κ => exact hrefl _
    | crash s' hs => exact hcrash _ s' hc.inv hs

end Keeps

end Async
