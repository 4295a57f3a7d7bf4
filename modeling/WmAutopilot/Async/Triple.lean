import WmAutopilot.Async.Pool

/-!
# Triples for programs that may throw

`Triple D κ P p Q E`: from a state of the invariant in which `P` holds, thread `κ` running `p` among
the others asks for permitted operations only; `Q` holds when it returns and `E` when it throws.

One rule for each construct of the `do` notation with exceptions (`pure`, `throw`, `bind`, `ite`,
`tryCatch`, `andFinally`), the rules of consequence and of a frame, and the rules of an operation
(`op`, `tryOp`), whose precondition has to be `Stable` unless it does not yield (`opNow`,
`tryOpNow`).
-/

set_option autoImplicit false

namespace Async
variable {A : Api} {S : Type} {D : Discipline A S} {κ : ℕ} {α β ε : Type}

/-- A triple.  See the file header. -/
def Triple (D : Discipline A S) (κ : ℕ) (P : S → Prop) (p : Exc A ε α) (Q : α → S → Prop)
    (E : ε → S → Prop) : Prop :=
  ∀ s, D.Inv s → P s → wp D κ p.run (fun r s => D.Inv s ∧ match r with
    | .ok a => Q a s
    | .error e => E e s) s

/-- the assertion that says nothing. -/
abbrev Any (_ : S) : Prop := True

/-- the postcondition that says nothing. -/
abbrev Any₂ (_ : α) (_ : S) : Prop := True

namespace Triple
variable {P P' : S → Prop} {Q Q' : α → S → Prop} {E E' : ε → S → Prop}

theorem pre {p : Exc A ε α} (h : Triple D κ P p Q E) (hP : ∀ s, D.Inv s → P' s → P s) :
    Triple D κ P' p Q E := fun s hi hs => h s hi (hP s hi hs)

theorem post {p : Exc A ε α} (h : Triple D κ P p Q E) (hQ : ∀ a s, D.Inv s → Q a s → Q' a s)
    (hE : ∀ e s, D.Inv s → E e s → E' e s) : Triple D κ P p Q' E' := by
  refine fun s hi hs => wp_mono (fun r s h => ?_) (h s hi hs)
  cases r with
  | ok a => exact ⟨h.1, hQ a s h.1 h.2⟩
  | error e => exact ⟨h.1, hE e s h.1 h.2⟩

/-- a fact of the precondition that does not speak of the state. -/
theorem assume {p : Prop} {prog : Exc A ε α} (h : p → Triple D κ P prog Q E) :
    Triple D κ (fun s => P s ∧ p) prog Q E := fun s hi hs => h hs.2 s hi hs.1

/-- a precondition that names something. -/
theorem ofExists {ι : Type} {P : ι → S → Prop} {p : Exc A ε α}
    (h : ∀ i, Triple D κ (P i) p Q E) : Triple D κ (fun s => ∃ i, P i s) p Q E :=
  fun s hi ⟨i, hs⟩ => h i s hi hs

/-- a program of which nothing is asked afterwards. -/
theorem any {p : Exc A ε α} (h : Triple D κ P p Q E) : Triple D κ P p Any₂ Any₂ :=
  h.post (fun _ _ _ _ => trivial) (fun _ _ _ _ => trivial)

/-- **What every permitted operation keeps**, a program keeps. -/
theorem frame {R : S → Prop} {p : Exc A ε α} (h : Triple D κ P p Q E)
    (hR : ∀ κ o s r s', D.Inv s → D.may κ o s → D.perform κ o s r s' → R s → R s') :
    Triple D κ (fun s => P s ∧ R s) p (fun a s => Q a s ∧ R s) (fun e s => E e s ∧ R s) := by
  refine fun s hi hs => wp_mono (fun r s h => ?_) (wp_frame hR hs.2 (h s hi hs.1))
  cases r with
  | ok a => exact ⟨h.1.1, h.1.2, h.2⟩
  | error e => exact ⟨h.1.1, h.1.2, h.2⟩

theorem pure {a : α} (h : ∀ s, D.Inv s → P s → Q a s) :
    Triple D κ P (pure a : Exc A ε α) Q E := fun s hi hs => ⟨hi, h s hi hs⟩

theorem throw {e : ε} (h : ∀ s, D.Inv s → P s → E e s) :
    Triple D κ P (throw e : Exc A ε α) Q E := fun s hi hs => ⟨hi, h s hi hs⟩

/-- **A sequence.** -/
theorem bind {p : Exc A ε α} {f : α → Exc A ε β} {R : α → S → Prop} {Q : β → S → Prop}
    (hp : Triple D κ P p R E) (hf : ∀ a, Triple D κ (R a) (f a) Q E) :
    Triple D κ P (p >>= f) Q E := by
  intro s hi hs
  show wp D κ (p.run >>= ExceptT.bindCont f) _ s
  rw [wp_bind]
  refine wp_mono (fun r s h => ?_) (hp s hi hs)
  cases r with
  | ok a => exact hf a s h.1 h.2
  | error e => exact h

theorem throw_bind {e : ε} {f : α → Exc A ε β} {Q : β → S → Prop}
    (h : ∀ s, D.Inv s → P s → E e s) : Triple D κ P (MonadExcept.throw e >>= f) Q E :=
  fun s hi hs => ⟨hi, h s hi hs⟩

theorem ite {c : Prop} [Decidable c] {p q : Exc A ε α} (hp : c → Triple D κ P p Q E)
    (hq : ¬c → Triple D κ P q Q E) : Triple D κ P (if c then p else q) Q E := by
  split
  · exact hp ‹c›
  · exact hq ‹¬c›

/-- **`try p catch e => f e`.** -/
theorem tryCatch {p : Exc A ε α} {f : ε → Exc A ε α} {R : ε → S → Prop}
    (hp : Triple D κ P p Q R) (hf : ∀ e, Triple D κ (R e) (f e) Q E) :
    Triple D κ P (tryCatch p f) Q E := by
  intro s hi hs
  show wp D κ (p.run >>= _) _ s
  rw [wp_bind]
  refine wp_mono (fun r s h => ?_) (hp s hi hs)
  cases r with
  | ok a => exact h
  | error e => exact hf e s h.1 h.2

/-- **`try p`**, with the errors of `p` as values. -/
theorem attempt {ε' : Type} {p : Exc A ε α} {Q : Except ε α → S → Prop} {E' : ε' → S → Prop}
    (hp : Triple D κ P p (fun a => Q (.ok a)) (fun e => Q (.error e))) :
    Triple D κ P (p.attempt : Exc A ε' _) Q E' := by
  intro s hi hs
  show wp D κ (p.run >>= fun r => Prog.ret (Except.ok r)) _ s
  rw [wp_bind]
  refine wp_mono (fun r s h => ?_) (hp s hi hs)
  cases r <;> exact h

/-- **`try p finally f`.** -/
theorem andFinally {p : Exc A ε α} {f : Exc A ε Unit} {R : α → S → Prop} {F : ε → S → Prop}
    (hp : Triple D κ P p R F) (hQ : ∀ a, Triple D κ (R a) f (fun _ => Q a) E)
    (hE : ∀ e, Triple D κ (F e) f (fun _ => E e) E) : Triple D κ P (p.andFinally f) Q E := by
  intro s hi hs
  show wp D κ (p.run >>= fun r => f.run >>= _) _ s
  rw [wp_bind]
  refine wp_mono (fun r s h => ?_) (hp s hi hs)
  rw [wp_bind]
  cases r with
  | ok a =>
    refine wp_mono (fun r s h => ?_) (hQ a s h.1 h.2)
    cases r <;> exact h
  | error e =>
    refine wp_mono (fun r s h => ?_) (hE e s h.1 h.2)
    cases r <;> exact h

/-- **One operation.** -/
theorem op {o : A.Op} {Q : A.Ans o → S → Prop} (hP : Stable D κ P)
    (hmay : ∀ s, D.Inv s → P s → D.may κ o s)
    (hQ : ∀ s r s', D.Inv s → P s → D.perform κ o s r s' → D.Inv s' → Q r s') :
    Triple D κ P (Exc.op o : Exc A ε _) Q E := by
  intro s _ hs
  show wp D κ (.call o fun r => .ret (Except.ok r)) _ s
  exact wp_call_stable (fun _ => hP) hs hmay fun s r s' hi h ho hi' =>
    ⟨hi', hQ s r s' hi h ho hi'⟩

/-- **One operation in the section of the operation before it.** -/
theorem opNow {o : A.Op} {Q : A.Ans o → S → Prop} (hy : A.yields o = false)
    (hmay : ∀ s, D.Inv s → P s → D.may κ o s)
    (hQ : ∀ s r s', D.Inv s → P s → D.perform κ o s r s' → D.Inv s' → Q r s') :
    Triple D κ P (Exc.op o : Exc A ε _) Q E := by
  intro s _ hs
  show wp D κ (.call o fun r => .ret (Except.ok r)) _ s
  exact wp_call_stable (fun h => by rw [hy] at h; cases h) hs hmay fun s r s' hi h ho hi' =>
    ⟨hi', hQ s r s' hi h ho hi'⟩

theorem tryOp_of_yields {o : A.Op} {he : A.Ans o = Except ε α}
    (hP : A.yields o = true → Stable D κ P)
    (hmay : ∀ s, D.Inv s → P s → D.may κ o s)
    (hQ : ∀ s r s' a, D.Inv s → P s → D.perform κ o s r s' → D.Inv s' → he ▸ r = Except.ok a →
      Q a s')
    (hE : ∀ s r s' e, D.Inv s → P s → D.perform κ o s r s' → D.Inv s' → he ▸ r = Except.error e →
      E e s') : Triple D κ P (Exc.tryOp o he : Exc A ε α) Q E := by
  intro s _ hs
  show wp D κ (.call o fun r => .ret (he ▸ r)) _ s
  refine wp_call_stable hP hs hmay fun s r s' hi h ho hi' => ⟨hi', ?_⟩
  cases hr : (he ▸ r : Except ε α) with
  | ok a => exact hQ s r s' a hi h ho hi' hr
  | error e => exact hE s r s' e hi h ho hi' hr

/-- **One operation that may throw.** -/
theorem tryOp {o : A.Op} {he : A.Ans o = Except ε α} (hP : Stable D κ P)
    (hmay : ∀ s, D.Inv s → P s → D.may κ o s)
    (hQ : ∀ s r s' a, D.Inv s → P s → D.perform κ o s r s' → D.Inv s' → he ▸ r = Except.ok a →
      Q a s')
    (hE : ∀ s r s' e, D.Inv s → P s → D.perform κ o s r s' → D.Inv s' → he ▸ r = Except.error e →
      E e s') : Triple D κ P (Exc.tryOp o he : Exc A ε α) Q E :=
  tryOp_of_yields (fun _ => hP) hmay hQ hE

/-- **One operation that may throw, in the section of the operation before it.** -/
theorem tryOpNow {o : A.Op} {he : A.Ans o = Except ε α} (hy : A.yields o = false)
    (hmay : ∀ s, D.Inv s → P s → D.may κ o s)
    (hQ : ∀ s r s' a, D.Inv s → P s → D.perform κ o s r s' → D.Inv s' → he ▸ r = Except.ok a →
      Q a s')
    (hE : ∀ s r s' e, D.Inv s → P s → D.perform κ o s r s' → D.Inv s' → he ▸ r = Except.error e →
      E e s') : Triple D κ P (Exc.tryOp o he : Exc A ε α) Q E :=
  tryOp_of_yields (fun h => by rw [hy] at h; cases h) hmay hQ hE

/-- a program that the event loop runs. -/
theorem detachFrom {p : Exc A ε α} (h : Triple D κ P p Q E) {s : S} (hi : D.Inv s) (hs : P s) :
    wp D κ p.detach (fun _ _ => True) s := by
  rw [Exc.detach, wp_bind]
  exact wp_mono (fun _ _ _ => trivial) (h s hi hs)

theorem detach {p : Exc A ε α} (h : Triple D κ Any p Q E) {s : S} (hi : D.Inv s) :
    wp D κ p.detach (fun _ _ => True) s := h.detachFrom hi trivial

end Triple

end Async
