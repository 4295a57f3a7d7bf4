import WmAutopilot.Js.Value

/-!
# Functions that may throw

* `Thrown`     an `Error` with its `code`, when it has one;
* `throwIf c e`  `if (c) throw e`;
* `bind_ok`, `throwIf_ok`   when a sequence returns: every step of it returned, and no guard threw;
* `mem_of_mapM_ok`, `ok_of_mapM_ok`, `ok_of_forM_ok`, `foldlM_keeps`   the same for lists of calls;
* `Throws P x`  every error that `x` throws is one of `P`.
-/

set_option autoImplicit false

namespace Js

/-- a thrown `Error`. -/
structure Thrown where
  code : Option String := none
  message : String
  deriving DecidableEq, Repr

/-- `typeof error.code === "string" ? error.code : code` -/
def Thrown.codeOr (e : Thrown) (code : String) : String := e.code.getD code

section
variable {α β ε : Type}

/-- `if (c) throw e` -/
def throwIf (c : Prop) [Decidable c] (e : ε) : Except ε Unit := if c then .error e else .ok ()

/-- `x ?? throw e` -/
def orThrow (e : ε) : Option α → Except ε α
  | some a => .ok a
  | none => .error e

theorem bind_ok {x : Except ε α} {f : α → Except ε β} {b : β} :
    (x >>= f) = .ok b ↔ ∃ a, x = .ok a ∧ f a = .ok b := by
  cases x with
  | ok a => exact ⟨fun h => ⟨a, rfl, h⟩, fun ⟨_, h, h'⟩ => Except.ok.inj h ▸ h'⟩
  | error e => exact ⟨nofun, fun ⟨_, h, _⟩ => nomatch h⟩

theorem throwIf_ok {c : Prop} [Decidable c] {e : ε} {u : Unit} : throwIf c e = .ok u ↔ ¬c := by
  unfold throwIf
  split <;> simp [*]

theorem orThrow_ok {e : ε} {x : Option α} {a : α} : orThrow e x = .ok a ↔ x = some a := by
  cases x <;> simp [orThrow]

/-- every error that a call throws is one of `P`. -/
def Throws (P : ε → Prop) (x : Except ε α) : Prop := ∀ e, x = .error e → P e

section
variable {P : ε → Prop}

theorem Throws.throwIf {c : Prop} [Decidable c] {e : ε} (h : P e) : Throws P (throwIf c e) := by
  intro e' he'
  unfold Js.throwIf at he'
  split at he'
  · exact Except.error.inj he' ▸ h
  · cases he'

theorem Throws.orThrow {e : ε} {x : Option α} (h : P e) : Throws P (orThrow e x) := by
  intro e' he'
  cases x with
  | some a => cases he'
  | none => exact Except.error.inj he' ▸ h

theorem Throws.bind {x : Except ε α} {f : α → Except ε β} (hx : Throws P x)
    (hf : ∀ a, Throws P (f a)) : Throws P (x >>= f) := by
  intro e he
  cases x with
  | ok a => exact hf a e he
  | error e' =>
    cases he
    exact hx e rfl

end

theorem of_guard {c : Prop} [Decidable c] {u : Unit} (h : (guard c : Option Unit) = some u) : c := by
  unfold guard at h
  split at h
  · assumption
  · cases h

/-- every result of a list of calls is the result of one of them. -/
theorem mem_of_mapM_ok {f : α → Except ε β} {as : List α} {bs : List β}
    (h : as.mapM f = .ok bs) : ∀ b ∈ bs, ∃ a ∈ as, f a = .ok b := by
  induction as generalizing bs with
  | nil =>
    cases h
    simp
  | cons a as ih =>
    rw [List.mapM_cons] at h
    obtain ⟨b', hb', h⟩ := bind_ok.mp h
    obtain ⟨bs', hbs', h⟩ := bind_ok.mp h
    cases h
    intro b hb
    rcases List.mem_cons.mp hb with rfl | hb
    · exact ⟨a, List.mem_cons_self, hb'⟩
    · obtain ⟨a', ha', h⟩ := ih hbs' b hb
      exact ⟨a', List.mem_cons_of_mem _ ha', h⟩

/-- every call of a list has a result. -/
theorem ok_of_mapM_ok {f : α → Except ε β} {as : List α} {bs : List β}
    (h : as.mapM f = .ok bs) : ∀ a ∈ as, ∃ b ∈ bs, f a = .ok b := by
  induction as generalizing bs with
  | nil =>
    intro a ha
    exact absurd ha List.not_mem_nil
  | cons a as ih =>
    rw [List.mapM_cons] at h
    obtain ⟨b, hb, h⟩ := bind_ok.mp h
    obtain ⟨bs', hbs', h⟩ := bind_ok.mp h
    cases h
    intro a' ha'
    rcases List.mem_cons.mp ha' with rfl | ha'
    · exact ⟨b, List.mem_cons_self, hb⟩
    · obtain ⟨b', hb', h⟩ := ih hbs' a' ha'
      exact ⟨b', List.mem_cons_of_mem _ hb', h⟩

/-- no call of a list throws. -/
theorem ok_of_forM_ok {f : α → Except ε Unit} {as : List α} {u : Unit} (h : forM as f = .ok u) :
    ∀ a ∈ as, f a = .ok () := by
  induction as with
  | nil =>
    intro a ha
    exact absurd ha List.not_mem_nil
  | cons a as ih =>
    rw [List.forM_cons] at h
    obtain ⟨_, ha, h⟩ := bind_ok.mp h
    intro a' ha'
    rcases List.mem_cons.mp ha' with rfl | ha'
    · exact ha
    · exact ih h a' ha'

/-- **What every call of a list keeps holds after all of them.** -/
theorem foldlM_keeps {P : β → Prop} {f : β → α → Except ε β} {as : List α} {b b' : β}
    (hstep : ∀ a ∈ as, ∀ b b', P b → f b a = .ok b' → P b') (hb : P b)
    (h : as.foldlM f b = .ok b') : P b' := by
  induction as generalizing b with
  | nil =>
    cases h
    exact hb
  | cons a as ih =>
    rw [List.foldlM_cons] at h
    obtain ⟨b₁, hb₁, h⟩ := bind_ok.mp h
    exact ih (fun a ha => hstep a (List.mem_cons_of_mem _ ha))
      (hstep a List.mem_cons_self b b₁ hb hb₁) h

end

end Js
