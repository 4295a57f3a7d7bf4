import Mathlib.Logic.Function.Basic
import Mathlib.Order.Lattice
import Mathlib.Data.List.Basic

/-!
# Merging versioned elements

A table holds one element for each key.  A new element replaces the one of its key unless it is
older; of two elements of one version a dead one wins, and two live ones must have the same content.

* `Scheme`        what is compared: key, version, death, content;
* `absorb`, `put` one element merged, into the element of its key and into a table;
* `Wins l x`      `x` is the newest element of `l`, and a dead one if there is one of its version;
* `Holds l t`     `t` holds the winners of `l`, key by key;
* `foldlM_put`    **a table that absorbs `l` holds its winners**;
* `Holds.agree`   two tables that absorb the same elements in any order hold winners of the same
                  elements; by `Wins.agree` these agree on version, death and live content.
-/

set_option autoImplicit false
set_option linter.unusedVariables false
set_option linter.unusedSectionVars false

namespace Merge
universe u
variable {χ κ ν γ : Type u} {ε : Type u}

/-- what is compared of two elements. -/
structure Scheme (χ κ ν γ : Type u) where
  key : χ → κ
  version : χ → ν
  dead : χ → Prop
  content : χ → γ

section
variable [LinearOrder ν] [DecidableEq γ] [DecidableEq κ] (S : Scheme χ κ ν γ)
  [DecidablePred S.dead]

/-- the element that is kept of an old and a new one. -/
def absorb (conflict : ε) (old : Option χ) (new : χ) : Except ε χ :=
  match old with
  | none => .ok new
  | some old =>
    if S.version new < S.version old then .ok old
    else if S.version new = S.version old ∧ S.dead old then .ok old
    else if S.version new = S.version old ∧ ¬S.dead new ∧ S.content old ≠ S.content new then
      .error conflict
    else .ok new

/-- an element merged into a table. -/
def put (conflict : ε) (t : κ → Option χ) (x : χ) : Except ε (κ → Option χ) :=
  (absorb S conflict (t (S.key x)) x).map fun y => Function.update t (S.key x) (some y)

end

/-- `x` is a newest element of `l`; if there is a dead one of its version it is dead, else all live
ones of its version have its content. -/
structure Wins [LinearOrder ν] (S : Scheme χ κ ν γ) (l : List χ) (x : χ) : Prop where
  mem : x ∈ l
  newest : ∀ y ∈ l, S.version y ≤ S.version x
  dead : ∀ y ∈ l, S.version y = S.version x → S.dead y → S.dead x
  content : ∀ y ∈ l, S.version y = S.version x → ¬S.dead x → S.content y = S.content x

/-- `t` holds the winners of `l`, key by key. -/
def Holds [LinearOrder ν] [DecidableEq κ] (S : Scheme χ κ ν γ) (l : List χ) (t : κ → Option χ) :
    Prop :=
  ∀ k, match t k with
    | none => ∀ x ∈ l, S.key x ≠ k
    | some x => Wins S (l.filter fun y => S.key y = k) x

section
variable [LinearOrder ν] {S : Scheme χ κ ν γ} {l m : List χ} {x y : χ}

theorem Wins.singleton : Wins S [x] x where
  mem := List.mem_singleton_self x
  newest y hy := le_of_eq (congrArg S.version (List.mem_singleton.mp hy))
  dead y hy _ h := List.mem_singleton.mp hy ▸ h
  content y hy _ _ := congrArg S.content (List.mem_singleton.mp hy)

theorem Wins.congr (h : Wins S l x) (hlm : ∀ y, y ∈ m ↔ y ∈ l) : Wins S m x where
  mem := (hlm x).mpr h.mem
  newest y hy := h.newest y ((hlm y).mp hy)
  dead y hy := h.dead y ((hlm y).mp hy)
  content y hy := h.content y ((hlm y).mp hy)

/-- winners of the same elements agree. -/
theorem Wins.agree (hx : Wins S l x) (hy : Wins S l y) :
    S.version x = S.version y ∧ (S.dead x ↔ S.dead y) ∧ (¬S.dead x → S.content x = S.content y) := by
  have hv : S.version x = S.version y := le_antisymm (hy.newest x hx.mem) (hx.newest y hy.mem)
  refine ⟨hv, ⟨hy.dead x hx.mem hv, hx.dead y hy.mem hv.symm⟩, fun hd => ?_⟩
  exact (hx.content y hy.mem hv.symm hd).symm

end

section
variable [LinearOrder ν] [DecidableEq γ] [DecidableEq κ] {S : Scheme χ κ ν γ}
  [DecidablePred S.dead] {l m : List χ} {x y : χ} {conflict : ε} {t t' : κ → Option χ}

theorem absorb_wins {z : χ} (hx : Wins S l x) (h : absorb S conflict (some x) y = .ok z) :
    Wins S (l ++ [y]) z := by
  have old (hold : S.version y ≤ S.version x) (hdead : S.version y = S.version x → S.dead x) :
      Wins S (l ++ [y]) x := by
    refine ⟨List.mem_append_left _ hx.mem, fun w hw => ?_, fun w hw hv hd => ?_, fun w hw hv hd => ?_⟩
    all_goals rcases List.mem_append.mp hw with hw | hw
    · exact hx.newest w hw
    · rw [List.mem_singleton.mp hw]
      exact hold
    · exact hx.dead w hw hv hd
    · rw [List.mem_singleton.mp hw] at hv
      exact hdead hv
    · exact hx.content w hw hv hd
    · rw [List.mem_singleton.mp hw] at hv
      exact absurd (hdead hv) hd
  have new (hnew : S.version x ≤ S.version y)
      (hlive : S.version y = S.version x →
        ¬S.dead x ∧ (¬S.dead y → S.content x = S.content y)) : Wins S (l ++ [y]) y := by
    refine ⟨List.mem_append_right _ (List.mem_singleton_self y), fun w hw => ?_,
      fun w hw hv hd => ?_, fun w hw hv hd => ?_⟩
    all_goals rcases List.mem_append.mp hw with hw | hw
    · exact (hx.newest w hw).trans hnew
    · rw [List.mem_singleton.mp hw]
    · have hvx : S.version y = S.version x := le_antisymm (hv ▸ hx.newest w hw) hnew
      exact absurd (hx.dead w hw (hv.trans hvx) hd) (hlive hvx).1
    · exact List.mem_singleton.mp hw ▸ hd
    · have hvx : S.version y = S.version x := le_antisymm (hv ▸ hx.newest w hw) hnew
      obtain ⟨hdx, hc⟩ := hlive hvx
      exact (hx.content w hw (hv.trans hvx) hdx).trans (hc hd)
    · rw [List.mem_singleton.mp hw]
  unfold absorb at h
  dsimp only at h
  split at h
  · rename_i hlt
    cases h
    exact old (le_of_lt hlt) fun e => absurd e (ne_of_lt hlt)
  rename_i hge
  split at h
  · rename_i hdead
    cases h
    exact old (le_of_eq hdead.1) fun _ => hdead.2
  rename_i hlive
  split at h
  · cases h
  rename_i hsame
  cases h
  refine new (not_lt.mp hge) fun e => ⟨fun hd => hlive ⟨e, hd⟩, fun hd => ?_⟩
  exact not_not.mp fun hc => hsame ⟨e, hd, hc⟩

/-- a key of its own stays with its elements. -/
theorem put_key {k : κ} (h : put S conflict t x = .ok t') (hk : k ≠ S.key x) : t' k = t k := by
  unfold put at h
  cases e : absorb S conflict (t (S.key x)) x with
  | error => rw [e] at h; cases h
  | ok y =>
    rw [e] at h
    cases h
    exact Function.update_of_ne hk _ _

theorem put_self (h : put S conflict t x = .ok t') :
    ∃ y, absorb S conflict (t (S.key x)) x = .ok y ∧ t' (S.key x) = some y := by
  unfold put at h
  cases e : absorb S conflict (t (S.key x)) x with
  | error => rw [e] at h; cases h
  | ok y =>
    rw [e] at h
    cases h
    exact ⟨y, rfl, Function.update_self _ _ _⟩

theorem put_holds (ht : Holds S l t) (h : put S conflict t x = .ok t') : Holds S (l ++ [x]) t' := by
  intro k
  have hk := ht k
  by_cases e : k = S.key x
  · subst e
    obtain ⟨y, hy, hy'⟩ := put_self h
    rw [hy']
    have hf : (l ++ [x]).filter (fun z => S.key z = S.key x) =
        (l.filter fun z => S.key z = S.key x) ++ [x] := by simp
    show Wins S _ y
    rw [hf]
    cases eo : t (S.key x) with
    | none =>
      rw [eo] at hy hk
      have hnil : (l.filter fun z => S.key z = S.key x) = [] := by
        refine List.filter_eq_nil_iff.mpr fun z hz => ?_
        simpa using hk z hz
      cases hy
      rw [hnil]
      exact Wins.singleton
    | some o =>
      rw [eo] at hy hk
      exact absorb_wins hk hy
  · rw [put_key h e]
    cases eo : t k with
    | none =>
      rw [eo] at hk
      intro z hz
      rcases List.mem_append.mp hz with hz | hz
      · exact hk z hz
      · rw [List.mem_singleton.mp hz]
        exact fun h => e h.symm
    | some o =>
      rw [eo] at hk
      have hf : (l ++ [x]).filter (fun z => S.key z = k) = l.filter fun z => S.key z = k := by
        have hne : S.key x ≠ k := fun h => e h.symm
        simp [hne]
      show Wins S _ o
      rw [hf]
      exact hk

/-- the version of a key never falls. -/
theorem put_mono {k : κ} {o : χ} (h : put S conflict t x = .ok t') (ho : t k = some o) :
    ∃ o', t' k = some o' ∧ S.version o ≤ S.version o' := by
  by_cases e : k = S.key x
  · subst e
    obtain ⟨y, hy, hy'⟩ := put_self h
    refine ⟨y, hy', ?_⟩
    rw [ho] at hy
    unfold absorb at hy
    dsimp only at hy
    split at hy
    · cases hy; exact le_rfl
    rename_i hge
    split at hy
    · cases hy; exact le_rfl
    split at hy
    · cases hy
    · cases hy; exact not_lt.mp hge
  · exact ⟨o, (put_key h e).trans ho, le_rfl⟩

/-- **A table that absorbs `l` holds its winners.** -/
theorem foldlM_put (ht : Holds S l t) (h : m.foldlM (put S conflict) t = .ok t') :
    Holds S (l ++ m) t' := by
  induction m generalizing l t with
  | nil =>
    cases h
    rwa [List.append_nil]
  | cons x m ih =>
    rw [List.foldlM_cons] at h
    cases e : put S conflict t x with
    | error => rw [e] at h; cases h
    | ok t₁ =>
      rw [e] at h
      have := ih (put_holds ht e) h
      rwa [List.append_assoc] at this

/-- the other keys stay. -/
theorem foldlM_put_key {k : κ} (h : m.foldlM (put S conflict) t = .ok t')
    (hk : ∀ x ∈ m, S.key x ≠ k) : t' k = t k := by
  induction m generalizing t with
  | nil =>
    cases h
    rfl
  | cons x m ih =>
    rw [List.foldlM_cons] at h
    cases e : put S conflict t x with
    | error => rw [e] at h; cases h
    | ok t₁ =>
      rw [e] at h
      have hx : t₁ k = t k := put_key e fun heq => hk x List.mem_cons_self heq.symm
      exact (ih h fun y hy => hk y (List.mem_cons_of_mem _ hy)).trans hx

theorem foldlM_put_mono {k : κ} {o : χ} (h : m.foldlM (put S conflict) t = .ok t')
    (ho : t k = some o) : ∃ o', t' k = some o' ∧ S.version o ≤ S.version o' := by
  induction m generalizing t o with
  | nil =>
    cases h
    exact ⟨o, ho, le_rfl⟩
  | cons x m ih =>
    rw [List.foldlM_cons] at h
    cases e : put S conflict t x with
    | error => rw [e] at h; cases h
    | ok t₁ =>
      rw [e] at h
      obtain ⟨o₁, ho₁, hle⟩ := put_mono e ho
      obtain ⟨o', ho', hle'⟩ := ih h ho₁
      exact ⟨o', ho', hle.trans hle'⟩

theorem Holds.empty : Holds S [] fun _ => none := fun k x hx => absurd hx List.not_mem_nil

theorem Holds.wins {k : κ} (h : Holds S l t) (hk : t k = some x) :
    Wins S (l.filter fun y => S.key y = k) x := by
  have := h k
  rwa [hk] at this

/-- **Two tables that hold the winners of the same elements of a key agree there.** -/
theorem Holds.agree {k : κ} (h : Holds S l t) (h' : Holds S m t')
    (hlm : ∀ x, S.key x = k → (x ∈ l ↔ x ∈ m)) :
    t k = none ∧ t' k = none ∨ ∃ x y, t k = some x ∧ t' k = some y ∧
      Wins S (l.filter fun z => S.key z = k) x ∧ Wins S (l.filter fun z => S.key z = k) y := by
  have none_of {l m : List χ} {t t' : κ → Option χ} (h : Holds S l t) (h' : Holds S m t')
      (hlm : ∀ x, S.key x = k → x ∈ m → x ∈ l) (e : t k = none) : t' k = none := by
    cases e' : t' k with
    | none => rfl
    | some y =>
      obtain ⟨hy, hkey⟩ := List.mem_filter.mp (h'.wins e').mem
      have hkey := of_decide_eq_true hkey
      have hk := h k
      rw [e] at hk
      exact absurd hkey (hk y (hlm y hkey hy))
  cases e : t k with
  | none => exact Or.inl ⟨rfl, none_of h h' (fun x hx => (hlm x hx).mpr) e⟩
  | some x =>
    cases e' : t' k with
    | none => exact absurd (none_of h' h (fun x hx => (hlm x hx).mp) e') (by rw [e]; exact nofun)
    | some y =>
      refine Or.inr ⟨x, y, rfl, rfl, h.wins e, (h'.wins e').congr fun z => ?_⟩
      simp only [List.mem_filter, decide_eq_true_eq]
      exact and_congr_left (hlm z)

end

end Merge
