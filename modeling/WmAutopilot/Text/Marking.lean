import Mathlib.Data.List.Infix

/-!
# Stretches of a text replaced by a marker

A text is rewritten by putting one marker in the place of some of its stretches, again and again.
A word that shares nothing with the ends of the marker cannot come into being in this way: it
occurs afterwards only where it occurred before.

* `Apart m s`          `s` and the marker `m` cannot overlap;
* `Apart.split`        such a word occurs in `u ++ m ++ v` only inside `u` or inside `v`;
* `Marks m t o`        `o` is `t` with some stretches replaced by `m`, `Marks.occurs` its rule;
* `Cleared m s t o`    every occurrence of `s`, from the left, was replaced, `Cleared.free`;
* `splitFrom`          the pieces between the occurrences of a word, taken from the left;
* `cleared_splitFrom`  joined by the marker, they are the text with that word cleared.
-/

set_option autoImplicit false

namespace Text

section
variable {α : Type*} {m s t o u v : List α}

/-- `s` and `m` do not contain each other, and no end of one is the beginning of the other. -/
structure Apart (m s : List α) : Prop where
  outside : ¬s <:+: m
  around : ¬m <:+: s
  before : ∀ w, w ≠ [] → w <:+ m → ¬w <+: s
  behind : ∀ w, w ≠ [] → w <+: m → ¬w <:+ s

instance [DecidableEq α] (m s : List α) : Decidable (Apart m s) :=
  decidable_of_iff (¬s <:+: m ∧ ¬m <:+: s ∧ (∀ w ∈ m.tails, w ≠ [] → ¬w <+: s) ∧
      ∀ w ∈ m.inits, w ≠ [] → ¬w <:+ s)
    ⟨fun ⟨h₁, h₂, h₃, h₄⟩ => ⟨h₁, h₂, fun w hne hw => h₃ w ((List.mem_tails w m).mpr hw) hne,
      fun w hne hw => h₄ w ((List.mem_inits w m).mpr hw) hne⟩,
    fun h => ⟨h.outside, h.around, fun w hw hne => h.before w hne ((List.mem_tails w m).mp hw),
      fun w hw hne => h.behind w hne ((List.mem_inits w m).mp hw)⟩⟩

theorem Apart.ne_nil (h : Apart m s) : s ≠ [] := by
  intro hs
  rw [hs] at h
  exact h.outside List.nil_infix

/-- **A word apart from the marker occurs on one side of it.** -/
theorem Apart.split (h : Apart m s) (hs : s <:+: u ++ (m ++ v)) : s <:+: u ∨ s <:+: v := by
  obtain ⟨a, b, hab⟩ := hs
  rw [List.append_assoc] at hab
  rcases List.append_eq_append_iff.mp hab with ⟨c, rfl, hc⟩ | ⟨c, rfl, hc⟩
  · -- the word begins in `u`
    rcases List.append_eq_append_iff.mp hc with ⟨d, rfl, -⟩ | ⟨d, rfl, hd⟩
    · exact .inl ⟨a, d, List.append_assoc ..⟩
    · rcases List.append_eq_append_iff.mp hd with ⟨e, rfl, -⟩ | ⟨e, hm, -⟩
      · exact absurd ⟨c, e, List.append_assoc ..⟩ h.around
      · by_cases hne : d = []
        · rw [hne, List.append_nil]
          exact .inl (List.suffix_append a c).isInfix
        · exact absurd (List.suffix_append c d) (h.behind d hne ⟨e, hm.symm⟩)
  · -- the word begins behind `u`
    rcases List.append_eq_append_iff.mp hc with ⟨d, rfl, hd⟩ | ⟨d, rfl, hd⟩
    · exact .inr ⟨d, b, by rw [hd, List.append_assoc]⟩
    · rcases List.append_eq_append_iff.mp hd with ⟨e, rfl, -⟩ | ⟨e, rfl, hv⟩
      · exact absurd ⟨c, e, List.append_assoc ..⟩ h.outside
      · by_cases hne : d = []
        · rw [hne, List.nil_append]
          exact .inr ⟨[], b, by rw [hv, List.nil_append]⟩
        · exact absurd (List.prefix_append d e) (h.before d hne (List.suffix_append c d))

/-! ## some stretches replaced -/

/-- The text `t` becomes `o` when some stretches of it are replaced by `m`. -/
inductive Marks (m : List α) : List α → List α → Prop
  | nil : Marks m [] []
  | keep (c : α) {t o : List α} : Marks m t o → Marks m (c :: t) (c :: o)
  | mark (y : List α) {t o : List α} : Marks m t o → Marks m (y ++ t) (m ++ o)

theorem Marks.keepAll (k : List α) (h : Marks m t o) : Marks m (k ++ t) (k ++ o) := by
  induction k with
  | nil => exact h
  | cons c k ih => exact ih.keep c

/-- a stretch replaced but for its two ends. -/
theorem Marks.between (x y z : List α) (h : Marks m t o) :
    Marks m (x ++ y ++ z ++ t) (x ++ m ++ z ++ o) := by
  have h' := ((h.keepAll z).mark y).keepAll x
  simpa only [List.append_assoc] using h'

/-- **A word apart from the marker occurs only where it did before.** -/
theorem Marks.occurs (h : Marks m t o) (hs : Apart m s) (ho : s <:+: o) : s <:+: t := by
  -- `k` is what was kept in front of the place the induction has reached
  have key : ∀ k, s <:+: k ++ o → s <:+: k ++ t := by
    clear ho
    induction h with
    | nil => exact fun k hk => hk
    | keep c h ih =>
      intro k hk
      rw [List.append_cons] at hk ⊢
      exact ih (k ++ [c]) hk
    | mark y h ih =>
      intro k hk
      rcases hs.split hk with hk | hk
      · exact hk.trans (List.prefix_append _ _).isInfix
      · have hin := ih [] hk
        exact hin.trans ((List.suffix_append y _).trans (List.suffix_append k _)).isInfix
  exact key [] ho

/-! ## every occurrence replaced -/

/-- The text `t` becomes `o` when `s` is replaced by `m` wherever it stands, from the left. -/
inductive Cleared (m s : List α) : List α → List α → Prop
  | nil : Cleared m s [] []
  | keep (c : α) {t o : List α} (hc : ¬s <+: c :: t) :
      Cleared m s t o → Cleared m s (c :: t) (c :: o)
  | mark {t o : List α} : Cleared m s t o → Cleared m s (s ++ t) (m ++ o)

theorem Cleared.marks (h : Cleared m s t o) : Marks m t o := by
  induction h with
  | nil => exact .nil
  | keep c _ _ ih => exact ih.keep c
  | mark _ ih => exact ih.mark s

/-- **A word that was cleared is gone.** -/
theorem Cleared.free (h : Cleared m s t o) (hs : Apart m s) : ¬s <:+: o := by
  -- no occurrence begins in what was kept in front of the place reached
  have key : ∀ k, (∀ k', k' ≠ [] → k' <:+ k → ¬s <+: k' ++ t) → ¬s <:+: k ++ o := by
    have inside : ∀ k t, (∀ k', k' ≠ [] → k' <:+ k → ¬s <+: k' ++ t) → ¬s <:+: k := by
      rintro k t hk ⟨a, b, rfl⟩
      refine hk (s ++ b) ?_ ⟨a, (List.append_assoc ..).symm⟩
        ((List.prefix_append s b).trans (List.prefix_append _ t))
      intro hnil
      exact hs.ne_nil (List.append_eq_nil_iff.mp hnil).1
    induction h with
    | nil =>
      intro k hk
      rw [List.append_nil]
      exact inside k [] hk
    | @keep c t o hc h ih =>
      intro k hk
      rw [List.append_cons]
      refine ih (k ++ [c]) fun k' hne hsuf => ?_
      rcases List.suffix_concat_iff.mp hsuf with rfl | ⟨k'', rfl, hk''⟩
      · exact absurd rfl hne
      · rw [List.append_assoc]
        by_cases hnil : k'' = []
        · rw [hnil]
          exact hc
        · exact hk k'' hnil hk''
    | @mark t o h ih =>
      intro k hk hin
      rcases hs.split hin with hin | hin
      · exact inside k (s ++ t) hk hin
      · exact ih [] (fun k' hne hk' => absurd (List.suffix_nil.mp hk') hne) hin
  exact key [] fun k' hne hk' => absurd (List.suffix_nil.mp hk') hne

end

/-! ## splitting at a word -/

section
variable {α : Type*} {m s : List α}

/-- a character in front of the first piece. -/
def consFirst (c : α) : List (List α) → List (List α)
  | [] => [[c]]
  | p :: ps => (c :: p) :: ps

theorem intercalate_consFirst (c : α) {ps : List (List α)} (h : ps ≠ []) :
    List.intercalate m (consFirst c ps) = c :: List.intercalate m ps := by
  cases ps with
  | nil => exact absurd rfl h
  | cons p ps => cases ps <;> simp [consFirst, List.intercalate]

variable [DecidableEq α]

/-- the pieces of a text between the occurrences of `s`, after the next `skip` characters. -/
def splitFrom (s : List α) : ℕ → List α → List (List α)
  | _, [] => [[]]
  | skip + 1, _ :: t => splitFrom s skip t
  | 0, c :: t =>
    if s <+: c :: t then [] :: splitFrom s (s.length - 1) t else consFirst c (splitFrom s 0 t)

theorem splitFrom_ne_nil (skip : ℕ) (t : List α) : splitFrom s skip t ≠ [] := by
  induction t generalizing skip with
  | nil => exact List.cons_ne_nil _ _
  | cons c t ih =>
    cases skip with
    | succ skip => exact ih skip
    | zero =>
      rw [splitFrom]
      split
      · exact List.cons_ne_nil _ _
      · cases splitFrom s 0 t <;> exact List.cons_ne_nil _ _

/-- the characters to skip are those of a text in front. -/
theorem splitFrom_append (k t : List α) : splitFrom s k.length (k ++ t) = splitFrom s 0 t := by
  induction k with
  | nil => rfl
  | cons c k ih => exact ih

/-- a text without the word is one piece. -/
theorem splitFrom_of_not {t : List α} (h : ¬s <:+: t) : splitFrom s 0 t = [t] := by
  induction t with
  | nil => rfl
  | cons c t ih =>
    have hrest : ¬s <:+: t := fun hin => h (hin.trans (List.suffix_cons c t).isInfix)
    rw [splitFrom, if_neg fun hstart => h hstart.isInfix, ih hrest]
    rfl

/-- **Splitting at a word and joining with the marker clears the word.** -/
theorem cleared_splitFrom (hs : s ≠ []) (t : List α) :
    Cleared m s t (List.intercalate m (splitFrom s 0 t)) := by
  induction h : t.length using Nat.strong_induction_on generalizing t with
  | _ n ih =>
    subst h
    cases t with
    | nil => exact .nil
    | cons c t =>
      rw [splitFrom]
      split
      · rename_i hstart
        obtain ⟨t', ht'⟩ := hstart
        obtain ⟨d, k, rfl⟩ := List.exists_cons_of_ne_nil hs
        obtain ⟨rfl, ht⟩ := List.cons.inj ht'
        replace ht : t = k ++ t' := ht.symm
        subst ht
        have hlast : splitFrom (d :: k) ((d :: k).length - 1) (k ++ t') =
            splitFrom (d :: k) 0 t' := splitFrom_append k t'
        have hjoin : List.intercalate m ([] :: splitFrom (d :: k) 0 t') =
            m ++ List.intercalate m (splitFrom (d :: k) 0 t') := by
          obtain ⟨p, ps, hps⟩ := List.exists_cons_of_ne_nil
            (splitFrom_ne_nil (s := d :: k) 0 t')
          rw [hps]
          simp [List.intercalate]
        rw [hlast, hjoin]
        have hless : t'.length < (d :: (k ++ t')).length := by
          rw [List.length_cons, List.length_append]
          omega
        exact .mark (ih _ hless t' rfl)
      · rename_i hnot
        rw [intercalate_consFirst c (splitFrom_ne_nil 0 t)]
        exact .keep c hnot (ih _ (Nat.lt_succ_self _) t rfl)

end

end Text
