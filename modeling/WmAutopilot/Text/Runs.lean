import Mathlib.Data.List.Chain

/-!
# Words between separators

A text is turned into words with one separator between them: runs are joined, and the ends are
freed of the separator.

* `joinRuns p d`   each run of elements with `p` becomes one `d`;
* `Spaced d`       no two separators stand next to each other;
* `freeEnds d`     one separator is taken away at each end;
* `Slug d`         a text that is spaced and does not start with a separator;
* `freeEnds_slug`  such a text loses at most the separator at its end.
-/

set_option autoImplicit false

namespace Text

section
variable {α : Type*} [DecidableEq α]

/-- each run of elements with `p` becomes one `d`; the flag says that a run has begun. -/
def joinRuns (p : α → Bool) (d : α) : Bool → List α → List α
  | _, [] => []
  | inRun, c :: cs =>
    if p c then (if inRun then [] else [d]) ++ joinRuns p d true cs
    else c :: joinRuns p d false cs

/-- No two separators stand next to each other. -/
def Spaced (d : α) (cs : List α) : Prop := cs.IsChain fun a b => ¬(a = d ∧ b = d)

/-- the text without a separator at its start. -/
def freeStart (d : α) : List α → List α
  | [] => []
  | c :: cs => if c = d then cs else c :: cs

/-- the text without a separator at its end. -/
def freeEnd (d : α) (cs : List α) : List α := if cs.getLast? = some d then cs.dropLast else cs

def freeEnds (d : α) (cs : List α) : List α := freeEnd d (freeStart d cs)

/-- A text that is spaced and does not start with a separator. -/
structure Slug (d : α) (cs : List α) : Prop where
  spaced : Spaced d cs
  start : cs.head? ≠ some d

variable {p : α → Bool} {d c : α} {cs : List α} {inRun : Bool}

/-! ## runs -/

omit [DecidableEq α] in
theorem joinRuns_of_none (h : ∀ c ∈ cs, p c = false) : joinRuns p d inRun cs = cs := by
  induction cs generalizing inRun with
  | nil => rfl
  | cons c cs ih =>
    have hc : ¬p c = true := by
      rw [h c List.mem_cons_self]
      exact Bool.false_ne_true
    rw [joinRuns, if_neg hc, ih fun e he => h e (List.mem_cons_of_mem c he)]

omit [DecidableEq α] in
theorem mem_joinRuns (h : c ∈ joinRuns p d inRun cs) : c = d ∨ c ∈ cs := by
  induction cs generalizing inRun with
  | nil => exact absurd h List.not_mem_nil
  | cons e cs ih =>
    unfold joinRuns at h
    split at h
    · rcases List.mem_append.mp h with h | h
      · split at h
        · exact absurd h List.not_mem_nil
        · exact .inl (List.mem_singleton.mp h)
      · exact (ih h).imp_right (List.mem_cons_of_mem e)
    · rcases List.mem_cons.mp h with rfl | h
      · exact .inr List.mem_cons_self
      · exact (ih h).imp_right (List.mem_cons_of_mem e)

/-- behind a separator comes no separator. -/
theorem head_joinRuns : (joinRuns (fun c => decide (c = d)) d true cs).head? ≠ some d := by
  induction cs with
  | nil => exact nofun
  | cons c cs ih =>
    unfold joinRuns
    split
    · exact ih
    · next hc =>
      intro h
      exact hc (decide_eq_true (Option.some.inj h))

/-- **Joined runs of separators are spaced.** -/
theorem spaced_joinRuns : Spaced d (joinRuns (fun c => decide (c = d)) d inRun cs) := by
  unfold Spaced
  induction cs generalizing inRun with
  | nil => exact List.isChain_nil
  | cons c cs ih =>
    unfold joinRuns
    split
    · cases inRun with
      | true => exact ih
      | false =>
        refine List.isChain_cons.mpr ⟨fun b hb hboth => ?_, ih⟩
        exact head_joinRuns (hboth.2 ▸ Option.mem_def.mp hb)
    · next hc =>
      refine List.isChain_cons.mpr ⟨fun b _ hboth => ?_, ih⟩
      exact hc (decide_eq_true hboth.1)

/-- a spaced text has no runs to join. -/
theorem joinRuns_of_spaced (h : Spaced d cs) (hstart : inRun = true → cs.head? ≠ some d) :
    joinRuns (fun c => decide (c = d)) d inRun cs = cs := by
  induction cs generalizing inRun with
  | nil => rfl
  | cons c cs ih =>
    obtain ⟨hnext, hrest⟩ := List.isChain_cons.mp h
    unfold joinRuns
    split
    · next hc =>
      have hc : c = d := of_decide_eq_true hc
      have hfirst : inRun = false := by
        cases inRun with
        | false => rfl
        | true => exact absurd (congrArg some hc) (hstart rfl)
      rw [hfirst, ih hrest fun _ hhead => hnext d hhead ⟨hc, rfl⟩, hc]
      rfl
    · rw [ih hrest fun hfalse => absurd hfalse Bool.false_ne_true]

/-! ## ends -/

theorem freeStart_of_ne (h : cs.head? ≠ some d) : freeStart d cs = cs := by
  cases cs with
  | nil => rfl
  | cons c cs =>
    rw [freeStart, if_neg]
    intro hc
    exact h (congrArg some hc)

theorem freeStart_sublist : (freeStart d cs).Sublist cs := by
  cases cs with
  | nil => exact List.Sublist.refl _
  | cons c cs =>
    rw [freeStart]
    split
    · exact List.sublist_cons_self c cs
    · exact List.Sublist.refl _

theorem freeEnd_sublist : (freeEnd d cs).Sublist cs := by
  unfold freeEnd
  split
  · exact List.dropLast_sublist cs
  · exact List.Sublist.refl _

theorem freeEnds_sublist : (freeEnds d cs).Sublist cs := freeEnd_sublist.trans freeStart_sublist

theorem slug_freeStart (h : Spaced d cs) : Slug d (freeStart d cs) := by
  cases cs with
  | nil => exact ⟨h, nofun⟩
  | cons c cs =>
    obtain ⟨hnext, hrest⟩ := List.isChain_cons.mp h
    rw [freeStart]
    split
    · next hc => exact ⟨hrest, fun hhead => hnext d hhead ⟨hc, rfl⟩⟩
    · next hc => exact ⟨h, fun hhead => hc (Option.some.inj hhead)⟩

omit [DecidableEq α] in
theorem head_dropLast (h : cs.head? ≠ some d) : cs.dropLast.head? ≠ some d := by
  match cs, h with
  | [], h => exact h
  | [c], _ => exact nofun
  | c :: e :: cs, h => exact h

theorem Slug.freeEnd (h : Slug d cs) : Slug d (freeEnd d cs) := by
  unfold Text.freeEnd
  split
  · exact ⟨List.IsChain.dropLast h.spaced, head_dropLast h.start⟩
  · exact h

/-- **Freed of the separators at its ends a spaced text is a slug.** -/
theorem slug_freeEnds (h : Spaced d cs) : Slug d (freeEnds d cs) := (slug_freeStart h).freeEnd

/-- a spaced text that is freed of a separator at its end does not end with one. -/
theorem getLast_freeEnd (h : Spaced d cs) : (freeEnd d cs).getLast? ≠ some d := by
  unfold freeEnd
  split
  · next hlast =>
    intro hbefore
    have hne : cs.dropLast ≠ [] := by
      rintro hnil
      rw [hnil] at hbefore
      cases hbefore
    have hboth := List.IsChain.rel_getLast_dropLast h hne
    rw [List.getLast?_eq_getLast_of_ne_nil hne] at hbefore
    have hcs : cs ≠ [] := by
      rintro rfl
      exact hne rfl
    rw [List.getLast?_eq_getLast_of_ne_nil hcs] at hlast
    exact hboth ⟨Option.some.inj hbefore, Option.some.inj hlast⟩
  · next hlast => exact hlast

theorem getLast_freeEnds (h : Spaced d cs) : (freeEnds d cs).getLast? ≠ some d :=
  getLast_freeEnd (slug_freeStart h).spaced

/-! ## slugs -/

omit [DecidableEq α] in
theorem Slug.take (h : Slug d cs) (n : ℕ) : Slug d (cs.take n) := by
  refine ⟨List.IsChain.take h.spaced n, ?_⟩
  cases n with
  | zero => exact nofun
  | succ n =>
    cases cs with
    | nil => exact nofun
    | cons c cs => exact h.start

/-- **A slug loses at most the separator at its end.** -/
theorem freeEnds_slug (h : Slug d cs) : freeEnds d cs = freeEnd d cs := by
  rw [freeEnds, freeStart_of_ne h.start]

end
end Text
