import Mathlib.Data.List.Basic

/-!
# What was so when an entry was made

`Each Q log`: every entry `e` of `log` was made when `Q past e` held, `past` being the log until
then.  A log that grows by `es` keeps this when `Q` holds of each entry of `es` (`Each.append`).
-/

set_option autoImplicit false

namespace Async
variable {ε : Type} {Q : List ε → ε → Prop} {log es before after : List ε} {e e' : ε}

def Each (Q : List ε → ε → Prop) (log : List ε) : Prop :=
  ∀ before e after, log = before ++ e :: after → Q before e

/-- an entry of a log that has grown is an old one, or one of the new ones. -/
theorem append_split (h : log ++ es = before ++ e :: after) :
    (∃ after', log = before ++ e :: after' ∧ after = after' ++ es) ∨
      ∃ before', before = log ++ before' ∧ es = before' ++ e :: after := by
  rcases List.append_eq_append_iff.mp h with ⟨before', hbefore, hes⟩ | ⟨rest, hlog, hrest⟩
  · exact .inr ⟨before', hbefore, hes⟩
  · cases rest with
    | nil => exact .inr ⟨[], by rw [hlog, List.append_nil, List.append_nil], hrest.symm⟩
    | cons x after' =>
      obtain ⟨rfl, rfl⟩ := List.cons.inj hrest
      exact .inl ⟨after', hlog, rfl⟩

theorem each_nil : Each Q [] := by
  intro before e after h
  exact absurd h.symm (List.append_ne_nil_of_right_ne_nil _ (List.cons_ne_nil _ _))

theorem Each.append (h : Each Q log) (hes : ∀ e ∈ es, ∀ past, log <+: past → Q past e) :
    Each Q (log ++ es) := by
  intro before e after heq
  rcases append_split heq with ⟨after', hlog, -⟩ | ⟨before', rfl, hes'⟩
  · exact h before e after' hlog
  · exact hes e (hes' ▸ List.mem_append_right _ List.mem_cons_self) _ (List.prefix_append _ _)

theorem Each.concat (h : Each Q log) (he : Q log e) : Each Q (log ++ [e]) := by
  intro before e' after heq
  rcases append_split heq with ⟨after', hlog, -⟩ | ⟨before', rfl, hes⟩
  · exact h before e' after' hlog
  · cases before' with
    | nil =>
      obtain ⟨rfl, -⟩ := List.cons.inj hes
      rwa [List.append_nil]
    | cons x before' => exact absurd (List.cons.inj hes).2.symm (by simp)

end Async
