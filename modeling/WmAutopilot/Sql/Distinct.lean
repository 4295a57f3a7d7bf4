import WmAutopilot.Sql.Table

/-!
# Groups of rows

* `distinct`        `SELECT DISTINCT`, in the order of the first occurrences;
* `total`           `SUM` of a column;
* `grouped`         `SELECT SUM(MAX(size)) … GROUP BY key`: one size counts for each key;
* `grouped_append_of_not`, `grouped_append_of_mem`   a row with a new key adds its size; one with a
                    known key and the size of its group adds nothing.
-/

set_option autoImplicit false

namespace Sql
variable {ρ κ : Type}

/-- `SELECT DISTINCT` -/
def distinct [DecidableEq κ] (ks : List κ) : List κ :=
  ks.foldl (fun seen k => if k ∈ seen then seen else seen ++ [k]) []

/-- `SUM(size)` -/
def total (size : ρ → ℕ) (t : List ρ) : ℕ := (t.map size).foldl (· + ·) 0

/-- the sizes of the groups, added up; the size of a group is its maximum. -/
def grouped [DecidableEq κ] (key : ρ → κ) (size : ρ → ℕ) (t : List ρ) : ℕ :=
  total (fun k => maximum (fun r => key r = k) size t) (distinct (t.map key))

section
variable [DecidableEq κ] {ks : List κ} {k : κ}

theorem distinct_concat : distinct (ks ++ [k]) =
    if k ∈ distinct ks then distinct ks else distinct ks ++ [k] :=
  List.foldl_append

theorem mem_distinct {x : κ} : x ∈ distinct ks ↔ x ∈ ks := by
  induction ks using List.reverseRecOn with
  | nil => exact Iff.rfl
  | append_singleton ks k ih =>
    rw [distinct_concat]
    split
    · rename_i hk
      rw [List.mem_append, List.mem_singleton, ih]
      refine ⟨Or.inl, fun h => h.elim id fun h => ?_⟩
      rw [h] at ih ⊢
      exact ih.mp hk
    · rw [List.mem_append, List.mem_append, ih]

theorem distinct_append_of_mem (h : k ∈ ks) : distinct (ks ++ [k]) = distinct ks := by
  rw [distinct_concat, if_pos (mem_distinct.mpr h)]

theorem distinct_append_of_not (h : k ∉ ks) : distinct (ks ++ [k]) = distinct ks ++ [k] := by
  rw [distinct_concat, if_neg fun hk => h (mem_distinct.mp hk)]

end

theorem total_append {size : ρ → ℕ} {t : List ρ} {r : ρ} :
    total size (t ++ [r]) = total size t + size r := by
  rw [total, List.map_append, List.foldl_append]
  rfl

theorem total_congr {size size' : ρ → ℕ} {t : List ρ} (h : ∀ r ∈ t, size r = size' r) :
    total size t = total size' t := by
  rw [total, total, List.map_congr_left h]

section
variable {p : ρ → Prop} [DecidablePred p] {size : ρ → ℕ} {t : List ρ} {r : ρ}

theorem foldr_max_append {ns : List ℕ} {n : ℕ} :
    (ns ++ [n]).foldr max 0 = max (ns.foldr max 0) n := by
  induction ns with
  | nil => exact Nat.max_comm n 0
  | cons m ns ih =>
    show max m ((ns ++ [n]).foldr max 0) = max (max m (ns.foldr max 0)) n
    rw [ih, Nat.max_assoc]

theorem maximum_append (hr : p r) : maximum p size (t ++ [r]) = max (maximum p size t) (size r) := by
  have hrow : [r].filter p = [r] := List.filter_cons_of_pos (decide_eq_true hr)
  rw [maximum, List.filter_append, hrow, List.map_append]
  exact foldr_max_append

theorem maximum_append_of_not (hr : ¬p r) : maximum p size (t ++ [r]) = maximum p size t := by
  have hrow : [r].filter p = [] := by simpa using hr
  rw [maximum, List.filter_append, hrow, List.append_nil]
  rfl

/-- the maximum of rows of one size. -/
theorem maximum_eq {n : ℕ} (hsize : ∀ r ∈ t, p r → size r = n) (hr : r ∈ t) (hp : p r) :
    maximum p size t = n := by
  refine Nat.le_antisymm ?_ ?_
  · have hle : ∀ ns : List ℕ, (∀ m ∈ ns, m ≤ n) → ns.foldr max 0 ≤ n := by
      intro ns hns
      induction ns with
      | nil => exact Nat.zero_le n
      | cons m ns ih =>
        exact Nat.max_le.mpr ⟨hns m List.mem_cons_self,
          ih fun m' hm' => hns m' (List.mem_cons_of_mem _ hm')⟩
    refine hle _ fun m hm => ?_
    obtain ⟨r', hr', rfl⟩ := List.mem_map.mp hm
    obtain ⟨hmem, hp'⟩ := List.mem_filter.mp hr'
    exact Nat.le_of_eq (hsize r' hmem (of_decide_eq_true hp'))
  · rw [← hsize r hr hp]
    exact le_maximum hr hp

end

section
variable [DecidableEq κ] {key : ρ → κ} {size : ρ → ℕ} {t : List ρ} {r : ρ}

/-- the groups there were keep their sizes when a row of the size of its group is added. -/
theorem maximum_append_of_mem (hsize : ∀ r' ∈ t, key r' = key r → size r' = size r) {k : κ}
    (hk : k ∈ distinct (t.map key)) :
    maximum (fun r' => key r' = k) size (t ++ [r]) = maximum (fun r' => key r' = k) size t := by
  by_cases hkey : key r = k
  · subst hkey
    obtain ⟨r', hr', hk'⟩ := List.mem_map.mp (mem_distinct.mp hk)
    have hmax : maximum (fun r' => key r' = key r) size (t ++ [r]) =
        max (maximum (fun r' => key r' = key r) size t) (size r) := maximum_append rfl
    rw [hmax, maximum_eq hsize hr' hk', Nat.max_self]
  · exact maximum_append_of_not hkey

/-- **A row with a known key adds nothing**, when it has the size of its group. -/
theorem grouped_append_of_mem (hsize : ∀ r' ∈ t, key r' = key r → size r' = size r)
    (hmem : key r ∈ t.map key) : grouped key size (t ++ [r]) = grouped key size t := by
  rw [grouped, List.map_append, List.map_cons, List.map_nil, distinct_append_of_mem hmem]
  exact total_congr fun k hk => maximum_append_of_mem hsize hk

/-- **A row with a new key adds its size.** -/
theorem grouped_append_of_not (hsize : ∀ r' ∈ t, key r' = key r → size r' = size r)
    (hmem : key r ∉ t.map key) : grouped key size (t ++ [r]) = grouped key size t + size r := by
  have hnone : t.filter (fun r' => key r' = key r) = [] := by
    refine List.filter_eq_nil_iff.mpr fun r' hr' h => hmem ?_
    exact List.mem_map.mpr ⟨r', hr', of_decide_eq_true h⟩
  have hnew : maximum (fun r' => key r' = key r) size t = 0 := by
    rw [maximum, hnone]
    rfl
  have hmax : maximum (fun r' => key r' = key r) size (t ++ [r]) =
      max (maximum (fun r' => key r' = key r) size t) (size r) := maximum_append rfl
  rw [grouped, List.map_append, List.map_cons, List.map_nil, distinct_append_of_not hmem,
    total_append, hmax, hnew, Nat.zero_max,
    total_congr fun k hk => maximum_append_of_mem hsize hk]
  rfl

end

end Sql
