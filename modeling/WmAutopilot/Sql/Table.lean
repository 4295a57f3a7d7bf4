import Mathlib.Data.List.MinMax
import Mathlib.Data.List.Nodup
import Mathlib.Order.Nat

/-!
# Tables as lists of rows

A table is the list of its rows in insertion order.  A statement is a function on it:

* `update p f t`   `UPDATE t SET f WHERE p`;  `changes p t` is the number of rows it touches;
* `t.find? p`      `SELECT * FROM t WHERE p` read with `.get`;
* `first p key t`  `SELECT * FROM t WHERE p ORDER BY key LIMIT 1`;
* `maximum p key t` `SELECT MAX(key) FROM t WHERE p` (0 when there is no row);
* `text LIKE pattern` is `like pattern text`.

`PrimaryKey key t` says that `key` is a primary key of `t`; `update` keeps it when `f` keeps the key.
-/

set_option autoImplicit false

namespace Sql
variable {ρ κ : Type}

/-- `UPDATE t SET f WHERE p` -/
def update (p : ρ → Prop) [DecidablePred p] (f : ρ → ρ) (t : List ρ) : List ρ :=
  t.map fun r => if p r then f r else r

/-- the number of rows that `UPDATE … WHERE p` touches. -/
def changes (p : ρ → Prop) [DecidablePred p] (t : List ρ) : ℕ := t.countP p

/-- `SELECT * FROM t WHERE p ORDER BY key LIMIT 1` -/
def first (p : ρ → Prop) [DecidablePred p] (key : ρ → ℕ) (t : List ρ) : Option ρ :=
  (t.filter p).argmin key

/-- `SELECT MAX(key) FROM t WHERE p`, 0 when there is no row. -/
def maximum (p : ρ → Prop) [DecidablePred p] (key : ρ → ℕ) (t : List ρ) : ℕ :=
  ((t.filter p).map key).foldr max 0

/-- `LIKE`: `%` stands for any characters, `_` for one, and letters of ASCII are compared without
their case. -/
def like : List Char → List Char → Bool
  | [], text => text.isEmpty
  | '%' :: pattern, text => text.tails.any (like pattern)
  | _ :: _, [] => false
  | p :: pattern, c :: text => (p == '_' || p.toLower == c.toLower) && like pattern text

/-- no two rows of `t` have the same key. -/
def PrimaryKey (key : ρ → κ) (t : List ρ) : Prop := (t.map key).Nodup

section
variable {p : ρ → Prop} [DecidablePred p] {f : ρ → ρ} {t : List ρ}

theorem mem_update {r' : ρ} :
    r' ∈ update p f t ↔ ∃ r ∈ t, (if p r then f r else r) = r' := List.mem_map

theorem mem_update_of_not {r : ρ} (hr : r ∈ t) (hp : ¬p r) : r ∈ update p f t :=
  mem_update.mpr ⟨r, hr, if_neg hp⟩

theorem update_eq_self (h : ∀ r ∈ t, ¬p r) : update p f t = t := by
  refine (List.map_congr_left fun r hr => ?_).trans (List.map_id t)
  exact if_neg (h r hr)

theorem changes_eq_zero : changes p t = 0 ↔ ∀ r ∈ t, ¬p r := by
  simp [changes, List.countP_eq_zero]

theorem changes_pos : 0 < changes p t ↔ ∃ r ∈ t, p r := by
  simp [changes, List.countP_pos_iff]

theorem map_update {key : ρ → κ} (hf : ∀ r, key (f r) = key r) :
    (update p f t).map key = t.map key := by
  rw [update, List.map_map]
  refine List.map_congr_left fun r _ => ?_
  show key (if p r then f r else r) = key r
  split
  · exact hf r
  · rfl

theorem PrimaryKey.update {key : ρ → κ} (h : PrimaryKey key t) (hf : ∀ r, key (f r) = key r) :
    PrimaryKey key (update p f t) := by
  rw [PrimaryKey, map_update hf]
  exact h

theorem PrimaryKey.eq {key : ρ → κ} (h : PrimaryKey key t) {r r' : ρ} (hr : r ∈ t) (hr' : r' ∈ t)
    (hk : key r = key r') : r = r' := List.inj_on_of_nodup_map h hr hr' hk

theorem PrimaryKey.append {key : ρ → κ} (h : PrimaryKey key t) {r : ρ} (hr : ∀ x ∈ t, key x ≠ key r) :
    PrimaryKey key (t ++ [r]) := by
  rw [PrimaryKey, List.map_append, List.nodup_append]
  refine ⟨h, by simp, fun a ha b hb => ?_⟩
  obtain ⟨x, hx, rfl⟩ := List.mem_map.mp ha
  obtain rfl : b = key r := by simpa using hb
  exact hr x hx

/-- with a primary key, `SELECT * FROM t WHERE key = k` gives one row. -/
theorem PrimaryKey.filter_eq {key : ρ → κ} (h : PrimaryKey key t) {r : ρ} (hr : r ∈ t)
    {p : ρ → Prop} [DecidablePred p] (hp : ∀ x ∈ t, p x ↔ key x = key r) : t.filter p = [r] := by
  have hnodup : (t.filter p).Nodup := (List.Nodup.of_map key h).filter _
  have hall : ∀ x ∈ t.filter p, x = r := by
    intro x hx
    obtain ⟨hmem, hpx⟩ := List.mem_filter.mp hx
    exact h.eq hmem hr ((hp x hmem).mp (of_decide_eq_true hpx))
  have hmem : r ∈ t.filter p := List.mem_filter.mpr ⟨hr, decide_eq_true ((hp r hr).mpr rfl)⟩
  rw [List.eq_replicate_of_mem hall] at hnodup hmem ⊢
  have hle := List.nodup_replicate.mp hnodup
  have hpos := (List.mem_replicate.mp hmem).1
  rw [Nat.le_antisymm hle (Nat.pos_of_ne_zero hpos)]
  rfl
theorem mem_of_find {r : ρ} (h : t.find? p = some r) : r ∈ t ∧ p r :=
  ⟨List.mem_of_find?_eq_some h, by simpa using List.find?_some h⟩

theorem first_spec {key : ρ → ℕ} {r : ρ} (h : first p key t = some r) :
    r ∈ t ∧ p r ∧ ∀ r' ∈ t, p r' → key r ≤ key r' := by
  have hm := List.argmin_mem (Option.mem_def.mpr h)
  rw [List.mem_filter, decide_eq_true_iff] at hm
  refine ⟨hm.1, hm.2, fun r' hr' hp' => ?_⟩
  exact List.le_of_mem_argmin (List.mem_filter.mpr ⟨hr', decide_eq_true hp'⟩) (Option.mem_def.mpr h)

theorem first_isSome {key : ρ → ℕ} {r : ρ} (hr : r ∈ t) (hp : p r) :
    ∃ r', first p key t = some r' := by
  rw [← Option.isSome_iff_exists, ← Option.ne_none_iff_isSome, first, Ne, List.argmin_eq_none,
    List.filter_eq_nil_iff]
  exact fun h => h r hr (decide_eq_true hp)

theorem le_maximum {key : ρ → ℕ} {r : ρ} (hr : r ∈ t) (hp : p r) : key r ≤ maximum p key t := by
  have hm : key r ∈ (t.filter p).map key :=
    List.mem_map_of_mem (List.mem_filter.mpr ⟨hr, decide_eq_true hp⟩)
  exact List.le_max_of_le hm le_rfl

end

end Sql
