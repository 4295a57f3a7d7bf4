import WmAutopilot.Js.Throw

/-!
# Properties at any depth

* `props`      the properties of a plain object;
* `HasField`   a property of an object at some depth of a value;
* `visit`      every property at any depth is checked, outside in;
* `visit_ok`   **a visit returns iff every property at any depth passes the check**;
* `rest`       the properties that a destructuring leaves.
-/

set_option autoImplicit false

namespace Js
namespace Value
variable {ε : Type}

/-- a check that returns nothing, and then `y`. -/
theorem seq_ok {β : Type} {x : Except ε Unit} {y : Except ε β} {b : β} :
    (x >>= fun _ => y) = .ok b ↔ x = .ok () ∧ y = .ok b := by
  rw [bind_ok]
  exact ⟨fun ⟨_, hx, hy⟩ => ⟨hx, hy⟩, fun ⟨hx, hy⟩ => ⟨(), hx, hy⟩⟩

/-- `Object.entries(value)` of a plain object. -/
def props : Value → List (String × Value)
  | obj fs => fs
  | _ => []

/-- `k: c` is a property of an object at some depth of the value. -/
inductive HasField : Value → String → Value → Prop where
  | here {fs : List (String × Value)} {k : String} {c : Value} (h : (k, c) ∈ fs) :
      HasField (obj fs) k c
  | field {fs : List (String × Value)} {l k : String} {w c : Value} (h : (l, w) ∈ fs)
      (hw : HasField w k c) : HasField (obj fs) k c
  | item {vs : List Value} {w c : Value} {k : String} (h : w ∈ vs) (hw : HasField w k c) :
      HasField (arr vs) k c

mutual

/-- every property at any depth is checked. -/
def visit (check : String → Value → Except ε Unit) : Value → Except ε Unit
  | arr vs => visitItems check vs
  | obj fs => visitFields check fs
  | _ => .ok ()

def visitItems (check : String → Value → Except ε Unit) : List Value → Except ε Unit
  | [] => .ok ()
  | v :: vs => visit check v >>= fun _ => visitItems check vs

def visitFields (check : String → Value → Except ε Unit) :
    List (String × Value) → Except ε Unit
  | [] => .ok ()
  | (k, c) :: fs => check k c >>= fun _ => visit check c >>= fun _ => visitFields check fs

end

section
variable {check : String → Value → Except ε Unit}

theorem visitItems_ok (vs : List Value) :
    visitItems check vs = .ok () ↔ ∀ v ∈ vs, visit check v = .ok () := by
  induction vs with
  | nil => simp [visitItems]
  | cons v vs ih => simp [visitItems, seq_ok, ih]

theorem visitFields_ok (fs : List (String × Value)) :
    visitFields check fs = .ok () ↔
      ∀ f ∈ fs, check f.1 f.2 = .ok () ∧ visit check f.2 = .ok () := by
  induction fs with
  | nil => simp [visitFields]
  | cons f fs ih => simp [visitFields, seq_ok, ih, and_assoc]

theorem visit_of_hasField {v c : Value} {k : String} (h : HasField v k c)
    (hv : visit check v = .ok ()) : check k c = .ok () := by
  induction h with
  | here h => exact ((visitFields_ok _).mp (by simpa [visit] using hv) _ h).1
  | field h _ ih => exact ih ((visitFields_ok _).mp (by simpa [visit] using hv) _ h).2
  | item h _ ih => exact ih ((visitItems_ok _).mp (by simpa [visit] using hv) _ h)

mutual

theorem visit_of_all : ∀ v : Value, (∀ k c, HasField v k c → check k c = .ok ()) →
    visit check v = .ok ()
  | arr vs, h => by
    simp only [visit]
    exact visitItems_of_all vs fun v hv k c hf => h k c (.item hv hf)
  | obj fs, h => by
    simp only [visit]
    exact visitFields_of_all fs (fun f hf => h f.1 f.2 (.here hf))
      fun f hf k c hc => h k c (.field hf hc)
  | undefined, _ | null, _ | bool _, _ | num _, _ | str _, _ => by simp only [visit]

theorem visitItems_of_all : ∀ vs : List Value,
    (∀ v ∈ vs, ∀ k c, HasField v k c → check k c = .ok ()) → visitItems check vs = .ok ()
  | [], _ => by simp only [visitItems]
  | v :: vs, h => by
    have hv := visit_of_all v (h v List.mem_cons_self)
    have hvs := visitItems_of_all vs fun w hw => h w (List.mem_cons_of_mem _ hw)
    simp [visitItems, seq_ok, hv, hvs]

theorem visitFields_of_all : ∀ fs : List (String × Value),
    (∀ f ∈ fs, check f.1 f.2 = .ok ()) →
    (∀ f ∈ fs, ∀ k c, HasField f.2 k c → check k c = .ok ()) → visitFields check fs = .ok ()
  | [], _, _ => by simp only [visitFields]
  | (k, c) :: fs, h, h' => by
    have hk := h (k, c) List.mem_cons_self
    have hc := visit_of_all c (h' (k, c) List.mem_cons_self)
    have hfs := visitFields_of_all fs (fun f hf => h f (List.mem_cons_of_mem _ hf))
      fun f hf => h' f (List.mem_cons_of_mem _ hf)
    simp [visitFields, seq_ok, hk, hc, hfs]

end

/-- **A visit returns** iff every property at any depth passes the check. -/
theorem visit_ok (v : Value) :
    visit check v = .ok () ↔ ∀ k c, HasField v k c → check k c = .ok () :=
  ⟨fun h _ _ hf => visit_of_hasField hf h, visit_of_all v⟩

end

/-! ## properties of a spread -/

theorem mem_setField {fs : List (String × Value)} {k : String} {v : Value} {f : String × Value}
    (h : f ∈ setField k v fs) : f = (k, v) ∨ f ∈ fs := by
  induction fs with
  | nil => exact .inl (List.mem_singleton.mp h)
  | cons g fs ih =>
    obtain ⟨l, w⟩ := g
    unfold setField at h
    split at h
    · rcases List.mem_cons.mp h with h | h
      · exact .inl h
      · exact .inr (List.mem_cons_of_mem _ h)
    · rcases List.mem_cons.mp h with h | h
      · exact .inr (List.mem_cons.mpr (.inl h))
      · exact (ih h).imp_right (List.mem_cons_of_mem _)

/-- a property of a spread is one of the object or one that was added. -/
theorem mem_props_spread {o : Value} {fs : List (String × Value)} {f : String × Value}
    (h : f ∈ (o.spread fs).props) : f ∈ o.props ∨ f ∈ fs := by
  induction fs using List.reverseRecOn with
  | nil => cases o <;> exact .inl h
  | append_singleton fs g ih =>
    have hs : o.spread (fs ++ [g]) = (o.spread fs).set g.1 g.2 := by
      simp [spread, List.foldl_append]
    rw [hs] at h
    cases hv : o.spread fs with
    | obj gs =>
      rw [hv] at h ih
      rcases mem_setField h with h | h
      · exact .inr (List.mem_append_right _ (List.mem_singleton.mpr h))
      · exact (ih h).imp_right (List.mem_append_left _)
    | _ => rw [hv] at h; exact absurd h List.not_mem_nil

/-! ## the rest of an object -/

/-- `const { k, …, ...rest } = value` -/
def rest (value : Value) (ks : List String) : Value :=
  obj (value.props.filter fun f => f.1 ∉ ks)

theorem lookup_filter {fs : List (String × Value)} {ks : List String} {k : String} :
    (fs.filter fun f => f.1 ∉ ks).lookup k = if k ∈ ks then none else fs.lookup k := by
  induction fs with
  | nil => simp
  | cons f fs ih =>
    obtain ⟨l, w⟩ := f
    rw [lookup_cons]
    by_cases hl : l ∈ ks
    · rw [List.filter_cons_of_neg (by simpa using hl), ih]
      by_cases hk : k ∈ ks
      · rw [if_pos hk, if_pos hk]
      · rw [if_neg hk, if_neg hk, if_neg fun e : k = l => hk (e ▸ hl)]
    · rw [List.filter_cons_of_pos (by simpa using hl), lookup_cons, ih]
      by_cases hkl : k = l
      · rw [if_pos hkl, if_pos hkl, if_neg (hkl ▸ hl)]
      · rw [if_neg hkl, if_neg hkl]

theorem get_rest (value : Value) {ks : List String} {k : String} (hk : k ∉ ks) :
    (value.rest ks).get k = value.get k := by
  have hrest : (value.rest ks).get k = (value.props.lookup k).getD undefined := by
    show ((value.props.filter fun f => f.1 ∉ ks).lookup k).getD undefined = _
    rw [lookup_filter, if_neg hk]
  rw [hrest]
  cases value <;> rfl

theorem mem_props_rest {value : Value} {ks : List String} {f : String × Value} :
    f ∈ (value.rest ks).props ↔ f ∈ value.props ∧ f.1 ∉ ks := by
  simp [rest, props, List.mem_filter]

end Value
end Js
