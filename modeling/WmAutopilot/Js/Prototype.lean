import WmAutopilot.Js.Paths

/-!
# Property chains through `Object.prototype`

`Value.get` reads own properties.  A chain `o[k][l]…` of JavaScript also finds what an object
inherits, and a chain of assignments can reach the prototype itself.

* `Ref`          what a chain can be at: a value, a function of the prototype, or the prototype;
* `step`, `read` one `[k]`, and a chain of them;
* `write`        `o[k][l]… = v`, with `{}` in place of what is no plain object on the way;
* `Existing`     every part of a path but the last is a plain object already;
* `read_write_self`, `read_write_of_existing`, `write_same`, `write_write`:
                 **the laws of a lens, and what they need**;
* `not_existing_seen` **without `Existing` a path beside the written one reads differently**.
-/

set_option autoImplicit false

namespace Js
namespace Chain
open Value Path

/-- the functions of `Object.prototype`. -/
def builtins : List String :=
  ["constructor", "__defineGetter__", "__defineSetter__", "hasOwnProperty", "__lookupGetter__",
    "__lookupSetter__", "isPrototypeOf", "propertyIsEnumerable", "toString", "valueOf",
    "toLocaleString"]

/-- What a chain is at.  See the file header. -/
inductive Ref where
  | value (v : Value)
  | builtin (name : String)
  | prototype
  deriving DecidableEq, Repr

/-- what a plain object without an own property `k` has at `k`. -/
def inherited (k : String) : Ref :=
  if k = "__proto__" then .prototype
  else if k ∈ builtins then .builtin k
  else .value undefined

/-- `!r || typeof r !== "object" || Array.isArray(r) ? undefined : r[k]` -/
def step : Ref → String → Ref
  | .value (obj fs), k => ((fs.lookup k).map Ref.value).getD (inherited k)
  | .prototype, k => if k = "__proto__" then .value null else inherited k
  | _, _ => .value undefined

/-- a chain of reads. -/
def read (r : Ref) (parts : List String) : Ref := parts.foldl step r

/-- Where an assignment ends: with the object that was written to, or at the prototype that all
plain objects share. -/
inductive Written where
  | value (v : Value)
  | prototype
  deriving DecidableEq, Repr

/-- the assignment is to a property of `o`. -/
def Written.into (o : Value) (k : String) : Written → Written
  | .value w => .value (o.set k w)
  | .prototype => .prototype

/-- `o[k][l]… = v`, with `{}` in place of what is no plain object on the way. -/
def write (o v : Value) : List String → Written
  | [] => .value o
  | [k] => if step (.value o) k = .prototype then .prototype else .value (o.set k v)
  | k :: l :: ks =>
    if step (.value o) k = .prototype then .prototype
    else (write (asObject (o.get k)) v (l :: ks)).into o k

/-- every part but the last is a plain object already. -/
def Existing : Value → List String → Prop
  | _, [] | _, [_] => True
  | o, k :: l :: ks => (o.get k).isPlainObject = true ∧ Existing (o.get k) (l :: ks)

instance decidableExisting : (o : Value) → (parts : List String) → Decidable (Existing o parts)
  | _, [] | _, [_] => isTrue trivial
  | o, k :: l :: ks => @instDecidableAnd _ _ _ (decidableExisting (o.get k) (l :: ks))

section
variable {o v w : Value} {r : Ref} {k l : String} {ks parts : List String}

/-! ## one read -/

theorem read_cons (r : Ref) (k : String) (ks : List String) :
    read r (k :: ks) = read (step r k) ks := rfl

theorem read_append (r : Ref) (ps qs : List String) : read r (ps ++ qs) = read (read r ps) qs :=
  List.foldl_append ..

theorem read_undefined (parts : List String) :
    read (.value undefined) parts = .value undefined := by
  induction parts with
  | nil => rfl
  | cons k ks ih => exact ih

theorem read_builtin (n k : String) (ks : List String) :
    read (.builtin n) (k :: ks) = .value undefined := read_undefined ks

/-- a value that is no plain object has nothing below it. -/
theorem read_of_not_object (h : o.isPlainObject = false) (k : String) (ks : List String) :
    read (.value o) (k :: ks) = .value undefined := by
  cases o with
  | obj fs => cases h
  | _ => exact read_undefined ks

theorem inherited_cases (k : String) :
    k = "__proto__" ∧ inherited k = .prototype ∨
      k ≠ "__proto__" ∧ inherited k = .builtin k ∨ inherited k = .value undefined := by
  unfold inherited
  split
  · rename_i h
    exact .inl ⟨h, rfl⟩
  · rename_i h
    split
    · exact .inr (.inl ⟨h, rfl⟩)
    · exact .inr (.inr rfl)

theorem step_obj (fs : List (String × Value)) (k : String) :
    step (.value (obj fs)) k = ((fs.lookup k).map Ref.value).getD (inherited k) := rfl

theorem step_set_self (ho : o.isPlainObject = true) : step (.value (o.set k v)) k = .value v := by
  cases o with
  | obj fs =>
    show ((_ : Option Value).map _).getD _ = _
    rw [lookup_setField, if_pos rfl]
    rfl
  | _ => cases ho

theorem step_set_of_ne (h : l ≠ k) : step (.value (o.set k v)) l = step (.value o) l := by
  cases o with
  | obj fs =>
    show ((_ : Option Value).map _).getD _ = _
    rw [lookup_setField, if_neg h]
    rfl
  | _ => rfl

/-- an own property, or none. -/
theorem step_cases (o : Value) (k : String) :
    step (.value o) k = .value (o.get k) ∨
      o.isPlainObject = true ∧ o.get k = undefined ∧ step (.value o) k = inherited k := by
  cases o with
  | obj fs =>
    cases hk : fs.lookup k with
    | some w =>
      left
      rw [step_obj, Value.get, hk]
      rfl
    | none =>
      right
      refine ⟨rfl, ?_, ?_⟩
      · rw [Value.get, hk]
        rfl
      · rw [step_obj, hk]
        rfl
  | _ => exact .inl rfl

/-- a plain object below a value is its own property. -/
theorem step_of_isPlainObject (h : (o.get k).isPlainObject = true) :
    step (.value o) k = .value (o.get k) := by
  rcases step_cases o k with hk | ⟨-, hk, -⟩
  · exact hk
  · rw [hk] at h
    cases h

/-- what is below something that is no plain object, unless it is the prototype. -/
theorem read_step_of_not_object (h : (o.get k).isPlainObject = false)
    (hp : step (.value o) k ≠ .prototype) (l : String) (ks : List String) :
    read (step (.value o) k) (l :: ks) = .value undefined := by
  rcases step_cases o k with hk | ⟨-, -, hk⟩
  · rw [hk, read_of_not_object h]
  · rcases inherited_cases k with ⟨-, hi⟩ | ⟨-, hi⟩ | hi
    · exact absurd (hk.trans hi) hp
    · rw [hk, hi, read_builtin]
    · rw [hk, hi, read_undefined]

theorem isPlainObject_asObject (o : Value) : (asObject o).isPlainObject = true := by
  unfold asObject
  split
  · assumption
  · rfl

theorem asObject_of (h : o.isPlainObject = true) : asObject o = o := if_pos h

theorem asObject_of_not (h : o.isPlainObject = false) : asObject o = obj [] :=
  if_neg (h ▸ Bool.false_ne_true)

theorem step_empty (k : String) : step (.value (obj [])) k = inherited k := rfl

/-- a property is smaller than the object it is of. -/
theorem sizeOf_get (o : Value) (k : String) :
    o.get k = undefined ∨ sizeOf (o.get k) < sizeOf o := by
  cases o with
  | obj fs =>
    induction fs with
    | nil => exact .inl rfl
    | cons f fs ih =>
      obtain ⟨l, w⟩ := f
      by_cases hk : k = l
      · right
        have hget : (obj ((l, w) :: fs)).get k = w := by
          rw [Value.get, lookup_cons, if_pos hk]
          rfl
        rw [hget]
        simp only [obj.sizeOf_spec, List.cons.sizeOf_spec, Prod.mk.sizeOf_spec]
        omega
      · have hget : (obj ((l, w) :: fs)).get k = (obj fs).get k := by
          rw [Value.get, Value.get, lookup_cons, if_neg hk]
        rw [hget]
        refine ih.imp id fun hlt => ?_
        simp only [obj.sizeOf_spec, List.cons.sizeOf_spec] at hlt ⊢
        omega
  | _ => exact .inl rfl

/-- names that no object inherits are read as own properties. -/
theorem read_plain (h : ∀ k ∈ parts, inherited k = .value undefined) :
    read (.value o) parts = .value (getParts o parts) := by
  induction parts generalizing o with
  | nil => rfl
  | cons k ks ih =>
    have hrest := ih (o := o.get k) fun j hj => h j (.tail _ hj)
    rcases step_cases o k with hk | ⟨-, hget, hk⟩
    · rw [read_cons, hk, hrest, getParts_cons]
    · rw [read_cons, hk, h k (.head _), read_undefined, getParts_cons, hget, getParts_undefined]

end

/-! ## a write is the write of own properties -/

section
variable {o v w n : Value} {r : Ref} {k l : String} {ks parts qs : List String}

/-- **A write that does not reach the prototype** is the write of own properties. -/
theorem write_cons (h : write o v (k :: l :: ks) = .value n) :
    step (.value o) k ≠ .prototype ∧
      ∃ m, write (asObject (o.get k)) v (l :: ks) = .value m ∧ n = o.set k m := by
  rw [write] at h
  split at h
  · cases h
  rename_i hp
  refine ⟨hp, ?_⟩
  cases hm : write (asObject (o.get k)) v (l :: ks) with
  | prototype =>
    rw [hm] at h
    cases h
  | value m =>
    rw [hm] at h
    cases h
    exact ⟨m, rfl, rfl⟩

theorem write_singleton (h : write o v [k] = .value n) :
    step (.value o) k ≠ .prototype ∧ n = o.set k v := by
  rw [write] at h
  split at h
  · cases h
  · rename_i hp
    cases h
    exact ⟨hp, rfl⟩

theorem write_eq (h : write o v parts = .value n) : n = setParts o v parts := by
  induction parts generalizing o n with
  | nil =>
    cases h
    rfl
  | cons k ks ih =>
    cases ks with
    | nil => exact (write_singleton h).2
    | cons l ks =>
      obtain ⟨-, m, hm, rfl⟩ := write_cons h
      rw [setParts, ← ih hm]

theorem write_head (h : write o v (k :: ks) = .value n) : step (.value o) k ≠ .prototype := by
  cases ks with
  | nil => exact (write_singleton h).1
  | cons l ks => exact (write_cons h).1

theorem isPlainObject_write (ho : o.isPlainObject = true) (h : write o v parts = .value n) :
    n.isPlainObject = true := by
  cases parts with
  | nil =>
    cases h
    exact ho
  | cons k ks =>
    cases ks with
    | nil =>
      rw [(write_singleton h).2, isPlainObject_set]
      exact ho
    | cons l ks =>
      obtain ⟨-, m, -, rfl⟩ := write_cons h
      rw [isPlainObject_set]
      exact ho

/-- **The written path reads the written value.** -/
theorem read_write_self (ho : o.isPlainObject = true) (hne : parts ≠ [])
    (h : write o v parts = .value n) : read (.value n) parts = .value v := by
  induction parts generalizing o n with
  | nil => exact absurd rfl hne
  | cons k ks ih =>
    cases ks with
    | nil =>
      obtain ⟨-, rfl⟩ := write_singleton h
      exact step_set_self ho
    | cons l ks =>
      obtain ⟨-, m, hm, rfl⟩ := write_cons h
      rw [read_cons, step_set_self ho]
      exact ih (isPlainObject_asObject _) (List.cons_ne_nil l ks) hm

/-- what does not overlap a path diverges from it below the first part they share. -/
theorem not_overlap_tail (h : ¬Overlap (k :: ks) (k :: qs)) : ¬Overlap ks qs := by
  rintro (hover | hover)
  · exact h (.inl (List.cons_prefix_cons.mpr ⟨rfl, hover⟩))
  · exact h (.inr (List.cons_prefix_cons.mpr ⟨rfl, hover⟩))

theorem overlap_nil_left (qs : List String) : Overlap [] qs := .inl List.nil_prefix

theorem overlap_nil_right (ks : List String) : Overlap ks [] := .inr List.nil_prefix

/-- **A write below existing objects** leaves alone what it does not overlap. -/
theorem read_write_of_existing (ho : o.isPlainObject = true) (hex : Existing o parts)
    (h : write o v parts = .value n) (hno : ¬Overlap parts qs) :
    read (.value n) qs = read (.value o) qs := by
  induction parts generalizing o n qs with
  | nil => exact absurd (overlap_nil_left qs) hno
  | cons k ks ih =>
    cases qs with
    | nil => exact absurd (overlap_nil_right _) hno
    | cons j js =>
      rw [read_cons, read_cons]
      by_cases hj : j = k
      · subst hj
        cases ks with
        | nil => exact absurd (overlap_nil_left js) (not_overlap_tail hno)
        | cons l ks =>
          obtain ⟨-, m, hm, rfl⟩ := write_cons h
          rw [asObject_of hex.1] at hm
          rw [step_set_self ho, step_of_isPlainObject hex.1]
          exact ih hex.1 hex.2 hm (not_overlap_tail hno)
      · cases ks with
        | nil => rw [(write_singleton h).2, step_set_of_ne hj]
        | cons l ks =>
          obtain ⟨-, m, -, rfl⟩ := write_cons h
          rw [step_set_of_ne hj]

/-- an object that was just created has nothing where a path leaves the written one. -/
theorem read_empty_beside {a b : String} {cs ps : List String} (hb : inherited b = .value undefined)
    (h : write (obj []) v (cs ++ a :: ps) = .value n) :
    read (.value (obj [])) (cs ++ b :: qs) = .value undefined := by
  cases cs with
  | nil =>
    show read (inherited b) qs = .value undefined
    rw [hb, read_undefined]
  | cons k cs =>
    obtain ⟨j, js, hj⟩ : ∃ j js, cs ++ b :: qs = j :: js :=
      List.exists_cons_of_ne_nil (List.append_ne_nil_of_right_ne_nil cs (List.cons_ne_nil b qs))
    have hp : step (.value (obj [])) k ≠ .prototype := write_head h
    show read (step (.value (obj [])) k) (cs ++ b :: qs) = .value undefined
    rw [hj]
    exact read_step_of_not_object rfl hp j js

/-- **A path on which everything exists** is left alone by a write that does not overlap it. -/
theorem read_write_of_read (ho : o.isPlainObject = true) (hex : Existing o qs)
    (h : write o v parts = .value n) (hno : ¬Overlap parts qs) :
    read (.value n) qs = read (.value o) qs := by
  induction parts generalizing o n qs with
  | nil => exact absurd (overlap_nil_left qs) hno
  | cons k ks ih =>
    cases qs with
    | nil => exact absurd (overlap_nil_right _) hno
    | cons j js =>
      rw [read_cons, read_cons]
      by_cases hj : j = k
      · subst hj
        cases ks with
        | nil => exact absurd (overlap_nil_left js) (not_overlap_tail hno)
        | cons l ks =>
          cases js with
          | nil => exact absurd (overlap_nil_right _) (not_overlap_tail hno)
          | cons i is =>
            obtain ⟨-, m, hm, rfl⟩ := write_cons h
            rw [asObject_of hex.1] at hm
            rw [step_set_self ho, step_of_isPlainObject hex.1]
            exact ih hex.1 hex.2 hm (not_overlap_tail hno)
      · cases ks with
        | nil => rw [(write_singleton h).2, step_set_of_ne hj]
        | cons l ks =>
          obtain ⟨-, m, -, rfl⟩ := write_cons h
          rw [step_set_of_ne hj]

/-- below an object that was written, everything exists. -/
theorem existing_write (ho : o.isPlainObject = true) (hv : v.isPlainObject = true)
    (hne : parts ≠ []) (h : write o v parts = .value n) (l : String) :
    Existing n (parts ++ [l]) := by
  induction parts generalizing o n with
  | nil => exact absurd rfl hne
  | cons k ks ih =>
    cases ks with
    | nil =>
      obtain ⟨-, rfl⟩ := write_singleton h
      refine ⟨?_, trivial⟩
      rw [get_set_self ho]
      exact hv
    | cons j js =>
      obtain ⟨-, m, hm, rfl⟩ := write_cons h
      have hobj := isPlainObject_asObject (o.get k)
      refine ⟨?_, ?_⟩
      · rw [get_set_self ho]
        exact isPlainObject_write hobj hm
      · rw [get_set_self ho]
        exact ih hobj (List.cons_ne_nil j js) hm

/-- only `__proto__` reaches the prototype. -/
theorem step_ne_prototype (hk : k ≠ "__proto__") : step (.value o) k ≠ .prototype := by
  rcases step_cases o k with h | ⟨-, -, h⟩
  · rw [h]
    nofun
  · rw [h]
    rcases inherited_cases k with ⟨he, -⟩ | ⟨-, hi⟩ | hi
    · exact absurd he hk
    · rw [hi]
      nofun
    · rw [hi]
      nofun

/-- **A path without `__proto__` can be written.** -/
theorem write_ok (o v : Value) (h : "__proto__" ∉ parts) : ∃ n, write o v parts = .value n := by
  induction parts generalizing o with
  | nil => exact ⟨o, rfl⟩
  | cons k ks ih =>
    have hk : k ≠ "__proto__" := fun e => h (e ▸ List.mem_cons_self)
    cases ks with
    | nil => exact ⟨o.set k v, if_neg (step_ne_prototype hk)⟩
    | cons l ks =>
      obtain ⟨m, hm⟩ := ih (asObject (o.get k)) fun hks => h (List.mem_cons_of_mem k hks)
      refine ⟨o.set k m, ?_⟩
      rw [write, if_neg (step_ne_prototype hk), hm]
      rfl

/-- a path without the names of functions reads none. -/
theorem read_ne_builtin (h : ∀ k ∈ parts, k ∉ builtins) (hr : ∀ n, r ≠ .builtin n) (name : String) :
    read r parts ≠ .builtin name := by
  induction parts generalizing r with
  | nil => exact hr name
  | cons k ks ih =>
    refine ih (fun j hj => h j (List.mem_cons_of_mem k hj)) fun n hstep => ?_
    have hinherited : inherited k ≠ .builtin n := by
      unfold inherited
      rw [if_neg (h k List.mem_cons_self)]
      split <;> nofun
    cases r with
    | value w =>
      rcases step_cases w k with hw | ⟨-, -, hw⟩
      · rw [hw] at hstep
        cases hstep
      · exact hinherited (hw.symm.trans hstep)
    | builtin m => cases hstep
    | prototype =>
      rw [step] at hstep
      split at hstep
      · cases hstep
      · exact hinherited hstep

/-- **A path that leaves the written one at a name that nothing inherits** is left alone. -/
theorem read_write_beside {a b : String} {cs ps : List String} (ho : o.isPlainObject = true)
    (hb : inherited b = .value undefined) (hab : b ≠ a)
    (h : write o v (cs ++ a :: ps) = .value n) :
    read (.value n) (cs ++ b :: qs) = read (.value o) (cs ++ b :: qs) := by
  induction cs generalizing o n with
  | nil =>
    show read (step (.value n) b) qs = read (step (.value o) b) qs
    cases ps with
    | nil => rw [(write_singleton h).2, step_set_of_ne hab]
    | cons l ks =>
      obtain ⟨-, m, -, rfl⟩ := write_cons h
      rw [step_set_of_ne hab]
  | cons k cs ih =>
    obtain ⟨l, ks, hl⟩ : ∃ l ks, cs ++ a :: ps = l :: ks :=
      List.exists_cons_of_ne_nil (List.append_ne_nil_of_right_ne_nil cs (List.cons_ne_nil a ps))
    obtain ⟨j, js, hj⟩ : ∃ j js, cs ++ b :: qs = j :: js :=
      List.exists_cons_of_ne_nil (List.append_ne_nil_of_right_ne_nil cs (List.cons_ne_nil b qs))
    have h' : write o v (k :: l :: ks) = .value n := hl ▸ h
    obtain ⟨hp, m, hm, rfl⟩ := write_cons h'
    rw [← hl] at hm
    show read (step (.value (o.set k m)) k) (cs ++ b :: qs) =
      read (step (.value o) k) (cs ++ b :: qs)
    rw [step_set_self ho, ih (isPlainObject_asObject (o.get k)) hm]
    cases hk : (o.get k).isPlainObject with
    | true => rw [asObject_of hk, step_of_isPlainObject hk]
    | false =>
      -- there was nothing, and the new object inherits nothing that the path reads
      rw [asObject_of_not hk] at hm ⊢
      rw [read_empty_beside hb hm, hj, read_step_of_not_object hk hp]

theorem setField_same {fs : List (String × Value)} (h : fs.lookup k = some v) :
    setField k v fs = fs := by
  induction fs with
  | nil => cases h
  | cons f fs ih =>
    obtain ⟨l, w⟩ := f
    rw [lookup_cons] at h
    rw [setField]
    by_cases hl : l = k
    · rw [if_pos hl.symm] at h
      rw [if_pos hl, hl, Option.some.inj h]
    · rw [if_neg (Ne.symm hl)] at h
      rw [if_neg hl, ih h]

/-- **Writing what is read changes nothing.** -/
theorem write_same (hv : v ≠ undefined) (hr : read (.value o) parts = .value v)
    (h : write o v parts = .value n) : n = o := by
  induction parts generalizing o n with
  | nil =>
    cases h
    rfl
  | cons k ks ih =>
    -- what the path reads is own: nothing inherited holds a value
    have hown : ∀ ls, read (step (.value o) k) ls = .value v →
        step (.value o) k ≠ .prototype → ∃ fs w, o = obj fs ∧ fs.lookup k = some w := by
      intro ls hls hp
      cases o with
      | obj fs =>
        cases hk : fs.lookup k with
        | some w => exact ⟨fs, w, rfl, hk⟩
        | none =>
          rw [step_obj, hk] at hls hp
          exfalso
          rcases inherited_cases k with ⟨-, hi⟩ | ⟨-, hi⟩ | hi
          · exact hp hi
          · change read (inherited k) ls = _ at hls
            rw [hi] at hls
            cases ls with
            | nil => cases hls
            | cons l ls => exact hv (Ref.value.inj ((read_builtin k l ls).symm.trans hls)).symm
          · change read (inherited k) ls = _ at hls
            rw [hi, read_undefined] at hls
            exact hv (Ref.value.inj hls).symm
      | _ => exact absurd (Ref.value.inj ((read_undefined ls).symm.trans hls)).symm hv
    obtain ⟨fs, w, rfl, hw⟩ := hown ks hr (write_head h)
    have hstep : step (.value (obj fs)) k = .value w := by
      rw [step_obj, hw]
      rfl
    have hget : (obj fs).get k = w := by
      rw [Value.get, hw]
      rfl
    cases ks with
    | nil =>
      have hwv : w = v := Ref.value.inj (hstep.symm.trans hr)
      rw [(write_singleton h).2]
      exact congrArg obj (setField_same (hwv ▸ hw))
    | cons l ks =>
      obtain ⟨-, m, hm, rfl⟩ := write_cons h
      rw [hget] at hm
      have hrest : read (.value w) (l :: ks) = .value v := hstep ▸ hr
      cases hobj : w.isPlainObject with
      | false =>
        rw [read_of_not_object hobj] at hrest
        exact absurd (Ref.value.inj hrest).symm hv
      | true =>
        rw [asObject_of hobj] at hm
        have hmw : m = w := ih hrest hm
        exact congrArg obj (setField_same (hmw ▸ hw))

theorem setField_setField (k : String) (v w : Value) (fs : List (String × Value)) :
    setField k w (setField k v fs) = setField k w fs := by
  induction fs with
  | nil => exact if_pos rfl
  | cons f fs ih =>
    obtain ⟨l, u⟩ := f
    rw [setField, setField]
    by_cases hl : l = k
    · rw [if_pos hl, if_pos hl]
      exact if_pos rfl
    · rw [if_neg hl, if_neg hl, setField, if_neg hl, ih]

theorem set_set (o v w : Value) (k : String) : (o.set k v).set k w = o.set k w := by
  cases o with
  | obj fs => exact congrArg obj (setField_setField k v w fs)
  | _ => rfl

/-- **The second of two writes wins.** -/
theorem write_write (ho : o.isPlainObject = true) (h : write o v parts = .value n) (w : Value) :
    write n w parts = write o w parts := by
  induction parts generalizing o n with
  | nil =>
    cases h
    rfl
  | cons k ks ih =>
    cases ks with
    | nil =>
      obtain ⟨hp, rfl⟩ := write_singleton h
      rw [write, write, if_neg hp, step_set_self ho, if_neg nofun, set_set]
    | cons l ks =>
      obtain ⟨hp, m, hm, rfl⟩ := write_cons h
      have hobj := isPlainObject_asObject (o.get k)
      have hm' := ih hobj hm
      rw [write, write, if_neg hp, step_set_self ho, if_neg nofun, get_set_self ho,
        asObject_of (isPlainObject_write hobj hm), hm']
      cases write (asObject (o.get k)) w (l :: ks) with
      | prototype => rfl
      | value u => exact congrArg Written.value (set_set o m u k)

/-- **Without `Existing`**, some path beside the written one reads a function that the created
object inherits, where it read nothing. -/
theorem not_existing_seen (ho : o.isPlainObject = true) (hex : ¬Existing o parts)
    (h : write o v parts = .value n) :
    ∃ cs k b, (cs ++ [k]) <+: parts ∧ inherited b = .builtin b ∧ b ∈ ["toString", "valueOf"] ∧
      ¬Overlap parts (cs ++ [k, b]) ∧
        read (.value n) (cs ++ [k, b]) ≠ read (.value o) (cs ++ [k, b]) := by
  induction parts generalizing o n with
  | nil => exact absurd trivial hex
  | cons k ks ih =>
    cases ks with
    | nil => exact absurd trivial hex
    | cons l ks =>
      obtain ⟨hp, m, hm, rfl⟩ := write_cons h
      cases hk : (o.get k).isPlainObject with
      | true =>
        rw [asObject_of hk] at hm
        obtain ⟨cs, j, b, hcs, hb, hmem, hno, hne⟩ := ih hk (fun hrest => hex ⟨hk, hrest⟩) hm
        refine ⟨k :: cs, j, b, List.cons_prefix_cons.mpr ⟨rfl, hcs⟩, hb, hmem, ?_, ?_⟩
        · rintro (hover | hover)
          · exact hno (.inl (List.cons_prefix_cons.mp hover).2)
          · exact hno (.inr (List.cons_prefix_cons.mp hover).2)
        · show read (step _ k) (cs ++ [j, b]) ≠ read (step _ k) (cs ++ [j, b])
          rw [step_set_self ho, step_of_isPlainObject hk]
          exact hne
      | false =>
        rw [asObject_of_not hk] at hm
        obtain ⟨b, hmem, hbl⟩ : ∃ b ∈ ["toString", "valueOf"], b ≠ l := by
          by_cases hl : "toString" = l
          · exact ⟨"valueOf", .tail _ (.head _), hl ▸ by decide⟩
          · exact ⟨"toString", .head _, hl⟩
        have hb : inherited b = .builtin b := by
          rcases List.mem_pair.mp hmem with rfl | rfl <;> rfl
        have hstep : step (.value m) b = .builtin b := by
          cases ks with
          | nil => rw [(write_singleton hm).2, step_set_of_ne hbl, step_empty, hb]
          | cons j js =>
            obtain ⟨-, u, -, rfl⟩ := write_cons hm
            rw [step_set_of_ne hbl, step_empty, hb]
        refine ⟨[], k, b, List.cons_prefix_cons.mpr ⟨rfl, List.nil_prefix⟩, hb, hmem, ?_, ?_⟩
        · rintro (hover | hover)
          · exact hbl (List.cons_prefix_cons.mp (List.cons_prefix_cons.mp hover).2).1.symm
          · exact hbl (List.cons_prefix_cons.mp (List.cons_prefix_cons.mp hover).2).1
        · show step (step _ k) b ≠ read (step _ k) [b]
          rw [step_set_self ho, hstep, read_step_of_not_object hk hp]
          nofun

/-- what is read below a value at names that nothing inherits is smaller, or `undefined`. -/
theorem read_smaller (hparts : ∀ k ∈ parts, inherited k = .value undefined) (hne : parts ≠ [])
    (h : read (.value o) parts = .value w) : w = undefined ∨ sizeOf w < sizeOf o := by
  induction parts generalizing o with
  | nil => exact absurd rfl hne
  | cons k ks ih =>
    have hrest : ∀ j ∈ ks, inherited j = .value undefined := fun j hj => hparts j (.tail _ hj)
    rcases step_cases o k with hk | ⟨-, -, hk⟩
    · rw [read_cons, hk] at h
      have hsize : o.get k = undefined ∨ sizeOf (o.get k) < sizeOf o := sizeOf_get o k
      rcases hsize with hu | hlt
      · rw [hu, read_undefined] at h
        exact .inl (Ref.value.inj h).symm
      · cases ks with
        | nil =>
          right
          rw [← Ref.value.inj h]
          exact hlt
        | cons j js =>
          rcases ih hrest (List.cons_ne_nil j js) h with hu | hlt'
          · exact .inl hu
          · exact .inr (Nat.lt_trans hlt' hlt)
    · rw [read_cons, hk, hparts k (.head _), read_undefined] at h
      exact .inl (Ref.value.inj h).symm

end
end Chain
end Js
