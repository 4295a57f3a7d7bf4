import WmAutopilot.Js.Prototype

/-!
# Copies through JSON

* `jsonCopy`        `JSON.parse(JSON.stringify(v))` of an object: a property that is `undefined` is
                    dropped, and an element of an array that is `undefined` becomes `null`;
* `Copied`          what is read of an object and of its copy;
* `read_jsonCopy`   **a path reads the copy of what it reads of the object**.
-/

set_option autoImplicit false

namespace Js
namespace Chain
open Value

mutual

/-- `JSON.parse(JSON.stringify(v))`.  See the file header. -/
def jsonCopy : Value → Value
  | arr vs => arr (copyItems vs)
  | obj fs => obj (copyFields fs)
  | v => v

def copyItems : List Value → List Value
  | [] => []
  | undefined :: vs => null :: copyItems vs
  | v :: vs => jsonCopy v :: copyItems vs

/-- a property that comes later counts for nothing when its name was there before. -/
def copyFields : List (String × Value) → List (String × Value)
  | [] => []
  | (k, undefined) :: fs => (copyFields fs).filter (·.1 ≠ k)
  | (k, v) :: fs => (k, jsonCopy v) :: copyFields fs

end

section
variable {v w : Value} {r r' : Ref} {k : String} {parts : List String}

theorem length_copyItems (vs : List Value) : (copyItems vs).length = vs.length := by
  induction vs with
  | nil => rfl
  | cons v vs ih => cases v <;> exact congrArg (· + 1) ih

theorem isPlainObject_jsonCopy (h : v.isPlainObject = true) :
    (jsonCopy v).isPlainObject = true := by
  cases v with
  | obj fs =>
    unfold jsonCopy
    rfl
  | _ => cases h

theorem lookup_filter_ne {l : String} (h : l ≠ k) (fs : List (String × Value)) :
    (fs.filter (·.1 ≠ k)).lookup l = fs.lookup l := by
  induction fs with
  | nil => rfl
  | cons f fs ih =>
    obtain ⟨m, u⟩ := f
    by_cases hm : m = k
    · rw [List.filter_cons_of_neg (by simpa using hm), ih, lookup_cons,
        if_neg fun e => h (e.trans hm)]
    · rw [List.filter_cons_of_pos (by simpa using hm), lookup_cons, lookup_cons, ih]

theorem lookup_filter_self (fs : List (String × Value)) :
    (fs.filter (·.1 ≠ k)).lookup k = none := by
  induction fs with
  | nil => rfl
  | cons f fs ih =>
    obtain ⟨m, u⟩ := f
    by_cases hm : m = k
    · rw [List.filter_cons_of_neg (by simpa using hm), ih]
    · rw [List.filter_cons_of_pos (by simpa using hm), lookup_cons, if_neg (Ne.symm hm), ih]

/-- the properties of a copy. -/
theorem lookup_copyFields (fs : List (String × Value)) (k : String) :
    (copyFields fs).lookup k =
      (fs.lookup k).bind fun w => if w = undefined then none else some (jsonCopy w) := by
  induction fs with
  | nil =>
    unfold copyFields
    rfl
  | cons f fs ih =>
    obtain ⟨l, u⟩ := f
    rw [lookup_cons]
    by_cases hu : u = undefined
    · subst hu
      rw [copyFields]
      by_cases hk : k = l
      · rw [if_pos hk, hk, lookup_filter_self]
        rfl
      · rw [if_neg hk, lookup_filter_ne hk, ih]
    · have hcons : copyFields ((l, u) :: fs) = (l, jsonCopy u) :: copyFields fs := by
        cases u <;> first | exact absurd rfl hu | (rw [copyFields]; nofun)
      rw [hcons, lookup_cons]
      by_cases hk : k = l
      · rw [if_pos hk, if_pos hk, Option.bind_some, if_neg hu]
      · rw [if_neg hk, if_neg hk, ih]

/-- What a chain of reads has of an object, and of its copy: nothing of either, or a value and its
copy. -/
inductive Copied : Ref → Ref → Prop where
  | value {u : Value} (h : u ≠ undefined) : Copied (.value u) (.value (jsonCopy u))
  | nothing {r r' : Ref} (h : r = .value undefined ∨ ∃ n, r = .builtin n)
      (h' : r' = .value undefined ∨ ∃ n, r' = .builtin n) : Copied r r'

theorem copied_undefined : Copied (.value undefined) (.value undefined) :=
  .nothing (.inl rfl) (.inl rfl)

theorem inherited_nothing (h : k ≠ "__proto__") :
    inherited k = .value undefined ∨ ∃ n, inherited k = .builtin n := by
  rcases inherited_cases k with ⟨hk, -⟩ | ⟨-, hi⟩ | hi
  · exact absurd hk h
  · exact .inr ⟨k, hi⟩
  · exact .inl hi

/-- **One read keeps it.** -/
theorem Copied.step (h : Copied r r') (hk : k ≠ "__proto__") :
    Copied (Chain.step r k) (Chain.step r' k) := by
  cases h with
  | nothing h h' =>
    have hstep : ∀ {r : Ref}, (r = .value undefined ∨ ∃ n, r = .builtin n) →
        Chain.step r k = .value undefined := by
      rintro _ (rfl | ⟨n, rfl⟩) <;> rfl
    rw [hstep h, hstep h']
    exact copied_undefined
  | @value u hu =>
    cases u with
    | obj fs =>
      rw [jsonCopy, step_obj, step_obj, lookup_copyFields]
      cases hl : fs.lookup k with
      | none => exact .nothing (inherited_nothing hk) (inherited_nothing hk)
      | some w =>
        rw [Option.bind_some]
        by_cases hw : w = undefined
        · rw [if_pos hw, hw]
          exact .nothing (.inl rfl) (inherited_nothing hk)
        · rw [if_neg hw]
          exact .value hw
    | arr vs =>
      rw [jsonCopy]
      exact copied_undefined
    | undefined => exact absurd rfl hu
    | _ => exact copied_undefined

/-- **A path reads the copy** of what it reads of the object. -/
theorem read_jsonCopy (h : Copied r r') (hparts : "__proto__" ∉ parts) :
    Copied (read r parts) (read r' parts) := by
  induction parts generalizing r r' with
  | nil => exact h
  | cons k ks ih =>
    have hk : k ≠ "__proto__" := fun e => hparts (e ▸ List.mem_cons_self)
    exact ih (h.step hk) fun hks => hparts (List.mem_cons_of_mem k hks)

/-- a value that is read is read of the copy. -/
theorem read_jsonCopy_value (hv : v ≠ undefined) (hparts : "__proto__" ∉ parts)
    (h : read (.value v) parts = .value w) (hw : w ≠ undefined) :
    read (.value (jsonCopy v)) parts = .value (jsonCopy w) := by
  have hcopied := read_jsonCopy (.value hv) hparts
  rw [h] at hcopied
  generalize hr : read (.value (jsonCopy v)) parts = r' at hcopied
  cases hcopied with
  | value _ => rfl
  | nothing hnone _ =>
    rcases hnone with hnone | ⟨n, hnone⟩
    · exact absurd (Ref.value.inj hnone) hw
    · cases hnone

end
end Chain
end Js
