import Mathlib.Data.List.Infix
import WmAutopilot.Js.Value

/-!
# Paths into a value

* `getParts`, `setParts`   read and write below an object, part by part;
* `pathParts`              the parts of a text such as `$.a.b`;
* `resolvePath`, `setPath` read and write at such a text;
* `Overlap`                one list of parts is the start of the other;
* `getParts_setParts`      **a write leaves alone what it does not overlap**;
* `pathParts_below`        the parts of a path that extends another.
-/

set_option autoImplicit false

namespace Js
namespace Path
open Value

/-- what is below a value. -/
def getParts (v : Value) (parts : List String) : Value := parts.foldl Value.get v

/-- an object as it is; `{}` in place of anything else. -/
def asObject (v : Value) : Value := if v.isPlainObject then v else obj []

/-- the value with `v` below it. -/
def setParts (target : Value) (v : Value) : List String → Value
  | [] => target
  | [k] => target.set k v
  | k :: l :: ks => target.set k (setParts (asObject (target.get k)) v (l :: ks))

/-- one list of parts is the start of the other. -/
def Overlap (p q : List String) : Prop := p <+: q ∨ q <+: p

theorem getParts_undefined (parts : List String) : getParts undefined parts = undefined := by
  induction parts with
  | nil => rfl
  | cons k ks ih => exact ih

theorem getParts_cons (v : Value) (k : String) (ks : List String) :
    getParts v (k :: ks) = getParts (v.get k) ks := rfl

/-- what is below a value that is no object is `undefined`, as it is below `{}`. -/
theorem getParts_asObject (v : Value) {k : String} {ks : List String} :
    getParts (asObject v) (k :: ks) = getParts v (k :: ks) := by
  unfold asObject
  split
  · rfl
  · rename_i hno
    rw [getParts_cons, getParts_cons]
    cases v with
    | obj fs => exact absurd rfl hno
    | _ => rfl

/-- **A write leaves alone what it does not overlap.** -/
theorem getParts_setParts {p q : List String} (h : ¬Overlap p q) (target v : Value) :
    getParts (setParts target v p) q = getParts target q := by
  induction p generalizing target q with
  | nil => exact absurd (.inl List.nil_prefix) h
  | cons k ks ih =>
    cases q with
    | nil => exact absurd (.inr List.nil_prefix) h
    | cons l ls =>
      by_cases hkl : l = k
      · subst hkl
        have hrest : ¬Overlap ks ls := by
          intro hover
          rcases hover with hover | hover
          · exact h (.inl (List.cons_prefix_cons.mpr ⟨rfl, hover⟩))
          · exact h (.inr (List.cons_prefix_cons.mpr ⟨rfl, hover⟩))
        cases ks with
        | nil => exact absurd (.inl List.nil_prefix) hrest
        | cons m ms =>
          cases ls with
          | nil => exact absurd (.inr List.nil_prefix) hrest
          | cons n ns =>
            rw [setParts]
            show getParts ((target.set l _).get l) (n :: ns) = getParts (target.get l) (n :: ns)
            by_cases hobj : target.isPlainObject = true
            · rw [get_set_self hobj, ih hrest, getParts_asObject]
            · have hset : ∀ w, target.set l w = target := by
                intro w
                cases target with
                | obj fs => exact absurd rfl hobj
                | _ => rfl
              rw [hset]
      · cases ks with
        | nil => rw [setParts, getParts_cons, getParts_cons, get_set_of_ne hkl]
        | cons m ms => rw [setParts, getParts_cons, getParts_cons, get_set_of_ne hkl]

/-! ## texts -/

/-- the parts of a text such as `$.a.b`. -/
def pathParts (path : String) : List String :=
  let normalized := if "$.".toList <+: path.toList then path.toList.drop 2 else path.toList
  (normalized.splitOn '.').map String.ofList

/-- `resolvePath` -/
def resolvePath (input : Value) (path : String) : Value :=
  if pathParts path = ["$"] ∨ pathParts path = [""] then input else getParts input (pathParts path)

/-- the parts that `setPath` writes to. -/
def writeParts (path : String) : List String := (pathParts path).filter (· ≠ "")

/-- `setPath`; `none`: the path is the root. -/
def setPath (target : Value) (path : String) (v : Value) : Option Value :=
  if writeParts path = [] then none else some (setParts target v (writeParts path))

/-- `assignOutput`; `none`: it throws. -/
def assignOutput (input result : Value) (assign : String) : Option Value :=
  if assign = "" then some result else setPath input assign result

/-- **The parts of a path that starts with two names**, followed by anything or nothing. -/
theorem pathParts_below {a b rest : List Char} (ha : '.' ∉ a) (hb : '.' ∉ b)
    (hrest : rest = [] ∨ ∃ t, rest = '.' :: t) :
    [String.ofList a, String.ofList b] <+:
      pathParts (String.ofList ("$.".toList ++ a ++ '.' :: b ++ rest)) := by
  have hnormal : pathParts (String.ofList ("$.".toList ++ a ++ '.' :: b ++ rest)) =
      ((a ++ '.' :: (b ++ rest)).splitOn '.').map String.ofList := by
    unfold pathParts
    simp only [String.toList_ofList, List.append_assoc, List.cons_append]
    rw [if_pos (List.prefix_append _ _)]
    rfl
  rw [hnormal, List.splitOn_append_cons_self_of_not_mem ha, List.map_cons]
  refine List.cons_prefix_cons.mpr ⟨rfl, ?_⟩
  rcases hrest with rfl | ⟨t, rfl⟩
  · rw [List.append_nil, List.splitOn_eq_singleton hb]
    exact List.prefix_rfl
  · rw [List.splitOn_append_cons_self_of_not_mem hb, List.map_cons]
    exact List.cons_prefix_cons.mpr ⟨rfl, List.nil_prefix⟩

end Path
end Js
