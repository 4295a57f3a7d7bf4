import Mathlib.Data.List.Infix
import Mathlib.Data.List.DropRight
import Mathlib.Data.Rat.Init

/-!
# JavaScript values without functions

* `Value`      `undefined`, `null`, booleans, numbers (finite, as rationals), strings, arrays and
               plain objects (own enumerable properties, in insertion order);
* `Value.decEq` equality of values is decidable; on primitive values it is `===`;
* `get`, `set` `o[k]` and `o[k] = v` on a plain object (`undefined` when there is no such property);
* `truthy`, `isPlainObject`, `isString`: the tests JavaScript code makes;
* `trim`, `includes`, `blank`, `stripSlashes`: operations on strings.
-/

set_option autoImplicit false

namespace Js

/-- A JavaScript value.  See the file header. -/
inductive Value where
  | undefined
  | null
  | bool (b : Bool)
  | num (q : Rat)
  | str (s : String)
  | arr (vs : List Value)
  | obj (fs : List (String × Value))
  deriving Repr, Inhabited

/-! ## equality -/

mutual

/-- equality of values is decidable. -/
def Value.decEq : (a b : Value) → Decidable (a = b)
  | .undefined, .undefined => isTrue rfl
  | .null, .null => isTrue rfl
  | .bool a, .bool b => decidable_of_iff (a = b) (by simp)
  | .num a, .num b => decidable_of_iff (a = b) (by simp)
  | .str a, .str b => decidable_of_iff (a = b) (by simp)
  | .arr a, .arr b => @decidable_of_iff _ (a = b) (by simp) (decEqValues a b)
  | .obj a, .obj b => @decidable_of_iff _ (a = b) (by simp) (decEqFields a b)
  | .undefined, .null | .undefined, .bool _ | .undefined, .num _ | .undefined, .str _
  | .undefined, .arr _ | .undefined, .obj _ | .null, .undefined | .null, .bool _ | .null, .num _
  | .null, .str _ | .null, .arr _ | .null, .obj _ | .bool _, .undefined | .bool _, .null
  | .bool _, .num _ | .bool _, .str _ | .bool _, .arr _ | .bool _, .obj _ | .num _, .undefined
  | .num _, .null | .num _, .bool _ | .num _, .str _ | .num _, .arr _ | .num _, .obj _
  | .str _, .undefined | .str _, .null | .str _, .bool _ | .str _, .num _ | .str _, .arr _
  | .str _, .obj _ | .arr _, .undefined | .arr _, .null | .arr _, .bool _ | .arr _, .num _
  | .arr _, .str _ | .arr _, .obj _ | .obj _, .undefined | .obj _, .null | .obj _, .bool _
  | .obj _, .num _ | .obj _, .str _ | .obj _, .arr _ => isFalse (by simp)

/-- equality of arrays. -/
def decEqValues : (a b : List Value) → Decidable (a = b)
  | [], [] => isTrue rfl
  | [], _ :: _ => isFalse (by simp)
  | _ :: _, [] => isFalse (by simp)
  | a :: as, b :: bs =>
    @decidable_of_iff _ (a = b ∧ as = bs) (by simp)
      (@instDecidableAnd _ _ (Value.decEq a b) (decEqValues as bs))

/-- equality of the properties of two objects. -/
def decEqFields : (a b : List (String × Value)) → Decidable (a = b)
  | [], [] => isTrue rfl
  | [], _ :: _ => isFalse (by simp)
  | _ :: _, [] => isFalse (by simp)
  | (k, a) :: as, (l, b) :: bs =>
    @decidable_of_iff _ (k = l ∧ a = b ∧ as = bs) (by simp [and_assoc])
      (@instDecidableAnd _ _ inferInstance
        (@instDecidableAnd _ _ (Value.decEq a b) (decEqFields as bs)))

end

instance : DecidableEq Value := Value.decEq

/-! ## strings -/

/-- the characters that `trim` removes -/
def isSpace (c : Char) : Bool :=
  c.toNat ∈ [9, 10, 11, 12, 13, 32, 160, 5760, 8232, 8233, 8239, 8287, 12288, 65279] ||
    (8192 ≤ c.toNat && c.toNat ≤ 8202)

/-- `s.trim()` -/
def trim (s : String) : String :=
  String.ofList ((s.toList.dropWhile isSpace).rdropWhile isSpace)

/-- what was trimmed has nothing more to trim. -/
@[simp] theorem trim_trim (s : String) : trim (trim s) = trim s := by
  have key : ∀ l : List Char, ((l.dropWhile isSpace).rdropWhile isSpace).dropWhile isSpace =
      (l.dropWhile isSpace).rdropWhile isSpace := by
    intro l
    refine (List.dropWhile_eq_self_iff ..).mpr fun hl => ?_
    -- the first character is that of `l.dropWhile isSpace`
    obtain ⟨t, ht⟩ := List.rdropWhile_prefix isSpace (l.dropWhile isSpace)
    have hpos : 0 < (l.dropWhile isSpace).length := by
      rw [← ht, List.length_append]
      omega
    have hhead := List.dropWhile_get_zero_not isSpace l hpos
    simp only [List.get_eq_getElem] at hhead
    rwa [List.getElem_of_eq ht.symm, List.getElem_append_left hl] at hhead
  unfold trim
  rw [String.toList_ofList, key, List.rdropWhile_idempotent]

theorem trim_of_no_space {s : String} (h : ∀ c ∈ s.toList, isSpace c = false) : trim s = s := by
  have hdrop : s.toList.dropWhile isSpace = s.toList :=
    List.dropWhile_eq_self_iff.mpr fun hl => by simpa using h _ (List.getElem_mem hl)
  have hrdrop : s.toList.rdropWhile isSpace = s.toList :=
    List.rdropWhile_eq_self_iff.mpr fun hl => by simpa using h _ (List.getLast_mem hl)
  rw [trim, hdrop, hrdrop, String.ofList_toList]

/-- `s.includes(t)` -/
def includes (s t : String) : Bool := t.toList <:+: s.toList

/-- `s.replace(/\/+$/, "")` -/
def stripSlashes (s : String) : String :=
  String.ofList (s.toList.rdropWhile (· = '/'))

/-- `s.toLowerCase()`, on the letters of hexadecimal strings, hosts and messages. -/
def toLowerCase (s : String) : String := String.ofList (s.toList.map Char.toLower)

/-- `!s.trim()` -/
def blank (s : String) : Bool := s.toList.all isSpace

/-- `/^[0-9a-f]{64}$/` -/
def isHexKey (s : String) : Bool :=
  s.toList.length = 64 && s.toList.all fun c =>
    ('0' ≤ c && c ≤ '9') || ('a' ≤ c && c ≤ 'f')

/-- `s.startsWith(t)` -/
def startsWith (s t : String) : Bool := t.toList <+: s.toList

/-! ## properties and tests -/

namespace Value

/-- `o[k]` on a plain object; `undefined` on every other value. -/
def get (v : Value) (k : String) : Value :=
  match v with
  | obj fs => (fs.lookup k).getD undefined
  | _ => undefined

/-- the properties after `o[k] = v`. -/
def setField (k : String) (v : Value) : List (String × Value) → List (String × Value)
  | [] => [(k, v)]
  | (l, w) :: fs => if l = k then (k, v) :: fs else (l, w) :: setField k v fs

/-- `o[k] = v` on a plain object. -/
def set (o : Value) (k : String) (v : Value) : Value :=
  match o with
  | obj fs => obj (setField k v fs)
  | o => o

/-- `Boolean(v)` -/
def truthy : Value → Bool
  | undefined | null => false
  | bool b => b
  | num q => q ≠ 0
  | str s => s ≠ ""
  | arr _ | obj _ => true

/-- `v !== null && typeof v === "object" && !Array.isArray(v)` -/
def isPlainObject : Value → Bool
  | obj _ => true
  | _ => false

/-- `{ ...o, k: v, … }` -/
def spread (o : Value) (fs : List (String × Value)) : Value :=
  fs.foldl (fun o f => o.set f.1 f.2) (if o.isPlainObject then o else obj [])

/-- `v !== null && typeof v === "object"` -/
def isObject : Value → Bool
  | obj _ | arr _ => true
  | _ => false

/-- the elements of an array, when it is one. -/
def elements : Value → Option (List Value)
  | arr vs => some vs
  | _ => none

/-- `typeof v === "string"` -/
def isString : Value → Bool
  | str _ => true
  | _ => false

/-- `v == null` -/
def nullish : Value → Bool
  | undefined | null => true
  | _ => false

/-- `getObject`: a plain object, or `null`. -/
def getObject (v : Value) : Value := if v.isPlainObject then v else null

/-- `getString`: the trimmed text of a string that is not blank. -/
def getString : Value → Option String
  | str s => if trim s = "" then none else some (trim s)
  | _ => none

/-- the value of a `string | null` -/
def ofOption : Option String → Value
  | some s => str s
  | none => null

/-- `a ?? b` -/
def orElse (a b : Value) : Value :=
  match a with
  | undefined | null => b
  | v => v

section
variable {o a b v : Value} {k l : String}

theorem lookup_cons (k l : String) (v : Value) (fs : List (String × Value)) :
    ((k, v) :: fs).lookup l = if l = k then some v else fs.lookup l := by
  rw [List.lookup_cons]
  by_cases h : l = k
  · rw [if_pos h, beq_iff_eq.mpr h]
  · rw [if_neg h, beq_eq_false_iff_ne.mpr h]

theorem lookup_setField (k l : String) (v : Value) (fs : List (String × Value)) :
    (setField k v fs).lookup l = if l = k then some v else fs.lookup l := by
  induction fs with
  | nil => exact lookup_cons k l v []
  | cons f fs ih =>
    obtain ⟨m, w⟩ := f
    unfold setField
    split
    · rename_i hm
      rw [lookup_cons, lookup_cons, hm]
      split <;> rfl
    · rename_i hm
      rw [lookup_cons, lookup_cons, ih]
      by_cases h : l = m
      · rw [if_pos h, if_pos h, if_neg fun e => hm (h.symm.trans e)]
      · rw [if_neg h, if_neg h]

@[simp] theorem get_set_self (ho : o.isPlainObject = true) : (o.set k v).get k = v := by
  cases o <;> simp_all [isPlainObject, set, get, lookup_setField]

@[simp] theorem get_set_of_ne (h : l ≠ k) : (o.set k v).get l = o.get l := by
  cases o <;> simp [set, get, lookup_setField, h]

@[simp] theorem isPlainObject_set : (o.set k v).isPlainObject = o.isPlainObject := by
  cases o <;> rfl

/-- the last value that a spread gives a property. -/
theorem get_spread (o : Value) (fs : List (String × Value)) (k : String) :
    (o.spread fs).get k = (fs.reverse.lookup k).getD (o.get k) ∧
      (o.spread fs).isPlainObject = true := by
  induction fs using List.reverseRecOn with
  | nil => cases o <;> exact ⟨rfl, rfl⟩
  | append_singleton fs f ih =>
    obtain ⟨l, w⟩ := f
    have hs : o.spread (fs ++ [(l, w)]) = (o.spread fs).set l w := by
      simp [spread, List.foldl_append]
    rw [hs, List.reverse_append]
    refine ⟨?_, isPlainObject_set.trans ih.2⟩
    show _ = (((l, w) :: fs.reverse).lookup k).getD _
    rw [lookup_cons]
    by_cases h : k = l
    · rw [if_pos h, h, get_set_self ih.2, Option.getD_some]
    · rw [if_neg h, get_set_of_ne h, ih.1]

@[simp] theorem isPlainObject_spread (o : Value) (fs : List (String × Value)) :
    (o.spread fs).isPlainObject = true := (get_spread o fs "").2

theorem getObject_of_isPlainObject (h : o.isPlainObject = true) : o.getObject = o := if_pos h

@[simp] theorem getObject_spread (o : Value) (fs : List (String × Value)) :
    (o.spread fs).getObject = o.spread fs := getObject_of_isPlainObject (isPlainObject_spread o fs)

theorem getString_eq_some {s : String} :
    v.getString = some s ↔ ∃ t, v = str t ∧ trim t = s ∧ s ≠ "" := by
  cases v with
  | str t =>
    show (if trim t = "" then none else some (trim t)) = some s ↔ _
    by_cases h : trim t = ""
    · rw [if_pos h]
      refine ⟨nofun, fun ⟨t', e, e', hs⟩ => absurd ?_ hs⟩
      rw [← e', ← Value.str.inj e, h]
    · rw [if_neg h]
      refine ⟨fun e => ⟨t, rfl, Option.some.inj e, Option.some.inj e ▸ h⟩, fun ⟨t', e, e', _⟩ => ?_⟩
      rw [Value.str.inj e, e']
  | _ => exact ⟨nofun, nofun⟩

/-- a trimmed text is read as it is. -/
theorem getString_str {s : String} (h : v.getString = some s) : (str s).getString = some s := by
  obtain ⟨t, -, rfl, hne⟩ := getString_eq_some.mp h
  exact getString_eq_some.mpr ⟨trim t, rfl, trim_trim t, hne⟩

theorem truthy_of_getString {s : String} (h : v.getString = some s) : (str s).truthy = true := by
  obtain ⟨t, -, -, hne⟩ := getString_eq_some.mp h
  simpa [truthy] using hne

theorem getString_of_nullish (h : v.nullish = true) : v.getString = none := by
  cases v with
  | undefined | null => rfl
  | _ => cases h

theorem nullish_or_orElse (a b : Value) : a.nullish = true ∧ a.orElse b = b ∨ a.orElse b = a := by
  cases a with
  | undefined | null => exact .inl ⟨rfl, rfl⟩
  | _ => exact .inr rfl

theorem getString_orElse_null (a : Value) : (a.orElse null).getString = a.getString := by
  rcases nullish_or_orElse a null with ⟨ha, e⟩ | e
  · rw [e, getString_of_nullish ha]
    rfl
  · rw [e]

/-- a value that is not nullish is its own `??`. -/
theorem orElse_of_truthy (h : a.truthy = true) : a.orElse b = a := by
  cases a <;> first | rfl | cases h

end

end Value

end Js
