import WmAutopilot.Js.Prototype
import WmAutopilot.Js.Segments

/-!
# Assign paths of pipeline steps

A step's result is written into the pipeline's data at a path, and later steps read it back.

* `readParts`, `resolvePath`   how a path is split for a read, and the read;
* `setPath`, `assignOutput`   the write, whose path drops the empty parts;
* `Lens`                      what a reader expects of a write: it is read back, everything that
                              diverges from it stays, and a second write wins;
* `plain_lens`                a path without empty parts is a lens for the names that no object
                              inherits;
* `lens_iff`                  **a write is a lens exactly when its path reads as it is written**,
                              below objects that exist.
-/

set_option autoImplicit false

namespace WmAutopilot
namespace Pipelines
namespace PathLens
open Js Js.Value Js.Path Js.Chain

/-- the parts that `resolvePath` reads; the root has none. -/
def readParts (path : String) : List String :=
  if pathParts path = ["$"] ∨ pathParts path = [""] then [] else pathParts path

/-- `resolvePath` -/
def resolvePath (input : Value) (path : String) : Ref := read (.value input) (readParts path)

/-- `setPath` -/
def setPath (target : Value) (path : String) (value : Value) : Except String Written :=
  if writeParts path = [] then .error "assign path cannot be root"
  else .ok (write target value (writeParts path))

/-- `assignOutput`: the write is to a `structuredClone` of the input, which stays as it is. -/
def assignOutput (input result : Value) (assign : String) : Except String Written :=
  if assign = "" then .ok (.value result) else setPath input assign result

/-- What is expected of a write of `v` to `p` that gave `next`. -/
structure Lens (input v : Value) (p : String) (next : Value) : Prop where
  written : resolvePath next p = .value v
  others : ∀ q, ¬Overlap (readParts p) (readParts q) → resolvePath next q = resolvePath input q
  second : ∀ w, assignOutput next w p = assignOutput input w p

/-- What `v` reads like, below the names that a path can spell. -/
def LooksLike (r : Ref) (v : Value) : Prop :=
  ∀ k : String, '.' ∉ k.toList → step r k = step (.value v) k

/-- When a write is a lens.  See the file header.  The second case is that of a path which reads
beside what it writes: the value was read there before, and the write changes nothing that a path
can read. -/
def Faithful (input v : Value) (p : String) : Prop :=
  readParts p = writeParts p ∧ Existing input (writeParts p) ∨
    ¬Overlap (readParts p) (writeParts p) ∧ resolvePath input p = .value v ∧
      (read (.value input) (writeParts p) = .value v ∨
        writeParts p = ["$"] ∧ LooksLike (step (.value input) "$") v)

section
variable {input v next : Value} {p q : String} {parts : List String}

/-! ## how paths are spelled -/

theorem dotFree_of_mem_pathParts {k : String} (h : k ∈ pathParts p) : '.' ∉ k.toList := by
  obtain ⟨part, hpart, rfl⟩ := List.mem_map.mp h
  rw [String.toList_ofList]
  exact sep_notMem_of_mem_splitOn hpart

theorem dotFree_of_mem_readParts {k : String} (h : k ∈ readParts p) : '.' ∉ k.toList := by
  unfold readParts at h
  split at h
  · cases h
  · exact dotFree_of_mem_pathParts h

theorem dotFree_of_mem_writeParts {k : String} (h : k ∈ writeParts p) : '.' ∉ k.toList :=
  dotFree_of_mem_pathParts (List.mem_of_mem_filter h)

/-- **Every list of parts is spelled by some path**, except the root's own spellings. -/
theorem exists_path (hdot : ∀ k ∈ parts, '.' ∉ k.toList) (hne : parts ≠ []) (hroot : parts ≠ ["$"])
    (hempty : parts ≠ [""]) : ∃ q, readParts q = parts := by
  refine ⟨String.ofList ("$.".toList ++ ['.'].intercalate (parts.map String.toList)), ?_⟩
  have hparts : pathParts
      (String.ofList ("$.".toList ++ ['.'].intercalate (parts.map String.toList))) = parts := by
    unfold pathParts
    simp only [String.toList_ofList]
    rw [if_pos (List.prefix_append _ _)]
    show (List.splitOn '.' (['.'].intercalate (parts.map String.toList))).map String.ofList = parts
    rw [List.splitOn_intercalate '.' ?_ ?_]
    · rw [List.map_map]
      exact (List.map_congr_left fun k _ => String.ofList_toList).trans (List.map_id parts)
    · intro l hl
      obtain ⟨k, hk, rfl⟩ := List.mem_map.mp hl
      exact hdot k hk
    · exact fun hnil => hne (List.map_eq_nil_iff.mp hnil)
  rw [readParts, hparts, if_neg (not_or.mpr ⟨hroot, hempty⟩)]

theorem readParts_ne_dollar (q : String) : readParts q ≠ ["$"] := by
  unfold readParts
  split
  · nofun
  · rename_i h
    exact fun heq => h (.inl heq)

/-- what is written is what is read, less its empty parts, unless the path is the root. -/
theorem writeParts_eq (hne : writeParts p ≠ []) :
    readParts p = [] ∧ writeParts p = ["$"] ∨ writeParts p = (readParts p).filter (· ≠ "") := by
  unfold readParts
  split
  · rename_i h
    rcases h with h | h
    · left
      refine ⟨rfl, ?_⟩
      rw [writeParts, h]
      rfl
    · exfalso
      apply hne
      rw [writeParts, h]
      rfl
  · exact .inr rfl

theorem writeParts_ne_empty {k : String} (h : k ∈ writeParts p) : k ≠ "" := by
  have hk := (List.mem_filter.mp h).2
  exact of_decide_eq_true hk

theorem inherited_empty : inherited "" = .value undefined := rfl

/-- a list of parts and the same less its empty parts diverge at an empty part, if they do. -/
theorem diverge_filter (h : ¬Overlap parts (parts.filter (· ≠ ""))) :
    ∃ cs a ps qs, a ≠ "" ∧ parts = cs ++ "" :: qs ∧ parts.filter (· ≠ "") = cs ++ a :: ps := by
  induction parts with
  | nil => exact absurd (overlap_nil_left _) h
  | cons k ks ih =>
    by_cases hk : k = ""
    · subst hk
      rw [List.filter_cons_of_neg (by decide)] at h ⊢
      cases hf : ks.filter (· ≠ "") with
      | nil =>
        rw [hf] at h
        exact absurd (overlap_nil_right _) h
      | cons a ps =>
        have ha : a ∈ ks.filter (· ≠ "") := by
          rw [hf]
          exact List.mem_cons_self
        exact ⟨[], a, ps, ks, of_decide_eq_true (List.mem_filter.mp ha).2, rfl, rfl⟩
    · have hf : (k :: ks).filter (· ≠ "") = k :: ks.filter (· ≠ "") :=
        List.filter_cons_of_pos (decide_eq_true hk)
      rw [hf] at h ⊢
      obtain ⟨cs, a, ps, qs, ha, hks, hfs⟩ := ih (by
        rintro (hover | hover)
        · exact h (.inl (List.cons_prefix_cons.mpr ⟨rfl, hover⟩))
        · exact h (.inr (List.cons_prefix_cons.mpr ⟨rfl, hover⟩)))
      exact ⟨k :: cs, a, ps, qs, ha, congrArg (k :: ·) hks, congrArg (k :: ·) hfs⟩

/-- a list of parts that overlaps the same less its empty parts ends in empty parts. -/
theorem overlap_filter (h : Overlap parts (parts.filter (· ≠ ""))) :
    ∃ rest, parts = parts.filter (· ≠ "") ++ rest ∧ ∀ k ∈ rest, k = "" := by
  have hstart : parts.filter (· ≠ "") <+: parts := by
    rcases h with h | h
    · rw [← h.eq_of_length_le (List.length_filter_le _ _)]
    · exact h
  obtain ⟨rest, hrest⟩ := hstart
  refine ⟨rest, hrest.symm, ?_⟩
  have hfilter := congrArg (List.filter (· ≠ "")) hrest
  rw [List.filter_append, List.filter_filter] at hfilter
  have hnil : rest.filter (· ≠ "") = [] := by
    simpa using hfilter
  intro k hk
  by_contra hne
  have := List.filter_eq_nil_iff.mp hnil k hk
  exact this (decide_eq_true hne)

/-- a path that overlaps what is below another overlaps the other. -/
theorem overlap_append {ps qs rest : List String} (h : Overlap ps (qs ++ rest)) :
    Overlap ps qs := by
  rcases h with h | h
  · exact List.prefix_or_prefix_of_prefix h (List.prefix_append qs rest)
  · exact .inr ((List.prefix_append qs rest).trans h)

/-! ## what a write does -/

theorem assignOutput_ok (hp : p ≠ "") (h : assignOutput input v p = .ok (.value next)) :
    writeParts p ≠ [] ∧ write input v (writeParts p) = .value next := by
  rw [assignOutput, if_neg hp, setPath] at h
  split at h
  · cases h
  · rename_i hne
    exact ⟨hne, Except.ok.inj h⟩

theorem second_write (hin : input.isPlainObject = true) (hp : p ≠ "")
    (h : assignOutput input v p = .ok (.value next)) (w : Value) :
    assignOutput next w p = assignOutput input w p := by
  obtain ⟨hne, hw⟩ := assignOutput_ok hp h
  rw [assignOutput, assignOutput, if_neg hp, if_neg hp, setPath, setPath, if_neg hne, if_neg hne,
    write_write hin hw]

/-- a path that reads beside what it writes reads what was there before. -/
theorem read_beside (hin : input.isPlainObject = true) (hne : writeParts p ≠ [])
    (hw : write input v (writeParts p) = .value next)
    (hno : ¬Overlap (readParts p) (writeParts p)) : resolvePath next p = resolvePath input p := by
  rcases writeParts_eq hne with ⟨hroot, -⟩ | hfilter
  · rw [hroot] at hno
    exact absurd (overlap_nil_left _) hno
  · rw [hfilter] at hno
    obtain ⟨cs, a, ps, qs, ha, hsegs, hwrite⟩ := diverge_filter hno
    rw [hfilter, hwrite] at hw
    rw [resolvePath, resolvePath, hsegs]
    exact read_write_beside hin inherited_empty (Ne.symm ha) hw

/-- **A path that overlaps what it writes reads the written value only if it is what it writes.** -/
theorem readParts_eq_of_written (hin : input.isPlainObject = true) (hv : v ≠ undefined)
    (hne : writeParts p ≠ []) (hw : write input v (writeParts p) = .value next)
    (hover : Overlap (readParts p) (writeParts p)) (h : resolvePath next p = .value v) :
    readParts p = writeParts p := by
  rcases writeParts_eq hne with ⟨hroot, hdollar⟩ | hfilter
  · -- the root reads the whole object, which has the value as a property
    exfalso
    rw [hdollar] at hw
    have hself : next = v := by
      rw [resolvePath, hroot] at h
      exact Ref.value.inj h
    have hget : next.get "$" = v := by
      rw [(write_singleton hw).2, get_set_self hin]
    rcases sizeOf_get next "$" with hu | hlt
    · exact hv (hget.symm.trans hu)
    · rw [hget, hself] at hlt
      exact Nat.lt_irrefl _ hlt
  · rw [hfilter] at hover
    obtain ⟨rest, hsegs, hrest⟩ := overlap_filter hover
    rw [← hfilter] at hsegs
    cases rest with
    | nil => rw [hsegs, List.append_nil]
    | cons k ks =>
      -- the value would have itself below it
      exfalso
      rw [resolvePath, hsegs, read_append, read_write_self hin hne hw] at h
      have hplain : ∀ j ∈ k :: ks, inherited j = .value undefined := fun j hj => by
        rw [hrest j hj, inherited_empty]
      rcases read_smaller hplain (List.cons_ne_nil k ks) h with hu | hlt
      · exact hv hu
      · exact Nat.lt_irrefl _ hlt

/-- **What a write that is a lens writes to exists.** -/
theorem existing_of_lens (hin : input.isPlainObject = true)
    (hw : write input v (writeParts p) = .value next) (hsegs : readParts p = writeParts p)
    (h : ∀ q, ¬Overlap (readParts p) (readParts q) → resolvePath next q = resolvePath input q) :
    Existing input (writeParts p) := by
  by_contra hex
  obtain ⟨cs, k, b, hcs, -, hb, hno, hdiff⟩ := not_existing_seen hin hex hw
  have hdot : ∀ j ∈ cs ++ [k, b], '.' ∉ j.toList := by
    intro j hj
    have hj' : j ∈ (cs ++ [k]) ++ [b] := by
      rw [List.append_assoc]
      exact hj
    rcases List.mem_append.mp hj' with hj | hj
    · exact dotFree_of_mem_writeParts (hcs.subset hj)
    · obtain rfl := List.mem_singleton.mp hj
      rcases List.mem_pair.mp hb with rfl | rfl <;> decide
  have hlong : 2 ≤ (cs ++ [k, b]).length := by
    rw [List.length_append]
    exact Nat.le_add_left 2 cs.length
  obtain ⟨q, hq⟩ := exists_path hdot
    (List.append_ne_nil_of_right_ne_nil cs (List.cons_ne_nil k [b]))
    (fun heq => absurd (heq ▸ hlong) (by decide)) (fun heq => absurd (heq ▸ hlong) (by decide))
  have hsame := h q (by
    rw [hq, hsegs]
    exact hno)
  rw [resolvePath, resolvePath, hq] at hsame
  exact hdiff hsame

/-- what a write beside the read path leaves alone, was there before. -/
theorem unseen_of_lens (hin : input.isPlainObject = true) (hne : writeParts p ≠ [])
    (hw : write input v (writeParts p) = .value next)
    (hno : ¬Overlap (readParts p) (writeParts p))
    (h : ∀ q, ¬Overlap (readParts p) (readParts q) → resolvePath next q = resolvePath input q) :
    read (.value input) (writeParts p) = .value v ∨
      writeParts p = ["$"] ∧ LooksLike (step (.value input) "$") v := by
  by_cases hdollar : writeParts p = ["$"]
  · refine .inr ⟨hdollar, fun k hk => ?_⟩
    have hdot : ∀ j ∈ ["$", k], '.' ∉ j.toList := by
      intro j hj
      rcases List.mem_pair.mp hj with rfl | rfl
      · decide
      · exact hk
    obtain ⟨q, hq⟩ := exists_path hdot (List.cons_ne_nil _ _)
      (fun heq => absurd (congrArg List.length heq) (by simp))
      (fun heq => absurd (congrArg List.length heq) (by simp))
    have hsame := h q (by
      rw [hq]
      intro hover
      rw [hdollar] at hno
      exact hno (overlap_append hover))
    rw [hdollar] at hw
    rw [resolvePath, resolvePath, hq, (write_singleton hw).2, read_cons, read_cons,
      step_set_self hin] at hsame
    exact hsame.symm
  · left
    obtain ⟨q, hq⟩ := exists_path (fun k hk => dotFree_of_mem_writeParts hk) hne hdollar
      (fun heq => writeParts_ne_empty (heq ▸ List.mem_singleton_self "") rfl)
    have hsame := h q (by
      rw [hq]
      exact hno)
    rw [resolvePath, resolvePath, hq, read_write_self hin hne hw] at hsame
    exact hsame.symm

/-- a write that no path sees. -/
theorem others_of_unseen (hin : input.isPlainObject = true) (hv : v ≠ undefined)
    (hw : write input v (writeParts p) = .value next)
    (h : read (.value input) (writeParts p) = .value v ∨
      writeParts p = ["$"] ∧ LooksLike (step (.value input) "$") v)
    (hq : readParts q ≠ []) : resolvePath next q = resolvePath input q := by
  rcases h with hsame | ⟨hdollar, hlooks⟩
  · rw [write_same hv hsame hw]
  · rw [hdollar] at hw
    rw [(write_singleton hw).2]
    cases hqs : readParts q with
    | nil => exact absurd hqs hq
    | cons k ks =>
      rw [resolvePath, resolvePath, hqs, read_cons, read_cons]
      by_cases hk : k = "$"
      · subst hk
        cases ks with
        | nil => exact absurd hqs (readParts_ne_dollar q)
        | cons l ls =>
          have hl : '.' ∉ l.toList :=
            dotFree_of_mem_readParts (p := q) (hqs ▸ .tail _ (.head _))
          rw [step_set_self hin, read_cons, read_cons, hlooks l hl]
      · rw [step_set_of_ne hk]

/-- **A path without empty parts, for the names that no object inherits.**  What it writes is read
back, and what diverges from it stays, whatever was on the way. -/
theorem plain_lens (hin : input.isPlainObject = true) (hp : p ≠ "")
    (h : assignOutput input v p = .ok (.value next)) (hsegs : readParts p = writeParts p) :
    resolvePath next p = .value v ∧
      ∀ q, (∀ k ∈ readParts q, inherited k = .value undefined) →
        ¬Overlap (readParts p) (readParts q) → resolvePath next q = resolvePath input q := by
  obtain ⟨hne, hw⟩ := assignOutput_ok hp h
  refine ⟨?_, fun q hplain hno => ?_⟩
  · rw [resolvePath, hsegs]
    exact read_write_self hin hne hw
  · rw [resolvePath, resolvePath, read_plain hplain, read_plain hplain, write_eq hw,
      getParts_setParts (hsegs ▸ hno)]

/-- **When a write is a lens.**  It is one when the path is read as it is written and everything on
the way exists, and when the path reads beside what it writes, and nothing changes. -/
theorem lens_iff (hin : input.isPlainObject = true) (hv : v ≠ undefined) (hp : p ≠ "")
    (h : assignOutput input v p = .ok (.value next)) :
    Lens input v p next ↔ Faithful input v p := by
  obtain ⟨hne, hw⟩ := assignOutput_ok hp h
  constructor
  · rintro ⟨hwritten, hothers, -⟩
    by_cases hover : Overlap (readParts p) (writeParts p)
    · have hsegs := readParts_eq_of_written hin hv hne hw hover hwritten
      exact .inl ⟨hsegs, existing_of_lens hin hw hsegs hothers⟩
    · refine .inr ⟨hover, ?_, unseen_of_lens hin hne hw hover hothers⟩
      rw [← read_beside hin hne hw hover]
      exact hwritten
  · rintro (⟨hsegs, hex⟩ | ⟨hno, hread, hunseen⟩)
    · refine ⟨?_, fun q hover => ?_, second_write hin hp h⟩
      · rw [resolvePath, hsegs]
        exact read_write_self hin hne hw
      · rw [hsegs] at hover
        exact read_write_of_existing hin hex hw hover
    · refine ⟨?_, fun q hover => ?_, second_write hin hp h⟩
      · rw [read_beside hin hne hw hno]
        exact hread
      · refine others_of_unseen hin hv hw hunseen fun hnil => hover ?_
        rw [hnil]
        exact overlap_nil_right _

/-- The rule on a step's result below an object that exists. -/
theorem lens_iff_result :
    Lens (obj [("state", obj [("n", num 1)])]) (num 2) "$.state.n"
        (obj [("state", obj [("n", num 2)])]) ↔
      Faithful (obj [("state", obj [("n", num 1)])]) (num 2) "$.state.n" :=
  lens_iff rfl (by decide) (by decide) (by decide +kernel)

/-- **An empty part in a path.**  The write to `state..n` goes to `state.n`, and the read of
`state..n` finds nothing. -/
theorem empty_part_not_lens :
    ∃ next, assignOutput (obj [("state", obj [])]) (num 2) "state..n" = .ok (.value next) ∧
      resolvePath next "state..n" = .value undefined ∧
        ¬Lens (obj [("state", obj [])]) (num 2) "state..n" next := by
  refine ⟨obj [("state", obj [("n", num 2)])], by decide +kernel, by decide +kernel, fun h => ?_⟩
  have hread : resolvePath (obj [("state", obj [("n", num 2)])]) "state..n" = .value undefined := by
    decide +kernel
  exact absurd (hread.symm.trans h.written) (by decide)

end
end PathLens
end Pipelines
end WmAutopilot
