import WmAutopilot.Js.Throw
import WmAutopilot.Pipelines.JumpLoops

/-!
# How often a jump loop runs its section

* `Plain`             a path that is read as it is written;
* `Counts`            the passes are counted: the history is kept, and nothing was in it before;
* `visit_ok`, `resume_ok`   what a visit leaves, and that a resume goes on as the visit does;
* `Inv`, `inv_reached`      what holds while control is in the section;
* `runs_times`        **the section runs as often as it should** when its passes are counted;
* `without_history`   **a loop without a history never goes on** to the step after it.
-/

set_option autoImplicit false

namespace WmAutopilot
namespace Pipelines
namespace JumpLoop
open Js Js.Value Js.Chain PathLens
open Js.Path (Overlap writeParts)

/-- the path can be written. -/
def Writable (path : String) : Prop := writeParts path ≠ [] ∧ "__proto__" ∉ writeParts path

/-- the path can be written, and is read as it is written. -/
structure Plain (path : String) : Prop where
  writable : Writable path
  read : readParts path = writeParts path

/-- **The passes of a loop that is to run `n` times are counted**, from the data at the entry of its
section. -/
structure Counts (step : LoopStep) (n : ℕ) (entry : Value) : Prop where
  counter : Plain (counterPath step)
  history : ∀ path, historyPath step = some path → Writable path ∧
    ∀ c ∈ step.capture.getD [], ∀ k ∈ readParts c.2, k ∉ builtins
  counted : n = 1 ∨ ∃ path, historyPath step = some path ∧ Plain path ∧
    getHistoryItems entry path = [] ∧
    ¬Overlap (readParts (counterPath step)) (readParts path ++ ["items"])

section
variable {step : LoopStep} {n k : ℕ} {d next entry v result : Value} {path : String}
  {number : Ref → Option ℚ}

/-! ## writes -/

theorem Writable.ne_empty (h : Writable path) : path ≠ "" := by
  rintro rfl
  exact h.1 (by decide +kernel)

theorem assign_eq (h : Writable path) :
    ∃ next, assign d v path = .ok next ∧ write d v (writeParts path) = .value next := by
  obtain ⟨next, hw⟩ := write_ok d v h.2
  refine ⟨next, ?_, hw⟩
  rw [assign, assignOutput, if_neg h.ne_empty, setPath, if_neg h.1, hw]

/-- a plain path reads what was written. -/
theorem Plain.written (h : Plain path) (hd : d.isPlainObject = true)
    (hw : write d v (writeParts path) = .value next) : resolvePath next path = .value v := by
  rw [resolvePath, h.read]
  exact read_write_self hd h.writable.1 hw

theorem Plain.notProto (h : Plain path) : "__proto__" ∉ readParts path := by
  rw [h.read]
  exact h.writable.2

/-! ## the history -/

/-- an array under `items` is the history. -/
theorem getHistoryItems_of_items {vs : List Value}
    (h : read (.value d) (readParts path ++ ["items"]) = .value (arr vs)) :
    getHistoryItems d path = vs := by
  rw [read_append] at h
  unfold getHistoryItems resolvePath
  cases hr : read (.value d) (readParts path) with
  | value w =>
    rw [hr] at h
    rcases step_cases w "items" with hw | ⟨-, -, hw⟩
    · have hget : w.get "items" = arr vs := Ref.value.inj (hw.symm.trans h)
      cases w with
      | obj fs =>
        rw [itemsOf, hget]
        rfl
      | _ => cases hget
    · have hnone : (Ref.value undefined) = .value (arr vs) := hw.symm.trans h
      cases hnone
  | builtin m =>
    rw [hr] at h
    cases h
  | prototype =>
    rw [hr] at h
    have hnone : (Ref.value undefined) = .value (arr vs) := h
    cases hnone

theorem length_elements_jsonCopy (v : Value) :
    ((jsonCopy v).elements.getD []).length = (v.elements.getD []).length := by
  cases v with
  | arr vs =>
    rw [jsonCopy]
    exact length_copyItems vs
  | obj fs =>
    rw [jsonCopy]
    rfl
  | _ => rfl

theorem length_itemsOf_copied {r r' : Ref} (h : Copied r r') :
    (itemsOf r').length = (itemsOf r).length := by
  cases h with
  | @value u hu =>
    cases u with
    | arr vs =>
      rw [jsonCopy]
      exact length_copyItems vs
    | obj fs =>
      rw [jsonCopy, itemsOf, itemsOf, Value.get, Value.get, lookup_copyFields]
      cases fs.lookup "items" with
      | none => rfl
      | some w =>
        rw [Option.bind_some]
        by_cases hw : w = undefined
        · rw [if_pos hw, hw]
          rfl
        · rw [if_neg hw]
          exact length_elements_jsonCopy w
    | _ => rfl
  | nothing h h' =>
    rcases h with rfl | ⟨m, rfl⟩ <;> rcases h' with rfl | ⟨m', rfl⟩ <;> rfl

theorem length_getHistoryItems_jsonCopy (hd : d ≠ undefined) (h : "__proto__" ∉ readParts path) :
    (getHistoryItems (jsonCopy d) path).length = (getHistoryItems d path).length :=
  length_itemsOf_copied (read_jsonCopy (.value hd) h)

/-! ## the counter -/

theorem jsonCopy_counterOf (n k : ℕ) : jsonCopy (counterOf n k) = counterOf n k := by
  simp only [counterOf, jsonCopy, copyFields]

theorem counterOf_ne_undefined (n k : ℕ) : counterOf n k ≠ undefined := by
  unfold counterOf
  intro h
  cases h

/-- what the passes after the first see. -/
theorem resolvePath_jsonCopy (h : Plain path) (hd : d.isPlainObject = true)
    (hr : resolvePath d path = .value (counterOf n k)) :
    resolvePath (jsonCopy d) path = .value (counterOf n k) := by
  have hne : d ≠ undefined := by
    rintro rfl
    cases hd
  rw [resolvePath, read_jsonCopy_value hne h.notProto hr (counterOf_ne_undefined n k),
    jsonCopy_counterOf]

/-! ## a visit -/

theorem captureLoopValues_ok (h : ∀ c ∈ step.capture.getD [], ∀ k ∈ readParts c.2, k ∉ builtins) :
    ∃ captured, captureLoopValues d step.capture = some captured := by
  unfold captureLoopValues
  generalize step.capture.getD [] = cs at h
  induction cs with
  | nil => exact ⟨[], rfl⟩
  | cons c cs ih =>
    obtain ⟨rest, hrest⟩ := ih fun c' hc' => h c' (List.mem_cons_of_mem c hc')
    have hcloned : ∃ w, cloned (resolvePath d c.2) = some w := by
      have hno := read_ne_builtin (r := .value d) (h c List.mem_cons_self) (fun _ => nofun)
      unfold resolvePath
      cases hr : read (.value d) (readParts c.2) with
      | value w => exact ⟨w, rfl⟩
      | prototype => exact ⟨obj [], rfl⟩
      | builtin m => exact absurd hr (hno m)
    obtain ⟨w, hw⟩ := hcloned
    refine ⟨(c.1, w) :: rest, ?_⟩
    rw [List.mapM_cons, hrest, hw]
    rfl

/-- the history and the counter after a visit. -/
structure Visited (step : LoopStep) (n k : ℕ) (next : Value) : Prop where
  plain : next.isPlainObject = true
  counter : resolvePath next (counterPath step) = .value (counterOf n k)
  history : ∀ path, historyPath step = some path → Plain path →
    ¬Overlap (readParts (counterPath step)) (readParts path ++ ["items"]) →
    (getHistoryItems next path).length = k

theorem visitData_ok (hc : Counts step n entry) (hd : d.isPlainObject = true) :
    ∃ next, visitData step n d = .ok next ∧ Visited step n (completedOf step d) next := by
  unfold visitData completedOf
  cases hpath : historyPath step with
  | none =>
    obtain ⟨next, hassign, hw⟩ := assign_eq (d := d) (v := counterOf n 1) hc.counter.writable
    refine ⟨next, hassign, isPlainObject_write hd hw, hc.counter.written hd hw, ?_⟩
    intro path hsome
    rw [hpath] at hsome
    cases hsome
  | some path =>
    obtain ⟨hwritable, hcaptures⟩ := hc.history path hpath
    obtain ⟨captured, hcaptured⟩ := captureLoopValues_ok (d := d) hcaptures
    obtain ⟨next₁, hassign₁, hw₁⟩ := assign_eq (d := d)
      (v := historyOf (getHistoryItems d path) captured) hwritable
    obtain ⟨next, hassign, hw⟩ := assign_eq (d := next₁)
      (v := counterOf n ((getHistoryItems d path).length + 1)) hc.counter.writable
    have hd₁ : next₁.isPlainObject = true := isPlainObject_write hd hw₁
    refine ⟨next, ?_, isPlainObject_write hd₁ hw, hc.counter.written hd₁ hw, ?_⟩
    · simp only [hcaptured, Option.getD_some, hassign₁]
      change (if some captured = none ∧ counterPath step ≠ "" then
        .error (.error "DataCloneError") else assign next₁ _ (counterPath step)) = Except.ok next
      rw [if_neg fun hnone => Option.some_ne_none _ hnone.1]
      exact hassign
    · intro path' hsome hplain hno
      obtain rfl := Option.some.inj (hpath.symm.trans hsome)
      -- the counter is written beside the items, which exist
      have hex : Existing next₁ (readParts path ++ ["items"]) := by
        rw [hplain.read]
        exact existing_write hd rfl hwritable.1 hw₁ "items"
      rw [hc.counter.read] at hno
      have hread := read_write_of_read hd₁ hex hw hno
      rw [read_append (.value next₁)] at hread
      have hhistory := hplain.written hd hw₁
      unfold resolvePath at hhistory
      rw [hhistory] at hread
      rw [getHistoryItems_of_items hread, List.length_append]
      rfl

/-- where the loop jumps to. -/
structure Target (p : Pipeline) (target : ℕ) : Prop where
  found : ∃ name, p.loop.target = some name ∧ name ≠ "" ∧
    buildStepTargetIndex p.heads name = some target
  earlier : target < p.index

variable {p : Pipeline} {target : ℕ} {s s' s₀ : State}

theorem Target.jump (h : Target p target) :
    JumpLoop.jump p.loop (buildStepTargetIndex p.heads) = .ok (some target) := by
  obtain ⟨name, hname, hne, hindex⟩ := h.found
  have hfilter : p.loop.target.filter (· ≠ "") = some name := by
    rw [hname, Option.filter_some, if_pos (decide_eq_true hne)]
  unfold JumpLoop.jump
  rw [hfilter]
  simp only [hindex]

/-- the index after `k` passes of `n`. -/
def jumpAfter (target n k : ℕ) : Option ℕ := if k < n then some target else none

theorem Target.jumpWhen (h : Target p target) {again : Bool} (hagain : again = decide (k < n)) :
    JumpLoop.jumpWhen again p.loop (buildStepTargetIndex p.heads) = .ok (jumpAfter target n k) := by
  unfold JumpLoop.jumpWhen jumpAfter
  rw [hagain]
  by_cases hlt : k < n
  · rw [if_pos (decide_eq_true hlt), if_pos hlt, h.jump]
  · rw [if_neg (ne_true_of_eq_false (decide_eq_false hlt)), if_neg hlt]

/-- **What a visit leaves.** -/
theorem visit_ok (ht : Target p target) (hc : Counts p.loop n entry)
    (hd : d.isPlainObject = true)
    (hn : resolveIterationCount number d (p.loop.iterations.getD (.number 1)) = n) :
    ∃ next, visitLoop number p.loop (buildStepTargetIndex p.heads) d =
        .ok ⟨next, jumpAfter target n (completedOf p.loop d)⟩ ∧
      Visited p.loop n (completedOf p.loop d) next := by
  obtain ⟨next, hnext, hvisited⟩ := visitData_ok hc hd
  refine ⟨next, ?_, hvisited⟩
  unfold visitLoop
  simp only [hn, hnext, ht.jumpWhen (n := n) (k := completedOf p.loop d) rfl]
  rfl

/-- **A resume goes on as the visit does** whose result was stored. -/
theorem resume_ok (ht : Target p target)
    (hr : resolvePath result (counterPath p.loop) = .value (counterOf n k)) :
    resumeLoop p.loop (buildStepTargetIndex p.heads) result =
      .ok ⟨result, jumpAfter target n k⟩ := by
  have hagain : unfinished (.value (counterOf n k)) = decide (k < n) := by
    show decide (bool (decide (n ≤ k)) ≠ bool true) = decide (k < n)
    by_cases hlt : k < n
    · rw [decide_eq_false (Nat.not_le_of_lt hlt), decide_eq_true hlt]
      rfl
    · rw [decide_eq_true (Nat.le_of_not_lt hlt), decide_eq_false hlt]
      rfl
  unfold resumeLoop
  rw [hr, ht.jumpWhen hagain]
  rfl

/-! ## while control is in the section -/

/-- The section from `target` to the loop, entered in `s₀`: it does not write the counter or the
history, and every visit is to make `n` passes. -/
structure Section (number : Ref → Option ℚ) (p : Pipeline) (target n : ℕ) (s₀ : State) : Prop where
  found : Target p target
  entry : s₀.current.isPlainObject = true ∧ s₀.active = none ∧ s₀.passes = 0
  times : 1 ≤ n
  objects : ∀ i current o, current.isPlainObject = true → p.executes i current o →
    o.current.isPlainObject = true
  counter : ∀ i current o, target ≤ i → i < p.index → p.executes i current o →
    resolvePath o.current (counterPath p.loop) = resolvePath current (counterPath p.loop)
  history : ∀ i current o path, target ≤ i → i < p.index → p.executes i current o →
    historyPath p.loop = some path → resolvePath o.current path = resolvePath current path
  constant : ∀ s, Reached number p target s₀ s → s.cursor = p.index → s.active = none →
    resolveIterationCount number s.current (p.loop.iterations.getD (.number 1)) = n

/-- control is in the section. -/
def InSection (p : Pipeline) (target : ℕ) (s : State) : Prop :=
  target ≤ s.cursor ∧ s.cursor ≤ p.index

/-- What a visit that was made counts as: the next pass, or the last one. -/
def CountsAs (n passes k : ℕ) : Prop := k = passes + 1 ∨ n = 1 ∧ passes = 0 ∧ 1 ≤ k

/-- What holds while control is in the section. -/
structure Inv (p : Pipeline) (n : ℕ) (s : State) : Prop where
  plain : s.current.isPlainObject = true
  bound : s.passes < n
  history : n = 1 ∨ ∀ path, historyPath p.loop = some path →
    (getHistoryItems s.current path).length = s.passes
  counter : 0 < s.passes →
    resolvePath s.current (counterPath p.loop) = .value (counterOf n s.passes)
  active : ∀ result, s.active = some result →
    s.cursor = p.index ∧ ∃ k, CountsAs n s.passes k ∧ Visited p.loop n k result

theorem CountsAs.jump {passes : ℕ} (h : CountsAs n passes k) (hn : 1 ≤ n) :
    jumpAfter target n k = jumpAfter target n (passes + 1) := by
  unfold jumpAfter
  rcases h with rfl | ⟨rfl, rfl, hk⟩
  · rfl
  · rw [if_neg (by omega), if_neg (by omega)]

/-- what a visit counts as. -/
theorem Inv.countsAs (h : Inv p n s) (hc : Counts p.loop n entry) :
    CountsAs n s.passes (completedOf p.loop s.current) := by
  rcases hc.counted with hone | ⟨path, hpath, -, -, -⟩
  · refine .inr ⟨hone, ?_, ?_⟩
    · have hbound := h.bound
      omega
    · unfold completedOf
      cases historyPath p.loop with
      | none => exact Nat.le_refl 1
      | some path => exact Nat.le_add_left 1 _
  · rcases h.history with hone | hlength
    · refine .inr ⟨hone, ?_, ?_⟩
      · have hbound := h.bound
        omega
      · unfold completedOf
        rw [hpath]
        exact Nat.le_add_left 1 _
    · left
      unfold completedOf
      rw [hpath]
      exact congrArg (· + 1) (hlength path hpath)

/-- the state after a visit that is not the last. -/
theorem Inv.again (hc : Counts p.loop n entry)
    (hk : CountsAs n s.passes k) (hv : Visited p.loop n k next) (hlt : s.passes + 1 < n)
    (executed : ℕ) : Inv p n ⟨target, next, none, executed, s.passes + 1⟩ := by
  have hcount : k = s.passes + 1 := hk.resolve_right fun hone => by omega
  subst hcount
  refine ⟨hv.plain, hlt, ?_, fun _ => hv.counter, nofun⟩
  rcases hc.counted with hone | ⟨path, hpath, hplain, -, hno⟩
  · exact .inl hone
  · refine .inr fun path' hpath' => ?_
    obtain rfl := Option.some.inj (hpath.symm.trans hpath')
    exact hv.history path hpath hplain hno

/-- **A visit, and a resume of one.** -/
theorem decided (hs : Section number p target n s₀) (hc : Counts p.loop n s₀.current)
    (hr : Reached number p target s₀ s) (hi : Inv p n s) (hm : Moves number p s s')
    (hp : s'.passes = s.passes + 1) :
    s.cursor = p.index ∧ ∃ k next, CountsAs n s.passes k ∧ Visited p.loop n k next ∧
      s' = s.next ⟨next, jumpAfter target n (s.passes + 1)⟩ (s.passes + 1) := by
  cases hm with
  | step _ _ _ => exact absurd hp (by simp [State.next])
  | stored _ _ _ _ => exact absurd hp (by simp)
  | restart => exact absurd hp (by simp)
  | visit hcursor hactive _ h =>
    obtain ⟨next, hvisit, hvisited⟩ :=
      visit_ok hs.found hc hi.plain (hs.constant s hr hcursor hactive)
    have hcounts := hi.countsAs hc
    rw [hvisit, hcounts.jump hs.times] at h
    obtain rfl := Except.ok.inj h
    exact ⟨hcursor, _, next, hcounts, hvisited, rfl⟩
  | resumed hcursor hactive _ h =>
    obtain ⟨-, k, hcounts, hvisited⟩ := hi.active _ hactive
    rw [resume_ok hs.found hvisited.counter, hcounts.jump hs.times] at h
    obtain rfl := Except.ok.inj h
    exact ⟨hcursor, k, _, hcounts, hvisited, rfl⟩

theorem Visited.jsonCopy (h : Visited p.loop n k next) (hc : Counts p.loop n entry) :
    Visited p.loop n k (Chain.jsonCopy next) := by
  have hne : next ≠ undefined := by
    rintro rfl
    cases h.plain
  refine ⟨isPlainObject_jsonCopy h.plain, resolvePath_jsonCopy hc.counter h.plain h.counter, ?_⟩
  intro path hpath hplain hno
  rw [length_getHistoryItems_jsonCopy hne hplain.notProto]
  exact h.history path hpath hplain hno

/-- the data that a resume reads back. -/
theorem Inv.restart (h : Inv p n s) (hc : Counts p.loop n entry) {active : Option Value}
    {executed : ℕ} (hactive : ∀ result, active = some result →
      s.cursor = p.index ∧ ∃ k, CountsAs n s.passes k ∧ Visited p.loop n k result) :
    Inv p n ⟨s.cursor, jsonCopy s.current, active, executed, s.passes⟩ := by
  have hne : s.current ≠ undefined := by
    intro hu
    have hplain := h.plain
    rw [hu] at hplain
    cases hplain
  refine ⟨isPlainObject_jsonCopy h.plain, h.bound, ?_,
    fun hpos => resolvePath_jsonCopy hc.counter h.plain (h.counter hpos), hactive⟩
  rcases hc.counted with hone | ⟨path, hpath, hplain, -, -⟩
  · exact .inl hone
  · refine h.history.imp_right fun hlength path' hpath' => ?_
    obtain rfl := Option.some.inj (hpath.symm.trans hpath')
    rw [length_getHistoryItems_jsonCopy hne hplain.notProto]
    exact hlength path hpath

theorem Inv.entered (hs : Section number p target n s₀) (hc : Counts p.loop n s₀.current) :
    Inv p n s₀ := by
  obtain ⟨hplain, hactive, hpasses⟩ := hs.entry
  refine ⟨hplain, ?_, ?_, ?_, ?_⟩
  · rw [hpasses]
    exact hs.times
  · rcases hc.counted with hone | ⟨path, hpath, -, hempty, -⟩
    · exact .inl hone
    · refine .inr fun path' hpath' => ?_
      obtain rfl := Option.some.inj (hpath.symm.trans hpath')
      rw [hempty, hpasses]
      rfl
  · intro hpos
    rw [hpasses] at hpos
    exact absurd hpos (Nat.lt_irrefl 0)
  · intro result hresult
    rw [hactive] at hresult
    cases hresult

/-- **One move in the section.** -/
theorem Inv.move (hs : Section number p target n s₀) (hc : Counts p.loop n s₀.current)
    (hr : Reached number p target s₀ s) (hin : InSection p target s) (h : Inv p n s)
    (hm : Moves number p s s') (hin' : InSection p target s') : Inv p n s' := by
  have hagain : s'.passes = s.passes + 1 → Inv p n s' := by
    intro hp
    obtain ⟨hcursor, k, next, hcounts, hvisited, rfl⟩ := decided hs hc hr h hm hp
    have hlt : s.passes + 1 < n := by
      by_contra hlast
      -- after the last pass control is behind the loop
      have hbehind : (s.next ⟨next, jumpAfter target n (s.passes + 1)⟩ (s.passes + 1)).cursor =
          p.index + 1 := by
        unfold State.next jumpAfter
        rw [if_neg hlast, hcursor]
        rfl
      have hle := hin'.2
      omega
    have hnext : s.next ⟨next, jumpAfter target n (s.passes + 1)⟩ (s.passes + 1) =
        ⟨target, next, none, s.executed + 1, s.passes + 1⟩ := by
      unfold State.next jumpAfter
      rw [if_pos hlt]
      rfl
    rw [hnext]
    exact Inv.again hc hcounts hvisited hlt _
  cases hm with
  | @step o hcursor _ hexec =>
    have hlt : s.cursor < p.index := Nat.lt_of_le_of_ne hin.2 hcursor
    refine ⟨hs.objects _ _ _ h.plain hexec, h.bound,
      h.history.imp_right fun hlength path hpath => ?_, ?_, nofun⟩
    · show (getHistoryItems o.current path).length = _
      rw [getHistoryItems, hs.history _ _ _ path hin.1 hlt hexec hpath]
      exact hlength path hpath
    · intro hpos
      exact (hs.counter _ _ _ hin.1 hlt hexec).trans (h.counter hpos)
  | visit _ _ _ _ => exact hagain rfl
  | resumed _ _ _ _ => exact hagain rfl
  | stored hcursor hactive _ hvisit =>
    obtain ⟨next, hok, hvisited⟩ := visit_ok hs.found hc h.plain (hs.constant s hr hcursor hactive)
    rw [hok] at hvisit
    obtain rfl := Except.ok.inj hvisit
    refine h.restart hc fun result hresult => ?_
    obtain rfl := Option.some.inj hresult
    exact ⟨hcursor, _, h.countsAs hc, hvisited.jsonCopy hc⟩
  | restart => exact h.restart hc h.active

theorem inv_reached (hs : Section number p target n s₀) (hc : Counts p.loop n s₀.current)
    (hr : Reached number p target s₀ s) (hin : InSection p target s) : Inv p n s := by
  induction hr with
  | entered => exact Inv.entered hs hc
  | move hr hsection hm ih => exact Inv.move hs hc hr hsection (ih hsection) hm hin

/-! ## how often the section runs -/

/-- the counter that pass `k` of `n` sees, when it is not the first. -/
def counterSeen (n k : ℕ) : Value :=
  obj [("iteration", num k), ("index", num (k - 1 : ℕ)), ("completed", num (k - 1 : ℕ)),
    ("total", num n), ("done", bool false)]

theorem counterOf_eq_counterSeen (h : k < n) : counterOf n k = counterSeen n (k + 1) := by
  unfold counterOf counterSeen
  rw [min_eq_left (show k + 1 ≤ n from h), min_eq_left (show k ≤ n - 1 by omega),
    decide_eq_false (Nat.not_le_of_lt h), Nat.add_sub_cancel]

/-- **The section runs `n` times.**  Control is in the section during passes `1` to `n`, and each
pass after the first sees its own counter; the visit after pass `n`, and no other, goes on to the
step after the loop; a visit does not fail; and when control always comes to the loop, it leaves. -/
structure RunsTimes (number : Ref → Option ℚ) (p : Pipeline) (target n : ℕ) (s₀ : State) :
    Prop where
  passes : ∀ s, Reached number p target s₀ s → InSection p target s → s.passes < n
  seen : ∀ s, Reached number p target s₀ s → InSection p target s → 0 < s.passes →
    resolvePath s.current (counterPath p.loop) = .value (counterSeen n (s.passes + 1))
  leaves : ∀ s s', Reached number p target s₀ s → InSection p target s → Moves number p s s' →
    s'.passes = s.passes + 1 → s'.cursor = if s'.passes < n then target else p.index + 1
  goesOn : ∀ s, Reached number p target s₀ s → s.cursor = p.index →
    s.executed < MAX_PIPELINE_EXECUTED_STEPS →
    ∃ s', Moves number p s s' ∧ s'.passes = s.passes + 1
  ends : (∀ s, Reached number p target s₀ s → InSection p target s → ∃ s',
      Reached number p target s₀ s' ∧ s'.passes = s.passes ∧ s'.cursor = p.index ∧
        s'.executed < MAX_PIPELINE_EXECUTED_STEPS) → InSection p target s₀ →
    ∃ s, Reached number p target s₀ s ∧ s.passes = n ∧ s.cursor = p.index + 1

theorem goes_on (hs : Section number p target n s₀) (hc : Counts p.loop n s₀.current)
    (hr : Reached number p target s₀ s) (hcursor : s.cursor = p.index)
    (hlimit : s.executed < MAX_PIPELINE_EXECUTED_STEPS) :
    ∃ s', Moves number p s s' ∧ s'.passes = s.passes + 1 := by
  have hin : InSection p target s :=
    ⟨hcursor ▸ hs.found.earlier.le, hcursor.le⟩
  have hi := inv_reached hs hc hr hin
  cases hactive : s.active with
  | none =>
    obtain ⟨next, hvisit, -⟩ := visit_ok hs.found hc hi.plain (hs.constant s hr hcursor hactive)
    exact ⟨_, .visit hcursor hactive hlimit hvisit, rfl⟩
  | some result =>
    obtain ⟨-, k, -, hvisited⟩ := hi.active result hactive
    exact ⟨_, .resumed hcursor hactive hlimit (resume_ok hs.found hvisited.counter), rfl⟩

theorem leaves_after (hs : Section number p target n s₀) (hc : Counts p.loop n s₀.current)
    (hr : Reached number p target s₀ s) (hin : InSection p target s) (hm : Moves number p s s')
    (hp : s'.passes = s.passes + 1) :
    s'.cursor = if s'.passes < n then target else p.index + 1 := by
  obtain ⟨hcursor, k, next, -, -, rfl⟩ := decided hs hc hr (inv_reached hs hc hr hin) hm hp
  show (jumpAfter target n (s.passes + 1)).getD (s.cursor + 1) =
    if s.passes + 1 < n then target else p.index + 1
  unfold jumpAfter
  rw [hcursor]
  split <;> rfl

/-- **When the passes of a loop are counted, its section runs as often as it should.** -/
theorem runs_times (hs : Section number p target n s₀) (hc : Counts p.loop n s₀.current) :
    RunsTimes number p target n s₀ := by
  refine ⟨fun s hr hin => (inv_reached hs hc hr hin).bound, fun s hr hin hpos => ?_,
    fun s s' hr hin hm hp => leaves_after hs hc hr hin hm hp,
    fun s hr hcursor hlimit => goes_on hs hc hr hcursor hlimit, fun hcomes hentry => ?_⟩
  · have hi := inv_reached hs hc hr hin
    rw [hi.counter hpos, counterOf_eq_counterSeen hi.bound]
  · -- pass by pass: control is in the section before the last one is made, and behind it after
    have hpass : ∀ k, k ≤ n → ∃ s, Reached number p target s₀ s ∧ s.passes = k ∧
        (k < n → InSection p target s) ∧ (k = n → s.cursor = p.index + 1) := by
      intro k
      induction k with
      | zero =>
        intro _
        refine ⟨s₀, .entered, hs.entry.2.2, fun _ => hentry, fun hzero => ?_⟩
        exact absurd (hzero ▸ hs.times : 1 ≤ 0) (Nat.not_succ_le_zero 0)
      | succ k ih =>
        intro hk
        obtain ⟨s, hr, rfl, hin, -⟩ := ih (Nat.le_of_succ_le hk)
        obtain ⟨s₁, hr₁, hp₁, hcursor₁, hlimit⟩ := hcomes s hr (hin hk)
        have hin₁ : InSection p target s₁ := ⟨hcursor₁ ▸ hs.found.earlier.le, hcursor₁.le⟩
        obtain ⟨s₂, hm, hp₂⟩ := goes_on hs hc hr₁ hcursor₁ hlimit
        have hpasses : s₂.passes = s.passes + 1 := hp₂.trans (congrArg (· + 1) hp₁)
        have hleaves := leaves_after hs hc hr₁ hin₁ hm hp₂
        refine ⟨s₂, .move hr₁ hin₁ hm, hpasses, fun hlt => ?_, fun hlast => ?_⟩
        · rw [hpasses, if_pos hlt] at hleaves
          exact ⟨hleaves.ge, hleaves.le.trans hs.found.earlier.le⟩
        · rw [hpasses, if_neg (by omega)] at hleaves
          exact hleaves
    obtain ⟨s, hr, hp, -, hcursor⟩ := hpass n (Nat.le_refl n)
    exact ⟨s, hr, hp, hcursor rfl⟩

/-- **A loop without a history never goes on** to the step after it, when it is to make more than
one pass. -/
theorem without_history {targetIndex : String → Option ℕ} {o : Outcome}
    (h : historyPath step = none)
    (hn : 2 ≤ resolveIterationCount number d (step.iterations.getD (.number 1)))
    (hvisit : visitLoop number step targetIndex d = .ok o) : ∃ i, o.jumpTo = some i := by
  have hcompleted : completedOf step d = 1 := by
    unfold completedOf
    rw [h]
  unfold visitLoop at hvisit
  rw [hcompleted] at hvisit
  obtain ⟨next, -, hvisit⟩ := bind_ok.mp hvisit
  obtain ⟨jumpTo, hjump, hvisit⟩ := bind_ok.mp hvisit
  obtain rfl := Except.ok.inj hvisit
  unfold JumpLoop.jumpWhen at hjump
  rw [if_pos (decide_eq_true (show 1 < _ from hn))] at hjump
  unfold JumpLoop.jump at hjump
  split at hjump
  · cases hjump
  · split at hjump
    · cases hjump
    · exact ⟨_, (Except.ok.inj hjump).symm⟩

end

/-! ## on a pipeline -/

/-- A loop that is to make two passes. -/
def sampleLoop (history : Option String) : LoopStep :=
  ⟨"loop", some (.number 2), some "a", history, none, some "$.counter"⟩

/-- A pipeline with one step before it. -/
def samplePipeline (history : Option String) : Pipeline where
  heads := [(some "a", "step"), (some "b", "loop")]
  loop := sampleLoop history
  index := 1
  executes _ current o := o = ⟨current, none⟩

theorem sampleTarget (history : Option String) : Target (samplePipeline history) 0 :=
  ⟨⟨"a", rfl, by decide, rfl⟩, Nat.one_pos⟩

/-- The state at its entry. -/
def sampleState : State := ⟨0, obj [], none, 0, 0⟩

theorem sampleSection (history : Option String) :
    Section (fun _ => none) (samplePipeline history) 0 2 sampleState where
  found := sampleTarget history
  entry := ⟨rfl, rfl, rfl⟩
  times := by decide
  objects := by
    rintro i current o hplain rfl
    exact hplain
  counter := by
    rintro i current o - - rfl
    rfl
  history := by
    rintro i current o path - - rfl -
    rfl
  constant _ _ _ _ := by
    show resolveIterationCount (fun _ => none) _ (.number 2) = 2
    rfl

/-- Two passes, with a history. -/
theorem runs_times_sample :
    RunsTimes (fun _ => none) (samplePipeline (some "$.history")) 0 2 sampleState := by
  refine runs_times (sampleSection _) ⟨⟨⟨by decide +kernel, by decide +kernel⟩, by decide +kernel⟩,
    ?_, .inr ⟨"$.history", by decide +kernel, ⟨⟨by decide +kernel, by decide +kernel⟩,
      by decide +kernel⟩, by decide +kernel, ?_⟩⟩
  · intro path hpath
    have hpath' : path = "$.history" := by
      have hhistory : historyPath (samplePipeline (some "$.history")).loop = some "$.history" := by
        decide +kernel
      exact Option.some.inj (hpath.symm.trans hhistory)
    subst hpath'
    exact ⟨⟨by decide +kernel, by decide +kernel⟩, nofun⟩
  · unfold Overlap
    decide +kernel

/-- the data after a visit without a history. -/
def sampleData : Value := obj [("counter", counterOf 2 1)]

theorem sampleVisit (d : Value) (hd : d = obj [] ∨ d = sampleData) :
    visitLoop (fun _ => none) (samplePipeline none).loop
      (buildStepTargetIndex (samplePipeline none).heads) d = .ok ⟨sampleData, some 0⟩ := by
  rcases hd with rfl | rfl <;> rfl

/-- **A third pass of two.**  Without a history the second visit jumps back as the first one did. -/
theorem third_pass :
    Section (fun _ => none) (samplePipeline none) 0 2 sampleState ∧
      ¬RunsTimes (fun _ => none) (samplePipeline none) 0 2 sampleState := by
  refine ⟨sampleSection none, fun h => ?_⟩
  have hlimit : ∀ k < 4, k < MAX_PIPELINE_EXECUTED_STEPS := by decide
  have h₁ : Reached (fun _ => none) (samplePipeline none) 0 sampleState ⟨1, obj [], none, 1, 0⟩ :=
    .move .entered (by decide) (.step (o := ⟨obj [], none⟩) (by decide) (hlimit 0 (by decide)) rfl)
  have h₂ : Reached (fun _ => none) (samplePipeline none) 0 sampleState
      ⟨0, sampleData, none, 2, 1⟩ :=
    .move h₁ (by decide) (.visit rfl rfl (hlimit 1 (by decide)) (sampleVisit _ (.inl rfl)))
  have h₃ : Reached (fun _ => none) (samplePipeline none) 0 sampleState
      ⟨1, sampleData, none, 3, 1⟩ :=
    .move h₂ (by decide) (.step (o := ⟨sampleData, none⟩) (by decide) (hlimit 2 (by decide)) rfl)
  have h₄ : Reached (fun _ => none) (samplePipeline none) 0 sampleState
      ⟨0, sampleData, none, 4, 2⟩ :=
    .move h₃ (by decide) (.visit rfl rfl (hlimit 3 (by decide)) (sampleVisit _ (.inr rfl)))
  exact absurd (h.passes _ h₄ ⟨by decide, by decide⟩) (by decide)

end JumpLoop
end Pipelines
end WmAutopilot
