import WmAutopilot.Pipelines.BlockSnapshots

/-!
# A block step gets its own expansion, and its own scratch area

* `Apart`                 no other block step takes a step's key or its scratch area;
* `Faithful`              an execution used the expansion of its own step, which reads and overwrites
                          no scratch area of another block step;
* `faithful_iff_apart`    **one is the other, for every execution of every run**.

Keys are ids or names, and a scratch area has a name in which other characters are underscores; the
loader lets steps have the same.
-/

set_option autoImplicit false

namespace WmAutopilot
namespace Pipelines
namespace BlockSnapshots
open Js Js.Path Value

/-! ## paths -/

/-- the parts of the scratch area of a block step. -/
def BlockStep.area (step : BlockStep) : List String := ["blocks", String.ofList step.scratchName]

/-- a path that is read meets an area. -/
def Reads (path : String) (area : List String) : Prop :=
  pathParts path = ["$"] ∨ pathParts path = [""] ∨ Overlap (pathParts path) area

/-- an assignment to a path overwrites an area, or a part of it; without parts it throws. -/
def Overwrites (path : String) (area : List String) : Prop :=
  path = "" ∨ writeParts path ≠ [] ∧ Overlap (writeParts path) area

/-- an assignment keeps what it does not overwrite. -/
theorem getParts_assignOutput {current result next : Value} {path : String} {area : List String}
    (h : assignOutput current result path = some next) (hno : ¬Overwrites path area) :
    getParts next area = getParts current area := by
  have hpath : path ≠ "" := fun hp => hno (.inl hp)
  rw [assignOutput, if_neg hpath, setPath] at h
  split at h
  · exact absurd h nofun
  · rename_i hparts
    obtain rfl := Option.some.inj h
    have hover : ¬Overlap (writeParts path) area := fun ho => hno (.inr ⟨hparts, ho⟩)
    exact getParts_setParts hover _ _

theorem isWord_of_mem_underscored {c : Char} {cs : List Char} {replaced : Bool}
    (h : c ∈ underscored replaced cs) : Regex.isWord c = true := by
  induction cs generalizing replaced with
  | nil => exact absurd h List.not_mem_nil
  | cons d ds ih =>
    rw [underscored] at h
    split at h
    · rename_i hword
      rcases List.mem_cons.mp h with rfl | h
      · exact hword
      · exact ih h
    · split at h
      · exact ih h
      · rcases List.mem_cons.mp h with rfl | h
        · decide
        · exact ih h

/-- a sanitized name has no dot. -/
theorem no_dot_sanitizePathPart (value : String) : '.' ∉ sanitizePathPart value := by
  intro h
  unfold sanitizePathPart at h
  dsimp only at h
  split at h
  · exact absurd h (by decide)
  · have hdrop := (List.rdropWhile_prefix _ _).subset h
    have hword := isWord_of_mem_underscored ((List.dropWhile_suffix _).subset hdrop)
    exact absurd hword (by decide)

theorem sanitizePathPart_ne_nil (value : String) : sanitizePathPart value ≠ [] := by
  unfold sanitizePathPart
  dsimp only
  split
  · decide
  · assumption

/-- a path below the scratch area starts with its parts. -/
theorem BlockStep.area_prefix (step : BlockStep) {rest : String}
    (hrest : rest.toList = [] ∨ ∃ t, rest.toList = '.' :: t) :
    step.area <+: pathParts (step.scratch rest) :=
  pathParts_below (by decide) (no_dot_sanitizePathPart _) hrest

theorem BlockStep.area_prefix_writeParts (step : BlockStep) (rest : String)
    (hrest : rest.toList = [] ∨ ∃ t, rest.toList = '.' :: t) :
    step.area <+: writeParts (step.scratch rest) := by
  have hname : String.ofList step.scratchName ≠ "" := by
    intro h
    have hnil : step.scratchName = [] := by
      rw [← String.toList_ofList (l := step.scratchName), h]
      rfl
    exact sanitizePathPart_ne_nil _ hnil
  have hkept : step.area.filter (· ≠ "") = step.area := by
    refine List.filter_eq_self.mpr fun part hpart => decide_eq_true ?_
    rcases List.mem_cons.mp hpart with rfl | hpart
    · decide
    · rwa [List.mem_singleton.mp hpart]
  rw [← hkept]
  exact (step.area_prefix hrest).filter _

theorem BlockStep.length_area (step : BlockStep) : step.area.length = 2 := rfl

/-- what lies in one area lies in another only if they are the same. -/
theorem area_eq_of_overlap {a b : BlockStep} {parts : List String} (h : a.area <+: parts)
    (hover : Overlap parts b.area) : a.scratchName = b.scratchName := by
  have hlength : a.area.length = b.area.length := by rw [a.length_area, b.length_area]
  have heq : a.area = b.area := by
    rcases hover with hover | hover
    · exact (h.trans hover).eq_of_length hlength
    · exact (List.prefix_of_prefix_length_le h hover (Nat.le_of_eq hlength)).eq_of_length hlength
  obtain ⟨-, heq⟩ := List.cons.inj heq
  obtain ⟨hnames, -⟩ := List.cons.inj heq
  have hlists := congrArg String.toList hnames
  rwa [String.toList_ofList, String.toList_ofList] at hlists

/-! ## what an expansion reads and writes -/

/-- a path of the scratch area. -/
def BlockStep.Below (step : BlockStep) (path : String) : Prop :=
  ∃ rest : String, (rest.toList = [] ∨ ∃ t, rest.toList = '.' :: t) ∧ path = step.scratch rest

theorem BlockStep.below_input (step : BlockStep) (field : String) :
    step.Below (step.scratch (".input." ++ field)) :=
  ⟨".input." ++ field, .inr ⟨"input.".toList ++ field.toList, by rw [String.toList_append]; rfl⟩, rfl⟩

theorem BlockStep.below_part (step : BlockStep) {part : String} (h : part.toList.head? = some '.') :
    step.Below (step.scratch part) := by
  refine ⟨part, .inr ?_, rfl⟩
  cases hpart : part.toList with
  | nil => rw [hpart] at h; exact absurd h nofun
  | cons c t =>
    rw [hpart] at h
    obtain rfl := Option.some.inj h
    exact ⟨t, rfl⟩

/-- a step of an expansion reads below the scratch area, and writes there or to the output path. -/
def BlockStep.Contains (step : BlockStep) (s : ExpansionStep) : Prop :=
  (∀ path ∈ s.reads, step.Below path) ∧ (s.assign = step.outputPath ∨ step.Below s.assign)

/-- all paths of an expansion. -/
theorem expansion_paths {step : BlockStep} {x : Expansion} (h : expandPipelineBlock step = .ok x) :
    x.inputPath = step.scratch ".input" ∧ (∀ s ∈ x.steps, step.Contains s) ∧
      ∃ s ∈ x.steps, s.assign = step.outputPath := by
  have hinputs : ∀ fields : List String, ∀ path ∈ fields.map (fun f => step.scratch (".input." ++ f)),
      step.Below path := by
    intro fields path hpath
    obtain ⟨field, -, rfl⟩ := List.mem_map.mp hpath
    exact step.below_input field
  have hmore : ∀ (fields parts : List String), (∀ part ∈ parts, part.toList.head? = some '.') →
      ∀ path ∈ fields.map (fun f => step.scratch (".input." ++ f)) ++ parts.map step.scratch,
        step.Below path := by
    intro fields parts hparts path hpath
    rcases List.mem_append.mp hpath with hpath | hpath
    · exact hinputs fields path hpath
    · obtain ⟨part, hpart, rfl⟩ := List.mem_map.mp hpath
      exact step.below_part (hparts part hpart)
  unfold expandPipelineBlock at h
  split at h
  · rename_i steps hsteps
    obtain rfl := Except.ok.inj h
    refine ⟨rfl, ?_⟩
    unfold expansionSteps at hsteps
    dsimp only at hsteps
    split at hsteps
    · obtain rfl := Option.some.inj hsteps
      exact ⟨List.forall_mem_singleton.mpr ⟨hinputs _, .inl rfl⟩, _, List.mem_singleton_self _, rfl⟩
    split at hsteps
    · obtain rfl := Option.some.inj hsteps
      exact ⟨List.forall_mem_singleton.mpr ⟨hinputs _, .inl rfl⟩, _, List.mem_singleton_self _, rfl⟩
    split at hsteps
    · obtain rfl := Option.some.inj hsteps
      exact ⟨List.forall_mem_singleton.mpr ⟨hinputs _, .inl rfl⟩, _, List.mem_singleton_self _, rfl⟩
    split at hsteps
    · obtain rfl := Option.some.inj hsteps
      refine ⟨?_, _, List.mem_cons_of_mem _ (List.mem_singleton_self _), rfl⟩
      refine List.forall_mem_cons.mpr ⟨⟨hinputs _, .inr (step.below_part rfl)⟩, ?_⟩
      exact List.forall_mem_singleton.mpr ⟨hmore _ [".judgments"] (by decide), .inl rfl⟩
    split at hsteps
    · obtain rfl := Option.some.inj hsteps
      refine ⟨?_, _, List.mem_cons_of_mem _ (List.mem_cons_of_mem _ (List.mem_singleton_self _)), rfl⟩
      refine List.forall_mem_cons.mpr ⟨⟨hinputs _, .inr (step.below_part rfl)⟩, ?_⟩
      refine List.forall_mem_cons.mpr ⟨⟨hmore _ [".entityExtraction.entities"] (by decide),
        .inr (step.below_part rfl)⟩, ?_⟩
      exact List.forall_mem_singleton.mpr ⟨hmore _ [".entityExtraction.entities",
        ".rawMatches.matches", ".rawMatches.warnings"] (by decide), .inl rfl⟩
    · exact absurd hsteps nofun
  · exact absurd h nofun

/-! ## lookups -/

theorem Snapshots.lookup_assign_self {snapshots : Snapshots} {key : String} (x : Expansion)
    (h : key ≠ "__proto__") : (snapshots.assign key x).lookup key = some x := by
  rw [assign, if_neg h]
  exact List.lookup_cons_self

theorem Snapshots.lookup_assign_of_ne {snapshots : Snapshots} {key other : String} (x : Expansion)
    (h : key ≠ other) : (snapshots.assign other x).lookup key = snapshots.lookup key := by
  rw [assign]
  split
  · rfl
  · rw [List.lookup_cons, beq_false_of_ne h]

/-- nothing is found under `__proto__`. -/
theorem lookup_proto {snapshots result : Snapshots} {list : List Site}
    (h : snapshotSites snapshots list = .ok result) :
    result.lookup "__proto__" = snapshots.lookup "__proto__" := by
  induction list generalizing snapshots with
  | nil =>
    obtain rfl := Except.ok.inj h
    rfl
  | cons site rest ih =>
    rw [snapshotSites] at h
    split at h
    · rename_i x _
      rw [ih h]
      by_cases hkey : site.key = "__proto__"
      · rw [Snapshots.assign, if_pos hkey]
      · exact Snapshots.lookup_assign_of_ne x (Ne.symm hkey)
    · exact absurd h nofun

/-- **What is found under a key** is the expansion of the last block step with the key. -/
theorem lookup_snapshotSites {snapshots result : Snapshots} {list : List Site}
    (h : snapshotSites snapshots list = .ok result) {key : String} (hkey : key ≠ "__proto__") :
    (list.reverse.find? (·.key = key) = none ∧ result.lookup key = snapshots.lookup key) ∨
      ∃ b x, list.reverse.find? (·.key = key) = some b ∧ expandPipelineBlock b.step = .ok x ∧
        result.lookup key = some x := by
  induction list generalizing snapshots with
  | nil =>
    obtain rfl := Except.ok.inj h
    exact .inl ⟨rfl, rfl⟩
  | cons site rest ih =>
    rw [snapshotSites] at h
    split at h
    · rename_i x hx
      rw [List.reverse_cons, List.find?_append]
      rcases ih h with ⟨hnone, hlookup⟩ | ⟨b, y, hfound, hy, hlookup⟩
      · rw [hnone, Option.none_or, hlookup]
        by_cases hsite : site.key = key
        · refine .inr ⟨site, x, List.find?_cons_of_pos (decide_eq_true hsite), hx, ?_⟩
          rw [hsite]
          exact Snapshots.lookup_assign_self x hkey
        · refine .inl ⟨List.find?_cons_of_neg ?_, Snapshots.lookup_assign_of_ne x (Ne.symm hsite)⟩
          exact fun heq => hsite (of_decide_eq_true heq)
      · exact .inr ⟨b, y, by rw [hfound, Option.some_or], hy, hlookup⟩
    · exact absurd h nofun

/-! ## executions -/

/-- An execution of the block step at a site, with what is looked up there. -/
structure Executed (snapshots : Snapshots) (list : List Site) (e : Event) (a : Site) : Prop where
  listed : a ∈ list
  executed : a.executed = true
  place : a.place = e.place
  step : a.step = e.step
  expansion : e.expansion = snapshots.lookup a.key
  /-- the states are those of the input and of the steps of the expansion. -/
  states : ∀ x, e.expansion = some x → e.states = [] ∨ ∃ input first states out,
    e.states = first :: states ∧ assignOutput e.before input x.inputPath = some first ∧
      Children x.steps first states out

theorem Executed.mono {snapshots : Snapshots} {list more : List Site} {e : Event} {a : Site}
    (h : Executed snapshots list e a) (hmore : a ∈ list → a ∈ more) :
    Executed snapshots more e a := { h with listed := hmore h.listed }

/-- the executions of a list of events are those of sites. -/
def Covered (snapshots : Snapshots) (list : List Site) (events : List Event) : Prop :=
  ∀ e ∈ events, ∃ a, Executed snapshots list e a

theorem Covered.nil {snapshots : Snapshots} {list : List Site} : Covered snapshots list [] :=
  fun _ h => absurd h List.not_mem_nil

theorem Covered.append {snapshots : Snapshots} {list : List Site} {p q : List Event}
    (hp : Covered snapshots list p) (hq : Covered snapshots list q) :
    Covered snapshots list (p ++ q) := fun e he =>
  (List.mem_append.mp he).elim (hp e) (hq e)

theorem Covered.mono {snapshots : Snapshots} {list more : List Site} {events : List Event}
    (h : Covered snapshots list events) (hmore : ∀ a ∈ list, a ∈ more) :
    Covered snapshots more events := by
  intro e he
  obtain ⟨a, ha⟩ := h e he
  exact ⟨a, ha.mono (hmore a)⟩

theorem BlockRun.covered {snapshots : Snapshots} {place : List ℕ} {key : String} {step : BlockStep}
    {current : Value} {events : List Event} {out : Option Value}
    (h : BlockRun place step current (snapshots.lookup key) events out) :
    Covered snapshots [⟨place, key, step, true⟩] events := by
  generalize hfound : snapshots.lookup key = found at h
  intro e he
  refine ⟨⟨place, key, step, true⟩, ?_⟩
  have hself := List.mem_singleton_self (⟨place, key, step, true⟩ : Site)
  cases h with
  | missing =>
    obtain rfl := List.mem_singleton.mp he
    exact ⟨hself, rfl, rfl, rfl, hfound.symm, fun x hx => absurd hx nofun⟩
  | run hinput hchildren =>
    obtain rfl := List.mem_singleton.mp he
    refine ⟨hself, rfl, rfl, rfl, hfound.symm, fun x hx => .inr ?_⟩
    obtain rfl := Option.some.inj hx
    exact ⟨_, _, _, _, rfl, hinput, hchildren⟩
  | thrown x =>
    obtain rfl := List.mem_singleton.mp he
    exact ⟨hself, rfl, rfl, rfl, hfound.symm, fun x hx => .inl rfl⟩

/-- what holds of the events of each repetition holds of all. -/
theorem Repeats.covered {snapshots : Snapshots} {list : List Site}
    {P : Value → List Event → Option Value → Prop}
    (hP : ∀ current events out, P current events out → Covered snapshots list events) {n : ℕ}
    {current : Value} {events : List Event} {out : Option Value}
    (h : Repeats P n current events out) : Covered snapshots list events := by
  induction h with
  | done current => exact Covered.nil
  | stopped h => exact hP _ _ _ h
  | again h _ ih => exact (hP _ _ _ h).append ih

mutual

/-- the block executions of a step are those of its sites. -/
theorem Executes.covered {snapshots : Snapshots} {place : List ℕ} {pre : String} {current : Value}
    {events : List Event} {out : Option Value} (step : Step)
    (h : Executes snapshots place pre step current events out) :
    Covered snapshots (visit true place pre step) events := by
  unfold Executes at h
  rcases h with ⟨rfl, -⟩ | h
  · exact Covered.nil
  · match step with
    | .leaf head =>
      obtain ⟨rfl, -⟩ := h
      exact Covered.nil
    | .block step =>
      rcases h with ⟨-, rfl, -⟩ | h
      · exact Covered.nil
      · rw [visit]
        exact h.covered
    | .loop head counter (some steps) =>
      rcases h with ⟨-, rfl, -⟩ | ⟨n, last, h, -⟩
      · exact Covered.nil
      · rw [visit]
        refine h.covered fun current events out h => ?_
        obtain ⟨_, _, -, h⟩ := h
        exact ExecutesAll.covered steps h
    | .loop head counter none =>
      obtain ⟨rfl, -⟩ := h
      exact Covered.nil
    | .parallel head step =>
      obtain ⟨rfl, -⟩ := h
      exact Covered.nil

theorem ExecutesAll.covered {snapshots : Snapshots} {place : List ℕ} {pre : String} {i : ℕ}
    {current : Value} {events : List Event} {out : Option Value} (steps : List Step)
    (h : ExecutesAll snapshots place pre i steps current events out) :
    Covered snapshots (visitAll true place pre i steps) events := by
  match steps with
  | [] =>
    rw [ExecutesAll] at h
    obtain ⟨rfl, -⟩ := h
    exact Covered.nil
  | step :: steps =>
    rw [ExecutesAll] at h
    rw [visitAll]
    rcases h with ⟨h, -⟩ | ⟨first, next, rest, hfirst, hrest, rfl⟩
    · exact (Executes.covered step h).mono fun a => List.mem_append_left _
    · exact ((Executes.covered step hfirst).mono fun a => List.mem_append_left _).append
        ((ExecutesAll.covered steps hrest).mono fun a => List.mem_append_right _)

end

theorem mem_visitAll {executed : Bool} {place : List ℕ} {pre : String} {i n : ℕ} {steps : List Step}
    {s : Step} (hs : steps[n]? = some s) {a : Site}
    (ha : a ∈ visit executed (place ++ [i + n]) pre s) :
    a ∈ visitAll executed place pre i steps := by
  induction steps generalizing i n with
  | nil => exact absurd hs nofun
  | cons t ts ih =>
    rw [visitAll]
    cases n with
    | zero =>
      obtain rfl := Option.some.inj hs
      exact List.mem_append_left _ ha
    | succ n =>
      refine List.mem_append_right _ (ih (i := i + 1) hs ?_)
      rwa [Nat.add_right_comm, Nat.add_assoc]

/-- the executions of a run are those of the block steps of its definition. -/
theorem Reached.covered {steps : List Step} {snapshots : Snapshots} {input : Value} {cursor : ℕ}
    {current : Value} {log : List Event} (h : Reached steps snapshots input cursor current log) :
    Covered snapshots (sites steps) log := by
  have hone : ∀ {cursor : ℕ} {current : Value} {events : List Event} {out : Option Value} {s : Step},
      steps[cursor]? = some s → Executes snapshots [cursor] "" s current events out →
        Covered snapshots (sites steps) events := by
    intro cursor current events out s hs hrun
    refine (Executes.covered s hrun).mono fun a ha => mem_visitAll hs ?_
    rwa [List.nil_append, Nat.zero_add]
  induction h with
  | start => exact Covered.nil
  | step _ hs hrun ih => exact ih.append (hone hs hrun)
  | resumed _ hs hrun ih => exact ih.append (hone hs hrun)

/-! ## places -/

/-! ## the condition -/

/-- No other block step takes the key or the scratch area of the one at a site. -/
structure Apart (steps : List Step) (a : Site) : Prop where
  proto : a.key ≠ "__proto__"
  /-- the last block step with the key has the same expansion. -/
  last : ∀ b, (sites steps).reverse.find? (·.key = a.key) = some b →
    expandPipelineBlock b.step = expandPipelineBlock a.step
  scratch : ∀ b ∈ sites steps, b.executed = true → b.place ≠ a.place →
    a.step.scratchName ≠ b.step.scratchName ∧ ¬Overwrites a.step.outputPath b.step.area

/-- an expansion, and the states of an execution with it, leave an area alone. -/
structure Leaves (x : Expansion) (e : Event) (area : List String) : Prop where
  reads : ∀ s ∈ x.steps, ∀ path ∈ s.reads, ¬Reads path area
  input : ¬Overwrites x.inputPath area
  writes : ∀ s ∈ x.steps, ¬Overwrites s.assign area
  states : ∀ state ∈ e.states, getParts state area = getParts e.before area

/-- An execution used the expansion of its own step, which leaves alone the scratch areas of all
other block steps that are executed. -/
def Faithful (steps : List Step) (e : Event) : Prop :=
  ∃ x, expandPipelineBlock e.step = .ok x ∧ e.expansion = some x ∧
    ∀ b ∈ sites steps, b.executed = true → b.place ≠ e.place → Leaves x e b.step.area

/-! ## executions leave other areas alone -/

theorem BlockStep.not_reads {a b : BlockStep} (h : a.scratchName ≠ b.scratchName) {path : String}
    (hpath : a.Below path) : ¬Reads path b.area := by
  obtain ⟨rest, hrest, rfl⟩ := hpath
  have hparts := a.area_prefix hrest
  intro hreads
  rcases hreads with hroot | hroot | hover
  · rw [hroot] at hparts
    exact absurd hparts.length_le (by rw [a.length_area]; decide)
  · rw [hroot] at hparts
    exact absurd hparts.length_le (by rw [a.length_area]; decide)
  · exact h (area_eq_of_overlap hparts hover)

theorem BlockStep.not_overwrites {a b : BlockStep} (h : a.scratchName ≠ b.scratchName)
    {path : String} (hpath : a.Below path) : ¬Overwrites path b.area := by
  obtain ⟨rest, hrest, rfl⟩ := hpath
  intro hwrites
  rcases hwrites with hempty | ⟨-, hover⟩
  · have hparts := a.area_prefix hrest
    rw [hempty] at hparts
    exact absurd hparts.length_le (by rw [a.length_area]; decide)
  · exact h (area_eq_of_overlap (a.area_prefix_writeParts rest hrest) hover)

/-- an execution of the input of a block step overwrites its own area. -/
theorem BlockStep.overwrites_area (a : BlockStep) {b : BlockStep}
    (h : a.scratchName = b.scratchName) : Overwrites (a.scratch ".input") b.area := by
  have harea : a.area = b.area := by rw [area, area, h]
  have hparts := a.area_prefix_writeParts ".input" (.inr ⟨_, rfl⟩)
  refine .inr ⟨?_, .inr (harea ▸ hparts)⟩
  intro hnil
  rw [hnil] at hparts
  exact absurd hparts.length_le (by rw [a.length_area]; decide)

theorem Children.leaves {area : List String} {steps : List ExpansionStep} {current : Value}
    {states : List Value} {out : Option Value} (h : Children steps current states out)
    (hsteps : ∀ s ∈ steps, ¬Overwrites s.assign area) :
    ∀ state ∈ states, getParts state area = getParts current area := by
  induction h with
  | done current => exact fun _ hstate => absurd hstate List.not_mem_nil
  | stopped steps current => exact fun _ hstate => absurd hstate List.not_mem_nil
  | step hassign _ ih =>
    have hnext := getParts_assignOutput hassign (hsteps _ List.mem_cons_self)
    intro state hstate
    rcases List.mem_cons.mp hstate with rfl | hstate
    · exact hnext
    · rw [← hnext]
      exact ih (fun s hs => hsteps s (List.mem_cons_of_mem _ hs)) state hstate

/-- what an expansion does not overwrite is the same in all states of an execution. -/
theorem Executed.leaves {snapshots : Snapshots} {list : List Site} {e : Event} {a : Site}
    (h : Executed snapshots list e a) {x : Expansion} (hx : e.expansion = some x)
    {area : List String} (hinput : ¬Overwrites x.inputPath area)
    (hsteps : ∀ s ∈ x.steps, ¬Overwrites s.assign area) :
    ∀ state ∈ e.states, getParts state area = getParts e.before area := by
  rcases h.states x hx with hnil | ⟨_, first, states, _, hstates, hassign, hchildren⟩
  · intro state hstate
    rw [hnil] at hstate
    exact absurd hstate List.not_mem_nil
  · have hfirst := getParts_assignOutput hassign hinput
    intro state hstate
    rw [hstates] at hstate
    rcases List.mem_cons.mp hstate with rfl | hstate
    · exact hfirst
    · rw [← hfirst]
      exact hchildren.leaves hsteps state hstate

/-! ## the result -/

/-- an expansion is found under the key of a block step that is apart, and it is its own. -/
theorem Apart.found {steps : List Step} {snapshots : Snapshots}
    (hsnapshots : snapshotPipelineBlocks steps = .ok snapshots) {a : Site}
    (hmem : a ∈ sites steps) (h : Apart steps a) :
    ∃ x, expandPipelineBlock a.step = .ok x ∧ snapshots.lookup a.key = some x := by
  rcases lookup_snapshotSites hsnapshots h.proto with ⟨hnone, -⟩ | ⟨b, x, hb, hx, hlookup⟩
  · exact absurd (decide_eq_true rfl) (List.find?_eq_none.mp hnone a (List.mem_reverse.mpr hmem))
  · exact ⟨x, by rw [← h.last b hb, hx], hlookup⟩

/-- **Faithful executions.**  In every run of a definition, first execution or resume, an execution
of a block step uses its own expansion and leaves the scratch areas of the others alone exactly if
the block step is apart from the others. -/
theorem faithful_iff_apart {steps : List Step} {snapshots : Snapshots}
    (hsnapshots : snapshotPipelineBlocks steps = .ok snapshots) {input : Value} {cursor : ℕ}
    {current : Value} {log : List Event} (hrun : Reached steps snapshots input cursor current log)
    {e : Event} (he : e ∈ log) :
    ∃ a ∈ sites steps, a.place = e.place ∧ a.step = e.step ∧ (Faithful steps e ↔ Apart steps a) := by
  obtain ⟨a, ha⟩ := hrun.covered e he
  refine ⟨a, ha.listed, ha.place, ha.step, ?_⟩
  constructor
  · intro hfaithful
    obtain ⟨x, hx, hused, hothers⟩ := hfaithful
    have hlookup : snapshots.lookup a.key = some x := by rw [← ha.expansion, hused]
    obtain ⟨hinput, hsteps, s, hs, hassign⟩ := expansion_paths hx
    have hproto : a.key ≠ "__proto__" := by
      intro hkey
      rw [hkey, lookup_proto hsnapshots] at hlookup
      exact absurd hlookup nofun
    refine ⟨hproto, fun b hb => ?_, fun b hb hexecuted hplace => ⟨fun hname => ?_, ?_⟩⟩
    · rcases lookup_snapshotSites hsnapshots hproto with ⟨hnone, -⟩ | ⟨c, y, hc, hy, hfound⟩
      · rw [hnone] at hb
        exact absurd hb nofun
      · rw [hc] at hb
        obtain rfl := Option.some.inj hb
        rw [hfound] at hlookup
        rw [hy, ha.step, hx, Option.some.inj hlookup]
    · have hleaves := hothers b hb hexecuted (by rwa [← ha.place])
      apply hleaves.input
      rw [hinput, ← ha.step]
      exact a.step.overwrites_area hname
    · have hleaves := hothers b hb hexecuted (by rwa [← ha.place])
      rw [ha.step, ← hassign]
      exact hleaves.writes s hs
  · intro hapart
    obtain ⟨x, hx, hlookup⟩ := hapart.found hsnapshots ha.listed
    have hused : e.expansion = some x := by rw [ha.expansion, hlookup]
    refine ⟨x, by rw [← ha.step, hx], hused, fun b hb hexecuted hplace => ?_⟩
    obtain ⟨hname, hout⟩ := hapart.scratch b hb hexecuted (by rwa [ha.place])
    obtain ⟨hinput, hsteps, -⟩ := expansion_paths hx
    have hinputs : ¬Overwrites x.inputPath b.step.area := by
      rw [hinput]
      exact BlockStep.not_overwrites hname (a.step.below_part rfl)
    have hwrites : ∀ s ∈ x.steps, ¬Overwrites s.assign b.step.area := by
      intro s hs
      rcases (hsteps s hs).2 with hassign | hassign
      · rw [hassign]
        exact hout
      · exact BlockStep.not_overwrites hname hassign
    exact {
      reads := fun s hs path hpath => BlockStep.not_reads hname ((hsteps s hs).1 path hpath)
      input := hinputs
      writes := hwrites
      states := ha.leaves hused hinputs hwrites }

/-! ## a definition with a name used twice -/

def delivery (name block : String) : BlockStep := ⟨⟨none, name, none, none⟩, block⟩

/-- a message that is sent, and then an answer that is returned. -/
def deliveries (sent answered : String) : List Step :=
  [.block (delivery sent "flightdeck.sendDirectMessage"),
    .block (delivery answered "flightdeck.returnToThread")]

/-- the expansion of an answer that is returned. -/
def returned : Expansion :=
  ⟨"$.blocks.deliver", "$.blocks.deliver.input", "$.threadDelivery",
    [⟨"deliver / return-to-thread", some "flightdeck.returnToThread",
      ["$.blocks.deliver.input.workspaceId", "$.blocks.deliver.input.threadId",
        "$.blocks.deliver.input.frmNpub", "$.blocks.deliver.input.prompt",
        "$.blocks.deliver.input.message"], "$.threadDelivery"⟩]⟩

/-- the expansion of a message that is sent. -/
def sent : Expansion :=
  ⟨"$.blocks.deliver", "$.blocks.deliver.input", "$.directMessage",
    [⟨"deliver / send-direct-message", some "flightdeck.sendDirectMessage",
      ["$.blocks.deliver.input.fromNpub", "$.blocks.deliver.input.toNpub",
        "$.blocks.deliver.input.message"], "$.directMessage"⟩]⟩

def deliverInput : Value := obj [("blocks", obj [("deliver", obj [("input", obj [])])])]

/-- the first step of the definition, executed with an expansion. -/
theorem first_delivery {name answered path : String} {x : Expansion} {s : ExpansionStep}
    {snapshots : Snapshots} {after : Value} (hlookup : snapshots.lookup ("" ++ name) = some x)
    (hpath : assignOutput (obj []) (obj []) x.inputPath = some deliverInput)
    (hsteps : x.steps = [s]) (hs : s.assign = path)
    (hassign : assignOutput deliverInput (obj []) path = some after) :
    Reached (deliveries name answered) snapshots (obj []) 1 after
      ([] ++ [⟨[0], delivery name "flightdeck.sendDirectMessage", some x, obj [],
        [deliverInput, after]⟩]) := by
  refine .step .start (s := .block (delivery name "flightdeck.sendDirectMessage")) rfl ?_
  unfold Executes
  have hchildren : Children x.steps deliverInput [after] (some after) := by
    rw [hsteps]
    exact .step (by rw [hs, hassign]) (.done after)
  have hfound : snapshots.lookup
      ("" ++ (delivery name "flightdeck.sendDirectMessage").head.key) = some x := hlookup
  refine .inr (.inr ?_)
  rw [hfound]
  exact .run hpath hchildren

/-- the expansions of `deliver` and `answer`. -/
def expanded : Snapshots :=
  [("answer", ⟨"$.blocks.answer", "$.blocks.answer.input", "$.threadDelivery",
      [⟨"answer / return-to-thread", some "flightdeck.returnToThread",
        ["$.blocks.answer.input.workspaceId", "$.blocks.answer.input.threadId",
          "$.blocks.answer.input.frmNpub", "$.blocks.answer.input.prompt",
          "$.blocks.answer.input.message"], "$.threadDelivery"⟩]⟩),
    ("deliver", sent)]

theorem snapshot_answer :
    snapshotPipelineBlocks (deliveries "deliver" "answer") = .ok expanded := by
  decide +kernel

/-- a run in which two names differ: the first block is executed, and is apart. -/
theorem faithful_iff_apart_answer :
    ∃ a ∈ sites (deliveries "deliver" "answer"), a.place = [0] ∧
      a.step = delivery "deliver" "flightdeck.sendDirectMessage" ∧
      (Faithful (deliveries "deliver" "answer")
        ⟨[0], delivery "deliver" "flightdeck.sendDirectMessage", some sent, obj [],
          [deliverInput, deliverInput.set "directMessage" (obj [])]⟩ ↔
        Apart (deliveries "deliver" "answer") a) :=
  faithful_iff_apart snapshot_answer
    (first_delivery (by decide +kernel) (by decide +kernel) rfl rfl (by decide +kernel))
    (List.mem_singleton_self _)

/-- **A block step that gets the expansion of another.**  Both steps are named `deliver`: the
message that is to be sent is returned to a thread instead, and is never sent. -/
theorem twin_is_executed_instead : ∃ snapshots current e,
    snapshotPipelineBlocks (deliveries "deliver" "deliver") = .ok snapshots ∧
      Reached (deliveries "deliver" "deliver") snapshots (obj []) 1 current [e] ∧
      e.step = delivery "deliver" "flightdeck.sendDirectMessage" ∧
      expandPipelineBlock e.step = .ok sent ∧ e.expansion = some returned ∧
      ¬Faithful (deliveries "deliver" "deliver") e := by
  refine ⟨[("deliver", returned), ("deliver", sent)],
    deliverInput.set "threadDelivery" (obj []),
    ⟨[0], delivery "deliver" "flightdeck.sendDirectMessage", some returned, obj [],
      [deliverInput, deliverInput.set "threadDelivery" (obj [])]⟩,
    by decide +kernel,
    first_delivery (by decide +kernel) (by decide +kernel) rfl rfl (by decide +kernel),
    rfl, by decide +kernel, rfl, ?_⟩
  intro hfaithful
  obtain ⟨x, hx, hused, -⟩ := hfaithful
  have hsent : expandPipelineBlock (delivery "deliver" "flightdeck.sendDirectMessage") = .ok sent := by
    decide +kernel
  rw [hsent] at hx
  obtain rfl := Except.ok.inj hx
  exact absurd hused (by decide +kernel)

end BlockSnapshots
end Pipelines
end WmAutopilot
