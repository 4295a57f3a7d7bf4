import Mathlib.Data.Rat.Defs
import WmAutopilot.Js.JsonCopy
import WmAutopilot.Pipelines.PathLens

/-!
# Jump loops of pipelines

A `loop` step without `steps` sends the runner back to an earlier step until a number of passes was
made.  The runner keeps no count: each visit reads it from the data.

* `LoopStep`             what such a step says;
* `resolveIterationCount`, `getHistoryItems`, `captureLoopValues`   what it reads of the data;
* `visitLoop`            a visit: the data it leaves, and where it jumps to;
* `resumeLoop`           the same after a crash, of the result that the visit had stored;
* `Pipeline`, `Moves`    the main loop of the runner, with crashes and resumes.
-/

set_option autoImplicit false

namespace WmAutopilot
namespace Pipelines
namespace JumpLoop
open Js Js.Value Js.Chain PathLens

/-- `iterations` of a step. -/
inductive Count where
  | number (q : ℚ)
  | path (path : String)
  deriving DecidableEq, Repr

/-- A `loop` step without `steps` and without `when`. -/
structure LoopStep where
  name : String
  iterations : Option Count
  target : Option String
  history : Option String
  capture : Option (List (String × String))
  counter : Option String
  deriving Repr

/-- what ends the execution of a step: an error, or a write to the prototype of all objects. -/
inductive Stop where
  | error (message : String)
  | prototype
  deriving DecidableEq, Repr

/-- What a step leaves. -/
structure Outcome where
  current : Value
  jumpTo : Option ℕ
  deriving DecidableEq, Repr

/-! ## what a visit reads -/

/-- `resolveIterationCount`; `number` is `Number(value)` on a value that is no number, and `none`
is `NaN` or infinite. -/
def resolveIterationCount (number : Ref → Option ℚ) (current : Value) (value : Count) : ℕ :=
  let raw := match value with
    | .path path => resolvePath current path
    | .number q => .value (num q)
  let count := match raw with
    | .value (num q) => some q
    | raw => number raw
  match count with
  | none => 1
  | some q => if q.floor < 1 then 1 else min q.floor.toNat 200

/-- `step.name.replace(/[^a-zA-Z0-9_]+/g, "_")` -/
def sanitize : List Char → List Char
  | [] => []
  | c :: cs =>
    if c.isAlphanum || c = '_' then c :: sanitize cs
    else '_' :: sanitize (cs.dropWhile fun d => !(d.isAlphanum || d = '_'))
termination_by cs => cs.length
decreasing_by
  · exact Nat.lt_succ_self _
  · exact Nat.lt_succ_of_le (List.dropWhile_sublist _).length_le

def counterPath (step : LoopStep) : String :=
  step.counter.getD ("$.loop." ++ String.ofList (sanitize step.name.toList))

/-- `step.history`, when it is a path. -/
def historyPath (step : LoopStep) : Option String := step.history.filter (· ≠ "")

/-- the items of a history: an array, or the `items` of an object. -/
def itemsOf : Ref → List Value
  | .value (arr vs) => vs
  | .value (obj fs) => ((obj fs).get "items").elements.getD []
  | _ => []

/-- `getHistoryItems` -/
def getHistoryItems (current : Value) (path : String) : List Value :=
  itemsOf (resolvePath current path)

/-- what the structured clone of a value that was read is; `none`: a function has no clone. -/
def cloned : Ref → Option Value
  | .value v => some v
  | .prototype => some (obj [])
  | .builtin _ => none

/-- `captureLoopValues`; `none`: a function was captured. -/
def captureLoopValues (current : Value) (capture : Option (List (String × String))) :
    Option (List (String × Value)) :=
  (capture.getD []).mapM fun c => (cloned (resolvePath current c.2)).map (c.1, ·)

/-! ## a visit -/

/-- `assignOutput`, with the data it leaves. -/
def assign (current result : Value) (path : String) : Except Stop Value :=
  match assignOutput current result path with
  | .error message => .error (.error message)
  | .ok .prototype => .error .prototype
  | .ok (.value next) => .ok next

/-- the counter after `completed` passes. -/
def counterOf (iterations completed : ℕ) : Value :=
  obj [("iteration", num (min (completed + 1) iterations : ℕ)),
    ("index", num (min completed (iterations - 1) : ℕ)), ("completed", num completed),
    ("total", num iterations), ("done", bool (decide (iterations ≤ completed)))]

/-- the history with one more pass. -/
def historyOf (items : List Value) (captured : List (String × Value)) : Value :=
  obj [("items", arr (items ++
    [(obj [("iteration", num (items.length + 1 : ℕ))]).spread captured]))]

/-- the data after a visit.  A captured function is found when the data are cloned for the
counter. -/
def visitData (step : LoopStep) (iterations : ℕ) (current : Value) : Except Stop Value :=
  match historyPath step with
  | none => assign current (counterOf iterations 1) (counterPath step)
  | some path =>
    let items := getHistoryItems current path
    let captured := captureLoopValues current step.capture
    do
      let next ← assign current (historyOf items (captured.getD [])) path
      if captured = none ∧ counterPath step ≠ "" then .error (.error "DataCloneError")
      else assign next (counterOf iterations (items.length + 1)) (counterPath step)

/-- the passes that a visit counts. -/
def completedOf (step : LoopStep) (current : Value) : ℕ :=
  match historyPath step with
  | none => 1
  | some path => (getHistoryItems current path).length + 1

/-- the index that a step jumps to. -/
def jump (step : LoopStep) (targetIndex : String → Option ℕ) : Except Stop (Option ℕ) :=
  match step.target.filter (· ≠ "") with
  | none => .error (.error ("Loop step " ++ step.name ++ " requires target"))
  | some target =>
    match targetIndex target with
    | none => .error (.error ("Loop step " ++ step.name ++ " target not found: " ++ target))
    | some index => .ok (some index)

/-- the index that a step jumps to, when it does. -/
def jumpWhen (again : Bool) (step : LoopStep) (targetIndex : String → Option ℕ) :
    Except Stop (Option ℕ) :=
  if again then jump step targetIndex else .ok none

/-- A visit of the step. -/
def visitLoop (number : Ref → Option ℚ) (step : LoopStep) (targetIndex : String → Option ℕ)
    (current : Value) : Except Stop Outcome := do
  let iterations := resolveIterationCount number current (step.iterations.getD (.number 1))
  let next ← visitData step iterations current
  let jumpTo ← jumpWhen (completedOf step current < iterations) step targetIndex
  .ok ⟨next, jumpTo⟩

/-- the counter is an object that does not say `done`. -/
def unfinished : Ref → Bool
  | .value (obj fs) => (obj fs).get "done" ≠ bool true
  | .prototype => true
  | _ => false

/-- The visit of a step whose result was stored before a crash. -/
def resumeLoop (step : LoopStep) (targetIndex : String → Option ℕ) (result : Value) :
    Except Stop Outcome := do
  let jumpTo ← jumpWhen (unfinished (resolvePath result (counterPath step))) step targetIndex
  .ok ⟨result, jumpTo⟩

/-! ## the main loop -/

def MAX_PIPELINE_EXECUTED_STEPS : ℕ := 2000

/-- `buildStepTargetIndex`: an id and a name stand for the last step that has them. -/
def buildStepTargetIndex (heads : List (Option String × String)) (target : String) : Option ℕ :=
  (heads.zipIdx.reverse.find? fun h =>
    (h.1.1 = some target ∧ target ≠ "") ∨ h.1.2 = target).map (·.2)

/-- A pipeline with a jump loop: the ids and names of its steps, the loop, the index of the loop,
and what the other steps can leave. -/
structure Pipeline where
  heads : List (Option String × String)
  loop : LoopStep
  index : ℕ
  executes : ℕ → Value → Outcome → Prop

/-- The state of a run at the main loop: `active` is the stored result of a visit whose progress was
lost, and `passes` the visits of the loop that were made since control entered its section. -/
structure State where
  cursor : ℕ
  current : Value
  active : Option Value
  executed : ℕ
  passes : ℕ
  deriving DecidableEq, Repr

/-- the state after a step. -/
def State.next (s : State) (o : Outcome) (passes : ℕ) : State :=
  ⟨o.jumpTo.getD (s.cursor + 1), o.current, none, s.executed + 1, passes⟩

/-- One move of the runner.  A visit that was stored and then lost its progress in a crash is taken
up again by a resume, which reads the data back from the database. -/
inductive Moves (number : Ref → Option ℚ) (p : Pipeline) : State → State → Prop where
  | step {s : State} {o : Outcome} (hi : s.cursor ≠ p.index)
      (hlimit : s.executed < MAX_PIPELINE_EXECUTED_STEPS) (h : p.executes s.cursor s.current o) :
      Moves number p s (s.next o s.passes)
  | visit {s : State} {o : Outcome} (hi : s.cursor = p.index) (ha : s.active = none)
      (hlimit : s.executed < MAX_PIPELINE_EXECUTED_STEPS)
      (h : visitLoop number p.loop (buildStepTargetIndex p.heads) s.current = .ok o) :
      Moves number p s (s.next o (s.passes + 1))
  | stored {s : State} {o : Outcome} (hi : s.cursor = p.index) (ha : s.active = none)
      (hlimit : s.executed < MAX_PIPELINE_EXECUTED_STEPS)
      (h : visitLoop number p.loop (buildStepTargetIndex p.heads) s.current = .ok o) :
      Moves number p s { s with
        current := jsonCopy s.current, active := some (jsonCopy o.current), executed := 0 }
  | resumed {s : State} {o : Outcome} {result : Value} (hi : s.cursor = p.index)
      (ha : s.active = some result) (hlimit : s.executed < MAX_PIPELINE_EXECUTED_STEPS)
      (h : resumeLoop p.loop (buildStepTargetIndex p.heads) result = .ok o) :
      Moves number p s (s.next o (s.passes + 1))
  | restart {s : State} : Moves number p s { s with current := jsonCopy s.current, executed := 0 }

/-- What is reached from a state while control is in the section from `target` to the loop. -/
inductive Reached (number : Ref → Option ℚ) (p : Pipeline) (target : ℕ) (s₀ : State) :
    State → Prop where
  | entered : Reached number p target s₀ s₀
  | move {s s' : State} (hs : Reached number p target s₀ s)
      (hsection : target ≤ s.cursor ∧ s.cursor ≤ p.index) (h : Moves number p s s') :
      Reached number p target s₀ s'

end JumpLoop
end Pipelines
end WmAutopilot
