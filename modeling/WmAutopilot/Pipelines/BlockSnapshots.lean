import Mathlib.Data.List.DropRight
import WmAutopilot.Js.Paths
import WmAutopilot.Js.Regex

/-!
# Blocks of a pipeline, expanded once

A definition is a tree of steps.  A block step stands for a few steps of its own; what it stands for
is found out once, for all block steps, when a run is created, and is looked up under a key when the
step is executed, then and after every resume.

* `Step`                     a step of a definition;
* `expandPipelineBlock`      what a block step stands for, and the paths it reads and writes;
* `visit`, `snapshotPipelineBlocks`   the block steps in the order they are expanded, and the
                             expansions under their keys;
* `Executes`, `Reached`      the executions of a step, and the runs of a definition: results, inputs
                             and iterations are any.
-/

set_option autoImplicit false

namespace WmAutopilot
namespace Pipelines
namespace BlockSnapshots
open Js Js.Path Value

/-! ## steps -/

/-- the fields that all steps have. -/
structure StepHead where
  id : Option String
  name : String
  /-- `when`: a path, and what it has to equal. -/
  condition : Option (String × Value)
  assign : Option String

/-- `step.id ?? step.name` -/
def StepHead.key (head : StepHead) : String := head.id.getD head.name

structure BlockStep where
  head : StepHead
  block : String

/-- A step of a definition; a `leaf` is a code, agent, classifier or pipeline step. -/
inductive Step where
  | leaf (head : StepHead)
  | block (step : BlockStep)
  | loop (head : StepHead) (counter : Option String) (steps : Option (List Step))
  | parallel (head : StepHead) (step : Step)

/-! ## expansions -/

/-- a step of an expansion: no block and no loop. -/
structure ExpansionStep where
  name : String
  function : Option String
  /-- the paths of its input, and of its settings. -/
  reads : List String
  assign : String
  deriving DecidableEq

/-- `PipelineBlockExpansion` -/
structure Expansion where
  scratchPath : String
  inputPath : String
  outputPath : String
  steps : List ExpansionStep
  deriving DecidableEq

/-- `value.replace(/[^a-zA-Z0-9_]+/g, "_")` -/
def underscored : Bool → List Char → List Char
  | _, [] => []
  | replaced, c :: cs =>
    if Regex.isWord c then c :: underscored false cs
    else if replaced then underscored true cs
    else '_' :: underscored true cs

/-- `sanitizePathPart` -/
def sanitizePathPart (value : String) : List Char :=
  let sanitized :=
    ((underscored false value.toList).dropWhile (· = '_')).rdropWhile (· = '_')
  if sanitized = [] then "block".toList else sanitized

/-- `defaultBlockOutputPath` -/
def defaultBlockOutputPath (block : String) : String :=
  if block = "flightdeck.threadInvocation" then "$.flightDeckInvocation"
  else if block = "jev.rerankCandidates" then "$.jevRerank"
  else if block = "flightdeck.sendDirectMessage" then "$.directMessage"
  else if block = "flightdeck.returnToThread" then "$.threadDelivery"
  else "$.graphMemory"

/-- the name of the scratch area of a block step. -/
def BlockStep.scratchName (step : BlockStep) : List Char :=
  sanitizePathPart (if step.head.name = "" then step.block else step.head.name)

/-- a path below the scratch area; `rest` starts with a dot. -/
def BlockStep.scratch (step : BlockStep) (rest : String) : String :=
  String.ofList ("$.".toList ++ "blocks".toList ++ '.' :: step.scratchName ++ rest.toList)

def BlockStep.outputPath (step : BlockStep) : String :=
  step.head.assign.getD (defaultBlockOutputPath step.block)

/-- the steps of an expansion; `none`: the block is not known. -/
def expansionSteps (step : BlockStep) : Option (List ExpansionStep) :=
  let name (part : String) := step.head.name ++ " / " ++ part
  let inputs (fields : List String) := fields.map fun field => step.scratch (".input." ++ field)
  if step.block = "flightdeck.threadInvocation" then
    some [⟨name "normalise-thread-invocation", some "flightdeck.threadInvocation",
      inputs ["workspaceId", "threadId", "frmNpub", "prompt", "threadContext"], step.outputPath⟩]
  else if step.block = "flightdeck.returnToThread" then
    some [⟨name "return-to-thread", some "flightdeck.returnToThread",
      inputs ["workspaceId", "threadId", "frmNpub", "prompt", "message"], step.outputPath⟩]
  else if step.block = "flightdeck.sendDirectMessage" then
    some [⟨name "send-direct-message", some "flightdeck.sendDirectMessage",
      inputs ["fromNpub", "toNpub", "message"], step.outputPath⟩]
  else if step.block = "jev.rerankCandidates" then
    some [⟨name "judge-candidates", none,
        inputs ["candidates", "maxConcurrency", "query", "priorContext"],
        step.scratch ".judgments"⟩,
      ⟨name "compose-rerank", some "jev.composeRerank",
        inputs ["candidates", "knownSelectedIds", "config"] ++ [step.scratch ".judgments"],
        step.outputPath⟩]
  else if step.block = "memory.graphContext" then
    some [⟨name "extract-memory-entities", none,
        inputs ["agent", "directory", "prompt", "entityLimit"],
        step.scratch ".entityExtraction"⟩,
      ⟨name "search-graph-memory", some "memory.searchEntities",
        inputs ["prompt", "topKPerEntity", "maxEntities", "maxMatches", "index", "ownerNpub"] ++
          [step.scratch ".entityExtraction.entities"],
        step.scratch ".rawMatches"⟩,
      ⟨name "consolidate-graph-context", some "memory.consolidateGraphContext",
        inputs ["prompt", "maxChars"] ++ [step.scratch ".entityExtraction.entities",
          step.scratch ".rawMatches.matches", step.scratch ".rawMatches.warnings"],
        step.outputPath⟩]
  else none

/-- `expandPipelineBlock` -/
def expandPipelineBlock (step : BlockStep) : Except String Expansion :=
  match expansionSteps step with
  | some steps => .ok ⟨step.scratch "", step.scratch ".input", step.outputPath, steps⟩
  | none => .error ("Unknown pipeline block: " ++ step.block)

/-! ## snapshots -/

/-- A block step at a place of a definition; the ones below a parallel step are not executed. -/
structure Site where
  place : List ℕ
  key : String
  step : BlockStep
  executed : Bool

mutual

/-- the block steps of a step, in the order of their visits. -/
def visit (executed : Bool) (place : List ℕ) (pre : String) : Step → List Site
  | .leaf _ => []
  -- the steps of an expansion have no block steps below them
  | .block step => [⟨place, pre ++ step.head.key, step, executed⟩]
  | .loop head _ (some steps) => visitAll executed place (pre ++ head.key ++ "/") 0 steps
  | .loop _ _ none => []
  | .parallel head step => visit false (place ++ [0]) (pre ++ head.key ++ "/") step

/-- the block steps of steps, from the one at index `i` on. -/
def visitAll (executed : Bool) (place : List ℕ) (pre : String) (i : ℕ) : List Step → List Site
  | [] => []
  | step :: steps =>
    visit executed (place ++ [i]) pre step ++ visitAll executed place pre (i + 1) steps

end

/-- the block steps of a definition. -/
def sites (steps : List Step) : List Site := visitAll true [] "" 0 steps

/-- an object of expansions, as its assignments, the newest first. -/
abbrev Snapshots := List (String × Expansion)

/-- `snapshots[key] = expansion`; a property `__proto__` is none of the object. -/
def Snapshots.assign (snapshots : Snapshots) (key : String) (expansion : Expansion) : Snapshots :=
  if key = "__proto__" then snapshots else (key, expansion) :: snapshots

/-- the expansions of block steps, in order. -/
def snapshotSites : Snapshots → List Site → Except String Snapshots
  | snapshots, [] => .ok snapshots
  | snapshots, site :: rest =>
    match expandPipelineBlock site.step with
    | .ok expansion => snapshotSites (snapshots.assign site.key expansion) rest
    | .error message => .error message

/-- `snapshotPipelineBlocks` -/
def snapshotPipelineBlocks (steps : List Step) : Except String Snapshots :=
  snapshotSites [] (sites steps)

/-! ## runs -/

/-- `shouldRunStep` -/
def shouldRunStep (input : Value) : Option (String × Value) → Bool
  | none => true
  | some (path, equals) => resolvePath input path = equals

/-- `assignOutput(input, result, assign)`; `none`: it throws. -/
def assigned (input result : Value) (assign : Option String) : Option Value :=
  assignOutput input result (assign.getD "")

/-- An execution of a block step: the expansion it used, and the states it went through. -/
structure Event where
  place : List ℕ
  step : BlockStep
  expansion : Option Expansion
  before : Value
  states : List Value

/-- the steps of an expansion, executed with any results; `none`: one of them threw. -/
inductive Children : List ExpansionStep → Value → List Value → Option Value → Prop
  | done (current : Value) : Children [] current [] (some current)
  | stopped (steps : List ExpansionStep) (current : Value) : Children steps current [] none
  | step {s : ExpansionStep} {rest : List ExpansionStep} {current result next : Value}
      {states : List Value} {out : Option Value}
      (hassign : assignOutput current result s.assign = some next)
      (hrest : Children rest next states out) :
      Children (s :: rest) current (next :: states) out

/-- an execution of a block step with what is looked up for it. -/
inductive BlockRun (place : List ℕ) (step : BlockStep) (current : Value) :
    Option Expansion → List Event → Option Value → Prop
  /-- `Historical block expansion was not captured` -/
  | missing : BlockRun place step current none [⟨place, step, none, current, []⟩] none
  | run {e : Expansion} {input first : Value} {states : List Value} {out : Option Value}
      (hinput : assignOutput current input e.inputPath = some first)
      (hchildren : Children e.steps first states out) :
      BlockRun place step current (some e) [⟨place, step, some e, current, first :: states⟩] out
  | thrown (e : Expansion) :
      BlockRun place step current (some e) [⟨place, step, some e, current, []⟩] none

/-- `P`, so many times, until it stops. -/
inductive Repeats (P : Value → List Event → Option Value → Prop) :
    ℕ → Value → List Event → Option Value → Prop
  | done (current : Value) : Repeats P 0 current [] (some current)
  | stopped {n : ℕ} {current : Value} {events : List Event} (h : P current events none) :
      Repeats P (n + 1) current events none
  | again {n : ℕ} {current next : Value} {events rest : List Event} {out : Option Value}
      (h : P current events (some next)) (hrest : Repeats P n next rest out) :
      Repeats P (n + 1) current (events ++ rest) out

mutual

/-- `executePipelineStep`: the block executions of a step, and the state after it; `none`: the run
stops there. -/
def Executes (snapshots : Snapshots) (place : List ℕ) (pre : String) (step : Step)
    (current : Value) (events : List Event) (out : Option Value) : Prop :=
  -- it stops before anything is done, or was completed before a resume
  events = [] ∧ (out = none ∨ ∃ stored, out = some stored) ∨
  match step with
  | .leaf head =>
    events = [] ∧ (shouldRunStep current head.condition = false ∧ out = some current ∨
      ∃ result, out = assigned current result head.assign)
  | .block step =>
    shouldRunStep current step.head.condition = false ∧ events = [] ∧ out = some current ∨
    BlockRun place step current (snapshots.lookup (pre ++ step.head.key)) events out
  | .loop head counter (some steps) =>
    shouldRunStep current head.condition = false ∧ events = [] ∧ out = some current ∨
    ∃ iterations last,
      Repeats (fun current events out => ∃ count next,
          assigned current count counter = some next ∧
            ExecutesAll snapshots place (pre ++ head.key ++ "/") 0 steps next events out)
        iterations current events last ∧
      out = last.bind fun current => match head.assign with
        | none => some current
        | some path => assigned current (obj [("current", current)]) (some path)
  | .loop _ _ none => events = [] ∧ ∃ next, out = some next
  | .parallel head _ => events = [] ∧ ∃ result, out = assigned current result head.assign

/-- steps one after the other, from the one at index `i` on. -/
def ExecutesAll (snapshots : Snapshots) (place : List ℕ) (pre : String) (i : ℕ)
    (steps : List Step) (current : Value) (events : List Event) (out : Option Value) : Prop :=
  match steps with
  | [] => events = [] ∧ out = some current
  | step :: steps =>
    Executes snapshots (place ++ [i]) pre step current events out ∧ out = none ∨
    ∃ first next rest, Executes snapshots (place ++ [i]) pre step current first (some next) ∧
      ExecutesAll snapshots place pre (i + 1) steps next rest out ∧ events = first ++ rest

end

/-- The runs of a definition with the expansions that were pinned for it: the cursor, the state and
the block executions so far.  A run that stops is resumed at its cursor, with its state. -/
inductive Reached (steps : List Step) (snapshots : Snapshots) (input : Value) :
    ℕ → Value → List Event → Prop
  | start : Reached steps snapshots input 0 input []
  | step {cursor next : ℕ} {current after : Value} {log events : List Event} {s : Step}
      (h : Reached steps snapshots input cursor current log) (hs : steps[cursor]? = some s)
      (hrun : Executes snapshots [cursor] "" s current events (some after)) :
      -- a loop without steps may jump to any step
      Reached steps snapshots input next after (log ++ events)
  | resumed {cursor : ℕ} {current : Value} {log events : List Event} {s : Step}
      (h : Reached steps snapshots input cursor current log) (hs : steps[cursor]? = some s)
      (hrun : Executes snapshots [cursor] "" s current events none) :
      Reached steps snapshots input cursor current (log ++ events)

end BlockSnapshots
end Pipelines
end WmAutopilot
