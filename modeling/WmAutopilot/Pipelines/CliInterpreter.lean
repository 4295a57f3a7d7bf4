import WmAutopilot.Js.Sorted
import WmAutopilot.Pipelines.CliCandidates

/-!
# Interpreting a request as a command

A request is read once.  A model answers which operation is meant and which candidate fills which
argument; where its answers do not settle it, another extracts the spans of the arguments from the
text.  What is selected either way is checked once more before it counts.

* `CliInterpretation`             the state that is handed from step to step;
* `prepareCliInterpretation`      the request, with the candidates of it and of its context;
* `readChoice`                    an answer of the model, checked;
* `validateCliSelection`          the checks of a selection;
* `resolveCliDecision`            the decision of the model, any value;
* `resolveCliFallback`            the extraction, any value.
-/

set_option autoImplicit false

namespace WmAutopilot
namespace Pipelines
namespace Cli
open Js Value BirdRetrieval

/-! ## the state -/

/-- An error: its message, or `none` where what was thrown is not an `Error`. -/
abbrev Checked := Except (Option String)

def lifted {α : Type} : Except String α → Checked α
  | .ok a => .ok a
  | .error message => .error (some message)

inductive Verdict where
  | ready
  | fallback
  | needs_clarification
  | unsupported
  deriving DecidableEq, Repr

structure CliSelection where
  operation : String
  args : CliArgs
  downstream : String
  downstreamCount : Option CliNumber
  deriving DecidableEq, Repr

/-- what is kept of a model request. -/
structure Usage where
  model : Value
  usage : Value
  latencyMs : Value

abbrev Candidates := List (String × List Candidate)

structure CliInterpretation where
  request : String
  contractId : String
  candidates : Candidates
  selection : Option CliSelection
  verdict : Verdict
  reason : String
  disclosures : List String
  modelCalls : ℕ
  usage : List Usage
  startedAt : ℤ
  currentCandidateValues : Option (List (String × List CliValue))
  threadContext : Value
  omittedContextCandidates : Option ℕ

/-- `candidates[name]` -/
def candidatesOf (candidates : Candidates) (name : String) : List Candidate :=
  (candidates.lookup name).getD []

def candidateKeys : List String :=
  ["none", "default", "c0", "c1", "c2", "c3", "c4", "c5", "c6", "c7"]

/-- the keys of `downstreamOptions`. -/
def downstreamOptions : List String :=
  ["none", "top_unspecified", "summary", "ranking", "summary_ranking", "unsupported"]

/-- `["summary", "ranking", "summary_ranking"].includes(downstream)` -/
def counted (downstream : String) : Bool :=
  decide (downstream ∈ ["summary", "ranking", "summary_ranking"])

/-- the keys of `cliQuestions(contract)`. -/
def questionKeys (contract : CliContract) : List String :=
  (["operation", "constraints", "downstream"] ++
    (contract.arguments.map (·.1)).filter fun name => decide (name ≠ "__proto__")).eraseDups

/-- `keys.sort().join()` -/
def sortedJoin (keys : List String) : String :=
  String.intercalate "," (keys.insertionSort fun left right => textLe left right = true)

section
variable (host : Host)

/-! ## preparing -/

/-- a candidate of an earlier message. -/
def addEarlier (kind : ArgumentKind) (known : Arrays × ℕ) (candidate : Candidate) : Arrays × ℕ :=
  if (known.1.of kind).any fun existing => decide (existing.value = candidate.value) then known
  else if (known.1.of kind).length < 8 then (known.1.push candidate kind, known.2)
  else (known.1, known.2 + 1)

/-- the candidates of an earlier message, one argument after the other. -/
def addMessage (contract : CliContract) (historical : Arrays) (known : Arrays × ℕ) : Arrays × ℕ :=
  contract.arguments.foldl (fun known entry =>
    (historical.of entry.2.kind).foldl (addEarlier entry.2.kind) known) known

def readMessage (contract : CliContract) (known : Arrays × ℕ) (message : Value) :
    Except String (Arrays × ℕ) :=
  match message.get "body" with
  | str body =>
    .ok (addMessage contract (extractCandidates host (stripRoutingMentions body)) known)
  | _ => .error "Invalid thread context message"

/-- the candidates with those of a thread context, the latest message first. -/
def readContext (contract : CliContract) (arrays : Arrays) (context : Value) :
    Except String (Arrays × ℕ) :=
  match context.get "messages" with
  | arr messages => do
    throwIf (context.get "version" ≠ num 1 ∨ 40 < messages.length) "Invalid bounded thread context"
    messages.reverse.foldlM (readMessage host contract) (arrays, 0)
  | _ => .error "Invalid bounded thread context"

/-- `typeof value === "string"` -/
def textOf : Value → Option String
  | str s => some s
  | _ => none

/-- the text of a request; `""` when it is none. -/
def requestOf (input : Value) : String :=
  stripRoutingMentions ((textOf (input.get "request")).getD "")

/-- whether a request is too long, empty, or has too many candidates. -/
def Overfull (request : String) (candidates : Candidates) : Prop :=
  request = "" ∨ 2000 < textLength request ∨
    (candidates.any fun entry => decide (8 < entry.2.length)) = true

instance (request : String) (candidates : Candidates) : Decidable (Overfull request candidates) :=
  inferInstanceAs (Decidable (_ ∨ _ ∨ _))

/-- a state as it is made, before it is looked at. -/
def freshState (contract : CliContract) (now : ℤ) (request : String) (arrays : Arrays) :
    CliInterpretation :=
  { request, contractId := contract.id, candidates := byName contract arrays, selection := none,
    verdict := .ready, reason := "", disclosures := [], modelCalls := 0, usage := [],
    startedAt := now, currentCandidateValues := none, threadContext := undefined,
    omittedContextCandidates := none }

/-- the state with the candidates of its context. -/
def withContext (contract : CliContract) (now : ℤ) (request : String) (context : Value) :
    Except String CliInterpretation := do
  let arrays := extractCandidates host request
  let state := freshState contract now request arrays
  if context.truthy then
    let (arrays', omitted) ← readContext host contract arrays context
    pure { state with
      candidates := byName contract arrays'
      currentCandidateValues := some (state.candidates.map fun e => (e.1, e.2.map (·.value)))
      threadContext := context
      omittedContextCandidates := some omitted }
  else pure state

def prepareCliInterpretation (contracts : List CliContract) (now : ℤ) (input : Value) :
    Except String CliInterpretation := do
  let contract ← cliContract contracts (host.text (input.get "contractId"))
  let state ← withContext host contract now (requestOf input) (input.get "threadContext")
  pure (if Overfull state.request state.candidates then
      { state with
        verdict := .needs_clarification
        reason := "Provide a retrieval request under 2000 characters with at most eight " ++
          "candidates per argument." }
    else state)

/-! ## the answers of the model -/

/-- `equivalentProbability < 0.8`, of the group that the choice is in. -/
def unconcentrated (choice : String) (probabilities : Value)
    (equivalentGroups : List (List String)) : Except String Bool :=
  match equivalentGroups.find? fun group => decide (choice ∈ group) with
  | some group => host.underShare (group.map probabilities.get)
  | none => .ok true

/-- `readChoice` -/
def readChoice (raw : Value) (allowed : List String) (confidence : Bool)
    (equivalentGroups : List (List String)) : Except String String :=
  match raw.get "choice", raw.get "probabilities" with
  | str choice, obj probabilities => do
    throwIf (raw.get "type" ≠ str "choice" ∨ choice ∉ allowed ∨
      probabilities.length ≠ allowed.length ∨
      (allowed.any fun key => !probability ((obj probabilities).get key)) = true) "invalid_choice"
    let off ← host.offUnity (probabilities.map (·.2))
    throwIf (off = true ∨ probability (raw.get "confidence") = false) "invalid_choice"
    let under ← unconcentrated host choice (obj probabilities) equivalentGroups
    throwIf (confidence = true ∧ under = true ∧
      (BirdRetrieval.numberOf (raw.get "confidence") < 7 / 10 ∨
        BirdRetrieval.numberOf ((obj probabilities).get choice) < 4 / 5)) "uncertain_choice"
    pure choice
  | _, _ => .error "invalid_choice"

/-- `record[key]?.includes(name)` -/
def includes (record : List (String × List String)) (key name : String) : Except String Bool :=
  match record.lookup key with
  | some names => .ok (decide (name ∈ names))
  | none => if Inherited key then .error host.notAFunction else .ok false

/-! ## the checks of a selection -/

/-- the source a request names outright. -/
def checkSources (contract : CliContract) (request operation : String) : Except String Unit := do
  let sourceText := argumentPattern.removeAll request.toList
  let found ← contract.explicitSources.mapM fun entry =>
    (host.regExp entry.2).map fun test => (entry.1, test sourceText)
  let explicit := (found.filter (·.2)).map (·.1)
  throwIf (1 < explicit.length ∨ explicit.length = 1 ∧ explicit.head? ≠ some operation)
    "explicit_source_conflict"

/-- `Number.isInteger(value) && least <= value && value <= most`, where the bounds are given. -/
def inRange (least most : Option ℚ) : CliNumber → Bool
  | .finite q => decide (q.den = 1) && least.all (fun m => decide (m ≤ q)) &&
      most.all (fun m => decide (q ≤ m))
  | _ => false

/-- an argument that its own declaration allows. -/
def checkValue (candidates : Candidates) (name : String) (arg : CliArgument) (value : CliValue) :
    Except String Unit :=
  match arg.kind, value with
  | .number, .num n => throwIf (inRange arg.min arg.max n = false) ("invalid_" ++ name)
  | .number, .str _ => .error ("invalid_" ++ name)
  | _, .num _ => .error ("unproven_" ++ name)
  | _, .str s =>
    throwIf ((candidatesOf candidates name).all fun c => decide (c.value ≠ .str s))
      ("unproven_" ++ name)

def checkArgument (contract : CliContract) (candidates : Candidates) (operation : String)
    (entry : String × CliValue) : Except String Unit := do
  let arg ← orThrow "unexpected_argument" (contract.arguments.lookup entry.1)
  let applicable ← includes host contract.applicable operation entry.1
  throwIf (applicable = false) "unexpected_argument"
  checkValue candidates entry.1 arg entry.2

/-- `args[name] !== undefined` -/
def present (args : CliArgs) (name : String) : Bool :=
  args.any (fun entry => decide (entry.1 = name)) || decide (Inherited name)

def checkRequired (contract : CliContract) (operation : String) (args : CliArgs) :
    Except String Unit :=
  match contract.required.lookup operation with
  | some names => throwIf ((names.any fun name => !present args name) = true)
      "missing_required_argument"
  | none => if Inherited operation then .error host.notAFunction else .ok ()

/-- `validateCliSelection`, up to the command line. -/
def checkSelection (contract : CliContract) (request : String) (candidates : Candidates)
    (selection : CliSelection) : Except String Unit := do
  throwIf (contract.knows selection.operation = false ∨
    ¬(selection.downstream ∈ downstreamOptions ∨ Inherited selection.downstream))
    "invalid_selection"
  checkSources host contract request selection.operation
  forM selection.args (checkArgument host contract candidates selection.operation)
  checkRequired host contract selection.operation selection.args
  throwIf ((selection.downstreamCount.all (inRange (some 1) (some 100))) = false)
    "invalid_downstream_count"

def validateCliSelection (contract : CliContract) (state : CliInterpretation)
    (selection : CliSelection) : Checked Unit := do
  lifted (checkSelection host contract state.request state.candidates selection)
  let _ ← contract.argv selection.operation selection.args
  pure ()

/-! ## a decision -/

/-- `args[name] = value` -/
def assign (name : String) (value : CliValue) : CliArgs :=
  if name = "__proto__" then [] else [(name, value)]

/-- `Number(key.slice(1))` of a key that starts with `c`. -/
def candidateIndex (key : String) : Option ℕ :=
  (["c0", "c1", "c2", "c3", "c4", "c5", "c6", "c7"]).idxOf? key

/-- the value that a choice names, if it names one. -/
def chosenValue (state : CliInterpretation) (name : String) (arg : CliArgument) (key : String) :
    Except String (Option CliValue) :=
  match candidateIndex key with
  | some i => orThrow "missing_candidate"
      ((candidatesOf state.candidates name)[i]?.map fun c => some c.value)
  | none => .ok (if key = "default" then arg.default.map fun q => .num (.finite q) else none)

/-- a value for `downstreamCount`; it is looked at, and not kept as an argument. -/
def checkDownstreamCount : Option CliValue → Except String Unit
  | none => .ok ()
  | some (.num n) => throwIf (inRange (some 1) (some 100) n = false) "invalid_downstream_count"
  | some (.str _) => .error "invalid_downstream_count"

/-- no candidate for an argument that is required. -/
def isUnresolved (contract : CliContract) (operation name key : String) (applicable : Bool) :
    Except String Bool :=
  if key = "none" ∧ applicable = true then includes host contract.required operation name
  else .ok false

/-- an argument, from the answer to its question. -/
def readArgument (contract : CliContract) (state : CliInterpretation) (answers : Value)
    (operation downstream : String) (entry : String × CliArgument) : Except String CliArgs := do
  let applicable ← includes host contract.applicable operation entry.1
  let key ← readChoice host (answers.get entry.1) candidateKeys
    (applicable || entry.1 = "downstreamCount" && Js.includes downstream "summary") []
  if applicable = false ∧ entry.1 ≠ "downstreamCount" then pure []
  else
    let value ← chosenValue state entry.1 entry.2 key
    if entry.1 = "downstreamCount" then
      checkDownstreamCount value
      pure []
    else
      let unresolved ← isUnresolved host contract operation entry.1 key applicable
      throwIf (unresolved = true) "candidate_role_unresolved"
      pure (value.elim [] (assign entry.1))

/-- `Number(value)` -/
def toNumber : CliValue → CliNumber
  | .num n => n
  | .str s => host.number s.toList

/-- the count that goes with what is to be done with the records. -/
def readDownstreamCount (contract : CliContract) (state : CliInterpretation) (answers : Value)
    (downstream : String) : Except String (Option CliNumber) :=
  if (contract.arguments.lookup "downstreamCount").isSome then do
    let key ← readChoice host (answers.get "downstreamCount") candidateKeys
      (Js.includes downstream "summary") []
    pure (if counted downstream = true then (candidateIndex key).map fun i =>
        ((candidatesOf state.candidates "downstreamCount")[i]?.map fun c =>
          toNumber host c.value).getD .nan
      else none)
  else .ok none

/-- what the text of a contract's default says of it. -/
def defaulted (contract : CliContract) : String :=
  "No timeline source specified; defaulted to " ++
    (contract.operations.lookup contract.defaultOperation).getD
      (host.inheritedText contract.defaultOperation) ++ "."

/-- whether the request names the default source: no pattern matches everything. -/
def namesDefault (contract : CliContract) (request : String) : Except String Bool :=
  match contract.explicitSources.lookup contract.defaultOperation with
  | some pattern => (host.regExp pattern).map fun test => test request.toList
  | none =>
    if Inherited contract.defaultOperation then
      (host.regExp (host.inheritedText contract.defaultOperation)).map fun test =>
        test request.toList
    else .ok true

/-- what is disclosed of an operation that was not named. -/
def disclosed (contract : CliContract) (request operation : String) : Except String (List String) :=
  if operation = "default" then .ok [defaulted host contract]
  else if operation = contract.defaultOperation then
    (namesDefault host contract request).map fun named =>
      if named then [] else [defaulted host contract]
  else .ok []

/-- what a decision comes to, short of an error. -/
inductive Outcome where
  | refused (verdict : Verdict) (reason : String)
  | selected (selection : CliSelection) (disclosures : List String)

def unsupportedReason : String :=
  "This read-only CLI contract cannot perform the requested operation or filters."

/-- `answers`, once they answer the questions and no constraint is in doubt. -/
def readAnswers (contract : CliContract) (decision : Value) : Except String (Value × ℚ) :=
  if decision.get "shadowStatus" ≠ str "ok" ∨ (decision.get "error").nullish = false then
    .error "decision_error"
  else match decision.get "answers" with
    | obj answers => do
      throwIf (sortedJoin (answers.map (·.1)) ≠ sortedJoin (questionKeys contract))
        "invalid_answers"
      match ((obj answers).get "constraints").get "noul" with
      | num noul => do
        throwIf (((obj answers).get "constraints").get "type" ≠ str "noul" ∨
          probability (num noul) = false) "invalid_constraints"
        throwIf (1 / 5 < noul ∧ noul < 4 / 5) "uncertain_constraints"
        pure (obj answers, noul)
      | _ => .error "invalid_constraints"
    | _ => .error "invalid_answers"

/-- `operation === "default" ? contract.defaultOperation : operation` -/
def asked (contract : CliContract) (operation : String) : String :=
  if operation = "default" then contract.defaultOperation else operation

/-- the selection that the answers make. -/
def select (contract : CliContract) (state : CliInterpretation) (answers : Value)
    (operation downstream : String) : Except String CliSelection := do
  let args ← contract.arguments.mapM
    (readArgument host contract state answers (asked contract operation) downstream)
  let downstreamCount ← readDownstreamCount host contract state answers downstream
  pure { operation := asked contract operation, args := args.flatten, downstream, downstreamCount }

/-- the body of `resolveCliDecision`. -/
def judge (contract : CliContract) (state : CliInterpretation) (decision : Value) :
    Checked Outcome := do
  let read ← lifted (readAnswers contract decision)
  if 4 / 5 ≤ read.2 then pure (.refused .unsupported unsupportedReason)
  else
    let operation ← lifted (readChoice host (read.1.get "operation")
      (contract.operations.map (·.1) ++ ["default", "missing", "unsupported"]) true
      [[contract.defaultOperation, "default"]])
    let downstream ← lifted (readChoice host (read.1.get "downstream") downstreamOptions true
      [["none", "top_unspecified"]])
    if operation = "missing" then
      pure (.refused .needs_clarification ("Which records should be retrieved? Conflicting " ++
        "sources or missing retrieval intent need clarification."))
    else if operation = "unsupported" ∨ downstream = "unsupported" then
      pure (.refused .unsupported unsupportedReason)
    else
      let selection ← lifted (select host contract state read.1 operation downstream)
      validateCliSelection host contract state selection
      let disclosures ← lifted (disclosed host contract state.request operation)
      pure (.selected selection disclosures)

/-- an error of a decision: the question goes back, or to the extraction. -/
def decisionFailed (state : CliInterpretation) (error : Option String) : CliInterpretation :=
  let reason := error.getD "invalid_decision"
  { state with
    selection := none
    verdict := if reason ∈ ["explicit_source_conflict", "invalid_count",
      "invalid_downstream_count"] then .needs_clarification else .fallback
    reason }

def resolveCliDecision (contracts : List CliContract) (state : CliInterpretation)
    (decision : Value) : Except String CliInterpretation := do
  let contract ← cliContract contracts state.contractId
  let state := { state with
    modelCalls := state.modelCalls + 1
    usage := state.usage ++ [⟨(decision.get "model").orElse null,
      (decision.get "usage").orElse null, (decision.get "latencyMs").orElse null⟩] }
  if state.verdict ≠ .ready then pure state
  else match judge host contract state decision with
    | .error error => pure (decisionFailed state error)
    | .ok (.refused verdict reason) => pure { state with verdict, reason }
    | .ok (.selected selection disclosures) => pure { state with
        selection := some selection
        disclosures := state.disclosures ++ disclosures
        reason := "validated_cli_selection" }

/-! ## the extraction -/

/-- the texts of the messages of a context. -/
def bodies (context : Value) : List String :=
  match context.get "messages" with
  | arr messages => messages.filterMap fun message => textOf (message.get "body")
  | _ => []

/-- `hasRequestEvidence` -/
def hasRequestEvidence (state : CliInterpretation) (span : String) : Bool :=
  Js.includes state.request span ||
    (bodies state.threadContext).any fun body => Js.includes body span

/-- a candidate in the array of `name`; where the arrays of a kind are still one, in that. -/
def pushCandidate (contract : CliContract) (shared : Bool) (name : String) (candidate : Candidate)
    (candidates : Candidates) : Candidates :=
  candidates.map fun entry =>
    if entry.1 = name ∨ shared = true ∧
        (contract.arguments.lookup entry.1).any (fun arg => decide (arg.kind = .query)) = true then
      (entry.1, entry.2 ++ [candidate])
    else entry

/-- the value of a span that no candidate has. -/
def parseSpan (arg : CliArgument) (span : String) : Option CliValue :=
  match arg.kind with
  | .number => (numericSpan host span).map .num
  | .query => some (.str (trim span))
  | .handle => none

/-- a span that becomes a candidate. -/
def newQuery (contract : CliContract) (shared : Bool) (candidates : Candidates) (name : String)
    (arg : CliArgument) (span : String) : Except String (Candidates × CliValue) :=
  match parseSpan host arg span with
  | none => .error "unparseable_argument_span"
  | some (.str value) => do
    throwIf (8 ≤ (candidatesOf candidates name).length ∨ value = "" ∨
      500 < textLength value ∨ hasControl value = true) "invalid_query_span"
    pure (pushCandidate contract shared name ⟨.str value, span⟩ candidates, .str value)
  | some (.num n) => pure (candidates, .num n)

/-- an argument, from a span that stands in the request. -/
def readText (contract : CliContract) (shared : Bool) (candidates : Candidates)
    (entry : String × CliArgument) (span : String) : Except String (Candidates × CliArgs) :=
  match (candidatesOf candidates entry.1).find? fun c => decide (c.span = span) with
  | some candidate => .ok (candidates, assign entry.1 candidate.value)
  | none => do
    let read ← newQuery host contract shared candidates entry.1 entry.2 span
    pure (read.1, assign entry.1 read.2)

/-- `arg.default`, for an argument that was left out. -/
def leftOut (entry : String × CliArgument) : CliArgs :=
  (entry.2.default.map fun q => assign entry.1 (.num (.finite q))).getD []

/-- an argument, from its span. -/
def readSpan (contract : CliContract) (shared : Bool) (state : CliInterpretation)
    (candidates : Candidates) (spans : List (String × Value)) (entry : String × CliArgument) :
    Except String (Candidates × CliArgs) :=
  match spans.lookup entry.1 with
  | some (str span) => do
    throwIf (trim span = "" ∨ hasRequestEvidence state span = false) "unproven_argument_span"
    readText host contract shared candidates entry span
  | some null | some undefined => .ok (candidates, leftOut entry)
  | some _ => .error "unproven_argument_span"
  | none =>
    if Inherited entry.1 then .error "unproven_argument_span" else .ok (candidates, leftOut entry)

/-- the arguments one after the other; the candidates stay pushed when a later one fails. -/
def readSpans (contract : CliContract) (shared : Bool) (state : CliInterpretation)
    (spans : List (String × Value)) :
    List (String × CliArgument) → Candidates → Candidates × Except String CliArgs
  | [], candidates => (candidates, .ok [])
  | entry :: entries, candidates =>
    match readSpan host contract shared state candidates spans entry with
    | .error message => (candidates, .error message)
    | .ok (candidates, args) =>
      let rest := readSpans contract shared state spans entries candidates
      (rest.1, rest.2.map (args ++ ·))

/-- the spans of the arguments, once the intent stands in the request. -/
def readExtraction (contract : CliContract) (state : CliInterpretation) (extraction : Value) :
    Except String (List (String × Value)) := do
  match extraction.get "intentSpan", extraction.get "argumentSpans" with
  | str intentSpan, argumentSpans => do
    throwIf (trim intentSpan = "" ∨ hasRequestEvidence state intentSpan = false) "unproven_intent"
    match argumentSpans with
    | obj spans => do
      throwIf ((spans.any fun span => !((contract.arguments.lookup span.1).isSome ||
        decide (Inherited span.1))) = true) "unexpected_argument_span"
      pure spans
    | _ => .error "invalid_spans"
  | _, _ => .error "unproven_intent"

/-- the selection that the arguments make; `downstreamCount` is none of them. -/
def extracted (contract : CliContract) (operation downstream : String) (args : CliArgs) :
    CliSelection where
  operation := asked contract operation
  args := args.filter fun entry => decide (entry.1 ≠ "downstreamCount")
  downstream
  downstreamCount :=
    match args.lookup "downstreamCount" with
    | some (.num n) => if counted downstream = true then some n else none
    | _ => none

/-- a selection from the extraction, with the candidates then. -/
def extract (contract : CliContract) (shared : Bool) (state : CliInterpretation)
    (extraction : Value) (operation downstream : String) : Candidates × Checked CliSelection :=
  match readExtraction contract state extraction with
  | .error message => (state.candidates, .error (some message))
  | .ok spans =>
    let read := readSpans host contract shared state spans contract.arguments state.candidates
    (read.1, do
      let args ← lifted read.2
      let selection := extracted contract operation downstream args
      validateCliSelection host contract { state with candidates := read.1 } selection
      pure selection)

/-- an error of the extraction. -/
def fallbackFailed (state : CliInterpretation) (error : Option String) : CliInterpretation :=
  { state with
    selection := none
    verdict := .needs_clarification
    reason := "One extraction fallback could not validate the request: " ++
      error.getD "invalid_fallback" ++ "." }

/-- an extraction that is ready. -/
def resolveReady (contracts : List CliContract) (shared : Bool) (state : CliInterpretation)
    (extraction : Value) (operation downstream : String) : CliInterpretation :=
  match cliContract contracts state.contractId with
  | .error message => fallbackFailed state (some message)
  | .ok contract =>
    if downstream = "unsupported" then
      { state with verdict := .unsupported, reason := unsupportedReason }
    else
      let read := extract host contract shared state extraction operation downstream
      let state := { state with candidates := read.1 }
      match read.2 with
      | .error error => fallbackFailed state error
      | .ok selection => { state with
          selection := some selection
          disclosures := state.disclosures ++
            (if operation = "default" then [defaulted host contract] else [])
          verdict := .ready
          reason := "validated_fallback_selection" }

/-- `resolveCliFallback`; `shared`: no copy was made of the state, and the candidates of a kind are
still in one array. -/
def resolveCliFallback (contracts : List CliContract) (shared : Bool) (state : CliInterpretation)
    (extraction : Value) : CliInterpretation :=
  if state.verdict ≠ .fallback then state
  else
    let state := { state with modelCalls := state.modelCalls + 1 }
    match extraction.get "status", extraction.get "operation", extraction.get "downstream" with
    | str status, str operation, str downstream =>
      if status = "ready" then
        resolveReady host contracts shared state extraction operation downstream
      else if status = "missing" then
        { state with
          verdict := .needs_clarification
          reason := "The request is missing a clear retrieval source or required argument." }
      else if status = "unsupported" then
        { state with
          verdict := .unsupported
          reason := "The requested operation is outside this read-only CLI contract." }
      else fallbackFailed state (some "invalid_fallback")
    | _, _, _ => fallbackFailed state (some "invalid_fallback")

end

end Cli
end Pipelines
end WmAutopilot
