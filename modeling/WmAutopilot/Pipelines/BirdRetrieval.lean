import Mathlib.Data.Rat.Floor
import WmAutopilot.Js.Regex
import WmAutopilot.Js.Value

/-!
# Bounded retrieval steered by a model

A request is read once; then, turn after turn, a model answers what to fetch, the answers are
checked, and one page is fetched.  The answers are any values, the pages come from outside.

* `BirdAction`, `birdArgv`    an action, and the command line it is allowed as;
* `RetrievalState`, `stop`    the state of a retrieval, and its end;
* `prepareBirdRetrieval`      the candidates, the count and the refusals read off the request;
* `recordDecision`, `choice`, `noul`   an answer of the model, checked;
* `executeBirdDecision`       a decision, and the action it leads to, executed;
* `checkBirdEvidence`, `birdModelState`   whether to go on; what the model is shown;
* `Call`, `run`               the steps of the loop, each under its own condition.

The clock is read many times in a call: `now k` is reading `k` of that call.
-/

set_option autoImplicit false

namespace WmAutopilot
namespace Pipelines
namespace BirdRetrieval
open Js Value

/-! ## the adapter -/

/-- `BIRD_LIMITS.executions` -/
def executionsLimit : ℕ := 3

/-- `BIRD_LIMITS.modelRequests` -/
def modelRequestsLimit : ℕ := 6

/-- `BIRD_LIMITS.elapsedMs` -/
def elapsedMsLimit : ℤ := 60000

/-- `BIRD_LIMITS.cliTimeoutMs` -/
def cliTimeoutMs : ℤ := 12000

/-- `BIRD_LIMITS.requestChars` -/
def requestCharsLimit : ℕ := 2000

inductive BirdOperation where
  | following
  | for_you
  | user_tweets
  | search
  | mentions
  deriving DecidableEq, Repr

def BirdOperation.name : BirdOperation → String
  | following => "following"
  | for_you => "for_you"
  | user_tweets => "user_tweets"
  | search => "search"
  | mentions => "mentions"

/-- `operations` -/
def operations : List BirdOperation := [.following, .for_you, .user_tweets, .search, .mentions]

structure BirdAction where
  operation : BirdOperation
  count : ℚ
  handle : Option String
  query : Option String
  cursor : Option String
  deriving DecidableEq, Repr

/-- What the code uses of its platform. -/
structure Host where
  /-- `process.env.BIRD_EXECUTABLE` -/
  executable : Option String
  /-- `JSON.stringify(action)` -/
  stringify : BirdAction → String
  /-- `Number(text)` of a decimal numeral -/
  number : List Char → ℚ
  /-- `Math.abs(sum - 1) > 0.02` of the sum of the numbers -/
  offUnity : List ℚ → Bool
  /-- the message of `id in "text"` -/
  notAnObject : String

/-- `text.length` -/
def textLength (s : String) : ℕ := (s.toList.map Regex.units).foldl (· + ·) 0

/-- `/[\x00-\x1f]/.test(text)` -/
def hasControl (s : String) : Bool := s.toList.any (·.toNat < 32)

/-- `birdExecutable` -/
def birdExecutable (configured : Option String) : Except String String :=
  let path := if trim (configured.getD "") = "" then "bird" else trim (configured.getD "")
  if path ≠ "bird" ∧ (startsWith path "/" = false ∨ hasControl path = true) then
    .error "invalid_bird_executable"
  else .ok path

/-- `/^[A-Za-z0-9_]{1,15}$/` -/
def isHandle (s : String) : Bool :=
  s.toList.all Regex.isWord && 1 ≤ s.toList.length && s.toList.length ≤ 15

/-- `/^[A-Za-z0-9_+=:/.-]{1,2048}$/` -/
def isCursor (s : String) : Bool :=
  (s.toList.all fun c => Regex.isWord c || c ∈ ['+', '=', ':', '/', '.', '-']) &&
    1 ≤ s.toList.length && s.toList.length ≤ 2048

/-- what follows the name of the program, the count and the cursor apart. -/
def operationArguments (action : BirdAction) : Except String (List String) :=
  match action.operation with
  | .following => .ok ["home", "--following"]
  | .for_you => .ok ["home"]
  | .user_tweets =>
    if action.handle.getD "" = "" then .error "missing_handle"
    else .ok ["user-tweets", "--max-pages", "1"]
  | .search =>
    if action.query.getD "" = "" then .error "missing_query"
    else .ok ["search", "--all", "--max-pages", "1"]
  | .mentions =>
    .ok ("mentions" :: if action.handle.getD "" = "" then [] else
      ["--user", action.handle.getD ""])

/-- `birdArgv` -/
def birdArgv (host : Host) (action : BirdAction) : Except String (List String) := do
  if action.count.den ≠ 1 ∨ action.count < 1 ∨ 100 < action.count then throw "invalid_count"
  if action.handle.any fun h => !isHandle h then throw "invalid_handle"
  if action.query.any fun q => trim q = "" || decide (500 < textLength q) || hasControl q then
    throw "invalid_query"
  if action.cursor.any fun c => !isCursor c || startsWith c "-" then throw "invalid_cursor"
  let args ← operationArguments action
  if action.handle.isSome ∧ action.operation ∉ [.user_tweets, .mentions] then
    throw "unexpected_handle"
  if action.query.isSome ∧ action.operation ≠ .search then throw "unexpected_query"
  if action.cursor.getD "" ≠ "" ∧ action.operation ∉ [.user_tweets, .search] then
    throw "cursor_not_supported"
  let cursor := if action.cursor.getD "" = "" then [] else ["--cursor", action.cursor.getD ""]
  let positional := match action.operation with
    | .search => ["--", action.query.getD ""]
    | .user_tweets => ["--", action.handle.getD ""]
    | _ => []
  let executable ← birdExecutable host.executable
  pure (executable :: "--timeout" :: "10000" :: "--cookie-timeout" :: "3000" :: args ++
    ["--count", toString action.count.num, "--json"] ++ cursor ++ positional)

/-- a record of a page; `parseBirdPage` accepts only those whose `id` is a string. -/
structure BirdTweet where
  record : Value
  id : String
  get_id : record.get "id" = str id

structure BirdPage where
  tweets : List BirdTweet
  cursor : Option String

/-- a page, or the message of the error (`none`: what was thrown is not an `Error`). -/
abbrev BirdExecutor := BirdAction → ℤ → Except (Option String) BirdPage

/-! ## the state -/

inductive Verdict where
  | running
  | complete
  /-- `"partial"` -/
  | partially
  | needs_clarification
  | blocked
  deriving DecidableEq, Repr

/-- what is kept of an executed action. -/
inductive Evidence where
  | page (action : BirdAction) (tweets : List BirdTweet) (cursor : Option String)
      (latencyMs : ℤ) (added : ℕ)
  | failed (action : BirdAction) (error : String) (latencyMs : ℤ)

/-- what is kept of a model request. -/
structure Usage where
  usage : Value
  latencyMs : Value
  model : Value
  error : Value

structure RetrievalState where
  request : String
  count : ℚ
  handles : List String
  queries : List String
  startedAt : ℤ
  attempt : ℕ
  modelCalls : ℕ
  verdict : Verdict
  reason : String
  active : Bool
  semanticNeeded : Bool
  source : Option BirdOperation
  handle : Option String
  query : Option String
  cursor : Option String
  actions : List String
  tweets : List BirdTweet
  evidence : List Evidence
  usage : List Usage
  latencyMs : ℤ
  resultCount : ℕ

/-- `stop` -/
def stop (state : RetrievalState) (verdict : Verdict) (reason : String) (now : ℤ) :
    RetrievalState :=
  { state with verdict, reason, active := false, semanticNeeded := false,
               resultCount := state.tweets.length, latencyMs := now - state.startedAt }

/-- `state.tweets.length ? "partial" : "blocked"` -/
def ended (state : RetrievalState) : Verdict :=
  if state.tweets.length = 0 then .blocked else .partially

/-! ## the request -/

open Regex in
/-- `/https?:\/\/\S+|@[A-Za-z0-9_]+|"[^"]*"|“[^”]*”|'[^']*'/g` -/
def argumentPattern : Regex :=
  let between (l r : Char) : Regex := all [char l, many (· != r) 0 none, char r]
  oneOf
    [all [literal "http", opt (char 's'), literal "://", many (fun c => !isSpace c) 1 none],
     seq (char '@') (many isWord 1 none), between '"' '"', between '“' '”', between '\'' '\'']

/-- `requestWithoutArguments` -/
def requestWithoutArguments (request : String) : List Char :=
  argumentPattern.removeAll request.toList

open Regex in
/-- `/(?:@|https?:\/\/(?:www\.)?(?:x|twitter)\.com\/)([A-Za-z0-9_]{1,15})(?![A-Za-z0-9_])/g` -/
def handlePattern : Regex :=
  all [oneOf [char '@', all [literal "http", opt (char 's'), literal "://",
      opt (literal "www."), oneOf [char 'x', literal "twitter"], literal ".com/"]],
    group (many isWord 1 (some 15)), notBefore (set isWord)]

open Regex in
/-- `/"([^"\n]{1,500})"|“([^”\n]{1,500})”|'([^'\n]{1,500})'/g` -/
def queryPattern : Regex :=
  let quoted (l r : Char) : Regex :=
    all [char l, group (many (fun c => c != r && c != '\n') 1 (some 500)), char r]
  oneOf [quoted '"' '"', quoted '“' '”', quoted '\'' '\'']

open Regex in
/-- `/(?<![A-Za-z0-9_])[-+]?\d+(?:\.\d+)?(?![A-Za-z0-9_])/g` -/
def countPattern : Regex :=
  all [notAfter isWord, opt (set fun c => c == '-' || c == '+'), many isDigit 1 none,
    opt (seq (char '.') (many isDigit 1 none)), notBefore (set isWord)]

/-- `/\b(?:…|…)\b/i` -/
def wordPattern (words : List String) : Regex :=
  Regex.all [Regex.boundary, Regex.oneOf (words.map Regex.anyCase), Regex.boundary]

def numberWords : List String :=
  ["one", "two", "three", "four", "five", "six", "seven", "eight", "nine", "ten", "eleven",
    "twelve", "thirteen", "fourteen", "fifteen", "sixteen", "seventeen", "eighteen", "nineteen",
    "twenty", "thirty", "forty", "fifty", "sixty", "seventy", "eighty", "ninety", "hundred",
    "thousand"]

/-- the first groups of the matches. -/
def candidates (pattern : Regex) (request : String) : List String :=
  (pattern.matchAll request.toList).filterMap fun m => m.groups.head?.map String.ofList

/-- the text of a request; `""` when it is none. -/
def requestText : Value → String
  | .str s => trim s
  | _ => ""

/-- `prepareBirdRetrieval` -/
def prepareBirdRetrieval (host : Host) (now : ℕ → ℤ) (input : Value) : RetrievalState :=
  let request := requestText (input.get "request")
  let handles := (candidates handlePattern request).eraseDups
  let queries := candidates queryPattern request
  let countText := requestWithoutArguments request
  let counts := (countPattern.matchAll countText).map fun m => host.number m.text
  let count := counts.head?.getD 20
  let state : RetrievalState :=
    { request, count, handles, queries, startedAt := now 0, attempt := 0, modelCalls := 0,
      verdict := .running, reason := "", active := true, semanticNeeded := false, source := none,
      handle := none, query := none, cursor := none, actions := [], tweets := [], evidence := [],
      usage := [], latencyMs := 0, resultCount := 0 }
  if (wordPattern numberWords).test countText = true ∨ request = "" ∨
      requestCharsLimit < textLength request ∨ 1 < counts.length ∨ count.den ≠ 1 ∨ count < 1 ∨
      100 < count ∨ 4 < handles.length ∨ 4 < queries.length then
    stop state .needs_clarification ("Specify one source, a count from 1 to 100, and at most " ++
      "four handle/query candidates.") (now 1)
  else if (wordPattern ["timeline", "latest", "last", "recent", "home", "feed"]).test countText ∧
      (wordPattern ["following", "for you", "mentions", "search"]).test countText = false ∧
      handles = [] ∧ queries = [] then
    stop state .needs_clarification "Would you like your Following feed or your For You feed?"
      (now 1)
  else state

/-! ## the answers of the model -/

/-- `probability` -/
def probability : Value → Bool
  | num q => 0 ≤ q && q ≤ 1
  | _ => false

/-- `Number(value)` of a number. -/
def numberOf : Value → ℚ
  | num q => q
  | _ => 0

/-- `choice` -/
def choice (host : Host) (answer : Value) (allowed : List String) (enforceConfidence : Bool) :
    Except String String :=
  match answer.get "choice" with
  | str chosen =>
    if answer.get "type" ≠ str "choice" ∨ chosen ∉ allowed ∨
        probability (answer.get "confidence") = false then .error "invalid_choice"
    else match answer.get "probabilities" with
      | obj fs =>
        if fs.length ≠ allowed.length ∨
            (allowed.any fun key => !probability ((obj fs).get key)) = true then
          .error "invalid_probabilities"
        else if host.offUnity (fs.map fun f => numberOf f.2) then
          .error "invalid_probability_sum"
        else if enforceConfidence = true ∧ (numberOf (answer.get "confidence") < 3 / 4 ∨
            numberOf ((obj fs).get chosen) < 4 / 5) then .error "uncertain_choice"
        else .ok chosen
      | _ => .error "invalid_probabilities"
  | _ => .error "invalid_choice"

/-- `noul` -/
def noul (answer : Value) : Except String ℚ :=
  match answer.get "noul" with
  | num q =>
    if answer.get "type" ≠ str "noul" ∨ probability (num q) = false then .error "invalid_noul"
    else .ok q
  | _ => .error "invalid_noul"

/-- the answers of a decision, when they are the expected ones. -/
def answersOf (host : Host) (decision : Value) (ids : List String) : Except String Value :=
  if decision.get "shadowStatus" ≠ str "ok" ∨ decision.get "advisoryOnly" ≠ bool true ∨
      decision.get "authoritative" ≠ bool false ∨ (decision.get "error").nullish = false then
    .error "decision_error"
  else match decision.get "answers" with
    | obj fs =>
      if fs.length ≠ ids.length ∨ (ids.any fun id => !(fs.any (·.1 == id))) = true then
        .error "missing_or_unexpected_decision"
      else .ok (obj fs)
    -- `in` throws on the right of a text
    | str s =>
      if textLength s = ids.length then .error host.notAnObject
      else .error "missing_or_unexpected_decision"
    | _ => .error "missing_or_unexpected_decision"

/-- `recordDecision` -/
def recordDecision (host : Host) (state : RetrievalState) (decision : Value)
    (ids : List String) : RetrievalState × Except String Value :=
  ({ state with
      modelCalls := state.modelCalls + 1
      usage := state.usage ++ [⟨(decision.get "usage").orElse null,
        (decision.get "latencyMs").orElse null, (decision.get "model").orElse null,
        (decision.get "error").orElse null⟩] },
    answersOf host decision ids)

/-- `candidateChoices` -/
def candidateChoices : List String := ["none", "c0", "c1", "c2", "c3"]

/-- `choices` -/
def choices : List String :=
  operations.map BirdOperation.name ++ ["continue", "partial", "clarify"]

/-- `selected`, of a value of `candidateChoices` -/
def selected (value : String) (candidates : List String) : Except String (Option String) :=
  match candidateChoices.idxOf? value with
  | some (i + 1) =>
    match candidates[i]? with
    | some candidate =>
      if candidate = "" then .error "missing_candidate" else .ok (some candidate)
    | none => .error "missing_candidate"
  | _ => .ok none

/-- `budget` -/
def budget (state : RetrievalState) (now : ℤ) : Bool :=
  state.attempt < executionsLimit && state.modelCalls < modelRequestsLimit &&
    now - state.startedAt < elapsedMsLimit

/-- the answers to the four questions. -/
structure Judgment where
  operation : String
  handle : String
  query : String
  supported : ℚ

/-- the answers to the four questions, each checked, the arguments for the source they are for. -/
def judge (host : Host) (source : Option BirdOperation) (answers : Value) :
    Except String Judgment := do
  let _ ← choice host (answers.get "action") choices false
  let _ ← choice host (answers.get "handle") candidateChoices false
  let _ ← choice host (answers.get "query") candidateChoices false
  let supported ← noul (answers.get "supported")
  let operation ← choice host (answers.get "action") choices true
  let source := (source.map BirdOperation.name).getD operation
  let handle ← if source ∈ ["user_tweets", "mentions"] then
      choice host (answers.get "handle") candidateChoices true
    else pure "none"
  let query ← if source = "search" then
      choice host (answers.get "query") candidateChoices true
    else pure "none"
  pure ⟨operation, handle, query, supported⟩

/-! ## a decision -/

/-- why a decision leads to no action: the retrieval is stopped, or an error is thrown. -/
inductive Refusal where
  | stopped (verdict : Verdict) (reason : String)
  | thrown (message : String)

/-- a later decision has to keep the source and its arguments. -/
def keepSource (state : RetrievalState) (judgment : Judgment) : Except Refusal Unit :=
  if judgment.operation ≠ "continue" ∨ state.cursor.getD "" = "" then
    .error (.thrown "source_change_or_invalid_continuation")
  else match selected judgment.handle state.handles with
    | .error message => .error (.thrown message)
    | .ok handle =>
      if handle ≠ state.handle then .error (.thrown "argument_change")
      else match selected judgment.query state.queries with
        | .error message => .error (.thrown message)
        | .ok query =>
          if query ≠ state.query then .error (.thrown "argument_change") else .ok ()

/-- whether the source is given what it needs, nothing else, and is the feed that is named. -/
def checkSource (state : RetrievalState) (source : BirdOperation) : Except Refusal Unit :=
  let words := requestWithoutArguments state.request
  if source = .user_tweets ∧ state.handle.getD "" = "" ∨
      source = .search ∧ state.query.getD "" = "" then
    .error (.stopped .needs_clarification ("Provide @handle/profile URL for user tweets, or a " ++
      "quoted query for search."))
  else if source ∈ [.following, .for_you] ∧
        (state.handle.getD "" ≠ "" ∨ state.query.getD "" ≠ "") ∨
      source = .user_tweets ∧ state.query.getD "" ≠ "" ∨
      source = .search ∧ state.handle.getD "" ≠ "" ∨
      source = .mentions ∧ state.query.getD "" ≠ "" then
    .error (.thrown "unexpected_arguments")
  else if (wordPattern ["following"]).test words = true ∧ source ≠ .following ∨
      (wordPattern ["for you"]).test words = true ∧ source ≠ .for_you then
    .error (.thrown "requested_source_mismatch")
  else .ok ()

/-- the first decision sets the source and its arguments, also when it then fails. -/
def setSource (state : RetrievalState) (judgment : Judgment) :
    RetrievalState × Except Refusal Unit :=
  match operations.find? (·.name == judgment.operation) with
  | none => (state, .error (.thrown "invalid_initial_action"))
  | some source =>
    let state := { state with source := some source }
    match selected judgment.handle state.handles with
    | .error message => (state, .error (.thrown message))
    | .ok handle =>
      let state := { state with handle }
      match selected judgment.query state.queries with
      | .error message => (state, .error (.thrown message))
      | .ok query =>
        let state := { state with query }
        (state, checkSource state source)

/-- the source and the arguments after a decision, or why it leads to no action. -/
def settleSource (state : RetrievalState) (judgment : Judgment) :
    RetrievalState × Except Refusal Unit :=
  if judgment.operation = "clarify" ∨ judgment.supported < 9 / 10 then
    (state, .error (.stopped .needs_clarification ("Specify an unambiguous supported source and " ++
      "required handle or quoted search query; extra filters are unsupported.")))
  else if judgment.operation = "partial" then
    (state, .error (.stopped (ended state) "model_stopped"))
  else match state.source with
    | some _ => (state, keepSource state judgment)
    | none => setSource state judgment

/-- the action for the rest of the count. -/
def actionOf (state : RetrievalState) (operation : BirdOperation) : BirdAction :=
  { operation, count := state.count - state.tweets.length,
    handle := state.handle.filter (· ≠ ""), query := state.query.filter (· ≠ ""),
    cursor := state.cursor.filter (· ≠ "") }

/-- the action, noted as executed, unless it is not allowed or was executed before. -/
def admitAction (host : Host) (state : RetrievalState) (action : BirdAction) :
    RetrievalState × Except Refusal BirdAction :=
  match birdArgv host action with
  | .error message => (state, .error (.thrown message))
  | .ok _ =>
    if host.stringify action ∈ state.actions then
      (state, .error (.stopped (ended state) "repeated_action"))
    else
      ({ state with actions := state.actions ++ [host.stringify action] }, .ok action)

/-- the action a decision leads to. -/
def chooseAction (host : Host) (now : ℕ → ℤ) (decision : Value) (state : RetrievalState) :
    RetrievalState × Except Refusal BirdAction :=
  match recordDecision host state decision ["action", "handle", "query", "supported"] with
  | (state, .error message) => (state, .error (.thrown message))
  | (state, .ok answers) =>
    if executionsLimit ≤ state.attempt ∨ modelRequestsLimit < state.modelCalls ∨
        elapsedMsLimit ≤ now 0 - state.startedAt then
      (state, .error (.stopped (ended state) "budget_exhausted"))
    else match judge host state.source answers with
      | .error message => (state, .error (.thrown message))
      | .ok judgment =>
        match settleSource state judgment with
        | (state, .error refusal) => (state, .error refusal)
        | (state, .ok ()) =>
          match state.source with
          | none => (state, .error (.thrown "operation_not_allowed"))
          | some operation => admitAction host state (actionOf state operation)

/-- the end a refusal leads to. -/
def refuse (state : RetrievalState) (refusal : Refusal) (now : ℤ) : RetrievalState :=
  match refusal with
  | .stopped verdict reason => stop state verdict reason now
  | .thrown message =>
    stop state (if message = "uncertain_choice" then .needs_clarification else .blocked) message
      now

/-! ## a page -/

/-- the records of a page whose ids were not seen. -/
def unseen : List String → List BirdTweet → List BirdTweet
  | _, [] => []
  | seen, tweet :: tweets =>
    if tweet.id ∈ seen then unseen seen tweets
    else tweet :: unseen (tweet.id :: seen) tweets

/-- `list.slice(0, end)` -/
def sliceTo {α : Type} (stop : ℚ) (l : List α) : List α :=
  if 0 ≤ stop then l.take stop.floor.toNat else l.take (l.length - (-stop).floor.toNat)

/-- whether to go on after a page, and how it ends. -/
def conclude (now : ℕ → ℤ) (previousCursor : Option String) (added : ℕ)
    (state : RetrievalState) : RetrievalState :=
  if elapsedMsLimit ≤ now 5 - state.startedAt then
    stop state (ended state) "elapsed_limit" (now 6)
  else if state.count ≤ state.tweets.length then
    stop state .complete "requested_count_retrieved" (now 6)
  else if added = 0 ∨ previousCursor ≠ none ∧ previousCursor = state.cursor then
    stop state .partially "no_progress" (now 6)
  else if state.cursor.getD "" = "" ∨
      state.source ∉ [some .user_tweets, some .search] then
    stop state .partially "source_exhausted_or_no_cursor" (now 6)
  else if budget state (now 6) = false then stop state .partially "budget_exhausted" (now 7)
  else { state with semanticNeeded := true }

/-- the state with the records of a page. -/
def receive (now : ℕ → ℤ) (action : BirdAction) (page : BirdPage) (state : RetrievalState) :
    RetrievalState :=
  let newTweets := unseen (state.tweets.map (·.id)) page.tweets
  let tweets := state.tweets ++ sliceTo (state.count - state.tweets.length) newTweets
  { state with
    tweets
    evidence := state.evidence ++
      [.page action page.tweets page.cursor (now 3 - now 1) newTweets.length]
    cursor := page.cursor
    resultCount := tweets.length
    latencyMs := now 4 - state.startedAt }

/-- an action, executed. -/
def perform (now : ℕ → ℤ) (executor : BirdExecutor) (action : BirdAction)
    (state : RetrievalState) : RetrievalState :=
  let state := { state with attempt := state.attempt + 1 }
  match executor action (min cliTimeoutMs (elapsedMsLimit - (now 2 - state.startedAt))) with
  | .ok page =>
    conclude now state.cursor (unseen (state.tweets.map (·.id)) page.tweets).length
      (receive now action page state)
  | .error message =>
    let reason := message.getD "cli_failed"
    let state := { state with
      evidence := state.evidence ++ [.failed action reason (now 3 - now 1)] }
    stop state (ended state) reason (now 4)

/-- `executeBirdDecision`, and the action it executed. -/
def executeBirdDecision (host : Host) (now : ℕ → ℤ) (decision : Value)
    (executor : BirdExecutor) (state : RetrievalState) : RetrievalState × Option BirdAction :=
  if state.active = false then (state, none)
  else match chooseAction host now decision state with
    | (state, .error refusal) => (refuse state refusal (now 1), none)
    | (state, .ok action) => (perform now executor action state, some action)

/-- `checkBirdEvidence` -/
def checkBirdEvidence (host : Host) (now : ℕ → ℤ) (decision : Value) (state : RetrievalState) :
    RetrievalState :=
  if state.semanticNeeded = false then state
  else match recordDecision host state decision ["continueSafe"] with
    | (state, .error message) => stop state .partially message (now 0)
    | (state, .ok answers) =>
      match noul (answers.get "continueSafe") with
      | .error message => stop state .partially message (now 0)
      | .ok safe =>
        if safe < 9 / 10 then
          stop state .partially "semantic_check_uncertain_or_failed" (now 0)
        else
          let state := { state with semanticNeeded := false }
          if budget state (now 0) = false then stop state .partially "budget_exhausted" (now 1)
          else state

/-- what the model is shown of a retrieval. -/
structure ModelState where
  continuation : Bool
  request : String
  count : ℚ
  handles : List String
  queries : List String
  source : Option BirdOperation
  handle : Option String
  query : Option String
  resultCount : ℕ
  attempt : ℕ
  hasCursor : Bool
  active : Bool
  remainingMs : ℤ

/-- `birdModelState`; it stops a retrieval that has no budget or time left. -/
def birdModelState (now : ℕ → ℤ) (state : RetrievalState) : RetrievalState × ModelState :=
  let state := if budget state (now 0) = false ∨
      elapsedMsLimit - 1100 < now 1 - state.startedAt then
    stop state (ended state) "budget_exhausted" (now 2) else state
  (state,
    { continuation := state.source.isSome, request := state.request, count := state.count,
      handles := state.handles, queries := state.queries, source := state.source,
      handle := state.handle, query := state.query, resultCount := state.tweets.length,
      attempt := state.attempt, hasCursor := state.cursor.getD "" ≠ "", active := state.active,
      remainingMs := max 1 (min 10000 (elapsedMsLimit - (now 3 - state.startedAt))) })

/-! ## the loop -/

/-- A step of the loop, with what comes from outside. -/
inductive Call where
  | actionState (now : ℕ → ℤ)
  | execute (now : ℕ → ℤ) (decision : Value) (executor : BirdExecutor)
  | evidenceState (now : ℕ → ℤ)
  | check (now : ℕ → ℤ) (decision : Value)

/-- a retrieval and the actions it executed, in order. -/
structure Run where
  state : RetrievalState
  executed : List BirdAction

/-- a step under its condition: `active` or `semanticNeeded`. -/
def Run.call (host : Host) (r : Run) : Call → Run
  | .actionState now =>
    if r.state.active then { r with state := (birdModelState now r.state).1 } else r
  | .execute now decision executor =>
    if r.state.active then
      let (state, action) := executeBirdDecision host now decision executor r.state
      ⟨state, r.executed ++ action.toList⟩
    else r
  | .evidenceState now =>
    if r.state.semanticNeeded then { r with state := (birdModelState now r.state).1 } else r
  | .check now decision =>
    if r.state.semanticNeeded then
      { r with state := checkBirdEvidence host now decision r.state }
    else r

/-- the retrieval after steps. -/
def Run.calls (host : Host) (r : Run) (calls : List Call) : Run := calls.foldl (Run.call host) r

/-- what one turn of the loop is given. -/
structure Turn where
  actionClock : ℕ → ℤ
  executeClock : ℕ → ℤ
  actionDecision : Value
  executor : BirdExecutor
  evidenceClock : ℕ → ℤ
  checkClock : ℕ → ℤ
  evidenceDecision : Value

/-- the steps of a turn, in their order. -/
def Turn.calls (turn : Turn) : List Call :=
  [.actionState turn.actionClock, .execute turn.executeClock turn.actionDecision turn.executor,
    .evidenceState turn.evidenceClock, .check turn.checkClock turn.evidenceDecision]

/-- a request that was prepared. -/
def Run.start (host : Host) (now : ℕ → ℤ) (input : Value) : Run :=
  ⟨prepareBirdRetrieval host now input, []⟩

end BirdRetrieval
end Pipelines
end WmAutopilot
