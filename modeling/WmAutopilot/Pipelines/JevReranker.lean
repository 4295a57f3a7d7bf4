import Mathlib.Data.List.Sort
import WmAutopilot.Js.Value

/-!
# Candidates re-ranked by judgments

* `Numbers`             the conversions that are used;
* `Policy`              threshold, shortlist and budget, as they are read from the configuration;
* `validateJudgments`   whether the judgments can be used;
* `select`              the pass over the ranking;
* `composeJevRerank`    the selected candidates and the ranking that is reported.
-/

set_option autoImplicit false

namespace WmAutopilot
namespace Pipelines
namespace JevReranker
open Js Value

/-- The conversions that are used. -/
structure Numbers where
  /-- `Number(value)`; `none`: it is not finite. -/
  finiteNumber : Value → Option ℚ
  finiteNumber_num : ∀ q, finiteNumber (num q) = some q
  /-- `JSON.stringify(value).length` -/
  jsonLength : Value → ℕ

/-- `isJsonObject(value) ? value : {}` -/
def asObject (v : Value) : Value := if v.isPlainObject then v else obj []

structure Policy where
  threshold : ℚ
  minimumShortlist : ℕ
  maximumShortlist : ℕ
  contextBudgetChars : ℕ
  minimum_le : minimumShortlist ≤ maximumShortlist

structure RankedCandidate where
  candidate : Value
  candidateId : String
  originalRank : ℕ
  originalIndex : ℕ
  probability : ℚ
  judgment : Value
  estimatedChars : ℕ
  deriving DecidableEq

structure Ranking where
  candidateId : String
  originalRank : ℕ
  rerankedRank : ℕ
  included : Bool
  exclusionReason : Option String
  probability : Option ℚ
  provenance : Value
  estimatedChars : ℕ
  usage : Value
  cost : Option ℚ
  latencyMs : Option ℚ
  error : Value
  fallback : Bool

inductive Mode where
  | empty
  | full_set_fallback
  | jev_reranked
  deriving DecidableEq, Repr

structure Rerank where
  mode : Mode
  reason : String
  selectedCandidates : List Value
  excludedCandidates : List Ranking
  rankings : List Ranking
  warnings : List String
  policy : Policy

structure RerankInput where
  candidates : Value
  judgments : Value
  config : Value

/-- `input.candidates.filter(isJsonObject)`, of an array. -/
def RerankInput.objects (input : RerankInput) : List Value :=
  (input.candidates.elements.getD []).filter isPlainObject

/-- `input.judgments.items`, of an object with an array. -/
def RerankInput.items (input : RerankInput) : List Value :=
  ((asObject input.judgments).get "items").elements.getD []

section
variable (numbers : Numbers)

def boundedNumber (value : Value) (fallback minimum maximum : ℚ) : ℚ :=
  match numbers.finiteNumber value with
  | none => fallback
  | some q => if q < minimum then minimum else if maximum < q then maximum else q

def nonNegativeInteger (value : Value) (fallback : ℕ) : ℕ :=
  match numbers.finiteNumber value with
  | none => fallback
  | some q => q.floor.toNat

def positiveInteger (value : Value) (fallback : ℕ) : ℕ :=
  match numbers.finiteNumber value with
  | none => fallback
  | some q => if q ≤ 0 then fallback else q.floor.toNat

def readPolicy (config : Value) : Policy :=
  let minimum := nonNegativeInteger numbers (config.get "minimumShortlist") 1
  let maximum := positiveInteger numbers (config.get "maximumShortlist") 20
  { threshold := boundedNumber numbers (config.get "threshold") (1 / 2) 0 1
    minimumShortlist := minimum
    maximumShortlist := if minimum ≤ maximum then maximum else minimum
    contextBudgetChars := positiveInteger numbers (config.get "contextBudgetChars") 24000
    minimum_le := by split <;> omega }

/-- the policy of an input: `isJsonObject(input.config) ? input.config : {}` -/
def RerankInput.policy (input : RerankInput) : Policy := readPolicy numbers (asObject input.config)

def candidateId (candidate : Value) (index : ℕ) : String :=
  let value := (((candidate.get "id").orElse (candidate.get "externalId")).orElse
    (candidate.get "external_id")).orElse (candidate.get "url")
  value.getString.getD ("candidate-" ++ toString (index + 1))

/-! ## judgments -/

/-- `asObject(asObject(judgments[index]).result)` -/
def resultAt (items : List Value) (index : ℕ) : Value :=
  asObject ((asObject (items.getD index undefined)).get "result")

/-- `asObject(asObject(result.answers).relevance)` -/
def answerOf (result : Value) : Value :=
  asObject ((asObject (result.get "answers")).get "relevance")

/-- a judgment with a probability. -/
def Valid (result : Value) : Prop :=
  result.get "shadowStatus" = str "ok" ∧ (answerOf result).get "type" = str "noul" ∧
    ∃ q ∈ numbers.finiteNumber ((answerOf result).get "noul"), 0 ≤ q ∧ q ≤ 1

instance (result : Value) : Decidable (Valid numbers result) := inferInstanceAs (Decidable (_ ∧ _))

structure Refusal where
  reason : String
  warning : String

/-- the first candidate whose judgment is not valid. -/
def firstInvalid (candidates items : List Value) : Option (Value × ℕ) :=
  candidates.zipIdx.find? fun c => ¬Valid numbers (resultAt items c.2)

def validateJudgments (candidates items : List Value) : Except Refusal Unit :=
  if items.length ≠ candidates.length then
    .error ⟨"incomplete_jev_results", "Expected " ++ toString candidates.length ++
      " Jev results but received " ++ toString items.length ++ "."⟩
  else match firstInvalid numbers candidates items with
    | some (candidate, index) =>
      .error ⟨"malformed_or_failed_jev_result", "Candidate " ++ candidateId candidate index ++
        " did not receive a valid Jev Noul result."⟩
    | none => .ok ()

def originalRank (candidate : Value) (index : ℕ) : ℕ :=
  positiveInteger numbers (candidate.get "originalRank") (index + 1)

/-- a candidate with its judgment. -/
def rankedCandidate (items : List Value) (c : Value × ℕ) : RankedCandidate where
  candidate := c.1
  candidateId := candidateId c.1 c.2
  originalRank := originalRank numbers c.1 c.2
  originalIndex := c.2
  probability := (numbers.finiteNumber ((answerOf (resultAt items c.2)).get "noul")).getD 0
  judgment := resultAt items c.2
  estimatedChars := numbers.jsonLength c.1

def rankedCandidates (candidates items : List Value) : List RankedCandidate :=
  candidates.zipIdx.map (rankedCandidate numbers items)

/-- the order of the ranking: probability, original rank, position. -/
def RankBefore (left right : RankedCandidate) : Prop :=
  right.probability < left.probability ∨ right.probability = left.probability ∧
    (left.originalRank < right.originalRank ∨
      left.originalRank = right.originalRank ∧ left.originalIndex ≤ right.originalIndex)

instance : DecidableRel RankBefore := fun _ _ => inferInstanceAs (Decidable (_ ∨ _))

def ranking (candidates items : List Value) : List RankedCandidate :=
  (rankedCandidates numbers candidates items).insertionSort RankBefore

/-! ## the selection -/

/-- the entries that were selected and their characters. -/
structure Selection where
  taken : List RankedCandidate := []
  usedChars : ℕ := 0

/-- `Math.min(ranked.length, minimumShortlist)` -/
def minimumCount (policy : Policy) (ranked : List RankedCandidate) : ℕ :=
  if ranked.length ≤ policy.minimumShortlist then ranked.length else policy.minimumShortlist

/-- the positions of the minimum and of the best entries at the threshold. -/
def wanted (policy : Policy) (ranked : List RankedCandidate) : List ℕ :=
  (ranked.take (minimumCount policy ranked)).map (·.originalIndex) ++
    ((ranked.filter fun e => policy.threshold ≤ e.probability).take policy.maximumShortlist).map
      (·.originalIndex)

/-- one turn of the loop over the ranking. -/
def selectStep (policy : Policy) (minimum : ℕ) (wanted : List ℕ) (s : Selection)
    (entry : RankedCandidate) : Selection :=
  if entry.originalIndex ∉ wanted ∨ policy.maximumShortlist ≤ s.taken.length then s
  else if minimum ≤ s.taken.length ∧
      policy.contextBudgetChars < s.usedChars + entry.estimatedChars then s
  else ⟨s.taken ++ [entry], s.usedChars + entry.estimatedChars⟩

def select (policy : Policy) (ranked : List RankedCandidate) : Selection :=
  ranked.foldl (selectStep policy (minimumCount policy ranked) (wanted policy ranked)) {}

/-- `selectedIndexes.has(entry.originalIndex)` -/
def Selection.has (s : Selection) (entry : RankedCandidate) : Bool :=
  entry.originalIndex ∈ s.taken.map (·.originalIndex)

/-! ## the result -/

def provenance (candidate : Value) : Value :=
  (((candidate.get "provenance").orElse (candidate.get "source")).orElse
    (candidate.get "url")).orElse null

def extractCost (result : Value) : Option ℚ :=
  numbers.finiteNumber (((asObject (result.get "usage")).get "cost").orElse (result.get "cost"))

def exclusionReason (policy : Policy) (ranked : List RankedCandidate) (s : Selection)
    (entry : RankedCandidate) (rerankedIndex : ℕ) : Option String :=
  if s.has entry then none
  else if entry.probability < policy.threshold ∧ minimumCount policy ranked ≤ rerankedIndex then
    some "below_threshold"
  else if policy.maximumShortlist ≤ s.taken.length ∧ policy.maximumShortlist ≤ rerankedIndex then
    some "maximum_shortlist"
  else some "context_budget"

/-- what is reported of an entry of the ranking. -/
def rankingOf (policy : Policy) (ranked : List RankedCandidate) (s : Selection)
    (c : RankedCandidate × ℕ) : Ranking where
  candidateId := c.1.candidateId
  originalRank := c.1.originalRank
  rerankedRank := c.2 + 1
  included := s.has c.1
  exclusionReason := exclusionReason policy ranked s c.1 c.2
  probability := some c.1.probability
  provenance := provenance c.1.candidate
  estimatedChars := c.1.estimatedChars
  usage := (c.1.judgment.get "usage").orElse null
  cost := extractCost numbers c.1.judgment
  latencyMs := numbers.finiteNumber (c.1.judgment.get "latencyMs")
  error := (c.1.judgment.get "error").orElse null
  fallback := false

/-- what is reported of a candidate when the judgments cannot be used. -/
def fallbackRanking (items : List Value) (c : Value × ℕ) : Ranking :=
  let result := resultAt items c.2
  let probability :=
    if (answerOf result).get "type" = str "noul" then
      numbers.finiteNumber ((answerOf result).get "noul")
    else none
  { candidateId := candidateId c.1 c.2
    originalRank := originalRank numbers c.1 c.2
    rerankedRank := c.2 + 1
    included := true
    exclusionReason := none
    probability
    provenance := provenance c.1
    estimatedChars := numbers.jsonLength c.1
    usage := (result.get "usage").orElse null
    cost := extractCost numbers result
    latencyMs := numbers.finiteNumber (result.get "latencyMs")
    error := (result.get "error").orElse
      (if probability = none then str "Missing or malformed Jev Noul result." else null)
    fallback := true }

def buildResult (mode : Mode) (reason : String) (selected : List Value) (rankings : List Ranking)
    (warnings : List String) (policy : Policy) : Rerank where
  mode := mode
  reason := reason
  selectedCandidates := selected
  excludedCandidates := rankings.filter fun r => r.included ≠ true
  rankings := rankings
  warnings := warnings
  policy := policy

/-- the result of judgments that can be used. -/
def rerankedResult (policy : Policy) (ranked : List RankedCandidate) : Rerank :=
  let s := select policy ranked
  buildResult .jev_reranked "deterministic_policy"
    ((ranked.filter fun e => s.has e).map (·.candidate))
    (ranked.zipIdx.map (rankingOf numbers policy ranked s))
    (if policy.contextBudgetChars < s.usedChars then
      ["Minimum shortlist exceeds the configured context budget."] else [])
    policy

def buildFailOpenResult (policy : Policy) (candidates items : List Value) (refusal : Refusal) :
    Rerank :=
  buildResult .full_set_fallback refusal.reason candidates
    (candidates.zipIdx.map (fallbackRanking numbers items)) [refusal.warning] policy

def composeJevRerank (input : RerankInput) : Rerank :=
  let candidates := input.objects
  let policy := input.policy numbers
  if candidates = [] then buildResult .empty "no_candidates" [] [] [] policy
  else match validateJudgments numbers candidates input.items with
    | .error refusal => buildFailOpenResult numbers policy candidates input.items refusal
    | .ok () => rerankedResult numbers policy (ranking numbers candidates input.items)

end

end JevReranker
end Pipelines
end WmAutopilot
