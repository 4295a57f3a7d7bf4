import Mathlib.Algebra.Order.Ring.Unbundled.Rat
import WmAutopilot.Js.Prototype
import WmAutopilot.Js.Replace
import WmAutopilot.Js.Throw
import WmAutopilot.Pipelines.BirdRetrieval

/-!
# Candidates for the arguments of a command

What a request and the messages before it offer as values, each with the span it was read from.

* `CliContract`         the operations of a command line tool, and their arguments;
* `cliContract`         the registered contract of an id;
* `numericSpan`         a number in digits or in words;
* `extractCandidates`   the numbers, handles and quoted texts of a text;
* `mem_extract_spoken`  the handles and the quoted texts stand in it word for word.
-/

set_option autoImplicit false

namespace WmAutopilot
namespace Pipelines
namespace Cli
open Js Value BirdRetrieval

/-! ## contracts -/

/-- A number of JavaScript. -/
inductive CliNumber where
  | finite (q : ℚ)
  | infinity (negative : Bool)
  | nan
  deriving DecidableEq, Repr

inductive CliValue where
  | num (n : CliNumber)
  | str (s : String)
  deriving DecidableEq, Repr

inductive ArgumentKind where
  | number
  | handle
  | query
  deriving DecidableEq, Repr

structure CliArgument where
  kind : ArgumentKind
  default : Option ℚ
  min : Option ℚ
  max : Option ℚ

/-- `Record<string, string | number>`, in the order in which it was filled. -/
abbrev CliArgs := List (String × CliValue)

structure CliContract where
  id : String
  operations : List (String × String)
  arguments : List (String × CliArgument)
  required : List (String × List String)
  applicable : List (String × List String)
  defaultOperation : String
  explicitSources : List (String × String)
  /-- the command line; it throws an error with a message, or something else. -/
  argv : String → CliArgs → Except (Option String) (List String)

/-- whether every object has a property of this name. -/
def Inherited (key : String) : Prop := key = "__proto__" ∨ key ∈ Chain.builtins

instance : DecidablePred Inherited := fun key =>
  inferInstanceAs (Decidable (key = "__proto__" ∨ key ∈ Chain.builtins))

/-- `!!contract.operations[operation]` -/
def CliContract.knows (contract : CliContract) (operation : String) : Bool :=
  match contract.operations.lookup operation with
  | some description => decide (description ≠ "")
  | none => decide (Inherited operation)

/-- `contracts.get(id)` -/
def cliContract (contracts : List CliContract) (id : String) : Except String CliContract :=
  orThrow "unregistered_cli_contract" (contracts.find? fun contract => decide (contract.id = id))

def registerCliContract (contracts : List CliContract) (contract : CliContract) :
    Except String (List CliContract) := do
  throwIf (contract.knows contract.defaultOperation = false) "invalid_cli_contract"
  throwIf (contracts.any fun other => decide (other.id = contract.id)) "duplicate_cli_contract"
  pure (contracts ++ [contract])

structure Candidate where
  value : CliValue
  span : String
  deriving DecidableEq, Repr

/-! ## numbers -/

/-- What the code uses of its platform. -/
structure Host where
  /-- `Number(text)` -/
  number : List Char → CliNumber
  /-- the nearest number there is. -/
  round : ℚ → CliNumber
  toLowerCase : String → String
  /-- `String(value)` -/
  text : Value → String
  /-- `Math.abs(values.reduce((sum, p) => sum + Number(p), 0) - 1) > 0.02` -/
  offUnity : List Value → Except String Bool
  /-- `values.reduce((sum, p) => sum + Number(p), 0) < 0.8` -/
  underShare : List Value → Except String Bool
  /-- `new RegExp(pattern, "i")`, as its `test` -/
  regExp : String → Except String (List Char → Bool)
  /-- the text of a property that every object has. -/
  inheritedText : String → String
  /-- the message of a call of what is no function. -/
  notAFunction : String

def small : List String :=
  ["zero", "one", "two", "three", "four", "five", "six", "seven", "eight", "nine", "ten", "eleven",
    "twelve", "thirteen", "fourteen", "fifteen", "sixteen", "seventeen", "eighteen", "nineteen"]

def tens : List String :=
  ["twenty", "thirty", "forty", "fifty", "sixty", "seventy", "eighty", "ninety"]

section
variable (host : Host)

def CliNumber.step (f : ℚ → ℚ) : CliNumber → CliNumber
  | .finite q => host.round (f q)
  | n => n

/-- `value || 1` -/
def CliNumber.orOne (n : CliNumber) : CliNumber := if n = .finite 0 then .finite 1 else n

/-- one word of a number. -/
def addWord (value : CliNumber) (word : String) : Option CliNumber :=
  match small.idxOf? word, tens.idxOf? word with
  | some i, _ => some (value.step host (· + i))
  | none, some i => some (value.step host (· + (i + 2) * 10))
  | none, none =>
    if word = "hundred" then some (value.orOne.step host (· * 100))
    else if word = "dozen" then some (value.orOne.step host (· * 12))
    else if word = "score" then some (value.orOne.step host (· * 20))
    else if word = "a" then some value
    else none

/-- `text.split(/\s+/)` -/
def splitSpaces : List Char → List (List Char)
  | [] => [[]]
  | c :: s =>
    if isSpace c then if s.head?.any isSpace then splitSpaces s else [] :: splitSpaces s
    else match splitSpaces s with
      | [] => [[c]]
      | word :: words => (c :: word) :: words

open Regex in
/-- `/^[-+]?\d+(?:\.\d+)?$/` -/
def numeralPattern : Regex :=
  all [opt (set fun c => c == '-' || c == '+'), many isDigit 1 none,
    opt (seq (char '.') (many isDigit 1 none))]

def numericSpan (span : String) : Option CliNumber :=
  if (numeralPattern.run none span.toList).any (fun m => decide (m.rest = [])) then
    some (host.number span.toList)
  else
    let lower := (host.toLowerCase span).toList.map fun c => if c = '-' then ' ' else c
    let words := ((splitSpaces lower).map String.ofList).filter fun word => decide (word ≠ "and")
    if words = [] then none else words.foldlM (addWord host) (.finite 0)

/-! ## texts -/

open Regex in
/-- `/@\[[^\]\n]*\]\(mention:(?:agent|person):[^)\n]+\)/g` -/
def mentionPattern : Regex :=
  all [literal "@[", many (fun c => c != ']' && c != '\n') 0 none, literal "](mention:",
    oneOf [literal "agent", literal "person"], char ':',
    many (fun c => c != ')' && c != '\n') 1 none, char ')']

def stripRoutingMentions (request : String) : String :=
  trim (String.ofList (mentionPattern.replaceAll (fun _ => [' ']) request.toList))

/-- at most `n` matches of `r`, as many as there are. -/
def upTo (r : Regex) : ℕ → Regex
  | 0 => .empty
  | n + 1 => .alt (.seq r (upTo r n)) .empty

open Regex in
/-- `\b(?:…)(?:[ -]+(?:…|and))*\b`, in a text of `length` characters; flags `gi` -/
def numberWordsPattern (length : ℕ) : Regex :=
  let words := (small ++ tens ++ ["hundred"]).map anyCase
  all [boundary, oneOf words,
    upTo (seq (many (fun c => c == ' ' || c == '-') 1 none) (oneOf (words ++ [anyCase "and"])))
      length, boundary]

/-- the arrays of candidates; the arguments of a kind have theirs in common. -/
structure Arrays where
  numbers : List Candidate
  handles : List Candidate
  queries : List Candidate

def Arrays.of (arrays : Arrays) : ArgumentKind → List Candidate
  | .number => arrays.numbers
  | .handle => arrays.handles
  | .query => arrays.queries

def Arrays.push (arrays : Arrays) (candidate : Candidate) : ArgumentKind → Arrays
  | .number => { arrays with numbers := arrays.numbers ++ [candidate] }
  | .handle => { arrays with handles := arrays.handles ++ [candidate] }
  | .query => { arrays with queries := arrays.queries ++ [candidate] }

/-- `{ span: m[0], value: m[1] }` of every match. -/
def quoted (pattern : Regex) (text : String) : List Candidate :=
  (pattern.matchAll text.toList).map fun m =>
    { value := .str (String.ofList (m.groups.head?.getD [])), span := String.ofList m.text }

/-- the text with blanks in place of its links, handles and quoted texts. -/
def blanked (request : String) : List Char :=
  argumentPattern.replaceAll
    (fun m => List.replicate (textLength (String.ofList m.text)) ' ') request.toList

/-- the numbers of a text, those in digits first. -/
def numbersOf (text : List Char) : List Candidate :=
  (countPattern.matchAll text).map
    (fun m => { value := .num (host.number m.text), span := String.ofList m.text }) ++
  ((numberWordsPattern text.length).matchAll text).filterMap fun m =>
    (numericSpan host (String.ofList m.text)).map fun n =>
      { value := .num n, span := String.ofList m.text }

/-- `extractCandidates`, of each kind of argument. -/
def extractCandidates (request : String) : Arrays where
  numbers := numbersOf host (blanked request)
  handles := quoted handlePattern request
  queries := quoted queryPattern request

/-- `Object.fromEntries(Object.entries(contract.arguments).map(…))` -/
def byName (contract : CliContract) (arrays : Arrays) : List (String × List Candidate) :=
  contract.arguments.map fun entry => (entry.1, arrays.of entry.2.kind)

end

/-! ## what stands in a text -/

section
variable {host : Host} {pattern : Regex} {text : String} {candidate : Candidate}

theorem mem_quoted_spoken (h : candidate ∈ quoted pattern text) :
    candidate.span.toList <:+: text.toList := by
  obtain ⟨m, hm, rfl⟩ := List.mem_map.mp h
  rw [String.toList_ofList]
  exact Regex.infix_of_mem_matchAll hm

/-- **A candidate that is no number stands in the text.** -/
theorem mem_extract_spoken {kind : ArgumentKind} (hkind : kind ≠ .number)
    (h : candidate ∈ (extractCandidates host text).of kind) :
    candidate.span.toList <:+: text.toList := by
  cases kind with
  | number => exact absurd rfl hkind
  | handle => exact mem_quoted_spoken h
  | query => exact mem_quoted_spoken h

end

end Cli
end Pipelines
end WmAutopilot
