import Mathlib.Data.Int.Notation
import Mathlib.Data.List.Sort
import WmAutopilot.Js.Platform

/-!
# Rules for kinds of Nostr events

* `NostrKindConstraint`         what an event of one kind may look like;
* `matchesExactNostrTags`       each named tag occurs once, with exactly its full ordered array;
* `normalizeNostrKindRules`     the reader of the rules of a policy.
-/

set_option autoImplicit false

namespace WmAutopilot
namespace Signing
open Js Value

def MAX_CUSTOM_NOSTR_CONTENT_BYTES : ℤ := 65536
def MAX_CUSTOM_NOSTR_TAGS : ℤ := 64
def MAX_CUSTOM_NOSTR_TAG_BYTES : ℤ := 16384
def MAX_CUSTOM_NOSTR_TAG_NAMES : ℕ := 32
def MAX_CUSTOM_NOSTR_TAG_NAME_BYTES : ℕ := 64

structure NostrKindConstraint where
  kind : ℤ
  maxContentBytes : ℤ
  maxTags : ℤ
  maxTagBytes : ℤ
  allowedTagNames : List String
  requiredTags : List (String × String) := []
  exactTags : Option (List (List String)) := none
  deriving DecidableEq, Repr

/-- `Number.isInteger(value)`, and the integer. -/
def integerOf : Value → Option ℤ
  | num q => if q.den = 1 then some q.num else none
  | _ => none

/-- `typeof value === "string"`, and the text. -/
def stringOf : Value → Option String
  | str s => some s
  | _ => none

/-- an array of texts. -/
def stringsOf (value : Value) : Option (List String) := value.elements.bind (·.mapM stringOf)

/-- the bytes of the texts of tags. -/
def tagBytes (tags : List (List String)) : ℤ :=
  tags.flatten.foldl (fun bytes text => bytes + (text.utf8ByteSize : ℤ)) 0

def matchesExactNostrTags (tags : List (List String)) (expectedTags : Option (List (List String))) :
    Bool :=
  (expectedTags.getD []).all fun expected =>
    match tags.filter fun tag => tag.head? = expected.head? with
    | [tag] => tag = expected
    | _ => false

/-! ## the reader of one rule -/

/-- a number of a rule between 0 and a bound. -/
def readBounded (rule : Value) (key : String) (max : ℤ) : Except String ℤ :=
  match integerOf (rule.get key) with
  | some n => if 0 ≤ n ∧ n ≤ max then .ok n
    else .error ("Custom Nostr " ++ key ++ " must be between 0 and " ++ toString max)
  | none => .error ("Custom Nostr " ++ key ++ " must be between 0 and " ++ toString max)

def readAllowedTagNames (rule : Value) : Except String (List String) := do
  match (rule.get "allowedTagNames").elements with
  | none => .error "Custom Nostr allowedTagNames must contain at most 32 names"
  | some values =>
    throwIf (MAX_CUSTOM_NOSTR_TAG_NAMES < values.length)
      "Custom Nostr allowedTagNames must contain at most 32 names"
    let names ← values.mapM fun name =>
      match name with
      | str s =>
        if s = "" ∨ MAX_CUSTOM_NOSTR_TAG_NAME_BYTES < s.utf8ByteSize then
          .error "Custom Nostr tag names must be non-empty strings of at most 64 bytes"
        else .ok s
      | _ => .error "Custom Nostr tag names must be non-empty strings of at most 64 bytes"
    throwIf (¬names.Nodup) "Custom Nostr allowedTagNames cannot contain duplicates"
    pure names

/-- a pair of `requiredTags`. -/
def readRequiredTag (allowedTagNames : List String) (maxTagBytes : ℤ) (pair : Value) :
    Except String (String × String) :=
  match pair with
  | arr [str name, str tagValue] => do
    throwIf (name ∉ allowedTagNames) "Custom Nostr required tag names must also be allowed"
    throwIf (maxTagBytes < tagBytes [[name, tagValue]])
      "Custom Nostr required tag pair exceeds maxTagBytes"
    pure (name, tagValue)
  | _ => .error "Custom Nostr requiredTags must contain exact [name, value] pairs"

def readRequiredTags (rule : Value) (allowedTagNames : List String) (maxTags maxTagBytes : ℤ) :
    Except String (List (String × String)) := do
  match ((rule.get "requiredTags").orElse (arr [])).elements with
  | none => .error "Custom Nostr requiredTags must be an array when provided"
  | some pairs =>
    let requiredTags ← pairs.mapM (readRequiredTag allowedTagNames maxTagBytes)
    throwIf (maxTags < requiredTags.length) "Custom Nostr requiredTags exceed maxTags"
    -- `JSON.stringify` tells pairs of texts apart
    throwIf (¬requiredTags.Nodup) "Custom Nostr requiredTags cannot contain duplicates"
    pure requiredTags

/-- a tag of `exactTags`, after the tags with the names `seen`. -/
def readExactTag (allowedTagNames : List String) (requiredTags : List (String × String))
    (seen : List String) (tag : Value) : Except String (List String) := do
  match stringsOf tag with
  | some (name :: values) =>
    throwIf (name ∉ allowedTagNames) "Custom Nostr exact tag names must also be allowed"
    throwIf (name ∈ seen) "Custom Nostr exactTags cannot repeat a tag name"
    throwIf (∃ required ∈ requiredTags, required.1 = name ∧ values.head? ≠ some required.2)
      "Custom Nostr exactTags conflict with requiredTags"
    pure (name :: values)
  | _ => .error "Custom Nostr exactTags must contain full [name, ...values] string arrays"

/-- the tags of `exactTags`, in order. -/
def readExactTags (allowedTagNames : List String) (requiredTags : List (String × String)) :
    List String → List Value → Except String (List (List String))
  | _, [] => .ok []
  | seen, value :: values => do
    let tag ← readExactTag allowedTagNames requiredTags seen value
    let tags ← readExactTags allowedTagNames requiredTags (tag.head?.toList ++ seen) values
    pure (tag :: tags)

def normalizeExactTags (value : Value) (allowedTagNames : List String)
    (requiredTags : List (String × String)) (maxTags maxTagBytes : ℤ) :
    Except String (Option (List (List String))) := do
  if value = undefined then .ok none
  else match value.elements with
    | none => .error "Custom Nostr exactTags must be an array when provided"
    | some [] => .ok (some [])
    | some values =>
      let exactTags ← readExactTags allowedTagNames requiredTags [] values
      let remainingRequired := requiredTags.filter fun required =>
        some required.1 ∉ exactTags.map (·.head?)
      throwIf (maxTags < (exactTags.length + remainingRequired.length : ℕ))
        "Custom Nostr exactTags and requiredTags exceed maxTags"
      throwIf (maxTagBytes < tagBytes (exactTags ++ remainingRequired.map fun r => [r.1, r.2]))
        "Custom Nostr exactTags and requiredTags exceed maxTagBytes"
      pure (some exactTags)

/-- a rule. -/
def readKindRule (customKinds : List ℤ) (rule : Value) : Except String NostrKindConstraint := do
  throwIf (rule.isPlainObject = false) "Each custom Nostr kind requires a structured per-kind rule"
  match integerOf (rule.get "kind") with
  | none => .error "Each Nostr kind rule must match one declared custom event kind"
  | some kind =>
    throwIf (kind ∉ customKinds) "Each Nostr kind rule must match one declared custom event kind"
    let maxContentBytes ← readBounded rule "maxContentBytes" MAX_CUSTOM_NOSTR_CONTENT_BYTES
    let maxTags ← readBounded rule "maxTags" MAX_CUSTOM_NOSTR_TAGS
    let maxTagBytes ← readBounded rule "maxTagBytes" MAX_CUSTOM_NOSTR_TAG_BYTES
    let allowedTagNames ← readAllowedTagNames rule
    let requiredTags ← readRequiredTags rule allowedTagNames maxTags maxTagBytes
    let exactTags ← normalizeExactTags (rule.get "exactTags") allowedTagNames requiredTags maxTags
      maxTagBytes
    pure { kind, maxContentBytes, maxTags, maxTagBytes, allowedTagNames, requiredTags, exactTags }

def normalizeNostrKindRules (value : Value) (customKinds : List ℤ) :
    Except String (List NostrKindConstraint) := do
  match (if value = undefined then arr [] else value).elements with
  | none => .error "nostrKindRules must be an array"
  | some candidates =>
    let rules ← candidates.mapM (readKindRule customKinds)
    let ruleKinds := rules.map (·.kind)
    throwIf (¬ruleKinds.Nodup) "Custom Nostr kinds cannot have duplicate per-kind rules"
    throwIf (ruleKinds.length ≠ customKinds.length ∨ ∃ kind ∈ customKinds, kind ∉ ruleKinds)
      "Every declared custom Nostr kind requires exactly one matching per-kind rule"
    pure (rules.insertionSort fun left right => left.kind ≤ right.kind)

end Signing
end WmAutopilot
