import WmAutopilot.Js.Fields

/-!
# Model requests of isolated projects

* `Texts`                     conversions of values to text;
* `localTool`, `inspectSchema`, `inspect`   what `validateProviderRequest` looks through;
* `validateProviderRequest`   the body that is forwarded, or the message of the refusal.
-/

set_option autoImplicit false

namespace WmAutopilot
namespace Isolation
open Js Value

/-- Conversions of values to text. -/
structure Texts where
  /-- `Buffer.byteLength(JSON.stringify(value))` -/
  byteLength : Value → ℕ
  /-- `String(value)`, which throws on some objects. -/
  toText : Value → Except String String
  toText_str : ∀ s, toText (str s) = .ok s

def requestBytes : ℕ := 256 * 1024

def allowedFields : List String :=
  ["model", "input", "instructions", "tools", "tool_choice", "parallel_tool_calls", "reasoning",
    "text", "stream", "store", "include", "max_output_tokens", "temperature", "top_p",
    "service_tier", "prompt_cache_key", "client_metadata"]

/-- native transport metadata, which is not forwarded. -/
def transportFields : List String := ["prompt_cache_key", "client_metadata"]

/-- `s.endsWith(t)` -/
def endsWith (s t : String) : Bool := t.toList <:+ s.toList

/-- `typeof child === "string" && child.startsWith("#/")` -/
def isLocalRef : Value → Bool
  | str s => startsWith s "#/"
  | _ => false

/-! ## tools -/

/-- the check of `inspectSchema`. -/
def checkSchemaField (key : String) (child : Value) : Except String Unit :=
  throwIf (key = "$ref" ∧ isLocalRef child = false) "Remote schema references denied"

def inspectSchema (value : Value) : Except String Unit := value.visit checkSchemaField

def namespaceFields : List String := ["type", "name", "description", "tools"]

def functionFields : List String :=
  ["type", "name", "description", "parameters", "strict", "output_schema", "defer_loading",
    "allowed_callers", "async"]

def customFields : List String :=
  ["type", "name", "description", "format", "defer_loading", "allowed_callers"]

def toolFields (tool : Value) : List String :=
  if tool.get "type" = str "namespace" then namespaceFields
  else if tool.get "type" = str "function" then functionFields
  else if tool.get "type" = str "custom" then customFields
  else []

/-- `items.every(p)`, which stops at the first item that fails. -/
def every (p : Value → Except String Bool) : List Value → Except String Bool
  | [] => .ok true
  | v :: vs => p v >>= fun passed => if passed then every p vs else .ok false

/-- a tool whose fields are those of its type. -/
def hasToolFields (tool : Value) : Prop :=
  tool.isPlainObject = true ∧ toolFields tool ≠ [] ∧ ∀ f ∈ tool.props, f.1 ∈ toolFields tool

instance (tool : Value) : Decidable (hasToolFields tool) := inferInstanceAs (Decidable (_ ∧ _))

/-- `localTool(tool, depth)` with `left = 3 - depth`. -/
def localTool : ℕ → Value → Except String Bool
  | 0, _ => .ok false
  | left + 1, tool =>
    if ¬hasToolFields tool then .ok false
    else if tool.get "type" = str "namespace" then
      match tool.get "tools" with
      | arr children =>
        if left = 2 ∧ children.length ≤ 64 then every (localTool left) children else .ok false
      | _ => .ok false
    else do
      inspectSchema (tool.get "parameters")
      inspectSchema (tool.get "output_schema")
      .ok true

/-! ## the rest of the body -/

section
variable (texts : Texts)

/-- the references to remote content. -/
def remoteKeys : List String := ["file_id", "url", "previous_response_id", "conversation"]

def remoteTypes : List String := ["item_reference", "mcp", "web_search", "computer"]

/-- `key === "type" && …` -/
def isRemoteType (child : Value) : Except String Bool := do
  let text ← texts.toText child
  .ok ((startsWith text "input_" && child ≠ str "input_text") || text ∈ remoteTypes)

def isRemote (key : String) (child : Value) : Except String Bool :=
  if endsWith key "_url" = true ∨ key ∈ remoteKeys then .ok true
  else if key = "type" then isRemoteType texts child
  else .ok false

/-- the check of `inspect`. -/
def checkField (key : String) (child : Value) : Except String Unit := do
  throwIf (key = "$ref" ∧ isLocalRef child = false) "Remote schema references denied"
  let remote ← isRemote texts key child
  throwIf (remote = true) ("Unauthorized remote model reference: " ++ key)

def inspect (value : Value) : Except String Unit := value.visit (checkField texts)

/-- `body.tools !== undefined && !(Array.isArray(body.tools) && body.tools.every(localTool))` -/
def checkTools (tools : Value) : Except String Unit :=
  match tools with
  | undefined => .ok ()
  | arr ts => do
    let passed ← every (localTool 3) ts
    throwIf (passed = false) "Only local function/custom tool capabilities are allowed"
  | _ => .error "Only local function/custom tool capabilities are allowed"

def checkInclude (includes : Value) : Except String Unit :=
  match includes with
  | undefined => .ok ()
  | arr vs =>
    throwIf (∃ v ∈ vs, v ≠ str "reasoning.encrypted_content")
      "Remote model include capability denied"
  | _ => .error "Remote model include capability denied"

/-- the bound of the output. -/
def outputTokens : Value → ℚ
  | num q => if 0 < q ∧ q < 4096 then q else 4096
  | _ => 4096

def validateProviderRequest (value : Value) (model : String) : Except String Value := do
  throwIf (value.isPlainObject = false) "Invalid model request"
  let unknown := (value.props.map Prod.fst).filter fun k => k ∉ allowedFields
  throwIf (unknown ≠ []) ("Unauthorized model request fields: " ++ ", ".intercalate unknown)
  throwIf (requestBytes < texts.byteLength value) "Model request byte limit exceeded"
  throwIf (value.get "model" ≠ str model) "Model selection denied"
  throwIf ((value.get "input").elements = none) "Model input must be an inline array"
  checkTools (value.get "tools")
  checkInclude (value.get "include")
  let authorized := rest value transportFields
  inspect texts (rest authorized ["tools"])
  .ok (authorized.spread [("store", bool false),
    ("max_output_tokens", num (outputTokens (value.get "max_output_tokens")))])

end

end Isolation
end WmAutopilot
