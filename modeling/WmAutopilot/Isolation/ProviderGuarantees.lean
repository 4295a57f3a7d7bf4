import Mathlib.Data.Rat.Defs
import WmAutopilot.Isolation.ProviderPolicy

/-!
# What is forwarded is local

* `Remote`           a reference to remote content;
* `LocalTool`        a function, a custom tool, or a namespace of these, without remote schemas;
* `LocalOnly`        a body that names local content only;
* `SafeFormats`, `WholeTokens`   what the gateway does not look at;
* `forwards_local`   **a body that is forwarded is local iff these hold of the request**;
* `remote_format`    a custom tool with a remote grammar is forwarded.
-/

set_option autoImplicit false

namespace WmAutopilot
namespace Isolation
open Js Value

/-- a `$ref` that is not local. -/
def RemoteRef (k : String) (c : Value) : Prop := k = "$ref" ∧ isLocalRef c = false

/-- **A reference to remote content**, as a property of an object. -/
def Remote (k : String) (c : Value) : Prop :=
  endsWith k "_url" = true ∨ k ∈ remoteKeys ∨ RemoteRef k c ∨
    k = "type" ∧ ∃ s, c = str s ∧
      (startsWith s "input_" = true ∧ s ≠ "input_text" ∨ s ∈ remoteTypes)

/-- no `$ref` at any depth is remote. -/
def SchemaLocal (v : Value) : Prop := ∀ k c, HasField v k c → ¬RemoteRef k c

/-- the schemas and formats of a tool. -/
def schemaFields : List String := ["parameters", "output_schema", "format"]

/-- a function or a custom tool, with only the fields of these. -/
def IsLeaf (tool : Value) : Prop :=
  tool.get "type" = str "function" ∧ (∀ f ∈ tool.props, f.1 ∈ functionFields) ∨
    tool.get "type" = str "custom" ∧ (∀ f ∈ tool.props, f.1 ∈ customFields)

def LeafTool (tool : Value) : Prop :=
  IsLeaf tool ∧ ∀ k ∈ schemaFields, SchemaLocal (tool.get k)

/-- **A local tool**: a function, a custom tool, or a namespace of such tools. -/
def LocalTool (tool : Value) : Prop :=
  LeafTool tool ∨ tool.get "type" = str "namespace" ∧
    (∀ f ∈ tool.props, f.1 ∈ namespaceFields) ∧
    ∃ children, tool.get "tools" = arr children ∧ ∀ child ∈ children, LeafTool child

/-- **A body that names local content only.** -/
structure LocalOnly (model : String) (body : Value) : Prop where
  fields : ∀ f ∈ body.props, f.1 ∈ allowedFields ∧ f.1 ∉ transportFields
  model : body.get "model" = str model
  store : body.get "store" = bool false
  tokens : ∃ n : ℤ, body.get "max_output_tokens" = num n ∧ 1 ≤ n ∧ n ≤ 4096
  context : ∀ k c, HasField (body.rest ["tools"]) k c → ¬Remote k c
  tools : body.get "tools" = undefined ∨
    ∃ ts, body.get "tools" = arr ts ∧ ∀ tool ∈ ts, LocalTool tool

/-- the format of the tool, and those of the tools in it. -/
def SafeFormat (tool : Value) : Prop :=
  SchemaLocal (tool.get "format") ∧ ∀ children, tool.get "tools" = arr children →
    ∀ child ∈ children, SchemaLocal (child.get "format")

/-- **No format of a custom tool has a remote reference.** -/
def SafeFormats (value : Value) : Prop :=
  ∀ ts, value.get "tools" = arr ts → ∀ tool ∈ ts, SafeFormat tool

/-- **A bound of the output below the limit is a whole number.** -/
def WholeTokens (value : Value) : Prop :=
  ∀ q, value.get "max_output_tokens" = num q → 0 < q → q < 4096 → q.den = 1

/-! ## the checks -/

section
variable {texts : Texts} {value body tool : Value} {model : String}

theorem inspectSchema_ok (v : Value) : inspectSchema v = .ok () ↔ SchemaLocal v := by
  rw [inspectSchema, visit_ok]
  refine forall_congr' fun k => forall_congr' fun c => imp_congr_right fun _ => ?_
  exact throwIf_ok

theorem schemaLocal_undefined : SchemaLocal undefined := by
  intro k c h
  cases h

theorem every_true {p : Value → Except String Bool} {vs : List Value} :
    every p vs = .ok true ↔ ∀ v ∈ vs, p v = .ok true := by
  induction vs with
  | nil => simp [every]
  | cons v vs ih =>
    rw [every, bind_ok, List.forall_mem_cons, ← ih]
    constructor
    · rintro ⟨passed, hp, h⟩
      cases passed with
      | true => exact ⟨hp, h⟩
      | false => cases h
    · rintro ⟨hp, h⟩
      exact ⟨true, hp, h⟩

/-- a field that an object does not have. -/
theorem get_of_not_mem {v : Value} {k : String} {ks : List String}
    (h : ∀ f ∈ v.props, f.1 ∈ ks) (hk : k ∉ ks) : v.get k = undefined := by
  cases v with
  | obj fs =>
    have hnone : fs.lookup k = none := by
      refine List.lookup_eq_none_iff.mpr fun f hf => ?_
      simpa using fun e : k = f.1 => hk (e ▸ h f hf)
    show (fs.lookup k).getD undefined = undefined
    rw [hnone, Option.getD_none]
  | _ => rfl

/-- the types of tools that have fields. -/
theorem toolFields_cases (hfields : toolFields tool ≠ []) :
    (tool.get "type" = str "namespace" ∧ toolFields tool = namespaceFields) ∨
    (tool.get "type" = str "function" ∧ toolFields tool = functionFields) ∨
    (tool.get "type" = str "custom" ∧ toolFields tool = customFields) := by
  unfold toolFields at hfields ⊢
  split at hfields
  · next h => exact .inl ⟨h, if_pos h⟩
  · next hn =>
    split at hfields
    · next h => exact .inr (.inl ⟨h, by rw [if_neg hn, if_pos h]⟩)
    · next hf =>
      split at hfields
      · next h => exact .inr (.inr ⟨h, by rw [if_neg hn, if_neg hf, if_pos h]⟩)
      · exact absurd rfl hfields

/-- a tool that is not a namespace. -/
theorem localTool_leaf {left : ℕ} (h : localTool (left + 1) tool = .ok true)
    (htype : tool.get "type" ≠ str "namespace") :
    IsLeaf tool ∧ SchemaLocal (tool.get "parameters") ∧ SchemaLocal (tool.get "output_schema") := by
  unfold localTool at h
  split at h
  · cases h
  · next hfields =>
    obtain ⟨-, hne, hall⟩ := not_not.mp hfields
    obtain ⟨hp, h⟩ := seq_ok.mp h
    obtain ⟨ho, -⟩ := seq_ok.mp h
    refine ⟨?_, (inspectSchema_ok _).mp hp, (inspectSchema_ok _).mp ho⟩
    rcases toolFields_cases hne with ⟨ht, -⟩ | ⟨ht, e⟩ | ⟨ht, e⟩
    · exact absurd ht htype
    · exact .inl ⟨ht, e ▸ hall⟩
    · exact .inr ⟨ht, e ▸ hall⟩

theorem LeafTool.of_leaf (h : IsLeaf tool ∧ SchemaLocal (tool.get "parameters") ∧
    SchemaLocal (tool.get "output_schema")) (hformat : SchemaLocal (tool.get "format")) :
    LeafTool tool := by
  refine ⟨h.1, fun k hk => ?_⟩
  rcases List.mem_cons.mp hk with rfl | hk
  · exact h.2.1
  · rcases List.mem_cons.mp hk with rfl | hk
    · exact h.2.2
    · exact List.mem_singleton.mp hk ▸ hformat

/-- a namespace holds tools that are not namespaces. -/
theorem localTool_namespace (h : localTool 3 tool = .ok true)
    (htype : tool.get "type" = str "namespace") :
    (∀ f ∈ tool.props, f.1 ∈ namespaceFields) ∧ ∃ children, tool.get "tools" = arr children ∧
      ∀ child ∈ children, localTool 2 child = .ok true := by
  unfold localTool at h
  split at h
  · cases h
  · next hfields =>
    obtain ⟨-, hne, hall⟩ := not_not.mp hfields
    have hnamespace : toolFields tool = namespaceFields := if_pos htype
    refine ⟨hnamespace ▸ hall, ?_⟩
    split at h
    · next children htools =>
      split at h
      · exact ⟨children, htools, every_true.mp h⟩
      · cases h
    · cases h

theorem localTool_child {child : Value} (h : localTool 2 child = .ok true) :
    child.get "type" ≠ str "namespace" := by
  intro htype
  unfold localTool at h
  split at h
  · cases h
  · split at h
    · rw [if_neg (by omega)] at h
      cases h
    · cases h

/-- **A tool that is accepted** is local, up to the formats. -/
theorem localTool_iff (h : localTool 3 tool = .ok true) : LocalTool tool ↔ SafeFormat tool := by
  by_cases htype : tool.get "type" = str "namespace"
  · obtain ⟨hfields, children, htools, hchildren⟩ := localTool_namespace h htype
    have hformat : tool.get "format" = undefined := get_of_not_mem hfields (by decide)
    constructor
    · rintro (⟨⟨ht, -⟩ | ⟨ht, -⟩, -⟩ | ⟨-, -, cs, hcs, hleaf⟩)
      · exact absurd (str.inj (htype.symm.trans ht)) (by decide)
      · exact absurd (str.inj (htype.symm.trans ht)) (by decide)
      · refine ⟨hformat ▸ schemaLocal_undefined, fun cs' hcs' child hc => ?_⟩
        rw [hcs] at hcs'
        cases hcs'
        exact (hleaf child hc).2 "format" (by decide)
    · intro hsafe
      refine .inr ⟨htype, hfields, children, htools, fun child hc => ?_⟩
      have hchild := hchildren child hc
      exact .of_leaf (localTool_leaf hchild (localTool_child hchild))
        (hsafe.2 children htools child hc)
  · have hleaf := localTool_leaf h htype
    have htools : tool.get "tools" = undefined := by
      rcases hleaf.1 with ⟨-, hf⟩ | ⟨-, hf⟩
      · exact get_of_not_mem hf (by decide)
      · exact get_of_not_mem hf (by decide)
    constructor
    · rintro (hl | ⟨ht, -⟩)
      · refine ⟨hl.2 "format" (by decide), fun cs hcs => ?_⟩
        rw [htools] at hcs
        cases hcs
      · exact absurd ht htype
    · exact fun hsafe => .inl (.of_leaf hleaf hsafe.1)

theorem checkField_ok {k : String} {c : Value} (h : checkField texts k c = .ok ()) :
    ¬Remote k c := by
  unfold checkField at h
  obtain ⟨href, h⟩ := seq_ok.mp h
  obtain ⟨remote, hremote, h⟩ := bind_ok.mp h
  have hnot : ¬remote = true := throwIf_ok.mp h
  unfold isRemote at hremote
  rintro (hurl | hkey | hr | ⟨hk, s, rfl, htype⟩)
  · rw [if_pos (.inl hurl)] at hremote
    exact hnot (Except.ok.inj hremote).symm
  · rw [if_pos (.inr hkey)] at hremote
    exact hnot (Except.ok.inj hremote).symm
  · exact throwIf_ok.mp href hr
  · split at hremote
    · exact hnot (Except.ok.inj hremote).symm
    · rw [isRemoteType, texts.toText_str] at hremote
      obtain rfl := Except.ok.inj hremote
      refine hnot ?_
      rcases htype with ⟨hstart, hne⟩ | hmem
      · simp [hstart, hne]
      · simp [hmem]

/-! ## the forwarded body -/

/-- what was checked, and what is forwarded. -/
structure Forwarded (texts : Texts) (value : Value) (model : String) (body : Value) : Prop where
  known : ∀ f ∈ value.props, f.1 ∈ allowedFields
  model : value.get "model" = str model
  tools : checkTools (value.get "tools") = .ok ()
  context : inspect texts ((value.rest transportFields).rest ["tools"]) = .ok ()
  body : body = (value.rest transportFields).spread [("store", bool false),
    ("max_output_tokens", num (outputTokens (value.get "max_output_tokens")))]

theorem forwarded_of_ok (h : validateProviderRequest texts value model = .ok body) :
    Forwarded texts value model body := by
  unfold validateProviderRequest at h
  obtain ⟨-, h⟩ := seq_ok.mp h
  obtain ⟨hknown, h⟩ := seq_ok.mp h
  obtain ⟨-, h⟩ := seq_ok.mp h
  obtain ⟨hmodel, h⟩ := seq_ok.mp h
  obtain ⟨-, h⟩ := seq_ok.mp h
  obtain ⟨htools, h⟩ := seq_ok.mp h
  obtain ⟨-, h⟩ := seq_ok.mp h
  obtain ⟨hcontext, h⟩ := seq_ok.mp h
  refine ⟨fun f hf => ?_, not_not.mp (throwIf_ok.mp hmodel), htools, hcontext,
    (Except.ok.inj h).symm⟩
  by_contra hunknown
  refine throwIf_ok.mp hknown (List.ne_nil_of_mem (a := f.1) (List.mem_filter.mpr ⟨?_, ?_⟩))
  · exact List.mem_map_of_mem hf
  · exact decide_eq_true hunknown

namespace Forwarded

theorem get (h : Forwarded texts value model body) {k : String} (hk : k ∉ transportFields)
    (hstore : k ≠ "store") (htokens : k ≠ "max_output_tokens") : body.get k = value.get k := by
  rw [h.body, (get_spread ..).1, List.reverse_cons, List.reverse_singleton, List.singleton_append,
    lookup_cons, if_neg htokens, lookup_cons, if_neg hstore]
  exact get_rest value hk

theorem get_store (h : Forwarded texts value model body) : body.get "store" = bool false := by
  rw [h.body, (get_spread ..).1]
  rfl

theorem get_tokens (h : Forwarded texts value model body) : body.get "max_output_tokens" =
    num (outputTokens (value.get "max_output_tokens")) := by
  rw [h.body, (get_spread ..).1]
  rfl

/-- a property that is forwarded was sent, or is one of the two that are set. -/
theorem mem_props (h : Forwarded texts value model body) {f : String × Value}
    (hf : f ∈ body.props) : f ∈ (value.rest transportFields).props ∨ f = ("store", bool false) ∨
      f = ("max_output_tokens", num (outputTokens (value.get "max_output_tokens"))) := by
  rw [h.body] at hf
  refine (mem_props_spread hf).imp_right fun hnew => ?_
  rcases List.mem_cons.mp hnew with hnew | hnew
  · exact .inl hnew
  · exact .inr (List.mem_singleton.mp hnew)

theorem fields (h : Forwarded texts value model body) :
    ∀ f ∈ body.props, f.1 ∈ allowedFields ∧ f.1 ∉ transportFields := by
  intro f hf
  rcases h.mem_props hf with hsent | hset | hset
  · obtain ⟨hmem, hnot⟩ := mem_props_rest.mp hsent
    exact ⟨h.known f hmem, hnot⟩
  all_goals
    have hset : f.1 ∈ ["store", "max_output_tokens"] := by simp [hset]
    have hallowed : ∀ k ∈ ["store", "max_output_tokens"], k ∈ allowedFields ∧ k ∉ transportFields :=
      by decide
    exact hallowed f.1 hset

/-- **Outside the tools**, what was looked through is all there is. -/
theorem notRemote (h : Forwarded texts value model body) {k : String} {c : Value}
    (hf : HasField (body.rest ["tools"]) k c) : ¬Remote k c := by
  have hchecked := (visit_ok _).mp h.context
  have hprops : ∀ f ∈ (body.rest ["tools"]).props,
      f ∈ ((value.rest transportFields).rest ["tools"]).props ∨ f = ("store", bool false) ∨
      f = ("max_output_tokens", num (outputTokens (value.get "max_output_tokens"))) := by
    intro f hf
    obtain ⟨hmem, hnot⟩ := mem_props_rest.mp hf
    exact (h.mem_props hmem).imp_left fun hsent => mem_props_rest.mpr ⟨hsent, hnot⟩
  cases hf with
  | here hmem =>
    rcases hprops _ hmem with hsent | hset | hset
    · exact checkField_ok (hchecked k c (.here hsent))
    all_goals
      obtain ⟨rfl, rfl⟩ := Prod.mk.inj hset
      rintro (hr | hr | ⟨hr, -⟩ | ⟨hr, -⟩) <;> exact absurd hr (by decide)
  | field hmem hw =>
    rcases hprops _ hmem with hsent | hset | hset
    · exact checkField_ok (hchecked k c (.field hsent hw))
    all_goals
      obtain ⟨-, rfl⟩ := Prod.mk.inj hset
      cases hw

theorem tools_iff (h : Forwarded texts value model body) :
    (body.get "tools" = undefined ∨
      ∃ ts, body.get "tools" = arr ts ∧ ∀ tool ∈ ts, LocalTool tool) ↔ SafeFormats value := by
  have htools := h.tools
  rw [h.get (by decide) (by decide) (by decide)]
  unfold SafeFormats
  cases hv : value.get "tools" with
  | undefined => simp
  | arr ts =>
    rw [hv] at htools
    obtain ⟨passed, hpassed, hthrow⟩ := bind_ok.mp htools
    have htrue : passed = true := by
      cases passed with
      | true => rfl
      | false => exact absurd rfl (throwIf_ok.mp hthrow)
    have hevery := every_true.mp (htrue ▸ hpassed)
    constructor
    · rintro (hne | ⟨ts', hts', hlocal⟩) us hus tool htool
      · cases hne
      · cases hts'
        cases hus
        exact (localTool_iff (hevery tool htool)).mp (hlocal tool htool)
    · exact fun hsafe => .inr ⟨ts, rfl, fun tool htool =>
        (localTool_iff (hevery tool htool)).mpr (hsafe ts rfl tool htool)⟩
  | _ => rw [hv] at htools; cases htools

theorem tokens_iff (h : Forwarded texts value model body) :
    (∃ n : ℤ, body.get "max_output_tokens" = num n ∧ 1 ≤ n ∧ n ≤ 4096) ↔ WholeTokens value := by
  rw [h.get_tokens]
  unfold WholeTokens
  have hlimit : ∃ n : ℤ, num (4096 : ℚ) = num (n : ℚ) ∧ 1 ≤ n ∧ n ≤ 4096 :=
    ⟨4096, rfl, by decide, by decide⟩
  cases hv : value.get "max_output_tokens" with
  | num q =>
    by_cases hq : 0 < q ∧ q < 4096
    · rw [show outputTokens (num q) = q from if_pos hq]
      constructor
      · rintro ⟨n, hn, -⟩ q' hq' - -
        cases hq'
        rw [num.inj hn]
        rfl
      · intro hwhole
        have hden := hwhole q rfl hq.1 hq.2
        have hint : q = (q.num : ℚ) := (Rat.den_eq_one_iff q).mp hden |>.symm
        refine ⟨q.num, congrArg num hint, ?_, ?_⟩
        · have hpos : ((0 : ℤ) : ℚ) < (q.num : ℚ) := hint ▸ hq.1
          exact Int.add_one_le_iff.mpr (Rat.intCast_lt_intCast.mp hpos)
        · have hlt : (q.num : ℚ) < ((4096 : ℤ) : ℚ) := hint ▸ hq.2
          exact Int.le_of_lt (Rat.intCast_lt_intCast.mp hlt)
    · rw [show outputTokens (num q) = 4096 from if_neg hq]
      refine ⟨fun _ q' hq' h0 h1 => ?_, fun _ => hlimit⟩
      cases hq'
      exact absurd ⟨h0, h1⟩ hq
  | _ => exact ⟨fun _ _ hq => absurd hq (by simp), fun _ => hlimit⟩

end Forwarded

end

/-- **What is forwarded is local** iff no format of a custom tool has a remote reference and a bound
of the output below the limit is a whole number. -/
theorem forwards_local (texts : Texts) (value : Value) (model : String) (body : Value)
    (h : validateProviderRequest texts value model = .ok body) :
    LocalOnly model body ↔ SafeFormats value ∧ WholeTokens value := by
  have hf := forwarded_of_ok h
  constructor
  · exact fun hl => ⟨hf.tools_iff.mp hl.tools, hf.tokens_iff.mp hl.tokens⟩
  · rintro ⟨hformats, htokens⟩
    exact {
      fields := hf.fields
      model := (hf.get (by decide) (by decide) (by decide)).trans hf.model
      store := hf.get_store
      tokens := hf.tokens_iff.mpr htokens
      context := fun k c hc => hf.notRemote hc
      tools := hf.tools_iff.mpr hformats }

/-! ## a remote grammar -/

def someTexts : Texts where
  byteLength _ := 0
  toText v := match v with
    | str s => .ok s
    | _ => .ok ""
  toText_str _ := rfl

/-- a request with these tools. -/
def requestOf (tools : List Value) : Value :=
  obj [("model", str "fixture-model"), ("input", arr []), ("tools", arr tools)]

def localShell : Value := obj [("type", str "function"), ("name", str "local_shell")]

def remoteGrammar : Value :=
  obj [("type", str "custom"), ("name", str "edit"),
    ("format", obj [("$ref", str "https://host/schema")])]

theorem remoteGrammar_unsafe : ¬SafeFormats (requestOf [remoteGrammar]) := by
  intro h
  have hlocal := (h [remoteGrammar] rfl remoteGrammar List.mem_cons_self).1
  exact hlocal "$ref" (str "https://host/schema") (.here List.mem_cons_self)
    ⟨rfl, by decide +kernel⟩

/-- **A custom tool with a remote grammar** is forwarded. -/
theorem remote_format : ¬∀ texts value model body,
    validateProviderRequest texts value model = .ok body → LocalOnly model body := by
  intro h
  obtain ⟨body, hbody⟩ : ∃ body, validateProviderRequest someTexts (requestOf [remoteGrammar])
      "fixture-model" = .ok body := ⟨_, rfl⟩
  exact remoteGrammar_unsafe
    ((forwarded_of_ok hbody).tools_iff.mp (h _ _ _ _ hbody).tools)

/-- a request for a local tool. -/
theorem forwards_local_shell : ∃ body,
    validateProviderRequest someTexts (requestOf [localShell]) "fixture-model" = .ok body ∧
      LocalOnly "fixture-model" body := by
  have hbody : validateProviderRequest someTexts (requestOf [localShell]) "fixture-model" =
      .ok ((requestOf [localShell]).spread
        [("store", bool false), ("max_output_tokens", num 4096)]) := rfl
  refine ⟨_, hbody, (forwards_local someTexts _ _ _ hbody).mpr ⟨?_, ?_⟩⟩
  · intro ts hts tool htool
    cases hts
    obtain rfl := List.mem_singleton.mp htool
    exact ⟨schemaLocal_undefined, fun cs hcs => by cases hcs⟩
  · intro q hq
    cases hq

end Isolation
end WmAutopilot
