import Mathlib.Algebra.Order.Ring.Unbundled.Rat
import WmAutopilot.Js.JsonCopy
import WmAutopilot.Sessions.SessionTags

/-!
# Metadata that is normalised again

* `FieldRule.Steady`      the values that a rule does not change a second time;
* `read_again`            what a rule has read of such a value it reads again as it is;
* `jsonCopy_read`         what a rule has read is its own JSON;
* `normalised_again_iff`  metadata is normalised once, exactly when its fields are steady.
-/

set_option autoImplicit false

namespace WmAutopilot
namespace Sessions
namespace Metadata
open Js Value

section
variable (host : Host)

/-- Not strictly between 0 and 1, where a number above 0 is rounded down to 0. -/
def Whole (q : ℚ) : Prop := ¬(0 < q ∧ q < 1)

/-- A native session, if it is there, has a date. -/
def Captured (value : Value) : Prop :=
  value.isPlainObject = true →
    (host.dateParse (cleanString (value.get "capturedAt"))).isSome = true

/-- The values that a rule does not change a second time. -/
def FieldRule.Steady (value : Value) : FieldRule → Prop
  | .count => ∀ q, value = num q → Whole q
  | .number => ∀ q, host.toNumber value = some q → Whole q
  | .tags => ¬Cut host (rawTags value)
  | .nativeSession => Captured host value
  | .lowered texts => "" ∉ texts
  | _ => True

end

section
variable {host : Host} {now now' role : String} {value metadata : Value} {rule : FieldRule}

/-! ## texts -/

theorem trim_cleanString (value : Value) : trim (cleanString value) = cleanString value := by
  cases value with
  | str s => exact trim_trim s
  | _ => rfl

theorem cleanString_str {text : String} (h : trim text = text) : cleanString (str text) = text := h

theorem cleanString_orUndefined {text : String} (h : trim text = text) :
    cleanString (orUndefined text) = text := by
  unfold orUndefined
  split
  · next hempty => exact hempty.symm
  · exact h

/-- a text in small letters is read again as it is. -/
theorem loweredText_str (value : Value) :
    loweredText host (str (loweredText host value)) = loweredText host value := by
  cases value with
  | str s =>
    show host.toLowerCase (trim (host.toLowerCase (trim s))) = host.toLowerCase (trim s)
    rw [host.trim_toLowerCase, host.toLowerCase_toLowerCase]
  | _ =>
    show host.toLowerCase (trim "") = ""
    exact host.toLowerCase_plain "" fun c hc => absurd hc List.not_mem_nil

/-! ## numbers -/

theorem wholeOf_num {q : ℚ} (hpos : 0 < q) : wholeOf q = num q.floor := if_pos hpos

/-- **A number that is rounded down stays, unless it was rounded down to 0.** -/
theorem wholeOf_again {q : ℚ} (hpos : 0 < q) : wholeOf q.floor = num q.floor ↔ Whole q := by
  constructor
  · intro h ⟨_, hlt⟩
    have hfloor : q.floor < 1 := Rat.floor_lt_iff.mpr (by simpa using hlt)
    unfold wholeOf at h
    split at h
    · next hfloorpos =>
      have hfloorpos : (0 : ℤ) < q.floor := by exact_mod_cast hfloorpos
      omega
    · cases h
  · intro h
    have hone : 1 ≤ q := not_lt.mp fun hlt => h ⟨hpos, hlt⟩
    have hfloor : 1 ≤ q.floor := Rat.le_floor_iff.mpr (by simpa using hone)
    have hfloorpos : (0 : ℚ) < q.floor := by exact_mod_cast hfloor
    rw [wholeOf_num hfloorpos, Rat.floor_intCast]

theorem readCount_again_iff : readCount (readCount value) = readCount value ↔
    ∀ q, value = num q → Whole q := by
  cases value with
  | num q =>
    by_cases hpos : 0 < q
    · have hread : readCount (num q) = num q.floor := wholeOf_num hpos
      rw [hread]
      show wholeOf q.floor = num q.floor ↔ _
      rw [wholeOf_again hpos]
      exact ⟨fun h q' heq => Value.num.inj heq ▸ h, fun h => h q rfl⟩
    · have hread : readCount (num q) = undefined := if_neg hpos
      rw [hread]
      refine ⟨fun _ q' heq => ?_, fun _ => rfl⟩
      exact Value.num.inj heq ▸ fun hboth => hpos hboth.1
  | _ => exact ⟨fun _ q heq => (by cases heq), fun _ => rfl⟩

theorem readNumber_again_iff : readNumber host (readNumber host value) = readNumber host value ↔
    ∀ q, host.toNumber value = some q → Whole q := by
  have hnone : readNumber host undefined = undefined := by
    rw [readNumber, host.toNumber_undefined]
    rfl
  cases hvalue : host.toNumber value with
  | none =>
    have hread : readNumber host value = undefined := by
      rw [readNumber, hvalue]
      rfl
    rw [hread, hnone]
    exact ⟨fun _ q heq => (by cases heq), fun _ => rfl⟩
  | some q =>
    have hread : readNumber host value = wholeOf q := by
      rw [readNumber, hvalue]
      rfl
    rw [hread]
    by_cases hpos : 0 < q
    · have hagain : readNumber host (num q.floor) = wholeOf q.floor := by
        rw [readNumber, host.toNumber_num]
        rfl
      rw [wholeOf_num hpos, hagain, wholeOf_again hpos]
      exact ⟨fun h q' heq => Option.some.inj heq ▸ h, fun h => h q rfl⟩
    · have hzero : wholeOf q = undefined := if_neg hpos
      rw [hzero, hnone]
      refine ⟨fun _ q' heq => ?_, fun _ => rfl⟩
      exact Option.some.inj heq ▸ fun hboth => hpos hboth.1

/-! ## one field -/

theorem readOneOf_again (texts : List String) :
    readOneOf texts (readOneOf texts value) = readOneOf texts value := by
  cases value with
  | str s =>
    by_cases hmem : s ∈ texts
    · have hread : readOneOf texts (str s) = str s := if_pos hmem
      rw [hread, hread]
    · have hread : readOneOf texts (str s) = undefined := if_neg hmem
      rw [hread]
      rfl
  | _ => rfl

/-- nothing is read of a field that is not there. -/
theorem readLowered_undefined (texts : List String) (hempty : "" ∉ texts) :
    readLowered host texts undefined = undefined := if_neg hempty

theorem readLowered_again {texts : List String} (hempty : "" ∉ texts) :
    readLowered host texts (readLowered host texts value) = readLowered host texts value := by
  by_cases hmem : loweredText host value ∈ texts
  · have hread : readLowered host texts value = str (loweredText host value) := if_pos hmem
    rw [hread, readLowered, loweredText_str, if_pos hmem]
  · have hread : readLowered host texts value = undefined := if_neg hmem
    rw [hread, readLowered_undefined texts hempty]

theorem readTextOrNull_again : readTextOrNull (readTextOrNull value) = readTextOrNull value := by
  by_cases hne : cleanString value ≠ ""
  · have hread : readTextOrNull value = str (cleanString value) := if_pos hne
    rw [hread, readTextOrNull, cleanString_str (trim_cleanString value), if_pos hne]
  · by_cases hnull : value = null
    · rw [hnull]
      rfl
    · have hread : readTextOrNull value = undefined := by
        rw [readTextOrNull, if_neg hne, if_neg hnull]
      rw [hread]
      rfl

theorem readTime_again : readTime host (readTime host value) = readTime host value := by
  cases hvalue : host.dateParse (cleanString value) with
  | none =>
    have hread : readTime host value = undefined := by
      rw [readTime, hvalue]
      rfl
    rw [hread, readTime]
    show ((host.dateParse "").map _).getD _ = _
    rw [host.dateParse_empty]
    rfl
  | some time =>
    have hread : readTime host value = str (host.toISOString time) := by
      rw [readTime, hvalue]
      rfl
    rw [hread, readTime, cleanString_str (host.trim_toISOString time),
      host.dateParse_toISOString _ time hvalue]
    rfl

/-! ## lists -/

/-- the texts of a list that was kept. -/
theorem cleanTexts_listOrUndefined {texts : List String}
    (h : ∀ text ∈ texts, trim text = text ∧ text ≠ "") :
    cleanTexts (listOrUndefined texts) = texts := by
  unfold listOrUndefined
  split
  · next hnil =>
    rw [hnil]
    rfl
  · have hclean : (texts.map str).map cleanString = texts := by
      rw [List.map_map]
      exact (List.map_congr_left fun text htext => (h text htext).1).trans (List.map_id texts)
    show ((texts.map str).map cleanString).filter _ = texts
    rw [hclean]
    exact List.filter_eq_self.mpr fun text htext => decide_eq_true (h text htext).2

theorem cleanTexts_trimmed {text : String} (h : text ∈ cleanTexts value) :
    trim text = text ∧ text ≠ "" := by
  obtain ⟨hmem, hne⟩ := List.mem_filter.mp h
  obtain ⟨item, -, rfl⟩ := List.mem_map.mp hmem
  exact ⟨trim_cleanString item, of_decide_eq_true hne⟩

theorem pinned_again {texts : List String} (h : ∀ text ∈ texts, trim text = text ∧ text ≠ "") :
    (cleanTexts (listOrUndefined (texts.eraseDups.take 20))).eraseDups.take 20 =
      texts.eraseDups.take 20 := by
  have hkept : ∀ text ∈ texts.eraseDups.take 20, trim text = text ∧ text ≠ "" :=
    fun text htext => h text (List.mem_eraseDups.mp (List.mem_of_mem_take htext))
  have hnodup : (texts.eraseDups.take 20).Nodup :=
    (nodup_eraseDups texts).sublist (List.take_sublist 20 _)
  rw [cleanTexts_listOrUndefined hkept, eraseDups_of_nodup hnodup,
    List.take_of_length_le (List.length_take_le 20 _)]

/-- an entry that was kept is read again as it is. -/
theorem revisionOf_again {entry : Value} (h : entry ∈ revisionOf value) :
    revisionOf entry = [entry] := by
  unfold revisionOf revisionFields at h
  split at h
  · next hvalid =>
    obtain rfl := List.mem_singleton.mp h
    have hread : revisionOf (obj [("skillId", str (cleanString (value.get "skillId"))),
        ("revisionId", str (cleanString (value.get "revisionId"))),
        ("digest", str (cleanString (value.get "digest")))]) =
        revisionFields (trim (cleanString (value.get "skillId")))
          (trim (cleanString (value.get "revisionId"))) (trim (cleanString (value.get "digest"))) := rfl
    rw [hread, trim_cleanString, trim_cleanString, trim_cleanString, revisionFields, if_pos hvalid]
  · exact absurd h List.not_mem_nil

theorem flatMap_again {α : Type} {f : α → List α} {xs : List α} (h : ∀ x ∈ xs, f x = [x]) :
    xs.flatMap f = xs := by
  induction xs with
  | nil => rfl
  | cons x xs ih =>
    rw [List.flatMap_cons, h x List.mem_cons_self,
      ih fun y hy => h y (List.mem_cons_of_mem x hy), List.singleton_append]

theorem readRevisions_again : readRevisions (readRevisions value) = readRevisions value := by
  by_cases hnil : (itemsOf value).flatMap revisionOf = []
  · have hread : readRevisions value = undefined := if_pos hnil
    rw [hread]
    rfl
  · have hread : readRevisions value = arr ((itemsOf value).flatMap revisionOf) := if_neg hnil
    have hsame : ((itemsOf value).flatMap revisionOf).flatMap revisionOf =
        (itemsOf value).flatMap revisionOf := by
      refine flatMap_again fun entry hentry => ?_
      obtain ⟨item, -, hitem⟩ := List.mem_flatMap.mp hentry
      exact revisionOf_again hitem
    rw [hread, readRevisions]
    show (if ((itemsOf value).flatMap revisionOf).flatMap revisionOf = [] then _ else _) = _
    rw [hsame, if_neg hnil]
    show arr (((itemsOf value).flatMap revisionOf).flatMap revisionOf) = _
    rw [hsame]

/-! ## the native session -/

theorem sourceOf_again : sourceOf (str (sourceOf value)) = sourceOf value := by
  have hall : ∀ source ∈ NATIVE_AGENT_SESSION_SOURCES, sourceOf (str source) = source := by
    decide +kernel
  refine hall _ ?_
  unfold sourceOf
  split
  · next hmem => exact hmem
  · decide

theorem capturedAtOf_again (h : (host.dateParse (cleanString value)).isSome = true) :
    capturedAtOf host now' (str (capturedAtOf host now value)) = capturedAtOf host now value := by
  obtain ⟨time, htime⟩ := Option.isSome_iff_exists.mp h
  have hread : capturedAtOf host now value = host.toISOString time := by
    rw [capturedAtOf, htime]
    rfl
  rw [hread, capturedAtOf, cleanString_str (host.trim_toISOString time),
    host.dateParse_toISOString _ time htime]
  rfl

theorem nativeFields_undefined {agent sessionId workingDirectory capturedAt source : String}
    (h : agent = "" ∨ sessionId = "" ∨ workingDirectory = "") :
    nativeFields agent sessionId workingDirectory capturedAt source = undefined := if_pos h

theorem normaliseNative_undefined :
    normaliseNativeAgentSession host now undefined = undefined :=
  nativeFields_undefined (.inr (.inl rfl))

theorem nativeAgentSession_again (h : Captured host value) :
    normaliseNativeAgentSession host now' (normaliseNativeAgentSession host now value) =
      normaliseNativeAgentSession host now value := by
  by_cases hmissing : loweredText host (value.get "agent") = "" ∨
      cleanString (value.get "sessionId") = "" ∨ cleanString (value.get "workingDirectory") = ""
  · have hread : normaliseNativeAgentSession host now value = undefined := if_pos hmissing
    rw [hread, normaliseNative_undefined]
  · have hread : normaliseNativeAgentSession host now value =
        obj [("agent", str (loweredText host (value.get "agent"))),
          ("sessionId", str (cleanString (value.get "sessionId"))),
          ("workingDirectory", str (cleanString (value.get "workingDirectory"))),
          ("capturedAt", str (capturedAtOf host now (value.get "capturedAt"))),
          ("source", str (sourceOf (value.get "source")))] := if_neg hmissing
    have hdate : (host.dateParse (cleanString (value.get "capturedAt"))).isSome = true := by
      refine h ?_
      cases value with
      | obj fields => rfl
      | _ => exact absurd (.inr (.inl rfl)) hmissing
    rw [hread]
    show nativeFields (loweredText host (str (loweredText host (value.get "agent"))))
      (trim (cleanString (value.get "sessionId")))
      (trim (cleanString (value.get "workingDirectory")))
      (capturedAtOf host now' (str (capturedAtOf host now (value.get "capturedAt"))))
      (sourceOf (str (sourceOf (value.get "source")))) = _
    rw [loweredText_str, trim_cleanString, trim_cleanString, capturedAtOf_again hdate,
      sourceOf_again, nativeFields, if_neg hmissing]

/-- **What a rule has read of a steady value it reads again as it is.** -/
theorem read_again (h : rule.Steady host value) :
    rule.read host now' role (rule.read host now role value) = rule.read host now role value := by
  cases rule with
  | flag => rfl
  | billing =>
    by_cases hcredits : value = str "credits"
    · rw [hcredits]
      rfl
    · have hread : FieldRule.billing.read host now role value = str "subscription" :=
        if_neg hcredits
      rw [hread]
      rfl
  | oneOf texts => exact readOneOf_again texts
  | lowered texts => exact readLowered_again h
  | text =>
    show orUndefined (cleanString (orUndefined (cleanString value))) = _
    rw [cleanString_orUndefined (trim_cleanString value)]
    rfl
  | textOrNull => exact readTextOrNull_again
  | count => exact readCount_again_iff.mpr h
  | number => exact readNumber_again_iff.mpr h
  | time => exact readTime_again
  | textList =>
    show listOrUndefined (cleanTexts (listOrUndefined (cleanTexts value))) = _
    rw [cleanTexts_listOrUndefined fun text => cleanTexts_trimmed]
    rfl
  | pinned =>
    exact congrArg listOrUndefined (pinned_again fun text => cleanTexts_trimmed)
  | tags => exact (tags_again_iff value).mpr h
  | revisions => exact readRevisions_again
  | nativeSession => exact nativeAgentSession_again h
  | projectTools =>
    by_cases hboth : role = "completed-turn" ∧ value = bool true
    · have hread : FieldRule.projectTools.read host now role value = bool true := if_pos hboth
      rw [hread]
      exact if_pos ⟨hboth.1, rfl⟩
    · have hread : FieldRule.projectTools.read host now role value = undefined := if_neg hboth
      rw [hread]
      exact if_neg fun h => by cases h.2

/-! ## copies through JSON -/

/-- A value that is its own copy. -/
def Plain (value : Value) : Prop := Chain.jsonCopy value = value

theorem plain_str (text : String) : Plain (str text) := by
  unfold Plain Chain.jsonCopy
  rfl

theorem plain_undefined : Plain undefined := by
  unfold Plain Chain.jsonCopy
  rfl

theorem plain_num (q : ℚ) : Plain (num q) := by
  unfold Plain Chain.jsonCopy
  rfl

theorem copyItems_of_plain {values : List Value} (h : ∀ v ∈ values, v ≠ undefined ∧ Plain v) :
    Chain.copyItems values = values := by
  induction values with
  | nil =>
    unfold Chain.copyItems
    rfl
  | cons v values ih =>
    obtain ⟨hne, hplain⟩ := h v List.mem_cons_self
    have hrest := ih fun w hw => h w (List.mem_cons_of_mem v hw)
    have hcons : Chain.copyItems (v :: values) = Chain.jsonCopy v :: Chain.copyItems values := by
      cases v <;> first | exact absurd rfl hne | (rw [Chain.copyItems]; nofun)
    rw [hcons, hrest, hplain]

theorem copyFields_of_plain {fields : List (String × Value)}
    (h : ∀ f ∈ fields, f.2 ≠ undefined ∧ Plain f.2) : Chain.copyFields fields = fields := by
  induction fields with
  | nil =>
    unfold Chain.copyFields
    rfl
  | cons field fields ih =>
    obtain ⟨key, v⟩ := field
    obtain ⟨hne, hplain⟩ := h (key, v) List.mem_cons_self
    have hrest := ih fun w hw => h w (List.mem_cons_of_mem _ hw)
    have hcons : Chain.copyFields ((key, v) :: fields) =
        (key, Chain.jsonCopy v) :: Chain.copyFields fields := by
      cases v <;> first | exact absurd rfl hne | (rw [Chain.copyFields]; intro h; cases h)
    rw [hcons, hrest, hplain]

theorem plain_arr {values : List Value} (h : ∀ v ∈ values, v ≠ undefined ∧ Plain v) :
    Plain (arr values) := by
  unfold Plain
  rw [Chain.jsonCopy, copyItems_of_plain h]

theorem plain_obj {fields : List (String × Value)} (h : ∀ f ∈ fields, f.2 ≠ undefined ∧ Plain f.2) :
    Plain (obj fields) := by
  unfold Plain
  rw [Chain.jsonCopy, copyFields_of_plain h]

/-- an object whose fields are texts. -/
theorem plain_texts (fields : List (String × String)) :
    Plain (obj (fields.map fun f => (f.1, str f.2))) := by
  refine plain_obj fun f hf => ?_
  obtain ⟨f', -, rfl⟩ := List.mem_map.mp hf
  exact ⟨nofun, plain_str f'.2⟩

theorem plain_orUndefined (text : String) : Plain (orUndefined text) := by
  unfold orUndefined
  split
  · exact plain_undefined
  · exact plain_str text

theorem plain_listOrUndefined (texts : List String) : Plain (listOrUndefined texts) := by
  unfold listOrUndefined
  split
  · exact plain_undefined
  · refine plain_arr fun v hv => ?_
    obtain ⟨text, -, rfl⟩ := List.mem_map.mp hv
    exact ⟨nofun, plain_str text⟩

theorem plain_wholeOf (q : ℚ) : Plain (wholeOf q) := by
  unfold wholeOf
  split
  · exact plain_num _
  · exact plain_undefined

theorem plain_revisionOf {entry : Value} (h : entry ∈ revisionOf value) :
    entry ≠ undefined ∧ Plain entry := by
  unfold revisionOf revisionFields at h
  split at h
  · obtain rfl := List.mem_singleton.mp h
    refine ⟨nofun, ?_⟩
    exact plain_texts [("skillId", _), ("revisionId", _), ("digest", _)]
  · exact absurd h List.not_mem_nil

/-- **What a rule has read is its own JSON.** -/
theorem plain_read : Plain (rule.read host now role value) := by
  cases rule with
  | flag =>
    unfold Plain FieldRule.read Chain.jsonCopy
    rfl
  | billing =>
    show Plain (if value = str "credits" then str "credits" else str "subscription")
    split
    · exact plain_str _
    · exact plain_str _
  | oneOf texts =>
    show Plain (readOneOf texts value)
    cases value with
    | str s =>
      rw [readOneOf]
      split
      · exact plain_str s
      · exact plain_undefined
    | _ => exact plain_undefined
  | lowered texts =>
    show Plain (readLowered host texts value)
    unfold readLowered
    split
    · exact plain_str _
    · exact plain_undefined
  | text => exact plain_orUndefined _
  | textOrNull =>
    show Plain (readTextOrNull value)
    unfold readTextOrNull
    split
    · exact plain_str _
    · split
      · unfold Plain Chain.jsonCopy
        rfl
      · exact plain_undefined
  | count =>
    show Plain (readCount value)
    cases value with
    | num q => exact plain_wholeOf q
    | _ => exact plain_undefined
  | number =>
    show Plain (readNumber host value)
    unfold readNumber
    cases host.toNumber value with
    | none => exact plain_undefined
    | some q => exact plain_wholeOf q
  | time =>
    show Plain (readTime host value)
    unfold readTime
    cases host.dateParse (cleanString value) with
    | none => exact plain_undefined
    | some time => exact plain_str _
  | textList => exact plain_listOrUndefined _
  | pinned => exact plain_listOrUndefined _
  | tags => exact plain_listOrUndefined _
  | revisions =>
    show Plain (readRevisions value)
    unfold readRevisions
    split
    · exact plain_undefined
    · refine plain_arr fun entry hentry => ?_
      obtain ⟨item, -, hitem⟩ := List.mem_flatMap.mp hentry
      exact plain_revisionOf hitem
  | nativeSession =>
    show Plain (nativeFields _ _ _ _ _)
    unfold nativeFields
    split
    · exact plain_undefined
    · exact plain_texts [("agent", _), ("sessionId", _), ("workingDirectory", _),
        ("capturedAt", _), ("source", _)]
  | projectTools =>
    show Plain (if role = "completed-turn" ∧ value = Value.bool true then Value.bool true
      else undefined)
    split
    · unfold Plain Chain.jsonCopy
      rfl
    · exact plain_undefined

theorem get_jsonCopy (fields : List (String × Value)) (key : String) :
    (Chain.jsonCopy (obj fields)).get key = Chain.jsonCopy ((obj fields).get key) := by
  rw [Chain.jsonCopy]
  show ((Chain.copyFields fields).lookup key).getD undefined =
    Chain.jsonCopy ((fields.lookup key).getD undefined)
  rw [Chain.lookup_copyFields]
  cases fields.lookup key with
  | none => exact plain_undefined.symm
  | some v =>
    rw [Option.bind_some, Option.getD_some]
    by_cases hv : v = undefined
    · rw [if_pos hv, hv]
      exact plain_undefined.symm
    · rw [if_neg hv, Option.getD_some]

/-! ## the fields together -/

theorem lookup_map_of_mem {α : Type} {fields : List (String × α)} {read : String × α → Value}
    {field : String × α} (hnodup : (fields.map (·.1)).Nodup) (hmem : field ∈ fields) :
    (fields.map fun field => (field.1, read field)).lookup field.1 = some (read field) := by
  induction fields with
  | nil => exact absurd hmem List.not_mem_nil
  | cons first fields ih =>
    obtain ⟨hnew, hnodup⟩ := List.nodup_cons.mp hnodup
    rw [List.map_cons, Value.lookup_cons]
    rcases List.mem_cons.mp hmem with rfl | hmem
    · exact if_pos rfl
    · rw [if_neg, ih hnodup hmem]
      intro hsame
      exact hnew (List.mem_map.mpr ⟨field, hmem, hsame⟩)

theorem fields_nodup : (sessionMetadataFields.map (·.1)).Nodup := by decide +kernel

theorem role_mem : ("role", FieldRule.text) ∈ sessionMetadataFields := by decide +kernel

theorem normalise_eq (metadata : Value) : normaliseSessionMetadata host now metadata =
    obj (sessionMetadataFields.map fun field => (field.1,
      field.2.read host now (cleanString (metadata.get "role")) (metadata.get field.1))) := rfl

/-- each field of the result is what its rule reads. -/
theorem get_normalise {field : String × FieldRule} (h : field ∈ sessionMetadataFields) :
    (normaliseSessionMetadata host now metadata).get field.1 =
      field.2.read host now (cleanString (metadata.get "role")) (metadata.get field.1) := by
  show (List.lookup _ _).getD undefined = _
  rw [lookup_map_of_mem fields_nodup h]
  rfl

theorem role_normalise : cleanString ((normaliseSessionMetadata host now metadata).get "role") =
    cleanString (metadata.get "role") := by
  rw [get_normalise role_mem]
  exact cleanString_orUndefined (trim_cleanString _)

/-- metadata with the same fields. -/
theorem normalise_congr {metadata' : Value}
    (h : ∀ field ∈ sessionMetadataFields, metadata'.get field.1 = metadata.get field.1) :
    normaliseSessionMetadata host now metadata' = normaliseSessionMetadata host now metadata := by
  unfold normaliseSessionMetadata
  rw [h _ role_mem]
  exact congrArg obj (List.map_congr_left fun field hfield => by rw [h field hfield])

/-- **The copy of what was normalised is normalised as itself.** -/
theorem normalise_jsonCopy :
    normaliseSessionMetadata host now' (Chain.jsonCopy (normaliseSessionMetadata host now metadata)) =
      normaliseSessionMetadata host now' (normaliseSessionMetadata host now metadata) := by
  refine normalise_congr fun field hfield => ?_
  have hcopy := get_jsonCopy (sessionMetadataFields.map fun field => (field.1,
    field.2.read host now (cleanString (metadata.get "role")) (metadata.get field.1))) field.1
  refine hcopy.trans ?_
  show Chain.jsonCopy ((normaliseSessionMetadata host now metadata).get field.1) = _
  rw [get_normalise hfield]
  exact plain_read

/-- metadata is normalised once when each of its fields is. -/
theorem normalise_again_fields :
    normaliseSessionMetadata host now' (normaliseSessionMetadata host now metadata) =
      normaliseSessionMetadata host now metadata ↔
    ∀ field ∈ sessionMetadataFields,
      field.2.read host now' (cleanString (metadata.get "role"))
        (field.2.read host now (cleanString (metadata.get "role")) (metadata.get field.1)) =
      field.2.read host now (cleanString (metadata.get "role")) (metadata.get field.1) := by
  have hagain : normaliseSessionMetadata host now' (normaliseSessionMetadata host now metadata) =
      obj (sessionMetadataFields.map fun field => (field.1,
        field.2.read host now' (cleanString (metadata.get "role"))
          (field.2.read host now (cleanString (metadata.get "role")) (metadata.get field.1)))) := by
    rw [normalise_eq, role_normalise]
    exact congrArg obj (List.map_congr_left fun field hfield => by rw [get_normalise hfield])
  rw [hagain, normalise_eq]
  constructor
  · intro h field hfield
    exact (Prod.mk.inj (List.map_inj_left.mp (Value.obj.inj h) field hfield)).2
  · intro h
    exact congrArg obj (List.map_congr_left fun field hfield => by rw [h field hfield])

/-! ## metadata that is stable -/

variable (host) in
/-- No number is rounded down to 0, and no tag is cut right behind a hyphen. -/
structure Stable (metadata : Value) : Prop where
  count : ∀ q, metadata.get "branchConversationMessageCount" = num q → Whole q
  generation : ∀ q, host.toNumber (metadata.get "sessionGeneration") = some q → Whole q
  attempt : ∀ q, host.toNumber (metadata.get "retryAttempt") = some q → Whole q
  tags : ¬Cut host (rawTags (metadata.get "tags"))

/-- the words of a rule that compares in small letters. -/
def FieldRule.words : FieldRule → List String
  | .lowered texts => texts
  | _ => []

/-- where the rules stand that change some values a second time. -/
theorem fields_by_rule : ∀ field ∈ sessionMetadataFields,
    (field.2 = .count → field.1 = "branchConversationMessageCount") ∧
    (field.2 = .number → field.1 = "sessionGeneration" ∨ field.1 = "retryAttempt") ∧
    (field.2 = .tags → field.1 = "tags") ∧
    (field.2 = .nativeSession → field.1 = "nativeAgentSession") ∧ "" ∉ field.2.words := by
  decide +kernel

theorem Stable.steady (h : Stable host metadata)
    (hnative : Captured host (metadata.get "nativeAgentSession")) {field : String × FieldRule}
    (hfield : field ∈ sessionMetadataFields) : field.2.Steady host (metadata.get field.1) := by
  obtain ⟨key, rule⟩ := field
  obtain ⟨hcount, hnumber, htags, hsession, hwords⟩ := fields_by_rule _ hfield
  cases rule with
  | count =>
    obtain rfl : key = "branchConversationMessageCount" := hcount rfl
    exact h.count
  | number =>
    obtain rfl | rfl : key = "sessionGeneration" ∨ key = "retryAttempt" := hnumber rfl
    · exact h.generation
    · exact h.attempt
  | tags =>
    obtain rfl : key = "tags" := htags rfl
    exact h.tags
  | nativeSession =>
    obtain rfl : key = "nativeAgentSession" := hsession rfl
    exact hnative
  | lowered texts => exact hwords
  | _ => exact trivial

/-- **Metadata is normalised once exactly when it is stable.** -/
theorem normalise_again_iff (hnative : Captured host (metadata.get "nativeAgentSession")) :
    normaliseSessionMetadata host now' (normaliseSessionMetadata host now metadata) =
      normaliseSessionMetadata host now metadata ↔ Stable host metadata := by
  rw [normalise_again_fields]
  constructor
  · intro h
    refine ⟨?_, ?_, ?_, ?_⟩
    · exact readCount_again_iff.mp
        (h ("branchConversationMessageCount", .count) (by decide +kernel))
    · exact readNumber_again_iff.mp (h ("sessionGeneration", .number) (by decide +kernel))
    · exact readNumber_again_iff.mp (h ("retryAttempt", .number) (by decide +kernel))
    · exact (tags_again_iff _).mp (h ("tags", .tags) (by decide +kernel))
  · intro h field hfield
    exact read_again (h.steady hnative hfield)

/-- **Metadata and tags are normalised once, also through JSON, exactly when no number is rounded
down to 0 and no tag is cut right behind a hyphen.** -/
theorem normalised_again_iff (host : Host) (metadata tags : Value)
    (hnative : Captured host (metadata.get "nativeAgentSession")) (now now' now'' : String) :
    (normaliseSessionMetadata host now' (normaliseSessionMetadata host now metadata) =
        normaliseSessionMetadata host now metadata ∧
      normaliseSessionMetadata host now''
          (Chain.jsonCopy (normaliseSessionMetadata host now metadata)) =
        normaliseSessionMetadata host now metadata ↔ Stable host metadata) ∧
    (normaliseSessionTags host (normaliseSessionTags host tags) = normaliseSessionTags host tags ↔
      ¬Cut host (rawTags tags)) := by
  refine ⟨?_, tags_again_iff tags⟩
  rw [normalise_jsonCopy, normalise_again_iff hnative, normalise_again_iff hnative]
  exact and_self_iff

end

/-! ## two sessions -/

/-- a platform for texts in small letters, one date, and numbers that are numbers. -/
def plainHost : Host where
  toLowerCase text := text
  toLowerCase_plain _ _ := rfl
  toLowerCase_toLowerCase _ := rfl
  trim_toLowerCase := trim_trim
  dateParse text := if text = "2026-10-15T07:44:00.000Z" ∨ text = "2026-10-15T07:44:00Z" then
    some 1792050240000 else none
  dateParse_empty := by decide
  toISOString _ := "2026-10-15T07:44:00.000Z"
  dateParse_toISOString text time h := by
    rw [if_pos (.inl rfl)]
    split at h
    · exact h
    · cases h
  trim_toISOString _ := by decide +kernel
  toNumber := numberOf
  toNumber_num := numberOf_num
  toNumber_undefined := rfl

/-- a session with a native session, a generation and tags. -/
def workerMetadata : Value :=
  obj [("AGENT", Value.bool true), ("role", str " worker "), ("sessionGeneration", num 2),
    ("explicitlyClosedAt", str "2026-10-15T07:44:00Z"),
    ("nativeAgentSession", obj [("agent", str "codex"), ("sessionId", str "s-1"),
      ("workingDirectory", str "/work"), ("capturedAt", str "2026-10-15T07:44:00Z")]),
    ("tags", arr [str " flight_deck ", str "nip-98"])]

/-- a session that is tried half a time, with a tag of 41 characters whose 40th is a hyphen. -/
def driftingMetadata : Value :=
  obj [("role", str "worker"), ("retryAttempt", num (1 / 2)),
    ("tags", arr [str "autopilot-sessions-metadata-normalising-b"])]

theorem normalised_again_iff_worker :
    normaliseSessionMetadata plainHost "t2" (normaliseSessionMetadata plainHost "t1" workerMetadata) =
      normaliseSessionMetadata plainHost "t1" workerMetadata := by
  have hcaptured : Captured plainHost (workerMetadata.get "nativeAgentSession") := fun _ => by
    decide +kernel
  refine ((normalised_again_iff plainHost workerMetadata undefined hcaptured "t1" "t2" "t3").1.mpr
    ⟨fun q hq => ?_, fun q hq => ?_, fun q hq => ?_, ?_⟩).1
  · cases hq
  · obtain rfl : 2 = q := Option.some.inj hq
    unfold Whole
    decide +kernel
  · cases hq
  · unfold Cut
    decide +kernel

/-- **Metadata whose attempt and whose tag change the second time.** -/
theorem driftingMetadata_changes :
    normaliseSessionMetadata plainHost "t2" (normaliseSessionMetadata plainHost "t1" driftingMetadata) ≠
        normaliseSessionMetadata plainHost "t1" driftingMetadata ∧
      normaliseSessionTags plainHost (normaliseSessionTags plainHost (driftingMetadata.get "tags")) ≠
        normaliseSessionTags plainHost (driftingMetadata.get "tags") := by
  decide +kernel

end Metadata
end Sessions
end WmAutopilot
