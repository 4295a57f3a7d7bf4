import WmAutopilot.Pipelines.EvidenceRedaction

/-!
# What redaction removes

* `redactText_occurs`    a word apart from the marker is in a rewritten text only if it was in the
                         text before;
* `redactText_free`      a known secret apart from the marker is in no rewritten text;
* `texts_visit`          the texts of a rewritten value are the marker and rewritten exposed texts;
* `Removes`, `Covered`   no secret is left in the result; the inputs on which none is;
* `removes_of_covered`   they have that property.
-/

set_option autoImplicit false

namespace WmAutopilot
namespace Pipelines
namespace EvidenceRedaction
open Js Value Text

section
variable {s : List Char} {known : List String} {text : List Char}

/-! ## one text -/

theorem replaceSecrets_occurs (hs : Apart marker.toList s) (hne : ∀ k ∈ known, k ≠ "")
    (h : s <:+: known.foldl replaceSecret text) : s <:+: text := by
  induction known generalizing text with
  | nil => exact h
  | cons k known ih =>
    have hk : k.toList ≠ [] := fun e => hne k List.mem_cons_self (String.toList_eq_nil_iff.mp e)
    have hin := ih (fun k' hk' => hne k' (List.mem_cons_of_mem _ hk')) h
    exact (cleared_splitFrom hk text).marks.occurs hs hin

/-- a secret is gone once it is replaced, and no later secret brings it back. -/
theorem replaceSecrets_free {secret : String} (hs : Apart marker.toList secret.toList)
    (hne : ∀ k ∈ known, k ≠ "") (hmem : secret ∈ known) :
    ¬secret.toList <:+: known.foldl replaceSecret text := by
  induction known generalizing text with
  | nil => exact absurd hmem List.not_mem_nil
  | cons k known ih =>
    have hne' : ∀ k' ∈ known, k' ≠ "" := fun k' hk' => hne k' (List.mem_cons_of_mem _ hk')
    rcases List.mem_cons.mp hmem with rfl | hmem
    · intro hin
      have hfree := (cleared_splitFrom (m := marker.toList) hs.ne_nil text).free hs
      exact hfree (replaceSecrets_occurs hs hne' hin)
    · exact ih hne' hmem

/-- every pattern puts the marker in the place of a stretch between two ends of its match. -/
theorem between_of_mem_patterns {r : Regex} (hr : r ∈ patterns) :
    Regex.Between r (Regex.keepGroups marker.toList) marker.toList := by
  have hcases : r = nsecPattern ∨ r = bearerPattern ∨ r = queryPattern ∨ r = fieldPattern := by
    simpa [patterns] using hr
  rcases hcases with rfl | rfl | rfl | rfl
  · exact Regex.between_whole (by decide +kernel)
  · exact Regex.between_boundary (Regex.between_first (by decide +kernel) (by decide +kernel))
  · exact Regex.between_first (by decide +kernel) (by decide +kernel)
  · exact Regex.between_both (by decide +kernel) (by decide +kernel) (by decide +kernel)

theorem replacePatterns_occurs {rs : List Regex} (hrs : ∀ r ∈ rs, r ∈ patterns)
    (hs : Apart marker.toList s)
    (h : s <:+: rs.foldl (fun text r => r.replaceAll (Regex.keepGroups marker.toList) text) text) :
    s <:+: text := by
  induction rs generalizing text with
  | nil => exact h
  | cons r rs ih =>
    have hin := ih (fun r' hr' => hrs r' (List.mem_cons_of_mem _ hr')) h
    have hbetween := between_of_mem_patterns (hrs r List.mem_cons_self)
    exact (Regex.replaceAll_marks hbetween text).occurs hs hin

/-- a word in a rewritten text was there when the known secrets had been replaced. -/
theorem redactText_secrets {item : String} (hs : Apart marker.toList s)
    (h : s <:+: (redactText known item).toList) :
    s <:+: (known.filter (· ≠ "")).foldl replaceSecret item.toList := by
  rw [redactText, String.toList_ofList] at h
  exact replacePatterns_occurs (fun r hr => hr) hs h

theorem nonempty_of_mem_filter {k : String} (hk : k ∈ known.filter (· ≠ "")) : k ≠ "" :=
  of_decide_eq_true (List.mem_filter.mp hk).2

/-- **Rewriting brings no word into a text.** -/
theorem redactText_occurs {item : String} (hs : Apart marker.toList s)
    (h : s <:+: (redactText known item).toList) : s <:+: item.toList :=
  replaceSecrets_occurs hs (fun _ => nonempty_of_mem_filter) (redactText_secrets hs h)

/-- **A known secret is in no rewritten text.** -/
theorem redactText_free {item secret : String} (hs : Apart marker.toList secret.toList)
    (hmem : secret ∈ known) : ¬secret.toList <:+: (redactText known item).toList := by
  intro h
  have hne : secret ≠ "" := fun e => hs.ne_nil (String.toList_eq_nil_iff.mpr e)
  have hmem' : secret ∈ known.filter (· ≠ "") :=
    List.mem_filter.mpr ⟨hmem, decide_eq_true hne⟩
  exact replaceSecrets_free hs (fun _ => nonempty_of_mem_filter) hmem' (redactText_secrets hs h)

/-- No known secret occurs in the text, and no pattern matches in it. -/
def Untouched (known : List String) (item : String) : Prop :=
  (∀ k ∈ known, k ≠ "" → includes item k = false) ∧ ∀ r ∈ patterns, r.test item.toList = false

theorem includes_eq_false {s t : String} : includes t s = false ↔ ¬s.toList <:+: t.toList :=
  decide_eq_false_iff_not

/-- such a text stays as it is. -/
theorem redactText_of_untouched {item : String} (h : Untouched known item) :
    redactText known item = item := by
  have hsecrets : ∀ ks : List String, (∀ k ∈ ks, includes item k = false) →
      ks.foldl replaceSecret item.toList = item.toList := by
    intro ks hks
    induction ks with
    | nil => rfl
    | cons k ks ih =>
      have hnot := includes_eq_false.mp (hks k List.mem_cons_self)
      rw [List.foldl_cons, replaceSecret, splitFrom_of_not hnot, List.intercalate_singleton]
      exact ih fun k' hk' => hks k' (List.mem_cons_of_mem _ hk')
  have hpatterns : ∀ rs : List Regex, (∀ r ∈ rs, r.test item.toList = false) →
      rs.foldl (fun text r => r.replaceAll (Regex.keepGroups marker.toList) text) item.toList =
        item.toList := by
    intro rs hrs
    induction rs with
    | nil => rfl
    | cons r rs ih =>
      rw [List.foldl_cons, Regex.replaceAll_of_test _ (hrs r List.mem_cons_self)]
      exact ih fun r' hr' => hrs r' (List.mem_cons_of_mem _ hr')
  have hknown : ∀ k ∈ known.filter (· ≠ ""), includes item k = false := fun k hk =>
    h.1 k (List.mem_filter.mp hk).1 (nonempty_of_mem_filter hk)
  rw [redactText, hsecrets _ hknown, hpatterns patterns h.2, String.ofList_toList]

end

/-! ## the texts of a value -/

mutual

/-- the texts of a value: its string leaves and its keys. -/
def texts : Value → List String
  | str s => [s]
  | arr items => textsAll items
  | obj fields => textsFields fields
  | _ => []

def textsAll : List Value → List String
  | [] => []
  | item :: items => texts item ++ textsAll items

def textsFields : List (String × Value) → List String
  | [] => []
  | (key, child) :: fields => key :: texts child ++ textsFields fields

end

mutual

/-- the texts that are not under a credential key. -/
def exposed : Value → List String
  | str s => [s]
  | arr items => exposedAll items
  | obj fields => exposedFields fields
  | _ => []

def exposedAll : List Value → List String
  | [] => []
  | item :: items => exposed item ++ exposedAll items

def exposedFields : List (String × Value) → List String
  | [] => []
  | (key, child) :: fields =>
    key :: (if isCredentialKey key then [] else exposed child) ++ exposedFields fields

end

mutual

/-- the texts under a credential key, at any depth. -/
def guarded : Value → List String
  | arr items => guardedAll items
  | obj fields => guardedFields fields
  | _ => []

def guardedAll : List Value → List String
  | [] => []
  | item :: items => guarded item ++ guardedAll items

def guardedFields : List (String × Value) → List String
  | [] => []
  | (key, child) :: fields =>
    (if isCredentialKey key then texts child else guarded child) ++ guardedFields fields

end

section
variable {known : List String} {t : String}

theorem textsFields_setField {k : String} {v : Value} {fs : List (String × Value)}
    (h : t ∈ textsFields (setField k v fs)) : t = k ∨ t ∈ texts v ∨ t ∈ textsFields fs := by
  induction fs with
  | nil =>
    rcases List.mem_append.mp (show t ∈ (k :: texts v) ++ [] from h) with h | h
    · rcases List.mem_cons.mp h with h | h
      · exact .inl h
      · exact .inr (.inl h)
    · exact absurd h List.not_mem_nil
  | cons f fs ih =>
    obtain ⟨l, w⟩ := f
    rw [setField] at h
    split at h
    · rcases List.mem_append.mp (show t ∈ (k :: texts v) ++ textsFields fs from h) with h | h
      · rcases List.mem_cons.mp h with h | h
        · exact .inl h
        · exact .inr (.inl h)
      · exact .inr (.inr (List.mem_append_right (l :: texts w) h))
    · rcases List.mem_append.mp
        (show t ∈ (l :: texts w) ++ textsFields (setField k v fs) from h) with h | h
      · exact .inr (.inr (List.mem_append_left (textsFields fs) h))
      · rcases ih h with h | h | h
        · exact .inl h
        · exact .inr (.inl h)
        · exact .inr (.inr (List.mem_append_right (l :: texts w) h))

/-- the texts of an object are those of the entries it is made from. -/
theorem textsFields_fromEntries {entries acc : List (String × Value)}
    (h : t ∈ textsFields (entries.foldl (fun fields f => setField f.1 f.2 fields) acc)) :
    t ∈ textsFields acc ∨ t ∈ textsFields entries := by
  induction entries generalizing acc with
  | nil => exact .inl h
  | cons f entries ih =>
    rcases ih h with h | h
    · rcases textsFields_setField h with h | h | h
      · exact .inr (List.mem_append_left _ (List.mem_cons.mpr (.inl h)))
      · exact .inr (List.mem_append_left _ (List.mem_cons_of_mem _ h))
      · exact .inl h
    · exact .inr (List.mem_append_right (f.1 :: texts f.2) h)

mutual

/-- **What is left.** The texts of a rewritten value are the marker and rewritten exposed texts. -/
theorem texts_visit (v : Value) (h : t ∈ texts (visit known v).1) :
    t = marker ∨ ∃ u ∈ exposed v, t = redactText known u := by
  cases v with
  | str s => exact .inr ⟨s, List.mem_singleton_self s, List.mem_singleton.mp h⟩
  | arr items => exact texts_visitAll items h
  | obj fields =>
    rcases textsFields_fromEntries h with h | h
    · exact absurd h List.not_mem_nil
    · exact texts_visitFields fields h
  | undefined | null | bool _ | num _ => exact absurd h List.not_mem_nil

theorem texts_visitAll (items : List Value) (h : t ∈ textsAll (visitAll known items).1) :
    t = marker ∨ ∃ u ∈ exposedAll items, t = redactText known u := by
  cases items with
  | nil => exact absurd h List.not_mem_nil
  | cons item items =>
    rcases List.mem_append.mp h with h | h
    · exact (texts_visit item h).imp_right fun ⟨u, hu, e⟩ => ⟨u, List.mem_append_left _ hu, e⟩
    · exact (texts_visitAll items h).imp_right fun ⟨u, hu, e⟩ => ⟨u, List.mem_append_right _ hu, e⟩

theorem texts_visitFields (fields : List (String × Value))
    (h : t ∈ textsFields (visitFields known fields).1) :
    t = marker ∨ ∃ u ∈ exposedFields fields, t = redactText known u := by
  cases fields with
  | nil => exact absurd h List.not_mem_nil
  | cons f fields =>
    obtain ⟨key, child⟩ := f
    have later : t ∈ textsFields (visitFields known fields).1 →
        t = marker ∨ ∃ u ∈ exposedFields ((key, child) :: fields), t = redactText known u :=
      fun h => (texts_visitFields fields h).imp_right
        fun ⟨u, hu, e⟩ => ⟨u, List.mem_append_right _ hu, e⟩
    rw [visitFields] at h
    by_cases hkey : isCredentialKey key = true
    · rw [if_pos hkey] at h
      rcases List.mem_append.mp h with h | h
      · rcases List.mem_cons.mp h with h | h
        · exact .inr ⟨key, List.mem_append_left _ List.mem_cons_self, h⟩
        · exact .inl (List.mem_singleton.mp h)
      · exact later h
    · rw [if_neg hkey] at h
      rcases List.mem_append.mp h with h | h
      · rcases List.mem_cons.mp h with h | h
        · exact .inr ⟨key, List.mem_append_left _ List.mem_cons_self, h⟩
        · refine (texts_visit child h).imp_right fun ⟨u, hu, e⟩ => ⟨u, ?_, e⟩
          refine List.mem_append_left _ (List.mem_cons_of_mem _ ?_)
          rw [if_neg hkey]
          exact hu
      · exact later h

end

end

/-! ## no secret is left -/

/-- No text of the result contains a listed secret, nor a text from under a credential key that is
not part of the marker. -/
def Removes (env : String → Option String) (value : Value) (secrets : List String) : Prop :=
  ∀ t ∈ texts (redactPipelineValue env value secrets).1,
    (∀ s ∈ secrets, includes t s = false) ∧
      ∀ s ∈ guarded value, includes marker s = false → includes t s = false

/-- Of each secret and each exposed text: either the secret cannot overlap the marker, and it is
known or not in the text, or nothing in the text is replaced and the secret is not in it. -/
def Covered (env : String → Option String) (value : Value) (secrets : List String) : Prop :=
  ∀ s ∈ secrets ++ guarded value, includes marker s = false → ∀ u ∈ exposed value,
    Apart marker.toList s.toList ∧
        (s ∈ knownSecrets env value secrets ∨ includes u s = false) ∨
      Untouched (knownSecrets env value secrets) u ∧ includes u s = false

/-- **The secrets are removed**, when none of the list is part of the marker. -/
theorem removes_of_covered (env : String → Option String) (value : Value) (secrets : List String)
    (hsecrets : ∀ s ∈ secrets, includes marker s = false) (h : Covered env value secrets) :
    Removes env value secrets := by
  have key : ∀ t ∈ texts (redactPipelineValue env value secrets).1,
      ∀ s ∈ secrets ++ guarded value, includes marker s = false → includes t s = false := by
    intro t ht s hs hm
    rcases texts_visit value ht with rfl | ⟨u, hu, rfl⟩
    · exact hm
    · rcases h s hs hm u hu with ⟨hapart, hknown | hnot⟩ | ⟨huntouched, hnot⟩
      · exact includes_eq_false.mpr (redactText_free hapart hknown)
      · rw [includes_eq_false] at hnot ⊢
        exact fun hin => hnot (redactText_occurs hapart hin)
      · rw [redactText_of_untouched huntouched]
        exact hnot
  intro t ht
  exact ⟨fun s hs => key t ht s (List.mem_append_left _ hs) (hsecrets s hs),
    fun s hs hm => key t ht s (List.mem_append_right _ hs) hm⟩

theorem removes_of_covered_listed :
    Removes (fun _ => none)
      (obj [("apiKey", str "k-123"), ("note", str "s1 used k-123"), ("n", arr [num 1, str "]"])])
      ["s1"] :=
  removes_of_covered _ _ _ (by decide +kernel) (by unfold Covered Untouched; decide +kernel)

/-- **Secrets that are left.**  A cookie in an array under its key is not collected, and its echo
stays; a marker in the place of one secret completes another. -/
theorem secrets_left :
    ¬Removes (fun _ => none)
        (obj [("headers", obj [("set-cookie", arr [str "session=b81f"])]),
          ("note", str "echo of session=b81f")]) [] ∧
      ¬Removes (fun _ => none) (str "xb") ["]b", "x"] := by
  refine ⟨fun h => ?_, fun h => ?_⟩
  · have hleft := (h "echo of session=b81f" (by decide +kernel)).2 "session=b81f"
      (by decide +kernel) (by decide +kernel)
    exact absurd hleft (by decide +kernel)
  · have hleft := (h "[REDACTED]b" (by decide +kernel)).1 "]b" (by decide +kernel)
    exact absurd hleft (by decide +kernel)

end EvidenceRedaction
end Pipelines
end WmAutopilot
