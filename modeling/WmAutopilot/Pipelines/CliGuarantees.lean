import WmAutopilot.Pipelines.CliGrounding

/-!
# What an interpretation selects

* `judge_selected`      what a decision selects has passed the checks;
* `readSpans_spoken`    an extraction adds spoken candidates only;
* `extract_ok`          what it selects has passed the checks;
* `ready_grounded_iff`  when a selection that counts is grounded;
* `inherited_downstream`   one that is not.
-/

set_option autoImplicit false

namespace WmAutopilot
namespace Pipelines
namespace Cli
open Js Value BirdRetrieval

/-! ## a decision -/

/-- the text of a field; `""` when it is none. -/
def textAt (value : Value) (field : String) : String := (textOf (value.get field)).getD ""

/-- the choice that an answer makes. -/
def choiceOf (answers : Value) (question : String) : String :=
  textAt (answers.get question) "choice"

/-- the answers choose a value for an argument of the operation. -/
def ChosenFor (contract : CliContract) (answers : Value) (operation : String)
    (entry : String × CliArgument) : Prop :=
  entry.1 ∈ (contract.applicable.lookup operation).getD [] ∧ entry.1 ≠ "downstreamCount" ∧
    entry.1 ≠ "__proto__" ∧
      ((candidateIndex (choiceOf answers entry.1)).isSome = true ∨
        choiceOf answers entry.1 = "default" ∧ entry.2.default.isSome = true)

/-- the names in a decision are declared. -/
def DecisionDeclared (contract : CliContract) (decision : Value) : Prop :=
  Declared contract (asked contract (choiceOf (decision.get "answers") "operation"))
    (choiceOf (decision.get "answers") "downstream") fun name =>
      ∃ arg, (name, arg) ∈ contract.arguments ∧ ChosenFor contract (decision.get "answers")
        (asked contract (choiceOf (decision.get "answers") "operation")) (name, arg)

section
variable {host : Host} {contracts : List CliContract} {contract : CliContract}
  {input decision answers : Value} {state : CliInterpretation} {selection : CliSelection}
  {operation downstream name : String} {value : Value} {arg : CliArgument}
  {entry : String × CliArgument} {args : CliArgs}

theorem lifted_ok {α : Type} {x : Except String α} {a : α} : lifted x = .ok a ↔ x = .ok a := by
  cases x with
  | ok b => exact ⟨fun h => congrArg _ (Except.ok.inj h), fun h => congrArg _ (Except.ok.inj h)⟩
  | error message =>
    constructor
    · intro h
      cases h
    · intro h
      cases h

/-- no value is given where there are no arguments. -/
theorem not_given {P : Prop} (h : ¬P) : (∃ value, (name, value) ∈ ([] : CliArgs)) ↔ P := by
  constructor
  · rintro ⟨value, hmem⟩
    exact absurd hmem List.not_mem_nil
  · intro hp
    exact absurd hp h

theorem mem_assign {other : String} {v w : CliValue} :
    (other, v) ∈ assign name w ↔ other = name ∧ v = w ∧ name ≠ "__proto__" := by
  unfold assign
  split
  · next h =>
    exact ⟨fun hmem => absurd hmem List.not_mem_nil, fun hmem => absurd h hmem.2.2⟩
  · next h =>
    rw [List.mem_singleton, Prod.mk.injEq]
    exact ⟨fun ⟨hname, hvalue⟩ => ⟨hname, hvalue, h⟩, fun ⟨hname, hvalue, _⟩ => ⟨hname, hvalue⟩⟩

theorem readChoice_ok {raw : Value} {allowed : List String} {confidence : Bool}
    {groups : List (List String)} {choice : String}
    (h : readChoice host raw allowed confidence groups = .ok choice) :
    raw.get "choice" = str choice ∧ choice ∈ allowed := by
  unfold readChoice at h
  split at h
  · next chosen probabilities hchoice _ =>
    obtain ⟨_, hguard, h⟩ := bind_ok.mp h
    obtain ⟨_, -, h⟩ := bind_ok.mp h
    obtain ⟨_, -, h⟩ := bind_ok.mp h
    obtain ⟨_, -, h⟩ := bind_ok.mp h
    obtain ⟨_, -, h⟩ := bind_ok.mp h
    obtain rfl := Except.ok.inj h
    refine ⟨hchoice, ?_⟩
    by_contra hnot
    exact throwIf_ok.mp hguard (.inr (.inl hnot))
  · cases h

theorem textAt_eq {field text : String} (h : value.get field = str text) :
    textAt value field = text := by
  unfold textAt
  rw [h]
  rfl

theorem choiceOf_eq {question choice : String}
    (h : (answers.get question).get "choice" = str choice) : choiceOf answers question = choice :=
  textAt_eq h

theorem chosenValue_ok {key : String} {chosen : Option CliValue}
    (h : chosenValue state name arg key = .ok chosen) :
    chosen.isSome = true ↔
      (candidateIndex key).isSome = true ∨ key = "default" ∧ arg.default.isSome = true := by
  unfold chosenValue at h
  split at h
  · next i hi =>
    obtain ⟨candidate, -, rfl⟩ := Option.map_eq_some_iff.mp (orThrow_ok.mp h)
    exact ⟨fun _ => .inl (hi ▸ rfl), fun _ => rfl⟩
  · next hi =>
    obtain rfl := Except.ok.inj h
    rw [hi]
    split
    · next hkey =>
      rw [Option.isSome_map]
      exact ⟨fun hdefault => .inr ⟨hkey, hdefault⟩, fun hchosen => (hchosen.resolve_left
        Bool.false_ne_true).2⟩
    · next hkey =>
      exact ⟨fun hnone => absurd hnone Bool.false_ne_true, fun hchosen => absurd
        (hchosen.resolve_left Bool.false_ne_true).1 hkey⟩

/-- **An argument is read exactly when its answer chooses a value.** -/
theorem readArgument_ok
    (h : readArgument host contract state answers operation downstream entry = .ok args) :
    (∃ value, (name, value) ∈ args) ↔
      name = entry.1 ∧ ChosenFor contract answers operation entry := by
  obtain ⟨applicable, happlicable, h⟩ := bind_ok.mp h
  obtain ⟨key, hkey, h⟩ := bind_ok.mp h
  have happlies := includes_ok happlicable
  have hchoice := choiceOf_eq (readChoice_ok hkey).1
  split at h
  · next hskip =>
    obtain rfl := Except.ok.inj h
    refine not_given ?_
    rintro ⟨-, hchosen⟩
    exact absurd (happlies.mpr hchosen.1) (hskip.1 ▸ Bool.false_ne_true)
  · next hskip =>
    obtain ⟨chosen, hchosen, h⟩ := bind_ok.mp h
    split at h
    · next hcount =>
      obtain ⟨_, -, h⟩ := bind_ok.mp h
      obtain rfl := Except.ok.inj h
      refine not_given ?_
      rintro ⟨-, hchosen⟩
      exact absurd hcount hchosen.2.1
    · next hcount =>
      have happlicable : applicable = true := by
        by_contra hnot
        exact hskip ⟨by simpa using hnot, hcount⟩
      obtain ⟨unresolved, -, h⟩ := bind_ok.mp h
      obtain ⟨_, -, h⟩ := bind_ok.mp h
      obtain rfl := Except.ok.inj h
      unfold ChosenFor
      rw [hchoice, ← chosenValue_ok hchosen]
      cases chosen with
      | none =>
        refine not_given ?_
        rintro ⟨-, -, -, -, hsome⟩
        exact absurd hsome Bool.false_ne_true
      | some value =>
        constructor
        · rintro ⟨value', hmem⟩
          obtain ⟨rfl, -, hproto⟩ := mem_assign.mp hmem
          exact ⟨rfl, happlies.mp happlicable, hcount, hproto, rfl⟩
        · rintro ⟨rfl, -, -, hproto, -⟩
          exact ⟨value, mem_assign.mpr ⟨rfl, rfl, hproto⟩⟩

theorem select_ok (h : select host contract state answers operation downstream = .ok selection) :
    selection.operation = asked contract operation ∧ selection.downstream = downstream ∧
      ∀ name, (∃ value, (name, value) ∈ selection.args) ↔ ∃ arg, (name, arg) ∈ contract.arguments ∧
        ChosenFor contract answers (asked contract operation) (name, arg) := by
  obtain ⟨args, hargs, h⟩ := bind_ok.mp h
  obtain ⟨count, -, h⟩ := bind_ok.mp h
  obtain rfl := Except.ok.inj h
  refine ⟨rfl, rfl, fun name => ⟨?_, ?_⟩⟩
  · rintro ⟨value, hmem⟩
    obtain ⟨read, hread, hmem⟩ := List.mem_flatten.mp hmem
    obtain ⟨entry, hentry, hok⟩ := mem_of_mapM_ok hargs read hread
    obtain ⟨rfl, hchosen⟩ := (readArgument_ok hok).mp ⟨value, hmem⟩
    exact ⟨entry.2, hentry, hchosen⟩
  · rintro ⟨arg, hentry, hchosen⟩
    obtain ⟨read, hread, hok⟩ := ok_of_mapM_ok hargs (name, arg) hentry
    obtain ⟨value, hmem⟩ := (readArgument_ok hok).mpr ⟨rfl, hchosen⟩
    exact ⟨value, List.mem_flatten.mpr ⟨read, hread, hmem⟩⟩

theorem readAnswers_ok {read : Value × ℚ} (h : readAnswers contract decision = .ok read) :
    read.1 = decision.get "answers" := by
  unfold readAnswers at h
  split at h
  · cases h
  · split at h
    · next fields hfields =>
      obtain ⟨_, -, h⟩ := bind_ok.mp h
      split at h
      · obtain ⟨_, -, h⟩ := bind_ok.mp h
        obtain ⟨_, -, h⟩ := bind_ok.mp h
        obtain rfl := Except.ok.inj h
        exact hfields.symm
      · cases h
    · cases h

theorem validate_ok (h : validateCliSelection host contract state selection = .ok ()) :
    Validated contract state.candidates selection := by
  obtain ⟨_, hchecks, -⟩ := bind_ok.mp h
  exact checkSelection_ok (lifted_ok.mp hchecks)

theorem declared_congr {given given' : String → Prop} (h : ∀ name, given name ↔ given' name) :
    Declared contract operation downstream given ↔ Declared contract operation downstream given' :=
  ⟨fun hd => ⟨hd.known, hd.offered, fun name hname hinherited =>
      (h name).mp (hd.required name hname hinherited)⟩,
    fun hd => ⟨hd.known, hd.offered, fun name hname hinherited =>
      (h name).mpr (hd.required name hname hinherited)⟩⟩

/-- **What a decision selects has passed the checks, and has its names from the answers.** -/
theorem judge_selected {disclosures : List String}
    (h : judge host contract state decision = .ok (.selected selection disclosures)) :
    Validated contract state.candidates selection ∧
      (Declared contract selection.operation selection.downstream
        (fun name => ∃ value, (name, value) ∈ selection.args) ↔
          DecisionDeclared contract decision) := by
  unfold judge at h
  obtain ⟨read, hread, h⟩ := bind_ok.mp h
  have hanswers := readAnswers_ok (lifted_ok.mp hread)
  split at h
  · cases h
  · obtain ⟨operation, hoperation, h⟩ := bind_ok.mp h
    obtain ⟨downstream, hdownstream, h⟩ := bind_ok.mp h
    have hchosen := choiceOf_eq (readChoice_ok (lifted_ok.mp hoperation)).1
    have hoffered := choiceOf_eq (readChoice_ok (lifted_ok.mp hdownstream)).1
    split at h
    · cases h
    · split at h
      · cases h
      · obtain ⟨selected, hselect, h⟩ := bind_ok.mp h
        obtain ⟨_, hvalid, h⟩ := bind_ok.mp h
        obtain ⟨_, -, h⟩ := bind_ok.mp h
        obtain ⟨rfl, -⟩ := Outcome.selected.inj (Except.ok.inj h)
        obtain ⟨hop, hdown, hargs⟩ := select_ok (lifted_ok.mp hselect)
        refine ⟨validate_ok hvalid, ?_⟩
        unfold DecisionDeclared
        rw [hop, hdown, ← hanswers, hchosen, hoffered]
        exact declared_congr hargs

theorem judge_refused {verdict : Verdict} {reason : String}
    (h : judge host contract state decision = .ok (.refused verdict reason)) :
    verdict = .unsupported ∨ verdict = .needs_clarification := by
  unfold judge at h
  obtain ⟨read, -, h⟩ := bind_ok.mp h
  split at h
  · exact .inl (Outcome.refused.inj (Except.ok.inj h)).1.symm
  · obtain ⟨operation, -, h⟩ := bind_ok.mp h
    obtain ⟨downstream, -, h⟩ := bind_ok.mp h
    split at h
    · exact .inr (Outcome.refused.inj (Except.ok.inj h)).1.symm
    · split at h
      · exact .inl (Outcome.refused.inj (Except.ok.inj h)).1.symm
      · obtain ⟨_, -, h⟩ := bind_ok.mp h
        obtain ⟨_, -, h⟩ := bind_ok.mp h
        obtain ⟨_, -, h⟩ := bind_ok.mp h
        cases h

/-- What a decision leaves of a state that had no selection. -/
structure Decided (contract : CliContract) (decision : Value) (state decided : CliInterpretation) :
    Prop where
  contractId : decided.contractId = state.contractId
  request : decided.request = state.request
  threadContext : decided.threadContext = state.threadContext
  candidates : decided.candidates = state.candidates
  selected : decided.verdict = .ready → ∃ selection, decided.selection = some selection ∧
    Validated contract decided.candidates selection ∧
      (Declared contract selection.operation selection.downstream
        (fun name => ∃ value, (name, value) ∈ selection.args) ↔ DecisionDeclared contract decision)

theorem decisionFailed_verdict {error : Option String} :
    (decisionFailed state error).verdict ≠ .ready := by
  unfold decisionFailed
  dsimp only
  split
  · intro h
    cases h
  · intro h
    cases h

theorem decision_ok {decided : CliInterpretation}
    (hcontract : cliContract contracts state.contractId = .ok contract)
    (h : resolveCliDecision host contracts state decision = .ok decided) :
    Decided contract decision state decided := by
  unfold resolveCliDecision at h
  rw [hcontract] at h
  obtain ⟨_, hcontract', h⟩ := bind_ok.mp h
  obtain rfl := Except.ok.inj hcontract'
  dsimp only at h
  split at h
  · next hverdict =>
    obtain rfl := Except.ok.inj h
    exact ⟨rfl, rfl, rfl, rfl, fun hready => absurd hready hverdict⟩
  · split at h
    · obtain rfl := Except.ok.inj h
      exact ⟨rfl, rfl, rfl, rfl, fun hready => absurd hready decisionFailed_verdict⟩
    · next hjudge =>
      obtain rfl := Except.ok.inj h
      refine ⟨rfl, rfl, rfl, rfl, fun hready => ?_⟩
      rcases judge_refused hjudge with hverdict | hverdict
      · exact absurd (hready.symm.trans hverdict) (by decide)
      · exact absurd (hready.symm.trans hverdict) (by decide)
    · next selection _ hjudge =>
      obtain rfl := Except.ok.inj h
      exact ⟨rfl, rfl, rfl, rfl, fun _ => ⟨selection, rfl, judge_selected hjudge⟩⟩

theorem Decided.read {decided : CliInterpretation} (h : Decided contract decision state decided)
    (hread : ReadFrom contract input state) : ReadFrom contract input decided := by
  refine ⟨h.contractId.trans hread.contractId, h.request.trans hread.request, ?_, ?_⟩
  · rw [h.threadContext]
    exact hread.context
  · rw [h.candidates]
    exact hread.spoken

end

/-! ## an extraction -/

/-- the extraction has a value for an argument: a span, or the argument's default. -/
def SpanFor (spans : Value) (entry : String × CliArgument) : Prop :=
  entry.1 ≠ "__proto__" ∧
    ((textOf (spans.get entry.1)).isSome = true ∨ entry.2.default.isSome = true)

/-- the names in an extraction are declared. -/
def ExtractionDeclared (contract : CliContract) (extraction : Value) : Prop :=
  Declared contract (asked contract (textAt extraction "operation"))
    (textAt extraction "downstream") fun name => name ≠ "downstreamCount" ∧
      ∃ arg, (name, arg) ∈ contract.arguments ∧
        SpanFor (extraction.get "argumentSpans") (name, arg)

section
variable {host : Host} {contracts : List CliContract} {contract : CliContract} {shared : Bool}
  {input extraction : Value} {state : CliInterpretation} {selection : CliSelection}
  {candidates candidates' : Candidates} {candidate : Candidate} {name span : String}
  {spans : List (String × Value)} {entry : String × CliArgument} {args : CliArgs}
  {operation downstream : String}

/-! ### its candidates -/

theorem evidence_spoken (hread : ReadFrom contract input state)
    (h : hasRequestEvidence state span = true) : Spoken input span := by
  rcases Bool.or_eq_true_iff.mp h with h | h
  · have hinfix : span.toList <:+: state.request.toList := of_decide_eq_true h
    rw [hread.request] at hinfix
    exact ⟨_, List.mem_cons_self, .inr hinfix⟩
  · obtain ⟨body, hbody, hinfix⟩ := List.any_eq_true.mp h
    exact ⟨body, List.mem_cons_of_mem _ (hread.context body hbody),
      .inl (of_decide_eq_true hinfix)⟩

theorem mem_push {other : String} {c : Candidate}
    (h : c ∈ candidatesOf (pushCandidate contract shared name candidate candidates) other) :
    c ∈ candidatesOf candidates other ∨ c = candidate := by
  unfold candidatesOf pushCandidate at h
  unfold candidatesOf
  induction candidates with
  | nil => exact absurd h List.not_mem_nil
  | cons known candidates ih =>
    have hkey : (if known.1 = name ∨ shared = true ∧ (contract.arguments.lookup known.1).any
        (fun arg => decide (arg.kind = .query)) = true then (known.1, known.2 ++ [candidate])
        else known).1 = known.1 := by
      split <;> rfl
    rw [List.map_cons, List.lookup_cons, hkey] at h
    rw [List.lookup_cons]
    split at h
    · split at h
      · rcases List.mem_append.mp h with h | h
        · exact .inl h
        · exact .inr (List.mem_singleton.mp h)
      · exact .inl h
    · exact ih h

theorem pushCandidate_spoken (h : SpokenCandidates contract input candidates)
    (hcandidate : Spoken input candidate.span) :
    SpokenCandidates contract input (pushCandidate contract shared name candidate candidates) := by
  intro other arg harg hkind c hmem
  rcases mem_push hmem with hmem | rfl
  · exact h other arg harg hkind c hmem
  · exact hcandidate

theorem newQuery_ok {arg : CliArgument} {read : Candidates × CliValue}
    (h : newQuery host contract shared candidates name arg span = .ok read) :
    read.1 = candidates ∨ ∃ value, read.1 =
      pushCandidate contract shared name ⟨value, span⟩ candidates := by
  unfold newQuery at h
  split at h
  · cases h
  · next value _ =>
    obtain ⟨_, -, h⟩ := bind_ok.mp h
    obtain rfl := Except.ok.inj h
    exact .inr ⟨.str value, rfl⟩
  · obtain rfl := Except.ok.inj h
    exact .inl rfl

theorem readText_ok {read : Candidates × CliArgs}
    (h : readText host contract shared candidates entry span = .ok read) :
    (read.1 = candidates ∨ ∃ value, read.1 =
      pushCandidate contract shared entry.1 ⟨value, span⟩ candidates) ∧
        ∃ value, read.2 = assign entry.1 value := by
  unfold readText at h
  split at h
  · obtain rfl := Except.ok.inj h
    exact ⟨.inl rfl, _, rfl⟩
  · obtain ⟨query, hquery, h⟩ := bind_ok.mp h
    obtain rfl := Except.ok.inj h
    exact ⟨newQuery_ok hquery, _, rfl⟩

theorem mem_leftOut : (∃ value, (name, value) ∈ leftOut entry) ↔
    name = entry.1 ∧ entry.1 ≠ "__proto__" ∧ entry.2.default.isSome = true := by
  unfold leftOut
  cases entry.2.default with
  | none =>
    refine not_given ?_
    rintro ⟨-, -, hsome⟩
    exact absurd hsome Bool.false_ne_true
  | some q =>
    constructor
    · rintro ⟨value, hmem⟩
      obtain ⟨rfl, -, hproto⟩ := mem_assign.mp hmem
      exact ⟨rfl, hproto, rfl⟩
    · rintro ⟨rfl, hproto, -⟩
      exact ⟨_, mem_assign.mpr ⟨rfl, rfl, hproto⟩⟩

theorem map_ok {α β : Type} {f : α → β} {x : Except String α} {b : β} (h : x.map f = .ok b) :
    ∃ a, x = .ok a ∧ f a = b := by
  cases x with
  | ok a => exact ⟨a, rfl, Except.ok.inj h⟩
  | error message => cases h

theorem get_of_lookup {key : String} {value : Option Value} (h : spans.lookup key = value) :
    (obj spans).get key = value.getD undefined := by
  show (spans.lookup key).getD undefined = _
  rw [h]

/-- **An argument is read exactly when it has a span or a default.** -/
theorem readSpan_ok {read : Candidates × CliArgs}
    (h : readSpan host contract shared state candidates spans entry = .ok read) :
    (∃ value, (name, value) ∈ read.2) ↔ name = entry.1 ∧ SpanFor (obj spans) entry := by
  have hleft {v : Value} (hspan : (obj spans).get entry.1 = v) (hnone : textOf v = none)
      (hread : read.2 = leftOut entry) :
      (∃ value, (name, value) ∈ read.2) ↔ name = entry.1 ∧ SpanFor (obj spans) entry := by
    unfold SpanFor
    rw [hread, mem_leftOut, hspan, hnone, Option.isSome_none]
    simp only [Bool.false_eq_true, false_or]
  unfold readSpan at h
  split at h
  · next span hlookup =>
    obtain ⟨_, -, h⟩ := bind_ok.mp h
    obtain ⟨-, value, hread⟩ := readText_ok h
    have hspan : textOf ((obj spans).get entry.1) = some span := by
      rw [get_of_lookup hlookup]
      rfl
    unfold SpanFor
    rw [hread, hspan, Option.isSome_some]
    constructor
    · rintro ⟨value', hmem⟩
      obtain ⟨rfl, -, hproto⟩ := mem_assign.mp hmem
      exact ⟨rfl, hproto, .inl rfl⟩
    · rintro ⟨rfl, hproto, -⟩
      exact ⟨value, mem_assign.mpr ⟨rfl, rfl, hproto⟩⟩
  · next hlookup =>
    exact hleft (get_of_lookup hlookup) rfl (congrArg Prod.snd (Except.ok.inj h)).symm
  · next hlookup =>
    exact hleft (get_of_lookup hlookup) rfl (congrArg Prod.snd (Except.ok.inj h)).symm
  · cases h
  · next hlookup =>
    split at h
    · cases h
    · exact hleft (get_of_lookup hlookup) rfl (congrArg Prod.snd (Except.ok.inj h)).symm

theorem readSpan_spoken {read : Candidates × CliArgs} (hread : ReadFrom contract input state)
    (h : SpokenCandidates contract input candidates)
    (hok : readSpan host contract shared state candidates spans entry = .ok read) :
    SpokenCandidates contract input read.1 := by
  unfold readSpan at hok
  split at hok
  · next span _ =>
    obtain ⟨_, hguard, hok⟩ := bind_ok.mp hok
    have hevidence := throwIf_ok.mp hguard
    rw [not_or, Bool.not_eq_false] at hevidence
    obtain ⟨hsame | ⟨value, hpushed⟩, -⟩ := readText_ok hok
    · rw [hsame]
      exact h
    · rw [hpushed]
      exact pushCandidate_spoken h (evidence_spoken hread hevidence.2)
  · obtain rfl := Except.ok.inj hok
    exact h
  · obtain rfl := Except.ok.inj hok
    exact h
  · cases hok
  · split at hok
    · cases hok
    · obtain rfl := Except.ok.inj hok
      exact h

/-! ### its arguments, one after the other -/

variable {entries : List (String × CliArgument)}

theorem readSpans_spoken (hread : ReadFrom contract input state)
    (h : SpokenCandidates contract input candidates) :
    SpokenCandidates contract input
      (readSpans host contract shared state spans entries candidates).1 := by
  induction entries generalizing candidates with
  | nil => exact h
  | cons entry entries ih =>
    unfold readSpans
    split
    · exact h
    · next hok => exact ih (readSpan_spoken hread h hok)

theorem readSpans_ok
    (h : (readSpans host contract shared state spans entries candidates).2 = .ok args) :
    (∃ value, (name, value) ∈ args) ↔
      ∃ arg, (name, arg) ∈ entries ∧ SpanFor (obj spans) (name, arg) := by
  induction entries generalizing candidates args with
  | nil =>
    obtain rfl := Except.ok.inj h
    refine not_given ?_
    rintro ⟨arg, hmem, -⟩
    exact absurd hmem List.not_mem_nil
  | cons entry entries ih =>
    unfold readSpans at h
    split at h
    · cases h
    · next first read hfirst =>
      obtain ⟨rest, hrest, rfl⟩ := map_ok h
      have hentry : (∃ value, (name, value) ∈ read) ↔
          name = entry.1 ∧ SpanFor (obj spans) entry := readSpan_ok hfirst
      constructor
      · rintro ⟨value, hmem⟩
        rcases List.mem_append.mp hmem with hmem | hmem
        · obtain ⟨rfl, hspan⟩ := hentry.mp ⟨value, hmem⟩
          exact ⟨entry.2, List.mem_cons_self, hspan⟩
        · obtain ⟨arg, harg, hspan⟩ := (ih hrest).mp ⟨value, hmem⟩
          exact ⟨arg, List.mem_cons_of_mem _ harg, hspan⟩
      · rintro ⟨arg, harg, hspan⟩
        rcases List.mem_cons.mp harg with rfl | harg
        · obtain ⟨value, hmem⟩ := hentry.mpr ⟨rfl, hspan⟩
          exact ⟨value, List.mem_append_left _ hmem⟩
        · obtain ⟨value, hmem⟩ := (ih hrest).mpr ⟨arg, harg, hspan⟩
          exact ⟨value, List.mem_append_right _ hmem⟩

/-! ### its selection -/

theorem readExtraction_ok (h : readExtraction contract state extraction = .ok spans) :
    extraction.get "argumentSpans" = obj spans := by
  unfold readExtraction at h
  split at h
  · next hspans =>
    obtain ⟨_, -, h⟩ := bind_ok.mp h
    split at h
    · next fields hfields =>
      obtain ⟨_, -, h⟩ := bind_ok.mp h
      obtain rfl := Except.ok.inj h
      exact hfields
    · cases h
  · cases h

theorem mem_extracted :
    (∃ value, (name, value) ∈ (extracted contract operation downstream args).args) ↔
      name ≠ "downstreamCount" ∧ ∃ value, (name, value) ∈ args := by
  constructor
  · rintro ⟨value, hmem⟩
    obtain ⟨hmem, hname⟩ := List.mem_filter.mp hmem
    exact ⟨of_decide_eq_true hname, value, hmem⟩
  · rintro ⟨hname, value, hmem⟩
    exact ⟨value, List.mem_filter.mpr ⟨hmem, decide_eq_true hname⟩⟩

/-- **What an extraction selects has passed the checks, and has its names from the extraction.** -/
theorem extract_ok
    (h : (extract host contract shared state extraction operation downstream).2 = .ok selection) :
    Validated contract (extract host contract shared state extraction operation downstream).1
        selection ∧
      selection.operation = asked contract operation ∧ selection.downstream = downstream ∧
        ∀ name, (∃ value, (name, value) ∈ selection.args) ↔ name ≠ "downstreamCount" ∧
          ∃ arg, (name, arg) ∈ contract.arguments ∧
            SpanFor (extraction.get "argumentSpans") (name, arg) := by
  unfold extract at h ⊢
  split at h
  · cases h
  · next spans hspans =>
    dsimp only at h ⊢
    obtain ⟨args, hargs, h⟩ := bind_ok.mp h
    obtain ⟨_, hvalid, h⟩ := bind_ok.mp h
    obtain rfl := Except.ok.inj h
    refine ⟨validate_ok hvalid, rfl, rfl, fun name => ?_⟩
    rw [mem_extracted, readSpans_ok (lifted_ok.mp hargs), readExtraction_ok hspans]

theorem extracted_spoken (hread : ReadFrom contract input state) :
    SpokenCandidates contract input
      (extract host contract shared state extraction operation downstream).1 := by
  unfold extract
  split
  · exact hread.spoken
  · exact readSpans_spoken hread hread.spoken

/-- A selection that passed the checks over spoken candidates, and when its names are declared. -/
structure Selected (contract : CliContract) (input : Value) (state : CliInterpretation)
    (selection : CliSelection) (declared : Prop) : Prop where
  chosen : state.selection = some selection
  validated : Validated contract state.candidates selection
  spoken : SpokenCandidates contract input state.candidates
  names : Declared contract selection.operation selection.downstream
    (fun name => ∃ value, (name, value) ∈ selection.args) ↔ declared

theorem Selected.grounded_iff {declared : Prop}
    (h : Selected contract input state selection declared) :
    Grounded contract input state.candidates selection ↔ declared :=
  (h.validated.grounded_iff h.spoken).trans h.names

theorem resolveReady_ok (hcontract : cliContract contracts state.contractId = .ok contract)
    (hread : ReadFrom contract input state) (hoperation : textAt extraction "operation" = operation)
    (hdownstream : textAt extraction "downstream" = downstream)
    (h : (resolveReady host contracts shared state extraction operation downstream).verdict =
      .ready) :
    ∃ selection, Selected contract input
      (resolveReady host contracts shared state extraction operation downstream) selection
        (ExtractionDeclared contract extraction) := by
  unfold resolveReady at h ⊢
  rw [hcontract] at h ⊢
  dsimp only at h ⊢
  split at h
  · cases h
  · next hunsupported =>
    rw [if_neg hunsupported]
    split at h
    · cases h
    · next selection hextract =>
      obtain ⟨hvalid, hop, hdown, hargs⟩ := extract_ok hextract
      refine ⟨selection, ⟨rfl, hvalid, extracted_spoken hread, ?_⟩⟩
      unfold ExtractionDeclared
      rw [hop, hdown, hoperation, hdownstream]
      exact declared_congr hargs

/-- **What the extraction makes ready was selected from it.** -/
theorem fallback_ok (hcontract : cliContract contracts state.contractId = .ok contract)
    (hread : ReadFrom contract input state) (hverdict : state.verdict = .fallback)
    (h : (resolveCliFallback host contracts shared state extraction).verdict = .ready) :
    ∃ selection, Selected contract input
      (resolveCliFallback host contracts shared state extraction) selection
        (ExtractionDeclared contract extraction) := by
  have hread' : ReadFrom contract input { state with modelCalls := state.modelCalls + 1 } :=
    ⟨hread.contractId, hread.request, hread.context, hread.spoken⟩
  unfold resolveCliFallback at h ⊢
  rw [if_neg (not_not.mpr hverdict)] at h ⊢
  dsimp only at h ⊢
  split at h
  · next status operation downstream hstatus hoperation hdownstream =>
    split at h
    · next hready =>
      rw [if_pos hready]
      exact resolveReady_ok hcontract hread' (textAt_eq hoperation) (textAt_eq hdownstream) h
    · split at h
      · cases h
      · split at h
        · cases h
        · cases h
  · cases h

end

/-! ## both -/

/-- the names that a ready interpretation goes by are declared: those of the extraction, where the
decision fell back on it, and else those of the decision. -/
def NamesDeclared (contract : CliContract) (decided : CliInterpretation)
    (decision extraction : Value) : Prop :=
  (decided.verdict = .fallback → ExtractionDeclared contract extraction) ∧
    (decided.verdict ≠ .fallback → DecisionDeclared contract decision)

section
variable {host : Host} {contracts : List CliContract} {contract : CliContract} {shared : Bool}
  {input decision extraction : Value} {now : ℤ} {prepared decided : CliInterpretation}
  {selection : CliSelection}

theorem cliContract_id {id : String} (h : cliContract contracts id = .ok contract) :
    contract.id = id := by
  have hfound : contracts.find? (fun contract => decide (contract.id = id)) = some contract :=
    orThrow_ok.mp h
  exact of_decide_eq_true (List.find?_some hfound :)

/-- **A selection that counts is grounded exactly when its names are declared.** -/
theorem ready_grounded_iff
    (hcontract : cliContract contracts (host.text (input.get "contractId")) = .ok contract)
    (hprepared : prepareCliInterpretation host contracts now input = .ok prepared)
    (hdecided : resolveCliDecision host contracts prepared decision = .ok decided)
    (hready : (resolveCliFallback host contracts shared decided extraction).verdict = .ready)
    (hselection : (resolveCliFallback host contracts shared decided extraction).selection =
      some selection) :
    Grounded contract input (resolveCliFallback host contracts shared decided extraction).candidates
      selection ↔ NamesDeclared contract decided decision extraction := by
  obtain ⟨hread, hnone, -⟩ := prepare_read hcontract hprepared
  have hid : cliContract contracts prepared.contractId = .ok contract := by
    rw [hread.contractId, cliContract_id hcontract]
    exact hcontract
  have hdecision := decision_ok hid hdecided
  have hread' := hdecision.read hread
  by_cases hverdict : decided.verdict = .fallback
  · have hid' : cliContract contracts decided.contractId = .ok contract := by
      rw [hdecision.contractId]
      exact hid
    obtain ⟨selected, hselected⟩ := fallback_ok hid' hread' hverdict hready
    obtain rfl := Option.some.inj (hselected.chosen.symm.trans hselection)
    rw [hselected.grounded_iff]
    exact ⟨fun h => ⟨fun _ => h, fun hnot => absurd hverdict hnot⟩, fun h => h.1 hverdict⟩
  · have hsame : resolveCliFallback host contracts shared decided extraction = decided :=
      if_pos hverdict
    rw [hsame] at hready hselection ⊢
    obtain ⟨selected, hselected, hvalid, hdeclared⟩ := hdecision.selected hready
    obtain rfl := Option.some.inj (hselected.symm.trans hselection)
    rw [hvalid.grounded_iff hread'.spoken, hdeclared]
    exact ⟨fun h => ⟨fun hfall => absurd hfall hverdict, fun _ => h⟩, fun h => h.2 hverdict⟩

end

/-! ## a search -/

/-- a platform for numerals of digits, and a choice that is certain. -/
def plainHost : Host where
  number text := .finite (text.foldl (fun n c => 10 * n + (c.toNat - 48)) 0 : ℕ)
  round q := .finite q
  toLowerCase text := text
  text value := (textOf value).getD ""
  offUnity _ := .ok false
  underShare _ := .ok false
  regExp _ := .ok fun _ => false
  inheritedText name := name
  notAFunction := "undefined is not a function"

def notesContract : CliContract where
  id := "notes.read.v1"
  operations := [("search", "Search the notes")]
  arguments := [("query", { kind := .query, default := none, min := none, max := none })]
  required := [("search", ["query"])]
  applicable := [("search", ["query"])]
  defaultOperation := "search"
  explicitSources := []
  argv _ _ := .ok ["notes"]

def notesInput : Value :=
  obj [("contractId", str "notes.read.v1"), ("request", str "find new rules")]

/-- an extraction that finds its query in the request. -/
def notesExtraction (downstream : String) : Value :=
  obj [("status", str "ready"), ("operation", str "search"), ("downstream", str downstream),
    ("intentSpan", str "find"), ("argumentSpans", obj [("query", str "new rules")])]

def notesPrepared : CliInterpretation where
  request := "find new rules"
  contractId := "notes.read.v1"
  candidates := [("query", [])]
  selection := none
  verdict := .ready
  reason := ""
  disclosures := []
  modelCalls := 0
  usage := []
  startedAt := 0
  currentCandidateValues := none
  threadContext := undefined
  omittedContextCandidates := none

/-- there is no answer, and the extraction is asked. -/
def notesDecided : CliInterpretation :=
  { notesPrepared with
    modelCalls := 1
    usage := [⟨null, null, null⟩]
    verdict := .fallback
    reason := "decision_error" }

def notesSelection (downstream : String) : CliSelection where
  operation := "search"
  args := [("query", .str "new rules")]
  downstream
  downstreamCount := none

theorem notes_prepared :
    prepareCliInterpretation plainHost [notesContract] 0 notesInput = .ok notesPrepared := by
  rfl

theorem notes_decided :
    resolveCliDecision plainHost [notesContract] notesPrepared null = .ok notesDecided := by
  rfl

/-- the outcome of the extraction, whatever is to be done with the records. -/
def notesResolved (downstream : String) : CliInterpretation :=
  resolveCliFallback plainHost [notesContract] true notesDecided (notesExtraction downstream)

theorem ready_grounded_iff_notes :
    Grounded notesContract notesInput (notesResolved "none").candidates (notesSelection "none") := by
  refine (ready_grounded_iff rfl notes_prepared notes_decided rfl rfl).mpr
    ⟨fun _ => ?_, fun hfall => ?_⟩
  · refine ⟨by decide +kernel, by decide +kernel, fun name hname hinherited => ?_⟩
    obtain rfl : name = "query" := List.mem_singleton.mp hname
    exact absurd hinherited (by decide +kernel)
  · exact absurd rfl hfall

/-- **An extraction can have done with the records what every object has the name of.** -/
theorem inherited_downstream :
    prepareCliInterpretation plainHost [notesContract] 0 notesInput = .ok notesPrepared ∧
    resolveCliDecision plainHost [notesContract] notesPrepared null = .ok notesDecided ∧
    (notesResolved "toString").verdict = .ready ∧
    (notesResolved "toString").selection = some (notesSelection "toString") ∧
    ¬Grounded notesContract notesInput (notesResolved "toString").candidates
      (notesSelection "toString") := by
  refine ⟨notes_prepared, notes_decided, rfl, rfl, fun h => ?_⟩
  have hoffered : "toString" ∈ downstreamOptions := h.downstream
  exact absurd hoffered (by decide +kernel)

end Cli
end Pipelines
end WmAutopilot
