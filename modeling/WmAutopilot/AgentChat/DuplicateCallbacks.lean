import Mathlib.Data.List.MinMax
import Mathlib.Data.List.TakeWhile
import Mathlib.Data.String.Basic
import Mathlib.Algebra.Order.Group.Int
import WmAutopilot.Sql.Table

/-!
# Duplicate callbacks

A response that begins with the marker of its workspace is not published when the last publication
on its routing key was made at most one window before.

* `Decision`, `recordSuppressed`, `recordPublished`   the table of decisions;
* `getPreviousPublished`       the publication with the greatest `published_at`;
* `beginsWithMarker`           the marker at the start of a response;
* `evaluate`                   what becomes of a response;
* `suppression_rule`           the rule, and that it is remembered.

Texts that are cut are lists of their UTF-16 code units.
-/

set_option autoImplicit false
set_option linter.unusedVariables false

namespace WmAutopilot
namespace AgentChat
namespace DuplicateCallback
open Sql

/-- UTF-16 code units. -/
abbrev Text := List ℕ

/-- What is used of the platform. -/
structure Host where
  /-- `Date.parse(value)`; `none` is `NaN`. -/
  dateParse : String → Option ℤ
  /-- `text.toLocaleLowerCase('en-US')` -/
  lower : Text → Text

/-! ## decisions -/

/-- `DuplicateCallbackPublicationFilterConfig`; a window is a whole number of seconds
(`normaliseDuplicateCallbackWindowSeconds`). -/
structure Config where
  marker : Text
  windowSeconds : ℕ

inductive Outcome where
  | published
  | suppressed
  deriving DecidableEq, Repr

inductive Reason where
  | policyMissing
  | disabled
  | markerNotAtStart
  | timingEvidenceMissing
  | outsideWindow
  | duplicateCallbackWithinWindow
  | published
  deriving DecidableEq, Repr

/-- a row of `flightdeck_direct_chat_publication_decisions`. -/
structure Decision where
  decisionId : String
  routingKey : String
  outcome : Outcome
  reason : Reason
  marker : Option Text
  candidateAt : String
  previousPublishedAt : Option String
  publishedAt : Option String
  publishedMessageId : Option String
  createdAt : String
  deriving DecidableEq, Repr

def get (decisions : List Decision) (decisionId : String) : Option Decision :=
  decisions.find? (·.decisionId = decisionId)

/-- the decision was published on the routing key. -/
def publishedOn (routingKey : String) (d : Decision) : Prop :=
  d.routingKey = routingKey ∧ d.outcome = .published ∧ d.publishedAt ≠ none

instance (routingKey : String) : DecidablePred (publishedOn routingKey) :=
  fun d => inferInstanceAs (Decidable (_ ∧ _ ∧ _))

/-- `ORDER BY published_at DESC LIMIT 1` -/
def getPreviousPublished (decisions : List Decision) (routingKey : String) : Option Decision :=
  (decisions.filter (publishedOn routingKey)).argmax fun d => d.publishedAt.getD ""

/-- `ON CONFLICT(decision_id) DO NOTHING` -/
def recordSuppressed (decisionId routingKey : String) (marker : Text)
    (candidateAt previousPublishedAt createdAt : String) (decisions : List Decision) :
    List Decision :=
  if ∃ d ∈ decisions, d.decisionId = decisionId then decisions
  else decisions ++
    [{ decisionId, routingKey, outcome := .suppressed, reason := .duplicateCallbackWithinWindow
       marker := some marker, candidateAt, previousPublishedAt := some previousPublishedAt
       publishedAt := none, publishedMessageId := none, createdAt }]

/-- `ON CONFLICT(decision_id) DO UPDATE` -/
def recordPublished (decisionId routingKey candidateAt publishedAt publishedMessageId
    createdAt : String) (decisions : List Decision) : List Decision :=
  if ∃ d ∈ decisions, d.decisionId = decisionId then
    update (fun d => d.decisionId = decisionId)
      (fun d => { d with
        outcome := .published, reason := .published, marker := none
        publishedAt := some publishedAt, publishedMessageId := some publishedMessageId }) decisions
  else decisions ++
    [{ decisionId, routingKey, outcome := .published, reason := .published, marker := none
       candidateAt, previousPublishedAt := none, publishedAt := some publishedAt
       publishedMessageId := some publishedMessageId, createdAt }]

/-! ## the filter -/

def validTimestamp (host : Host) (value : Option String) : Option ℤ :=
  match value with
  | none => none
  | some text => if text = "" then none else host.dateParse text

/-- a tab or a space. -/
def horizontal (u : ℕ) : Bool := u = 9 ∨ u = 32

def beginsWithMarker (host : Host) (body marker : Text) : Bool :=
  match body.dropWhile horizontal with
  | [] => false
  | u :: rest => host.lower ((u :: rest).take marker.length) = host.lower marker

/-- a candidate for publication. -/
structure Candidate where
  subscriptionId : String
  agentNpub : String
  decisionId : String
  routingKey : String
  body : Text
  candidateAt : String

/-- `DuplicateCallbackFilterEvaluation`; `elapsed` are the elapsed seconds in milliseconds. -/
structure Evaluation where
  suppress : Bool
  reason : Reason
  previousPublishedAt : Option String := none
  elapsed : Option ℤ := none
  deriving DecidableEq, Repr

/-- the time from a publication to a candidate. -/
def elapsedOf (host : Host) (candidateAt publishedAt : Option String) : Option ℤ := do
  let candidate ← validTimestamp host candidateAt
  let previous ← validTimestamp host publishedAt
  pure (candidate - previous)

/-- What becomes of a candidate, at the given time, with the policy of its route. -/
def evaluate (host : Host) (resolveConfig : Candidate → Option Config) (now : String)
    (input : Candidate) (decisions : List Decision) : Evaluation × List Decision :=
  match (get decisions input.decisionId).filter (·.outcome = .suppressed) with
  | some existing =>
    ({ suppress := true, reason := .duplicateCallbackWithinWindow
       previousPublishedAt := existing.previousPublishedAt
       elapsed := elapsedOf host (some existing.candidateAt) existing.previousPublishedAt },
      decisions)
  | none =>
    match resolveConfig input with
    | none => ({ suppress := false, reason := .policyMissing }, decisions)
    | some config =>
      if config.marker = [] ∨ config.windowSeconds = 0 then
        ({ suppress := false, reason := .disabled }, decisions)
      else if ¬beginsWithMarker host input.body config.marker then
        ({ suppress := false, reason := .markerNotAtStart }, decisions)
      else
        let previousPublishedAt :=
          (getPreviousPublished decisions input.routingKey).bind (·.publishedAt)
        match elapsedOf host (some input.candidateAt) previousPublishedAt with
        | none =>
          ({ suppress := false, reason := .timingEvidenceMissing, previousPublishedAt }, decisions)
        | some elapsed =>
          if elapsed < 0 ∨ 1000 * config.windowSeconds < elapsed then
            ({ suppress := false, reason := .outsideWindow, previousPublishedAt
               elapsed := some elapsed }, decisions)
          else
            ({ suppress := true, reason := .duplicateCallbackWithinWindow, previousPublishedAt
               elapsed := some elapsed },
              recordSuppressed input.decisionId input.routingKey config.marker input.candidateAt
                (previousPublishedAt.getD "") now decisions)

/-! ## the rule -/

/-- after its tabs and spaces a response begins with the marker, in any case. -/
def Begins (host : Host) (body marker : Text) : Prop :=
  ∃ blanks start rest, body = blanks ++ start ++ rest ∧ (∀ u ∈ blanks, horizontal u) ∧
    (∀ u ∈ (start ++ rest).head?, ¬horizontal u) ∧ start ≠ [] ∧
    start = (start ++ rest).take marker.length ∧ host.lower start = host.lower marker

/-- a publication is at most one window before a candidate. -/
def InWindow (host : Host) (window : ℕ) (candidateAt : String) (d : Decision) : Prop :=
  ∃ candidate published, validTimestamp host (some candidateAt) = some candidate ∧
    validTimestamp host d.publishedAt = some published ∧
    0 ≤ candidate - published ∧ candidate - published ≤ 1000 * window

/-- the publication on the routing key with the greatest `published_at`. -/
def Latest (decisions : List Decision) (routingKey : String) (d : Decision) : Prop :=
  d ∈ decisions ∧ publishedOn routingKey d ∧
    ∀ d' ∈ decisions, publishedOn routingKey d' → d'.publishedAt.getD "" ≤ d.publishedAt.getD ""

section
variable {host : Host} {resolveConfig : Candidate → Option Config} {now : String}
  {input : Candidate} {decisions : List Decision} {config : Config} {d : Decision}

theorem beginsWithMarker_iff {body marker : Text} (hmarker : marker ≠ []) :
    beginsWithMarker host body marker = true ↔ Begins host body marker := by
  have hsplit : body.takeWhile horizontal ++ body.dropWhile horizontal = body :=
    List.takeWhile_append_dropWhile
  unfold beginsWithMarker Begins
  constructor
  · intro h
    split at h
    · cases h
    rename_i u rest hdrop
    have hcut : (u :: rest).take marker.length ++ (u :: rest).drop marker.length = u :: rest :=
      List.take_append_drop _ _
    refine ⟨body.takeWhile horizontal, (u :: rest).take marker.length,
      (u :: rest).drop marker.length, ?_, ?_, ?_, ?_, ?_, of_decide_eq_true h⟩
    · rw [List.append_assoc, hcut, ← hdrop, hsplit]
    · exact fun u hu => List.mem_takeWhile_imp hu
    · rw [hcut]
      intro v hv
      obtain rfl : u = v := Option.some.inj hv
      have := List.head?_dropWhile_not horizontal body
      rw [hdrop] at this
      simpa using this
    · intro hnil
      rcases List.take_eq_nil_iff.mp hnil with h | h
      · exact hmarker (List.length_eq_zero_iff.mp h)
      · cases h
    · rw [hcut]
  · rintro ⟨blanks, start, rest, hbody, hblanks, hhead, hstart, hlen, hlower⟩
    have hdrop : body.dropWhile horizontal = start ++ rest := by
      rw [hbody, List.append_assoc, List.dropWhile_append, List.dropWhile_eq_nil_iff.mpr hblanks]
      cases hsr : start ++ rest with
      | nil => rfl
      | cons u tail =>
        rw [hsr] at hhead
        simpa using hhead u rfl
    cases hsr : start ++ rest with
    | nil => exact absurd (List.append_eq_nil_iff.mp hsr).1 hstart
    | cons u tail =>
      rw [hdrop, hsr]
      rw [hsr] at hlen
      exact decide_eq_true (hlen ▸ hlower)

theorem getPreviousPublished_some {routingKey : String}
    (h : getPreviousPublished decisions routingKey = some d) : Latest decisions routingKey d := by
  unfold getPreviousPublished at h
  have hmem := List.argmax_mem (Option.mem_def.mpr h)
  rw [List.mem_filter, decide_eq_true_iff] at hmem
  refine ⟨hmem.1, hmem.2, fun d' hd' hp => ?_⟩
  exact List.le_of_mem_argmax (List.mem_filter.mpr ⟨hd', decide_eq_true hp⟩) (Option.mem_def.mpr h)

/-- publications of one time have one text. -/
theorem Latest.publishedAt_eq {routingKey : String} {d' : Decision}
    (h : Latest decisions routingKey d) (h' : Latest decisions routingKey d') :
    d.publishedAt = d'.publishedAt := by
  obtain ⟨hm, hp, hmax⟩ := h
  obtain ⟨hm', hp', hmax'⟩ := h'
  have heq : d.publishedAt.getD "" = d'.publishedAt.getD "" :=
    le_antisymm (hmax' d hm hp) (hmax d' hm' hp')
  obtain ⟨-, -, hn⟩ := hp
  obtain ⟨-, -, hn'⟩ := hp'
  obtain ⟨at₁, h₁⟩ := Option.ne_none_iff_exists'.mp hn
  obtain ⟨at₂, h₂⟩ := Option.ne_none_iff_exists'.mp hn'
  rw [h₁, h₂] at heq ⊢
  exact congrArg some heq

theorem exists_previous {routingKey : String} (h : Latest decisions routingKey d) :
    ∃ d', getPreviousPublished decisions routingKey = some d' := by
  rw [← Option.isSome_iff_exists, ← Option.ne_none_iff_isSome]
  unfold getPreviousPublished
  rw [Ne, List.argmax_eq_none, List.filter_eq_nil_iff]
  exact fun hnone => hnone d h.1 (decide_eq_true h.2.1)

theorem elapsedOf_eq_some {candidateAt publishedAt : Option String} {elapsed : ℤ} :
    elapsedOf host candidateAt publishedAt = some elapsed ↔
      ∃ candidate published, validTimestamp host candidateAt = some candidate ∧
        validTimestamp host publishedAt = some published ∧ candidate - published = elapsed := by
  unfold elapsedOf
  cases validTimestamp host candidateAt with
  | none => simp
  | some candidate =>
    cases validTimestamp host publishedAt with
    | none => simp
    | some published => simp

/-- **The rule** for a candidate that was not suppressed before. -/
theorem evaluate_suppress_iff
    (hnew : (get decisions input.decisionId).filter (·.outcome = .suppressed) = none)
    (hconfig : resolveConfig input = some config) (hmarker : config.marker ≠ [])
    (hwindow : 0 < config.windowSeconds) :
    (evaluate host resolveConfig now input decisions).1.suppress = true ↔
      Begins host input.body config.marker ∧
        ∃ d, Latest decisions input.routingKey d ∧
          InWindow host config.windowSeconds input.candidateAt d := by
  have henabled : ¬(config.marker = [] ∨ config.windowSeconds = 0) := by
    rintro (h | h)
    · exact hmarker h
    · omega
  unfold evaluate
  rw [hnew, hconfig]
  dsimp only
  rw [if_neg henabled, ← beginsWithMarker_iff hmarker]
  by_cases hbegins : beginsWithMarker host input.body config.marker = true
  case neg =>
    rw [if_pos hbegins]
    exact ⟨nofun, fun h => absurd h.1 hbegins⟩
  rw [if_neg (not_not.mpr hbegins)]
  -- the window of the publication that is looked up
  have hlatest : (∃ d, Latest decisions input.routingKey d ∧
      InWindow host config.windowSeconds input.candidateAt d) ↔
      ∃ elapsed, elapsedOf host (some input.candidateAt)
        ((getPreviousPublished decisions input.routingKey).bind (·.publishedAt)) = some elapsed ∧
        0 ≤ elapsed ∧ elapsed ≤ 1000 * config.windowSeconds := by
    constructor
    · rintro ⟨d, hd, candidate, published, hc, hp, hle⟩
      obtain ⟨d', hd'⟩ := exists_previous hd
      refine ⟨candidate - published, ?_, hle⟩
      rw [elapsedOf_eq_some, hd']
      refine ⟨candidate, published, hc, ?_, rfl⟩
      rw [← hp, hd.publishedAt_eq (getPreviousPublished_some hd')]
      rfl
    · rintro ⟨elapsed, helapsed, hle⟩
      obtain ⟨candidate, published, hc, hp, rfl⟩ := elapsedOf_eq_some.mp helapsed
      cases hprev : getPreviousPublished decisions input.routingKey with
      | none =>
        rw [hprev] at hp
        cases hp
      | some d =>
        rw [hprev] at hp
        exact ⟨d, getPreviousPublished_some hprev, candidate, published, hc, hp, hle⟩
  rw [hlatest]
  cases helapsed : elapsedOf host (some input.candidateAt)
      ((getPreviousPublished decisions input.routingKey).bind (·.publishedAt)) with
  | none => exact ⟨nofun, fun ⟨_, _, h, _⟩ => nomatch h⟩
  | some elapsed =>
    dsimp only
    by_cases hout : elapsed < 0 ∨ 1000 * (config.windowSeconds : ℤ) < elapsed
    · rw [if_pos hout]
      refine ⟨nofun, fun ⟨_, _, h, h₀, h₁⟩ => ?_⟩
      obtain rfl := Option.some.inj h
      omega
    · rw [if_neg hout]
      exact ⟨fun _ => ⟨hbegins, elapsed, rfl, by omega, by omega⟩, fun _ => rfl⟩

/-- **Without a later publication** the last one is in the window when any is. -/
theorem latest_inWindow {routingKey candidateAt : String} {window : ℕ} {candidate : ℤ}
    (hcandidate : validTimestamp host (some candidateAt) = some candidate)
    (hbefore : ∀ d ∈ decisions, publishedOn routingKey d →
      ∃ published, validTimestamp host d.publishedAt = some published ∧ published ≤ candidate)
    (hsorted : ∀ d ∈ decisions, ∀ d' ∈ decisions, publishedOn routingKey d →
      publishedOn routingKey d' → ∀ published ∈ validTimestamp host d.publishedAt,
      ∀ published' ∈ validTimestamp host d'.publishedAt,
      d.publishedAt.getD "" ≤ d'.publishedAt.getD "" → published ≤ published') :
    (∃ d, Latest decisions routingKey d ∧ InWindow host window candidateAt d) ↔
      ∃ d ∈ decisions, publishedOn routingKey d ∧ InWindow host window candidateAt d := by
  constructor
  · rintro ⟨d, hd, hin⟩
    exact ⟨d, hd.1, hd.2.1, hin⟩
  · rintro ⟨d, hd, hp, candidate', published, hc, hpub, hle⟩
    obtain rfl : candidate = candidate' := Option.some.inj (hcandidate.symm.trans hc)
    have hne : (decisions.filter (publishedOn routingKey)).argmax (fun d => d.publishedAt.getD "") ≠
        none := by
      rw [Ne, List.argmax_eq_none, List.filter_eq_nil_iff]
      exact fun hnone => hnone d hd (decide_eq_true hp)
    obtain ⟨last, hlast⟩ := Option.ne_none_iff_exists'.mp hne
    have hlatest : Latest decisions routingKey last := getPreviousPublished_some hlast
    obtain ⟨published', hpub', hle'⟩ := hbefore last hlatest.1 hlatest.2.1
    have hmono := hsorted d hd last hlatest.1 hp hlatest.2.1 published hpub published' hpub'
      (hlatest.2.2 d hd hp)
    exact ⟨last, hlatest, candidate, published', hc, hpub', by omega, by omega⟩

end

/-! ## histories -/

/-- the operations of a filter. -/
inductive Op where
  | evaluate (resolveConfig : Candidate → Option Config) (now : String) (input : Candidate)
  | recordPublished (decisionId routingKey candidateAt publishedAt publishedMessageId
      createdAt : String)

def Op.run (host : Host) (decisions : List Decision) : Op → List Decision
  | evaluate resolveConfig now input =>
    (DuplicateCallback.evaluate host resolveConfig now input decisions).2
  | recordPublished decisionId routingKey candidateAt publishedAt publishedMessageId createdAt =>
    DuplicateCallback.recordPublished decisionId routingKey candidateAt publishedAt
      publishedMessageId createdAt decisions

/-- the operation records the decision as published. -/
def Op.publishes (decisionId : String) : Op → Prop
  | evaluate .. => False
  | recordPublished id .. => id = decisionId

/-- the decision was suppressed. -/
def Suppressed (decisions : List Decision) (decisionId : String) : Prop :=
  ∃ d, get decisions decisionId = some d ∧ d.outcome = .suppressed

section
variable {host : Host} {resolveConfig : Candidate → Option Config} {now : String}
  {input : Candidate} {decisions : List Decision} {decisionId : String}

theorem Suppressed.evaluate (h : Suppressed decisions input.decisionId) :
    (DuplicateCallback.evaluate host resolveConfig now input decisions).1.suppress = true := by
  obtain ⟨d, hd, hs⟩ := h
  have hfilter : (get decisions input.decisionId).filter (·.outcome = .suppressed) = some d := by
    rw [hd, Option.filter_some, if_pos (decide_eq_true hs)]
  unfold DuplicateCallback.evaluate
  rw [hfilter]

theorem recordSuppressed_new {id routingKey candidateAt previousPublishedAt createdAt : String}
    {marker : Text} (h : get decisions id = none) :
    Suppressed (recordSuppressed id routingKey marker candidateAt previousPublishedAt createdAt
      decisions) id := by
  have hnone : ¬∃ d ∈ decisions, d.decisionId = id := by
    rintro ⟨d, hd, hid⟩
    exact List.find?_eq_none.mp h d hd (decide_eq_true hid)
  unfold recordSuppressed
  rw [if_neg hnone]
  refine ⟨{ decisionId := id, routingKey, outcome := .suppressed
            reason := .duplicateCallbackWithinWindow, marker := some marker, candidateAt
            previousPublishedAt := some previousPublishedAt, publishedAt := none
            publishedMessageId := none, createdAt }, ?_, rfl⟩
  unfold get at h ⊢
  rw [List.find?_append, h, Option.none_or, List.find?_cons, decide_eq_true rfl]

theorem Suppressed.recordSuppressed {id routingKey candidateAt previousPublishedAt createdAt : String}
    {marker : Text} (h : Suppressed decisions decisionId) :
    Suppressed (DuplicateCallback.recordSuppressed id routingKey marker candidateAt
      previousPublishedAt createdAt decisions) decisionId := by
  unfold DuplicateCallback.recordSuppressed
  split
  · exact h
  · obtain ⟨d, hd, hs⟩ := h
    refine ⟨d, ?_, hs⟩
    unfold get at hd ⊢
    rw [List.find?_append, hd, Option.some_or]

/-- What an evaluation writes: nothing when the decision was suppressed before or is not now. -/
theorem evaluate_writes : (DuplicateCallback.evaluate host resolveConfig now input decisions).2 =
      decisions ∧
      ((DuplicateCallback.evaluate host resolveConfig now input decisions).1.suppress = true →
        Suppressed decisions input.decisionId) ∨
    ∃ marker previousPublishedAt,
      (DuplicateCallback.evaluate host resolveConfig now input decisions).2 =
      recordSuppressed input.decisionId input.routingKey marker input.candidateAt
        previousPublishedAt now decisions := by
  unfold DuplicateCallback.evaluate
  split
  · rename_i existing hexisting
    obtain ⟨hget, hs⟩ := Option.filter_eq_some_iff.mp hexisting
    exact Or.inl ⟨rfl, fun _ => ⟨existing, hget, of_decide_eq_true hs⟩⟩
  split
  · exact Or.inl ⟨rfl, nofun⟩
  split
  · exact Or.inl ⟨rfl, nofun⟩
  split
  · exact Or.inl ⟨rfl, nofun⟩
  dsimp only
  split
  · exact Or.inl ⟨rfl, nofun⟩
  split
  · exact Or.inl ⟨rfl, nofun⟩
  · exact Or.inr ⟨_, _, rfl⟩

/-- a suppressed decision stays so until it is recorded as published. -/
theorem Suppressed.run {op : Op} (h : Suppressed decisions decisionId)
    (hop : ¬op.publishes decisionId) : Suppressed (op.run host decisions) decisionId := by
  cases op with
  | evaluate resolveConfig now input =>
    show Suppressed (DuplicateCallback.evaluate host resolveConfig now input decisions).2 decisionId
    rcases @evaluate_writes host resolveConfig now input decisions with ⟨hw, -⟩ | ⟨_, _, hw⟩
    · rw [hw]
      exact h
    · rw [hw]
      exact h.recordSuppressed
  | recordPublished id routingKey candidateAt publishedAt publishedMessageId createdAt =>
    have hne : id ≠ decisionId := hop
    obtain ⟨d, hd, hs⟩ := h
    obtain ⟨hmem, hid⟩ := mem_of_find hd
    refine ⟨d, ?_, hs⟩
    show get (recordPublished id routingKey candidateAt publishedAt publishedMessageId createdAt
      decisions) decisionId = some d
    unfold recordPublished
    split
    · unfold get at hd ⊢
      unfold Sql.update
      rw [List.find?_map]
      have hsame : ((fun x : Decision => decide (x.decisionId = decisionId)) ∘ fun x =>
          if x.decisionId = id then { x with
            outcome := .published, reason := .published, marker := none
            publishedAt := some publishedAt, publishedMessageId := some publishedMessageId }
          else x) = fun x => decide (x.decisionId = decisionId) := by
        funext x
        by_cases hx : x.decisionId = id
        · simp only [Function.comp_apply, if_pos hx]
        · simp only [Function.comp_apply, if_neg hx]
      rw [hsame, hd]
      have hdid : d.decisionId ≠ id := fun heq => hne (heq.symm.trans hid)
      exact congrArg some (if_neg hdid)
    · unfold get at hd ⊢
      rw [List.find?_append, hd, Option.some_or]

theorem Suppressed.runs {ops : List Op} (h : Suppressed decisions decisionId)
    (hops : ∀ op ∈ ops, ¬op.publishes decisionId) :
    Suppressed (ops.foldl (Op.run host) decisions) decisionId := by
  induction ops generalizing decisions with
  | nil => exact h
  | cons op ops ih =>
    rw [List.foldl_cons]
    exact ih (h.run (hops op List.mem_cons_self))
      fun op' hop' => hops op' (List.mem_cons_of_mem _ hop')

/-- a decision that was not published is suppressed when an evaluation says so. -/
theorem suppressed_of_evaluate (hnew : ∀ d ∈ get decisions input.decisionId, d.outcome ≠ .published)
    (hsuppress : (evaluate host resolveConfig now input decisions).1.suppress = true) :
    Suppressed (evaluate host resolveConfig now input decisions).2 input.decisionId := by
  rcases @evaluate_writes host resolveConfig now input decisions with ⟨hw, hold⟩ | ⟨_, _, hw⟩
  · rw [hw]
    exact hold hsuppress
  · rw [hw]
    cases hget : get decisions input.decisionId with
    | none => exact recordSuppressed_new hget
    | some d =>
      have hs : d.outcome = .suppressed := by
        have hne := hnew d hget
        revert hne
        cases d.outcome <;> decide
      have hold : Suppressed decisions input.decisionId := ⟨d, hget, hs⟩
      exact hold.recordSuppressed

end

/-- **The suppression of duplicate callbacks.**  A candidate that was not suppressed before is
suppressed if and only if it begins with the marker and the publication with the greatest time on
its routing key is in the window, which is some publication in the window when none is later than
the candidate.  A decision that is not recorded as published is suppressed again. -/
theorem suppression_rule (host : Host) :
    (∀ (resolveConfig : Candidate → Option Config) (now : String) (input : Candidate)
      (decisions : List Decision) (config : Config),
      (∀ d ∈ get decisions input.decisionId, d.outcome ≠ .suppressed) →
      resolveConfig input = some config → config.marker ≠ [] → 0 < config.windowSeconds →
      ((evaluate host resolveConfig now input decisions).1.suppress = true ↔
        Begins host input.body config.marker ∧
          ∃ d, Latest decisions input.routingKey d ∧
            InWindow host config.windowSeconds input.candidateAt d)) ∧
    (∀ (decisions : List Decision) (routingKey candidateAt : String) (window : ℕ) (candidate : ℤ),
      validTimestamp host (some candidateAt) = some candidate →
      (∀ d ∈ decisions, publishedOn routingKey d →
        ∃ published, validTimestamp host d.publishedAt = some published ∧ published ≤ candidate) →
      (∀ d ∈ decisions, ∀ d' ∈ decisions, publishedOn routingKey d → publishedOn routingKey d' →
        ∀ published ∈ validTimestamp host d.publishedAt,
        ∀ published' ∈ validTimestamp host d'.publishedAt,
        d.publishedAt.getD "" ≤ d'.publishedAt.getD "" → published ≤ published') →
      ((∃ d, Latest decisions routingKey d ∧ InWindow host window candidateAt d) ↔
        ∃ d ∈ decisions, publishedOn routingKey d ∧ InWindow host window candidateAt d)) ∧
    ∀ (resolveConfig : Candidate → Option Config) (now : String) (input : Candidate)
      (decisions : List Decision) (ops : List Op) (resolveLater : Candidate → Option Config)
      (later : String) (again : Candidate),
      (∀ d ∈ get decisions input.decisionId, d.outcome ≠ .published) →
      (evaluate host resolveConfig now input decisions).1.suppress = true →
      (∀ op ∈ ops, ¬op.publishes input.decisionId) → again.decisionId = input.decisionId →
      (evaluate host resolveLater later again (ops.foldl (Op.run host)
        (evaluate host resolveConfig now input decisions).2)).1.suppress = true := by
  refine ⟨?_, ?_, ?_⟩
  · intro resolveConfig now input decisions config hnew hconfig hmarker hwindow
    refine evaluate_suppress_iff ?_ hconfig hmarker hwindow
    rw [Option.filter_eq_none_iff]
    exact fun d hd hs => hnew d hd (of_decide_eq_true hs)
  · intro decisions routingKey candidateAt window candidate hcandidate hbefore hsorted
    exact latest_inWindow hcandidate hbefore hsorted
  · intro resolveConfig now input decisions ops resolveLater later again hnew hsuppress hops hid
    refine Suppressed.evaluate ?_
    rw [hid]
    exact (suppressed_of_evaluate hnew hsuppress).runs hops

/-! ### publications around a candidate -/

/-- the dates of a minute. -/
def minuteHost : Host where
  dateParse text :=
    if text = "2026-08-01T00:00:00.000Z" then some 1785542400000
    else if text = "2026-08-01T00:00:30.000Z" then some 1785542430000
    else if text = "2026-08-01T00:01:00.000Z" then some 1785542460000
    else none
  lower text := text

/-- `dup:` and 180 seconds. -/
def minuteConfig : Config := { marker := [100, 117, 112, 58], windowSeconds := 180 }

/-- a candidate at half a minute that begins with the marker. -/
def halfMinute : Candidate where
  subscriptionId := "subscription"
  agentNpub := "npub"
  decisionId := "candidate"
  routingKey := "route"
  body := [32, 100, 117, 112, 58, 120]
  candidateAt := "2026-08-01T00:00:30.000Z"

def publishAt (id publishedAt : String) : Op :=
  .recordPublished id "route" publishedAt publishedAt "message" publishedAt

/-- one publication before the candidate. -/
def onePublished : List Decision :=
  (publishAt "first" "2026-08-01T00:00:00.000Z").run minuteHost []

/-- another one is completed after the candidate was ready. -/
def twoPublished : List Decision :=
  (publishAt "second" "2026-08-01T00:01:00.000Z").run minuteHost onePublished

theorem suppression_rule_minute :
    (evaluate minuteHost (fun _ => some minuteConfig) "" halfMinute onePublished).1.suppress = true ↔
      Begins minuteHost halfMinute.body minuteConfig.marker ∧
        ∃ d, Latest onePublished "route" d ∧ InWindow minuteHost 180 halfMinute.candidateAt d :=
  (suppression_rule minuteHost).1 (fun _ => some minuteConfig) "" halfMinute onePublished minuteConfig
    (by decide) rfl (by decide) (by decide)

/-- A publication is in the window of the candidate, which begins with the marker, and the candidate
is not suppressed; and a decision that was suppressed is not when it was recorded as published. -/
theorem publication_after_candidate :
    (Begins minuteHost halfMinute.body minuteConfig.marker ∧
      (∃ d ∈ twoPublished, publishedOn "route" d ∧
        InWindow minuteHost 180 halfMinute.candidateAt d) ∧
      (evaluate minuteHost (fun _ => some minuteConfig) "" halfMinute twoPublished).1.suppress =
        false) ∧
    (evaluate minuteHost (fun _ => some minuteConfig) "" halfMinute onePublished).1.suppress = true ∧
    (evaluate minuteHost (fun _ => some minuteConfig) "" halfMinute
      ((publishAt "candidate" "2026-08-01T00:01:00.000Z").run minuteHost
        (evaluate minuteHost (fun _ => some minuteConfig) "" halfMinute onePublished).2)).1.suppress =
      false := by
  refine ⟨⟨?_, ?_, by decide +kernel⟩, by decide +kernel, by decide +kernel⟩
  · exact ⟨[32], [100, 117, 112, 58], [120], rfl, by decide, by decide, by decide, rfl, rfl⟩
  · refine ⟨_, List.mem_cons_self, by decide, 1785542430000, 1785542400000, ?_, ?_, by decide,
      by decide⟩
    · decide +kernel
    · decide +kernel

end DuplicateCallback
end AgentChat
end WmAutopilot
