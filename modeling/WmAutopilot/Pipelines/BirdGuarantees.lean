import Mathlib.Algebra.Order.Ring.Unbundled.Rat
import Mathlib.Data.List.Nodup
import Mathlib.Data.Rat.Floor
import Mathlib.Tactic.Linarith
import WmAutopilot.Pipelines.BirdRetrieval

/-!
# What a model can make a retrieval do

Every field that bounds a retrieval is set by the request or only moves towards its bound, so no
answer of the model leads outside.

* `Same`, `Settled`    the fields a stop keeps, and those a decision keeps;
* `Ending`             what verdict, count and `active` have to do with each other;
* `Inv`, `Inv.call`    the invariant of a retrieval, kept by every step;
* `retrieval_within_request`   all of it, for every sequence of steps;
* `full_but_not_complete`      a full retrieval whose verdict is not `complete`.
-/

set_option autoImplicit false

namespace WmAutopilot
namespace Pipelines
namespace BirdRetrieval
open Js Value

/-! ## the request -/

/-- **A candidate is part of the text of the request.** -/
theorem infix_of_mem_candidates {pattern : Regex} {request s : String}
    (h : s ∈ candidates pattern request) : s.toList <:+: request.toList := by
  obtain ⟨m, hm, hs⟩ := List.mem_filterMap.mp h
  obtain ⟨g, hg, rfl⟩ := Option.map_eq_some_iff.mp hs
  rw [String.toList_ofList]
  exact Regex.group_of_mem_matchAll hm (List.mem_of_mem_head? hg)

section
variable (host : Host) (now : ℕ → ℤ) (input : Value)

theorem prepare_handles {h : String} (hh : h ∈ (prepareBirdRetrieval host now input).handles) :
    h.toList <:+: (requestText (input.get "request")).toList := by
  have hmem : h ∈ (candidates handlePattern (requestText (input.get "request"))).eraseDups := by
    unfold prepareBirdRetrieval at hh
    dsimp only at hh
    split at hh
    · exact hh
    · split at hh <;> exact hh
  exact infix_of_mem_candidates (List.mem_eraseDups.mp hmem)

theorem prepare_queries {q : String} (hq : q ∈ (prepareBirdRetrieval host now input).queries) :
    q.toList <:+: (requestText (input.get "request")).toList := by
  have hmem : q ∈ candidates queryPattern (requestText (input.get "request")) := by
    unfold prepareBirdRetrieval at hq
    dsimp only at hq
    split at hq
    · exact hq
    · split at hq <;> exact hq
  exact infix_of_mem_candidates hmem

end

/-- a prepared retrieval: nothing was done, and it runs only with a count from 1 to 100. -/
structure Fresh (s : RetrievalState) : Prop where
  attempt : s.attempt = 0
  actions : s.actions = []
  tweets : s.tweets = []
  source : s.source = none
  handle : s.handle = none
  query : s.query = none
  needed : s.semanticNeeded = false
  verdict : s.active = true ∧ s.verdict = .running ∧ 1 ≤ s.count ∨
    s.active = false ∧ s.verdict = .needs_clarification

theorem prepare_fresh (host : Host) (now : ℕ → ℤ) (input : Value) :
    Fresh (prepareBirdRetrieval host now input) := by
  unfold prepareBirdRetrieval
  dsimp only
  split
  · exact ⟨rfl, rfl, rfl, rfl, rfl, rfl, rfl, .inr ⟨rfl, rfl⟩⟩
  · rename_i hvalid
    split
    · exact ⟨rfl, rfl, rfl, rfl, rfl, rfl, rfl, .inr ⟨rfl, rfl⟩⟩
    · refine ⟨rfl, rfl, rfl, rfl, rfl, rfl, rfl, .inl ⟨rfl, rfl, ?_⟩⟩
      by_contra hlow
      exact hvalid (.inr (.inr (.inr (.inr (.inr (.inl (not_le.mp hlow)))))))

/-! ## what a stop keeps -/

/-- the fields that are about what was asked and what was executed. -/
structure Same (s s' : RetrievalState) : Prop where
  count : s'.count = s.count
  handles : s'.handles = s.handles
  queries : s'.queries = s.queries
  source : s'.source = s.source
  handle : s'.handle = s.handle
  query : s'.query = s.query
  attempt : s'.attempt = s.attempt
  actions : s'.actions = s.actions
  tweets : s'.tweets = s.tweets

section
variable {s s' s'' : RetrievalState}

theorem same_stop (s : RetrievalState) (v : Verdict) (reason : String) (n : ℤ) :
    Same s (stop s v reason n) :=
  ⟨rfl, rfl, rfl, rfl, rfl, rfl, rfl, rfl, rfl⟩

theorem ended_ne_complete (s : RetrievalState) : ended s ≠ .complete := by
  unfold ended
  split <;> exact nofun

end

/-! ## what a decision keeps -/

/-- the source and the arguments are set once, and the arguments are candidates. -/
structure Settled (s s' : RetrievalState) : Prop where
  count : s'.count = s.count
  handles : s'.handles = s.handles
  queries : s'.queries = s.queries
  attempt : s'.attempt = s.attempt
  actions : s'.actions = s.actions
  tweets : s'.tweets = s.tweets
  active : s'.active = s.active
  verdict : s'.verdict = s.verdict
  reason : s'.reason = s.reason
  needed : s'.semanticNeeded = s.semanticNeeded
  locked : s.source ≠ none →
    s'.source = s.source ∧ s'.handle = s.handle ∧ s'.query = s.query
  handle : ∀ h, s'.handle = some h → s.handle = some h ∨ h ∈ s.handles
  query : ∀ q, s'.query = some q → s.query = some q ∨ q ∈ s.queries

theorem Settled.refl (s : RetrievalState) : Settled s s :=
  ⟨rfl, rfl, rfl, rfl, rfl, rfl, rfl, rfl, rfl, rfl, fun _ => ⟨rfl, rfl, rfl⟩, fun _ h => .inl h,
    fun _ h => .inl h⟩

theorem Settled.trans {s s' s'' : RetrievalState} (h : Settled s s') (h' : Settled s' s'') :
    Settled s s'' where
  count := h'.count.trans h.count
  handles := h'.handles.trans h.handles
  queries := h'.queries.trans h.queries
  attempt := h'.attempt.trans h.attempt
  actions := h'.actions.trans h.actions
  tweets := h'.tweets.trans h.tweets
  active := h'.active.trans h.active
  verdict := h'.verdict.trans h.verdict
  reason := h'.reason.trans h.reason
  needed := h'.needed.trans h.needed
  locked hne := by
    obtain ⟨hsource, hhandle, hquery⟩ := h.locked hne
    obtain ⟨hsource', hhandle', hquery'⟩ := h'.locked (hsource ▸ hne)
    exact ⟨hsource'.trans hsource, hhandle'.trans hhandle, hquery'.trans hquery⟩
  handle c hc := by
    rcases h'.handle c hc with hc | hc
    · exact h.handle c hc
    · exact .inr (h.handles ▸ hc)
  query c hc := by
    rcases h'.query c hc with hc | hc
    · exact h.query c hc
    · exact .inr (h.queries ▸ hc)

theorem settled_recordDecision (host : Host) (s : RetrievalState) (decision : Value)
    (ids : List String) : Settled s (recordDecision host s decision ids).1 :=
  ⟨rfl, rfl, rfl, rfl, rfl, rfl, rfl, rfl, rfl, rfl, fun _ => ⟨rfl, rfl, rfl⟩, fun _ h => .inl h,
    fun _ h => .inl h⟩

theorem mem_of_selected {value : String} {candidates : List String} {c : String}
    (h : selected value candidates = .ok (some c)) : c ∈ candidates := by
  unfold selected at h
  split at h
  · split at h
    · rename_i candidate hget
      split at h
      · cases h
      · cases h
        exact List.mem_of_getElem? hget
    · cases h
  · cases h

theorem settled_setSource {s : RetrievalState} (judgment : Judgment) (hs : s.source = none) :
    Settled s (setSource s judgment).1 := by
  unfold setSource
  split
  · exact .refl s
  · rename_i source hsource
    cases hh : selected judgment.handle s.handles with
    | error message =>
      simp only [hh]
      exact ⟨rfl, rfl, rfl, rfl, rfl, rfl, rfl, rfl, rfl, rfl, fun h => absurd hs h,
        fun _ h => .inl h, fun _ h => .inl h⟩
    | ok handle =>
      have hhandle : ∀ h, handle = some h → s.handle = some h ∨ h ∈ s.handles := by
        intro h heq
        rw [heq] at hh
        exact .inr (mem_of_selected hh)
      cases hq : selected judgment.query s.queries with
      | error message =>
        simp only [hh, hq]
        exact ⟨rfl, rfl, rfl, rfl, rfl, rfl, rfl, rfl, rfl, rfl, fun h => absurd hs h,
          hhandle, fun _ h => .inl h⟩
      | ok query =>
        simp only [hh, hq]
        refine ⟨rfl, rfl, rfl, rfl, rfl, rfl, rfl, rfl, rfl, rfl, fun h => absurd hs h, hhandle, ?_⟩
        intro q heq
        have heq' : query = some q := heq
        rw [heq'] at hq
        exact .inr (mem_of_selected hq)

/-- a decision changes at most the source and the arguments, and these only once. -/
theorem settled_settleSource (s : RetrievalState) (judgment : Judgment) :
    Settled s (settleSource s judgment).1 := by
  unfold settleSource
  split
  · exact .refl s
  · split
    · exact .refl s
    · cases hs : s.source with
      | some source => exact .refl s
      | none => exact settled_setSource judgment hs

/-- a refusal never completes a retrieval. -/
def Refusal.Ends : Refusal → Prop
  | .stopped verdict _ => verdict ≠ .complete
  | .thrown _ => True

theorem ends_keepSource {s : RetrievalState} {judgment : Judgment} {refusal : Refusal}
    (h : keepSource s judgment = .error refusal) : refusal.Ends := by
  grind [keepSource, Refusal.Ends]

theorem ends_checkSource {s : RetrievalState} {source : BirdOperation} {refusal : Refusal}
    (h : checkSource s source = .error refusal) : refusal.Ends := by
  unfold checkSource at h
  dsimp only at h
  split at h
  · cases h
    exact nofun
  · split at h
    · cases h
      trivial
    · split at h
      · cases h
        trivial
      · cases h

theorem ends_setSource {s : RetrievalState} {judgment : Judgment} {refusal : Refusal}
    (h : (setSource s judgment).2 = .error refusal) : refusal.Ends := by
  unfold setSource at h
  split at h
  · cases h
    trivial
  · dsimp only at h
    split at h
    · cases h
      trivial
    · split at h
      · cases h
        trivial
      · exact ends_checkSource h

theorem ends_settleSource {s : RetrievalState} {judgment : Judgment} {refusal : Refusal}
    (h : (settleSource s judgment).2 = .error refusal) : refusal.Ends := by
  unfold settleSource at h
  split at h
  · cases h
    exact nofun
  · split at h
    · cases h
      exact ended_ne_complete s
    · cases hs : s.source with
      | some source =>
        rw [hs] at h
        exact ends_keepSource h
      | none =>
        rw [hs] at h
        exact ends_setSource h

/-- What a decision leads to: a refusal, or an action that is allowed and new. -/
structure Chosen (host : Host) (s s' : RetrievalState) (action : BirdAction) : Prop where
  accepted : ∃ argv, birdArgv host action = .ok argv
  fresh : host.stringify action ∉ s.actions
  noted : s'.actions = s.actions ++ [host.stringify action]
  source : s'.source = some action.operation
  handle : action.handle = s'.handle.filter (· ≠ "")
  query : action.query = s'.query.filter (· ≠ "")
  settled : ∃ s₁, Settled s s₁ ∧ s' = { s₁ with actions := s₁.actions ++ [host.stringify action] }
  attempt : s.attempt < executionsLimit

theorem admit_cases {host : Host} {s s' : RetrievalState} {action : BirdAction}
    {result : Except Refusal BirdAction} (h : admitAction host s action = (s', result)) :
    (∃ refusal, result = .error refusal ∧ refusal.Ends ∧ s' = s) ∨
      result = .ok action ∧ (∃ argv, birdArgv host action = .ok argv) ∧
        host.stringify action ∉ s.actions ∧
        s' = { s with actions := s.actions ++ [host.stringify action] } := by
  unfold admitAction at h
  cases hargv : birdArgv host action with
  | error message =>
    rw [hargv] at h
    cases h
    exact .inl ⟨_, rfl, trivial, rfl⟩
  | ok argv =>
    rw [hargv] at h
    dsimp only at h
    split at h
    · cases h
      exact .inl ⟨_, rfl, ended_ne_complete s, rfl⟩
    · rename_i hnew
      cases h
      exact .inr ⟨rfl, ⟨argv, rfl⟩, hnew, rfl⟩

theorem chooseAction_cases {host : Host} {now : ℕ → ℤ} {decision : Value}
    {s s' : RetrievalState} {result : Except Refusal BirdAction}
    (h : chooseAction host now decision s = (s', result)) :
    (∃ refusal, result = .error refusal ∧ refusal.Ends ∧ Settled s s') ∨
      ∃ action, result = .ok action ∧ Chosen host s s' action := by
  unfold chooseAction at h
  cases hrec : recordDecision host s decision ["action", "handle", "query", "supported"] with
  | mk s₁ answers =>
  have hs₁ : Settled s s₁ := by
    have hs := settled_recordDecision host s decision ["action", "handle", "query", "supported"]
    rwa [hrec] at hs
  rw [hrec] at h
  cases answers with
  | error message =>
    cases h
    exact .inl ⟨_, rfl, trivial, hs₁⟩
  | ok answers =>
    dsimp only at h
    split at h
    · cases h
      exact .inl ⟨_, rfl, ended_ne_complete _, hs₁⟩
    · rename_i hbudget
      cases hjudge : judge host s₁.source answers with
      | error message =>
        rw [hjudge] at h
        cases h
        exact .inl ⟨_, rfl, trivial, hs₁⟩
      | ok judgment =>
        rw [hjudge] at h
        cases hsettle : settleSource s₁ judgment with
        | mk s₂ settled =>
        have hs₂ : Settled s s₂ := by
          have hstep := settled_settleSource s₁ judgment
          rw [hsettle] at hstep
          exact hs₁.trans hstep
        dsimp only at h
        rw [hsettle] at h
        cases settled with
        | error refusal =>
          cases h
          have hends : (settleSource s₁ judgment).2 = .error refusal := by rw [hsettle]
          exact .inl ⟨_, rfl, ends_settleSource hends, hs₂⟩
        | ok _ =>
          cases hsource : s₂.source with
          | none =>
            simp only [hsource] at h
            cases h
            exact .inl ⟨_, rfl, trivial, hs₂⟩
          | some operation =>
            simp only [hsource] at h
            rcases admit_cases h with ⟨refusal, rfl, hends, rfl⟩ | ⟨rfl, hargv, hnew, rfl⟩
            · exact .inl ⟨refusal, rfl, hends, hs₂⟩
            · rw [hs₂.actions] at hnew
              refine .inr ⟨_, rfl, hargv, hnew, ?_, hsource, rfl, rfl, ⟨s₂, hs₂, rfl⟩, ?_⟩
              · rw [hs₂.actions]
              · have hattempt := not_or.mp hbudget
                rw [← hs₁.attempt]
                exact not_le.mp hattempt.1

/-! ## a page -/

theorem unseen_spec (seen : List String) (tweets : List BirdTweet) :
    ((unseen seen tweets).map (·.id)).Nodup ∧ ∀ t ∈ unseen seen tweets, t.id ∉ seen := by
  induction tweets generalizing seen with
  | nil => exact ⟨List.nodup_nil, nofun⟩
  | cons tweet tweets ih =>
    rw [unseen]
    split
    · exact ih seen
    · rename_i hnew
      obtain ⟨hnodup, hunseen⟩ := ih (tweet.id :: seen)
      refine ⟨?_, ?_⟩
      · rw [List.map_cons, List.nodup_cons]
        refine ⟨fun hmem => ?_, hnodup⟩
        obtain ⟨t, ht, heq⟩ := List.mem_map.mp hmem
        exact hunseen t ht (heq ▸ List.mem_cons_self)
      · intro t ht
        rcases List.mem_cons.mp ht with rfl | ht
        · exact hnew
        · exact fun hmem => hunseen t ht (List.mem_cons_of_mem _ hmem)

theorem sliceTo_spec {α : Type} {stop : ℚ} (l : List α) (h : 0 ≤ stop) :
    sliceTo stop l <+: l ∧ ((sliceTo stop l).length : ℚ) ≤ stop := by
  unfold sliceTo
  rw [if_pos h]
  refine ⟨List.take_prefix _ _, ?_⟩
  have hfloor : 0 ≤ stop.floor := Rat.le_floor_iff.mpr (by exact_mod_cast h)
  have hlen : (l.take stop.floor.toNat).length ≤ stop.floor.toNat := by
    rw [List.length_take]
    omega
  have hcast : ((stop.floor.toNat : ℤ) : ℚ) ≤ stop := by
    rw [Int.toNat_of_nonneg hfloor]
    exact Rat.floor_le stop
  have hlenQ : ((l.take stop.floor.toNat).length : ℚ) ≤ (stop.floor.toNat : ℚ) := by
    exact_mod_cast hlen
  exact hlenQ.trans (by exact_mod_cast hcast)

/-- **A page adds records whose ids are new and different, and no more than are missing.** -/
theorem receive_spec (now : ℕ → ℤ) (action : BirdAction) (page : BirdPage) {s : RetrievalState}
    (hdistinct : (s.tweets.map (·.id)).Nodup) (hroom : (s.tweets.length : ℚ) ≤ s.count) :
    ((receive now action page s).tweets.map (·.id)).Nodup ∧
      ((receive now action page s).tweets.length : ℚ) ≤ s.count := by
  obtain ⟨hnew, hunseen⟩ := unseen_spec (s.tweets.map (·.id)) page.tweets
  have hrest : (0 : ℚ) ≤ s.count - s.tweets.length := by linarith
  obtain ⟨hpart, hlen⟩ := sliceTo_spec (unseen (s.tweets.map (·.id)) page.tweets) hrest
  constructor
  · show ((s.tweets ++ sliceTo _ (unseen (s.tweets.map (·.id)) page.tweets)).map (·.id)).Nodup
    rw [List.map_append, List.nodup_append]
    refine ⟨hdistinct, (hpart.sublist.map _).nodup hnew, ?_⟩
    intro a ha b hb heq
    obtain ⟨t, ht, rfl⟩ := List.mem_map.mp hb
    exact hunseen t (hpart.subset ht) (heq ▸ ha)
  · show ((s.tweets ++ sliceTo _ (unseen (s.tweets.map (·.id)) page.tweets)).length : ℚ) ≤ s.count
    rw [List.length_append]
    push_cast
    linarith

/-! ## verdict, count and activity -/

/-- what verdict, count and `active` have to do with each other. -/
structure Ending (count : ℚ) (s : RetrievalState) : Prop where
  active : s.active = true → s.verdict = .running ∧ (s.tweets.length : ℚ) < count
  needed : s.semanticNeeded = true → s.active = true
  complete : s.verdict = .complete → (s.tweets.length : ℚ) = count
  reached : (s.tweets.length : ℚ) = count → s.verdict = .complete ∨ s.reason = "elapsed_limit"

section
variable {count : ℚ} {s : RetrievalState}

/-- a retrieval that is short of its count ends without being complete. -/
theorem ending_stop {v : Verdict} {reason : String} {n : ℤ} (hv : v ≠ .complete)
    (hshort : (s.tweets.length : ℚ) < count) : Ending count (stop s v reason n) :=
  ⟨nofun, nofun, fun h => absurd h hv, fun h => absurd h hshort.ne⟩

theorem ending_refuse {refusal : Refusal} {n : ℤ} (hends : refusal.Ends)
    (hshort : (s.tweets.length : ℚ) < count) : Ending count (refuse s refusal n) := by
  cases refusal with
  | stopped verdict reason => exact ending_stop hends hshort
  | thrown message =>
    refine ending_stop ?_ hshort
    split <;> exact nofun

/-- **After a page: complete exactly when the count is reached and the time is not over.** -/
theorem ending_conclude {now : ℕ → ℤ} {previousCursor : Option String} {added : ℕ}
    (hactive : s.active = true) (hrunning : s.verdict = .running)
    (hroom : (s.tweets.length : ℚ) ≤ s.count) :
    Ending s.count (conclude now previousCursor added s) := by
  unfold conclude
  split
  · refine ⟨nofun, nofun, fun h => absurd h (ended_ne_complete s), fun _ => .inr rfl⟩
  · split
    · rename_i hfull
      exact ⟨nofun, nofun, fun _ => le_antisymm hroom hfull, fun _ => .inl rfl⟩
    · rename_i hshort
      have hlt : (s.tweets.length : ℚ) < s.count := not_le.mp hshort
      split
      · exact ending_stop nofun hlt
      · split
        · exact ending_stop nofun hlt
        · split
          · exact ending_stop nofun hlt
          · refine ⟨fun _ => ⟨hrunning, hlt⟩, fun _ => hactive, fun h => ?_,
              fun h => absurd h hlt.ne⟩
            have heq : s.verdict = .complete := h
            rw [hrunning] at heq
            cases heq

theorem same_conclude (now : ℕ → ℤ) (previousCursor : Option String) (added : ℕ)
    (s : RetrievalState) : Same s (conclude now previousCursor added s) := by
  unfold conclude
  repeat' split
  all_goals exact ⟨rfl, rfl, rfl, rfl, rfl, rfl, rfl, rfl, rfl⟩

end

/-! ## the invariant -/

/-- an executed action: allowed, and of the source and the arguments that were set. -/
structure Executed (host : Host) (s : RetrievalState) (a : BirdAction) : Prop where
  accepted : ∃ argv, birdArgv host a = .ok argv
  source : s.source = some a.operation
  handle : a.handle = s.handle.filter (· ≠ "")
  query : a.query = s.query.filter (· ≠ "")

/-- What holds of a retrieval that was started from `start`. -/
structure Inv (host : Host) (start : RetrievalState) (r : Run) : Prop where
  count : r.state.count = start.count
  handles : r.state.handles = start.handles
  queries : r.state.queries = start.queries
  handle : ∀ h, r.state.handle = some h → h ∈ start.handles
  query : ∀ q, r.state.query = some q → q ∈ start.queries
  room : (r.state.tweets.length : ℚ) ≤ start.count
  distinct : (r.state.tweets.map (·.id)).Nodup
  executed : ∀ a ∈ r.executed, Executed host r.state a
  noted : r.state.actions = r.executed.map host.stringify
  different : r.state.actions.Nodup
  attempt : r.state.attempt = r.executed.length
  limit : r.executed.length ≤ executionsLimit
  ending : Ending start.count r.state

section
variable {host : Host} {start : RetrievalState} {r : Run} {s' : RetrievalState}

/-- a step that executes nothing and keeps what was asked. -/
theorem Inv.same (h : Inv host start r) (hs : Same r.state s') (he : Ending start.count s') :
    Inv host start ⟨s', r.executed⟩ where
  count := hs.count.trans h.count
  handles := hs.handles.trans h.handles
  queries := hs.queries.trans h.queries
  handle c hc := h.handle c (hs.handle ▸ hc)
  query c hc := h.query c (hs.query ▸ hc)
  room := by
    show (s'.tweets.length : ℚ) ≤ start.count
    rw [hs.tweets]
    exact h.room
  distinct := by
    show (s'.tweets.map (·.id)).Nodup
    rw [hs.tweets]
    exact h.distinct
  executed a ha := by
    obtain ⟨haccepted, hsource, hhandle, hquery⟩ := h.executed a ha
    exact ⟨haccepted, hs.source.trans hsource, hhandle.trans (by rw [hs.handle]),
      hquery.trans (by rw [hs.query])⟩
  noted := hs.actions.trans h.noted
  different := hs.actions ▸ h.different
  attempt := hs.attempt.trans h.attempt
  limit := h.limit
  ending := he

/-- a decision that executes nothing. -/
theorem Inv.settled (h : Inv host start r) (hs : Settled r.state s') :
    Inv host start ⟨s', r.executed⟩ where
  count := hs.count.trans h.count
  handles := hs.handles.trans h.handles
  queries := hs.queries.trans h.queries
  handle c hc := by
    rcases hs.handle c hc with hc | hc
    · exact h.handle c hc
    · exact h.handles ▸ hc
  query c hc := by
    rcases hs.query c hc with hc | hc
    · exact h.query c hc
    · exact h.queries ▸ hc
  room := by
    show (s'.tweets.length : ℚ) ≤ start.count
    rw [hs.tweets]
    exact h.room
  distinct := by
    show (s'.tweets.map (·.id)).Nodup
    rw [hs.tweets]
    exact h.distinct
  executed a ha := by
    obtain ⟨haccepted, hsource, hhandle, hquery⟩ := h.executed a ha
    -- an action was executed, so the source is set
    obtain ⟨hsource', hhandle', hquery'⟩ := hs.locked (by rw [hsource]; exact nofun)
    exact ⟨haccepted, hsource'.trans hsource, hhandle.trans (by rw [hhandle']),
      hquery.trans (by rw [hquery'])⟩
  noted := hs.actions.trans h.noted
  different := hs.actions ▸ h.different
  attempt := hs.attempt.trans h.attempt
  limit := h.limit
  ending := by
    obtain ⟨hactive, hneeded, hcomplete, hreached⟩ := h.ending
    refine ⟨?_, ?_, ?_, ?_⟩
    · rw [hs.active, hs.verdict, hs.tweets]
      exact hactive
    · rw [hs.needed, hs.active]
      exact hneeded
    · rw [hs.verdict, hs.tweets]
      exact hcomplete
    · rw [hs.tweets, hs.verdict, hs.reason]
      exact hreached

/-- an active retrieval is stopped without being complete. -/
theorem Inv.stop (h : Inv host start r) (hactive : r.state.active = true) {v : Verdict}
    (hv : v ≠ .complete) (reason : String) (n : ℤ) :
    Inv host start ⟨stop r.state v reason n, r.executed⟩ :=
  h.same (same_stop r.state v reason n) (ending_stop hv (h.ending.active hactive).2)

theorem Inv.modelState (h : Inv host start r) (hactive : r.state.active = true)
    (now : ℕ → ℤ) : Inv host start ⟨(birdModelState now r.state).1, r.executed⟩ := by
  unfold birdModelState
  dsimp only
  split
  · exact h.stop hactive (ended_ne_complete r.state) _ _
  · exact h

theorem Inv.check (h : Inv host start r) (hneeded : r.state.semanticNeeded = true)
    (now : ℕ → ℤ) (decision : Value) :
    Inv host start ⟨checkBirdEvidence host now decision r.state, r.executed⟩ := by
  unfold checkBirdEvidence
  rw [if_neg (by rw [hneeded]; exact nofun)]
  have hs := settled_recordDecision host r.state decision ["continueSafe"]
  have hactive := hs.active.trans (h.ending.needed hneeded)
  have h₁ := h.settled hs
  cases hrec : recordDecision host r.state decision ["continueSafe"] with
  | mk s₁ answers =>
  rw [hrec] at h₁ hactive
  have hpartial : ∀ reason n, Inv host start
      ⟨BirdRetrieval.stop s₁ .partially reason n, r.executed⟩ :=
    h₁.stop hactive (show Verdict.partially ≠ .complete from nofun)
  cases answers with
  | error message => exact hpartial _ _
  | ok answers =>
    dsimp only
    cases noul (answers.get "continueSafe") with
    | error message => exact hpartial _ _
    | ok safe =>
      dsimp only
      split
      · exact hpartial _ _
      · have h₂ : Inv host start ⟨{ s₁ with semanticNeeded := false }, r.executed⟩ :=
          h₁.same ⟨rfl, rfl, rfl, rfl, rfl, rfl, rfl, rfl, rfl⟩
            ⟨h₁.ending.active, nofun, h₁.ending.complete, h₁.ending.reached⟩
        split
        · exact h₂.stop hactive (show Verdict.partially ≠ .complete from nofun) _ _
        · exact h₂

/-- the state in which an action is executed. -/
theorem Inv.chosen (h : Inv host start r) {action : BirdAction}
    (hchosen : Chosen host r.state s' action) :
    Inv host start ⟨{ s' with attempt := s'.attempt + 1 }, r.executed ++ [action]⟩ := by
  obtain ⟨s₁, hs₁, heq⟩ := hchosen.settled
  have h₁ := h.settled hs₁
  have hsource : s₁.source = some action.operation := by
    rw [← hchosen.source, heq]
  have hhandle : action.handle = s₁.handle.filter (· ≠ "") := by
    rw [hchosen.handle, heq]
  have hquery : action.query = s₁.query.filter (· ≠ "") := by
    rw [hchosen.query, heq]
  have hlength : (r.executed ++ [action]).length = r.executed.length + 1 := by
    rw [List.length_append, List.length_singleton]
  subst heq
  exact {
    count := h₁.count
    handles := h₁.handles
    queries := h₁.queries
    handle := h₁.handle
    query := h₁.query
    room := h₁.room
    distinct := h₁.distinct
    executed := by
      intro a ha
      rcases List.mem_append.mp ha with ha | ha
      · obtain ⟨haccepted, hsource', hhandle', hquery'⟩ := h₁.executed a ha
        exact ⟨haccepted, hsource', hhandle', hquery'⟩
      · rw [List.mem_singleton.mp ha]
        exact ⟨hchosen.accepted, hsource, hhandle, hquery⟩
    noted := by
      show s₁.actions ++ [host.stringify action] = _
      rw [List.map_append, List.map_singleton, ← h₁.noted]
    different := by
      show (s₁.actions ++ [host.stringify action]).Nodup
      rw [List.nodup_append]
      refine ⟨h₁.different, List.nodup_singleton _, fun a ha b hb heq => ?_⟩
      rw [List.mem_singleton.mp hb] at heq
      exact hchosen.fresh (hs₁.actions ▸ heq ▸ ha)
    attempt := by
      show s₁.attempt + 1 = _
      rw [hlength, h₁.attempt]
    limit := by
      have hlt := hchosen.attempt
      rw [h.attempt] at hlt
      show (r.executed ++ [action]).length ≤ _
      rw [hlength]
      exact hlt
    ending := ⟨h₁.ending.active, h₁.ending.needed, h₁.ending.complete, h₁.ending.reached⟩ }

/-- the records of a page, and what follows from them. -/
theorem Inv.receive (h : Inv host start r) (hactive : r.state.active = true) (now : ℕ → ℤ)
    (action : BirdAction) (page : BirdPage) (previousCursor : Option String) (added : ℕ) :
    Inv host start
      ⟨conclude now previousCursor added (receive now action page r.state), r.executed⟩ := by
  have hroom : (r.state.tweets.length : ℚ) ≤ r.state.count := by
    rw [h.count]
    exact h.room
  obtain ⟨hdistinct, hlen⟩ := receive_spec now action page h.distinct hroom
  obtain ⟨hrunning, -⟩ := h.ending.active hactive
  set s₁ := BirdRetrieval.receive now action page r.state with hs₁
  have hs := same_conclude now previousCursor added s₁
  have hcount : s₁.count = start.count := h.count
  have hending : Ending s₁.count (conclude now previousCursor added s₁) :=
    ending_conclude hactive hrunning hlen
  exact {
    count := hs.count.trans hcount
    handles := hs.handles.trans h.handles
    queries := hs.queries.trans h.queries
    handle := fun c hc => h.handle c (hs.handle ▸ hc)
    query := fun c hc => h.query c (hs.query ▸ hc)
    room := by
      show ((conclude now previousCursor added s₁).tweets.length : ℚ) ≤ start.count
      rw [hs.tweets, ← h.count]
      exact hlen
    distinct := by
      show ((conclude now previousCursor added s₁).tweets.map (·.id)).Nodup
      rw [hs.tweets]
      exact hdistinct
    executed := by
      intro a ha
      obtain ⟨haccepted, hsource, hhandle, hquery⟩ := h.executed a ha
      exact ⟨haccepted, hs.source.trans hsource, hhandle.trans (by rw [hs.handle]; rfl),
        hquery.trans (by rw [hs.query]; rfl)⟩
    noted := hs.actions.trans h.noted
    different := by
      show (conclude now previousCursor added s₁).actions.Nodup
      rw [hs.actions]
      exact h.different
    attempt := hs.attempt.trans h.attempt
    limit := h.limit
    ending := hcount ▸ hending }

theorem Inv.perform (h : Inv host start r) (hactive : r.state.active = true)
    {action : BirdAction} (hchosen : Chosen host r.state s' action) (now : ℕ → ℤ)
    (executor : BirdExecutor) :
    Inv host start ⟨perform now executor action s', r.executed ++ [action]⟩ := by
  have h₁ := h.chosen hchosen
  have hactive' : s'.active = true := by
    obtain ⟨s₁, hs₁, rfl⟩ := hchosen.settled
    exact hs₁.active.trans hactive
  unfold BirdRetrieval.perform
  dsimp only
  split
  · exact h₁.receive hactive' now action _ _ _
  · rename_i message _
    have hsame : Same { s' with attempt := s'.attempt + 1 } { s' with
        attempt := s'.attempt + 1
        evidence := s'.evidence ++
          [.failed action (message.getD "cli_failed") (now 3 - now 1)] } :=
      ⟨rfl, rfl, rfl, rfl, rfl, rfl, rfl, rfl, rfl⟩
    have hfailed := h₁.same hsame
      ⟨h₁.ending.active, h₁.ending.needed, h₁.ending.complete, h₁.ending.reached⟩
    exact hfailed.stop hactive' (ended_ne_complete _) _ _

/-- **Every step keeps the invariant.** -/
theorem Inv.call (h : Inv host start r) (c : Call) : Inv host start (r.call host c) := by
  cases c with
  | actionState now =>
    simp only [Run.call]
    split
    · rename_i hactive
      exact h.modelState hactive now
    · exact h
  | evidenceState now =>
    simp only [Run.call]
    split
    · rename_i hneeded
      exact h.modelState (h.ending.needed hneeded) now
    · exact h
  | check now decision =>
    simp only [Run.call]
    split
    · rename_i hneeded
      exact h.check hneeded now decision
    · exact h
  | execute now decision executor =>
    simp only [Run.call]
    split
    · rename_i hactive
      unfold executeBirdDecision
      rw [if_neg (by rw [hactive]; exact nofun)]
      cases hchoose : chooseAction host now decision r.state with
      | mk s₁ result =>
      rcases chooseAction_cases hchoose with ⟨refusal, rfl, hends, hs⟩ | ⟨action, rfl, hchosen⟩
      · have h₁ := h.settled hs
        have hshort : (s₁.tweets.length : ℚ) < start.count :=
          (h₁.ending.active (hs.active.trans hactive)).2
        simp only [Option.toList_none, List.append_nil]
        refine h₁.same ?_ (ending_refuse hends hshort)
        cases refusal <;> exact same_stop _ _ _ _
      · exact h.perform hactive hchosen now executor
    · exact h

theorem Inv.calls (h : Inv host start r) (calls : List Call) :
    Inv host start (r.calls host calls) := by
  induction calls generalizing r with
  | nil => exact h
  | cons c calls ih => exact ih (h.call c)

/-- **An inactive retrieval stays as it is.** -/
theorem calls_of_inactive (hactive : r.state.active = false)
    (hneeded : r.state.semanticNeeded = false) (calls : List Call) : r.calls host calls = r := by
  induction calls with
  | nil => rfl
  | cons c calls ih =>
    have hstep : r.call host c = r := by
      cases c <;> simp only [Run.call, hactive, hneeded, Bool.false_eq_true, if_false]
    show (r.call host c).calls host calls = r
    rw [hstep, ih]

theorem Inv.idle (h : Inv host start r) (hactive : r.state.active = false) (calls : List Call) :
    r.calls host calls = r := by
  refine calls_of_inactive hactive ?_ calls
  by_contra hneeded
  rw [h.ending.needed (Bool.not_eq_false _ ▸ hneeded)] at hactive
  cases hactive

theorem Inv.of_fresh {s : RetrievalState} (hs : Fresh s) (hactive : s.active = true) :
    Inv host s ⟨s, []⟩ := by
  obtain ⟨hrunning, hcount⟩ : s.verdict = .running ∧ 1 ≤ s.count := by
    rcases hs.verdict with ⟨-, hv, hc⟩ | ⟨hidle, -⟩
    · exact ⟨hv, hc⟩
    · rw [hactive] at hidle
      cases hidle
  have hshort : (s.tweets.length : ℚ) < s.count := by
    rw [hs.tweets]
    exact lt_of_lt_of_le (by decide) hcount
  exact {
    count := rfl
    handles := rfl
    queries := rfl
    handle := fun c hc => by
      have hnone := hs.handle.symm.trans hc
      cases hnone
    query := fun c hc => by
      have hnone := hs.query.symm.trans hc
      cases hnone
    room := hshort.le
    distinct := by
      show (s.tweets.map (·.id)).Nodup
      rw [hs.tweets]
      exact List.nodup_nil
    executed := nofun
    noted := hs.actions
    different := by
      show s.actions.Nodup
      rw [hs.actions]
      exact List.nodup_nil
    attempt := hs.attempt
    limit := Nat.zero_le _
    ending := {
      active := fun _ => ⟨hrunning, hshort⟩
      needed := fun hn => by
        rw [hs.needed] at hn
        cases hn
      complete := fun hc => by
        rw [hrunning] at hc
        cases hc
      reached := fun heq => absurd heq hshort.ne } }

end

/-! ## the retrieval -/

/-- What is promised of a retrieval of `request` that was started from `start`. -/
structure WithinRequest (host : Host) (request : String) (start : RetrievalState) (r : Run) :
    Prop where
  accepted : ∀ a ∈ r.executed, ∃ argv, birdArgv host a = .ok argv
  handle : ∀ a ∈ r.executed, ∀ h, a.handle = some h →
    h ∈ start.handles ∧ h.toList <:+: request.toList
  query : ∀ a ∈ r.executed, ∀ q, a.query = some q →
    q ∈ start.queries ∧ q.toList <:+: request.toList
  source : ∀ a ∈ r.executed, ∀ b ∈ r.executed,
    a.operation = b.operation ∧ a.handle = b.handle ∧ a.query = b.query
  different : r.executed.Nodup
  limit : r.executed.length ≤ executionsLimit
  distinct : (r.state.tweets.map (·.id)).Nodup
  /-- a request that is refused fetches nothing. -/
  refused : start.active = false →
    r.executed = [] ∧ r.state.tweets = [] ∧ r.state.verdict = .needs_clarification
  room : start.active = true → (r.state.tweets.length : ℚ) ≤ start.count
  complete : r.state.verdict = .complete → (r.state.tweets.length : ℚ) = start.count
  /-- a count that is reached before the time is over completes the retrieval. -/
  reached : start.active = true → (r.state.tweets.length : ℚ) = start.count →
    r.state.reason ≠ "elapsed_limit" → r.state.verdict = .complete
  idle : r.state.active = false → ∀ later, r.calls host later = r

/-- **A retrieval stays within the request**, whatever the model answers and the pages hold, and
in whatever order the steps come. -/
theorem retrieval_within_request (host : Host) (now : ℕ → ℤ) (input : Value)
    (calls : List Call) :
    WithinRequest host (requestText (input.get "request"))
      (prepareBirdRetrieval host now input)
      ((Run.start host now input).calls host calls) := by
  have hfresh := prepare_fresh host now input
  cases hactive : (prepareBirdRetrieval host now input).active with
  | false =>
    have hidle : (Run.start host now input).calls host calls = Run.start host now input :=
      calls_of_inactive hactive hfresh.needed calls
    have hverdict : (prepareBirdRetrieval host now input).verdict = .needs_clarification := by
      rcases hfresh.verdict with ⟨hon, -⟩ | ⟨-, hv⟩
      · rw [hactive] at hon
        cases hon
      · exact hv
    rw [hidle]
    exact {
      accepted := nofun
      handle := nofun
      query := nofun
      source := nofun
      different := List.nodup_nil
      limit := Nat.zero_le _
      distinct := by
        show ((prepareBirdRetrieval host now input).tweets.map (·.id)).Nodup
        rw [hfresh.tweets]
        exact List.nodup_nil
      refused := fun _ => ⟨rfl, hfresh.tweets, hverdict⟩
      room := fun hon => by
        rw [hactive] at hon
        cases hon
      complete := fun hc => by
        have heq := hverdict.symm.trans hc
        cases heq
      reached := fun hon => by
        rw [hactive] at hon
        cases hon
      idle := fun _ later => calls_of_inactive hactive hfresh.needed later }
  | true =>
    have h : Inv host (prepareBirdRetrieval host now input)
        ((Run.start host now input).calls host calls) :=
      (Inv.of_fresh hfresh hactive : Inv host _ (Run.start host now input)).calls calls
    have hmem : ∀ {o : Option String} {s : String}, o.filter (· ≠ "") = some s → o = some s :=
      fun heq => (Option.filter_eq_some_iff.mp heq).1
    exact {
      accepted := fun a ha => (h.executed a ha).accepted
      handle := fun a ha c hc => by
        have hset := h.handle c (hmem ((h.executed a ha).handle.symm.trans hc))
        exact ⟨hset, prepare_handles host now input hset⟩
      query := fun a ha c hc => by
        have hset := h.query c (hmem ((h.executed a ha).query.symm.trans hc))
        exact ⟨hset, prepare_queries host now input hset⟩
      source := fun a ha b hb => by
        obtain ⟨-, hsource, hhandle, hquery⟩ := h.executed a ha
        obtain ⟨-, hsource', hhandle', hquery'⟩ := h.executed b hb
        exact ⟨Option.some.inj (hsource.symm.trans hsource'), hhandle.trans hhandle'.symm,
          hquery.trans hquery'.symm⟩
      different := (h.noted ▸ h.different : (_ : List String).Nodup).of_map _
      limit := h.limit
      distinct := h.distinct
      refused := fun hoff => by
        rw [hactive] at hoff
        cases hoff
      room := fun _ => h.room
      complete := h.ending.complete
      reached := fun _ hfull hreason => (h.ending.reached hfull).resolve_right hreason
      idle := h.idle }

/-! ## a full retrieval that is not complete -/

/-- a host that reads numerals in base ten. -/
def decimalHost : Host where
  executable := none
  stringify a := "\x7b\"operation\":\"" ++ a.operation.name ++ "\",\"count\":" ++
    toString a.count.num ++ "\x7d"
  number text := text.foldl (fun n c => 10 * n + (c.toNat - 48 : ℕ)) 0
  offUnity ps := decide (ps.foldl (· + ·) 0 < 49 / 50) || decide (51 / 50 < ps.foldl (· + ·) 0)
  notAnObject := "right side of 'in' is not an object"

/-- the answer to a choice, without a doubt. -/
def surely (chosen : String) (allowed : List String) : Value :=
  obj [("type", str "choice"), ("choice", str chosen), ("confidence", num 1),
    ("probabilities", obj (allowed.map fun key => (key, num (if key = chosen then 1 else 0))))]

/-- a decision for the following feed. -/
def followingDecision : Value :=
  obj [("shadowStatus", str "ok"), ("advisoryOnly", bool true), ("authoritative", bool false),
    ("error", null), ("answers", obj
      [("action", surely "following" choices), ("handle", surely "none" candidateChoices),
        ("query", surely "none" candidateChoices),
        ("supported", obj [("type", str "noul"), ("noul", num 1)])])]

/-- a page with one record. -/
def onePage : BirdPage where
  tweets := [⟨obj [("id", str "1"), ("text", str "one")], "1", rfl⟩]
  cursor := none

/-- one turn that fetches a page; the page has come when the clock shows `arrival`. -/
def pageTurn (arrival : ℤ) : Turn where
  actionClock _ := 0
  executeClock k := if k < 3 then 0 else arrival
  actionDecision := followingDecision
  executor _ _ := .ok onePage
  evidenceClock _ := arrival
  checkClock _ := arrival
  evidenceDecision := undefined

/-- the state that steps lead to, for a request. -/
def retrieved (request : String) (calls : List Call) : RetrievalState :=
  ((Run.start decimalHost (fun _ => 0) (obj [("request", str request)])).calls decimalHost
    calls).state

/-- A request for no tweets has its count and is refused; a request for one tweet whose page
comes after a minute has its count and is partial. -/
theorem full_but_not_complete :
    (let r := retrieved "Get 0 following tweets" []
     (r.tweets.length : ℚ) = r.count ∧ r.verdict = .needs_clarification) ∧
    (let r := retrieved "Get 1 following tweets" (pageTurn 60000).calls
     (r.tweets.length : ℚ) = r.count ∧ r.verdict = .partially) := by
  decide +kernel

example : (retrieved "Get 1 following tweets" (pageTurn 500).calls).verdict = .complete := by
  decide +kernel

end BirdRetrieval
end Pipelines
end WmAutopilot
