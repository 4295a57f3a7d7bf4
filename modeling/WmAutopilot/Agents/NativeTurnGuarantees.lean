import Mathlib.Data.List.Dedup
import WmAutopilot.Agents.NativeTurnHeard

/-!
# What is counted and what is returned

* `requests`       the requests that a transcript logs, each once;
* `count_eq`       the count is that of the requests;
* `Selected`       what the boundary knows; `select` its step;
* `boundary_returns`, `boundary_fails`   the selected turn is returned, or its prompt refused;
* `turn_boundary`  all of it, for every transcript of which the lines are told apart;
* `replay_leaks`   a line of an earlier turn is returned where no id is in effect.
-/

set_option autoImplicit false

namespace WmAutopilot
namespace NativeTurns
open Js Value

/-! ## requests -/

/-- the turn that a line asks for. -/
def Entry.requested (e : Entry) : Option ℕ :=
  match e.role with
  | .request k => some k
  | _ => none

/-- **The requests of a transcript**, each once, in whatever forms. -/
def requests (es : List Entry) : List ℕ := (es.filterMap Entry.requested).dedup

section
variable {turns : Turns} {s : NativeTurnRecords} {rid : Option String} {p : Progress}
  {k : ℕ} {source : String}

/-- a transcript is begun where it was not asked. -/
def Progress.Begun (p : Progress) : Prop := p.asked = false → 1 ≤ p.turn

/-- **One line** asks for nothing, for a turn again or for the next one. -/
theorem requested_after {e : Entry} (hb : p.Begun) (ha : Allows turns p e) :
    (p.after e).Begun ∧
      ((e.requested = none ∧ (p.after e).seen = p.seen) ∨
        (e.requested = some p.turn ∧ 1 ≤ p.turn ∧ p.seen = p.turn ∧ (p.after e).seen = p.seen) ∨
        (e.requested = some (p.seen + 1) ∧ (p.after e).seen = p.seen + 1)) := by
  have hbegin : ∀ k, (k = p.turn ∧ 1 ≤ k) ∨ (k = p.turn + 1 ∧ p.asked = true) →
      (p.begin k).Begun ∧ (p.begin k).seen = p.seen := by
    rintro k (⟨rfl, hk⟩ | ⟨rfl, hasked⟩)
    · simp [Progress.begin, Progress.Begun, Progress.seen, hk]
    · simp [Progress.begin, Progress.Begun, Progress.seen, hasked]
  cases ha with
  | context k own hown hk => exact ⟨(hbegin k hk).1, .inl ⟨rfl, (hbegin k hk).2⟩⟩
  | started k own source hown hk => exact ⟨(hbegin k hk).1, .inl ⟨rfl, (hbegin k hk).2⟩⟩
  | request k own source hown hk =>
    by_cases hfirst : p.First k
    · have hseen := hfirst.seen hb
      subst hseen
      simp only [Progress.after, hfirst.ask]
      exact ⟨by simp [Progress.Begun], .inr (.inr ⟨rfl, by simp [Progress.seen]⟩)⟩
    · obtain ⟨rfl, hasked, hturn, hacted, hnew⟩ := hk.resolve_left hfirst
      have hask : p.ask p.turn source =
          { p with forms := source :: p.forms, separated := false } := by
        simp [Progress.ask, hasked]
      simp only [Progress.after, hask]
      exact ⟨hb, .inr (.inl ⟨rfl, hturn, by simp [Progress.seen, hasked], rfl⟩)⟩
  | activity own source item hown hasked hturn hacts => exact ⟨hb, .inl ⟨rfl, rfl⟩⟩
  | replayedRequest j source hj hid => exact ⟨hb, .inl ⟨rfl, rfl⟩⟩
  | replayedActivity j source item hj hid hacts => exact ⟨hb, .inl ⟨rfl, rfl⟩⟩
  | nothing => exact ⟨hb, .inl ⟨rfl, rfl⟩⟩
  | noItem own source => exact ⟨hb, .inl ⟨rfl, rfl⟩⟩

/-- **The turns that are asked for** are those that were, and the ones up to the last. -/
theorem requested_iff {es : List Entry} (hb : p.Begun) (ht : Transcript turns p es) :
    p.seen ≤ (progress p es).seen ∧
      (∀ k ∈ es.filterMap Entry.requested, 1 ≤ k ∧ k ≤ (progress p es).seen) ∧
      ∀ k, p.seen < k → k ≤ (progress p es).seen → k ∈ es.filterMap Entry.requested := by
  induction es generalizing p with
  | nil => exact ⟨le_refl _, by simp, fun k hlt hle => absurd (lt_of_lt_of_le hlt hle) (lt_irrefl _)⟩
  | cons e es ih =>
    obtain ⟨hb', hafter⟩ := requested_after hb ht.1
    obtain ⟨hle, hsound, hall⟩ := ih hb' ht.2
    change p.seen ≤ (progress (p.after e) es).seen ∧
      (∀ k ∈ (e :: es).filterMap Entry.requested, 1 ≤ k ∧ k ≤ (progress (p.after e) es).seen) ∧
      ∀ k, p.seen < k → k ≤ (progress (p.after e) es).seen →
        k ∈ (e :: es).filterMap Entry.requested
    rcases hafter with ⟨hreq, hseen⟩ | ⟨hreq, hturn, hp, hseen⟩ | ⟨hreq, hseen⟩
    · rw [List.filterMap_cons_none hreq]
      exact ⟨hseen ▸ hle, hsound, hseen ▸ hall⟩
    · rw [List.filterMap_cons_some hreq]
      refine ⟨hseen ▸ hle, ?_, fun k hlt hk => List.mem_cons_of_mem _ (hall k (hseen ▸ hlt) hk)⟩
      intro k hk
      rcases List.mem_cons.mp hk with rfl | hk
      · exact ⟨hturn, by omega⟩
      · exact hsound k hk
    · rw [List.filterMap_cons_some hreq]
      refine ⟨by omega, ?_, ?_⟩
      · intro k hk
        rcases List.mem_cons.mp hk with rfl | hk
        · exact ⟨by omega, by omega⟩
        · exact hsound k hk
      · intro k hlt hk
        by_cases heq : k = p.seen + 1
        · exact heq ▸ List.mem_cons_self
        · exact List.mem_cons_of_mem _ (hall k (by omega) hk)

theorem length_requests {es : List Entry} (ht : Transcript turns {} es) :
    (requests es).length = (progress {} es).seen := by
  have hb : ({} : Progress).Begun := by simp [Progress.Begun]
  obtain ⟨-, hsound, hall⟩ := requested_iff hb ht
  have hperm : (requests es).Perm (List.range' 1 (progress {} es).seen) := by
    refine (List.perm_ext_iff_of_nodup (List.nodup_dedup _) List.nodup_range').mpr fun k => ?_
    rw [List.mem_dedup, List.mem_range'_1]
    constructor
    · intro hk
      have := hsound k hk
      omega
    · rintro ⟨hpos, hk⟩
      exact hall k (by simp [Progress.seen]; omega) (by omega)
  rw [hperm.length_eq, List.length_range']

/-! ## the count -/

theorem Transcript.take {es : List Entry} (n : ℕ) (ht : Transcript turns p es) :
    Transcript turns p (es.take n) := by
  induction es generalizing p n with
  | nil => simpa using ht
  | cons e es ih =>
    cases n with
    | zero => trivial
    | succ n => exact ⟨ht.1, ih n ht.2⟩

theorem Fitting.take {es : List Entry} (n : ℕ) (hf : Fitting turns s rid p es) :
    Fitting turns s rid p (es.take n) := by
  induction es generalizing s rid p n with
  | nil => simpa using hf
  | cons e es ih =>
    cases n with
    | zero => trivial
    | succ n => exact ⟨hf.1, fun s' event h => ih n (hf.2 s' event h)⟩

theorem Fitting.cons {e : Entry} {es : List Entry} {s' : NativeTurnRecords}
    {event : Option NativeTurnRecord} (hfit : Fit turns s rid p e)
    (hstep : s.step e.line = .ok (s', event))
    (hrest : Fitting turns s' (ridAfter s rid p e) (p.after e) es) :
    Fitting turns s rid p (e :: es) := by
  refine ⟨hfit, fun s₁ event₁ hstep₁ => ?_⟩
  obtain ⟨rfl, -⟩ := Prod.ext_iff.mp (Except.ok.inj (hstep.symm.trans hstep₁))
  exact hrest

theorem Rel.initial : Rel turns {} none {} where
  count := rfl
  turnId := by simp
  begun := by simp
  users := by simp
  own := by simp
  registered := by simp
  last := by simp

variable {toText : Value → String}

theorem visitAll_cons {σ : Type} {visit : σ → Value → Except String (σ × Option NativeTurnRecord)}
    {s s₁ s₂ : σ} {record : Value} {records : List Value} {event : Option NativeTurnRecord}
    {events : List NativeTurnRecord} (h : visit s record = .ok (s₁, event))
    (hrest : visitAll visit s₁ records = .ok (s₂, events)) :
    visitAll visit s (record :: records) = .ok (s₂, event.toList ++ events) := by
  change (visit s record >>= _) = _
  rw [h]
  change (visitAll visit s₁ records >>= _) = _
  rw [hrest]
  rfl

/-- **The count** is that of the requests, of every transcript whose lines are told apart. -/
theorem visitAll_count {es : List Entry} {records : List Value}
    (hlines : es.map Entry.line = records.map (parse toText)) (h : Rel turns s rid p)
    (ht : Transcript turns p es) (hf : Fitting turns s rid p es) :
    ∃ s' events, visitAll (NativeTurnRecords.visit toText) s records = .ok (s', events) ∧
      s'.count = (progress p es).seen := by
  induction es generalizing s rid p records with
  | nil =>
    obtain rfl : records = [] := by simpa using hlines.symm
    exact ⟨s, [], rfl, h.count⟩
  | cons e es ih =>
    cases records with
    | nil => simp at hlines
    | cons record records =>
      obtain ⟨hline, hlines⟩ := List.cons.inj hlines
      obtain ⟨s₁, event, hstep, hrel, -⟩ := visit_heard h ht.1 hf.1
      obtain ⟨s₂, events, hrun, hcount⟩ := ih hlines hrel ht.2 (hf.2 s₁ event hstep)
      refine ⟨s₂, event.toList ++ events, ?_, hcount⟩
      rw [hline] at hstep
      exact visitAll_cons hstep hrun

/-! ## the selected turn -/

/-- **What the boundary knows**: turn `m` is selected once it is asked, and `ids` are the messages
of it that were returned. -/
structure Selected (turns : Turns) (b : NativeTurnBoundary) (rid : Option String) (p : Progress) (m : ℕ)
    (ids : List String) : Prop where
  rel : Rel turns b.records rid p
  opened : b.closed = false
  idle : b.active = false → p.seen < m ∧ ids = []
  active : b.active = true → p.seen = m
  turnId : b.active = true → p.asked = true → b.turnId = rid
  heard : ∀ r i, (r, i) ∈ b.records.messageIds → turns.messageTurn i ≤ p.seen
  known : b.active = true → p.asked = true → ∀ i, turns.messageTurn i = m →
    ((rid, i) ∈ b.records.messageIds ↔ i ∈ ids)

variable {b : NativeTurnBoundary} {m : ℕ} {ids : List String} {es : List Entry} {e : Entry}

theorem activities_skip (hrole : ∀ j, e.role ≠ .activity j) :
    activities m ids (e :: es) = activities m ids es := by
  rw [activities]
  rintro own source item j rfl
  exact hrole j rfl

theorem activities_other {own : Option String} {item : Item} (hk : k ≠ m) :
    activities m ids (⟨.item own source (some item), .activity k⟩ :: es) = activities m ids es := by
  rw [activities, if_pos hk]

theorem ridAfter_eq (hrole : ∀ k, e.role ≠ .request k) : ridAfter s rid p e = rid := by
  obtain ⟨line, role⟩ := e
  cases role with
  | request k => exact absurd rfl (hrole k)
  | start k => cases line <;> rfl
  | activity j => cases line <;> rfl
  | replay j => cases line <;> rfl
  | noise => cases line <;> rfl

theorem turn_le_after (ha : Allows turns p e) : p.turn ≤ (p.after e).turn := by
  have hbegin : ∀ k, (k = p.turn ∧ 1 ≤ k) ∨ (k = p.turn + 1 ∧ p.asked = true) →
      p.turn ≤ (p.begin k).turn := by
    rintro k (⟨rfl, -⟩ | ⟨rfl, -⟩) <;> simp [Progress.begin]
  cases ha with
  | context k own hown hk => exact hbegin k hk
  | started k own source hown hk => exact hbegin k hk
  | request k own source hown hk =>
    by_cases hfirst : p.First k
    · simp only [Progress.after, hfirst.ask]
      rcases hfirst with ⟨rfl, -⟩ | ⟨rfl, -⟩ <;> omega
    · obtain ⟨rfl, hasked, -⟩ := hk.resolve_left hfirst
      simp [Progress.after, Progress.ask, hasked]
  | _ => exact le_refl _

/-- **Past a turn** nothing of it is done any more. -/
theorem activities_past (ht : Transcript turns p es) (hm : m < p.turn) :
    activities m ids es = [] := by
  induction es generalizing p with
  | nil => rfl
  | cons e es ih =>
    have hrest := ih ht.2 (lt_of_lt_of_le hm (turn_le_after ht.1))
    cases ht.1 with
    | activity own source item hown hasked hturn hacts =>
      rw [activities_other (by omega), hrest]
    | _ => rw [activities_skip (by simp), hrest]

/-- a line that the boundary does not return. -/
theorem Selected.move {s' : NativeTurnRecords} {p' : Progress} (h : Selected turns b rid p m ids)
    (hrel : Rel turns s' rid p') (hseen : p'.seen = p.seen)
    (hasked : p'.asked = true → p.asked = true) (hm : s'.messageIds = b.records.messageIds) :
    Selected turns { b with records := s' } rid p' m ids where
  rel := hrel
  opened := h.opened
  idle := hseen ▸ h.idle
  active := hseen ▸ h.active
  turnId := fun hactive hp => h.turnId hactive (hasked hp)
  heard := by
    rw [hseen]
    exact hm ▸ h.heard
  known := fun hactive hp i hi => by
    have := h.known hactive (hasked hp) i hi
    exact hm ▸ this

/-- **A line is returned** when it is something that turn `m` does: the boundary is closed, and
nothing of the turn follows, or it goes on. -/
def Returns (turns : Turns) (m : ℕ) (ids : List String) (e : Entry) (rid : Option String)
    (p : Progress) (b : NativeTurnBoundary) (event : Option NativeTurnRecord) : Prop :=
  (b.closed = true ∧ ∀ es, Transcript turns p es →
      activities m ids (e :: es) = (event.bind (·.item)).toList) ∨
    ∃ ids', Selected turns b rid p m ids' ∧
      ∀ es, activities m ids (e :: es) = (event.bind (·.item)).toList ++ activities m ids' es

variable {s' : NativeTurnRecords} {checkpoint : ℕ}

/-- a start ends the selected turn when its id is another. -/
theorem select_start {line : Parsed} {id : Option String} (h : Selected turns b rid p m ids)
    (hrel : Rel turns s' rid (p.begin k))
    (hk : (k = p.turn ∧ 1 ≤ k) ∨ (k = p.turn + 1 ∧ p.asked = true))
    (hid : k = p.turn → p.asked = true → id = rid) (hm : s'.messageIds = b.records.messageIds)
    (prompt : String) :
    ∃ b' event, ({ b with records := s' } : NativeTurnBoundary).receive checkpoint prompt
        { turnId := id, source } = .ok (b', event) ∧
      Returns turns m ids ⟨line, .start k⟩ rid (p.begin k) b' event := by
  have hseen : (p.begin k).seen = p.seen := by
    rcases hk with ⟨rfl, -⟩ | ⟨rfl, hasked⟩ <;> simp [Progress.begin, Progress.seen, *]
  have hasked : (p.begin k).asked = true → p.asked = true := by
    rcases hk with ⟨rfl, -⟩ | ⟨rfl, hasked⟩
    · simp [Progress.begin]
    · exact fun _ => hasked
  have hmove := h.move hrel hseen hasked hm
  by_cases hother : b.active = true ∧ id ≠ b.turnId
  · refine ⟨{ b with records := s', closed := true }, none, ?_, .inl ⟨rfl, fun es ht => ?_⟩⟩
    · simp [NativeTurnBoundary.receive, hother]
    · rw [activities_skip (by simp)]
      refine activities_past ht ?_
      have hactive := h.active hother.1
      rcases hk with ⟨rfl, hturn⟩ | ⟨rfl, hp⟩
      · cases hp : p.asked with
        | true => exact absurd ((hid rfl hp).trans (h.turnId hother.1 hp).symm) hother.2
        | false =>
          have : p.seen = p.turn - 1 := by simp [Progress.seen, hp]
          simp only [Progress.begin, if_pos]
          omega
      · have : p.seen = p.turn := by simp [Progress.seen, hp]
        simp [Progress.begin]
        omega
  · by_cases hactive : b.active = true
    · refine ⟨{ b with records := s' }, some { turnId := id, source }, ?_, .inr ⟨ids, hmove, ?_⟩⟩
      · have hsame : id = b.turnId := by
          by_contra hne
          exact hother ⟨hactive, hne⟩
        simp [NativeTurnBoundary.receive, hactive, hsame]
      · exact fun es => activities_skip (by simp)
    · refine ⟨{ b with records := s' }, none, ?_, .inr ⟨ids, hmove, ?_⟩⟩
      · simp [NativeTurnBoundary.receive, hactive]
      · exact fun es => activities_skip (by simp)

/-- **A first request** selects its turn, and ends the one before. -/
theorem select_first {r : Option String} {line : Parsed} (h : Selected turns b rid p m ids)
    (hk : p.First k) (hrel : Rel turns s' r (p.ask k source))
    (hm : s'.messageIds = b.records.messageIds) (hc : m = checkpoint + 1) :
    ∃ b' event, ({ b with records := s' } : NativeTurnBoundary).receive checkpoint (turns.prompt m)
        { item := some (.user (turns.prompt k)), turnId := r, source } = .ok (b', event) ∧
      Returns turns m ids ⟨line, .request k⟩ r (p.ask k source) b' event := by
  have hseen := hk.seen h.rel.begun
  have hafter : (p.ask k source).seen = k := by simp [hk.ask, Progress.seen]
  have hcount : s'.count = k := hrel.count.trans hafter
  have hheard : ∀ r i, (r, i) ∈ s'.messageIds → turns.messageTurn i ≤ p.seen := hm ▸ h.heard
  by_cases hle : k ≤ checkpoint
  · have hidle : b.active = false := by
      by_contra hactive
      have := h.active (by simpa using hactive)
      omega
    refine ⟨{ b with records := s' }, none, ?_, .inr ⟨ids, ⟨hrel, h.opened, ?_, ?_, ?_, ?_, ?_⟩, ?_⟩⟩
    · simp [NativeTurnBoundary.receive, hcount, hle]
    · exact fun _ => ⟨by omega, (h.idle hidle).2⟩
    · simp [hidle]
    · simp [hidle]
    · intro r i hi
      have := hheard r i hi
      omega
    · simp [hidle]
    · exact fun es => activities_skip (by simp)
  · by_cases hactive : b.active = true
    · refine ⟨{ b with records := s', closed := true }, none, ?_, .inl ⟨rfl, fun es ht => ?_⟩⟩
      · simp [NativeTurnBoundary.receive, hcount, hle, hactive]
      · rw [activities_skip (by simp)]
        refine activities_past ht ?_
        have := h.active hactive
        simp only [hk.ask]
        omega
    · obtain ⟨hlt, rfl⟩ := h.idle (by simpa using hactive)
      obtain rfl : k = m := by omega
      refine ⟨{ b with records := s', active := true, turnId := r }, none, ?_,
        .inr ⟨[], ⟨hrel, h.opened, ?_, fun _ => hafter, fun _ _ => rfl, ?_, ?_⟩, ?_⟩⟩
      · simp [NativeTurnBoundary.receive, hcount, hactive, hc]
      · simp
      · intro r i hi
        have := hheard r i hi
        omega
      · intro _ _ i hi
        refine iff_of_false (fun hin => ?_) (by simp)
        have := hheard _ i hin
        omega
      · exact fun es => activities_skip (by simp)

/-- what is no request is returned or dropped. -/
theorem receive_acts {item : Item} (hitem : ∀ text, item ≠ .user text) (prompt : String)
    (b : NativeTurnBoundary) (r : Option String) (source : String) :
    b.receive checkpoint prompt { item := some item, turnId := r, source } =
      if ¬b.active ∨ ((present b.turnId).isSome ∧ r ≠ b.turnId) then .ok (b, none)
      else .ok ({ b with closed := item.terminal }, some { item := some item, turnId := r, source }) := by
  cases item with
  | user text => exact absurd rfl (hitem text)
  | message | tools | complete | aborted => rfl

/-- **What a turn does** is returned for the selected turn. -/
theorem select_acts {own : Option String} {item : Item} (h : Selected turns b rid p m ids)
    (hasked : p.asked = true) (hacts : item.Acts turns p.turn)
    (hrel : Rel turns s' rid { p with acted := true, separated := true })
    (hnew : ∀ i, item.messageId = some i → (rid, i) ∉ b.records.messageIds)
    (hm : s'.messageIds = (item.messageId.map (rid, ·)).toList ++ b.records.messageIds)
    (prompt : String) :
    ∃ b' event, ({ b with records := s' } : NativeTurnBoundary).receive checkpoint prompt
        { item := some item, turnId := rid, source } = .ok (b', event) ∧
      Returns turns m ids ⟨.item own source (some item), .activity p.turn⟩ rid
        { p with acted := true, separated := true } b' event := by
  have hseen : p.seen = p.turn := by simp [Progress.seen, hasked]
  have hheard : ∀ r i, (r, i) ∈ s'.messageIds → turns.messageTurn i ≤ p.seen := by
    intro r i hi
    rw [hm] at hi
    rcases List.mem_append.mp hi with hi | hi
    · obtain ⟨i', hi', heq⟩ := Option.map_eq_some_iff.mp (Option.mem_toList.mp hi)
      obtain rfl : i' = i := (Prod.ext_iff.mp heq).2
      exact hseen ▸ (hacts.2 i' hi').le
    · exact h.heard r i hi
  rw [receive_acts hacts.1]
  by_cases hactive : b.active = true
  · have hturn : p.turn = m := hseen.symm.trans (h.active hactive)
    have hsame := h.turnId hactive hasked
    have hknown := h.known hactive hasked
    refine ⟨{ b with records := s', closed := item.terminal },
      some { item := some item, turnId := rid, source }, by simp [hactive, hsame], ?_⟩
    subst hturn
    cases hi : item.messageId with
    | none =>
      cases hterminal : item.terminal with
      | true => exact .inl ⟨rfl, fun es _ => by simp [activities, hi, hterminal]⟩
      | false =>
        refine .inr ⟨ids, ⟨hrel, rfl, ?_, fun _ => hseen, fun _ _ => hsame, hheard, ?_⟩, fun es => ?_⟩
        · simp [hactive]
        · exact fun _ _ i hi' => by simpa [hm, hi] using hknown i hi'
        · simp [activities, hi, hterminal]
    | some i =>
      have hterminal : item.terminal = false := by
        cases item with
        | message | tools | user => rfl
        | complete | aborted => simp [Item.messageId] at hi
      have hfresh : i ∉ ids := fun hin => hnew i hi ((hknown i (hacts.2 i hi)).mpr hin)
      refine .inr ⟨i :: ids,
        ⟨hrel, hterminal, ?_, fun _ => hseen, fun _ _ => hsame, hheard, ?_⟩, fun es => ?_⟩
      · simp [hactive]
      · exact fun _ _ j hj => by simp [hm, hi, hknown j hj]
      · simp [activities, hi, hfresh]
  · have hidle := h.idle (by simpa using hactive)
    have hne : p.turn ≠ m := by omega
    refine ⟨{ b with records := s' }, none, by simp [hactive], .inr ⟨ids, ⟨hrel, h.opened,
      fun _ => hidle, ?_, ?_, hheard, ?_⟩, fun es => activities_other hne⟩⟩
    · simp [hactive]
    · simp [hactive]
    · simp [hactive]

theorem visit_none {record : Value} (hopen : b.closed = false) (hline : e.line = parse toText record)
    (hstep : b.records.step e.line = .ok (s', none)) (prompt : String) :
    b.visit toText checkpoint prompt record = .ok ({ b with records := s' }, none) := by
  rw [NativeTurnBoundary.visit, if_neg (by simp [hopen]), NativeTurnRecords.visit, ← hline, hstep]
  rfl

theorem visit_some {record : Value} {event : NativeTurnRecord} (hopen : b.closed = false)
    (hline : e.line = parse toText record) (hstep : b.records.step e.line = .ok (s', some event))
    (prompt : String) :
    b.visit toText checkpoint prompt record =
      ({ b with records := s' } : NativeTurnBoundary).receive checkpoint prompt event := by
  rw [NativeTurnBoundary.visit, if_neg (by simp [hopen]), NativeTurnRecords.visit, ← hline, hstep]
  rfl

/-- **One line** of the boundary. -/
theorem select (hc : m = checkpoint + 1) {record : Value} (hline : e.line = parse toText record)
    (h : Selected turns b rid p m ids) (ha : Allows turns p e) (hf : Fit turns b.records rid p e) :
    ∃ b' event, b.visit toText checkpoint (turns.prompt m) record = .ok (b', event) ∧
      Returns turns m ids e (ridAfter b.records rid p e) (p.after e) b' event := by
  obtain ⟨s', event, hstep, hrel, hheard⟩ := visit_heard h.rel ha hf
  have hquiet : event = none → Selected turns { b with records := s' }
      (ridAfter b.records rid p e) (p.after e) m ids →
      (∀ es, activities m ids (e :: es) = activities m ids es) →
      ∃ b' event, b.visit toText checkpoint (turns.prompt m) record = .ok (b', event) ∧
        Returns turns m ids e (ridAfter b.records rid p e) (p.after e) b' event := by
    rintro rfl hsel hskip
    exact ⟨_, none, visit_none h.opened hline hstep _, .inr ⟨ids, hsel, hskip⟩⟩
  cases hheard with
  | start s' line k id source hk hid hm =>
    rw [ridAfter_eq (by simp)] at hrel ⊢
    rw [visit_some h.opened hline hstep]
    exact select_start h hrel hk hid hm _
  | first s' k own source hk hm =>
    have hnew : ridAfter b.records rid p
        ⟨.item own source (some (.user (turns.prompt k))), .request k⟩ =
        own.or b.records.turnId := if_neg hk.not_again
    rw [hnew] at hrel ⊢
    rw [visit_some h.opened hline hstep]
    exact select_first h hk hrel hm hc
  | mirror s' own source hasked hm =>
    have hsame : ridAfter b.records rid p
        ⟨.item own source (some (.user (turns.prompt p.turn))), .request p.turn⟩ = rid :=
      if_pos ⟨rfl, hasked⟩
    refine hquiet rfl ?_ fun es => activities_skip (by simp)
    rw [hsame] at hrel ⊢
    have hask : p.ask p.turn source =
        { p with forms := source :: p.forms, separated := false } := by
      simp [Progress.ask, hasked]
    refine h.move hrel ?_ (fun _ => hasked) hm
    simp only [Progress.after, hask]
    rfl
  | acts s' own source item hasked hacts hnew hm =>
    rw [ridAfter_eq (by simp)] at hrel ⊢
    rw [visit_some h.opened hline hstep]
    exact select_acts h hasked hacts hrel hnew hm _
  | again s' own source item hasked hacts i hi hold hm =>
    rw [ridAfter_eq (by simp)] at hrel
    refine hquiet rfl ?_ fun es => ?_
    · rw [ridAfter_eq (by simp)]
      exact h.move hrel rfl id hm
    · by_cases hturn : p.turn = m
      · have hactive : b.active = true := by
          by_contra hidle
          have := (h.idle (by simpa using hidle)).1
          simp only [Progress.seen, hasked, if_true] at this
          omega
        have hin := (h.known hactive hasked i (hturn ▸ hacts.2 i hi)).mp hold
        subst hturn
        simp [activities, hi, hin]
      · exact activities_other hturn
  | replay line j =>
    rw [ridAfter_eq (by simp)] at hrel
    refine hquiet rfl ?_ fun es => activities_skip (by simp)
    rw [ridAfter_eq (by simp)]
    exact h.move hrel rfl id rfl
  | noise line =>
    rw [ridAfter_eq (by simp)] at hrel
    refine hquiet rfl ?_ fun es => activities_skip (by simp)
    rw [ridAfter_eq (by simp)]
    exact h.move hrel rfl id rfl

/-- the error of a request that is not the bound one. -/
abbrev mismatch : String := "Native turn checkpoint does not match the exact bound prompt/request"

/-- **One line before the selected turn**: nothing is returned, and the request of the turn is
refused when it is not the bound one. -/
theorem wait (hc : m = checkpoint + 1) {record : Value} (hline : e.line = parse toText record)
    (hrel : Rel turns b.records rid p) (hopen : b.closed = false) (hidle : b.active = false)
    (hlt : p.seen < m) (ha : Allows turns p e) (hf : Fit turns b.records rid p e)
    (prompt : String) (hprompt : prompt ≠ turns.prompt m) :
    ((p.after e).seen = m ∧ b.visit toText checkpoint prompt record = .error mismatch) ∨
      ∃ s' event, b.records.step e.line = .ok (s', event) ∧
        Rel turns s' (ridAfter b.records rid p e) (p.after e) ∧ (p.after e).seen < m ∧
        b.visit toText checkpoint prompt record = .ok ({ b with records := s' }, none) := by
  obtain ⟨s', event, hstep, hrel', hheard⟩ := visit_heard hrel ha hf
  have hafter := (requested_after hrel.begun ha).2
  have hquiet : event = none → (p.after e).seen = p.seen →
      b.visit toText checkpoint prompt record = .ok ({ b with records := s' }, none) ∧
        (p.after e).seen < m := by
    rintro rfl hseen
    exact ⟨visit_none hopen hline hstep _, by omega⟩
  cases hheard with
  | start s' line k id source hk hid hm =>
    have hseen : (p.after ⟨line, .start k⟩).seen = p.seen := by
      simpa [Entry.requested] using hafter
    refine .inr ⟨s', _, hstep, hrel', by omega, ?_⟩
    rw [visit_some hopen hline hstep]
    simp [NativeTurnBoundary.receive, hidle]
  | first s' k own source hk hm =>
    have hseen := hk.seen hrel.begun
    have hnext : (p.ask k source).seen = k := by simp [hk.ask, Progress.seen]
    have hcount : s'.count = k := hrel'.count.trans hnext
    by_cases hle : k ≤ checkpoint
    · refine .inr ⟨s', _, hstep, hrel', by simp only [Progress.after, hnext]; omega, ?_⟩
      rw [visit_some hopen hline hstep]
      simp [NativeTurnBoundary.receive, hcount, hle]
    · obtain rfl : k = m := by omega
      refine .inl ⟨hnext, ?_⟩
      rw [visit_some hopen hline hstep]
      simp only [NativeTurnBoundary.receive, hcount, hidle, if_neg hle, if_neg (Bool.false_ne_true),
        if_pos (Or.inr hprompt.symm)]
  | mirror s' own source hasked hm =>
    have hseen : p.seen = p.turn := by simp [Progress.seen, hasked]
    have hsame : (p.after ⟨.item own source (some (.user (turns.prompt p.turn))),
        .request p.turn⟩).seen = p.seen := by
      rcases hafter with ⟨hnone, -⟩ | ⟨-, -, -, hsame⟩ | ⟨hnext, -⟩
      · simp [Entry.requested] at hnone
      · exact hsame
      · simp [Entry.requested, hseen] at hnext
    obtain ⟨hvisit, hlt'⟩ := hquiet rfl hsame
    exact .inr ⟨s', none, hstep, hrel', hlt', hvisit⟩
  | acts s' own source item hasked hacts hnew hm =>
    refine .inr ⟨s', _, hstep, hrel', hlt, ?_⟩
    rw [visit_some hopen hline hstep, receive_acts hacts.1]
    simp [hidle]
  | again | replay | noise =>
    obtain ⟨hvisit, hlt'⟩ := hquiet rfl rfl
    exact .inr ⟨_, none, hstep, hrel', hlt', hvisit⟩

theorem visitAll_closed {prompt : String} (hclosed : b.closed = true) (records : List Value) :
    visitAll (NativeTurnBoundary.visit toText checkpoint prompt) b records = .ok (b, []) := by
  induction records with
  | nil => rfl
  | cons record records ih =>
    have hvisit : b.visit toText checkpoint prompt record = .ok (b, none) := by
      simp [NativeTurnBoundary.visit, hclosed]
    exact visitAll_cons hvisit ih

theorem receive_records {b b' : NativeTurnBoundary} {prompt : String} {event : NativeTurnRecord}
    {out : Option NativeTurnRecord} (h : b.receive checkpoint prompt event = .ok (b', out)) :
    b'.records = b.records := by
  rw [NativeTurnBoundary.receive] at h
  split at h <;> grind

theorem visit_records {b' : NativeTurnBoundary} {prompt : String} {record : Value}
    {out : Option NativeTurnRecord} (hopen : b.closed = false)
    (h : b.visit toText checkpoint prompt record = .ok (b', out)) :
    ∃ event, b.records.step (parse toText record) = .ok (b'.records, event) := by
  rw [NativeTurnBoundary.visit, if_neg (by simp [hopen])] at h
  obtain ⟨⟨s', event⟩, hstep, h⟩ := bind_ok.mp h
  refine ⟨event, hstep.trans ?_⟩
  cases event with
  | none =>
    obtain ⟨rfl, -⟩ := Prod.ext_iff.mp (Except.ok.inj h)
    rfl
  | some event => rw [receive_records h]

/-- **The selected turn is returned**, and nothing else. -/
theorem boundary_returns (hc : m = checkpoint + 1) {records : List Value}
    (hlines : es.map Entry.line = records.map (parse toText)) (h : Selected turns b rid p m ids)
    (ht : Transcript turns p es) (hf : Fitting turns b.records rid p es) :
    ∃ b' events, visitAll (NativeTurnBoundary.visit toText checkpoint (turns.prompt m)) b records =
        .ok (b', events) ∧ events.filterMap (·.item) = activities m ids es := by
  induction es generalizing b rid p ids records with
  | nil =>
    obtain rfl : records = [] := by simpa using hlines.symm
    exact ⟨b, [], rfl, rfl⟩
  | cons e es ih =>
    cases records with
    | nil => simp at hlines
    | cons record records =>
      obtain ⟨hline, hlines⟩ := List.cons.inj hlines
      obtain ⟨b₁, event, hvisit, hreturns⟩ := select hc hline h ht.1 hf.1
      have hitem : ∀ events : List NativeTurnRecord,
          (event.toList ++ events).filterMap (·.item) =
            (event.bind (·.item)).toList ++ events.filterMap (·.item) := by
        intro events
        cases event with
        | none => rfl
        | some event => cases hi : event.item <;> simp [hi]
      rcases hreturns with ⟨hclosed, hdone⟩ | ⟨ids', hsel, hrest⟩
      · refine ⟨b₁, event.toList ++ [], visitAll_cons hvisit (visitAll_closed hclosed _), ?_⟩
        rw [hitem, hdone es ht.2]
        simp
      · obtain ⟨ev, hstep⟩ := visit_records h.opened hvisit
        obtain ⟨b₂, events, hrun, hevents⟩ := ih hlines hsel ht.2 (hf.2 _ ev (hline ▸ hstep))
        exact ⟨b₂, event.toList ++ events, visitAll_cons hvisit hrun, by rw [hitem, hevents, hrest]⟩

/-- **A turn with another prompt is refused.** -/
theorem boundary_fails (hc : m = checkpoint + 1) {records : List Value}
    (hlines : es.map Entry.line = records.map (parse toText)) (hrel : Rel turns b.records rid p)
    (hopen : b.closed = false) (hidle : b.active = false) (hlt : p.seen < m)
    (ht : Transcript turns p es) (hf : Fitting turns b.records rid p es) (prompt : String)
    (hprompt : prompt ≠ turns.prompt m) (hreached : m ≤ (progress p es).seen) :
    visitAll (NativeTurnBoundary.visit toText checkpoint prompt) b records = .error mismatch := by
  induction es generalizing b rid p records with
  | nil => exact absurd (lt_of_lt_of_le hlt hreached) (lt_irrefl _)
  | cons e es ih =>
    cases records with
    | nil => simp at hlines
    | cons record records =>
      obtain ⟨hline, hlines⟩ := List.cons.inj hlines
      rcases wait hc hline hrel hopen hidle hlt ht.1 hf.1 prompt hprompt with
        ⟨-, herror⟩ | ⟨s₁, event, hstep, hrel', hlt', hvisit⟩
      · change (NativeTurnBoundary.visit _ _ _ _ _ >>= _) = _
        rw [herror]
        rfl
      · have hrest := ih hlines (b := { b with records := s₁ }) hrel' hopen hidle hlt' ht.2
          (hf.2 s₁ event hstep) hreached
        change (NativeTurnBoundary.visit _ _ _ _ _ >>= _) = _
        rw [hvisit]
        change (visitAll _ _ _ >>= _) = _
        rw [hrest]
        rfl

theorem Selected.initial (hm : 1 ≤ m) : Selected turns {} none {} m [] where
  rel := .initial
  opened := rfl
  idle := fun _ => ⟨hm, rfl⟩
  active := by simp
  turnId := by simp
  heard := by simp
  known := by simp

end

/-- **Native turns**: of a transcript whose lines are told apart, the count after every line is
that of the requests so far, and the boundary returns what the turn after the checkpoint does up to
its first terminal event, or refuses its prompt. -/
theorem turn_boundary (turns : Turns) (toText : Value → String) (es : List Entry)
    (records : List Value) (hlines : es.map Entry.line = records.map (parse toText))
    (ht : Transcript turns {} es) (hf : Fitting turns {} none {} es) :
    (∀ n, ∃ s events,
      visitAll (NativeTurnRecords.visit toText) {} (records.take n) = .ok (s, events) ∧
        s.count = (requests (es.take n)).length) ∧
    ∀ checkpoint prompt,
      (prompt = turns.prompt (checkpoint + 1) → ∃ b events,
        visitAll (NativeTurnBoundary.visit toText checkpoint prompt) {} records = .ok (b, events) ∧
          events.filterMap (·.item) = activities (checkpoint + 1) [] es) ∧
      (prompt ≠ turns.prompt (checkpoint + 1) → checkpoint + 1 ∈ requests es →
        visitAll (NativeTurnBoundary.visit toText checkpoint prompt) {} records =
          .error mismatch) := by
  refine ⟨fun n => ?_, fun checkpoint prompt => ⟨?_, fun hprompt hasked => ?_⟩⟩
  · have htake : (es.take n).map Entry.line = (records.take n).map (parse toText) := by
      rw [List.map_take, hlines, List.map_take]
    obtain ⟨s, events, hrun, hcount⟩ := visitAll_count htake .initial (ht.take n) (hf.take n)
    exact ⟨s, events, hrun, hcount.trans (length_requests (ht.take n)).symm⟩
  · rintro rfl
    exact boundary_returns rfl hlines (.initial (by omega)) ht hf
  · have hbegun : ({} : Progress).Begun := by simp [Progress.Begun]
    have hreached := ((requested_iff hbegun ht).2.1 _ (List.mem_dedup.mp hasked)).2
    exact boundary_fails rfl hlines .initial rfl rfl (Nat.succ_pos checkpoint) ht hf prompt hprompt
      hreached

/-! ## two turns -/

/-- `String` of the types of lines. -/
def textOf : Value → String
  | str s => s
  | undefined => "undefined"
  | _ => "[object Object]"

/-- a turn with an id and one without. -/
def twoTurns : Turns where
  prompt k := if k = 1 then "fix the build" else "run the tests"
  id k := if k = 1 then some "first" else none
  id_ne k := by split <;> simp
  id_inj j k i := by split <;> split <;> simp_all
  messageTurn _ := 2

def event (type : String) (fields : List (String × Value)) : Value :=
  obj [("type", str "event_msg"), ("payload", obj (("type", str type) :: fields))]

/-- a call of a tool, with the id of its turn. -/
def functionCall (metadata : List (String × Value)) : Value :=
  obj [("type", str "response_item"), ("payload", obj [("type", str "function_call"),
    ("internal_chat_message_metadata_passthrough", obj metadata)])]

/-- The first turn is asked in two forms. -/
def firstTurn : List Value := [
  event "task_started" [("turn_id", str "first")],
  event "user_message" [("message", str "fix the build")],
  event "item_completed" [("item", obj [("type", str "UserMessage"), ("content",
    arr [obj [("type", str "text"), ("text", str "fix the build")]])])],
  functionCall [("turn_id", str "first")],
  event "task_complete" [("turn_id", str "first"), ("last_agent_message", str "done")]]

def firstEntries : List Entry := [
  ⟨.started (some "first") "event_msg:task_started", .start 1⟩,
  ⟨.item none "event_msg:user_message" (some (.user "fix the build")), .request 1⟩,
  ⟨.item none "event_msg:item_completed" (some (.user "fix the build")), .request 1⟩,
  ⟨.item (some "first") "response_item:function_call" (some .tools), .activity 1⟩,
  ⟨.item (some "first") "event_msg:task_complete" (some (.complete (some "done") undefined)),
    .activity 1⟩]

def secondTurn : List Value := [
  event "user_message" [("message", str "run the tests")],
  functionCall [],
  event "task_complete" [("last_agent_message", str "green")]]

def secondEntries : List Entry := [
  ⟨.item none "event_msg:user_message" (some (.user "run the tests")), .request 2⟩,
  ⟨.item none "response_item:function_call" (some .tools), .activity 2⟩,
  ⟨.item none "event_msg:task_complete" (some (.complete (some "green") undefined)), .activity 2⟩]

theorem first_transcript : Transcript twoTurns {} (firstEntries ++ secondEntries) := by
  refine ⟨.started 1 _ _ (.inr rfl) (.inr ⟨rfl, rfl⟩),
    .request 1 none _ (.inl rfl) (.inl (.inl ⟨rfl, rfl⟩)),
    .request 1 none _ (.inl rfl) (.inr ⟨rfl, rfl, le_refl _, rfl, by decide⟩),
    .activity _ _ .tools (.inr rfl) rfl (le_refl _) ⟨by simp, by simp [Item.messageId]⟩,
    .activity _ _ (.complete _ _) (.inr rfl) rfl (le_refl _) ⟨by simp, by simp [Item.messageId]⟩,
    .request 2 none _ (.inl rfl) (.inl (.inr ⟨rfl, rfl, rfl⟩)),
    .activity _ _ .tools (.inl rfl) rfl (by decide) ⟨by simp, by simp [Item.messageId]⟩,
    .activity _ _ (.complete _ _) (.inl rfl) rfl (by decide) ⟨by simp, by simp [Item.messageId]⟩,
    trivial⟩

/-- a first form that no other comes before. -/
theorem Fit.first {turns : Turns} {s : NativeTurnRecords} {rid own : Option String} {p : Progress}
    {k : ℕ} {source : String} {item : Option Item} (hk : p.First k)
    (hid : s.turnId.isSome = true → s.turnId = turns.id k) (hl : s.lastUser = none) :
    Fit turns s rid p ⟨.item own source item, .request k⟩ := by
  refine ⟨fun _ => ⟨hid, by simp [hl]⟩, ?_⟩
  rintro ⟨rfl, hasked, -⟩
  exact absurd ⟨rfl, hasked⟩ hk.not_again

theorem first_fitting : Fitting twoTurns {} none {} (firstEntries ++ secondEntries) := by
  refine .cons (by simp [Fit]) rfl ?_
  refine .cons (.first (.inl ⟨rfl, rfl⟩) (fun _ => rfl) rfl) rfl ?_
  refine .cons ⟨?_, fun _ => ⟨⟨rfl, fun _ => rfl⟩, .inl rfl⟩⟩ rfl ?_
  · rintro (⟨-, hasked⟩ | ⟨hk, -⟩)
    · exact absurd hasked (by decide)
    · exact absurd hk (by decide)
  refine .cons (e := ⟨_, .activity 1⟩) ⟨rfl, fun _ => rfl⟩ rfl ?_
  refine .cons ⟨rfl, fun _ => rfl⟩ rfl ?_
  refine .cons (.first (.inr ⟨rfl, rfl, rfl⟩) (by decide) rfl) rfl ?_
  refine .cons ⟨rfl, fun _ => rfl⟩ rfl ?_
  refine .cons ⟨rfl, fun _ => rfl⟩ rfl ?_
  trivial

/-- **The second turn** is returned where it is bound, and refused for another prompt. -/
theorem turn_boundary_two :
    (∃ b events,
      visitAll (NativeTurnBoundary.visit textOf 1 "run the tests") {} (firstTurn ++ secondTurn) =
        .ok (b, events) ∧
      events.filterMap (·.item) = [.tools, .complete (some "green") undefined]) ∧
    visitAll (NativeTurnBoundary.visit textOf 1 "fix the build") {} (firstTurn ++ secondTurn) =
      .error mismatch := by
  have h := (turn_boundary twoTurns textOf (firstEntries ++ secondEntries) (firstTurn ++ secondTurn)
    (by decide +kernel) first_transcript first_fitting).2 1
  exact ⟨(h "run the tests").1 rfl, (h "fix the build").2 (by decide) (by decide)⟩

/-- The second turn is asked, and a call of the first is logged again. -/
def leakingTurn : List Value := [
  event "user_message" [("message", str "run the tests")],
  functionCall [("turn_id", str "first")]]

def leakingEntries : List Entry := [
  ⟨.item none "event_msg:user_message" (some (.user "run the tests")), .request 2⟩,
  ⟨.item (some "first") "response_item:function_call" (some .tools), .replay 1⟩]

/-- **A replayed call is returned as the next turn's** when that turn has no id. -/
theorem replay_leaks :
    ∃ (turns : Turns) (es : List Entry) (records : List Value),
      es.map Entry.line = records.map (parse textOf) ∧ Transcript turns {} es ∧
        ∃ b events,
          visitAll (NativeTurnBoundary.visit textOf 1 (turns.prompt 2)) {} records =
            .ok (b, events) ∧
          events.filterMap (·.item) ≠ activities 2 [] es := by
  refine ⟨twoTurns, firstEntries ++ leakingEntries, firstTurn ++ leakingTurn, by decide +kernel,
    ?_, _, _, rfl, by decide +kernel⟩
  refine ⟨.started 1 _ _ (.inr rfl) (.inr ⟨rfl, rfl⟩),
    .request 1 none _ (.inl rfl) (.inl (.inl ⟨rfl, rfl⟩)),
    .request 1 none _ (.inl rfl) (.inr ⟨rfl, rfl, le_refl _, rfl, by decide⟩),
    .activity _ _ .tools (.inr rfl) rfl (le_refl _) ⟨by simp, by simp [Item.messageId]⟩,
    .activity _ _ (.complete _ _) (.inr rfl) rfl (le_refl _) ⟨by simp, by simp [Item.messageId]⟩,
    .request 2 none _ (.inl rfl) (.inl (.inr ⟨rfl, rfl, rfl⟩)),
    .replayedActivity 1 _ .tools ⟨le_refl _, by decide⟩ rfl ⟨by simp, by simp [Item.messageId]⟩,
    trivial⟩

end NativeTurns
end WmAutopilot
