import Mathlib.Logic.Relation
import WmAutopilot.Pipelines.ActivityWebhooks

/-!
# The log of activity webhooks

* `entries`, `log`          what is written once, of all turns and of one;
* `Logged`                  numbers, terminal events and the cap, with `Logged.enqueue`;
* `Ordered`, `Ready`        what was attempted, and what may be;
* `Inv`, `Inv.step`         the invariant of a worker and its file;
* `Law`, `Kept`             what holds in every state, and between a state and a later one;
* `activity_log`            the log of every run.
-/

set_option autoImplicit false
set_option linter.unusedVariables false

namespace WmAutopilot
namespace Pipelines
namespace Activity
open Js Sql

/-! ## the log -/

/-- what is written once. -/
def entries (db : Db) : List Entry := db.deliveries.map Delivery.toEntry

/-- the events of a turn. -/
def log (db : Db) (turnId : String) : List Entry := (entries db).filter (·.turnId = turnId)

/-- the turn has ended. -/
def Flagged (turns : List Turn) (turnId : String) : Prop :=
  ∃ t ∈ turns, t.turnId = turnId ∧ t.terminal = true

/-- The events of each turn are numbered, a terminal one is the last, and there are at most 256
others. -/
structure Logged (db : Db) : Prop where
  turns : PrimaryKey Turn.turnId db.turns
  ids : PrimaryKey Entry.eventId (entries db)
  numbered : ∀ t, (log db t).map Entry.sequence = List.range' 1 (log db t).length
  closed : ∀ t, ∀ e ∈ log db t, e.body.type.terminal →
    Flagged db.turns t ∧ e.sequence = (log db t).length
  progress : ∀ t, ((log db t).filter fun e => ¬e.body.type.terminal).length ≤ 256
  cap : ∀ t, (log db t).length ≤ 256 ∨ Flagged db.turns t ∧ (log db t).length ≤ 257

section Logged
variable {activityEventId : String → String → String} {db db' : Db} {b : Binding}
  {source content timestamp t : String} {type : EventType} {terminal : Bool}

theorem mem_entries {d : Delivery} (h : d ∈ db.deliveries) : d.toEntry ∈ entries db :=
  List.mem_map_of_mem h

theorem mem_log {e : Entry} : e ∈ log db t ↔ e ∈ entries db ∧ e.turnId = t := by
  unfold log
  rw [List.mem_filter, decide_eq_true_iff]

theorem length_log (t : String) : (log db t).length = db.deliveries.countP (·.turnId = t) := by
  unfold log entries
  rw [← List.countP_eq_length_filter, List.countP_map]
  rfl

/-- the numbers of a turn are at most its size. -/
theorem Logged.sequence_le (h : Logged db) {e : Entry} (he : e ∈ log db t) :
    1 ≤ e.sequence ∧ e.sequence ≤ (log db t).length := by
  have hmem : e.sequence ∈ (log db t).map Entry.sequence := List.mem_map_of_mem he
  rw [h.numbered, List.mem_range'_1] at hmem
  omega

/-- the number of an event names it in its turn. -/
theorem Logged.eq_of_sequence (h : Logged db) {e e' : Entry} (he : e ∈ log db t)
    (he' : e' ∈ log db t) (hs : e.sequence = e'.sequence) : e = e' := by
  have hnodup : ((log db t).map Entry.sequence).Nodup := by
    rw [h.numbered]
    exact List.nodup_range'
  exact List.inj_on_of_nodup_map hnodup he he' hs

theorem Logged.eq_of_id (h : Logged db) {e e' : Entry} (he : e ∈ entries db) (he' : e' ∈ entries db)
    (hid : e.eventId = e'.eventId) : e = e' :=
  List.inj_on_of_nodup_map h.ids he he' hid

/-- the log depends on what is written once and on the flags. -/
theorem Logged.congr (h : Logged db) (he : entries db' = entries db)
    (hk : PrimaryKey Turn.turnId db'.turns)
    (hf : ∀ t, Flagged db.turns t → Flagged db'.turns t) : Logged db' := by
  have hlog : ∀ t, log db' t = log db t := fun t => by rw [log, he]; rfl
  refine ⟨hk, he ▸ h.ids, fun t => ?_, fun t => ?_, fun t => ?_, fun t => ?_⟩
  · rw [hlog]
    exact h.numbered t
  · rw [hlog]
    exact fun e hm ht => (h.closed t e hm ht).imp_left (hf t)
  · rw [hlog]
    exact h.progress t
  · rw [hlog]
    exact (h.cap t).imp_right (.imp_left (hf t))

/-- the row of a new event. -/
def newDelivery (b : Binding) (eventId : String) (count : ℕ) (type : EventType)
    (content timestamp : String) : Delivery :=
  { eventId, turnId := b.turnId, sequence := count + 1, url := b.destination.url
    body := eventOf b eventId (count + 1) type content timestamp }

/-- **What `enqueue` does**: nothing, or it adds the next event of a turn that has not ended. -/
theorem enqueue_cases (hk : PrimaryKey Turn.turnId db.turns)
    (h : (enqueue activityEventId b source type content timestamp terminal db).2 = db') :
    db' = db ∨
    ¬Flagged db.turns b.turnId ∧
    (∀ d ∈ db.deliveries, d.eventId ≠ activityEventId b.turnId source) ∧
    (terminal ∨ (log db b.turnId).length < 256) ∧ (∃ turn ∈ db.turns, turn.turnId = b.turnId) ∧
    db' = { db with
      deliveries := db.deliveries ++ [newDelivery b (activityEventId b.turnId source)
        (log db b.turnId).length type content timestamp]
      turns := if terminal then
          update (fun t => t.turnId = b.turnId) (fun t => { t with terminal := true }) db.turns
        else db.turns } := by
  unfold enqueue at h
  cases hbody : enqueueBody activityEventId b source type content timestamp terminal db with
  | error e =>
    rw [hbody] at h
    exact Or.inl h.symm
  | ok db₁ =>
    rw [hbody] at h
    obtain rfl : db₁ = db' := h
    unfold enqueueBody at hbody
    obtain ⟨state, hstate, hbody⟩ := bind_ok.mp hbody
    rw [orThrow_ok] at hstate
    obtain ⟨hmem, hid⟩ := mem_of_find hstate
    dsimp only at hbody
    split at hbody
    · cases hbody
      exact Or.inl rfl
    rename_i hopen
    split at hbody
    · obtain ⟨_, -, hbody⟩ := bind_ok.mp hbody
      cases hbody
      exact Or.inl rfl
    rename_i hnew
    split at hbody
    · cases hbody
      exact Or.inl rfl
    rename_i hcap
    obtain ⟨_, -, hbody⟩ := bind_ok.mp hbody
    cases hbody
    refine Or.inr ⟨?_, ?_, ?_, ⟨state, hmem, hid⟩, ?_⟩
    · rintro ⟨turn, hturn, hturnId, hterminal⟩
      rw [hk.eq hturn hmem (hturnId.trans hid.symm)] at hterminal
      exact hopen hterminal
    · exact fun d hd hdid => List.find?_eq_none.mp hnew d hd (decide_eq_true hdid)
    · rw [length_log]
      by_cases hterminal : terminal = true
      · exact Or.inl hterminal
      · exact Or.inr (not_le.mp fun hle => hcap ⟨hterminal, hle⟩)
    · rw [length_log]
      rfl

theorem entries_append (d : Delivery) (turns : List Turn) :
    entries { db with deliveries := db.deliveries ++ [d], turns } = entries db ++ [d.toEntry] := by
  unfold entries
  exact List.map_append

/-- the flags after the terminal event of a turn. -/
theorem flagged_update (turns : List Turn) :
    Flagged (update (fun t => t.turnId = b.turnId) (fun t => { t with terminal := true }) turns) t ↔
      Flagged turns t ∨ t = b.turnId ∧ ∃ turn ∈ turns, turn.turnId = b.turnId := by
  unfold Flagged
  constructor
  · rintro ⟨turn, hturn, ht, hf⟩
    obtain ⟨old, hold, rfl⟩ := mem_update.mp hturn
    by_cases hid : old.turnId = b.turnId
    · rw [if_pos hid] at ht
      exact Or.inr ⟨ht.symm.trans hid, old, hold, hid⟩
    · rw [if_neg hid] at ht hf
      exact Or.inl ⟨old, hold, ht, hf⟩
  · rintro (⟨turn, hturn, ht, hf⟩ | ⟨rfl, turn, hturn, hid⟩)
    · refine ⟨_, mem_update.mpr ⟨turn, hturn, rfl⟩, ?_⟩
      split
      · exact ⟨ht, rfl⟩
      · exact ⟨ht, hf⟩
    · refine ⟨_, mem_update.mpr ⟨turn, hturn, rfl⟩, ?_⟩
      rw [if_pos hid]
      exact ⟨hid, rfl⟩

theorem turnKeys_update {p : Turn → Prop} [DecidablePred p] {f : Turn → Turn} {turns : List Turn}
    (hf : ∀ t, (f t).turnId = t.turnId) (hk : PrimaryKey Turn.turnId turns) :
    PrimaryKey Turn.turnId (update p f turns) := by
  have hmap : (update p f turns).map Turn.turnId = turns.map Turn.turnId := by
    unfold update
    rw [List.map_map]
    refine List.map_congr_left fun t _ => ?_
    show (if p t then f t else t).turnId = t.turnId
    split
    · exact hf t
    · rfl
  rw [PrimaryKey, hmap]
  exact hk

theorem log_append (d : Delivery) (turns : List Turn) :
    log { db with deliveries := db.deliveries ++ [d], turns } t =
      if d.turnId = t then log db t ++ [d.toEntry] else log db t := by
  unfold log
  rw [entries_append, List.filter_append]
  by_cases h : d.turnId = t
  · rw [if_pos h, List.filter_singleton, decide_eq_true h]
    rfl
  · rw [if_neg h, List.filter_singleton, decide_eq_false h]
    exact List.append_nil _

/-- **The next event of a turn** keeps the log. -/
theorem Logged.added (h : Logged db) (hopen : ¬Flagged db.turns b.turnId) {eventId : String}
    (hnew : ∀ d ∈ db.deliveries, d.eventId ≠ eventId) (htype : type.terminal = terminal)
    (hcap : terminal = true ∨ (log db b.turnId).length < 256)
    (hturn : ∃ turn ∈ db.turns, turn.turnId = b.turnId)
    (hdb : db' = { db with
      deliveries := db.deliveries ++
        [newDelivery b eventId (log db b.turnId).length type content timestamp]
      turns := if terminal then
          update (fun t => t.turnId = b.turnId) (fun t => { t with terminal := true }) db.turns
        else db.turns }) : Logged db' := by
  subst hdb
  have hopen_events : ∀ e ∈ log db b.turnId, ¬e.body.type.terminal :=
    fun e he ht => hopen (h.closed _ e he ht).1
  have hprogress : ((log db b.turnId).filter fun e => ¬e.body.type.terminal) = log db b.turnId :=
    List.filter_eq_self.mpr fun e he => by simpa using hopen_events e he
  have hflag : ∀ t, Flagged db.turns t → Flagged (if terminal then
      update (fun t => t.turnId = b.turnId) (fun t => { t with terminal := true }) db.turns
      else db.turns) t := by
    intro t ht
    split
    · exact (flagged_update _).mpr (Or.inl ht)
    · exact ht
  have hlen : (log db b.turnId).length ≤ 256 := by
    rcases h.cap b.turnId with hle | ⟨hf, -⟩
    · exact hle
    · exact absurd hf hopen
  refine ⟨?_, ?_, fun t => ?_, fun t => ?_, fun t => ?_, fun t => ?_⟩
  · dsimp only
    split
    · exact turnKeys_update (fun _ => rfl) h.turns
    · exact h.turns
  · rw [entries_append]
    refine h.ids.append fun e he => ?_
    obtain ⟨d, hd, rfl⟩ := List.mem_map.mp he
    exact hnew d hd
  · rw [log_append]
    split
    · rename_i ht
      obtain rfl : b.turnId = t := ht
      rw [List.map_append, List.length_append, h.numbered, List.length_singleton,
        List.range'_concat, Nat.one_mul, Nat.add_comm 1]
      rfl
    · exact h.numbered t
  · rw [log_append]
    intro e he hterm
    split at he
    · rename_i ht
      rw [List.mem_append, List.mem_singleton] at he
      rcases he with he | rfl
      · obtain rfl : b.turnId = t := ht
        exact absurd hterm (hopen_events e he)
      · have hterminal : terminal = true := htype.symm.trans hterm
        refine ⟨?_, ?_⟩
        · dsimp only
          rw [if_pos hterminal]
          exact (flagged_update _).mpr (Or.inr ⟨ht.symm, hturn⟩)
        · rw [if_pos ht, List.length_append, List.length_singleton, ← ht]
          rfl
    · rename_i ht
      rw [if_neg ht]
      exact (h.closed t e he hterm).imp_left (hflag t)
  · rw [log_append]
    split
    · rename_i ht
      obtain rfl : b.turnId = t := ht
      rw [List.filter_append, hprogress, List.length_append, ← List.countP_eq_length_filter,
        List.countP_singleton]
      rcases hcap with hterminal | hlt
      · rw [if_neg]
        · exact hlen
        · show ¬(decide ¬type.terminal = true) = true
          rw [htype, hterminal]
          decide
      · split
        · exact hlt
        · exact hlen
    · exact h.progress t
  · rw [log_append]
    split
    · rename_i ht
      obtain rfl : b.turnId = t := ht
      rw [List.length_append, List.length_singleton]
      rcases hcap with hterminal | hlt
      · refine Or.inr ⟨?_, by omega⟩
        dsimp only
        rw [if_pos hterminal]
        exact (flagged_update _).mpr (Or.inr ⟨rfl, hturn⟩)
      · exact Or.inl hlt
    · exact (h.cap t).imp_right (.imp_left (hflag t))

end Logged

/-! ## attempts -/

/-- Attempts are limited, and nothing is attempted before what comes before it is settled. -/
structure Ordered (ds : List Delivery) : Prop where
  limit : ∀ d ∈ ds, d.attempts ≤ 3
  started : ∀ d ∈ ds, d.status ≠ .pending → 0 < d.attempts
  inOrder : ∀ d ∈ ds, ∀ d' ∈ ds, d.turnId = d'.turnId → d.sequence < d'.sequence →
    0 < d'.attempts → d.status.settled

/-- what comes before it in its turn is settled. -/
def Ready (ds : List Delivery) (d : Delivery) : Prop :=
  ∀ p ∈ ds, p.turnId = d.turnId → p.sequence < d.sequence → p.status.settled

section Ordered
variable {ds : List Delivery} {d e : Delivery} {p : Delivery → Prop} [DecidablePred p]
  {f : Delivery → Delivery}

theorem Ordered.ready (h : Ordered ds) (hd : d ∈ ds) (ha : 0 < d.attempts) : Ready ds d :=
  fun q hq ht hs => h.inOrder q hq d hd ht hs ha

theorem entries_update (he : ∀ d, (f d).toEntry = d.toEntry) :
    (update p f ds).map Delivery.toEntry = ds.map Delivery.toEntry := by
  unfold update
  rw [List.map_map]
  refine List.map_congr_left fun d _ => ?_
  show (if p d then f d else d).toEntry = d.toEntry
  split
  · exact he d
  · rfl

theorem Ready.update (h : Ready ds e) (hp : ∀ d ∈ ds, p d → ¬d.status.settled)
    (he : ∀ d, (f d).toEntry = d.toEntry) : Ready (update p f ds) e := by
  intro q hq ht hs
  obtain ⟨d, hd, rfl⟩ := mem_update.mp hq
  by_cases hpd : p d
  · rw [if_pos hpd] at ht hs
    have ht' : d.turnId = e.turnId := (congrArg Entry.turnId (he d)).symm.trans ht
    have hs' : d.sequence < e.sequence := (congrArg Entry.sequence (he d)) ▸ hs
    exact absurd (h d hd ht' hs') (hp d hd hpd)
  · rw [if_neg hpd] at ht hs ⊢
    exact h d hd ht hs

/-- **Rows that are ready are touched.** -/
theorem Ordered.update (h : Ordered ds) (hp : ∀ d ∈ ds, p d → ¬d.status.settled)
    (he : ∀ d, (f d).toEntry = d.toEntry) (hready : ∀ d ∈ ds, p d → Ready ds d)
    (hpos : ∀ d ∈ ds, p d → 0 < (f d).attempts) (hlim : ∀ d ∈ ds, p d → (f d).attempts ≤ 3) :
    Ordered (update p f ds) := by
  refine ⟨fun x hx => ?_, fun x hx hst => ?_, fun x hx x' hx' ht hs ha => ?_⟩
  · obtain ⟨d, hd, rfl⟩ := mem_update.mp hx
    split
    · exact hlim d hd ‹_›
    · exact h.limit d hd
  · obtain ⟨d, hd, rfl⟩ := mem_update.mp hx
    split
    · exact hpos d hd ‹_›
    · rename_i hn
      rw [if_neg hn] at hst
      exact h.started d hd hst
  · obtain ⟨d', hd', rfl⟩ := mem_update.mp hx'
    -- the later row was ready before, or it is now
    have hready' : Ready ds d' := by
      by_cases hpd : p d'
      · exact hready d' hd' hpd
      · rw [if_neg hpd] at ha
        exact h.ready hd' ha
    have he' : (if p d' then f d' else d').toEntry = d'.toEntry := by
      split
      · exact he d'
      · rfl
    refine Ready.update hready' hp he x hx ?_ ?_
    · exact ht.trans (congrArg Entry.turnId he')
    · exact (congrArg Entry.sequence he') ▸ hs

end Ordered

/-! ## the invariant -/

structure Inv (w : World) : Prop where
  logged : Logged w.db
  ordered : Ordered w.db.deliveries
  known : ∀ d ∈ w.todo ++ w.flights, d.toEntry ∈ entries w.db
  ready : ∀ d ∈ w.todo, Ready w.db.deliveries d
  flying : ∀ d ∈ w.flights, ∃ r ∈ w.db.deliveries, r.toEntry = d.toEntry ∧
    r.status = .delivering ∧ r.attempts = d.attempts
  apart : ((w.todo ++ w.flights).map (·.turnId)).Nodup
  idle : w.busy = false → w.todo = [] ∧ w.flights = []
  counted : ∀ d ∈ w.db.deliveries, w.sent.countP (·.eventId = d.eventId) = d.attempts
  sentKnown : ∀ d ∈ w.sent, d.toEntry ∈ entries w.db
  sentOrder : w.sent.Pairwise fun d d' => d.turnId = d'.turnId → d.sequence ≤ d'.sequence

/-- what was written and what was settled stays. -/
structure Kept (w w' : World) : Prop where
  bodies : entries w.db <+: entries w'.db
  closed : ∀ t, (∃ e ∈ log w.db t, e.body.type.terminal) → log w'.db t = log w.db t
  settled : ∀ d ∈ w.db.deliveries, d.status.settled → d ∈ w'.db.deliveries

section Inv
variable {w w' : World} {d : Delivery} {p : Delivery → Prop} [DecidablePred p]
  {f : Delivery → Delivery} {turnId : String}

theorem Kept.refl (w : World) : Kept w w := ⟨List.prefix_refl _, fun _ _ => rfl, fun _ hd _ => hd⟩

/-- a row is named by its id. -/
theorem Inv.eq_of_id (h : Inv w) {d d' : Delivery} (hd : d ∈ w.db.deliveries)
    (hd' : d' ∈ w.db.deliveries) (hid : d.eventId = d'.eventId) : d = d' := by
  have hnodup : (w.db.deliveries.map fun d => d.eventId).Nodup := by
    have hids := h.logged.ids
    unfold PrimaryKey entries at hids
    rw [List.map_map] at hids
    exact hids
  exact List.inj_on_of_nodup_map hnodup hd hd' hid

/-- the rows are those of before. -/
theorem Inv.turns (h : Inv w) (turns : List Turn) (hk : PrimaryKey Turn.turnId turns)
    (hf : ∀ t, Flagged w.db.turns t → Flagged turns t) :
    Inv { w with db := { w.db with turns } } ∧ Kept w { w with db := { w.db with turns } } :=
  ⟨{ h with logged := h.logged.congr rfl hk hf }, ⟨List.prefix_refl _, fun _ _ => rfl,
    fun _ hd _ => hd⟩⟩

/-- **A row of one turn is touched** that no other request is about. -/
theorem Inv.updated (h : Inv w) {todo flights : List Delivery}
    (hp : ∀ d ∈ w.db.deliveries, p d → ¬d.status.settled)
    (he : ∀ d, (f d).toEntry = d.toEntry)
    (ha : ∀ d ∈ w.db.deliveries, p d → (f d).attempts = d.attempts ∧ 0 < d.attempts)
    (hturn : ∀ d ∈ w.db.deliveries, p d → d.turnId = turnId)
    (htodo : todo.Sublist w.todo) (hflights : flights.Sublist w.flights)
    (hother : ∀ d ∈ flights, d.turnId ≠ turnId) (hidle : w.busy = true) :
    Inv { w with
        db := { w.db with deliveries := update p f w.db.deliveries }, todo, flights } ∧
      Kept w { w with
        db := { w.db with deliveries := update p f w.db.deliveries }, todo, flights } := by
  have hentries : entries { w.db with deliveries := update p f w.db.deliveries } = entries w.db :=
    entries_update he
  have hsub : (todo ++ flights).Sublist (w.todo ++ w.flights) := htodo.append hflights
  refine ⟨⟨?_, ?_, ?_, ?_, ?_, ?_, ?_, ?_, ?_, h.sentOrder⟩, ⟨?_, ?_, ?_⟩⟩
  · exact h.logged.congr hentries h.logged.turns fun _ ht => ht
  · refine h.ordered.update hp he (fun d hd hpd => ?_) (fun d hd hpd => ?_) fun d hd hpd => ?_
    · exact h.ordered.ready hd (ha d hd hpd).2
    · rw [(ha d hd hpd).1]
      exact (ha d hd hpd).2
    · rw [(ha d hd hpd).1]
      exact h.ordered.limit d hd
  · exact fun d hd => hentries ▸ h.known d (hsub.subset hd)
  · exact fun d hd => (h.ready d (htodo.subset hd)).update hp he
  · intro d hd
    obtain ⟨r, hr, hre, hrs, hra⟩ := h.flying d (hflights.subset hd)
    refine ⟨r, mem_update_of_not hr fun hpr => ?_, hre, hrs, hra⟩
    exact hother d hd ((congrArg Entry.turnId hre).symm.trans (hturn r hr hpr))
  · exact h.apart.sublist (hsub.map _)
  · exact fun hb => absurd (hidle.symm.trans hb) (by decide)
  · intro x hx
    obtain ⟨d, hd, rfl⟩ := mem_update.mp hx
    split
    · rename_i hpd
      rw [(ha d hd hpd).1, ← h.counted d hd, ← congrArg Entry.eventId (he d)]
    · exact h.counted d hd
  · exact fun d hd => hentries ▸ h.sentKnown d hd
  · exact hentries ▸ List.prefix_refl _
  · exact fun t _ => by rw [log, hentries]; rfl
  · exact fun d hd hs => mem_update_of_not hd fun hpd => hp d hd hpd hs

/-- **The next event of a turn.** -/
theorem Inv.enqueue {activityEventId : String → String → String} {b : Binding}
    {source content timestamp : String} {type : EventType} {terminal : Bool} (h : Inv w)
    (htype : type.terminal = terminal) {db' : Db}
    (hdb : (Activity.enqueue activityEventId b source type content timestamp terminal w.db).2 = db') :
    Inv { w with db := db' } ∧ Kept w { w with db := db' } := by
  rcases enqueue_cases h.logged.turns hdb with rfl | ⟨hopen, hnew, hcap, hturn, hdb⟩
  · exact ⟨h, Kept.refl w⟩
  have hlogged : Logged db' := h.logged.added hopen hnew htype hcap hturn hdb
  obtain ⟨d, hd⟩ : ∃ d, d = newDelivery b (activityEventId b.turnId source)
      (log w.db b.turnId).length type content timestamp := ⟨_, rfl⟩
  have hdeliveries : db'.deliveries = w.db.deliveries ++ [d] := by rw [hdb, hd]
  have hentries : entries db' = entries w.db ++ [d.toEntry] := by
    unfold entries
    rw [hdeliveries, List.map_append]
    rfl
  -- the new row comes after the rows of its turn
  have hlast : ∀ e ∈ entries w.db, e.turnId = d.turnId → e.sequence < d.sequence := by
    intro e he ht
    rw [hd] at ht ⊢
    exact Nat.lt_succ_of_le (h.logged.sequence_le (mem_log.mpr ⟨he, ht⟩)).2
  have hpending : d.status = .pending ∧ d.attempts = 0 := by
    rw [hd]
    exact ⟨rfl, rfl⟩
  have hids : ∀ e ∈ entries w.db, e.eventId ≠ d.eventId := by
    intro e he
    obtain ⟨r, hr, rfl⟩ := List.mem_map.mp he
    rw [hd]
    exact hnew r hr
  have hmem : ∀ x ∈ db'.deliveries, x ∈ w.db.deliveries ∨ x = d := by
    intro x hx
    rw [hdeliveries, List.mem_append, List.mem_singleton] at hx
    exact hx
  have hold : ∀ x ∈ w.db.deliveries, x ∈ db'.deliveries := by
    intro x hx
    rw [hdeliveries]
    exact List.mem_append_left _ hx
  refine ⟨⟨hlogged, ⟨?_, ?_, ?_⟩, ?_, ?_, ?_, h.apart, h.idle, ?_, ?_, h.sentOrder⟩,
    ⟨?_, ?_, fun x hx _ => hold x hx⟩⟩
  · intro x hx
    rcases hmem x hx with hx | rfl
    · exact h.ordered.limit x hx
    · rw [hpending.2]
      decide
  · intro x hx hst
    rcases hmem x hx with hx | rfl
    · exact h.ordered.started x hx hst
    · exact absurd hpending.1 hst
  · intro x hx x' hx' ht hs ha
    rcases hmem x' hx' with hx' | rfl
    · rcases hmem x hx with hx | rfl
      · exact h.ordered.inOrder x hx x' hx' ht hs ha
      · exact absurd (hlast _ (mem_entries hx') ht.symm) (Nat.lt_asymm hs)
    · rw [hpending.2] at ha
      exact absurd ha (Nat.lt_irrefl 0)
  · intro x hx
    rw [hentries]
    exact List.mem_append_left _ (h.known x hx)
  · intro x hx q hq ht hs
    rcases hmem q hq with hq | rfl
    · exact h.ready x hx q hq ht hs
    · have hx' := h.known x (List.mem_append_left _ hx)
      exact absurd (hlast _ hx' ht.symm) (Nat.lt_asymm hs)
  · intro x hx
    obtain ⟨r, hr, hr'⟩ := h.flying x hx
    exact ⟨r, hold r hr, hr'⟩
  · intro x hx
    rcases hmem x hx with hx | rfl
    · exact h.counted x hx
    · rw [hpending.2, List.countP_eq_zero]
      exact fun y hy he => hids _ (h.sentKnown y hy) (of_decide_eq_true he)
  · intro x hx
    rw [hentries]
    exact List.mem_append_left _ (h.sentKnown x hx)
  · rw [hentries]
    exact List.prefix_append _ _
  · rintro t ⟨e, he, ht⟩
    have hflag := (h.logged.closed t e he ht).1
    have hnone : [d.toEntry].filter (·.turnId = t) = [] := by
      refine List.filter_eq_nil_iff.mpr fun y hy hyt => ?_
      rw [List.mem_singleton.mp hy, hd] at hyt
      obtain rfl : b.turnId = t := of_decide_eq_true hyt
      exact hopen hflag
    unfold log
    rw [hentries, List.filter_append, hnone, List.append_nil]

/-- a row after `claim`. -/
def claimed (d : Delivery) (now : ℤ) : Delivery :=
  { d with status := .delivering, attempts := d.attempts + 1, nextAttemptAt := now + 30000 }

/-- **What `claim` does**: nothing, or it claims the row and returns it. -/
theorem claim_cases (h : Inv w) (id : String) (now : ℤ) :
    claim id now w.db = (none, w.db) ∨
    ∃ d ∈ w.db.deliveries, claimable id now d ∧
      claim id now w.db = (some (claimed d now), { w.db with
        deliveries := update (claimable id now) (fun d => claimed d now) w.db.deliveries }) := by
  unfold claim
  split
  · exact Or.inl rfl
  rename_i hne
  unfold changes at hne
  obtain ⟨d, hd, hclaim⟩ := List.countP_pos_iff.mp (Nat.pos_of_ne_zero hne)
  have hclaim := of_decide_eq_true hclaim
  refine Or.inr ⟨d, hd, hclaim, ?_⟩
  have hmem : claimed d now ∈ update (claimable id now) (fun d => claimed d now) w.db.deliveries :=
    mem_update.mpr ⟨d, hd, if_pos hclaim⟩
  have hfind : (update (claimable id now) (fun d => claimed d now) w.db.deliveries).find?
      (·.eventId = id) = some (claimed d now) := by
    obtain ⟨r, hr⟩ : ∃ r, (update (claimable id now) (fun d => claimed d now)
        w.db.deliveries).find? (·.eventId = id) = some r := by
      rw [← Option.isSome_iff_exists, List.find?_isSome]
      exact ⟨_, hmem, decide_eq_true hclaim.1⟩
    obtain ⟨hrm, hrid⟩ := mem_of_find hr
    obtain ⟨x, hx, rfl⟩ := mem_update.mp hrm
    have hxid : x.eventId = id := by
      split at hrid
      · exact hrid
      · exact hrid
    obtain rfl : x = d := h.eq_of_id hx hd (hxid.trans hclaim.1.symm)
    rw [hr, if_pos hclaim]
  exact Prod.ext hfind rfl

/-- **A delivery is claimed and sent.** -/
theorem Inv.claimed (h : Inv w) {d e : Delivery} {rest : List Delivery} {now : ℤ}
    (htodo : w.todo = e :: rest) (hd : d ∈ w.db.deliveries) (hclaim : claimable e.eventId now d) :
    Inv { w with
        db := { w.db with
          deliveries := Sql.update (claimable e.eventId now) (fun d => Activity.claimed d now)
            w.db.deliveries }
        todo := rest
        flights := w.flights ++ [Activity.claimed d now]
        sent := w.sent ++ [Activity.claimed d now] } ∧
      Kept w { w with
        db := { w.db with
          deliveries := Sql.update (claimable e.eventId now) (fun d => Activity.claimed d now)
            w.db.deliveries }
        todo := rest
        flights := w.flights ++ [Activity.claimed d now]
        sent := w.sent ++ [Activity.claimed d now] } := by
  have he : ∀ d, (Activity.claimed d now).toEntry = d.toEntry := fun _ => rfl
  have hopen : ∀ d ∈ w.db.deliveries, claimable e.eventId now d → ¬d.status.settled :=
    fun d _ hc => hc.2.1
  have honly : ∀ x ∈ w.db.deliveries, claimable e.eventId now x → x = d :=
    fun x hx hc => h.eq_of_id hx hd (hc.1.trans hclaim.1.symm)
  have hmem : e ∈ w.todo := htodo ▸ List.mem_cons_self
  -- the delivery of the tick is the row
  have hentry : d.toEntry = e.toEntry :=
    h.logged.eq_of_id (mem_entries hd) (h.known e (List.mem_append_left _ hmem)) hclaim.1
  have hturn : d.turnId = e.turnId := congrArg Entry.turnId hentry
  have hready : Ready w.db.deliveries d := by
    intro q hq ht hs
    exact h.ready e hmem q hq (ht.trans hturn) ((congrArg Entry.sequence hentry) ▸ hs)
  have hentries : entries { w.db with
      deliveries := Sql.update (claimable e.eventId now) (fun d => Activity.claimed d now)
        w.db.deliveries } = entries w.db := entries_update he
  have hapart := h.apart
  rw [htodo, List.cons_append, List.map_cons, List.nodup_cons, List.mem_map] at hapart
  have hbusy : w.busy = true := by
    cases hb : w.busy with
    | true => rfl
    | false =>
      rw [(h.idle hb).1] at hmem
      exact absurd hmem List.not_mem_nil
  refine ⟨⟨?_, ?_, ?_, ?_, ?_, ?_, ?_, ?_, ?_, ?_⟩, ⟨?_, ?_, ?_⟩⟩
  · exact h.logged.congr hentries h.logged.turns fun _ ht => ht
  · refine h.ordered.update hopen he (fun x hx hc => ?_) (fun x hx hc => Nat.succ_pos _)
      fun x hx hc => hc.2.2.2
    exact honly x hx hc ▸ hready
  · intro x hx
    rw [hentries]
    rw [← List.append_assoc, List.mem_append, List.mem_singleton] at hx
    rcases hx with hx | rfl
    · refine h.known x ?_
      rw [htodo]
      exact List.mem_cons_of_mem _ hx
    · exact (mem_entries hd : d.toEntry ∈ entries w.db)
  · exact fun x hx => (h.ready x (htodo ▸ List.mem_cons_of_mem _ hx)).update hopen he
  · intro x hx
    rw [List.mem_append, List.mem_singleton] at hx
    rcases hx with hx | rfl
    · obtain ⟨r, hr, hre, hr'⟩ := h.flying x hx
      refine ⟨r, mem_update_of_not hr fun hc => ?_, hre, hr'⟩
      refine hapart.1 ⟨x, List.mem_append_right _ hx, ?_⟩
      rw [← hturn, ← honly r hr hc]
      exact (congrArg Entry.turnId hre).symm
    · exact ⟨_, mem_update.mpr ⟨d, hd, if_pos hclaim⟩, rfl, rfl, rfl⟩
  · rw [← List.append_assoc, List.map_append, List.nodup_append]
    refine ⟨hapart.2, List.nodup_singleton _, fun t ht t' ht' => ?_⟩
    rw [List.mem_singleton.mp ht']
    obtain ⟨x, hx, rfl⟩ := List.mem_map.mp ht
    exact fun heq => hapart.1 ⟨x, hx, heq.trans hturn⟩
  · exact fun hb => absurd (hbusy.symm.trans hb) (by decide)
  · intro x hx
    obtain ⟨r, hr, rfl⟩ := mem_update.mp hx
    rw [List.countP_append, List.countP_singleton]
    by_cases hc : claimable e.eventId now r
    · obtain rfl := honly r hr hc
      rw [if_pos hc, if_pos (decide_eq_true rfl)]
      exact congrArg (· + 1) (h.counted r hr)
    · rw [if_neg hc, if_neg]
      · exact h.counted r hr
      · intro hid
        have hid : d.eventId = r.eventId := of_decide_eq_true hid
        exact hc (h.eq_of_id hd hr hid ▸ hclaim)
  · intro x hx
    rw [hentries]
    rw [List.mem_append, List.mem_singleton] at hx
    rcases hx with hx | rfl
    · exact h.sentKnown x hx
    · exact (mem_entries hd : d.toEntry ∈ entries w.db)
  · rw [List.pairwise_append]
    refine ⟨h.sentOrder, List.pairwise_singleton _ _, fun x hx y hy ht => ?_⟩
    rw [List.mem_singleton.mp hy] at ht ⊢
    -- what was sent before is settled or comes first
    by_contra hlt
    obtain ⟨r, hr, hre⟩ := List.mem_map.mp (h.sentKnown x hx)
    have hpos : 0 < r.attempts := by
      rw [← h.counted r hr, List.countP_pos_iff]
      exact ⟨x, hx, decide_eq_true (congrArg Entry.eventId hre).symm⟩
    have hsettled := h.ordered.inOrder d hd r hr
      (ht.symm.trans (congrArg Entry.turnId hre).symm)
      ((congrArg Entry.sequence hre) ▸ not_le.mp hlt) hpos
    exact hopen d hd hclaim hsettled
  · exact hentries ▸ List.prefix_refl _
  · exact fun t _ => by rw [log, hentries]; rfl
  · exact fun x hx hs => mem_update_of_not hx fun hc => hopen x hx hc hs

theorem mem_due {now : ℤ} {db : Db} (h : d ∈ due now db) :
    d ∈ db.deliveries ∧ ¬d.status.settled ∧ Ready db.deliveries d := by
  unfold due at h
  have hm := List.mem_of_mem_take h
  rw [List.mem_insertionSort, List.mem_filter, decide_eq_true_iff] at hm
  obtain ⟨hd, hs, -, hno⟩ := hm
  refine ⟨hd, hs, fun q hq ht hlt => ?_⟩
  by_contra hq'
  exact hno ⟨q, hq, ht, hlt, hq'⟩

/-- at most one delivery of a turn is due. -/
theorem Inv.nodup_due (h : Inv w) (now : ℤ) : ((due now w.db).map (·.turnId)).Nodup := by
  have hnodup : (due now w.db).Nodup := by
    have hids : (w.db.deliveries.map Delivery.toEntry).Nodup := List.Nodup.of_map _ h.logged.ids
    refine List.Nodup.sublist (List.take_sublist _ _) ?_
    rw [(List.perm_insertionSort _ _).nodup_iff]
    exact (List.Nodup.of_map _ hids).filter _
  refine hnodup.map_on fun x hx y hy ht => ?_
  obtain ⟨hx, hxs, hxr⟩ := mem_due hx
  obtain ⟨hy, hys, hyr⟩ := mem_due hy
  have hseq : x.sequence = y.sequence := by
    rcases Nat.lt_trichotomy x.sequence y.sequence with hlt | heq | hlt
    · exact absurd (hyr x hx ht hlt) hxs
    · exact heq
    · exact absurd (hxr y hy ht.symm hlt) hys
  have hentry : x.toEntry = y.toEntry :=
    h.logged.eq_of_sequence (mem_log.mpr ⟨mem_entries hx, rfl⟩) (mem_log.mpr ⟨mem_entries hy, ht.symm⟩)
      hseq
  exact h.eq_of_id hx hy (congrArg Entry.eventId hentry)

theorem Inv.bind (h : Inv w) (b : Binding) :
    Inv { w with db := (Activity.bind b w.db).2 } ∧
      Kept w { w with db := (Activity.bind b w.db).2 } := by
  have hdb : (Activity.bind b w.db).2 =
      if ∃ t ∈ w.db.turns, t.turnId = b.turnId then w.db
      else { w.db with turns := w.db.turns ++ [{ binding := b }] } := by
    unfold Activity.bind
    dsimp only
    split
    · rfl
    · split <;> rfl
  rw [hdb]
  split
  · exact ⟨h, Kept.refl w⟩
  rename_i hnew
  push Not at hnew
  refine h.turns _ (h.logged.turns.append hnew) ?_
  rintro t ⟨turn, hturn, hf⟩
  exact ⟨turn, List.mem_append_left _ hturn, hf⟩

theorem Inv.bindNative (h : Inv w) (turnId nativeSessionId : String) :
    Inv { w with db := (Activity.bindNative turnId nativeSessionId w.db).2 } ∧
      Kept w { w with db := (Activity.bindNative turnId nativeSessionId w.db).2 } := by
  have hdb : (Activity.bindNative turnId nativeSessionId w.db).2 = { w.db with
      turns := Sql.update (fun t => t.turnId = turnId)
        (fun t => { t with nativeSessionId := t.nativeSessionId.or (some nativeSessionId) })
        w.db.turns } := by
    unfold Activity.bindNative
    dsimp only
    split
    · rfl
    · split <;> rfl
  rw [hdb]
  refine h.turns _ (turnKeys_update (fun _ => rfl) h.logged.turns) ?_
  rintro t ⟨turn, hturn, ht, hf⟩
  refine ⟨_, mem_update.mpr ⟨turn, hturn, rfl⟩, ?_⟩
  split
  · exact ⟨ht, hf⟩
  · exact ⟨ht, hf⟩

/-- a delivery of the tick is given up or claimed. -/
theorem Inv.process (h : Inv w) {rest : List Delivery} (htodo : w.todo = d :: rest) (now : ℤ) :
    Inv (w.process d rest now) ∧ Kept w (w.process d rest now) := by
  have hmem : d ∈ w.todo := htodo ▸ List.mem_cons_self
  have hrest : rest.Sublist w.todo := htodo ▸ List.sublist_cons_self d rest
  have hbusy : w.busy = true := by
    cases hb : w.busy with
    | true => rfl
    | false =>
      rw [(h.idle hb).1] at hmem
      exact absurd hmem List.not_mem_nil
  have hapart := h.apart
  rw [htodo, List.cons_append, List.map_cons, List.nodup_cons, List.mem_map] at hapart
  have hother : ∀ x ∈ w.flights, x.turnId ≠ d.turnId :=
    fun x hx ht => hapart.1 ⟨x, List.mem_append_right _ hx, ht⟩
  unfold World.process
  split
  · refine h.updated (fun x _ hx => hx.2.2) (fun _ => rfl)
      (fun x _ hx => ⟨rfl, Nat.lt_of_lt_of_le (by decide) hx.2.1⟩) (fun x hx hxd => ?_) hrest
      (List.Sublist.refl _) hother hbusy
    have hentry := h.logged.eq_of_id (mem_entries hx)
      (h.known d (List.mem_append_left _ hmem)) hxd.1
    exact congrArg Entry.turnId hentry
  · rcases claim_cases h d.eventId now with hc | ⟨x, hx, hclaim, hc⟩
    · rw [hc]
      have hnone := h.updated (p := fun _ => False) (f := id) (fun _ _ => nofun) (fun _ => rfl)
        (fun _ _ => nofun) (fun _ _ => nofun) hrest (List.Sublist.refl _) hother hbusy
      rw [update_eq_self fun _ _ => not_false] at hnone
      exact hnone
    · rw [hc]
      exact h.claimed htodo hx hclaim

/-- **The step lemma.** -/
theorem Inv.step {activityEventId : String → String → String} (h : Inv w)
    (hstep : Step activityEventId w w') : Inv w' ∧ Kept w w' := by
  cases hstep with
  | bind b => exact h.bind b
  | bindNative turnId nativeSessionId => exact h.bindNative turnId nativeSessionId
  | append b a =>
    refine h.enqueue ?_ rfl
    cases a.tools <;> rfl
  | finish b success timestamp =>
    refine h.enqueue ?_ rfl
    cases success <;> rfl
  | tick now idle =>
    obtain ⟨-, hflights⟩ := h.idle (by simpa using idle)
    have htake : ∀ x ∈ (due now w.db).take 2, x ∈ due now w.db := fun x => List.mem_of_mem_take
    refine ⟨{ h with known := ?_, ready := ?_, apart := ?_, idle := nofun },
      ⟨List.prefix_refl _, fun _ _ => rfl, fun _ hx _ => hx⟩⟩
    · rw [hflights, List.append_nil]
      exact fun x hx => mem_entries (mem_due (htake x hx)).1
    · exact fun x hx => (mem_due (htake x hx)).2.2
    · rw [hflights, List.append_nil]
      exact (h.nodup_due now).sublist ((List.take_sublist _ _).map _)
  | next d rest now htodo => exact h.process htodo now
  | result before after d status now hf =>
    have hmem : d ∈ w.flights := hf ▸ List.mem_append_right _ List.mem_cons_self
    have hsub : (before ++ after).Sublist w.flights :=
      hf ▸ (List.Sublist.refl before).append (List.sublist_cons_self d after)
    have hapart : (w.flights.map (·.turnId)).Nodup :=
      h.apart.sublist ((List.sublist_append_right _ _).map _)
    have hbusy : w.busy = true := by
      cases hb : w.busy with
      | true => rfl
      | false =>
        rw [(h.idle hb).2] at hmem
        exact absurd hmem List.not_mem_nil
    have hother : ∀ x ∈ before ++ after, x.turnId ≠ d.turnId := by
      intro x hx ht
      rw [hf, List.map_append, List.map_cons, List.nodup_middle, List.nodup_cons] at hapart
      rw [← List.map_append, List.mem_map] at hapart
      exact hapart.1 ⟨x, hx, ht⟩
    refine h.updated (fun x _ hx => ?_) (fun _ => rfl)
      (fun x hx hxd => ⟨rfl, h.ordered.started x hx ?_⟩) (fun x hx hxd => ?_) (List.Sublist.refl _)
      hsub hother hbusy
    · rw [hx.2.2]
      decide
    · rw [hxd.2.2]
      decide
    · have hentry := h.logged.eq_of_id (mem_entries hx)
        (h.known d (List.mem_append_right _ hmem)) hxd.1
      exact congrArg Entry.turnId hentry
  | done begun answered =>
    exact ⟨{ h with idle := fun _ => ⟨begun, answered⟩ },
      ⟨List.prefix_refl _, fun _ _ => rfl, fun _ hx _ => hx⟩⟩
  | restart =>
    exact ⟨{ h with
        known := fun _ hx => absurd hx List.not_mem_nil
        ready := fun _ hx => absurd hx List.not_mem_nil
        flying := fun _ hx => absurd hx List.not_mem_nil
        apart := List.nodup_nil
        idle := fun _ => ⟨rfl, rfl⟩ },
      ⟨List.prefix_refl _, fun _ _ => rfl, fun _ hx _ => hx⟩⟩

end Inv

/-! ## runs -/

abbrev Steps (activityEventId : String → String → String) : World → World → Prop :=
  Relation.ReflTransGen (Step activityEventId)

/-- What holds of a worker and its file. -/
structure Law (w : World) : Prop where
  /-- the events of a turn are numbered from 1. -/
  numbered : ∀ t, (log w.db t).map (·.sequence) = List.range' 1 (log w.db t).length
  /-- a terminal event is the last of its turn, and there is one at most. -/
  terminal : ∀ t, ∀ e ∈ log w.db t, e.body.type.terminal → ∀ e' ∈ log w.db t,
    e'.sequence ≤ e.sequence ∧ (e'.body.type.terminal → e' = e)
  /-- the cap, with the place of the terminal event. -/
  cap : ∀ t, (log w.db t).length ≤ 257 ∧
    ((log w.db t).filter fun e => ¬e.body.type.terminal).length ≤ 256
  /-- what comes before an event that was attempted is settled. -/
  inOrder : ∀ d ∈ w.db.deliveries, ∀ d' ∈ w.db.deliveries, d.turnId = d'.turnId →
    d.sequence < d'.sequence → 0 < d'.attempts → d.status.settled
  sentInOrder : w.sent.Pairwise fun d d' => d.turnId = d'.turnId → d.sequence ≤ d'.sequence
  /-- requests in flight are of different turns, and so are the rows that are being delivered. -/
  inFlight : (w.flights.map (·.turnId)).Nodup ∧
    ∀ d ∈ w.db.deliveries, ∀ d' ∈ w.db.deliveries, d.turnId = d'.turnId →
      d.status = .delivering → d'.status = .delivering → d = d'
  /-- the requests that were sent of an event. -/
  attempts : (∀ d ∈ w.db.deliveries, w.sent.countP (·.eventId = d.eventId) = d.attempts) ∧
    ∀ id, w.sent.countP (·.eventId = id) ≤ 3

section Runs
variable {activityEventId : String → String → String} {w w' w'' : World}

theorem Inv.empty : Inv {} where
  logged :=
    { turns := List.nodup_nil, ids := List.nodup_nil, numbered := fun _ => rfl
      closed := fun _ _ he => absurd he List.not_mem_nil, progress := fun _ => Nat.zero_le _
      cap := fun _ => Or.inl (Nat.zero_le _) }
  ordered :=
    { limit := fun _ hd => absurd hd List.not_mem_nil
      started := fun _ hd => absurd hd List.not_mem_nil
      inOrder := fun _ hd => absurd hd List.not_mem_nil }
  known _ hd := absurd hd List.not_mem_nil
  ready _ hd := absurd hd List.not_mem_nil
  flying _ hd := absurd hd List.not_mem_nil
  apart := List.nodup_nil
  idle _ := ⟨rfl, rfl⟩
  counted _ hd := absurd hd List.not_mem_nil
  sentKnown _ hd := absurd hd List.not_mem_nil
  sentOrder := List.Pairwise.nil

theorem Inv.law (h : Inv w) : Law w where
  numbered := h.logged.numbered
  terminal t e he ht e' he' := by
    obtain ⟨-, hlast⟩ := h.logged.closed t e he ht
    refine ⟨hlast ▸ (h.logged.sequence_le he').2, fun ht' => ?_⟩
    exact h.logged.eq_of_sequence he' he ((h.logged.closed t e' he' ht').2.trans hlast.symm)
  cap t := by
    refine ⟨?_, h.logged.progress t⟩
    rcases h.logged.cap t with hle | ⟨-, hle⟩
    · omega
    · exact hle
  inOrder := h.ordered.inOrder
  sentInOrder := h.sentOrder
  inFlight := by
    refine ⟨h.apart.sublist ((List.sublist_append_right _ _).map _), ?_⟩
    intro d hd d' hd' ht hs hs'
    -- of two the first would be settled
    have hne {x y : Delivery} (hx : x ∈ w.db.deliveries) (hy : y ∈ w.db.deliveries)
        (ht : x.turnId = y.turnId) (hx' : x.status = .delivering) (hy' : y.status = .delivering) :
        ¬x.sequence < y.sequence := by
      intro hlt
      have hpos := h.ordered.started y hy (by rw [hy']; decide)
      have hsettled := h.ordered.inOrder x hx y hy ht hlt hpos
      rw [hx'] at hsettled
      exact absurd hsettled (by decide)
    have hseq : d.sequence = d'.sequence :=
      Nat.le_antisymm (not_lt.mp (hne hd' hd ht.symm hs' hs)) (not_lt.mp (hne hd hd' ht hs hs'))
    have hentry : d.toEntry = d'.toEntry :=
      h.logged.eq_of_sequence (mem_log.mpr ⟨mem_entries hd, rfl⟩)
        (mem_log.mpr ⟨mem_entries hd', ht.symm⟩) hseq
    exact h.eq_of_id hd hd' (congrArg Entry.eventId hentry)
  attempts := by
    refine ⟨h.counted, fun id => ?_⟩
    by_cases hnone : w.sent.countP (·.eventId = id) = 0
    · rw [hnone]
      exact Nat.zero_le _
    · obtain ⟨x, hx, hid⟩ := List.countP_pos_iff.mp (Nat.pos_of_ne_zero hnone)
      obtain ⟨d, hd, hde⟩ := List.mem_map.mp (h.sentKnown x hx)
      have hid : d.eventId = id := (congrArg Entry.eventId hde).trans (of_decide_eq_true hid)
      rw [← hid, h.counted d hd]
      exact h.ordered.limit d hd

theorem Kept.trans (h : Kept w w') (h' : Kept w' w'') : Kept w w'' := by
  refine ⟨h.bodies.trans h'.bodies, fun t ht => ?_, fun d hd hs => ?_⟩
  · have hlog := h.closed t ht
    rw [← hlog] at ht ⊢
    exact h'.closed t ht
  · exact h'.settled d (h.settled d hd hs) hs

/-- **The run lemma.** -/
theorem Inv.steps (h : Inv w) (hsteps : Steps activityEventId w w') : Inv w' ∧ Kept w w' := by
  induction hsteps with
  | refl => exact ⟨h, Kept.refl w⟩
  | tail _ hstep ih =>
    obtain ⟨hinv, hkept⟩ := ih
    obtain ⟨hinv', hkept'⟩ := hinv.step hstep
    exact ⟨hinv', hkept.trans hkept'⟩

/-- **The log of activity webhooks**, in every run: numbers, bodies, the terminal event, the cap, the
order of requests and their number. -/
theorem activity_log (h : Steps activityEventId {} w) :
    Law w ∧ ∀ w', Steps activityEventId w w' → Kept w w' := by
  obtain ⟨hinv, -⟩ := Inv.empty.steps h
  exact ⟨hinv.law, fun w' hw => (hinv.steps hw).2⟩

end Runs

/-! ### a turn that ends -/

def shortBinding : Binding :=
  { turnId := "turn", runId := "run", stepId := "step", sessionId := some "session"
    receiptId := none, checkpoint := 0, prompt := "prompt"
    destination := { url := "https://receiver.example/activity", correlation := [] } }

def shortActivity : PublicTurnActivity :=
  { sourceId := "one", timestamp := "2026-10-14T00:00:00.000Z", tools := false, content := "Hello" }

/-- the turn and source of an event as its id. -/
def plainId (turnId source : String) : String := turnId ++ "/" ++ source

/-- a turn with one activity has ended. -/
def shortTurn : World :=
  { db := (finish plainId shortBinding true "2026-10-14T00:00:01.000Z"
      (append plainId shortBinding shortActivity (bind shortBinding {}).2).2).2 }

theorem activity_log_short : (log shortTurn.db "turn").length = 2 ∧ Law shortTurn ∧
    ∀ w', Steps plainId shortTurn w' → Kept shortTurn w' :=
  ⟨by decide, activity_log (((Relation.ReflTransGen.refl.tail (Step.bind shortBinding)).tail
    (Step.append shortBinding shortActivity)).tail
    (Step.finish shortBinding true "2026-10-14T00:00:01.000Z"))⟩

end Activity
end Pipelines
end WmAutopilot
