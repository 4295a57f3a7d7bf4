import Mathlib.Data.List.Nodup
import WmAutopilot.Heartbeat.RecordSyncSteps
import WmAutopilot.Sql.Table

/-!
# Cursors, acknowledgements and leases of the record cache

* `Inv`, `Inv.after`       the pending acknowledgement is that of the stored cursor, and an undo record
                           of it holds what was there before its page;
* `Move`                   what a call does to the cursor and the rows;
* `Dead`, `Dead.steps`     an expired or superseded lease stays so;
* `cursor_discipline`      the discipline of every reachable file.
-/

set_option autoImplicit false
set_option linter.unusedVariables false

namespace WmAutopilot
namespace Heartbeat
namespace Discipline
open Js Sql

/-! ## putting captured entries back -/

section Restore
variable {κ α : Type} [DecidableEq κ] {t t' : κ → Option α} {keys : List κ} {k : κ}

theorem restore_apply (entries : List (κ × Option α)) (t : κ → Option α) (k : κ)
    (h : ∀ e ∈ entries, e.1 = k → e.2 = t k) : restore t entries k = t k := by
  unfold restore
  induction entries generalizing t with
  | nil => rfl
  | cons e entries ih =>
    have he : Function.update t e.1 e.2 k = t k := by
      by_cases hk : k = e.1
      · rw [hk, Function.update_self, h e List.mem_cons_self hk.symm, hk]
      · exact Function.update_of_ne hk _ _
    rw [List.foldl_cons, ih]
    · exact he
    · intro e' he' hk
      rw [he]
      exact h e' (List.mem_cons_of_mem _ he') hk

theorem restore_mem (entries : List (κ × Option α)) (t : κ → Option α) (v : Option α)
    (h : ∀ e ∈ entries, e.1 = k → e.2 = v) (hk : ∃ e ∈ entries, e.1 = k) :
    restore t entries k = v := by
  unfold restore
  induction entries generalizing t with
  | nil => obtain ⟨e, he, -⟩ := hk; exact absurd he List.not_mem_nil
  | cons e entries ih =>
    rw [List.foldl_cons]
    by_cases hk' : ∃ e' ∈ entries, e'.1 = k
    · exact ih _ (fun e' he' => h e' (List.mem_cons_of_mem _ he')) hk'
    · have hek : e.1 = k := by
        obtain ⟨e', he', hk⟩ := hk
        rcases List.mem_cons.mp he' with rfl | he'
        · exact hk
        · exact absurd ⟨e', he', hk⟩ hk'
      have hv : Function.update t e.1 e.2 k = v := by
        rw [← hek, Function.update_self]
        exact h e List.mem_cons_self hek
      refine (restore_apply entries _ k fun e' he' hk => ?_).trans hv
      exact absurd ⟨e', he', hk⟩ hk'

/-- **A table that differs at the captured keys only is restored.** -/
theorem restore_capture (h : ∀ k, k ∉ keys → t' k = t k) : restore t' (capture t keys) = t := by
  funext k
  by_cases hk : k ∈ keys
  · refine restore_mem _ _ _ (fun e he hek => ?_) ⟨(k, t k), List.mem_map.mpr ⟨k, hk, rfl⟩, rfl⟩
    obtain ⟨k', -, rfl⟩ := List.mem_map.mp he
    exact congrArg t hek
  · refine (restore_apply _ _ k fun e he hek => ?_).trans (h k hk)
    obtain ⟨k', hk', rfl⟩ := List.mem_map.mp he
    exact absurd (hek ▸ hk') hk

theorem foldl_update_apply {β : Type} (key : β → κ) (value : β → Option α) (l : List β)
    (t : κ → Option α) (hk : k ∉ l.map key) :
    l.foldl (fun t b => Function.update t (key b) (value b)) t k = t k := by
  induction l generalizing t with
  | nil => rfl
  | cons b l ih =>
    rw [List.map_cons, List.mem_cons, not_or] at hk
    rw [List.foldl_cons, ih _ hk.2]
    exact Function.update_of_ne hk.1 _ _

end Restore

theorem mergeChange_apply {globals : Globals} {generation : String} {rows rows' : RowKey → Option Row}
    {c : Change} (h : mergeChange globals generation rows c = .ok rows') {k : RowKey}
    (hk : k ≠ changeKey generation c) : rows' k = rows k := by
  have hreplace : ∀ r, Function.update rows (generation, c.family, c.id) r k = rows k :=
    fun r => Function.update_of_ne hk _ _
  unfold mergeChange at h
  dsimp only at h
  split at h
  · cases h
    exact hreplace _
  split at h
  · cases h
    rfl
  split at h
  · split at h
    · cases h
      rfl
    split at h
    · cases h
    · cases h
      exact hreplace _
  · cases h
    exact hreplace _

theorem foldlM_mergeChange_apply {globals : Globals} {generation : String} {changes : List Change}
    {rows rows' : RowKey → Option Row}
    (h : changes.foldlM (mergeChange globals generation) rows = .ok rows') {k : RowKey}
    (hk : k ∉ changes.map (changeKey generation)) : rows' k = rows k := by
  induction changes generalizing rows with
  | nil =>
    cases h
    rfl
  | cons c changes ih =>
    rw [List.map_cons, List.mem_cons, not_or] at hk
    rw [List.foldlM_cons] at h
    obtain ⟨rows₁, h₁, h⟩ := bind_ok.mp h
    exact (ih h hk.2).trans (mergeChange_apply h₁ hk.1)

/-! ## the invariant -/

/-- `u` restores what was there before the last page. -/
structure IsBackup (u : UndoRow) (db before : Db) : Prop where
  state : HasState before u.state
  rows : restore db.rows u.rows = before.rows
  actors : restore db.actors u.actors = before.actors
  access : restore db.access u.access = before.access

structure Inv (w : World) : Prop where
  keys : PrimaryKey (fun i : AckRow => (i.generation, i.cursor)) w.db.ackIntents
  cursor : ∀ i ∈ w.db.ackIntents, i.status = .pending → i.cursor ≠ "" ∧
    ∃ s, HasState w.db s ∧ i.generation = s.generation ∧ s.cursor = some i.cursor
  undo : ∀ u ∈ w.db.undo, ∃ i ∈ w.db.ackIntents, i.generation = u.generation ∧ i.cursor = u.cursor
  backup : ∀ i ∈ w.db.ackIntents, i.status = .pending → ∀ u ∈ w.db.undo,
    u.generation = i.generation → u.cursor = i.cursor → IsBackup u w.db w.before

/-- the cursor stays. -/
structure Stays (db db' : Db) : Prop extends Quiet db db' where
  state : ∀ s, HasState db s →
    ∃ s', HasState db' s' ∧ s'.generation = s.generation ∧ s'.cursor = s.cursor

/-- What a call does to the cursor and the tables of pages. -/
inductive Move (globals : Globals) (w : World) (c : Call) (db' : Db) : Prop where
  | stays (h : Stays w.db db')
  /-- the cursor of a file that has none is that of the registration. -/
  | starts {lease : String} {r : Registration} {fence : Fence} {s s' : CacheState}
      (hc : c = .register lease r fence) (h : Quiet w.db db') (hs : HasState w.db s)
      (hs' : HasState db' s') (generation : s'.generation = s.generation)
      (absent : s.cursor = none ∨ s.cursor = some "") (adopts : r.checkpointCursor = none)
      (cursor : s'.cursor = some r.initialCursor)
  /-- a page moves it with its rows, when no acknowledgement is pending. -/
  | page {lease : String} {p : Page} {fence : Fence} {bounded : Bool}
      {receipts : List LargeRecordReceipt} {s : CacheState}
      (hc : c = .commit lease p fence bounded receipts) (hs : HasState w.db s)
      (resolved : ∀ i ∈ w.db.ackIntents, i.status ≠ .pending)
      (h : Committed globals p receipts s w.db db')
  /-- the page of a pending acknowledgement is taken back with its rows and its acknowledgement. -/
  | undone {lease : String} {s s₀ : CacheState} {i : AckRow} (hc : c = .rollbackLargeRecord lease)
      (hs : HasState w.db s) (hi : i ∈ w.db.ackIntents) (hp : i.status = .pending)
      (hs₀ : HasState w.before s₀) (generation : s₀.generation = s.generation)
      (h : Quiet w.before db') (hs' : HasState db' { s₀ with available := false, handoverDone := false })
      (resolved : ∀ i ∈ db'.ackIntents, i.status ≠ .pending)
  /-- a new generation without a cursor. -/
  | reset {lease clientId generation : String} (hc : c = .repair lease clientId generation)
      (h : Quiet w.db db') (hs : HasState db' (fresh clientId generation))
      (resolved : ∀ i ∈ db'.ackIntents, i.status ≠ .pending)

section Inv
variable {globals : Globals} {w w' : World} {db db' : Db} {s : CacheState}

theorem Stays.refl (db : Db) : Stays db db := ⟨Quiet.refl db, fun s hs => ⟨s, hs, rfl, rfl⟩⟩

theorem Quiet.of_eq {db₁ : Db} (h : db' = db₁) (hq : Quiet db db₁) : Quiet db db' := h ▸ hq

theorem HasState.of_eq {db₁ : Db} (h : db' = db₁) (hs : HasState db₁ s) : HasState db' s := h ▸ hs

theorem Stays.save (s' : CacheState) (hs : HasState db s) (h : Quiet db db')
    (hs' : HasState db' s') (hg : s'.generation = s.generation) (hc : s'.cursor = s.cursor) :
    Stays db db' := by
  refine ⟨h, fun s₁ h₁ => ⟨s', hs', ?_⟩⟩
  rw [h₁.eq hs]
  exact ⟨hg, hc⟩

/-- the intents stay. -/
theorem Inv.stays (hi : Inv w) (h : Stays w.db w'.db) (hb : w'.before = w.before)
    (hintents : w'.db.ackIntents = w.db.ackIntents) (hundo : w'.db.undo = w.db.undo) : Inv w' where
  keys := hintents ▸ hi.keys
  cursor i him hp := by
    obtain ⟨hne, s, hs, hg, hc⟩ := hi.cursor i (hintents ▸ him) hp
    obtain ⟨s', hs', hg', hc'⟩ := h.state s hs
    exact ⟨hne, s', hs', hg.trans hg'.symm, hc'.trans hc⟩
  undo u hu := by
    rw [hintents]
    exact hi.undo u (hundo ▸ hu)
  backup i him hp u hu hg hc := by
    have hback := hi.backup i (hintents ▸ him) hp u (hundo ▸ hu) hg hc
    rw [hb]
    exact ⟨hback.state, h.rows ▸ hback.rows, h.actors ▸ hback.actors, h.access ▸ hback.access⟩

/-- no acknowledgement is pending. -/
theorem Inv.resolved (hkeys : PrimaryKey (fun i : AckRow => (i.generation, i.cursor)) w.db.ackIntents)
    (hundo : ∀ u ∈ w.db.undo, ∃ i ∈ w.db.ackIntents, i.generation = u.generation ∧
      i.cursor = u.cursor)
    (hp : ∀ i ∈ w.db.ackIntents, i.status ≠ .pending) : Inv w :=
  ⟨hkeys, fun i hi h => absurd h (hp i hi), hundo, fun i hi h => absurd h (hp i hi)⟩

/-- a pending acknowledgement is that of the stored cursor. -/
theorem Inv.eq_cursor (hi : Inv w) (hs : HasState w.db s) {i : AckRow} (him : i ∈ w.db.ackIntents)
    (hp : i.status = .pending) : i.generation = s.generation ∧ s.cursor = some i.cursor := by
  obtain ⟨-, s', hs', hg, hc⟩ := hi.cursor i him hp
  rw [hs.eq hs']
  exact ⟨hg, hc⟩

/-- the intents and undo records of one cursor are deleted. -/
theorem Inv.delete (w' : World) (hi : Inv w) {cursor : String} (hs : HasState w.db s)
    (hcursor : s.cursor = some cursor)
    (hintents : w'.db.ackIntents = w.db.ackIntents.filter fun i =>
      ¬(i.generation = s.generation ∧ i.cursor = cursor))
    (hundo : w'.db.undo = w.db.undo.filter fun u =>
      ¬(u.generation = s.generation ∧ u.cursor = cursor)) :
    (∀ i ∈ w'.db.ackIntents, i.status ≠ .pending) ∧ Inv w' := by
  have hp : ∀ i ∈ w'.db.ackIntents, i.status ≠ .pending := by
    intro i him hp
    rw [hintents, List.mem_filter, decide_eq_true_iff] at him
    obtain ⟨hg, hc⟩ := hi.eq_cursor hs him.1 hp
    exact him.2 ⟨hg, Option.some.inj (hc.symm.trans hcursor)⟩
  refine ⟨hp, Inv.resolved ?_ ?_ hp⟩
  · rw [hintents]
    exact hi.keys.sublist (List.filter_sublist.map _)
  · intro u hu
    rw [hundo, List.mem_filter, decide_eq_true_iff] at hu
    obtain ⟨i, him, hg, hc⟩ := hi.undo u hu.1
    refine ⟨i, ?_, hg, hc⟩
    rw [hintents, List.mem_filter, decide_eq_true_iff, hg, hc]
    exact ⟨him, hu.2⟩

/-- the status of intents changes and no acknowledgement is pending any more. -/
theorem Inv.mapStatus (w' : World) (f : AckRow → AckRow) (hi : Inv w)
    (hkey : ∀ i, (f i).generation = i.generation ∧ (f i).cursor = i.cursor)
    (hintents : w'.db.ackIntents = w.db.ackIntents.map f) (hundo : w'.db.undo = w.db.undo)
    (hp : ∀ i ∈ w.db.ackIntents, (f i).status ≠ .pending) :
    (∀ i ∈ w'.db.ackIntents, i.status ≠ .pending) ∧ Inv w' := by
  have hp' : ∀ i ∈ w'.db.ackIntents, i.status ≠ .pending := by
    intro i' hi'
    rw [hintents] at hi'
    obtain ⟨i, him, rfl⟩ := List.mem_map.mp hi'
    exact hp i him
  refine ⟨hp', Inv.resolved ?_ ?_ hp'⟩
  · have hk : (w.db.ackIntents.map f).map (fun i => (i.generation, i.cursor)) =
        w.db.ackIntents.map fun i => (i.generation, i.cursor) := by
      rw [List.map_map]
      exact List.map_congr_left fun i _ => Prod.ext (hkey i).1 (hkey i).2
    rw [PrimaryKey, hintents, hk]
    exact hi.keys
  · intro u hu
    obtain ⟨i, him, hg, hc⟩ := hi.undo u (hundo ▸ hu)
    refine ⟨f i, ?_, (hkey i).1.trans hg, (hkey i).2.trans hc⟩
    rw [hintents]
    exact List.mem_map_of_mem him

/-- **A page and its undo record.** -/
theorem Inv.committed (w' : World) (hi : Inv w) {p : Page} {receipts : List LargeRecordReceipt}
    (hs : HasState w.db s) (h : Committed globals p receipts s w.db w'.db) (hb : w'.before = w.db) :
    (∀ i ∈ w.db.ackIntents, i.status ≠ .pending) ∧ Inv w' := by
  have hresolved : ∀ i ∈ w.db.ackIntents, i.status ≠ .pending := by
    intro i him hp
    exact pending_none h.resolved i him (hi.eq_cursor hs him hp).1 hp
  obtain ⟨i₀, hintents, hg₀, hc₀, hp₀⟩ := h.intents
  obtain ⟨s', hs', hg', -, hc'⟩ := h.state
  have hmem : ∀ i ∈ w'.db.ackIntents, i ∈ w.db.ackIntents ∨ i = i₀ := by
    intro i him
    rw [hintents, List.mem_append, List.mem_singleton] at him
    exact him
  refine ⟨hresolved, ?_, fun i him hp => ?_, fun u hu => ?_, fun i him hp u hu hg hc => ?_⟩
  · rw [hintents]
    refine hi.keys.append fun i him hk => ?_
    obtain ⟨hg, hc⟩ := Prod.mk.inj hk
    exact h.unique i him ⟨hg.trans hg₀, hc.trans hc₀⟩
  · rcases hmem i him with him | rfl
    · exact absurd hp (hresolved i him)
    · exact ⟨hc₀ ▸ p.nonempty, s', hs', hg₀.trans hg'.symm, hc'.trans (congrArg some hc₀.symm)⟩
  · have old (hu : u ∈ w.db.undo) :
        ∃ i ∈ w'.db.ackIntents, i.generation = u.generation ∧ i.cursor = u.cursor := by
      obtain ⟨i, him, hk⟩ := hi.undo u hu
      exact ⟨i, hintents ▸ List.mem_append_left _ him, hk⟩
    rcases h.undo with ⟨-, e⟩ | ⟨-, -, u₀, e, hug, huc, -⟩
    · exact old (e ▸ hu)
    · rw [e, List.mem_append, List.mem_singleton] at hu
      rcases hu with hu | rfl
      · exact old hu
      · refine ⟨i₀, hintents ▸ List.mem_append_right _ (List.mem_singleton_self _), ?_⟩
        exact ⟨hg₀.trans hug.symm, hc₀.trans huc.symm⟩
  · rcases hmem i him with him | rfl
    · exact absurd hp (hresolved i him)
    -- no older undo record has the key of the page
    have old (hu : u ∈ w.db.undo) : False := by
      obtain ⟨i', hi', hg'', hc''⟩ := hi.undo u hu
      exact h.unique i' hi' ⟨hg''.trans (hg.trans hg₀), hc''.trans (hc.trans hc₀)⟩
    rcases h.undo with ⟨-, e⟩ | ⟨-, -, u₀, e, -, -, hst, hrows, hactors, haccess⟩
    · exact absurd (e ▸ hu) old
    rw [e, List.mem_append, List.mem_singleton] at hu
    rcases hu with hu | rfl
    · exact absurd hu old
    rw [hb]
    refine ⟨hst ▸ hs, ?_, ?_, ?_⟩
    · rw [hrows]
      exact restore_capture fun k hk => foldlM_mergeChange_apply h.rows hk
    · rw [hactors, h.actors]
      exact restore_capture fun k hk => foldl_update_apply _ _ _ _ hk
    · rw [haccess, h.access]
      exact restore_capture fun k hk => foldl_update_apply _ _ _ _ hk

/-- the rows that are taken back are those of the last page. -/
theorem Inv.takenBack (hi : Inv w) {i : AckRow} {u : UndoRow} (hs : HasState w.db s)
    (him : i ∈ w.db.ackIntents) (hp : i.status = .pending) (hg : i.generation = s.generation)
    (h : TakenBack s i.cursor u w.db db') :
    HasState w.before u.state ∧ Quiet w.before db' := by
  have hback := hi.backup i him hp u h.backup.1 (h.backup.2.1.trans hg.symm) h.backup.2.2
  exact ⟨hback.state, h.rows.trans hback.rows, h.actors.trans hback.actors,
    h.access.trans hback.access⟩

end Inv

/-! ## steps -/

section Step
variable {globals : Globals} {w : World}

/-- a call that threw. -/
theorem after_threw (hi : Inv w) {c : Call} {now : ℕ} {e : String}
    (h : c.run globals now w.db = (.error e, w.db)) :
    Move globals w c (w.after globals c now).db ∧ Inv (w.after globals c now) := by
  have hdb : (w.after globals c now).db = w.db := congrArg Prod.snd h
  have hb : (w.after globals c now).before = w.before := by
    cases c with
    | commit =>
      change commit _ _ _ _ _ _ _ _ = _ at h
      simp only [World.after, Call.accepts, h, Option.isSome_none, Bool.false_eq_true, if_false]
    | _ => rfl
  have hstays : Stays w.db (w.after globals c now).db := hdb.symm ▸ Stays.refl w.db
  exact ⟨Move.stays hstays, hi.stays hstays hb (congrArg _ hdb) (congrArg _ hdb)⟩

/-- a call of the tables of a transfer. -/
theorem after_sameBut (hi : Inv w) {c : Call} {now : ℕ} (h : SameBut w.db (w.after globals c now).db)
    (hb : (w.after globals c now).before = w.before) :
    Move globals w c (w.after globals c now).db ∧ Inv (w.after globals c now) := by
  have hstays : Stays w.db (w.after globals c now).db := by
    refine ⟨h.toQuiet, fun s hs => ⟨s, ?_, rfl, rfl⟩⟩
    unfold HasState
    rw [h.metaRow]
    exact hs
  exact ⟨Move.stays hstays, hi.stays hstays hb h.intents h.undo⟩

/-- the state is rewritten with its cursor. -/
theorem after_save (hi : Inv w) {c : Call} {now : ℕ} {s s' : CacheState} (hs : HasState w.db s)
    (h : (w.after globals c now).db = w.db.save s') (hg : s'.generation = s.generation)
    (hc : s'.cursor = s.cursor) (hb : (w.after globals c now).before = w.before) :
    Move globals w c (w.after globals c now).db ∧ Inv (w.after globals c now) := by
  have hstays : Stays w.db (w.after globals c now).db := by
    rw [h]
    exact Stays.save s' hs ⟨rfl, rfl, rfl⟩ (hs.save s') hg hc
  exact ⟨Move.stays hstays, hi.stays hstays hb (by rw [h]; rfl) (by rw [h]; rfl)⟩

/-- **The step lemma.** -/
theorem Inv.after (hi : Inv w) (c : Call) (now : ℕ) :
    Move globals w c (w.after globals c now).db ∧ Inv (w.after globals c now) := by
  cases c with
  | openCache lease partition leaseMs clientId generation =>
    have hx : Ran ((Call.openCache lease partition leaseMs clientId generation).run globals now w.db)
      w.db _ := openCache_ran
    rcases hx with ⟨e, h⟩ | ⟨-, -, h⟩
    · exact after_threw hi h
    · have hstays : Stays w.db (w.after globals
          (.openCache lease partition leaseMs clientId generation) now).db := by
        refine ⟨Quiet.of_eq h ⟨rfl, rfl, rfl⟩, fun s hs => ⟨s, HasState.of_eq h ?_, rfl, rfl⟩⟩
        obtain ⟨path, hs⟩ := hs
        refine ⟨path, ?_⟩
        dsimp only
        rw [hs]
        rfl
      exact ⟨Move.stays hstays, hi.stays hstays rfl (congrArg (·.ackIntents) h)
        (congrArg (·.undo) h)⟩
  | unavailable lease =>
    have hx : Ran ((Call.unavailable lease).run globals now w.db) w.db _ := unavailable_ran
    rcases hx with ⟨e, h⟩ | ⟨-, -, s, hs, h⟩
    · exact after_threw hi h
    · exact after_save hi hs h rfl rfl rfl
  | repair lease clientId generation =>
    have hx : Ran ((Call.repair lease clientId generation).run globals now w.db) w.db _ := repair_ran
    rcases hx with ⟨e, h⟩ | ⟨-, -, ⟨s, hs⟩, h⟩
    · exact after_threw hi h
    · obtain ⟨path, hs'⟩ := hs.save (fresh clientId generation)
      have hinv := Inv.mapStatus (w.after globals (.repair lease clientId generation) now)
        (fun i => if i.status = .pending then { i with status := .repair } else i) hi
        (fun i => by split <;> exact ⟨rfl, rfl⟩) (congrArg (·.ackIntents) h)
        (congrArg (·.undo) h) fun i _ => ?_
      · exact ⟨Move.reset rfl (Quiet.of_eq h ⟨rfl, rfl, rfl⟩) (HasState.of_eq h ⟨path, hs'⟩) hinv.1,
          hinv.2⟩
      · split
        · exact nofun
        · exact ‹_›
  | register lease r fence =>
    have hx : Ran ((Call.register lease r fence).run globals now w.db) w.db _ := register_ran
    rcases hx with ⟨e, h⟩ | ⟨-, -, s, s', hs, h, hg, -, hc | ⟨habsent, hadopts, hc⟩⟩
    · exact after_threw hi h
    · exact after_save hi hs h hg hc rfl
    · -- a file without a cursor has no pending acknowledgement
      have hs' : HasState (w.after globals (.register lease r fence) now).db s' := by
        exact HasState.of_eq h (hs.save s')
      have hp : ∀ i ∈ w.db.ackIntents, i.status ≠ .pending := by
        intro i him hp
        obtain ⟨hne, -⟩ := hi.cursor i him hp
        obtain ⟨-, hcur⟩ := hi.eq_cursor hs him hp
        rcases habsent with e | e
        · rw [e] at hcur
          cases hcur
        · rw [e] at hcur
          exact hne (Option.some.inj hcur).symm
      have hintents : (w.after globals (.register lease r fence) now).db.ackIntents =
          w.db.ackIntents := congrArg (·.ackIntents) h
      have hundo : (w.after globals (.register lease r fence) now).db.undo = w.db.undo :=
        congrArg (·.undo) h
      refine ⟨Move.starts rfl (Quiet.of_eq h ⟨rfl, rfl, rfl⟩) hs hs' hg habsent hadopts hc, ?_⟩
      exact Inv.resolved (hintents.symm ▸ hi.keys) (hintents.symm ▸ hundo.symm ▸ hi.undo)
        (hintents.symm ▸ hp)
  | commit lease p fence bounded receipts =>
    have hx : Ran ((Call.commit lease p fence bounded receipts).run globals now w.db) w.db _ :=
      commit_ran
    rcases hx with ⟨e, h⟩ | ⟨hok, -, s, hs, -, -, h⟩
    · exact after_threw hi h
    · have hb : (w.after globals (.commit lease p fence bounded receipts) now).before = w.db := by
        change (commit _ _ _ _ _ _ _ _).1 = _ at hok
        simp only [World.after, Call.accepts, hok, Option.isSome_some, if_true]
      obtain ⟨hresolved, hinv⟩ :=
        Inv.committed (w.after globals (.commit lease p fence bounded receipts) now) hi hs h hb
      exact ⟨Move.page rfl hs hresolved h, hinv⟩
  | ack lease r intent =>
    have hx : Ran ((Call.ack lease r intent).run globals now w.db) w.db _ := ack_ran
    rcases hx with ⟨e, h⟩ | ⟨-, -, s, hs, -, hc, -, h⟩
    · exact after_threw hi h
    · obtain ⟨path, hs'⟩ := hs.save { s with revision := r.checkpointRevision }
      have hstays : Stays w.db (w.after globals (.ack lease r intent) now).db :=
        Stays.save _ hs (Quiet.of_eq h ⟨rfl, rfl, rfl⟩) (HasState.of_eq h ⟨path, hs'⟩) rfl rfl
      exact ⟨Move.stays hstays,
        (Inv.delete _ hi hs hc (congrArg (·.ackIntents) h) (congrArg (·.undo) h)).2⟩
  | replayConflict lease r intent =>
    have hx : Ran ((Call.replayConflict lease r intent).run globals now w.db) w.db _ :=
      replayConflict_ran
    rcases hx with ⟨e, h⟩ | ⟨-, -, s, hs, h⟩
    · exact after_threw hi h
    · obtain ⟨path, hs'⟩ :=
        hs.save { s with revision := r.checkpointRevision, handoverDone := false }
      have hstays : Stays w.db (w.after globals (.replayConflict lease r intent) now).db :=
        Stays.save _ hs (Quiet.of_eq h ⟨rfl, rfl, rfl⟩) (HasState.of_eq h ⟨path, hs'⟩) rfl rfl
      refine ⟨Move.stays hstays, (Inv.mapStatus
        (w.after globals (.replayConflict lease r intent) now)
        (fun i => if i.generation = s.generation then { i with status := .conflict } else i) hi
        (fun i => by split <;> exact ⟨rfl, rfl⟩) (congrArg (·.ackIntents) h)
        (congrArg (·.undo) h) fun i him => ?_).2⟩
      split
      · exact nofun
      · rename_i hne
        exact fun hp => hne (hi.eq_cursor hs him hp).1
  | rollbackLargeRecord lease =>
    have hx : Ran ((Call.rollbackLargeRecord lease).run globals now w.db) w.db _ :=
      rollbackLargeRecord_ran
    rcases hx with ⟨e, h⟩ | ⟨-, -, h | ⟨s, i, u, hs, him, hg, hp, h⟩⟩
    · exact after_threw hi h
    · have hstays : Stays w.db (w.after globals (.rollbackLargeRecord lease) now).db :=
        h.symm ▸ Stays.refl w.db
      exact ⟨Move.stays hstays, hi.stays hstays rfl (congrArg (·.ackIntents) h)
        (congrArg (·.undo) h)⟩
    · obtain ⟨hstate, hquiet⟩ := hi.takenBack hs him hp hg h
      obtain ⟨hresolved, hinv⟩ := Inv.delete
        (w.after globals (.rollbackLargeRecord lease) now) hi hs h.fence.1 h.intents h.undo
      exact ⟨Move.undone rfl hs him hp hstate h.fence.2 hquiet h.state hresolved, hinv⟩
  | stagePage lease fence page =>
    have hx : Ran ((Call.stagePage lease fence page).run globals now w.db) w.db _ := stagePage_ran
    rcases hx with ⟨e, h⟩ | ⟨-, -, h⟩
    · exact after_threw hi h
    · exact after_sameBut hi h rfl
  | stageChunk lease fence manifest idx bytes =>
    have hx : Ran ((Call.stageChunk lease fence manifest idx bytes).run globals now w.db) w.db _ :=
      stageChunk_ran
    rcases hx with ⟨e, h⟩ | ⟨-, -, h⟩
    · exact after_threw hi h
    · exact after_sameBut hi h rfl
  | discardStage lease =>
    have hx : Ran ((Call.discardStage lease).run globals now w.db) w.db _ := discardStage_ran
    rcases hx with ⟨e, h⟩ | ⟨-, -, h⟩
    · exact after_threw hi h
    · exact after_sameBut hi h rfl
  | close lease =>
    have hstays : Stays w.db (w.after globals (.close lease) now).db :=
      ⟨⟨rfl, rfl, rfl⟩, fun s hs => ⟨s, hs, rfl, rfl⟩⟩
    exact ⟨Move.stays hstays, hi.stays hstays rfl rfl rfl⟩

theorem Inv.empty : Inv {} where
  keys := List.nodup_nil
  cursor i hi := absurd hi List.not_mem_nil
  undo u hu := absurd hu List.not_mem_nil
  backup i hi := absurd hi List.not_mem_nil

theorem Inv.run (h : Steps globals {} w) : Inv w := by
  induction h with
  | refl => exact Inv.empty
  | tail _ hstep ih =>
    obtain ⟨c, now, -, -, rfl⟩ := hstep
    exact (ih.after c now).2

/-! ## leases -/

/-- the lease was drawn, and it expired or was superseded. -/
def Dead (w : World) (lease : String) : Prop := lease ∈ w.leases ∧ ¬Live w.db lease w.clock

/-- **A dead lease stays dead.** -/
theorem Dead.step {w w' : World} {lease : String} (hd : Dead w lease) (h : Step globals w w') :
    Dead w' lease := by
  obtain ⟨c, now, hnow, hf, rfl⟩ := h
  obtain ⟨hmem, hlive⟩ := hd
  refine ⟨?_, ?_⟩
  · unfold World.after
    dsimp only
    split
    · exact List.mem_append_left _ hmem
    · exact hmem
  · rintro ⟨l, hl, rfl, hexp⟩
    change (c.run globals now w.db).2.lease = some l at hl
    rcases c.lease_cases with h | h | ⟨token, partition, leaseMs, clientId, generation, rfl, h⟩
    · rw [h] at hl
      exact hlive ⟨l, hl, rfl, lt_of_le_of_lt hnow hexp⟩
    · rw [h] at hl
      cases hl
    · rw [h] at hl
      cases hl
      exact hf hmem

theorem Dead.steps {w w' : World} {lease : String} (hd : Dead w lease) (h : Steps globals w w') :
    Dead w' lease := by
  induction h with
  | refl => exact hd
  | tail _ hstep ih => exact ih.step hstep

/-- a call under a dead lease changes nothing, but `close` removes its own expired lease. -/
theorem Dead.run {c : Call} {now : ℕ} (hd : Dead w c.lease) (hnow : w.clock ≤ now) (hf : c.Fresh w) :
    (c.run globals now w.db).2 = w.db ∨ (∃ lease, c = .close lease) ∧
      (c.run globals now w.db).2 = { w.db with lease := none } := by
  have hl : ¬Live w.db c.lease now := by
    rintro ⟨l, hl, ht, hexp⟩
    exact hd.2 ⟨l, hl, ht, lt_of_le_of_lt hnow hexp⟩
  rcases Call.dead hl with ⟨e, h⟩ | ⟨lease, _, _, _, _, rfl⟩ | ⟨lease, rfl⟩
  · exact Or.inl (congrArg Prod.snd h)
  · exact absurd hd.1 hf
  · have hclose : (Call.run globals now w.db (.close lease)).2 =
        { w.db with lease := (close lease w.db).lease } := rfl
    rw [hclose]
    rcases close_lease with h | h
    · exact Or.inr ⟨⟨lease, rfl⟩, by rw [h]⟩
    · exact Or.inl (by rw [h])

end Step

/-! ## the discipline -/

/-- The discipline of a file.  See the file header. -/
structure Disciplined (globals : Globals) (w : World) : Prop where
  single : ∀ g, (w.db.ackIntents.filter fun i => i.generation = g ∧ i.status = .pending).length ≤ 1
  cursor : ∀ i ∈ w.db.ackIntents, i.status = .pending →
    ∃ s, HasState w.db s ∧ i.generation = s.generation ∧ s.cursor = some i.cursor
  moves : ∀ (c : Call) (now : ℕ), Move globals w c (w.after globals c now).db
  atomic : ∀ (c : Call) (now : ℕ) (e : String), (c.run globals now w.db).1 = .error e →
    (c.run globals now w.db).2 = w.db
  fenced : ∀ lease, Dead w lease → ∀ w', Steps globals w w' → ∀ (c : Call) (now : ℕ),
    c.lease = lease → w'.clock ≤ now → c.Fresh w' →
      (c.run globals now w'.db).2 = w'.db ∨ (∃ lease, c = .close lease) ∧
        (c.run globals now w'.db).2 = { w'.db with lease := none }

theorem run_atomic {globals : Globals} {db : Db} {c : Call} {now : ℕ} {e : String}
    (h : (c.run globals now db).1 = .error e) : (c.run globals now db).2 = db := by
  have threw {x : Except String Unit × Db} {P : Db → Prop} (hx : Ran x db P)
      (h : x.1 = .error e) : x.2 = db := by
    rcases hx with ⟨e, he⟩ | ⟨hok, -⟩
    · rw [he]
    · rw [hok] at h
      cases h
  cases c with
  | openCache => exact threw openCache_ran h
  | unavailable => exact threw unavailable_ran h
  | repair => exact threw repair_ran h
  | register => exact threw register_ran h
  | commit => exact threw commit_ran h
  | ack => exact threw ack_ran h
  | replayConflict => exact threw replayConflict_ran h
  | rollbackLargeRecord => exact threw rollbackLargeRecord_ran h
  | stagePage => exact threw stagePage_ran h
  | stageChunk => exact threw stageChunk_ran h
  | discardStage => exact threw discardStage_ran h
  | close => cases h

/-- at most one row has a key. -/
theorem length_filter_le_one {l : List AckRow}
    (hk : PrimaryKey (fun i : AckRow => (i.generation, i.cursor)) l) {p : AckRow → Prop}
    [DecidablePred p] (h : ∀ i ∈ l, p i → ∀ j ∈ l, p j →
      (i.generation, i.cursor) = (j.generation, j.cursor)) : (l.filter p).length ≤ 1 := by
  have hnd : (l.filter p).Nodup := (List.Nodup.of_map _ hk).filter _
  rcases e : l.filter p with _ | ⟨i, _ | ⟨j, rest⟩⟩
  · rw [e]
    exact Nat.zero_le _
  · rw [e]
    exact le_rfl
  · have hi : i ∈ l.filter p := e ▸ List.mem_cons_self
    have hj : j ∈ l.filter p := e ▸ List.mem_cons_of_mem _ List.mem_cons_self
    rw [List.mem_filter, decide_eq_true_iff] at hi hj
    have hij : i = j := hk.eq hi.1 hj.1 (h i hi.1 hi.2 j hj.1 hj.2)
    rw [e, hij] at hnd
    exact absurd List.mem_cons_self (List.nodup_cons.mp hnd).1

/-- **Cursors, acknowledgements and leases** of every reachable file. -/
theorem cursor_discipline {globals : Globals} {w : World} (h : Steps globals {} w) :
    Disciplined globals w := by
  have hi := Inv.run h
  refine ⟨fun g => ?_, fun i him hp => (hi.cursor i him hp).2, fun c now => (hi.after c now).1,
    fun c now e => run_atomic, fun lease hd w' hsteps c now hc hnow hf => ?_⟩
  · refine length_filter_le_one hi.keys fun i him hp j hjm hp' => ?_
    obtain ⟨-, s, hs, hg, hc⟩ := hi.cursor i him hp.2
    obtain ⟨hg', hc'⟩ := hi.eq_cursor hs hjm hp'.2
    exact Prod.ext (hg.trans hg'.symm) (Option.some.inj (hc.symm.trans hc'))
  · exact (hc ▸ hd.steps hsteps).run hnow hf

/-! ### a page of a new file -/

/-- a new file, at time 0. -/
def opened : World := World.after plainGlobals {} (.openCache "lease" [] 1000 "client" "g") 0

def registerCall : Call :=
  .register "lease" { authorityEpoch := "epoch", initialCursor := "initial"
                      checkpointCursor := none, checkpointRevision := 0 }
    { cursor := none, clientId := "client", generation := "g" }

def registered : World := opened.after plainGlobals registerCall 0

/-- an empty snapshot page. -/
def emptyPage : Page where
  clientId := "client"
  checkpointRevision := 1
  families := ["task"]
  mode := .snapshot
  changes := []
  accessRevision := 1
  nextCursor := "page"
  nonempty := by decide
  snapshotId := some "snapshot"
  snapshotComplete := false
  hasMore := true

def pageCall : Call :=
  .commit "lease" emptyPage { cursor := some "initial", clientId := "client", generation := "g" }
    false []

theorem opened_steps : Steps plainGlobals {} opened :=
  Relation.ReflTransGen.single
    ⟨.openCache "lease" [] 1000 "client" "g", 0, le_rfl, List.not_mem_nil, rfl⟩

theorem cursor_discipline_page : Disciplined plainGlobals (registered.after plainGlobals pageCall 0) :=
  cursor_discipline ((opened_steps.tail ⟨registerCall, 0, le_rfl, trivial, rfl⟩).tail
    ⟨pageCall, 0, le_rfl, trivial, rfl⟩)

/-- The registration of a new file sets its cursor without a page. -/
theorem cursor_without_page : ¬∀ (w : World) (c : Call) (now : ℕ) (s s' : CacheState),
    Steps plainGlobals {} w → w.clock ≤ now → c.Fresh w → HasState w.db s →
    HasState (w.after plainGlobals c now).db s' → s'.generation = s.generation →
    s'.cursor ≠ s.cursor →
    ∃ lease p fence bounded receipts, c = .commit lease p fence bounded receipts := by
  intro h
  have hs : HasState opened.db (fresh "client" "g") := ⟨[], rfl⟩
  have hs' : HasState registered.db
      { fresh "client" "g" with epoch := some "epoch", cursor := some "initial" } := ⟨[], rfl⟩
  obtain ⟨_, _, _, _, _, hc⟩ := h _ registerCall 0 _ _ opened_steps le_rfl trivial hs hs' rfl
    (by decide)
  cases hc

end Discipline
end Heartbeat
end WmAutopilot
