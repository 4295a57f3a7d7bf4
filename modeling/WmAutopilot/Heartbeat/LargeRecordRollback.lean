import WmAutopilot.Heartbeat.RecordSyncDiscipline

/-!
# A page with large records is taken back

A page that came with large-record receipts keeps what was there before it (`saveLargeRecordUndo`).
While its acknowledgement is pending nothing else writes the tables of pages, so that
`rollbackLargeRecord` finds the tables as the page left them.

* `replaced`             the values that captured entries replace;
* `Awaited`, `Waits`     the calls that leave the acknowledgement pending;
* `Waiting.call`         what such a call keeps;
* `RolledBack`           what a rollback leaves;
* `rollback_exact`       the page is undone, and without it nothing is.
-/

set_option autoImplicit false
set_option linter.unusedVariables false

namespace WmAutopilot
namespace Heartbeat
namespace Rollback
open Js Discipline

/-! ## the replaced values -/

section Replaced
variable {κ α : Type} [DecidableEq κ] {value : κ → α → Rejected} {k : κ} {a : α}

/-- **The value of a captured key is kept** when the entries are put back: its first entry finds
it. -/
theorem mem_replaced (entries : List (κ × Option α)) {t : κ → Option α}
    (hk : k ∈ entries.map (·.1)) (h : t k = some a) : value k a ∈ replaced value t entries := by
  induction entries generalizing t with
  | nil => exact absurd hk List.not_mem_nil
  | cons e entries ih =>
    rw [replaced, List.mem_append]
    by_cases he : e.1 = k
    · left
      rw [he, h]
      exact List.mem_singleton_self _
    · right
      rw [List.map_cons, List.mem_cons] at hk
      refine ih (hk.resolve_left (Ne.symm he)) ?_
      rw [Function.update_of_ne (Ne.symm he)]
      exact h

theorem mem_replaced_capture {t t' : κ → Option α} {keys : List κ} (hk : k ∈ keys)
    (h : t' k = some a) : value k a ∈ replaced value t' (capture t keys) := by
  refine mem_replaced _ ?_ h
  unfold capture
  rw [List.map_map]
  exact List.mem_map.mpr ⟨k, hk, rfl⟩

end Replaced

/-! ## pending acknowledgements -/

/-- the acknowledgement of a page is pending. -/
def Awaited (generation cursor : String) (db : Db) : Prop :=
  ∃ i ∈ db.ackIntents, i.generation = generation ∧ i.cursor = cursor ∧ i.status = .pending

/-- Calls of any writers, at any times, that leave the acknowledgement of a page pending. -/
inductive Waits (globals : Globals) (generation cursor : String) (db : Db) : Db → Prop where
  | refl : Waits globals generation cursor db db
  | call {db' : Db} (h : Waits globals generation cursor db db') (c : Call) (now : ℕ)
      (awaited : Awaited generation cursor (c.run globals now db').2) :
      Waits globals generation cursor db (c.run globals now db').2

/-- the pending acknowledgement has receipts and an undo record. -/
def LargePending (db : Db) : Prop :=
  ∃ s intent, HasState db s ∧ db.pending s = some intent ∧
    intent.largeRecordReceipts.getD [] ≠ [] ∧
    ∃ u ∈ db.undo, u.generation = s.generation ∧ u.cursor = intent.cursor

/-- the tables as the page left them, with its acknowledgement. -/
structure Waiting (p : Page) (s : CacheState) (committed db : Db) : Prop
    extends Quiet committed db where
  state : ∃ s', HasState db s' ∧ s'.generation = s.generation ∧ s'.clientId = s.clientId ∧
    s'.cursor = some p.nextCursor
  intents : db.ackIntents = committed.ackIntents
  receipts : db.receipts = committed.receipts
  undo : db.undo = committed.undo

section Waiting
variable {globals : Globals} {p : Page} {receipts : List LargeRecordReceipt} {s s' : CacheState}
  {before committed db db' : Db} {lease : String} {now : ℕ}

/-- only the acknowledgement of the page is pending in its generation. -/
theorem only_pending (hc : Committed globals p receipts s before committed) {i : AckRow}
    (hi : i ∈ committed.ackIntents) (hg : i.generation = s.generation) (hp : i.status = .pending) :
    i.cursor = p.nextCursor := by
  obtain ⟨i₀, hintents, -, hc₀, -⟩ := hc.intents
  rw [hintents, List.mem_append, List.mem_singleton] at hi
  rcases hi with hi | rfl
  · exact absurd hp (pending_none hc.resolved i hi hg)
  · exact hc₀

theorem Waiting.refl (hc : Committed globals p receipts s before committed) :
    Waiting p s committed committed :=
  ⟨Quiet.refl _, hc.state, rfl, rfl, rfl⟩

/-- the state is saved. -/
theorem Waiting.save (h : Waiting p s committed db) {s₁ s₂ : CacheState} (hs : HasState db s₁)
    (hg : s₂.generation = s₁.generation) (hi : s₂.clientId = s₁.clientId)
    (hc : s₂.cursor = s₁.cursor) : Waiting p s committed (db.save s₂) := by
  obtain ⟨s', hs', hg', hi', hc'⟩ := h.state
  rw [hs.eq hs'] at hg hi hc
  exact ⟨⟨h.rows, h.actors, h.access⟩,
    ⟨s₂, hs.save s₂, hg.trans hg', hi.trans hi', hc.trans hc'⟩, h.intents, h.receipts, h.undo⟩

theorem Waiting.sameBut (h : Waiting p s committed db) (h' : SameBut db db') :
    Waiting p s committed db' := by
  obtain ⟨s', ⟨path, hs'⟩, hk⟩ := h.state
  exact ⟨⟨h'.rows.trans h.rows, h'.actors.trans h.actors, h'.access.trans h.access⟩,
    ⟨s', ⟨path, h'.metaRow.trans hs'⟩, hk⟩, h'.intents.trans h.intents,
    h'.receipts.trans h.receipts, h'.undo.trans h.undo⟩

/-- a registration does not move a cursor that is there. -/
theorem Waiting.cursor_ne (h : Waiting p s committed db) (hs : HasState db s') :
    ¬(s'.cursor = none ∨ s'.cursor = some "") := by
  obtain ⟨s₁, hs₁, -, -, hc⟩ := h.state
  rw [hs.eq hs₁, hc]
  rintro (h | h)
  · cases h
  · exact p.nonempty (Option.some.inj h)

/-- **The step lemma**: a call after which the acknowledgement is still pending. -/
theorem Waiting.call (hc : Committed globals p receipts s before committed)
    (h : Waiting p s committed db) (ha : Awaited s.generation p.nextCursor db) (c : Call)
    (ha' : Awaited s.generation p.nextCursor (c.run globals now db).2) :
    Waiting p s committed (c.run globals now db).2 := by
  obtain ⟨s₁, hs₁, hg₁, -, hc₁⟩ := id h.state
  -- the calls that end the wait contradict `ha'`
  have ends {x : Except String Unit × Db} {P : Db → Prop} (hx : Ran x db P)
      (hx' : Awaited s.generation p.nextCursor x.2)
      (hP : ∀ db', P db' → Awaited s.generation p.nextCursor db' → Waiting p s committed db') :
      Waiting p s committed x.2 := by
    rcases hx with ⟨e, he⟩ | ⟨-, hP'⟩
    · rw [he]
      exact h
    · exact hP _ hP' hx'
  cases c with
  | openCache =>
    refine ends openCache_ran ha' fun db' ⟨_, hdb⟩ _ => ?_
    rw [hdb]
    obtain ⟨path, hpath⟩ := hs₁
    refine ⟨⟨h.rows, h.actors, h.access⟩, ⟨s₁, ⟨path, ?_⟩, ?_⟩, h.intents, h.receipts, h.undo⟩
    · dsimp only
      rw [hpath]
      rfl
    · obtain ⟨s₂, hs₂, hk⟩ := h.state
      rw [HasState.eq ⟨path, hpath⟩ hs₂]
      exact hk
  | unavailable =>
    refine ends unavailable_ran ha' fun db' ⟨_, s₂, hs₂, hdb⟩ _ => ?_
    rw [hdb]
    exact h.save hs₂ rfl rfl rfl
  | repair =>
    refine ends repair_ran ha' fun db' ⟨_, _, hdb⟩ ⟨i, hi, _, _, hp⟩ => ?_
    rw [hdb] at hi
    obtain ⟨j, -, rfl⟩ := List.mem_map.mp hi
    split at hp
    · cases hp
    · exact absurd hp ‹_›
  | register =>
    refine ends register_ran ha' fun db' ⟨_, s₂, s₃, hs₂, hdb, hg, hi, hcur⟩ _ => ?_
    rw [hdb]
    rcases hcur with hcur | ⟨habsent, -⟩
    · exact h.save hs₂ hg hi hcur
    · exact absurd habsent (h.cursor_ne hs₂)
  | commit =>
    refine ends commit_ran ha' fun db' ⟨_, s₂, hs₂, _, _, hnew⟩ _ => ?_
    obtain ⟨i, hi, hg, -, hp⟩ := ha
    rw [hs₂.eq hs₁] at hnew
    exact absurd hp (pending_none hnew.resolved i hi (hg.trans hg₁.symm))
  | ack =>
    refine ends ack_ran ha' fun db' ⟨_, s₂, hs₂, _, hcur, _, hdb⟩ ⟨i, hi, hg, hic, _⟩ => ?_
    rw [hdb, List.mem_filter, decide_eq_true_iff] at hi
    rw [hs₂.eq hs₁] at hi hcur
    refine absurd ⟨hg.trans hg₁.symm, ?_⟩ hi.2
    exact hic.trans (Option.some.inj (hc₁.symm.trans hcur))
  | replayConflict =>
    refine ends replayConflict_ran ha' fun db' ⟨_, s₂, hs₂, hdb⟩ ⟨i, hi, hg, _, hp⟩ => ?_
    rw [hdb] at hi
    obtain ⟨j, -, rfl⟩ := List.mem_map.mp hi
    rw [hs₂.eq hs₁] at hg hp
    split at hp
    · cases hp
    · rename_i hne
      rw [if_neg hne] at hg
      exact absurd (hg.trans hg₁.symm) hne
  | rollbackLargeRecord =>
    refine ends rollbackLargeRecord_ran ha' fun db' ⟨_, hdb⟩ ⟨j, hj, hjg, hjc, _⟩ => ?_
    rcases hdb with rfl | ⟨s₂, i, u, hs₂, hi, hg, hp, ht⟩
    · exact h
    rw [hs₂.eq hs₁, hg₁] at hg
    rw [ht.intents, List.mem_filter, decide_eq_true_iff, hs₂.eq hs₁] at hj
    refine absurd ⟨hjg.trans hg₁.symm, ?_⟩ hj.2
    exact hjc.trans (only_pending hc (h.intents ▸ hi) hg hp).symm
  | stagePage => exact ends stagePage_ran ha' fun _ ⟨_, h'⟩ _ => h.sameBut h'
  | stageChunk => exact ends stageChunk_ran ha' fun _ ⟨_, h'⟩ _ => h.sameBut h'
  | discardStage => exact ends discardStage_ran ha' fun _ ⟨_, h'⟩ _ => h.sameBut h'
  | close =>
    exact ⟨⟨h.rows, h.actors, h.access⟩, h.state, h.intents, h.receipts, h.undo⟩

/-- **The run lemma.** -/
theorem Waiting.run (hc : Committed globals p receipts s before committed)
    (h : Waits globals s.generation p.nextCursor committed db) :
    Waiting p s committed db ∧ Awaited s.generation p.nextCursor db := by
  induction h with
  | refl =>
    obtain ⟨i, hintents, hg, hcur, hp⟩ := hc.intents
    exact ⟨Waiting.refl hc, i, hintents ▸ List.mem_append_right _ (List.mem_singleton_self i),
      hg, hcur, hp⟩
  | call _ c now ha' ih => exact ⟨ih.1.call hc ih.2 c ha', ha'⟩

end Waiting

/-! ## the rollback -/

section RolledBack
variable {globals : Globals} {p : Page} {receipts : List LargeRecordReceipt} {s s' : CacheState}
  {before committed db db' : Db} {lease : String} {now : ℕ}

theorem assertWriter_live (hl : Live db lease now) (hs : HasState db s) :
    db.assertWriter lease now = .ok s := by
  obtain ⟨l, hl, rfl, he⟩ := hl
  obtain ⟨path, hs⟩ := hs
  unfold Db.assertWriter Db.state
  rw [hl, hs, throwIf, if_neg]
  · rfl
  · intro h
    rcases h l rfl with h | h
    · exact h rfl
    · exact absurd he (not_lt.mpr h)

theorem rollback_dead (hl : ¬Live db lease now) :
    ∃ e, rollbackLargeRecord lease now db = (.error e, db) := by
  have hx : Ran (rollbackLargeRecord lease now db) db _ := rollbackLargeRecord_ran
  rcases hx with h | ⟨-, h, -⟩
  · exact h
  · exact absurd h hl

/-- the undo record of a page. -/
structure IsUndo (s : CacheState) (p : Page) (before : Db) (u : UndoRow) : Prop where
  generation : u.generation = s.generation
  cursor : u.cursor = p.nextCursor
  state : u.state = s
  rows : u.rows = capture before.rows (p.changes.map (changeKey s.generation))
  actors : u.actors = capture before.actors (p.actors.map (actorKey s.generation))
  access : u.access = capture before.access (p.accessChanges.map (accessKey s.generation))

/-- the undo record of a page with receipts is the only one of its key. -/
theorem find_undo (hc : Committed globals p receipts s before committed) (hr : receipts ≠ []) :
    ∃ u, (committed.undo.find? fun u => u.generation = s.generation ∧ u.cursor = p.nextCursor) =
      some u ∧ IsUndo s p before u := by
  rcases hc.undo with ⟨h, -⟩ | ⟨-, hnone, u, hundo, hg, hcur, hst, hrows, hactors, haccess⟩
  · exact absurd h hr
  refine ⟨u, ?_, hg, hcur, hst, hrows, hactors, haccess⟩
  rw [hundo, List.find?_append, List.find?_eq_none.mpr, Option.none_or, List.find?_singleton,
    if_pos (decide_eq_true ⟨hg, hcur⟩)]
  exact fun u hu hk => hnone u hu (decide_eq_true_iff.mp hk)

/-- the intent of the page is what `pending` finds. -/
theorem pending_page (hc : Committed globals p receipts s before committed) (hr : receipts ≠ [])
    (h : Waiting p s committed db) (hg : s'.generation = s.generation) :
    ∃ intent, db.pending s' = some intent ∧ intent.cursor = p.nextCursor ∧
      intent.largeRecordReceipts = some receipts := by
  obtain ⟨i₀, hintents, hg₀, -, hp₀⟩ := hc.intents
  have hmem : i₀ ∈ db.ackIntents := by
    rw [h.intents, hintents]
    exact List.mem_append_right _ (List.mem_singleton_self _)
  have hfound : db.pending s' ≠ none := by
    exact fun hnone => pending_none hnone i₀ hmem (hg₀.trans hg.symm) hp₀
  obtain ⟨intent, hintent⟩ := Option.ne_none_iff_exists'.mp hfound
  obtain ⟨i, hi, hig, hip, hic⟩ := pending_some hintent
  have hcur : intent.cursor = p.nextCursor := by
    exact hic.symm.trans (only_pending hc (h.intents ▸ hi) (hig.trans hg) hip)
  refine ⟨intent, hintent, hcur, ?_⟩
  -- the receipts are looked up with the cursor of the intent
  unfold Db.pending at hintent
  obtain ⟨j, -, hj⟩ := Option.map_eq_some_iff.mp hintent
  have hj' : j.cursor = p.nextCursor := (congrArg AckIntent.cursor hj).trans hcur
  rw [← hj]
  dsimp only
  rw [hj', hg]
  unfold Db.receiptsOf
  rw [h.receipts]
  exact hc.receiptsOf hr

/-- **While the acknowledgement is pending the rollback does not throw.** -/
theorem rollback_done (hc : Committed globals p receipts s before committed) (hr : receipts ≠ [])
    (h : Waiting p s committed db) (hl : Live db lease now) :
    ∃ s' u db', HasState db s' ∧ s'.generation = s.generation ∧ IsUndo s p before u ∧
      rollbackLargeRecord lease now db = (.ok (), db') ∧ TakenBack s' p.nextCursor u db db' := by
  obtain ⟨s', hs', hg', hi', hc'⟩ := h.state
  obtain ⟨u, hu, hundo⟩ := find_undo hc hr
  obtain ⟨intent, hintent, hcur, hreceipts⟩ := pending_page hc hr h hg'
  have hfind : (db.undo.find? fun u => u.generation = s'.generation ∧ u.cursor = intent.cursor) =
      some u := by
    rw [h.undo, hg', hcur]
    exact hu
  have hne : intent.largeRecordReceipts.getD [] ≠ [] := by
    rw [hreceipts]
    exact hr
  have hfence : ¬(s'.cursor ≠ some intent.cursor ∨ u.state.generation ≠ s'.generation ∨
      u.state.clientId ≠ s'.clientId) := by
    rw [hcur, hundo.state]
    push Not
    exact ⟨hc', hg'.symm, hi'.symm⟩
  have hdone : ∃ db', rollbackLargeRecord lease now db = (.ok (), db') ∧
      TakenBack s' intent.cursor u db db' := by
    simp only [rollbackLargeRecord, transaction, assertWriter_live hl hs', hintent, hne, hfind,
      orThrow, throwIf, hfence, bind, Except.bind, if_false]
    exact ⟨_, rfl,
      { large := ⟨intent, hintent, rfl, hne⟩
        backup := ⟨h.undo ▸ List.mem_of_find?_eq_some hu, hundo.generation.trans hg'.symm,
          hundo.cursor.trans hcur.symm⟩
        fence := ⟨hc'.trans (congrArg some hcur.symm), by rw [hundo.state, hg']⟩
        rows := rfl, actors := rfl, access := rfl, state := hs'.save _, intents := rfl
        receipts := rfl, undo := rfl, rejected := rfl, lease := rfl }⟩
  obtain ⟨db', hrun, htaken⟩ := hdone
  exact ⟨s', u, db', hs', hg', hundo, hrun, hcur ▸ htaken⟩

/-- **Nothing is undone** without a pending acknowledgement of such a page. -/
theorem rollback_none (h : ¬LargePending db) : (rollbackLargeRecord lease now db).2 = db := by
  have hx : Ran (rollbackLargeRecord lease now db) db _ := rollbackLargeRecord_ran
  rcases hx with ⟨e, he⟩ | ⟨-, -, hdb | ⟨s, i, u, hs, -, -, -, ht⟩⟩
  · rw [he]
  · exact hdb
  · obtain ⟨intent, hintent, hcur, hne⟩ := ht.large
    obtain ⟨hu, hg, hc⟩ := ht.backup
    exact absurd ⟨s, intent, hs, hintent, hne, u, hu, hg, hc.trans hcur.symm⟩ h

end RolledBack

/-- What a rollback of a page leaves: the tables and the state before the page, no trace of its
acknowledgement, and the values that the page had left under its keys. -/
structure RolledBack (p : Page) (s : CacheState) (before committed waited after : Db) : Prop
    extends Quiet before after where
  state : HasState after { s with available := false, handoverDone := false }
  intents : ∀ i ∈ after.ackIntents, ¬(i.generation = s.generation ∧ i.cursor = p.nextCursor)
  receipts : ∀ r ∈ after.receipts, ¬(r.generation = s.generation ∧ r.cursor = p.nextCursor)
  undo : ∀ u ∈ after.undo, ¬(u.generation = s.generation ∧ u.cursor = p.nextCursor)
  rejected : ∃ values : List Rejected,
    after.rejected = waited.rejected ++ values.map
      (fun payload => { generation := s.generation, cursor := p.nextCursor, payload }) ∧
    (∀ c ∈ p.changes, ∀ row ∈ committed.rows (changeKey s.generation c), .rows row ∈ values) ∧
    (∀ a ∈ p.actors, ∀ payload ∈ committed.actors (actorKey s.generation a),
      .actors (actorKey s.generation a) payload ∈ values) ∧
    ∀ a ∈ p.accessChanges, ∀ status ∈ committed.access (accessKey s.generation a),
      .access (accessKey s.generation a) status ∈ values

section Exact
variable {globals : Globals} {p : Page} {receipts : List LargeRecordReceipt} {s s' : CacheState}
  {before committed waited after : Db}

/-- **The undo record inverts the page**, whatever was skipped or replaced. -/
theorem rolledBack_of (hc : Committed globals p receipts s before committed)
    (h : Waiting p s committed waited) {u : UndoRow} (hu : IsUndo s p before u)
    (hg : s'.generation = s.generation) (ht : TakenBack s' p.nextCursor u waited after) :
    RolledBack p s before committed waited after := by
  refine ⟨⟨?_, ?_, ?_⟩, hu.state ▸ ht.state, ?_, ?_, ?_, u.replaced waited, ?_, ?_, ?_, ?_⟩
  · rw [ht.rows, hu.rows, h.rows]
    exact restore_capture fun k hk => foldlM_mergeChange_apply hc.rows hk
  · rw [ht.actors, hu.actors, h.actors, hc.actors]
    exact restore_capture fun k hk => foldl_update_apply _ _ _ _ hk
  · rw [ht.access, hu.access, h.access, hc.access]
    exact restore_capture fun k hk => foldl_update_apply _ _ _ _ hk
  · intro i hi
    rw [ht.intents, List.mem_filter, decide_eq_true_iff, hg] at hi
    exact hi.2
  · intro r hr
    rw [ht.receipts, List.mem_filter, decide_eq_true_iff, hg] at hr
    exact hr.2
  · intro u hu
    rw [ht.undo, List.mem_filter, decide_eq_true_iff, hg] at hu
    exact hu.2
  · rw [ht.rejected, hg]
  · intro c hcm row hrow
    rw [← h.rows] at hrow
    unfold UndoRow.replaced
    rw [hu.rows]
    exact List.mem_append_left _ (List.mem_append_left _
      (mem_replaced_capture (List.mem_map_of_mem hcm) hrow))
  · intro a ham payload hpayload
    rw [← h.actors] at hpayload
    unfold UndoRow.replaced
    rw [hu.actors]
    exact List.mem_append_left _ (List.mem_append_right _
      (mem_replaced_capture (List.mem_map_of_mem ham) hpayload))
  · intro a ham status hstatus
    rw [← h.access] at hstatus
    unfold UndoRow.replaced
    rw [hu.access]
    exact List.mem_append_right _ (mem_replaced_capture (List.mem_map_of_mem ham) hstatus)

end Exact

/-- **The rollback is exact.**  A page with receipts that was accepted on any file is undone after
any calls that leave its acknowledgement pending (a stale lease changes nothing), and a file without
such an acknowledgement stays as it is. -/
theorem rollback_exact (globals : Globals) :
    (∀ (before committed waited : Db) (lease : String) (p : Page) (fence : Fence) (bounded : Bool)
      (receipts : List LargeRecordReceipt) (now : ℕ),
      commit globals lease p fence bounded receipts now before = (.ok (), committed) →
      receipts ≠ [] → Waits globals fence.generation p.nextCursor committed waited →
      ∃ s, HasState before s ∧ s.generation = fence.generation ∧
        ∀ (writer : String) (later : ℕ),
          (¬Live waited writer later ∧
            ∃ e, rollbackLargeRecord writer later waited = (.error e, waited)) ∨
          ∃ after, rollbackLargeRecord writer later waited = (.ok (), after) ∧
            RolledBack p s before committed waited after) ∧
    ∀ (db : Db) (lease : String) (now : ℕ),
      ¬LargePending db → (rollbackLargeRecord lease now db).2 = db := by
  refine ⟨?_, fun db lease now => rollback_none⟩
  intro before committed waited lease p fence bounded receipts now hrun hr hw
  have hx : Ran (commit globals lease p fence bounded receipts now before) before _ := commit_ran
  rw [hrun] at hx
  rcases hx with ⟨e, h⟩ | ⟨-, -, s, hs, hg, -, hc⟩
  · cases h
  refine ⟨s, hs, hg, fun writer later => ?_⟩
  obtain ⟨hwait, -⟩ := Waiting.run hc (hg.symm ▸ hw)
  by_cases hl : Live waited writer later
  · obtain ⟨s', u, after, hs', hg', hu, hrun', ht⟩ := rollback_done hc hr hwait hl
    exact Or.inr ⟨after, hrun', rolledBack_of hc hwait hu hg' ht⟩
  · exact Or.inl ⟨hl, rollback_dead hl⟩

/-! ### a large record of a new file -/

/-- a page with one record and an actor that it repeats. -/
def largePage : Page :=
  { emptyPage with
    changes := [{ family := "task", id := "one", version := 1, operation := .upsert, scopeId := none
                  channelId := none, row := some (.obj []), canonical := by decide }]
    actors := [{ actorId := "a", payload := .num 1 }, { actorId := "a", payload := .num 2 }] }

def largeCall : Db → Except String Unit × Db :=
  commit plainGlobals "lease" largePage
    { cursor := some "initial", clientId := "client", generation := "g" } false
    [{ manifestId := "m", sha256 := "h" }] 0

/-- the page is committed, and the next wake makes the file unavailable. -/
def received : Db := (largeCall registered.db).2

def failedWake : Db := ((Call.unavailable "lease").run plainGlobals 1 received).2

theorem failedWake_waits : Waits plainGlobals "g" "page" received failedWake :=
  Waits.refl.call (.unavailable "lease") 1
    ⟨{ generation := "g", client := "client", cursor := "page", revision := 1, status := .pending },
      List.mem_singleton_self _, rfl, rfl, rfl⟩

theorem rollback_exact_page :
    ∃ s after, HasState registered.db s ∧ rollbackLargeRecord "lease" 2 failedWake = (.ok (), after) ∧
      RolledBack largePage s registered.db received failedWake after := by
  obtain ⟨s, hs, -, h⟩ := (rollback_exact plainGlobals).1 registered.db received failedWake "lease"
    largePage { cursor := some "initial", clientId := "client", generation := "g" } false
    [{ manifestId := "m", sha256 := "h" }] 0 rfl (by decide) failedWake_waits
  rcases h "lease" 2 with ⟨hdead, -⟩ | ⟨after, hrun, hback⟩
  · exact absurd ⟨_, rfl, rfl, by decide⟩ hdead
  · exact ⟨s, after, hs, hrun, hback⟩

end Rollback
end Heartbeat
end WmAutopilot
