import Mathlib.Logic.Relation
import WmAutopilot.Heartbeat.RecordSyncCache

/-!
# The steps of the record cache

What each method does when it does not throw, said once, and the runs of a cache file under any
number of writers.

* `Live`                the lease of a writer is the one of the file and has not expired;
* `Ran x db P`          a method threw and changed nothing, or it left a database of `P`;
* `commit_ran`, `ack_ran`, `register_ran`, …   what each method does;
* `Call`, `World`, `Step`, `Run`   the calls, in any order, with any arguments, at any later time.
-/

set_option autoImplicit false
set_option linter.unusedVariables false

namespace WmAutopilot
namespace Heartbeat
open Js

/-! ## transactions and leases -/

/-- a method threw and changed nothing, or it returned and left a database of `P`. -/
def Ran (x : Except String Unit × Db) (db : Db) (P : Db → Prop) : Prop :=
  (∃ e, x = (.error e, db)) ∨ x.1 = .ok () ∧ P x.2

theorem transaction_ran {body : Db → Except String Db} {db : Db} {P : Db → Prop}
    (h : ∀ db', body db = .ok db' → P db') : Ran (transaction body db) db P := by
  unfold transaction
  cases e : body db with
  | error message => exact Or.inl ⟨message, rfl⟩
  | ok db' => exact Or.inr ⟨rfl, h db' e⟩

/-- the writer with this lease may write. -/
def Live (db : Db) (lease : String) (now : ℕ) : Prop :=
  ∃ l, db.lease = some l ∧ l.token = lease ∧ now < l.expires

/-- the state of an opened cache. -/
def HasState (db : Db) (s : CacheState) : Prop := ∃ path, db.metaRow = some (path, s)

section Ok
variable {db db' : Db} {s : CacheState} {lease : String} {now : ℕ} {fence : Fence}

theorem HasState.eq {s' : CacheState} (h : HasState db s) (h' : HasState db s') : s = s' := by
  obtain ⟨path, h⟩ := h
  obtain ⟨path', h'⟩ := h'
  exact (Prod.mk.inj (Option.some.inj (h.symm.trans h'))).2

theorem HasState.save (h : HasState db s) (s' : CacheState) : HasState (db.save s') s' := by
  obtain ⟨path, h⟩ := h
  exact ⟨path, by simp [Db.save, h]⟩

theorem state_ok (h : db.state = .ok s) : HasState db s := by
  unfold Db.state orThrow at h
  cases e : db.metaRow with
  | none => rw [e] at h; cases h
  | some m => rw [e] at h; cases h; exact ⟨m.1, e⟩

theorem assertWriter_ok (h : db.assertWriter lease now = .ok s) :
    Live db lease now ∧ HasState db s := by
  unfold Db.assertWriter at h
  obtain ⟨_, hl, h⟩ := bind_ok.mp h
  rw [throwIf_ok] at hl
  push Not at hl
  obtain ⟨l, hl, ht, he⟩ := hl
  exact ⟨⟨l, hl, ht, he⟩, state_ok h⟩

theorem assertFence_ok (h : db.assertFence lease fence now = .ok s) :
    Live db lease now ∧ HasState db s ∧ s.clientId = fence.clientId ∧
      s.generation = fence.generation ∧ s.cursor = fence.cursor := by
  unfold Db.assertFence at h
  obtain ⟨s₁, hw, h⟩ := bind_ok.mp h
  obtain ⟨_, hf, h⟩ := bind_ok.mp h
  cases h
  rw [throwIf_ok] at hf
  unfold Fence.stale at hf
  push Not at hf
  obtain ⟨hl, hs⟩ := assertWriter_ok hw
  exact ⟨hl, hs, hf⟩

/-! ## the bodies -/

/-- the tables of pages are the same. -/
structure Quiet (db db' : Db) : Prop where
  rows : db'.rows = db.rows
  actors : db'.actors = db.actors
  access : db'.access = db.access

theorem Quiet.refl (db : Db) : Quiet db db := ⟨rfl, rfl, rfl⟩

theorem pending_none (h : db.pending s = none) :
    ∀ i ∈ db.ackIntents, i.generation = s.generation → i.status ≠ .pending := by
  intro i hi hg hs
  unfold Db.pending at h
  rw [Option.map_eq_none_iff, List.find?_eq_none] at h
  exact h i hi (decide_eq_true ⟨hg, hs⟩)

theorem handoverState_ok {p : Page} {bounded : Bool} {s' : CacheState}
    (h : handoverState s p bounded = .ok s') :
    ∃ target through certified, s' = { s with target, through, certified } := by
  unfold handoverState at h
  split at h
  · obtain ⟨_, -, h⟩ := bind_ok.mp h
    obtain ⟨_, -, h⟩ := bind_ok.mp h
    cases h
    exact ⟨_, _, _, rfl⟩
  · cases h
    exact ⟨_, _, _, rfl⟩

theorem saveLargeRecordUndo_ok {p : Page} (h : saveLargeRecordUndo db s p = .ok db') :
    (∀ u ∈ db.undo, ¬(u.generation = s.generation ∧ u.cursor = p.nextCursor)) ∧
      ∃ u : UndoRow, db' = { db with undo := db.undo ++ [u] } ∧ u.generation = s.generation ∧
        u.cursor = p.nextCursor ∧ u.state = s ∧
        u.rows = capture db.rows (p.changes.map (changeKey s.generation)) ∧
        u.actors = capture db.actors (p.actors.map (actorKey s.generation)) ∧
        u.access = capture db.access (p.accessChanges.map (accessKey s.generation)) := by
  unfold saveLargeRecordUndo at h
  split at h
  · cases h
  · rename_i hnone
    cases h
    push Not at hnone
    exact ⟨fun u hu hc => hnone u hu hc.1 hc.2, _, rfl, rfl, rfl, rfl, rfl, rfl, rfl⟩

theorem insertIntent_ok {p : Page} {receipts : List LargeRecordReceipt}
    (h : insertIntent db s p receipts = .ok db') :
    (∀ i ∈ db.ackIntents, ¬(i.generation = s.generation ∧ i.cursor = p.nextCursor)) ∧
      (receipts ≠ [] → db'.receiptsOf s.generation p.nextCursor = some receipts) ∧
      ∃ (i : AckRow) (saved : List ReceiptsRow),
        db' = { db with ackIntents := db.ackIntents ++ [i], receipts := saved } ∧
        i.generation = s.generation ∧ i.cursor = p.nextCursor ∧ i.status = .pending := by
  unfold insertIntent at h
  obtain ⟨_, hi, h⟩ := bind_ok.mp h
  obtain ⟨_, hr, h⟩ := bind_ok.mp h
  cases h
  rw [throwIf_ok] at hi hr
  push Not at hi
  refine ⟨fun i hm hc => hi i hm hc.1 hc.2, fun hne => ?_, _, _, rfl, rfl, rfl, rfl⟩
  -- no earlier receipts have the key of the page
  have hnone : (db.receipts.find? fun r =>
      r.generation = s.generation ∧ r.cursor = p.nextCursor) = none := by
    rw [List.find?_eq_none]
    exact fun r hm hk => hr ⟨hne, r, hm, decide_eq_true_iff.mp hk⟩
  unfold Db.receiptsOf
  dsimp only
  rw [if_neg hne, List.find?_append, hnone, Option.none_or, List.find?_singleton,
    if_pos (decide_eq_true ⟨rfl, rfl⟩)]
  rfl

theorem checkPage_ok {p : Page} {bounded : Bool} (h : checkPage db s p bounded = .ok ()) :
    db.pending s = none ∧ p.clientId = s.clientId ∧ some p.nextCursor ≠ s.cursor := by
  unfold checkPage at h
  obtain ⟨_, hp, h⟩ := bind_ok.mp h
  obtain ⟨_, hc, h⟩ := bind_ok.mp h
  rw [throwIf_ok] at hp hc
  push Not at hc
  exact ⟨by simpa using hp, hc.1, hc.2⟩

/-- What an accepted page does. -/
structure Committed (globals : Globals) (p : Page) (receipts : List LargeRecordReceipt)
    (s : CacheState) (db db' : Db) : Prop where
  clientId : p.clientId = s.clientId
  next : some p.nextCursor ≠ s.cursor
  resolved : db.pending s = none
  unique : ∀ i ∈ db.ackIntents, ¬(i.generation = s.generation ∧ i.cursor = p.nextCursor)
  rows : p.changes.foldlM (mergeChange globals s.generation) db.rows = .ok db'.rows
  actors : db'.actors = p.actors.foldl
    (fun t a => Function.update t (actorKey s.generation a) (some a.payload)) db.actors
  access : db'.access = p.accessChanges.foldl
    (fun t a => Function.update t (accessKey s.generation a) (some a.status)) db.access
  state : ∃ s', HasState db' s' ∧ s'.generation = s.generation ∧ s'.clientId = s.clientId ∧
    s'.cursor = some p.nextCursor
  intents : ∃ i, db'.ackIntents = db.ackIntents ++ [i] ∧ i.generation = s.generation ∧
    i.cursor = p.nextCursor ∧ i.status = .pending
  receiptsOf : receipts ≠ [] → db'.receiptsOf s.generation p.nextCursor = some receipts
  lease : db'.lease = db.lease
  undo : receipts = [] ∧ db'.undo = db.undo ∨
    receipts ≠ [] ∧ (∀ u ∈ db.undo, ¬(u.generation = s.generation ∧ u.cursor = p.nextCursor)) ∧
    ∃ u, db'.undo = db.undo ++ [u] ∧ u.generation = s.generation ∧ u.cursor = p.nextCursor ∧
      u.state = s ∧ u.rows = capture db.rows (p.changes.map (changeKey s.generation)) ∧
      u.actors = capture db.actors (p.actors.map (actorKey s.generation)) ∧
      u.access = capture db.access (p.accessChanges.map (accessKey s.generation))

theorem commit_ran {globals : Globals} {p : Page} {bounded : Bool}
    {receipts : List LargeRecordReceipt} :
    Ran (commit globals lease p fence bounded receipts now db) db fun db' =>
      Live db lease now ∧
      ∃ s, HasState db s ∧ s.generation = fence.generation ∧ s.cursor = fence.cursor ∧
        Committed globals p receipts s db db' := by
  unfold commit
  refine transaction_ran fun db' h => ?_
  obtain ⟨s, hs, h⟩ := bind_ok.mp h
  obtain ⟨⟨⟩, hcheck, h⟩ := bind_ok.mp h
  obtain ⟨saved, hsaved, h⟩ := bind_ok.mp h
  obtain ⟨s', hs', h⟩ := bind_ok.mp h
  obtain ⟨rows, hrows, h⟩ := bind_ok.mp h
  obtain ⟨db₁, hintent, h⟩ := bind_ok.mp h
  cases h
  obtain ⟨hl, hst, -, hg, hc⟩ := assertFence_ok hs
  obtain ⟨hpending, hclient, hnext⟩ := checkPage_ok hcheck
  obtain ⟨hunique, hreceipts, i, receipts', rfl, hi⟩ := insertIntent_ok hintent
  obtain ⟨target, through, certified, rfl⟩ := handoverState_ok hs'
  -- the undo record does not touch the other tables
  have hundo : saved = { db with undo := saved.undo } ∧ (receipts = [] ∧ saved.undo = db.undo ∨
      receipts ≠ [] ∧ (∀ u ∈ db.undo, ¬(u.generation = s.generation ∧ u.cursor = p.nextCursor)) ∧
      ∃ u, saved.undo = db.undo ++ [u] ∧ u.generation = s.generation ∧ u.cursor = p.nextCursor ∧
        u.state = s ∧ u.rows = capture db.rows (p.changes.map (changeKey s.generation)) ∧
        u.actors = capture db.actors (p.actors.map (actorKey s.generation)) ∧
        u.access = capture db.access (p.accessChanges.map (accessKey s.generation))) := by
    split at hsaved
    · rename_i hr
      cases hsaved
      exact ⟨rfl, Or.inl ⟨hr, rfl⟩⟩
    · rename_i hr
      obtain ⟨hu, u, rfl, hu'⟩ := saveLargeRecordUndo_ok hsaved
      exact ⟨rfl, Or.inr ⟨hr, hu, u, rfl, hu'⟩⟩
  obtain ⟨hsame, hundo⟩ := hundo
  rw [hsame] at hunique ⊢
  exact ⟨hl, s, hst, hg, hc,
    { clientId := hclient, next := hnext, resolved := hpending, unique := hunique, rows := hrows
      actors := rfl, access := rfl, state := ⟨_, hst.save _, rfl, rfl, rfl⟩
      intents := ⟨i, rfl, hi⟩, receiptsOf := hreceipts, lease := rfl, undo := hundo }⟩

theorem unavailable_ran :
    Ran (unavailable lease now db) db fun db' =>
      Live db lease now ∧
      ∃ s, HasState db s ∧ db' = db.save { s with available := false, handoverDone := false } := by
  unfold unavailable
  refine transaction_ran fun db' h => ?_
  obtain ⟨s, hs, h⟩ := bind_ok.mp h
  cases h
  obtain ⟨hl, hst⟩ := assertWriter_ok hs
  exact ⟨hl, s, hst, rfl⟩

theorem repair_ran {clientId generation : String} :
    Ran (repair lease clientId generation now db) db fun db' =>
      Live db lease now ∧ (∃ s, HasState db s) ∧
      db' = { db.save (fresh clientId generation) with
        ackIntents := db.ackIntents.map fun i =>
          if i.status = .pending then { i with status := .repair } else i } := by
  unfold repair
  refine transaction_ran fun db' h => ?_
  obtain ⟨s, hs, h⟩ := bind_ok.mp h
  cases h
  obtain ⟨hl, hst⟩ := assertWriter_ok hs
  exact ⟨hl, ⟨s, hst⟩, rfl⟩

theorem register_ran {r : Registration} :
    Ran (register lease r fence now db) db fun db' =>
      Live db lease now ∧
      ∃ s s', HasState db s ∧ db' = db.save s' ∧ s'.generation = s.generation ∧
        s'.clientId = s.clientId ∧ (s'.cursor = s.cursor ∨ (s.cursor = none ∨ s.cursor = some "") ∧
          r.checkpointCursor = none ∧ s'.cursor = some r.initialCursor) := by
  unfold register
  refine transaction_ran fun db' h => ?_
  obtain ⟨s, hs, h⟩ := bind_ok.mp h
  obtain ⟨_, -, h⟩ := bind_ok.mp h
  obtain ⟨_, -, h⟩ := bind_ok.mp h
  obtain ⟨_, hadopt, h⟩ := bind_ok.mp h
  cases h
  rw [throwIf_ok] at hadopt
  obtain ⟨hl, hst, -⟩ := assertFence_ok hs
  refine ⟨hl, s, _, hst, rfl, rfl, rfl, ?_⟩
  dsimp only
  split
  · rename_i habsent
    exact Or.inr ⟨habsent, not_not.mp fun hr => hadopt ⟨habsent, hr⟩, rfl⟩
  · exact Or.inl rfl

theorem ack_ran {r : Registration} {intent : AckIntent} :
    Ran (ack lease r intent now db) db fun db' =>
      Live db lease now ∧
      ∃ s, HasState db s ∧ s.generation = intent.generation ∧ s.cursor = some intent.cursor ∧
        r.checkpointCursor = some intent.cursor ∧
        db' = { db.save { s with revision := r.checkpointRevision } with
          ackIntents := db.ackIntents.filter fun i =>
            ¬(i.generation = s.generation ∧ i.cursor = intent.cursor)
          undo := db.undo.filter fun u =>
            ¬(u.generation = s.generation ∧ u.cursor = intent.cursor) } := by
  unfold ack
  refine transaction_ran fun db' h => ?_
  obtain ⟨s, hs, h⟩ := bind_ok.mp h
  obtain ⟨_, hmatch, h⟩ := bind_ok.mp h
  cases h
  rw [throwIf_ok] at hmatch
  push Not at hmatch
  obtain ⟨hl, hst, -, hg, hc⟩ := assertFence_ok hs
  exact ⟨hl, s, hst, hg, hc, hmatch.2.1, rfl⟩

theorem replayConflict_ran {r : Registration} {intent : AckIntent} :
    Ran (replayConflict lease r intent now db) db fun db' =>
      Live db lease now ∧
      ∃ s, HasState db s ∧
        db' = { db.save { s with revision := r.checkpointRevision, handoverDone := false } with
          ackIntents := db.ackIntents.map fun i =>
            if i.generation = s.generation then { i with status := .conflict } else i } := by
  unfold replayConflict
  refine transaction_ran fun db' h => ?_
  obtain ⟨s, hs, h⟩ := bind_ok.mp h
  obtain ⟨_, -, h⟩ := bind_ok.mp h
  cases h
  obtain ⟨hl, hst, -⟩ := assertFence_ok hs
  exact ⟨hl, s, hst, rfl⟩

theorem pending_some {intent : AckIntent} (h : db.pending s = some intent) :
    ∃ i ∈ db.ackIntents, i.generation = s.generation ∧ i.status = .pending ∧
      i.cursor = intent.cursor := by
  unfold Db.pending at h
  obtain ⟨i, hi, rfl⟩ := Option.map_eq_some_iff.mp h
  have hp := List.find?_some hi
  rw [decide_eq_true_iff] at hp
  exact ⟨i, List.mem_of_find?_eq_some hi, hp.1, hp.2, rfl⟩

/-- the page of an intent taken back. -/
structure TakenBack (s : CacheState) (cursor : String) (u : UndoRow) (db db' : Db) : Prop where
  large : ∃ intent, db.pending s = some intent ∧ intent.cursor = cursor ∧
    intent.largeRecordReceipts.getD [] ≠ []
  backup : u ∈ db.undo ∧ u.generation = s.generation ∧ u.cursor = cursor
  fence : s.cursor = some cursor ∧ u.state.generation = s.generation
  rows : db'.rows = restore db.rows u.rows
  actors : db'.actors = restore db.actors u.actors
  access : db'.access = restore db.access u.access
  state : HasState db' { u.state with available := false, handoverDone := false }
  intents : db'.ackIntents = db.ackIntents.filter fun i =>
    ¬(i.generation = s.generation ∧ i.cursor = cursor)
  receipts : db'.receipts = db.receipts.filter fun r =>
    ¬(r.generation = s.generation ∧ r.cursor = cursor)
  undo : db'.undo = db.undo.filter fun u => ¬(u.generation = s.generation ∧ u.cursor = cursor)
  rejected : db'.rejected = db.rejected ++ (u.replaced db).map fun payload =>
    { generation := s.generation, cursor, payload }
  lease : db'.lease = db.lease

theorem rollbackLargeRecord_ran :
    Ran (rollbackLargeRecord lease now db) db fun db' =>
      Live db lease now ∧ (db' = db ∨
      ∃ s i u, HasState db s ∧ i ∈ db.ackIntents ∧ i.generation = s.generation ∧
        i.status = .pending ∧ TakenBack s i.cursor u db db') := by
  unfold rollbackLargeRecord
  refine transaction_ran fun db' h => ?_
  obtain ⟨s, hs, h⟩ := bind_ok.mp h
  obtain ⟨hl, hst⟩ := assertWriter_ok hs
  refine ⟨hl, ?_⟩
  dsimp only at h ⊢
  split at h
  · cases h
    exact Or.inl rfl
  rename_i intent hintent
  obtain ⟨i, hi, hg, hp, hc⟩ := pending_some hintent
  split at h
  · cases h
    exact Or.inl rfl
  rename_i hlarge
  obtain ⟨u, hu, h⟩ := bind_ok.mp h
  obtain ⟨_, hfence, h⟩ := bind_ok.mp h
  cases h
  rw [orThrow_ok] at hu
  rw [throwIf_ok] at hfence
  push Not at hfence
  have hkey := List.find?_some hu
  rw [decide_eq_true_iff] at hkey
  refine Or.inr ⟨s, i, u, hst, hi, hg, hp, ?_⟩
  rw [hc]
  exact
    { large := ⟨intent, hintent, rfl, hlarge⟩
      backup := ⟨List.mem_of_find?_eq_some hu, hkey⟩, fence := ⟨hfence.1, hfence.2.1⟩
      rows := rfl, actors := rfl, access := rfl, state := hst.save _
      intents := rfl, receipts := rfl, undo := rfl, rejected := rfl, lease := rfl }

/-- the tables of a transfer do not matter. -/
structure SameBut (db db' : Db) : Prop extends Quiet db db' where
  metaRow : db'.metaRow = db.metaRow
  lease : db'.lease = db.lease
  intents : db'.ackIntents = db.ackIntents
  receipts : db'.receipts = db.receipts
  undo : db'.undo = db.undo

theorem SameBut.refl (db : Db) : SameBut db db := ⟨⟨rfl, rfl, rfl⟩, rfl, rfl, rfl, rfl, rfl⟩

theorem stagePage_ran {page : Value} :
    Ran (stagePage lease fence page now db) db fun db' =>
      Live db lease now ∧ SameBut db db' := by
  unfold stagePage
  refine transaction_ran fun db' h => ?_
  obtain ⟨s, hs, h⟩ := bind_ok.mp h
  obtain ⟨_, -, h⟩ := bind_ok.mp h
  refine ⟨(assertWriter_ok hs).1, ?_⟩
  dsimp only at h ⊢
  split at h
  · obtain ⟨_, -, h⟩ := bind_ok.mp h
    obtain ⟨_, -, h⟩ := bind_ok.mp h
    cases h
    exact SameBut.refl db
  · cases h
    exact ⟨⟨rfl, rfl, rfl⟩, rfl, rfl, rfl, rfl, rfl⟩
  · cases h
    exact SameBut.refl db

theorem stageChunk_ran {manifest : String} {idx : ℕ} {bytes : List UInt8} :
    Ran (stageChunk lease fence manifest idx bytes now db) db fun db' =>
      Live db lease now ∧ SameBut db db' := by
  unfold stageChunk
  refine transaction_ran fun db' h => ?_
  obtain ⟨s, hs, h⟩ := bind_ok.mp h
  obtain ⟨_, -, h⟩ := bind_ok.mp h
  cases h
  exact ⟨(assertWriter_ok hs).1, ⟨rfl, rfl, rfl⟩, rfl, rfl, rfl, rfl, rfl⟩

theorem discardStage_ran :
    Ran (discardStage lease now db) db fun db' =>
      Live db lease now ∧ SameBut db db' := by
  unfold discardStage
  refine transaction_ran fun db' h => ?_
  obtain ⟨s, hs, h⟩ := bind_ok.mp h
  cases h
  exact ⟨(assertWriter_ok hs).1, ⟨rfl, rfl, rfl⟩, rfl, rfl, rfl, rfl, rfl⟩

theorem openCache_ran {partition : List String} {leaseMs : ℕ} {clientId generation : String} :
    Ran (openCache lease partition leaseMs clientId generation now db) db fun db' =>
      (∀ l ∈ db.lease, l.expires ≤ now) ∧
      db' = { db with
        lease := some { token := lease, expires := now + leaseMs }
        metaRow := some (db.metaRow.getD (partition, fresh clientId generation)) } := by
  unfold openCache
  refine transaction_ran fun db' h => ?_
  obtain ⟨_, hl, h⟩ := bind_ok.mp h
  obtain ⟨_, -, h⟩ := bind_ok.mp h
  cases h
  rw [throwIf_ok] at hl
  push Not at hl
  exact ⟨hl, rfl⟩

theorem close_lease : (close lease db).lease = none ∨ (close lease db).lease = db.lease := by
  unfold close
  cases e : db.lease with
  | none => exact Or.inl rfl
  | some l =>
    by_cases h : l.token = lease
    · exact Or.inl (by simp [Option.filter, h])
    · exact Or.inr (by simp [Option.filter, h])

end Ok

/-! ## runs -/

/-- A call of a method by the writer with the given lease, with the UUIDs that it draws. -/
inductive Call where
  | openCache (lease : String) (partition : List String) (leaseMs : ℕ) (clientId generation : String)
  | unavailable (lease : String)
  | repair (lease clientId generation : String)
  | register (lease : String) (r : Registration) (fence : Fence)
  | commit (lease : String) (p : Page) (fence : Fence) (bounded : Bool)
      (receipts : List LargeRecordReceipt)
  | ack (lease : String) (r : Registration) (intent : AckIntent)
  | replayConflict (lease : String) (r : Registration) (intent : AckIntent)
  | rollbackLargeRecord (lease : String)
  | stagePage (lease : String) (fence : Fence) (page : Value)
  | stageChunk (lease : String) (fence : Fence) (manifest : String) (idx : ℕ) (bytes : List UInt8)
  | discardStage (lease : String)
  | close (lease : String)

/-- the writer that calls. -/
def Call.lease : Call → String
  | openCache lease .. | unavailable lease | repair lease .. | register lease .. | commit lease ..
  | ack lease .. | replayConflict lease .. | rollbackLargeRecord lease | stagePage lease ..
  | stageChunk lease .. | discardStage lease | close lease => lease

def Call.run (globals : Globals) (now : ℕ) (db : Db) : Call → Except String Unit × Db
  | openCache lease partition leaseMs clientId generation =>
    Heartbeat.openCache lease partition leaseMs clientId generation now db
  | unavailable lease => Heartbeat.unavailable lease now db
  | repair lease clientId generation => Heartbeat.repair lease clientId generation now db
  | register lease r fence => Heartbeat.register lease r fence now db
  | commit lease p fence bounded receipts =>
    Heartbeat.commit globals lease p fence bounded receipts now db
  | ack lease r intent => Heartbeat.ack lease r intent now db
  | replayConflict lease r intent => Heartbeat.replayConflict lease r intent now db
  | rollbackLargeRecord lease => Heartbeat.rollbackLargeRecord lease now db
  | stagePage lease fence page => Heartbeat.stagePage lease fence page now db
  | stageChunk lease fence manifest idx bytes =>
    Heartbeat.stageChunk lease fence manifest idx bytes now db
  | discardStage lease => Heartbeat.discardStage lease now db
  | close lease => (.ok (), Heartbeat.close lease db)

/-- the calls that write the tables of pages. -/
def Call.WritesPages : Call → Prop
  | commit .. | rollbackLargeRecord .. => True
  | _ => False

theorem Ran.elim {x : Except String Unit × Db} {db : Db} {P : Db → Prop} {Q : Db → Prop}
    (h : Ran x db P) (hdb : Q db) (hP : ∀ db', P db' → Q db') : Q x.2 := by
  rcases h with ⟨e, he⟩ | ⟨-, h⟩
  · rw [he]
    exact hdb
  · exact hP _ h

theorem Call.quiet {globals : Globals} {now : ℕ} {db : Db} {c : Call} (hc : ¬c.WritesPages) :
    Quiet db (c.run globals now db).2 := by
  have hr := Quiet.refl db
  cases c with
  | openCache => exact openCache_ran.elim hr fun _ ⟨_, h⟩ => h ▸ ⟨rfl, rfl, rfl⟩
  | unavailable => exact unavailable_ran.elim hr fun _ ⟨_, _, _, h⟩ => h ▸ ⟨rfl, rfl, rfl⟩
  | repair => exact repair_ran.elim hr fun _ ⟨_, _, h⟩ => h ▸ ⟨rfl, rfl, rfl⟩
  | register => exact register_ran.elim hr fun _ ⟨_, _, _, _, h, _⟩ => h ▸ ⟨rfl, rfl, rfl⟩
  | commit => exact absurd trivial hc
  | ack => exact ack_ran.elim hr fun _ ⟨_, _, _, _, _, _, h⟩ => h ▸ ⟨rfl, rfl, rfl⟩
  | replayConflict => exact replayConflict_ran.elim hr fun _ ⟨_, _, _, h⟩ => h ▸ ⟨rfl, rfl, rfl⟩
  | rollbackLargeRecord => exact absurd trivial hc
  | stagePage => exact stagePage_ran.elim hr fun _ ⟨_, h⟩ => h.toQuiet
  | stageChunk => exact stageChunk_ran.elim hr fun _ ⟨_, h⟩ => h.toQuiet
  | discardStage => exact discardStage_ran.elim hr fun _ ⟨_, h⟩ => h.toQuiet
  | close => exact ⟨rfl, rfl, rfl⟩

/-- A call under a lease that is not live throws; an opened file gets the new lease, and a closed one
loses its own. -/
theorem Call.dead {globals : Globals} {now : ℕ} {db : Db} {c : Call} (hl : ¬Live db c.lease now) :
    (∃ e, c.run globals now db = (.error e, db)) ∨
      (∃ lease partition leaseMs clientId generation,
        c = .openCache lease partition leaseMs clientId generation) ∨ ∃ lease, c = .close lease := by
  have threw {x : Except String Unit × Db} {P : Db → Prop} (h : Ran x db P)
      (hP : ∀ db', P db' → Live db c.lease now) : ∃ e, x = (.error e, db) := by
    rcases h with h | ⟨-, h⟩
    · exact h
    · exact absurd (hP _ h) hl
  cases c with
  | openCache => exact Or.inr (Or.inl ⟨_, _, _, _, _, rfl⟩)
  | close => exact Or.inr (Or.inr ⟨_, rfl⟩)
  | unavailable => exact Or.inl (threw unavailable_ran fun _ h => h.1)
  | repair => exact Or.inl (threw repair_ran fun _ h => h.1)
  | register => exact Or.inl (threw register_ran fun _ h => h.1)
  | commit => exact Or.inl (threw commit_ran fun _ h => h.1)
  | ack => exact Or.inl (threw ack_ran fun _ h => h.1)
  | replayConflict => exact Or.inl (threw replayConflict_ran fun _ h => h.1)
  | rollbackLargeRecord => exact Or.inl (threw rollbackLargeRecord_ran fun _ h => h.1)
  | stagePage => exact Or.inl (threw stagePage_ran fun _ h => h.1)
  | stageChunk => exact Or.inl (threw stageChunk_ran fun _ h => h.1)
  | discardStage => exact Or.inl (threw discardStage_ran fun _ h => h.1)

/-- what a call does to the lease of the file. -/
theorem Call.lease_cases {globals : Globals} {now : ℕ} {db : Db} (c : Call) :
    (c.run globals now db).2.lease = db.lease ∨ (c.run globals now db).2.lease = none ∨
      ∃ lease partition leaseMs clientId generation,
        c = .openCache lease partition leaseMs clientId generation ∧
        (c.run globals now db).2.lease = some { token := lease, expires := now + leaseMs } := by
  have same {x : Except String Unit × Db} {P : Db → Prop} (hx : Ran x db P)
      (hP : ∀ db', P db' → db'.lease = db.lease) : x.2.lease = db.lease := by
    rcases hx with ⟨e, he⟩ | ⟨-, h⟩
    · rw [he]
    · exact hP _ h
  cases c with
  | openCache lease partition leaseMs clientId generation =>
    have hx : Ran ((Call.openCache lease partition leaseMs clientId generation).run globals now db)
      db _ := openCache_ran
    rcases hx with ⟨e, he⟩ | ⟨-, -, h⟩
    · exact Or.inl (congrArg (·.2.lease) he)
    · exact Or.inr (Or.inr ⟨_, _, _, _, _, rfl, congrArg (·.lease) h⟩)
  | unavailable => exact Or.inl (same unavailable_ran fun _ ⟨_, _, _, h⟩ => h ▸ rfl)
  | repair => exact Or.inl (same repair_ran fun _ ⟨_, _, h⟩ => h ▸ rfl)
  | register => exact Or.inl (same register_ran fun _ ⟨_, _, _, _, h, _⟩ => h ▸ rfl)
  | commit => exact Or.inl (same commit_ran fun _ ⟨_, _, _, _, _, h⟩ => h.lease)
  | ack => exact Or.inl (same ack_ran fun _ ⟨_, _, _, _, _, _, h⟩ => h ▸ rfl)
  | replayConflict => exact Or.inl (same replayConflict_ran fun _ ⟨_, _, _, h⟩ => h ▸ rfl)
  | rollbackLargeRecord =>
    refine Or.inl (same rollbackLargeRecord_ran fun db' ⟨_, h⟩ => ?_)
    rcases h with h | ⟨_, _, _, _, _, _, _, h⟩
    · rw [h]
    · exact h.lease
  | stagePage => exact Or.inl (same stagePage_ran fun _ ⟨_, h⟩ => h.lease)
  | stageChunk => exact Or.inl (same stageChunk_ran fun _ ⟨_, h⟩ => h.lease)
  | discardStage => exact Or.inl (same discardStage_ran fun _ ⟨_, h⟩ => h.lease)
  | close =>
    rcases close_lease with h | h
    · exact Or.inr (Or.inl h)
    · exact Or.inl h

/-- The file, the time, the leases that were drawn, the pages that were accepted (with their
generation), and the file before the last of them. -/
structure World where
  db : Db := {}
  clock : ℕ := 0
  leases : List String := []
  accepted : List (String × Page) := []
  before : Db := {}

/-- the page that a call commits, with its generation. -/
def Call.accepts (globals : Globals) (now : ℕ) (db : Db) (c : Call) : Option (String × Page) :=
  match c with
  | .commit lease p fence bounded receipts =>
    match (Heartbeat.commit globals lease p fence bounded receipts now db).1 with
    | .ok () => some (fence.generation, p)
    | .error _ => none
  | _ => none

def World.after (globals : Globals) (w : World) (c : Call) (now : ℕ) : World where
  db := (c.run globals now w.db).2
  clock := now
  leases := match c with
    | .openCache lease .. => w.leases ++ [lease]
    | _ => w.leases
  accepted := w.accepted ++ (c.accepts globals now w.db).toList
  before := if (c.accepts globals now w.db).isSome then w.db else w.before

/-- the UUID of a new lease was never drawn before. -/
def Call.Fresh (w : World) : Call → Prop
  | openCache lease .. => lease ∉ w.leases
  | _ => True

def Step (globals : Globals) (w w' : World) : Prop :=
  ∃ (c : Call) (now : ℕ), w.clock ≤ now ∧ c.Fresh w ∧ w.after globals c now = w'

abbrev Steps (globals : Globals) : World → World → Prop := Relation.ReflTransGen (Step globals)

/-- a platform without dates. -/
def plainGlobals : Globals where
  dateParse _ := none
  toISOString _ := ""
  toText v := v.getString.getD ""

end Heartbeat
end WmAutopilot
