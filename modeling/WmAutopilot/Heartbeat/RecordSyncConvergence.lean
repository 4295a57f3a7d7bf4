import Mathlib.Order.Nat
import WmAutopilot.Heartbeat.RecordSyncSteps
import WmAutopilot.Merge.Versioned

/-!
# Convergence of the record cache

* `scheme`, `mergeChange_eq_put`   the merge of a page is the merge of versioned elements;
* `Newest`, `Top`                  the change that a row holds, and the changes that it may hold;
* `Inv`, `Inv.after`               the rows are the winners of the accepted changes;
* `cache_converges`                the rows do not depend on the order of the accepted pages, when the
                                   newest changes of a record agree on scope and channel.
-/

set_option autoImplicit false
set_option linter.unusedVariables false

namespace WmAutopilot
namespace Heartbeat
namespace Convergence
open Js Merge

/-! ## the merge of a page -/

/-- how rows are compared. -/
def scheme : Scheme Row RowKey ℕ (Option Value) where
  key := Row.key
  version r := r.version
  dead r := r.operation = .delete
  content r := r.payload

instance : DecidablePred scheme.dead := fun r => inferInstanceAs (Decidable (r.operation = .delete))

def conflict : String := "Inconsistent canonical row at same version"

theorem mergeChange_eq_put (globals : Globals) (generation : String) (rows : RowKey → Option Row)
    (c : Change) :
    mergeChange globals generation rows c =
      Merge.put scheme conflict rows (rowOf globals generation c) := by
  have hkey : scheme.key (rowOf globals generation c) = (generation, c.family, c.id) := rfl
  unfold mergeChange Merge.put
  rw [hkey]
  dsimp only
  cases e : rows (generation, c.family, c.id) with
  | none => rfl
  | some old =>
    have hold : Function.update rows (generation, c.family, c.id) (some old) = rows := by
      rw [← e, Function.update_eq_self]
    have hv : scheme.version (rowOf globals generation c) = c.version := rfl
    have hv' : scheme.version old = old.version := rfl
    have hd : scheme.dead old ↔ old.operation = .delete := Iff.rfl
    have hd' : ¬scheme.dead (rowOf globals generation c) ↔ c.operation = .upsert := by
      show ¬c.operation = .delete ↔ _
      cases c.operation <;> decide
    have hc : scheme.content old ≠ scheme.content (rowOf globals generation c) ↔
        old.payload ≠ c.row := Iff.rfl
    unfold absorb
    simp only [hv, hv', hd, hd', hc]
    -- older, dead, in conflict, or replaced
    by_cases hlt : c.version < old.version
    · rw [if_pos hlt, if_pos hlt]
      exact congrArg Except.ok hold.symm
    rw [if_neg hlt, if_neg hlt]
    by_cases heq : c.version = old.version
    · rw [if_pos heq]
      by_cases hdel : old.operation = .delete
      · rw [if_pos hdel, if_pos ⟨heq, hdel⟩]
        exact congrArg Except.ok hold.symm
      have hn : ¬(c.version = old.version ∧ old.operation = .delete) := fun h => hdel h.2
      rw [if_neg hdel, if_neg hn]
      by_cases hconflict : c.operation = .upsert ∧ old.payload ≠ c.row
      · rw [if_pos hconflict, if_pos ⟨heq, hconflict⟩]
        rfl
      · have hn' : ¬(c.version = old.version ∧ c.operation = .upsert ∧ old.payload ≠ c.row) :=
          fun h => hconflict h.2
        rw [if_neg hconflict, if_neg hn']
        rfl
    · have hn : ¬(c.version = old.version ∧ old.operation = .delete) := fun h => heq h.1
      have hn' : ¬(c.version = old.version ∧ c.operation = .upsert ∧ old.payload ≠ c.row) :=
        fun h => heq h.1
      rw [if_neg heq, if_neg hn, if_neg hn']
      rfl

theorem foldlM_mergeChange (globals : Globals) (generation : String) (rows : RowKey → Option Row)
    (changes : List Change) :
    changes.foldlM (mergeChange globals generation) rows =
      (changes.map (rowOf globals generation)).foldlM (Merge.put scheme conflict) rows := by
  rw [List.foldlM_map]
  congr 1
  funext rows c
  exact mergeChange_eq_put globals generation rows c

/-! ## what the rows hold -/

/-- the rows of the changes of the accepted pages. -/
def rowsOf (globals : Globals) (accepted : List (String × Page)) : List Row :=
  accepted.flatMap fun a => a.2.changes.map (rowOf globals a.1)

/-- the pages accepted within a generation. -/
def pagesOf (w : World) (generation : String) : List Page :=
  (w.accepted.filter (·.1 = generation)).map (·.2)

def changesOf (w : World) (generation : String) : List Change :=
  (pagesOf w generation).flatMap (·.changes)

/-- two changes of one record. -/
def SameRecord (c c' : Change) : Prop := c.family = c'.family ∧ c.id = c'.id

/-- a change that a row may hold: none of its record is newer, and if one of its version is a
deletion it is one itself. -/
structure Top (changes : List Change) (c : Change) : Prop where
  mem : c ∈ changes
  newest : ∀ c' ∈ changes, SameRecord c' c → c'.version < c.version ∨ c'.version = c.version ∧
    (c.operation = .delete ∨ c'.operation = .upsert)

/-- the row of a record is that of a top change of the record. -/
def Newest (globals : Globals) (generation : String) (changes : List Change) (family id : String)
    (row : Option Row) : Prop :=
  match row with
  | none => ∀ c ∈ changes, ¬(c.family = family ∧ c.id = id)
  | some r => ∃ c, Top changes c ∧ c.family = family ∧ c.id = id ∧ r = rowOf globals generation c

/-- the top changes of a record agree on the columns that are not compared. -/
def Consistent (changes : List Change) : Prop :=
  ∀ c c', Top changes c → Top changes c' → SameRecord c c' →
    c.scopeId = c'.scopeId ∧ c.channelId = c'.channelId

theorem mem_rowsOf {globals : Globals} {w : World} {r : Row} :
    r ∈ rowsOf globals w.accepted ↔
      ∃ c ∈ changesOf w r.generation, r = rowOf globals r.generation c := by
  unfold rowsOf changesOf pagesOf
  constructor
  · intro hr
    obtain ⟨a, ha, hr⟩ := List.mem_flatMap.mp hr
    obtain ⟨c, hc, rfl⟩ := List.mem_map.mp hr
    refine ⟨c, List.mem_flatMap.mpr ⟨a.2, List.mem_map.mpr ⟨a, ?_, rfl⟩, hc⟩, rfl⟩
    exact List.mem_filter.mpr ⟨ha, decide_eq_true rfl⟩
  · rintro ⟨c, hc, hr⟩
    obtain ⟨p, hp, hc⟩ := List.mem_flatMap.mp hc
    obtain ⟨a, ha, rfl⟩ := List.mem_map.mp hp
    obtain ⟨ha, hg⟩ := List.mem_filter.mp ha
    refine List.mem_flatMap.mpr ⟨a, ha, List.mem_map.mpr ⟨c, hc, ?_⟩⟩
    rw [of_decide_eq_true hg]
    exact hr.symm

/-- the elements of the merge that have the key of a record. -/
def recordRows (globals : Globals) (w : World) (k : RowKey) : List Row :=
  (rowsOf globals w.accepted).filter fun r => scheme.key r = k

theorem mem_recordRows {globals : Globals} {w : World} {r : Row} {g family id : String} :
    r ∈ recordRows globals w (g, family, id) ↔
      ∃ c ∈ changesOf w g, c.family = family ∧ c.id = id ∧ r = rowOf globals g c := by
  unfold recordRows
  rw [List.mem_filter, mem_rowsOf, decide_eq_true_iff]
  constructor
  · rintro ⟨⟨c, hc, hr⟩, hk⟩
    obtain ⟨hg, hk⟩ := Prod.mk.inj hk
    obtain ⟨hf, hid⟩ := Prod.mk.inj hk
    rw [hg] at hc hr
    rw [hr] at hf hid
    exact ⟨c, hc, hf, hid, hr⟩
  · rintro ⟨c, hc, rfl, rfl, rfl⟩
    exact ⟨⟨c, hc, rfl⟩, rfl⟩

/-- the winner of a record is a top change. -/
theorem top_of_wins {globals : Globals} {w : World} {r : Row} {g family id : String}
    (h : Wins scheme (recordRows globals w (g, family, id)) r) :
    ∃ c, Top (changesOf w g) c ∧ c.family = family ∧ c.id = id ∧ r = rowOf globals g c := by
  obtain ⟨c, hc, hf, hid, rfl⟩ := mem_recordRows.mp h.mem
  refine ⟨c, ⟨hc, fun c' hc' hsame => ?_⟩, hf, hid, rfl⟩
  have hm : rowOf globals g c' ∈ recordRows globals w (g, family, id) :=
    mem_recordRows.mpr ⟨c', hc', hsame.1.trans hf, hsame.2.trans hid, rfl⟩
  have hle : c'.version ≤ c.version := h.newest _ hm
  rcases lt_or_eq_of_le hle with hlt | heq
  · exact Or.inl hlt
  · refine Or.inr ⟨heq, ?_⟩
    cases hop : c'.operation with
    | upsert => exact Or.inr rfl
    | delete => exact Or.inl (h.dead _ hm heq hop)

/-- two winners of a record are one row, when the top changes agree on scope and channel. -/
theorem wins_eq {globals : Globals} {w : World} {r r' : Row} {k : RowKey}
    (hc : Consistent (changesOf w k.1)) (h : Wins scheme (recordRows globals w k) r)
    (h' : Wins scheme (recordRows globals w k) r') : r = r' := by
  obtain ⟨hv, hd, hp⟩ := h.agree h'
  obtain ⟨c, htop, hf, hid, rfl⟩ := top_of_wins h
  obtain ⟨c', htop', hf', hid', rfl⟩ := top_of_wins h'
  obtain ⟨hscope, hchannel⟩ := hc c c' htop htop' ⟨hf.trans hf'.symm, hid.trans hid'.symm⟩
  have hop : c.operation = c'.operation := by
    change (c.operation = .delete ↔ c'.operation = .delete) at hd
    cases e : c.operation <;> cases e' : c'.operation <;> simp [e, e'] at hd ⊢
  have hrow : c.row = c'.row := by
    by_cases hdel : c.operation = .delete
    · rw [c.canonical.mp hdel, c'.canonical.mp (hop ▸ hdel)]
    · exact hp hdel
  unfold rowOf
  rw [hf.trans hf'.symm, hid.trans hid'.symm, hscope, hchannel, hop, hrow]
  rw [show c.version = c'.version from hv]

/-! ## runs -/

/-- a step that does not take a page back. -/
def PageStep (globals : Globals) (w w' : World) : Prop :=
  ∃ (c : Call) (now : ℕ), w.clock ≤ now ∧ c.Fresh w ∧ (∀ lease, c ≠ .rollbackLargeRecord lease) ∧
    w.after globals c now = w'

abbrev PageSteps (globals : Globals) : World → World → Prop :=
  Relation.ReflTransGen (PageStep globals)

/-- the rows are the winners of the accepted changes. -/
def Inv (globals : Globals) (w : World) : Prop :=
  Holds scheme (rowsOf globals w.accepted) w.db.rows

section Runs
variable {globals : Globals} {w w' : World}

/-- a step keeps the rows, or it commits a page. -/
theorem PageStep.cases (h : PageStep globals w w') :
    w'.db.rows = w.db.rows ∧ w'.accepted = w.accepted ∨
    ∃ generation p, w'.accepted = w.accepted ++ [(generation, p)] ∧
      p.changes.foldlM (mergeChange globals generation) w.db.rows = .ok w'.db.rows := by
  obtain ⟨c, now, -, -, hc, rfl⟩ := h
  by_cases hw : c.WritesPages
  · cases c with
    | rollbackLargeRecord lease => exact absurd rfl (hc lease)
    | commit lease p fence bounded receipts =>
      have hx : Ran (commit globals lease p fence bounded receipts now w.db) w.db _ := commit_ran
      rcases hx with ⟨e, he⟩ | ⟨hok, -, s, -, hg, -, hcommitted⟩
      · refine Or.inl ⟨?_, ?_⟩
        · exact congrArg (fun x => x.2.rows) he
        · simp only [World.after, Call.accepts, he, Option.toList_none, List.append_nil]
      · refine Or.inr ⟨fence.generation, p, ?_, ?_⟩
        · simp only [World.after, Call.accepts, hok, Option.toList_some]
        · exact hg ▸ hcommitted.rows
    | _ => exact absurd hw id
  · refine Or.inl ⟨(Call.quiet hw).rows, ?_⟩
    cases c with
    | commit => exact absurd trivial hw
    | _ => exact List.append_nil _

/-- **The step lemma.** -/
theorem Inv.step (hi : Inv globals w) (h : PageStep globals w w') : Inv globals w' := by
  unfold Inv
  rcases h.cases with ⟨hrows, hacc⟩ | ⟨generation, p, hacc, hrows⟩
  · rw [hrows, hacc]
    exact hi
  · have hl : rowsOf globals w'.accepted =
        rowsOf globals w.accepted ++ p.changes.map (rowOf globals generation) := by
      rw [hacc]
      simp [rowsOf]
    rw [hl]
    rw [foldlM_mergeChange] at hrows
    exact foldlM_put hi hrows

theorem Inv.run (h : PageSteps globals {} w) : Inv globals w := by
  induction h with
  | refl => exact Holds.empty
  | tail _ hstep ih => exact ih.step hstep

/-- the version of a row never falls. -/
theorem PageSteps.mono {k : RowKey} {r : Row} (h : PageSteps globals w w')
    (hr : w.db.rows k = some r) : ∃ r', w'.db.rows k = some r' ∧ r.version ≤ r'.version := by
  induction h with
  | refl => exact ⟨r, hr, le_rfl⟩
  | tail _ hstep ih =>
    obtain ⟨r₁, hr₁, hle⟩ := ih
    rcases hstep.cases with ⟨hrows, -⟩ | ⟨generation, p, -, hrows⟩
    · exact ⟨r₁, hrows ▸ hr₁, hle⟩
    · rw [foldlM_mergeChange] at hrows
      obtain ⟨r', hr', hle'⟩ := foldlM_put_mono hrows hr₁
      exact ⟨r', hr', hle.trans hle'⟩

theorem Inv.newest (hi : Inv globals w) (g family id : String) :
    Newest globals g (changesOf w g) family id (w.db.rows (g, family, id)) := by
  have hk := hi (g, family, id)
  cases e : w.db.rows (g, family, id) with
  | none =>
    rw [e] at hk
    rintro c hc ⟨rfl, rfl⟩
    exact hk (rowOf globals g c) (mem_rowsOf.mpr ⟨c, hc, rfl⟩) rfl
  | some r => exact top_of_wins (hi.wins e)

theorem Inv.converge (hi : Inv globals w) (hi' : Inv globals w') {k : RowKey}
    (hp : (pagesOf w k.1).Perm (pagesOf w' k.1)) (hc : Consistent (changesOf w k.1)) :
    w.db.rows k = w'.db.rows k := by
  have hmem : ∀ r, scheme.key r = k →
      (r ∈ rowsOf globals w.accepted ↔ r ∈ rowsOf globals w'.accepted) := by
    rintro r rfl
    have hchanges : ∀ c, c ∈ changesOf w r.generation ↔ c ∈ changesOf w' r.generation :=
      fun c => (hp.flatMap_right _).mem_iff
    simp only [mem_rowsOf, hchanges]
  rcases hi.agree hi' hmem with ⟨e, e'⟩ | ⟨r, r', e, e', hr, hr'⟩
  · exact e.trans e'.symm
  · rw [e, e', wins_eq hc hr hr']

/-- **The rows of a generation converge**, when the newest changes of a record agree on scope and
channel: they are the newest changes, their versions never fall, and the order of the accepted pages
does not matter. -/
theorem cache_converges {g : String} (h : PageSteps globals {} w) (h' : PageSteps globals {} w')
    (hp : (pagesOf w g).Perm (pagesOf w' g)) (hc : Consistent (changesOf w g)) :
    (∀ family id, Newest globals g (changesOf w g) family id (w.db.rows (g, family, id))) ∧
      (∀ k r w₂, PageSteps globals w w₂ → w.db.rows k = some r →
        ∃ r', w₂.db.rows k = some r' ∧ r.version ≤ r'.version) ∧
      ∀ family id, w.db.rows (g, family, id) = w'.db.rows (g, family, id) := by
  have hi := Inv.run h
  have hi' := Inv.run h'
  refine ⟨hi.newest g, fun k r w₂ hrun hr => hrun.mono hr, fun family id => ?_⟩
  exact hi.converge hi' hp hc

end Runs

/-! ### two pages in both orders -/

/-- a snapshot page with one change of a task. -/
def taskPage (cursor scope : String) (version : ℕ) (nonempty : cursor ≠ "" := by decide) :
    Page where
  clientId := "client"
  checkpointRevision := 1
  families := ["task"]
  mode := .snapshot
  changes :=
    [{ family := "task", id := "t", version, operation := .upsert, scopeId := some scope
       channelId := none, row := some (.obj [("title", .str "t")]), canonical := by decide }]
  accessRevision := 1
  nextCursor := cursor
  nonempty
  snapshotId := some "snapshot"
  snapshotComplete := false
  hasMore := true

/-- an acknowledged page after another. -/
def pageCalls (cursor : String) (p p' : Page) : List Call :=
  let registration (cursor : Option String) : Registration :=
    { authorityEpoch := "epoch", initialCursor := "initial", checkpointCursor := cursor
      checkpointRevision := 1 }
  let fence (cursor : Option String) : Fence :=
    { cursor, clientId := "client", generation := "g" }
  [.openCache "lease" [] 1000 "client" "g", .register "lease" (registration none) (fence none),
    .commit "lease" p (fence (some "initial")) false [],
    .ack "lease" (registration (some cursor))
      { cursor, expectedRevision := 1, clientId := "client", generation := "g"
        largeRecordReceipts := none },
    .commit "lease" p' (fence (some cursor)) false []]

/-- the calls one after the other, at time 0. -/
def runCalls (cs : List Call) : World := cs.foldl (fun w c => w.after plainGlobals c 0) {}

theorem foldl_steps (cs : List Call) (w : World) (hclock : w.clock = 0)
    (hf : ∀ c ∈ cs, ∀ w, c.Fresh w ∧ ∀ lease, c ≠ .rollbackLargeRecord lease) :
    PageSteps plainGlobals w (cs.foldl (fun w c => w.after plainGlobals c 0) w) := by
  induction cs generalizing w with
  | nil => exact Relation.ReflTransGen.refl
  | cons c cs ih =>
    have hc := hf c List.mem_cons_self w
    exact Relation.ReflTransGen.head ⟨c, 0, le_of_eq hclock, hc.1, hc.2, rfl⟩
      (ih _ rfl fun c hc => hf c (List.mem_cons_of_mem _ hc))

theorem runCalls_steps (cursor : String) (p p' : Page) :
    PageSteps plainGlobals {} (runCalls (pageCalls cursor p p')) := by
  have hopen : PageStep plainGlobals {} (World.after plainGlobals {}
      (.openCache "lease" [] 1000 "client" "g") 0) :=
    ⟨.openCache "lease" [] 1000 "client" "g", 0, le_rfl, List.not_mem_nil,
      fun _ => Call.noConfusion, rfl⟩
  refine Relation.ReflTransGen.head hopen (foldl_steps _ _ rfl fun c hc w => ?_)
  simp only [List.mem_cons, List.not_mem_nil, or_false] at hc
  rcases hc with rfl | rfl | rfl | rfl
  all_goals exact ⟨trivial, fun _ => Call.noConfusion⟩

theorem cache_converges_twice : (runCalls (pageCalls "b" (taskPage "b" "s" 2)
    (taskPage "a" "s" 1))).db.rows ("g", "task", "t") =
    (runCalls (pageCalls "a" (taskPage "a" "s" 1) (taskPage "b" "s" 2))).db.rows
      ("g", "task", "t") := by
  have hp : (pagesOf (runCalls (pageCalls "b" (taskPage "b" "s" 2) (taskPage "a" "s" 1))) "g").Perm
      (pagesOf (runCalls (pageCalls "a" (taskPage "a" "s" 1) (taskPage "b" "s" 2))) "g") := by
    decide +kernel
  have hs : ∀ c ∈ changesOf (runCalls (pageCalls "b" (taskPage "b" "s" 2) (taskPage "a" "s" 1))) "g",
      c.scopeId = some "s" ∧ c.channelId = none := by decide +kernel
  have hc : Consistent
      (changesOf (runCalls (pageCalls "b" (taskPage "b" "s" 2) (taskPage "a" "s" 1))) "g") := by
    intro c c' h h' _
    obtain ⟨hs₁, hc₁⟩ := hs c h.mem
    obtain ⟨hs₂, hc₂⟩ := hs c' h'.mem
    exact ⟨hs₁.trans hs₂.symm, hc₁.trans hc₂.symm⟩
  exact (cache_converges (runCalls_steps _ _ _) (runCalls_steps _ _ _) hp hc).2.2 "task" "t"

/-- Two pages change one record to the same version and row in different scopes: the scope of the
last page stays. -/
theorem cache_converges_fails : ¬∀ (w w' : World) (g : String), PageSteps plainGlobals {} w →
    PageSteps plainGlobals {} w' → (pagesOf w g).Perm (pagesOf w' g) →
    ∀ family id, w.db.rows (g, family, id) = w'.db.rows (g, family, id) := by
  intro h
  have hrows := h _ _ "g" (runCalls_steps "a" (taskPage "a" "s" 1) (taskPage "b" "s'" 1))
    (runCalls_steps "b" (taskPage "b" "s'" 1) (taskPage "a" "s" 1)) (by decide +kernel) "task" "t"
  have hscope := congrArg (Option.map (·.scope)) hrows
  revert hscope
  decide +kernel

end Convergence
end Heartbeat
end WmAutopilot
