import Mathlib.Data.List.Dedup
import Mathlib.Data.List.Sort
import WmAutopilot.Storage.PromptQueueRows

/-!
# The queue of one session

* `Line`, `Queue`     the active rows of a session in the order of the table: their orders ascend,
                      and in a `Queue` they are `1, 2, …`;
* `Edits k f`         a statement that keeps the rows of `k` and changes them by `f`;
* `reorderQueue_spec` **a line that is numbered again is a queue**, and no other session changes;
* `Settled`           every session keeps a queue of rows that it had: what each method other than
                      `addPrompt`, `claimNextPrompt` and `rebindSession` does.
-/

set_option autoImplicit false
set_option linter.unusedVariables false

namespace WmAutopilot
namespace PromptQueue
namespace Fifo
open Js Sql PromptQueueStore

/-! ## lines -/

/-- the active rows of the session, in the order of the table. -/
def activeRows (db : PromptQueueStore) (sessionId : String) : List QueuedPrompt :=
  db.prompts.filter fun r => r.sessionId = sessionId ∧ r.state.Active

/-- the rows stand in their order, at most 21, and only the first may be claimed. -/
structure Line (q : List QueuedPrompt) : Prop where
  ascending : (q.map (·.order)).Pairwise (· < ·)
  bounded : q.length ≤ 21
  claimed : ∀ r ∈ q.tail, r.state = .pending

/-- a line numbered from 1. -/
structure Queue (q : List QueuedPrompt) : Prop extends Line q where
  numbered : q.map (·.order) = List.range' 1 q.length

section Lines
variable {q : List QueuedPrompt} {r r' : QueuedPrompt} {db : PromptQueueStore} {sessionId : String}

theorem mem_activeRows :
    r ∈ activeRows db sessionId ↔ r ∈ db.prompts ∧ r.sessionId = sessionId ∧ r.state.Active := by
  simp [activeRows, List.mem_filter]

theorem Line.sublist {q' : List QueuedPrompt} (h : Line q) (hs : q'.Sublist q) : Line q' where
  ascending := h.ascending.sublist (hs.map _)
  bounded := hs.length_le.trans h.bounded
  claimed r hr := h.claimed r (hs.tail.subset hr)

theorem map_order {f : QueuedPrompt → QueuedPrompt} (ho : ∀ r ∈ q, (f r).order = r.order) :
    (q.map f).map (·.order) = q.map (·.order) := by
  rw [List.map_map]
  exact List.map_congr_left ho

/-- rows changed one by one. -/
theorem Line.map {f : QueuedPrompt → QueuedPrompt} (h : Line q)
    (ho : ∀ r ∈ q, (f r).order = r.order)
    (hs : ∀ r ∈ q.tail, r.state = .pending → (f r).state = .pending) : Line (q.map f) where
  ascending := by
    rw [map_order ho]
    exact h.ascending
  bounded := by
    rw [List.length_map]
    exact h.bounded
  claimed r' hr' := by
    rw [← List.map_tail] at hr'
    obtain ⟨r, hr, rfl⟩ := List.mem_map.mp hr'
    exact hs r hr (h.claimed r hr)

theorem Queue.map {f : QueuedPrompt → QueuedPrompt} (h : Queue q)
    (ho : ∀ r ∈ q, (f r).order = r.order)
    (hs : ∀ r ∈ q.tail, r.state = .pending → (f r).state = .pending) : Queue (q.map f) where
  toLine := h.toLine.map ho hs
  numbered := by
    rw [map_order ho, List.length_map]
    exact h.numbered

theorem Queue.nil : Queue [] where
  ascending := List.Pairwise.nil
  bounded := Nat.zero_le _
  claimed r hr := absurd hr List.not_mem_nil
  numbered := rfl

/-- a claimed row is the first. -/
theorem Line.head_of_claimed {l : List QueuedPrompt} (h : Line (r :: l)) (hr' : r' ∈ r :: l)
    (hc : r'.state = .claimed) : r' = r := by
  rcases List.mem_cons.mp hr' with rfl | hm
  · rfl
  · rw [h.claimed r' hm] at hc
    cases hc

theorem Line.head_le {l : List QueuedPrompt} (h : Line (r :: l)) (hr' : r' ∈ r :: l) :
    r.order ≤ r'.order := by
  rcases List.mem_cons.mp hr' with rfl | hm
  · exact le_rfl
  · exact le_of_lt (List.rel_of_pairwise_cons h.ascending (List.mem_map_of_mem hm))

/-- the next row of a queue is numbered after it. -/
theorem Queue.append (h : Queue q) (hl : q.length < 21) (ho : r.order = q.length + 1)
    (hs : r.state = .pending) : Queue (q ++ [r]) where
  ascending := by
    rw [List.map_append, h.numbered, List.pairwise_append]
    refine ⟨List.pairwise_lt_range', List.pairwise_singleton _ _, fun a ha b hb => ?_⟩
    obtain rfl : b = r.order := by simpa using hb
    rw [List.mem_range'_1] at ha
    omega
  bounded := by
    rw [List.length_append]
    exact hl
  claimed x hx := by
    cases q with
    | nil => exact absurd hx List.not_mem_nil
    | cons y q =>
      rcases List.mem_append.mp hx with hm | hm
      · exact h.claimed x hm
      · rw [List.mem_singleton.mp hm]
        exact hs
  numbered := by
    rw [List.map_append, h.numbered, List.length_append, List.length_singleton,
      List.range'_concat, List.map_singleton, ho]
    congr 2
    omega

/-- what stays of a queue without its pending rows is the claimed row, which is the first. -/
theorem Queue.claimed_only {k : QueuedPrompt → Bool} (h : Queue q)
    (hk : ∀ r ∈ q, k r = true → r.state ≠ .pending) : Queue (q.filter k) := by
  cases q with
  | nil => exact Queue.nil
  | cons r l =>
    have hl : l.filter k = [] := by
      refine List.filter_eq_nil_iff.mpr fun x hx hkx => ?_
      exact hk x (List.mem_cons_of_mem _ hx) hkx (h.claimed x hx)
    rw [List.filter_cons, hl]
    split
    · have ho : r.order = 1 := (List.cons.inj h.numbered).1
      refine ⟨⟨List.pairwise_singleton _ _, ?_, fun x hx => absurd hx List.not_mem_nil⟩, ?_⟩
      · rw [List.length_singleton]
        decide
      · rw [List.map_singleton, ho]
        rfl
    · exact Queue.nil

end Lines

/-! ## statements that edit rows -/

/-- a change of a row that keeps its place in the queue, or takes it out. -/
structure Mild (f : QueuedPrompt → QueuedPrompt) (r : QueuedPrompt) : Prop where
  id : (f r).id = r.id
  sessionId : (f r).sessionId = r.sessionId
  order : (f r).order = r.order
  active : (f r).state.Active → r.state.Active
  pending : r.state = .pending → (f r).state.Active → (f r).state = .pending

/-- the rows of `k` stay and are changed by `f`. -/
structure Edits (k : QueuedPrompt → Bool) (f : QueuedPrompt → QueuedPrompt)
    (db db' : PromptQueueStore) : Prop where
  mild : ∀ r ∈ db.prompts, Mild f r
  prompts : db'.prompts = (db.prompts.filter k).map f

theorem not_active {s : PromptState} (h : s.Terminal) : ¬s.Active := by
  rcases h with rfl | rfl | rfl <;> decide

section Edits
variable {k : QueuedPrompt → Bool} {f : QueuedPrompt → QueuedPrompt} {db db' : PromptQueueStore}
  {sessionId : String}

theorem Mild.self (r : QueuedPrompt) : Mild (fun r => r) r := ⟨rfl, rfl, rfl, fun h => h, fun h _ => h⟩

/-- rows that end. -/
theorem Mild.ends {r : QueuedPrompt} (hid : (f r).id = r.id) (hs : (f r).sessionId = r.sessionId)
    (ho : (f r).order = r.order) (ht : (f r).state.Terminal) : Mild f r :=
  ⟨hid, hs, ho, fun ha => absurd ha (not_active ht), fun _ ha => absurd ha (not_active ht)⟩

theorem Edits.of_update {p : QueuedPrompt → Prop} [DecidablePred p]
    (h : ∀ r ∈ db.prompts, p r → Mild f r) :
    Edits (fun _ => true) (fun r => if p r then f r else r) db (db.updatePrompts p f) where
  mild r hr := by
    by_cases hp : p r
    · have hm := h r hr hp
      constructor <;> simp only [if_pos hp]
      exacts [hm.id, hm.sessionId, hm.order, hm.active, hm.pending]
    · have hm := Mild.self r
      constructor <;> simp only [if_neg hp]
      exacts [hm.active, hm.pending]
  prompts := by
    rw [List.filter_true]
    rfl

theorem Edits.of_delete {p : QueuedPrompt → Prop} [DecidablePred p] :
    Edits (fun r => ¬p r) (fun r => r) db (db.deletePrompts p) where
  mild r _ := Mild.self r
  prompts := (List.map_id' _).symm

theorem Edits.activeRows_eq (h : Edits k f db db') : activeRows db' sessionId =
    ((activeRows db sessionId).filter fun r => k r && decide (f r).state.Active).map f := by
  unfold activeRows
  rw [h.prompts, List.filter_map, List.filter_filter, List.filter_filter]
  congr 1
  refine List.filter_congr fun r hr => ?_
  have hm := h.mild r hr
  simp only [Function.comp_apply, hm.sessionId]
  by_cases ha : (f r).state.Active
  · simp [ha, hm.active ha, Bool.and_comm]
  · simp [ha]

/-- an edit of rows that are mildly changed. -/
theorem Edits.mild_of_mem (h : Edits k f db db') {r : QueuedPrompt}
    (hr : r ∈ activeRows db sessionId) : Mild f r := h.mild r (mem_activeRows.mp hr).1

theorem Edits.line (h : Edits k f db db') (hl : Line (activeRows db sessionId)) :
    Line (activeRows db' sessionId) := by
  rw [h.activeRows_eq]
  refine (hl.sublist List.filter_sublist).map (fun r hr => ?_) fun r hr hp => ?_
  · exact (h.mild_of_mem (List.mem_of_mem_filter hr)).order
  · replace hr := List.mem_of_mem_tail hr
    have ha := (List.mem_filter.mp hr).2
    rw [Bool.and_eq_true, decide_eq_true_iff] at ha
    exact (h.mild_of_mem (List.mem_of_mem_filter hr)).pending hp ha.2

/-- a session all of whose active rows stay. -/
theorem Edits.queue (h : Edits k f db db')
    (hs : ∀ r ∈ activeRows db sessionId, k r = true ∧ (f r).state.Active)
    (hq : Queue (activeRows db sessionId)) : Queue (activeRows db' sessionId) := by
  rw [h.activeRows_eq, List.filter_eq_self.mpr fun r hr => by simp [hs r hr]]
  exact hq.map (fun r hr => (h.mild_of_mem hr).order)
    fun r hr hp => (h.mild_of_mem (List.mem_of_mem_tail hr)).pending hp
      (hs r (List.mem_of_mem_tail hr)).2

theorem Edits.ids (h : Edits k f db db') :
    (db'.prompts.map (·.id)).Sublist (db.prompts.map (·.id)) := by
  have hid : ((db.prompts.filter k).map f).map (·.id) = (db.prompts.filter k).map (·.id) := by
    rw [List.map_map]
    exact List.map_congr_left fun r hr => (h.mild r (List.mem_of_mem_filter hr)).id
  rw [h.prompts, hid]
  exact List.filter_sublist.map _

theorem Edits.rows (h : Edits k f db db') {r' : QueuedPrompt}
    (hr' : r' ∈ activeRows db' sessionId) :
    ∃ r ∈ activeRows db sessionId, r'.id = r.id := by
  rw [h.activeRows_eq] at hr'
  obtain ⟨r, hr, rfl⟩ := List.mem_map.mp hr'
  exact ⟨r, List.mem_of_mem_filter hr, (h.mild_of_mem (List.mem_of_mem_filter hr)).id⟩

end Edits

/-! ## numbering a line again -/

section Reorder
variable {db db' : PromptQueueStore} {sessionId : String} {now : ℕ}

theorem activeRows_congr (h : db'.prompts = db.prompts) :
    activeRows db' sessionId = activeRows db sessionId := by
  unfold activeRows
  rw [h]

theorem activeRows_deletePrompts {p : QueuedPrompt → Prop} [DecidablePred p]
    (hp : ∀ r, p r → ¬r.state.Active) :
    activeRows (db.deletePrompts p) sessionId = activeRows db sessionId := by
  unfold activeRows deletePrompts
  rw [List.filter_filter]
  refine List.filter_congr fun r _ => ?_
  have hr := hp r
  by_cases ha : r.state.Active <;> by_cases h : p r <;> simp_all

/-- rows that are not active change. -/
theorem activeRows_updatePrompts {p : QueuedPrompt → Prop} [DecidablePred p]
    {f : QueuedPrompt → QueuedPrompt} (hp : ∀ r, p r → ¬r.state.Active)
    (hf : ∀ r, p r → ¬(f r).state.Active) :
    activeRows (db.updatePrompts p f) sessionId = activeRows db sessionId := by
  unfold activeRows updatePrompts update
  rw [List.filter_map]
  have hfilter : db.prompts.filter ((fun r : QueuedPrompt =>
      decide (r.sessionId = sessionId ∧ r.state.Active)) ∘ fun r => if p r then f r else r) =
      db.prompts.filter fun r => r.sessionId = sessionId ∧ r.state.Active := by
    refine List.filter_congr fun r _ => ?_
    simp only [Function.comp_apply]
    split
    · simp [hp r ‹_›, hf r ‹_›]
    · rfl
  rw [hfilter]
  refine (List.map_congr_left fun r hr => ?_).trans (List.map_id' _)
  have ha : r.sessionId = sessionId ∧ r.state.Active := by simpa using (List.mem_filter.mp hr).2
  exact if_neg fun h => hp r h ha.2

/-- `pruneHistory` leaves the active rows alone. -/
theorem activeRows_pruneHistory (t : String) :
    activeRows (db.pruneHistory t now) sessionId = activeRows db sessionId := by
  let kept := db.deletePrompts fun r => r.sessionId = t ∧ r.state.Terminal ∧
    (terminalTime r < now - retryWindow ∨ r.id ∉ db.recentTerminal t 1000)
  have hkept : activeRows kept sessionId = activeRows db sessionId :=
    activeRows_deletePrompts fun r h => not_active h.2.1
  have hscrubbed : activeRows (db.pruneHistory t now) sessionId = activeRows kept sessionId :=
    (activeRows_congr rfl).trans (activeRows_updatePrompts (fun r h => not_active h.2.1)
      fun r h => not_active h.2.1)
  exact hscrubbed.trans hkept

/-- a line is its own queue in order. -/
theorem activeQueue_eq (h : Line (activeRows db sessionId)) :
    db.activeQueue sessionId = activeRows db sessionId := by
  refine List.mergeSort_of_pairwise ?_
  refine (List.pairwise_map.mp h.ascending).imp fun {a b} hab => ?_
  exact decide_eq_true (le_of_lt hab)

/-- one step of `reorderQueue`. -/
def number (db : PromptQueueStore) (x : QueuedPrompt × ℕ) : PromptQueueStore :=
  if x.1.order ≠ x.2 + 1 then
    db.updatePrompts (fun r => r.id = x.1.id) fun r => { r with order := x.2 + 1 }
  else db

/-- the rows after `reorderQueue` went through `l`: only orders change, and only those of rows of
`l`. -/
structure Numbers (l : List (QueuedPrompt × ℕ)) (g : QueuedPrompt → QueuedPrompt) : Prop where
  same : ∀ r, ∃ n, g r = { r with order := n }
  other : ∀ r, (∀ x ∈ l, x.1.id ≠ r.id) → g r = r
  order : (l.map (·.1.id)).Nodup → ∀ x ∈ l, ∀ r, r.id = x.1.id → r.order = x.1.order →
    (g r).order = x.2 + 1

theorem number_spec (db : PromptQueueStore) (x : QueuedPrompt × ℕ) :
    ∃ g, (number db x).prompts = db.prompts.map g ∧ Numbers [x] g := by
  unfold number
  split
  · refine ⟨fun r => if r.id = x.1.id then { r with order := x.2 + 1 } else r, rfl, ?_, ?_, ?_⟩
    · intro r
      split
      · exact ⟨_, rfl⟩
      · exact ⟨r.order, rfl⟩
    · intro r hr
      exact if_neg fun h => hr x (List.mem_singleton_self x) h.symm
    · intro _ y hy r hid _
      obtain rfl := List.mem_singleton.mp hy
      rw [if_pos hid]
  · rename_i horder
    refine ⟨fun r => r, (List.map_id' _).symm, fun r => ⟨r.order, rfl⟩, fun r _ => rfl, ?_⟩
    intro _ y hy r _ ho
    obtain rfl := List.mem_singleton.mp hy
    exact ho.trans (not_not.mp horder)

/-- Induction on the rows: each row is numbered once, since their ids differ. -/
theorem foldl_number (l : List (QueuedPrompt × ℕ)) (db : PromptQueueStore) :
    ∃ g, (l.foldl number db).prompts = db.prompts.map g ∧ Numbers l g := by
  induction l generalizing db with
  | nil => exact ⟨fun r => r, (List.map_id' _).symm, fun r => ⟨r.order, rfl⟩, fun r _ => rfl,
      fun _ x hx => absurd hx List.not_mem_nil⟩
  | cons x l ih =>
    obtain ⟨g₁, h₁, n₁⟩ := number_spec db x
    obtain ⟨g₂, h₂, n₂⟩ := ih (number db x)
    refine ⟨g₂ ∘ g₁, ?_, ?_, ?_, ?_⟩
    · rw [List.foldl_cons, h₂, h₁, List.map_map]
    · intro r
      obtain ⟨n, hn⟩ := n₁.same r
      obtain ⟨m, hm⟩ := n₂.same (g₁ r)
      refine ⟨m, hm.trans ?_⟩
      rw [hn]
    · intro r hr
      have hg : g₁ r = r := n₁.other r fun y hy => hr y (by simp_all)
      show g₂ (g₁ r) = r
      rw [hg]
      exact n₂.other r fun y hy => hr y (List.mem_cons_of_mem _ hy)
    · intro hnd y hy r hid ho
      obtain ⟨hx, hl⟩ : x.1.id ∉ l.map (·.1.id) ∧ (l.map (·.1.id)).Nodup :=
        List.nodup_cons.mp hnd
      have hidg : (g₁ r).id = r.id := by
        obtain ⟨n, hn⟩ := n₁.same r
        rw [hn]
      show (g₂ (g₁ r)).order = _
      rcases List.mem_cons.mp hy with rfl | hm
      · rw [n₂.other (g₁ r) fun z hz hzid => hx ?_]
        · exact n₁.order (by simp) y (List.mem_singleton_self y) r hid ho
        · rw [← hid, ← hidg, ← hzid]
          exact List.mem_map_of_mem hz
      · have hne : x.1.id ≠ r.id := by
          intro h
          rw [h, hid] at hx
          exact hx (List.mem_map_of_mem hm)
        have hg : g₁ r = r := n₁.other r fun z hz => by
          rw [List.mem_singleton.mp hz]
          exact hne
        rw [hg]
        exact n₂.order hl y hm r hid ho

theorem Numbers.activeRows_eq {l : List (QueuedPrompt × ℕ)} {g : QueuedPrompt → QueuedPrompt}
    (n : Numbers l g) (h : db'.prompts = db.prompts.map g) :
    activeRows db' sessionId = (activeRows db sessionId).map g := by
  unfold activeRows
  rw [h, List.filter_map]
  congr 1
  refine List.filter_congr fun r _ => ?_
  obtain ⟨m, hm⟩ := n.same r
  simp only [Function.comp_apply, hm]

theorem activeRows_ids (hk : PrimaryKey (·.id) db.prompts) :
    ((activeRows db sessionId).map (·.id)).Nodup := hk.sublist (List.filter_sublist.map _)

/-- What `reorderQueue` does: the active rows of the session are numbered, and nothing else
changes. -/
structure Reordered (db db' : PromptQueueStore) (sessionId : String) : Prop where
  queue : Queue (activeRows db' sessionId)
  ids : (activeRows db' sessionId).map (·.id) = (activeRows db sessionId).map (·.id)
  other : ∀ t, t ≠ sessionId → activeRows db' t = activeRows db t

/-- rows numbered along the list stand at `1, 2, …` -/
theorem Numbers.orders {q : List QueuedPrompt} {g : QueuedPrompt → QueuedPrompt}
    (n : Numbers q.zipIdx g) (hq : (q.map (·.id)).Nodup) :
    (q.map g).map (·.order) = List.range' 1 q.length := by
  have hids : q.zipIdx.map (·.1.id) = q.map (·.id) := by
    conv_rhs => rw [← List.zipIdx_map_fst 0 q, List.map_map]
    rfl
  refine List.ext_getElem (by simp) fun i h₁ h₂ => ?_
  have hi : i < q.length := by simpa using h₁
  have hmem : (q[i], i) ∈ q.zipIdx := by simp [List.mk_mem_zipIdx_iff_getElem?]
  have ho : (g q[i]).order = i + 1 := n.order (hids ▸ hq) _ hmem q[i] rfl rfl
  rw [List.getElem_map, List.getElem_map, List.getElem_range', ho]
  omega

theorem Numbers.ids {l : List (QueuedPrompt × ℕ)} {q : List QueuedPrompt}
    {g : QueuedPrompt → QueuedPrompt} (n : Numbers l g) :
    (q.map g).map (·.id) = q.map (·.id) := by
  rw [List.map_map]
  refine List.map_congr_left fun r _ => ?_
  obtain ⟨m, hm⟩ := n.same r
  show (g r).id = r.id
  rw [hm]

theorem Numbers.state {l : List (QueuedPrompt × ℕ)} {g : QueuedPrompt → QueuedPrompt}
    (n : Numbers l g) (r : QueuedPrompt) : (g r).state = r.state := by
  obtain ⟨m, hm⟩ := n.same r
  rw [hm]

theorem Reordered.rows (h : Reordered db db' sessionId) {t : String} {r' : QueuedPrompt}
    (hr' : r' ∈ activeRows db' t) : ∃ r ∈ activeRows db t, r'.id = r.id := by
  by_cases e : t = sessionId
  · subst e
    have hid : r'.id ∈ (activeRows db t).map (·.id) := h.ids ▸ List.mem_map_of_mem hr'
    obtain ⟨r, hr, e⟩ := List.mem_map.mp hid
    exact ⟨r, hr, e.symm⟩
  · exact ⟨r', h.other t e ▸ hr', rfl⟩

/-- **A line that is numbered again is a queue.** -/
theorem reorderQueue_spec (now : ℕ) (hk : PrimaryKey (·.id) db.prompts) (hl : Line (activeRows db sessionId)) :
    Reordered db (db.reorderQueue sessionId now) sessionId := by
  let kept := db.pruneHistory sessionId now
  let q := activeRows db sessionId
  have hact : ∀ t, activeRows kept t = activeRows db t := fun t => activeRows_pruneHistory sessionId
  have hkept : PrimaryKey (·.id) kept.prompts := hk.sublist pruneHistory_follows.ids
  have hq : kept.activeQueue sessionId = q := by
    have hline : Line (activeRows kept sessionId) := by
      rw [hact]
      exact hl
    exact (activeQueue_eq hline).trans (hact sessionId)
  obtain ⟨g, hg, n⟩ := foldl_number q.zipIdx kept
  have hdb : (db.reorderQueue sessionId now).prompts = kept.prompts.map g := by
    rw [← hg, ← hq]
    rfl
  have hrows : ∀ t, activeRows (db.reorderQueue sessionId now) t = (activeRows db t).map g :=
    fun t => (n.activeRows_eq hdb).trans (congrArg _ (hact t))
  have horders := n.orders (activeRows_ids hk)
  refine ⟨⟨⟨?_, ?_, ?_⟩, ?_⟩, ?_, ?_⟩
  · rw [hrows, horders]
    exact List.pairwise_lt_range'
  · rw [hrows, List.length_map]
    exact hl.bounded
  · intro r' hr'
    rw [hrows, ← List.map_tail] at hr'
    obtain ⟨r, hr, rfl⟩ := List.mem_map.mp hr'
    exact (n.state r).trans (hl.claimed r hr)
  · rw [hrows, horders, List.length_map]
  · rw [hrows, n.ids]
  · -- the ids of the rows of another session are not those of the queue
    intro t ht
    rw [hrows]
    refine (List.map_congr_left fun r hr => ?_).trans (List.map_id' _)
    refine n.other r fun x hx hid => ht ?_
    obtain ⟨hmem, hsession, -⟩ := mem_activeRows.mp hr
    have hq : x.1 ∈ q := List.fst_mem_of_mem_zipIdx hx
    obtain ⟨hmem', hsession', -⟩ := mem_activeRows.mp hq
    rw [← hsession, ← hsession', hk.eq hmem' hmem hid]

end Reorder

/-! ## the methods -/

/-- What the other methods do: every session keeps a queue of rows that it had. -/
structure Settled (db db' : PromptQueueStore) : Prop where
  ids : (db'.prompts.map (·.id)).Sublist (db.prompts.map (·.id))
  queue : ∀ s, Queue (activeRows db' s)
  rows : ∀ s, ∀ r' ∈ activeRows db' s, ∃ r ∈ activeRows db s, r'.id = r.id

section Methods
variable {k : QueuedPrompt → Bool} {f : QueuedPrompt → QueuedPrompt} {db db' : PromptQueueStore}
  {sessionId id token : String} {now : ℕ}

theorem Settled.of_activeRows (hq : ∀ s, Queue (activeRows db s))
    (hid : (db'.prompts.map (·.id)).Sublist (db.prompts.map (·.id)))
    (h : ∀ s, activeRows db' s = activeRows db s) : Settled db db' where
  ids := hid
  queue s := by
    rw [h]
    exact hq s
  rows s r hr := ⟨r, h s ▸ hr, rfl⟩

theorem Settled.refl (hq : ∀ s, Queue (activeRows db s)) : Settled db db :=
  Settled.of_activeRows hq (List.Sublist.refl _) fun _ => rfl

theorem Settled.trans {a b c : PromptQueueStore} (h : Settled a b) (h' : Settled b c) :
    Settled a c where
  ids := h'.ids.trans h.ids
  queue := h'.queue
  rows s r'' hr'' := by
    obtain ⟨r', hr', e⟩ := h'.rows s r'' hr''
    obtain ⟨r, hr, e'⟩ := h.rows s r' hr'
    exact ⟨r, hr, e.trans e'⟩

/-- only the table of prompts matters. -/
theorem Settled.congr {a b c : PromptQueueStore} (h : Settled a c) (e : b.prompts = a.prompts) :
    Settled b c where
  ids := e ▸ h.ids
  queue := h.queue
  rows s := by
    rw [activeRows_congr e]
    exact h.rows s

/-- an edit that takes no active row out. -/
theorem Edits.settled (h : Edits k f db db') (hq : ∀ s, Queue (activeRows db s))
    (hs : ∀ r ∈ db.prompts, r.state.Active → k r = true ∧ (f r).state.Active) :
    Settled db db' where
  ids := h.ids
  queue s := h.queue (fun r hr => hs r (mem_activeRows.mp hr).1 (mem_activeRows.mp hr).2.2) (hq s)
  rows s r' hr' := h.rows hr'

/-- an edit that takes active rows out of one queue, which is then numbered again. -/
theorem Edits.reorder (h : Edits k f db db') (hk : PrimaryKey (·.id) db.prompts)
    (hq : ∀ s, Queue (activeRows db s))
    (hs : ∀ r ∈ db.prompts, r.sessionId ≠ sessionId → r.state.Active →
      k r = true ∧ (f r).state.Active) :
    Settled db (db'.reorderQueue sessionId now) := by
  have hk' : PrimaryKey (·.id) db'.prompts := hk.sublist h.ids
  have hr := reorderQueue_spec now hk' (h.line (hq sessionId).toLine)
  refine ⟨reorderQueue_follows.ids.trans h.ids, fun s => ?_, fun s r' hr' => ?_⟩
  · by_cases e : s = sessionId
    · rw [e]
      exact hr.queue
    · rw [hr.other s e]
      refine h.queue (fun r hmem => ?_) (hq s)
      obtain ⟨hmem, hid, ha⟩ := mem_activeRows.mp hmem
      exact hs r hmem (hid ▸ e) ha
  · obtain ⟨r₁, hr₁, e₁⟩ := hr.rows hr'
    obtain ⟨r, hr, e₂⟩ := h.rows hr₁
    exact ⟨r, hr, e₁.trans e₂⟩

/-- an edit that takes the pending rows out of one queue. -/
theorem Edits.clear (sessionId : String) (h : Edits k f db db') (hq : ∀ s, Queue (activeRows db s))
    (hs : ∀ r, r.sessionId ≠ sessionId → r.state.Active → k r = true ∧ (f r).state.Active)
    (hc : ∀ r, r.sessionId = sessionId → r.state = .pending → k r = true → ¬(f r).state.Active) :
    Settled db db' := by
  refine ⟨h.ids, fun s => ?_, fun s r' hr' => h.rows hr'⟩
  by_cases e : s = sessionId
  · rw [h.activeRows_eq]
    refine ((hq s).claimed_only fun r hr hk hp => ?_).map (fun r hr => ?_) fun r hr hp => ?_
    · rw [Bool.and_eq_true, decide_eq_true_iff] at hk
      exact hc r ((mem_activeRows.mp hr).2.1.trans e) hp hk.1 hk.2
    · exact (h.mild_of_mem (List.mem_of_mem_filter hr)).order
    · replace hr := List.mem_of_mem_tail hr
      have ha := (List.mem_filter.mp hr).2
      rw [Bool.and_eq_true, decide_eq_true_iff] at ha
      exact (h.mild_of_mem (List.mem_of_mem_filter hr)).pending hp ha.2
  · refine h.queue (fun r hr => ?_) (hq s)
    obtain ⟨-, hid, ha⟩ := mem_activeRows.mp hr
    exact hs r (hid ▸ e) ha

theorem pruneHistory_settled (hq : ∀ s, Queue (activeRows db s)) :
    Settled db (db.pruneHistory sessionId now) :=
  Settled.of_activeRows hq pruneHistory_follows.ids fun _ => activeRows_pruneHistory sessionId

theorem updatePromptContent_settled (hq : ∀ s, Queue (activeRows db s)) {promptId content : String} :
    Settled db (db.updatePromptContent sessionId promptId content).2 := by
  unfold updatePromptContent
  dsimp only
  split
  · exact Settled.refl hq
  · refine Edits.settled (Edits.of_update fun r _ hp => ?_) hq fun r _ ha => ⟨rfl, ?_⟩
    · exact ⟨rfl, rfl, rfl, fun h => h, fun h _ => h⟩
    · split
      · exact ha
      · exact ha

theorem deletePromptById_settled (hk : PrimaryKey (·.id) db.prompts)
    (hq : ∀ s, Queue (activeRows db s)) {promptId : String} :
    Settled db (db.deletePromptById sessionId promptId now).2 := by
  unfold deletePromptById
  dsimp only
  split
  · refine Edits.reorder Edits.of_delete hk hq fun r _ hne ha => ⟨?_, ha⟩
    exact decide_eq_true fun h => hne h.2.1
  · exact Settled.refl hq

theorem removeNextPrompt_settled (hk : PrimaryKey (·.id) db.prompts)
    (hq : ∀ s, Queue (activeRows db s)) : Settled db (db.removeNextPrompt sessionId now).2 := by
  unfold removeNextPrompt
  split
  · exact Settled.refl hq
  · split
    · exact deletePromptById_settled hk hq
    · exact Settled.refl hq

theorem clearSessionQueue_settled (hq : ∀ s, Queue (activeRows db s)) :
    Settled db (db.clearSessionQueue sessionId) := by
  refine Edits.clear sessionId Edits.of_delete hq (fun r hne ha => ⟨?_, ha⟩) fun r hid hp hk => ?_
  · exact decide_eq_true fun h => hne h.1
  · exact absurd ⟨hid, hp⟩ (of_decide_eq_true hk)

theorem supersedeDedicatedPending_settled (hq : ∀ s, Queue (activeRows db s)) {bindingId : String} :
    Settled db (db.supersedeDedicatedPending sessionId bindingId now).2 := by
  unfold supersedeDedicatedPending
  split
  · exact Settled.refl hq
  split
  · exact Settled.refl hq
  · have ht : PromptState.superseded.Terminal := Or.inr (Or.inr rfl)
    refine Settled.congr (Edits.clear sessionId (Edits.of_update fun r _ _ =>
      Mild.ends rfl rfl rfl ht) hq (fun r hne ha => ⟨rfl, ?_⟩) fun r hid hp _ => ?_) rfl
    · rw [if_neg fun h => hne h.1]
      exact ha
    · rw [if_pos ⟨hid, hp⟩]
      exact not_active ht

theorem retireForFreshHumanTrigger_settled (hk : PrimaryKey (·.id) db.prompts)
    (hq : ∀ s, Queue (activeRows db s)) {triggerId : String}
    {snapshot : Option (List (String × ℕ))} :
    Settled db (db.retireForFreshHumanTrigger sessionId triggerId snapshot now) := by
  unfold retireForFreshHumanTrigger retireSessionWork
  split
  · have h : Edits (fun _ => true) (fun r => r) db db := ⟨fun r _ => Mild.self r, by simp⟩
    exact h.reorder hk hq fun r _ _ ha => ⟨rfl, ha⟩
  · refine Settled.congr (Edits.reorder (Edits.of_update fun r _ _ => Mild.ends rfl rfl rfl
      (Or.inr (Or.inr rfl))) hk hq fun r _ hne ha => ⟨rfl, ?_⟩) rfl
    rw [if_neg fun h => hne h.1]
    exact ha

/-- Sessions numbered again one after the other. -/
theorem foldl_reorderQueue (now : ℕ) (sessions : List String) (db : PromptQueueStore)
    (hk : PrimaryKey (·.id) db.prompts) (hl : ∀ s, Line (activeRows db s))
    (hq : ∀ s, s ∉ sessions → Queue (activeRows db s)) :
    Settled db (sessions.foldl (fun db sessionId => db.reorderQueue sessionId now) db) := by
  induction sessions generalizing db with
  | nil => exact Settled.refl fun s => hq s List.not_mem_nil
  | cons t sessions ih =>
    have hr := reorderQueue_spec now hk (hl t)
    have hids : ((db.reorderQueue t now).prompts.map (·.id)).Sublist (db.prompts.map (·.id)) :=
      reorderQueue_follows.ids
    have hrest := ih (db.reorderQueue t now) (hk.sublist hids) (fun s => ?_) fun s hs => ?_
    · refine ⟨hrest.ids.trans hids, hrest.queue, fun s r'' hr'' => ?_⟩
      obtain ⟨r', hr', e⟩ := hrest.rows s r'' hr''
      obtain ⟨r, hr, e'⟩ := hr.rows hr'
      exact ⟨r, hr, e.trans e'⟩
    · by_cases e : s = t
      · rw [e]
        exact hr.queue.toLine
      · rw [hr.other s e]
        exact hl s
    · by_cases e : s = t
      · rw [e]
        exact hr.queue
      · rw [hr.other s e]
        exact hq s fun h => hs ((List.mem_cons.mp h).resolve_left e)

theorem deletePromptsByType_settled (hk : PrimaryKey (·.id) db.prompts)
    (hq : ∀ s, Queue (activeRows db s)) {type : String} :
    Settled db (db.deletePromptsByType type now).2 := by
  unfold deletePromptsByType
  dsimp only
  split
  · exact Settled.refl hq
  · have h : Edits _ _ db (db.deletePrompts fun r => r.type = some (trim type) ∧
        r.state = .pending) := Edits.of_delete
    have hall := foldl_reorderQueue now (((db.prompts.filter fun r : QueuedPrompt =>
        r.type = some (trim type) ∧ r.state = .pending).map (·.sessionId)).dedup) _
      (hk.sublist h.ids) (fun s => h.line (hq s).toLine) fun s hs => ?_
    · refine ⟨hall.ids.trans h.ids, hall.queue, fun s r'' hr'' => ?_⟩
      obtain ⟨r', hr', e⟩ := hall.rows s r'' hr''
      obtain ⟨r, hr, e'⟩ := h.rows hr'
      exact ⟨r, hr, e.trans e'⟩
    · -- a session without pending rows of the type keeps its rows
      refine h.queue (fun r hr => ⟨decide_eq_true fun hp => hs ?_, ?_⟩) (hq s)
      · obtain ⟨hmem, hid, -⟩ := mem_activeRows.mp hr
        rw [List.mem_dedup, ← hid]
        exact List.mem_map_of_mem (List.mem_filter.mpr ⟨hmem, decide_eq_true hp⟩)
      · exact (mem_activeRows.mp hr).2.2

theorem acknowledgePrompt_settled (hk : PrimaryKey (·.id) db.prompts)
    (hq : ∀ s, Queue (activeRows db s)) {revision actor reason : String} :
    Settled db (db.acknowledgePrompt sessionId id revision actor reason now).2 := by
  have hprune : Settled db (db.pruneHistory sessionId now) := pruneHistory_settled hq
  unfold acknowledgePrompt
  dsimp only
  split
  · exact hprune
  split
  · exact hprune
  split
  · exact hprune
  split
  · exact hprune
  split
  · exact hprune
  split
  · refine hprune.trans (Edits.reorder (Edits.of_update fun r _ _ => Mild.ends rfl rfl rfl
      (Or.inl rfl)) (hk.sublist hprune.ids) hprune.queue fun r _ hne ha => ⟨rfl, ?_⟩)
    rw [if_neg fun h => hne h.1]
    exact ha
  · exact hprune

/-- a claimed row under a claim stays claimed. -/
theorem updateClaim_settled (hq : ∀ s, Queue (activeRows db s)) {p : QueuedPrompt → Prop}
    [DecidablePred p] (hm : ∀ r, p r → Mild f r) (hs : ∀ r, p r → (f r).state.Active) :
    Settled db (db.updateClaim p f).2 := by
  unfold updateClaim
  split
  · exact Settled.refl hq
  · refine Edits.settled (Edits.of_update fun r _ => hm r) hq fun r _ ha => ⟨rfl, ?_⟩
    split
    · exact hs r ‹_›
    · exact ha

theorem recordClaimAcceptance_settled (hq : ∀ s, Queue (activeRows db s)) :
    Settled db (db.recordClaimAcceptance sessionId id token now).2 :=
  updateClaim_settled hq (fun r _ => ⟨rfl, rfl, rfl, fun h => h, fun h _ => h⟩)
    fun r hp => Or.inr hp.2.2.2

theorem markClaimSending_settled (hq : ∀ s, Queue (activeRows db s)) :
    Settled db (db.markClaimSending sessionId id token now).2 :=
  updateClaim_settled hq (fun r _ => ⟨rfl, rfl, rfl, fun h => h, fun h _ => h⟩)
    fun r hp => Or.inr hp.1.2.2.2

theorem releaseRejectedClaim_settled (hq : ∀ s, Queue (activeRows db s))
    {certainty : DeliveryState} :
    Settled db (db.releaseRejectedClaim sessionId id token certainty) := by
  refine Edits.settled (Edits.of_update fun r _ hp => ?_) hq fun r _ ha => ⟨rfl, ?_⟩
  · exact ⟨rfl, rfl, rfl, fun _ => Or.inr hp.2.2.2, fun _ _ => rfl⟩
  · split
    · exact Or.inl rfl
    · exact ha

theorem completeClaim_settled (hk : PrimaryKey (·.id) db.prompts)
    (hq : ∀ s, Queue (activeRows db s)) :
    Settled db (db.completeClaim sessionId id token now).2 := by
  unfold completeClaim updateClaim
  split
  · exact Settled.refl hq
  · refine Edits.reorder (Edits.of_update fun r _ _ => Mild.ends rfl rfl rfl (Or.inr (Or.inl rfl)))
      hk hq fun r _ hne ha => ⟨rfl, ?_⟩
    rw [if_neg fun h => hne h.1]
    exact ha

/-- The row that is reconciled is the claimed one, since its id is its own. -/
theorem reconcileClaim_settled (hk : PrimaryKey (·.id) db.prompts)
    (hq : ∀ s, Queue (activeRows db s)) {revision resolution actor reason : String} :
    Settled db (db.reconcileClaim sessionId id revision token resolution actor reason now).2 := by
  unfold reconcileClaim
  split
  · exact Settled.refl hq
  split
  · exact Settled.refl hq
  rename_i prompt hfind
  obtain ⟨hmem, hsession, hid⟩ := mem_of_find hfind
  split
  · exact Settled.refl hq
  rename_i hclaim
  have hstate : prompt.state = .claimed := not_not.mp fun h => hclaim (Or.inl h)
  dsimp only
  split
  · refine Settled.congr (Edits.reorder (Edits.of_update fun r hr hp => ?_) hk hq
      fun r hr hne ha => ⟨rfl, ?_⟩) rfl
    · obtain rfl : r = prompt := hk.eq hr hmem (hp.trans hid.symm)
      refine ⟨rfl, rfl, rfl, fun _ => Or.inr hstate, fun h => ?_⟩
      rw [hstate] at h
      cases h
    · rw [if_neg fun hp => hne ?_]
      · exact ha
      · rw [hk.eq hr hmem (hp.trans hid.symm)]
        exact hsession
  · exact Settled.refl hq

end Methods

end Fifo
end PromptQueue
end WmAutopilot
