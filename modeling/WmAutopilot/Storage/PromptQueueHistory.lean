import Mathlib.Data.List.Pairwise
import Mathlib.Logic.Relation
import WmAutopilot.Storage.PromptQueueLines

/-!
# Order and capacity of the prompt queue

The store under all its methods, in any order and with any arguments.

* `Call`, `History`   the methods; a database, the prompts in the order in which they were enqueued,
                      and the claims in the order in which they were made;
* `Inv`, `Inv.after`  what a run keeps; **the step lemma**, one case for each method;
* `Call.Rebinds`      the rebindings that move a queue to a session whose own is empty;
                      `merge_not_ordered`: any other breaks the order of the queue;
* `queue_order`       the queues of every run whose rebindings are of this kind.
-/

set_option autoImplicit false
set_option linter.unusedVariables false

namespace WmAutopilot
namespace PromptQueue
namespace Fifo
open Js Sql PromptQueueStore

/-! ## histories -/

/-- the constructor on a database that exists. -/
def reopen (db : PromptQueueStore) (now : ℕ) : PromptQueueStore :=
  ((db.prompts.map (·.sessionId)).dedup).foldl
    (fun db sessionId => db.pruneHistory sessionId now) db

/-- A call of a method, with the UUID that it draws and the time that it reads. -/
inductive Call where
  | addPrompt (sessionId : String) (input : QueuedPromptInput) (id : String) (now : ℕ)
  | getSessionQueue (sessionId : String) (now : ℕ)
  | updatePromptContent (sessionId promptId content : String)
  | deletePromptById (sessionId promptId : String) (now : ℕ)
  | removeNextPrompt (sessionId : String) (now : ℕ)
  | clearSessionQueue (sessionId : String)
  | supersedeDedicatedPending (sessionId bindingId : String) (now : ℕ)
  | retireForFreshHumanTrigger (sessionId triggerId : String)
      (snapshot : Option (List (String × ℕ))) (now : ℕ)
  | rebindSession (sourceSessionId targetSessionId : String)
  | deletePromptsByType (type : String) (now : ℕ)
  | acknowledgePrompt (sessionId id revision actor reason : String) (now : ℕ)
  | claimNextPrompt (sessionId claimToken : String) (now : ℕ)
  | recordClaimAcceptance (sessionId id token : String) (now : ℕ)
  | completeClaim (sessionId id claimToken : String) (now : ℕ)
  | releaseRejectedClaim (sessionId id claimToken : String) (certainty : DeliveryState)
  | markClaimSending (sessionId id token : String) (now : ℕ)
  | reconcileClaim (sessionId id revision token resolution actor reason : String) (now : ℕ)
  | reopen (now : ℕ)

def Call.run (db : PromptQueueStore) : Call → PromptQueueStore
  | addPrompt sessionId input id now => (db.addPrompt sessionId input id now).2
  | getSessionQueue sessionId now => (db.getSessionQueue sessionId now).2
  | updatePromptContent sessionId promptId content =>
    (db.updatePromptContent sessionId promptId content).2
  | deletePromptById sessionId promptId now => (db.deletePromptById sessionId promptId now).2
  | removeNextPrompt sessionId now => (db.removeNextPrompt sessionId now).2
  | clearSessionQueue sessionId => db.clearSessionQueue sessionId
  | supersedeDedicatedPending sessionId bindingId now =>
    (db.supersedeDedicatedPending sessionId bindingId now).2
  | retireForFreshHumanTrigger sessionId triggerId snapshot now =>
    db.retireForFreshHumanTrigger sessionId triggerId snapshot now
  | rebindSession source target => (db.rebindSession source target).2
  | deletePromptsByType type now => (db.deletePromptsByType type now).2
  | acknowledgePrompt sessionId id revision actor reason now =>
    (db.acknowledgePrompt sessionId id revision actor reason now).2
  | claimNextPrompt sessionId claimToken now => (db.claimNextPrompt sessionId claimToken now).2
  | recordClaimAcceptance sessionId id token now =>
    (db.recordClaimAcceptance sessionId id token now).2
  | completeClaim sessionId id claimToken now => (db.completeClaim sessionId id claimToken now).2
  | releaseRejectedClaim sessionId id claimToken certainty =>
    db.releaseRejectedClaim sessionId id claimToken certainty
  | markClaimSending sessionId id token now => (db.markClaimSending sessionId id token now).2
  | reconcileClaim sessionId id revision token resolution actor reason now =>
    (db.reconcileClaim sessionId id revision token resolution actor reason now).2
  | reopen now => Fifo.reopen db now

/-- A database and what was enqueued and claimed.  A claim is the session and the prompt. -/
structure History where
  db : PromptQueueStore := {}
  enqueued : List String := []
  claims : List (String × String) := []

/-- the prompt that a call enqueues. -/
def Call.enqueues (db : PromptQueueStore) : Call → List String
  | addPrompt sessionId input id now =>
    match (db.addPrompt sessionId input id now).1 with
    | .ok (some prompt) => [prompt.id]
    | _ => []
  | _ => []

/-- the claim that a call makes. -/
def Call.claims (db : PromptQueueStore) : Call → List (String × String)
  | claimNextPrompt sessionId claimToken now =>
    match (db.claimNextPrompt sessionId claimToken now).1 with
    | some prompt => [(sessionId, prompt.id)]
    | none => []
  | _ => []

def History.after (h : History) (c : Call) : History where
  db := c.run h.db
  enqueued := h.enqueued ++ c.enqueues h.db
  claims := h.claims ++ c.claims h.db

/-- the UUID of a new prompt was never drawn before. -/
def Call.Fresh (h : History) : Call → Prop
  | addPrompt _ _ id _ => id ∉ h.enqueued
  | _ => True

def Step (h h' : History) : Prop := ∃ c : Call, c.Fresh h ∧ h.after c = h'

/-- the prompt `id` was not enqueued after `id'`. -/
def History.Before (h : History) (id id' : String) : Prop :=
  h.enqueued.idxOf id ≤ h.enqueued.idxOf id'

/-- Order and capacity of the queues.  See the file header. -/
structure Ordered (h : History) : Prop where
  limit : ∀ s, (activeRows h.db s).length ≤ 21
  orders : ∀ s, ((activeRows h.db s).map (·.order)).Nodup
  single : ∀ s, ∀ r ∈ activeRows h.db s, ∀ r' ∈ activeRows h.db s,
    r.state = .claimed → r'.state = .claimed → r.id = r'.id
  first : ∀ s, ∀ r ∈ activeRows h.db s, r.state = .claimed →
    ∀ r' ∈ activeRows h.db s, r.order ≤ r'.order
  fifo : h.claims.Pairwise fun a b => a.1 = b.1 → h.Before a.2 b.2

/-- What a run keeps.  The prompts stand in the table in the order in which they were enqueued, so
the order of a queue is that order. -/
structure Inv (h : History) : Prop where
  ids : (h.db.prompts.map (·.id)).Sublist h.enqueued
  nodup : h.enqueued.Nodup
  queue : ∀ s, Queue (activeRows h.db s)
  claimed : ∀ c ∈ h.claims, c.2 ∈ h.enqueued ∧ ∀ r ∈ activeRows h.db c.1, h.Before c.2 r.id
  fifo : h.claims.Pairwise fun a b => a.1 = b.1 → h.Before a.2 b.2

section Histories
variable {h : History} {db : PromptQueueStore}

theorem Inv.primaryKey (hi : Inv h) : PrimaryKey (·.id) h.db.prompts := hi.nodup.sublist hi.ids

theorem Inv.ordered (hi : Inv h) : Ordered h where
  limit s := (hi.queue s).bounded
  orders s := (hi.queue s).ascending.imp fun hlt => ne_of_lt hlt
  single s r hr r' hr' hc hc' := by
    have hq := hi.queue s
    cases e : activeRows h.db s with
    | nil => exact absurd (e ▸ hr) List.not_mem_nil
    | cons x l =>
      rw [e] at hq hr hr'
      rw [hq.head_of_claimed hr hc, hq.head_of_claimed hr' hc']
  first s r hr hc r' hr' := by
    have hq := hi.queue s
    cases e : activeRows h.db s with
    | nil => exact absurd (e ▸ hr) List.not_mem_nil
    | cons x l =>
      rw [e] at hq hr hr'
      rw [hq.head_of_claimed hr hc]
      exact hq.head_le hr'
  fifo := hi.fifo

theorem idxOf_le_append {l m : List String} {a b : String} (ha : a ∈ l)
    (hab : l.idxOf a ≤ l.idxOf b) : (l ++ m).idxOf a ≤ (l ++ m).idxOf b := by
  rw [List.idxOf_append, List.idxOf_append, if_pos ha]
  split
  · exact hab
  · have hlt := List.idxOf_lt_length_of_mem ha
    omega

/-- in a list without repetitions, the order of a sublist is the order of the list. -/
theorem idxOf_le_of_sublist {l m : List String} {a b : String} (hm : m.Nodup)
    (hs : (a :: l).Sublist m) (hb : b ∈ l) : m.idxOf a ≤ m.idxOf b := by
  have hp : m.Pairwise fun x y => m.idxOf x ≤ m.idxOf y := by
    refine List.pairwise_iff_getElem.mpr fun i j hi hj hij => ?_
    rw [hm.idxOf_getElem, hm.idxOf_getElem]
    exact le_of_lt hij
  exact List.rel_of_pairwise_cons (hp.sublist hs) hb

theorem Inv.settled (hi : Inv h) (hs : Settled h.db db) : Inv { h with db } where
  ids := hs.ids.trans hi.ids
  nodup := hi.nodup
  queue := hs.queue
  claimed c hc := by
    refine ⟨(hi.claimed c hc).1, fun r' hr' => ?_⟩
    obtain ⟨r, hr, hid⟩ := hs.rows _ r' hr'
    rw [hid]
    exact (hi.claimed c hc).2 r hr
  fifo := hi.fifo

/-! ### enqueueing -/

theorem getQueueCount_eq (db : PromptQueueStore) (sessionId : String) :
    db.getQueueCount sessionId = (activeRows db sessionId).length := List.countP_eq_length_filter

/-- the row that `addPrompt` appends. -/
structure Appended (db : PromptQueueStore) (sessionId id : String) (row : QueuedPrompt) : Prop where
  room : (activeRows db sessionId).length < 21
  order : row.order = (activeRows db sessionId).length + 1
  state : row.state = .pending
  sessionId : row.sessionId = sessionId
  id : row.id = id

theorem addPrompt_cases (db : PromptQueueStore) (sessionId id : String) (input : QueuedPromptInput)
    (now : ℕ) :
    let c := Call.addPrompt sessionId input id now
    c.run db = db.pruneHistory sessionId now ∧ c.enqueues db = [] ∨
    ∃ row, Appended db sessionId id row ∧ c.enqueues db = [id] ∧
      (c.run db).prompts = (db.pruneHistory sessionId now).prompts ++ [row] := by
  have hcount : (db.pruneHistory sessionId now).getQueueCount sessionId =
      (activeRows db sessionId).length := by
    rw [getQueueCount_eq, activeRows_pruneHistory]
  simp only [Call.run, Call.enqueues, addPrompt]
  split
  · exact Or.inl ⟨rfl, rfl⟩
  split
  · exact Or.inl ⟨rfl, rfl⟩
  rename_i hroom
  rw [hcount] at hroom
  split
  · refine Or.inr ⟨_, ⟨?_, congrArg (· + 1) hcount, rfl, rfl, rfl⟩, rfl, rfl⟩
    omega
  · exact Or.inl ⟨rfl, rfl⟩

/-- an active row is added at the end of the table. -/
theorem activeRows_append {db' : PromptQueueStore} {row : QueuedPrompt} (s : String)
    (ha : row.state.Active) (h : db'.prompts = db.prompts ++ [row]) :
    activeRows db' s = activeRows db s ++ if row.sessionId = s then [row] else [] := by
  unfold activeRows
  rw [h, List.filter_append]
  congr 1
  by_cases e : row.sessionId = s <;> simp [e, ha]

theorem Inv.addPrompt (hi : Inv h) {sessionId id : String} {input : QueuedPromptInput} {now : ℕ}
    (hf : id ∉ h.enqueued) : Inv (h.after (.addPrompt sessionId input id now)) := by
  have hprune : Settled h.db (h.db.pruneHistory sessionId now) := pruneHistory_settled hi.queue
  have hp := hi.settled hprune
  rcases addPrompt_cases h.db sessionId id input now with ⟨hrun, hnew⟩ | ⟨row, ha, hnew, hrun⟩
  · unfold History.after
    rw [hrun, hnew, List.append_nil]
    exact (List.append_nil h.claims).symm ▸ hp
  · have hact : row.state.Active := Or.inl ha.state
    have hrows : ∀ s, activeRows (h.after (.addPrompt sessionId input id now)).db s =
        activeRows h.db s ++ if row.sessionId = s then [row] else [] := fun s =>
      (activeRows_append s hact hrun).trans (congrArg (· ++ _) (activeRows_pruneHistory sessionId))
    have henq : (h.after (.addPrompt sessionId input id now)).enqueued = h.enqueued ++ [id] :=
      congrArg _ hnew
    have hclaims : (h.after (.addPrompt sessionId input id now)).claims = h.claims :=
      List.append_nil _
    have hbefore : ∀ c ∈ h.claims, ∀ id', h.Before c.2 id' →
        (h.after (.addPrompt sessionId input id now)).Before c.2 id' := by
      intro c hc id' hb
      unfold History.Before
      rw [henq]
      exact idxOf_le_append (hi.claimed c hc).1 hb
    refine ⟨?_, ?_, fun s => ?_, ?_, ?_⟩
    · show ((Call.run h.db _).prompts.map (·.id)).Sublist _
      rw [henq, hrun, List.map_append, List.map_singleton, ha.id]
      exact hp.ids.append (List.Sublist.refl _)
    · rw [henq]
      exact hi.nodup.append (List.nodup_singleton id) (by simpa using hf)
    · rw [hrows]
      split
      · rename_i e
        have hs : s = sessionId := e.symm.trans ha.sessionId
        rw [hs]
        exact (hi.queue sessionId).append ha.room ha.order ha.state
      · rw [List.append_nil]
        exact hi.queue s
    · rw [hclaims, henq]
      refine fun c hc => ⟨List.mem_append_left _ (hi.claimed c hc).1, fun r hr => hbefore c hc _ ?_⟩
      rw [hrows] at hr
      rcases List.mem_append.mp hr with hr | hr
      · exact (hi.claimed c hc).2 r hr
      · have hid : r.id = id := by
          split at hr
          · rw [List.mem_singleton.mp hr, ha.id]
          · exact absurd hr List.not_mem_nil
        rw [hid]
        unfold History.Before
        rw [List.idxOf_eq_length hf]
        exact List.idxOf_le_length
    · rw [hclaims]
      refine List.Pairwise.imp_of_mem (fun hc _ hlt e => ?_) hi.fifo
      exact hbefore _ hc _ (hlt e)

/-! ### claiming -/

/-- the next prompt is the first of the queue. -/
theorem getNextQueuedPrompt_spec {sessionId : String} {prompt : QueuedPrompt}
    (hl : Line (activeRows db sessionId)) (h : db.getNextQueuedPrompt sessionId = some prompt) :
    ∃ l, activeRows db sessionId = prompt :: l := by
  obtain ⟨hmem, hp, hmin⟩ := first_spec h
  have hrow : prompt ∈ activeRows db sessionId := mem_activeRows.mpr ⟨hmem, hp⟩
  cases e : activeRows db sessionId with
  | nil => exact absurd (e ▸ hrow) List.not_mem_nil
  | cons x l =>
    have hx : x ∈ activeRows db sessionId := e ▸ List.mem_cons_self
    rw [e] at hl hrow
    rcases List.mem_cons.mp hrow with rfl | hr
    · exact ⟨l, rfl⟩
    · -- a later row is not the least
      have hlt : x.order < prompt.order :=
        List.rel_of_pairwise_cons hl.ascending (List.mem_map_of_mem hr)
      obtain ⟨hxmem, hxp⟩ := mem_activeRows.mp hx
      exact absurd (hmin x hxmem hxp) (not_le_of_gt hlt)

/-- `claimNextPrompt` does nothing, or it claims the first prompt of the queue. -/
theorem claimNextPrompt_cases {sessionId token : String} {now : ℕ} 
    (hl : Line (activeRows db sessionId)) :
    let c := Call.claimNextPrompt sessionId token now
    c.run db = db ∧ c.claims db = [] ∨
    ∃ prompt l, activeRows db sessionId = prompt :: l ∧ c.claims db = [(sessionId, prompt.id)] ∧
      c.run db = db.updatePrompts (fun r => r.id = prompt.id ∧ r.state = .pending) fun r =>
        { r with
          state := .claimed, deliveryState := some .unsent, deliveryId := some token
          deliveryUpdatedAt := some now, claimToken := some token } := by
  simp only [Call.run, Call.claims, claimNextPrompt]
  split
  · exact Or.inl ⟨rfl, rfl⟩
  · rename_i prompt hnext
    obtain ⟨l, hrow⟩ := getNextQueuedPrompt_spec hl hnext
    split
    · exact Or.inl ⟨rfl, rfl⟩
    · exact Or.inr ⟨prompt, l, hrow, rfl, rfl⟩

/-- an update that keeps sessions and leaves active rows active. -/
theorem activeRows_map {db' : PromptQueueStore} {g : QueuedPrompt → QueuedPrompt} (s : String)
    (h : db'.prompts = db.prompts.map g) (hs : ∀ r ∈ db.prompts, (g r).sessionId = r.sessionId)
    (ha : ∀ r ∈ db.prompts, (g r).state.Active ↔ r.state.Active) :
    activeRows db' s = (activeRows db s).map g := by
  unfold activeRows
  rw [h, List.filter_map]
  congr 1
  refine List.filter_congr fun r hr => ?_
  simp only [Function.comp_apply, hs r hr, ha r hr]

theorem Inv.claimNextPrompt (hi : Inv h) {sessionId token : String} {now : ℕ} :
    Inv (h.after (.claimNextPrompt sessionId token now)) := by
  rcases claimNextPrompt_cases (hi.queue sessionId).toLine with
    ⟨hrun, hnew⟩ | ⟨prompt, l, hrow, hnew, hrun⟩
  · unfold History.after
    rw [hrun, hnew, List.append_nil]
    exact (List.append_nil h.enqueued).symm ▸ hi
  let g : QueuedPrompt → QueuedPrompt := fun r =>
    if r.id = prompt.id ∧ r.state = .pending then
      { r with
        state := .claimed, deliveryState := some .unsent, deliveryId := some token
        deliveryUpdatedAt := some now, claimToken := some token }
    else r
  have hdb : (h.after (.claimNextPrompt sessionId token now)).db.prompts = h.db.prompts.map g :=
    congrArg (·.prompts) hrun
  have henq : (h.after (.claimNextPrompt sessionId token now)).enqueued = h.enqueued :=
    List.append_nil _
  have hclaims : (h.after (.claimNextPrompt sessionId token now)).claims =
      h.claims ++ [(sessionId, prompt.id)] := congrArg _ hnew
  have hid : ∀ r, (g r).id = r.id := by
    intro r
    dsimp only [g]
    split <;> rfl
  have hrows : ∀ s, activeRows (h.after (.claimNextPrompt sessionId token now)).db s =
      (activeRows h.db s).map g := by
    refine fun s => activeRows_map s hdb (fun r _ => ?_) fun r _ => ?_
    · dsimp only [g]
      split <;> rfl
    · dsimp only [g]
      split
      · rename_i hp
        exact iff_of_true (Or.inr rfl) (Or.inl hp.2)
      · exact Iff.rfl
  have hmem : prompt ∈ activeRows h.db sessionId := hrow ▸ List.mem_cons_self
  have hbefore : ∀ a b, (h.after (.claimNextPrompt sessionId token now)).Before a b ↔
      h.Before a b := by
    intro a b
    unfold History.Before
    rw [henq]
  refine ⟨?_, ?_, fun s => ?_, ?_, ?_⟩
  · have hids : (h.db.prompts.map g).map (·.id) = h.db.prompts.map (·.id) := by
      rw [List.map_map]
      exact List.map_congr_left fun r _ => hid r
    rw [hdb, henq, hids]
    exact hi.ids
  · rw [henq]
    exact hi.nodup
  · -- only the first row of a queue is claimed
    rw [hrows]
    refine (hi.queue s).map (fun r _ => ?_) fun r hr hp => ?_
    · dsimp only [g]
      split <;> rfl
    · dsimp only [g]
      rw [if_neg]
      · exact hp
      rintro ⟨e, -⟩
      obtain ⟨hr', hs', -⟩ := mem_activeRows.mp (List.mem_of_mem_tail hr)
      obtain ⟨hprompt, hs, -⟩ := mem_activeRows.mp hmem
      obtain rfl : r = prompt := hi.primaryKey.eq hr' hprompt e
      obtain rfl : s = sessionId := hs'.symm.trans hs
      rw [hrow] at hr
      have hnd : ((activeRows h.db s).map (·.id)).Nodup := activeRows_ids hi.primaryKey
      rw [hrow] at hnd
      exact (List.nodup_cons.mp hnd).1 (List.mem_map_of_mem hr)
  · rw [hclaims, henq]
    intro c hc
    have hfirst : ∀ r' ∈ activeRows (h.after (.claimNextPrompt sessionId token now)).db c.1,
        ∃ r ∈ activeRows h.db c.1, r'.id = r.id := by
      intro r' hr'
      rw [hrows] at hr'
      obtain ⟨r, hr, rfl⟩ := List.mem_map.mp hr'
      exact ⟨r, hr, hid r⟩
    rcases List.mem_append.mp hc with hc | hc
    · refine ⟨(hi.claimed c hc).1, fun r' hr' => ?_⟩
      obtain ⟨r, hr, e⟩ := hfirst r' hr'
      rw [hbefore, e]
      exact (hi.claimed c hc).2 r hr
    · obtain rfl := List.mem_singleton.mp hc
      refine ⟨hi.ids.subset (List.mem_map_of_mem (mem_activeRows.mp hmem).1), fun r' hr' => ?_⟩
      obtain ⟨r, hr, e⟩ := hfirst r' hr'
      rw [hbefore, e]
      dsimp only at hr ⊢
      rw [hrow] at hr
      rcases List.mem_cons.mp hr with rfl | hr
      · exact le_rfl
      · have hsub : ((prompt :: l).map (·.id)).Sublist h.enqueued := by
          rw [← hrow]
          exact (List.filter_sublist.map _).trans hi.ids
        exact idxOf_le_of_sublist hi.nodup hsub (List.mem_map_of_mem hr)
  · rw [hclaims, List.pairwise_append]
    refine ⟨hi.fifo.imp fun hlt e => (hbefore _ _).mpr (hlt e), List.pairwise_singleton _ _, ?_⟩
    intro a ha b hb e
    obtain rfl := List.mem_singleton.mp hb
    rw [hbefore]
    exact (hi.claimed a ha).2 prompt (e ▸ hmem)

/-! ### moving a queue -/

/-- `rebindSession` throws: two active rows of the sessions have the same dedupe key. -/
def Collide (db : PromptQueueStore) (source target : String) : Prop :=
  ∃ r ∈ activeRows db source, ∃ r' ∈ activeRows db target,
    r.dedupeKey ≠ none ∧ r.dedupeKey = r'.dedupeKey

/-- the queue of `target` is empty, and what was claimed from it was enqueued earlier. -/
def History.Free (h : History) (source target : String) : Prop :=
  activeRows h.db target = [] ∧
    ∀ c ∈ h.claims, c.1 = target → ∀ r ∈ activeRows h.db source, h.Before c.2 r.id

/-- **The rebindings that do not merge two queues.** -/
def Call.Rebinds (h : History) : Call → Prop
  | rebindSession source target =>
    source = "" ∨ target = "" ∨ source = target ∨ activeRows h.db source = [] ∨
      Collide h.db source target ∨ h.Free source target
  | _ => True

theorem not_dedupeUnique {source target : String} (hk : PrimaryKey (·.id) db.prompts)
    (hne : source ≠ target) (hc : Collide db source target) :
    ¬DedupeUnique (db.updatePrompts (fun r => r.sessionId = source)
      fun r => { r with sessionId := target }).prompts := by
  obtain ⟨r, hr, r', hr', hkey, heq⟩ := hc
  obtain ⟨hmem, hs, ha⟩ := mem_activeRows.mp hr
  obtain ⟨hmem', hs', ha'⟩ := mem_activeRows.mp hr'
  intro hu
  have hmoved : { r with sessionId := target } ∈ (db.updatePrompts (fun r => r.sessionId = source)
      fun r => { r with sessionId := target }).prompts :=
    mem_update.mpr ⟨r, hmem, if_pos hs⟩
  have hstay : r' ∈ (db.updatePrompts (fun r => r.sessionId = source)
      fun r => { r with sessionId := target }).prompts :=
    mem_update_of_not hmem' fun e => hne (e.symm.trans hs')
  have hdiff : { r with sessionId := target } ≠ r' := by
    rintro rfl
    exact hne (hs.symm.trans ((congrArg (·.sessionId) (hk.eq hmem hmem' rfl)).trans hs'))
  have hsymm : Std.Symm fun a b : QueuedPrompt => ¬(a.sessionId = b.sessionId ∧
      a.dedupeKey ≠ none ∧ a.dedupeKey = b.dedupeKey ∧ a.state.Active ∧ b.state.Active) :=
    ⟨fun a b h ⟨h₁, h₂, h₃, h₄, h₅⟩ => h ⟨h₁.symm, h₃ ▸ h₂, h₃.symm, h₅, h₄⟩⟩
  exact List.Pairwise.forall hu hmoved hstay hdiff ⟨hs'.symm, hkey, heq, ha, ha'⟩

/-- the rows of the two sessions after a rebinding. -/
structure Moved (db db' : PromptQueueStore) (source target : String) : Prop where
  ids : db'.prompts.map (·.id) = db.prompts.map (·.id)
  left : activeRows db' source = []
  joined : activeRows db source = [] ∧ activeRows db' target = activeRows db target ∨
    activeRows db target = [] ∧ activeRows db' target =
      (activeRows db source).map fun r => { r with sessionId := target }
  other : ∀ s, s ≠ source → s ≠ target → activeRows db' s = activeRows db s

theorem moved_spec {source target : String} (hne : source ≠ target)
    (he : activeRows db source = [] ∨ activeRows db target = []) :
    Moved db (db.updatePrompts (fun r => r.sessionId = source)
      fun r => { r with sessionId := target }) source target := by
  let g : QueuedPrompt → QueuedPrompt := fun r =>
    if r.sessionId = source then { r with sessionId := target } else r
  have hg : ∀ r, (g r).state = r.state := by
    intro r
    dsimp only [g]
    split <;> rfl
  have hself : ∀ (s : String), s ≠ source → ∀ r ∈ activeRows db s, g r = r := by
    intro s hs r hr
    exact if_neg fun e => hs ((mem_activeRows.mp hr).2.1.symm.trans e)
  have hrows : ∀ s, activeRows (db.updatePrompts (fun r => r.sessionId = source)
      fun r => { r with sessionId := target }) s =
      (db.prompts.filter fun r => (g r).sessionId = s ∧ r.state.Active).map g := by
    intro s
    unfold activeRows
    show ((db.prompts.map g).filter _) = _
    rw [List.filter_map]
    congr 1
    refine List.filter_congr fun r _ => ?_
    simp only [Function.comp_apply, hg]
  have hsession : ∀ r, (g r).sessionId = if r.sessionId = source then target else r.sessionId := by
    intro r
    dsimp only [g]
    split <;> rfl
  -- the active rows that `target` has now are those of both sessions
  have hnone : ∀ s, activeRows db s = [] → ∀ r ∈ db.prompts, r.sessionId = s → ¬r.state.Active := by
    intro s h r hr hs ha
    have hmem := mem_activeRows.mpr ⟨hr, hs, ha⟩
    rw [h] at hmem
    exact List.not_mem_nil hmem
  refine ⟨?_, ?_, ?_, fun s hs ht => ?_⟩
  · exact map_update fun _ => rfl
  · rw [hrows, List.map_eq_nil_iff, List.filter_eq_nil_iff]
    intro r _ h
    have h := (of_decide_eq_true h).1
    rw [hsession] at h
    split at h
    · exact hne h.symm
    · exact absurd h ‹_›
  · rcases he with he | he
    · refine Or.inl ⟨he, ?_⟩
      rw [hrows]
      have hf : (db.prompts.filter fun r => (g r).sessionId = target ∧ r.state.Active) =
          activeRows db target := by
        refine List.filter_congr fun r hr => ?_
        rw [hsession]
        by_cases e : r.sessionId = source
        · simp [hnone source he r hr e]
        · simp [e]
      rw [hf]
      exact (List.map_congr_left (hself target hne.symm)).trans (List.map_id' _)
    · refine Or.inr ⟨he, ?_⟩
      rw [hrows]
      have hf : (db.prompts.filter fun r => (g r).sessionId = target ∧ r.state.Active) =
          activeRows db source := by
        refine List.filter_congr fun r hr => ?_
        rw [hsession]
        by_cases e : r.sessionId = source
        · simp [e]
        · by_cases e' : r.sessionId = target
          · simp [hnone target he r hr e']
          · simp [e, e']
      rw [hf]
      exact List.map_congr_left fun r hr => if_pos (mem_activeRows.mp hr).2.1
  · rw [hrows]
    have hf : (db.prompts.filter fun r => (g r).sessionId = s ∧ r.state.Active) =
        activeRows db s := by
      refine List.filter_congr fun r _ => ?_
      rw [hsession]
      by_cases e : r.sessionId = source
      · simp [e, ht.symm, hs.symm]
      · simp [e]
    rw [hf]
    exact (List.map_congr_left (hself s hs)).trans (List.map_id' _)

theorem Inv.rebindSession (hi : Inv h) {source target : String}
    (hc : (Call.rebindSession source target).Rebinds h) :
    Inv (h.after (.rebindSession source target)) := by
  have hstay : (h.db.rebindSession source target).2 = h.db →
      Inv (h.after (.rebindSession source target)) := by
    intro e
    have hafter : h.after (.rebindSession source target) = h := by
      unfold History.after
      simp only [Call.run, Call.enqueues, Call.claims, e, List.append_nil]
    rw [hafter]
    exact hi
  by_cases htriv : source = "" ∨ target = "" ∨ source = target
  · exact hstay (by rw [PromptQueueStore.rebindSession, if_pos htriv])
  have hne : source ≠ target := fun e => htriv (Or.inr (Or.inr e))
  by_cases hu : DedupeUnique (h.db.updatePrompts (fun r => r.sessionId = source)
      fun r => { r with sessionId := target }).prompts
  swap
  · refine hstay ?_
    rw [PromptQueueStore.rebindSession, if_neg htriv]
    dsimp only
    rw [if_neg hu]
  have hfree : activeRows h.db source = [] ∨ h.Free source target := by
    rcases hc with e | e | e | e | e | e
    · exact absurd (Or.inl e) htriv
    · exact absurd (Or.inr (Or.inl e)) htriv
    · exact absurd e hne
    · exact Or.inl e
    · exact absurd hu (not_dedupeUnique hi.primaryKey hne e)
    · exact Or.inr e
  have hrun : (Call.rebindSession source target).run h.db =
      h.db.updatePrompts (fun r => r.sessionId = source)
        fun r => { r with sessionId := target } := by
    rw [Call.run, PromptQueueStore.rebindSession, if_neg htriv]
    dsimp only
    rw [if_pos hu]
  have hm : Moved h.db ((Call.rebindSession source target).run h.db) source target :=
    hrun ▸ moved_spec hne (hfree.imp_right And.left)
  have henq : (h.after (.rebindSession source target)).enqueued = h.enqueued := List.append_nil _
  have hclaims : (h.after (.rebindSession source target)).claims = h.claims := List.append_nil _
  have hbefore : ∀ a b, (h.after (.rebindSession source target)).Before a b ↔ h.Before a b := by
    intro a b
    unfold History.Before
    rw [henq]
  refine ⟨?_, henq ▸ hi.nodup, fun s => ?_, ?_, ?_⟩
  · rw [henq]
    exact hm.ids.symm ▸ hi.ids
  · by_cases hs : s = source
    · show Queue (activeRows ((Call.rebindSession source target).run h.db) s)
      rw [hs, hm.left]
      exact Queue.nil
    by_cases ht : s = target
    · subst ht
      rcases hm.joined with ⟨-, e⟩ | ⟨-, e⟩
      · exact e.symm ▸ hi.queue s
      · exact e.symm ▸ (hi.queue source).map (fun _ _ => rfl) fun _ _ hp => hp
    · exact (hm.other s hs ht).symm ▸ hi.queue s
  · rw [hclaims, henq]
    refine fun c hc => ⟨(hi.claimed c hc).1, fun r hr => (hbefore _ _).mpr ?_⟩
    change r ∈ activeRows ((Call.rebindSession source target).run h.db) c.1 at hr
    by_cases hs : c.1 = source
    · rw [hs, hm.left] at hr
      exact absurd hr List.not_mem_nil
    by_cases ht : c.1 = target
    · rw [ht] at hr
      rcases hm.joined with ⟨-, e⟩ | ⟨-, e⟩
      · rw [e, ← ht] at hr
        exact (hi.claimed c hc).2 r hr
      · rw [e] at hr
        obtain ⟨r₁, hr₁, rfl⟩ := List.mem_map.mp hr
        rcases hfree with hempty | hfree
        · rw [hempty] at hr₁
          exact absurd hr₁ List.not_mem_nil
        · exact hfree.2 c hc ht r₁ hr₁
    · rw [hm.other _ hs ht] at hr
      exact (hi.claimed c hc).2 r hr
  · rw [hclaims]
    exact hi.fifo.imp fun hlt e => (hbefore _ _).mpr (hlt e)

/-! ### runs -/

theorem foldl_pruneHistory (sessions : List String) (now : ℕ) (db : PromptQueueStore)
    (hq : ∀ s, Queue (activeRows db s)) : Settled db
      (sessions.foldl (fun db sessionId => db.pruneHistory sessionId now) db) := by
  induction sessions generalizing db with
  | nil => exact Settled.refl hq
  | cons s sessions ih =>
    have h : Settled db (db.pruneHistory s now) := pruneHistory_settled hq
    exact h.trans (ih _ h.queue)

/-- **The step lemma.** -/
theorem Inv.after (hi : Inv h) (c : Call) (hf : c.Fresh h) (hc : c.Rebinds h) : Inv (h.after c) := by
  have hk := hi.primaryKey
  have hq := hi.queue
  -- the calls that neither enqueue nor claim a prompt
  have other : ∀ c : Call, c.enqueues h.db = [] → c.claims h.db = [] →
      Settled h.db (c.run h.db) → Inv (h.after c) := by
    intro c he hc hs
    have e : h.after c = { h with db := c.run h.db } := by
      unfold History.after
      rw [he, hc, List.append_nil, List.append_nil]
    rw [e]
    exact hi.settled hs
  cases c with
  | addPrompt => exact hi.addPrompt hf
  | claimNextPrompt => exact hi.claimNextPrompt
  | rebindSession => exact hi.rebindSession hc
  | getSessionQueue => exact other _ rfl rfl (pruneHistory_settled hq)
  | updatePromptContent => exact other _ rfl rfl (updatePromptContent_settled hq)
  | deletePromptById => exact other _ rfl rfl (deletePromptById_settled hk hq)
  | removeNextPrompt => exact other _ rfl rfl (removeNextPrompt_settled hk hq)
  | clearSessionQueue => exact other _ rfl rfl (clearSessionQueue_settled hq)
  | supersedeDedicatedPending => exact other _ rfl rfl (supersedeDedicatedPending_settled hq)
  | retireForFreshHumanTrigger => exact other _ rfl rfl (retireForFreshHumanTrigger_settled hk hq)
  | deletePromptsByType => exact other _ rfl rfl (deletePromptsByType_settled hk hq)
  | acknowledgePrompt => exact other _ rfl rfl (acknowledgePrompt_settled hk hq)
  | recordClaimAcceptance => exact other _ rfl rfl (recordClaimAcceptance_settled hq)
  | completeClaim => exact other _ rfl rfl (completeClaim_settled hk hq)
  | releaseRejectedClaim => exact other _ rfl rfl (releaseRejectedClaim_settled hq)
  | markClaimSending => exact other _ rfl rfl (markClaimSending_settled hq)
  | reconcileClaim => exact other _ rfl rfl (reconcileClaim_settled hk hq)
  | reopen => exact other _ rfl rfl (foldl_pruneHistory _ _ _ hq)

theorem Inv.empty : Inv {} := by
  refine ⟨List.Sublist.refl _, List.nodup_nil, fun s => Queue.nil, ?_, List.Pairwise.nil⟩
  exact fun c hc => absurd hc List.not_mem_nil

/-- a step whose rebinding, if it is one, does not merge two queues. -/
def StepApart (h h' : History) : Prop :=
  ∃ c : Call, c.Fresh h ∧ c.Rebinds h ∧ h.after c = h'

/-- **A rebinding that merges two queues breaks their order**: both begin with 1. -/
theorem merge_not_ordered (hi : Inv h) {source target : String} (hs : source ≠ "")
    (ht : target ≠ "") (hne : source ≠ target)
    (hsource : activeRows h.db source ≠ []) (htarget : activeRows h.db target ≠ [])
    (hu : DedupeUnique (h.db.updatePrompts (fun r => r.sessionId = source)
      fun r => { r with sessionId := target }).prompts) :
    ¬Ordered (h.after (.rebindSession source target)) := by
  have hfirst : ∀ s, activeRows h.db s ≠ [] → ∃ r ∈ activeRows h.db s, r.order = 1 := by
    intro s hq
    obtain ⟨r, l, e⟩ := List.exists_cons_of_ne_nil hq
    have hn := (hi.queue s).numbered
    rw [e] at hn
    exact ⟨r, e ▸ List.mem_cons_self, (List.cons.inj hn).1⟩
  obtain ⟨r, hr, hr₁⟩ := hfirst source hsource
  obtain ⟨r', hr', hr₁'⟩ := hfirst target htarget
  obtain ⟨hmem, hrs, ha⟩ := mem_activeRows.mp hr
  obtain ⟨hmem', hrs', ha'⟩ := mem_activeRows.mp hr'
  have hrun : (h.after (.rebindSession source target)).db =
      h.db.updatePrompts (fun r => r.sessionId = source)
        fun r => { r with sessionId := target } := by
    show (h.db.rebindSession source target).2 = _
    rw [PromptQueueStore.rebindSession, if_neg (by simp [hs, ht, hne])]
    dsimp only
    rw [if_pos hu]
  intro ho
  have hnd := ho.orders target
  rw [hrun] at hnd
  have hx : { r with sessionId := target } ∈ activeRows (h.db.updatePrompts
      (fun r => r.sessionId = source) fun r => { r with sessionId := target }) target :=
    mem_activeRows.mpr ⟨mem_update.mpr ⟨r, hmem, if_pos hrs⟩, rfl, ha⟩
  have hx' : r' ∈ activeRows (h.db.updatePrompts
      (fun r => r.sessionId = source) fun r => { r with sessionId := target }) target :=
    mem_activeRows.mpr ⟨mem_update_of_not hmem' fun e => hne (e.symm.trans hrs'), hrs', ha'⟩
  have heq := List.inj_on_of_nodup_map hnd hx hx' (hr₁.trans hr₁'.symm)
  have hid : r.id = r'.id := congrArg (·.id) heq
  exact hne (hrs.symm.trans ((congrArg (·.sessionId) (hi.primaryKey.eq hmem hmem' hid)).trans hrs'))

end Histories

/-- **Order and capacity** in every run whose rebindings do not merge two queues. -/
theorem queue_order {h : History} (hr : Relation.ReflTransGen StepApart {} h) : Ordered h := by
  have hi : Inv h := by
    induction hr with
    | refl => exact Inv.empty
    | tail _ hstep ih =>
      obtain ⟨c, hf, hc, rfl⟩ := hstep
      exact ih.after c hf hc
  exact hi.ordered

/-- the first prompt of a queue is claimed, and the queue moves to a session whose own is empty. -/
theorem queue_order_moved : Ordered ((((({} : History).after
    (.addPrompt "a" { content := "one" } "1" 0)).after
    (.addPrompt "a" { content := "two" } "2" 0)).after (.claimNextPrompt "a" "t" 0)).after
    (.rebindSession "a" "b")) := by
  let h₁ : History := ({} : History).after (.addPrompt "a" { content := "one" } "1" 0)
  let h₂ := h₁.after (.addPrompt "a" { content := "two" } "2" 0)
  let h₃ := h₂.after (.claimNextPrompt "a" "t" 0)
  have s₁ : StepApart {} h₁ :=
    ⟨.addPrompt "a" { content := "one" } "1" 0, List.not_mem_nil, trivial, rfl⟩
  have s₂ : StepApart h₁ h₂ := by
    have hf : "2" ∉ h₁.enqueued := by decide +kernel
    exact ⟨.addPrompt "a" { content := "two" } "2" 0, hf, trivial, rfl⟩
  have s₃ : StepApart h₂ h₃ := ⟨.claimNextPrompt "a" "t" 0, trivial, trivial, rfl⟩
  have s₄ : StepApart h₃ (h₃.after (.rebindSession "a" "b")) := by
    have hempty : (activeRows h₃.db "b").map (·.id) = [] := by decide +kernel
    have hclaims : ∀ c ∈ h₃.claims, c.1 ≠ "b" := by decide +kernel
    have hfree : h₃.Free "a" "b" :=
      ⟨List.map_eq_nil_iff.mp hempty, fun c hc e => absurd e (hclaims c hc)⟩
    exact ⟨.rebindSession "a" "b", trivial,
      Or.inr (Or.inr (Or.inr (Or.inr (Or.inr hfree)))), rfl⟩
  exact queue_order ((((Relation.ReflTransGen.refl.tail s₁).tail s₂).tail s₃).tail s₄)

/-- Two queues of one prompt each become one queue with two prompts of order 1. -/
theorem queue_order_fails : ¬∀ h, Relation.ReflTransGen Step {} h → Ordered h := by
  intro hall
  let h₁ : History := ({} : History).after (.addPrompt "a" { content := "one" } "1" 0)
  let h₂ := h₁.after (.addPrompt "b" { content := "two" } "2" 0)
  let h₃ := h₂.after (.rebindSession "a" "b")
  have s₁ : Step {} h₁ := ⟨.addPrompt "a" { content := "one" } "1" 0, List.not_mem_nil, rfl⟩
  have s₂ : Step h₁ h₂ := by
    have hf : "2" ∉ h₁.enqueued := by decide +kernel
    exact ⟨.addPrompt "b" { content := "two" } "2" 0, hf, rfl⟩
  have s₃ : Step h₂ h₃ := ⟨.rebindSession "a" "b", trivial, rfl⟩
  have ho := hall _ (((Relation.ReflTransGen.refl.tail s₁).tail s₂).tail s₃)
  have horders : ¬((activeRows h₃.db "b").map (·.order)).Nodup := by decide +kernel
  exact horders (ho.orders "b")

end Fifo
end PromptQueue
end WmAutopilot
