import WmAutopilot.SessionDispatch.DispatchStore
import WmAutopilot.Storage.PromptQueueLines

/-!
# The cutoffs of the work of a session

A fresh human trigger retires the work of a session: its queued prompts, and the callbacks that have
arrived.

* `newTriggers`        the triggers of a history that were not taken before, each once;
* `Entry`, `enter`     the ledger of the cutoffs, whose generations count the new triggers;
* `QueueCall`, `DispatchCall`   what happens to the two stores: new work, and triggers;
* `Kept`, `Housekept`  what the numbering of a queue leaves of its rows;
* `QueueCutoffs`, `DispatchCutoffs`   what is expected of a history of the one and the other;
* `fresh_human_cutoff` **a trigger that comes again retires nothing, and generations count the
                       triggers**;
* `again_fails`        a trigger that comes again a week later ends old history.
-/

set_option autoImplicit false
set_option linter.unusedVariables false

namespace WmAutopilot
namespace SessionWork
open Js Sql

/-! ## triggers -/

/-- the triggers that were not taken before, each once. -/
def newTriggers : List String → List String → List String
  | _, [] => []
  | taken, trigger :: triggers =>
    if trigger ∈ taken then newTriggers taken triggers
    else trigger :: newTriggers (trigger :: taken) triggers

/-- only what was taken matters. -/
theorem newTriggers_congr {taken taken' triggers : List String}
    (h : ∀ trigger, trigger ∈ taken ↔ trigger ∈ taken') :
    newTriggers taken triggers = newTriggers taken' triggers := by
  induction triggers generalizing taken taken' with
  | nil => rfl
  | cons first rest ih =>
    unfold newTriggers
    by_cases hfirst : first ∈ taken
    · rw [if_pos hfirst, if_pos ((h first).mp hfirst), ih h]
    · rw [if_neg hfirst, if_neg fun hmem => hfirst ((h first).mpr hmem)]
      congr 1
      refine ih fun trigger => ?_
      rw [List.mem_cons, List.mem_cons, h]

/-- the largest key of a table with one row more. -/
theorem maximum_append {ρ : Type} {p : ρ → Prop} [DecidablePred p] {key : ρ → ℕ} {rows : List ρ}
    {row : ρ} : maximum p key (rows ++ [row]) =
      if p row then max (maximum p key rows) (key row) else maximum p key rows := by
  have hfoldr : ∀ (keys : List ℕ) (n : ℕ), (keys ++ [n]).foldr max 0 = max (keys.foldr max 0) n := by
    intro keys n
    induction keys with
    | nil => exact Nat.max_comm n 0
    | cons first rest ih => rw [List.cons_append, List.foldr_cons, ih, List.foldr_cons, max_assoc]
  unfold maximum
  rw [List.filter_append]
  split
  · next hp =>
    have hrow : [row].filter (fun r => decide (p r)) = [row] :=
      List.filter_cons_of_pos (decide_eq_true hp)
    rw [hrow, List.map_append]
    exact hfoldr _ _
  · next hp =>
    have hrow : [row].filter (fun r => decide (p r)) = [] :=
      List.filter_cons_of_neg fun h => hp (of_decide_eq_true h)
    rw [hrow, List.append_nil]

/-! ## the ledger of the cutoffs -/

/-- a cutoff that was taken. -/
structure Entry where
  sessionId : String
  triggerId : String
  generation : ℕ
  deriving DecidableEq

/-- the triggers of a session that were taken. -/
def triggersOf (ledger : List Entry) (s : String) : List String :=
  (ledger.filter (·.sessionId = s)).map (·.triggerId)

def generationOf (ledger : List Entry) (s : String) : ℕ :=
  maximum (·.sessionId = s) (·.generation) ledger

/-- the ledger of a table. -/
def ledgerOf {ρ : Type} (inScope : ρ → Prop) [DecidablePred inScope] (entry : ρ → Entry)
    (rows : List ρ) : List Entry := (rows.filter fun row => inScope row).map entry

/-- A trigger that a session is brought: the first time, it is entered under the next generation. -/
def enter (ledger : List Entry) (brought : String × String) : List Entry :=
  if brought.2 ∈ triggersOf ledger brought.1 then ledger
  else ledger ++ [⟨brought.1, brought.2, generationOf ledger brought.1 + 1⟩]

/-- the triggers that are brought to a session. -/
def broughtTo (s : String) (brought : List (String × String)) : List String :=
  (brought.filter (·.1 = s)).map (·.2)

section
variable {ledger : List Entry} {brought : String × String} {s t : String}

theorem broughtTo_cons (first : String × String) (rest : List (String × String)) :
    broughtTo s (first :: rest) =
      if first.1 = s then first.2 :: broughtTo s rest else broughtTo s rest := by
  unfold broughtTo
  rw [List.filter_cons]
  simp only [decide_eq_true_iff]
  split <;> rfl

theorem mem_triggersOf :
    t ∈ triggersOf ledger s ↔ ∃ e ∈ ledger, e.sessionId = s ∧ e.triggerId = t := by
  unfold triggersOf
  rw [List.mem_map]
  refine exists_congr fun e => ?_
  rw [List.mem_filter, decide_eq_true_iff, and_assoc]

theorem mem_triggersOf_table {ρ : Type} {inScope : ρ → Prop} [DecidablePred inScope]
    {entry : ρ → Entry} {rows : List ρ} : t ∈ triggersOf (ledgerOf inScope entry rows) s ↔
      ∃ row ∈ rows, inScope row ∧ (entry row).sessionId = s ∧ (entry row).triggerId = t := by
  rw [mem_triggersOf]
  constructor
  · rintro ⟨e, he, hkey⟩
    obtain ⟨row, hrow, rfl⟩ := List.mem_map.mp he
    obtain ⟨hrow, hscope⟩ := List.mem_filter.mp hrow
    exact ⟨row, hrow, of_decide_eq_true hscope, hkey⟩
  · rintro ⟨row, hrow, hscope, hkey⟩
    exact ⟨entry row, List.mem_map_of_mem (List.mem_filter.mpr ⟨hrow, decide_eq_true hscope⟩), hkey⟩

/-- the largest generation of a session in a table. -/
theorem generationOf_table {ρ : Type} {inScope : ρ → Prop} [DecidablePred inScope]
    {entry : ρ → Entry} {rows : List ρ} : generationOf (ledgerOf inScope entry rows) s =
      maximum (fun row => inScope row ∧ (entry row).sessionId = s)
        (fun row => (entry row).generation) rows := by
  unfold generationOf ledgerOf maximum
  rw [List.filter_map, List.map_map, List.filter_filter]
  congr 3
  funext row
  rw [Bool.and_comm, Bool.decide_and]
  rfl

/-- a row that is inserted. -/
theorem ledgerOf_append {ρ : Type} {inScope : ρ → Prop} [DecidablePred inScope]
    {entry : ρ → Entry} {rows : List ρ} {row : ρ} (h : inScope row) :
    ledgerOf inScope entry (rows ++ [row]) = ledgerOf inScope entry rows ++ [entry row] := by
  have hrow : [row].filter (fun r => decide (inScope r)) = [row] :=
    List.filter_cons_of_pos (decide_eq_true h)
  unfold ledgerOf
  rw [List.filter_append, hrow, List.map_append]
  rfl

theorem enter_old (h : brought.2 ∈ triggersOf ledger brought.1) : enter ledger brought = ledger :=
  if_pos h

theorem enter_new (h : brought.2 ∉ triggersOf ledger brought.1) : enter ledger brought =
    ledger ++ [⟨brought.1, brought.2, generationOf ledger brought.1 + 1⟩] := if_neg h

theorem mem_triggersOf_enter : t ∈ triggersOf (enter ledger brought) s ↔
    brought.1 = s ∧ brought.2 = t ∨ t ∈ triggersOf ledger s := by
  by_cases hmem : brought.2 ∈ triggersOf ledger brought.1
  · rw [enter_old hmem]
    refine (or_iff_right_of_imp ?_).symm
    rintro ⟨rfl, rfl⟩
    exact hmem
  · rw [enter_new hmem, mem_triggersOf, mem_triggersOf]
    constructor
    · rintro ⟨e, he, hsession, htrigger⟩
      rcases List.mem_append.mp he with hold | hnew
      · exact .inr ⟨e, hold, hsession, htrigger⟩
      · obtain rfl := List.mem_singleton.mp hnew
        exact .inl ⟨hsession, htrigger⟩
    · rintro (⟨hsession, htrigger⟩ | ⟨e, he, hkey⟩)
      · exact ⟨_, List.mem_append_right _ List.mem_cons_self, hsession, htrigger⟩
      · exact ⟨e, List.mem_append_left _ he, hkey⟩

/-- the generation of another session stays. -/
theorem generationOf_enter_ne (h : brought.1 ≠ s) :
    generationOf (enter ledger brought) s = generationOf ledger s := by
  by_cases hmem : brought.2 ∈ triggersOf ledger brought.1
  · rw [enter_old hmem]
  · rw [enter_new hmem]
    unfold generationOf
    rw [maximum_append, if_neg h]

/-- a new trigger raises the generation of its session by one. -/
theorem generationOf_enter_new (h : brought.2 ∉ triggersOf ledger brought.1) :
    generationOf (enter ledger brought) brought.1 = generationOf ledger brought.1 + 1 := by
  rw [enter_new h]
  unfold generationOf
  rw [maximum_append, if_pos rfl]
  exact Nat.max_eq_right (Nat.le_succ _)

/-- the triggers that were brought are taken. -/
theorem mem_triggersOf_foldl (ledger : List Entry) (history : List (String × String)) :
    t ∈ triggersOf (history.foldl enter ledger) s ↔
      t ∈ broughtTo s history ∨ t ∈ triggersOf ledger s := by
  induction history generalizing ledger with
  | nil => exact (or_iff_right List.not_mem_nil).symm
  | cons first rest ih =>
    have hfirst : t ∈ broughtTo s (first :: rest) ↔
        first.1 = s ∧ first.2 = t ∨ t ∈ broughtTo s rest := by
      rw [broughtTo_cons]
      by_cases hs : first.1 = s
      · rw [if_pos hs, List.mem_cons, and_iff_right hs, eq_comm]
      · rw [if_neg hs]
        exact (or_iff_right fun h => hs h.1).symm
    rw [List.foldl_cons, ih, mem_triggersOf_enter, hfirst, or_assoc, or_left_comm]

/-- **The generation of a session counts its triggers**, each once. -/
theorem generationOf_foldl (ledger : List Entry) (history : List (String × String)) :
    generationOf (history.foldl enter ledger) s =
      generationOf ledger s + (newTriggers (triggersOf ledger s) (broughtTo s history)).length := by
  induction history generalizing ledger with
  | nil => rfl
  | cons first rest ih =>
    rw [List.foldl_cons, ih, broughtTo_cons]
    by_cases hs : first.1 = s
    · subst hs
      rw [if_pos rfl]
      conv_rhs => unfold newTriggers
      by_cases hmem : first.2 ∈ triggersOf ledger first.1
      · rw [if_pos hmem, enter_old hmem]
      · have hnext : ∀ t, t ∈ triggersOf (enter ledger first) first.1 ↔
            t ∈ first.2 :: triggersOf ledger first.1 := by
          intro t
          rw [mem_triggersOf_enter, List.mem_cons, and_iff_right rfl, eq_comm]
        rw [if_neg hmem, newTriggers_congr hnext, generationOf_enter_new hmem, List.length_cons]
        omega
    · have hsame : ∀ t, t ∈ triggersOf (enter ledger first) s ↔ t ∈ triggersOf ledger s := by
        intro t
        rw [mem_triggersOf_enter]
        exact or_iff_right fun h => hs h.1
      rw [if_neg hs, newTriggers_congr hsame, generationOf_enter_ne hs]

end

/-! ## the prompt queue -/

section Prompts
open PromptQueue PromptQueueStore

/-- What happens to the prompt queue. -/
inductive QueueCall where
  | addPrompt (sessionId : String) (input : QueuedPromptInput) (id : String) (now : ℕ)
  | retire (sessionId triggerId : String) (snapshot : Option (List (String × ℕ))) (now : ℕ)

def QueueCall.run (db : PromptQueueStore) : QueueCall → PromptQueueStore
  | addPrompt sessionId input id now => (db.addPrompt sessionId input id now).2
  | retire sessionId triggerId snapshot now =>
    db.retireForFreshHumanTrigger sessionId triggerId snapshot now

/-- the trigger that a call brings, and the session that it comes to. -/
def QueueCall.brings : QueueCall → Option (String × String)
  | addPrompt .. => none
  | retire sessionId triggerId _ _ => some (sessionId, triggerId)

/-- the cutoffs of the prompt queue. -/
def queueLedger (db : PromptQueueStore) : List Entry :=
  ledgerOf (fun c : PromptQueue.Cutoff => c.scope = "prompts")
    (fun c => ⟨c.sessionId, c.triggerId, c.generation⟩) db.cutoffs

/-- the triggers of a session that were taken. -/
def queueTriggers (db : PromptQueueStore) (s : String) : List String :=
  triggersOf (queueLedger db) s

/-- What the numbering of a queue leaves of a row: its place, and the content of a row that has
ended, may change. -/
structure Kept (r r' : QueuedPrompt) : Prop where
  same : ∃ order content payload, r' = { r with order, content, payload }
  active : r.state.Active → r'.content = r.content ∧ r'.payload = r.payload

/-- What the numbering of a queue does: no cutoff is added, no row changes its state, and no active
row is lost. -/
structure Housekept (db db' : PromptQueueStore) : Prop where
  cutoffs : db'.cutoffs = db.cutoffs
  rows : ∀ r' ∈ db'.prompts, ∃ r ∈ db.prompts, Kept r r'
  active : ∀ r ∈ db.prompts, r.state.Active → ∃ r' ∈ db'.prompts, Kept r r'

/-- A row that a trigger leaves or retires: it retires the first time it comes, an active row of its
session. -/
structure Retires (db : PromptQueueStore) (sessionId triggerId : String) (r r' : QueuedPrompt) :
    Prop where
  id : r'.id = r.id
  rowid : r'.rowid = r.rowid
  state : r'.state = r.state ∨ triggerId ∉ queueTriggers db sessionId ∧
    r.sessionId = sessionId ∧ r.state.Active ∧ r'.state = .superseded

/-- What is expected of a history of the prompt queue. -/
structure QueueCutoffs (db : PromptQueueStore) (calls : List QueueCall) : Prop where
  /-- a trigger that was taken stays taken. -/
  taken : ∀ s t, t ∈ queueTriggers (calls.foldl QueueCall.run db) s ↔
    t ∈ broughtTo s (calls.filterMap QueueCall.brings) ∨ t ∈ queueTriggers db s
  /-- when it comes again, the queue is only numbered, as after every change. -/
  again : ∀ s t snapshot now, t ∈ queueTriggers (calls.foldl QueueCall.run db) s →
    (calls.foldl QueueCall.run db).retireForFreshHumanTrigger s t snapshot now =
      (calls.foldl QueueCall.run db).reorderQueue s now
  /-- and that keeps the cutoffs, the states and the active rows. -/
  numbered : ∀ s now, Housekept (calls.foldl QueueCall.run db)
    ((calls.foldl QueueCall.run db).reorderQueue s now)
  /-- a trigger retires rows that the queue has when it is taken. -/
  retires : ∀ s t snapshot now,
    ∀ r' ∈ ((calls.foldl QueueCall.run db).retireForFreshHumanTrigger s t snapshot now).prompts,
      ∃ r ∈ (calls.foldl QueueCall.run db).prompts,
        Retires (calls.foldl QueueCall.run db) s t r r'
  /-- the generation counts the triggers. -/
  counts : ∀ s, (calls.foldl QueueCall.run db).sessionWorkGeneration "prompts" s =
    db.sessionWorkGeneration "prompts" s +
      (newTriggers (queueTriggers db s) (broughtTo s (calls.filterMap QueueCall.brings))).length

section
variable {db db' db'' : PromptQueueStore} {s t sessionId : String} {now : ℕ}
  {snapshot : Option (List (String × ℕ))} {r r' r'' : QueuedPrompt}

theorem Kept.refl (r : QueuedPrompt) : Kept r r :=
  ⟨⟨r.order, r.content, r.payload, rfl⟩, fun _ => ⟨rfl, rfl⟩⟩

theorem Kept.state (h : Kept r r') : r'.state = r.state := by
  obtain ⟨order, content, payload, rfl⟩ := h.same
  rfl

theorem Kept.trans (h : Kept r r') (h' : Kept r' r'') : Kept r r'' where
  same := by
    obtain ⟨order, content, payload, rfl⟩ := h.same
    obtain ⟨order', content', payload', rfl⟩ := h'.same
    exact ⟨order', content', payload', rfl⟩
  active hactive := by
    obtain ⟨hcontent, hpayload⟩ := h.active hactive
    have hactive' : r'.state.Active := by
      rw [h.state]
      exact hactive
    obtain ⟨hcontent', hpayload'⟩ := h'.active hactive'
    exact ⟨hcontent'.trans hcontent, hpayload'.trans hpayload⟩

theorem Housekept.refl (db : PromptQueueStore) : Housekept db db :=
  ⟨rfl, fun r hr => ⟨r, hr, .refl r⟩, fun r hr _ => ⟨r, hr, .refl r⟩⟩

theorem Housekept.trans (h : Housekept db db') (h' : Housekept db' db'') : Housekept db db'' where
  cutoffs := h'.cutoffs.trans h.cutoffs
  rows r'' hr'' := by
    obtain ⟨r', hr', hkept'⟩ := h'.rows r'' hr''
    obtain ⟨r, hr, hkept⟩ := h.rows r' hr'
    exact ⟨r, hr, hkept.trans hkept'⟩
  active r hr hactive := by
    obtain ⟨r', hr', hkept⟩ := h.active r hr hactive
    obtain ⟨r'', hr'', hkept'⟩ := h'.active r' hr' (hkept.state ▸ hactive)
    exact ⟨r'', hr'', hkept.trans hkept'⟩

/-- rows that are changed in what may change. -/
theorem Housekept.updatePrompts {p : QueuedPrompt → Prop} [DecidablePred p]
    {f : QueuedPrompt → QueuedPrompt} (hf : ∀ r, p r → Kept r (f r)) :
    Housekept db (db.updatePrompts p f) := by
  have hkept : ∀ r, Kept r (if p r then f r else r) := by
    intro r
    split
    · next hp => exact hf r hp
    · exact .refl r
  refine ⟨rfl, fun r' hr' => ?_, fun r hr _ => ⟨_, List.mem_map_of_mem hr, hkept r⟩⟩
  obtain ⟨r, hr, rfl⟩ := mem_update.mp hr'
  exact ⟨r, hr, hkept r⟩

/-- old history is removed. -/
theorem Housekept.deletePrompts {p : QueuedPrompt → Prop} [DecidablePred p]
    (hp : ∀ r, p r → ¬r.state.Active) : Housekept db (db.deletePrompts p) where
  cutoffs := rfl
  rows r hr := ⟨r, List.mem_of_mem_filter hr, .refl r⟩
  active r hr hactive :=
    ⟨r, List.mem_filter.mpr ⟨hr, decide_eq_true fun h => hp r h hactive⟩, .refl r⟩

theorem housekept_pruneHistory : Housekept db (db.pruneHistory sessionId now) := by
  let kept := db.deletePrompts fun r => r.sessionId = sessionId ∧ r.state.Terminal ∧
    (terminalTime r < now - retryWindow ∨ r.id ∉ db.recentTerminal sessionId 1000)
  let scrubbed := kept.updatePrompts (fun r => r.sessionId = sessionId ∧ r.state.Terminal ∧
      r.content ≠ "" ∧ r.id ∉ kept.recentTerminal sessionId 100)
    fun r => { r with content := "", payload := none }
  have hkept : Housekept db kept := .deletePrompts fun r h => Fifo.not_active h.2.1
  have hscrubbed : Housekept kept scrubbed := by
    refine .updatePrompts fun r h => ⟨⟨r.order, "", none, rfl⟩, fun hactive => ?_⟩
    exact absurd hactive (Fifo.not_active h.2.1)
  have hpruned := hkept.trans hscrubbed
  exact ⟨hpruned.cutoffs, hpruned.rows, hpruned.active⟩

/-- numbering the rows of a list. -/
theorem housekept_number (l : List (QueuedPrompt × ℕ)) :
    Housekept db (l.foldl Fifo.number db) := by
  induction l generalizing db with
  | nil => exact .refl db
  | cons x l ih =>
    refine Housekept.trans ?_ ih
    unfold Fifo.number
    split
    · refine .updatePrompts fun r _ => ⟨⟨x.2 + 1, r.content, r.payload, rfl⟩, fun _ => ⟨rfl, rfl⟩⟩
    · exact .refl db

/-- **A queue that is numbered again** keeps its rows. -/
theorem housekept_reorderQueue : Housekept db (db.reorderQueue sessionId now) :=
  housekept_pruneHistory.trans (housekept_number _)

/-- the generation of the store is that of the ledger. -/
theorem sessionWorkGeneration_eq :
    db.sessionWorkGeneration "prompts" s = generationOf (queueLedger db) s := by
  unfold queueLedger
  rw [generationOf_table]
  rfl

theorem queueLedger_congr (h : db'.cutoffs = db.cutoffs) : queueLedger db' = queueLedger db := by
  unfold queueLedger
  rw [h]

/-- the row of `session_work_cutoffs` that a new trigger adds. -/
def newCutoff (db : PromptQueueStore) (sessionId triggerId : String) (now : ℕ) :
    PromptQueue.Cutoff :=
  { scope := "prompts", sessionId, triggerId, generation := db.sessionWorkGeneration "prompts" sessionId + 1
    rowCutoff := db.maxRowid, createdAt := now }

/-- the rows that a new trigger retires. -/
def Retired (db : PromptQueueStore) (sessionId : String) (snapshot : Option (List (String × ℕ)))
    (r : QueuedPrompt) : Prop :=
  r.sessionId = sessionId ∧ r.rowid ≤ db.maxRowid ∧ r.state.Active ∧
    ∀ entries ∈ snapshot, (r.id, r.revision) ∈ entries

/-- What a trigger does: when it was taken the queue is numbered, and else its cutoff is added, and
rows are retired. -/
theorem retire_cases (db : PromptQueueStore) (sessionId triggerId : String)
    (snapshot : Option (List (String × ℕ))) (now : ℕ) :
    triggerId ∈ queueTriggers db sessionId ∧
      db.retireForFreshHumanTrigger sessionId triggerId snapshot now =
        db.reorderQueue sessionId now ∨
    triggerId ∉ queueTriggers db sessionId ∧
      ∃ retired, Housekept retired (db.retireForFreshHumanTrigger sessionId triggerId snapshot now) ∧
        retired.cutoffs = db.cutoffs ++ [newCutoff db sessionId triggerId now] ∧
        ∀ r' ∈ retired.prompts, ∃ r ∈ db.prompts, r'.id = r.id ∧ r'.rowid = r.rowid ∧
          (r' = r ∨ Retired db sessionId snapshot r ∧ r'.state = .superseded) := by
  unfold retireForFreshHumanTrigger retireSessionWork
  cases hfind : db.cutoffs.find? fun c =>
      c.scope = "prompts" ∧ c.sessionId = sessionId ∧ c.triggerId = triggerId with
  | some existing =>
    obtain ⟨hmem, hscope, hsession, htrigger⟩ := mem_of_find hfind
    exact .inl ⟨mem_triggersOf_table.mpr ⟨existing, hmem, hscope, hsession, htrigger⟩, rfl⟩
  | none =>
    refine .inr ⟨fun hmem => ?_, _, housekept_reorderQueue, rfl, fun r' hr' => ?_⟩
    · obtain ⟨c, hc, hscope, hsession, htrigger⟩ := mem_triggersOf_table.mp hmem
      exact List.find?_eq_none.mp hfind c hc (decide_eq_true ⟨hscope, hsession, htrigger⟩)
    · obtain ⟨r, hr, rfl⟩ := mem_update.mp hr'
      refine ⟨r, hr, ?_⟩
      split
      · next hretired => exact ⟨rfl, rfl, .inr ⟨hretired, rfl⟩⟩
      · exact ⟨rfl, rfl, .inl rfl⟩

theorem addPrompt_cutoffs {input : QueuedPromptInput} {id : String} :
    (db.addPrompt sessionId input id now).2.cutoffs = db.cutoffs := by
  have hpruned : (db.pruneHistory sessionId now).cutoffs = db.cutoffs :=
    housekept_pruneHistory.cutoffs
  unfold addPrompt
  dsimp only
  split
  · exact hpruned
  · split
    · exact hpruned
    · split <;> exact hpruned

/-- **A call enters the trigger that it brings.** -/
theorem queueLedger_run (db : PromptQueueStore) (call : QueueCall) :
    queueLedger (call.run db) = call.brings.toList.foldl enter (queueLedger db) := by
  cases call with
  | addPrompt sessionId input id now => exact queueLedger_congr addPrompt_cutoffs
  | retire sessionId triggerId snapshot now =>
    show queueLedger (db.retireForFreshHumanTrigger sessionId triggerId snapshot now) =
      enter (queueLedger db) (sessionId, triggerId)
    rcases retire_cases db sessionId triggerId snapshot now with
      ⟨hmem, hagain⟩ | ⟨hnew, retired, hkept, hcutoffs, -⟩
    · rw [hagain, queueLedger_congr housekept_reorderQueue.cutoffs, enter_old hmem]
    · rw [queueLedger_congr hkept.cutoffs, enter_new hnew, ← sessionWorkGeneration_eq]
      unfold queueLedger
      rw [hcutoffs]
      exact ledgerOf_append rfl

/-- so does a history. -/
theorem queueLedger_foldl (db : PromptQueueStore) (calls : List QueueCall) :
    queueLedger (calls.foldl QueueCall.run db) =
      (calls.filterMap QueueCall.brings).foldl enter (queueLedger db) := by
  induction calls generalizing db with
  | nil => rfl
  | cons call calls ih =>
    rw [List.foldl_cons, ih, queueLedger_run]
    cases hbrings : call.brings with
    | none => rw [List.filterMap_cons_none hbrings]; rfl
    | some brought => rw [List.filterMap_cons_some hbrings]; rfl

/-- **A trigger retires rows that the queue has, the first time that it comes.** -/
theorem retire_retires {triggerId : String}
    (hr' : r' ∈ (db.retireForFreshHumanTrigger sessionId triggerId snapshot now).prompts) :
    ∃ r ∈ db.prompts, Retires db sessionId triggerId r r' := by
  rcases retire_cases db sessionId triggerId snapshot now with
    ⟨-, hagain⟩ | ⟨hnew, retired, hkept, -, hrows⟩
  · rw [hagain] at hr'
    obtain ⟨r, hr, hkept⟩ := housekept_reorderQueue.rows r' hr'
    obtain ⟨order, content, payload, rfl⟩ := hkept.same
    exact ⟨r, hr, rfl, rfl, .inl rfl⟩
  · obtain ⟨r₁, hr₁, hkept⟩ := hkept.rows r' hr'
    obtain ⟨order, content, payload, rfl⟩ := hkept.same
    obtain ⟨r, hr, hid, hrowid, hrow⟩ := hrows r₁ hr₁
    refine ⟨r, hr, hid, hrowid, ?_⟩
    rcases hrow with rfl | ⟨hretired, hstate⟩
    · exact .inl rfl
    · exact .inr ⟨hnew, hretired.1, hretired.2.2.1, hstate⟩

/-- **A history of the prompt queue.** -/
theorem queueCutoffs (db : PromptQueueStore) (calls : List QueueCall) : QueueCutoffs db calls where
  taken s t := by
    unfold queueTriggers
    rw [queueLedger_foldl]
    exact mem_triggersOf_foldl (queueLedger db) _
  again s t snapshot now htaken := by
    rcases retire_cases (calls.foldl QueueCall.run db) s t snapshot now with
      ⟨-, hagain⟩ | ⟨hnew, -⟩
    · exact hagain
    · exact absurd htaken hnew
  numbered s now := housekept_reorderQueue
  retires s t snapshot now r' hr' := retire_retires hr'
  counts s := by
    rw [sessionWorkGeneration_eq, sessionWorkGeneration_eq, queueLedger_foldl]
    exact generationOf_foldl (queueLedger db) _

end

end Prompts

/-! ## the dispatches -/

section Callbacks
open SessionDispatches SessionDispatchStore

/-- What happens to the dispatches. -/
inductive DispatchCall where
  | create (id workerSessionId : String) (callbackSessionId ownerNpub : Option String) (now : ℕ)
  | update (id : String) (patch : SessionDispatch → SessionDispatch) (now : ℕ)
  | retire (sessionId triggerId : String) (snapshot : Option NotificationCutoff) (now : ℕ)

def DispatchCall.run (db : SessionDispatchStore) : DispatchCall → SessionDispatchStore
  | create id workerSessionId callbackSessionId ownerNpub now =>
    db.create id workerSessionId callbackSessionId ownerNpub now
  | update id patch now => (db.update id patch now).2
  | retire sessionId triggerId snapshot now =>
    db.retireForFreshHumanTrigger sessionId triggerId snapshot now

/-- the trigger that a call brings, and the session that it comes to. -/
def DispatchCall.brings : DispatchCall → Option (String × String)
  | create .. => none
  | update .. => none
  | retire sessionId triggerId _ _ => some (sessionId, triggerId)

/-- the cutoffs of the callbacks. -/
def callbackLedger (db : SessionDispatchStore) : List Entry :=
  ledgerOf (fun c : SessionDispatches.Cutoff => c.scope = "callbacks")
    (fun c => ⟨c.sessionId, c.triggerId, c.generation⟩) db.cutoffs

/-- the triggers of a session that were taken. -/
def callbackTriggers (db : SessionDispatchStore) (s : String) : List String :=
  triggersOf (callbackLedger db) s

/-- A row that a trigger leaves as it is, or retires: it retires the first time it comes, a callback
that has arrived for its session. -/
inductive RetiresCallback (db : SessionDispatchStore) (sessionId triggerId : String)
    (r : SessionDispatch) : SessionDispatch → Prop where
  | left : RetiresCallback db sessionId triggerId r r
  | retired (r' : SessionDispatch) (first : triggerId ∉ callbackTriggers db sessionId)
      (session : r.callbackSessionId = some sessionId) (arrived : r.Unresolved)
      (id : r'.dispatchId = r.dispatchId) (state : r'.state = .superseded) :
      RetiresCallback db sessionId triggerId r r'

/-- What is expected of a history of the dispatches. -/
structure DispatchCutoffs (db : SessionDispatchStore) (calls : List DispatchCall) : Prop where
  /-- a trigger that was taken stays taken. -/
  taken : ∀ s t, t ∈ callbackTriggers (calls.foldl DispatchCall.run db) s ↔
    t ∈ broughtTo s (calls.filterMap DispatchCall.brings) ∨ t ∈ callbackTriggers db s
  /-- when it comes again, nothing changes. -/
  again : ∀ s t snapshot now, t ∈ callbackTriggers (calls.foldl DispatchCall.run db) s →
    (calls.foldl DispatchCall.run db).retireForFreshHumanTrigger s t snapshot now =
      calls.foldl DispatchCall.run db
  /-- a trigger retires rows that the store has when it is taken. -/
  retires : ∀ s t snapshot now,
    ∀ r' ∈ ((calls.foldl DispatchCall.run db).retireForFreshHumanTrigger s t snapshot now).dispatches,
      ∃ r ∈ (calls.foldl DispatchCall.run db).dispatches,
        RetiresCallback (calls.foldl DispatchCall.run db) s t r r'
  /-- the generation counts the triggers. -/
  counts : ∀ s, (calls.foldl DispatchCall.run db).generation s = db.generation s +
    (newTriggers (callbackTriggers db s) (broughtTo s (calls.filterMap DispatchCall.brings))).length

section
variable {db db' : SessionDispatchStore} {s t sessionId triggerId : String}
  {snapshot : Option NotificationCutoff} {now : ℕ}

/-- the generation of the store is that of the ledger. -/
theorem generation_eq : db.generation s = generationOf (callbackLedger db) s := by
  unfold callbackLedger
  rw [generationOf_table]
  rfl

theorem callbackLedger_congr (h : db'.cutoffs = db.cutoffs) :
    callbackLedger db' = callbackLedger db := by
  unfold callbackLedger
  rw [h]

theorem mem_callbackTriggers : t ∈ callbackTriggers db s ↔
    ∃ c ∈ db.cutoffs, c.scope = "callbacks" ∧ c.sessionId = s ∧ c.triggerId = t :=
  mem_triggersOf_table

theorem retireCallbacks_old (h : triggerId ∈ callbackTriggers db sessionId) :
    db.retireForFreshHumanTrigger sessionId triggerId snapshot now = db :=
  if_pos (mem_callbackTriggers.mp h)

/-- the cutoff of a new trigger. -/
theorem retireCallbacks_new (h : triggerId ∉ callbackTriggers db sessionId) :
    (db.retireForFreshHumanTrigger sessionId triggerId snapshot now).cutoffs = db.cutoffs ++
      [{ scope := "callbacks", sessionId, triggerId, generation := db.generation sessionId + 1
         rowCutoff := db.maxRowid, createdAt := now }] := by
  unfold retireForFreshHumanTrigger
  rw [if_neg fun hold => h (mem_callbackTriggers.mpr hold)]

theorem create_cutoffs {id workerSessionId : String} {callbackSessionId ownerNpub : Option String} :
    (db.create id workerSessionId callbackSessionId ownerNpub now).cutoffs = db.cutoffs := by
  unfold SessionDispatchStore.create
  split <;> rfl

theorem update_cutoffs {id : String} {patch : SessionDispatch → SessionDispatch} :
    (db.update id patch now).2.cutoffs = db.cutoffs := by
  unfold SessionDispatchStore.update
  split <;> rfl

/-- **A call enters the trigger that it brings.** -/
theorem callbackLedger_run (db : SessionDispatchStore) (call : DispatchCall) :
    callbackLedger (call.run db) = call.brings.toList.foldl enter (callbackLedger db) := by
  cases call with
  | create id workerSessionId callbackSessionId ownerNpub now =>
    exact callbackLedger_congr create_cutoffs
  | update id patch now => exact callbackLedger_congr update_cutoffs
  | retire sessionId triggerId snapshot now =>
    show callbackLedger (db.retireForFreshHumanTrigger sessionId triggerId snapshot now) =
      enter (callbackLedger db) (sessionId, triggerId)
    by_cases hmem : triggerId ∈ callbackTriggers db sessionId
    · rw [retireCallbacks_old hmem, enter_old hmem]
    · rw [enter_new hmem, ← generation_eq]
      unfold callbackLedger
      rw [retireCallbacks_new hmem]
      exact ledgerOf_append rfl

/-- so does a history. -/
theorem callbackLedger_foldl (db : SessionDispatchStore) (calls : List DispatchCall) :
    callbackLedger (calls.foldl DispatchCall.run db) =
      (calls.filterMap DispatchCall.brings).foldl enter (callbackLedger db) := by
  induction calls generalizing db with
  | nil => rfl
  | cons call calls ih =>
    rw [List.foldl_cons, ih, callbackLedger_run]
    cases hbrings : call.brings with
    | none => rw [List.filterMap_cons_none hbrings]; rfl
    | some brought => rw [List.filterMap_cons_some hbrings]; rfl

/-- **A trigger retires callbacks that have arrived, the first time that it comes.** -/
theorem retireCallbacks_retires {r' : SessionDispatch}
    (hr' : r' ∈ (db.retireForFreshHumanTrigger sessionId triggerId snapshot now).dispatches) :
    ∃ r ∈ db.dispatches, RetiresCallback db sessionId triggerId r r' := by
  by_cases hmem : triggerId ∈ callbackTriggers db sessionId
  · rw [retireCallbacks_old hmem] at hr'
    exact ⟨r', hr', .left⟩
  · unfold retireForFreshHumanTrigger at hr'
    rw [if_neg fun hold => hmem (mem_callbackTriggers.mpr hold)] at hr'
    obtain ⟨r, hr, rfl⟩ := mem_update.mp hr'
    refine ⟨r, hr, ?_⟩
    split
    · next hretired => exact .retired _ hmem hretired.1 hretired.2.2.1 rfl rfl
    · exact .left

/-- **A history of the dispatches.** -/
theorem dispatchCutoffs (db : SessionDispatchStore) (calls : List DispatchCall) :
    DispatchCutoffs db calls where
  taken s t := by
    unfold callbackTriggers
    rw [callbackLedger_foldl]
    exact mem_triggersOf_foldl (callbackLedger db) _
  again s t snapshot now htaken := retireCallbacks_old htaken
  retires s t snapshot now r' hr' := retireCallbacks_retires hr'
  counts s := by
    rw [generation_eq, generation_eq, callbackLedger_foldl]
    exact generationOf_foldl (callbackLedger db) _

end

end Callbacks

/-! ## both stores -/

/-- **Fresh triggers of a person.** Whatever work comes in between, a trigger retires rows of its
session that are there the first time it comes.  When it comes again the dispatches stay as they
are and the prompt queue is only numbered, and the generations count the triggers that are new. -/
theorem fresh_human_cutoff (queue : PromptQueue.PromptQueueStore)
    (dispatches : SessionDispatches.SessionDispatchStore) (calls : List QueueCall)
    (calls' : List DispatchCall) : QueueCutoffs queue calls ∧ DispatchCutoffs dispatches calls' :=
  ⟨queueCutoffs queue calls, dispatchCutoffs dispatches calls'⟩

/-- A prompt is retired, and eight days later the same trigger comes again: the row of the prompt is
removed. -/
theorem again_fails : ¬∀ (db : PromptQueue.PromptQueueStore) (calls : List QueueCall)
    (s t : String) (snapshot : Option (List (String × ℕ))) (now : ℕ),
    t ∈ queueTriggers (calls.foldl QueueCall.run db) s →
      (calls.foldl QueueCall.run db).retireForFreshHumanTrigger s t snapshot now =
        calls.foldl QueueCall.run db := by
  intro hall
  have hsame := hall {} [.addPrompt "s" { content := "one" } "p" 0, .retire "s" "t" none 0] "s" "t"
    none (8 * 24 * 60 * 60 * 1000) (by decide +kernel)
  have hone : (([QueueCall.addPrompt "s" { content := "one" } "p" 0, .retire "s" "t" none 0].foldl
      QueueCall.run {}).prompts.map (·.id)) = ["p"] := by decide +kernel
  have hnone : ((([QueueCall.addPrompt "s" { content := "one" } "p" 0,
      .retire "s" "t" none 0].foldl QueueCall.run {}).retireForFreshHumanTrigger "s" "t" none
        (8 * 24 * 60 * 60 * 1000)).prompts.map (·.id)) = [] := by decide +kernel
  rw [hsame, hone] at hnone
  exact List.cons_ne_nil _ _ hnone

end SessionWork
end WmAutopilot
