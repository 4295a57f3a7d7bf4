import Mathlib.Data.Finset.Card
import Mathlib.Logic.Relation
import Mathlib.Order.Interval.Finset.Nat
import WmAutopilot.Pipelines.PublicCallStore

/-!
# Delivery of results

Any number of `ResultWebhookService`s over one store, with the calls of its users in between.

* `Action`, `World.after`   one turn of a tick, a call of a user or a crash; what each does;
* `Goes`, `Evolves`   what a statement makes of a delivery, and of the table;
* `Inv`, `Inv.after`  what holds of the attempts that were made; **the step lemma**;
* `Frozen`            payload, fence and final deliveries of every run;
* `Action.Within`, `Limited`   the runs whose claims respect the stored limit, and the number of
                      attempts in them; `sixAttempts`: a claim on an old listing does not.
-/

set_option autoImplicit false
set_option linter.unusedVariables false

namespace WmAutopilot
namespace PublicCalls
namespace Webhook
open Sql PublicCallStore

/-! ## workers -/

/-- A service: the rest of what its tick has listed, and the delivery that it has claimed, with
whether it was posted. -/
structure Worker where
  listed : List ResultDelivery := []
  current : Option (ResultDelivery × Bool) := none

/-- the store, the services, and the deliveries that were posted, in the order of the posts. -/
structure World where
  db : PublicCallStore := {}
  workers : ℕ → Worker := fun _ => {}
  posts : List ResultDelivery := []

inductive Action where
  | create (input : PublicCallInput) (run : PipelineRun) (id : String)
  /-- a run ends, or it is resumed. -/
  | updateRun (runId : String) (completedAt : Option ℕ)
  | retryExhausted (runId authorizedOwnerNpub requestedByNpub : String) (now : ℕ) (id : String)
  /-- a tick begins. -/
  | list (i now : ℕ)
  /-- the tick takes its next delivery; `sent` says that it reaches the transport. -/
  | next (i now : ℕ) (payload : String) (sent : Bool)
  /-- the transport answers with a status, or something throws. -/
  | answer (i : ℕ) (answer : Except String ℕ) (now : ℕ)
  | crash (i : ℕ)

def World.set (w : World) (i : ℕ) (worker : Worker) : World :=
  { w with workers := Function.update w.workers i worker }

/-- what a tick makes of an answer. -/
def outcomeOf : Except String ℕ → Outcome
  | .ok status => ⟨some status, if 200 ≤ status ∧ status < 300 then none
      else some ("Receiver returned HTTP " ++ toString status)⟩
  | .error message => ⟨none, some message⟩

/-- the body of the loop of `tick`, up to the call of the transport. -/
def World.next (w : World) (i now : ℕ) (payload : String) (sent : Bool) : World :=
  match w.workers i with
  | ⟨due :: rest, none⟩ =>
    if due.attemptLimit ≤ due.attempts then
      { w.set i { listed := rest } with db := w.db.exhaust due.id }
    else if w.db.Completed due.runId then
      match w.db.claim due.id now payload with
      | (none, db) => { w.set i { listed := rest } with db }
      | (some delivery, db) =>
        { w.set i ⟨rest, some (delivery, sent)⟩ with
          db, posts := if sent then w.posts ++ [delivery] else w.posts }
    else w.set i {}
  | _ => w

def World.answer (w : World) (i : ℕ) (answer : Except String ℕ) (now : ℕ) : World :=
  match w.workers i with
  | ⟨rest, some (delivery, sent)⟩ =>
    -- what was not sent is not answered: the signer has thrown
    if sent = false ∧ answer.isOk then w
    else { w.set i { listed := rest } with db := w.db.finish delivery (outcomeOf answer) now }
  | _ => w

def World.after (w : World) : Action → World
  | .create input run id => { w with db := (w.db.create input run id).2 }
  | .updateRun runId completedAt => { w with db := { w.db with
      runs := update (fun r : PipelineRun => r.id = runId) (fun r => { r with completedAt })
        w.db.runs } }
  | .retryExhausted runId owner requestedBy now id =>
    { w with db := (w.db.retryExhausted runId owner requestedBy now id).2 }
  | .list i now =>
    match w.workers i with
    | ⟨[], none⟩ => w.set i { listed := w.db.due now }
    | _ => w
  | .next i now payload sent => w.next i now payload sent
  | .answer i answer now => w.answer i answer now
  | .crash i => w.set i {}

/-- a run in which every action is permitted. -/
def Run (P : World → Action → Prop) : World → World → Prop :=
  Relation.ReflTransGen fun w w' => ∃ a, P w a ∧ w.after a = w'

/-- any action. -/
def Any (w : World) (a : Action) : Prop := True

/-- The claim of a tick finds attempts left in the stored row. -/
def Action.Within (w : World) : Action → Prop
  | .next i now payload sent => ∀ due ∈ (w.workers i).listed.head?,
      due.attempts < due.attemptLimit →
        ∀ r ∈ w.db.deliveries, Claimable due.id now r → r.attempts < r.attemptLimit
  | _ => True

/-! ## guarantees -/

/-- What holds in every run.  See the file header. -/
structure Frozen (w : World) : Prop where
  payload : ∀ d ∈ w.posts, ∀ d' ∈ w.posts, d.id = d'.id →
    d.payload ≠ none ∧ d'.payload = d.payload
  once : (w.posts.map fun d => (d.id, d.attempts)).Nodup
  absorbing : ∀ w', Run Any w w' → ∀ r ∈ w.db.deliveries, r.status = .delivered →
    r ∈ w'.db.deliveries
  fenced : ∀ d outcome now, (¬∃ r ∈ w.db.deliveries, Current d r) →
    w.db.finish d outcome now = w.db

/-- The number of attempts: of one window, and of all windows of a delivery. -/
structure Limited (w : World) : Prop where
  attempts : ∀ d ∈ w.posts, d.attempts ≤ d.attemptLimit
  window : ∀ id n, (w.posts.filter fun d => d.id = id ∧ d.retryCount = n).length ≤ 5
  total : ∀ r ∈ w.db.deliveries, (w.posts.filter fun d => d.id = r.id).length ≤ r.attemptLimit

structure Accounting (w : World) : Prop extends Frozen w, Limited w

/-! ## what a statement makes of a delivery -/

structure Goes (r r' : ResultDelivery) : Prop where
  id : r'.id = r.id
  attempts : r.attempts ≤ r'.attempts
  payload : r.payload ≠ none → r'.payload = r.payload
  retryCount : r.retryCount ≤ r'.retryCount
  limit : r'.retryCount = r.retryCount → r'.attemptLimit = r.attemptLimit
  window : r.attemptLimit ≤ r.attempts + 5 → r'.attemptLimit ≤ r'.attempts + 5
  delivered : r.status = .delivered → r' = r

/-- no attempt is made. -/
structure Calm (r r' : ResultDelivery) : Prop extends Goes r r' where
  within : r.attempts ≤ r.attemptLimit → r'.attempts ≤ r'.attemptLimit

/-- the table after a statement: its rows have gone on, and new ones have made no attempt. -/
structure Evolves (R : ResultDelivery → ResultDelivery → Prop) (db db' : PublicCallStore) :
    Prop where
  keys : PrimaryKey (·.id) db.deliveries → PrimaryKey (·.id) db'.deliveries
  old : ∀ r ∈ db.deliveries, ∃ r' ∈ db'.deliveries, R r r'
  new : ∀ r' ∈ db'.deliveries,
    (∃ r ∈ db.deliveries, R r r') ∨ r'.attempts = 0 ∧ r'.attemptLimit = 5

section Statements
variable {R S : ResultDelivery → ResultDelivery → Prop} {db db' : PublicCallStore}
  {r r' : ResultDelivery}

theorem Goes.refl (r : ResultDelivery) : Goes r r :=
  ⟨rfl, le_rfl, fun _ => rfl, le_rfl, fun _ => rfl, fun h => h, fun _ => rfl⟩

theorem Calm.refl (r : ResultDelivery) : Calm r r := ⟨Goes.refl r, fun h => h⟩

theorem Evolves.mono (h : Evolves R db db') (hRS : ∀ r r', R r r' → S r r') : Evolves S db db' where
  keys := h.keys
  old r hr := (h.old r hr).imp fun r' hr' => ⟨hr'.1, hRS r r' hr'.2⟩
  new r' hr' := (h.new r' hr').imp_left fun ⟨r, hr, hR⟩ => ⟨r, hr, hRS r r' hR⟩

theorem Evolves.of_eq (hR : ∀ r, R r r) (h : db'.deliveries = db.deliveries) :
    Evolves R db db' where
  keys hk := h ▸ hk
  old r hr := ⟨r, h ▸ hr, hR r⟩
  new r' hr' := Or.inl ⟨r', h ▸ hr', hR r'⟩

theorem Evolves.update {p : ResultDelivery → Prop} [DecidablePred p]
    {f : ResultDelivery → ResultDelivery} (h : db'.deliveries = Sql.update p f db.deliveries)
    (hid : ∀ r, (f r).id = r.id) (hR : ∀ r, R r r) (hf : ∀ r, p r → R r (f r)) :
    Evolves R db db' := by
  have hstep : ∀ r, R r (if p r then f r else r) := by
    intro r
    split
    · exact hf r ‹_›
    · exact hR r
  refine ⟨fun hk => h ▸ hk.update hid, fun r hr => ?_, fun r' hr' => ?_⟩
  · exact ⟨_, h ▸ mem_update.mpr ⟨r, hr, rfl⟩, hstep r⟩
  · rw [h] at hr'
    obtain ⟨r, hr, rfl⟩ := mem_update.mp hr'
    exact Or.inl ⟨r, hr, hstep r⟩

theorem open_ne_delivered {s : DeliveryStatus} (h : s.Open) : s ≠ .delivered := by
  rcases h with rfl | rfl <;> decide

theorem create_evolves (input : PublicCallInput) (run : PipelineRun) (id : String) :
    Evolves Calm db (db.create input run id).2 := by
  unfold create
  split
  · exact .of_eq Calm.refl rfl
  dsimp only
  split
  · exact .of_eq Calm.refl rfl
  split
  · exact .of_eq Calm.refl rfl
  split
  · exact .of_eq Calm.refl rfl
  rename_i hfree
  refine ⟨fun hk => hk.append fun x hx e => hfree ⟨x, hx, Or.inl e⟩, fun r hr => ?_,
    fun r' hr' => ?_⟩
  · exact ⟨r, List.mem_append_left _ hr, Calm.refl r⟩
  · rcases List.mem_append.mp hr' with hr | hr
    · exact Or.inl ⟨r', hr, Calm.refl r'⟩
    · rw [List.mem_singleton.mp hr]
      exact Or.inr ⟨rfl, rfl⟩

theorem exhaust_evolves (id : String) : Evolves Calm db (db.exhaust id) := by
  refine .update rfl (fun _ => rfl) Calm.refl fun r hp => ?_
  exact ⟨⟨rfl, le_rfl, fun _ => rfl, le_rfl, fun _ => rfl, fun h => h,
    fun h => absurd h (open_ne_delivered hp.2)⟩, fun h => h⟩

theorem finish_evolves (delivery : ResultDelivery) (outcome : Outcome) (now : ℕ) :
    Evolves Calm db (db.finish delivery outcome now) := by
  refine .update rfl (fun _ => rfl) Calm.refl fun r hp => ?_
  have hs : r.status ≠ .delivered := by rw [hp.2.2]; decide
  exact ⟨⟨rfl, le_rfl, fun _ => rfl, le_rfl, fun _ => rfl, fun h => h,
    fun h => absurd h hs⟩, fun h => h⟩

theorem requeued_calm {runId : String} {n now : ℕ} (hp : Exhausted runId n r) :
    Calm r (requeued now r) := by
  have hs : r.status ≠ .delivered := by rw [hp.2.1]; decide
  refine ⟨⟨rfl, le_rfl, fun _ => rfl, Nat.le_succ _, fun h => ?_, fun _ => le_rfl,
    fun h => absurd h hs⟩, fun _ => Nat.le_add_right _ _⟩
  exact absurd h (Nat.succ_ne_self _)

theorem retryExhausted_evolves (runId owner requestedBy : String) (now : ℕ) (id : String) :
    Evolves Calm db (db.retryExhausted runId owner requestedBy now id).2 := by
  have hopen : ∀ n, Evolves Calm db (db.updateDeliveries (Exhausted runId n) (requeued now)) :=
    fun n => .update rfl (fun _ => rfl) Calm.refl fun r hp => requeued_calm hp
  unfold PublicCallStore.retryExhausted
  split
  · exact .of_eq Calm.refl rfl
  split
  · exact .of_eq Calm.refl rfl
  split
  · exact .of_eq Calm.refl rfl
  split
  · exact .of_eq Calm.refl rfl
  dsimp only
  split
  · exact .of_eq Calm.refl rfl
  split
  · exact .of_eq Calm.refl rfl
  split
  · exact .of_eq Calm.refl rfl
  split
  · exact .of_eq Calm.refl rfl
  split
  · exact hopen _
  split
  · exact .of_eq Calm.refl rfl
  · exact ⟨(hopen _).keys, (hopen _).old, (hopen _).new⟩

theorem claimed_goes {id : String} {now : ℕ} {payload : String} (hp : Claimable id now r) :
    Goes r (claimed now payload r) := by
  refine ⟨rfl, Nat.le_succ _, fun hn => ?_, le_rfl, fun _ => rfl, fun h => ?_,
    fun h => absurd h (open_ne_delivered hp.2.1)⟩
  · obtain ⟨text, htext⟩ := Option.ne_none_iff_exists'.mp hn
    show r.payload.or _ = r.payload
    rw [htext]
    rfl
  · show r.attemptLimit ≤ r.attempts + 1 + 5
    omega

/-- `claim` does nothing, or it takes one row that it may take. -/
theorem claim_cases (hk : PrimaryKey (·.id) db.deliveries) (id : String) (now : ℕ)
    (payload : String) :
    db.claim id now payload = (none, db) ∨
    ∃ r ∈ db.deliveries, Claimable id now r ∧
      db.claim id now payload = (some (claimed now payload r),
        db.updateDeliveries (Claimable id now) (claimed now payload)) := by
  unfold PublicCallStore.claim
  split
  · exact Or.inl rfl
  · rename_i hne
    obtain ⟨r, hr, hp⟩ := changes_pos.mp (Nat.pos_of_ne_zero hne)
    refine Or.inr ⟨r, hr, hp, ?_⟩
    have hk' : PrimaryKey (fun d : ResultDelivery => d.id)
        (Sql.update (Claimable id now) (claimed now payload) db.deliveries) :=
      hk.update fun _ => rfl
    have hmem : claimed now payload r ∈
        Sql.update (Claimable id now) (claimed now payload) db.deliveries :=
      mem_update.mpr ⟨r, hr, if_pos hp⟩
    have hfind : (Sql.update (Claimable id now) (claimed now payload) db.deliveries).find?
        (·.id = id) = some (claimed now payload r) := by
      cases hx : (Sql.update (Claimable id now) (claimed now payload) db.deliveries).find?
          (·.id = id) with
      | none =>
        have hno := List.find?_eq_none.mp hx _ hmem
        exact absurd (decide_eq_true hp.1) hno
      | some x =>
        obtain ⟨hxmem, hxid⟩ := mem_of_find hx
        rw [hk'.eq hxmem hmem (hxid.trans hp.1.symm)]
    dsimp only [updateDeliveries]
    rw [hfind]

end Statements

/-! ## what holds of the attempts -/

/-- the row of a delivery that was posted. -/
structure Snapshot (d r : ResultDelivery) : Prop where
  id : r.id = d.id
  attempts : d.attempts ≤ r.attempts
  payload : d.payload ≠ none ∧ r.payload = d.payload
  retryCount : d.retryCount ≤ r.retryCount
  limit : r.retryCount = d.retryCount → r.attemptLimit = d.attemptLimit

/-- What a run keeps.  The attempts of a delivery are numbered, and a window has five numbers. -/
structure Inv (db : PublicCallStore) (posts : List ResultDelivery) : Prop where
  keys : PrimaryKey (·.id) db.deliveries
  rows : ∀ r ∈ db.deliveries, r.attemptLimit ≤ r.attempts + 5
  posted : ∀ d ∈ posts, ∃ r ∈ db.deliveries, Snapshot d r
  numbers : ∀ d ∈ posts, 0 < d.attempts ∧ d.attemptLimit ≤ d.attempts + 4
  once : (posts.map fun d => (d.id, d.attempts)).Nodup
  limits : ∀ d ∈ posts, ∀ d' ∈ posts, d.id = d'.id → d.retryCount = d'.retryCount →
    d.attemptLimit = d'.attemptLimit

section Attempts
variable {db db' : PublicCallStore} {posts : List ResultDelivery} {d r r' : ResultDelivery}

theorem Snapshot.goes (hs : Snapshot d r) (h : Goes r r') : Snapshot d r' where
  id := h.id.trans hs.id
  attempts := hs.attempts.trans h.attempts
  payload := by
    refine ⟨hs.payload.1, ?_⟩
    rw [h.payload (hs.payload.2 ▸ hs.payload.1), hs.payload.2]
  retryCount := hs.retryCount.trans h.retryCount
  limit e := by
    have hr : r'.retryCount = r.retryCount := le_antisymm (e ▸ hs.retryCount) h.retryCount
    rw [h.limit hr, hs.limit (hr.symm.trans e)]

theorem Inv.evolves (hi : Inv db posts) (h : Evolves Goes db db') : Inv db' posts where
  keys := h.keys hi.keys
  rows r' hr' := by
    rcases h.new r' hr' with ⟨r, hr, hg⟩ | ⟨ha, hl⟩
    · exact hg.window (hi.rows r hr)
    · omega
  posted d hd := by
    obtain ⟨r, hr, hs⟩ := hi.posted d hd
    obtain ⟨r', hr', hg⟩ := h.old r hr
    exact ⟨r', hr', hs.goes hg⟩
  numbers := hi.numbers
  once := hi.once
  limits := hi.limits

/-- **A claim makes an attempt that was not made before**: the row counts them. -/
theorem Inv.claim (hi : Inv db posts) {id payload : String} {now : ℕ} (hr : r ∈ db.deliveries)
    (hp : Claimable id now r) :
    Inv (db.updateDeliveries (Claimable id now) (claimed now payload))
      (posts ++ [claimed now payload r]) := by
  have hev : Evolves Goes db (db.updateDeliveries (Claimable id now) (claimed now payload)) :=
    .update rfl (fun _ => rfl) Goes.refl fun r hp => claimed_goes hp
  have hi' := hi.evolves hev
  have hmem : claimed now payload r ∈
      (db.updateDeliveries (Claimable id now) (claimed now payload)).deliveries :=
    mem_update.mpr ⟨r, hr, if_pos hp⟩
  have hlim : ∀ d ∈ posts, d.id = r.id → d.retryCount = r.retryCount →
      d.attemptLimit = r.attemptLimit := by
    intro d hd hid hn
    obtain ⟨x, hx, hs⟩ := hi.posted d hd
    obtain rfl : x = r := hi.keys.eq hx hr (hs.id.trans hid)
    exact (hs.limit hn.symm).symm
  refine ⟨hi'.keys, hi'.rows, fun d hd => ?_, fun d hd => ?_, ?_, fun d hd d' hd' hid hn => ?_⟩
  · rcases List.mem_append.mp hd with hd | hd
    · exact hi'.posted d hd
    · rw [List.mem_singleton.mp hd]
      have hset : r.payload.or (some payload) ≠ none := by simp
      exact ⟨_, hmem, rfl, le_rfl, ⟨hset, rfl⟩, le_rfl, fun _ => rfl⟩
  · rcases List.mem_append.mp hd with hd | hd
    · exact hi.numbers d hd
    · rw [List.mem_singleton.mp hd]
      have hrow := hi.rows r hr
      refine ⟨Nat.succ_pos _, ?_⟩
      show r.attemptLimit ≤ r.attempts + 1 + 4
      omega
  · rw [List.map_append, List.nodup_append]
    refine ⟨hi.once, List.nodup_singleton _, fun a ha b hb e => ?_⟩
    obtain ⟨d, hd, rfl⟩ := List.mem_map.mp ha
    obtain rfl : b = (r.id, r.attempts + 1) := List.mem_singleton.mp hb
    obtain ⟨x, hx, hs⟩ := hi.posted d hd
    obtain ⟨hid, hat⟩ := Prod.mk.inj e
    obtain rfl : x = r := hi.keys.eq hx hr (hs.id.trans hid)
    have := hs.attempts
    omega
  · rcases List.mem_append.mp hd with hd | hd <;> rcases List.mem_append.mp hd' with hd' | hd'
    · exact hi.limits d hd d' hd' hid hn
    · rw [List.mem_singleton.mp hd'] at hid hn ⊢
      exact hlim d hd hid hn
    · rw [List.mem_singleton.mp hd] at hid hn ⊢
      exact (hlim d' hd' hid.symm hn.symm).symm
    · rw [List.mem_singleton.mp hd, List.mem_singleton.mp hd']

theorem finish_current (h : ¬∃ r ∈ db.deliveries, Current d r) (outcome : Outcome) (now : ℕ) :
    db.finish d outcome now = db := by
  have hnone : ∀ r ∈ db.deliveries, ¬Current d r := fun r hr hc => h ⟨r, hr, hc⟩
  exact congrArg (fun l => { db with deliveries := l }) (update_eq_self hnone)

end Attempts

/-! ## one action -/

section Actions
variable {w w' : World}

/-- an attempt is made of the row `r`, which is posted or not. -/
structure Claims (w w' : World) (id : String) (now : ℕ) (payload : String) (r : ResultDelivery) :
    Prop where
  row : r ∈ w.db.deliveries
  claimable : Claimable id now r
  db : w'.db = w.db.updateDeliveries (Claimable id now) (claimed now payload)
  posts : w'.posts = w.posts ∨ w'.posts = w.posts ++ [claimed now payload r]

theorem next_cases (hk : PrimaryKey (·.id) w.db.deliveries) (i now : ℕ) (payload : String)
    (sent : Bool) :
    Evolves Calm w.db (w.next i now payload sent).db ∧
      (w.next i now payload sent).posts = w.posts ∨
    ∃ due r, due ∈ (w.workers i).listed.head? ∧ due.attempts < due.attemptLimit ∧
      Claims w (w.next i now payload sent) due.id now payload r := by
  unfold World.next
  split
  · rename_i due rest hworker
    split
    · exact Or.inl ⟨exhaust_evolves due.id, rfl⟩
    rename_i hlimit
    split
    · rcases claim_cases hk due.id now payload with he | ⟨r, hr, hp, he⟩
      · rw [he]
        exact Or.inl ⟨.of_eq Calm.refl rfl, rfl⟩
      · rw [he]
        refine Or.inr ⟨due, r, ?_, not_le.mp hlimit, hr, hp, rfl, ?_⟩
        · rw [hworker]
          rfl
        · cases sent
          · exact Or.inl rfl
          · exact Or.inr rfl
    · exact Or.inl ⟨.of_eq Calm.refl rfl, rfl⟩
  · exact Or.inl ⟨.of_eq Calm.refl rfl, rfl⟩

/-- **One action** makes no attempt, or it makes one of a row. -/
theorem after_cases (hk : PrimaryKey (·.id) w.db.deliveries) (a : Action) :
    Evolves Calm w.db (w.after a).db ∧ (w.after a).posts = w.posts ∨
    ∃ id now payload r, Claims w (w.after a) id now payload r ∧
      (a.Within w → r.attempts < r.attemptLimit) := by
  cases a with
  | create input run id => exact Or.inl ⟨create_evolves input run id, rfl⟩
  | updateRun runId completedAt => exact Or.inl ⟨.of_eq Calm.refl rfl, rfl⟩
  | retryExhausted runId owner requestedBy now id =>
    exact Or.inl ⟨retryExhausted_evolves runId owner requestedBy now id, rfl⟩
  | list i now =>
    dsimp only [World.after]
    split <;> exact Or.inl ⟨.of_eq Calm.refl rfl, rfl⟩
  | next i now payload sent =>
    rcases next_cases hk i now payload sent with h | ⟨due, r, hdue, hlt, hc⟩
    · exact Or.inl h
    · exact Or.inr ⟨due.id, now, payload, r, hc, fun hin => hin due hdue hlt r hc.row hc.claimable⟩
  | answer i answer now =>
    dsimp only [World.after, World.answer]
    split
    · split
      · exact Or.inl ⟨.of_eq Calm.refl rfl, rfl⟩
      · exact Or.inl ⟨finish_evolves _ _ now, rfl⟩
    · exact Or.inl ⟨.of_eq Calm.refl rfl, rfl⟩
  | crash i => exact Or.inl ⟨.of_eq Calm.refl rfl, rfl⟩

theorem Claims.evolves {id payload : String} {now : ℕ} {r : ResultDelivery}
    (h : Claims w w' id now payload r) : Evolves Goes w.db w'.db := by
  rw [h.db]
  exact .update rfl (fun _ => rfl) Goes.refl fun r hp => claimed_goes hp

theorem after_evolves (hk : PrimaryKey (·.id) w.db.deliveries) (a : Action) :
    Evolves Goes w.db (w.after a).db := by
  rcases after_cases hk a with ⟨he, -⟩ | ⟨id, now, payload, r, hc, -⟩
  · exact he.mono fun _ _ h => h.toGoes
  · exact hc.evolves

theorem Inv.after (hi : Inv w.db w.posts) (a : Action) : Inv (w.after a).db (w.after a).posts := by
  rcases after_cases hi.keys a with ⟨he, hposts⟩ | ⟨id, now, payload, r, hc, -⟩
  · rw [hposts]
    exact hi.evolves (he.mono fun _ _ h => h.toGoes)
  · rcases hc.posts with hposts | hposts
    · rw [hposts]
      exact hi.evolves hc.evolves
    · rw [hposts, hc.db]
      exact hi.claim hc.row hc.claimable

/-- no attempt is beyond its limit. -/
structure Bounded (w : World) : Prop where
  rows : ∀ r ∈ w.db.deliveries, r.attempts ≤ r.attemptLimit
  posts : ∀ d ∈ w.posts, d.attempts ≤ d.attemptLimit

/-- **A claim that respects the stored limit** leaves every attempt within its limit. -/
theorem Bounded.after (hb : Bounded w) (hi : Inv w.db w.posts) {a : Action} (ha : a.Within w) :
    Bounded (w.after a) := by
  rcases after_cases hi.keys a with ⟨he, hposts⟩ | ⟨id, now, payload, r, hc, hin⟩
  · refine ⟨fun r' hr' => ?_, hposts ▸ hb.posts⟩
    rcases he.new r' hr' with ⟨r, hr, hcalm⟩ | ⟨hat, hl⟩
    · exact hcalm.within (hb.rows r hr)
    · omega
  · have hlt : r.attempts < r.attemptLimit := hin ha
    refine ⟨fun r' hr' => ?_, fun d hd => ?_⟩
    · rw [hc.db] at hr'
      obtain ⟨x, hx, rfl⟩ := mem_update.mp hr'
      split
      · rename_i hp
        -- the key has one row
        obtain rfl : x = r := hi.keys.eq hx hc.row (hp.1.trans hc.claimable.1.symm)
        exact hlt
      · exact hb.rows x hx
    · rcases hc.posts with hposts | hposts <;> rw [hposts] at hd
      · exact hb.posts d hd
      · rcases List.mem_append.mp hd with hd | hd
        · exact hb.posts d hd
        · rw [List.mem_singleton.mp hd]
          exact hlt

end Actions

/-! ## runs -/

section Runs
variable {P : World → Action → Prop} {w w' : World}

theorem Inv.run (hi : Inv w.db w.posts) (h : Run P w w') : Inv w'.db w'.posts := by
  induction h with
  | refl => exact hi
  | tail _ hstep ih =>
    obtain ⟨a, -, rfl⟩ := hstep
    exact ih.after a

theorem Inv.empty : Inv ({} : World).db ({} : World).posts :=
  ⟨List.nodup_nil, fun r hr => absurd hr List.not_mem_nil, fun d hd => absurd hd List.not_mem_nil,
    fun d hd => absurd hd List.not_mem_nil, List.nodup_nil,
    fun d hd => absurd hd List.not_mem_nil⟩

theorem Inv.delivered_run (hi : Inv w.db w.posts) (h : Run P w w') {r : ResultDelivery}
    (hr : r ∈ w.db.deliveries) (hs : r.status = .delivered) : r ∈ w'.db.deliveries := by
  induction h with
  | refl => exact hr
  | tail hsteps hstep ih =>
    obtain ⟨a, -, rfl⟩ := hstep
    obtain ⟨r', hr', hg⟩ := (after_evolves (hi.run hsteps).keys a).old r ih
    rwa [hg.delivered hs] at hr'

theorem Inv.frozen (hi : Inv w.db w.posts) : Frozen w where
  payload d hd d' hd' hid := by
    obtain ⟨r, hr, hs⟩ := hi.posted d hd
    obtain ⟨r', hr', hs'⟩ := hi.posted d' hd'
    obtain rfl : r' = r := hi.keys.eq hr' hr (hs'.id.trans (hid.symm.trans hs.id.symm))
    exact ⟨hs.payload.1, hs'.payload.2.symm.trans hs.payload.2⟩
  once := hi.once
  absorbing w' h r hr hs := hi.delivered_run h hr hs
  fenced d outcome now h := finish_current h outcome now

theorem Bounded.run (h : Run (fun w a => a.Within w) {} w) : Bounded w := by
  induction h with
  | refl => exact ⟨fun r hr => absurd hr List.not_mem_nil, fun d hd => absurd hd List.not_mem_nil⟩
  | tail hsteps hstep ih =>
    obtain ⟨a, ha, rfl⟩ := hstep
    exact ih.after (Inv.empty.run hsteps) ha

/-- the attempts of some of the posts of a delivery have different numbers. -/
theorem attempts_nodup (hi : Inv w.db w.posts) {id : String} {l : List ResultDelivery}
    (hl : l.Sublist w.posts) (hid : ∀ d ∈ l, d.id = id) : (l.map (·.attempts)).Nodup := by
  have hn : (l.map fun d => (d.id, d.attempts)).Nodup := hi.once.sublist (hl.map _)
  rw [List.Nodup, List.pairwise_map] at hn ⊢
  refine List.Pairwise.imp_of_mem (fun ha hb hne e => hne ?_) hn
  rw [hid _ ha, hid _ hb, e]

/-- different numbers between `a + 1` and `b`. -/
theorem length_le_of_nodup {l : List ℕ} {a b : ℕ} (hl : l.Nodup) (h : ∀ n ∈ l, a < n ∧ n ≤ b) :
    l.length ≤ b - a := by
  have hsub : l.toFinset ⊆ Finset.Ioc a b := fun n hn =>
    Finset.mem_Ioc.mpr (h n (List.mem_toFinset.mp hn))
  calc l.length = l.toFinset.card := (List.toFinset_card_of_nodup hl).symm
    _ ≤ (Finset.Ioc a b).card := Finset.card_le_card hsub
    _ = b - a := Nat.card_Ioc a b

theorem Bounded.limited (hb : Bounded w) (hi : Inv w.db w.posts) : Limited w where
  attempts := hb.posts
  window id n := by
    have hmem : ∀ d ∈ w.posts.filter fun d => d.id = id ∧ d.retryCount = n,
        d ∈ w.posts ∧ d.id = id ∧ d.retryCount = n := by
      intro d hd
      simpa using hd
    cases e : w.posts.filter fun d => d.id = id ∧ d.retryCount = n with
    | nil => exact Nat.zero_le 5
    | cons x l =>
      obtain ⟨hx, hxid, hxn⟩ := hmem x (e ▸ List.mem_cons_self)
      rw [← e]
      have hnd : ((w.posts.filter fun d => d.id = id ∧ d.retryCount = n).map
          (·.attempts)).Nodup :=
        attempts_nodup hi List.filter_sublist fun d hd => (hmem d hd).2.1
      -- the numbers of the window end at the limit of any of its attempts
      have hle := length_le_of_nodup (a := x.attemptLimit - 5) (b := x.attemptLimit) hnd
        fun m hm => by
          obtain ⟨d, hfilter, rfl⟩ := List.mem_map.mp hm
          obtain ⟨hd, hdid, hdn⟩ := hmem d hfilter
          have hlim : d.attemptLimit = x.attemptLimit :=
            hi.limits d hd x hx (hdid.trans hxid.symm) (hdn.trans hxn.symm)
          have hbound := hb.posts d hd
          have hnum := hi.numbers d hd
          omega
      rw [List.length_map] at hle
      omega
  total r hr := by
    have hmem : ∀ d ∈ w.posts.filter fun d => d.id = r.id, d ∈ w.posts ∧ d.id = r.id := by
      intro d hd
      simpa using hd
    have hnd : ((w.posts.filter fun d => d.id = r.id).map (·.attempts)).Nodup :=
      attempts_nodup hi List.filter_sublist fun d hd => (hmem d hd).2
    have hle := length_le_of_nodup (a := 0) (b := r.attempts) hnd fun m hm => by
      obtain ⟨d, hfilter, rfl⟩ := List.mem_map.mp hm
      obtain ⟨hd, hdid⟩ := hmem d hfilter
      obtain ⟨x, hx, hs⟩ := hi.posted d hd
      have hxr : x = r := hi.keys.eq hx hr (hs.id.trans hdid)
      exact ⟨(hi.numbers d hd).1, hxr ▸ hs.attempts⟩
    rw [List.length_map] at hle
    exact hle.trans (hb.rows r hr)

theorem run_frozen (h : Run P {} w) : Frozen w := (Inv.empty.run h).frozen

/-- **Delivery accounting.**  In every run whose claims find attempts left in the stored row, a
window has at most five attempts and a delivery at most as many as its limit; all of them carry one
payload, and what was delivered, or reported late, changes nothing. -/
theorem delivery_accounting (h : Run (fun w a => a.Within w) {} w) : Accounting w where
  toFrozen := run_frozen h
  toLimited := (Bounded.run h).limited (Inv.empty.run h)

end Runs

/-! ## two runs -/

/-- every action of the list is permitted when its turn comes. -/
def Permitted (P : World → Action → Prop) (w : World) : List Action → Prop
  | [] => True
  | a :: l => P w a ∧ Permitted P (w.after a) l

theorem run_of_permitted {P : World → Action → Prop} {w : World} {l : List Action}
    (h : Permitted P w l) : Run P w (l.foldl World.after w) := by
  induction l generalizing w with
  | nil => exact .refl
  | cons a l ih => exact .head ⟨a, h.1, rfl⟩ (ih h.2)

instance (w : World) : DecidablePred (Action.Within w)
  | .next _ _ _ _ => inferInstanceAs (Decidable (∀ due ∈ _, _))
  | .create _ _ _ | .updateRun _ _ | .retryExhausted _ _ _ _ _ | .list _ _ | .answer _ _ _
  | .crash _ => isTrue trivial

instance decidablePermitted (P : World → Action → Prop) [∀ w a, Decidable (P w a)] (w : World) :
    DecidablePred (Permitted P w)
  | [] => isTrue trivial
  | a :: l => @instDecidableAnd _ _ _ (decidablePermitted P (w.after a) l)

/-- a public call whose run has ended. -/
def called : List Action :=
  [.create ⟨"npub1owner", "definition", none, "fingerprint", some "https://receiver.example.com"⟩
    { id := "run" } "delivery",
  .updateRun "run" (some 0)]

/-- an attempt that the receiver refuses. -/
def refused (i now : ℕ) : List Action :=
  [.list i now, .next i now "payload" true, .answer i (.ok 500) now]

/-- the run of one service: the second attempt succeeds. -/
def secondAttempt : List Action :=
  called ++ refused 0 0 ++ [.list 0 1000, .next 0 1000 "other" true, .answer 0 (.ok 200) 1000]

theorem delivery_accounting_second_attempt : Accounting (secondAttempt.foldl World.after {}) :=
  delivery_accounting (run_of_permitted (by decide +kernel))

/-- The run of two services.  The second lists the delivery and is busy with others; the first makes
five attempts and crashes in the fifth; then the second makes a sixth. -/
def sixAttempts : List Action :=
  called ++ [.list 1 0] ++ refused 0 0 ++ refused 0 1000 ++ refused 0 3000 ++ refused 0 7000 ++
    [.list 0 15000, .next 0 15000 "payload" true, .crash 0, .next 1 45000 "payload" true]

theorem delivery_accounting_fails : ¬∀ w, Run Any {} w → Accounting w := by
  intro hall
  have hrun : Run Any {} (sixAttempts.foldl World.after {}) := by
    refine run_of_permitted ?_
    simp [Permitted, Any, sixAttempts, called, refused]
  have hlast : ¬∀ d ∈ (sixAttempts.foldl World.after {}).posts, d.attempts ≤ d.attemptLimit := by
    decide +kernel
  exact hlast (hall _ hrun).attempts

end Webhook
end PublicCalls
end WmAutopilot
