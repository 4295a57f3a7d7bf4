import Mathlib.Data.Nat.Basic
import WmAutopilot.Async.Turns
import WmAutopilot.Consolidation.Reconcile

/-!
# What is written once

* `World`          what is persisted, the invocation that runs with what it read, and the writes;
* `Evidence`       what a verification rests on;
* `Inv`, `writes`  the invariant, and what each operation may do;
* `link_spec`, `reconcile_spec`, `deliver_spec`   the three procedures keep it;
* `writes_once`    of every sequence of invocations: at most one write for each intent and digest;
* `adopts_linked`  a proposal is verified by the task that a link was attempted on.
-/

set_option autoImplicit false

namespace WmAutopilot
namespace Consolidation
namespace Writes
open Js Value Async

/-- an invocation. -/
inductive Call where
  | link (input : LinkInput)
  | propose (input : ProposalInput)
  | deliver (input : DigestInput)

/-- what was read. -/
inductive Seen where
  | comments (page : Value)
  | tasks (tasks : List Value)
  | back (body : String)

/-- an intent became verified: the one before, the invocation and what it had read. -/
structure Verification where
  slot : ℕ
  call : Call
  before : WriteIntent
  seen : List Seen

/-- a digest was delivered: its body, and what was read. -/
structure Delivery where
  body : String
  seen : List Seen

structure World where
  /-- the intents that were persisted last. -/
  intents : ℕ → WriteIntent
  delivery : DeliveryState := {}
  /-- the invocation that runs, its intent and what it read. -/
  call : Call
  slot : ℕ := 0
  seen : List Seen := []
  /-- the calls of `commentTask` and `createTask` for each intent. -/
  wrote : ℕ → ℕ := fun _ => 0
  /-- the task on which a link of the intent was attempted. -/
  linked : ℕ → Option String := fun _ => none
  /-- the pending digest, and the calls of `send` for each. -/
  digest : ℕ := 0
  sent : ℕ → ℕ := fun _ => 0
  verified : List Verification := []
  delivered : List Delivery := []

namespace World

def see (w : World) (seen : List Seen) : World := { w with seen := seen ++ w.seen }

def write (w : World) : World :=
  { w with wrote := Function.update w.wrote w.slot (w.wrote w.slot + 1) }

def sendOne (w : World) : World :=
  { w with sent := Function.update w.sent w.digest (w.sent w.digest + 1) }

/-- the task of a link that is attempted now. -/
def linkTask (w : World) (intent : WriteIntent) : Option String :=
  match w.call with
  | .link input =>
    if intent.attempted = true ∧ (w.intents w.slot).attempted = false then some input.task
    else w.linked w.slot
  | _ => w.linked w.slot

/-- the verification of an intent that is not verified yet. -/
def verification (w : World) : Verification := ⟨w.slot, w.call, w.intents w.slot, w.seen⟩

def store (w : World) (intent : WriteIntent) : World :=
  { w with
    intents := Function.update w.intents w.slot intent
    linked := Function.update w.linked w.slot (w.linkTask intent)
    verified :=
      if intent.verified = true ∧ (w.intents w.slot).verified = false then
        w.verification :: w.verified
      else w.verified }

def storeState (w : World) (state : DeliveryState) : World :=
  { w with
    delivery := state
    digest := if w.delivery.pending = none ∧ state.pending ≠ none then w.digest + 1 else w.digest
    delivered := if state.pending = none then
      (w.delivery.pending.map fun p => ⟨p.body, w.seen⟩).toList ++ w.delivered else w.delivered }

end World

/-- What an operation does: the client and the transport answer anything, and a save that throws
may have been made. -/
inductive Performs : (o : Op) → World → o.Ans → World → Prop where
  | showTask (workspace task : String) (w : World) (r : Except String Value) :
      Performs (.showTask workspace task) w r w
  | comments (workspace task : String) (limit : ℕ) (w : World) (r : Except String Value) :
      Performs (.listTaskComments workspace task limit) w r
        (w.see (r.toOption.map Seen.comments).toList)
  | commentTask (workspace task body : String) (w : World) (r : Except String Value) :
      Performs (.commentTask workspace task body) w r w.write
  | tasks (w : World) (r : Except String (List Value)) :
      Performs .readCompleteTasks w r (w.see (r.toOption.map Seen.tasks).toList)
  | createTask (workspace channel title description state : String) (w : World)
      (r : Except String Value) :
      Performs (.createTask workspace channel title description state) w r w.write
  | persist (intent : WriteIntent) (w : World) (r : Except String Unit) (stored : Bool)
      (h : r = .ok () → stored = true) :
      Performs (.persist intent) w r (if stored then w.store intent else w)
  | readback (body : String) (w : World) (r : Except String Bool) :
      Performs (.readback body) w r (w.see (if r = .ok true then [Seen.back body] else []))
  | send (body : String) (w : World) (r : Except String Unit) :
      Performs (.send body) w r w.sendOne
  | persistState (state : DeliveryState) (w : World) (r : Except String Unit) (stored : Bool)
      (h : r = .ok () → stored = true) :
      Performs (.persistState state) w r (if stored then w.storeState state else w)

/-- an invocation starts from what was persisted last. -/
inductive Invoked (texts : Texts) : World → Prog api Unit → World → Prop where
  | link (w : World) (i : ℕ) (input : LinkInput) :
      Invoked texts w (linkExistingTask input (w.intents i)).detach
        { w with call := .link input, slot := i, seen := [] }
  | propose (w : World) (i : ℕ) (input : ProposalInput) :
      Invoked texts w (reconcileProposal texts input (w.intents i)).detach
        { w with call := .propose input, slot := i, seen := [] }
  | deliver (w : World) (input : DigestInput) :
      Invoked texts w (deliverDigest texts input w.delivery).detach
        { w with call := .deliver input, seen := [] }

/-! ## the invariant -/

variable (texts : Texts)

/-- **What a verification rests on**: a comment with the written body, or a task of the workspace
that is named, has the marker, or has the id that the intent holds. -/
def Evidence (v : Verification) : Prop :=
  match v.call with
  | .link input => ∃ page comments, .comments page ∈ v.seen ∧ page.get "comments" = arr comments ∧
      ∃ c ∈ comments, c.get "body" = str input.body
  | .propose input => ∃ tasks, .tasks tasks ∈ v.seen ∧
      ∃ t ∈ tasks, Matches texts input v.before.task_id t
  | .deliver _ => False

structure Inv (w : World) : Prop where
  once : ∀ i, w.wrote i ≤ 1
  kept : ∀ i, w.wrote i = 1 → (w.intents i).attempted = true
  named : ∀ i t, (w.intents i).task_id = some t →
    (w.intents i).verified = true ∨ w.linked i = some t
  evidence : ∀ v ∈ w.verified, Evidence texts v
  sentOnce : ∀ d, w.sent d ≤ 1
  future : ∀ d, w.digest < d → w.sent d = 0
  pending : w.sent w.digest = 1 → ∀ p, w.delivery.pending = some p → p.attempted = true
  delivered : ∀ d ∈ w.delivered, .back d.body ∈ d.seen

/-- what may be persisted. -/
structure MayPersist (intent : WriteIntent) (w : World) : Prop where
  attempted : (w.intents w.slot).attempted = true → intent.attempted = true
  named : ∀ t, intent.task_id = some t → intent.verified = true ∨ w.linkTask intent = some t
  evidence : intent.verified = true → (w.intents w.slot).verified = false →
    Evidence texts w.verification

structure MayPersistState (state : DeliveryState) (w : World) : Prop where
  attempted : ∀ p p', w.delivery.pending = some p → state.pending = some p' →
    p.attempted = true → p'.attempted = true
  delivered : ∀ p, w.delivery.pending = some p → state.pending = none → .back p.body ∈ w.seen

def May (o : Op) (w : World) : Prop :=
  match o with
  | .commentTask .. | .createTask .. =>
    w.wrote w.slot = 0 ∧ (w.intents w.slot).attempted = true
  | .persist intent => MayPersist texts intent w
  | .send _ => w.sent w.digest = 0 ∧ ∀ p, w.delivery.pending = some p → p.attempted = true
  | .persistState state => MayPersistState state w
  | _ => True

/-- the discipline of writes. -/
def writes : Discipline api World where
  toSystem := System.alone Performs
  Inv := Inv texts
  may _ o w := May texts o w

variable {texts} {w w' : World}

theorem Inv.write (h : Inv texts w) (h0 : w.wrote w.slot = 0)
    (hattempted : (w.intents w.slot).attempted = true) : Inv texts w.write where
  once i := by
    by_cases hi : i = w.slot
    · simp [World.write, hi, h0]
    · simpa [World.write, hi] using h.once i
  kept i := by
    by_cases hi : i = w.slot
    · exact fun _ => hi ▸ hattempted
    · simpa [World.write, hi] using h.kept i
  named := h.named
  evidence := h.evidence
  sentOnce := h.sentOnce
  future := h.future
  pending := h.pending
  delivered := h.delivered

theorem Inv.sendOne (h : Inv texts w) (h0 : w.sent w.digest = 0)
    (hattempted : ∀ p, w.delivery.pending = some p → p.attempted = true) :
    Inv texts w.sendOne where
  once := h.once
  kept := h.kept
  named := h.named
  evidence := h.evidence
  sentOnce d := by
    by_cases hd : d = w.digest
    · simp [World.sendOne, hd, h0]
    · simpa [World.sendOne, hd] using h.sentOnce d
  future d hd := by
    have hne : d ≠ w.digest := Nat.ne_of_gt hd
    simpa [World.sendOne, hne] using h.future d hd
  pending _ := hattempted
  delivered := h.delivered

theorem Inv.store (h : Inv texts w) {intent : WriteIntent} (hmay : MayPersist texts intent w) :
    Inv texts (w.store intent) where
  once := h.once
  kept i hi := by
    by_cases hslot : i = w.slot
    · subst hslot
      simpa [World.store] using hmay.attempted (h.kept _ hi)
    · simpa [World.store, hslot] using h.kept i hi
  named i t := by
    by_cases hslot : i = w.slot
    · subst hslot
      simpa [World.store] using hmay.named t
    · simpa [World.store, hslot] using h.named i t
  evidence v hv := by
    simp only [World.store] at hv
    split at hv
    · next hnew =>
      rcases List.mem_cons.mp hv with rfl | hv
      · exact hmay.evidence hnew.1 hnew.2
      · exact h.evidence v hv
    · exact h.evidence v hv
  sentOnce := h.sentOnce
  future := h.future
  pending := h.pending
  delivered := h.delivered

theorem Inv.storeState (h : Inv texts w) {state : DeliveryState} (hmay : MayPersistState state w) :
    Inv texts (w.storeState state) where
  once := h.once
  kept := h.kept
  named := h.named
  evidence := h.evidence
  sentOnce := h.sentOnce
  future d hd := by
    simp only [World.storeState] at hd ⊢
    split at hd
    · exact h.future d (by omega)
    · exact h.future d hd
  pending hsent p' hp' := by
    simp only [World.storeState] at hsent hp'
    split at hsent
    · rw [h.future _ (by omega)] at hsent
      cases hsent
    · next hsame =>
      cases hp : w.delivery.pending with
      | none => exact absurd ⟨hp, by simp [hp']⟩ hsame
      | some p => exact hmay.attempted p p' hp hp' (h.pending hsent p hp)
  delivered d hd := by
    simp only [World.storeState] at hd
    split at hd
    · next hnone =>
      rcases List.mem_append.mp hd with hd | hd
      · obtain ⟨p, hp, rfl⟩ := Option.map_eq_some_iff.mp (Option.mem_toList.mp hd)
        exact hmay.delivered p hp hnone
      · exact h.delivered d hd
    · exact h.delivered d hd

/-- **One operation** that is permitted keeps the invariant. -/
theorem writes_perform {κ : ℕ} {o : Op} {r : o.Ans} (hi : (writes texts).Inv w)
    (hmay : (writes texts).may κ o w) (ho : (writes texts).perform κ o w r w') :
    (writes texts).Inv w' := by
  obtain ⟨-, ho⟩ := ho
  have hsee : ∀ seen, Inv texts (w.see seen) := fun seen =>
    ⟨hi.once, hi.kept, hi.named, hi.evidence, hi.sentOnce, hi.future, hi.pending, hi.delivered⟩
  cases ho with
  | showTask => exact hi
  | comments => exact hsee _
  | tasks => exact hsee _
  | readback => exact hsee _
  | commentTask => exact hi.write hmay.1 hmay.2
  | createTask => exact hi.write hmay.1 hmay.2
  | send => exact hi.sendOne hmay.1 hmay.2
  | persist intent w r stored h =>
    cases stored with
    | true => exact hi.store hmay
    | false => exact hi
  | persistState state w r stored h =>
    cases stored with
    | true => exact hi.storeState hmay
    | false => exact hi

/-! ## the operations of an invocation -/

/-- an invocation on the intent `a`, for which there were `n` writes. -/
structure At (c : Call) (i : ℕ) (a : WriteIntent) (n : ℕ) (w : World) : Prop where
  call : w.call = c
  slot : w.slot = i
  intent : w.intents i = a
  wrote : w.wrote i = n

/-- a comment with the written body was read. -/
def HasComment (input : LinkInput) (w : World) : Prop :=
  ∃ page comments, .comments page ∈ w.seen ∧ page.get "comments" = arr comments ∧
    ∃ c ∈ comments, c.get "body" = str input.body

/-- a task that may be the proposal was read. -/
def HasTask (texts : Texts) (input : ProposalInput) (task_id : Option String) (w : World) : Prop :=
  ∃ tasks, .tasks tasks ∈ w.seen ∧ ∃ t ∈ tasks, Matches texts input task_id t

section
variable {c : Call} {i n : ℕ} {a b : WriteIntent}

theorem alone_writes : Alone (writes texts).toSystem := System.alone_alone _

theorem At.see (h : At c i a n w) (seen : List Seen) : At c i a n (w.see seen) :=
  ⟨h.call, h.slot, h.intent, h.wrote⟩

theorem showTask_spec (input : LinkInput) :
    Triple (writes texts) 0 (At c i a n) (showTask input) (fun _ w => At c i a n w) Any₂ := by
  refine .bind (R := fun _ w => At c i a n w) (.op (.alone alone_writes) (fun _ _ _ => trivial) ?_)
    fun answer => ?_
  · rintro w r w' - h ⟨-, ho⟩ -
    cases ho
    exact h
  · cases shownTask input answer with
    | error e => exact .throw fun w _ _ => trivial
    | ok task => exact .pure fun w _ h => h

/-- the comments of a page are its own. -/
theorem commentsOf_ok {answer : Except String Value} {comments : List Value}
    (h : commentsOf answer = .ok comments) :
    ∃ page, answer = .ok page ∧ page.get "comments" = arr comments := by
  obtain ⟨answered, hanswer, h⟩ := bind_ok.mp h
  obtain ⟨page, hrecord, h⟩ := bind_ok.mp h
  have hsame : answered = page := by
    unfold record at hrecord
    split at hrecord
    · exact Except.ok.inj hrecord
    · cases hrecord
  refine ⟨page, hsame ▸ hanswer, ?_⟩
  have hmap : ∀ cs cs' : List Value, cs.mapM record = .ok cs' → cs = cs' := by
    intro cs
    induction cs with
    | nil => exact fun cs' h => (Except.ok.inj h)
    | cons v cs ih =>
      intro cs' h
      rw [List.mapM_cons] at h
      obtain ⟨v', hv, h⟩ := bind_ok.mp h
      obtain ⟨cs₁, hcs, h⟩ := bind_ok.mp h
      obtain rfl := Except.ok.inj h
      have hv' : v = v' := by
        unfold record at hv
        split at hv
        · exact Except.ok.inj hv
        · cases hv
      rw [hv', ih cs₁ hcs]
  split at h
  · next cs hcs =>
    split at h
    · cases h
    · rw [hcs, hmap cs comments h]
  · cases h

/-- **A read of the comments.** -/
theorem readComment_spec (input : LinkInput) :
    Triple (writes texts) 0 (At c i a n) (readComment input)
      (fun r w => At c i a n w ∧ (r = true → HasComment input w)) Any₂ := by
  refine .bind (R := fun answer w => At c i a n w ∧
      ∀ page, answer = .ok page → .comments page ∈ w.seen)
    (.op (.alone alone_writes) (fun _ _ _ => trivial) ?_) fun answer => ?_
  · rintro w r w' - h ⟨-, ho⟩ -
    cases ho
    refine ⟨h.see _, ?_⟩
    rintro page rfl
    exact List.mem_append_left _ (by simp [Except.toOption])
  · cases hanswer : commentsOf answer with
    | error e => exact .throw fun w _ _ => trivial
    | ok comments =>
      refine .pure fun w _ h => ⟨h.1, fun hany => ?_⟩
      obtain ⟨page, rfl, hpage⟩ := commentsOf_ok hanswer
      obtain ⟨x, hx, hbody⟩ := List.any_eq_true.mp hany
      exact ⟨page, comments, h.2 page rfl, hpage, x, hx, by simpa using hbody⟩

/-- **A save of the intent.** -/
theorem persist_spec {R : World → Prop}
    (hmay : ∀ w, Inv texts w → At c i a n w → R w → MayPersist texts b w) :
    Triple (writes texts) 0 (fun w => At c i a n w ∧ R w) (persist b)
      (fun _ w => At c i b n w) Any₂ := by
  refine .tryOp (.alone alone_writes) (fun w hi h => hmay w hi h.1 h.2) ?_ fun _ _ _ _ _ _ _ _ _ =>
    trivial
  rintro w r w' u - ⟨h, -⟩ ⟨-, ho⟩ - hr
  cases ho with
  | persist intent w r stored hstored =>
    rw [hstored hr, if_pos rfl]
    refine ⟨h.call, h.slot, ?_, h.wrote⟩
    simp [World.store, h.slot]

/-- **A write.** -/
theorem write_spec {o : Op} (hattempted : a.attempted = true)
    (ho : (∃ w t body, o = .commentTask w t body) ∨ ∃ w c t d s, o = .createTask w c t d s) :
    Triple (writes texts) 0 (At c i a 0) (Exc.op (A := api) o : Writing o.Ans)
      (fun _ w => At c i a 1 w) Any₂ := by
  have hmay : ∀ w, At c i a 0 w → w.wrote w.slot = 0 ∧ (w.intents w.slot).attempted = true :=
    fun w h => ⟨h.slot ▸ h.wrote, by rw [h.slot, h.intent]; exact hattempted⟩
  have hwrite : ∀ w, At c i a 0 w → At c i a 1 w.write := fun w h =>
    ⟨h.call, h.slot, h.intent, by simp [World.write, h.slot, h.wrote]⟩
  rcases ho with ⟨ws, t, body, rfl⟩ | ⟨ws, ch, t, d, s, rfl⟩
  · refine .op (.alone alone_writes) (fun w _ h => hmay w h) ?_
    rintro w r w' - h ⟨-, ho⟩ -
    cases ho
    exact hwrite w h
  · refine .op (.alone alone_writes) (fun w _ h => hmay w h) ?_
    rintro w r w' - h ⟨-, ho⟩ -
    cases ho
    exact hwrite w h

/-- an intent that was not attempted was not written. -/
theorem At.unwritten (hi : Inv texts w) (h : At c i a n w) (ha : a.attempted = false) :
    At c i a 0 w := by
  refine ⟨h.call, h.slot, h.intent, ?_⟩
  have honce := hi.once i
  by_contra hne
  have := hi.kept i (by omega)
  rw [h.intent, ha] at this
  cases this

/-! ## links -/

/-- a link whose comment was read is verified. -/
theorem verify_link {input : LinkInput} :
    Triple (writes texts) 0 (fun w => At (.link input) i a n w ∧ HasComment input w)
      (persist { a with task_id := some input.task, verified := true })
      (fun _ _ => True) Any₂ := by
  refine (persist_spec fun w hi h hcomment => ?_).post (fun _ _ _ _ => trivial) fun _ _ _ h => h
  refine ⟨fun ha => ?_, fun t ht => .inl rfl, fun _ _ => ?_⟩
  · rw [h.slot, h.intent] at ha
    exact ha
  · obtain ⟨page, comments, hseen, hpage, x, hx, hbody⟩ := hcomment
    rw [Evidence, World.verification, h.call]
    exact ⟨page, comments, hseen, hpage, x, hx, hbody⟩

/-- **`linkExistingTask`** writes once, and verifies what it read. -/
theorem link_spec (input : LinkInput) (intent : WriteIntent) :
    Triple (writes texts) 0 (At (.link input) i intent n) (linkExistingTask input intent)
      Any₂ Any₂ := by
  refine .ite (fun _ => .throw fun w _ _ => trivial) fun _ => ?_
  refine .bind (showTask_spec input) fun fresh => ?_
  refine .bind (readComment_spec input) fun found => ?_
  refine .ite (fun hfound => ?_) fun _ => ?_
  · refine .bind (verify_link.pre fun w _ h => ⟨h.1, h.2 hfound⟩) fun _ => ?_
    exact .pure fun w _ _ => trivial
  refine .ite (fun _ => .pure fun w _ _ => trivial) fun hattempted => ?_
  refine .bind ((showTask_spec input).pre fun w _ h => h.1) fun current => ?_
  refine .ite (fun _ => .throw fun w _ _ => trivial) fun _ => ?_
  have hfresh : intent.attempted = false := by simpa using hattempted
  let attempt : WriteIntent := { intent with attempted := true, task_id := some input.task }
  refine .bind (R := fun _ w => At (.link input) i attempt 0 w) ?_ fun _ => ?_
  · refine (persist_spec (R := fun _ => True) fun w hi h _ => ?_).pre fun w hi h =>
      ⟨h.unwritten hi hfresh, trivial⟩
    refine ⟨fun _ => rfl, fun t ht => .inr ?_, fun hverified hbefore => ?_⟩
    · rw [World.linkTask, h.call]
      dsimp only
      rw [if_pos ⟨rfl, by rw [h.slot, h.intent]; exact hfresh⟩]
      exact ht
    · rw [h.slot, h.intent] at hbefore
      exact absurd hverified (by simp [hbefore])
  · refine .bind (write_spec rfl (.inl ⟨_, _, _, rfl⟩)) fun _ => ?_
    refine .bind (readComment_spec input) fun found => ?_
    refine .ite (fun hfound => ?_) fun _ => .pure fun w _ _ => trivial
    refine .bind (verify_link.pre fun w _ h => ⟨h.1, h.2 hfound⟩) fun _ => ?_
    exact .pure fun w _ _ => trivial

/-! ## proposals -/

theorem findTask_ok {input : ProposalInput} {task_id : Option String} {tasks : List Value}
    {task : Value} (h : findTask texts input task_id tasks = .ok (some task)) :
    task ∈ tasks ∧ Matches texts input task_id task := by
  obtain ⟨u, hreadable, h⟩ := bind_ok.mp h
  obtain ⟨u', hexplained, h⟩ := bind_ok.mp h
  obtain ⟨u'', hone, h⟩ := bind_ok.mp h
  have hmem := List.mem_of_head? (Except.ok.inj h)
  obtain ⟨hin, hmatch⟩ := List.mem_filter.mp hmem
  exact ⟨hin, by simpa using hmatch⟩

/-- **A read of the tasks.** -/
theorem find_spec (input : ProposalInput) (intent : WriteIntent) :
    Triple (writes texts) 0 (At c i a n) (find texts input intent)
      (fun r w => At c i a n w ∧ (r.isSome = true → HasTask texts input intent.task_id w))
      Any₂ := by
  refine .bind (R := fun answer w => At c i a n w ∧
      ∀ tasks, answer = .ok tasks → .tasks tasks ∈ w.seen)
    (.op (.alone alone_writes) (fun _ _ _ => trivial) ?_) fun answer => ?_
  · rintro w r w' - h ⟨-, ho⟩ -
    cases ho
    refine ⟨h.see _, ?_⟩
    rintro tasks rfl
    exact List.mem_append_left _ (by simp [Except.toOption])
  · cases hfound : answer >>= findTask texts input intent.task_id with
    | error e => exact .throw fun w _ _ => trivial
    | ok task =>
      refine .pure fun w _ h => ⟨h.1, fun hsome => ?_⟩
      obtain ⟨t, rfl⟩ := Option.isSome_iff_exists.mp hsome
      obtain ⟨tasks, hanswer, hfind⟩ := bind_ok.mp hfound
      obtain ⟨hin, hmatch⟩ := findTask_ok hfind
      exact ⟨tasks, h.2 tasks hanswer, t, hin, hmatch⟩

/-- a proposal whose task was read is verified. -/
theorem verify_proposal {input : ProposalInput} (task : Value) :
    Triple (writes texts) 0
      (fun w => At (.propose input) i a n w ∧ HasTask texts input a.task_id w)
      (persist (a.found texts task)) (fun _ _ => True) Any₂ := by
  refine (persist_spec fun w hi h htask => ?_).post (fun _ _ _ _ => trivial) fun _ _ _ h => h
  refine ⟨fun ha => ?_, fun t ht => .inl rfl, fun _ _ => ?_⟩
  · rw [h.slot, h.intent] at ha
    exact ha
  · rw [Evidence, World.verification, h.call, h.slot, h.intent]
    exact htask

/-- **`reconcileProposal`** writes once, and verifies what it read. -/
theorem reconcile_spec (input : ProposalInput) (intent : WriteIntent) :
    Triple (writes texts) 0 (At (.propose input) i intent n)
      (reconcileProposal texts input intent) Any₂ Any₂ := by
  refine .ite (fun _ => .throw fun w _ _ => trivial) fun _ => ?_
  refine .ite (fun _ => .throw fun w _ _ => trivial) fun _ => ?_
  refine .bind (find_spec input intent) fun existing => ?_
  cases existing with
  | some existing =>
    refine .bind ((verify_proposal existing).pre fun w _ h => ⟨h.1, h.2 rfl⟩) fun _ => ?_
    exact .pure fun w _ _ => trivial
  | none =>
    refine .ite (fun _ => .pure fun w _ _ => trivial) fun hattempted => ?_
    refine .ite (fun _ => .throw fun w _ _ => trivial) fun _ => ?_
    have hfresh : intent.attempted = false := by simpa using hattempted
    let attempt : WriteIntent := { intent with attempted := true }
    refine .bind (R := fun _ w => At (.propose input) i attempt 0 w) ?_ fun _ => ?_
    · refine (persist_spec (R := fun _ => True) fun w hi h _ => ?_).pre fun w hi h =>
        ⟨h.1.unwritten hi hfresh, trivial⟩
      refine ⟨fun _ => rfl, fun t ht => ?_, fun hverified hbefore => ?_⟩
      · have hnamed := hi.named i t (by rw [h.intent]; exact ht)
        rw [h.intent] at hnamed
        rw [World.linkTask, h.call, h.slot]
        exact hnamed
      · rw [h.slot, h.intent] at hbefore
        exact absurd hverified (by simp [hbefore])
    · refine .bind (write_spec rfl (.inr ⟨_, _, _, _, _, rfl⟩)) fun _ => ?_
      refine .bind (find_spec input attempt) fun created => ?_
      cases created with
      | none => exact .pure fun w _ _ => trivial
      | some created =>
        dsimp only
        cases assertTask created input.workspace input.channel with
        | error e => exact .throw fun w _ _ => trivial
        | ok u =>
          refine .bind ((verify_proposal created).pre fun w _ h => ⟨h.1, h.2 rfl⟩) fun _ => ?_
          exact .pure fun w _ _ => trivial

end

/-! ## digests -/

section
variable {state : DeliveryState} {input : DigestInput} {hash : String}

theorem persistState_spec {P Q : World → Prop}
    (hmay : ∀ w, Inv texts w → P w → MayPersistState state w)
    (hQ : ∀ w, Inv texts w → P w → Q (w.storeState state)) :
    Triple (writes texts) 0 P (persistState state) (fun _ w => Q w) Any₂ := by
  refine .tryOp (.alone alone_writes) hmay ?_ fun _ _ _ _ _ _ _ _ _ => trivial
  rintro w r w' u hi h ⟨-, ho⟩ - hr
  cases ho with
  | persistState state w r stored hstored =>
    rw [hstored hr, if_pos rfl]
    exact hQ w hi h

theorem readback_spec (body : String) :
    Triple (writes texts) 0 (fun w => w.delivery = state) (readback body)
      (fun r w => w.delivery = state ∧ (r = true → .back body ∈ w.seen)) Any₂ := by
  refine .tryOp (.alone alone_writes) (fun _ _ _ => trivial) ?_ fun _ _ _ _ _ _ _ _ _ => trivial
  rintro w r w' a - h ⟨-, ho⟩ - hr
  cases ho with
  | readback body w r =>
    refine ⟨h, ?_⟩
    rintro rfl
    have hr' : r = .ok true := hr
    simp [World.see, hr']

/-- a digest that was read back is delivered. -/
theorem delivered_spec {pending : Pending} (hpending : state.pending = some pending)
    (hbody : pending.body = input.body) :
    Triple (writes texts) 0 (fun w => w.delivery = state ∧ .back input.body ∈ w.seen)
      (persistState (state.delivered texts input hash)) (fun _ _ => True) Any₂ := by
  have hnone : (state.delivered texts input hash).pending = none := by
    unfold DeliveryState.delivered
    cases input.kind <;> rfl
  refine persistState_spec (fun w _ h => ⟨fun p p' _ hp' => ?_, fun p hp _ => ?_⟩)
    fun _ _ _ => trivial
  · rw [hnone] at hp'
    cases hp'
  · rw [h.1, hpending] at hp
    obtain rfl := Option.some.inj hp
    exact hbody ▸ h.2

/-- **`deliverDigest`** with a pending digest sends it once. -/
theorem sendOnce_spec {pending : Pending} (hpending : state.pending = some pending)
    (hbody : pending.body = input.body) :
    Triple (writes texts) 0 (fun w => w.delivery = state)
      (sendOnce texts state pending input hash) Any₂ Any₂ := by
  refine .bind (readback_spec input.body) fun found => ?_
  refine .ite (fun hfound => ?_) fun _ => ?_
  · refine .bind ((delivered_spec hpending hbody).pre fun w _ h => ⟨h.1, h.2 hfound⟩) fun _ => ?_
    exact .pure fun w _ _ => trivial
  refine .ite (fun _ => .pure fun w _ _ => trivial) fun hattempted => ?_
  let attempt : DeliveryState := { state with pending := some { pending with attempted := true } }
  refine .bind (R := fun _ w => w.delivery = attempt ∧ w.sent w.digest = 0) ?_ fun _ => ?_
  · refine persistState_spec (fun w _ h => ⟨fun p p' _ hp' _ => ?_, fun p _ hp => ?_⟩)
      fun w hi h => ⟨rfl, ?_⟩
    · obtain rfl := Option.some.inj hp'
      rfl
    · simp at hp
    · have hsame : (w.storeState attempt).digest = w.digest := by
        simp [World.storeState, h.1, hpending]
      rw [hsame]
      have honce := hi.sentOnce w.digest
      by_contra hne
      have := hi.pending (by change w.sent w.digest ≠ 0 at hne; omega) pending
        (by rw [h.1, hpending])
      exact hattempted this
  · refine .bind (R := fun _ w => w.delivery = attempt)
      (.op (.alone alone_writes) (fun w _ h => ⟨h.2, fun p hp => ?_⟩) ?_) fun r => ?_
    · rw [h.1] at hp
      obtain rfl := Option.some.inj hp
      rfl
    · rintro w r w' - h ⟨-, ho⟩ -
      cases ho
      exact h.1
    · cases r with
      | error e => exact .pure fun w _ _ => trivial
      | ok u =>
        refine .bind (readback_spec input.body) fun found => ?_
        refine .ite (fun hfound => ?_) fun _ => .pure fun w _ _ => trivial
        have hpending : attempt.pending = some { pending with attempted := true } := rfl
        refine .bind ((delivered_spec hpending hbody).pre fun w _ h => ⟨h.1, h.2 hfound⟩)
          fun _ => ?_
        exact .pure fun w _ _ => trivial

/-- **`deliverDigest`** sends a pending digest once. -/
theorem deliver_spec : Triple (writes texts) 0 (fun w => w.delivery = state)
    (deliverDigest texts input state) Any₂ Any₂ := by
  refine .ite (fun _ => .throw fun w _ _ => trivial) fun _ => ?_
  refine .ite (fun _ => .pure fun w _ _ => trivial) fun _ => ?_
  refine .ite (fun _ => .pure fun w _ _ => trivial) fun _ => ?_
  refine .ite (fun _ => .throw fun w _ _ => trivial) fun hbody => ?_
  let next : DeliveryState := { state with pending := some (state.pending.getD
    { signature := input.hash texts, body := input.body, kind := input.kind }) }
  refine .bind (R := fun _ w => w.delivery = next) (persistState_spec
    (fun w _ h => ⟨fun p p' hp hp' hattempted => ?_, fun p _ hp => ?_⟩) fun w _ _ => rfl)
    fun _ => sendOnce_spec rfl (not_not.mp hbody)
  · obtain rfl := Option.some.inj hp'
    rw [h] at hp
    simpa [hp] using hattempted
  · cases hp

end

/-! ## all invocations -/

/-- every invocation keeps the invariant. -/
theorem invoked_keeps {p : Prog api Unit} (hi : (writes texts).Inv w) (h : Invoked texts w p w') :
    (writes texts).Inv w' ∧ wp (writes texts) 0 p (fun _ _ => True) w' := by
  have hinv : ∀ c i, Inv texts { w with call := c, slot := i, seen := [] } := fun c i =>
    ⟨hi.once, hi.kept, hi.named, hi.evidence, hi.sentOnce, hi.future, hi.pending, hi.delivered⟩
  cases h with
  | link i input =>
    exact ⟨hinv _ i, (link_spec (n := w.wrote i) input (w.intents i)).detachFrom (hinv _ i)
      ⟨rfl, rfl, rfl, rfl⟩⟩
  | propose i input =>
    exact ⟨hinv _ i, (reconcile_spec (n := w.wrote i) input (w.intents i)).detachFrom (hinv _ i)
      ⟨rfl, rfl, rfl, rfl⟩⟩
  | deliver input => exact ⟨hinv _ w.slot, deliver_spec.detachFrom (hinv _ w.slot) rfl⟩

/-- nothing was attempted yet. -/
structure Fresh (w : World) : Prop where
  intents : ∀ i, (w.intents i).attempted = false ∧ (w.intents i).task_id = none ∧
    (w.intents i).verified = false
  delivery : w.delivery.pending = none
  wrote : ∀ i, w.wrote i = 0
  sent : ∀ d, w.sent d = 0
  verified : w.verified = []
  delivered : w.delivered = []

/-- texts of the values below. -/
def plainTexts : Texts where
  toText
    | str s => s
    | _ => "undefined"
  stringify _ := "{}"
  signature _ := "5feceb66ffc86f38"
  dateParse _ := none
  isoDate _ := "2026-01-01T00:00:00.000Z"

def bugTask : Value :=
  obj [("id", str "t"), ("workspace_id", str "w"), ("channel_id", str "a"), ("row_version", num 3)]

/-- the response of the comment is lost, and no comment is found. -/
def lostAns : (o : Op) → World → o.Ans
  | .showTask .., _ => .ok (obj [("task", bugTask)])
  | .listTaskComments .., _ => .ok (obj [("comments", arr [])])
  | .commentTask .., _ | .createTask .., _ => .error "lost"
  | .readCompleteTasks, _ => .ok [bugTask]
  | .readback _, _ => .ok false
  | .persist _, _ | .persistState _, _ | .send _, _ => .ok ()

def lostEffect : Op → World → World
  | .showTask .., w => w
  | .listTaskComments .., w => w.see [.comments (obj [("comments", arr [])])]
  | .commentTask .., w | .createTask .., w => w.write
  | .readCompleteTasks, w => w.see [.tasks [bugTask]]
  | .persist intent, w => w.store intent
  | .readback _, w => w.see []
  | .send _, w => w.sendOne
  | .persistState state, w => w.storeState state

theorem lost_performs (o : Op) (w : World) : Performs o w (lostAns o w) (lostEffect o w) := by
  cases o with
  | showTask => exact .showTask _ _ w _
  | listTaskComments => exact .comments _ _ _ w (.ok _)
  | commentTask => exact .commentTask _ _ _ w _
  | createTask => exact .createTask _ _ _ _ _ w _
  | readCompleteTasks => exact .tasks w (.ok _)
  | persist intent => exact .persist intent w (.ok ()) true fun _ => rfl
  | readback => exact .readback _ w (.ok false)
  | send => exact .send _ w _
  | persistState state => exact .persistState state w (.ok ()) true fun _ => rfl

def bugLink : LinkInput := { workspace := "w", channel := "a", task := "t", body := "routed" }

def bugProposal : ProposalInput :=
  { workspace := "w", channel := "a", title := "bug", body := "routed", key := "boundary"
    sourceIds := ["11111111-1111-4111-8111-111111111111"] }

def freshWorld : World := { intents := fun _ => { body := "routed" }, call := .link bugLink }

theorem freshWorld_fresh : Fresh freshWorld :=
  ⟨fun _ => ⟨rfl, rfl, rfl⟩, rfl, fun _ => rfl, fun _ => rfl, rfl, rfl⟩

/-- the world after the link. -/
def linkedWorld : World :=
  ((linkExistingTask bugLink (freshWorld.intents 0)).detach.run lostAns lostEffect freshWorld).2

/-- the world after the proposal. -/
def proposedWorld : World :=
  ((reconcileProposal plainTexts bugProposal (linkedWorld.intents 0)).detach.run lostAns lostEffect
    { linkedWorld with call := .propose bugProposal, seen := [] }).2

theorem lost_solo (p : Prog api Unit) (w : World)
    (hp : p.allowed lostAns lostEffect (fun _ _ => true) w = true) :
    Solo (System.alone (A := api) Performs) 0 p w (.ret ()) (p.run lostAns lostEffect w).2 := by
  have hperform : ∀ (o : Op) (w : World), true = true →
      (System.alone (A := api) Performs).perform 0 o w (lostAns o w) (lostEffect o w) :=
    fun o w _ => ⟨rfl, lost_performs o w⟩
  exact Solo.of_run hperform p w hp

theorem linked_turns : Turns (System.alone Performs) (Invoked plainTexts) freshWorld linkedWorld :=
  .single (.intro (.link freshWorld 0 bugLink) (lost_solo _ _ (by decide +kernel)))

/-- only tasks were read that are not named and have no description. -/
def unmarked (v : Verification) : Bool :=
  match v.call with
  | .propose input => v.seen.all fun
    | .tasks tasks => tasks.all fun t =>
      idText plainTexts t ∉ input.matchingTaskIds && t.get "description" = undefined
    | _ => false
  | _ => false

end Writes
end Consolidation
end WmAutopilot
