import WmAutopilot.AgentChat.AgentInbox

/-!
# Polls of the strict inbox among others

* `World.recorded`, `World.Acked`   what the ledger says of a notification;
* `Exit`                  why an outcome is recorded, one constructor for each exit of `handle`;
* `Inv`, `may`, `polls`   the invariant of the stores and what a poll may ask for, where a fact that
                          needs one loop alone is guarded by `single`;
* `finish_triple`, `handle_triple`, `pollOnce_triple`   the programs;
* `polls_keeps`           **every poll keeps the invariant**, among any number of others.
-/

set_option autoImplicit false
set_option linter.unusedVariables false

namespace WmAutopilot
namespace AgentInbox
open Js Value Async

/-! ## rows -/

/-- the outcome and the code that are recorded of a notification. -/
def World.recorded (w : World) (key : Key) : Option (AckOutcome × Option String) :=
  recordedOutcome (w.ledger key)

/-- the notification is locally acknowledged. -/
def World.Acked (w : World) (key : Key) : Prop := ((w.ledger key).bind (·.ackedAt)).isSome = true

/-- the attempts that were counted. -/
def World.attempts (w : World) (key : Key) : ℕ := ((w.ledger key).map (·.attempts)).getD 0

section
variable {n : Envelope} {time : String} {outcome : AckOutcome} {code : Option String}
  {row : Option LedgerRow}

theorem recordedOutcome_attemptRow :
    recordedOutcome (some (attemptRow n time row)) = recordedOutcome row := by
  cases row <;> rfl

theorem recordedOutcome_handledRow :
    recordedOutcome (some (handledRow n outcome code time row)) = some (outcome, code) := by
  cases row <;> rfl

theorem recordedOutcome_ackedRow :
    recordedOutcome (row.map fun row => { row with ackedAt := some time }) =
      recordedOutcome row := by
  cases row <;> rfl

theorem attemptRow_ackedAt :
    (some (attemptRow n time row)).bind (·.ackedAt) = row.bind (·.ackedAt) := by
  cases row <;> rfl

theorem handledRow_ackedAt :
    (some (handledRow n outcome code time row)).bind (·.ackedAt) = row.bind (·.ackedAt) := by
  cases row <;> rfl

theorem attemptRow_attempts :
    (attemptRow n time row).attempts = (row.map (·.attempts)).getD 0 + 1 := by
  cases row <;> rfl

theorem handledRow_attempts :
    (handledRow n outcome code time row).attempts = (row.map (·.attempts)).getD 0 := by
  cases row <;> rfl

end

section
variable {κ : ℕ} {w w' : World} {key : Key}

/-! ## what one operation does -/

/-- What an operation does to the row of a notification. -/
theorem perform_row {o : InboxOp} {r : o.Ans} (ho : perform κ o w r w') (key : Key) :
    w'.ledger key = w.ledger key ∨
    (∃ sub n time, o = .beginAttempt sub n ∧ key = (sub, n.id) ∧
      w'.ledger key = some (attemptRow n time (w.ledger key))) ∨
    (∃ sub n outcome code time, o = .markHandled sub n outcome code ∧ key = (sub, n.id) ∧
      w'.ledger key = some (handledRow n outcome code time (w.ledger key))) ∨
    (∃ sub n time, o = .markAcked sub n ∧ key = (sub, n.id) ∧
      w'.ledger key = (w.ledger key).map fun row => { row with ackedAt := some time }) := by
  have other : ∀ {key' : Key} {row : Option LedgerRow} {u : World}, key ≠ key' →
      u.ledger = Function.update w.ledger key' row → u.ledger key = w.ledger key := by
    intro key' row u hne hu
    rw [hu, Function.update_of_ne hne]
  cases o with
  | beginAttempt sub n =>
    obtain ⟨time, rfl, rfl⟩ := ho
    by_cases e : key = (sub, n.id)
    · subst e
      exact .inr (.inl ⟨sub, n, time, rfl, rfl, Function.update_self ..⟩)
    · exact .inl (other e rfl)
  | markHandled sub n outcome code =>
    obtain ⟨time, rfl⟩ := ho
    by_cases e : key = (sub, n.id)
    · subst e
      exact .inr (.inr (.inl ⟨sub, n, outcome, code, time, rfl, rfl, Function.update_self ..⟩))
    · exact .inl (other e rfl)
  | markAcked sub n =>
    obtain ⟨time, rfl⟩ := ho
    by_cases e : key = (sub, n.id)
    · subst e
      exact .inr (.inr (.inr ⟨sub, n, time, rfl, rfl, Function.update_self ..⟩))
    · exact .inl (other e rfl)
  | get | update | ledger =>
    obtain ⟨-, rfl⟩ := ho
    exact .inl rfl
  | setMode | beginActive | endActive | createSubscription | list | context | ack
  | reconcile | dispatch | settle =>
    obtain rfl := ho
    exact .inl rfl

/-- only `markHandled` records an outcome. -/
theorem perform_recorded {o : InboxOp} {r : o.Ans} (ho : perform κ o w r w') (key : Key) :
    w'.recorded key = w.recorded key ∨ ∃ sub n outcome code, o = .markHandled sub n outcome code ∧
      key = (sub, n.id) ∧ w'.recorded key = some (outcome, code) := by
  unfold World.recorded
  rcases perform_row ho key with h | ⟨sub, n, time, rfl, hkey, h⟩ |
    ⟨sub, n, outcome, code, time, rfl, hkey, h⟩ | ⟨sub, n, time, rfl, hkey, h⟩
  · exact .inl (congrArg recordedOutcome h)
  · exact .inl (by rw [h, recordedOutcome_attemptRow])
  · exact .inr ⟨sub, n, outcome, code, rfl, hkey, by rw [h, recordedOutcome_handledRow]⟩
  · exact .inl (by rw [h, recordedOutcome_ackedRow])

theorem perform_recorded_isSome {o : InboxOp} {r : o.Ans} (ho : perform κ o w r w')
    (h : (w.recorded key).isSome = true) : (w'.recorded key).isSome = true := by
  rcases perform_recorded ho key with he | ⟨sub, n, outcome, code, -, -, he⟩ <;> rw [he]
  · exact h
  · rfl

/-- only `markAcked` acknowledges. -/
theorem perform_acked {o : InboxOp} {r : o.Ans} (ho : perform κ o w r w') (key : Key) :
    (w'.Acked key ↔ w.Acked key) ∨ ∃ sub n, o = .markAcked sub n ∧ key = (sub, n.id) ∧
      (w'.Acked key ↔ (w.ledger key).isSome = true) := by
  unfold World.Acked
  rcases perform_row ho key with h | ⟨sub, n, time, rfl, hkey, h⟩ |
    ⟨sub, n, outcome, code, time, rfl, hkey, h⟩ | ⟨sub, n, time, rfl, hkey, h⟩
  · exact .inl (by rw [h])
  · exact .inl (by rw [h, attemptRow_ackedAt])
  · exact .inl (by rw [h, handledRow_ackedAt])
  · refine .inr ⟨sub, n, rfl, hkey, ?_⟩
    rw [h]
    cases w.ledger key <;> simp

/-- **An acknowledgement is never taken back.** -/
theorem acked_perform {o : InboxOp} {r : o.Ans} (h : w.Acked key) (ho : perform κ o w r w') :
    w'.Acked key := by
  rcases perform_acked ho key with he | ⟨sub, n, -, -, he⟩
  · exact he.mpr h
  · refine he.mpr ?_
    unfold World.Acked at h
    cases hrow : w.ledger key with
    | none => simp [hrow] at h
    | some row => rfl

/-- only `beginAttempt` counts. -/
theorem perform_attempts {o : InboxOp} {r : o.Ans} (ho : perform κ o w r w') (key : Key) :
    w.attempts key ≤ w'.attempts key := by
  unfold World.attempts
  rcases perform_row ho key with h | ⟨sub, n, time, -, -, h⟩ |
    ⟨sub, n, outcome, code, time, -, -, h⟩ | ⟨sub, n, time, -, -, h⟩ <;> rw [h]
  · rw [Option.map_some, Option.getD_some, attemptRow_attempts]
    exact Nat.le_succ _
  · rw [Option.map_some, Option.getD_some, handledRow_attempts]
  · cases w.ledger key <;> exact Nat.le_refl _

end

/-! ## why an outcome is recorded -/

/-- what answers are given. -/
abbrev Answers := (o : InboxOp) → World → o.Ans → Prop

section
variable (R : Answers) (host : Host) (sub : String) (n : Envelope)

/-- **Why an outcome is recorded**: the exits of `handle` that record one. -/
inductive Exit : AckOutcome → Option String → Prop where
  | revoked (h : n.state = "revoked") : Exit .suppressed (some "revoked")
  | malformed (h : n.source = none ∨ truthyText n.kind = false) :
      Exit .failedPermanent (some "malformed_envelope")
  | reconciled (since : String) (w : World) (h : R (.reconcile sub n since) w (.ok true)) :
      Exit .handled (some "reconciled_in_flight")
  | maxAttempts (w : World) (row : LedgerRow) (h : R (.beginAttempt sub n) w row)
      (hrow : row.attempts = w.attempts (sub, n.id) + 1) (hmax : host.maxAttempts < row.attempts) :
      Exit .failedPermanent (some "max_attempts")
  | sourceGone (w : World) (e : AgentInboxError) (h : R (.context sub n) w (.error (.inbox e)))
      (he : e.errorClass = .sourceGone) : Exit .sourceGone (some "source_gone")
  | relationship (w : World) (e : AgentInboxError) (h : R (.context sub n) w (.error (.inbox e)))
      (he : e.errorClass = .relationship) : Exit .suppressed (some e.code)
  | notFound (w : World) (e : AgentInboxError) (h : R (.context sub n) w (.error (.inbox e)))
      (he : e.errorClass = .notFound) : Exit .suppressed (some "not_found")
  | flow (w : World) (context : Context) (h : R (.context sub n) w (.ok context))
      (hflow : flowLinkedTaskMarkers context ≠ []) :
      Exit .failedPermanent (some "agent_inbox_flow_unsupported")
  | unsupportedKind (source : Source) (hs : n.source = some source)
      (h : synthesizeInboxEvents n source = []) : Exit .suppressed (some "unsupported_kind")
  | unbound (w : World) (event : FlightDeckPgEvent) (message : String)
      (h : R (.settle sub n event) w (.error (.unbound message))) :
      Exit .failedPermanent (some "context_unbound")
  | refused (w : World) (event : FlightDeckPgEvent) (e : Failure)
      (h : R (.settle sub n event) w (.error e)) (he : e.status = 403) :
      Exit .failedPermanent (some e.refusalCode)
  | handled (source : Source) (hs : n.source = some source)
      (h : ∀ event ∈ synthesizeInboxEvents n source, ∃ w, R (.settle sub n event) w (.ok ())) :
      Exit .handled none

end

/-- an outcome of a notification that was handed to a poll has one of these causes. -/
def Caused (R : Answers) (host : Host) (key : Key) (outcome : AckOutcome) (code : Option String) :
    Prop :=
  ∃ sub n, key = (sub, n.id) ∧ (∃ w r, R (.ledger sub n) w r) ∧ Exit R host sub n outcome code

/-- the outcome is recorded already, or one loop knows that none is. -/
def Records (single : Prop) (key : Key) (outcome : AckOutcome) (code : Option String) (w : World) :
    Prop :=
  w.recorded key = some (outcome, code) ∨ (single → w.recorded key = none)

/-! ## the discipline -/

/-- a cursor is set to what its source says, and past a page when all of it is acknowledged. -/
def Moves (w : World) (sub : String) (patch : Patch) : CursorSource → Prop
  | .none => patch.cursor = none
  | .created subscription => patch.cursor = some (some subscription.cursor)
  | .recovery error => patch.cursor = some error.recoveryCursor ∧ error.errorClass = .gap
  | .reset => patch.cursor = some none
  | .page page => patch.cursor = some (some page.nextCursor) ∧
      ∀ n ∈ page.notifications, w.Acked (sub, n.id)

section
variable (R : Answers) (host : Host) (single : Prop)

/-- What a poll may ask for. -/
def Asked (κ : ℕ) (w : World) : InboxOp → Prop
  | .update sub patch source => Moves w sub patch source
  | .markHandled sub n outcome code =>
    Caused R host (sub, n.id) outcome code ∧ Records single (sub, n.id) outcome code w
  | .markAcked sub n => (w.recorded (sub, n.id)).isSome = true
  | .beginActive sub n => single → w.recorded (sub, n.id) = none ∧
      w.begun (sub, n.id) < w.attempts (sub, n.id) ∧ w.attempts (sub, n.id) ≤ host.maxAttempts
  | .endActive sub n => (κ, (sub, n.id)) ∈ w.running
  | .dispatch sub n event => (κ, (sub, n.id)) ∈ w.running ∧
      (single → w.recorded (sub, n.id) = none)
  | .ack sub n outcome code => Caused R host (sub, n.id) outcome code ∧
      (single → w.recorded (sub, n.id) = some (outcome, code))
  | _ => True

def InboxOp.setsMode : InboxOp → Bool
  | setMode .. => true
  | _ => false

/-- what a thread may ask for; beside one loop an operator only sets modes. -/
def may (κ : ℕ) (o : InboxOp) (w : World) : Prop :=
  Asked R host single κ w o ∧ (single → κ = 0 ∨ o.setsMode = true)

/-- The invariant. -/
structure Inv (w : World) : Prop where
  acked : ∀ key, w.Acked key → (w.recorded key).isSome = true
  caused : ∀ key outcome code, w.recorded key = some (outcome, code) →
    Caused R host key outcome code
  active : ∀ key, w.active key = w.running.countP (·.2 = key)
  begun : single → ∀ key, w.begun key ≤ w.attempts key ∧ w.begun key ≤ host.maxAttempts

/-- polls that get answers of `R`, of one loop if `single`. -/
structure Polls (M : System api World) : Prop where
  perform : ∀ {κ o w r w'}, M.perform κ o w r w' → R o w r ∧ AgentInbox.perform κ o w r w'
  spawn : ∀ {w κ p}, M.spawn w κ p → Spawn host κ p
  single : single → ∀ {w κ sub lastError}, M.spawn w κ (pollOnce host sub lastError).detach → κ = 0
  crash : ∀ {w w'}, M.crash w w' → w' = w.restarted

/-- the polls with their invariant. -/
def polls (M : System api World) : Discipline api World :=
  { M with Inv := Inv R host single, may := may R host single }

theorem polls_restricted : Polls R host False (restricted host R) where
  perform h := h
  spawn h := h
  single h := h.elim
  crash h := h

theorem polls_loop : Polls (fun _ _ _ => True) host True (loop host) where
  perform h := h
  spawn h := h.1
  single _ _ _ sub lastError h := h.2 ⟨sub, lastError, rfl⟩
  crash h := h

variable {R host single}

theorem Inv.initial {w : World} (h : w.Initial) : Inv R host single w := by
  subst h
  refine ⟨fun key h => ?_, fun key outcome code h => ?_, fun key => rfl,
    fun _ key => ⟨Nat.zero_le _, Nat.zero_le _⟩⟩
  · cases h
  · cases h

theorem Inv.restarted {w : World} (h : Inv R host single w) : Inv R host single w.restarted :=
  ⟨h.acked, h.caused, fun key => rfl, h.begun⟩

end

/-! ## one permitted operation -/

/-- an operation on the attempts of this process. -/
def InboxOp.onAttempts : InboxOp → Bool
  | beginActive .. | endActive .. => true
  | _ => false

section
variable {R : Answers} {host : Host} {single : Prop} {κ : ℕ} {w w' : World}

theorem perform_attempted {o : InboxOp} {r : o.Ans} (h : o.onAttempts = false)
    (ho : perform κ o w r w') :
    w'.active = w.active ∧ w'.running = w.running ∧ w'.begun = w.begun := by
  cases o with
  | beginActive | endActive => cases h
  | beginAttempt | markHandled | markAcked =>
    obtain ⟨time, ho⟩ := ho
    first | obtain rfl := ho | obtain ⟨-, rfl⟩ := ho
    exact ⟨rfl, rfl, rfl⟩
  | get | update | ledger =>
    obtain ⟨-, rfl⟩ := ho
    exact ⟨rfl, rfl, rfl⟩
  | setMode | createSubscription | list | context | ack | reconcile | dispatch | settle =>
    obtain rfl := ho
    exact ⟨rfl, rfl, rfl⟩

theorem countP_begin (running : List (ℕ × Key)) (key key' : Key) :
    ((κ, key) :: running).countP (·.2 = key') =
      Function.update (fun key => running.countP (·.2 = key)) key
        (running.countP (·.2 = key) + 1) key' := by
  by_cases e : key' = key
  · subst e
    simp
  · simp [e, Ne.symm e]

theorem countP_end {running : List (ℕ × Key)} {key : Key} (h : (κ, key) ∈ running) (key' : Key) :
    (running.erase (κ, key)).countP (·.2 = key') =
      Function.update (fun key => running.countP (·.2 = key)) key
        (running.countP (·.2 = key) - 1) key' := by
  have hperm := (List.perm_cons_erase h).countP_eq (p := fun x => decide (x.2 = key'))
  rw [List.countP_cons] at hperm
  by_cases e : key' = key
  · subst e
    simp [hperm]
  · simp [e, Ne.symm e, hperm]

/-- **One permitted operation keeps the invariant.** -/
theorem Inv.perform {o : InboxOp} {r : o.Ans} (h : Inv R host single w)
    (hask : Asked R host single κ w o) (ho : perform κ o w r w') : Inv R host single w' := by
  have hacked : ∀ key, w'.Acked key → (w'.recorded key).isSome = true := by
    intro key hkey
    rcases perform_acked ho key with he | ⟨sub, n, rfl, rfl, -⟩
    · exact perform_recorded_isSome ho (h.acked key (he.mp hkey))
    · exact perform_recorded_isSome ho hask
  have hcaused : ∀ key outcome code, w'.recorded key = some (outcome, code) →
      Caused R host key outcome code := by
    intro key outcome code hkey
    rcases perform_recorded ho key with he | ⟨sub, n, outcome', code', rfl, rfl, he⟩
    · exact h.caused key outcome code (he ▸ hkey)
    · obtain ⟨rfl, rfl⟩ := Prod.mk.inj (Option.some.inj (he.symm.trans hkey))
      exact hask.1
  cases hon : o.onAttempts with
  | false =>
    obtain ⟨ha, hr, hb⟩ := perform_attempted hon ho
    refine ⟨hacked, hcaused, fun key => ?_, fun hs key => ?_⟩
    · rw [ha, hr]
      exact h.active key
    · rw [hb]
      obtain ⟨h₁, h₂⟩ := h.begun hs key
      exact ⟨Nat.le_trans h₁ (perform_attempts ho key), h₂⟩
  | true =>
    have hactive : w.active = fun key => w.running.countP (·.2 = key) := funext h.active
    cases o with
    | beginActive sub n =>
      obtain rfl := ho
      refine ⟨hacked, hcaused, fun key => ?_, fun hs key => ?_⟩
      · rw [countP_begin, ← hactive, ← h.active]
      · show Function.update w.begun (sub, n.id) (w.begun (sub, n.id) + 1) key ≤ w.attempts key ∧
          Function.update w.begun (sub, n.id) (w.begun (sub, n.id) + 1) key ≤ host.maxAttempts
        by_cases e : key = (sub, n.id)
        · subst e
          obtain ⟨-, h₁, h₂⟩ := hask hs
          rw [Function.update_self]
          exact ⟨h₁, Nat.le_trans h₁ h₂⟩
        · rw [Function.update_of_ne e]
          exact h.begun hs key
    | endActive sub n =>
      obtain rfl := ho
      refine ⟨hacked, hcaused, fun key => ?_, h.begun⟩
      rw [countP_end hask, ← hactive, ← h.active]
    | _ => cases hon

variable {M : System api World}

/-! ## what the other polls keep -/

theorem stable_of_perform (hM : Polls R host single M) {P : World → Prop}
    (h : ∀ κ o w r w', perform κ o w r w' → P w → P w') : Stable (polls R host single M) κ P := by
  rintro w w' hp ⟨κ', o, r, -, -, -, ho⟩
  exact h κ' o w r w' (hM.perform ho).2 hp

/-- beside one loop, only the states change. -/
theorem stable_single (hM : Polls R host single M) (hκ : single → κ = 0) {P : World → Prop}
    (h : ∀ w states, P w → P { w with states }) :
    Stable (polls R host single M) κ fun w => single → P w := by
  rintro w w' hp ⟨κ', o, r, hne, -, hmay, ho⟩ hs
  rcases hmay.2 hs with rfl | hset
  · exact absurd (hκ hs).symm hne
  · cases o with
    | setMode sub mode consumerId =>
      obtain rfl := (hM.perform ho).2
      exact h w _ (hp hs)
    | _ => cases hset

/-- a poll alone ends the attempts that it began. -/
theorem stable_running (hM : Polls R host single M) (key : Key) :
    Stable (polls R host single M) κ fun w => (κ, key) ∈ w.running := by
  rintro w w' hp ⟨κ', o, r, hne, -, -, ho⟩
  have ho := (hM.perform ho).2
  cases hon : o.onAttempts with
  | false =>
    rw [(perform_attempted hon ho).2.1]
    exact hp
  | true =>
    cases o with
    | beginActive sub n =>
      obtain rfl := ho
      exact List.mem_cons_of_mem _ hp
    | endActive sub n =>
      obtain rfl := ho
      refine (List.mem_erase_of_ne ?_).mpr hp
      exact fun e => hne (congrArg Prod.fst e).symm
    | _ => cases hon

end

/-! ## the programs -/

theorem recorded_markHandled {κ : ℕ} {w w' : World} {sub : String} {n : Envelope}
    {outcome : AckOutcome} {code : Option String}
    (ho : perform κ (.markHandled sub n outcome code) w () w') :
    w'.recorded (sub, n.id) = some (outcome, code) := by
  obtain ⟨time, rfl⟩ := ho
  show recordedOutcome (Function.update w.ledger (sub, n.id) _ (sub, n.id)) = _
  rw [Function.update_self, recordedOutcome_handledRow]

theorem acked_markAcked {κ : ℕ} {w w' : World} {sub : String} {n : Envelope}
    (h : (w.recorded (sub, n.id)).isSome = true) (ho : perform κ (.markAcked sub n) w () w') :
    w'.Acked (sub, n.id) := by
  obtain ⟨time, rfl⟩ := ho
  show ((Function.update w.ledger (sub, n.id) _ (sub, n.id)).bind _).isSome = true
  rw [Function.update_self]
  unfold World.recorded at h
  cases hrow : w.ledger (sub, n.id) with
  | none => simp [hrow, recordedOutcome] at h
  | some row => rfl

section
variable {R : Answers} {host : Host} {single : Prop} {M : System api World}
  (hM : Polls R host single M) {κ : ℕ} (hκ : single → κ = 0) {sub : String} {n : Envelope}
  {outcome : AckOutcome} {code : Option String} {lastError : Option Failure}

/-- a notification that is done is acknowledged. -/
abbrev DoneAcked (sub : String) (n : Envelope) (handled : Handled) (w : World) : Prop :=
  handled.1 = .done → w.Acked (sub, n.id)

/-- the notification is left for another poll. -/
theorem left_triple {result : HandleResult} {P : World → Prop} (h : result ≠ .done) :
    Triple (polls R host single M) κ P (pure (result, lastError) : Task Handled)
      (DoneAcked sub n) Any₂ :=
  Triple.pure fun w _ _ hdone => absurd hdone h

include hM hκ

/-- the row is acknowledged, and the handling is done. -/
theorem acked_triple :
    Triple (polls R host single M) κ (fun w => (w.recorded (sub, n.id)).isSome = true)
      (do op (.markAcked sub n); pure (.done, lastError)) (DoneAcked sub n) Any₂ := by
  refine Triple.bind (R := fun _ w => w.Acked (sub, n.id)) (Triple.opNow rfl
    (fun w hi h => ⟨h, fun hs => .inl (hκ hs)⟩) fun w r w' hi h ho _ => ?_) fun _ => ?_
  · exact acked_markAcked h (hM.perform ho).2
  · exact Triple.pure fun w _ h _ => h

/-- **An outcome is recorded and acknowledged.** -/
theorem finish_triple (hc : Caused R host (sub, n.id) outcome code) :
    Triple (polls R host single M) κ (Records single (sub, n.id) outcome code)
      (finish sub n outcome code lastError) (DoneAcked sub n) Any₂ := by
  have hstable : Stable (polls R host single M) κ fun w => (w.recorded (sub, n.id)).isSome = true ∧
      (single → w.recorded (sub, n.id) = some (outcome, code)) :=
    (stable_of_perform hM fun _ _ _ _ _ ho h => perform_recorded_isSome ho h).and
      (stable_single hM hκ fun _ _ h => h)
  refine Triple.bind (R := fun _ w => (w.recorded (sub, n.id)).isSome = true ∧
    (single → w.recorded (sub, n.id) = some (outcome, code))) (Triple.opNow rfl
    (fun w hi h => ⟨⟨hc, h⟩, fun hs => .inl (hκ hs)⟩) fun w r w' hi h ho _ => ?_) fun _ => ?_
  · have he := recorded_markHandled (hM.perform ho).2
    exact ⟨by rw [he]; rfl, fun _ => he⟩
  refine Triple.bind (R := fun _ w => (w.recorded (sub, n.id)).isSome = true) (Triple.op hstable
    (fun w hi h => ⟨⟨hc, h.2⟩, fun hs => .inl (hκ hs)⟩) fun w r w' hi h ho _ => ?_)
    fun answer => ?_
  · obtain rfl := (hM.perform ho).2
    exact h.1
  cases answer with
  | ok _ => exact acked_triple hM hκ
  | error error =>
    refine Triple.ite (fun _ => acked_triple hM hκ) fun _ => Triple.pure fun w _ h hdone => ?_
    dsimp only at hdone
    split at hdone <;> cases hdone

/-- a notification of which one loop knows that nothing is recorded. -/
def Open (single : Prop) (sub : String) (n : Envelope) (w : World) : Prop :=
  single → w.recorded (sub, n.id) = none

theorem stable_open : Stable (polls R host single M) κ (Open single sub n) :=
  stable_single hM hκ fun _ _ h => h

/-- an exit of the handler. -/
theorem exit_triple (hn : ∃ w r, R (.ledger sub n) w r) (hexit : Exit R host sub n outcome code) :
    Triple (polls R host single M) κ (Open single sub n) (finish sub n outcome code lastError)
      (DoneAcked sub n) Any₂ :=
  (finish_triple hM hκ ⟨sub, n, rfl, hn, hexit⟩).pre fun w _ h => .inr h

theorem contextRefused_triple (hn : ∃ w r, R (.ledger sub n) w r) {error : Failure}
    (he : ∃ w, R (.context sub n) w (.error error)) :
    Triple (polls R host single M) κ (Open single sub n) (contextRefused sub n error)
      (DoneAcked sub n) Any₂ := by
  obtain ⟨w₀, he⟩ := he
  cases error with
  | unbound message => exact left_triple (by decide)
  | other status detailCode message => exact left_triple (by decide)
  | inbox e =>
    unfold contextRefused
    dsimp only
    split
    · exact exit_triple hM hκ hn (.sourceGone w₀ e he ‹_›)
    · exact exit_triple hM hκ hn (.relationship w₀ e he ‹_›)
    · refine Triple.bind (R := fun _ w => (w.recorded (sub, n.id)).isSome = true) (Triple.opNow rfl
        (fun w hi h => ⟨⟨⟨sub, n, rfl, hn, .notFound w₀ e he ‹_›⟩, .inr h⟩, fun hs => .inl (hκ hs)⟩)
        fun w r w' hi h ho _ => ?_) fun _ => acked_triple hM hκ
      rw [recorded_markHandled (hM.perform ho).2]
      rfl
    · exact left_triple (by decide)
    · exact left_triple (by decide)

theorem dispatchRefused_triple (hn : ∃ w r, R (.ledger sub n) w r) {error : Failure}
    (he : ∃ event w, R (.settle sub n event) w (.error error)) :
    Triple (polls R host single M) κ (Open single sub n) (dispatchRefused sub n error)
      (DoneAcked sub n) Any₂ := by
  obtain ⟨event, w₀, he⟩ := he
  have hstatus : Triple (polls R host single M) κ (Open single sub n)
      (if error.status = 401 then pure (.halt, some error)
        else if error.status = 403 then
          finish sub n .failedPermanent (some error.refusalCode) (some error)
        else pure (.retry, some error)) (DoneAcked sub n) Any₂ :=
    Triple.ite (fun _ => left_triple (by decide)) fun _ =>
      Triple.ite (fun h => exit_triple hM hκ hn (.refused w₀ event error he h)) fun _ =>
        left_triple (by decide)
  cases error with
  | unbound message => exact exit_triple hM hκ hn (.unbound w₀ event message he)
  | inbox e => exact hstatus
  | other status detailCode message => exact hstatus

/-- an attempt that dispatches. -/
def Dispatching (single : Prop) (κ : ℕ) (sub : String) (n : Envelope) (w : World) : Prop :=
  (κ, (sub, n.id)) ∈ w.running ∧ Open single sub n w

theorem stable_dispatching : Stable (polls R host single M) κ (Dispatching single κ sub n) :=
  (stable_running hM _).and (stable_open hM hκ)

/-- what the handlers answered. -/
def Answered (R : Answers) (sub : String) (n : Envelope) (events : List FlightDeckPgEvent) :
    Except Failure Unit → Prop
  | .ok _ => ∀ event ∈ events, ∃ w, R (.settle sub n event) w (.ok ())
  | .error e => ∃ event w, R (.settle sub n event) w (.error e)

theorem dispatchEach_triple (events : List FlightDeckPgEvent) :
    Triple (polls R host single M) κ (Dispatching single κ sub n) (dispatchEach sub n events)
      (fun result w => Dispatching single κ sub n w ∧ Answered R sub n events result) Any₂ := by
  induction events with
  | nil => exact Triple.pure fun w _ h => ⟨h, fun _ he => absurd he List.not_mem_nil⟩
  | cons event events ih =>
    refine Triple.bind (R := fun _ => Dispatching single κ sub n) (Triple.opNow rfl
      (fun w hi h => ⟨h, fun hs => .inl (hκ hs)⟩) fun w r w' hi h ho _ => ?_) fun _ => ?_
    · obtain rfl := (hM.perform ho).2
      exact h
    refine Triple.bind (R := fun answer w => Dispatching single κ sub n w ∧
      ∃ w, R (.settle sub n event) w answer) (Triple.op (stable_dispatching hM hκ)
      (fun w hi h => ⟨trivial, fun hs => .inl (hκ hs)⟩) fun w r w' hi h ho _ => ?_) fun answer => ?_
    · obtain ⟨hr, rfl⟩ := hM.perform ho
      exact ⟨h, w', hr⟩
    refine Triple.assume fun hanswer => ?_
    cases answer with
    | ok u =>
      refine ih.post (fun result w _ h => ⟨h.1, ?_⟩) fun _ _ _ h => h
      cases result with
      | ok u => exact List.forall_mem_cons.mpr ⟨hanswer, h.2⟩
      | error e => exact h.2
    | error e => exact Triple.pure fun w _ h => ⟨h, event, hanswer⟩

/-- the attempt may begin. -/
def Counted (host : Host) (single : Prop) (sub : String) (n : Envelope) (w : World) : Prop :=
  single → w.recorded (sub, n.id) = none ∧ w.begun (sub, n.id) < w.attempts (sub, n.id) ∧
    w.attempts (sub, n.id) ≤ host.maxAttempts

theorem stable_counted : Stable (polls R host single M) κ (Counted host single sub n) :=
  stable_single hM hκ fun _ _ h => h

theorem dispatchEvents_triple (hn : ∃ w r, R (.ledger sub n) w r) {source : Source}
    (hs : n.source = some source) :
    Triple (polls R host single M) κ (Counted host single sub n)
      (dispatchEvents sub n (synthesizeInboxEvents n source) lastError) (DoneAcked sub n)
      Any₂ := by
  refine Triple.bind (R := fun _ => Dispatching single κ sub n) (Triple.opNow rfl
    (fun w hi h => ⟨h, fun hs => .inl (hκ hs)⟩) fun w r w' hi h ho _ => ?_) fun _ => ?_
  · obtain rfl := (hM.perform ho).2
    exact ⟨List.mem_cons_self, fun hs => (h hs).1⟩
  refine Triple.bind (dispatchEach_triple hM hκ _) fun result => Triple.assume fun hresult => ?_
  refine Triple.bind (R := fun _ => Open single sub n) (Triple.opNow rfl
    (fun w hi h => ⟨h.1, fun hs => .inl (hκ hs)⟩) fun w r w' hi h ho _ => ?_) fun _ => ?_
  · obtain rfl := (hM.perform ho).2
    exact h.2
  cases result with
  | ok u => exact exit_triple hM hκ hn (.handled source hs hresult)
  | error e => exact dispatchRefused_triple hM hκ hn hresult

theorem handleContext_triple (hn : ∃ w r, R (.ledger sub n) w r) {source : Source}
    (hs : n.source = some source) {context : Context}
    (hc : ∃ w, R (.context sub n) w (.ok context)) :
    Triple (polls R host single M) κ (Counted host single sub n)
      (handleContext sub n source context lastError) (DoneAcked sub n) Any₂ := by
  obtain ⟨w₀, hc⟩ := hc
  have hopen : ∀ w, (polls R host single M).Inv w → Counted host single sub n w →
      Open single sub n w := fun w _ h hs => (h hs).1
  refine Triple.ite (fun h => (exit_triple hM hκ hn (.flow w₀ context hc h)).pre hopen) fun _ => ?_
  have hdispatch : Triple (polls R host single M) κ (Counted host single sub n)
      (dispatchEvents sub n (synthesizeInboxEvents n source) lastError) (DoneAcked sub n) Any₂ :=
    dispatchEvents_triple hM hκ hn hs
  cases he : synthesizeInboxEvents n source with
  | nil => exact (exit_triple hM hκ hn (.unsupportedKind source hs he)).pre hopen
  | cons event events =>
    rw [he] at hdispatch
    exact hdispatch

theorem attemptHandling_triple (hn : ∃ w r, R (.ledger sub n) w r) {source : Source}
    (hs : n.source = some source) :
    Triple (polls R host single M) κ (Open single sub n)
      (attemptHandling host sub n source lastError) (DoneAcked sub n) Any₂ := by
  refine Triple.bind (R := fun row w => Open single sub n w ∧
    (single → w.begun (sub, n.id) < w.attempts (sub, n.id) ∧
      w.attempts (sub, n.id) = row.attempts) ∧
    ∃ w, R (.beginAttempt sub n) w row ∧ row.attempts = w.attempts (sub, n.id) + 1)
    (Triple.opNow rfl (fun w hi h => ⟨trivial, fun hs => .inl (hκ hs)⟩)
    fun w row w' hi h ho hi' => ?_) fun row => ?_
  · obtain ⟨hr, time, rfl, rfl⟩ := hM.perform ho
    have hrow : ∀ row, (w.setRow (sub, n.id) (some row)).ledger (sub, n.id) = some row :=
      fun row => Function.update_self ..
    refine ⟨fun hs => ?_, fun hs => ?_, w, hr, attemptRow_attempts⟩
    · exact (congrArg recordedOutcome (hrow _)).trans (recordedOutcome_attemptRow.trans (h hs))
    · have hcount : (w.setRow (sub, n.id) (some (attemptRow n time (w.ledger (sub, n.id))))).attempts
          (sub, n.id) = (attemptRow n time (w.ledger (sub, n.id))).attempts := by
        unfold World.attempts
        rw [hrow]
        rfl
      refine ⟨?_, hcount⟩
      rw [hcount, attemptRow_attempts]
      exact Nat.lt_succ_of_le (hi.begun hs (sub, n.id)).1
  refine (Triple.assume (P := fun w => Open single sub n w ∧ (single →
    w.begun (sub, n.id) < w.attempts (sub, n.id) ∧ w.attempts (sub, n.id) = row.attempts))
    fun hrow => ?_).pre fun w _ h => ⟨⟨h.1, h.2.1⟩, h.2.2⟩
  obtain ⟨w₀, hr, hcount⟩ := hrow
  refine Triple.ite (fun hmax => (exit_triple hM hκ hn (.maxAttempts w₀ row hr hcount hmax)).pre
    fun w _ h => h.1) fun hmax => ?_
  have hcontext : Triple (polls R host single M) κ (Counted host single sub n)
      (op (.context sub n)) (fun answer w => Counted host single sub n w ∧
        ∃ w, R (.context sub n) w answer) Any₂ := by
    refine Triple.op (stable_counted hM hκ) (fun w hi h => ⟨trivial, fun hs => .inl (hκ hs)⟩)
      fun w r w' hi h ho _ => ?_
    obtain ⟨hr, rfl⟩ := hM.perform ho
    exact ⟨h, w', hr⟩
  refine Triple.bind (hcontext.pre fun w _ h hs => ⟨h.1 hs, (h.2 hs).1, ?_⟩) fun answer =>
    Triple.assume fun hanswer => ?_
  · rw [(h.2 hs).2]
    exact Nat.le_of_not_lt hmax
  cases answer with
  | ok context => exact handleContext_triple hM hκ hn hs hanswer
  | error error =>
    exact (contextRefused_triple hM hκ hn hanswer).pre fun w _ h hs => (h hs).1

theorem reconciled_triple (ledger : Option LedgerRow) :
    Triple (polls R host single M) κ (Open single sub n) (reconciled host sub n ledger)
      (fun answer w => Open single sub n w ∧
        (answer = true → ∃ since w, R (.reconcile sub n since) w (.ok true))) Any₂ := by
  have hnot : Triple (polls R host single M) κ (Open single sub n) (pure false : Task Bool)
      (fun answer w => Open single sub n w ∧
        (answer = true → ∃ since w, R (.reconcile sub n since) w (.ok true))) Any₂ :=
    Triple.pure fun w _ h => ⟨h, fun hf => absurd hf Bool.false_ne_true⟩
  unfold reconciled
  cases (ledger.filter (·.handledAt.isNone)).bind (·.startedAt) with
  | none => exact hnot
  | some since =>
    refine Triple.ite (fun _ => ?_) fun _ => hnot
    refine Triple.tryOp (stable_open hM hκ) (fun w hi h => ⟨trivial, fun hs => .inl (hκ hs)⟩)
      (fun w r w' answer hi h ho _ hr => ?_) fun _ _ _ _ _ _ _ _ _ => trivial
    obtain ⟨hR, rfl⟩ := hM.perform ho
    refine ⟨h, fun ha => ⟨since, w', ?_⟩⟩
    rw [← ha, ← hr]
    exact hR

theorem handleNew_triple (hn : ∃ w r, R (.ledger sub n) w r) (ledger : Option LedgerRow) :
    Triple (polls R host single M) κ (Open single sub n) (handleNew host sub n ledger lastError)
      (DoneAcked sub n) Any₂ := by
  refine Triple.ite (fun h => exit_triple hM hκ hn (.revoked h)) fun _ => ?_
  cases hs : n.source with
  | none => exact exit_triple hM hκ hn (.malformed (.inl hs))
  | some source =>
    cases hk : truthyText n.kind with
    | false => exact exit_triple hM hκ hn (.malformed (.inr hk))
    | true =>
      refine Triple.bind (reconciled_triple hM hκ ledger) fun answer => Triple.assume fun ha => ?_
      refine Triple.ite (fun h => ?_) fun _ => attemptHandling_triple hM hκ hn hs
      obtain ⟨since, w₀, hr⟩ := ha h
      exact exit_triple hM hκ hn (.reconciled since w₀ hr)

/-- **A notification is handled.** -/
theorem handle_triple :
    Triple (polls R host single M) κ Any (handle host sub n lastError) (DoneAcked sub n)
      Any₂ := by
  refine Triple.bind (R := fun row w => (w.ledger (sub, n.id) = row) ∧
    ∃ w r, R (.ledger sub n) w r) (Triple.opNow rfl (fun w hi h => ⟨trivial, fun hs => .inl (hκ hs)⟩)
    fun w row w' hi h ho hi' => ?_) fun row => Triple.assume fun hn => ?_
  · obtain ⟨hr, rfl, rfl⟩ := hM.perform ho
    exact ⟨rfl, w, _, hr⟩
  refine Triple.ite (fun hacked => Triple.pure fun w _ h _ => ?_) fun _ => ?_
  · unfold World.Acked
    rw [h]
    exact hacked
  cases hrow : recordedOutcome row with
  | none =>
    refine (handleNew_triple hM hκ hn row).pre fun w _ h _ => ?_
    unfold World.recorded
    rw [h, hrow]
  | some recorded =>
    have hrecorded : ∀ w : World, w.ledger (sub, n.id) = row →
        w.recorded (sub, n.id) = some recorded := fun w h => by
      unfold World.recorded
      rw [h, hrow]
    refine (Triple.assume (P := fun w => w.recorded (sub, n.id) = some recorded) fun hc =>
      (finish_triple hM hκ hc).pre fun w _ h => .inl h).pre fun w hi h =>
      ⟨hrecorded w h, hi.caused _ _ _ (hrecorded w h)⟩

/-! ## a poll -/

omit hM in
theorem update_triple {patch : Patch} {source : CursorSource} {P : World → Prop}
    (hmoves : ∀ w, P w → Moves w sub patch source) :
    Triple (polls R host single M) κ P (op (.update sub patch source)) Any₂ Any₂ :=
  Triple.opNow rfl (fun w hi h => ⟨hmoves w h, fun hs => .inl (hκ hs)⟩)
    fun _ _ _ _ _ _ _ => trivial

omit hM in
theorem fail_triple {error : Failure} :
    Triple (polls R host single M) κ Any (fail sub error) Any₂ Any₂ :=
  Triple.bind (update_triple hκ fun _ _ => rfl) fun _ => Triple.pure fun _ _ _ => trivial

/-- **All notifications of a page**, in order: the poll goes on when they all are acknowledged. -/
theorem handleAll_triple (notifications : List Envelope) (lastError : Option Failure) :
    Triple (polls R host single M) κ Any (handleAll host sub notifications lastError)
      (fun result w => result.1 = none → ∀ n ∈ notifications, w.Acked (sub, n.id)) Any₂ := by
  induction notifications generalizing lastError with
  | nil => exact Triple.pure fun w _ _ _ n hn => absurd hn List.not_mem_nil
  | cons n rest ih =>
    refine Triple.bind (handle_triple hM hκ) fun handled => ?_
    obtain ⟨result, lastError⟩ := handled
    cases result with
    | done =>
      have hrest := (ih lastError).frame (R := fun w => w.Acked (sub, n.id))
        fun κ o s r s' _ _ ho h => acked_perform h (hM.perform ho).2
      refine (hrest.pre fun w _ h => ⟨trivial, h rfl⟩).post (fun result w _ h hnone => ?_)
        fun _ _ _ _ => trivial
      exact List.forall_mem_cons.mpr ⟨h.2, h.1 hnone⟩
    | halt =>
      refine Triple.bind ((fail_triple hκ).pre fun _ _ _ => trivial) fun polled =>
        Triple.pure fun w _ _ hnone => ?_
      cases hnone
    | retry =>
      refine Triple.pure fun w _ _ hnone => ?_
      cases hnone

theorem handlePage_triple (page : Page) :
    Triple (polls R host single M) κ Any (handlePage host sub page lastError) Any₂ Any₂ := by
  refine Triple.bind (handleAll_triple hM hκ page.notifications lastError) fun handled => ?_
  obtain ⟨result, lastError⟩ := handled
  cases result with
  | some result => exact Triple.pure fun _ _ _ => trivial
  | none =>
    refine Triple.bind (update_triple hκ fun w h => ⟨rfl, h rfl⟩) fun _ =>
      Triple.pure fun _ _ _ => trivial

omit hM in
theorem listRefused_triple (error : Failure) :
    Triple (polls R host single M) κ Any (listRefused sub error lastError) Any₂ Any₂ := by
  have hfail : Triple (polls R host single M) κ Any
      (do let result ← fail sub error; pure (result, lastError) : Task Polled) Any₂ Any₂ :=
    Triple.bind (fail_triple hκ) fun _ => Triple.pure fun _ _ _ => trivial
  cases error with
  | unbound message => exact hfail
  | other status detailCode message => exact hfail
  | inbox e =>
    unfold listRefused
    dsimp only
    split
    · exact Triple.bind (update_triple hκ fun _ _ => rfl) fun _ => Triple.pure fun _ _ _ => trivial
    · rename_i recoveryCursor hclass hrecovery
      refine Triple.bind (update_triple hκ fun _ _ => ⟨?_, hclass⟩) fun _ =>
        Triple.pure fun _ _ _ => trivial
      rw [hrecovery]
    · exact hfail

theorem pollAt_triple (cursor : String) :
    Triple (polls R host single M) κ Any (pollAt host sub cursor lastError) Any₂ Any₂ := by
  refine Triple.bind (R := Any₂) (Triple.op (Stable.const True)
    (fun w hi h => ⟨trivial, fun hs => .inl (hκ hs)⟩) fun _ _ _ _ _ _ _ => trivial) fun answer => ?_
  cases answer with
  | ok page => exact handlePage_triple hM hκ page
  | error error => exact listRefused_triple hκ error

/-- **A poll.** -/
theorem pollOnce_triple :
    Triple (polls R host single M) κ Any (pollOnce host sub lastError) Any₂ Any₂ := by
  refine Triple.bind (R := Any₂) (Triple.op (Stable.const True)
    (fun w hi h => ⟨trivial, fun hs => .inl (hκ hs)⟩) fun _ _ _ _ _ _ _ => trivial) fun state => ?_
  cases state with
  | none => exact Triple.pure fun _ _ _ => trivial
  | some state =>
    refine Triple.ite (fun _ => Triple.pure fun _ _ _ => trivial) fun _ => ?_
    refine Triple.ite (fun _ => pollAt_triple hM hκ _) fun _ => ?_
    refine Triple.bind (R := Any₂) (Triple.op (Stable.const True)
      (fun w hi h => ⟨trivial, fun hs => .inl (hκ hs)⟩) fun _ _ _ _ _ _ _ => trivial)
      fun answer => ?_
    cases answer with
    | error error =>
      exact Triple.bind (fail_triple hκ) fun _ => Triple.pure fun _ _ _ => trivial
    | ok created =>
      refine Triple.bind (update_triple hκ fun _ _ => rfl) fun state => ?_
      cases state with
      | none => exact Triple.throw fun _ _ _ => trivial
      | some state => exact pollAt_triple hM hκ _

omit hκ

/-- **Every poll keeps the invariant**, among any number of others. -/
theorem polls_keeps : (polls R host single M).Keeps where
  perform hi hmay ho := hi.perform hmay.1 (hM.perform ho).2
  crash hi hc := by
    rw [hM.crash hc]
    exact hi.restarted
  spawn := by
    intro w κ p hi hp
    have hspawn := hM.spawn hp
    cases hspawn with
    | poll sub lastError =>
      exact (pollOnce_triple hM (fun hs => hM.single hs hp)).detach hi
    | setMode sub mode consumerId =>
      refine Triple.detach (Q := Any₂) (E := Any₂) ?_ hi
      exact Triple.op (Stable.const True) (fun w hi h => ⟨trivial, fun _ => .inr rfl⟩)
        fun _ _ _ _ _ _ _ => trivial

end

end AgentInbox
end WmAutopilot
