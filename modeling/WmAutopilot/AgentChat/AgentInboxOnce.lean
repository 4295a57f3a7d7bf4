import WmAutopilot.AgentChat.AgentInboxPolls
import WmAutopilot.Async.Solo

/-!
# A notification is handled once

* `HandledOnce`      what any run of one loop keeps: recorded outcomes, what may be dispatched,
                     acknowledged and begun, and how the cursor moves;
* `notified_once`    **every run keeps it**, whatever Tower answers and wherever it crashes;
* `Script`, `effect`   runs that are computed, from what Tower and the handlers answer;
* `notified_once_some`   an acknowledgement is lost, and the page is listed again.
-/

set_option autoImplicit false

namespace WmAutopilot
namespace AgentInbox
open Js Value Async

/-- the cursor that is stored. -/
def World.cursor (w : World) (sub : String) : Option String := (w.states sub).bind (·.cursor)

/-- **What a run from `c` to `c'` keeps.** -/
structure HandledOnce (host : Host) (c c' : Conf api World) : Prop where
  /-- what is recorded stays recorded, with its outcome and its code. -/
  recorded : ∀ key outcome, c.state.recorded key = some outcome →
    c'.state.recorded key = some outcome
  /-- what is recorded is not dispatched; what is dispatched was begun and has not ended. -/
  dispatched : ∀ κ sub n event k, c'.threads κ = some (.call (.dispatch sub n event) k) →
    c'.state.recorded (sub, n.id) = none ∧ (κ, (sub, n.id)) ∈ c'.state.running
  /-- what is acknowledged is what is recorded. -/
  acknowledged : ∀ κ sub n outcome code k, c'.threads κ = some (.call (.ack sub n outcome code) k) →
    c'.state.recorded (sub, n.id) = some (outcome, code)
  begun : ∀ key, c'.state.begun key ≤ host.maxAttempts
  /-- a cursor that changes does so as Tower says, past a page when all of it is acknowledged. -/
  cursor : ∀ κ o k r w' sub, c'.threads κ = some (.call o k) →
    (loop host).perform κ o c'.state r w' → w'.cursor sub ≠ c'.state.cursor sub →
      ∃ patch source, o = .update sub patch source ∧ Moves c'.state sub patch source

section
variable {host : Host} {κ : ℕ} {w w' : World}

/-- an outcome that is recorded is not replaced by another one. -/
theorem recorded_stays {R : Answers} {single : Prop} (hs : single) {o : InboxOp} {r : o.Ans}
    (hask : Asked R host single κ w o) (ho : perform κ o w r w') {key : Key}
    {outcome : AckOutcome × Option String} (h : w.recorded key = some outcome) :
    w'.recorded key = some outcome := by
  rcases perform_recorded ho key with he | ⟨sub, n, outcome', code, rfl, rfl, he⟩
  · rw [he, h]
  · rcases hask.2 with hsame | hnone
    · rw [he, ← hsame, h]
    · rw [hnone hs] at h
      cases h

/-- only `update` changes a cursor. -/
theorem perform_cursor {o : InboxOp} {r : o.Ans} (ho : perform κ o w r w') {sub : String}
    (hne : w'.cursor sub ≠ w.cursor sub) : ∃ patch source, o = .update sub patch source := by
  have other : ∀ {sub' : String} {state : Option AgentInboxState} {u : World},
      u.states = Function.update w.states sub' state → sub ≠ sub' → u.cursor sub = w.cursor sub := by
    intro sub' state u hu hsub
    unfold World.cursor
    rw [hu, Function.update_of_ne hsub]
  cases o with
  | update sub' patch source =>
    obtain ⟨-, rfl⟩ := ho
    by_cases e : sub = sub'
    · subst e
      exact ⟨patch, source, rfl⟩
    · exact absurd (other rfl e) hne
  | setMode sub' mode consumerId =>
    obtain rfl := ho
    refine absurd ?_ hne
    by_cases e : sub = sub'
    · subst e
      show (Function.update w.states sub _ sub).bind _ = _
      rw [Function.update_self]
      unfold World.cursor
      cases w.states sub <;> rfl
    · exact other rfl e
  | beginAttempt =>
    obtain ⟨time, -, rfl⟩ := ho
    exact absurd rfl hne
  | markHandled | markAcked =>
    obtain ⟨time, rfl⟩ := ho
    exact absurd rfl hne
  | get =>
    obtain ⟨-, rfl⟩ := ho
    exact absurd rfl hne
  | ledger =>
    obtain ⟨-, rfl⟩ := ho
    exact absurd rfl hne
  | beginActive | endActive | createSubscription | list | context | ack | reconcile
  | dispatch | settle =>
    obtain rfl := ho
    exact absurd rfl hne

end

/-- **Every notification is handled once** and none is lost, in every run of one loop. -/
theorem notified_once (host : Host) {c c' : Conf api World}
    (hc : Reachable (loop host) World.Initial c) (h : Steps (loop host) c c') :
    HandledOnce host c c' := by
  have K := polls_keeps (polls_loop host)
  have ok : ConfOk (polls (fun _ _ _ => True) host True (loop host)) c :=
    K.reachable (fun w hw => .initial hw) hc
  have ok' := ok.steps K h
  refine ⟨fun key outcome => ?_, fun κ sub n event k hκ => ?_, fun κ sub n outcome code k hκ => ?_,
    fun key => (ok'.inv.begun trivial key).2, fun κ o k r w' sub hκ ho hne => ?_⟩
  · exact ok.run K (R := fun w w' => w.recorded key = some outcome → w'.recorded key = some outcome)
      (fun _ h => h) (fun _ _ _ h h' hw => h' (h hw))
      (fun κ o w r w' _ hmay ho => recorded_stays trivial hmay.1 ho.2)
      (fun w w' _ hcrash hw => by rw [hcrash]; exact hw) h
  · exact ⟨(ok'.permitted hκ).1.2 trivial, (ok'.permitted hκ).1.1⟩
  · exact (ok'.permitted hκ).1.2 trivial
  · obtain ⟨patch, source, rfl⟩ := perform_cursor ho.2 hne
    exact ⟨patch, source, rfl, (ok'.permitted hκ).1⟩

/-! ## a run -/

/-- what Tower and the handlers answer. -/
structure Script where
  created : Except Failure Created := .error (.other 0 none "unreachable")
  page : Except Failure Page := .error (.other 0 none "unreachable")
  context : Except Failure Context := .ok {}
  settle : Except Failure Unit := .ok ()
  reconcile : Except Failure Bool := .ok false
  ack : Except Failure Unit := .ok ()

def Script.ans (script : Script) : (o : InboxOp) → World → o.Ans
  | .get sub, w => w.states sub
  | .update sub patch _, w => (w.states sub).map patch.apply
  | .ledger sub n, w => w.ledger (sub, n.id)
  | .beginAttempt sub n, w => attemptRow n "T" (w.ledger (sub, n.id))
  | .createSubscription _, _ => script.created
  | .list _, _ => script.page
  | .context .., _ => script.context
  | .settle .., _ => script.settle
  | .reconcile .., _ => script.reconcile
  | .ack .., _ => script.ack
  | .setMode .., _ | .markHandled .., _ | .markAcked .., _ | .beginActive .., _
  | .endActive .., _ | .dispatch .., _ => ()

/-- what an operation does at the time `"T"`. -/
def effect (κ : ℕ) : InboxOp → World → World
  | .update sub patch _, w =>
    { w with states := Function.update w.states sub ((w.states sub).map patch.apply) }
  | .setMode sub mode consumerId, w => { w with
      states := Function.update w.states sub (some (modeState mode consumerId (w.states sub))) }
  | .ledger sub n, w => w.enter sub n
  | .beginAttempt sub n, w =>
    w.setRow (sub, n.id) (some (attemptRow n "T" (w.ledger (sub, n.id))))
  | .markHandled sub n outcome code, w =>
    { w.setRow (sub, n.id) (some (handledRow n outcome code "T" (w.ledger (sub, n.id)))) with
      revoked := if n.state = "revoked" then (sub, n.id) :: w.revoked else w.revoked }
  | .markAcked sub n, w => w.setRow (sub, n.id)
      ((w.ledger (sub, n.id)).map fun row => { row with ackedAt := some "T" })
  | .beginActive sub n, w => { w with
      active := Function.update w.active (sub, n.id) (w.active (sub, n.id) + 1)
      running := (κ, (sub, n.id)) :: w.running
      begun := Function.update w.begun (sub, n.id) (w.begun (sub, n.id) + 1) }
  | .endActive sub n, w => { w with
      active := Function.update w.active (sub, n.id) (w.active (sub, n.id) - 1)
      running := w.running.erase (κ, (sub, n.id)) }
  | _, w => w

theorem perform_effect (script : Script) (κ : ℕ) (o : InboxOp) (w : World) :
    perform κ o w (script.ans o w) (effect κ o w) := by
  cases o with
  | beginAttempt sub n => exact ⟨"T", rfl, rfl⟩
  | markHandled | markAcked => exact ⟨"T", rfl⟩
  | get | update | ledger => exact ⟨rfl, rfl⟩
  | _ => exact rfl

section
variable {host : Host} {R : Answers} {M : System api World} {κ : ℕ}

/-- **A run by a script**, when the answers are of `R`. -/
theorem solo_script (hM : ∀ {o w r w'}, R o w r → perform κ o w r w' → M.perform κ o w r w')
    (script : Script) (ok : InboxOp → World → Bool)
    (hR : ∀ o w, ok o w = true → R o w (script.ans o w)) (p : Prog api Unit) (w : World)
    (hp : p.allowed script.ans (effect κ) ok w = true) :
    Solo M κ p w (.ret ()) (p.run script.ans (effect κ) w).2 :=
  Solo.of_run (fun o w hok => hM (hR o w hok) (perform_effect script κ o w)) p w hp

end

def someHost : Host where
  maxAttempts := 5
  reconciles := true
  dateParse text :=
    if text = "2026-01-01T00:00:00Z" then some 1767225600000
    else if text = "2025-01-01T00:00:00Z" then some 1735689600000
    else none

def someEnvelope : Envelope :=
  { id := "n", seq := 1, state := "active", kind := some "direct_message", reason := some "mention"
    occurredAt := some "2026-01-01T00:00:00Z"
    source := some { type := "message", id := "m", channelId := some "c", threadId := none
                     taskId := none, docId := none } }

/-- Tower lists one notification, on every poll. -/
def someScript : Script :=
  { created := .ok { subscriptionId := "tower", cursor := "c0", floorAt := "2025-01-01T00:00:00Z" }
    page := .ok { notifications := [someEnvelope], nextCursor := "c1", hasMore := false } }

/-- an operator opts in. -/
def optIn : Prog api Unit := (op (.setMode "s" .inboxRequired "consumer")).detach

def somePoll : Prog api Unit := (pollOnce someHost "s" none).detach

/-- the world after a program. -/
def World.after (w : World) (κ : ℕ) (script : Script) (p : Prog api Unit) : World :=
  (p.run script.ans (effect κ) w).2

/-- the acknowledgement is lost. -/
def lostAck : Script := { someScript with ack := .error (.other 0 none "reset") }

def lostWorld : World := (({} : World).after 1 someScript optIn).after 0 lostAck somePoll

def ackedWorld : World := lostWorld.after 0 someScript somePoll

theorem allowed_all (script : Script) (κ : ℕ) (p : Prog api Unit) (w : World) :
    p.allowed script.ans (effect κ) (fun _ _ => true) w = true := by
  induction p generalizing w with
  | ret a => rfl
  | call o k ih => exact Bool.and_eq_true_iff.mpr ⟨rfl, ih _ _⟩

theorem solo_loop (script : Script) (κ : ℕ) (p : Prog api Unit) (w : World) :
    Solo (loop someHost) κ p w (.ret ()) (w.after κ script p) :=
  solo_script (R := fun _ _ _ => True) (M := loop someHost) (fun _ h => ⟨trivial, h⟩) script (fun _ _ => true)
    (fun _ _ _ => trivial) p w
    (allowed_all ..)

theorem spawn_optIn (w : World) : (loop someHost).spawn w 1 optIn := by
  refine ⟨.setMode 1 "s" .inboxRequired "consumer", ?_⟩
  rintro ⟨sub, lastError, h⟩
  cases h

theorem spawn_somePoll (w : World) : (loop someHost).spawn w 0 somePoll :=
  ⟨.poll 0 "s" none, fun _ => rfl⟩

/-- the page is listed again after its acknowledgement was lost. -/
theorem notified_once_some : ∃ c c' : Conf api World,
    (c.state.recorded ("s", "n") = some (.handled, none) ∧ ¬c.state.Acked ("s", "n")) ∧
      (c'.state.Acked ("s", "n") ∧ c'.state.cursor "s" = some "c1" ∧
        c'.state.begun ("s", "n") = 1) ∧ HandledOnce someHost c c' := by
  obtain ⟨c₁, hc₁, hs₁, -, hr₁, ht₁⟩ := (solo_loop someScript 1 optIn {}).reachable
    World.Initial rfl (rfl : api.yields (.setMode "s" .inboxRequired "consumer") = true)
    (spawn_optIn _)
  have first := solo_loop lostAck 0 somePoll c₁.state
  obtain ⟨c₂, hc₂, hs₂, -, hr₂, ht₂⟩ := first.extend hc₁ hr₁ (ht₁ 0 (by decide))
    (rfl : api.yields (.get "s") = true) (spawn_somePoll _)
  have hc₃ := hc₂.forget hr₂ 0
  have second := solo_loop someScript 0 somePoll c₂.state
  obtain ⟨c₄, hsteps, hs₄, -⟩ := Solo.started
    (c := { c₂ with threads := Function.update c₂.threads 0 none }) hr₂ (Function.update_self ..)
    second (rfl : api.yields (.get "s") = true) (spawn_somePoll _)
  have hlost : c₂.state = lostWorld := by rw [hs₂, hs₁]; rfl
  have hacked : c₄.state = ackedWorld := by rw [hs₄, hlost]; rfl
  refine ⟨_, c₄, ?_, ?_, notified_once someHost hc₃ hsteps⟩
  · rw [hlost]
    exact ⟨by decide +kernel, by unfold World.Acked; decide +kernel⟩
  · rw [hacked]
    exact ⟨by unfold World.Acked; decide +kernel, by decide +kernel, by decide +kernel⟩

end AgentInbox
end WmAutopilot
