import Mathlib.Data.List.Perm.Basic
import WmAutopilot.Async.Solo
import WmAutopilot.Auth.Nip98Verifier

/-!
# No signed request is accepted twice

* `Inv`, `workers`       the invariant of the workers and what each operation may ask for;
* `workers_keeps`        every worker keeps it, among any number of others;
* `verified_once`        **where an event that was admitted stands whenever it is asked for again, no
                         event is accepted twice**; a failure and a full cache accept nothing;
* `verified_of_prompt`   so it is where every body arrives before its event expires;
* `verified_twice`       a body that arrives after another request has expired the event.
-/

set_option autoImplicit false
set_option linter.unusedVariables false

namespace WmAutopilot
namespace Auth
open Js Value Async

/-! ## the invariant -/

/-- a signed event, and what the cache is asked about it. -/
def Asked (host : Host) (id : String) (expiresAt : ℤ) : Prop :=
  ∃ event created, host.verifyEvent event = true ∧ createdAt event = some created ∧
    id = eventId event ∧ expiresAt = expiry created

/-- The invariant; `once` says that events stand when they are asked for again. -/
structure Inv (host : Host) (once : Prop) (w : World) : Prop where
  rows : w.rows = rowsOf w.history
  asked : ∀ row, .admitted row ∈ w.history → Asked host row.eventId row.expiresAt
  times : ∀ now, .expired now ∈ w.history → now ≤ w.seconds
  admitted : (w.accepted.map (fun v => eventId v.event) ++ w.told.map Prod.snd).Perm
    (admittedIds w.history)
  once : once → (admittedIds w.history).Nodup

/-- what thread `κ` asks for. -/
def may (host : Host) (κ : ℕ) : VerifierOp → World → Prop
  | .accept _ id expiresAt now, w => Asked host id expiresAt ∧ now ≤ w.seconds
  | .cleanup now, w => now ≤ w.seconds
  | .verified v, w => (κ, eventId v.event) ∈ w.told
  | _, _ => True

/-- the workers with their invariant. -/
def workers (host : Host) (R : When) (once : Prop) : Discipline api World :=
  { restricted host R with Inv := Inv host once, may := may host }

section
variable {host : Host} {R : When} {once : Prop} {κ : ℕ} {w w' : World}

theorem Inv.initial (h : w.Initial) : Inv host once w := by
  obtain ⟨clock, rfl⟩ := h
  exact ⟨rfl, fun _ h => absurd h List.not_mem_nil, fun _ h => absurd h List.not_mem_nil, .nil,
    fun _ => List.nodup_nil⟩

theorem get_id {event : Value} (h : eventId event ≠ "") : event.get "id" = str (eventId event) := by
  unfold eventId at h ⊢
  split
  · assumption
  · rename_i hne
    split at h
    · rename_i id hid
      exact absurd hid (hne id)
    · exact absurd rfl h

/-- the hash of an event determines when it expires. -/
theorem Asked.expiresAt {id : String} {expiresAt expiresAt' : ℤ} (h : Asked host id expiresAt)
    (h' : Asked host id expiresAt') (hid : id ≠ "") : expiresAt = expiresAt' := by
  obtain ⟨event, created, hv, hc, rfl, rfl⟩ := h
  obtain ⟨event', created', hv', hc', heq, rfl⟩ := h'
  have htime : event.get "created_at" = event'.get "created_at" := by
    refine host.verifyEvent_id _ _ hv hv' ?_
    rw [get_id hid, get_id (heq ▸ hid), heq]
  have hsame : createdAt event = createdAt event' := by
    unfold createdAt
    rw [htime]
  rw [hsame, hc'] at hc
  rw [Option.some.inj hc]

theorem World.seconds_mono (h : w.clock ≤ w'.clock) : w.seconds ≤ w'.seconds := by
  unfold World.seconds
  omega

/-- **An answer of the cache keeps the invariant.** -/
theorem Inv.asked_step {limit : ℕ} {id : String} {expiresAt now : ℤ} (h : Inv host once w)
    (hasked : Asked host id expiresAt) (hnow : now ≤ w.seconds)
    (hstand : once → Standing id expiresAt w.history) :
    Inv host once (w.asked κ limit id expiresAt now) := by
  cases hr : (Nip98ReplayCache.accept limit id expiresAt now w.rows).1 with
  | false =>
    have hw : w.asked κ limit id expiresAt now = w := by
      simp only [World.asked, hr, Nip98ReplayCache.accept_false hr]
      rfl
    rw [hw]
    exact h
  | true =>
    obtain ⟨hid, -, -, -, hrows⟩ := Nip98ReplayCache.accept_true hr
    have hw : w.asked κ limit id expiresAt now =
        { w with
          rows := Nip98ReplayCache.deleteExpired now w.rows ++ [⟨id, expiresAt⟩]
          history := .admitted ⟨id, expiresAt⟩ :: .expired now :: w.history
          told := (κ, id) :: w.told } := by
      simp only [World.asked, hr, hrows]
      rfl
    rw [hw]
    refine ⟨?_, fun row hrow => ?_, fun t ht => ?_, ?_, fun ho => ?_⟩
    · show _ = Nip98ReplayCache.deleteExpired now (rowsOf w.history) ++ [_]
      rw [← h.rows]
    · rcases List.mem_cons.mp hrow with e | hrow
      · obtain rfl := CacheEvent.admitted.inj e
        exact hasked
      · exact h.asked row ((List.mem_cons.mp hrow).resolve_left (by simp))
    · rcases List.mem_cons.mp ((List.mem_cons.mp ht).resolve_left (by simp)) with e | ht
      · obtain rfl := CacheEvent.expired.inj e
        exact hnow
      · exact h.times t ht
    · exact List.perm_middle.trans (h.admitted.cons id)
    · refine List.nodup_cons.mpr ⟨fun hmem => ?_, h.once ho⟩
      -- the event was admitted before, and so it still has its row
      have hbefore : id ∈ admittedIds w.history := hmem
      obtain ⟨row, hrow, hrid⟩ := mem_admittedIds.mp hbefore
      have hexp : row.expiresAt = expiresAt :=
        (hrid ▸ h.asked row hrow).expiresAt hasked hid
      have hstands : Standing row.eventId row.expiresAt w.history := by
        rw [hrid, hexp]
        exact hstand ho
      have hfalse := Nip98ReplayCache.accept_of_mem limit now
        (h.rows ▸ hstands.mem hrow) hrid hexp
      rw [hfalse] at hr
      cases hr

theorem Inv.cleaned_step {now : ℤ} (h : Inv host once w) (hnow : now ≤ w.seconds) :
    Inv host once (w.cleaned now) := by
  cases hs : isSafeInteger now with
  | false =>
    have hw : w.cleaned now = w := by simp [World.cleaned, Nip98ReplayCache.cleanup, hs]
    rw [hw]
    exact h
  | true =>
    have hw : w.cleaned now =
        { w with
          rows := Nip98ReplayCache.deleteExpired now w.rows
          history := .expired now :: w.history } := by
      simp [World.cleaned, Nip98ReplayCache.cleanup, hs]
    rw [hw]
    refine ⟨?_, fun row hrow => ?_, fun t ht => ?_, h.admitted, h.once⟩
    · show _ = Nip98ReplayCache.deleteExpired now (rowsOf w.history)
      rw [← h.rows]
    · exact h.asked row ((List.mem_cons.mp hrow).resolve_left (by simp))
    · rcases List.mem_cons.mp ht with e | ht
      · obtain rfl := CacheEvent.expired.inj e
        exact hnow
      · exact h.times t ht

theorem Inv.verified_step {v : Nip98Verification} (h : Inv host once w)
    (htold : (κ, eventId v.event) ∈ w.told) :
    Inv host once { w with
      accepted := v :: w.accepted, told := w.told.erase (κ, eventId v.event) } := by
  refine ⟨h.rows, h.asked, h.times, ?_, h.once⟩
  refine List.Perm.trans ?_ h.admitted
  have htoken : (w.told.map Prod.snd).Perm
      (eventId v.event :: (w.told.erase (κ, eventId v.event)).map Prod.snd) :=
    (List.perm_cons_erase htold).map Prod.snd
  exact List.perm_middle.symm.trans (htoken.symm.append_left _)

/-! ## the workers keep it -/

/-- the clock does not go back, and only thread `κ` uses up what `κ` was told. -/
theorem perform_goes {o : VerifierOp} {r : o.Ans} {κ' : ℕ} (ho : perform κ' o w r w') :
    w.clock ≤ w'.clock ∧ ∀ id, κ' ≠ κ → (κ, id) ∈ w.told → (κ, id) ∈ w'.told := by
  cases o with
  | dateNow =>
    obtain ⟨hclock, rfl⟩ := ho
    exact ⟨hclock, fun _ _ h => h⟩
  | arrayBuffer =>
    obtain rfl := ho
    exact ⟨Nat.le_refl _, fun _ _ h => h⟩
  | accept limit id expiresAt now =>
    rcases ho with ⟨-, rfl⟩ | ⟨-, rfl⟩
    · exact ⟨Nat.le_refl _, fun _ _ h => h⟩
    · refine ⟨Nat.le_refl _, fun _ _ h => ?_⟩
      dsimp only [World.asked]
      split
      · exact List.mem_cons_of_mem _ h
      · exact h
  | cleanup now =>
    rcases ho with rfl | rfl <;> exact ⟨Nat.le_refl _, fun _ _ h => h⟩
  | verified v =>
    obtain rfl := ho
    refine ⟨Nat.le_refl _, fun id hne h => (List.mem_erase_of_ne ?_).mpr h⟩
    exact fun e => hne (congrArg Prod.fst e).symm

theorem stable_seconds (now : ℤ) : Stable (workers host R once) κ fun w => now ≤ w.seconds := by
  rintro w w' h ⟨κ', o, r, -, -, -, ho, -⟩
  exact Int.le_trans h (World.seconds_mono (perform_goes (κ := κ) ho).1)

theorem stable_told (id : String) : Stable (workers host R once) κ fun w => (κ, id) ∈ w.told := by
  rintro w w' h ⟨κ', o, r, hne, -, -, ho, -⟩
  exact (perform_goes ho).2 id hne h

theorem sampleNow_triple : Triple (workers host R once) κ Any (sampleNow none)
    (fun now w => now ≤ w.seconds) Any₂ := by
  refine Triple.bind (R := fun ms w => ((ms : ℕ) : ℤ) / 1000 ≤ w.seconds) ?_ fun ms =>
    Triple.pure fun w _ h => h
  refine Triple.op (Stable.const True) (fun _ _ _ => trivial) ?_
  rintro w ms w' - - ⟨⟨-, rfl⟩, -⟩ -
  exact Int.le_refl _

/-- **A verification has been told so by the cache.** -/
theorem verifyFresh_triple (limit : ℕ) {v : Nip98Verification}
    (hv : host.verifyEvent v.event = true) :
    Triple (workers host R once) κ Any (verifyFresh host limit none v)
      (fun result w => ∀ v', result = some v' → (κ, eventId v'.event) ∈ w.told) Any₂ := by
  have refuse : ∀ P : World → Prop, Triple (workers host R once) κ P
      (pure none : Exc api Thrown (Option Nip98Verification))
      (fun result w => ∀ v', result = some v' → (κ, eventId v'.event) ∈ w.told) Any₂ :=
    fun P => Triple.pure fun _ _ _ _ h => by cases h
  refine Triple.bind sampleNow_triple fun now => ?_
  cases hc : createdAt v.event with
  | none => exact refuse _
  | some created =>
    refine Triple.ite (fun hfresh => ?_) fun _ => refuse _
    refine Triple.bind (R := fun _ w => now ≤ w.seconds) ?_ fun body => ?_
    · refine Triple.tryOp (stable_seconds now) (fun _ _ _ => trivial) ?_ fun _ _ _ _ _ _ _ _ _ =>
        trivial
      rintro w r w' a - h ⟨rfl, -⟩ - -
      exact h
    · refine Triple.ite (fun hbody => ?_) fun _ => refuse _
      refine Triple.bind (R := fun accepted w =>
        accepted = true → (κ, eventId v.event) ∈ w.told) ?_ fun accepted => Triple.pure ?_
      · refine Triple.op (stable_seconds now) (fun w _ h => ⟨⟨_, _, hv, hc, rfl, rfl⟩, h⟩) ?_
        rintro w answer w' - - ⟨⟨rfl, rfl⟩ | ⟨rfl, rfl⟩, -⟩ - h
        · cases h
        · simp only [World.asked, h, if_true]
          exact List.mem_cons_self
      · rintro w - h v' e
        cases accepted with
        | false => cases e
        | true => exact Option.some.inj e ▸ h rfl

/-- what was signed is verified. -/
theorem verifyEvent_of_signedEvent {input : Nip98Input} {v : Nip98Verification}
    (h : signedEvent host input = some v) : host.verifyEvent v.event = true := by
  unfold signedEvent at h
  obtain ⟨authHeader, -, h⟩ := Option.bind_eq_some_iff.mp h
  obtain ⟨_, -, h⟩ := Option.bind_eq_some_iff.mp h
  obtain ⟨text, -, h⟩ := Option.bind_eq_some_iff.mp h
  obtain ⟨event, -, h⟩ := Option.bind_eq_some_iff.mp h
  obtain ⟨_, hverified, h⟩ := Option.bind_eq_some_iff.mp h
  obtain ⟨signerNpub, -, h⟩ := Option.bind_eq_some_iff.mp h
  obtain ⟨_, -, h⟩ := Option.bind_eq_some_iff.mp h
  obtain ⟨signedUrl, -, h⟩ := Option.bind_eq_some_iff.mp h
  obtain ⟨url, -, h⟩ := Option.bind_eq_some_iff.mp h
  obtain ⟨_, -, h⟩ := Option.bind_eq_some_iff.mp h
  obtain ⟨signedMethod, -, h⟩ := Option.bind_eq_some_iff.mp h
  obtain ⟨_, -, h⟩ := Option.bind_eq_some_iff.mp h
  rw [← Option.some.inj h]
  exact (of_guard hverified).1

theorem handleRequest_triple (limit : ℕ) {input : Nip98Input} (hnow : input.now = none) :
    Triple (workers host R once) κ Any (handleRequest host limit input) Any₂ Any₂ := by
  refine Triple.bind (R := fun result w =>
    ∀ v, result = some v → (κ, eventId v.event) ∈ w.told) ?_ fun result => ?_
  · unfold verifyNip98Request
    split
    · exact Triple.pure fun _ _ _ _ h => by cases h
    · rename_i v hv
      rw [hnow]
      exact Triple.tryCatch (verifyFresh_triple limit (verifyEvent_of_signedEvent hv)) fun e =>
        Triple.pure fun _ _ _ _ h => by cases h
  · cases result with
    | none => exact Triple.pure fun _ _ _ => trivial
    | some v =>
      refine (Triple.op (P := fun w => (κ, eventId v.event) ∈ w.told) (stable_told _)
        (fun _ _ h => h) fun _ _ _ _ _ _ _ => trivial).pre fun w _ h => h v rfl

theorem cleanUp_triple : Triple (workers host R once) κ Any cleanUp Any₂ Any₂ :=
  Triple.bind sampleNow_triple fun now =>
    Triple.op (stable_seconds now) (fun _ _ h => h) fun _ _ _ _ _ _ _ => trivial

/-- **Every worker keeps the invariant**, where events stand when they are asked for again. -/
theorem workers_keeps
    (hR : ∀ w id expiresAt, Inv host once w → R w id expiresAt → once →
      Standing id expiresAt w.history) : (workers host R once).Keeps where
  perform {κ o w r w'} h hmay ho := by
    obtain ⟨ho, hwhen⟩ := ho
    cases o with
    | dateNow =>
      obtain ⟨hclock, rfl⟩ := ho
      refine ⟨h.rows, h.asked, fun now hn => ?_, h.admitted, h.once⟩
      exact Int.le_trans (h.times now hn) (World.seconds_mono hclock)
    | arrayBuffer =>
      obtain rfl := ho
      exact h
    | accept limit id expiresAt now =>
      rcases ho with ⟨-, rfl⟩ | ⟨-, rfl⟩
      · exact h
      · exact h.asked_step hmay.1 hmay.2 (hR w id expiresAt h (hwhen limit id expiresAt now rfl))
    | cleanup now =>
      rcases ho with rfl | rfl
      · exact h
      · exact h.cleaned_step hmay
    | verified v =>
      obtain rfl := ho
      exact h.verified_step hmay
  crash h hs := by
    obtain rfl := hs
    exact h
  spawn {κ p w} h hp := by
    cases hp with
    | request limit input hnow => exact (handleRequest_triple limit hnow).detach h
    | cleanUp => exact cleanUp_triple.detach h

/-! ## what it says of a run -/

/-- an event is asked for again only while it stands. -/
def WhileStanding : When := fun w id expiresAt => Standing id expiresAt w.history

/-- an event is asked for only before it expires. -/
def BeforeExpiry : When := fun w _ expiresAt => w.seconds < expiresAt

/-- the ids of the events that were accepted, latest first. -/
def acceptedIds (w : World) : List String := w.accepted.map fun v => eventId v.event

theorem Inv.acceptedIds_nodup {p : Prop} (h : Inv host p w) (hp : p) : (acceptedIds w).Nodup :=
  (List.nodup_append.mp (h.admitted.nodup_iff.mpr (h.once hp))).1

theorem Inv.count_le (h : Inv host once w) (id : String) :
    (acceptedIds w).count id ≤ (admittedIds w.history).count id := by
  rw [← h.admitted.count_eq, List.count_append]
  exact Nat.le_add_right _ _

/-- What the cache says of an event that it admits. -/
structure Admits (limit : ℕ) (id : String) (now : ℤ) (w w' : World) : Prop where
  isNew : ∀ row ∈ Nip98ReplayCache.deleteExpired now w.rows, row.eventId ≠ id
  room : (Nip98ReplayCache.deleteExpired now w.rows).length < limit
  recorded : ∃ row ∈ w'.rows, row.eventId = id

/-- **A failed transaction and a full cache accept nothing.** -/
theorem admits_of_perform {limit : ℕ} {id : String} {expiresAt now : ℤ}
    (ho : perform κ (.accept limit id expiresAt now) w true w') : Admits limit id now w w' := by
  rcases ho with ⟨h, -⟩ | ⟨h, rfl⟩
  · cases h
  · obtain ⟨-, -, hnew, hroom, hrows⟩ := Nip98ReplayCache.accept_true h.symm
    refine ⟨hnew, hroom, ⟨id, expiresAt⟩, ?_, rfl⟩
    show _ ∈ (Nip98ReplayCache.accept limit id expiresAt now w.rows).2
    rw [hrows]
    exact List.mem_append_right _ (List.mem_singleton.mpr rfl)

end

/-- **No event is accepted twice** in a run in which each event stands whenever it is asked for
again.  In every run an event is accepted at most as often as the cache admitted it, and the cache
admits an event only when it is new and there is room. -/
theorem verified_once (host : Host) :
    (∀ c, Reachable (restricted host WhileStanding) World.Initial c →
      (acceptedIds c.state).Nodup) ∧
    ∀ c, Reachable (system host) World.Initial c →
      (∀ id, (acceptedIds c.state).count id ≤ (admittedIds c.state.history).count id) ∧
      ∀ κ limit id expiresAt now w',
        perform κ (.accept limit id expiresAt now) c.state true w' →
          Admits limit id now c.state w' := by
  have restrictedKeeps : (workers host WhileStanding True).Keeps :=
    workers_keeps fun w id expiresAt _ h _ => h
  have systemKeeps : (workers host (fun _ _ _ => True) False).Keeps :=
    workers_keeps fun w id expiresAt _ _ h => h.elim
  refine ⟨fun c h => ?_, fun c h => ⟨fun id => ?_, fun κ limit id expiresAt now w' =>
    admits_of_perform⟩⟩
  · exact (restrictedKeeps.reachable (fun _ => Inv.initial) h).inv.acceptedIds_nodup trivial
  · exact (systemKeeps.reachable (fun _ => Inv.initial) h).inv.count_le id

/-- **Where every body arrives before its event expires, no event is accepted twice.** -/
theorem verified_of_prompt (host : Host) (c : Conf api World)
    (h : Reachable (restricted host BeforeExpiry) World.Initial c) :
    (acceptedIds c.state).Nodup := by
  have keeps : (workers host BeforeExpiry True).Keeps := by
    refine workers_keeps fun w id expiresAt hi h _ => Standing.of_lt fun now hn => ?_
    exact Int.lt_of_le_of_lt (hi.times now hn) h
  exact (keeps.reachable (fun _ => Inv.initial) h).inv.acceptedIds_nodup trivial

/-! ## a body that arrives late -/

/-- a signed `GET` request. -/
def someEvent (id : String) (created : ℚ) : Value :=
  obj [("id", str id), ("pubkey", str "key"), ("created_at", num created), ("kind", num 27235),
    ("tags", arr [arr [str "u", str "https://host/"], arr [str "method", str "GET"]])]

/-- a host that knows two signed events, 76 seconds apart. -/
def someHost : Host where
  jsonParse text := if text = "first" then some (someEvent "first" 0)
    else some (someEvent "second" 76)
  dateParse _ := none
  url _ := none
  urlAt _ _ := none
  sha256 text := text
  base64Text text := text
  toText _ := ""
  toNumber := numberOf
  toNumber_num _ := rfl
  encodeURIComponent text := text
  toUpperCase text := text
  atob text := some text
  verifyEvent event := event = someEvent "first" 0 ∨ event = someEvent "second" 76
  npubEncode _ := some "npub"
  hashHex _ := ""
  verifyEvent_id event event' h h' hid := by
    have key : ∀ e : Value, decide (e = someEvent "first" 0 ∨ e = someEvent "second" 76) = true →
        e.get "created_at" = if e.get "id" = str "first" then num 0 else num 76 := by
      intro e he
      rcases of_decide_eq_true he with rfl | rfl <;> decide +kernel
    rw [key event h, key event' h', hid]

def someInput (text : String) : Nip98Input where
  authorization := some ("Nostr " ++ text)
  method := "GET"
  requestUrl := ⟨"https:", "//host", "/", "", "", "https://host"⟩
  configuredBaseUrl := ""

theorem signedEvent_first :
    signedEvent someHost (someInput "first") = some ⟨"npub", someEvent "first" 0⟩ := by
  decide +kernel

theorem signedEvent_second :
    signedEvent someHost (someInput "second") = some ⟨"npub", someEvent "second" 76⟩ := by
  decide +kernel

/-- the requests of both events run as far as their signatures. -/
theorem handleRequest_of_signed {host : Host} {limit : ℕ} {input : Nip98Input}
    {v : Nip98Verification} (h : signedEvent host input = some v) :
    handleRequest host limit input =
      tryCatch (verifyFresh host limit input.now v) (fun _ => pure none) >>= report := by
  rw [handleRequest, verifyNip98Request, h]

/-- a program that may be started. -/
def Startable (p : Prog api Unit) : Prop :=
  p.Suspended ∧ ∀ κ w, (system someHost).spawn w κ p

/-- the requests wait for the clock first. -/
theorem handleRequest_startable {text : String} {v : Nip98Verification}
    (h : signedEvent someHost (someInput text) = some v) :
    Startable (handleRequest someHost 9 (someInput text)).detach := by
  refine ⟨?_, fun κ w => Spawn.request 9 (someInput text) rfl⟩
  rw [handleRequest_of_signed h]
  exact (rfl : api.yields .dateNow = true)

/-- the state when the first event was accepted. -/
def firstAccepted (clock : ℕ) : World where
  clock := clock
  rows := [⟨"first", 76⟩]
  history := [.admitted ⟨"first", 76⟩, .expired 0]
  accepted := [⟨"npub", someEvent "first" 0⟩]

/-- the state when the second event was accepted too, and the row of the first has expired. -/
def bothAccepted : World where
  clock := 76000
  rows := [⟨"second", 152⟩]
  history := [.admitted ⟨"second", 152⟩, .expired 76, .admitted ⟨"first", 76⟩, .expired 0]
  accepted := [⟨"npub", someEvent "second" 76⟩, ⟨"npub", someEvent "first" 0⟩]

/-- every step of the workers is run. -/
theorem unrestricted {o : VerifierOp} (limit : ℕ) (id : String) (expiresAt now : ℤ)
    (_ : o = .accept limit id expiresAt now) : True := trivial

theorem first_accepted : ∃ p, Startable p ∧
    Solo (system someHost) 0 p {} (.ret ()) (firstAccepted 0) := by
  refine ⟨_, handleRequest_startable signedEvent_first, ?_⟩
  rw [handleRequest_of_signed signedEvent_first]
  exact .step (0 : ℕ) ⟨⟨Nat.le_refl _, rfl⟩, unrestricted⟩ <|
    .step (.ok []) ⟨rfl, unrestricted⟩ <| .step true ⟨.inr ⟨rfl, rfl⟩, unrestricted⟩ <|
    .step () ⟨rfl, unrestricted⟩ (.refl _ _)

theorem second_accepted : ∃ p, Startable p ∧
    Solo (system someHost) 2 p (firstAccepted 60000) (.ret ()) bothAccepted := by
  refine ⟨_, handleRequest_startable signedEvent_second, ?_⟩
  rw [handleRequest_of_signed signedEvent_second]
  exact .step (76000 : ℕ) ⟨⟨by decide, rfl⟩, unrestricted⟩ <|
    .step (.ok []) ⟨rfl, unrestricted⟩ <| .step true ⟨.inr ⟨rfl, rfl⟩, unrestricted⟩ <|
    .step () ⟨rfl, unrestricted⟩ (.refl _ _)

/-- the first request again, up to its body, and from there. -/
theorem first_waits : ∃ p, Startable p ∧
    ∃ p', Solo (system someHost) 1 p (firstAccepted 0) p' (firstAccepted 60000) ∧ p'.Suspended ∧
      ∃ s, Solo (system someHost) 1 p' bothAccepted (.ret ()) s ∧
        acceptedIds s = ["first", "second", "first"] := by
  refine ⟨_, handleRequest_startable signedEvent_first, ?_⟩
  rw [handleRequest_of_signed signedEvent_first]
  exact ⟨_, .step (60000 : ℕ) ⟨⟨Nat.zero_le _, rfl⟩, unrestricted⟩ (.refl _ _), rfl, _,
    .step (.ok []) ⟨rfl, unrestricted⟩ <| .step true ⟨.inr ⟨rfl, rfl⟩, unrestricted⟩ <|
      .step () ⟨rfl, unrestricted⟩ (.refl _ _), rfl⟩

/-- **A request is accepted twice.**  The second time its body arrives when another request has
expired the event. -/
theorem verified_twice :
    ¬∀ host c, Reachable (system host) World.Initial c → (acceptedIds c.state).Nodup := by
  intro h
  obtain ⟨p₁, hp₁, first⟩ := first_accepted
  obtain ⟨p₂, hp₂, p₂', waits, hp₂', s, arrives, hids⟩ := first_waits
  obtain ⟨p₃, hp₃, expires⟩ := second_accepted
  obtain ⟨c₁, hc₁, hs₁, -, hr₁, ht₁⟩ := first.reachable World.Initial ⟨0, rfl⟩ hp₁.1 (hp₁.2 _ _)
  rw [← hs₁] at waits
  obtain ⟨c₂, hc₂, hs₂, ht₂, hr₂, ho₂⟩ := waits.extend hc₁ hr₁ (ht₁ 1 (by decide)) hp₂.1 (hp₂.2 _ _)
  rw [← hs₂] at expires
  obtain ⟨c₃, hc₃, hs₃, -, hr₃, ho₃⟩ := expires.extend hc₂ (hr₂.trans (if_pos hp₂'))
    ((ho₂ 2 (by decide)).trans (ht₁ 2 (by decide))) hp₃.1 (hp₃.2 _ _)
  obtain ⟨c₄, hsteps, hs₄, -⟩ := arrives.steps c₃ hs₃ ((ho₃ 1 (by decide)).trans ht₂)
    (hr₃.trans (if_pos hp₂').symm)
  obtain ⟨s₀, hs₀, hreach⟩ := hc₃
  have hnodup := h someHost c₄ ⟨s₀, hs₀, hreach.trans hsteps⟩
  rw [hs₄, hids] at hnodup
  exact absurd hnodup (by decide)

end Auth
end WmAutopilot
