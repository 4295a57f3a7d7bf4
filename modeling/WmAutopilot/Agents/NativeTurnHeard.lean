import Mathlib.Data.Nat.Basic
import WmAutopilot.Agents.NativeTurnTranscripts

/-!
# What a line is heard as

* `Rel`           what the records know of a transcript;
* `Heard`         what a line is heard as: an event or nothing, and the messages that are known;
* `visit_heard`   **one line** that fits is heard as what it is, and the records know the rest.
-/

set_option autoImplicit false

namespace WmAutopilot
namespace NativeTurns
open Js

section
variable (turns : Turns)

/-- **What the records know of a transcript.** -/
structure Rel (s : NativeTurnRecords) (rid : Option String) (p : Progress) : Prop where
  count : s.count = p.seen
  turnId : s.turnId ≠ some ""
  begun : p.asked = false → 1 ≤ p.turn
  users : ∀ i t, s.users.lookup i = some t →
    ∃ k, 1 ≤ k ∧ k ≤ p.seen ∧ turns.id k = some i ∧ turns.prompt k = t
  own : p.asked = true → 1 ≤ p.turn → rid = none ∨ rid = turns.id p.turn
  registered : p.asked = true → 1 ≤ p.turn → ∀ i, rid = some i →
    s.users.lookup i = some (turns.prompt p.turn)
  last : p.asked = true → 1 ≤ p.turn → p.acted = false → ∀ last, s.lastUser = some last →
    last.1 = turns.prompt p.turn ∧ last.2 ∈ p.forms

/-- **What a line is heard as.** -/
inductive Heard (s : NativeTurnRecords) (rid : Option String) (p : Progress) :
    Entry → NativeTurnRecords → Option NativeTurnRecord → Prop where
  | start (s' : NativeTurnRecords) (line : Parsed) (k : ℕ) (id : Option String) (source : String)
      (hk : (k = p.turn ∧ 1 ≤ k) ∨ (k = p.turn + 1 ∧ p.asked = true))
      (hid : k = p.turn → p.asked = true → id = rid) (hm : s'.messageIds = s.messageIds) :
      Heard s rid p ⟨line, .start k⟩ s' (some { turnId := id, source })
  | first (s' : NativeTurnRecords) (k : ℕ) (own : Option String) (source : String)
      (hk : p.First k) (hm : s'.messageIds = s.messageIds) :
      Heard s rid p ⟨.item own source (some (.user (turns.prompt k))), .request k⟩ s'
        (some { item := some (.user (turns.prompt k)), turnId := own.or s.turnId, source })
  | mirror (s' : NativeTurnRecords) (own : Option String) (source : String)
      (hasked : p.asked = true) (hm : s'.messageIds = s.messageIds) :
      Heard s rid p ⟨.item own source (some (.user (turns.prompt p.turn))), .request p.turn⟩ s' none
  | acts (s' : NativeTurnRecords) (own : Option String) (source : String) (item : Item)
      (hasked : p.asked = true) (hacts : item.Acts turns p.turn)
      (hnew : ∀ i, item.messageId = some i → (rid, i) ∉ s.messageIds)
      (hm : s'.messageIds = (item.messageId.map (rid, ·)).toList ++ s.messageIds) :
      Heard s rid p ⟨.item own source (some item), .activity p.turn⟩ s'
        (some { item := some item, turnId := rid, source })
  | again (s' : NativeTurnRecords) (own : Option String) (source : String) (item : Item)
      (hasked : p.asked = true) (hacts : item.Acts turns p.turn) (i : String)
      (hi : item.messageId = some i) (hold : (rid, i) ∈ s.messageIds)
      (hm : s'.messageIds = s.messageIds) :
      Heard s rid p ⟨.item own source (some item), .activity p.turn⟩ s' none
  | replay (line : Parsed) (j : ℕ) : Heard s rid p ⟨line, .replay j⟩ s none
  | noise (line : Parsed) : Heard s rid p ⟨line, .noise⟩ s none

end

section
variable {turns : Turns} {s s' : NativeTurnRecords} {rid own : Option String} {p : Progress}
  {k : ℕ} {source : String}

/-! ## ids -/

theorem present_of_ne {id : Option String} (h : id ≠ some "") : present id = id := by
  cases id with
  | none => rfl
  | some i => exact Option.filter_eq_some_iff.mpr ⟨rfl, by simpa using h⟩

theorem Own.ne (h : Own turns k own) : own ≠ some "" := by
  rcases h with rfl | rfl
  · simp
  · exact turns.id_ne k

theorem or_ne (h : own ≠ some "") (h' : s.turnId ≠ some "") : own.or s.turnId ≠ some "" := by
  cases own with
  | none => exact h'
  | some i => exact h

/-- a line that resolves is not foreign. -/
theorem Resolves.not_foreign (h : Resolves s own rid) : ¬s.Foreign (own.or s.turnId) := by
  rintro ⟨hs, -, hne⟩
  have hsome : s.turnId.isSome = true := by
    cases hid : s.turnId with
    | none => simp [hid, present] at hs
    | some i => rfl
  exact hne (h.1.trans (h.2 hsome).symm)

/-- the first request of a turn resolves to its id. -/
theorem first_resolves (hown : Own turns k own)
    (h : s.turnId.isSome = true → s.turnId = turns.id k) :
    (own.or s.turnId = none ∨ own.or s.turnId = turns.id k) ∧
      Resolves s own (own.or s.turnId) := by
  rcases hown with rfl | rfl
  · refine ⟨?_, rfl, fun _ => rfl⟩
    cases hid : s.turnId with
    | none => exact .inl rfl
    | some i => exact .inr (by rw [← h (by rw [hid]; rfl), hid]; rfl)
  · cases hid : turns.id k with
    | none =>
      rw [hid] at h
      refine ⟨.inl ?_, rfl, fun _ => rfl⟩
      cases hs : s.turnId with
      | none => rfl
      | some i => exact absurd (h (by rw [hs]; rfl)) (by simp [hs])
    | some i => exact ⟨.inr rfl, rfl, fun hs => by rw [h hs, hid]; rfl⟩

/-! ## one line -/

/-- a turn is begun: only the id in effect and the last request may change. -/
theorem Rel.begin (h : Rel turns s rid p) (hk : k = p.turn ∨ (k = p.turn + 1 ∧ p.asked = true))
    (hcount : s'.count = s.count) (hid : s'.turnId ≠ some "") (husers : s'.users = s.users)
    (hlast : s'.lastUser = s.lastUser ∨ s'.lastUser = none) : Rel turns s' rid (p.begin k) := by
  have hseen : (p.begin k).seen = p.seen := by
    rcases hk with rfl | ⟨rfl, hasked⟩ <;> simp [Progress.begin, Progress.seen, *]
  refine ⟨by rw [hcount, h.count, hseen], hid, ?_, ?_, ?_, ?_, ?_⟩
  · rcases hk with rfl | ⟨rfl, -⟩
    · simpa [Progress.begin] using h.begun
    · simp [Progress.begin]
  · rw [husers, hseen]
    exact h.users
  · rcases hk with rfl | ⟨rfl, -⟩
    · simpa [Progress.begin] using h.own
    · simp [Progress.begin]
  · rw [husers]
    rcases hk with rfl | ⟨rfl, -⟩
    · simpa [Progress.begin] using h.registered
    · simp [Progress.begin]
  · rcases hk with rfl | ⟨rfl, -⟩
    · intro hasked hturn hacted last hl
      simp only [Progress.begin, if_pos] at hasked hturn hacted ⊢
      rcases hlast with hlast | hlast
      · exact h.last hasked hturn hacted last (hlast ▸ hl)
      · simp [hlast] at hl
    · simp [Progress.begin]

/-- the first request of a turn is not registered yet. -/
theorem Rel.unknown (h : Rel turns s rid p) (hk : p.First k) {r : Option String}
    (hr : r = none ∨ r = turns.id k) : (present r).bind (s.users.lookup ·) = none := by
  rcases hr with rfl | rfl
  · rfl
  · rw [present_of_ne (turns.id_ne k)]
    cases hid : turns.id k with
    | none => rfl
    | some i =>
      cases hl : s.users.lookup i with
      | none => simp [hl]
      | some t =>
        obtain ⟨j, hj, hseen, hj', -⟩ := h.users i t hl
        obtain rfl := turns.id_inj j k i hj' hid
        have := h.begun
        rcases hk with ⟨rfl, hasked⟩ | ⟨rfl, hasked, -⟩ <;>
          simp only [Progress.seen, hasked] at hseen this <;> grind

theorem Progress.First.seen (hk : p.First k) (hb : p.asked = false → 1 ≤ p.turn) :
    p.seen + 1 = k := by
  rcases hk with ⟨rfl, hasked⟩ | ⟨rfl, hasked, -⟩
  · have := hb hasked
    simp only [Progress.seen, hasked]
    grind
  · simp [Progress.seen, hasked]

theorem Progress.First.not_again (hk : p.First k) : ¬(k = p.turn ∧ p.asked = true) := by
  rintro ⟨rfl, hasked⟩
  rcases hk with ⟨-, hk⟩ | ⟨hk, -⟩
  · simp [hasked] at hk
  · omega

theorem Progress.First.ask (hk : p.First k) : p.ask k source =
    { turn := k, asked := true, forms := [source], acted := false, separated := false } := by
  rw [Progress.ask, if_neg hk.not_again]

variable {r : Option String}

/-- the records after the first request of turn `k`. -/
def NativeTurnRecords.asked (s : NativeTurnRecords) (text : String) (r : Option String)
    (source : String) : NativeTurnRecords :=
  { s with
    count := s.count + 1
    users := ((present r).map (·, text)).toList ++ s.users
    lastUser := some (text, source) }

theorem Rel.visit_first (h : Rel turns s rid p) (hk : p.First k) (hr : r = none ∨ r = turns.id k)
    (hl : ∀ other, s.lastUser = some (turns.prompt k, other) → other = source) :
    s.visitUser (turns.prompt k) r source = .ok (s.asked (turns.prompt k) r source,
      some { item := some (.user (turns.prompt k)), turnId := r, source }) := by
  have hlast : (s.lastUser.any fun last => last.1 = turns.prompt k && last.2 ≠ source) = false := by
    cases hlast : s.lastUser with
    | none => rfl
    | some last =>
      obtain ⟨text, other⟩ := last
      by_cases htext : text = turns.prompt k
      · simp [hl other (htext ▸ hlast)]
      · simp [htext]
  rw [NativeTurnRecords.visitUser, h.unknown hk hr, hlast]
  rfl

theorem Rel.first (h : Rel turns s rid p) (hk : p.First k) (hr : r = none ∨ r = turns.id k) :
    Rel turns (s.asked (turns.prompt k) r source) r (p.ask k source) := by
  have hseen := hk.seen h.begun
  rw [hk.ask]
  refine ⟨?_, h.turnId, by simp, ?_, fun _ _ => hr, ?_, ?_⟩
  · simp only [NativeTurnRecords.asked, h.count, Progress.seen, if_pos]
    exact hseen
  · intro i t hi
    have hold : ∀ i t, s.users.lookup i = some t →
        ∃ j, 1 ≤ j ∧ j ≤ k ∧ turns.id j = some i ∧ turns.prompt j = t := by
      intro i t hi
      obtain ⟨j, hj, hle, hid, ht⟩ := h.users i t hi
      exact ⟨j, hj, by omega, hid, ht⟩
    rcases hr with rfl | rfl
    · exact hold i t hi
    · simp only [NativeTurnRecords.asked, present_of_ne (turns.id_ne k)] at hi
      cases hid : turns.id k with
      | none => exact hold i t (by simpa [hid] using hi)
      | some own =>
        simp only [hid, Option.map_some, Option.toList_some, List.cons_append, List.nil_append,
          List.lookup_cons] at hi
        by_cases hown : i = own
        · subst hown
          exact ⟨k, by omega, le_refl k, hid, by simpa using hi⟩
        · exact hold i t (by simpa [beq_false_of_ne hown] using hi)
  · intro _ _ i hi
    have hne : r ≠ some "" := by
      rcases hr with rfl | rfl
      · simp
      · exact turns.id_ne k
    rw [NativeTurnRecords.asked, present_of_ne hne, hi]
    simp
  · rintro - - - last hl
    obtain rfl : (turns.prompt k, source) = last := by simpa [NativeTurnRecords.asked] using hl
    simp

/-- **Another form of a request** changes nothing. -/
theorem Rel.visit_mirror (h : Rel turns s rid p) (hk : p.Mirror k source)
    (hknown : rid.isSome = true ∨ s.lastUser.isSome = true) :
    s.visitUser (turns.prompt k) rid source = .ok (s, none) := by
  obtain ⟨rfl, hasked, hturn, hacted, hnew⟩ := hk
  cases hid : rid with
  | some i =>
    have hne : some i ≠ some "" := by
      rcases h.own hasked hturn with hown | hown
      · simp [hid] at hown
      · exact hid ▸ hown ▸ turns.id_ne p.turn
    simp [NativeTurnRecords.visitUser, present_of_ne hne, h.registered hasked hturn i hid]
  | none =>
    obtain ⟨last, hlast⟩ := Option.isSome_iff_exists.mp (hknown.resolve_left (by simp [hid]))
    obtain ⟨htext, hform⟩ := h.last hasked hturn hacted last hlast
    have hother : last.2 ≠ source := fun heq => hnew (heq ▸ hform)
    have hany : (s.lastUser.any fun last => last.1 = turns.prompt p.turn && last.2 ≠ source) =
        true := by
      simp [hlast, htext, hother]
    simp only [NativeTurnRecords.visitUser, present, Option.filter_none, Option.bind_none, hany,
      Option.map_none, Option.toList_none, List.nil_append, if_true]

/-- **A request that is known** changes nothing. -/
theorem Rel.visit_again (h : Rel turns s rid p) {i : String} (hid : turns.id k = some i)
    (hknown : (s.users.lookup i).isSome = true) :
    s.visitUser (turns.prompt k) (turns.id k) source = .ok (s, none) := by
  obtain ⟨t, ht⟩ := Option.isSome_iff_exists.mp hknown
  obtain ⟨j, -, -, hj, rfl⟩ := h.users i t ht
  obtain rfl := turns.id_inj j k i hj hid
  have hne := turns.id_ne j
  rw [hid] at hne
  simp [NativeTurnRecords.visitUser, hid, present_of_ne hne, ht]

theorem Rel.mirror (h : Rel turns s rid p) (hk : p.Mirror k source) :
    Rel turns s rid (p.ask k source) := by
  obtain ⟨rfl, hasked, hturn, hacted, hnew⟩ := hk
  have hask : p.ask p.turn source =
      { p with forms := source :: p.forms, separated := false } := by
    simp [Progress.ask, hasked]
  rw [hask]
  refine ⟨h.count, h.turnId, h.begun, h.users, h.own, h.registered, ?_⟩
  intro _ _ _ last hl
  have := h.last hasked hturn hacted last hl
  exact ⟨this.1, List.mem_cons_of_mem _ this.2⟩

/-- **What a turn does** changes the last request, the ids of messages and the id in effect. -/
theorem Rel.act (h : Rel turns s rid p) (hcount : s'.count = s.count)
    (hid : s'.turnId ≠ some "") (husers : s'.users = s.users) :
    Rel turns s' rid { p with acted := true, separated := true } := by
  refine ⟨hcount.trans h.count, hid, h.begun, ?_, h.own, ?_, by simp⟩
  · rw [husers]
    exact h.users
  · rw [husers]
    exact h.registered

theorem Rel.foreign (h : Rel turns s rid p) (hs : s.turnId.isSome = true)
    (hid : (turns.id k).isSome = true) (hne : s.turnId ≠ turns.id k) :
    s.Foreign (turns.id k) := by
  refine ⟨?_, ?_, hne.symm⟩
  · rwa [present_of_ne h.turnId]
  · rwa [present_of_ne (turns.id_ne k)]

theorem NativeTurnRecords.visitActivity_frame (s : NativeTurnRecords) (item : Item)
    (r : Option String) (source : String) :
    (s.visitActivity item r source).1.count = s.count ∧
      ((s.visitActivity item r source).1.turnId = s.turnId ∨
        (s.visitActivity item r source).1.turnId = none) ∧
      (s.visitActivity item r source).1.users = s.users := by
  rw [visitActivity]
  split
  · split
    · exact ⟨rfl, .inl rfl, rfl⟩
    · exact ⟨rfl, .inl rfl, rfl⟩
  · refine ⟨rfl, ?_, rfl⟩
    dsimp only
    split
    · exact .inr rfl
    · exact .inl rfl

/-- a message is heard once. -/
theorem heard_acts {item : Item} (hasked : p.asked = true) (hacts : item.Acts turns p.turn) :
    Heard turns s rid p ⟨.item own source (some item), .activity p.turn⟩
      (s.visitActivity item rid source).1 (s.visitActivity item rid source).2 := by
  rw [NativeTurnRecords.visitActivity]
  cases hi : item.messageId with
  | none => exact .acts _ own source item hasked hacts (by simp [hi]) (by simp [hi])
  | some i =>
    by_cases hold : (rid, i) ∈ s.messageIds
    · simp only [if_pos hold]
      exact .again _ own source item hasked hacts i hi hold rfl
    · simp only [if_neg hold]
      exact .acts _ own source item hasked hacts (by simpa [hi] using hold) (by simp [hi])

/-- **A line that fits** is heard as what it is. -/
theorem visit_heard {e : Entry} (h : Rel turns s rid p) (ha : Allows turns p e)
    (hf : Fit turns s rid p e) :
    ∃ s' event, s.step e.line = .ok (s', event) ∧
      Rel turns s' (ridAfter s rid p e) (p.after e) ∧ Heard turns s rid p e s' event := by
  cases ha with
  | context k own hown hk =>
    exact ⟨_, _, rfl, h.begin (hk.imp_left And.left) rfl (or_ne hown.ne h.turnId) rfl (.inl rfl),
      .start _ _ k _ _ hk hf rfl⟩
  | started k own source hown hk =>
    exact ⟨_, _, rfl, h.begin (hk.imp_left And.left) rfl hown.ne rfl (.inr rfl),
      .start _ _ k _ _ hk hf rfl⟩
  | request k own source hown hk =>
    by_cases hfirst : p.First k
    · obtain ⟨hid, hl⟩ := hf.1 hfirst
      obtain ⟨hr, hres⟩ := first_resolves hown hid
      have hnew := hfirst.not_again
      refine ⟨s.asked (turns.prompt k) (own.or s.turnId) source, _, ?_, ?_,
        .first _ k own source hfirst rfl⟩
      · simp only [NativeTurnRecords.step, if_neg hres.not_foreign]
        exact h.visit_first hfirst hr hl
      · simp only [ridAfter, if_neg hnew, Progress.after]
        exact h.first hfirst hr
    · have hmirror := hk.resolve_left hfirst
      obtain ⟨hres, hknown⟩ := hf.2 hmirror
      have hturn := hmirror.1
      have hasked := hmirror.2.1
      refine ⟨s, none, ?_, ?_, ?_⟩
      · simp only [NativeTurnRecords.step, if_neg hres.not_foreign]
        rw [hres.1]
        exact h.visit_mirror hmirror hknown
      · simp only [ridAfter, if_pos (And.intro hturn hasked), Progress.after]
        exact h.mirror hmirror
      · subst hturn
        exact .mirror s own source hasked rfl
  | activity own source item hown hasked hturn hacts =>
    have hres : Resolves s own rid := hf
    have hstep : s.step (.item own source (some item)) = .ok (s.visitActivity item rid source) := by
      simp only [NativeTurnRecords.step, if_neg hres.not_foreign]
      rw [hres.1]
      cases item with
      | user text => exact absurd rfl (hacts.1 text)
      | message | tools | complete | aborted => rfl
    refine ⟨(s.visitActivity item rid source).1, (s.visitActivity item rid source).2, hstep, ?_, ?_⟩
    · obtain ⟨hcount, hid, husers⟩ := s.visitActivity_frame item rid source
      have hne : (s.visitActivity item rid source).1.turnId ≠ some "" := by
        rcases hid with hid | hid
        · exact hid ▸ h.turnId
        · exact hid ▸ by simp
      exact h.act hcount hne husers
    · exact heard_acts hasked hacts
  | replayedRequest j source hj hid =>
    obtain ⟨i, hi⟩ := Option.isSome_iff_exists.mp hid
    refine ⟨s, none, ?_, h, .replay _ j⟩
    by_cases hforeign : s.Foreign (turns.id j)
    · simp [NativeTurnRecords.step, hi, hi ▸ hforeign]
    · have hknown : (s.users.lookup i).isSome = true := by
        rcases hf with ⟨hs, hne⟩ | ⟨_, i', -, hi', hknown⟩
        · exact absurd (h.foreign hs hid hne) hforeign
        · rwa [Option.some.inj (hi.symm.trans hi')]
      have hagain : s.visitUser (turns.prompt j) (turns.id j) source = .ok (s, none) :=
        h.visit_again hi hknown
      rw [hi] at hforeign hagain
      simpa [NativeTurnRecords.step, hi, hforeign] using hagain
  | replayedActivity j source item hj hid hacts =>
    obtain ⟨i, hi⟩ := Option.isSome_iff_exists.mp hid
    refine ⟨s, none, ?_, h, .replay _ j⟩
    have hforeign : s.Foreign (some i) := by
      rcases hf with ⟨hs, hne⟩ | ⟨text, -, htext, -⟩
      · exact hi ▸ h.foreign hs hid hne
      · exact absurd (Option.some.inj htext) (hacts.1 text)
    simp [NativeTurnRecords.step, hi, hforeign]
  | nothing => exact ⟨s, none, rfl, h, .noise _⟩
  | noItem own source =>
    refine ⟨s, none, ?_, h, .noise _⟩
    simp only [NativeTurnRecords.step]
    split <;> rfl

end

end NativeTurns
end WmAutopilot
