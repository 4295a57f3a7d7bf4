import WmAutopilot.Agents.NativeTurnRecords

/-!
# Transcripts of turns

* `Turns`        the prompts and the ids of turns;
* `Role`, `Entry`   a line with what it is: a start, a request, an activity, a replay or noise;
* `Progress`     how far a transcript is; `Allows` says which line may come next;
* `Fit`          the lines of a turn are told apart from those of other turns;
* `activities`   what a turn does, up to its first terminal event.
-/

set_option autoImplicit false

namespace WmAutopilot
namespace NativeTurns
open Js

/-- Turns, numbered from one. -/
structure Turns where
  prompt : ℕ → String
  id : ℕ → Option String
  id_ne : ∀ k, id k ≠ some ""
  id_inj : ∀ j k i, id j = some i → id k = some i → j = k
  /-- the turn of a message, by the id of the message. -/
  messageTurn : String → ℕ

/-- What a line is. -/
inductive Role where
  /-- turn `k` starts, or a context of it is logged. -/
  | start (k : ℕ)
  /-- one of the forms of the request of turn `k`. -/
  | request (k : ℕ)
  | activity (k : ℕ)
  /-- a line of turn `j` again, with its id. -/
  | replay (j : ℕ)
  | noise
  deriving DecidableEq

/-- a line with what it is. -/
structure Entry where
  line : Parsed
  role : Role

/-- how far a transcript is. -/
structure Progress where
  /-- turns that were begun. -/
  turn : ℕ := 0
  /-- the request of the turn was logged. -/
  asked : Bool := true
  /-- the forms in which it was. -/
  forms : List String := []
  acted : Bool := true
  /-- a start or an activity was logged since. -/
  separated : Bool := true
  deriving DecidableEq

/-- the requests that were logged. -/
def Progress.seen (p : Progress) : ℕ := if p.asked then p.turn else p.turn - 1

/-- the id of a line is absent or that of its turn. -/
def Own (turns : Turns) (k : ℕ) (own : Option String) : Prop := own = none ∨ own = turns.id k

/-- the first form of the request of turn `k`. -/
def Progress.First (p : Progress) (k : ℕ) : Prop :=
  (k = p.turn ∧ p.asked = false) ∨ (k = p.turn + 1 ∧ p.asked = true ∧ p.separated = true)

/-- another form of the request of turn `k`, before any activity of it. -/
def Progress.Mirror (p : Progress) (k : ℕ) (source : String) : Prop :=
  k = p.turn ∧ p.asked = true ∧ 1 ≤ p.turn ∧ p.acted = false ∧ source ∉ p.forms

/-- what is no request. -/
def Item.Acts (turns : Turns) (k : ℕ) (item : Item) : Prop :=
  (∀ text, item ≠ .user text) ∧ ∀ i, item.messageId = some i → turns.messageTurn i = k

/-- **The line that may come next.** -/
inductive Allows (turns : Turns) (p : Progress) : Entry → Prop where
  | context (k : ℕ) (own : Option String) (hown : Own turns k own)
      (hk : (k = p.turn ∧ 1 ≤ k) ∨ (k = p.turn + 1 ∧ p.asked = true)) :
      Allows turns p ⟨.context own, .start k⟩
  | started (k : ℕ) (own : Option String) (source : String) (hown : Own turns k own)
      (hk : (k = p.turn ∧ 1 ≤ k) ∨ (k = p.turn + 1 ∧ p.asked = true)) :
      Allows turns p ⟨.started own source, .start k⟩
  | request (k : ℕ) (own : Option String) (source : String) (hown : Own turns k own)
      (hk : p.First k ∨ p.Mirror k source) :
      Allows turns p ⟨.item own source (some (.user (turns.prompt k))), .request k⟩
  | activity (own : Option String) (source : String) (item : Item) (hown : Own turns p.turn own)
      (hasked : p.asked = true) (hturn : 1 ≤ p.turn) (hacts : item.Acts turns p.turn) :
      Allows turns p ⟨.item own source (some item), .activity p.turn⟩
  | replayedRequest (j : ℕ) (source : String)
      (hj : 1 ≤ j ∧ (j < p.turn ∨ (j = p.turn ∧ p.asked = true)))
      (hid : (turns.id j).isSome = true) :
      Allows turns p ⟨.item (turns.id j) source (some (.user (turns.prompt j))), .replay j⟩
  | replayedActivity (j : ℕ) (source : String) (item : Item) (hj : 1 ≤ j ∧ j < p.turn)
      (hid : (turns.id j).isSome = true) (hacts : item.Acts turns j) :
      Allows turns p ⟨.item (turns.id j) source (some item), .replay j⟩
  | nothing : Allows turns p ⟨.nothing, .noise⟩
  | noItem (own : Option String) (source : String) :
      Allows turns p ⟨.item own source none, .noise⟩

/-- turn `k` is begun. -/
def Progress.begin (p : Progress) (k : ℕ) : Progress :=
  if k = p.turn then { p with separated := true }
  else { turn := k, asked := false, forms := [], acted := false, separated := true }

/-- turn `k` is asked in one more form. -/
def Progress.ask (p : Progress) (k : ℕ) (source : String) : Progress :=
  if k = p.turn ∧ p.asked = true then { p with forms := source :: p.forms, separated := false }
  else { turn := k, asked := true, forms := [source], acted := false, separated := false }

def Progress.after (p : Progress) (e : Entry) : Progress :=
  match e.role with
  | .start k => p.begin k
  | .request k =>
    match e.line with
    | .item _ source _ => p.ask k source
    | _ => p
  | .activity _ => { p with acted := true, separated := true }
  | .replay _ | .noise => p

/-- **A transcript made of turns.** -/
def Transcript (turns : Turns) : Progress → List Entry → Prop
  | _, [] => True
  | p, e :: es => Allows turns p e ∧ Transcript turns (p.after e) es

/-! ## when lines are told apart -/

/-- a line of the turn that resolved to `rid`: it does so too, and is not foreign. -/
def Resolves (s : NativeTurnRecords) (own rid : Option String) : Prop :=
  own.or s.turnId = rid ∧ (s.turnId.isSome = true → s.turnId = rid)

/-- **A line is told apart from those of other turns**, where `rid` is the id to which the first
request of the turn resolved: no id of another turn is in effect for a line of a turn, no equal
request in another form for a first request, and an id is in effect for a line that is replayed. -/
def Fit (turns : Turns) (s : NativeTurnRecords) (rid : Option String) (p : Progress) (e : Entry) :
    Prop :=
  match e.role, e.line with
  | .start k, .context own => k = p.turn → p.asked = true → own.or s.turnId = rid
  | .start k, .started own _ => k = p.turn → p.asked = true → own = rid
  | .request k, .item own source _ =>
    (p.First k → (s.turnId.isSome = true → s.turnId = turns.id k) ∧
      ∀ other, s.lastUser = some (turns.prompt k, other) → other = source) ∧
    (p.Mirror k source → Resolves s own rid ∧ (rid.isSome = true ∨ s.lastUser.isSome = true))
  | .activity _, .item own _ _ => Resolves s own rid
  | .replay j, .item _ _ item => (s.turnId.isSome = true ∧ s.turnId ≠ turns.id j) ∨
      ∃ text i, item = some (.user text) ∧ turns.id j = some i ∧ (s.users.lookup i).isSome = true
  | _, _ => True

/-- the id to which a turn resolves. -/
def ridAfter (s : NativeTurnRecords) (rid : Option String) (p : Progress) (e : Entry) :
    Option String :=
  match e.role, e.line with
  | .request k, .item own _ _ => if k = p.turn ∧ p.asked = true then rid else own.or s.turnId
  | _, _ => rid

/-- every line of a run of the records fits. -/
def Fitting (turns : Turns) : NativeTurnRecords → Option String → Progress → List Entry → Prop
  | _, _, _, [] => True
  | s, rid, p, e :: es => Fit turns s rid p e ∧ ∀ s' event, s.step e.line = .ok (s', event) →
      Fitting turns s' (ridAfter s rid p e) (p.after e) es

/-! ## what is expected -/

/-- how far a transcript is after these lines. -/
def progress (p : Progress) (es : List Entry) : Progress := es.foldl Progress.after p

/-- **What turn `k` does**, up to its first terminal event; a message is logged once. -/
def activities (k : ℕ) : List String → List Entry → List Item
  | _, [] => []
  | ids, ⟨.item _ _ (some item), .activity j⟩ :: es =>
    if j ≠ k then activities k ids es
    else match item.messageId with
      | some i => if i ∈ ids then activities k ids es else item :: activities k (i :: ids) es
      | none => item :: if item.terminal then [] else activities k ids es
  | ids, _ :: es => activities k ids es

end NativeTurns
end WmAutopilot
