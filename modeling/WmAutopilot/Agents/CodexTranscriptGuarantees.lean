import Mathlib.Data.List.Nodup
import WmAutopilot.Agents.CodexTranscript

/-!
# Each message of a transcript once

* `layout`, `import_layout`     the messages of an import are those of the records that are kept,
                                turn by turn;
* `Paired`                      each message is written at most once in each source, and messages
                                with the same text are far apart;
* `activity_keeps`              **the scan of the activity keeps exactly the first copies**;
* `Recalled`, `import_iff`      **so does the importer, exactly if a second copy comes before eight
                                other messages**.
-/

set_option autoImplicit false

namespace WmAutopilot
namespace CodexTranscript
open Js Value

variable {host : Host}

/-! ## what an import says -/

/-- A piece of a transcript: a message between turns, or a part of a turn with its role. -/
inductive Item where
  | between (message : Message)
  | part (role : Role) (part : CodexAgentMessage)

/-- the parts of a role, in order. -/
def pick (role : Role) (parts : List (Role × CodexAgentMessage)) : List CodexAgentMessage :=
  (parts.filter (·.1 = role)).map (·.2)

/-- the messages of a turn: one for each role that has parts. -/
def turn (parts : List (Role × CodexAgentMessage)) : List Message :=
  messageOf .agentThinking (pick .agentThinking parts) ++
    messageOf .agentTools (pick .agentTools parts) ++ messageOf .agent (pick .agent parts)

/-- the messages of a transcript, where a turn has begun with some parts. -/
def layout : List (Role × CodexAgentMessage) → List Item → List Message
  | parts, [] => turn parts
  | parts, .part role p :: items => layout (parts ++ [(role, p)]) items
  | parts, .between message :: items => turn parts ++ message :: layout [] items

variable (host)

/-- the piece that a record says, and the tool names after it. -/
def itemOf (names : ToolNames) (line : Line) : Option Item × ToolNames :=
  match extractCodexTurnError host line with
  | some error =>
    (some (.between ⟨.agentError, formatCodexTurnError error, error.createdAt⟩), names)
  | none =>
    match extractEventMessage host line with
    | none =>
      let (note, names) := extractToolWorkingNote host names line
      (note.map fun note => match note.1 with
        | .thinking => .part .agentThinking ⟨"thinking", note.2, createdAt host line⟩
        | .tools => .part .agentTools ⟨"tools", note.2, createdAt host line⟩, names)
    | some event =>
      (match event.type with
      | .user_message => some (.between
          ⟨if isInjectedAgentContext event.content then .agentContext else .user,
            event.content, event.createdAt⟩)
      | .agent_message => some (.part
          (if event.phase = "final_answer" then .agent else .agentThinking)
          ⟨event.phase, event.content, event.createdAt⟩), names)

/-- the pieces that records say. -/
def items : ToolNames → List Line → List Item
  | _, [] => []
  | names, line :: lines =>
    (itemOf host names line).1.toList ++ items (itemOf host names line).2 lines

variable {host}

/-- the records that are kept. -/
def keptBy : List Bool → List Line → List Line
  | true :: flags, line :: lines => line :: keptBy flags lines
  | false :: flags, _ :: lines => keptBy flags lines
  | _, _ => []

theorem pick_append (role : Role) (parts : List (Role × CodexAgentMessage)) (other : Role)
    (p : CodexAgentMessage) :
    pick role (parts ++ [(other, p)]) = if other = role then pick role parts ++ [p]
      else pick role parts := by
  unfold pick
  rw [List.filter_append, List.map_append]
  by_cases h : other = role
  · have hkeep : [(other, p)].filter (·.1 = role) = [(other, p)] :=
      List.filter_cons_of_pos (decide_eq_true h)
    rw [if_pos h, hkeep]
    rfl
  · have hdrop : [(other, p)].filter (·.1 = role) = [] :=
      List.filter_cons_of_neg fun heq => h (of_decide_eq_true heq)
    rw [if_neg h, hdrop]
    exact List.append_nil _

/-! ## the importer is such a layout -/

/-- the error of a turn is no message. -/
theorem event_of_error {line : Line} (h : extractCodexTurnError host line ≠ none) :
    extractEventMessage host line = none := by
  unfold extractCodexTurnError at h
  dsimp only at h
  split at h
  · exact absurd rfl h
  rename_i hmsg
  split at h
  · exact absurd rfl h
  rename_i hcomplete
  push Not at hmsg hcomplete
  unfold extractEventMessage
  dsimp only
  have hno : ∀ s : String, s ≠ "task_complete" → (line.data.get "payload").get "type" ≠ str s := by
    intro s hs heq
    rw [hcomplete.1] at heq
    exact hs (Value.str.inj heq).symm
  rw [if_neg (not_not.mpr hmsg.2), if_pos hmsg.1]
  split
  · rfl
  rw [if_neg (hno _ (by decide)), if_neg (hno _ (by decide))]

/-- the importer holds the parts of the turn. -/
structure CodexMessageImporter.Holds (importer : CodexMessageImporter)
    (parts : List (Role × CodexAgentMessage)) : Prop where
  commentary : importer.commentary = pick .agentThinking parts
  tools : importer.tools = pick .agentTools parts
  finalAnswers : importer.finalAnswers = pick .agent parts

namespace CodexMessageImporter

variable {importer : CodexMessageImporter} {parts : List (Role × CodexAgentMessage)}

theorem Holds.nil (h : importer.commentary = [] ∧ importer.tools = [] ∧
    importer.finalAnswers = []) : importer.Holds [] := ⟨h.1, h.2.1, h.2.2⟩

/-- `flushAgentTurn` writes the messages of the turn. -/
theorem messages_flushAgentTurn (h : importer.Holds parts) :
    importer.flushAgentTurn.messages = importer.messages ++ turn parts := by
  unfold flushAgentTurn turn
  rw [← h.commentary, ← h.tools, ← h.finalAnswers]
  dsimp only
  split
  · rfl
  · rename_i hnone
    rw [not_not.mp hnone]
    exact congrArg _ (List.append_nil _).symm

/-- the importer after a part is noted. -/
theorem Holds.part {next : CodexMessageImporter} (h : importer.Holds parts) (role : Role)
    (p : CodexAgentMessage)
    (hcommentary : next.commentary = importer.commentary ++ if role = .agentThinking then [p] else [])
    (htools : next.tools = importer.tools ++ if role = .agentTools then [p] else [])
    (hanswers : next.finalAnswers = importer.finalAnswers ++ if role = .agent then [p] else []) :
    next.Holds (parts ++ [(role, p)]) := by
  have hpick : ∀ other, pick other (parts ++ [(role, p)]) =
      pick other parts ++ if role = other then [p] else [] := by
    intro other
    rw [pick_append]
    split
    · rfl
    · exact (List.append_nil _).symm
  exact ⟨by rw [hcommentary, hpick, h.commentary], by rw [htools, hpick, h.tools],
    by rw [hanswers, hpick, h.finalAnswers]⟩

/-- how an importer that holds parts goes on with a piece. -/
def Added (importer next : CodexMessageImporter) (parts : List (Role × CodexAgentMessage)) :
    Option Item → Prop
  | none => next.messages = importer.messages ∧ next.Holds parts
  | some (.part role p) => next.messages = importer.messages ∧ next.Holds (parts ++ [(role, p)])
  | some (.between message) =>
    next.messages = importer.messages ++ turn parts ++ [message] ∧ next.Holds []

theorem addEvent_spec (h : importer.Holds parts) (event : CodexMessageMirrorCandidate) :
    (importer.addEvent event).toolNamesByCallId = importer.toolNamesByCallId ∧
      Added importer (importer.addEvent event) parts (match event.type with
        | .user_message => some (.between
            ⟨if isInjectedAgentContext event.content then .agentContext else .user,
              event.content, event.createdAt⟩)
        | .agent_message => some (.part
            (if event.phase = "final_answer" then .agent else .agentThinking)
            ⟨event.phase, event.content, event.createdAt⟩)) := by
  unfold addEvent
  cases event.type with
  | user_message =>
    refine ⟨rfl, ?_, Holds.nil ⟨rfl, rfl, rfl⟩⟩
    exact congrArg (· ++ _) (messages_flushAgentTurn h)
  | agent_message =>
    dsimp only
    by_cases hphase : event.phase = "final_answer"
    · rw [if_pos hphase, if_pos hphase]
      exact ⟨rfl, rfl, h.part _ _ (List.append_nil _).symm (List.append_nil _).symm rfl⟩
    · rw [if_neg hphase, if_neg hphase]
      exact ⟨rfl, rfl, h.part _ _ rfl (List.append_nil _).symm (List.append_nil _).symm⟩

/-- **One record**: what is kept adds its piece, and the rest adds nothing. -/
theorem addRecord_spec (h : importer.Holds parts) (line : Line) :
    (importer.keeps host line = true →
      (importer.addRecord host line).toolNamesByCallId =
          (itemOf host importer.toolNamesByCallId line).2 ∧
        Added importer (importer.addRecord host line) parts
          (itemOf host importer.toolNamesByCallId line).1) ∧
    (importer.keeps host line = false →
      (importer.addRecord host line).toolNamesByCallId = importer.toolNamesByCallId ∧
        Added importer (importer.addRecord host line) parts none) := by
  unfold addRecord itemOf keeps
  cases herror : extractCodexTurnError host line with
  | some error =>
    rw [event_of_error (by rw [herror]; exact Option.some_ne_none _), Option.all_none]
    refine ⟨fun _ => ⟨rfl, ?_, Holds.nil ⟨rfl, rfl, rfl⟩⟩, fun hno => absurd hno (by decide)⟩
    exact congrArg (· ++ _) (messages_flushAgentTurn h)
  | none =>
    cases hevent : extractEventMessage host line with
    | none =>
      rw [Option.all_none]
      refine ⟨fun _ => ?_, fun hno => absurd hno (by decide)⟩
      dsimp only
      cases hnote : extractToolWorkingNote host importer.toolNamesByCallId line with
      | mk note names =>
        match note with
        | none => exact ⟨rfl, rfl, h.commentary, h.tools, h.finalAnswers⟩
        | some (.thinking, content) =>
          exact ⟨rfl, rfl, h.part .agentThinking _ rfl (List.append_nil _).symm
            (List.append_nil _).symm⟩
        | some (.tools, content) =>
          exact ⟨rfl, rfl, h.part .agentTools _ (List.append_nil _).symm rfl
            (List.append_nil _).symm⟩
    | some event =>
      rw [Option.all_some]
      dsimp only
      cases hmirrored : importer.mirrorDeduper.isMirrored event with
      | mk mirrored recent =>
        have hholds : CodexMessageImporter.Holds { importer with mirrorDeduper := recent } parts :=
          ⟨h.commentary, h.tools, h.finalAnswers⟩
        cases mirrored with
        | false =>
          exact ⟨fun _ => addEvent_spec hholds event,
            fun hno : true = false => absurd hno (by decide)⟩
        | true =>
          exact ⟨fun hno : false = true => absurd hno (by decide), fun _ => ⟨rfl, rfl, hholds⟩⟩

/-- **The importer lays out the pieces of the records that it keeps.** -/
theorem finish_foldl (lines : List Line) (h : importer.Holds parts) :
    (lines.foldl (addRecord host) importer).finish = importer.messages ++ layout parts
      (items host importer.toolNamesByCallId (keptBy (importerKeeps host importer lines) lines)) := by
  induction lines generalizing importer parts with
  | nil => exact messages_flushAgentTurn h
  | cons line lines ih =>
    obtain ⟨hkept, hdropped⟩ : (importer.keeps host line = true → _) ∧
        (importer.keeps host line = false → _) := addRecord_spec h line
    rw [List.foldl_cons, importerKeeps]
    cases hkeeps : importer.keeps host line with
    | false =>
      obtain ⟨hnames, hmessages, hholds⟩ := hdropped hkeeps
      rw [ih hholds, hnames, hmessages, keptBy]
    | true =>
      obtain ⟨hnames, hadded⟩ := hkept hkeeps
      rw [keptBy, items, ← hnames]
      cases hitem : (itemOf host importer.toolNamesByCallId line).1 with
      | none =>
        rw [hitem] at hadded
        rw [ih hadded.2, hadded.1]
        rfl
      | some item =>
        rw [hitem] at hadded
        cases item with
        | part role p =>
          rw [ih hadded.2, hadded.1]
          rfl
        | between message =>
          rw [ih hadded.2, hadded.1, List.append_assoc, List.append_assoc]
          rfl

end CodexMessageImporter

/-- **An import** is the layout of the pieces of the records that are kept. -/
theorem import_layout (lines : List Line) :
    importMessages host lines =
      layout [] (items host [] (keptBy (importerKeeps host {} lines) lines)) :=
  CodexMessageImporter.finish_foldl lines (.nil ⟨rfl, rfl, rfl⟩)

/-! ## copies -/

/-- A copy of a message: the number of the message, and the event. -/
abbrev Copy := ℕ × CodexMessageMirrorCandidate

/-- the copies among records that have numbers. -/
def copies (host : Host) (numbered : List (ℕ × Line)) : List Copy :=
  numbered.filterMap fun x => (extractEventMessage host x.2).map (x.1, ·)

def numbers (list : List Copy) : List ℕ := list.map (·.1)

/-- the first copies of the messages that are not in `seen`. -/
def fresh : List ℕ → List Copy → List Copy
  | _, [] => []
  | seen, a :: list =>
    if a.1 ∈ seen then fresh (seen ++ [a.1]) list else a :: fresh (seen ++ [a.1]) list

/-- the times of two events are known, and close. -/
def Near (a b : CodexMessageMirrorCandidate) : Prop :=
  ∃ s t, a.timestampMs = some s ∧ b.timestampMs = some t ∧ (s - t).natAbs ≤ 500

/-- Each message is written at most once in each source, with copies that are close in time, and
copies of messages with the same text are not, as when those are more than 1000 ms apart. -/
structure Paired (list : List Copy) : Prop where
  stamped : ∀ a ∈ list, a.2.timestampMs ≠ none
  agree : list.Pairwise fun a b =>
    a.1 = b.1 → a.2.source ≠ b.2.source ∧ a.2.key = b.2.key ∧ Near a.2 b.2
  apart : ∀ a ∈ fresh [] list, ∀ b ∈ list, a.1 ≠ b.1 → a.2.source ≠ b.2.source →
    a.2.key = b.2.key → ¬Near a.2 b.2

theorem fresh_append (seen : List ℕ) (p q : List Copy) :
    fresh seen (p ++ q) = fresh seen p ++ fresh (seen ++ numbers p) q := by
  induction p generalizing seen with
  | nil =>
    rw [numbers, List.map_nil, List.append_nil]
    rfl
  | cons a p ih =>
    rw [List.cons_append, fresh, fresh, ih, List.append_assoc]
    split
    · rfl
    · rfl

theorem mem_of_mem_fresh {seen : List ℕ} {list : List Copy} {a : Copy} (h : a ∈ fresh seen list) :
    a ∈ list ∧ a.1 ∉ seen := by
  induction list generalizing seen with
  | nil => exact absurd h List.not_mem_nil
  | cons b list ih =>
    rw [fresh] at h
    have hrest : a ∈ fresh (seen ++ [b.1]) list → a ∈ b :: list ∧ a.1 ∉ seen := fun h =>
      ⟨List.mem_cons_of_mem _ (ih h).1, fun hseen => (ih h).2 (List.mem_append_left _ hseen)⟩
    split at h
    · exact hrest h
    · rename_i hb
      rcases List.mem_cons.mp h with rfl | h
      · exact ⟨List.mem_cons_self, hb⟩
      · exact hrest h

theorem nodup_fresh (seen : List ℕ) (list : List Copy) : (numbers (fresh seen list)).Nodup := by
  induction list generalizing seen with
  | nil => exact List.nodup_nil
  | cons a list ih =>
    rw [fresh]
    split
    · exact ih _
    · refine List.nodup_cons.mpr ⟨fun h => ?_, ih _⟩
      obtain ⟨b, hb, hab⟩ := List.mem_map.mp h
      refine (mem_of_mem_fresh hb).2 (List.mem_append_right _ ?_)
      rw [hab]
      exact List.mem_singleton_self _

/-- a message that occurs has a first copy. -/
theorem exists_first {list : List Copy} {m : ℕ} (h : m ∈ numbers list) :
    ∃ p a q, list = p ++ a :: q ∧ a.1 = m ∧ m ∉ numbers p := by
  induction list with
  | nil => exact absurd h List.not_mem_nil
  | cons b list ih =>
    by_cases hb : b.1 = m
    · exact ⟨[], b, list, rfl, hb, List.not_mem_nil⟩
    · have hm : m ∈ numbers list := (List.mem_cons.mp h).resolve_left (Ne.symm hb)
      obtain ⟨p, a, q, rfl, ha, hp⟩ := ih hm
      refine ⟨b :: p, a, q, rfl, ha, fun hmem => ?_⟩
      exact (List.mem_cons.mp hmem).elim (fun heq => hb heq.symm) hp

/-- what is first is fresh, after those before it and before those after it. -/
theorem fresh_first {p q : List Copy} {a : Copy} (h : a.1 ∉ numbers p) :
    fresh [] (p ++ a :: q) = fresh [] p ++ a :: fresh (numbers (p ++ [a])) q := by
  rw [fresh_append, List.nil_append, fresh, if_neg h, numbers, numbers, List.map_append]
  rfl

/-! ## mirrors are copies of one message -/

theorem mirrors_iff {a b : CodexMessageMirrorCandidate} :
    mirrors a b = true ↔ a.source ≠ b.source ∧ a.key = b.key ∧ Near a b := by
  have htimes : (a.timestampMs.any fun s => b.timestampMs.any fun t => near s t) = true ↔
      Near a b := by
    simp only [Option.any_eq_true, near, MIRROR_WINDOW_MS]
    constructor
    · rintro ⟨s, hs, t, ht, hclose⟩
      exact ⟨s, t, hs, ht, of_decide_eq_true hclose⟩
    · rintro ⟨s, t, hs, ht, hclose⟩
      exact ⟨s, hs, t, ht, decide_eq_true hclose⟩
  have hkey : a.key = b.key ↔ a.type = b.type ∧ a.phase = b.phase ∧ a.content = b.content := by
    unfold CodexMessageMirrorCandidate.key
    rw [Prod.mk.injEq, Prod.mk.injEq]
  unfold mirrors
  rw [Bool.and_eq_true, htimes, hkey, Bool.and_eq_true, Bool.and_eq_true, Bool.and_eq_true,
    decide_eq_true_eq, decide_eq_true_eq, decide_eq_true_eq, decide_eq_true_eq]
  tauto

/-- a first copy and a copy that comes after it mirror each other exactly if they are of one
message. -/
theorem Paired.mirrors_iff {p q : List Copy} {a b : Copy} (h : Paired (p ++ b :: q))
    (ha : a ∈ fresh [] p) : mirrors a.2 b.2 = true ↔ a.1 = b.1 := by
  have hmem : a ∈ p := (mem_of_mem_fresh ha).1
  rw [CodexTranscript.mirrors_iff]
  constructor
  · rintro ⟨hsource, hkey, hnear⟩
    by_contra hne
    have hfirst : a ∈ fresh [] (p ++ b :: q) := by
      rw [fresh_append]
      exact List.mem_append_left _ ha
    exact h.apart a hfirst b (List.mem_append_right _ List.mem_cons_self) hne hsource hkey hnear
  · intro heq
    exact (List.pairwise_append.mp h.agree).2.2 a hmem b List.mem_cons_self heq

/-- copies are paired if mirrors are exactly the copies of one message. -/
theorem Paired.of_mirrors {list : List Copy} (hstamped : ∀ a ∈ list, a.2.timestampMs ≠ none)
    (hagree : list.Pairwise fun a b => a.1 = b.1 → mirrors a.2 b.2 = true)
    (hapart : ∀ a ∈ fresh [] list, ∀ b ∈ list, mirrors a.2 b.2 = true → a.1 = b.1) :
    Paired list where
  stamped := hstamped
  agree := hagree.imp fun h heq => CodexTranscript.mirrors_iff.mp (h heq)
  apart := fun a ha b hb hne hsource hkey hnear =>
    hne (hapart a ha b hb (CodexTranscript.mirrors_iff.mpr ⟨hsource, hkey, hnear⟩))

/-! ## the messages that are remembered -/

/-- the messages that were kept last. -/
def lastKept (list : List Copy) : CodexMessageMirrorDeduper :=
  (list.drop (list.length - RECENT_MESSAGE_LIMIT)).map (·.2)

theorem lastKept_push (list : List Copy) (a : Copy) :
    (lastKept list).push a.2 = lastKept (list ++ [a]) := by
  have hnoted : lastKept list ++ [a.2] =
      ((list ++ [a]).drop (list.length - RECENT_MESSAGE_LIMIT)).map (·.2) := by
    rw [List.drop_append_of_le_length (Nat.sub_le _ _), List.map_append]
    rfl
  unfold CodexMessageMirrorDeduper.push
  rw [hnoted, List.length_map, List.length_drop, List.length_append, List.length_singleton]
  unfold lastKept RECENT_MESSAGE_LIMIT
  rw [List.length_append, List.length_singleton]
  split
  · rename_i hlong
    have hone : list.length + 1 - 8 = list.length - 8 + 1 := by omega
    rw [← List.map_tail, List.tail_drop, hone]
  · rename_i hshort
    have hall : list.length + 1 - 8 = list.length - 8 := by omega
    rw [hall]

theorem mem_lastKept {list : List Copy} {c : CodexMessageMirrorCandidate}
    (h : c ∈ lastKept list) : ∃ a ∈ list, a.2 = c := by
  obtain ⟨a, ha, rfl⟩ := List.mem_map.mp h
  exact ⟨a, List.mem_of_mem_drop ha, rfl⟩

/-- a message is among the last eight exactly if fewer than eight came after it. -/
theorem mem_drop_iff {x y : List Copy} {a : Copy} (h : (numbers (x ++ a :: y)).Nodup) :
    (∃ b ∈ (x ++ a :: y).drop ((x ++ a :: y).length - RECENT_MESSAGE_LIMIT), b.1 = a.1) ↔
      y.length < RECENT_MESSAGE_LIMIT := by
  have hlength : (x ++ a :: y).length = x.length + (y.length + 1) := List.length_append
  unfold RECENT_MESSAGE_LIMIT
  constructor
  · rintro ⟨b, hb, heq⟩
    by_contra hlong
    have hdrop : (x ++ a :: y).length - 8 = x.length + (1 + (y.length - 8)) := by omega
    rw [hdrop, List.drop_append, Nat.add_sub_cancel_left, List.drop_eq_nil_of_le (by omega),
      List.nil_append, Nat.add_comm 1, List.drop_succ_cons] at hb
    rw [numbers, List.map_append, List.map_cons, List.nodup_append] at h
    refine (List.nodup_cons.mp h.2.1).1 ?_
    rw [← heq]
    exact List.mem_map_of_mem (List.mem_of_mem_drop hb)
  · intro hshort
    refine ⟨a, ?_, rfl⟩
    rw [List.drop_append_of_le_length (by omega)]
    exact List.mem_append_right _ List.mem_cons_self

/-- Fewer than eight other messages have their first copy after the first copy of a message. -/
def Recalled (list : List Copy) (m : ℕ) : Prop :=
  ∀ p a q, list = p ++ a :: q → a.1 = m → m ∉ numbers p →
    (fresh (numbers (p ++ [a])) q).length < RECENT_MESSAGE_LIMIT

/-- a message that is new is no mirror. -/
theorem isMirrored_new {p q : List Copy} {b : Copy} (h : Paired (p ++ b :: q))
    (hnew : b.1 ∉ numbers p) :
    (lastKept (fresh [] p)).isMirrored b.2 = (false, lastKept (fresh [] (p ++ [b]))) := by
  have hstamp := h.stamped b (List.mem_append_right _ List.mem_cons_self)
  have hnone : (lastKept (fresh [] p)).any (mirrors · b.2) = false := by
    refine List.any_eq_false.mpr fun c hc hmirror => ?_
    obtain ⟨a, ha, rfl⟩ := mem_lastKept hc
    have hab := (h.mirrors_iff ha).mp hmirror
    refine hnew ?_
    rw [← hab]
    exact List.mem_map_of_mem (mem_of_mem_fresh ha).1
  rw [CodexMessageMirrorDeduper.isMirrored, if_neg hstamp, hnone, if_neg Bool.false_ne_true,
    lastKept_push, fresh_first hnew]
  rfl

/-- a second copy is a mirror exactly if the first is remembered. -/
theorem isMirrored_again {p q : List Copy} {b : Copy} (h : Paired (p ++ b :: q))
    (hagain : b.1 ∈ numbers p) :
    ((lastKept (fresh [] p)).isMirrored b.2).1 = true ↔ Recalled p b.1 := by
  have hstamp := h.stamped b (List.mem_append_right _ List.mem_cons_self)
  have hfound : ((lastKept (fresh [] p)).isMirrored b.2).1 = true ↔
      ∃ a ∈ (fresh [] p).drop ((fresh [] p).length - RECENT_MESSAGE_LIMIT), a.1 = b.1 := by
    rw [CodexMessageMirrorDeduper.isMirrored, if_neg hstamp]
    have hany : (lastKept (fresh [] p)).any (mirrors · b.2) = true ↔
        ∃ a ∈ (fresh [] p).drop ((fresh [] p).length - RECENT_MESSAGE_LIMIT), a.1 = b.1 := by
      rw [List.any_eq_true]
      constructor
      · rintro ⟨c, hc, hmirror⟩
        obtain ⟨a, ha, rfl⟩ := List.mem_map.mp hc
        exact ⟨a, ha, (h.mirrors_iff (List.mem_of_mem_drop ha)).mp hmirror⟩
      · rintro ⟨a, ha, hab⟩
        exact ⟨a.2, List.mem_map_of_mem ha, (h.mirrors_iff (List.mem_of_mem_drop ha)).mpr hab⟩
    rw [← hany]
    split
    · rename_i hm
      exact ⟨fun _ => hm, fun _ => rfl⟩
    · rename_i hm
      exact ⟨fun hno : false = true => absurd hno (by decide), fun hm' => absurd hm' hm⟩
  rw [hfound]
  constructor
  · intro hmem x a y heq ha hx
    rw [← ha] at hx hmem
    rw [heq, fresh_first hx] at hmem
    refine (mem_drop_iff ?_).mp hmem
    rw [← fresh_first hx]
    exact nodup_fresh [] _
  · intro hrecalled
    obtain ⟨x, a, y, heq, ha, hx⟩ := exists_first hagain
    have hshort := hrecalled x a y heq ha hx
    rw [← ha] at hx ⊢
    rw [heq, fresh_first hx]
    refine (mem_drop_iff ?_).mpr hshort
    rw [← fresh_first hx]
    exact nodup_fresh [] _

/-- a second copy adds nothing that is fresh. -/
theorem fresh_again {p : List Copy} {b : Copy} (h : b.1 ∈ numbers p) :
    fresh [] (p ++ [b]) = fresh [] p := by
  rw [fresh_append, List.nil_append, fresh, if_pos h, fresh, List.append_nil]

/-! ## the importer over a transcript -/

/-- every copy comes before eight other messages have followed its first. -/
def AllRecalled (p list : List Copy) : Prop :=
  ∀ q b r, list = q ++ b :: r → Recalled (p ++ q) b.1

theorem allRecalled_cons {p list : List Copy} {b : Copy} :
    AllRecalled p (b :: list) ↔ Recalled p b.1 ∧ AllRecalled (p ++ [b]) list := by
  constructor
  · intro h
    refine ⟨?_, fun q c r heq => ?_⟩
    · have hfirst := h [] b list rfl
      rwa [List.append_nil] at hfirst
    · rw [List.append_assoc]
      exact h (b :: q) c r (by rw [heq]; rfl)
  · rintro ⟨hb, hrest⟩ q c r heq
    cases q with
    | nil =>
      obtain ⟨rfl, -⟩ := List.cons.inj heq
      rwa [List.append_nil]
    | cons d q =>
      obtain ⟨rfl, htail⟩ := List.cons.inj heq
      have hlater := hrest q c r htail
      rwa [List.append_assoc] at hlater

variable (host) in
/-- for each record, whether it is no second copy. -/
def firstCopies : List ℕ → List (ℕ × Line) → List Bool
  | _, [] => []
  | seen, x :: numbered =>
    match extractEventMessage host x.2 with
    | none => true :: firstCopies seen numbered
    | some _ => decide (x.1 ∉ seen) :: firstCopies (seen ++ [x.1]) numbered

theorem copies_of_none {x : ℕ × Line} {numbered : List (ℕ × Line)}
    (h : extractEventMessage host x.2 = none) :
    copies host (x :: numbered) = copies host numbered := by
  rw [copies, List.filterMap_cons_none (by rw [h]; rfl)]
  rfl

theorem copies_of_some {x : ℕ × Line} {numbered : List (ℕ × Line)}
    {event : CodexMessageMirrorCandidate} (h : extractEventMessage host x.2 = some event) :
    copies host (x :: numbered) = (x.1, event) :: copies host numbered := by
  rw [copies, List.filterMap_cons_some (by rw [h]; rfl)]
  rfl

theorem numbers_append (p : List Copy) (b : Copy) : numbers (p ++ [b]) = numbers p ++ [b.1] := by
  rw [numbers, List.map_append]
  rfl

namespace CodexMessageImporter

variable {importer : CodexMessageImporter} {line : Line}

theorem mirrorDeduper_of_none (h : extractEventMessage host line = none) :
    (importer.addRecord host line).mirrorDeduper = importer.mirrorDeduper := by
  unfold addRecord
  cases extractCodexTurnError host line with
  | some error => rfl
  | none =>
    rw [h]
    dsimp only
    split
    · rfl
    · rfl
    · rfl

theorem mirrorDeduper_of_some {event : CodexMessageMirrorCandidate}
    (h : extractEventMessage host line = some event) :
    (importer.addRecord host line).mirrorDeduper = (importer.mirrorDeduper.isMirrored event).2 := by
  have herror : extractCodexTurnError host line = none := by
    by_contra hne
    rw [event_of_error hne] at h
    exact absurd h nofun
  unfold addRecord
  rw [herror, h]
  dsimp only
  split
  · rfl
  · unfold addEvent
    cases event.type with
    | user_message => rfl
    | agent_message =>
      dsimp only
      split
      · rfl
      · rfl

end CodexMessageImporter

/-- a mirror changes nothing that is remembered. -/
theorem isMirrored_true {recent : CodexMessageMirrorDeduper} {event : CodexMessageMirrorCandidate}
    (h : (recent.isMirrored event).1 = true) : (recent.isMirrored event).2 = recent := by
  unfold CodexMessageMirrorDeduper.isMirrored at h ⊢
  split
  · rfl
  · rename_i hstamp
    rw [if_neg hstamp] at h
    split
    · rfl
    · rename_i hnone
      rw [if_neg hnone] at h
      exact absurd h Bool.false_ne_true

/-- **The importer keeps exactly the first copies** if every second copy comes in time, and only
then. -/
theorem importer_keeps {numbered : List (ℕ × Line)} {p : List Copy} {importer : CodexMessageImporter}
    (hs : importer.mirrorDeduper = lastKept (fresh [] p)) (h : Paired (p ++ copies host numbered)) :
    importerKeeps host importer (numbered.map (·.2)) = firstCopies host (numbers p) numbered ↔
      AllRecalled p (copies host numbered) := by
  induction numbered generalizing importer p with
  | nil => exact ⟨fun _ q b r heq => absurd heq (by cases q <;> exact nofun), fun _ => rfl⟩
  | cons x numbered ih =>
    rw [List.map_cons, importerKeeps, firstCopies]
    cases hevent : extractEventMessage host x.2 with
    | none =>
      rw [copies_of_none hevent] at h ⊢
      have hkeeps : importer.keeps host x.2 = true := by
        rw [CodexMessageImporter.keeps, hevent, Option.all_none]
      rw [hkeeps, List.cons.injEq, eq_self_iff_true, true_and]
      exact ih (by rw [CodexMessageImporter.mirrorDeduper_of_none hevent, hs]) h
    | some event =>
      rw [copies_of_some hevent] at h ⊢
      have hkeeps : importer.keeps host x.2 = !((lastKept (fresh [] p)).isMirrored event).1 := by
        rw [CodexMessageImporter.keeps, hevent, Option.all_some, hs]
      have hnext : (importer.addRecord host x.2).mirrorDeduper = _ :=
        CodexMessageImporter.mirrorDeduper_of_some hevent
      have hpaired : Paired (p ++ [(x.1, event)] ++ copies host numbered) := by
        rwa [List.append_assoc]
      rw [hs] at hnext
      rw [hkeeps, List.cons.injEq, allRecalled_cons, ← numbers_append p (x.1, event)]
      dsimp only
      by_cases hseen : x.1 ∈ numbers p
      · have hagain := isMirrored_again h hseen
        by_cases hmirrored : ((lastKept (fresh [] p)).isMirrored event).1 = true
        · rw [isMirrored_true hmirrored, ← fresh_again (b := (x.1, event)) hseen] at hnext
          rw [ih hnext hpaired, hmirrored]
          have hflag : (!true) = decide (x.1 ∉ numbers p) :=
            (decide_eq_false (not_not.mpr hseen)).symm
          exact ⟨fun hall => ⟨hagain.mp hmirrored, hall.2⟩, fun hall => ⟨hflag, hall.2⟩⟩
        · have hrecalled : ¬Recalled p x.1 := fun hr => hmirrored (hagain.mpr hr)
          refine ⟨fun hall => absurd hall.1 ?_, fun hall => absurd hall.1 hrecalled⟩
          rw [Bool.not_eq_true _ |>.mp hmirrored, decide_eq_false (not_not.mpr hseen)]
          decide
      · rw [isMirrored_new h hseen] at hnext ⊢
        rw [ih hnext hpaired, decide_eq_true hseen]
        have hrecalled : Recalled p x.1 := by
          intro q a r heq ha _
          refine absurd ?_ hseen
          rw [heq, ← ha]
          exact List.mem_map_of_mem (List.mem_append_right _ List.mem_cons_self)
        exact ⟨fun hall => ⟨hrecalled, hall.2⟩, fun hall => ⟨rfl, hall.2⟩⟩

/-! ## the scan of the activity -/

/-- the mirrors that are noted are the first copies, each in its bucket. -/
def Notes (noted : ActivityMirrors) (list : List Copy) : Prop :=
  ∀ source bucket key t, t ∈ noted source bucket key ↔
    ∃ a ∈ list, a.2.source = source ∧ a.2.key = key ∧ a.2.timestampMs = some t ∧ bucketOf t = bucket

theorem other_eq_iff {s t : CodexMessageRecordSource} : s = t.other ↔ s ≠ t := by
  cases s with
  | event_msg => cases t with
    | event_msg => decide
    | response_item => decide
  | response_item => cases t with
    | event_msg => decide
    | response_item => decide

/-- close times are in buckets next to each other. -/
theorem bucket_of_near {s t : ℤ} (h : (s - t).natAbs ≤ 500) :
    bucketOf s ∈ [bucketOf t - 1, bucketOf t, bucketOf t + 1] := by
  unfold bucketOf
  have hs : s / 500 = t / 500 - 1 ∨ s / 500 = t / 500 ∨ s / 500 = t / 500 + 1 := by omega
  rcases hs with hs | hs | hs
  · rw [hs]
    exact List.mem_cons_self
  · rw [hs]
    exact List.mem_cons_of_mem _ List.mem_cons_self
  · rw [hs]
    exact List.mem_cons_of_mem _ (List.mem_cons_of_mem _ List.mem_cons_self)

/-- the buckets find a mirror that was noted. -/
theorem Notes.any_iff {noted : ActivityMirrors} {list : List Copy} (h : Notes noted list)
    {event : CodexMessageMirrorCandidate} {t : ℤ} (ht : event.timestampMs = some t) :
    ([bucketOf t - 1, bucketOf t, bucketOf t + 1].any fun candidate =>
        (noted event.source.other candidate event.key).any (near · t)) = true ↔
      ∃ a ∈ list, mirrors a.2 event = true := by
  rw [List.any_eq_true]
  constructor
  · rintro ⟨bucket, -, hbucket⟩
    obtain ⟨s, hs, hnear⟩ := List.any_eq_true.mp hbucket
    obtain ⟨a, ha, hsource, hkey, hstamp, -⟩ := (h _ _ _ _).mp hs
    refine ⟨a, ha, CodexTranscript.mirrors_iff.mpr ⟨other_eq_iff.mp hsource, hkey, ?_⟩⟩
    exact ⟨s, t, hstamp, ht, of_decide_eq_true hnear⟩
  · rintro ⟨a, ha, hmirror⟩
    obtain ⟨hsource, hkey, s, t', hs, ht', hnear⟩ := CodexTranscript.mirrors_iff.mp hmirror
    obtain rfl : t = t' := Option.some.inj (ht.symm.trans ht')
    refine ⟨bucketOf s, bucket_of_near hnear, List.any_eq_true.mpr ⟨s, ?_, decide_eq_true hnear⟩⟩
    exact (h _ _ _ _).mpr ⟨a, ha, other_eq_iff.mpr hsource, hkey, hs, rfl⟩

/-- one more copy is noted. -/
theorem Notes.add {noted : ActivityMirrors} {list : List Copy} (h : Notes noted list) {b : Copy}
    {t : ℤ} (ht : b.2.timestampMs = some t) :
    Notes (fun source candidate key =>
      if source = b.2.source ∧ candidate = bucketOf t ∧ key = b.2.key then
        t :: noted source candidate key
      else noted source candidate key) (list ++ [b]) := by
  intro source bucket key s
  have hold := h source bucket key s
  have hnew : (∃ a ∈ list ++ [b], a.2.source = source ∧ a.2.key = key ∧
      a.2.timestampMs = some s ∧ bucketOf s = bucket) ↔ s ∈ noted source bucket key ∨
        (b.2.source = source ∧ b.2.key = key ∧ t = s ∧ bucketOf s = bucket) := by
    rw [hold]
    constructor
    · rintro ⟨a, ha, hsource, hkey, hstamp, hbucket⟩
      rcases List.mem_append.mp ha with ha | ha
      · exact .inl ⟨a, ha, hsource, hkey, hstamp, hbucket⟩
      · obtain rfl := List.mem_singleton.mp ha
        exact .inr ⟨hsource, hkey, Option.some.inj (ht.symm.trans hstamp), hbucket⟩
    · rintro (⟨a, ha, hrest⟩ | ⟨hsource, hkey, rfl, hbucket⟩)
      · exact ⟨a, List.mem_append_left _ ha, hrest⟩
      · exact ⟨b, List.mem_append_right _ (List.mem_singleton_self _), hsource, hkey, ht, hbucket⟩
  rw [hnew]
  dsimp only
  split
  · rename_i hcell
    rw [List.mem_cons]
    constructor
    · rintro (rfl | hmem)
      · exact .inr ⟨hcell.1.symm, hcell.2.2.symm, rfl, hcell.2.1.symm⟩
      · exact .inl hmem
    · rintro (hmem | ⟨-, -, rfl, -⟩)
      · exact .inr hmem
      · exact .inl rfl
  · rename_i hcell
    constructor
    · exact .inl
    · rintro (hmem | ⟨hsource, hkey, rfl, hbucket⟩)
      · exact hmem
      · exact absurd ⟨hsource.symm, hbucket.symm, hkey.symm⟩ hcell

/-- the scan finds a mirror of the second copies, and of nothing else. -/
theorem Notes.isMirrored {noted : ActivityMirrors} {p q : List Copy} {b : Copy}
    (hn : Notes noted (fresh [] p)) (h : Paired (p ++ b :: q)) :
    (noted.isMirrored b.2).1 = decide (b.1 ∈ numbers p) ∧
      Notes (noted.isMirrored b.2).2 (fresh [] (p ++ [b])) := by
  have hstamp := h.stamped b (List.mem_append_right _ List.mem_cons_self)
  obtain ⟨t, ht⟩ := Option.ne_none_iff_exists'.mp hstamp
  have hseen : (∃ a ∈ fresh [] p, mirrors a.2 b.2 = true) ↔ b.1 ∈ numbers p := by
    constructor
    · rintro ⟨a, ha, hmirror⟩
      rw [← (h.mirrors_iff ha).mp hmirror]
      exact List.mem_map_of_mem (mem_of_mem_fresh ha).1
    · intro hmem
      obtain ⟨x, a, y, heq, ha, hx⟩ := exists_first hmem
      have hfirst : a ∈ fresh [] p := by
        rw [heq, fresh_first (by rwa [ha])]
        exact List.mem_append_right _ List.mem_cons_self
      exact ⟨a, hfirst, (h.mirrors_iff hfirst).mpr ha⟩
  have hany := (hn.any_iff ht).trans hseen
  unfold ActivityMirrors.isMirrored
  rw [ht]
  dsimp only
  by_cases hmem : b.1 ∈ numbers p
  · rw [if_pos (hany.mpr hmem), fresh_again hmem]
    exact ⟨(decide_eq_true hmem).symm, hn⟩
  · rw [if_neg (fun hm => hmem (hany.mp hm))]
    refine ⟨(decide_eq_false hmem).symm, ?_⟩
    rw [fresh_first hmem]
    exact hn.add ht

namespace ActivityScan

variable {scan : ActivityScan} {line : Line}

theorem activityMirrors_note (event : Option CodexMessageMirrorCandidate) :
    (scan.note host line event).activityMirrors = scan.activityMirrors := by
  have hidle : (if (extractCodexTurnError host line).isSome then
      { scan with latestActivity := none } else scan).activityMirrors = scan.activityMirrors := by
    split
    · rfl
    · rfl
  unfold note
  cases event with
  | none => exact hidle
  | some event =>
    dsimp only
    split
    · rfl
    · split
      · rfl
      · exact hidle

theorem activityMirrors_of_none (h : extractEventMessage host line = none) :
    (scan.addRecord host line).activityMirrors = scan.activityMirrors := by
  unfold addRecord
  rw [h]
  exact activityMirrors_note none

theorem activityMirrors_of_some {event : CodexMessageMirrorCandidate}
    (h : extractEventMessage host line = some event) :
    (scan.addRecord host line).activityMirrors = (scan.activityMirrors.isMirrored event).2 := by
  unfold addRecord
  rw [h]
  dsimp only
  split
  · rfl
  · exact activityMirrors_note (some event)

end ActivityScan

/-- **The scan of the activity keeps exactly the first copies.** -/
theorem activity_keeps {numbered : List (ℕ × Line)} {p : List Copy} {scan : ActivityScan}
    (hs : Notes scan.activityMirrors (fresh [] p)) (h : Paired (p ++ copies host numbered)) :
    activityKeeps host scan (numbered.map (·.2)) = firstCopies host (numbers p) numbered := by
  induction numbered generalizing scan p with
  | nil => rfl
  | cons x numbered ih =>
    rw [List.map_cons, activityKeeps, firstCopies]
    cases hevent : extractEventMessage host x.2 with
    | none =>
      rw [copies_of_none hevent] at h
      have hkeeps : scan.keeps host x.2 = true := by
        rw [ActivityScan.keeps, hevent, Option.all_none]
      rw [hkeeps, ih (by rw [ActivityScan.activityMirrors_of_none hevent]; exact hs) h]
    | some event =>
      rw [copies_of_some hevent] at h
      obtain ⟨hmirrored, hnotes⟩ := hs.isMirrored h
      have hkeeps : scan.keeps host x.2 = decide (x.1 ∉ numbers p) := by
        rw [ActivityScan.keeps, hevent, Option.all_some, hmirrored, ← decide_not]
      rw [← ActivityScan.activityMirrors_of_some hevent] at hnotes
      rw [hkeeps, ih hnotes (by rwa [List.append_assoc]), numbers_append]

/-! ## the result -/

/-- **Each message once.**  Of a transcript whose messages are written at most once in each source,
the importer lays out the first copy of each, and keeps what the scan of the activity keeps, exactly
if each second copy comes before eight other messages have followed the first. -/
theorem import_iff {numbered : List (ℕ × Line)} (h : Paired (copies host numbered)) :
    (importMessages host (numbered.map (·.2)) = layout [] (items host []
        (keptBy (firstCopies host [] numbered) (numbered.map (·.2)))) ∧
      importerKeeps host {} (numbered.map (·.2)) = activityKeeps host {} (numbered.map (·.2))) ↔
    AllRecalled [] (copies host numbered) := by
  have hnotes : Notes ({} : ActivityScan).activityMirrors (fresh [] []) := fun _ _ _ _ =>
    ⟨fun hno => absurd hno List.not_mem_nil, fun ⟨_, hno, _⟩ => absurd hno List.not_mem_nil⟩
  have hactivity := activity_keeps (p := []) hnotes h
  have hstart : ({} : CodexMessageImporter).mirrorDeduper = lastKept (fresh [] []) := rfl
  have himporter := importer_keeps (p := []) hstart h
  rw [hactivity]
  constructor
  · rintro ⟨-, hkeeps⟩
    exact himporter.mp hkeeps
  · intro hall
    have hkeeps := himporter.mpr hall
    refine ⟨?_, hkeeps⟩
    rw [import_layout, hkeeps]
    rfl

/-! ## a burst of messages -/

/-- a platform on which one moment is known. -/
def moment : Host where
  parseDate s := if s = "2026-01-01T00:00:00.000Z" then some 1767225600000 else none
  toISOString _ := "2026-01-01T00:00:00.000Z"
  summarizeToolInput _ _ := ""
  summarizeToolOutput _ := ""
  summarizeWebSearchAction _ := ""
  summarizeReasoning _ := ""
  summarizeChangedFiles _ := ""

def lineOf (type : String) (payload : List (String × Value)) : Line :=
  ⟨obj [("timestamp", str "2026-01-01T00:00:00.000Z"), ("type", str type),
    ("payload", obj payload)], ""⟩

/-- a message of the user, as an event. -/
def asEvent (message : String) : Line :=
  lineOf "event_msg" [("type", str "user_message"), ("message", str message)]

/-- a message of the user, as an item of the response. -/
def asItem (message : String) : Line :=
  lineOf "response_item" [("type", str "message"), ("role", str "user"),
    ("content", arr [obj [("text", str message)]])]

/-- messages that are all written as events before they are written as items. -/
def burst (messages : List String) : List (ℕ × Line) :=
  messages.zipIdx.map (fun x => (x.2, asEvent x.1)) ++
    messages.zipIdx.map (fun x => (x.2, asItem x.1))

/-- two messages are imported once each. -/
theorem import_iff_two :
    (importMessages moment ((burst ["a", "b"]).map (·.2)) = layout [] (items moment []
        (keptBy (firstCopies moment [] (burst ["a", "b"])) ((burst ["a", "b"]).map (·.2)))) ∧
      importerKeeps moment {} ((burst ["a", "b"]).map (·.2)) =
        activityKeeps moment {} ((burst ["a", "b"]).map (·.2))) ↔
    AllRecalled [] (copies moment (burst ["a", "b"])) :=
  import_iff (.of_mirrors (by decide +kernel) (by decide +kernel) (by decide +kernel))

def nine : List String := ["a", "b", "c", "d", "e", "f", "g", "h", "i"]

/-- **Nine messages that are imported twice.**  Each is written once in each source, at one time,
and when the second copies come the first ones are forgotten one by one. -/
theorem burst_is_imported_twice :
    Paired (copies moment (burst nine)) ∧
      (importMessages moment ((burst nine).map (·.2))).map (·.content) = nine ++ nine ∧
      importerKeeps moment {} ((burst nine).map (·.2)) ≠
        activityKeeps moment {} ((burst nine).map (·.2)) := by
  refine ⟨.of_mirrors ?_ ?_ ?_, ?_, ?_⟩
  all_goals decide +kernel

end CodexTranscript
end WmAutopilot
