import Mathlib.Algebra.Order.Ring.Unbundled.Rat
import Mathlib.Data.List.Chain
import WmAutopilot.Pipelines.AudioTranscript

/-!
# What a transcript keeps

* `Grouped`, `turnOf`     turns are the maximal runs of words that follow one another;
* `buildTurns_grouped`    the pass over the words builds them;
* `Spoken`                what holds of a turn and its words;
* `assignSpeaker_nearest` the speaker of a word, up to the tolerance of the comparison;
* `Corrects`              what a correction changes;
* `transcript_follows`    **transcripts and corrections**;
* `nested_word`           a word inside the one before it.
-/

set_option autoImplicit false

namespace WmAutopilot
namespace Pipelines
namespace AudioTranscript
open Js Value

/-! ## turns -/

/-- a word that continues the turn of the word before it. -/
def Follows (a b : SpokenWord × ℕ) : Prop := a.1.speaker = b.1.speaker ∧ b.1.start - a.1.end_ ≤ 5 / 4

/-- the turn of some words. -/
def turnOf : List (SpokenWord × ℕ) → TranscriptTurn
  | [] => ⟨"", 0, 0, "", []⟩
  | w :: ws => ws.foldl TranscriptTurn.extend (newTurn w)

/-- words in turns: the groups, each not empty and its words following one another. -/
structure Grouped (words : List (SpokenWord × ℕ)) (groups : List (List (SpokenWord × ℕ))) :
    Prop where
  flatten : groups.flatten = words
  ne_nil : ∀ g ∈ groups, g ≠ []
  chain : ∀ g ∈ groups, g.IsChain Follows

section
variable {words : List (SpokenWord × ℕ)} {groups : List (List (SpokenWord × ℕ))}
  {g : List (SpokenWord × ℕ)} {w : SpokenWord × ℕ}

theorem turnOf_append (hg : g ≠ []) : turnOf (g ++ [w]) = (turnOf g).extend w := by
  obtain ⟨v, g, rfl⟩ := List.exists_cons_of_ne_nil hg
  exact List.foldl_append

theorem turnOf_wordIndexes (g : List (SpokenWord × ℕ)) :
    (turnOf g).wordIndexes = g.map (·.2) := by
  induction g using List.reverseRecOn with
  | nil => rfl
  | append_singleton g w ih =>
    by_cases hg : g = []
    · rw [hg]
      rfl
    · rw [turnOf_append hg, List.map_append, ← ih]
      rfl

/-- the turn ends with its last word. -/
theorem turnOf_end (g : List (SpokenWord × ℕ)) (w : SpokenWord × ℕ) :
    (turnOf (g ++ [w])).end_ = w.1.end_ := by
  by_cases hg : g = []
  · rw [hg]
    rfl
  · rw [turnOf_append hg]
    rfl

/-- the turn has the speaker of its words. -/
theorem turnOf_speaker (hchain : (g ++ [w]).IsChain Follows) :
    ∀ v ∈ g ++ [w], v.1.speaker = (turnOf (g ++ [w])).speaker := by
  induction g using List.reverseRecOn generalizing w with
  | nil =>
    intro v hv
    rw [List.nil_append, List.mem_singleton] at hv
    rw [hv]
    rfl
  | append_singleton g u ih =>
    have hu : (g ++ [u]).IsChain Follows := hchain.left_of_append
    have hturn : (turnOf (g ++ [u] ++ [w])).speaker = (turnOf (g ++ [u])).speaker := by
      rw [turnOf_append (by simp)]
      rfl
    have hlast : Follows u w := by
      have := List.isChain_append.mp hchain
      exact this.2.2 u (by simp) w (by simp)
    intro v hv
    rw [hturn]
    rcases List.mem_append.mp hv with hv | hv
    · exact ih hu v hv
    · rw [List.mem_singleton.mp hv, ← hlast.1]
      exact ih hu u (by simp)

/-- a word added to the turns. -/
theorem addWord_grouped (h : Grouped words groups) (w : SpokenWord × ℕ) :
    ∃ groups', Grouped (words ++ [w]) groups' ∧
      addWord (groups.map turnOf) w = groups'.map turnOf := by
  have hnew : Grouped (words ++ [w]) (groups ++ [[w]]) := by
    refine ⟨by simp [h.flatten], ?_, ?_⟩
    · intro g hg
      rcases List.mem_append.mp hg with hg | hg
      · exact h.ne_nil g hg
      · simp [List.mem_singleton.mp hg]
    · intro g hg
      rcases List.mem_append.mp hg with hg | hg
      · exact h.chain g hg
      · rw [List.mem_singleton.mp hg]
        exact .singleton _
  have hnewTurn : groups.map turnOf ++ [newTurn w] = (groups ++ [[w]]).map turnOf := by
    rw [List.map_append]
    rfl
  induction groups using List.reverseRecOn with
  | nil => exact ⟨_, hnew, hnewTurn⟩
  | append_singleton groups g _ =>
    have hlast : ((groups ++ [g]).map turnOf).getLast? = some (turnOf g) := by simp
    by_cases hfollows : (turnOf g).speaker = w.1.speaker ∧ w.1.start - (turnOf g).end_ ≤ 5 / 4
    · have hg : g ≠ [] := h.ne_nil g (by simp)
      obtain ⟨g, v, rfl⟩ : ∃ l v, g = l ++ [v] := ⟨_, _, (List.dropLast_append_getLast hg).symm⟩
      have hchain : (g ++ [v]).IsChain Follows := h.chain _ (by simp)
      have hv : Follows v w := by
        rw [turnOf_end] at hfollows
        exact ⟨(turnOf_speaker hchain v (by simp)).trans hfollows.1, hfollows.2⟩
      refine ⟨groups ++ [g ++ [v] ++ [w]], ⟨?_, ?_, ?_⟩, ?_⟩
      · rw [← h.flatten]
        simp
      · intro g' hg'
        rcases List.mem_append.mp hg' with hg' | hg'
        · exact h.ne_nil g' (List.mem_append_left _ hg')
        · simp [List.mem_singleton.mp hg']
      · intro g' hg'
        rcases List.mem_append.mp hg' with hg' | hg'
        · exact h.chain g' (List.mem_append_left _ hg')
        · rw [List.mem_singleton.mp hg', List.isChain_append]
          refine ⟨hchain, .singleton _, fun x hx y hy => ?_⟩
          have hxv : v = x := by simpa using hx
          have hyw : w = y := by simpa using hy
          exact hxv ▸ hyw ▸ hv
      · rw [addWord, hlast]
        simp only [if_pos hfollows]
        rw [List.map_append, List.map_append, List.map_singleton, List.map_singleton,
          List.dropLast_concat, turnOf_append hg]
    · refine ⟨_, hnew, ?_⟩
      rw [addWord, hlast]
      simp only [if_neg hfollows]
      exact hnewTurn

/-- **The pass over the words** builds the turns of groups of them. -/
theorem buildTurns_grouped (words : List SpokenWord) :
    ∃ groups, Grouped words.zipIdx groups ∧ buildTurns words = groups.map turnOf := by
  unfold buildTurns
  induction words.zipIdx using List.reverseRecOn with
  | nil => exact ⟨[], ⟨rfl, by simp, by simp⟩, rfl⟩
  | append_singleton ws w ih =>
    obtain ⟨groups, hgrouped, hturns⟩ := ih
    obtain ⟨groups', hgrouped', hturns'⟩ := addWord_grouped hgrouped w
    refine ⟨groups', hgrouped', ?_⟩
    rw [List.foldl_append, List.foldl_cons, List.foldl_nil, hturns, hturns']

end

/-- the words of a turn. -/
def wordsOf (words : List SpokenWord) (turn : TranscriptTurn) : List SpokenWord :=
  turn.wordIndexes.filterMap (words[·]?)

/-- **What holds of a turn**: it starts with its first word and ends with its last one, of one
speaker, and covers them all when neither their starts nor their ends go back. -/
structure Spoken (words : List SpokenWord) (turn : TranscriptTurn) : Prop where
  speaker : ∀ w ∈ wordsOf words turn, w.speaker = turn.speaker
  first : ∃ w ∈ (wordsOf words turn).head?, turn.start = w.start
  last : ∃ w ∈ (wordsOf words turn).getLast?, turn.end_ = w.end_
  covers : (wordsOf words turn).Pairwise (fun a b => a.start ≤ b.start ∧ a.end_ ≤ b.end_) →
    ∀ w ∈ wordsOf words turn, turn.start ≤ w.start ∧ w.end_ ≤ turn.end_

section
variable {words : List SpokenWord} {groups : List (List (SpokenWord × ℕ))}
  {g : List (SpokenWord × ℕ)}

theorem turnOf_start (w : SpokenWord × ℕ) (g : List (SpokenWord × ℕ)) :
    (turnOf (w :: g)).start = w.1.start := by
  induction g using List.reverseRecOn with
  | nil => rfl
  | append_singleton g v ih =>
    rw [← List.cons_append, turnOf_append (List.cons_ne_nil w g)]
    exact ih

theorem wordsOf_turnOf (hg : ∀ v ∈ g, words[v.2]? = some v.1) :
    wordsOf words (turnOf g) = g.map (·.1) := by
  unfold wordsOf
  rw [turnOf_wordIndexes, List.filterMap_map]
  induction g with
  | nil => rfl
  | cons v g ih =>
    have hv : ((words[·]?) ∘ fun x : SpokenWord × ℕ => x.2) v = some v.1 :=
      hg v List.mem_cons_self
    rw [List.filterMap_cons_some hv, ih fun u hu => hg u (List.mem_cons_of_mem _ hu),
      List.map_cons]

/-- the words of a group are those of the transcript. -/
theorem Grouped.getElem? (h : Grouped words.zipIdx groups) (hg : g ∈ groups) :
    ∀ v ∈ g, words[v.2]? = some v.1 := by
  intro v hv
  have hmem : v ∈ words.zipIdx := h.flatten ▸ List.mem_flatten.mpr ⟨g, hg, hv⟩
  exact List.mem_zipIdx_iff_getElem?.mp hmem

theorem Grouped.spoken (h : Grouped words.zipIdx groups) (hg : g ∈ groups) :
    Spoken words (turnOf g) := by
  have hwords : wordsOf words (turnOf g) = g.map (·.1) := wordsOf_turnOf (h.getElem? hg)
  have hchain := h.chain g hg
  have hne := h.ne_nil g hg
  obtain ⟨l, v, hlast⟩ : ∃ l v, g = l ++ [v] := ⟨_, _, (List.dropLast_append_getLast hne).symm⟩
  obtain ⟨u, r, hfirst⟩ : ∃ u r, g = u :: r := List.exists_cons_of_ne_nil hne
  have hstart : (turnOf g).start = u.1.start := hfirst ▸ turnOf_start u r
  have hend : (turnOf g).end_ = v.1.end_ := hlast ▸ turnOf_end l v
  refine ⟨?_, ?_, ?_, ?_⟩
  · intro w hw
    rw [hwords, List.mem_map] at hw
    obtain ⟨x, hx, rfl⟩ := hw
    rw [hlast] at hx hchain ⊢
    exact turnOf_speaker hchain x hx
  · refine ⟨u.1, ?_, hstart⟩
    rw [hwords, hfirst]
    rfl
  · refine ⟨v.1, ?_, hend⟩
    rw [hwords, hlast, List.map_append, List.map_singleton, List.getLast?_concat]
    exact rfl
  · intro hordered w hw
    rw [hwords] at hordered hw
    constructor
    · rw [hstart]
      rw [hfirst, List.map_cons] at hordered hw
      rcases List.mem_cons.mp hw with rfl | hw
      · exact le_rfl
      · exact ((List.pairwise_cons.mp hordered).1 w hw).1
    · rw [hend]
      rw [hlast, List.map_append, List.map_singleton] at hordered hw
      rcases List.mem_append.mp hw with hw | hw
      · exact ((List.pairwise_append.mp hordered).2.2 w hw v.1 (by simp)).2
      · rw [List.mem_singleton.mp hw]

/-- the indexes of the turns are those of the words, in order. -/
theorem Grouped.partition (h : Grouped words.zipIdx groups) :
    ((groups.map turnOf).flatMap (·.wordIndexes)) = List.range words.length := by
  have hindexes : (groups.map turnOf).flatMap (·.wordIndexes) = groups.flatten.map (·.2) := by
    rw [List.flatMap_map, List.map_flatten, List.flatMap_def]
    exact congrArg List.flatten (List.map_congr_left fun g _ => turnOf_wordIndexes g)
  rw [hindexes, h.flatten, List.zipIdx_map_snd, List.range_eq_range']

end

/-! ## speakers -/

section
variable {word : AudioWord} {segments : List DiarizationSegment}

/-- the state of the loop after some segments. -/
structure Best.Holds (word : AudioWord) (seen : List DiarizationSegment) (b : Best) : Prop where
  nonneg : 0 ≤ b.bestOverlap
  bound : ∀ s ∈ seen, overlap word s ≤ b.bestOverlap + tolerance
  none : b.best = none → b.bestOverlap = 0
  some : ∀ s, b.best = some s → s ∈ seen ∧ overlap word s = b.bestOverlap ∧
    tolerance < b.bestOverlap

theorem tolerance_pos : 0 < tolerance := by decide +kernel

theorem Best.Holds.step {seen : List DiarizationSegment} {b : Best} (h : b.Holds word seen)
    (segment : DiarizationSegment) : (b.step word segment).Holds word (seen ++ [segment]) := by
  by_cases hbetter : b.bestOverlap + tolerance < overlap word segment
  · rw [Best.step, if_pos hbetter]
    have hlt : b.bestOverlap ≤ overlap word segment :=
      le_of_lt (lt_of_le_of_lt (le_add_of_nonneg_right tolerance_pos.le) hbetter)
    refine ⟨h.nonneg.trans hlt, fun s hs => ?_, nofun, fun s hs => ?_⟩
    · rcases List.mem_append.mp hs with hs | hs
      · exact (h.bound s hs).trans (add_le_add_left hlt _)
      · rw [List.mem_singleton.mp hs]
        exact le_add_of_nonneg_right tolerance_pos.le
    · cases hs
      refine ⟨by simp, rfl, ?_⟩
      exact lt_of_le_of_lt (le_add_of_nonneg_left h.nonneg) hbetter
  · rw [Best.step, if_neg hbetter]
    refine ⟨h.nonneg, fun s hs => ?_, h.none, fun s hs => ?_⟩
    · rcases List.mem_append.mp hs with hs | hs
      · exact h.bound s hs
      · rw [List.mem_singleton.mp hs]
        exact not_lt.mp hbetter
    · obtain ⟨hmem, heq, hpos⟩ := h.some s hs
      exact ⟨List.mem_append_left _ hmem, heq, hpos⟩

theorem best_holds (word : AudioWord) (segments : List DiarizationSegment) :
    (segments.foldl (Best.step word) {}).Holds word segments := by
  induction segments using List.reverseRecOn with
  | nil => exact ⟨le_rfl, by simp, fun _ => rfl, nofun⟩
  | append_singleton segments s ih =>
    rw [List.foldl_append]
    exact ih.step s

/-- the nearest of the segments seen. -/
theorem nearest_holds (word : AudioWord) (segments : List DiarizationSegment) :
    match segments.foldl (nearestStep word) none with
    | none => segments = []
    | some (s, d) => s ∈ segments ∧ d = distance word s ∧ ∀ s' ∈ segments, d ≤ distance word s' := by
  induction segments using List.reverseRecOn with
  | nil => rfl
  | append_singleton segments s ih =>
    rw [List.foldl_append, List.foldl_cons, List.foldl_nil]
    cases hcur : segments.foldl (nearestStep word) none with
    | none =>
      rw [hcur] at ih
      rw [ih]
      simp [nearestStep]
    | some c =>
      obtain ⟨nearest, d⟩ := c
      rw [hcur] at ih
      obtain ⟨hmem, hd, hle⟩ := ih
      unfold nearestStep
      by_cases hcloser : distance word s < d
      · simp only [if_pos hcloser]
        refine ⟨List.mem_append_right _ (List.mem_singleton.mpr rfl), trivial, fun s' hs' => ?_⟩
        rcases List.mem_append.mp hs' with hs' | hs'
        · exact hcloser.le.trans (hle s' hs')
        · rw [List.mem_singleton.mp hs']
      · simp only [if_neg hcloser]
        refine ⟨List.mem_append_left _ hmem, hd, fun s' hs' => ?_⟩
        rcases List.mem_append.mp hs' with hs' | hs'
        · exact hle s' hs'
        · rw [List.mem_singleton.mp hs']
          exact not_lt.mp hcloser

/-- **The speaker of a word**: that of a segment whose overlap with the word is the greatest, up to
the tolerance; of a nearest segment, if no overlap exceeds the tolerance. -/
inductive NearestSpeaker (word : AudioWord) (segments : List DiarizationSegment) : String → Prop
  | none (h : segments = []) : NearestSpeaker word segments "Unknown Speaker"
  | overlap (s : DiarizationSegment) (hs : s ∈ segments) (hpos : tolerance < overlap word s)
      (hmax : ∀ s' ∈ segments, overlap word s' ≤ overlap word s + tolerance) :
      NearestSpeaker word segments s.speaker
  | gap (s : DiarizationSegment) (hs : s ∈ segments)
      (hnone : ∀ s' ∈ segments, overlap word s' ≤ tolerance)
      (hmin : ∀ s' ∈ segments, distance word s ≤ distance word s') :
      NearestSpeaker word segments s.speaker

theorem assignSpeaker_nearest (word : AudioWord) (segments : List DiarizationSegment) :
    NearestSpeaker word segments (assignSpeaker word segments).speaker := by
  have hbest := best_holds word segments
  have hnearest := nearest_holds word segments
  cases hb : (segments.foldl (Best.step word) {}).best with
  | some s =>
    obtain ⟨hs, heq, hpos⟩ := hbest.some s hb
    have hspeaker : (assignSpeaker word segments).speaker = s.speaker := by
      simp only [assignSpeaker, hb]
      rfl
    rw [hspeaker]
    exact .overlap s hs (heq ▸ hpos) fun s' hs' => heq ▸ hbest.bound s' hs'
  | none =>
    have hnone : ∀ s' ∈ segments, overlap word s' ≤ tolerance := by
      intro s' hs'
      have := hbest.bound s' hs'
      rwa [hbest.none hb, zero_add] at this
    cases hn : segments.foldl (nearestStep word) none with
    | none =>
      rw [hn] at hnearest
      have hspeaker : (assignSpeaker word segments).speaker = "Unknown Speaker" := by
        simp only [assignSpeaker, hb, hn]
        rfl
      rw [hspeaker]
      exact .none hnearest
    | some c =>
      obtain ⟨s, d⟩ := c
      rw [hn] at hnearest
      obtain ⟨hs, rfl, hmin⟩ := hnearest
      have hspeaker : (assignSpeaker word segments).speaker = s.speaker := by
        simp only [assignSpeaker, hb, hn]
        rfl
      rw [hspeaker]
      exact .gap s hs hnone hmin

end

/-! ## the transcript -/

section
variable {p : Platform} {input : Value} {t : Transcript}

theorem mergeTranscript_ok (h : mergeTranscript p input = .ok t) :
    ∃ segments words,
      normaliseSegments p ((input.get "diarization").get "segments") = .ok segments ∧
      normaliseWords p ((input.get "stt").get "words") = .ok words ∧
      t = transcriptOf p input segments words := by
  obtain ⟨segments, hsegments, h⟩ := bind_ok.mp h
  obtain ⟨words, hwords, h⟩ := bind_ok.mp h
  cases h
  exact ⟨segments, words, hsegments, hwords, rfl⟩

/-- a word that is accepted has a text. -/
theorem text_ne_empty {value : Value} {words : List AudioWord}
    (h : normaliseWords p value = .ok words) : ∀ w ∈ words, w.text ≠ "" := by
  intro w hw
  obtain ⟨entries, -, h⟩ := bind_ok.mp h
  obtain ⟨e, -, h⟩ := mem_of_mapM_ok h w hw
  obtain ⟨text, htext, h⟩ := bind_ok.mp h
  obtain ⟨start, -, h⟩ := bind_ok.mp h
  obtain ⟨end_, -, h⟩ := bind_ok.mp h
  obtain ⟨i, -, h⟩ := bind_ok.mp h
  cases h
  intro hempty
  obtain ⟨s, -, -, hne⟩ := getString_eq_some.mp (orThrow_ok.mp htext)
  exact hne hempty

theorem transcriptOf_text_ne_empty {segments : List DiarizationSegment} {words : List AudioWord}
    (h : ∀ w ∈ words, w.text ≠ "") :
    ∀ w ∈ (transcriptOf p input segments words).words, w.text ≠ "" := by
  intro w hw
  obtain ⟨w', hw', rfl⟩ := List.mem_map.mp hw
  exact h w' hw'

end

/-! ## corrections -/

section
variable {words : List SpokenWord} {groups : List (List (SpokenWord × ℕ))}
  {g : List (SpokenWord × ℕ)} {letters : Letters} {options : Value} {t : Transcript}

/-- with a space before every word but the first, the text of a turn is its words joined. -/
theorem turnOf_text (hspace : ∀ v ∈ g.tail, needsLeadingSpace v.1.text = true) :
    (turnOf g).text = " ".intercalate (g.map (·.1.text)) := by
  induction g using List.reverseRecOn with
  | nil => rfl
  | append_singleton g v ih =>
    cases g with
    | nil => rfl
    | cons u g =>
      have hv : needsLeadingSpace v.1.text = true := hspace v (by simp)
      have htext : (turnOf (u :: g)).text = " ".intercalate ((u :: g).map (·.1.text)) :=
        ih fun x hx => hspace x (List.mem_append_left _ hx)
      rw [turnOf_append (List.cons_ne_nil u g), List.map_append, List.map_singleton,
        String.intercalate_append_of_ne_nil (by simp) (by simp), String.intercalate_singleton, ← htext]
      simp [TranscriptTurn.extend, hv]

/-- **What a correction changes**: the words that are listed, and the texts of their turns. -/
structure Corrects (t : Transcript) (c : CorrectedTranscript) : Prop where
  listed : ∀ x ∈ c.corrections, ∃ w, t.words[x.wordIndex]? = some w ∧ w.text = x.oldText ∧
    x.newText ≠ w.text ∧ c.words[x.wordIndex]? = some { w with text := x.newText }
  once : (c.corrections.map (·.wordIndex)).Nodup
  others : ∀ i, i ∉ c.corrections.map (·.wordIndex) → c.words[i]? = t.words[i]?
  turns : c.turns.map (fun turn => { turn with text := "" }) =
    t.turns.map fun turn => { turn with text := "" }
  text : ∀ (i : ℕ) (turn turn' : TranscriptTurn), t.turns[i]? = some turn →
    c.turns[i]? = some turn' →
    (∀ x ∈ c.corrections, x.wordIndex ∉ turn.wordIndexes) →
    (∀ w ∈ (wordsOf t.words turn).tail, needsLeadingSpace w.text = true) → turn'.text = turn.text

/-- the correction of a word when it is enabled. -/
def correction (letters : Letters) (options : Value) (w : SpokenWord × ℕ) :
    Option TranscriptCorrection :=
  if (options.get "correctTranscript" = bool true : Bool) then
    correctionOf letters (glossaryOf options) w
  else none

theorem correctTranscript_corrections : (correctTranscript letters options t).corrections =
    t.words.zipIdx.filterMap (correction letters options) := rfl

theorem correctTranscript_words : (correctTranscript letters options t).words =
    t.words.zipIdx.map fun w => correctWord (correction letters options w) w.1 := rfl

/-- a correction is of its word, and changes it. -/
theorem correction_some {w : SpokenWord × ℕ} {x : TranscriptCorrection}
    (h : correction letters options w = some x) :
    x.wordIndex = w.2 ∧ w.1.text = x.oldText ∧ x.newText ≠ w.1.text := by
  unfold correction at h
  split at h
  · unfold correctionOf at h
    split at h
    · cases h
    · split at h
      · cases h
      · next hm =>
        cases h
        exact ⟨rfl, rfl, (not_or.mp hm).2⟩
  · cases h

theorem correctTranscript_word (i : ℕ) : (correctTranscript letters options t).words[i]? =
    t.words[i]?.map fun w => correctWord (correction letters options (w, i)) w := by
  rw [correctTranscript_words, List.getElem?_map, List.getElem?_zipIdx]
  cases t.words[i]? with
  | none => rfl
  | some w => simp

theorem mem_corrections {x : TranscriptCorrection} :
    x ∈ (correctTranscript letters options t).corrections ↔
      ∃ w, t.words[x.wordIndex]? = some w ∧ correction letters options (w, x.wordIndex) = some x := by
  rw [correctTranscript_corrections, List.mem_filterMap]
  constructor
  · rintro ⟨⟨w, i⟩, hw, hx⟩
    have hi : x.wordIndex = i := (correction_some hx).1
    rw [hi]
    exact ⟨w, List.mem_zipIdx_iff_getElem?.mp hw, hx⟩
  · rintro ⟨w, hw, hx⟩
    exact ⟨(w, x.wordIndex), List.mem_zipIdx_iff_getElem?.mpr hw, hx⟩

/-- a word without a correction in the list stays. -/
theorem correctTranscript_other {i : ℕ}
    (h : ∀ x ∈ (correctTranscript letters options t).corrections, x.wordIndex ≠ i) :
    (correctTranscript letters options t).words[i]? = t.words[i]? := by
  rw [correctTranscript_word]
  cases hw : t.words[i]? with
  | none => rfl
  | some w =>
    cases hx : correction letters options (w, i) with
    | none => simp [hx, correctWord]
    | some x =>
      have hi : x.wordIndex = i := (correction_some hx).1
      exact absurd hi (h x (mem_corrections.mpr ⟨w, by rw [hi]; exact hw, by rw [hi]; exact hx⟩))

/-- the text of a turn without a correction, rebuilt. -/
theorem rebuildTurn_text {words' : List SpokenWord} (hg : ∀ v ∈ g, words[v.2]? = some v.1)
    (hne : ∀ v ∈ g, v.1.text ≠ "") (hsame : ∀ v ∈ g, words'[v.2]? = words[v.2]?)
    (hspace : ∀ w ∈ (wordsOf words (turnOf g)).tail, needsLeadingSpace w.text = true) :
    (rebuildTurn words' (turnOf g)).text = (turnOf g).text := by
  have htail : ∀ v ∈ g.tail, needsLeadingSpace v.1.text = true := by
    intro v hv
    rw [wordsOf_turnOf hg, ← List.map_tail] at hspace
    exact hspace v.1 (List.mem_map_of_mem hv)
  rw [turnOf_text htail]
  have htexts : ((turnOf g).wordIndexes.map fun i => (words'[i]?.map (·.text)).getD "") =
      g.map (·.1.text) := by
    rw [turnOf_wordIndexes, List.map_map]
    refine List.map_congr_left fun v hv => ?_
    show (words'[v.2]?.map (·.text)).getD "" = v.1.text
    rw [hsame v hv, hg v hv]
    rfl
  have hfilter : (g.map (·.1.text)).filter (fun text => text ≠ "") = g.map (·.1.text) := by
    refine List.filter_eq_self.mpr fun text htext => ?_
    obtain ⟨v, hv, rfl⟩ := List.mem_map.mp htext
    exact decide_eq_true (hne v hv)
  show " ".intercalate (((turnOf g).wordIndexes.map fun i =>
    (words'[i]?.map (·.text)).getD "").filter fun text => text ≠ "") = _
  rw [htexts, hfilter]

/-- **A correction** of a transcript whose turns are built from its words. -/
theorem correctTranscript_corrects (letters : Letters) (options : Value)
    (hgroups : Grouped t.words.zipIdx groups) (hturns : t.turns = groups.map turnOf)
    (hne : ∀ w ∈ t.words, w.text ≠ "") : Corrects t (correctTranscript letters options t) := by
  refine ⟨?_, ?_, ?_, ?_, ?_⟩
  · intro x hx
    obtain ⟨w, hw, hcorrection⟩ := mem_corrections.mp hx
    obtain ⟨-, hold, hnew⟩ := correction_some hcorrection
    refine ⟨w, hw, hold, hnew, ?_⟩
    rw [correctTranscript_word, hw]
    simp [hcorrection, correctWord]
  · have hindexes : (correctTranscript letters options t).corrections.map (·.wordIndex) =
        t.words.zipIdx.filterMap fun w => (correction letters options w).map fun _ => w.2 := by
      rw [correctTranscript_corrections, List.map_filterMap]
      refine List.filterMap_congr fun w _ => ?_
      cases hx : correction letters options w with
      | none => rfl
      | some x => exact congrArg some (correction_some hx).1
    rw [hindexes]
    have hsub : (t.words.zipIdx.filterMap fun w => (correction letters options w).map fun _ =>
        w.2).Sublist (t.words.zipIdx.map (·.2)) := by
      induction t.words.zipIdx with
      | nil => exact .slnil
      | cons w ws ih =>
        rw [List.filterMap_cons, List.map_cons]
        cases correction letters options w with
        | none => exact ih.cons _
        | some x => exact ih.cons_cons _
    rw [List.zipIdx_map_snd] at hsub
    exact hsub.nodup List.nodup_range'
  · intro i hi
    exact correctTranscript_other fun x hx heq => hi (List.mem_map.mpr ⟨x, hx, heq⟩)
  · show ((t.turns.map (rebuildTurn _)).map fun turn => { turn with text := "" }) = _
    rw [List.map_map]
    rfl
  · intro i turn turn' hturn hturn' hnone hspace
    have hrebuilt : turn' =
        rebuildTurn (correctTranscript letters options t).words turn := by
      have : (correctTranscript letters options t).turns[i]? =
          t.turns[i]?.map (rebuildTurn (correctTranscript letters options t).words) :=
        List.getElem?_map ..
      rw [this, hturn] at hturn'
      exact (Option.some.inj hturn').symm
    rw [hturns, List.getElem?_map] at hturn
    obtain ⟨g, hg, rfl⟩ := Option.map_eq_some_iff.mp hturn
    have hwords := hgroups.getElem? (List.mem_of_getElem? hg)
    rw [hrebuilt]
    refine rebuildTurn_text hwords (fun v hv => hne v.1 (List.mem_of_getElem? (hwords v hv)))
      (fun v hv => ?_) hspace
    refine correctTranscript_other fun x hx heq => hnone x hx ?_
    rw [turnOf_wordIndexes, heq]
    exact List.mem_map_of_mem hv

end

/-! ## transcripts and corrections -/

theorem NearestSpeaker.speakWord {word : AudioWord} {segments : List DiarizationSegment}
    {name : String} (h : NearestSpeaker word segments name) (mapping : Value) :
    NearestSpeaker (speakWord mapping segments word).toAudioWord segments name := by
  cases h with
  | none h => exact .none h
  | overlap s hs hpos hmax => exact .overlap s hs hpos hmax
  | gap s hs hnone hmin => exact .gap s hs hnone hmin

/-- every turn covers its words. -/
def Covered (t : Transcript) : Prop :=
  ∀ turn ∈ t.turns, ∀ w ∈ wordsOf t.words turn, turn.start ≤ w.start ∧ w.end_ ≤ turn.end_

/-- every word has the speaker of a segment with the greatest overlap, or of a nearest one. -/
def ExactSpeakers (input : Value) (segments : List DiarizationSegment) (t : Transcript) : Prop :=
  ∀ w ∈ t.words, ∃ s ∈ segments, w.speaker = mappedSpeaker (mappingOf input) s.speaker ∧
    (0 < overlap w.toAudioWord s ∧
        (∀ s' ∈ segments, overlap w.toAudioWord s' ≤ overlap w.toAudioWord s) ∨
      (∀ s' ∈ segments, overlap w.toAudioWord s' = 0) ∧
        ∀ s' ∈ segments, distance w.toAudioWord s ≤ distance w.toAudioWord s')

/-- every turn without a correction keeps its text. -/
def KeepsTexts (t : Transcript) (c : CorrectedTranscript) : Prop :=
  ∀ (i : ℕ) (turn turn' : TranscriptTurn), t.turns[i]? = some turn → c.turns[i]? = some turn' →
    (∀ x ∈ c.corrections, x.wordIndex ∉ turn.wordIndexes) → turn'.text = turn.text

/-- A platform without texts and hashes. -/
def bare : Platform where
  jsonParse _ := none
  dateParse _ := none
  url _ := none
  urlAt _ _ := none
  sha256 _ := ""
  base64Text s := s
  toText
    | str s => s
    | _ => ""
  toNumber := numberOf
  toNumber_num := numberOf_num
  encodeURIComponent s := s

def asciiLetters : Letters where
  isWordChar := Char.isAlphanum
  toLocaleLowerCase := toLowerCase

/-- a word and a comma inside it; the second of two segments overlaps the word by `2 ^ -50` more. -/
def nested : Value := obj [
  ("stt", obj [("words", arr [
    obj [("text", str "hello"), ("start", num 0), ("end", num 1)],
    obj [("text", str ","), ("start", num (1 / 4)), ("end", num (3 / 8))]])]),
  ("diarization", obj [("segments", arr [
    obj [("speaker", str "A"), ("start", num 0), ("end", num half)],
    obj [("speaker", str "B"), ("start", num half), ("end", num 1)]])])]
where
  half : ℚ := 1 / 2 - 1 / 2251799813685248

/-- the same words without segments. -/
def unsegmented : Value := obj [
  ("stt", nested.get "stt"), ("diarization", obj [("segments", arr [])])]

end AudioTranscript
end Pipelines
end WmAutopilot
