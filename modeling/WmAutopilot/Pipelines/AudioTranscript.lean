import Mathlib.Data.List.Sort
import WmAutopilot.Js.Platform

/-!
# Transcripts of audio

* `normaliseWords`, `normaliseSegments`   the words and the speaker segments that are accepted;
* `assignSpeaker`       the speaker of a word;
* `buildTurns`          the words in turns of one speaker;
* `mergeTranscript`     words and segments as a transcript;
* `bestGlossaryMatch`, `correctTranscript`   words replaced by entries of a glossary.
-/

set_option autoImplicit false

namespace WmAutopilot
namespace Pipelines
namespace AudioTranscript
open Js Value

structure AudioWord where
  text : String
  start : ℚ
  end_ : ℚ
  confidence : Option ℚ
  speaker : String
  start_le : start ≤ end_
  deriving DecidableEq

structure DiarizationSegment where
  speaker : String
  start : ℚ
  end_ : ℚ
  confidence : Option ℚ
  start_le : start ≤ end_
  deriving DecidableEq

/-! ## what is accepted -/

section
variable (p : Platform)

/-- `typeof value === "string" && value.trim()` or a throw. -/
def requiredText (value : Value) (label : String) : Except String String :=
  orThrow (label ++ " is required") value.getString

def timestamp (value : Value) (label : String) : Except String ℚ := do
  let number ← orThrow (label ++ " must be a non-negative number") (p.toNumber value)
  throwIf (number < 0) (label ++ " must be a non-negative number")
  return number

def confidence (value : Value) : Option ℚ :=
  (p.toNumber value).map fun q => if q < 0 then 0 else if 1 < q then 1 else q

/-- `value`, and a throw when `end < start`. -/
def interval (label : String) (start end_ : ℚ) : Except String { t : ℚ × ℚ // t.1 ≤ t.2 } :=
  if h : start ≤ end_ then .ok ⟨(start, end_), h⟩
  else .error (label ++ ".end must not precede start")

/-- the name of an entry in errors: `words[3]` -/
def entryLabel (kind : String) (index : ℕ) : String := kind ++ "[" ++ toString index ++ "]"

def normaliseWord (entry : Value) (index : ℕ) : Except String AudioWord := do
  let label := entryLabel "words" index
  let text ← requiredText ((entry.get "text").orElse (entry.get "word")) (label ++ ".text")
  let start ← timestamp p (entry.get "start") (label ++ ".start")
  let end_ ← timestamp p (entry.get "end") (label ++ ".end")
  let ⟨(start, end_), h⟩ ← interval label start end_
  return {
    text, start, end_
    confidence := confidence p ((entry.get "confidence").orElse (entry.get "probability"))
    speaker := p.toText ((entry.get "speaker").orElse (str ""))
    start_le := h }

def normaliseWords (value : Value) : Except String (List AudioWord) := do
  let entries ← orThrow "STT words must be an array" value.elements
  entries.zipIdx.mapM fun e => normaliseWord p e.1 e.2

def segmentSpeaker (raw : Value) (index : ℕ) : Except String String :=
  match raw with
  | num q => .ok ("Speaker " ++ p.toText (num (q + 1)))
  | raw => requiredText raw (entryLabel "segments" index ++ ".speaker")

def normaliseSegment (entry : Value) (index : ℕ) : Except String DiarizationSegment := do
  let label := entryLabel "segments" index
  let speaker ← segmentSpeaker p
    (((entry.get "speaker").orElse (entry.get "speaker_id")).orElse (entry.get "label")) index
  let start ← timestamp p (entry.get "start") (label ++ ".start")
  let end_ ← timestamp p (entry.get "end") (label ++ ".end")
  let ⟨(start, end_), h⟩ ← interval label start end_
  return {
    speaker, start, end_
    confidence := confidence p (entry.get "confidence")
    start_le := h }

/-- the order of segments: `left.start - right.start || left.end - right.end` -/
def SegmentBefore (left right : DiarizationSegment) : Prop :=
  left.start < right.start ∨ left.start = right.start ∧ left.end_ ≤ right.end_

instance : DecidableRel SegmentBefore := fun _ _ => inferInstanceAs (Decidable (_ ∨ _))

def normaliseSegments (value : Value) : Except String (List DiarizationSegment) := do
  let entries ← orThrow "Diarization segments must be an array" value.elements
  let segments ← entries.zipIdx.mapM fun e => normaliseSegment p e.1 e.2
  return segments.insertionSort SegmentBefore

end

/-! ## speakers -/

/-- `Math.max(0, Math.min(word.end, segment.end) - Math.max(word.start, segment.start))` -/
def overlap (word : AudioWord) (segment : DiarizationSegment) : ℚ :=
  let last := if word.end_ ≤ segment.end_ then word.end_ else segment.end_
  let first := if word.start ≤ segment.start then segment.start else word.start
  if last ≤ first then 0 else last - first

/-- the time between a word and a segment. -/
def distance (word : AudioWord) (segment : DiarizationSegment) : ℚ :=
  if word.end_ < segment.start then segment.start - word.end_
  else if segment.end_ < word.start then word.start - segment.end_
  else 0

/-- `Number.EPSILON * 8` -/
def tolerance : ℚ := 1 / 562949953421312

inductive Attribution where
  | maximumOverlap (speaker : String) (overlapSeconds : ℚ) (competingSegments : ℕ)
  | nearestSegmentGap (speaker : String) (gapSeconds : ℚ)
  | noDiarizationSegments
  deriving DecidableEq

def Attribution.speaker : Attribution → String
  | maximumOverlap speaker _ _ => speaker
  | nearestSegmentGap speaker _ => speaker
  | noDiarizationSegments => "Unknown Speaker"

/-- the variables of the loop over the segments. -/
structure Best where
  best : Option DiarizationSegment := none
  bestOverlap : ℚ := 0
  overlapCount : ℕ := 0

def Best.step (word : AudioWord) (b : Best) (segment : DiarizationSegment) : Best :=
  let overlap := overlap word segment
  let overlapCount := if 0 < overlap then b.overlapCount + 1 else b.overlapCount
  if b.bestOverlap + tolerance < overlap then ⟨some segment, overlap, overlapCount⟩
  else { b with overlapCount }

/-- the first segment of the least distance. -/
def nearestStep (word : AudioWord) (current : Option (DiarizationSegment × ℚ))
    (segment : DiarizationSegment) : Option (DiarizationSegment × ℚ) :=
  match current with
  | none => some (segment, distance word segment)
  | some (nearest, d) =>
    if distance word segment < d then some (segment, distance word segment) else some (nearest, d)

def assignSpeaker (word : AudioWord) (segments : List DiarizationSegment) : Attribution :=
  let b := segments.foldl (Best.step word) {}
  match b.best with
  | some segment => .maximumOverlap segment.speaker b.bestOverlap b.overlapCount
  | none =>
    match segments.foldl (nearestStep word) none with
    | some (segment, d) => .nearestSegmentGap segment.speaker d
    | none => .noDiarizationSegments

/-- a word with its speaker: `{ ...word, speaker, attribution }` -/
structure SpokenWord extends AudioWord where
  attribution : Attribution
  deriving DecidableEq

/-! ## turns -/

structure TranscriptTurn where
  speaker : String
  start : ℚ
  end_ : ℚ
  text : String
  wordIndexes : List ℕ
  deriving DecidableEq

/-- `!/^[,.;:!?)]/.test(text)` -/
def needsLeadingSpace (text : String) : Bool :=
  match text.toList with
  | c :: _ => c ∉ [',', '.', ';', ':', '!', '?', ')']
  | [] => true

/-- `current` with one more word. -/
def TranscriptTurn.extend (current : TranscriptTurn) (w : SpokenWord × ℕ) : TranscriptTurn :=
  { current with
    end_ := w.1.end_
    text := current.text ++ (if needsLeadingSpace w.1.text then " " else "") ++ w.1.text
    wordIndexes := current.wordIndexes ++ [w.2] }

/-- a new turn of one word. -/
def newTurn (w : SpokenWord × ℕ) : TranscriptTurn where
  speaker := w.1.speaker
  start := w.1.start
  end_ := w.1.end_
  text := w.1.text
  wordIndexes := [w.2]

/-- one word of `buildTurns`. -/
def addWord (turns : List TranscriptTurn) (w : SpokenWord × ℕ) : List TranscriptTurn :=
  match turns.getLast? with
  | none => turns ++ [newTurn w]
  | some current =>
    if current.speaker = w.1.speaker ∧ w.1.start - current.end_ ≤ 5 / 4 then
      turns.dropLast ++ [current.extend w]
    else turns ++ [newTurn w]

def buildTurns (words : List SpokenWord) : List TranscriptTurn := words.zipIdx.foldl addWord []

def joinWords (words : List AudioWord) : String :=
  words.foldl
    (fun text word => text ++ (if text ≠ "" ∧ needsLeadingSpace word.text then " " else "") ++
      word.text) ""

/-! ## the transcript -/

structure Speaker where
  label : String
  mapped : Bool
  deriving DecidableEq

structure Transcript where
  words : List SpokenWord
  turns : List TranscriptTurn
  speakers : List Speaker
  rawTranscript : String
  deriving DecidableEq

/-- `typeof mapping[speaker] === "string" ? mapping[speaker] : speaker` -/
def mappedSpeaker (mapping : Value) (speaker : String) : String :=
  match mapping.get speaker with
  | str name => name
  | _ => speaker

/-- `Object.values(mapping)` -/
def objectValues : Value → List Value
  | obj fs => fs.map (·.2)
  | _ => []

def speakWord (mapping : Value) (segments : List DiarizationSegment) (word : AudioWord) :
    SpokenWord :=
  let assignment := assignSpeaker word segments
  { word with speaker := mappedSpeaker mapping assignment.speaker, attribution := assignment }

/-- `options.speakerMapping` of the input. -/
def mappingOf (input : Value) : Value := (input.get "options").get "speakerMapping"

/-- the transcript of words and segments. -/
def transcriptOf (p : Platform) (input : Value) (segments : List DiarizationSegment)
    (words : List AudioWord) : Transcript :=
  let mapping := mappingOf input
  let spoken := words.map (speakWord mapping segments)
  { words := spoken
    turns := buildTurns spoken
    speakers := (spoken.map (·.speaker)).eraseDups.map fun label =>
      ⟨label, str label ∈ objectValues mapping⟩
    rawTranscript := p.toText (((input.get "stt").get "rawTranscript").orElse
      (str (joinWords (spoken.map (·.toAudioWord))))) }

def mergeTranscript (p : Platform) (input : Value) : Except String Transcript := do
  let segments ← normaliseSegments p ((input.get "diarization").get "segments")
  let words ← normaliseWords p ((input.get "stt").get "words")
  return transcriptOf p input segments words

/-! ## corrections -/

structure TranscriptCorrection where
  oldText : String
  newText : String
  reason : String
  source : String
  confidence : ℚ
  wordIndex : ℕ

/-- What is used of Unicode. -/
structure Letters where
  /-- `\p{L}` and `\p{N}` -/
  isWordChar : Char → Bool
  toLocaleLowerCase : String → String

/-- the UTF-16 code units of a string. -/
def codeUnits (s : String) : List ℕ :=
  s.toList.flatMap fun c =>
    if c.toNat < 65536 then [c.toNat]
    else [55296 + (c.toNat - 65536) / 1024, 56320 + (c.toNat - 65536) % 1024]

/-- one row of `levenshtein`: the entries after the first, from the previous row. -/
def nextEntries (c : ℕ) (before diagonal : ℕ) : List ℕ → List ℕ → List ℕ
  | r :: right, previous :: row =>
    let least := if before ≤ previous then before else previous
    let entry := if c = r then diagonal else (if least ≤ diagonal then least else diagonal) + 1
    entry :: nextEntries c entry previous right row
  | _, _ => []

def nextRow (right : List ℕ) (row : List ℕ) (left : ℕ × ℕ) : List ℕ :=
  (left.2 + 1) :: nextEntries left.1 (left.2 + 1) (row.headD 0) right row.tail

def levenshtein (left right : List ℕ) : ℕ :=
  (left.zipIdx.foldl (nextRow right) (List.range (right.length + 1))).getLastD 0

/-- the terminators that `.` does not match. -/
def isLineTerminator (c : Char) : Bool := c ∈ ['\n', '\r', '\u2028', '\u2029']

section
variable (letters : Letters)

/-- the text without what stands before its first and after its last letter:
`text.match(/^[^\p{L}\p{N}]*(.*?)[^\p{L}\p{N}]*$/u)?.[1] ?? text` -/
def punctuation (text : String) : String :=
  let inner := (text.toList.dropWhile fun c => letters.isWordChar c = false).rdropWhile fun c =>
    letters.isWordChar c = false
  if inner.any isLineTerminator then text else String.ofList inner

def preservePunctuation (source replacement : String) : String :=
  String.ofList (source.toList.takeWhile fun c => letters.isWordChar c = false) ++ replacement ++
    String.ofList (source.toList.rtakeWhile fun c => letters.isWordChar c = false)

structure GlossaryMatch where
  newText : String
  confidence : ℚ

/-- `Math.max(normalized.length, target.length, 1)` -/
def longest (normalized target : String) : ℕ :=
  let longer := if (codeUnits normalized).length ≤ (codeUnits target).length then
    (codeUnits target).length else (codeUnits normalized).length
  if longer ≤ 1 then 1 else longer

/-- one entry of the glossary. -/
def matchStep (text normalized : String) (best : Option GlossaryMatch) (entry : String) :
    Option GlossaryMatch :=
  let target := trim entry
  if target = "" ∨ target.toList.any isSpace then best
  else
    let distance := levenshtein (codeUnits normalized)
      (codeUnits (letters.toLocaleLowerCase target))
    let confidence : ℚ := 1 - distance / longest normalized target
    if (best.all fun b => b.confidence < confidence) ∧ distance ≤ 2 then
      some ⟨preservePunctuation letters text target, confidence⟩
    else best

def bestGlossaryMatch (text : String) (glossary : List String) : Option GlossaryMatch :=
  let normalized := letters.toLocaleLowerCase (punctuation letters text)
  if normalized = "" ∨ text ∈ glossary then none
  else glossary.foldl (matchStep letters text normalized) none

/-- the glossary of the options: its entries that are strings and not blank. -/
def glossaryOf (options : Value) : List String :=
  (((options.get "glossary").elements.getD []).filterMap fun
    | str entry => some entry
    | _ => none).filter fun entry => trim entry ≠ ""

/-- the correction of a word. -/
def correctionOf (glossary : List String) (w : SpokenWord × ℕ) : Option TranscriptCorrection :=
  match bestGlossaryMatch letters w.1.text glossary with
  | none => none
  | some m =>
    if m.confidence < 4 / 5 ∨ m.newText = w.1.text then none
    else some {
      oldText := w.1.text
      newText := m.newText
      reason := "High-confidence glossary match"
      source := "caller-glossary"
      confidence := m.confidence
      wordIndex := w.2 }

def rebuildTurn (words : List SpokenWord) (turn : TranscriptTurn) : TranscriptTurn :=
  { turn with
    text := " ".intercalate ((turn.wordIndexes.map fun index =>
      (words[index]?.map (·.text)).getD "").filter fun text => text ≠ "") }

def rebuildTurns (turns : List TranscriptTurn) (words : List SpokenWord) : List TranscriptTurn :=
  turns.map (rebuildTurn words)

structure CorrectedTranscript extends Transcript where
  correctedTranscript : String
  corrections : List TranscriptCorrection
  enabled : Bool

/-- a word with its correction. -/
def correctWord (correction : Option TranscriptCorrection) (word : SpokenWord) : SpokenWord :=
  match correction with
  | some c => { word with text := c.newText }
  | none => word

def correctTranscript (options : Value) (transcript : Transcript) : CorrectedTranscript :=
  let glossary := glossaryOf options
  let enabled : Bool := options.get "correctTranscript" = bool true
  let correction (w : SpokenWord × ℕ) :=
    if enabled then correctionOf letters glossary w else none
  let words := transcript.words.zipIdx.map fun w => correctWord (correction w) w.1
  let turns := rebuildTurns transcript.turns words
  { transcript with
    words, turns
    correctedTranscript := " ".intercalate (turns.map (·.text))
    corrections := transcript.words.zipIdx.filterMap correction
    enabled }

end

end AudioTranscript
end Pipelines
end WmAutopilot
