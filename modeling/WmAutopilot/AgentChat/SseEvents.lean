import WmAutopilot.Js.Utf8

/-!
# The events of a server-sent-events stream

* `flush`, `readLine`, `readChunk`, `finish`   the loop of `parseSseEvents`, with what it keeps from line
                                             to line and from chunk to chunk;
* `parseSseEvents`     the events of the chunks of a stream;
* `streamEvents`       the events of a text, block by block, without a state;
* `parse_format`       **the chunks do not matter, and the events are those of the blocks**;
* `formatEvents`       what the format says;
* `differs_from_format`   where the two differ.
-/

set_option autoImplicit false

namespace WmAutopilot
namespace AgentChat
namespace Sse
open Js

structure ParsedSseEvent where
  id : Option String
  event : String
  data : String
  deriving DecidableEq, Repr

/-- what is kept from line to line. -/
structure Fields where
  eventName : String := "message"
  eventId : Option String := none
  dataLines : List String := []
  deriving DecidableEq, Repr

/-- what is kept from chunk to chunk. -/
structure Reading where
  decoder : Utf8.Decoder := {}
  buffer : List Char := []
  fields : Fields := {}

def flush (fields : Fields) : Fields × List ParsedSseEvent :=
  if fields.dataLines = [] then ({ fields with eventName := "message" }, [])
  else ({}, [{
    id := fields.eventId
    event := if fields.eventName = "" then "message" else fields.eventName
    data := "\n".intercalate fields.dataLines }])

/-- `rawLine.endsWith("\r") ? rawLine.slice(0, -1) : rawLine` -/
def withoutReturn (rawLine : List Char) : List Char :=
  if rawLine.getLast? = some '\r' then rawLine.dropLast else rawLine

/-- `line.slice(n).trim()` -/
def trimmedFrom (n : ℕ) (line : List Char) : String := trim (String.ofList (line.drop n))

/-- `line.slice(5).trimStart()` -/
def dataOf (line : List Char) : String := String.ofList ((line.drop 5).dropWhile isSpace)

/-- `text || otherwise` -/
def orElse (text otherwise : String) : String := if text = "" then otherwise else text

def readLine (fields : Fields) (rawLine : List Char) : Fields × List ParsedSseEvent :=
  let line := withoutReturn rawLine
  if line = [] then flush fields
  else if [':'] <+: line then (fields, [])
  else if ['i', 'd', ':'] <+: line then
    ({ fields with
      eventId := if trimmedFrom 3 line = "" then none else some (trimmedFrom 3 line) }, [])
  else if ['e', 'v', 'e', 'n', 't', ':'] <+: line then
    ({ fields with eventName := orElse (trimmedFrom 6 line) "message" }, [])
  else if ['d', 'a', 't', 'a', ':'] <+: line then
    ({ fields with dataLines := fields.dataLines ++ [dataOf line] }, [])
  else (fields, [])

/-- the lines that the buffer then holds are read, and what has no line end stays in it. -/
def readText (s : Reading) (text : List Char) : Reading × List ParsedSseEvent :=
  let buffer := s.buffer ++ text
  let read := scan readLine s.fields (complete '\n' buffer)
  ({ s with buffer := remainder '\n' buffer, fields := read.1 }, read.2)

def readChunk (s : Reading) (value : List UInt8) : Reading × List ParsedSseEvent :=
  let text := Utf8.decodePart s.decoder value
  readText { s with decoder := text.1 } text.2

/-- the line without an end, which counts if it has data. -/
def lastLine (buffer : List Char) : List (List Char) :=
  let line := (trim (String.ofList buffer)).toList
  if line ≠ [] ∧ ['d', 'a', 't', 'a', ':'] <+: line then [line] else []

/-- the stream is done. -/
def finish (s : Reading) : List ParsedSseEvent :=
  let read := readText s s.decoder.finish
  let fields := read.1.fields
  read.2 ++ (flush { fields with
    dataLines := fields.dataLines ++ (lastLine read.1.buffer).map dataOf }).2

/-- `parseSseEvents(stream)`, for a stream of these chunks. -/
def parseSseEvents (chunks : List (List UInt8)) : List ParsedSseEvent :=
  let read := scan readChunk {} chunks
  read.2 ++ finish read.1

/-! ## blocks -/

/-- a line that carries data, a type or an id. -/
def dataLine (line : List Char) : Option String :=
  if ['d', 'a', 't', 'a', ':'] <+: line then some (dataOf line) else none

def eventLine (line : List Char) : Option String :=
  if ['e', 'v', 'e', 'n', 't', ':'] <+: line then some (orElse (trimmedFrom 6 line) "message")
  else none

def idLine (line : List Char) : Option (Option String) :=
  if ['i', 'd', ':'] <+: line then
    some (if trimmedFrom 3 line = "" then none else some (trimmedFrom 3 line))
  else none

/-- the id after a block: its last one, or the one before. -/
def blockId (id : Option String) (block : List (List Char)) : Option String :=
  (block.filterMap idLine).getLastD id

/-- the event of a block. -/
def blockEvent (id : Option String) (block : List (List Char)) : Option ParsedSseEvent :=
  if block.filterMap dataLine = [] then none
  else some {
    id := blockId id block
    event := (block.filterMap eventLine).getLastD "message"
    data := "\n".intercalate (block.filterMap dataLine) }

/-- the id is kept until there is an event. -/
def idAfter (id : Option String) (block : List (List Char)) : Option String :=
  if block.filterMap dataLine = [] then blockId id block else none

/-- the events of blocks. -/
def blockEvents : Option String → List (List (List Char)) → List ParsedSseEvent
  | _, [] => []
  | id, block :: blocks =>
    (blockEvent id block).toList ++ blockEvents (idAfter id block) blocks

/-- **The events of a text**: one for each block of lines with data that a blank line ends, and one for
what the text ends with, if that has data. -/
def streamEvents (text : List Char) : List ParsedSseEvent :=
  let lines := (complete '\n' text).map withoutReturn
  blockEvents none
    (complete [] lines ++ [remainder [] lines ++ lastLine (remainder '\n' text)])

/-! ## lines -/

/-- what is kept within a block. -/
def held (id : Option String) (block : List (List Char)) : Fields where
  eventName := (block.filterMap eventLine).getLastD "message"
  eventId := blockId id block
  dataLines := block.filterMap dataLine

section
variable {id : Option String} {block : List (List Char)} {line rawLine : List Char}

theorem orElse_ne (text : String) : orElse text "message" ≠ "" := by
  unfold orElse
  split
  · decide
  · assumption

theorem held_name_ne : (held id block).eventName ≠ "" := by
  show (block.filterMap eventLine).getLastD "message" ≠ ""
  rcases List.eq_nil_or_concat (block.filterMap eventLine) with hnil | ⟨init, last, h⟩
  · rw [hnil]
    decide
  · have h : block.filterMap eventLine = init ++ [last] := by simpa using h
    obtain ⟨line, -, hline⟩ := List.mem_filterMap.mp
      (show last ∈ block.filterMap eventLine by rw [h]; simp)
    obtain ⟨-, heq⟩ := Option.ite_none_right_eq_some.mp hline
    rw [h, List.getLastD_concat]
    cases heq
    exact orElse_ne _

theorem flush_held :
    flush (held id block) = (held (idAfter id block) [], (blockEvent id block).toList) := by
  unfold flush idAfter blockEvent
  by_cases hdata : block.filterMap dataLine = []
  · have hlines : (held id block).dataLines = [] := hdata
    rw [if_pos hlines, if_pos hdata, if_pos hdata, hlines]
    rfl
  · have hlines : (held id block).dataLines ≠ [] := hdata
    rw [if_neg hlines, if_neg hdata, if_neg hdata, if_neg held_name_ne]
    rfl

theorem readLine_blank (hraw : withoutReturn rawLine = []) : readLine (held id block) rawLine =
    (held (idAfter id block) [], (blockEvent id block).toList) := by
  rw [readLine, hraw, if_pos rfl, flush_held]

/-- a line of a block adds to the block. -/
theorem held_append (line : List Char) : held id (block ++ [line]) = {
    eventName := (eventLine line).getD (held id block).eventName
    eventId := (idLine line).getD (held id block).eventId
    dataLines := (held id block).dataLines ++ (dataLine line).toList } := by
  unfold held blockId
  simp only [List.filterMap_append, List.filterMap_cons, List.filterMap_nil]
  cases eventLine line <;> cases idLine line <;> cases dataLine line <;> simp

theorem readLine_line (hne : line ≠ []) (hraw : withoutReturn rawLine = line) :
    readLine (held id block) rawLine = (held id (block ++ [line]), []) := by
  rw [readLine, hraw, if_neg hne, held_append]
  by_cases hcomment : [':'] <+: line
  · rw [if_pos hcomment]
    obtain ⟨rest, rfl⟩ := hcomment
    simp [eventLine, idLine, dataLine, List.cons_prefix_cons]
  rw [if_neg hcomment]
  by_cases hid : ['i', 'd', ':'] <+: line
  · rw [if_pos hid, idLine, if_pos hid]
    obtain ⟨rest, rfl⟩ := hid
    simp [eventLine, dataLine, List.cons_prefix_cons]
  rw [if_neg hid, idLine, if_neg hid]
  by_cases hevent : ['e', 'v', 'e', 'n', 't', ':'] <+: line
  · rw [if_pos hevent, eventLine, if_pos hevent]
    obtain ⟨rest, rfl⟩ := hevent
    simp [dataLine, List.cons_prefix_cons]
  rw [if_neg hevent, eventLine, if_neg hevent]
  by_cases hdata : ['d', 'a', 't', 'a', ':'] <+: line
  · rw [if_pos hdata, dataLine, if_pos hdata]
    rfl
  · rw [if_neg hdata, dataLine, if_neg hdata]
    simp

end

/-- **Lines are read block by block.** -/
theorem scan_readLine (rawLines : List (List Char)) (id : Option String)
    (block : List (List Char)) (hblock : [] ∉ block) :
    scan readLine (held id block) rawLines =
      (held ((complete [] (block ++ rawLines.map withoutReturn)).foldl idAfter id)
        (remainder [] (block ++ rawLines.map withoutReturn)),
      blockEvents id (complete [] (block ++ rawLines.map withoutReturn))) := by
  induction rawLines generalizing id block with
  | nil =>
    rw [List.map_nil, List.append_nil, complete_of_notMem hblock, remainder_of_notMem hblock]
    rfl
  | cons rawLine rawLines ih =>
    rw [scan_cons, List.map_cons]
    by_cases hraw : withoutReturn rawLine = []
    · rw [readLine_blank hraw, hraw, complete_append_cons hblock, remainder_append_cons hblock,
        ih _ [] List.not_mem_nil, List.nil_append]
      rfl
    · rw [readLine_line hraw rfl, ih _ (block ++ [withoutReturn rawLine])
        (by simpa using ⟨hblock, hraw⟩), List.append_assoc]
      rfl

theorem blockEvents_append (id : Option String) (blocks blocks' : List (List (List Char))) :
    blockEvents id (blocks ++ blocks') =
      blockEvents id blocks ++ blockEvents (blocks.foldl idAfter id) blocks' := by
  induction blocks generalizing id with
  | nil => rfl
  | cons block blocks ih =>
    rw [List.cons_append, blockEvents, blockEvents, ih, List.append_assoc, List.foldl_cons]

/-! ## chunks -/

/-- the events of the complete lines of a text, and what is kept of them. -/
def eventsOf (text : List Char) : List ParsedSseEvent :=
  (scan readLine {} (complete '\n' text)).2

def fieldsOf (text : List Char) : Fields := (scan readLine {} (complete '\n' text)).1

theorem eventsOf_append (text text' : List Char) : eventsOf (text ++ text') = eventsOf text ++
    (scan readLine (fieldsOf text) (complete '\n' (remainder '\n' text ++ text'))).2 := by
  rw [eventsOf, complete_append, scan_append]
  rfl

theorem fieldsOf_append (text text' : List Char) : fieldsOf (text ++ text') =
    (scan readLine (fieldsOf text) (complete '\n' (remainder '\n' text ++ text'))).1 := by
  rw [fieldsOf, complete_append, scan_append]
  rfl

/-- what is kept of a text. -/
def readingOf (decoder : Utf8.Decoder) (text : List Char) : Reading :=
  ⟨decoder, remainder '\n' text, fieldsOf text⟩

theorem readText_readingOf (decoder : Utf8.Decoder) (text text' : List Char) :
    (readText (readingOf decoder text) text').1 = readingOf decoder (text ++ text') ∧
      eventsOf text ++ (readText (readingOf decoder text) text').2 = eventsOf (text ++ text') := by
  rw [eventsOf_append, readingOf, readingOf, remainder_append, fieldsOf_append]
  exact ⟨rfl, rfl⟩

theorem decodePart_append (bytes bytes' : List UInt8) : Utf8.decodePart {} (bytes ++ bytes') =
    ((Utf8.decodePart (Utf8.decodePart {} bytes).1 bytes').1,
      (Utf8.decodePart {} bytes).2 ++ (Utf8.decodePart (Utf8.decodePart {} bytes).1 bytes').2) :=
  scan_append bytes bytes'

/-- **What is kept after chunks** depends on their bytes only. -/
theorem scan_readChunk (chunks : List (List UInt8)) (bytes : List UInt8) :
    let before := Utf8.decodePart {} bytes
    let after := Utf8.decodePart {} (bytes ++ chunks.flatten)
    (scan readChunk (readingOf before.1 before.2) chunks).1 = readingOf after.1 after.2 ∧
      eventsOf before.2 ++ (scan readChunk (readingOf before.1 before.2) chunks).2 =
        eventsOf after.2 := by
  induction chunks generalizing bytes with
  | nil =>
    dsimp only
    rw [List.flatten_nil, List.append_nil]
    exact ⟨rfl, List.append_nil _⟩
  | cons chunk chunks ih =>
    obtain ⟨hstate, hevents⟩ := ih (bytes ++ chunk)
    have hpart := decodePart_append bytes chunk
    obtain ⟨hread, hread'⟩ := readText_readingOf
      (Utf8.decodePart (Utf8.decodePart {} bytes).1 chunk).1 (Utf8.decodePart {} bytes).2
      (Utf8.decodePart (Utf8.decodePart {} bytes).1 chunk).2
    have hchunk : (readChunk (readingOf (Utf8.decodePart {} bytes).1
        (Utf8.decodePart {} bytes).2) chunk).1 = readingOf (Utf8.decodePart {} (bytes ++ chunk)).1
        (Utf8.decodePart {} (bytes ++ chunk)).2 := by
      rw [hpart]
      exact hread
    have hchunk' : eventsOf (Utf8.decodePart {} bytes).2 ++ (readChunk (readingOf
        (Utf8.decodePart {} bytes).1 (Utf8.decodePart {} bytes).2) chunk).2 =
        eventsOf (Utf8.decodePart {} (bytes ++ chunk)).2 := by
      rw [hpart]
      exact hread'
    dsimp only
    rw [scan_cons, hchunk, List.flatten_cons, ← List.append_assoc bytes]
    refine ⟨hstate, ?_⟩
    rw [← hevents, ← hchunk', List.append_assoc]

/-- the events of what a text ends with. -/
def lastEvents (text : List Char) : List ParsedSseEvent :=
  (flush { fieldsOf text with
    dataLines := (fieldsOf text).dataLines ++ (lastLine (remainder '\n' text)).map dataOf }).2

theorem finish_readingOf (decoder : Utf8.Decoder) (text : List Char) :
    eventsOf text ++ finish (readingOf decoder text) =
      eventsOf (text ++ decoder.finish) ++ lastEvents (text ++ decoder.finish) := by
  obtain ⟨hreading, hevents⟩ := readText_readingOf decoder text decoder.finish
  have hfinish : finish (readingOf decoder text) =
      (readText (readingOf decoder text) decoder.finish).2 ++
        (let reading := (readText (readingOf decoder text) decoder.finish).1
        (flush { reading.fields with
          dataLines := reading.fields.dataLines ++ (lastLine reading.buffer).map dataOf }).2) := rfl
  rw [hfinish, hreading, ← List.append_assoc, hevents]
  rfl

/-- the events of a text that is all there is. -/
theorem parse_eq (chunks : List (List UInt8)) : parseSseEvents chunks =
    eventsOf (Utf8.decode chunks.flatten) ++ lastEvents (Utf8.decode chunks.flatten) := by
  obtain ⟨hstate, hevents⟩ := scan_readChunk chunks []
  have hempty : readingOf {} [] = {} := by
    rw [readingOf, remainder_nil, fieldsOf, complete_nil]
    rfl
  have hnone : eventsOf [] = [] := by
    rw [eventsOf, complete_nil]
    rfl
  simp only [Utf8.decodePart, scan_nil, hempty, hnone, List.nil_append] at hstate hevents
  rw [parseSseEvents]
  rw [hstate, hevents, finish_readingOf]
  rfl

/-- **The chunks of a stream do not matter, and its events are those of its blocks.** -/
theorem parse_format (chunks : List (List UInt8)) :
    parseSseEvents chunks = parseSseEvents [chunks.flatten] ∧
      parseSseEvents chunks = streamEvents (Utf8.decode chunks.flatten) := by
  refine ⟨by rw [parse_eq, parse_eq, List.flatten_singleton], ?_⟩
  rw [parse_eq, streamEvents, eventsOf, lastEvents, fieldsOf]
  generalize Utf8.decode chunks.flatten = text
  have hscan := scan_readLine (complete '\n' text) none [] List.not_mem_nil
  have hheld : held none [] = {} := rfl
  rw [hheld, List.nil_append] at hscan
  dsimp only
  rw [hscan, blockEvents_append]
  refine congrArg (_ ++ ·) ?_
  generalize (complete [] ((complete '\n' text).map withoutReturn)).foldl idAfter none = id
  generalize remainder [] ((complete '\n' text).map withoutReturn) = block
  have hlast : ({ held id block with dataLines := (held id block).dataLines ++
      (lastLine (remainder '\n' text)).map dataOf } : Fields) =
      held id (block ++ lastLine (remainder '\n' text)) := by
    unfold lastLine
    dsimp only
    split
    · next hdata =>
      obtain ⟨rest, hline⟩ := hdata.2
      rw [held_append, ← hline]
      simp [eventLine, idLine, dataLine, List.cons_prefix_cons]
    · simp
  rw [hlast, flush_held]
  simp [blockEvents]

/-! ## the format -/

/-- the name of the field of a line, and its value without one space before it. -/
def formatField (line : List Char) : List Char × List Char :=
  let value := (line.dropWhile (· ≠ ':')).drop 1
  (line.takeWhile (· ≠ ':'), if value.head? = some ' ' then value.drop 1 else value)

/-- the values of the fields of a name. -/
def formatValues (name : String) (block : List (List Char)) : List String :=
  block.filterMap fun line =>
    if (formatField line).1 = name.toList then some (String.ofList (formatField line).2) else none

/-- the type and the data of the event of a block. -/
def formatEvent (block : List (List Char)) : Option (String × String) :=
  if formatValues "data" block = [] then none
  else some (orElse ((formatValues "event" block).getLastD "") "message",
    "\n".intercalate (formatValues "data" block))

/-- The types and the data of the events of a text, by the format: one for each block of lines with
data that a blank line ends. -/
def formatEvents (text : List Char) : List (String × String) :=
  (complete [] ((complete '\n' text).map withoutReturn)).filterMap formatEvent

def SameAsFormat (chunks : List (List UInt8)) : Prop :=
  (parseSseEvents chunks).map (fun event => (event.event, event.data)) =
    formatEvents (Utf8.decode chunks.flatten)

instance (chunks : List (List UInt8)) : Decidable (SameAsFormat chunks) :=
  inferInstanceAs (Decidable (_ = _))

/-- the bytes of a text of ASCII characters. -/
def ascii (text : String) : List UInt8 := text.toList.map fun c => UInt8.ofNat c.toNat

example : SameAsFormat [ascii "event: x\r\ndata: 1\r", ascii "\ndata: 2\r\n\r\n: y\n\n"] := by
  decide +kernel

/-- **What differs from the format**: a stream that ends within an event, data after more than one
space, a line without a colon, and spaces around a type. -/
theorem differs_from_format :
    ¬SameAsFormat [ascii "data: x"] ∧ ¬SameAsFormat [ascii "data:  x\n\n"] ∧
      ¬SameAsFormat [ascii "data\n\n"] ∧ ¬SameAsFormat [ascii "event:  x \ndata: y\n\n"] := by
  decide +kernel

end Sse
end AgentChat
end WmAutopilot
