import RagForge.ChatService
import RagForge.Framing
import RagForge.Js

namespace RagForge.EventStream
open RagForge ChatService Fallible Js

-- Values of `json.dumps` and `JSON.parse`. A score is a finite number here, so
-- NaN and the infinities do not occur.
inductive Json where
  | null
  | number (value : ℚ)
  | string (text : Str)
  | array (items : List Json)
  | object (fields : List (Str × Json))

-- The two library functions. `none` is the SyntaxError of a text that is no JSON.
structure JsonCodec where
  dumps : Json → Str
  parse : Str → Option Json

-- `asdict` of a context chunk, in the order of its keys.
def contextJson (chunk : ContextChunk) : Json :=
  .object [("chunk_id".toList,.string chunk.chunk_id),("document_id".toList,.string chunk.document_id),
    ("document_filename".toList,.string chunk.document_filename),("content".toList,.string chunk.content),
    ("page_number".toList,match chunk.page_number with | some page => .number page | none => .null),
    ("relevance_score".toList,.number chunk.relevance_score)]

-- `_serialize_event`
def serializeEvent : Event → Json
  | .token text => .object [("text".toList,.string text),("type".toList,.string "token".toList)]
  | .done message_id conversation_id context_chunks cited_indices =>
    .object [("message_id".toList,.string message_id.str),("conversation_id".toList,.string conversation_id.str),
      ("context_chunks".toList,.array (context_chunks.map contextJson)),
      ("cited_indices".toList,.array (cited_indices.map fun (idx : Nat) => .number idx)),
      ("type".toList,.string "done".toList)]
  | .error message => .object [("message".toList,.string message),("type".toList,.string "error".toList)]

-- The same event in the page's types.
inductive ChatStreamEvent where
  | token (text : Str)
  | done (message_id conversation_id : Str) (context_chunks : JsArray ContextChunk) (cited_indices : List Nat)
  | error (message : Str)

def ChatStreamEvent.isToken : ChatStreamEvent → Bool
  | .token _ => true
  | _ => false

def ChatStreamEvent.text : ChatStreamEvent → Str
  | .token text => text
  | _ => []

-- A property of a parsed value.
def property (key : Str) : Json → Option Json
  | .object fields => (fields.find? (·.1 = key)).map Prod.snd
  | _ => none

def asText : Json → Option Str
  | .string text => some text
  | _ => none

def asIndex : Json → Option Nat
  | .number value => if value.den = 1 ∧ 0 ≤ value.num then some value.num.toNat else none
  | _ => none

def asPage : Json → Option (Option Nat)
  | .null => some none
  | page => (asIndex page).map some

def asScore : Json → Option ℚ
  | .number value => some value
  | _ => none

def asItems : Json → Option (List Json)
  | .array items => some items
  | _ => none

-- A list longer than any array is no parsed value.
def asArray (items : List α) : Option (JsArray α) := if short : items.length < 2 ^ 32 then some ⟨items,short⟩ else none

-- `ContextChunkPreview`, field by field.
def readContext (value : Json) : Option ContextChunk := do
  let chunk_id ← (property "chunk_id".toList value).bind asText
  let document_id ← (property "document_id".toList value).bind asText
  let document_filename ← (property "document_filename".toList value).bind asText
  let content ← (property "content".toList value).bind asText
  let page_number ← (property "page_number".toList value).bind asPage
  let relevance_score ← (property "relevance_score".toList value).bind asScore
  some ⟨chunk_id,document_id,document_filename,content,page_number,relevance_score⟩

-- `ChatStreamEvent`: the type first, then the fields of that type.
def readEvent (value : Json) : Option ChatStreamEvent := do
  let type ← (property "type".toList value).bind asText
  if type = "token".toList then
    let text ← (property "text".toList value).bind asText
    some (.token text)
  else if type = "done".toList then
    let message_id ← (property "message_id".toList value).bind asText
    let conversation_id ← (property "conversation_id".toList value).bind asText
    let context_chunks ← ((property "context_chunks".toList value).bind asItems).bind (List.mapM readContext)
    let cited_indices ← ((property "cited_indices".toList value).bind asItems).bind (List.mapM asIndex)
    (asArray context_chunks).map (.done message_id conversation_id · cited_indices)
  else if type = "error".toList then
    let message ← (property "message".toList value).bind asText
    some (.error message)
  else none

-- The event as the page sees it.
def received : Event → Option ChatStreamEvent
  | .token text => some (.token text)
  | .done message_id conversation_id context_chunks cited_indices =>
    (asArray context_chunks).map (.done message_id.str conversation_id.str · cited_indices)
  | .error message => some (.error message)

-- `text.encode()`
def encode (text : Str) : Bytes := text.flatMap String.utf8EncodeChar

def dataPrefix : Str := "data: ".toList

-- One `yield` of `_sse_stream`, before its encoding.
def frame (codec : JsonCodec) (event : Event) : Str :=
  dataPrefix ++ codec.dumps (serializeEvent event) ++ "\n\n".toList

def sseStream (codec : JsonCodec) (events : List Event) : Bytes :=
  (events.map fun event => encode (frame codec event)).flatten

-- `TextDecoder` for UTF-8 with `stream: true`: the sequence begun so far, the
-- range its next byte has to lie in, and whether a leading BOM is still dropped.
structure TextDecoder where
  codePoint : Nat := 0
  bytesNeeded : Nat := 0
  lower : Nat := 0x80
  upper : Nat := 0xBF
  bomSeen : Bool := false

namespace TextDecoder

def replacement : Char := Char.ofNat 0xFFFD

-- The first byte of a sequence.
def lead (d : TextDecoder) (byte : Nat) : Str × TextDecoder :=
  if byte < 0x80 then ([Char.ofNat byte],d)
  else if 0xC2 ≤ byte ∧ byte ≤ 0xDF then ([],{d with codePoint := byte - 0xC0,bytesNeeded := 1})
  else if 0xE0 ≤ byte ∧ byte ≤ 0xEF then
    ([],{d with
      codePoint := byte - 0xE0
      bytesNeeded := 2
      lower := if byte = 0xE0 then 0xA0 else 0x80
      upper := if byte = 0xED then 0x9F else 0xBF})
  else if 0xF0 ≤ byte ∧ byte ≤ 0xF4 then
    ([],{d with
      codePoint := byte - 0xF0
      bytesNeeded := 3
      lower := if byte = 0xF0 then 0x90 else 0x80
      upper := if byte = 0xF4 then 0x8F else 0xBF})
  else ([replacement],d)

-- A byte out of range ends the sequence with U+FFFD and is read again as a first one.
def byte (d : TextDecoder) (byte : UInt8) : Str × TextDecoder :=
  let idle : TextDecoder := {bomSeen := d.bomSeen}
  if d.bytesNeeded = 0 then d.lead byte.toNat
  else if byte.toNat < d.lower ∨ d.upper < byte.toNat then
    let (text,d) := idle.lead byte.toNat
    (replacement :: text,d)
  else
    let codePoint := d.codePoint * 64 + (byte.toNat - 0x80)
    if d.bytesNeeded = 1 then ([Char.ofNat codePoint],idle)
    else ([],{idle with codePoint := codePoint,bytesNeeded := d.bytesNeeded - 1})

def bytes : TextDecoder → Bytes → Str × TextDecoder
  | d,[] => ([],d)
  | d,b :: rest =>
    let first := d.byte b
    let later := bytes first.2 rest
    (first.1 ++ later.1,later.2)

-- `decoder.decode(value, { stream: true })`
def decode (d : TextDecoder) (value : Bytes) : Str × TextDecoder :=
  match d.bytes value with
  | ([],d) => ([],d)
  | (c :: text,d) =>
    if d.bomSeen then (c :: text,d)
    else if c.toNat = 0xFEFF then (text,{d with bomSeen := true}) else (c :: text,{d with bomSeen := true})

end TextDecoder

inductive Thrown where
  | api (status : Nat) (code message : Str)
  | syntaxError
  | network

structure Streamed where
  events : List Json
  thrown : Option Thrown

-- `rawEvent.split("\n").find((line) => line.startsWith("data: "))`
def dataLine (rawEvent : Str) : Option Str := (rawEvent.splitOn '\n').find? (dataPrefix.isPrefixOf ·)

-- The inner `while`: the buffer that is left, or none once JSON.parse has thrown.
def drainBuffer (codec : JsonCodec) (buffer : Str) : List Json × Option Str :=
  match _boundary : Framing.indexOf "\n\n".toList buffer with
  | none => ([],some buffer)
  | some boundary =>
    let rawEvent := buffer.take boundary
    let buffer := buffer.drop (boundary + 2)
    match dataLine rawEvent with
    | none => drainBuffer codec buffer
    | some line => match codec.parse (line.drop dataPrefix.length) with
      | none => ([],none)
      | some event =>
        let later := drainBuffer codec buffer
        (event :: later.1,later.2)
termination_by buffer.length
decreasing_by all_goals
  have fits := Framing.indexOf_bound (by assumption)
  have two : "\n\n".toList.length = 2 := rfl
  rw [List.length_drop]
  omega

-- The outer `while`. A connection that breaks rejects the next `reader.read()`.
def readLoop (codec : JsonCodec) (broken : Bool) : TextDecoder → Str → List Bytes → Streamed
  | _,_,[] => ⟨[],if broken then some .network else none⟩
  | decoder,buffer,value :: reads =>
    let decoded := decoder.decode value
    match drainBuffer codec (buffer ++ decoded.1) with
    | (events,none) => ⟨events,some .syntaxError⟩
    | (events,some buffer) =>
      let later := readLoop codec broken decoded.2 buffer reads
      ⟨events ++ later.events,later.thrown⟩

structure ErrorBody where
  code : Option Str
  message : Option Str

-- What `fetch` answers. `error` is the body's error object, if the body is JSON.
structure Response where
  ok : Bool
  status : Nat
  error : Option ErrorBody
  body : Option (List Bytes)
  broken : Bool

-- `streamChat` from the answer of its `fetch` on.
def streamChat (codec : JsonCodec) (res : Response) : Streamed :=
  match res.ok,res.body with
  | true,some reads => readLoop codec res.broken {} [] reads
  | _,_ =>
    let code := (res.error.bind (·.code)).getD "unknown_error".toList
    let message := (res.error.bind (·.message)).getD "Chat request failed".toList
    ⟨[],some (.api res.status code message)⟩

def asciiText (value : Bytes) : Str := value.map fun b => Char.ofNat b.toNat

def Ascii (text : Str) : Prop := ∀ c ∈ text, c.toNat < 128

-- One character after the other, not every character there is.
instance (text : Str) : Decidable (Ascii text) :=
  decidable_of_iff (text.all fun c => c.toNat < 128) (by simp only [List.all_eq_true,decide_eq_true_eq,Ascii])

theorem encode_ascii (plain : Ascii text) : asciiText (encode text) = text ∧ ∀ b ∈ encode text, b.toNat < 128 := by
  induction text with
  | nil => exact ⟨rfl,fun _ member => nomatch member⟩
  | cons c rest ih =>
    obtain ⟨text,bytes⟩ := ih fun other member => plain other (List.mem_cons_of_mem _ member)
    have small : c.val.toNat < 128 := plain c List.mem_cons_self
    have one : String.utf8EncodeChar c = [UInt8.ofNat c.val.toNat] := by
      unfold String.utf8EncodeChar
      exact if_pos (Nat.le_of_lt_succ small)
    have value : (UInt8.ofNat c.val.toNat).toNat = c.toNat := UInt8.toNat_ofNat_of_lt (by rw [UInt8.size]; omega)
    constructor
    · simp only [encode,asciiText] at text ⊢
      rw [List.flatMap_cons,one,List.singleton_append,List.map_cons,text,value,Char.ofNat_toNat]
    · intro b member
      rw [encode,List.flatMap_cons,one] at member
      rcases List.mem_cons.mp member with rfl | later
      · rw [value]; exact small
      · exact bytes b later

-- Between two sequences the decoder passes ASCII on as it is.
theorem bytes_ascii {d : TextDecoder} (ready : d.bytesNeeded = 0) (plain : ∀ b ∈ value, b.toNat < 128) :
    d.bytes value = (asciiText value,d) := by
  induction value with
  | nil => rfl
  | cons b rest ih =>
    have here : d.byte b = ([Char.ofNat b.toNat],d) := by
      simp [TextDecoder.byte,TextDecoder.lead,ready,plain b List.mem_cons_self]
    simp only [TextDecoder.bytes,here,ih fun other member => plain other (List.mem_cons_of_mem _ member)]
    rfl

theorem ascii_no_bom : ∀ n < 128, (Char.ofNat n).toNat ≠ 0xFEFF := by decide

theorem decode_ascii {d : TextDecoder} (ready : d.bytesNeeded = 0) (plain : ∀ b ∈ value, b.toNat < 128) :
    (d.decode value).1 = asciiText value ∧ (d.decode value).2.bytesNeeded = 0 := by
  unfold TextDecoder.decode
  rw [bytes_ascii ready plain]
  cases value with
  | nil => exact ⟨rfl,ready⟩
  | cons b rest =>
    have small : b.toNat < 128 := plain b List.mem_cons_self
    simp only [asciiText,List.map_cons,if_neg (ascii_no_bom _ small)]
    split <;> exact ⟨rfl,ready⟩

-- An event ends at the first blank line.
def blankLine : Framing.Splitter Char := Framing.delimited '\n' ['\n']

-- The frame holds a data line whose JSON is this value.
def Carries (codec : JsonCodec) (rawEvent : Str) (value : Json) : Prop :=
  ∃ line, dataLine rawEvent = some line ∧ codec.parse (line.drop dataPrefix.length) = some value

-- Where every complete frame carries a value, the inner loop yields them all and
-- keeps the unfinished rest.
theorem drainBuffer_frames (codec : JsonCodec) (buffer : Str)
    (carried : List.Forall₂ (Carries codec) (Framing.drain blankLine buffer).1 values) :
    drainBuffer codec buffer = (values,some (Framing.drain blankLine buffer).2) := by
  induction size : buffer.length using Nat.strongRecOn generalizing buffer values with
  | ind n ih =>
    cases found : Framing.indexOf "\n\n".toList buffer with
    | none =>
      have settled : blankLine.next buffer = none := by
        simp only [blankLine,Framing.delimited]
        exact Option.map_eq_none_iff.mpr found
      rw [Framing.drain_none settled] at carried ⊢
      cases carried
      rw [drainBuffer]
      split
      · rfl
      · rename_i other
        rw [found] at other
        cases other
    | some boundary =>
      have first : blankLine.next buffer = some (buffer.take boundary,buffer.drop (boundary + 2)) := by
        simp only [blankLine,Framing.delimited]
        exact Option.map_eq_some_iff.mpr ⟨boundary,found,rfl⟩
      rw [Framing.drain_some first] at carried ⊢
      cases carried with
      | cons here rest =>
        obtain ⟨line,data,parsed⟩ := here
        have later := ih _ (size ▸ blankLine.shrinks first) _ rest rfl
        rw [drainBuffer]
        split
        · rename_i other
          rw [found] at other
          cases other
        · rename_i other
          rw [found] at other
          cases other
          simp only [data,parsed,later]

theorem readLoop_frames {codec : JsonCodec} {decoder : TextDecoder} {buffer : Str} {reads : List Bytes} {values : List Json}
    (broken : Bool) (ready : decoder.bytesNeeded = 0) (plain : ∀ value ∈ reads, ∀ b ∈ value, b.toNat < 128)
    (carried : List.Forall₂ (Carries codec) (Framing.feed blankLine buffer (reads.map asciiText)).1 values) :
    readLoop codec broken decoder buffer reads = ⟨values,if broken then some .network else none⟩ := by
  induction reads generalizing decoder buffer values with
  | nil => cases carried; rfl
  | cons value rest ih =>
    obtain ⟨text,ready'⟩ := decode_ascii ready (plain value List.mem_cons_self)
    rw [List.map_cons,Framing.feed] at carried
    obtain ⟨here,later,firsts,rests,rfl⟩ := Fallible.forall₂_split carried
    have inner := drainBuffer_frames codec _ firsts
    have outer := ih ready' (fun other member => plain other (List.mem_cons_of_mem _ member)) rests
    simp only [readLoop,text,inner,outer]

-- What is assumed of the library on one value: its text is ASCII without a line
-- break, and JSON.parse reads the value back from it.
structure Plain (codec : JsonCodec) (value : Json) : Prop where
  ascii : Ascii (codec.dumps value)
  single_line : '\n' ∉ codec.dumps value
  inverse : codec.parse (codec.dumps value) = some value

def line (codec : JsonCodec) (event : Event) : Str := dataPrefix ++ codec.dumps (serializeEvent event)

section Wire
variable {codec : JsonCodec}

theorem line_single (plain : Plain codec (serializeEvent event)) : '\n' ∉ line codec event := by
  intro inside
  rcases List.mem_append.mp inside with first | json
  · exact absurd first (by decide)
  · exact plain.single_line json

theorem line_carries (plain : Plain codec (serializeEvent event)) : Carries codec (line codec event) (serializeEvent event) := by
  refine ⟨line codec event,?_,by rw [line,List.drop_left]; exact plain.inverse⟩
  rw [dataLine,List.splitOn_eq_singleton (line_single plain),List.find?_cons_of_pos]
  exact List.isPrefixOf_iff_prefix.mpr (List.prefix_append _ _)

theorem fixed_ascii : Ascii dataPrefix ∧ Ascii "\n\n".toList := by
  constructor <;> decide

theorem frame_ascii (plain : Plain codec (serializeEvent event)) : Ascii (frame codec event) := by
  intro c inside
  rcases List.mem_append.mp inside with front | last
  · rcases List.mem_append.mp front with first | json
    · exact fixed_ascii.1 c first
    · exact plain.ascii c json
  · exact fixed_ascii.2 c last

theorem sseStream_ascii {events : List Event} (plain : ∀ event ∈ events, Plain codec (serializeEvent event)) :
    asciiText (sseStream codec events) = (events.map (frame codec)).flatten ∧ ∀ b ∈ sseStream codec events, b.toNat < 128 := by
  induction events with
  | nil => exact ⟨rfl,fun _ member => nomatch member⟩
  | cons event rest ih =>
    obtain ⟨text,bytes⟩ := encode_ascii (frame_ascii (plain event List.mem_cons_self))
    obtain ⟨later,others⟩ := ih fun other member => plain other (List.mem_cons_of_mem _ member)
    constructor
    · simp only [sseStream,asciiText,List.map_cons,List.flatten_cons,List.map_append] at text later ⊢
      rw [text,later]
    · intro b member
      rcases List.mem_append.mp member with here | tail
      · exact bytes b here
      · exact others b tail

theorem frames_settled {events : List Event} (plain : ∀ event ∈ events, Plain codec (serializeEvent event)) {n : Nat} {tail : Str}
    (ends : tail = [] ∨ ∃ block, (events.map (frame codec))[n]? = some block ∧ tail <+: block ∧ tail.length < block.length) :
    blankLine.next tail = none := by
  rcases ends with rfl | ⟨block,at_,inside,short⟩
  · rfl
  · obtain ⟨event,member,rfl⟩ := List.mem_map.mp (List.mem_of_getElem? at_)
    exact Framing.delimited_unfinished (line_single (plain event member)) inside short

-- The events of the blocks the bytes hold completely, and no other.
theorem streamChat_received {events : List Event} {reads : List Bytes} (plain : ∀ event ∈ events, Plain codec (serializeEvent event))
    (status : Nat) (error : Option ErrorBody) (broken : Bool) (inside : reads.flatten <+: sseStream codec events) :
    ∃ n tail, n ≤ events.length ∧ asciiText reads.flatten = ((events.take n).map (frame codec)).flatten ++ tail ∧
      (tail = [] ∨ ∃ block, (events.map (frame codec))[n]? = some block ∧ tail <+: block ∧ tail.length < block.length) ∧
      streamChat codec ⟨true,status,error,some reads,broken⟩ =
        ⟨(events.take n).map serializeEvent,if broken then some .network else none⟩ := by
  obtain ⟨text,bytes⟩ := sseStream_ascii plain
  have cut : asciiText reads.flatten <+: (events.map (frame codec)).flatten := text ▸ inside.map _
  obtain ⟨n,tail,bound,split,ends⟩ := Framing.prefix_blocks _ _ cut
  rw [← List.map_take] at split
  refine ⟨n,tail,by simpa using bound,split,ends,?_⟩
  refine readLoop_frames broken rfl (fun value member b here => bytes b ?_) ?_
  · exact inside.subset (List.mem_flatten.mpr ⟨value,member,here⟩)
  · have known : ∀ event ∈ events.take n, Plain codec (serializeEvent event) :=
      fun event member => plain event (List.mem_of_mem_take member)
    have frames : (events.take n).map (frame codec) = ((events.take n).map (line codec)).map (· ++ "\n\n".toList) := by
      rw [List.map_map]
      rfl
    have drained := Framing.drain_lines ['\n'] ((events.take n).map (line codec)) ?_ (frames_settled plain ends)
    · have joined : (reads.map asciiText).flatten = asciiText reads.flatten := List.map_flatten.symm
      have all : Framing.drain blankLine (asciiText reads.flatten) = ((events.take n).map (line codec),tail) := by
        rw [split,frames]
        exact drained
      rw [Framing.feed_flatten rfl,List.nil_append,joined,all]
      exact List.forall₂_map_left_iff.mpr (List.forall₂_map_right_iff.mpr (List.forall₂_same.mpr fun event member => line_carries (known event member)))
    · intro text member
      obtain ⟨event,here,rfl⟩ := List.mem_map.mp member
      exact line_single (known event here)

theorem taken_mono (codec : JsonCodec) (events : List Event) (le : k ≤ m) :
    ((events.take k).map (frame codec)).flatten <+: ((events.take m).map (frame codec)).flatten := by
  have inside : events.take k <+: events.take m := List.take_prefix_take_left le
  exact Framing.prefix_flatten (inside.map _)

theorem taken_succ (codec : JsonCodec) (events : List Event) (at_ : (events.map (frame codec))[n]? = some block) :
    ((events.take (n + 1)).map (frame codec)).flatten = ((events.take n).map (frame codec)).flatten ++ block := by
  rw [List.map_take,List.take_add_one,at_,List.flatten_append,← List.map_take]
  simp

-- The decoder's events are those whose encoding has arrived completely.
theorem received_exactly {events : List Event} {reads : List Bytes} (plain : ∀ event ∈ events, Plain codec (serializeEvent event))
    (inside : reads.flatten <+: sseStream codec events) (bound : n ≤ events.length)
    (split : asciiText reads.flatten = ((events.take n).map (frame codec)).flatten ++ tail)
    (ends : tail = [] ∨ ∃ block, (events.map (frame codec))[n]? = some block ∧ tail <+: block ∧ tail.length < block.length)
    (within : k ≤ events.length) : sseStream codec (events.take k) <+: reads.flatten ↔ k ≤ n := by
  have known : ∀ event ∈ events.take k, Plain codec (serializeEvent event) :=
    fun event member => plain event (List.mem_of_mem_take member)
  obtain ⟨text,_⟩ := sseStream_ascii known
  have size : (sseStream codec (events.take k)).length = ((events.take k).map (frame codec)).flatten.length := by
    rw [← text,asciiText,List.length_map]
  have total : reads.flatten.length = ((events.take n).map (frame codec)).flatten.length + tail.length := by
    rw [← List.length_append,← split,asciiText,List.length_map]
  constructor
  · intro arrived
    by_contra beyond
    have later : n < events.length := by omega
    obtain ⟨block,at_⟩ : ∃ block, (events.map (frame codec))[n]? = some block :=
      ⟨_,List.getElem?_eq_getElem (by rwa [List.length_map])⟩
    have short : tail.length < block.length := by
      rcases ends with rfl | ⟨other,there,_,short⟩
      · obtain ⟨event,_,rfl⟩ := List.mem_map.mp (List.mem_of_getElem? at_)
        have end_ : "\n\n".toList.length = 2 := rfl
        rw [frame,List.length_append,end_]
        exact Nat.succ_pos _
      · rw [at_] at there
        cases there
        exact short
    have next := (taken_mono codec events (show n + 1 ≤ k by omega)).length_le
    rw [taken_succ codec events at_,List.length_append] at next
    have := arrived.length_le
    omega
  · intro le
    have whole : sseStream codec (events.take k) <+: sseStream codec events :=
      Framing.prefix_flatten ((List.take_prefix k events).map _)
    refine List.prefix_of_prefix_length_le whole inside ?_
    have := (taken_mono codec events le).length_le
    omega

end Wire

theorem index_nat (n : Nat) : asIndex (.number n) = some n := by
  simp [asIndex]

theorem readContext_json (chunk : ContextChunk) : readContext (contextJson chunk) = some chunk := by
  obtain ⟨chunk_id,document_id,document_filename,content,page_number,relevance_score⟩ := chunk
  cases page_number with
  | none => rfl
  | some page =>
    have read : asPage (.number page) = some (some page) := congrArg (Option.map some) (index_nat page)
    change (asPage (.number page)).bind (fun page_number => _) = _
    rw [read]
    rfl

theorem mapM_readContext (chunks : List ContextChunk) : (chunks.map contextJson).mapM readContext = some chunks := by
  apply mapM_some.mpr
  exact List.forall₂_map_left_iff.mpr (List.forall₂_same.mpr fun chunk _ => readContext_json chunk)

theorem mapM_index (indices : List Nat) : (indices.map fun (idx : Nat) => Json.number idx).mapM asIndex = some indices := by
  apply mapM_some.mpr
  exact List.forall₂_map_left_iff.mpr (List.forall₂_same.mpr fun idx _ => index_nat idx)

-- What the page reads off a sent event is the event.
theorem readEvent_serialize (event : Event) : readEvent (serializeEvent event) = received event := by
  cases event with
  | token text => rfl
  | error message => rfl
  | done message_id conversation_id context_chunks cited_indices =>
    change ((context_chunks.map contextJson).mapM readContext).bind (fun chunks =>
      ((cited_indices.map fun (idx : Nat) => Json.number idx).mapM asIndex).bind fun indices => _) = _
    rw [mapM_readContext]
    change ((cited_indices.map fun (idx : Nat) => Json.number idx).mapM asIndex).bind _ = _
    rw [mapM_index]
    rfl

theorem reads_back (events : List Event) : (events.map serializeEvent).map readEvent = events.map received := by
  rw [List.map_map]
  exact List.map_congr_left fun event _ => readEvent_serialize event

-- Whatever the network makes of the stream, `streamChat` yields the sent events,
-- and of a stream cut off somewhere those that arrived completely; the page reads
-- each yielded value back as the event it was made from.
theorem sse_round_trip (codec : JsonCodec) (events : List Event) (plain : ∀ event ∈ events, Plain codec (serializeEvent event))
    (reads : List Bytes) (status : Nat) (error : Option ErrorBody) (broken : Bool) :
    let streamed := streamChat codec ⟨true,status,error,some reads,broken⟩
    (reads.flatten = sseStream codec events →
      streamed = ⟨events.map serializeEvent,if broken then some .network else none⟩ ∧
        streamed.events.map readEvent = events.map received) ∧
    (reads.flatten <+: sseStream codec events → ∃ n ≤ events.length,
      streamed = ⟨(events.take n).map serializeEvent,if broken then some .network else none⟩ ∧
        streamed.events.map readEvent = (events.take n).map received ∧
      ∀ k ≤ events.length, sseStream codec (events.take k) <+: reads.flatten ↔ k ≤ n) := by
  constructor
  · intro whole
    have inside : reads.flatten <+: sseStream codec events := by simp [whole]
    obtain ⟨n,tail,bound,split,ends,yields⟩ := streamChat_received plain status error broken inside
    have all := received_exactly plain inside bound split ends (Nat.le_refl events.length)
    rw [List.take_length,whole] at all
    rw [List.take_of_length_le (all.mp List.prefix_rfl)] at yields
    exact ⟨yields,by rw [yields,reads_back]⟩
  · intro inside
    obtain ⟨n,tail,bound,split,ends,yields⟩ := streamChat_received plain status error broken inside
    exact ⟨n,bound,yields,by rw [yields,reads_back],fun k within => received_exactly plain inside bound split ends within⟩

-- Two tokens, the first with a blank line and a data line in its text, and the
-- library functions on them.
def tokens : List Event := [.token "One\n\ndata: ".toList,.token "two".toList]

def tokenDumps : Json → Str
  | .object ((_,.string text) :: _) =>
    "\x7b\"text\": \"".toList ++ text.flatMap (fun c => if c = '\n' then ['\\','n'] else [c]) ++
      "\", \"type\": \"token\"\x7d".toList
  | _ => []

def tokenCodec : JsonCodec where
  dumps := tokenDumps
  parse text := (tokens.map serializeEvent).find? fun value => tokenDumps value = text

-- Cut inside the first prefix and again inside the second JSON text.
def tokenReads : List Bytes :=
  [(sseStream tokenCodec tokens).take 4,((sseStream tokenCodec tokens).drop 4).take 60]

theorem tokens_received :
    (streamChat tokenCodec ⟨true,200,none,some tokenReads,false⟩).events.map readEvent = [some (.token "One\n\ndata: ".toList)] := by
  have plain : ∀ event ∈ tokens, Plain tokenCodec (serializeEvent event) := by
    intro event member
    rcases List.mem_cons.mp member with rfl | member
    · exact ⟨by decide,by decide,rfl⟩
    · rw [List.mem_singleton.mp member]
      exact ⟨by decide,by decide,rfl⟩
  obtain ⟨n,bound,_,read,exact_⟩ := (sse_round_trip tokenCodec tokens plain tokenReads 200 none false).2 (by decide +kernel)
  have one := (exact_ 1 (by decide)).mp (by decide +kernel)
  have two := (exact_ 2 (by decide)).not.mp (by decide +kernel)
  obtain rfl : n = 1 := by omega
  exact read

end RagForge.EventStream
