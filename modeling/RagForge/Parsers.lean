import RagForge.EventStream
import RagForge.Ingestion

namespace RagForge.Parsers
open RagForge PyText EventStream

-- What `pdf2image` and `pytesseract` do with one page.
inductive Ocr where
  | missing
  | raised
  | image (text : Option Str)

-- The third-party readers, with what each finds in a file.
structure Readers where
  pdfPages : Bytes → Except Failure (List (Option Str))
  ocr : Bytes → Nat → Ocr
  docx : Bytes → Except Failure (List Str × List (List (List Str)))
  htmlText : Bytes → Except Failure Str
  markdownText : Str → Except Failure Str

-- `file_bytes.decode("utf-8", errors="replace")`. A sequence that the end of the
-- file cuts short is one U+FFFD; a BOM is a character like any other.
def decode (file_bytes : Bytes) : Str :=
  match TextDecoder.bytes {} file_bytes with
  | (text,decoder) => if decoder.bytesNeeded = 0 then text else text ++ [TextDecoder.replacement]

def onePage (text : Str) : ParsedDocument := ⟨[⟨1,text⟩]⟩

def _MIN_CHARS_BEFORE_OCR_FALLBACK : Nat := 10

-- OCR without its libraries, without an image or with an error has no text.
def ocrPage (readers : Readers) (file_bytes : Bytes) (page_number : Nat) : Str :=
  match readers.ocr file_bytes page_number with
  | .image (some text) => text
  | _ => []

-- The body of the loop over `pdf.pages`.
def pageText (readers : Readers) (file_bytes : Bytes) (i : Nat) (extracted : Option Str) : Str :=
  let text := strip (extracted.getD [])
  if text.length < _MIN_CHARS_BEFORE_OCR_FALLBACK then
    let ocr_text := strip (ocrPage readers file_bytes i)
    if ocr_text.isEmpty then text else ocr_text
  else text

def PDFParser (readers : Readers) (file_bytes : Bytes) : Except Failure ParsedDocument := do
  let pages ← readers.pdfPages file_bytes
  pure ⟨pages.mapIdx fun i page => ⟨i + 1,pageText readers file_bytes (i + 1) page⟩⟩

def rowText (row : List Str) : Option Str :=
  let cells := row.map strip
  if cells.any (!·.isEmpty) then some (join " | ".toList cells) else none

def docxText (paragraphs : List Str) (tables : List (List (List Str))) : Str :=
  join ['\n'] (paragraphs.filter (!blank ·) ++ tables.flatMap (·.filterMap rowText))

def DocxParser (readers : Readers) (file_bytes : Bytes) : Except Failure ParsedDocument := do
  let (paragraphs,tables) ← readers.docx file_bytes
  pure (onePage (docxText paragraphs tables))

-- The line boundaries of `str.splitlines`, besides "\r\n".
def lineBreak (c : Char) : Bool :=
  c.toNat ∈ [0x0A,0x0B,0x0C,0x0D,0x1C,0x1D,0x1E,0x85,0x2028,0x2029]

def splitlines : Str → List Str
  | [] => []
  | '\r' :: '\n' :: rest => [] :: splitlines rest
  | c :: rest =>
    if lineBreak c then [] :: splitlines rest
    else match splitlines rest with
      | [] => [[c]]
      | line :: lines => (c :: line) :: lines

def cleaned (text : Str) : Str := join ['\n'] (((splitlines text).map strip).filter (!·.isEmpty))

def HTMLParser (readers : Readers) (file_bytes : Bytes) : Except Failure ParsedDocument := do
  let text ← readers.htmlText file_bytes
  pure (onePage (cleaned text))

def MarkdownParser (readers : Readers) (file_bytes : Bytes) : Except Failure ParsedDocument := do
  let text ← readers.markdownText (decode file_bytes)
  pure (onePage text)

def PlainTextParser (file_bytes : Bytes) : Except Failure ParsedDocument := pure (onePage (decode file_bytes))

-- `_parsers`: each with its `supported_mime_types`, asked in this order.
def _parsers (readers : Readers) : List (List Str × (Bytes → Except Failure ParsedDocument)) :=
  [(["application/pdf".toList],PDFParser readers),
   (["application/vnd.openxmlformats-officedocument.wordprocessingml.document".toList],DocxParser readers),
   (["text/html".toList],HTMLParser readers),
   (["text/markdown".toList,"text/x-markdown".toList],MarkdownParser readers),
   (["text/plain".toList],PlainTextParser)]

def getParserForMimeType (readers : Readers) (mime_type : Str) : Except Failure (Bytes → Except Failure ParsedDocument) :=
  match (_parsers readers).find? fun parser => parser.1.contains mime_type with
  | some parser => .ok parser.2
  | none => .error (Ingestion.terminal ("Unsupported file type: ".toList ++ mime_type))

-- `get_parser_for_mime_type(mime_type)` and its `parse`.
def parse (readers : Readers) (mime_type : Str) (file_bytes : Bytes) : Except Failure ParsedDocument := do
  (← getParserForMimeType readers mime_type) file_bytes

theorem bytes_append (d : TextDecoder) (first second : Bytes) : d.bytes (first ++ second) =
    ((d.bytes first).1 ++ ((d.bytes first).2.bytes second).1,((d.bytes first).2.bytes second).2) := by
  induction first generalizing d with
  | nil => rfl
  | cons b rest ih => simp only [List.cons_append,TextDecoder.bytes,ih,List.append_assoc]

theorem byte_more {d : TextDecoder} {b : UInt8} (needs : d.bytesNeeded = n + 2) (low : d.lower ≤ b.toNat) (high : b.toNat ≤ d.upper) :
    d.byte b = ([],⟨d.codePoint * 64 + (b.toNat - 0x80),n + 1,0x80,0xBF,d.bomSeen⟩) := by
  simp [TextDecoder.byte,needs,Nat.not_lt.mpr low,Nat.not_lt.mpr high]

theorem byte_last {d : TextDecoder} {b : UInt8} (needs : d.bytesNeeded = 1) (low : d.lower ≤ b.toNat) (high : b.toNat ≤ d.upper) :
    d.byte b = ([Char.ofNat (d.codePoint * 64 + (b.toNat - 0x80))],{bomSeen := d.bomSeen}) := by
  simp [TextDecoder.byte,needs,Nat.not_lt.mpr low,Nat.not_lt.mpr high]

theorem toNat_small (small : n < 256) : (UInt8.ofNat n).toNat = n := UInt8.toNat_ofNat_of_lt small

theorem scalar (c : Char) : c.val.toNat < 0xD800 ∨ 0xDFFF < c.val.toNat ∧ c.val.toNat < 0x110000 := c.valid

-- The first byte of a sequence of two, three and four.
theorem lead_two (low : 0xC2 ≤ n) (high : n ≤ 0xDF) : TextDecoder.byte {} (UInt8.ofNat n) = ([],⟨n - 0xC0,1,0x80,0xBF,false⟩) := by
  rw [TextDecoder.byte,toNat_small (by omega)]
  simp [TextDecoder.lead,low,high,show ¬ n < 0x80 by omega]

theorem lead_three (low : 0xE0 ≤ n) (high : n ≤ 0xEF) : TextDecoder.byte {} (UInt8.ofNat n) =
    ([],⟨n - 0xE0,2,if n = 0xE0 then 0xA0 else 0x80,if n = 0xED then 0x9F else 0xBF,false⟩) := by
  rw [TextDecoder.byte,toNat_small (by omega)]
  simp [TextDecoder.lead,low,high,show ¬ n < 0x80 by omega,show ¬ n ≤ 0xDF by omega]

theorem lead_four (low : 0xF0 ≤ n) (high : n ≤ 0xF4) : TextDecoder.byte {} (UInt8.ofNat n) =
    ([],⟨n - 0xF0,3,if n = 0xF0 then 0x90 else 0x80,if n = 0xF4 then 0x8F else 0xBF,false⟩) := by
  rw [TextDecoder.byte,toNat_small (by omega)]
  simp [TextDecoder.lead,low,high,show ¬ n < 0x80 by omega,show ¬ n ≤ 0xDF by omega,show ¬ n ≤ 0xEF by omega]

-- The decoder reads back what one character is encoded as.
theorem bytes_char (c : Char) : TextDecoder.bytes {} (String.utf8EncodeChar c) = ([c],{}) := by
  have valid := scalar c
  have same : Char.ofNat c.val.toNat = c := Char.ofNat_toNat c
  unfold String.utf8EncodeChar
  generalize c.val.toNat = v at valid same
  dsimp only
  split
  · rename_i one
    have here : TextDecoder.byte {} (UInt8.ofNat v) = ([c],{}) := by
      rw [TextDecoder.byte,toNat_small (by omega),← same]
      simp [TextDecoder.lead,show v < 0x80 by omega]
    simp [TextDecoder.bytes,here]
  · split
    · rename_i two
      have last : (UInt8.ofNat (v % 0x40 + 0x80)).toNat = v % 0x40 + 0x80 := toNat_small (by omega)
      have value : (v / 64 % 0x20 + 0xC0 - 0xC0) * 64 + (v % 0x40 + 0x80 - 0x80) = v := by omega
      simp only [TextDecoder.bytes,lead_two (show 0xC2 ≤ v / 64 % 0x20 + 0xC0 by omega) (by omega)]
      rw [byte_last rfl (by dsimp only; omega) (by dsimp only; omega),last,value,same]
      rfl
    · split
      · rename_i three
        have second : (UInt8.ofNat (v / 64 % 0x40 + 0x80)).toNat = v / 64 % 0x40 + 0x80 := toNat_small (by omega)
        have last : (UInt8.ofNat (v % 0x40 + 0x80)).toNat = v % 0x40 + 0x80 := toNat_small (by omega)
        have value : ((v / 4096 % 0x10 + 0xE0 - 0xE0) * 64 + (v / 64 % 0x40 + 0x80 - 0x80)) * 64 + (v % 0x40 + 0x80 - 0x80) = v := by omega
        simp only [TextDecoder.bytes,lead_three (show 0xE0 ≤ v / 4096 % 0x10 + 0xE0 by omega) (by omega)]
        rw [byte_more rfl (by dsimp only; split <;> omega) (by dsimp only; split <;> omega),
          byte_last rfl (by dsimp only; omega) (by dsimp only; omega),second,last,value,same]
        rfl
      · rename_i four
        have second : (UInt8.ofNat (v / 4096 % 0x40 + 0x80)).toNat = v / 4096 % 0x40 + 0x80 := toNat_small (by omega)
        have third : (UInt8.ofNat (v / 64 % 0x40 + 0x80)).toNat = v / 64 % 0x40 + 0x80 := toNat_small (by omega)
        have last : (UInt8.ofNat (v % 0x40 + 0x80)).toNat = v % 0x40 + 0x80 := toNat_small (by omega)
        have value : (((v / 262144 % 0x08 + 0xF0 - 0xF0) * 64 + (v / 4096 % 0x40 + 0x80 - 0x80)) * 64 + (v / 64 % 0x40 + 0x80 - 0x80)) * 64 +
            (v % 0x40 + 0x80 - 0x80) = v := by omega
        simp only [TextDecoder.bytes,lead_four (show 0xF0 ≤ v / 262144 % 0x08 + 0xF0 by omega) (by omega)]
        rw [byte_more rfl (by dsimp only; split <;> omega) (by dsimp only; split <;> omega),
          byte_more rfl (by dsimp only; omega) (by dsimp only; omega),
          byte_last rfl (by dsimp only; omega) (by dsimp only; omega),second,third,last,value,same]
        rfl

theorem decode_encode (text : Str) : decode (encode text) = text := by
  have whole : TextDecoder.bytes {} (encode text) = (text,{}) := by
    induction text with
    | nil => rfl
    | cons c rest ih =>
      rw [encode,List.flatMap_cons,bytes_append,bytes_char]
      dsimp only
      rw [encode] at ih
      rw [ih]
      rfl
  rw [decode,whole]
  rfl

theorem get_parser_parts (found : getParserForMimeType readers mime_type = .ok parser) :
    ∃ pair ∈ _parsers readers, mime_type ∈ pair.1 ∧ pair.2 = parser := by
  unfold getParserForMimeType at found
  split at found
  · rename_i pair here
    cases found
    exact ⟨pair,List.mem_of_find?_eq_some here,List.contains_iff_mem.mp (List.find?_some here :),rfl⟩
  · cases found

-- An upload is let in exactly if there is a parser for it.
theorem get_parser_iff (readers : Readers) (mime_type : Str) :
    (∃ parser, getParserForMimeType readers mime_type = .ok parser) ↔ Ingestion.isSupportedMimeType mime_type = true := by
  have same : Ingestion.supportedMimeTypes = (_parsers readers).flatMap Prod.fst := rfl
  rw [Ingestion.isSupportedMimeType,same,List.contains_iff_mem,List.mem_flatMap]
  constructor
  · rintro ⟨parser,found⟩
    obtain ⟨pair,listed,supports,_⟩ := get_parser_parts found
    exact ⟨pair,listed,supports⟩
  · rintro ⟨pair,listed,supports⟩
    obtain ⟨first,here⟩ : ∃ first, (_parsers readers).find? (fun parser => parser.1.contains mime_type) = some first :=
      Option.isSome_iff_exists.mp (List.find?_isSome.mpr ⟨pair,listed,List.contains_iff_mem.mpr supports⟩)
    exact ⟨first.2,by rw [getParserForMimeType,here]⟩

-- Page `n` of a file, as its own kind of parser makes it out.
inductive PageOf (readers : Readers) (mime_type : Str) (file_bytes : Bytes) : Nat → Str → Prop where
  | pdf : mime_type = "application/pdf".toList → readers.pdfPages file_bytes = .ok pages → pages[n]? = some page →
      PageOf readers mime_type file_bytes (n + 1) (pageText readers file_bytes (n + 1) page)
  | docx : mime_type = "application/vnd.openxmlformats-officedocument.wordprocessingml.document".toList →
      readers.docx file_bytes = .ok (paragraphs,tables) → PageOf readers mime_type file_bytes 1 (docxText paragraphs tables)
  | html : mime_type = "text/html".toList → readers.htmlText file_bytes = .ok text →
      PageOf readers mime_type file_bytes 1 (cleaned text)
  | markdown : mime_type ∈ ["text/markdown".toList,"text/x-markdown".toList] →
      readers.markdownText (decode file_bytes) = .ok text → PageOf readers mime_type file_bytes 1 text
  | plain : mime_type = "text/plain".toList → PageOf readers mime_type file_bytes 1 (decode file_bytes)

theorem mem_onePage (member : page ∈ (onePage text).pages) : page.page_number = 1 ∧ page.text = text := by
  cases List.mem_singleton.mp member
  exact ⟨rfl,rfl⟩

-- Every page of a parsed document is a page of the file, under its own number.
theorem parse_pages (parsed : parse readers mime_type file_bytes = .ok document) (member : page ∈ document.pages) :
    PageOf readers mime_type file_bytes page.page_number page.text := by
  obtain ⟨parser,found,ran⟩ := Fallible.bind_ok.mp parsed
  obtain ⟨pair,listed,supports,rfl⟩ := get_parser_parts found
  simp only [_parsers,List.mem_cons,List.not_mem_nil,or_false] at listed
  rcases listed with rfl | rfl | rfl | rfl | rfl
  · obtain ⟨pages,read,built⟩ := Fallible.bind_ok.mp ran
    cases built
    obtain ⟨n,bound,rfl⟩ := List.mem_mapIdx.mp member
    exact .pdf (List.mem_singleton.mp supports) read (List.getElem?_eq_getElem bound)
  · obtain ⟨⟨paragraphs,tables⟩,read,built⟩ := Fallible.bind_ok.mp ran
    cases built
    obtain ⟨number,text⟩ := mem_onePage member
    rw [number,text]
    exact .docx (List.mem_singleton.mp supports) read
  · obtain ⟨text,read,built⟩ := Fallible.bind_ok.mp ran
    cases built
    obtain ⟨number,same⟩ := mem_onePage member
    rw [number,same]
    exact .html (List.mem_singleton.mp supports) read
  · obtain ⟨text,read,built⟩ := Fallible.bind_ok.mp ran
    cases built
    obtain ⟨number,same⟩ := mem_onePage member
    rw [number,same]
    exact .markdown supports read
  · cases ran
    obtain ⟨number,same⟩ := mem_onePage member
    rw [number,same]
    exact .plain (List.mem_singleton.mp supports)

-- A text file in UTF-8 has one page, and that is the text.
theorem PageOf.utf8 (shown : PageOf readers "text/plain".toList (encode text) n page) : n = 1 ∧ page = text := by
  cases shown with
  | pdf kind => exact absurd kind (by decide)
  | docx kind => exact absurd kind (by decide)
  | html kind => exact absurd kind (by decide)
  | markdown kind => exact absurd kind (by decide)
  | plain => exact ⟨rfl,decode_encode text⟩

end RagForge.Parsers
