import RagForge.PyText

namespace RagForge
open PyText

structure ParsedPage where
  page_number : Nat
  text : Str

structure ParsedDocument where
  pages : List ParsedPage

-- `not text.strip()`
def blank (text : Str) : Bool := (strip text).isEmpty

namespace ParsedDocument

def fullText (document : ParsedDocument) : Str :=
  join ['\n','\n'] ((document.pages.filter fun p => !blank p.text).map (·.text))

def isEmpty (document : ParsedDocument) : Bool := blank document.fullText

end ParsedDocument

structure Chunk where
  chunk_index : Nat
  content : Str
  token_count : Nat
  page_number : Option Nat

def estimateTokens (text : Str) : Nat := max 1 (text.length / 4)

namespace RecursiveChunker

-- The two nested loops share `chunks` and the running `index`.
def chunkPieces (page_number : Nat) : List Str → List Chunk × Nat → List Chunk × Nat
  | [],state => state
  | piece :: rest,(chunks,index) =>
    if blank piece then chunkPieces page_number rest (chunks,index)
    else chunkPieces page_number rest
      (chunks ++ [⟨index,piece,estimateTokens piece,some page_number⟩],index + 1)

def chunkPages (splitText : Str → List Str) : List ParsedPage → List Chunk × Nat → List Chunk × Nat
  | [],state => state
  | page :: rest,state =>
    if blank page.text then chunkPages splitText rest state
    else chunkPages splitText rest (chunkPieces page.page_number (splitText page.text) state)

def chunk (splitText : Str → List Str) (document : ParsedDocument) : List Chunk :=
  (chunkPages splitText document.pages ([],0)).1

-- The pieces that are kept, each with the page it was split from.
def pagePieces (page_number : Nat) (pieces : List Str) : List (Nat × Str) :=
  (pieces.filter fun piece => !blank piece).map (page_number,·)

def pieces (splitText : Str → List Str) (pages : List ParsedPage) : List (Nat × Str) :=
  (pages.filter fun page => !blank page.text).flatMap fun page => pagePieces page.page_number (splitText page.text)

def numbered (index : Nat) (kept : List (Nat × Str)) : List Chunk :=
  kept.mapIdx fun i piece => ⟨index + i,piece.2,estimateTokens piece.2,some piece.1⟩

theorem numbered_cons (index : Nat) (piece : Nat × Str) (rest : List (Nat × Str)) :
    numbered index (piece :: rest) = ⟨index,piece.2,estimateTokens piece.2,some piece.1⟩ :: numbered (index + 1) rest := by
  simp only [numbered,List.mapIdx_cons,Nat.add_zero,Nat.add_assoc,Nat.add_comm 1]

theorem numbered_append (index : Nat) (first second : List (Nat × Str)) :
    numbered index (first ++ second) = numbered index first ++ numbered (index + first.length) second := by
  simp only [numbered,List.mapIdx_append,Nat.add_assoc,Nat.add_comm first.length]

theorem chunkPieces_state (page_number : Nat) (split : List Str) (chunks : List Chunk) (index : Nat) :
    chunkPieces page_number split (chunks,index) =
      (chunks ++ numbered index (pagePieces page_number split),index + (pagePieces page_number split).length) := by
  induction split generalizing chunks index with
  | nil => simp [chunkPieces,pagePieces,numbered]
  | cons piece rest ih =>
    unfold chunkPieces
    by_cases nothing : blank piece = true
    · simpa [pagePieces,nothing] using ih chunks index
    · have kept : pagePieces page_number (piece :: rest) = (page_number,piece) :: pagePieces page_number rest := by
        simp [pagePieces,nothing]
      rw [if_neg nothing,ih,kept,numbered_cons,List.length_cons,List.append_assoc]
      simp only [List.singleton_append,Nat.add_assoc,Nat.add_comm 1]

-- The index runs on from page to page.
theorem chunkPages_state (splitText : Str → List Str) (pages : List ParsedPage) (chunks : List Chunk) (index : Nat) :
    chunkPages splitText pages (chunks,index) =
      (chunks ++ numbered index (pieces splitText pages),index + (pieces splitText pages).length) := by
  induction pages generalizing chunks index with
  | nil => simp [chunkPages,pieces,numbered]
  | cons page rest ih =>
    unfold chunkPages
    by_cases nothing : blank page.text = true
    · simpa [pieces,nothing] using ih chunks index
    · have kept : pieces splitText (page :: rest) = pagePieces page.page_number (splitText page.text) ++ pieces splitText rest := by
        simp [pieces,nothing]
      rw [if_neg nothing,chunkPieces_state,ih,kept,numbered_append,List.length_append,List.append_assoc,Nat.add_assoc]

theorem chunk_numbered (splitText : Str → List Str) (document : ParsedDocument) :
    chunk splitText document = numbered 0 (pieces splitText document.pages) := by
  rw [chunk,chunkPages_state,List.nil_append]

-- Every piece with text in it becomes a chunk, in order, and nothing else does.
theorem chunk_exact (splitText : Str → List Str) (document : ParsedDocument) :
    ((chunk splitText document).map fun c => (c.page_number,c.content)) =
      ((document.pages.filter fun page => !blank page.text).flatMap fun page =>
        ((splitText page.text).filter fun piece => !blank piece).map (some page.page_number,·)) ∧
    (chunk splitText document).map (·.chunk_index) = List.range (chunk splitText document).length ∧
    ∀ c ∈ chunk splitText document, 1 ≤ c.token_count := by
  rw [chunk_numbered]
  refine ⟨?_,?_,?_⟩
  · have named : (numbered 0 (pieces splitText document.pages)).map (fun c => (c.page_number,c.content)) =
        (pieces splitText document.pages).map fun piece => (some piece.1,piece.2) := by
      apply List.ext_getElem?
      intro i
      simp [numbered,Function.comp_def]
    rw [named]
    simp [pieces,pagePieces,List.map_flatMap,Function.comp_def]
  · apply List.ext_getElem?
    intro i
    by_cases inside : i < (pieces splitText document.pages).length <;> simp [numbered,inside]
  · intro c member
    obtain ⟨i,piece,_,rfl⟩ := List.mem_mapIdx.mp member
    exact Nat.le_max_left _ _

end RecursiveChunker
end RagForge
