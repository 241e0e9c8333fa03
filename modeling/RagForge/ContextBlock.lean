import RagForge.ChatService
import RagForge.Decimal
import RagForge.Delimiter

namespace RagForge.ContextBlock
open RagForge ChatService PyText Delimiter

def shown (chunk : ContextChunk) : Str × Option Nat × Str := (chunk.document_filename,chunk.page_number,chunk.content)

-- Page numbers are absent or start at 1.
def Numbered (page_number : Option Nat) : Prop := ∀ n, page_number = some n → 1 ≤ n

def pageText (page_number : Option Nat) : Str := page_number.elim [] fun n => ", page ".toList ++ Nat.toDigits 10 n

theorem pageText_none : pageText none = [] := rfl

theorem pageText_some (n : Nat) : pageText (some n) = ", page ".toList ++ Nat.toDigits 10 n := rfl

-- From the quote behind the filename to the end of the header's line.
def headerEnd (page_number : Option Nat) : Str := '"' :: (pageText page_number ++ [')','\n'])

def opening (number : Nat) : Str := "[".toList ++ Nat.toDigits 10 number ++ "] (from \"".toList

-- No header could end in the text.
def Clean (text : Str) : Prop := ∀ page_number, Numbered page_number → ¬ headerEnd page_number <:+: text

-- No other list of chunks has the same context block.
def Unambiguous (chunks : List ContextChunk) : Prop :=
  ∀ others : List ContextChunk, (∀ c ∈ others, Numbered c.page_number) →
    buildRagContextBlock others = buildRagContextBlock chunks → others.map shown = chunks.map shown

theorem excerpt_eq (number : Nat) {chunk : ContextChunk} (numbered : Numbered chunk.page_number) :
    excerpt number chunk = opening number ++ (chunk.document_filename ++ (headerEnd chunk.page_number ++ chunk.content)) := by
  have quote : "\"".toList = ['"'] := rfl
  have close : ")\n".toList = [')','\n'] := rfl
  unfold excerpt headerEnd opening
  rw [quote,close]
  cases page : chunk.page_number with
  | none => simp only [pageText_none,List.append_assoc,List.nil_append,List.cons_append]
  | some n =>
    cases n with
    | zero => exact absurd (numbered 0 page) (by decide)
    | succ n => simp only [pageText_some,List.append_assoc,List.nil_append,List.cons_append]

theorem pageText_plain {c : Char} (other : c.isDigit = false) (outside : c ∉ ", page ".toList) (page_number : Option Nat) :
    c ∉ pageText page_number := by
  cases page_number with
  | none => exact List.not_mem_nil
  | some n =>
    intro member
    rcases List.mem_append.mp member with text | digit
    · exact outside text
    · exact Decimal.not_mem_toDigits other n digit

theorem headerEnd_marked (page_number : Option Nat) : Marked '"' '\n' (headerEnd page_number) := by
  have plain {c : Char} (other : c.isDigit = false) (outside : c ∉ ", page ".toList) (apart : c ∉ [')']) :
      c ∉ pageText page_number ++ [')'] := by
    intro member
    rcases List.mem_append.mp member with page | parenthesis
    · exact pageText_plain other outside page_number page
    · exact apart parenthesis
  refine ⟨⟨pageText page_number ++ [')'],by simp [headerEnd],?_,?_⟩,by decide⟩
  · exact plain (by decide) (by decide) (by decide)
  · exact plain (by decide) (by decide) (by decide)

theorem headerEnd_injective (same : headerEnd a = headerEnd b) : a = b := by
  have pages : pageText a = pageText b := List.append_cancel_right (List.cons.inj same).2
  cases a with
  | none =>
    cases b with
    | none => rfl
    | some n => cases pages
  | some m =>
    cases b with
    | none => cases pages
    | some n =>
      rw [pageText_some,pageText_some] at pages
      rw [Decimal.toDigits_injective (List.append_cancel_left pages)]

theorem headerEnd_some (page_number : Option Nat) : headerEnd page_number ≠ [] := List.cons_ne_nil _ _

theorem block_single (chunk : ContextChunk) : buildRagContextBlock [chunk] = excerpt 1 chunk := rfl

-- The excerpts behind the first one, with the separators before them.
def following (chunk : ContextChunk) (rest : List ContextChunk) : Str :=
  "\n\n".toList ++ join "\n\n".toList ((chunk :: rest).mapIdx fun i c => excerpt (i + 2) c)

-- The first excerpt with all the others in its content.
def merged (first chunk : ContextChunk) (rest : List ContextChunk) : ContextChunk :=
  {first with content := first.content ++ following chunk rest}

theorem block_merged (first chunk : ContextChunk) (rest : List ContextChunk) :
    buildRagContextBlock (first :: chunk :: rest) = buildRagContextBlock [merged first chunk rest] := by
  rw [block_single]
  simp [buildRagContextBlock,List.mapIdx_cons,join,merged,excerpt,following]

theorem join_starts (sep part : Str) (rest : List Str) : part <+: join sep (part :: rest) := by
  cases rest with
  | nil => exact List.prefix_rfl
  | cons next rest =>
    rw [join,List.append_assoc]
    · exact List.prefix_append _ _
    · exact List.cons_ne_nil _ _

-- The second header ends in what follows the first excerpt.
theorem following_header {chunk : ContextChunk} (numbered : Numbered chunk.page_number) (rest : List ContextChunk) :
    headerEnd chunk.page_number <:+: following chunk rest := by
  have inside : headerEnd chunk.page_number <:+: excerpt 2 chunk := by
    rw [excerpt_eq 2 numbered]
    exact ⟨opening 2 ++ chunk.document_filename,chunk.content,by simp only [List.append_assoc]⟩
  unfold following
  rw [List.mapIdx_cons]
  exact (inside.trans (join_starts _ _ _).isInfix).trans (List.suffix_append _ _).isInfix

theorem block_some {first : ContextChunk} (numbered : Numbered first.page_number) (rest : List ContextChunk) :
    buildRagContextBlock (first :: rest) ≠ [] := by
  intro nothing
  have starts := join_starts "\n\n".toList (excerpt 1 first) (rest.mapIdx fun i c => excerpt (i + 2) c)
  unfold buildRagContextBlock at nothing
  rw [List.mapIdx_cons] at nothing
  have none_ : excerpt 1 first = [] := List.prefix_nil.mp (nothing ▸ starts)
  rw [excerpt_eq 1 numbered,headerEnd] at none_
  exact absurd none_ (by simp)

theorem single_readings {c d : ContextChunk} (numbered : Numbered c.page_number) (numbered' : Numbered d.page_number)
    (same : excerpt 1 d = excerpt 1 c) : shown d = shown c ∨ ¬ Clean c.document_filename ∨ ¬ Clean c.content := by
  rw [excerpt_eq 1 numbered,excerpt_eq 1 numbered'] at same
  rcases (headerEnd_marked c.page_number).readings (headerEnd_marked d.page_number) (List.append_cancel_left same).symm with
    ⟨filename,page,content⟩ | inside | inside
  · refine .inl ?_
    rw [shown,shown,filename,headerEnd_injective page,content]
  · exact .inr (.inl fun clean => clean _ numbered' inside)
  · exact .inr (.inr fun clean => clean _ numbered' inside)

theorem clean_unambiguous {c : ContextChunk} (numbered : Numbered c.page_number) (filename : Clean c.document_filename)
    (content : Clean c.content) : Unambiguous [c] := by
  intro others numbers same
  match others with
  | [] => exact absurd same.symm (block_some numbered [])
  | [d] =>
    rcases single_readings numbered (numbers d List.mem_cons_self) same with same | filename' | content'
    · rw [List.map_singleton,List.map_singleton,same]
    · exact absurd filename filename'
    · exact absurd content content'
  | d :: next :: rest =>
    -- the first of them with all the others in its content is read as `c` is
    have numbered' := numbers next (List.mem_cons_of_mem _ List.mem_cons_self)
    rw [block_merged] at same
    rcases single_readings numbered (d := merged d next rest) (numbers d List.mem_cons_self) same with same | filename' | content'
    · have contents : d.content ++ following next rest = c.content := congrArg (fun fields => fields.2.2) same
      refine absurd ?_ (content _ numbered')
      rw [← contents]
      exact (following_header numbered' rest).trans (List.suffix_append _ _).isInfix
    · exact absurd filename filename'
    · exact absurd content content'

theorem unclean_ambiguous {c : ContextChunk} (numbered : Numbered c.page_number)
    (unclean : ¬ Clean c.document_filename ∨ ¬ Clean c.content) : ¬ Unambiguous [c] := by
  obtain ⟨page_number,numbered',inside⟩ : ∃ page_number, Numbered page_number ∧
      (headerEnd page_number <:+: c.document_filename ∨ headerEnd page_number <:+: c.content) := by
    simp only [Clean,not_forall,not_not] at unclean
    rcases unclean with ⟨page_number,numbered',inside⟩ | ⟨page_number,numbered',inside⟩
    · exact ⟨page_number,numbered',.inl inside⟩
    · exact ⟨page_number,numbered',.inr inside⟩
  obtain ⟨filename,content,other,same⟩ := other_reading (headerEnd_some c.page_number) (headerEnd_some page_number) inside
  intro unambiguous
  let d : ContextChunk := {c with document_filename := filename,page_number := page_number,content := content}
  have blocks : buildRagContextBlock [d] = buildRagContextBlock [c] := by
    rw [block_single,block_single,excerpt_eq 1 numbered,excerpt_eq 1 (show Numbered d.page_number from numbered')]
    exact congrArg (opening 1 ++ ·) same
  have equal := unambiguous [d] (fun _ member => List.mem_singleton.mp member ▸ numbered') blocks
  exact other (congrArg Prod.fst (List.cons.inj equal).1)

theorem several_ambiguous (first chunk : ContextChunk) (rest : List ContextChunk) (numbered : Numbered first.page_number) :
    ¬ Unambiguous (first :: chunk :: rest) := by
  intro unambiguous
  have equal := unambiguous [merged first chunk rest] (fun _ member => List.mem_singleton.mp member ▸ numbered)
    (block_merged first chunk rest).symm
  exact absurd (congrArg List.length equal) (by simp)

theorem unambiguous_iff (chunks : List ContextChunk) (numbered : ∀ c ∈ chunks, Numbered c.page_number) :
    Unambiguous chunks ↔ chunks = [] ∨ ∃ c, chunks = [c] ∧ Clean c.document_filename ∧ Clean c.content := by
  match chunks with
  | [] =>
    refine iff_of_true (fun others numbers same => ?_) (.inl rfl)
    match others with
    | [] => rfl
    | first :: rest => exact absurd same (block_some (numbers first List.mem_cons_self) rest)
  | [c] =>
    have numbered' := numbered c List.mem_cons_self
    constructor
    · intro unambiguous
      by_contra unclean
      refine unclean_ambiguous numbered' ?_ unambiguous
      by_cases filename : Clean c.document_filename
      · exact .inr fun content => unclean (.inr ⟨c,rfl,filename,content⟩)
      · exact .inl filename
    · rintro (none_ | ⟨d,single,filename,content⟩)
      · cases none_
      · cases single
        exact clean_unambiguous numbered' filename content
  | first :: chunk :: rest =>
    refine iff_of_false (several_ambiguous first chunk rest (numbered first List.mem_cons_self)) ?_
    rintro (none_ | ⟨c,single,_⟩)
    · cases none_
    · cases single

-- One uploaded text with a page, and another one.
theorem two_excerpts_ambiguous : ¬ Unambiguous [⟨[],[],"a.pdf".toList,"Alpha".toList,some 3,1⟩,⟨[],[],"b.txt".toList,"Beta".toList,none,1⟩] := by
  intro unambiguous
  rcases (unambiguous_iff [⟨[],[],"a.pdf".toList,"Alpha".toList,some 3,1⟩,⟨[],[],"b.txt".toList,"Beta".toList,none,1⟩] (by
    intro c member n page
    simp only [List.mem_cons,List.not_mem_nil,or_false] at member
    rcases member with rfl | rfl
    · cases page; decide
    · cases page)).mp unambiguous with none_ | ⟨_,single,_⟩
  · cases none_
  · cases single

-- A text whose last paragraph looks like the next excerpt.
theorem imitated_header : ¬ ∀ chunks others : List ContextChunk, (∀ c ∈ chunks, Numbered c.page_number) →
    (∀ c ∈ others, Numbered c.page_number) → buildRagContextBlock others = buildRagContextBlock chunks →
    others.map shown = chunks.map shown := by
  intro all
  have same := all [⟨[],[],"a.txt".toList,"Alpha".toList,none,1⟩,⟨[],[],"b.txt".toList,"Beta".toList,none,1⟩]
    [⟨[],[],"a.txt".toList,"Alpha\n\n[2] (from \"b.txt\")\nBeta".toList,none,1⟩]
    (by simp [Numbered]) (by simp [Numbered]) (by decide)
  exact absurd (congrArg List.length same) (by decide)

end RagForge.ContextBlock
