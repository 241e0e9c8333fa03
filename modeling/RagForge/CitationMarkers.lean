import RagForge.ChatService
import RagForge.MessageContent

namespace RagForge.CitationMarkers
open RagForge PyText ChatService MessageContent Js
variable {γ : Type}

structure DoneEvent (γ : Type) where
  context_chunks : JsArray γ
  cited_indices : List Nat

-- The loop of `sendMessage` over `event.cited_indices`.
def citationsByIndex (event : DoneEvent γ) : CitationMap γ :=
  event.cited_indices.foldl (fun map (idx : Nat) => match event.context_chunks.get ((idx : Int) - 1) with
    | some chunk => map.set idx chunk
    | none => map) []

theorem get_set (map : CitationMap γ) (key : Nat) (chunk : γ) : ((map.set key chunk).get (some i)).isSome ↔ i = key ∨ (map.get (some i)).isSome := by
  simp only [CitationMap.set,CitationMap.get,Option.bind_some,Option.isSome_map,List.find?_isSome,List.mem_append,List.mem_filter,
    List.mem_singleton,decide_eq_true_eq]
  constructor
  · rintro ⟨pair,⟨old,_⟩ | rfl,same⟩
    · exact .inr ⟨pair,old,same⟩
    · exact .inl same.symm
  · rintro (rfl | ⟨pair,old,same⟩)
    · exact ⟨_,.inr rfl,rfl⟩
    · by_cases equal : pair.1 = key
      · exact ⟨(key,chunk),.inr rfl,equal.symm.trans same⟩
      · exact ⟨pair,.inl ⟨old,equal⟩,same⟩

-- The map of an event has an entry for each cited index that is a position.
theorem citationsByIndex_get {event : DoneEvent γ} (inside : ∀ idx ∈ event.cited_indices, 1 ≤ idx ∧ idx ≤ event.context_chunks.items.length) :
    ((citationsByIndex event).get (some i)).isSome ↔ i ∈ event.cited_indices := by
  have folded : ∀ (indices : List Nat) (map : CitationMap γ), (∀ idx ∈ indices, 1 ≤ idx ∧ idx ≤ event.context_chunks.items.length) →
      (((indices.foldl (fun map (idx : Nat) => match event.context_chunks.get ((idx : Int) - 1) with
        | some chunk => map.set idx chunk
        | none => map) map).get (some i)).isSome ↔ i ∈ indices ∨ (map.get (some i)).isSome) := by
    intro indices
    induction indices with
    | nil => intro map _; simp
    | cons idx rest ih =>
      intro map inside
      obtain ⟨⟨low,high⟩,later⟩ := List.forall_mem_cons.mp inside
      obtain ⟨chunk,found⟩ := JsArray.get_pred low high
      rw [List.foldl_cons,ih _ later,found,get_set,List.mem_cons]
      tauto
  rw [citationsByIndex,folded _ _ inside]
  exact or_iff_left (by simp [CitationMap.get])

theorem isDigit_char {c : Char} : c.isDigit = true ↔ 0x30 ≤ c.toNat ∧ c.toNat ≤ 0x39 := by
  simp only [Char.isDigit,Bool.and_eq_true,decide_eq_true_eq,UInt32.le_iff_toNat_le]
  exact Iff.rfl

theorem isDecimal_of_isDigit (digit : c.isDigit = true) : isDecimal c = true ∧ decimalValue c = c.toNat - 0x30 := by
  have bounds := isDigit_char.mp digit
  have zero : decimalZero c = some 0x30 := by
    unfold decimalZero decimalZeros
    rw [List.find?_cons_of_pos (by simp only [Bool.and_eq_true,decide_eq_true_eq]; omega)]
  exact ⟨by rw [isDecimal,zero]; rfl,by rw [decimalValue,zero]; rfl⟩

-- Digits in front of a closing bracket are digits of the text.
theorem encode_digits {units : JsString} (digits : ∀ u ∈ units, isDigit u = true) {text : Str} {after : JsString}
    (shape : encode text = units ++ closeBracket :: after) :
    ∃ found rest, text = found ++ ']' :: rest ∧ (∀ c ∈ found, c.isDigit = true) ∧ encode found = units := by
  induction units generalizing text with
  | nil =>
    obtain ⟨c,rest,rfl,same,_⟩ := encode_cons shape (by decide)
    have bracket : c = ']' := Char.toNat_inj.mp (same.trans (show closeBracket.toNat = (']' : Char).toNat from rfl))
    subst bracket
    exact ⟨[],rest,rfl,nofun,rfl⟩
  | cons u others ih =>
    obtain ⟨digit,later⟩ := List.forall_mem_cons.mp digits
    have bounds := isDigit_iff.mp digit
    obtain ⟨c,rest,rfl,same,tail⟩ := encode_cons shape (by omega)
    obtain ⟨found,rest,rfl,ascii,encoded⟩ := ih later tail
    refine ⟨c :: found,rest,rfl,List.forall_mem_cons.mpr ⟨?_,ascii⟩,?_⟩
    · exact isDigit_char.mpr (same ▸ bounds)
    · change encodeChar c ++ encode found = _
      rw [encodeChar_ascii (by omega),encoded,same]
      simp

theorem encode_append (front rest : Str) : encode (front ++ rest) = encode front ++ encode rest := List.flatMap_append

def unit (c : Char) : UInt16 := c.toNat.toUInt16

theorem unit_toNat (low : c.toNat < 0x80) : (unit c).toNat = c.toNat := by
  rw [unit,Nat.toUInt16_eq,UInt16.toNat_ofNat_of_lt' (by simp only [UInt16.size]; omega)]

theorem encode_plain {digits : Str} (plain : ∀ c ∈ digits, c.isDigit = true) : encode digits = digits.map unit := by
  induction digits with
  | nil => rfl
  | cons c rest ih =>
    obtain ⟨here,later⟩ := List.forall_mem_cons.mp plain
    have bounds := isDigit_char.mp here
    change encodeChar c ++ encode rest = _
    rw [encodeChar_ascii (by omega),ih later]
    rfl

theorem isDigit_unit (digit : c.isDigit = true) : isDigit (unit c) = true := by
  have bounds := isDigit_char.mp digit
  rw [isDigit_iff,unit_toNat (by omega)]
  exact bounds

theorem encodeChar_no_bracket (other : c ≠ '[') : ∀ u ∈ encodeChar c, u ≠ openBracket := by
  rintro u member rfl
  by_cases ascii : c.toNat < 0x80
  · rw [encodeChar_ascii ascii,List.mem_singleton] at member
    have code : openBracket.toNat = c.toNat := (congrArg UInt16.toNat member).trans (unit_toNat ascii)
    exact other (Char.toNat_inj.mp (code.symm.trans (show openBracket.toNat = ('[' : Char).toNat from rfl)))
  · have high := (encodeChar_units (Nat.le_of_not_lt ascii)).2 _ member
    exact absurd high (by decide)

-- At one bracket the browser matches what the server matches in ASCII digits.
theorem matchAt_encode {rest : Str} : matchAt (openBracket :: encode rest) = some units ↔
    ∃ digits, markerAt ('[' :: rest) = some digits ∧ (∀ c ∈ digits, c.isDigit = true) ∧ encode digits = units := by
  constructor
  · intro matched
    obtain ⟨after,shape,some_,ascii⟩ := matchAt_iff.mp matched
    obtain ⟨digits,tail,rfl,plain,encoded⟩ := encode_digits ascii (List.cons.inj shape).2
    refine ⟨digits,markerAt_iff.mpr ⟨tail,rfl,?_,fun c member => (isDecimal_of_isDigit (plain c member)).1⟩,plain,encoded⟩
    rintro rfl
    exact some_ encoded.symm
  · rintro ⟨digits,matched,plain,rfl⟩
    obtain ⟨tail,shape,some_,_⟩ := markerAt_iff.mp matched
    obtain ⟨_,rfl⟩ := List.cons.inj shape
    have units := encode_plain plain
    refine matchAt_iff.mpr ⟨encode tail,by rw [encode_append]; rfl,?_,?_⟩
    · rw [units]
      exact mt List.map_eq_nil_iff.mp some_
    · rw [units]
      exact List.forall_mem_map.mpr fun c member => isDigit_unit (plain c member)

-- The browser finds the markers written in ASCII digits and no others.
theorem mem_scan_encode (text : Str) : units ∈ scan (encode text) ↔
    ∃ digits ∈ markers text, (∀ c ∈ digits, c.isDigit = true) ∧ encode digits = units := by
  induction text with
  | nil => simp [encode,scan_nil,markers,markerAt]
  | cons c rest ih =>
    have whole : encode (c :: rest) = encodeChar c ++ encode rest := rfl
    rw [markers_cons]
    by_cases bracket : c = '['
    · subst bracket
      have opened : encode ('[' :: rest) = openBracket :: encode rest := rfl
      rw [opened,scan_cons,List.mem_append,ih]
      simp only [List.mem_append,Option.mem_toList,or_and_right,exists_or]
      exact or_congr_left matchAt_encode
    · have absent : markerAt (c :: rest) = none := by
        refine Option.eq_none_iff_forall_ne_some.mpr fun digits matched => ?_
        obtain ⟨_,shape,_⟩ := markerAt_iff.mp matched
        exact bracket (List.cons.inj shape).1
      rw [whole,scan_skip (encodeChar_no_bracket bracket),absent,ih]
      rfl

-- `Number` and `int` read a marker in ASCII digits alike.
theorem toNumber_encode {digits : Str} (plain : ∀ c ∈ digits, c.isDigit = true) (short : digits.length ≤ maxStrDigits) :
    ∃ value, int digits = some value ∧ toNumber (encode digits) = number value := by
  refine ⟨_,if_pos short,?_⟩
  rw [toNumber,encode_plain plain,List.foldl_map]
  refine congrArg number (List.foldl_ext _ _ _ fun value c member => ?_)
  have bounds := isDigit_char.mp (plain c member)
  rw [unit_toNat (by omega),(isDecimal_of_isDigit (plain c member)).2]

-- What is shown as resolved is what has been stored as cited.
def Agrees (text : Str) (context_chunks : JsArray γ) : Prop :=
  ∃ cited_indices parts, extractCitedIndices text context_chunks.items.length = .ok cited_indices ∧
    render (encode text) (some (citationsByIndex ⟨context_chunks,cited_indices⟩)) = some parts ∧
    ∀ i, i ∈ resolved parts ↔ i ∈ cited_indices

-- A position cited in other digits is cited in ASCII digits too.
def AsciiTwins (text : Str) (n : Nat) : Prop :=
  ∀ digits ∈ markers text, ∀ i, int digits = some i → 1 ≤ i → i ≤ n →
    ∃ twin ∈ markers text, (∀ c ∈ twin, c.isDigit = true) ∧ int twin = some i

theorem mem_shown {event : DoneEvent γ} (inside : ∀ idx ∈ event.cited_indices, 1 ≤ idx ∧ idx ≤ event.context_chunks.items.length)
    {twin : Str} (plain : ∀ c ∈ twin, c.isDigit = true) (short : twin.length ≤ maxStrDigits) :
    shown (citationsByIndex event) (encode twin) = some i ↔ i ∈ event.cited_indices ∧ int twin = some i := by
  obtain ⟨value,read,numbered⟩ := toNumber_encode plain short
  rw [shown,numbered,read,Option.filter_eq_some_iff,citationsByIndex_get inside]
  constructor
  · rintro ⟨rounded,cited⟩
    have limit := event.context_chunks.short
    have bounds := inside i cited
    exact ⟨cited,congrArg some (number_small rounded (by omega)).symm⟩
  · rintro ⟨cited,same⟩
    cases Option.some.inj same
    have limit := event.context_chunks.short
    have bounds := inside i cited
    exact ⟨number_exact (by omega),cited⟩

theorem render_resolved {text : Str} {context_chunks : JsArray γ}
    (extracted : extractCitedIndices text context_chunks.items.length = .ok cited_indices) :
    ∃ parts, render (encode text) (some (citationsByIndex ⟨context_chunks,cited_indices⟩)) = some parts ∧
      ∀ i, i ∈ resolved parts ↔ i ∈ cited_indices ∧ ∃ twin ∈ markers text, (∀ c ∈ twin, c.isDigit = true) ∧ int twin = some i := by
  have inside := (extractCitedIndices_bounds extracted).2
  have short := extractCitedIndices_ok.mp ⟨_,extracted⟩
  unfold render
  dsimp only
  split
  · rename_i vacant
    refine ⟨_,rfl,fun i => iff_of_false List.not_mem_nil fun both => ?_⟩
    have entry : ((citationsByIndex ⟨context_chunks,cited_indices⟩).get (some i)).isSome := (citationsByIndex_get inside).mpr both.1
    rw [List.isEmpty_iff.mp vacant] at entry
    cases entry
  · have enough : (encode text).length < 0 + ((encode text).length + 1) := by omega
    obtain ⟨parts,rendered,numbers⟩ := renderFrom_resolved (encode text) (citationsByIndex ⟨context_chunks,cited_indices⟩)
      (Nat.zero_le _) enough
    refine ⟨parts,by simpa using rendered,fun i => ?_⟩
    rw [numbers,List.drop_zero,List.mem_filterMap]
    constructor
    · rintro ⟨units,found,here⟩
      obtain ⟨twin,marked,plain,rfl⟩ := (mem_scan_encode text).mp found
      obtain ⟨cited,read⟩ := (mem_shown inside plain (short twin marked)).mp here
      exact ⟨cited,twin,marked,plain,read⟩
    · rintro ⟨cited,twin,marked,plain,read⟩
      exact ⟨encode twin,(mem_scan_encode text).mpr ⟨twin,marked,plain,rfl⟩,(mem_shown inside plain (short twin marked)).mpr ⟨cited,read⟩⟩

theorem Agrees.twins {context_chunks : JsArray γ} (agrees : Agrees text context_chunks) :
    AsciiTwins text context_chunks.items.length := by
  obtain ⟨cited_indices,parts,extracted,rendered,agree⟩ := agrees
  intro digits marked i read low high
  obtain ⟨parts',rendered',numbers⟩ := render_resolved extracted
  cases Option.some.inj (rendered.symm.trans rendered')
  have cited := (mem_extractCitedIndices extracted).mpr ⟨⟨low,high⟩,digits,marked,read⟩
  exact ((numbers i).mp ((agree i).mpr cited)).2

theorem markers_agree_iff (text : Str) (context_chunks : JsArray γ) : Agrees text context_chunks ↔
    (∀ digits ∈ markers text, digits.length ≤ maxStrDigits) ∧ AsciiTwins text context_chunks.items.length := by
  constructor
  · intro agrees
    refine ⟨?_,agrees.twins⟩
    obtain ⟨cited_indices,_,extracted,_⟩ := agrees
    exact extractCitedIndices_ok.mp ⟨cited_indices,extracted⟩
  · rintro ⟨short,twins⟩
    obtain ⟨cited_indices,extracted⟩ := extractCitedIndices_ok.mpr short
    obtain ⟨parts,rendered,numbers⟩ := render_resolved extracted
    refine ⟨cited_indices,parts,extracted,rendered,fun i => ?_⟩
    rw [numbers i,and_iff_left_iff_imp]
    intro cited
    obtain ⟨⟨low,high⟩,digits,marked,read⟩ := (mem_extractCitedIndices extracted).mp cited
    exact twins digits marked i read low high

-- An answer in Arabic-Indic digits is stored with a citation nobody sees.
theorem arabic_digit_unresolved : ¬ ∀ (text : Str) (context_chunks : JsArray Unit), Agrees text context_chunks := by
  intro all
  obtain ⟨twin,marked,plain,_⟩ := (all "See [١]".toList ⟨[()],by decide⟩).twins ['١'] (by decide) 1 (by decide) (by decide) (by decide)
  cases (List.mem_singleton.mp marked : twin = ['١'])
  exact absurd (plain '١' List.mem_cons_self) (by decide)

end RagForge.CitationMarkers
