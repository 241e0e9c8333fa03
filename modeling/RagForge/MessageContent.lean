import Mathlib.Data.List.TakeWhile
import RagForge.Decimal
import RagForge.Js

namespace RagForge.MessageContent
open Js
variable {γ : Type}

def openBracket : UInt16 := 0x5B
def closeBracket : UInt16 := 0x5D

-- `\d` without the `u` flag: ASCII digits only.
def isDigit (u : UInt16) : Bool := 0x30 ≤ u && u ≤ 0x39

-- `CITATION_RE` at the start of a text: the digits it captures.
def matchAt : JsString → Option JsString
  | [] => none
  | u :: rest =>
    let digits := rest.takeWhile isDigit
    if u = openBracket ∧ digits ≠ [] ∧ (rest.dropWhile isDigit).head? = some closeBracket then some digits else none

def firstMatch : Nat → JsString → Option (Nat × JsString)
  | _,[] => none
  | index,u :: rest => match matchAt (u :: rest) with
    | some digits => some (index,digits)
    | none => firstMatch (index + 1) rest

-- `CITATION_RE.exec(content)` from `lastIndex` on: where the match starts and its
-- first group.
def exec (content : JsString) (lastIndex : Nat) : Option (Nat × JsString) := firstMatch lastIndex (content.drop lastIndex)

-- `Number(match[1])`; `none` is Infinity.
def toNumber (digits : JsString) : Option Nat :=
  number (digits.foldl (fun value u => 10 * value + (u.toNat - 0x30)) 0)

-- What is rendered, with the number in its React key.
inductive Part (γ : Type) where
  | text (key : Nat) (content : JsString)
  | cite (key : Nat) (index : Option Nat) (chunk : Option γ)
  deriving DecidableEq

-- `Record<number, ContextChunkPreview>`
abbrev CitationMap (γ : Type) := List (Nat × γ)

def CitationMap.set (map : CitationMap γ) (key : Nat) (chunk : γ) : CitationMap γ := map.filter (·.1 ≠ key) ++ [(key,chunk)]

def CitationMap.get (map : CitationMap γ) (key : Option Nat) : Option γ := key.bind fun key => (map.find? (·.1 = key)).map Prod.snd

def textSpan (content : JsString) (start stop : Nat) : List (Part γ) :=
  if start < stop then [.text start ((content.drop start).take (stop - start))] else []

-- The `while` loop and what follows it; `none` only if the fuel runs out.
def renderFrom (content : JsString) (citationsByIndex : CitationMap γ) : Nat → Nat → Option (List (Part γ))
  | 0,_ => none
  | fuel + 1,lastIndex => match exec content lastIndex with
    | none => some (textSpan content lastIndex content.length)
    | some (index,digits) =>
      let markerIndex := toNumber digits
      (renderFrom content citationsByIndex fuel (index + digits.length + 2)).map
        (textSpan content lastIndex index ++ .cite index markerIndex (citationsByIndex.get markerIndex) :: ·)

-- `MessageContent`: the map is optional, and without entries nothing is split.
def render (content : JsString) (citationsByIndex : Option (CitationMap γ)) : Option (List (Part γ)) :=
  match citationsByIndex with
  | none => some [.text 0 content]
  | some map => if map.isEmpty then some [.text 0 content] else renderFrom content map (content.length + 1) 0

-- A marker with a chunk is shown as a button, one without as plain text.
def resolved (parts : List (Part γ)) : List Nat :=
  parts.filterMap fun
    | .cite _ (some index) (some _) => some index
    | _ => none

-- The digits of every match, whatever it starts in.
def scan (content : JsString) : List JsString := content.tails.filterMap matchAt

theorem scan_nil : scan [] = [] := rfl

theorem scan_cons (u : UInt16) (rest : JsString) : scan (u :: rest) = (matchAt (u :: rest)).toList ++ scan rest := by
  change ((u :: rest) :: rest.tails).filterMap matchAt = _
  rw [List.filterMap_cons]
  cases matchAt (u :: rest) <;> rfl

theorem matchAt_none (other : u ≠ openBracket) : matchAt (u :: rest) = none := if_neg fun found => other found.1

theorem scan_skip (plain : ∀ u ∈ front, u ≠ openBracket) : scan (front ++ rest) = scan rest := by
  induction front with
  | nil => rfl
  | cons u tail ih =>
    obtain ⟨here,later⟩ := List.forall_mem_cons.mp plain
    rw [List.cons_append,scan_cons,matchAt_none here,ih later]
    rfl

theorem isDigit_iff : isDigit u = true ↔ 0x30 ≤ u.toNat ∧ u.toNat ≤ 0x39 := by
  simp only [isDigit,Bool.and_eq_true,decide_eq_true_eq,UInt16.le_iff_toNat_le]
  exact Iff.rfl

theorem matchAt_iff : matchAt text = some digits ↔
    ∃ rest, text = openBracket :: (digits ++ closeBracket :: rest) ∧ digits ≠ [] ∧ ∀ u ∈ digits, isDigit u = true := by
  constructor
  · intro matched
    cases text with
    | nil => cases matched
    | cons u rest =>
      unfold matchAt at matched
      dsimp only at matched
      split at matched
      · rename_i found
        obtain ⟨opened,some_,closed⟩ := found
        cases Option.some.inj matched
        obtain ⟨tail,shape⟩ := List.head?_eq_some_iff.mp closed
        refine ⟨tail,?_,some_,fun u member => List.mem_takeWhile_imp member⟩
        rw [opened,← shape,List.takeWhile_append_dropWhile]
      · cases matched
  · rintro ⟨rest,rfl,some_,ascii⟩
    have stop : isDigit closeBracket = false := by decide
    have taken : (digits ++ closeBracket :: rest).takeWhile isDigit = digits := by
      rw [List.takeWhile_append_of_pos ascii,List.takeWhile_cons_of_neg (by rw [stop]; exact Bool.false_ne_true),List.append_nil]
    have dropped : (digits ++ closeBracket :: rest).dropWhile isDigit = closeBracket :: rest := by
      rw [List.dropWhile_append_of_pos ascii,List.dropWhile_cons_of_neg (by rw [stop]; exact Bool.false_ne_true)]
    unfold matchAt
    dsimp only
    rw [taken,dropped]
    exact if_pos ⟨rfl,some_,rfl⟩

def shown (citationsByIndex : CitationMap γ) (digits : JsString) : Option Nat :=
  (toNumber digits).filter fun index => (citationsByIndex.get (some index)).isSome

theorem resolved_textSpan (content : JsString) (start stop : Nat) (rest : List (Part γ)) :
    resolved (textSpan content start stop ++ rest) = resolved rest := by
  unfold textSpan resolved
  split <;> rfl

theorem resolved_cite (citationsByIndex : CitationMap γ) (key : Nat) (digits : JsString) (rest : List (Part γ)) :
    resolved (.cite key (toNumber digits) (citationsByIndex.get (toNumber digits)) :: rest) =
      (shown citationsByIndex digits).toList ++ resolved rest := by
  unfold resolved shown
  rw [List.filterMap_cons]
  cases toNumber digits with
  | none => rfl
  | some index => cases found : citationsByIndex.get (some index) <;> simp only [found,Option.filter_some] <;> rfl

-- `CITATION_RE.exec(content)` on the shared expression object: its own
-- `lastIndex` moves behind a match, and back to 0 without one.
def execShared (content : JsString) (regexIndex : Nat) : Option (Nat × JsString) × Nat :=
  match if regexIndex ≤ content.length then exec content regexIndex else none with
  | some (index,digits) => (some (index,digits),index + (openBracket :: (digits ++ [closeBracket])).length)
  | none => (none,0)

-- The loop with both positions, the one of the expression and the local one.
def messageLoop (content : JsString) (citationsByIndex : CitationMap γ) : Nat → Nat → Nat → List (Part γ) → Option (List (Part γ))
  | 0,_,_,_ => none
  | fuel + 1,regexIndex,lastIndex,parts => match execShared content regexIndex with
    | (none,_) => some (parts ++ textSpan content lastIndex content.length)
    | (some (index,digits),regexIndex) =>
      let markerIndex := toNumber digits
      messageLoop content citationsByIndex fuel regexIndex (index + (openBracket :: (digits ++ [closeBracket])).length)
        (parts ++ textSpan content lastIndex index ++ [.cite index markerIndex (citationsByIndex.get markerIndex)])

def messageContent (content : JsString) (citationsByIndex : Option (CitationMap γ)) : Option (List (Part γ)) :=
  match citationsByIndex with
  | none => some [.text 0 content]
  | some map => if map.isEmpty then some [.text 0 content] else messageLoop content map (content.length + 1) 0 0 []

-- The two positions never part, so one is enough for `render`.
theorem messageLoop_render (content : JsString) (citationsByIndex : CitationMap γ) (fuel lastIndex : Nat) (before : List (Part γ)) :
    messageLoop content citationsByIndex fuel lastIndex lastIndex before =
      (renderFrom content citationsByIndex fuel lastIndex).map (before ++ ·) := by
  induction fuel generalizing lastIndex before with
  | zero => rfl
  | succ fuel ih =>
    have looked : (if lastIndex ≤ content.length then exec content lastIndex else none) = exec content lastIndex := by
      split
      · rfl
      · rename_i beyond
        rw [exec,List.drop_eq_nil_of_le (Nat.le_of_not_le beyond)]
        rfl
    unfold messageLoop renderFrom execShared
    rw [looked]
    cases exec content lastIndex with
    | none => rfl
    | some pair =>
      obtain ⟨index,digits⟩ := pair
      have size : (openBracket :: (digits ++ [closeBracket])).length = digits.length + 2 := by simp
      dsimp only
      rw [size,← Nat.add_assoc,ih,Option.map_map]
      simp [Function.comp_def]

-- Where a marker starts, and its digits.
def Occurs (content : JsString) (place : Nat) (digits : JsString) : Prop :=
  ∃ after, content.drop place = openBracket :: (digits ++ closeBracket :: after) ∧ digits ≠ [] ∧ ∀ u ∈ digits, isDigit u = true

theorem occurs_iff {content : JsString} : Occurs content place digits ↔ matchAt (content.drop place) = some digits := matchAt_iff.symm

theorem Occurs.after {content : JsString} (occurs : Occurs content place digits) :
    place + digits.length + 2 ≤ content.length ∧
      content.drop place = openBracket :: (digits ++ [closeBracket]) ++ content.drop (place + digits.length + 2) := by
  obtain ⟨rest,shape,_⟩ := occurs
  have size := congrArg List.length shape
  simp only [List.length_drop,List.length_cons,List.length_append] at size
  refine ⟨by omega,?_⟩
  have cut : content.drop (place + digits.length + 2) = rest := by
    rw [Nat.add_assoc,← List.drop_drop,shape,List.append_cons,← List.cons_append]
    exact List.drop_left' (by simp)
  rw [cut,shape]
  simp

-- No marker starts inside another.
theorem Occurs.alone {content : JsString} (occurs : Occurs content place digits) (behind : place < other)
    (inside : other < place + digits.length + 2) : ¬ Occurs content other found := by
  rintro ⟨_,shape,_⟩
  obtain ⟨rest,whole,_,ascii⟩ := occurs
  obtain ⟨i,rfl⟩ := Nat.exists_eq_add_of_lt behind
  have here : (digits ++ closeBracket :: rest)[i]? = some openBracket := by
    have first := congrArg (·[0]?) shape
    have at_ := congrArg (·[i + 1]?) whole
    simp only [List.getElem?_drop,List.getElem?_cons_zero,List.getElem?_cons_succ,Nat.add_zero] at first at_
    rw [← at_,← Nat.add_assoc,first]
  by_cases digit : i < digits.length
  · rw [List.getElem?_append_left digit] at here
    exact absurd (ascii _ (List.mem_of_getElem? here)) (by decide)
  · obtain rfl : i = digits.length := by omega
    rw [List.getElem?_append_right le_rfl,Nat.sub_self] at here
    exact absurd (Option.some.inj here) (by decide)

theorem firstMatch_first (index : Nat) (text : JsString) : match firstMatch index text with
    | none => ∀ i, matchAt (text.drop i) = none
    | some (start,digits) => ∃ i, start = index + i ∧ matchAt (text.drop i) = some digits ∧ ∀ j < i, matchAt (text.drop j) = none := by
  induction text generalizing index with
  | nil => exact fun i => by rw [List.drop_nil]; rfl
  | cons u rest ih =>
    unfold firstMatch
    cases matched : matchAt (u :: rest) with
    | some digits => exact ⟨0,rfl,matched,nofun⟩
    | none =>
      have later := ih (index + 1)
      dsimp only
      cases found : firstMatch (index + 1) rest with
      | none =>
        rw [found] at later
        intro i
        cases i with
        | zero => exact matched
        | succ i => exact later i
      | some pair =>
        rw [found] at later
        obtain ⟨i,place,here,before⟩ := later
        refine ⟨i + 1,by omega,here,fun j earlier => ?_⟩
        cases j with
        | zero => exact matched
        | succ j => exact before j (by omega)

-- How the parts of a text from some position on are laid out.
inductive Laid (content : JsString) (citationsByIndex : CitationMap γ) : Nat → List (Part γ) → Prop where
  | last (inside : lastIndex ≤ content.length) (clear : ∀ place ≥ lastIndex, ∀ digits, ¬ Occurs content place digits) :
      Laid content citationsByIndex lastIndex (textSpan content lastIndex content.length)
  | next (behind : lastIndex ≤ index) (occurs : Occurs content index digits)
      (clear : ∀ place ≥ lastIndex, place < index → ∀ digits, ¬ Occurs content place digits)
      (rest : Laid content citationsByIndex (index + digits.length + 2) parts) :
      Laid content citationsByIndex lastIndex
        (textSpan content lastIndex index ++ .cite index (toNumber digits) (citationsByIndex.get (toNumber digits)) :: parts)

-- Both positions agree whenever the loop looks, and its fuel is enough.
theorem messageLoop_laid (content : JsString) (citationsByIndex : CitationMap γ) {fuel lastIndex : Nat} (before : List (Part γ))
    (inside : lastIndex ≤ content.length) (enough : content.length < lastIndex + fuel) :
    ∃ parts, messageLoop content citationsByIndex fuel lastIndex lastIndex before = some (before ++ parts) ∧
      Laid content citationsByIndex lastIndex parts := by
  induction fuel generalizing lastIndex before with
  | zero => omega
  | succ fuel ih =>
    unfold messageLoop execShared exec
    rw [if_pos inside]
    have found := firstMatch_first lastIndex (content.drop lastIndex)
    simp only [List.drop_drop] at found
    cases first : firstMatch lastIndex (content.drop lastIndex) with
    | none =>
      rw [first] at found
      refine ⟨_,rfl,.last inside fun place beyond digits occurs => ?_⟩
      obtain ⟨i,rfl⟩ := Nat.exists_eq_add_of_le beyond
      rw [occurs_iff,found i] at occurs
      cases occurs
    | some pair =>
      obtain ⟨index,digits⟩ := pair
      rw [first] at found
      obtain ⟨i,rfl,here,clear⟩ := found
      have occurs : Occurs content (lastIndex + i) digits := occurs_iff.mpr here
      have size : (openBracket :: (digits ++ [closeBracket])).length = digits.length + 2 := by simp
      obtain ⟨parts,ran,laid⟩ := ih
        (before ++ textSpan content lastIndex (lastIndex + i) ++ [.cite (lastIndex + i) (toNumber digits) (citationsByIndex.get (toNumber digits))])
        occurs.after.1 (by omega)
      dsimp only
      rw [size,← Nat.add_assoc,ran]
      refine ⟨_,by rw [List.append_assoc,List.append_assoc]; rfl,.next (Nat.le_add_right _ _) occurs ?_ laid⟩
      intro place beyond earlier other occurs
      obtain ⟨j,rfl⟩ := Nat.exists_eq_add_of_le beyond
      rw [occurs_iff,clear j (by omega)] at occurs
      cases occurs

theorem scan_clear {content : JsString} (le : start ≤ stop)
    (clear : ∀ place ≥ start, place < stop → ∀ digits, ¬ Occurs content place digits) :
    scan (content.drop start) = scan (content.drop stop) := by
  obtain ⟨n,rfl⟩ := Nat.exists_eq_add_of_le le
  induction n with
  | zero => rfl
  | succ n ih =>
    rw [ih (Nat.le_add_right _ _) fun place beyond earlier => clear place beyond (Nat.lt_succ_of_lt earlier)]
    have next : content.drop (start + (n + 1)) = (content.drop (start + n)).drop 1 := by rw [List.drop_drop,Nat.add_assoc]
    rw [next]
    have absent : matchAt (content.drop (start + n)) = none := Option.eq_none_iff_forall_ne_some.mpr fun digits matched =>
      clear _ (Nat.le_add_right _ _) (Nat.lt_succ_self _) digits (occurs_iff.mpr matched)
    generalize content.drop (start + n) = text at absent
    cases text with
    | nil => rfl
    | cons u rest =>
      rw [scan_cons,absent]
      rfl

-- A match holds no opening bracket but its own, so the next one starts behind it.
theorem Occurs.scan {content : JsString} (occurs : Occurs content place digits) :
    scan (content.drop place) = digits :: scan (content.drop (place + digits.length + 2)) := by
  have matched := occurs_iff.mp occurs
  have shape := occurs.after.2
  obtain ⟨_,_,_,ascii⟩ := occurs
  have plain : ∀ u ∈ digits ++ [closeBracket], u ≠ openBracket := by
    intro u member
    rcases List.mem_append.mp member with digit | close
    · rintro rfl
      cases ascii _ digit
    · rw [List.mem_singleton.mp close]
      decide
  rw [shape,List.cons_append] at matched ⊢
  rw [scan_cons,matched,scan_skip plain]
  rfl

theorem Laid.resolved {citationsByIndex : CitationMap γ} (laid : Laid content citationsByIndex lastIndex parts) :
    resolved parts = (scan (content.drop lastIndex)).filterMap (shown citationsByIndex) := by
  induction laid with
  | last inside clear =>
    rw [scan_clear inside fun place beyond _ => clear place beyond,List.drop_length,scan_nil,← List.append_nil (textSpan _ _ _),
      resolved_textSpan]
    rfl
  | @next lastIndex index digits parts behind occurs clear rest ih =>
    rw [resolved_textSpan,resolved_cite,ih,scan_clear behind clear,occurs.scan,List.filterMap_cons]
    cases shown citationsByIndex digits <;> rfl

-- One more round than there are units left is enough for the loop.
theorem renderFrom_resolved (content : JsString) (citationsByIndex : CitationMap γ) {fuel lastIndex : Nat}
    (inside : lastIndex ≤ content.length) (enough : content.length < lastIndex + fuel) :
    ∃ parts, renderFrom content citationsByIndex fuel lastIndex = some parts ∧
      resolved parts = (scan (content.drop lastIndex)).filterMap (shown citationsByIndex) := by
  obtain ⟨parts,ran,laid⟩ := messageLoop_laid content citationsByIndex [] inside enough
  rw [messageLoop_render] at ran
  obtain ⟨rendered,there,same⟩ := Option.map_eq_some_iff.mp ran
  cases List.append_cancel_left same
  exact ⟨parts,there,laid.resolved⟩

-- What a part shows of the content: a marker stands for its match.
def Part.source (content : JsString) : Part γ → JsString
  | .text _ span => span
  | .cite key _ _ => match matchAt (content.drop key) with
    | some digits => openBracket :: (digits ++ [closeBracket])
    | none => []

-- Its key in React's list.
def Part.reactKey : Part γ → List Char
  | .text key _ => "text-".toList ++ Nat.toDigits 10 key
  | .cite key _ _ => "cite-".toList ++ Nat.toDigits 10 key

def Part.start : Part γ → Nat
  | .text key _ => key
  | .cite key _ _ => key

theorem textSpan_source (content : JsString) (start stop : Nat) :
    (textSpan content start stop : List (Part γ)).flatMap (Part.source content) = (content.drop start).take (stop - start) := by
  unfold textSpan
  split
  · simp [Part.source]
  · rw [Nat.sub_eq_zero_of_le (by omega),List.take_zero]
    rfl

theorem mem_textSpan {content : JsString} {part : Part γ} (member : part ∈ textSpan content start stop) :
    start < stop ∧ part = .text start ((content.drop start).take (stop - start)) := by
  unfold textSpan at member
  split at member
  · exact ⟨by assumption,List.mem_singleton.mp member⟩
  · cases member

theorem Laid.source {citationsByIndex : CitationMap γ} (laid : Laid content citationsByIndex lastIndex parts) :
    parts.flatMap (Part.source content) = content.drop lastIndex := by
  induction laid with
  | last inside clear => rw [textSpan_source,List.take_of_length_le (by rw [List.length_drop])]
  | @next lastIndex index digits parts behind occurs clear rest ih =>
    have cut : content.drop index = (content.drop lastIndex).drop (index - lastIndex) := by
      rw [List.drop_drop,Nat.add_sub_cancel' behind]
    rw [List.flatMap_append,textSpan_source,List.flatMap_cons,ih,Part.source,occurs_iff.mp occurs]
    dsimp only
    rw [← occurs.after.2,cut,List.take_append_drop]

-- Every marker is there once, under its place and with its number and chunk.
theorem Laid.mem_cite {citationsByIndex : CitationMap γ} (laid : Laid content citationsByIndex lastIndex parts) :
    .cite place index chunk ∈ parts ↔ lastIndex ≤ place ∧ ∃ digits, Occurs content place digits ∧ index = toNumber digits ∧
      chunk = citationsByIndex.get index := by
  have no_text {start stop : Nat} : ¬ (.cite place index chunk : Part γ) ∈ textSpan content start stop :=
    fun member => nomatch (mem_textSpan member).2
  induction laid with
  | last inside clear =>
    exact iff_of_false no_text fun ⟨beyond,digits,occurs,_⟩ => clear place beyond digits occurs
  | @next lastIndex at_ digits parts behind occurs clear rest ih =>
    rw [List.mem_append,or_iff_right no_text,List.mem_cons]
    constructor
    · intro member
      rcases member with same | later
      · cases same
        exact ⟨behind,digits,occurs,rfl,rfl⟩
      · obtain ⟨beyond,further⟩ := ih.mp later
        exact ⟨by omega,further⟩
    · rintro ⟨beyond,found,occurs',number,there⟩
      rcases Nat.lt_trichotomy place at_ with earlier | rfl | after
      · exact absurd occurs' (clear place beyond earlier found)
      · cases Option.some.inj ((occurs_iff.mp occurs).symm.trans (occurs_iff.mp occurs'))
        subst number there
        exact .inl rfl
      · refine .inr (ih.mpr ⟨Nat.le_of_not_lt fun inside => ?_,found,occurs',number,there⟩)
        exact occurs.alone after inside occurs'

theorem Laid.text_clear {citationsByIndex : CitationMap γ} (laid : Laid content citationsByIndex lastIndex parts)
    (member : .text key span ∈ parts) : ¬ Occurs span place digits := by
  -- a marker inside a span would start at the same place of the content
  have no_marker {start stop : Nat} (clear : ∀ place ≥ start, place < stop → ∀ digits, ¬ Occurs content place digits)
      (inside : (.text key span : Part γ) ∈ textSpan content start stop) : ¬ Occurs span place digits := by
    obtain ⟨_,same⟩ := mem_textSpan inside
    cases same
    rintro occurs
    have bound := occurs.after.1
    rw [List.length_take] at bound
    obtain ⟨after,shape,rest⟩ := occurs
    rw [List.drop_take,List.drop_drop] at shape
    refine clear (key + place) (Nat.le_add_right _ _) (by omega) digits ⟨after ++ (content.drop (key + place)).drop (stop - key - place),?_,rest⟩
    calc content.drop (key + place)
        = (content.drop (key + place)).take (stop - key - place) ++ (content.drop (key + place)).drop (stop - key - place) :=
          (List.take_append_drop _ _).symm
      _ = _ := by rw [shape]; simp
  induction laid with
  | last inside clear => exact no_marker (fun place beyond _ => clear place beyond) member
  | next behind occurs clear rest ih =>
    rcases List.mem_append.mp member with here | later
    · exact no_marker clear here
    · rcases List.mem_cons.mp later with same | later
      · cases same
      · exact ih later

theorem Laid.start_le {citationsByIndex : CitationMap γ} (laid : Laid content citationsByIndex lastIndex parts) :
    ∀ part ∈ parts, lastIndex ≤ part.start := by
  have span {start stop : Nat} : ∀ part ∈ (textSpan content start stop : List (Part γ)), start ≤ part.start := by
    intro part member
    rw [(mem_textSpan member).2]
    exact le_rfl
  induction laid with
  | last => exact span
  | next behind occurs clear rest ih =>
    intro part member
    rcases List.mem_append.mp member with here | later
    · exact span part here
    · rcases List.mem_cons.mp later with rfl | later
      · exact behind
      · exact le_trans (by omega) (ih part later)

-- A marker and a span have keys of their own even at one place.
theorem reactKey_start {a b : Part γ} (same : a.reactKey = b.reactKey) : a.start = b.start := by
  cases a with
  | text key span => cases b with
    | text key' span' =>
      have keys : "text-".toList ++ Nat.toDigits 10 key = "text-".toList ++ Nat.toDigits 10 key' := same
      exact Decimal.toDigits_injective (List.append_cancel_left keys)
    | cite key' index chunk => exact absurd (List.cons.inj same).1 (by decide)
  | cite key index chunk => cases b with
    | text key' span => exact absurd (List.cons.inj same).1 (by decide)
    | cite key' index' chunk' =>
      have keys : "cite-".toList ++ Nat.toDigits 10 key = "cite-".toList ++ Nat.toDigits 10 key' := same
      exact Decimal.toDigits_injective (List.append_cancel_left keys)

theorem Laid.keys {citationsByIndex : CitationMap γ} (laid : Laid content citationsByIndex lastIndex parts) :
    (parts.map Part.reactKey).Nodup := by
  induction laid with
  | last inside clear =>
    unfold textSpan
    split <;> simp
  | @next lastIndex index digits parts behind occurs clear rest ih =>
    have fresh : (.cite index (toNumber digits) (citationsByIndex.get (toNumber digits)) : Part γ).reactKey ∉ parts.map Part.reactKey := by
      intro taken
      obtain ⟨part,member,same⟩ := List.mem_map.mp taken
      have later := rest.start_le part member
      rw [reactKey_start same] at later
      simp only [Part.start] at later
      omega
    have tail := List.nodup_cons.mpr ⟨fresh,ih⟩
    rw [List.map_append,List.map_cons]
    unfold textSpan
    split
    · rename_i before
      refine List.nodup_cons.mpr ⟨fun taken => ?_,tail⟩
      rcases List.mem_cons.mp taken with same | later
      · exact absurd (List.cons.inj same).1 (by decide)
      · obtain ⟨part,member,same⟩ := List.mem_map.mp later
        have later := rest.start_le part member
        rw [reactKey_start same] at later
        simp only [Part.start] at later
        omega
    · exact tail

-- Nothing of an answer is lost, and no marker of it is shown as text.
theorem message_keeps_text (content : JsString) (citationsByIndex : CitationMap γ) (some_ : citationsByIndex ≠ []) :
    ∃ parts, messageContent content (some citationsByIndex) = some parts ∧ parts.flatMap (Part.source content) = content ∧
      (∀ place index chunk, .cite place index chunk ∈ parts ↔
        ∃ digits, Occurs content place digits ∧ index = toNumber digits ∧ chunk = citationsByIndex.get index) ∧
      (∀ key span, .text key span ∈ parts → ∀ place digits, ¬ Occurs span place digits) ∧
      (parts.map Part.reactKey).Nodup := by
  obtain ⟨parts,ran,laid⟩ := messageLoop_laid content citationsByIndex [] (Nat.zero_le _)
    (show content.length < 0 + (content.length + 1) by omega)
  refine ⟨parts,?_,laid.source,fun place index chunk => ?_,fun key span member place digits => laid.text_clear member,laid.keys⟩
  · unfold messageContent
    simpa [some_] using ran
  · rw [laid.mem_cite,and_iff_right (Nat.zero_le _)]

-- Two markers side by side, one at the start and one at the end.
theorem message_keeps_text_adjacent : ∃ parts, messageContent (encode "[1][2] and [3]".toList) (some [(1,())]) = some parts ∧
    parts.flatMap (Part.source (encode "[1][2] and [3]".toList)) = encode "[1][2] and [3]".toList := by
  obtain ⟨parts,ran,source,_⟩ := message_keeps_text (encode "[1][2] and [3]".toList) [(1,())] (by decide)
  exact ⟨parts,ran,source⟩

end RagForge.MessageContent
