import Mathlib.Data.List.DropRight
import RagForge.Decimal
import RagForge.FreshName
import RagForge.Identifier
import RagForge.Lowercase

namespace RagForge.Slugs
open RagForge PyText

def isSlugChar (c : Char) : Bool := ('a' ≤ c && c ≤ 'z') || ('0' ≤ c && c ≤ '9')

-- `re.sub(r"[^a-z0-9]+", "-", text)`; the flag says that the hyphen of the run
-- being read is written already.
def hyphenate : Bool → Str → Str
  | _,[] => []
  | within_run,c :: rest =>
    if isSlugChar c then c :: hyphenate false rest
    else if within_run then hyphenate true rest
    else '-' :: hyphenate true rest

def stripHyphens (text : Str) : Str := (text.dropWhile (· = '-')).rdropWhile (· = '-')

-- `slugify`; `drawn` is the uuid4 value the fallback would take.
def slugify (final_sigma : Str → Str → Bool) (drawn : Uuid) (value : Str) : Str :=
  let slug := stripHyphens (hyphenate false (lower final_sigma value))
  if slug.isEmpty then drawn.hex.take 8 else slug

-- The maximal runs of letters and digits of a text.
def words : Str → List Str
  | [] => []
  | c :: rest =>
    if isSlugChar c then
      match words rest with
      | [] => [[c]]
      | word :: others => if rest.head?.any isSlugChar then (c :: word) :: others else [c] :: word :: others
    else words rest

theorem words_forall {P : Str → Prop} (one : ∀ c, isSlugChar c = true → P [c])
    (more : ∀ c word, isSlugChar c = true → P word → P (c :: word)) : ∀ word ∈ words text, P word := by
  induction text with
  | nil => nofun
  | cons c rest ih =>
    unfold words
    split
    · rename_i slug
      split
      · exact fun word member => List.mem_singleton.mp member ▸ one c slug
      · rename_i first others found
        rw [found] at ih
        obtain ⟨here,later⟩ := List.forall_mem_cons.mp ih
        split
        · exact List.forall_mem_cons.mpr ⟨more c first slug here,later⟩
        · exact List.forall_mem_cons.mpr ⟨one c slug,ih⟩
    · exact ih

theorem words_nonempty : ∀ word ∈ words text, word ≠ [] :=
  words_forall (fun _ _ => List.cons_ne_nil _ _) fun _ _ _ _ => List.cons_ne_nil _ _

theorem words_kept : ∀ word ∈ words text, ∀ c ∈ word, isSlugChar c = true := by
  refine words_forall (fun c slug => ?_) fun c word slug kept => ?_
  · exact List.forall_mem_singleton.mpr slug
  · exact List.forall_mem_cons.mpr ⟨slug,kept⟩

theorem join_nil_iff {parts : List Str} (nonempty : ∀ part ∈ parts, part ≠ []) : join sep parts = [] ↔ parts = [] := by
  cases parts with
  | nil => simp [join]
  | cons part rest =>
    have here := nonempty part List.mem_cons_self
    cases rest with
    | nil => simp [join,here]
    | cons other rest => simp [join,here]

theorem rdropWhile_cons {p : α → Bool} {c : α} {text : List α} : (c :: text).rdropWhile p =
    if text.rdropWhile p = [] then (if p c then [] else [c]) else c :: text.rdropWhile p := by
  unfold List.rdropWhile
  rw [List.reverse_cons,List.dropWhile_append]
  by_cases gone : text.reverse.dropWhile p = []
  · by_cases drops : p c <;> simp [gone,drops]
  · simp [gone]

theorem slugChar_ne_hyphen (slug : isSlugChar c = true) : c ≠ '-' := by
  rintro rfl
  exact absurd slug (by decide)

theorem rdropWhile_slugChar (slug : isSlugChar c = true) :
    (c :: text).rdropWhile (· = '-') = c :: text.rdropWhile (· = '-') := by
  rw [rdropWhile_cons,decide_eq_false (slugChar_ne_hyphen slug)]
  split
  · rename_i gone
    rw [gone]; rfl
  · rfl

theorem words_nil_iff : words text = [] ↔ ∀ c ∈ text, isSlugChar c = false := by
  induction text with
  | nil => simp [words]
  | cons c rest ih =>
    unfold words
    cases slug : isSlugChar c with
    | true =>
      refine iff_of_false ?_ fun all => absurd (all c List.mem_cons_self) (by simp [slug])
      rw [if_pos rfl]
      split
      · exact List.cons_ne_nil _ _
      · split <;> exact List.cons_ne_nil _ _
    | false => simpa [slug] using ih

theorem hyphenate_words (text : Str) : (hyphenate true text).rdropWhile (· = '-') = join ['-'] (words text) := by
  induction text with
  | nil => rfl
  | cons c rest ih =>
    cases slug : isSlugChar c with
    | false => simpa only [hyphenate,words,slug,Bool.false_eq_true,if_false,if_true] using ih
    | true =>
      rw [show hyphenate true (c :: rest) = c :: hyphenate false rest by simp [hyphenate,slug],rdropWhile_slugChar slug]
      cases rest with
      | nil => simp [hyphenate,words,slug,join]
      | cons d others =>
        cases next : isSlugChar d with
        | true =>
          -- the word goes on
          have same : hyphenate false (d :: others) = hyphenate true (d :: others) := by simp [hyphenate,next]
          rw [same,ih]
          cases found : words (d :: others) with
          | nil => exact absurd (words_nil_iff.mp found d List.mem_cons_self) (by simp [next])
          | cons word later =>
            have joined : words (c :: d :: others) = (c :: word) :: later := by
              rw [words,found]; simp [slug,next]
            rw [joined]
            cases later <;> rfl
        | false =>
          -- a run of other characters, written as one hyphen
          have run : hyphenate false (d :: others) = '-' :: hyphenate true others := by simp [hyphenate,next]
          have skip : hyphenate true (d :: others) = hyphenate true others := by simp [hyphenate,next]
          rw [skip] at ih
          rw [run,rdropWhile_cons,ih]
          cases found : words (d :: others) with
          | nil =>
            have joined : words (c :: d :: others) = [[c]] := by rw [words,found]; simp [slug]
            rw [joined]; rfl
          | cons word later =>
            have kept : join ['-'] (word :: later) ≠ [] :=
              fun gone => List.cons_ne_nil _ _ ((join_nil_iff (found ▸ words_nonempty)).mp gone)
            have joined : words (c :: d :: others) = [c] :: word :: later := by rw [words,found]; simp [slug,next]
            rw [if_neg kept,joined]; rfl

theorem hyphenate_true_starts (text : Str) : (hyphenate true text).dropWhile (· = '-') = hyphenate true text := by
  induction text with
  | nil => rfl
  | cons c rest ih =>
    cases slug : isSlugChar c with
    | true => simp [hyphenate,slug,slugChar_ne_hyphen slug]
    | false => simpa [hyphenate,slug] using ih

theorem stripHyphens_hyphenate (text : Str) : stripHyphens (hyphenate false text) = join ['-'] (words text) := by
  have start : (hyphenate false text).dropWhile (· = '-') = hyphenate true text := by
    cases text with
    | nil => rfl
    | cons c rest =>
      cases slug : isSlugChar c with
      | true => simp [hyphenate,slug,slugChar_ne_hyphen slug]
      | false => simpa [hyphenate,slug] using hyphenate_true_starts rest
  unfold stripHyphens
  rw [start,hyphenate_words]

theorem slugify_words (final_sigma : Str → Str → Bool) (drawn : Uuid) (value : Str) : slugify final_sigma drawn value =
    if words (lower final_sigma value) = [] then drawn.hex.take 8 else join ['-'] (words (lower final_sigma value)) := by
  unfold slugify
  rw [stripHyphens_hyphenate]
  dsimp only
  by_cases found : words (lower final_sigma value) = []
  · simp [found,join]
  · rw [if_neg found,if_neg]
    simpa [List.isEmpty_iff] using mt (join_nil_iff words_nonempty).mp found

-- `f"{base_slug}-{suffix}"` for the suffixes from 2 on; the base itself comes first.
def candidate (base_slug : Str) : Nat → Str
  | 0 => base_slug
  | k+1 => base_slug ++ '-' :: Nat.toDigits 10 (k + 2)

-- The loop of `_unique_slug`; one unit of fuel is one query.
def uniqueLoop (taken : List Str) (base_slug : Str) : Nat → Nat → Str → Option Str
  | 0,_,_ => none
  | fuel+1,suffix,slug =>
    if taken.contains slug then uniqueLoop taken base_slug fuel (suffix + 1) (base_slug ++ '-' :: Nat.toDigits 10 (suffix + 1))
    else some slug

def uniqueSlug (taken : List Str) (base_slug : Str) : Option Str :=
  uniqueLoop taken base_slug (taken.length + 1) 1 base_slug

theorem candidate_injective (base_slug : Str) : Function.Injective (candidate base_slug) := by
  intro a b same
  cases a with
  | zero =>
    cases b with
    | zero => rfl
    | succ b => exact absurd (congrArg List.length same) (by simp [candidate])
  | succ a =>
    cases b with
    | zero => exact absurd (congrArg List.length same) (by simp [candidate])
    | succ b =>
      have digits : Nat.toDigits 10 (a + 2) = Nat.toDigits 10 (b + 2) :=
        (List.cons.inj (List.append_cancel_left same)).2
      have suffixes := Decimal.toDigits_injective digits
      omega

theorem uniqueLoop_search (fuel k : Nat) : uniqueLoop taken base_slug fuel (k + 1) (candidate base_slug k) =
    (FreshName.search (candidate base_slug) taken fuel k).map (candidate base_slug) := by
  induction fuel generalizing k with
  | zero => rfl
  | succ fuel ih =>
    unfold uniqueLoop FreshName.search
    by_cases present : candidate base_slug k ∈ taken
    · rw [if_pos (List.contains_iff_mem.mpr present),if_pos present]
      exact ih (k + 1)
    · rw [if_neg (mt List.contains_iff_mem.mp present),if_neg present]
      rfl

theorem uniqueSlug_first (taken : List Str) (base_slug : Str) : ∃ k ≤ taken.length,
    uniqueSlug taken base_slug = some (candidate base_slug k) ∧ candidate base_slug k ∉ taken ∧
      ∀ j < k, candidate base_slug j ∈ taken := by
  have enough : taken.dedup.length < taken.length + 1 := Nat.lt_succ_of_le (List.dedup_sublist taken).length_le
  obtain ⟨k,found⟩ := FreshName.search_total (candidate_injective base_slug) enough 0
  obtain ⟨_,bound,free,below⟩ := FreshName.search_least found
  refine ⟨k,by omega,?_,free,fun j less => below j (Nat.zero_le j) less⟩
  rw [show uniqueSlug taken base_slug = _ from uniqueLoop_search (taken.length + 1) 0,found]
  rfl

theorem candidate_length_mono (base_slug : Str) (le : j ≤ k) : (candidate base_slug j).length ≤ (candidate base_slug k).length := by
  cases j with
  | zero => cases k <;> simp [candidate]
  | succ j =>
    cases k with
    | zero => omega
    | succ k =>
      have digits := Decimal.toDigits_length_mono (show j + 2 ≤ k + 2 by omega)
      simp only [candidate,List.length_append,List.length_cons]
      omega

def organizationUniqueSlug (organizations : List (Uuid × Str)) (base_slug : Str) : Option Str :=
  uniqueSlug (organizations.map Prod.snd) base_slug

-- The workspace service asks among the workspaces of one organization, where
-- `uq_workspace_slug` says the same.
def workspaceUniqueSlug (workspaces : List (Uuid × Str)) (organization_id : Uuid) (base_slug : Str) : Option Str :=
  uniqueSlug ((workspaces.filter (·.1 = organization_id)).map Prod.snd) base_slug

def Settles (taken : List Str) (base_slug : Str) (answer : Option Str) : Prop :=
  ∃ slug, answer = some slug ∧ uniqueLoop taken base_slug (taken.dedup.length + 1) 1 base_slug = some slug ∧ slug ∉ taken ∧
    (base_slug ∉ taken → slug = base_slug) ∧
    (base_slug ∈ taken → ∃ n ≥ 2, slug = base_slug ++ '-' :: Nat.toDigits 10 n ∧
      ∀ m, 2 ≤ m → m < n → base_slug ++ '-' :: Nat.toDigits 10 m ∈ taken)

theorem uniqueSlug_settles (taken : List Str) (base_slug : Str) : Settles taken base_slug (uniqueSlug taken base_slug) := by
  obtain ⟨k,_,found,free,below⟩ := uniqueSlug_first taken base_slug
  obtain ⟨j,rounds⟩ := FreshName.search_total (candidate_injective base_slug) (Nat.lt_succ_self taken.dedup.length) 0
  obtain ⟨_,_,free',below'⟩ := FreshName.search_least rounds
  have same : j = k := by
    rcases Nat.lt_trichotomy j k with less | equal | more
    · exact absurd (below j less) free'
    · exact equal
    · exact absurd (below' k (Nat.zero_le k) more) free
  have ends : uniqueLoop taken base_slug (taken.dedup.length + 1) 1 base_slug = some (candidate base_slug k) := by
    rw [show uniqueLoop taken base_slug _ 1 base_slug = _ from uniqueLoop_search (taken.dedup.length + 1) 0,rounds,same]
    rfl
  refine ⟨candidate base_slug k,found,ends,free,fun unused => ?_,fun used => ?_⟩
  · cases k with
    | zero => rfl
    | succ k => exact absurd (below 0 (Nat.succ_pos k)) unused
  · cases k with
    | zero => exact absurd used free
    | succ k =>
      refine ⟨k + 2,Nat.le_add_left 2 k,rfl,fun m low high => ?_⟩
      obtain ⟨i,rfl⟩ := Nat.exists_eq_add_of_le' low
      exact below (i + 1) (by omega)

theorem unique_slug_fresh (base_slug : Str) :
    (∀ organizations : List (Uuid × Str),
      Settles (organizations.map Prod.snd) base_slug (organizationUniqueSlug organizations base_slug)) ∧
    ∀ (workspaces : List (Uuid × Str)) (organization_id : Uuid),
      Settles ((workspaces.filter (·.1 = organization_id)).map Prod.snd) base_slug
        (workspaceUniqueSlug workspaces organization_id base_slug) :=
  ⟨fun _ => uniqueSlug_settles _ _,fun _ _ => uniqueSlug_settles _ _⟩

example : organizationUniqueSlug [(⟨1⟩,"acme-2".toList),(⟨2⟩,"acme-2-2".toList)] "acme-2".toList = some "acme-2-3".toList := by decide

end RagForge.Slugs
