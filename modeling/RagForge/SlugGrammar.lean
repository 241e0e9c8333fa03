import RagForge.Separated
import RagForge.Slugs

namespace RagForge.SlugGrammar
open RagForge PyText Slugs

-- Lowercase letters and digits in groups that are not empty, one hyphen between
-- each two groups.
structure Slug (text : Str) : Prop where
  nonempty : text ≠ []
  grouped : Separated.Grouped isSlugChar '-' text
  tight : Separated.Tight '-' text

theorem hyphen_apart : isSlugChar '-' = false := by decide

theorem Slug.of_grouped (grouped : Separated.Grouped isSlugChar '-' text) : Slug text := by
  obtain ⟨nonempty,_,tight⟩ := (Separated.grouped_iff hyphen_apart).mp grouped
  exact ⟨nonempty,grouped,tight⟩

theorem Slug.mem (slug : Slug text) : ∀ c ∈ text, isSlugChar c = true ∨ c = '-' :=
  ((Separated.grouped_iff hyphen_apart).mp slug.grouped).2.1

theorem single_slug {part : Str} (nonempty : part ≠ []) (kept : ∀ c ∈ part, isSlugChar c = true) : Slug part :=
  .of_grouped ⟨.single part nonempty kept,List.intercalate_singleton⟩

theorem Slug.append (left : Slug xs) (right : Slug ys) : Slug (xs ++ '-' :: ys) := by
  obtain ⟨front,rfl⟩ := left.grouped
  obtain ⟨back,rfl⟩ := right.grouped
  exact .of_grouped ⟨front.append back,front.write_append back⟩

theorem words_slug (some_ : words text ≠ []) : Slug (join ['-'] (words text)) :=
  .of_grouped ⟨⟨words text,some_,words_nonempty,words_kept⟩,(join_intercalate _ _).symm⟩

theorem digit_kept {c : Char} (digit : c.isDigit = true) : isSlugChar c = true := by
  simp only [Char.isDigit,Bool.and_eq_true,decide_eq_true_eq] at digit
  simp only [isSlugChar,Bool.or_eq_true,Bool.and_eq_true,decide_eq_true_eq]
  exact .inr digit

theorem hex_kept (u : Uuid) : ∀ c ∈ u.hex, isSlugChar c = true ∧ c.isHexDigit = true := by
  have digit : ∀ d < 16, isSlugChar (Nat.digitChar d) = true ∧ (Nat.digitChar d).isHexDigit = true := by decide
  have all (k n : Nat) : ∀ c ∈ Uuid.hexDigits k n, isSlugChar c = true ∧ c.isHexDigit = true := by
    induction k generalizing n with
    | zero => nofun
    | succ k ih =>
      intro c member
      rcases List.mem_append.mp member with front | last
      · exact ih _ c front
      · rw [List.mem_singleton.mp last]
        exact digit _ (Nat.mod_lt _ (by decide))
  exact all _ _

theorem fallback_length (u : Uuid) : (u.hex.take 8).length = 8 := by simp [u.hex_length]

theorem fallback_slug (u : Uuid) : Slug (u.hex.take 8) := by
  apply single_slug
  · exact List.ne_nil_of_length_pos (by rw [fallback_length]; decide)
  · exact fun c member => (hex_kept u c (List.mem_of_mem_take member)).1

-- A suffix is one more group, so what `_unique_slug` makes of a slug is one.
theorem Slug.candidate (slug : Slug base_slug) (k : Nat) : Slug (Slugs.candidate base_slug k) := by
  cases k with
  | zero => exact slug
  | succ k =>
    refine slug.append (single_slug ?_ fun c member => ?_)
    · exact List.ne_nil_of_length_pos Nat.length_toDigits_pos
    · exact digit_kept (Nat.isDigit_of_mem_toDigits (by decide) (by decide) member)

theorem uniqueSlug_slug (taken : List Str) (base : Slug base_slug) :
    ∃ slug, uniqueSlug taken base_slug = some slug ∧ Slug slug ∧ slug ∉ taken := by
  obtain ⟨k,_,first,fresh,_⟩ := uniqueSlug_first taken base_slug
  exact ⟨_,first,base.candidate k,fresh⟩

variable (final_sigma : Str → Str → Bool)

theorem slugify_slug (drawn : Uuid) (value : Str) : Slug (slugify final_sigma drawn value) := by
  rw [slugify_words]
  split
  · exact fallback_slug drawn
  · rename_i some_
    exact words_slug some_

-- A group is read back as a word as soon as it ends.
theorem words_group {group rest : Str} (nonempty : group ≠ []) (kept : ∀ c ∈ group, isSlugChar c = true)
    (ends : rest.head?.any isSlugChar = false) : words (group ++ rest) = group :: words rest := by
  induction group with
  | nil => exact absurd rfl nonempty
  | cons c group ih =>
    obtain ⟨here,later⟩ := List.forall_mem_cons.mp kept
    cases group with
    | nil =>
      rw [List.singleton_append,words,if_pos here]
      cases words rest <;> simp [ends]
    | cons d group =>
      have next := (List.forall_mem_cons.mp later).1
      rw [List.cons_append,words,if_pos here,ih (List.cons_ne_nil _ _) later]
      simp [next]

theorem words_intercalate {parts : List Str} (nonempty : ∀ part ∈ parts, part ≠ [])
    (kept : ∀ part ∈ parts, ∀ c ∈ part, isSlugChar c = true) : words (['-'].intercalate parts) = parts := by
  induction parts with
  | nil => rfl
  | cons part rest ih =>
    obtain ⟨here,later⟩ := List.forall_mem_cons.mp nonempty
    obtain ⟨kept_here,kept_later⟩ := List.forall_mem_cons.mp kept
    have others := ih later kept_later
    cases rest with
    | nil =>
      have alone : words (part ++ []) = part :: words [] := words_group here kept_here rfl
      simpa [words] using alone
    | cons other rest =>
      rw [List.intercalate_cons_cons,List.append_assoc,words_group here kept_here rfl]
      exact congrArg (part :: ·) others

theorem kept_ascii (kept : isSlugChar c = true) : c.toNat < 0x80 ∧ c.isUpper = false := by
  have low : c.toNat < 0x80 := by
    simp only [isSlugChar,Bool.or_eq_true,Bool.and_eq_true,decide_eq_true_eq] at kept
    rcases kept with ⟨_,high⟩ | ⟨_,high⟩ <;> exact Nat.lt_of_le_of_lt (Char.le_def.mp high) (by decide)
  have ascii : ∀ n < 0x80, isSlugChar (Char.ofNat n) = true → (Char.ofNat n).isUpper = false := by decide
  have small := ascii c.toNat low
  rw [Char.ofNat_toNat] at small
  exact ⟨low,small kept⟩

theorem slugify_of_slug (slug : Slug text) (drawn : Uuid) : slugify final_sigma drawn text = text := by
  have plain : ∀ c ∈ text, c.toNat < 0x80 ∧ c.isUpper = false := by
    intro c member
    rcases slug.mem c member with kept | rfl
    · exact kept_ascii kept
    · decide
  obtain ⟨groups,rfl⟩ := slug.grouped
  rw [slugify_words,lower_plain (fun c member => (plain c member).1) fun c member => (plain c member).2,
    Separated.Groups.write,words_intercalate groups.nonempty groups.kept,if_neg groups.some_,join_intercalate]

theorem alphanum_kept {c : Char} (small : c.isUpper = false) : c.isAlphanum = isSlugChar c := by
  change (c.isUpper || c.isLower || c.isDigit) = isSlugChar c
  rw [small]
  rfl

theorem words_lower_nil_iff (value : Str) :
    words (lower final_sigma value) = [] ↔ (lower final_sigma value).any Char.isAlphanum = false := by
  rw [words_nil_iff,List.any_eq_false]
  refine forall₂_congr fun c member => ?_
  rw [alphanum_kept (lower_not_upper member),Bool.not_eq_true]

theorem slugify_alphanum (drawn : Uuid) (value : Str) : slugify final_sigma drawn value =
    if (lower final_sigma value).any Char.isAlphanum then join ['-'] (words (lower final_sigma value)) else drawn.hex.take 8 := by
  rw [slugify_words]
  simp only [words_lower_nil_iff]
  cases (lower final_sigma value).any Char.isAlphanum <;> rfl

theorem slugify_normalises (drawn : Uuid) (value : Str) :
    Slug (slugify final_sigma drawn value) ∧
    (slugify final_sigma drawn value =
      if (lower final_sigma value).any Char.isAlphanum then join ['-'] (words (lower final_sigma value)) else drawn.hex.take 8) ∧
    ((drawn.hex.take 8).length = 8 ∧ ∀ c ∈ drawn.hex.take 8, c.isHexDigit = true) ∧
    ∀ again : Uuid, slugify final_sigma again (slugify final_sigma drawn value) = slugify final_sigma drawn value := by
  have slug := slugify_slug final_sigma drawn value
  refine ⟨slug,slugify_alphanum final_sigma drawn value,⟨fallback_length drawn,fun c member => ?_⟩,fun again => ?_⟩
  · exact (hex_kept drawn c (List.mem_of_mem_take member)).2
  · exact slugify_of_slug final_sigma slug again

-- The Kelvin sign becomes a letter of ASCII, the dotted capital I one and a mark.
example : slugify (fun _ _ => false) ⟨0⟩ [Char.ofNat 0x212A,'2',' ',Char.ofNat 0x130,'s'] = "k2-i-s".toList := by decide +kernel

end RagForge.SlugGrammar
