import RagForge.SlugGrammar

namespace RagForge.StorableNames
open RagForge PyText Slugs SlugGrammar

-- The payloads as pydantic accepts them; `EmailStr` asks more of the address.
structure UserRegister where
  email : Str
  password : Str
  full_name : Str
  organization_name : Str
  password_length : 8 ≤ password.length ∧ password.length ≤ 128
  full_name_length : 1 ≤ full_name.length ∧ full_name.length ≤ 255
  organization_name_length : 1 ≤ organization_name.length ∧ organization_name.length ≤ 255

structure WorkspaceCreate where
  name : Str
  description : Str := []
  name_length : 1 ≤ name.length ∧ name.length ≤ 255
  description_length : description.length ≤ 1024

structure Organization where
  name : Str
  slug : Str
  deriving DecidableEq

structure Workspace where
  name : Str
  slug : Str

def nul : Char := Char.ofNat 0

-- What PostgreSQL takes into a `varchar(n)`.
def Varchar (n : Nat) (text : Str) : Prop := text.length ≤ n ∧ nul ∉ text

def Organization.Storable (row : Organization) : Prop := Varchar 255 row.name ∧ Varchar 64 row.slug

def Workspace.Storable (row : Workspace) : Prop := Varchar 255 row.name ∧ Varchar 128 row.slug

variable (final_sigma : Str → Str → Bool)

-- The row `create_organization_with_owner` inserts, `slugs` being those of all
-- organizations.
def createOrganizationWithOwner (slugs : List Str) (drawn : Uuid) (name : Str) : Option Organization :=
  (uniqueSlug slugs (slugify final_sigma drawn name)).map (⟨name,·⟩)

def createWorkspace (slugs : List Str) (drawn : Uuid) (name : Str) : Option Workspace :=
  (uniqueSlug slugs (slugify final_sigma drawn name)).map (⟨name,·⟩)

-- The words of a name joined by hyphens; 8 hexadecimal digits stand in for a
-- name without words.
def spelled (drawn : Uuid) (name : Str) : Str :=
  let found := words (lower final_sigma name)
  if found = [] then drawn.hex.take 8 else join ['-'] found

theorem slugify_spelled (drawn : Uuid) (name : Str) : slugify final_sigma drawn name = spelled final_sigma drawn name :=
  slugify_words final_sigma drawn name

def Room (width : Nat) (taken : List Str) (base_slug : Str) : Prop :=
  (base_slug.length ≤ width ∧ base_slug ∉ taken) ∨
    ∃ n ≥ 2, (base_slug ++ '-' :: Nat.toDigits 10 n).length ≤ width ∧ base_slug ++ '-' :: Nat.toDigits 10 n ∉ taken

theorem room_candidate : Room width taken base_slug ↔
    ∃ k, (candidate base_slug k).length ≤ width ∧ candidate base_slug k ∉ taken := by
  constructor
  · rintro (bare | ⟨n,two,suffixed⟩)
    · exact ⟨0,bare⟩
    · obtain ⟨k,rfl⟩ := Nat.exists_eq_add_of_le' two
      exact ⟨k + 1,suffixed⟩
  · rintro ⟨k,fits⟩
    cases k with
    | zero => exact .inl fits
    | succ k => exact .inr ⟨k + 2,Nat.le_add_left 2 k,fits⟩

theorem uniqueSlug_fits (width : Nat) (taken : List Str) (base_slug : Str) :
    ∃ slug, uniqueSlug taken base_slug = some slug ∧ (∃ k, slug = candidate base_slug k) ∧
      (slug.length ≤ width ↔ Room width taken base_slug) := by
  obtain ⟨k,_,found,free,below⟩ := uniqueSlug_first taken base_slug
  refine ⟨_,found,⟨k,rfl⟩,?_⟩
  rw [room_candidate]
  constructor
  · exact fun fits => ⟨k,fits,free⟩
  · rintro ⟨j,fits,unused⟩
    have later : k ≤ j := Nat.le_of_not_lt fun earlier => unused (below j earlier)
    exact (candidate_length_mono base_slug later).trans fits

def Plain (text : Str) : Prop := ∀ c ∈ text, isSlugChar c = true ∨ c = '-'

theorem nul_not_plain (plain : Plain text) : nul ∉ text := by
  intro member
  rcases plain nul member with slug | hyphen
  · exact absurd slug (by decide)
  · exact absurd hyphen (by decide)

-- Both services compute a slug from every name; it fits its column when there
-- is room, and a NUL in the name is the only other thing the row can be
-- refused for.
theorem slug_storable (width : Nat) (slugs : List Str) (drawn : Uuid) {name : Str} (accepted : name.length ≤ 255) :
    ∃ slug, uniqueSlug slugs (slugify final_sigma drawn name) = some slug ∧
      (slug.length ≤ width ↔ Room width slugs (spelled final_sigma drawn name)) ∧
      (Varchar 255 name ∧ Varchar width slug ↔ nul ∉ name ∧ Room width slugs (spelled final_sigma drawn name)) := by
  rw [slugify_spelled]
  obtain ⟨slug,found,⟨k,spelling⟩,fits⟩ := uniqueSlug_fits width slugs (spelled final_sigma drawn name)
  have base : Slug (spelled final_sigma drawn name) := slugify_spelled final_sigma drawn name ▸ slugify_slug final_sigma drawn name
  have clean : nul ∉ slug := spelling ▸ nul_not_plain (base.candidate k).mem
  refine ⟨slug,found,fits,?_⟩
  rw [← fits]
  exact ⟨fun both => ⟨both.1.2,both.2.1⟩,fun both => ⟨⟨accepted,both.1⟩,both.2,clean⟩⟩

theorem names_storable_iff (slugs : List Str) (drawn : Uuid) :
    (∀ payload : UserRegister, ∃ row,
      createOrganizationWithOwner final_sigma slugs drawn payload.organization_name = some row ∧
      (row.slug.length ≤ 64 ↔ Room 64 slugs (spelled final_sigma drawn payload.organization_name)) ∧
      (row.Storable ↔ nul ∉ payload.organization_name ∧ Room 64 slugs (spelled final_sigma drawn payload.organization_name))) ∧
    ∀ payload : WorkspaceCreate, ∃ row, createWorkspace final_sigma slugs drawn payload.name = some row ∧
      (row.slug.length ≤ 128 ↔ Room 128 slugs (spelled final_sigma drawn payload.name)) ∧
      (row.Storable ↔ nul ∉ payload.name ∧ Room 128 slugs (spelled final_sigma drawn payload.name)) := by
  constructor
  · intro payload
    obtain ⟨slug,found,fits,stored⟩ := slug_storable final_sigma 64 slugs drawn payload.organization_name_length.2
    exact ⟨⟨payload.organization_name,slug⟩,Option.map_eq_some_iff.mpr ⟨slug,found,rfl⟩,fits,stored⟩
  · intro payload
    obtain ⟨slug,found,fits,stored⟩ := slug_storable final_sigma 128 slugs drawn payload.name_length.2
    exact ⟨⟨payload.name,slug⟩,Option.map_eq_some_iff.mpr ⟨slug,found,rfl⟩,fits,stored⟩

-- What the two services store is a slug of the same kind, suffixed or not, and
-- one that nothing beside it has.
theorem stored_slug (slugs : List Str) (drawn : Uuid) (name : Str) :
    (∃ row, createOrganizationWithOwner final_sigma slugs drawn name = some row ∧ row.name = name ∧ Slug row.slug ∧ row.slug ∉ slugs) ∧
    ∃ row, createWorkspace final_sigma slugs drawn name = some row ∧ row.name = name ∧ Slug row.slug ∧ row.slug ∉ slugs := by
  obtain ⟨slug,found,grammar,free⟩ := uniqueSlug_slug slugs (slugify_slug final_sigma drawn name)
  exact ⟨⟨⟨name,slug⟩,Option.map_eq_some_iff.mpr ⟨slug,found,rfl⟩,rfl,grammar,free⟩,
    ⟨⟨name,slug⟩,Option.map_eq_some_iff.mpr ⟨slug,found,rfl⟩,rfl,grammar,free⟩⟩

def longName : Str := List.replicate 65 'a'

def longNamed : UserRegister where
  email := "a@example.com".toList
  password := "password".toList
  full_name := "A".toList
  organization_name := longName
  password_length := by decide
  full_name_length := by decide
  organization_name_length := by decide

theorem long_name_overflows : ¬ ∀ (final_sigma : Str → Str → Bool) (slugs : List Str) (drawn : Uuid) (payload : UserRegister)
    (row : Organization), createOrganizationWithOwner final_sigma slugs drawn payload.organization_name = some row →
    row.slug.length ≤ 64 := by
  intro all
  have computed : createOrganizationWithOwner (fun _ _ => false) [] ⟨0⟩ longName = some ⟨longName,longName⟩ := by
    decide +kernel
  exact absurd (all (fun _ _ => false) [] ⟨0⟩ longNamed _ computed) (by decide)

end RagForge.StorableNames
