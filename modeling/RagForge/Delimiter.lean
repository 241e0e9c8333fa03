import Mathlib.Data.List.Infix

namespace Delimiter
variable {α : Type} {first last : α}

-- A delimiter that shows where it starts and where it ends.
structure Marked (first last : α) (d : List α) : Prop where
  shape : ∃ body, d = first :: (body ++ [last]) ∧ first ∉ body ∧ last ∉ body
  distinct : first ≠ last

theorem Marked.start_once (marked : Marked first last (x ++ y)) (some_ : x ≠ []) : first ∉ y := by
  obtain ⟨body,same,plain,_⟩ := marked.shape
  obtain ⟨c,rest,rfl⟩ := List.exists_cons_of_ne_nil some_
  have tail := (List.cons.inj same).2
  intro member
  have inside : first ∈ body ++ [last] := tail ▸ List.mem_append_right _ member
  rcases List.mem_append.mp inside with early | end_
  · exact plain early
  · exact marked.distinct (List.mem_singleton.mp end_)

theorem Marked.starts (marked : Marked first last d) : ∃ rest, d = first :: rest := by
  obtain ⟨body,same,_⟩ := marked.shape
  exact ⟨_,same⟩

theorem Marked.code (marked : Marked first last d) (marked' : Marked first last d') (same : d ++ x = d' ++ y) : d = d' ∧ x = y := by
  obtain ⟨body,rfl,_,ends⟩ := marked.shape
  obtain ⟨body',rfl,_,ends'⟩ := marked'.shape
  have bodies : body ++ last :: x = body' ++ last :: y := by simpa using same
  rcases List.append_eq_append_iff.mp bodies with ⟨more,rfl,tail⟩ | ⟨more,rfl,tail⟩
  · cases more with
    | nil => simpa using tail
    | cons c more => exact absurd (List.mem_append_right _ ((List.cons.inj tail).1 ▸ List.mem_cons_self)) ends'
  · cases more with
    | nil => simpa using tail.symm
    | cons c more => exact absurd (List.mem_append_right _ ((List.cons.inj tail).1 ▸ List.mem_cons_self)) ends

-- A delimiter that starts behind the start of another one starts behind its end.
theorem Marked.apart (marked : Marked first last d) (marked' : Marked first last d') (same : d ++ x = before ++ (d' ++ y))
    (behind : before ≠ []) : ∃ gap, before = d ++ gap ∧ x = gap ++ (d' ++ y) := by
  rcases List.append_eq_append_iff.mp same with found | ⟨more,rfl,tail⟩
  · exact found
  · cases more with
    | nil => exact ⟨[],by simp,by simpa using tail.symm⟩
    | cons c more =>
      obtain ⟨rest,rfl⟩ := marked'.starts
      have head : first = c := (List.cons.inj tail).1
      exact absurd (head ▸ List.mem_cons_self) (marked.start_once behind)

-- Two readings of one text: they are the same, or one field of the first holds
-- the delimiter of the second.
theorem Marked.readings (marked : Marked first last d) (marked' : Marked first last d')
    (same : field ++ (d ++ rest) = field' ++ (d' ++ rest')) :
    (field = field' ∧ d = d' ∧ rest = rest') ∨ d' <:+: field ∨ d' <:+: rest := by
  rcases List.append_eq_append_iff.mp same with ⟨more,rfl,tail⟩ | ⟨more,rfl,tail⟩
  · by_cases none_ : more = []
    · subst none_
      exact .inl ⟨by simp,marked.code marked' tail⟩
    · obtain ⟨gap,_,rfl⟩ := marked.apart marked' tail none_
      exact .inr (.inr ⟨gap,rest',by simp⟩)
  · by_cases none_ : more = []
    · subst none_
      obtain ⟨codes,rests⟩ := marked'.code marked tail
      exact .inl ⟨by simp,codes.symm,rests.symm⟩
    · obtain ⟨gap,rfl,_⟩ := marked'.apart marked tail none_
      exact .inr (.inl ⟨field',gap,by simp⟩)

theorem other_reading {d d' : List α} (some_ : d ≠ []) (some_' : d' ≠ []) (inside : d' <:+: field ∨ d' <:+: rest) :
    ∃ field' rest', field' ≠ field ∧ field' ++ (d' ++ rest') = field ++ (d ++ rest) := by
  have size := List.length_pos_iff.mpr some_
  have size' := List.length_pos_iff.mpr some_'
  rcases inside with ⟨before,after,rfl⟩ | ⟨before,after,rfl⟩
  · refine ⟨before,after ++ (d ++ rest),fun same => ?_,by simp⟩
    have lengths := congrArg List.length same
    simp only [List.length_append] at lengths
    omega
  · refine ⟨field ++ (d ++ before),after,fun same => ?_,by simp⟩
    have lengths := congrArg List.length same
    simp only [List.length_append] at lengths
    omega

end Delimiter
