import Mathlib.Data.List.Infix

namespace Separated

-- A text in groups of kept elements, with one separator between each two groups.
variable {α : Type} {keep : α → Bool} {sep : α}

structure Groups (keep : α → Bool) where
  parts : List (List α)
  some_ : parts ≠ []
  nonempty : ∀ part ∈ parts, part ≠ []
  kept : ∀ part ∈ parts, ∀ c ∈ part, keep c = true

def Groups.write (groups : Groups keep) (sep : α) : List α := [sep].intercalate groups.parts

def Grouped (keep : α → Bool) (sep : α) (text : List α) : Prop := ∃ groups : Groups keep, groups.write sep = text

-- Every separator stands between two other elements.
structure Tight (sep : α) (text : List α) : Prop where
  leading : text.head? ≠ some sep
  trailing : text.getLast? ≠ some sep
  doubled : ¬ [sep,sep] <:+: text

def Groups.single (part : List α) (nonempty : part ≠ []) (kept : ∀ c ∈ part, keep c = true) : Groups keep where
  parts := [part]
  some_ := List.cons_ne_nil _ _
  nonempty := fun _ member => List.mem_singleton.mp member ▸ nonempty
  kept := fun _ member => List.mem_singleton.mp member ▸ kept

def Groups.append (left right : Groups keep) : Groups keep where
  parts := left.parts ++ right.parts
  some_ := fun none_ => left.some_ (List.append_eq_nil_iff.mp none_).1
  nonempty := fun part member => (List.mem_append.mp member).elim (left.nonempty part) (right.nonempty part)
  kept := fun part member => (List.mem_append.mp member).elim (left.kept part) (right.kept part)

theorem intercalate_append {before after : List (List α)} (left : before ≠ []) (right : after ≠ []) :
    [sep].intercalate (before ++ after) = [sep].intercalate before ++ sep :: [sep].intercalate after := by
  induction before with
  | nil => exact absurd rfl left
  | cons part rest ih =>
    cases rest with
    | nil => rw [List.singleton_append,List.intercalate_cons_of_ne_nil right,List.intercalate_singleton,List.append_assoc]; rfl
    | cons other rest =>
      have later := ih (List.cons_ne_nil _ _)
      rw [List.cons_append] at later
      rw [List.cons_append,List.cons_append,List.intercalate_cons_cons,later,List.intercalate_cons_cons]
      simp only [List.append_assoc]

theorem Groups.write_append (left right : Groups keep) : (left.append right).write sep = left.write sep ++ sep :: right.write sep :=
  intercalate_append left.some_ right.some_

theorem mem_intercalate {parts : List (List α)} (member : c ∈ [sep].intercalate parts) : c = sep ∨ ∃ part ∈ parts, c ∈ part := by
  induction parts with
  | nil => cases member
  | cons part rest ih =>
    cases rest with
    | nil => exact .inr ⟨part,List.mem_cons_self,by simpa using member⟩
    | cons other rest =>
      rw [List.intercalate_cons_cons,List.append_assoc] at member
      rcases List.mem_append.mp member with here | later
      · exact .inr ⟨part,List.mem_cons_self,here⟩
      · rcases List.mem_cons.mp later with between | further
        · exact .inl between
        · exact (ih further).imp_right fun ⟨found,inside,holds⟩ => ⟨found,List.mem_cons_of_mem _ inside,holds⟩

theorem Groups.mem_write (groups : Groups keep) (member : c ∈ groups.write sep) : keep c = true ∨ c = sep := by
  rcases mem_intercalate member with between | ⟨part,inside,holds⟩
  · exact .inr between
  · exact .inl (groups.kept part inside c holds)

variable [DecidableEq α]

-- The empty pieces of a split show where a separator is loose.
theorem nil_mem_splitOn {text : List α} (some_ : text ≠ []) : [] ∈ text.splitOn sep ↔ ¬ Tight sep text := by
  constructor
  · intro gap tight
    obtain ⟨before,after,pieces⟩ := List.append_of_mem gap
    have whole : [sep].intercalate (text.splitOn sep) = text := List.intercalate_splitOn sep
    rw [pieces] at whole
    cases before with
    | nil =>
      cases after with
      | nil => exact some_ (by simpa using whole.symm)
      | cons piece after => exact tight.leading (by simp [← whole])
    | cons piece before =>
      rw [intercalate_append (List.cons_ne_nil _ _) (List.cons_ne_nil _ _)] at whole
      cases after with
      | nil => exact tight.trailing (by simp [← whole])
      | cons other after => exact tight.doubled ⟨_,_,by simpa using whole⟩
  · intro loose
    by_contra inner
    refine loose ⟨fun leading => ?_,fun trailing => ?_,fun doubled => ?_⟩
    · obtain ⟨rest,rfl⟩ := List.head?_eq_some_iff.mp leading
      exact inner (by simp [List.splitOn_cons_eq_if_modifyHead])
    · obtain ⟨front,rfl⟩ := List.getLast?_eq_some_iff.mp trailing
      exact inner (by simp [List.splitOn_append_cons_self])
    · obtain ⟨front,rest,rfl⟩ := doubled
      exact inner (by simp [List.splitOn_append_cons_self,List.splitOn_cons_eq_if_modifyHead])

theorem Groups.splitOn_write (apart : keep sep = false) (groups : Groups keep) : (groups.write sep).splitOn sep = groups.parts := by
  refine List.splitOn_intercalate sep (fun part member inside => ?_) groups.some_
  cases apart.symm.trans (groups.kept part member sep inside)

theorem Groups.write_ne_nil (apart : keep sep = false) (groups : Groups keep) : groups.write sep ≠ [] := by
  intro none_
  have pieces := groups.splitOn_write apart
  rw [none_,List.splitOn_nil] at pieces
  exact groups.nonempty [] (pieces ▸ List.mem_singleton_self _) rfl

theorem mem_of_mem_splitOn {text piece : List α} (member : piece ∈ text.splitOn sep) (inside : c ∈ piece) : c ∈ text ∧ c ≠ sep := by
  induction text generalizing piece with
  | nil =>
    rw [List.splitOn_nil,List.mem_singleton] at member
    rw [member] at inside
    cases inside
  | cons x rest ih =>
    have later {other : List α} (member : other ∈ rest.splitOn sep) (inside : c ∈ other) : c ∈ x :: rest ∧ c ≠ sep :=
      (ih member inside).imp_left (List.mem_cons_of_mem x)
    rw [List.splitOn_cons_eq_if_modifyHead] at member
    split at member
    · rcases List.mem_cons.mp member with rfl | further
      · cases inside
      · exact later further inside
    · rename_i other
      cases pieces : rest.splitOn sep with
      | nil => exact absurd pieces (List.splitOn_ne_nil sep rest)
      | cons first others =>
        rw [pieces] at member
        rcases List.mem_cons.mp member with rfl | further
        · rcases List.mem_cons.mp inside with rfl | more
          · exact ⟨List.mem_cons_self,by simpa using other⟩
          · exact later (pieces ▸ List.mem_cons_self) more
        · exact later (pieces ▸ List.mem_cons_of_mem first further) inside

theorem Groups.tight (apart : keep sep = false) (groups : Groups keep) : Tight sep (groups.write sep) := by
  by_contra loose
  have gap := (nil_mem_splitOn (groups.write_ne_nil apart)).mpr loose
  rw [groups.splitOn_write apart] at gap
  exact groups.nonempty [] gap rfl

-- A tight text is read back by splitting it.
def Groups.read {text : List α} (some_ : text ≠ []) (only : ∀ c ∈ text, keep c = true ∨ c = sep) (tight : Tight sep text) : Groups keep where
  parts := text.splitOn sep
  some_ := List.splitOn_ne_nil sep text
  nonempty := fun _ member gap => (nil_mem_splitOn some_).mp (gap ▸ member) tight
  kept := fun _ member c inside =>
    have ⟨here,other⟩ := mem_of_mem_splitOn member inside
    (only c here).resolve_right other

theorem grouped_iff (apart : keep sep = false) {text : List α} :
    Grouped keep sep text ↔ text ≠ [] ∧ (∀ c ∈ text, keep c = true ∨ c = sep) ∧ Tight sep text := by
  constructor
  · rintro ⟨groups,rfl⟩
    exact ⟨groups.write_ne_nil apart,fun _ member => groups.mem_write member,groups.tight apart⟩
  · rintro ⟨some_,only,tight⟩
    exact ⟨.read some_ only tight,List.intercalate_splitOn sep⟩

end Separated
