import Mathlib.Data.List.Count
import Mathlib.Data.List.Nodup
import Mathlib.Order.Lattice

namespace Paging

-- A table read newest first, one page of `size` rows at a time.
variable {α β : Type} [LinearOrder β] {key : α → β}

def page (size : Nat) (listing : List α) (number : Nat) : List α := (listing.drop ((number - 1) * size)).take size

-- What `ORDER BY key DESC` promises: rows with equal keys come in any order.
def NewestFirst (key : α → β) (rows listing : List α) : Prop :=
  listing.Perm rows ∧ listing.Pairwise fun a b => key b ≤ key a

instance [DecidableEq α] (rows listing : List α) : Decidable (NewestFirst key rows listing) :=
  inferInstanceAs (Decidable (_ ∧ _))

-- How many rows are newer.
def place (key : α → β) (rows : List α) (row : α) : Nat := rows.countP fun other => key row < key other

theorem place_append (rows more : List α) (row : α) : place key rows row ≤ place key (rows ++ more) row :=
  (List.sublist_append_left rows more).countP_le

theorem place_lt (member : row ∈ rows) : place key rows row < rows.length := by
  refine Nat.lt_of_le_of_ne List.countP_le_length fun all => ?_
  simpa using List.countP_eq_length.mp all row member

theorem listed_at (ordered : NewestFirst key rows listing) (distinct : (rows.map key).Nodup) (member : row ∈ rows) :
    listing[place key rows row]? = some row := by
  obtain ⟨perm,descending⟩ := ordered
  have strict : listing.Pairwise fun a b => key b < key a := by
    have apart : (listing.map key).Nodup := (perm.map key).nodup_iff.mpr distinct
    exact (descending.and (List.pairwise_map.mp apart)).imp fun both => lt_of_le_of_ne both.1 both.2.symm
  obtain ⟨newer,older,rfl⟩ := List.append_of_mem (perm.mem_iff.mpr member)
  obtain ⟨_,below,across⟩ := List.pairwise_append.mp strict
  have before : newer.countP (fun other => key row < key other) = newer.length :=
    List.countP_eq_length.mpr fun other inside => by simpa using across other inside row List.mem_cons_self
  have after : (row :: older).countP (fun other => key row < key other) = 0 := by
    refine List.countP_eq_zero.mpr fun other inside => ?_
    rcases List.mem_cons.mp inside with rfl | later
    · simp
    · simpa using le_of_lt ((List.pairwise_cons.mp below).1 other later)
  rw [place,← perm.countP_eq,List.countP_append,before,after,Nat.add_zero,List.getElem?_append_right (Nat.le_refl _),Nat.sub_self]
  rfl

-- A row with no fewer newer ones than the pages before hold is on this page or
-- on a later one.
theorem page_or_later (ordered : NewestFirst key rows listing) (distinct : (rows.map key).Nodup) (member : row ∈ rows)
    (begun : 1 ≤ number) (from_ : (number - 1) * size ≤ place key rows row) :
    row ∈ page size listing number ∨ number * size ≤ place key rows row := by
  by_cases later : number * size ≤ place key rows row
  · exact .inr later
  · have found := listed_at ordered distinct member
    have upTo : number * size = (number - 1) * size + size := by rw [← Nat.succ_mul,Nat.succ_eq_add_one,Nat.sub_add_cancel begun]
    obtain ⟨offset,split⟩ := Nat.exists_eq_add_of_le from_
    rw [split] at found later
    refine .inl (List.mem_of_getElem? (i := offset) ?_)
    rw [page,List.getElem?_take_of_lt (by omega),List.getElem?_drop]
    exact found

end Paging
