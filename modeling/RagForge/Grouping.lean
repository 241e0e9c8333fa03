import Mathlib.Algebra.BigOperators.Group.List.Basic
import Mathlib.Algebra.GroupWithZero.Nat
import Mathlib.Algebra.Order.BigOperators.Group.List
import Mathlib.Algebra.Order.Group.Nat
import Mathlib.Data.List.Dedup

namespace Grouping

variable {α β K M : Type} [DecidableEq K] {key : α → K} {rows : List α}

def group (key : α → K) (rows : List α) (k : K) : List α := rows.filter fun row => key row = k

-- One result for each key that occurs.
def groupBy (key : α → K) (aggregate : K → List α → β) (rows : List α) : List β :=
  (rows.map key).dedup.map fun k => aggregate k (group key rows k)

theorem mem_groupBy {aggregate : K → List α → β} :
    b ∈ groupBy key aggregate rows ↔ ∃ row ∈ rows, aggregate (key row) (group key rows (key row)) = b := by
  simp only [groupBy,List.mem_map,List.mem_dedup]
  exact ⟨fun ⟨_,⟨row,member,equal⟩,made⟩ => ⟨row,member,equal ▸ made⟩,fun ⟨row,member,made⟩ => ⟨_,⟨row,member,rfl⟩,made⟩⟩

theorem groupBy_apart {aggregate : K → List α → β} {name : β → K} (named : ∀ k rows, name (aggregate k rows) = k) :
    ((groupBy key aggregate rows).map name).Nodup := by
  have names : (groupBy key aggregate rows).map name = (rows.map key).dedup := by
    rw [groupBy,List.map_map]
    exact (List.map_congr_left fun k _ => named k _).trans (List.map_id _)
  exact names ▸ List.nodup_dedup _

-- Among the results there is one for a key that occurs and none for another.
theorem group_groupBy {aggregate : K → List α → β} {name : β → K} (named : ∀ k rows, name (aggregate k rows) = k) (k : K) :
    group name (groupBy key aggregate rows) k = if k ∈ rows.map key then [aggregate k (group key rows k)] else [] := by
  have kept : (fun l => decide (name (aggregate l (group key rows l)) = k)) = fun l => l == k := by
    funext l
    rw [named]
    exact (beq_eq_decide l k).symm
  rw [group,groupBy,List.filter_map,Function.comp_def,kept,List.filter_beq,List.count_dedup]
  split <;> rfl

theorem group_cons_self (row : α) (rest : List α) : group key (row :: rest) (key row) = row :: group key rest (key row) := by
  simp [group]

theorem group_cons_ne (other : key row ≠ k) (rest : List α) : group key (row :: rest) k = group key rest k := by
  simp [group,other]

def among (key : α → K) (rows : List α) (ks : List K) : List α := rows.filter fun row => key row ∈ ks

theorem among_cons_mem (present : key row ∈ ks) (rest : List α) : among key (row :: rest) ks = row :: among key rest ks :=
  List.filter_cons_of_pos (decide_eq_true present)

theorem among_cons_not_mem (absent : key row ∉ ks) (rest : List α) : among key (row :: rest) ks = among key rest ks :=
  List.filter_cons_of_neg (by simpa using absent)

theorem among_all (all : ∀ row ∈ rows, key row ∈ ks) : among key rows ks = rows :=
  List.filter_eq_self.mpr fun row member => decide_eq_true (all row member)

theorem group_group {L : Type} [DecidableEq L] {other : α → L} (rows : List α) (k : K) (l : L) :
    group key (group other rows l) k = group other (group key rows k) l := List.filter_comm _ _ _

theorem among_group {L : Type} [DecidableEq L] {other : α → L} (rows : List α) (ks : List K) (l : L) :
    among key (group other rows l) ks = group other (among key rows ks) l := List.filter_comm _ _ _

section sums
variable [AddCommMonoid M]

theorem sum_among_cons {k : K} {ks : List K} (absent : k ∉ ks) (rows : List α) (f : α → M) :
    ((group key rows k).map f).sum + ((among key rows ks).map f).sum = ((among key rows (k :: ks)).map f).sum := by
  induction rows with
  | nil => exact add_zero _
  | cons row rest ih =>
    by_cases here : key row = k
    · subst here
      rw [group_cons_self,among_cons_not_mem absent,among_cons_mem List.mem_cons_self,List.map_cons,List.map_cons,
        List.sum_cons,List.sum_cons,← ih,add_assoc]
    · rw [group_cons_ne here]
      by_cases there : key row ∈ ks
      · rw [among_cons_mem there,among_cons_mem (List.mem_cons_of_mem _ there),List.map_cons,List.map_cons,
          List.sum_cons,List.sum_cons,← ih,add_left_comm]
      · rw [among_cons_not_mem there,among_cons_not_mem (fun present => (List.mem_cons.mp present).elim here there),ih]

-- Each row is in one group at most, so the sums of the groups add up.
theorem sum_groups {ks : List K} (apart : ks.Nodup) (rows : List α) (f : α → M) :
    (ks.map fun k => ((group key rows k).map f).sum).sum = ((among key rows ks).map f).sum := by
  induction ks with
  | nil => simp [among]
  | cons k ks ih =>
    obtain ⟨absent,apart⟩ := List.nodup_cons.mp apart
    rw [List.map_cons,List.sum_cons,ih apart,sum_among_cons absent]

theorem sum_groupBy {aggregate : K → List α → β} {f : α → M} {g : β → M} (summed : ∀ k rows, g (aggregate k rows) = (rows.map f).sum) :
    ((groupBy key aggregate rows).map g).sum = (rows.map f).sum := by
  rw [groupBy,List.map_map]
  refine (congrArg List.sum (List.map_congr_left fun k _ => summed k _)).trans ?_
  rw [sum_groups (List.nodup_dedup _),among_all fun row member => List.mem_dedup.mpr (List.mem_map_of_mem member)]

-- With one row to a key the first match is the whole group.
theorem sum_first (apart : (rows.map key).Nodup) (k : K) (f : α → M) :
    (rows.find? fun row => key row = k).elim 0 f = ((group key rows k).map f).sum := by
  induction rows with
  | nil => rfl
  | cons row rest ih =>
    obtain ⟨absent,apart⟩ := List.nodup_cons.mp apart
    by_cases here : key row = k
    · subst here
      have alone : group key rest (key row) = [] := List.filter_eq_nil_iff.mpr fun other member same =>
        absent (List.mem_map.mpr ⟨other,member,of_decide_eq_true same⟩)
      simp [group_cons_self,alone]
    · rw [group_cons_ne here,List.find?_cons_of_neg (by simpa using here),ih apart]

end sums

-- Where every row counts, a part has the whole sum only if nothing is left out.
theorem sum_among_iff {f : α → Nat} (positive : ∀ row ∈ rows, 0 < f row) :
    ((among key rows ks).map f).sum = (rows.map f).sum ↔ ∀ row ∈ rows, key row ∈ ks := by
  constructor
  · intro whole
    induction rows with
    | nil => nofun
    | cons row rest ih =>
      obtain ⟨counts,positive⟩ := List.forall_mem_cons.mp positive
      by_cases present : key row ∈ ks
      · rw [among_cons_mem present,List.map_cons,List.map_cons,List.sum_cons,List.sum_cons] at whole
        exact List.forall_mem_cons.mpr ⟨present,ih positive (Nat.add_left_cancel whole)⟩
      · rw [among_cons_not_mem present,List.map_cons,List.sum_cons] at whole
        have part : ((among key rest ks).map f).sum ≤ (rest.map f).sum :=
          (List.filter_sublist.map f).sum_le_sum fun _ _ => Nat.zero_le _
        omega
  · intro all
    rw [among_all all]

end Grouping
