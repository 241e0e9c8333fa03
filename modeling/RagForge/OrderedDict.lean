import Mathlib.Algebra.BigOperators.Group.List.Basic
import Mathlib.Data.List.Induction
import Mathlib.Data.List.Nodup
import Mathlib.Data.List.Perm.Subperm

-- A dictionary that keeps its keys in order of insertion.
namespace OrderedDict

variable {κ ν μ α M : Type} [DecidableEq κ]

-- A known key keeps its place, a new one goes last.
def assign (key : κ) (value : ν) : List (κ × ν) → List (κ × ν)
  | [] => [(key,value)]
  | (known,old) :: rest => if known = key then (known,value) :: rest else (known,old) :: assign key value rest

def note (keys : List κ) (key : κ) : List κ := if key ∈ keys then keys else keys ++ [key]

theorem assign_keys (key : κ) (value : ν) (entries : List (κ × ν)) :
    (assign key value entries).map Prod.fst = note (entries.map Prod.fst) key := by
  induction entries with
  | nil => simp [assign,note]
  | cons head rest ih =>
    obtain ⟨known,old⟩ := head
    by_cases same : known = key
    · simp [assign,note,same]
    · have other : ¬ key = known := fun equal => same equal.symm
      simp only [assign,same,if_false,List.map_cons,ih,note,List.mem_cons,other,false_or]
      split <;> simp

theorem note_nodup {keys : List κ} (distinct : keys.Nodup) (key : κ) : (note keys key).Nodup := by
  unfold note
  split
  · exact distinct
  · rename_i fresh
    refine List.nodup_append.mpr ⟨distinct,List.nodup_singleton _,fun old known new single => ?_⟩
    rw [List.mem_singleton.mp single]
    rintro rfl
    exact fresh known

structure Dict (κ ν : Type) where
  entries : List (κ × ν)
  apart : (entries.map Prod.fst).Nodup

namespace Dict

def empty : Dict κ ν := ⟨[],List.nodup_nil⟩

def keys (d : Dict κ ν) : List κ := d.entries.map Prod.fst

def values (d : Dict κ ν) : List ν := d.entries.map Prod.snd

def get? (d : Dict κ ν) (key : κ) : Option ν := (d.entries.find? (·.1 = key)).map Prod.snd

def set (d : Dict κ ν) (key : κ) (value : ν) : Dict κ ν :=
  ⟨assign key value d.entries,by rw [assign_keys]; exact note_nodup d.apart key⟩

-- A loop that sets one key an element, from what stands there.
def fold (key : α → κ) (value : Option ν → α → ν) (xs : List α) (d : Dict κ ν) : Dict κ ν :=
  xs.foldl (fun d x => d.set (key x) (value (d.get? (key x)) x)) d

-- A dict comprehension: the last value of a repeated key stays.
def of (key : α → κ) (value : α → ν) (xs : List α) : Dict κ ν := fold key (fun _ => value) xs empty

-- The same where computing a value may raise.
def ofM {m : Type → Type} [Monad m] (key : α → κ) (value : α → m ν) (xs : List α) : m (Dict κ ν) :=
  xs.foldlM (fun d x => do return d.set (key x) (← value x)) empty

-- `d[key] = d.get(key, 0) + gain` for each pair.
def tally [AddCommMonoid M] (gains : List (κ × M)) (d : Dict κ M) : Dict κ M :=
  fold Prod.fst (fun old gain => old.getD 0 + gain.2) gains d

omit [DecidableEq κ] in
@[simp] theorem keys_empty : (empty : Dict κ ν).keys = [] := rfl

@[simp] theorem get?_empty (key : κ) : (empty : Dict κ ν).get? key = none := rfl

@[simp] theorem keys_set (d : Dict κ ν) (key : κ) (value : ν) : (d.set key value).keys = note d.keys key := assign_keys _ _ _

@[simp] theorem get?_set (d : Dict κ ν) (key other : κ) (value : ν) :
    (d.set key value).get? other = if key = other then some value else d.get? other := by
  obtain ⟨entries,apart⟩ := d
  simp only [get?,set]
  clear apart
  induction entries with
  | nil => by_cases same : key = other <;> simp [assign,same]
  | cons head rest ih =>
    obtain ⟨known,old⟩ := head
    by_cases here : known = key
    · subst here
      by_cases same : known = other <;> simp [assign,same]
    · by_cases same : known = other
      · subst same
        have away : ¬ key = known := fun equal => here equal.symm
        simp [assign,here,away]
      · simpa [assign,here,same] using ih

theorem mem_entries {d : Dict κ ν} : (key,value) ∈ d.entries ↔ d.get? key = some value := by
  obtain ⟨entries,apart⟩ := d
  simp only [get?]
  induction entries with
  | nil => simp
  | cons head rest ih =>
    obtain ⟨known,old⟩ := head
    obtain ⟨fresh,apart⟩ := List.nodup_cons.mp apart
    by_cases same : known = key
    · subst same
      have absent : (known,value) ∉ rest := fun member => fresh (List.mem_map.mpr ⟨_,member,rfl⟩)
      simp [absent,eq_comm]
    · have away : ¬ key = known := fun equal => same equal.symm
      simp only [List.mem_cons,Prod.mk.injEq,away,false_and,false_or,ih apart,List.find?_cons,same,decide_false]

theorem mem_keys {d : Dict κ ν} : key ∈ d.keys ↔ ∃ value, d.get? key = some value := by
  simp [keys,← mem_entries]

omit [DecidableEq κ] in
theorem values_length (d : Dict κ ν) : d.values.length = d.keys.length := by simp [keys,values]

theorem values_keys (d : Dict κ ν) : d.keys.filterMap d.get? = d.values := by
  rw [keys,List.filterMap_map,values,← List.filterMap_eq_map]
  exact List.filterMap_congr fun pair member => mem_entries.mp member

-- Distinct keys find the values of distinct entries.
theorem found_subperm (d : Dict κ ν) {names : List κ} (distinct : names.Nodup) :
    (names.filterMap d.get?).Subperm d.values := by
  have known : (names.filter fun name => (d.get? name).isSome).filterMap d.get? = names.filterMap d.get? := by
    rw [List.filterMap_filter]
    refine List.filterMap_congr fun name _ => ?_
    cases d.get? name <;> rfl
  have inside : (names.filter fun name => (d.get? name).isSome).Subperm d.keys :=
    (distinct.filter _).subperm fun name member => mem_keys.mpr (Option.isSome_iff_exists.mp (List.mem_filter.mp member).2)
  obtain ⟨chosen,perm,sub⟩ := inside
  rw [← known,← values_keys]
  exact ⟨_,perm.filterMap _,sub.filterMap _⟩

@[simp] theorem fold_nil (key : α → κ) (value : Option ν → α → ν) (d : Dict κ ν) : fold key value [] d = d := rfl

@[simp] theorem fold_cons (key : α → κ) (value : Option ν → α → ν) (x : α) (xs : List α) (d : Dict κ ν) :
    fold key value (x :: xs) d = fold key value xs (d.set (key x) (value (d.get? (key x)) x)) := rfl

theorem fold_append (key : α → κ) (value : Option ν → α → ν) (xs ys : List α) (d : Dict κ ν) :
    fold key value (xs ++ ys) d = fold key value ys (fold key value xs d) := List.foldl_append

-- What stands under a key comes from that key's elements, in their order.
theorem get?_fold (key : α → κ) (value : Option ν → α → ν) (xs : List α) (d : Dict κ ν) (at_ : κ) :
    (fold key value xs d).get? at_ =
      (xs.filter fun x => key x = at_).foldl (fun old x => some (value old x)) (d.get? at_) := by
  induction xs generalizing d with
  | nil => rfl
  | cons x rest ih =>
    by_cases here : key x = at_
    · simp [ih,here]
    · simp [ih,here]

theorem keys_fold (key : α → κ) (value : Option ν → α → ν) (xs : List α) (d : Dict κ ν) :
    (fold key value xs d).keys = (xs.map key).foldl note d.keys := by
  induction xs generalizing d with
  | nil => rfl
  | cons x rest ih => simp [ih]

end Dict

theorem mem_notes {names : List κ} (keys : List κ) : key ∈ names.foldl note keys ↔ key ∈ keys ∨ key ∈ names := by
  induction names generalizing keys with
  | nil => simp
  | cons name rest ih =>
    rw [List.foldl_cons,ih,List.mem_cons,note]
    split
    · rename_i known
      exact ⟨Or.imp_right .inr,fun either => either.elim .inl fun later => later.elim (fun same => .inl (same ▸ known)) .inr⟩
    · simp [or_assoc]

-- Keys stand in the order in which their names first came up.
theorem notes_order (names : List κ) :
    (names.foldl note []).Pairwise fun a b => names.idxOf a < names.idxOf b := by
  induction names using List.reverseRecOn with
  | nil => exact .nil
  | append_singleton names name ih =>
    have known : ∀ key ∈ names.foldl note [], key ∈ names := by simp [mem_notes]
    have earlier : (names.foldl note []).Pairwise fun a b => (names ++ [name]).idxOf a < (names ++ [name]).idxOf b := by
      refine ih.imp_of_mem fun first second before => ?_
      rwa [List.idxOf_append_of_mem (known _ first),List.idxOf_append_of_mem (known _ second)]
    rw [List.foldl_append,List.foldl_cons,List.foldl_nil,note]
    split
    · exact earlier
    · rename_i fresh
      have new : name ∉ names := fun member => fresh ((mem_notes []).mpr (.inr member))
      refine List.pairwise_append.mpr ⟨earlier,List.pairwise_singleton _ _,fun key old other single => ?_⟩
      rw [List.mem_singleton.mp single,List.idxOf_append_of_mem (known _ old),List.idxOf_append_of_notMem new]
      exact Nat.lt_add_right _ (List.idxOf_lt_length_of_mem (known _ old))

namespace Dict

theorem mem_keys_of (key : α → κ) (value : α → ν) (xs : List α) : k ∈ (of key value xs).keys ↔ k ∈ xs.map key := by
  simp [of,keys_fold,mem_notes]

-- Of several elements under one key, the last.
theorem get?_of (key : α → κ) (value : α → ν) (xs : List α) (at_ : κ) :
    (of key value xs).get? at_ = (xs.reverse.find? fun x => key x = at_).map value := by
  rw [of,get?_fold,get?_empty]
  induction xs using List.reverseRecOn with
  | nil => rfl
  | append_singleton xs x ih =>
    rw [List.filter_append,List.foldl_append,ih,List.reverse_append,List.reverse_singleton,List.singleton_append]
    by_cases here : key x = at_
    · simp [here]
    · simp [here]

theorem ofM_ok {key : α → κ} {value : α → Except ε ν} {xs : List α} (f : α → ν) (each : ∀ x ∈ xs, value x = .ok (f x)) :
    ofM key value xs = .ok (of key f xs) := by
  unfold ofM of fold
  generalize (empty : Dict κ ν) = d
  induction xs generalizing d with
  | nil => rfl
  | cons x rest ih =>
    rw [List.foldlM_cons,each x List.mem_cons_self]
    exact ih (fun y member => each y (List.mem_cons_of_mem _ member)) _

theorem ofM_exists (key : α → κ) {value : α → Except ε ν} {xs : List α} (each : ∀ x ∈ xs, ∃ v, value x = .ok v) :
    ∃ d, ofM key value xs = .ok d ∧ ∀ k, k ∈ d.keys ↔ k ∈ xs.map key := by
  have loop : ∀ d : Dict κ ν, ∃ out, xs.foldlM (fun d x => do return d.set (key x) (← value x)) d = .ok out ∧
      out.keys = (xs.map key).foldl note d.keys := by
    induction xs with
    | nil => exact fun d => ⟨d,rfl,rfl⟩
    | cons x rest ih =>
      intro d
      obtain ⟨v,here⟩ := each x List.mem_cons_self
      obtain ⟨out,ran,keys⟩ := ih (fun y member => each y (List.mem_cons_of_mem _ member)) (d.set (key x) v)
      rw [keys_set] at keys
      refine ⟨out,?_,keys⟩
      rw [List.foldlM_cons,here]
      exact ran
  obtain ⟨out,ran,keys⟩ := loop .empty
  refine ⟨out,ran,fun k => ?_⟩
  rw [keys,mem_notes]
  simp

theorem filter_entries (d : Dict κ ν) (key : κ) : d.entries.filter (·.1 = key) = ((d.get? key).map (key,·)).toList := by
  obtain ⟨entries,apart⟩ := d
  simp only [get?]
  induction entries with
  | nil => rfl
  | cons head rest ih =>
    obtain ⟨known,old⟩ := head
    obtain ⟨fresh,apart⟩ := List.nodup_cons.mp apart
    by_cases here : known = key
    · subst here
      have none_ : rest.filter (·.1 = known) = [] := by
        refine List.filter_eq_nil_iff.mpr fun pair member same => ?_
        exact fresh (List.mem_map.mpr ⟨pair,member,of_decide_eq_true same⟩)
      simp [none_]
    · simpa [here] using ih apart

-- A loop over the items of a dictionary sees each key once.
theorem get?_fold_entries (value : Option μ → κ × ν → μ) (d : Dict κ ν) (into : Dict κ μ) (key : κ) :
    (fold Prod.fst value d.entries into).get? key =
      match d.get? key with
      | none => into.get? key
      | some v => some (value (into.get? key) (key,v)) := by
  rw [get?_fold,filter_entries]
  cases d.get? key <;> rfl

theorem get?_of_entries (f : κ × ν → μ) (d : Dict κ ν) (key : κ) :
    (of Prod.fst f d.entries).get? key = (d.get? key).map fun v => f (key,v) := by
  rw [of,get?_fold_entries]
  cases d.get? key <;> rfl

theorem notes_fresh {names keys : List κ} (distinct : (keys ++ names).Nodup) : names.foldl note keys = keys ++ names := by
  induction names generalizing keys with
  | nil => exact (List.append_nil keys).symm
  | cons name rest ih =>
    have fresh : name ∉ keys := fun known => (List.nodup_append.mp distinct).2.2 name known name List.mem_cons_self rfl
    rw [List.append_cons] at distinct
    rw [List.foldl_cons,note,if_neg fresh,ih distinct,← List.append_cons]

theorem keys_of_entries (f : κ × ν → μ) (d : Dict κ ν) : (of Prod.fst f d.entries).keys = d.keys := by
  rw [of,keys_fold,keys_empty,notes_fresh d.apart]
  rfl

section Tally
variable [AddCommMonoid M]

def total (d : Dict κ M) (key : κ) : M := (d.get? key).getD 0

theorem total_tally (gains : List (κ × M)) (d : Dict κ M) (key : κ) :
    (tally gains d).total key = d.total key + ((gains.filter fun gain => gain.1 = key).map Prod.snd).sum := by
  induction gains generalizing d with
  | nil => simp [tally]
  | cons gain rest ih =>
    have step := ih (d.set gain.1 ((d.get? gain.1).getD 0 + gain.2))
    by_cases here : gain.1 = key
    · subst here
      simpa [tally,total,add_assoc] using step
    · simpa [tally,total,here] using step

theorem total_of_mem {d : Dict κ M} (member : pair ∈ d.entries) : d.total pair.1 = pair.2 := by
  rw [total,mem_entries.mp member]
  rfl

end Tally

end Dict
end OrderedDict
