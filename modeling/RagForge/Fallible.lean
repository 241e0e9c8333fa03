import Mathlib.Data.List.Forall2
import Mathlib.Data.List.ProdSigma

namespace Fallible

-- A sequence of calls that may raise succeeds when each call does.
theorem bind_ok {x : Except ε α} {f : α → Except ε β} :
    (x >>= f) = .ok b ↔ ∃ a, x = .ok a ∧ f a = .ok b := by
  cases x with
  | error e => simp [bind,Except.bind]
  | ok a => simp [bind,Except.bind]

-- A loop that builds one row an element builds them in order.
theorem mapM_forall₂ {xs : List α} {ys : List β} {f : α → Except ε β} :
    xs.mapM f = .ok ys ↔ List.Forall₂ (fun x y => f x = .ok y) xs ys := by
  induction xs generalizing ys with
  | nil =>
    cases ys with
    | nil => simp [pure,Except.pure]
    | cons y rest => exact ⟨(nomatch ·),(nomatch ·)⟩
  | cons x rest ih =>
    rw [List.mapM_cons,bind_ok]
    constructor
    · rintro ⟨first,here,tail⟩
      obtain ⟨others,mapped,last⟩ := bind_ok.mp tail
      cases last
      exact .cons here (ih.mp mapped)
    · intro built
      cases built with
      | cons here tail => exact ⟨_,here,bind_ok.mpr ⟨_,ih.mpr tail,rfl⟩⟩

theorem forall₂_left {related : α → β → Prop} (built : List.Forall₂ related xs ys) (member : x ∈ xs) :
    ∃ y ∈ ys, related x y := by
  induction built with
  | nil => cases member
  | @cons first image rest images here _ ih =>
    rcases List.mem_cons.mp member with rfl | later
    · exact ⟨image,List.mem_cons_self,here⟩
    · obtain ⟨y,inside,one⟩ := ih later
      exact ⟨y,List.mem_cons_of_mem _ inside,one⟩

theorem forall₂_right {related : α → β → Prop} (built : List.Forall₂ related xs ys) (member : y ∈ ys) :
    ∃ x ∈ xs, related x y := forall₂_left built.flip member

-- Two rows built from one list, side by side.
theorem forall₂_meet {P : α → β → Prop} {Q : α → γ → Prop} {R : β → γ → Prop} {xs : List α} {ys : List β} {zs : List γ}
    (first : List.Forall₂ P xs ys) (second : List.Forall₂ Q xs zs) (both : ∀ x y z, P x y → Q x z → R y z) : List.Forall₂ R ys zs := by
  induction first generalizing zs with
  | nil => cases second; exact .nil
  | cons here _ ih =>
    cases second with
    | cons there rest => exact .cons (both _ _ _ here there) (ih rest)

theorem forall₂_split {related : α → β → Prop} (built : List.Forall₂ related (xs ++ ys) zs) :
    ∃ left right, List.Forall₂ related xs left ∧ List.Forall₂ related ys right ∧ zs = left ++ right := by
  induction xs generalizing zs with
  | nil => exact ⟨[],zs,.nil,built,rfl⟩
  | cons x rest ih =>
    cases built with
    | cons here tail =>
      obtain ⟨left,right,first,second,rfl⟩ := ih tail
      exact ⟨_ :: left,right,.cons here first,second,rfl⟩

theorem mapM_some {xs : List α} {ys : List β} {f : α → Option β} :
    xs.mapM f = some ys ↔ List.Forall₂ (fun x y => f x = some y) xs ys := by
  induction xs generalizing ys with
  | nil => cases ys <;> simp
  | cons x rest ih =>
    rw [List.mapM_cons]
    constructor
    · intro mapped
      obtain ⟨first,here,mapped⟩ := Option.bind_eq_some_iff.mp mapped
      obtain ⟨others,tail,mapped⟩ := Option.bind_eq_some_iff.mp mapped
      cases Option.some.inj mapped
      exact .cons here (ih.mp tail)
    · intro related
      cases related with
      | cons here tail => simp [here,ih.mpr tail]

theorem mem_of_mapM {xs : List α} {ys : List β} {f : α → Option β} (mapped : xs.mapM f = some ys)
    (member : y ∈ ys) : ∃ x ∈ xs, f x = some y := by
  have found := forall₂_right (mapM_some.mp mapped) member
  exact found

theorem mapM_length {xs : List α} {ys : List β} {f : α → Option β} (mapped : xs.mapM f = some ys) : ys.length = xs.length :=
  (mapM_some.mp mapped).length_eq.symm

theorem mapM_exists {xs : List α} {f : α → Option β} (each : ∀ x ∈ xs, ∃ y, f x = some y) : ∃ ys, xs.mapM f = some ys := by
  induction xs with
  | nil => exact ⟨[],rfl⟩
  | cons x rest ih =>
    obtain ⟨y,here⟩ := each x List.mem_cons_self
    obtain ⟨ys,tail⟩ := ih fun x member => each x (List.mem_cons_of_mem _ member)
    exact ⟨y :: ys,mapM_some.mpr (.cons here (mapM_some.mp tail))⟩

-- An order of the elements carries over to what they are mapped to.
theorem pairwise_of_forall₂ {R : α → β → Prop} {P : α → α → Prop} {Q : β → β → Prop} {xs : List α} {ys : List β}
    (related : List.Forall₂ R xs ys) (order : xs.Pairwise P)
    (carry : ∀ x y x' y', R x y → R x' y' → P x x' → Q y y') : ys.Pairwise Q := by
  induction related with
  | nil => exact .nil
  | @cons x y xs ys here tail ih =>
    obtain ⟨first,order⟩ := List.pairwise_cons.mp order
    refine .cons (fun y' member => ?_) (ih order)
    obtain ⟨x',inside,value⟩ := forall₂_right tail member
    exact carry x y x' y' here value (first x' inside)

theorem mapM_ok {xs : List α} {f : α → Except ε β} : (∃ ys, xs.mapM f = .ok ys) ↔ ∀ x ∈ xs, ∃ y, f x = .ok y := by
  induction xs with
  | nil => simp [pure,Except.pure]
  | cons x rest ih =>
    simp only [List.forall_mem_cons,← ih]
    constructor
    · rintro ⟨ys,mapped⟩
      cases mapM_forall₂.mp mapped with
      | cons here tail => exact ⟨⟨_,here⟩,⟨_,mapM_forall₂.mpr tail⟩⟩
    · rintro ⟨⟨y,here⟩,others,mapped⟩
      exact ⟨y :: others,mapM_forall₂.mpr (.cons here (mapM_forall₂.mp mapped))⟩

-- A loop whose every round succeeds and keeps an assertion about the elements
-- met so far.
theorem foldlM_history (kept : List α → β → Prop) {f : β → α → Except ε β} {xs : List α} (before : List α) (initial : kept before acc)
    (each : ∀ met acc x, kept met acc → x ∈ xs → ∃ out, f acc x = .ok out ∧ kept (met ++ [x]) out) :
    ∃ out, xs.foldlM f acc = .ok out ∧ kept (before ++ xs) out := by
  induction xs generalizing acc before with
  | nil => exact ⟨acc,rfl,(List.append_nil before).symm ▸ initial⟩
  | cons x rest ih =>
    obtain ⟨next,here,held⟩ := each before acc x initial List.mem_cons_self
    obtain ⟨out,ran,done⟩ := ih (before ++ [x]) held fun met acc y held member => each met acc y held (List.mem_cons_of_mem _ member)
    rw [List.foldlM_cons]
    exact ⟨out,bind_ok.mpr ⟨next,here,ran⟩,List.append_cons before x rest ▸ done⟩

theorem foldlM_keeps {kept : β → Prop} {f : β → α → Except ε β} {xs : List α} (initial : kept acc)
    (each : ∀ acc x, kept acc → x ∈ xs → ∃ out, f acc x = .ok out ∧ kept out) : ∃ out, xs.foldlM f acc = .ok out ∧ kept out :=
  foldlM_history (fun _ => kept) [] initial fun _ => each

-- Two loops, one in the other, are one loop over the pairs.
theorem foldlM_product {f : β → α → γ → Except ε β} (xs : List α) (ys : List γ) (acc : β) :
    xs.foldlM (fun acc x => ys.foldlM (fun acc y => f acc x y) acc) acc =
      (xs ×ˢ ys).foldlM (fun acc pair => f acc pair.1 pair.2) acc := by
  induction xs generalizing acc with
  | nil => rfl
  | cons x rest ih =>
    rw [List.foldlM_cons,List.product_cons,List.foldlM_append,List.foldlM_map]
    exact congrArg _ (funext fun next => ih next)

end Fallible
