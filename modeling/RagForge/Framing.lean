import Mathlib.Data.List.Basic

namespace Framing

-- Frames read off the front of a growing buffer: `next` finds the first
-- complete frame, and input that arrives later changes nothing about it.
variable {α : Type}

structure Splitter (α : Type) where
  next : List α → Option (List α × List α)
  shrinks : ∀ {buffer frame rest}, next buffer = some (frame,rest) → rest.length < buffer.length
  stable : ∀ {buffer frame rest} more, next buffer = some (frame,rest) → next (buffer ++ more) = some (frame,rest ++ more)

-- All complete frames of a buffer, and what is left of it.
def drain (s : Splitter α) (buffer : List α) : List (List α) × List α :=
  match _found : s.next buffer with
  | none => ([],buffer)
  | some (frame,rest) =>
    let later := drain s rest
    (frame :: later.1,later.2)
termination_by buffer.length
decreasing_by exact s.shrinks (by assumption)

theorem drain_none {s : Splitter α} (found : s.next buffer = none) : drain s buffer = ([],buffer) := by
  rw [drain]
  split
  · rfl
  · rename_i other
    rw [found] at other
    cases other

theorem drain_some {s : Splitter α} (found : s.next buffer = some (frame,rest)) :
    drain s buffer = (frame :: (drain s rest).1,(drain s rest).2) := by
  rw [drain]
  split
  · rename_i other
    rw [found] at other
    cases other
  · rename_i other
    rw [found] at other
    cases other
    rfl

-- What is left holds no frame yet.
theorem drain_settled (s : Splitter α) (buffer : List α) : s.next (drain s buffer).2 = none := by
  induction size : buffer.length using Nat.strongRecOn generalizing buffer with
  | ind n ih =>
    cases found : s.next buffer with
    | none => rw [drain_none found]; exact found
    | some pair =>
      obtain ⟨frame,rest⟩ := pair
      rw [drain_some found]
      exact ih rest.length (size ▸ s.shrinks found) rest rfl

theorem drain_append (s : Splitter α) (buffer more : List α) :
    drain s (buffer ++ more) =
      ((drain s buffer).1 ++ (drain s ((drain s buffer).2 ++ more)).1,(drain s ((drain s buffer).2 ++ more)).2) := by
  induction size : buffer.length using Nat.strongRecOn generalizing buffer with
  | ind n ih =>
    cases found : s.next buffer with
    | none => simp [drain_none found]
    | some pair =>
      obtain ⟨frame,rest⟩ := pair
      have later := ih rest.length (size ▸ s.shrinks found) rest rfl
      rw [drain_some (s.stable more found),drain_some found,later]
      simp

-- The buffer is carried from one read to the next.
def feed (s : Splitter α) : List α → List (List α) → List (List α) × List α
  | buffer,[] => ([],buffer)
  | buffer,read :: more =>
    let drained := drain s (buffer ++ read)
    let later := feed s drained.2 more
    (drained.1 ++ later.1,later.2)

-- Where the input is cut makes no difference.
theorem feed_flatten {s : Splitter α} (settled : s.next buffer = none) (reads : List (List α)) :
    feed s buffer reads = drain s (buffer ++ reads.flatten) := by
  induction reads generalizing buffer with
  | nil => simp [feed,drain_none settled]
  | cons read more ih =>
    simp only [feed,List.flatten_cons,← List.append_assoc]
    rw [drain_append s (buffer ++ read) more.flatten,ih (drain_settled s _)]

theorem prefix_flatten {blocks more : List (List α)} (inside : blocks <+: more) : blocks.flatten <+: more.flatten := by
  obtain ⟨rest,rfl⟩ := inside
  rw [List.flatten_append]
  exact List.prefix_append _ _

-- A prefix of a row of blocks ends inside one of them or at its end.
theorem prefix_blocks (blocks : List (List α)) (cut : List α) (inside : cut <+: blocks.flatten) :
    ∃ n tail, n ≤ blocks.length ∧ cut = (blocks.take n).flatten ++ tail ∧
      (tail = [] ∨ ∃ block, blocks[n]? = some block ∧ tail <+: block ∧ tail.length < block.length) := by
  induction blocks generalizing cut with
  | nil => exact ⟨0,[],by simp,by simpa using inside,.inl rfl⟩
  | cons block rest ih =>
    rw [List.flatten_cons] at inside
    by_cases short : cut.length < block.length
    · have first := List.prefix_of_prefix_length_le inside (List.prefix_append block rest.flatten) (Nat.le_of_lt short)
      exact ⟨0,cut,by simp,by simp,.inr ⟨block,rfl,first,short⟩⟩
    · obtain ⟨more,rfl⟩ := List.prefix_of_prefix_length_le (List.prefix_append block rest.flatten) inside (Nat.le_of_not_lt short)
      have further := (List.prefix_append_right_inj block).mp inside
      obtain ⟨n,tail,bound,rfl,ends⟩ := ih more further
      exact ⟨n + 1,tail,by simpa using bound,by simp,by simpa using ends⟩

section Delimited
variable [DecidableEq α]

-- The first place where `needle` starts.
def indexOf (needle : List α) : List α → Option Nat
  | [] => if needle = [] then some 0 else none
  | a :: rest => if needle <+: a :: rest then some 0 else (indexOf needle rest).map (· + 1)

theorem indexOf_bound {needle buffer : List α} (found : indexOf needle buffer = some i) :
    i + needle.length ≤ buffer.length := by
  induction buffer generalizing i with
  | nil =>
    unfold indexOf at found
    split at found
    · rename_i empty
      cases found
      simp [empty]
    · cases found
  | cons a rest ih =>
    unfold indexOf at found
    split at found
    · rename_i here
      cases found
      simpa using here.length_le
    · obtain ⟨j,later,rfl⟩ := Option.map_eq_some_iff.mp found
      have := ih later
      rw [List.length_cons]
      omega

theorem indexOf_append {needle buffer : List α} (more : List α) (found : indexOf needle buffer = some i) :
    indexOf needle (buffer ++ more) = some i := by
  induction buffer generalizing i with
  | nil =>
    unfold indexOf at found
    split at found
    · rename_i empty
      cases found
      subst empty
      cases more <;> simp [indexOf]
    · cases found
  | cons a rest ih =>
    unfold indexOf at found
    rw [List.cons_append,indexOf]
    split at found
    · rename_i here
      cases found
      exact if_pos (here.trans (List.prefix_append (a :: rest) more))
    · rename_i elsewhere
      obtain ⟨j,later,rfl⟩ := Option.map_eq_some_iff.mp found
      -- the needle fits into the buffer, so a start here would be one before
      have fits := indexOf_bound later
      have elsewhere' : ¬ needle <+: a :: (rest ++ more) := fun here =>
        elsewhere (List.prefix_of_prefix_length_le here (List.prefix_append (a :: rest) more) (by rw [List.length_cons]; omega))
      rw [if_neg elsewhere',ih later]
      rfl

-- A line without the delimiter's first symbol ends at the delimiter.
theorem indexOf_line {mark : α} {line : List α} (rest : List α) (plain : mark ∉ line) (more : List α) :
    indexOf (mark :: rest) (line ++ ((mark :: rest) ++ more)) = some line.length := by
  induction line with
  | nil => simp [indexOf]
  | cons a line ih =>
    obtain ⟨other,plain⟩ := not_or.mp (List.mem_cons.not.mp plain)
    rw [List.cons_append,indexOf,if_neg (fun here => other (List.cons_prefix_cons.mp here).1),ih plain]
    rfl

-- Frames that end at a delimiter.
def delimited (mark : α) (rest : List α) : Splitter α where
  next buffer := (indexOf (mark :: rest) buffer).map fun i => (buffer.take i,buffer.drop (i + (rest.length + 1)))
  shrinks found := by
    obtain ⟨i,here,equal⟩ := Option.map_eq_some_iff.mp found
    cases equal
    have := indexOf_bound here
    rw [List.length_cons] at this
    rw [List.length_drop]
    omega
  stable more found := by
    obtain ⟨i,here,equal⟩ := Option.map_eq_some_iff.mp found
    cases equal
    have fits := indexOf_bound here
    rw [List.length_cons] at fits
    rw [indexOf_append more here,Option.map_some,List.take_append_of_le_length (by omega),
      List.drop_append_of_le_length fits]

theorem delimited_next {mark : α} {line : List α} (rest : List α) (plain : mark ∉ line) (more : List α) :
    (delimited mark rest).next (line ++ ((mark :: rest) ++ more)) = some (line,more) := by
  simp only [delimited,indexOf_line rest plain more,Option.map_some,List.take_left]
  rw [show line.length + (rest.length + 1) = (line ++ (mark :: rest)).length by simp,← List.append_assoc,List.drop_left]

-- An unfinished line holds no frame.
theorem delimited_unfinished {mark : α} {rest line cut : List α} (plain : mark ∉ line)
    (inside : cut <+: line ++ (mark :: rest)) (short : cut.length < (line ++ (mark :: rest)).length) :
    (delimited mark rest).next cut = none := by
  obtain ⟨missing,whole⟩ := inside
  simp only [delimited,Option.map_eq_none_iff]
  cases found : indexOf (mark :: rest) cut with
  | none => rfl
  | some i =>
    have bound := indexOf_bound found
    have same := indexOf_append missing found
    have at_end := indexOf_line rest plain []
    rw [List.append_nil] at at_end
    rw [whole,at_end] at same
    cases same
    rw [List.length_append] at short
    omega

-- A row of delimited lines and an unfinished one.
theorem drain_lines {mark : α} (rest : List α) (lines : List (List α)) (plain : ∀ line ∈ lines, mark ∉ line)
    (open_ : (delimited mark rest).next tail = none) :
    drain (delimited mark rest) ((lines.map (· ++ (mark :: rest))).flatten ++ tail) = (lines,tail) := by
  induction lines with
  | nil => simp [drain_none open_]
  | cons line more ih =>
    have first := delimited_next rest (plain line List.mem_cons_self)
      ((more.map (· ++ (mark :: rest))).flatten ++ tail)
    rw [List.map_cons,List.flatten_cons,List.append_assoc,List.append_assoc,drain_some first,
      ih fun other member => plain other (List.mem_cons_of_mem _ member)]

end Delimited
end Framing
