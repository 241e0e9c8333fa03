import RagForge.Bm25Cache
import RagForge.Recency

namespace RagForge.CacheRecency
open RagForge Recency

inductive Call where
  | put (workspace_id : Uuid) (entry : CacheEntry)
  | get (workspace_id : Uuid) (version : Nat)

def fresh (maxsize : Nat) : WorkspaceBM25Cache := ⟨[],maxsize,List.nodup_nil⟩

def step (cache : WorkspaceBM25Cache) : Call → WorkspaceBM25Cache
  | .put workspace_id entry => cache.put workspace_id entry
  | .get workspace_id version => match cache.get workspace_id version with
    | some (_,after) => after
    | none => cache

def run (cache : WorkspaceBM25Cache) (calls : List Call) : WorkspaceBM25Cache := calls.foldl step cache

-- The workspace a call touches: every put does, of the gets those that hit.
def touched (cache : WorkspaceBM25Cache) : Call → List Uuid
  | .put workspace_id _ => [workspace_id]
  | .get workspace_id version => if (cache.get workspace_id version).isSome then [workspace_id] else []

def touches (cache : WorkspaceBM25Cache) : List Call → List Uuid
  | [] => []
  | call :: rest => touched cache call ++ touches (step cache call) rest

-- The entry of the most recent put of a workspace.
def lastPut (workspace_id : Uuid) (calls : List Call) : Option CacheEntry :=
  calls.reverse.findSome? fun
    | .put key entry => if key = workspace_id then some entry else none
    | .get _ _ => none

theorem touches_snoc (cache : WorkspaceBM25Cache) (calls : List Call) (call : Call) :
    touches cache (calls ++ [call]) = touches cache calls ++ touched (run cache calls) call := by
  induction calls generalizing cache with
  | nil => simp [touches,run]
  | cons first rest ih => simp [touches,run,ih]

theorem lastPut_put (calls : List Call) (key : Uuid) (entry : CacheEntry) (workspace_id : Uuid) :
    lastPut workspace_id (calls ++ [.put key entry]) = if key = workspace_id then some entry else lastPut workspace_id calls := by
  by_cases same : key = workspace_id <;> simp [lastPut,same]

theorem lastPut_get (calls : List Call) (key : Uuid) (version : Nat) (workspace_id : Uuid) :
    lastPut workspace_id (calls ++ [.get key version]) = lastPut workspace_id calls := by
  simp [lastPut]

def keys (cache : WorkspaceBM25Cache) : List Uuid := (cache.entries.map Prod.fst).reverse

theorem keys_touch (cache : WorkspaceBM25Cache) (workspace_id : Uuid) (entry : CacheEntry) :
    keys (cache.touch workspace_id entry) = bump workspace_id (keys cache) := by
  simp [keys,WorkspaceBM25Cache.touch,bump,List.filter_map,Function.comp_def]

-- What the entries are after the calls so far.
structure Held (maxsize : Nat) (calls : List Call) (cache : WorkspaceBM25Cache) (log : List Uuid) : Prop where
  size : cache.maxsize = maxsize
  recent : keys cache = (recents log).take maxsize
  latest : ∀ pair ∈ cache.entries, lastPut pair.1 calls = some pair.2
  put_logged : ∀ workspace_id entry, lastPut workspace_id calls = some entry → workspace_id ∈ log

theorem keys_evict {cache : WorkspaceBM25Cache} (bound : (keys cache).length ≤ cache.maxsize + 1) :
    keys cache.evict = (keys cache).take cache.maxsize := by
  unfold WorkspaceBM25Cache.evict
  have size : (keys cache).length = cache.entries.length := by simp [keys]
  split
  · rename_i full
    have exact_ : cache.entries.length - 1 = cache.maxsize := by omega
    simp only [keys,List.map_tail,← List.dropLast_reverse,List.dropLast_eq_take,List.length_reverse,List.length_map,exact_]
  · rename_i room
    exact (List.take_of_length_le (by omega)).symm

theorem mem_touch {cache : WorkspaceBM25Cache} (member : pair ∈ (cache.touch workspace_id entry).entries) :
    pair ∈ cache.entries ∧ pair.1 ≠ workspace_id ∨ pair = (workspace_id,entry) := by
  rcases List.mem_append.mp member with old | new
  · exact .inl ⟨(List.mem_filter.mp old).1,of_decide_eq_true (List.mem_filter.mp old).2⟩
  · exact .inr (List.mem_singleton.mp new)

theorem mem_evict {cache : WorkspaceBM25Cache} (member : pair ∈ cache.evict.entries) : pair ∈ cache.entries := by
  unfold WorkspaceBM25Cache.evict at member
  split at member
  · exact List.mem_of_mem_tail member
  · exact member

theorem evict_maxsize (cache : WorkspaceBM25Cache) : cache.evict.maxsize = cache.maxsize := by
  unfold WorkspaceBM25Cache.evict
  split <;> rfl

theorem bump_length (key : Uuid) (keys : List Uuid) : (bump key keys).length ≤ keys.length + 1 := by
  rw [bump,List.length_cons]
  exact Nat.succ_le_succ (List.length_filter_le _ _)

theorem put_held {cache : WorkspaceBM25Cache} (held : Held maxsize calls cache log) (workspace_id : Uuid) (entry : CacheEntry) :
    Held maxsize (calls ++ [.put workspace_id entry]) (cache.put workspace_id entry) (log ++ [workspace_id]) := by
  obtain ⟨rfl,recent,latest,put_logged⟩ := held
  constructor
  · exact evict_maxsize _
  · have bound : (keys (cache.touch workspace_id entry)).length ≤ cache.maxsize + 1 := by
      rw [keys_touch,recent]
      exact (bump_length _ _).trans (Nat.succ_le_succ (List.length_take_le _ _))
    rw [WorkspaceBM25Cache.put,keys_evict bound,keys_touch,recent,recents_snoc]
    exact (bump_take (recents_nodup log) workspace_id cache.maxsize).symm
  · intro pair member
    rw [lastPut_put]
    rcases mem_touch (mem_evict member) with ⟨old,other⟩ | rfl
    · rw [if_neg fun same => other same.symm]
      exact latest pair old
    · exact if_pos rfl
  · intro key found known
    rw [lastPut_put] at known
    split at known
    · rename_i same
      simp [same]
    · exact List.mem_append_left _ (put_logged key found known)

theorem hit_held {cache : WorkspaceBM25Cache} (held : Held maxsize calls cache log)
    (hit : cache.get workspace_id version = some (entry,after)) :
    Held maxsize (calls ++ [.get workspace_id version]) after (log ++ [workspace_id]) := by
  obtain ⟨rfl,recent,latest,put_logged⟩ := held
  have stored := (WorkspaceBM25Cache.get_parts hit).1
  have moved : after = cache.touch workspace_id entry := by
    unfold WorkspaceBM25Cache.get at hit
    split at hit
    · split at hit <;> cases hit
      rfl
    · cases hit
  subst moved
  have inside : (cache.touch workspace_id entry).entries.length ≤ cache.entries.length := by
    have shorter : (cache.entries.filter (·.1 ≠ workspace_id)).length < cache.entries.length :=
      List.length_filter_lt_length_iff_exists.mpr ⟨_,stored,by simp⟩
    simp only [WorkspaceBM25Cache.touch,List.length_append,List.length_singleton]
    omega
  have bound : cache.entries.length ≤ cache.maxsize := by
    have size : (keys cache).length = cache.entries.length := by simp [keys]
    rw [← size,recent]
    exact List.length_take_le _ _
  constructor
  · rfl
  · have room : (bump workspace_id ((recents log).take cache.maxsize)).length ≤ cache.maxsize := by
      rw [← recent,← keys_touch _ _ entry]
      simp only [keys,List.length_reverse,List.length_map]
      omega
    rw [keys_touch,recent,recents_snoc,bump_take (recents_nodup log),List.take_of_length_le room]
  · intro pair member
    rw [lastPut_get]
    rcases mem_touch member with ⟨old,_⟩ | rfl
    · exact latest pair old
    · exact latest _ stored
  · intro key found known
    rw [lastPut_get] at known
    exact List.mem_append_left _ (put_logged key found known)

theorem step_held {cache : WorkspaceBM25Cache} (held : Held maxsize calls cache log) (call : Call) :
    Held maxsize (calls ++ [call]) (step cache call) (log ++ touched cache call) := by
  cases call with
  | put workspace_id entry => exact put_held held workspace_id entry
  | get workspace_id version =>
    cases hit : cache.get workspace_id version with
    | some found =>
      obtain ⟨entry,after⟩ := found
      simpa only [step,touched,hit,Option.isSome_some,if_true] using hit_held held hit
    | none =>
      obtain ⟨size,recent,latest,put_logged⟩ := held
      have still : step cache (.get workspace_id version) = cache := by simp only [step,hit]
      have quiet : touched cache (.get workspace_id version) = [] := by simp [touched,hit]
      rw [still,quiet,List.append_nil]
      exact ⟨size,recent,by simpa only [lastPut_get] using latest,by simpa only [lastPut_get] using put_logged⟩

theorem run_held (maxsize : Nat) (calls : List Call) :
    Held maxsize calls (run (fresh maxsize) calls) (touches (fresh maxsize) calls) := by
  induction calls using List.reverseRecOn with
  | nil => exact ⟨rfl,(List.take_nil).symm,nofun,nofun⟩
  | append_singleton calls call ih =>
    rw [touches_snoc,run,List.foldl_append]
    exact step_held ih call

theorem lookup_iff {cache : WorkspaceBM25Cache} : cache.lookup workspace_id = some entry ↔ (workspace_id,entry) ∈ cache.entries := by
  refine ⟨WorkspaceBM25Cache.lookup_mem,fun member => ?_⟩
  have found : ∃ other, cache.lookup workspace_id = some other := by
    apply Option.isSome_iff_exists.mp
    rw [WorkspaceBM25Cache.lookup,Option.isSome_map,List.find?_isSome]
    exact ⟨_,member,by simp⟩
  obtain ⟨other,found⟩ := found
  have same := List.inj_on_of_nodup_map cache.apart (WorkspaceBM25Cache.lookup_mem found) member rfl
  rw [found,(Prod.mk.inj same).2]

theorem get_iff {cache : WorkspaceBM25Cache} :
    (∃ after, cache.get workspace_id version = some (entry,after)) ↔ (workspace_id,entry) ∈ cache.entries ∧ entry.version = version := by
  rw [← lookup_iff,WorkspaceBM25Cache.get]
  cases cache.lookup workspace_id with
  | none => simp
  | some cached =>
    by_cases same : cached.version = version
    · simp only [same,if_true,Option.some.injEq,Prod.mk.injEq]
      exact ⟨fun ⟨_,equal,_⟩ => ⟨equal,equal ▸ same⟩,fun ⟨equal,_⟩ => ⟨_,equal,rfl⟩⟩
    · simp only [same,if_false,reduceCtorEq,exists_false,Option.some.injEq,false_iff]
      rintro ⟨rfl,equal⟩
      exact same equal

-- The cache answers exactly what the recency of the calls says.
theorem lru_exact (maxsize : Nat) (calls : List Call) :
    (run (fresh maxsize) calls).entries.length ≤ maxsize ∧
    (∀ workspace_id version entry,
      (∃ after, (run (fresh maxsize) calls).get workspace_id version = some (entry,after)) ↔
        lastPut workspace_id calls = some entry ∧ entry.version = version ∧
          (since workspace_id (touches (fresh maxsize) calls)).card < maxsize) ∧
    ∀ workspace_id version, (run (fresh maxsize) calls).get workspace_id version = none →
      touched (run (fresh maxsize) calls) (.get workspace_id version) = [] ∧
      ∀ later, run (fresh maxsize) (calls ++ .get workspace_id version :: later) = run (fresh maxsize) (calls ++ later) := by
  obtain ⟨size,recent,latest,put_logged⟩ := run_held maxsize calls
  generalize cached : run (fresh maxsize) calls = cache at size recent latest
  have count : (keys cache).length = cache.entries.length := by simp [keys]
  refine ⟨?_,fun workspace_id version entry => ?_,fun workspace_id version missed => ⟨?_,fun later => ?_⟩⟩
  · rw [← count,recent]
    exact List.length_take_le _ _
  · rw [get_iff]
    constructor
    · rintro ⟨member,same⟩
      have known : workspace_id ∈ keys cache := by
        rw [keys,List.mem_reverse]
        exact List.mem_map.mpr ⟨_,member,rfl⟩
      rw [recent] at known
      exact ⟨latest _ member,same,(recent_iff.mp known).2⟩
    · rintro ⟨put_,same,near_⟩
      have known := recent_iff.mpr ⟨put_logged _ _ put_,near_⟩
      rw [← recent,keys,List.mem_reverse] at known
      obtain ⟨pair,member,rfl⟩ := List.mem_map.mp known
      have equal := latest pair member
      rw [put_] at equal
      exact ⟨(Option.some.inj equal) ▸ member,same⟩
  · simp [touched,missed]
  · have still : step cache (.get workspace_id version) = cache := by simp [step,missed]
    simp only [run,List.foldl_append,List.foldl_cons]
    rw [show calls.foldl step (fresh maxsize) = cache from cached,still]

end RagForge.CacheRecency
