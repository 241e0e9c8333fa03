import Mathlib.Data.List.Nodup
import Mathlib.Data.List.Sort
import Mathlib.Algebra.Order.Ring.Rat
import RagForge.Identifier

namespace RagForge

def isAsciiAlnum (c : Char) : Bool :=
  ('A' ≤ c && c ≤ 'Z') || ('a' ≤ c && c ≤ 'z') || ('0' ≤ c && c ≤ '9')

-- `_TOKEN_RE.findall(text)`: the maximal runs of [A-Za-z0-9].
def asciiRuns : Str → Str → List Str
  | run,[] => if run.isEmpty then [] else [run]
  | run,c :: rest =>
    if isAsciiAlnum c then asciiRuns (run ++ [c]) rest
    else if run.isEmpty then asciiRuns [] rest else run :: asciiRuns [] rest

-- `_tokenize`
def tokenize (text : Str) : List Str := (asciiRuns [] text).map (·.map Char.toLower)

-- What a built `BM25Okapi` answers from: the token lists it was given.
abbrev Corpus := List (List Str)

-- The third-party constructor divides by the number of distinct terms: a corpus
-- whose token lists are all empty raises ZeroDivisionError.
def BM25Okapi (corpus : Corpus) : Option Corpus :=
  if corpus.all (·.isEmpty) then none else some corpus

structure CacheEntry where
  version : Nat
  bm25 : Option Corpus
  chunk_ids : List Uuid

-- `_WorkspaceBM25Cache`: an OrderedDict, least recently used workspace first.
structure WorkspaceBM25Cache where
  entries : List (Uuid × CacheEntry)
  maxsize : Nat
  apart : (entries.map Prod.fst).Nodup

namespace WorkspaceBM25Cache

def lookup (cache : WorkspaceBM25Cache) (workspace_id : Uuid) : Option CacheEntry :=
  (cache.entries.find? (·.1 = workspace_id)).map Prod.snd

theorem without_apart (cache : WorkspaceBM25Cache) (workspace_id : Uuid) (entry : CacheEntry) :
    ((cache.entries.filter (·.1 ≠ workspace_id) ++ [(workspace_id,entry)]).map Prod.fst).Nodup := by
  rw [List.map_append,List.nodup_append]
  refine ⟨cache.apart.sublist (List.filter_sublist.map Prod.fst),List.nodup_singleton _,?_⟩
  intro key kept last same equal
  obtain ⟨pair,member,rfl⟩ := List.mem_map.mp kept
  have other := of_decide_eq_true (List.mem_filter.mp member).2
  exact other (equal.trans (List.mem_singleton.mp same))

-- Assignment or lookup followed by `move_to_end`.
def touch (cache : WorkspaceBM25Cache) (workspace_id : Uuid) (entry : CacheEntry) : WorkspaceBM25Cache :=
  ⟨cache.entries.filter (·.1 ≠ workspace_id) ++ [(workspace_id,entry)],cache.maxsize,
    cache.without_apart workspace_id entry⟩

def get (cache : WorkspaceBM25Cache) (workspace_id : Uuid) (version : Nat) :
    Option (CacheEntry × WorkspaceBM25Cache) :=
  match cache.lookup workspace_id with
  | some cached => if cached.version = version then some (cached,cache.touch workspace_id cached) else none
  | none => none

-- `popitem(last=False)` when the insertion went over `maxsize`.
def evict (cache : WorkspaceBM25Cache) : WorkspaceBM25Cache :=
  if cache.maxsize < cache.entries.length then
    ⟨cache.entries.tail,cache.maxsize,cache.apart.sublist ((List.tail_sublist _).map Prod.fst)⟩
  else cache

def put (cache : WorkspaceBM25Cache) (workspace_id : Uuid) (entry : CacheEntry) : WorkspaceBM25Cache :=
  (cache.touch workspace_id entry).evict

theorem lookup_mem {cache : WorkspaceBM25Cache} (found : cache.lookup workspace_id = some entry) :
    (workspace_id,entry) ∈ cache.entries := by
  obtain ⟨pair,present,rfl⟩ := Option.map_eq_some_iff.mp found
  have same : pair.1 = workspace_id := by simpa using List.find?_some present
  rw [← same]
  exact List.mem_of_find?_eq_some present

theorem mem_touch {cache : WorkspaceBM25Cache} (member : pair ∈ (cache.touch workspace_id entry).entries) :
    pair ∈ cache.entries ∨ pair = (workspace_id,entry) := by
  rcases List.mem_append.mp member with old | new
  · exact .inl (List.mem_filter.mp old).1
  · exact .inr (List.mem_singleton.mp new)

theorem mem_put {cache : WorkspaceBM25Cache} (member : pair ∈ (cache.put workspace_id entry).entries) :
    pair ∈ cache.entries ∨ pair = (workspace_id,entry) := by
  unfold put evict at member
  split at member
  · exact mem_touch (List.mem_of_mem_tail member)
  · exact mem_touch member

-- A hit answers with a stored entry of the asked version and stores nothing new.
theorem get_parts {cache : WorkspaceBM25Cache} (hit : cache.get workspace_id version = some (entry,after)) :
    (workspace_id,entry) ∈ cache.entries ∧ entry.version = version ∧ ∀ pair ∈ after.entries, pair ∈ cache.entries := by
  unfold get at hit
  split at hit
  · rename_i cached found
    split at hit
    · rename_i same
      cases Option.some.inj hit
      have stored := lookup_mem found
      refine ⟨stored,same,fun pair member => ?_⟩
      rcases mem_touch member with old | rfl
      · exact old
      · exact stored
    · cases hit
  · cases hit

end WorkspaceBM25Cache

structure SparseSearchResult where
  chunk_id : Uuid
  score : ℚ

-- `sorted(zip(chunk_ids, scores), key=..., reverse=True)[:top_k]`, a stable sort.
def rankByScore (chunk_ids : List Uuid) (scores : List ℚ) (top_k : Nat) : List SparseSearchResult :=
  (((chunk_ids.zipWith SparseSearchResult.mk scores).insertionSort (fun a b => b.score ≤ a.score)).take top_k)

theorem rankByScore_mem (member : r ∈ rankByScore chunk_ids scores top_k) : r.chunk_id ∈ chunk_ids := by
  have zipped := (List.mem_insertionSort _).mp (List.mem_of_mem_take member)
  obtain ⟨i,bound,rfl⟩ := List.mem_iff_getElem.mp zipped
  rw [List.getElem_zipWith]
  exact List.getElem_mem _

end RagForge
