import RagForge.Site

namespace RagForge.CacheCoherence
open RagForge Site Transition

-- The sparse search an activity is in the middle of.
def searchOf : Activity → Option SparseSearch.Phase
  | .search phase => some phase
  | .turn (.searching _ _ _ sparse) => some sparse
  | _ => none

def versionRead : SparseSearch.Phase → Option Nat
  | .versioned _ version => some version
  | .missed _ version => some version
  | .selected _ version _ => some version
  | .ranked _ version _ _ => some version
  | _ => none

-- The chunk list a search works with, under the version it read.
def listed : SparseSearch.Phase → Option (Nat × List Uuid)
  | .selected _ version rows => some (version,rows.map Prod.fst)
  | .ranked _ version chunk_ids _ => some (version,chunk_ids)
  | _ => none

def begun (a : Activity) : Bool := ((searchOf a).bind versionRead).isSome

-- The workspace of a deletion or an ingestion that has completely finished.
def finished : Activity → Option Uuid
  | .delete (.deleted document) => some document.workspace_id
  | .ingest (.ended _ (.completed run _)) => some run.workspace_id
  | _ => none

-- The workspace whose version a deletion or an ingestion has counted up.
def announced : Activity → Option Uuid
  | .delete (.invalidated document _) => some document.workspace_id
  | a => finished a

-- A step of a search, or a step that leaves the caches alone.
theorem act_search (acted : act deployment i s a label = some (s',a')) :
    (∃ phase phase', searchOf a = some phase ∧ searchOf a' = some phase' ∧ SparseSearch.Change s phase s' phase') ∨
      s'.caches = s.caches ∧ ∀ phase, searchOf a' = some phase → searchOf a = some phase ∨ ∃ call, phase = .requested call := by
  cases act_change acted with
  | upload change =>
    cases change with
    | save drawn _ => exact .inr ⟨(Stores.draw_same drawn).caches,nofun⟩
    | torn drawn _ => exact .inr ⟨(Stores.draw_same drawn).caches,nofun⟩
    | insert drawn _ => exact .inr ⟨(Stores.draw_same drawn).caches,nofun⟩
    | stop => exact .inr ⟨rfl,nofun⟩
  | reingest change =>
    cases change with
    | insert _ drawn _ => exact .inr ⟨(Stores.draw_same drawn).caches,nofun⟩
    | stop => exact .inr ⟨rfl,nofun⟩
  | delete change => cases change <;> exact .inr ⟨rfl,nofun⟩
  | ingest change =>
    cases change with
    | load _ drawn => exact .inr ⟨(Stores.draw_same drawn).caches,nofun⟩
    | prepare _ _ drawn => exact .inr ⟨(Stores.draw_same drawn).caches,nofun⟩
    | _ => exact .inr ⟨rfl,nofun⟩
  | search change => exact .inl ⟨_,_,rfl,rfl,change⟩
  | turn change =>
    cases change with
    | open_ _ drawn => exact .inr ⟨(Stores.draw_same drawn).caches,nofun⟩
    | persist _ drawn => exact .inr ⟨(Stores.draw_same drawn).caches,nofun⟩
    | embed => exact .inr ⟨rfl,fun phase looking => .inr ⟨_,(Option.some.inj looking).symm⟩⟩
    | dense => exact .inr ⟨rfl,fun phase looking => .inl looking⟩
    | sparse inner => exact .inl ⟨_,_,rfl,rfl,inner⟩
    | _ => exact .inr ⟨rfl,nofun⟩

theorem failed_announces {phase : Ingestion.Phase} (failed : phase.failed = true) : announced (.ingest phase) = none := by
  cases phase with
  | ended d outcome => cases outcome <;> first | rfl | cases failed
  | _ => rfl

theorem invalidate_grows {s : Stores} : s.versions w' ≤ (s.invalidateWorkspaceBm25Cache w).versions w' := by
  unfold Stores.invalidateWorkspaceBm25Cache
  by_cases equal : w' = w
  · subst equal; simp
  · simp [equal]

theorem invalidate_counts {s : Stores} : (s.invalidateWorkspaceBm25Cache w).versions w = s.versions w + 1 := by
  simp [Stores.invalidateWorkspaceBm25Cache]

-- Versions never go down, and announcing a change counts one up.
theorem act_versions (acted : act deployment i s a label = some (s',a')) :
    (∀ w, s.versions w ≤ s'.versions w) ∧
      ∀ w, announced a' = some w → announced a = some w ∨ s.versions w < s'.versions w := by
  have drawn {ids : List Uuid} {w : Uuid} {after : Stores} (drawn : s.draw w ids = some after) : ∀ w, s.versions w ≤ after.versions w :=
    fun w => le_of_eq (congrFun (Stores.draw_same drawn).versions w).symm
  cases act_change acted with
  | upload change =>
    cases change with
    | save one _ => exact ⟨(drawn one :),nofun⟩
    | torn one _ => exact ⟨(drawn one :),nofun⟩
    | insert one _ => exact ⟨(drawn one :),nofun⟩
    | stop => exact ⟨fun _ => le_refl _,nofun⟩
  | reingest change =>
    cases change with
    | insert _ one _ => exact ⟨(drawn one :),nofun⟩
    | stop => exact ⟨fun _ => le_refl _,nofun⟩
  | delete change =>
    cases change with
    | clear next => rcases next with rfl | ⟨_,rfl⟩ <;> exact ⟨fun _ => le_refl _,nofun⟩
    | invalidate =>
      refine ⟨fun _ => invalidate_grows,fun w same => .inr ?_⟩
      cases Option.some.inj same
      rw [invalidate_counts]
      exact Nat.lt_succ_self _
    | commit => exact ⟨fun _ => le_refl _,fun w same => .inl same⟩
    | _ => exact ⟨fun _ => le_refl _,nofun⟩
  | ingest change =>
    cases change with
    | load _ one => exact ⟨(drawn one :),nofun⟩
    | prepare _ _ one => exact ⟨(drawn one :),nofun⟩
    | clear next =>
      refine ⟨fun _ => le_refl _,fun w same => ?_⟩
      rcases next with rfl | ⟨failed,_⟩; exacts [(nomatch same),nomatch (failed_announces failed).symm.trans same]
    | index next =>
      refine ⟨fun _ => le_refl _,fun w same => ?_⟩
      rcases next with rfl | ⟨failed,_⟩; exacts [(nomatch same),nomatch (failed_announces failed).symm.trans same]
    | invalidate =>
      refine ⟨fun _ => invalidate_grows,fun w same => .inr ?_⟩
      cases Option.some.inj same
      rw [invalidate_counts]
      exact Nat.lt_succ_self _
    | stop failed => exact ⟨fun _ => le_refl _,fun w same => nomatch (failed_announces failed).symm.trans same⟩
    | _ => exact ⟨fun _ => le_refl _,nofun⟩
  | search change => cases change <;> exact ⟨fun _ => le_refl _,nofun⟩
  | turn change =>
    cases change with
    | open_ _ one => exact ⟨(drawn one :),nofun⟩
    | persist _ one => exact ⟨(drawn one :),nofun⟩
    | sparse inner => cases inner <;> exact ⟨fun _ => le_refl _,nofun⟩
    | _ => exact ⟨fun _ => le_refl _,nofun⟩

theorem runs_versions (path : Runs (Step deployment) earlier labels later) :
    (∀ w, earlier.shared.versions w ≤ later.shared.versions w) ∧
      ∀ k w, announced (later.locals k) = some w →
        announced (earlier.locals k) = some w ∨ earlier.shared.versions w < later.shared.versions w := by
  induction path with
  | nil => exact ⟨fun _ => le_refl _,fun _ _ same => .inl same⟩
  | @snoc labels s label next prior moved ih =>
    obtain ⟨acted,others⟩ := Interleave.step_parts moved
    obtain ⟨grows,announces⟩ := act_versions acted
    refine ⟨fun w => (ih.1 w).trans (grows w),fun k w same => ?_⟩
    by_cases equal : k = label.1
    · subst equal
      rcases announces w same with before | counted
      · exact (ih.2 _ w before).imp_right fun less => less.trans_le (grows w)
      · exact .inr ((ih.1 w).trans_lt counted)
    · exact (ih.2 k w (others k equal ▸ same)).imp_right fun less => less.trans_le (grows w)

-- Nobody holds a version that was not reached.
structure Numbered (s : Stores) (a : Activity) : Prop where
  search : ∀ phase n, searchOf a = some phase → versionRead phase = some n → n ≤ s.versions phase.call.workspace_id
  delete : ∀ document v, a = .delete (.invalidated document v) → v ≤ s.versions document.workspace_id

theorem change_version (change : SparseSearch.Change s phase s' phase') (read : versionRead phase' = some n) :
    versionRead phase = some n ∨ n = s.versions phase.call.workspace_id := by
  cases change with
  | version => exact .inr (Option.some.inj read).symm
  | fail => cases read
  | _ => exact .inl read

-- A version a search holds after a step was held before or has just been read.
theorem act_read (acted : act deployment i s a label = some (s',a')) (looking : searchOf a' = some phase')
    (read : versionRead phase' = some n) :
    (∃ phase, searchOf a = some phase ∧ versionRead phase = some n ∧ phase.call = phase'.call) ∨
      n = s.versions phase'.call.workspace_id := by
  rcases act_search acted with ⟨phase,after,before,now,change⟩ | ⟨_,same⟩
  · cases looking.symm.trans now
    rw [change.call]
    exact (change_version change read).imp_left fun held => ⟨phase,before,held,rfl⟩
  · rcases same phase' looking with before | ⟨call,rfl⟩
    · exact .inl ⟨phase',before,read,rfl⟩
    · cases read

theorem numbered_outline : Interleave.Outline (act deployment) (fun _ => True) (fun s _ a => Numbered s a) where
  own i s a label s' a' _ numbered acted := by
    refine ⟨trivial,fun phase' n looking read => ?_,fun document v gone => ?_⟩
    · refine le_trans ?_ ((act_versions acted).1 _)
      rcases act_read acted looking read with ⟨phase,before,held,same⟩ | rfl
      · exact same ▸ numbered.search phase n before held
      · exact le_refl _
    · subst gone
      cases act_change acted with
      | delete change => cases change with
        | invalidate => rw [invalidate_counts]
        | clear next => rcases next with absurd_ | ⟨_,absurd_⟩ <;> cases absurd_
  others i j s a label s' a' m _ _ _ numbered acted :=
    ⟨fun phase n looking read => (numbered.search phase n looking read).trans ((act_versions acted).1 _),
      fun document v gone => (numbered.delete document v gone).trans ((act_versions acted).1 _)⟩

theorem fresh_searches (fresh : a.fresh = true) (looking : searchOf a = some phase) : ∃ call, phase = .requested call := by
  cases a with
  | search phase =>
    cases Option.some.inj looking
    cases phase <;> first | exact ⟨_,rfl⟩ | cases fresh
  | turn phase =>
    cases phase with
    | searching => cases fresh
    | _ => cases looking
  | _ => cases looking

theorem runs_numbered (path : Runs (Step deployment) start labels c) (fresh : ∀ i, (start.locals i).fresh = true) (i : Nat) :
    Numbered c.shared (c.locals i) := by
  refine (numbered_outline.runs ⟨trivial,fun i => ⟨fun phase n looking read => ?_,fun document v gone => ?_⟩⟩ path).2 i
  · obtain ⟨call,rfl⟩ := fresh_searches (fresh i) looking
    cases read
  · have fresh := fresh i
    rw [gone] at fresh
    cases fresh

-- A chunk list under a version is explained by a state with these rows and at
-- least this version, where no deletion counted up to it is still uncommitted.
structure Snapshot (w : Uuid) (n : Nat) (chunk_ids : List Uuid) (m : Config) : Prop where
  rows : chunk_ids.Perm ((m.shared.chunkRows w).map Prod.fst)
  reached : n ≤ m.shared.versions w
  settled : ∀ k document v, m.locals k = .delete (.invalidated document v) → document.workspace_id = w → n < v

structure Explained (past : Config → Prop) (c : Config) : Prop where
  entries : ∀ worker w entry, (w,entry) ∈ (c.shared.caches worker).entries → ∃ m, past m ∧ Snapshot w entry.version entry.chunk_ids m
  searches : ∀ j phase n chunk_ids, searchOf (c.locals j) = some phase → listed phase = some (n,chunk_ids) →
    ∃ m, past m ∧ Snapshot phase.call.workspace_id n chunk_ids m

theorem Explained.mono (explained : Explained past c) (wider : ∀ m, past m → later m) : Explained later c :=
  ⟨fun worker w entry member => (explained.entries worker w entry member).imp fun m both => ⟨wider m both.1,both.2⟩,
    fun j phase n chunk_ids looking list =>
      (explained.searches j phase n chunk_ids looking list).imp fun m both => ⟨wider m both.1,both.2⟩⟩

def selects : Label → Bool
  | .search (.select _) => true
  | .turn (.sparse (.select _)) => true
  | _ => false

-- A search selects its rows only when every deletion of the workspace that has
-- counted up to the version it read has committed or failed.
def Quiet (c : Config) (label : Nat × Label) : Prop :=
  selects label.2 = true → ∀ call version, searchOf (c.locals label.1) = some (.missed call version) →
    ∀ k document v, c.locals k = .delete (.invalidated document v) → document.workspace_id = call.workspace_id → version < v

theorem missed_selects (acted : SparseSearch.act deployment s (.missed call version) label = some (s',.selected call' version' rows)) :
    ∃ rows, label = .select rows := by
  cases label with
  | select rows => exact ⟨rows,rfl⟩
  | _ => cases acted

theorem searching_label (acted : Turn.act deployment s (.searching request conversation dense sparse) label =
    some (s',.searching request' conversation' dense' sparse')) :
    sparse' = sparse ∨ ∃ inner, label = .sparse inner ∧ SparseSearch.act deployment s sparse inner = some (s',sparse') := by
  cases label with
  | sparse inner =>
    cases dense <;>
    · obtain ⟨out,moved,equal⟩ := Option.map_eq_some_iff.mp acted
      cases equal
      exact .inr ⟨inner,rfl,moved⟩
  | dense found =>
    cases dense with
    | none =>
      simp only [Turn.act] at acted
      split at acted <;> cases acted
      exact .inl rfl
    | some _ => cases acted
  | fuse =>
    cases dense <;> cases sparse <;> first | cases acted | (simp only [Turn.act] at acted; split at acted <;> cases acted)
  | _ => cases dense <;> cases acted

theorem act_selects (acted : act deployment i s a label = some (s',a')) (before : searchOf a = some (.missed call version))
    (after : searchOf a' = some (.selected call' version' rows)) : selects label = true := by
  cases act_part acted with
  | search moved =>
    cases Option.some.inj before
    cases Option.some.inj after
    obtain ⟨rows,rfl⟩ := missed_selects moved
    rfl
  | @turn before_ label phase moved =>
    cases before_ <;> cases before
    cases phase <;> cases after
    rcases searching_label moved with absurd_ | ⟨inner,rfl,step⟩
    · cases absurd_
    · obtain ⟨rows,rfl⟩ := missed_selects step
      rfl
  | _ => cases before

theorem mem_setCache {s : Stores} (member : pair ∈ ((SparseSearch.setCache s worker cache).caches other).entries) :
    pair ∈ (s.caches other).entries ∨ pair ∈ cache.entries := by
  unfold SparseSearch.setCache at member
  by_cases equal : other = worker
  · subst equal
    simp only [Function.update_self] at member
    exact .inr member
  · simp only [Function.update_of_ne equal] at member
    exact .inl member

-- A search brings no chunk list into the cache but the one it selects.
theorem change_explained (explains : Uuid → Nat → List Uuid → Prop) (change : SparseSearch.Change s phase s' phase')
    (entries : ∀ worker w entry, (w,entry) ∈ (s.caches worker).entries → explains w entry.version entry.chunk_ids)
    (mine : ∀ n chunk_ids, listed phase = some (n,chunk_ids) → explains phase.call.workspace_id n chunk_ids)
    (select : ∀ call version rows, phase = .missed call version → phase' = .selected call version rows →
      rows.Perm (s.chunkRows call.workspace_id) → explains call.workspace_id version (rows.map Prod.fst)) :
    (∀ worker w entry, (w,entry) ∈ (s'.caches worker).entries → explains w entry.version entry.chunk_ids) ∧
      ∀ n chunk_ids, listed phase' = some (n,chunk_ids) → explains phase'.call.workspace_id n chunk_ids := by
  cases change with
  | version => exact ⟨entries,nofun⟩
  | miss => exact ⟨entries,nofun⟩
  | hit found =>
    obtain ⟨stored,version,rest⟩ := WorkspaceBM25Cache.get_parts found
    refine ⟨fun worker w entry member => ?_,fun n chunk_ids list => ?_⟩
    · rcases mem_setCache member with old | touched
      · exact entries worker w entry old
      · exact entries _ w entry (rest _ touched)
    · cases Option.some.inj list
      exact version ▸ entries _ _ _ stored
  | select same =>
    refine ⟨entries,fun n chunk_ids list => ?_⟩
    cases Option.some.inj list
    exact select _ _ _ rfl rfl same
  | put _ =>
    refine ⟨fun worker w entry member => ?_,fun n chunk_ids list => ?_⟩
    · rcases mem_setCache member with old | put
      · exact entries worker w entry old
      · rcases WorkspaceBM25Cache.mem_put put with old | new
        · exact entries _ w entry old
        · cases new
          exact mine _ _ rfl
    · cases Option.some.inj list
      exact mine _ _ rfl
  | fail => exact ⟨entries,nofun⟩

theorem explained_step (explained : Explained past c) (here : past c) (numbered : ∀ i, Numbered c.shared (c.locals i))
    (quiet : Quiet c label) (moved : Step deployment c label next) : Explained past next := by
  obtain ⟨acted,same⟩ := Interleave.step_parts moved
  have parts : (∀ worker w entry, (w,entry) ∈ (next.shared.caches worker).entries →
      ∃ m, past m ∧ Snapshot w entry.version entry.chunk_ids m) ∧
      ∀ phase n chunk_ids, searchOf (next.locals label.1) = some phase → listed phase = some (n,chunk_ids) →
        ∃ m, past m ∧ Snapshot phase.call.workspace_id n chunk_ids m := by
    rcases act_search acted with ⟨phase,phase',before,now,change⟩ | ⟨caches,kept⟩
    · -- the rows a search selects are those of this very state
      have select (call : SparseSearch.Call) (version : Nat) (rows : List (Uuid × Str)) (missed : phase = .missed call version)
          (selected : phase' = .selected call version rows) (rows_eq : rows.Perm (c.shared.chunkRows call.workspace_id)) :
          ∃ m, past m ∧ Snapshot call.workspace_id version (rows.map Prod.fst) m := by
        subst missed selected
        exact ⟨c,here,rows_eq.map _,(numbered _).search _ _ before rfl,quiet (act_selects acted before now) call version before⟩
      obtain ⟨entries,mine⟩ := change_explained (fun w n chunk_ids => ∃ m, past m ∧ Snapshot w n chunk_ids m)
        change explained.entries (fun n chunk_ids list => explained.searches _ phase n chunk_ids before list) select
      refine ⟨entries,fun other n chunk_ids looking list => ?_⟩
      cases now.symm.trans looking
      exact mine n chunk_ids list
    · refine ⟨caches ▸ explained.entries,fun phase n chunk_ids looking list => ?_⟩
      rcases kept phase looking with before | ⟨call,rfl⟩
      · exact explained.searches _ phase n chunk_ids before list
      · cases list
  refine ⟨parts.1,fun j phase n chunk_ids looking list => ?_⟩
  by_cases equal : j = label.1
  · subst equal
    exact parts.2 phase n chunk_ids looking list
  · exact explained.searches j phase n chunk_ids (same j equal ▸ looking) list

theorem runs_explained (path : Runs (within Quiet (Step deployment)) start labels c) (fresh : ∀ i, (start.locals i).fresh = true)
    (cold : ∀ worker, (start.shared.caches worker).entries = []) : Explained (Passes (Step deployment) start labels c) c := by
  refine path.history (fun labels c => Explained (Passes (Step deployment) start labels c) c) ⟨?_,?_⟩ ?_
  · intro worker w entry member
    rw [cold] at member
    cases member
  · intro j phase n chunk_ids looking list
    obtain ⟨call,rfl⟩ := fresh_searches (fresh j) looking
    cases list
  · intro labels s label next prior explained moved
    have path := prior.unguarded
    exact (explained_step explained (Passes.here path) (runs_numbered path fresh) moved.1 moved.2).mono
      fun m passed => passed.snoc moved.2

-- A search reads its version after it begins.
theorem runs_begun (path : Runs (Step deployment) b labels c) (waiting : begun (b.locals j) = false)
    (looking : searchOf (c.locals j) = some phase) (read : versionRead phase = some n) :
    b.shared.versions phase.call.workspace_id ≤ n := by
  refine path.history (fun _ c => ∀ phase n, searchOf (c.locals j) = some phase → versionRead phase = some n →
    b.shared.versions phase.call.workspace_id ≤ n) ?_ ?_ phase n looking read
  · intro phase n looking read
    unfold begun at waiting
    rw [looking,Option.bind_some,read] at waiting
    cases waiting
  · intro labels s label next prior kept moved phase n looking read
    obtain ⟨acted,same⟩ := Interleave.step_parts moved
    by_cases equal : j = label.1
    · subst equal
      rcases act_read acted looking read with ⟨before,was,held,call⟩ | rfl
      · exact call ▸ kept before n was held
      · exact (runs_versions prior).1 _
    · exact kept phase n (same j equal ▸ looking) read

theorem runs_finished (path : Runs (Step deployment) b labels c) (done : finished (b.locals k) = some w) :
    finished (c.locals k) = some w := by
  refine Interleave.Runs.local_stays k (fun a => finished a = some w) ?_ path done
  intro s a label s' a' done acted
  -- neither has a step left
  unfold finished at done
  split at done
  · cases label with
    | delete label => cases label <;> cases acted
    | _ => cases acted
  · cases label with
    | ingest label => cases label <;> cases acted
    | _ => cases acted
  · cases done

-- The search ranks over the committed rows of a moment at which the request had
-- taken effect.
def Coherent (deployment : Deployment) (start : Config) (labels : List (Nat × Label)) (c : Config) : Prop :=
  ∀ j k b call version chunk_ids results, Passes (Step deployment) start labels c b → begun (b.locals j) = false →
    finished (b.locals k) = some call.workspace_id → searchOf (c.locals j) = some (.ranked call version chunk_ids results) →
    ∃ m, Passes (Step deployment) start labels c m ∧ finished (m.locals k) = some call.workspace_id ∧
      chunk_ids.Perm ((m.shared.chunkRows call.workspace_id).map Prod.fst)

theorem announced_cases (done : announced a = some w) : finished a = some w ∨
    ∃ document v, a = .delete (.invalidated document v) ∧ document.workspace_id = w := by
  unfold announced at done
  split at done
  · exact .inr ⟨_,_,rfl,Option.some.inj done⟩
  · exact .inl done

theorem finished_announced (done : finished a = some w) : announced a = some w := by
  unfold finished at done
  split at done
  · exact done
  · exact done
  · cases done

theorem quiet_runs_coherent (deployment : Deployment) (start c : Config) (labels : List (Nat × Label))
    (fresh : ∀ i, (start.locals i).fresh = true) (cold : ∀ worker, (start.shared.caches worker).entries = [])
    (path : Runs (within Quiet (Step deployment)) start labels c) : Coherent deployment start labels c := by
  intro j k b call version chunk_ids results passed waiting done ranked
  obtain ⟨m,passed',snapshot⟩ := (runs_explained path fresh cold).searches j _ _ _ ranked rfl
  have ⟨_,_,_,_,later⟩ := passed
  have read : b.shared.versions call.workspace_id ≤ version := runs_begun later waiting ranked rfl
  refine ⟨m,passed',?_,snapshot.rows⟩
  rcases Passes.total passed passed' with ⟨between,after⟩ | ⟨between,before⟩
  · exact runs_finished after done
  · -- the rows were read before, under the version the request left behind
    obtain ⟨grows,announces⟩ := runs_versions before
    rcases announces k _ (finished_announced done) with counted | less
    · rcases announced_cases counted with finished_ | ⟨document,v,open_,home⟩
      · exact finished_
      · obtain ⟨_,_,_,earlier,_⟩ := passed'
        have bound := (runs_numbered earlier fresh k).delete document v open_
        rw [home] at bound
        exact absurd (snapshot.settled k document v open_ home) (not_lt.mpr (bound.trans ((grows _).trans read)))
    · exact absurd snapshot.reached (not_le.mpr (less.trans_le read))

-- An upload, its ingestion, two searches and a deletion in one workspace.
def readers : Config where
  shared := vacant
  locals := fun
    | 0 => .upload (.requested memo)
    | 1 => .ingest (.received ⟨10⟩ none)
    | 2 => .delete (.requested ⟨1⟩ ⟨10⟩)
    | 3 => .search (.requested ⟨0,⟨1⟩,"alpha".toList,5⟩)
    | 4 => .search (.requested ⟨0,⟨1⟩,"alpha".toList,5⟩)
    | _ => .idle

theorem readers_fresh (i : Nat) : (readers.locals i).fresh = true := by
  unfold readers; dsimp only; split <;> rfl

def searchSteps (i : Nat) (rows : List (Uuid × Str)) : List (Nat × Label) :=
  [(i,.search .readVersion),(i,.search .cacheGet),(i,.search (.select rows)),(i,.search .cachePut)]

def answered (a : Activity) : Option (Uuid × List Uuid) :=
  match searchOf a with
  | some (.ranked call _ chunk_ids _) => some (call.workspace_id,chunk_ids)
  | _ => none

theorem answered_some (ranked : answered a = some (w,chunk_ids)) :
    ∃ call version results, searchOf a = some (.ranked call version chunk_ids results) ∧ call.workspace_id = w := by
  unfold answered at ranked
  split at ranked
  · rename_i looking
    cases Option.some.inj ranked
    exact ⟨_,_,_,looking,rfl⟩
  · cases ranked

def quietUpTo (bound : Nat) (c : Config) (label : Nat × Label) : Bool :=
  match searchOf (c.locals label.1) with
  | some (.missed call version) => (List.range bound).all fun k => match c.locals k with
    | .delete (.invalidated document v) => document.workspace_id ≠ call.workspace_id || version < v
    | _ => true
  | _ => true

theorem quietUpTo_sound (tested : quietUpTo bound c label = true) (idle : ∀ k, bound ≤ k → c.locals k = .idle) : Quiet c label := by
  intro _ call version missed k document v open_ home
  have inside : k < bound := by
    by_contra outside
    exact nomatch (idle k (not_lt.mp outside)).symm.trans open_
  unfold quietUpTo at tested
  rw [missed] at tested
  have one := List.all_eq_true.mp tested k (List.mem_range.mpr inside)
  rw [open_] at one
  simpa [home] using one

-- The second search starts after the deletion and reads its version anew.
def inTurn : List (Nat × Label) := uploadSteps 0 ⟨10⟩ ⟨11⟩ ++ ingestSteps 1 ⟨14⟩ ⟨12⟩ ⟨13⟩ ++
  searchSteps 3 [(⟨12⟩,"Alpha".toList)] ++ deleteSteps 2 ++ searchSteps 4 []

theorem in_turn_coherent : ∃ c, Runs (within Quiet (Step plain)) readers inTurn c ∧ Coherent plain readers inTurn c ∧
    answered (c.locals 4) = some (⟨1⟩,[]) := by
  obtain ⟨c,path,passed⟩ := run_within (Interleave.advance (act plain)) readers inTurn
    (quietUpTo 5) Quiet (fun c => answered (c.locals 4) = some (⟨1⟩,[])) (by decide +kernel)
    fun earlier s label before tested => quietUpTo_sound tested fun k outside => runs_idle before (by
      match k,outside with
      | k + 5,_ => rfl)
  exact ⟨c,path,quiet_runs_coherent plain readers c inTurn readers_fresh (fun _ => rfl) path,of_decide_eq_true passed⟩

-- A search between the INCR of the deletion and its commit caches the old rows
-- under the new version, and the next search hits them.
def staleBefore : List (Nat × Label) := uploadSteps 0 ⟨10⟩ ⟨11⟩ ++ ingestSteps 1 ⟨14⟩ ⟨12⟩ ⟨13⟩ ++ (deleteSteps 2).take 4 ++
  searchSteps 3 [(⟨12⟩,"Alpha".toList)] ++ [(2,.delete .commit)]

def staleHit : List (Nat × Label) := staleBefore ++ [(4,.search .readVersion),(4,.search .cacheGet)]

theorem stale_hit : ¬ ∀ (deployment : Deployment) (start c : Config) (labels : List (Nat × Label)),
    (∀ i, (start.locals i).fresh = true) → (∀ worker, (start.shared.caches worker).entries = []) →
    Runs (Step deployment) start labels c → Coherent deployment start labels c := by
  intro all
  obtain ⟨c,path,passed⟩ := run_any (Interleave.advance (act plain)) readers staleHit
    (fun c => answered (c.locals 4) = some (⟨1⟩,[⟨12⟩])) (by decide +kernel)
  obtain ⟨call,version,results,ranked,home⟩ := answered_some (of_decide_eq_true passed)
  obtain ⟨b,before,after⟩ := path.split staleBefore _ rfl
  have begins := before.checked (fun b => begun (b.locals 4) = false ∧ finished (b.locals 2) = some ⟨1⟩) (by decide +kernel)
  obtain ⟨waiting,done⟩ := of_decide_eq_true begins
  obtain ⟨m,middle,taken_,rows⟩ := all plain readers c staleHit readers_fresh (fun _ => rfl) path 4 2 b call version [⟨12⟩] results
    ⟨_,_,rfl,before,after⟩ waiting (home ▸ done) ranked
  -- wherever the deletion has committed no row is left
  have gone := middle.all (fun m => finished (m.locals 2) = some ⟨1⟩ → m.shared.chunkRows ⟨1⟩ = []) (by decide +kernel)
  rw [home] at taken_ rows
  rw [of_decide_eq_true gone taken_] at rows
  cases rows.eq_nil

end RagForge.CacheCoherence
