import RagForge.DeletionRaces

namespace RagForge.StorageIsolation
open RagForge Site Provenance Transition VectorLedger DeletionRaces

-- The key a step writes its upload under. A torn save counts if it has written.
def savedKey (deployment : Deployment) : Activity → Label → Option (Uuid × Str)
  | .upload (.requested request),.upload (.save document_id) =>
    if (Documents.validateUpload deployment.settings request.mime_type request.content.length).isNone then
      some (document_id,request.storageKey document_id)
    else none
  | .upload (.requested request),.upload (.saveFails document_id _ (some _)) =>
    some (document_id,request.storageKey document_id)
  | _,_ => none

-- The document of a deletion that has still to unlink its file.
def pursuing : Activity → Option Document
  | .delete (.loaded document) => some document
  | .delete (.cleared document) => some document
  | _ => none

-- The document of a deletion that has unlinked its file.
def unlinking : Activity → Option Uuid
  | .delete (.unlinked document) => some document.id
  | .delete (.invalidated document _) => some document.id
  | .delete (.deleted document) => some document.id
  | _ => none

-- Who relies on a file or is about to remove it.
inductive ClaimedBy (deployment : Deployment) (c : Config) (path : Path) (d : Uuid) : Prop where
  | row (document : Document) : document ∈ c.shared.db.documents → document.id = d →
      deployment.storage.resolve document.storage_path = some path → ClaimedBy deployment c path d
  | saved (i : Nat) (request : Documents.Upload) : c.locals i = .upload (.saved request d) →
      deployment.storage.resolve (request.storageKey d) = some path → ClaimedBy deployment c path d
  | pursued (k : Nat) (document : Document) : pursuing (c.locals k) = some document → document.id = d →
      deployment.storage.resolve document.storage_path = some path → ClaimedBy deployment c path d

-- An upload writes where no document is, and a deletion that has unlinked its
-- file reaches its commit.
structure Careful (deployment : Deployment) (c : Config) (label : Nat × Label) : Prop where
  free : ∀ d key path, savedKey deployment (c.locals label.1) label.2 = some (d,key) →
    deployment.storage.resolve key = some path → ∀ other, ¬ ClaimedBy deployment c path other
  onward : unlinking (c.locals label.1) ≠ none → ∀ error, label.2 ≠ .delete (.fails error)

-- A step of an upload that changes files is a save, whole or torn.
theorem upload_files (acted : Documents.upload deployment s phase label = some (s',phase')) :
    s'.storage.files = s.storage.files ∧ (∀ request d, phase' ≠ .saved request d) ∨
    ∃ d key path content, savedKey deployment (.upload phase) (.upload label) = some (d,key) ∧
      deployment.storage.resolve key = some path ∧ s'.storage.files = Function.update s.storage.files path (some content) ∧
      ∀ request d', phase' = .saved request d' → d = d' ∧ key = request.storageKey d' ∧ content = request.content := by
  unfold Documents.upload at acted
  split at acted
  · rename_i request document_id
    split at acted
    · cases acted
      exact .inl ⟨rfl,nofun⟩
    · rename_i valid
      obtain ⟨after,drawn,rest⟩ := Option.bind_eq_some_iff.mp acted
      obtain ⟨storage,saved,equal⟩ := Option.bind_eq_some_iff.mp rest
      cases equal
      rw [(Stores.draw_same drawn).storage] at saved
      obtain ⟨path,resolved,files⟩ := LocalStorageBackend.save_parts saved
      have key : savedKey deployment (.upload (.requested request)) (.upload (.save document_id)) =
          some (document_id,request.storageKey document_id) := by simp [savedKey,valid]
      refine .inr ⟨_,_,path,_,key,resolved,files,fun request d' same => ?_⟩
      cases same
      exact ⟨rfl,rfl,rfl⟩
  · obtain ⟨after,drawn,rest⟩ := Option.bind_eq_some_iff.mp acted
    have same := (Stores.draw_same drawn).storage
    split at rest
    · cases rest
      exact .inl ⟨congrArg FileSystem.files same,nofun⟩
    · obtain ⟨storage,saved,equal⟩ := Option.bind_eq_some_iff.mp rest
      cases equal
      rw [same] at saved
      obtain ⟨path,resolved,files⟩ := LocalStorageBackend.save_parts saved
      exact .inr ⟨_,_,path,_,rfl,resolved,files,nofun⟩
  · cases acted
    exact .inl ⟨rfl,nofun⟩
  · obtain ⟨after,drawn,rest⟩ := Option.bind_eq_some_iff.mp acted
    obtain ⟨db,_,equal⟩ := Option.bind_eq_some_iff.mp rest
    cases equal
    exact .inl ⟨congrArg FileSystem.files (Stores.draw_same drawn).storage,nofun⟩
  · cases acted
    exact .inl ⟨rfl,nofun⟩
  · cases acted

theorem act_saves (acted : act deployment i s a label = some (s',.upload (.saved request d))) :
    savedKey deployment a label = some (d,request.storageKey d) ∧ ∃ path,
      deployment.storage.resolve (request.storageKey d) = some path ∧
      s'.storage.files = Function.update s.storage.files path (some request.content) := by
  cases act_part acted with
  | upload moved =>
    rcases upload_files moved with ⟨_,other⟩ | ⟨d',key,path,content,saved,resolved,files,mine⟩
    · exact absurd rfl (other request d)
    · obtain ⟨same,key_eq,content_eq⟩ := mine request d rfl
      rw [same,key_eq] at saved
      rw [key_eq] at resolved
      rw [content_eq] at files
      exact ⟨saved,path,resolved,files⟩

-- Files move when an upload writes and when a deletion unlinks.
theorem act_files (acted : act deployment i s a label = some (s',a')) :
    s'.storage.files = s.storage.files ∨
    (∃ d key path content, savedKey deployment a label = some (d,key) ∧ deployment.storage.resolve key = some path ∧
      s'.storage.files = Function.update s.storage.files path (some content)) ∨
    ∃ document path, pursuing a = some document ∧ unlinking a' = some document.id ∧
      deployment.storage.resolve document.storage_path = some path ∧
      s'.storage.files = Function.update s.storage.files path none := by
  have same {storage : FileSystem} (equal : storage = s.storage) : storage.files = s.storage.files := congrArg _ equal
  cases act_part acted with
  | upload moved =>
    rcases upload_files moved with ⟨kept,_⟩ | ⟨d,key,path,content,saved,resolved,files,_⟩
    · exact .inl kept
    · exact .inr (.inl ⟨d,key,path,content,saved,resolved,files⟩)
  | reingest moved =>
    cases Documents.reingest_change moved with
    | insert _ drawn _ => exact .inl (same (Stores.draw_same drawn).storage)
    | stop => exact .inl rfl
  | delete moved =>
    cases Documents.delete_change moved with
    | unlink removed =>
      obtain ⟨path,resolved,files⟩ := LocalStorageBackend.delete_parts removed
      exact .inr (.inr ⟨_,path,rfl,rfl,resolved,files⟩)
    | _ => exact .inl rfl
  | ingest moved =>
    cases Ingestion.act_change moved with
    | load _ drawn => exact .inl (same (Stores.draw_same drawn).storage)
    | prepare _ _ drawn => exact .inl (same (Stores.draw_same drawn).storage)
    | _ => exact .inl rfl
  | search moved => cases SparseSearch.act_change moved <;> exact .inl rfl
  | turn moved =>
    cases Turn.act_change moved with
    | open_ _ drawn => exact .inl (same (Stores.draw_same drawn).storage)
    | persist _ drawn => exact .inl (same (Stores.draw_same drawn).storage)
    | sparse inner => cases inner <;> exact .inl rfl
    | _ => exact .inl rfl

-- A deletion pursues a stored document, and an unlinked file is not forgotten.
theorem act_pursuing (acted : act deployment i s a label = some (s',a')) (after : pursuing a' = some document) :
    pursuing a = some document ∨ document ∈ s.db.documents := by
  cases act_change acted with
  | delete change =>
    cases change with
    | get stored _ _ => cases Option.some.inj after; exact .inr stored
    | clear next => rcases next with rfl | ⟨error,rfl⟩; exacts [.inl after,nomatch after]
    | stop => cases after
    | _ => cases after
  | _ => cases after

theorem act_unlinking (acted : act deployment i s a label = some (s',a')) (careful : unlinking a ≠ none → ∀ error, label ≠ .delete (.fails error))
    (before : unlinking a = some d) : unlinking a' = some d := by
  unfold unlinking at before
  split at before <;> cases before
  all_goals
    cases label with
    | delete label =>
      cases label with
      | fails error => exact absurd rfl (careful nofun error)
      | _ => cases acted <;> rfl
    | _ => cases acted

theorem pursuing_deleting (pursued : pursuing a = some document) (key : document.id = d) : deleting a = some d := by
  unfold pursuing at pursued
  split at pursued <;> cases pursued <;> exact congrArg some key

theorem claimed_step (moved : Step deployment c label next) (claimed : ClaimedBy deployment next path d) :
    ClaimedBy deployment c path d ∨ ∃ request, next.locals label.1 = .upload (.saved request d) ∧
      savedKey deployment (c.locals label.1) label.2 = some (d,request.storageKey d) ∧
      deployment.storage.resolve (request.storageKey d) = some path := by
  obtain ⟨acted,same⟩ := Interleave.step_parts moved
  cases claimed with
  | row document stored key resolved =>
    rcases Commits.act_documents acted with descends | ⟨request,id',phase,documents⟩
    · obtain ⟨old,present,identity,_,place⟩ := descends document stored
      exact .inl (.row old present (identity.trans key) (place ▸ resolved))
    · rw [documents] at stored
      rcases List.mem_append.mp stored with old | new
      · exact .inl (.row document old key resolved)
      · cases List.mem_singleton.mp new
        cases (show id' = d from key)
        exact .inl (.saved label.1 request phase resolved)
  | saved i request saved resolved =>
    by_cases equal : i = label.1
    · subst equal
      exact .inr ⟨request,saved,(act_saves (saved ▸ acted)).1,resolved⟩
    · exact .inl (.saved i request (same i equal ▸ saved) resolved)
  | pursued k document pursued key resolved =>
    by_cases equal : k = label.1
    · subst equal
      rcases act_pursuing acted pursued with before | stored
      · exact .inl (.pursued _ document before key resolved)
      · exact .inl (.row document stored key resolved)
    · exact .inl (.pursued k document (same k equal ▸ pursued) key resolved)

-- One document to a path, and its bytes there until its own deletion unlinks it.
structure Shelved (deployment : Deployment) (c : Config) : Prop where
  unique : ∀ path d d', ClaimedBy deployment c path d → ClaimedBy deployment c path d' → d = d'
  saved : ∀ i request d, c.locals i = .upload (.saved request d) → ∃ path,
    deployment.storage.resolve (request.storageKey d) = some path ∧ c.shared.storage.files path = some request.content
  rows : ∀ row ∈ c.shared.db.documents, ∃ i request path, c.locals i = .upload (.uploaded request row.id) ∧
    deployment.storage.resolve row.storage_path = some path ∧
    ((∀ k, unlinking (c.locals k) ≠ some row.id) → c.shared.storage.files path = some request.content)

theorem unique_step (shelved : Shelved deployment c) (careful : Careful deployment c label) (moved : Step deployment c label next)
    (left : ClaimedBy deployment next path d) (right : ClaimedBy deployment next path d') : d = d' := by
  rcases claimed_step moved left with old | ⟨request,mine,key,resolved⟩
  · rcases claimed_step moved right with other | ⟨request,_,key,resolved⟩
    · exact shelved.unique path d d' old other
    · exact absurd old (careful.free _ _ _ key resolved d)
  · rcases claimed_step moved right with other | ⟨request',theirs,_,_⟩
    · exact absurd other (careful.free _ _ _ key resolved d')
    · cases mine.symm.trans theirs
      rfl

-- A file someone claims is changed by the claimant's own deletion only.
theorem claimed_file (shelved : Shelved deployment c) (careful : Careful deployment c label) (moved : Step deployment c label next)
    (claimed : ClaimedBy deployment c path d) : next.shared.storage.files path = c.shared.storage.files path ∨
      ∃ document, pursuing (c.locals label.1) = some document ∧ document.id = d ∧ unlinking (next.locals label.1) = some d := by
  obtain ⟨acted,_⟩ := Interleave.step_parts moved
  rcases act_files acted with kept | ⟨_,key,target,content,saved,resolved,files⟩ | ⟨document,target,pursued,unlinked,resolved,files⟩
  · exact .inl (congrFun kept path)
  · have other : path ≠ target := fun same => careful.free _ key target saved resolved d (same ▸ claimed)
    exact .inl (by rw [files,Function.update_of_ne other])
  · by_cases other : path = target
    · have one := shelved.unique path _ _ (.pursued _ document pursued rfl (other ▸ resolved)) claimed
      exact .inr ⟨document,pursued,one,one ▸ unlinked⟩
    · exact .inl (by rw [files,Function.update_of_ne other])

theorem saved_step (shelved : Shelved deployment c) (settled : Settled c) (careful : Careful deployment c label)
    (moved : Step deployment c label next) (saved : next.locals i = .upload (.saved request d)) : ∃ path,
    deployment.storage.resolve (request.storageKey d) = some path ∧ next.shared.storage.files path = some request.content := by
  obtain ⟨acted,same⟩ := Interleave.step_parts moved
  by_cases equal : i = label.1
  · subst equal
    obtain ⟨_,path,resolved,files⟩ := act_saves (saved ▸ acted)
    exact ⟨path,resolved,by rw [files,Function.update_self]⟩
  · have before := same i equal ▸ saved
    obtain ⟨path,resolved,content⟩ := shelved.saved i request d before
    refine ⟨path,resolved,?_⟩
    rcases claimed_file shelved careful moved (.saved i request before resolved) with kept | ⟨document,pursued,key,_⟩
    · rw [kept,content]
    · exact absurd before ((settled label.1 d (pursuing_deleting pursued key)).2 i request)

theorem uploaded_rests (acted : act deployment i s (.upload (.uploaded request d)) label = some out) : False := by
  cases label with
  | upload label => cases label <;> cases acted
  | _ => cases acted

theorem act_inserts (acted : act deployment i s (.upload (.saved request d)) label = some (s',a'))
    (changed : s'.db.documents ≠ s.db.documents) : a' = .upload (.uploaded request d) := by
  cases act_change acted with
  | upload change => cases change with
    | insert => rfl
    | stop => exact absurd rfl changed

-- The file of a row that was there before the step.
theorem old_row (shelved : Shelved deployment c) (careful : Careful deployment c label) (moved : Step deployment c label next)
    (present : old ∈ c.shared.db.documents) : ∃ i request path, next.locals i = .upload (.uploaded request old.id) ∧
    deployment.storage.resolve old.storage_path = some path ∧
    ((∀ k, unlinking (next.locals k) ≠ some old.id) → next.shared.storage.files path = some request.content) := by
  obtain ⟨acted,same⟩ := Interleave.step_parts moved
  obtain ⟨i,request,path,uploaded,resolved,content⟩ := shelved.rows old present
  refine ⟨i,request,path,?_,resolved,fun standing => ?_⟩
  · by_cases equal : i = label.1
    · subst equal
      rw [uploaded] at acted
      exact (uploaded_rests acted).elim
    · rw [same i equal,uploaded]
  · rcases claimed_file shelved careful moved (.row old present rfl resolved) with kept | ⟨_,_,_,unlinked⟩
    · refine kept.trans (content fun k before => standing k ?_)
      by_cases equal : k = label.1
      · subst equal
        exact act_unlinking acted careful.onward before
      · rw [same k equal,before]
    · exact absurd unlinked (standing label.1)

theorem rows_step (shelved : Shelved deployment c) (careful : Careful deployment c label) (moved : Step deployment c label next)
    (stored : row ∈ next.shared.db.documents) : ∃ i request path, next.locals i = .upload (.uploaded request row.id) ∧
    deployment.storage.resolve row.storage_path = some path ∧
    ((∀ k, unlinking (next.locals k) ≠ some row.id) → next.shared.storage.files path = some request.content) := by
  obtain ⟨acted,same⟩ := Interleave.step_parts moved
  rcases Commits.act_documents acted with descends | ⟨request,d,phase,documents⟩
  · obtain ⟨old,present,identity,_,place⟩ := descends row stored
    rw [← identity,← place]
    exact old_row shelved careful moved present
  · rw [documents] at stored
    rcases List.mem_append.mp stored with old | new
    · exact old_row shelved careful moved old
    · cases List.mem_singleton.mp new
      obtain ⟨path,resolved,content⟩ := shelved.saved label.1 request d phase
      refine ⟨label.1,request,path,?_,resolved,fun _ => ?_⟩
      · rw [phase] at acted
        exact act_inserts acted (by rw [documents]; simp)
      · rcases claimed_file shelved careful moved (.saved label.1 request phase resolved) with kept | ⟨_,pursued,_⟩
        · rw [kept,content]
        · rw [phase] at pursued
          cases pursued

theorem shelved_step (shelved : Shelved deployment c) (settled : Settled c) (careful : Careful deployment c label)
    (moved : Step deployment c label next) : Shelved deployment next where
  unique _ _ _ left right := unique_step shelved careful moved left right
  saved _ _ _ := saved_step shelved settled careful moved
  rows _ := rows_step shelved careful moved

-- Reading a document that no deletion has taken answers its upload's bytes.
def Intact (deployment : Deployment) (c : Config) : Prop :=
  ∀ row ∈ c.shared.db.documents, (∀ k, unlinking (c.locals k) ≠ some row.id) → ∃ i request,
    c.locals i = .upload (.uploaded request row.id) ∧
    deployment.storage.read c.shared.storage row.storage_path = some request.content

theorem opening_unclaimed (opening : Opening start.shared) (fresh : ∀ i, (start.locals i).fresh = true)
    (claimed : ClaimedBy deployment start path d) : False := by
  cases claimed with
  | row document stored =>
    rw [opening.documents] at stored
    cases stored
  | saved i request saved =>
    have fresh := fresh i
    rw [saved] at fresh
    cases fresh
  | pursued k document pursued =>
    have fresh := fresh k
    unfold pursuing at pursued
    split at pursued <;> cases pursued <;> rename_i phase <;> rw [phase] at fresh <;> cases fresh

theorem careful_runs_intact (deployment : Deployment) (start c : Config) (labels : List (Nat × Label))
    (opening : Opening start.shared) (fresh : ∀ i, (start.locals i).fresh = true)
    (path : Runs (within (Careful deployment) (Step deployment)) start labels c) : Intact deployment c := by
  have shelved : Shelved deployment c := by
    refine path.history (fun _ c => Shelved deployment c) ⟨?_,?_,?_⟩ ?_
    · exact fun path d _ claimed => (opening_unclaimed opening fresh claimed).elim
    · intro i request d saved
      have fresh := fresh i
      rw [saved] at fresh
      cases fresh
    · intro row stored
      rw [opening.documents] at stored
      cases stored
    · intro labels s label next prior shelved moved
      have settled := (runs_tracked prior.unguarded opening.traced fresh ⟨0⟩).settled
      exact shelved_step shelved settled moved.1 moved.2
  intro row stored standing
  obtain ⟨i,request,path,uploaded,resolved,content⟩ := shelved.rows row stored
  exact ⟨i,request,uploaded,(LocalStorageBackend.read_of_resolve resolved).trans (content standing)⟩

-- An upload writes below `{workspace_id}/{document_id}`.
structure Tidy (deployment : Deployment) (c : Config) (label : Nat × Label) : Prop where
  own : ∀ d key path, savedKey deployment (c.locals label.1) label.2 = some (d,key) → deployment.storage.resolve key = some path →
    ∃ w : Uuid, deployment.storage.root ++ [w.str,d.str] <+: path
  onward : unlinking (c.locals label.1) ≠ none → ∀ error, label.2 ≠ .delete (.fails error)

theorem own_apart {root path : Path} {w w' d d' : Uuid} (left : root ++ [w.str,d.str] <+: path)
    (right : root ++ [w'.str,d'.str] <+: path) : d = d' := by
  have same := List.prefix_of_prefix_length_le left right (by simp)
  have equal := List.append_cancel_left (same.eq_of_length (by simp))
  exact Uuid.str_injective (List.cons.inj (List.cons.inj equal).2).1

theorem act_key_fresh (acted : act deployment i s a label = some (s',a')) (saves : savedKey deployment a label = some (d,key)) :
    ¬ Drawn s d := by
  unfold savedKey at saves
  split at saves
  · rename_i request document_id
    split at saves
    · rename_i valid
      cases saves
      obtain ⟨out,moved,_⟩ := Option.map_eq_some_iff.mp acted
      simp only [Documents.upload,Option.isNone_iff_eq_none.mp valid] at moved
      obtain ⟨after,drawn,_⟩ := Option.bind_eq_some_iff.mp moved
      exact (drawn_new drawn (List.mem_singleton.mpr rfl)).1
    · cases saves
  · cases saves
    obtain ⟨out,moved,_⟩ := Option.map_eq_some_iff.mp acted
    obtain ⟨after,drawn,_⟩ := Option.bind_eq_some_iff.mp moved
    exact (drawn_new drawn (List.mem_singleton.mpr rfl)).1
  · cases saves

-- The claimant of a path has been drawn, and owns the directory of the path.
theorem claimed_drawn (ledgered : Ledgered c) (settled : Settled c) (claimed : ClaimedBy deployment c path d) : Drawn c.shared d := by
  cases claimed with
  | row document stored key =>
    subst key
    exact List.mem_map.mpr ⟨_,ledgered.traced.tables.documents document stored,rfl⟩
  | saved i request saved => exact ledgered.drawn i d (saved ▸ List.mem_singleton.mpr rfl)
  | pursued k document pursued key => exact (settled k d (pursuing_deleting pursued key)).1

theorem tidy_runs_careful (opening : Opening start.shared) (fresh : ∀ i, (start.locals i).fresh = true)
    (path : Runs (within (Tidy deployment) (Step deployment)) start labels c) :
    Runs (within (Careful deployment) (Step deployment)) start labels c := by
  refine (path.history (fun labels c => Runs (within (Careful deployment) (Step deployment)) start labels c ∧
    ∀ path d, ClaimedBy deployment c path d → ∃ w : Uuid, deployment.storage.root ++ [w.str,d.str] <+: path) ⟨.nil,?_⟩ ?_).1
  · exact fun path d claimed => (opening_unclaimed opening fresh claimed).elim
  · intro labels s label next prior kept moved
    obtain ⟨careful,owned⟩ := kept
    obtain ⟨acted,_⟩ := Interleave.step_parts moved.2
    refine ⟨.snoc careful ⟨⟨fun d key path saves resolved other claimed => ?_,moved.1.onward⟩,moved.2⟩,fun path d claimed => ?_⟩
    · obtain ⟨w,mine⟩ := moved.1.own d key path saves resolved
      obtain ⟨w',theirs⟩ := owned path other claimed
      have ledgered := runs_ledgered prior.unguarded opening.traced fresh
      have settled := (runs_tracked prior.unguarded opening.traced fresh d).settled
      exact act_key_fresh acted saves (own_apart mine theirs ▸ claimed_drawn ledgered settled claimed)
    · rcases claimed_step moved.2 claimed with old | ⟨request,_,saves,resolved⟩
      · exact owned path d old
      · exact moved.1.own d _ path saves resolved

theorem splitSlash_plain {part : Str} (plain : ∀ c ∈ part, c ≠ '/') : splitSlash part = [part] := by
  induction part with
  | nil => rfl
  | cons c rest ih =>
    have own := plain c List.mem_cons_self
    rw [splitSlash,ih fun other member => plain other (List.mem_cons_of_mem _ member)]
    exact own

theorem splitSlash_cons {part : Str} (plain : ∀ c ∈ part, c ≠ '/') :
    splitSlash (part ++ '/' :: rest) = part :: splitSlash rest := by
  induction part with
  | nil => rfl
  | cons c front ih =>
    have own := plain c List.mem_cons_self
    rw [List.cons_append,splitSlash,ih fun other member => plain other (List.mem_cons_of_mem _ member)]
    exact own

theorem descend_str (at_ : Path) (u : Uuid) : descend at_ u.str = at_ ++ [u.str] := by
  obtain ⟨some_,plain⟩ := u.str_plain
  have no_dot (part : Str) (dot : '.' ∈ part) : u.str ≠ part := fun same => (plain '.' (same ▸ dot)).2 rfl
  simp only [descend,some_,no_dot ['.'] (by simp),no_dot ['.','.'] (by simp),or_self,if_false]

-- A filename without a slash that is not ".." stays in its own directory.
theorem plain_filename_own {backend : LocalStorageBackend} {upload : Documents.Upload} {d : Uuid} (plain : ∀ c ∈ upload.original_filename, c ≠ '/')
    (down : upload.original_filename ≠ ['.','.']) (resolved : backend.resolve (upload.storageKey d) = some path) :
    backend.root ++ [upload.workspace_id.str,d.str] <+: path := by
  obtain ⟨some_,ws⟩ := upload.workspace_id.str_plain
  have key : upload.storageKey d = upload.workspace_id.str ++ '/' :: (d.str ++ '/' :: upload.original_filename) := by
    simp [Documents.Upload.storageKey]
  have relative : (upload.storageKey d).head? ≠ some '/' := by
    rw [key]
    cases shape : upload.workspace_id.str with
    | nil => exact absurd shape some_
    | cons c rest =>
      intro slash
      exact (ws c (shape ▸ List.mem_cons_self)).1 (Option.some.inj slash)
  have walk : lexical backend.root (upload.storageKey d) =
      descend (backend.root ++ [upload.workspace_id.str,d.str]) upload.original_filename := by
    unfold lexical
    rw [if_neg relative,key,splitSlash_cons fun c member => (ws c member).1,splitSlash_cons fun c member => (d.str_plain.2 c member).1,
      splitSlash_plain plain]
    simp [descend_str]
  unfold LocalStorageBackend.resolve at resolved
  rw [walk] at resolved
  dsimp only at resolved
  split at resolved
  · cases resolved
    unfold descend
    rw [if_neg down]
    split
    · exact List.prefix_refl _
    · exact List.prefix_append _ _
  · cases resolved

-- Two tenants, a deletion and room for a second upload.
def tenants (second : Documents.Upload) : Config where
  shared := {vacant with db := ⟨⟨[⟨⟨1⟩,⟨2⟩⟩,⟨⟨3⟩,⟨4⟩⟩],[],[],[],[],[],[],[]⟩,by decide⟩}
  locals := fun
    | 0 => .upload (.requested memo)
    | 1 => .upload (.requested second)
    | 2 => .delete (.requested ⟨1⟩ ⟨10⟩)
    | _ => .idle

theorem tenants_fresh (second : Documents.Upload) (i : Nat) : ((tenants second).locals i).fresh = true := by
  unfold tenants; dsimp only; split <;> rfl

theorem tenants_opening (second : Documents.Upload) : Opening (tenants second).shared := ⟨rfl,rfl,rfl,fun _ => rfl,List.nodup_nil⟩

def honest : Documents.Upload := ⟨⟨3⟩,some "b.txt".toList,some "text/plain".toList,[66]⟩

def uploadedAs : Activity → Option (Uuid × Bytes)
  | .upload (.uploaded request d) => some (d,request.content)
  | _ => none

theorem uploadedAs_some (done : uploadedAs a = some (d,content)) : ∃ request, a = .upload (.uploaded request d) ∧ request.content = content := by
  unfold uploadedAs at done
  split at done
  · cases done
    exact ⟨_,rfl,rfl⟩
  · cases done

def tidyTest (deployment : Deployment) (c : Config) (label : Nat × Label) : Bool :=
  (match savedKey deployment (c.locals label.1) label.2,c.locals label.1 with
    | some (d,key),.upload (.requested request) => (deployment.storage.resolve key).all fun path =>
      (deployment.storage.root ++ [request.workspace_id.str,d.str]).isPrefixOf path
    | _,_ => true) &&
  match label.2 with
    | .delete (.fails _) => (unlinking (c.locals label.1)).isNone
    | _ => true

theorem tidyTest_sound (tested : tidyTest deployment c label = true) : Tidy deployment c label := by
  unfold tidyTest at tested
  obtain ⟨owns,onward⟩ := Bool.and_eq_true_iff.mp tested
  constructor
  · intro d key path saves resolved
    rw [saves] at owns
    unfold savedKey at saves
    split at saves <;> rename_i phase _ <;> try cases saves
    all_goals
      rw [phase] at owns
      simp only [resolved,Option.all_some,List.isPrefixOf_iff_prefix] at owns
      exact ⟨_,owns⟩
  · intro unlinked error same
    rw [same] at onward
    exact unlinked (Option.isNone_iff_eq_none.mp onward)

def housekeeping : List (Nat × Label) := uploadSteps 0 ⟨10⟩ ⟨11⟩ ++ uploadSteps 1 ⟨20⟩ ⟨21⟩ ++ deleteSteps 2

theorem housekeeping_intact : ∃ c, Runs (within (Careful plain) (Step plain)) (tenants honest) housekeeping c ∧ Intact plain c ∧
    ∃ row ∈ c.shared.db.documents, row.id = ⟨20⟩ ∧ plain.storage.read c.shared.storage row.storage_path = some [66] := by
  obtain ⟨c,path,passed⟩ := run_within (Interleave.advance (act plain)) (tenants honest) housekeeping
    (tidyTest plain) (Tidy plain) (fun c => ∃ row ∈ c.shared.db.documents, row.id = ⟨20⟩ ∧
      plain.storage.read c.shared.storage row.storage_path = some [66]) (by decide +kernel) fun _ _ _ _ tested => tidyTest_sound tested
  have careful := tidy_runs_careful (tenants_opening honest) (tenants_fresh honest) path
  exact ⟨c,careful,careful_runs_intact plain (tenants honest) c housekeeping (tenants_opening honest) (tenants_fresh honest) careful,
    of_decide_eq_true passed⟩

-- The second tenant names a file after the first tenant's document.
def hostile : Documents.Upload where
  workspace_id := ⟨3⟩
  filename := some ("../../".toList ++ Uuid.str ⟨1⟩ ++ '/' :: Uuid.str ⟨10⟩ ++ "/a.txt".toList)
  content_type := some "text/plain".toList
  content := [66]

def overwriting : List (Nat × Label) := uploadSteps 0 ⟨10⟩ ⟨11⟩ ++ uploadSteps 1 ⟨20⟩ ⟨21⟩

theorem traversal_overwrites : ¬ ∀ (deployment : Deployment) (start c : Config) (labels : List (Nat × Label)),
    Opening start.shared → (∀ i, (start.locals i).fresh = true) → Runs (Step deployment) start labels c → Intact deployment c := by
  intro all
  obtain ⟨c,path,passed⟩ := run_any (Interleave.advance (act plain)) (tenants hostile) overwriting
    (fun c => (uploadedAs (c.locals 0) = some (⟨10⟩,[65]) ∧ uploadedAs (c.locals 1) = some (⟨20⟩,[66]) ∧ unlinking (c.locals 2) = none) ∧
      ∃ row ∈ c.shared.db.documents, row.id = ⟨10⟩ ∧ plain.storage.read c.shared.storage row.storage_path = some [66]) (by decide +kernel)
  obtain ⟨⟨first,second,spared⟩,row,stored,key,bytes⟩ := of_decide_eq_true passed
  obtain ⟨mine,first,content⟩ := uploadedAs_some first
  obtain ⟨theirs,second,_⟩ := uploadedAs_some second
  have idle (k : Nat) : c.locals (k + 3) = .idle := runs_idle path rfl
  have standing (k : Nat) : unlinking (c.locals k) ≠ some row.id := by
    match k with
    | 0 => rw [first]; exact nofun
    | 1 => rw [second]; exact nofun
    | 2 => rw [spared]; exact nofun
    | k + 3 => rw [idle]; exact nofun
  obtain ⟨i,request,uploaded,read⟩ := all plain (tenants hostile) c overwriting (tenants_opening hostile) (tenants_fresh hostile) path
    row stored standing
  rw [bytes,Option.some.injEq] at read
  rw [key] at uploaded
  match i with
  | 0 =>
    cases first.symm.trans uploaded
    exact absurd (content.symm.trans read.symm) (by decide)
  | 1 => cases second.symm.trans uploaded
  | 2 => exact nomatch (congrArg Activity.document_id uploaded).symm.trans (runs_document_id path 2)
  | i + 3 => exact nomatch (idle i).symm.trans uploaded

end RagForge.StorageIsolation
