import Mathlib.Data.List.Infix
import RagForge.Simulation
import RagForge.StorageIsolation

namespace RagForge.StorageBackends
open RagForge Simulation

inductive StorageRequest where
  | save (key : Str) (content : Bytes)
  | read (storage_path : Str)
  | delete (storage_path : Str)

def StorageRequest.key : StorageRequest → Str
  | .save key _ => key
  | .read storage_path => storage_path
  | .delete storage_path => storage_path

inductive StorageReply where
  | path (storage_path : Str)
  | content (bytes : Bytes)
  | deleted
  | notFound (message : Str)
  | upstream (message : Str)
  | osError

-- What a storage backend is for: a table of contents by key.
abbrev Objects := Str → Option Bytes

def missing : StorageReply := .notFound "File not found in storage".toList

def objects (table : Objects) : StorageRequest → Objects × StorageReply
  | .save key content => (Function.update table key (some content),.path key)
  | .read storage_path => (table,(table storage_path).elim missing .content)
  | .delete storage_path => (Function.update table storage_path none,.deleted)

-- A system takes some names for files and refuses others, once it has come to
-- the directory they are looked up in.
def refused (nameable : Str → Bool) (fs : FileSystem) (path : Path) : Bool :=
  (path.inits.zip path).any fun (above,name) => fs.dirs above && !nameable name

-- `LocalStorageBackend` on such a system: what fails is an OSError, after the
-- directories that could be made.
def localStorage (backend : LocalStorageBackend) (nameable : Str → Bool) (fs : FileSystem) : StorageRequest → FileSystem × StorageReply
  | .save key content => match backend.resolve key with
    | none => (fs,.notFound "Invalid storage path".toList)
    | some path =>
      if path.all nameable then
        match fs.write path content with
        | some written => (written,.path key)
        | none => (fs,.osError)
      else ((fs.mkdir (path.dropLast.takeWhile nameable)).getD fs,.osError)
  | .read storage_path => match backend.resolve storage_path with
    | none => (fs,.notFound "Invalid storage path".toList)
    | some path => if refused nameable fs path then (fs,.osError) else (fs,(fs.files path).elim missing .content)
  | .delete storage_path => match backend.resolve storage_path with
    | none => (fs,.notFound "Invalid storage path".toList)
    | some path =>
      if !refused nameable fs path && path.dropLast.inits.all fun above => (fs.files above).isNone then
        match fs.unlink path with
        | some unlinked => (unlinked,.deleted)
        | none => (fs,.osError)
      else (fs,.osError)

-- The type's name and the text of an exception of boto3.
structure ClientError where
  name : Str
  text : Str

structure S3Client (σ : Type) where
  putObject : σ → Str → Bytes → Except ClientError σ
  getObject : σ → Str → Except ClientError Bytes
  deleteObject : σ → Str → Except ClientError σ

def storageError (error : ClientError) : StorageReply := .upstream ("Storage error: ".toList ++ error.text)

def S3StorageBackend (client : S3Client σ) (s : σ) : StorageRequest → σ × StorageReply
  | .save key content => match client.putObject s key content with
    | .ok s' => (s',.path key)
    | .error error => (s,storageError error)
  | .read storage_path => match client.getObject s storage_path with
    | .ok body => (s,.content body)
    | .error error =>
      if error.name = "NoSuchKey".toList ∨ "NoSuchKey".toList <:+: error.text then (s,missing) else (s,storageError error)
  | .delete storage_path => match client.deleteObject s storage_path with
    | .ok s' => (s',.deleted)
    | .error error => (s,storageError error)

-- The documented behaviour of the service on the keys in use, while it answers.
structure Answers (client : S3Client σ) (contents : σ → Objects) (keys : Str → Prop) : Prop where
  put : ∀ s key content, keys key →
    ∃ s', client.putObject s key content = .ok s' ∧ contents s' = Function.update (contents s) key (some content)
  get : ∀ s key content, keys key → contents s key = some content → client.getObject s key = .ok content
  absent : ∀ s key, keys key → contents s key = none → ∃ text, client.getObject s key = .error ⟨"NoSuchKey".toList,text⟩
  delete : ∀ s key, keys key → ∃ s', client.deleteObject s key = .ok s' ∧ contents s' = Function.update (contents s) key none

theorem s3_simulates (answers : Answers client contents keys) :
    Simulates (S3StorageBackend client) objects (fun request => keys request.key) fun s table => contents s = table where
  answer s table request same known := by
    subst same
    cases request with
    | save key content =>
      obtain ⟨s',put,_⟩ := answers.put s key content known
      simp only [S3StorageBackend,put,objects]
    | read key =>
      cases held : contents s key with
      | none =>
        obtain ⟨text,got⟩ := answers.absent s key known held
        simp only [S3StorageBackend,got,objects,held,true_or,if_true]
        rfl
      | some content =>
        simp only [S3StorageBackend,answers.get s key content known held,objects,held]
        rfl
    | delete key =>
      obtain ⟨s',deleted,_⟩ := answers.delete s key known
      simp only [S3StorageBackend,deleted,objects]
  onward s table request same known := by
    subst same
    cases request with
    | save key content =>
      obtain ⟨s',put,after⟩ := answers.put s key content known
      simpa only [S3StorageBackend,put,objects] using after
    | read key =>
      cases held : contents s key with
      | none =>
        obtain ⟨text,got⟩ := answers.absent s key known held
        simp only [S3StorageBackend,got,objects,true_or,if_true]
      | some content => simp only [S3StorageBackend,answers.get s key content known held,objects]
    | delete key =>
      obtain ⟨s',deleted,after⟩ := answers.delete s key known
      simpa only [S3StorageBackend,deleted,objects] using after

-- The directory of the storage is there, with nothing in it.
structure Empty (backend : LocalStorageBackend) (fs : FileSystem) : Prop where
  root : fs.dirs backend.root = true
  above : ∀ path, path <+: backend.root → fs.files path = none
  no_files : ∀ path, backend.root <+: path → fs.files path = none
  no_dirs : ∀ path, backend.root <+: path → fs.dirs path = true → path = backend.root

-- Each key has a file name of its own below the root, and none is in the way of
-- another.
structure Apart (backend : LocalStorageBackend) (nameable : Str → Bool) (keys : Str → Prop) : Prop where
  placed : ∀ key, keys key → ∃ path, backend.resolve key = some path ∧ path ≠ backend.root ∧ path.all nameable = true
  clear : ∀ key other path below, keys key → keys other → backend.resolve key = some path → backend.resolve other = some below →
    path <+: below → key = other

-- A disk that holds the table, each content under its key's path, with no
-- directory where a file goes.
structure Holds (backend : LocalStorageBackend) (keys : Str → Prop) (fs : FileSystem) (table : Objects) : Prop where
  held : ∀ key path, keys key → backend.resolve key = some path → fs.files path = table key
  above : ∀ path, path <+: backend.root → fs.files path = none
  files : ∀ path, backend.root <+: path → fs.files path ≠ none → ∃ key, keys key ∧ backend.resolve key = some path
  dirs : ∀ path, backend.root <+: path → fs.dirs path = true →
    path = backend.root ∨ ∃ key below, keys key ∧ backend.resolve key = some below ∧ path <+: below ∧ path ≠ below

variable {backend : LocalStorageBackend} {nameable : Str → Bool} {keys : Str → Prop} {fs : FileSystem} {table : Objects}

theorem refused_named (named : path.all nameable = true) : refused nameable fs path = false := by
  refine Bool.eq_false_iff.mpr fun bad => ?_
  obtain ⟨⟨above,name⟩,member,refuses⟩ := List.any_eq_true.mp bad
  have fine := List.all_eq_true.mp named name (List.of_mem_zip member).2
  simp [fine] at refuses

theorem resolve_root (resolved : backend.resolve key = some path) : backend.root <+: path := by
  unfold LocalStorageBackend.resolve at resolved
  dsimp only at resolved
  split at resolved
  · cases resolved; assumption
  · cases resolved

theorem Empty.holds (empty : Empty backend fs) : Holds backend keys fs fun _ => none where
  held _ _ _ resolved := empty.no_files _ (resolve_root resolved)
  above := empty.above
  files path below file := absurd (empty.no_files path below) file
  dirs path below dir := .inl (empty.no_dirs path below dir)

theorem dropLast_proper {above path : Path} (some_ : path ≠ []) (inside : above <+: path.dropLast) : above <+: path ∧ above ≠ path := by
  refine ⟨inside.trans path.dropLast_prefix,fun same => ?_⟩
  have := inside.length_le
  have := List.length_pos_iff.mpr some_
  rw [same,List.length_dropLast] at *
  omega

-- No file stands above the path of a key.
theorem Holds.open_above (holds : Holds backend keys fs table) (apart : Apart backend nameable keys) (known : keys key)
    (resolved : backend.resolve key = some path) : path.dropLast.inits.all (fun above => (fs.files above).isNone) = true := by
  obtain ⟨_,placed,other,_⟩ := apart.placed key known
  cases placed.symm.trans resolved
  have some_ : path ≠ [] := fun empty => by
    subst empty
    exact other (List.prefix_nil.mp (resolve_root resolved)).symm
  refine List.all_eq_true.mpr fun above member => ?_
  obtain ⟨inside,proper⟩ := dropLast_proper some_ ((List.mem_inits _ _).mp member)
  rw [Option.isNone_iff_eq_none]
  by_contra file
  rcases List.prefix_or_prefix_of_prefix inside (resolve_root resolved) with high | low
  · exact file (holds.above above high)
  · obtain ⟨key',known',resolved'⟩ := holds.files above low file
    have same := apart.clear key' key above path known' known resolved' resolved inside
    subst same
    exact proper (Option.some.inj (resolved'.symm.trans resolved))

-- Nor is a directory at the path itself.
theorem Holds.no_directory (holds : Holds backend keys fs table) (apart : Apart backend nameable keys) (known : keys key)
    (resolved : backend.resolve key = some path) : fs.dirs path = false := by
  obtain ⟨_,placed,other,_⟩ := apart.placed key known
  cases placed.symm.trans resolved
  by_contra directory
  rcases holds.dirs path (resolve_root resolved) (by simpa using directory) with root | ⟨key',below,known',resolved',inside,proper⟩
  · exact other root
  · have same := apart.clear key key' path below known known' resolved resolved' inside
    subst same
    exact proper (Option.some.inj (resolved.symm.trans resolved'))

theorem Holds.writes (holds : Holds backend keys fs table) (apart : Apart backend nameable keys) (known : keys key)
    (resolved : backend.resolve key = some path) (content : Bytes) :
    fs.write path content = some {fs with
      files := Function.update fs.files path (some content)
      dirs := fun other => fs.dirs other || path.dropLast.inits.contains other} := by
  have own : path.dropLast.inits.contains path = false := by
    obtain ⟨_,placed,other,_⟩ := apart.placed key known
    cases placed.symm.trans resolved
    have some_ : path ≠ [] := fun empty => by
      subst empty
      exact other (List.prefix_nil.mp (resolve_root resolved)).symm
    by_contra inside
    exact (dropLast_proper some_ ((List.mem_inits _ _).mp (by simpa using inside))).2 rfl
  unfold FileSystem.write FileSystem.mkdir
  rw [if_pos (holds.open_above apart known resolved)]
  simp only [Option.bind_eq_bind,Option.bind_some,holds.no_directory apart known resolved,own,Bool.or_self]
  rfl

theorem update_key (apart : Apart backend nameable keys) (known : keys key) (resolved : backend.resolve key = some path)
    (known' : keys key') (resolved' : backend.resolve key' = some path') (value : Option Bytes) (held : fs.files path' = table key') :
    Function.update fs.files path value path' = Function.update table key value key' := by
  by_cases same : key' = key
  · subst same
    cases resolved.symm.trans resolved'
    rw [Function.update_self,Function.update_self]
  · have different : path' ≠ path := fun equal => by
      subst equal
      exact same (apart.clear key' key path' path' known' known resolved' resolved (List.prefix_refl _))
    rw [Function.update_of_ne different,Function.update_of_ne same]
    exact held

-- The state a request of a known key leaves, and its answer.
theorem local_step (apart : Apart backend nameable keys) (holds : Holds backend keys fs table) (request : StorageRequest) (known : keys request.key) :
    (localStorage backend nameable fs request).2 = (objects table request).2 ∧
      Holds backend keys (localStorage backend nameable fs request).1 (objects table request).1 := by
  obtain ⟨path,resolved,other,named⟩ := apart.placed _ known
  have high {above : Path} (inside : above <+: backend.root) : above ≠ path := fun same => by
    subst same
    exact other (List.IsPrefix.eq_of_length inside (Nat.le_antisymm inside.length_le (resolve_root resolved).length_le))
  cases request with
  | save key content =>
    have wrote := holds.writes apart known resolved content
    simp only [localStorage,StorageRequest.key] at resolved ⊢
    simp only [resolved,named,if_true,wrote,objects,true_and]
    refine ⟨fun key' path' known' resolved' => ?_,fun above inside => ?_,fun path' below file => ?_,fun path' below directory => ?_⟩
    · exact update_key apart known resolved known' resolved' _ (holds.held key' path' known' resolved')
    · exact (Function.update_of_ne (high inside) ..).trans (holds.above above inside)
    · by_cases own : path' = path
      · exact ⟨key,known,own ▸ resolved⟩
      · exact holds.files path' below ((Function.update_of_ne own ..).symm.trans_ne file)
    · rcases Bool.or_eq_true_iff.mp directory with old | made
      · exact holds.dirs path' below old
      · have some_ : path ≠ [] := fun empty => by
          subst empty
          exact other (List.prefix_nil.mp (resolve_root resolved)).symm
        obtain ⟨inside,proper⟩ := dropLast_proper some_ ((List.mem_inits _ _).mp (by simpa using made))
        exact .inr ⟨key,path,known,resolved,inside,proper⟩
  | read key =>
    simp only [localStorage,StorageRequest.key] at resolved known ⊢
    simp only [resolved,refused_named named,Bool.false_eq_true,if_false,objects,holds.held key path known resolved,true_and]
    exact holds
  | delete key =>
    have clear := holds.no_directory apart known resolved
    have above := holds.open_above apart known resolved
    simp only [localStorage,StorageRequest.key] at resolved ⊢
    simp only [resolved,refused_named named,above,Bool.not_false,Bool.and_self,if_true,FileSystem.unlink,clear,Bool.false_eq_true,if_false,objects,true_and]
    refine ⟨fun key' path' known' resolved' => ?_,fun above inside => ?_,fun path' below file => ?_,holds.dirs⟩
    · exact update_key apart known resolved known' resolved' _ (holds.held key' path' known' resolved')
    · exact (Function.update_of_ne (high inside) ..).trans (holds.above above inside)
    · by_cases own : path' = path
      · exact ⟨key,known,own ▸ resolved⟩
      · exact holds.files path' below ((Function.update_of_ne own ..).symm.trans_ne file)

theorem local_simulates (apart : Apart backend nameable keys) :
    Simulates (localStorage backend nameable) objects (fun request => keys request.key) (Holds backend keys) where
  answer _ _ request holds known := (local_step apart holds request known).1
  onward _ _ request holds known := (local_step apart holds request known).2

-- A save that succeeds has a path to write to, and the file is there.
theorem saved_parts (saved : (localStorage backend nameable fs (.save key content)).2 = .path key') :
    ∃ path, backend.resolve key = some path ∧ path.all nameable = true ∧ fs.dirs path = false ∧
      path.dropLast.inits.all (fun above => (fs.files above).isNone) = true ∧
      (localStorage backend nameable fs (.save key content)).1.files = Function.update fs.files path (some content) := by
  simp only [localStorage] at saved ⊢
  cases resolved : backend.resolve key with
  | none => simp only [resolved] at saved; cases saved
  | some path =>
    simp only [resolved] at saved ⊢
    by_cases named : path.all nameable = true
    · simp only [named,if_true] at saved ⊢
      cases wrote : fs.write path content with
      | none => simp only [wrote] at saved; cases saved
      | some written =>
        obtain ⟨made,mkdir,rest⟩ := Option.bind_eq_some_iff.mp wrote
        unfold FileSystem.mkdir at mkdir
        split at mkdir
        · rename_i clear
          cases mkdir
          split at rest
          · cases rest
          · rename_i no_directory
            have none_ := (Bool.or_eq_false_iff.mp (Bool.eq_false_iff.mpr no_directory)).1
            exact ⟨path,rfl,named,none_,clear,FileSystem.write_files wrote⟩
        · cases mkdir
    · simp only [named,if_false,Bool.false_eq_true] at saved
      cases saved

theorem read_found (resolved : backend.resolve key = some path) (named : path.all nameable = true) (held : fs.files path = some content) :
    (localStorage backend nameable fs (.read key)).2 = .content content := by
  simp only [localStorage,resolved,refused_named named,Bool.false_eq_true,if_false,held]
  rfl

-- On a set of keys the local backend is a table of contents, over every sequence
-- of requests, exactly if each key has a usable path of its own below the root
-- and no path lies below that of another key.
theorem local_refines_iff (backend : LocalStorageBackend) (nameable : Str → Bool) (keys : Str → Prop) (fs : FileSystem) (empty : Empty backend fs) :
    (∀ requests : List StorageRequest, (∀ request ∈ requests, keys request.key) →
      replies (localStorage backend nameable) fs requests = replies objects (fun _ => none) requests) ↔ Apart backend nameable keys := by
  constructor
  · intro agree
    have saves (key : Str) (known : keys key) (content : Bytes) : (localStorage backend nameable fs (.save key content)).2 = .path key := by
      have same := agree [.save key content] fun request member => by
        cases List.mem_singleton.mp member
        exact known
      exact (List.cons.inj same).1
    refine ⟨fun key known => ?_,fun key other path below known known' resolved resolved' inside => ?_⟩
    · obtain ⟨path,resolved,named,no_directory,_⟩ := saved_parts (saves key known [])
      refine ⟨path,resolved,fun same => ?_,named⟩
      rw [same,empty.root] at no_directory
      cases no_directory
    · by_contra different
      obtain ⟨_,placed,_,_,_,files⟩ := saved_parts (saves key known [])
      cases placed.symm.trans resolved
      by_cases equal : path = below
      · -- the file of one key is read under the other
        subst equal
        have same := agree [.save key [],.read other] fun request member => by
          rcases List.mem_cons.mp member with rfl | later
          · exact known
          · cases List.mem_singleton.mp later
            exact known'
        have answers := (List.cons.inj (List.cons.inj same).2).1
        obtain ⟨_,placed',named',_⟩ := saved_parts (saves other known' [])
        cases placed'.symm.trans resolved'
        have found := read_found resolved' named' (files ▸ Function.update_self ..)
        rw [found] at answers
        simp only [objects,Function.update_of_ne (Ne.symm different)] at answers
        cases answers
      · -- the file of one key stands where the other needs a directory
        have same := agree [.save key [],.save other []] fun request member => by
          rcases List.mem_cons.mp member with rfl | later
          · exact known
          · cases List.mem_singleton.mp later
            exact known'
        obtain ⟨_,placed',_,_,clear,_⟩ := saved_parts (List.cons.inj (List.cons.inj same).2).1
        cases placed'.symm.trans resolved'
        have upper : path <+: below.dropLast := by
          obtain ⟨more,rfl⟩ := inside
          have some_ : more ≠ [] := fun none_ => equal (by rw [none_,List.append_nil])
          rw [List.dropLast_append_of_ne_nil some_]
          exact List.prefix_append _ _
        have free := List.all_eq_true.mp clear path ((List.mem_inits _ _).mpr upper)
        rw [files,Function.update_self] at free
        cases free
  · intro apart requests known
    exact (local_simulates apart).replies empty.holds requests known

-- A disk with the storage directory alone.
def emptyDisk : FileSystem := ⟨fun _ => none,fun path => path.isPrefixOf ["srv".toList]⟩

def srv : LocalStorageBackend := ⟨["srv".toList]⟩

theorem emptyDisk_empty : Empty srv emptyDisk where
  root := rfl
  above _ _ := rfl
  no_files _ _ := rfl
  no_dirs _ below directory :=
    (List.IsPrefix.eq_of_length_le below (List.isPrefixOf_iff_prefix.mp directory).length_le).symm

-- Names of at most 255 characters.
def shortName (name : Str) : Bool := name.length ≤ 255

-- A file and a directory of one name.
def nested (key : Str) : Prop := key = "a".toList ∨ key = "a/b".toList

theorem nested_keys_differ : ¬ ∀ requests : List StorageRequest, (∀ request ∈ requests, nested request.key) →
    replies (localStorage srv shortName) emptyDisk requests = replies objects (fun _ => none) requests := by
  intro agree
  have apart := (local_refines_iff srv shortName nested emptyDisk emptyDisk_empty).mp agree
  have same := apart.clear "a".toList "a/b".toList ["srv".toList,"a".toList] ["srv".toList,"a".toList,"b".toList] (.inl rfl) (.inr rfl)
    (by decide) (by decide) (by decide)
  exact absurd same (by decide)

-- A name for a file that `resolve` takes as it stands.
structure PlainName (nameable : Str → Bool) (filename : Str) : Prop where
  slash : ∀ c ∈ filename, c ≠ '/'
  some_ : filename ≠ []
  here : filename ≠ ['.']
  up : filename ≠ ['.','.']
  named : nameable filename = true

def documentKey (nameable : Str → Bool) (key : Str) : Prop :=
  ∃ (upload : Documents.Upload) (document_id : Uuid), PlainName nameable upload.original_filename ∧ key = upload.storageKey document_id

theorem storageKey_resolve {upload : Documents.Upload} (plain : PlainName nameable upload.original_filename) (d : Uuid) :
    backend.resolve (upload.storageKey d) = some (backend.root ++ [upload.workspace_id.str,d.str,upload.original_filename]) := by
  obtain ⟨some_,ws⟩ := upload.workspace_id.str_plain
  have key : upload.storageKey d = upload.workspace_id.str ++ '/' :: (d.str ++ '/' :: upload.original_filename) := by
    simp [Documents.Upload.storageKey]
  have relative : (upload.storageKey d).head? ≠ some '/' := by
    rw [key]
    cases shape : upload.workspace_id.str with
    | nil => exact absurd shape some_
    | cons c rest =>
      intro slash
      exact (ws c (shape ▸ List.mem_cons_self)).1 (Option.some.inj slash)
  have last (at_ : Path) : descend at_ upload.original_filename = at_ ++ [upload.original_filename] := by
    rw [descend,if_neg (by simp [plain.some_,plain.here]),if_neg plain.up]
  have walk : lexical backend.root (upload.storageKey d) = backend.root ++ [upload.workspace_id.str,d.str,upload.original_filename] := by
    unfold lexical
    rw [if_neg relative,key,StorageIsolation.splitSlash_cons fun c member => (ws c member).1,
      StorageIsolation.splitSlash_cons fun c member => (d.str_plain.2 c member).1,StorageIsolation.splitSlash_plain plain.slash]
    simp [StorageIsolation.descend_str,last]
  unfold LocalStorageBackend.resolve
  rw [walk]
  exact if_pos (List.prefix_append _ _)

-- Below the root they all lie three levels deep.
theorem documentKey_resolve (backend : LocalStorageBackend) (document : documentKey nameable key) :
    ∃ workspace d filename, nameable filename = true ∧ key = workspace.str ++ '/' :: d.str ++ '/' :: filename ∧
      backend.resolve key = some (backend.root ++ [Uuid.str workspace,Uuid.str d,filename]) := by
  obtain ⟨upload,d,plain,same⟩ := document
  exact ⟨_,d,_,plain.named,same,same ▸ storageKey_resolve plain d⟩

theorem documentKeys_apart (root : backend.root.all nameable = true) (ids : ∀ u : Uuid, nameable u.str = true) :
    Apart backend nameable (documentKey nameable) where
  placed key document := by
    obtain ⟨workspace,d,filename,named,_,resolved⟩ := documentKey_resolve backend document
    exact ⟨_,resolved,by simp,by simp [root,ids,named]⟩
  clear key other path below document document' resolved resolved' inside := by
    obtain ⟨workspace,d,filename,_,key_eq,mine⟩ := documentKey_resolve backend document
    obtain ⟨workspace',d',filename',_,other_eq,theirs⟩ := documentKey_resolve backend document'
    rw [mine] at resolved
    rw [theirs] at resolved'
    rw [← Option.some.inj resolved,← Option.some.inj resolved'] at inside
    have same := List.append_cancel_left (inside.eq_of_length (by simp))
    simp only [List.cons.injEq,and_true] at same
    rw [key_eq,other_eq,same.1,same.2.1,same.2.2]

-- With file names like these it makes no difference which of the two backends
-- is configured.
theorem backends_interchangeable (backend : LocalStorageBackend) (nameable : Str → Bool) (fs : FileSystem) (client : S3Client σ)
    (contents : σ → Objects) (bucket : σ) (root : backend.root.all nameable = true) (ids : ∀ u : Uuid, nameable u.str = true)
    (empty : Empty backend fs) (answers : Answers client contents (documentKey nameable)) (nothing : contents bucket = fun _ => none)
    (requests : List StorageRequest) (documents : ∀ request ∈ requests, documentKey nameable request.key) :
    replies (localStorage backend nameable) fs requests = replies (S3StorageBackend client) bucket requests := by
  have onDisk := (local_simulates (documentKeys_apart root ids)).replies empty.holds requests documents
  exact onDisk.trans ((s3_simulates answers).replies nothing requests documents).symm

theorem str_short (u : Uuid) : shortName u.str = true := by
  have digits : u.hex.length = 32 := Uuid.hex_length u
  simp [shortName,Uuid.str,Uuid.groups,digits]

-- A bucket that is its table.
def tableClient : S3Client Objects where
  putObject table key content := .ok (Function.update table key (some content))
  getObject table key := match table key with
    | some content => .ok content
    | none => .error ⟨"NoSuchKey".toList,[]⟩
  deleteObject table key := .ok (Function.update table key none)

theorem tableClient_answers (keys : Str → Prop) : Answers tableClient id keys where
  put _ _ _ _ := ⟨_,rfl,rfl⟩
  get table key content _ held := by simp only [id] at held; simp only [tableClient,held]
  absent table key _ none_ := ⟨[],by simp only [id] at none_; simp only [tableClient,none_]⟩
  delete _ _ _ := ⟨_,rfl,rfl⟩

def report : Documents.Upload where
  workspace_id := ⟨1⟩
  filename := some "report.txt".toList
  content_type := some "text/plain".toList
  content := []

def reportRequests : List StorageRequest :=
  [.save (report.storageKey ⟨2⟩) [104,105],.read (report.storageKey ⟨2⟩),.delete (report.storageKey ⟨2⟩),.read (report.storageKey ⟨2⟩)]

theorem report_plain : PlainName shortName report.original_filename :=
  ⟨by simp [report,Documents.Upload.original_filename],by decide,by decide,by decide,by decide⟩

theorem report_interchanged :
    replies (localStorage srv shortName) emptyDisk reportRequests = replies (S3StorageBackend tableClient) (fun _ => none) reportRequests := by
  refine backends_interchangeable srv shortName emptyDisk tableClient id (fun _ => none) (by decide) str_short emptyDisk_empty
    (tableClient_answers _) rfl reportRequests fun request member => ⟨report,⟨2⟩,report_plain,?_⟩
  simp only [reportRequests,List.mem_cons,List.not_mem_nil,or_false] at member
  rcases member with rfl | rfl | rfl | rfl <;> rfl

end RagForge.StorageBackends
