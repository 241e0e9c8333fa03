import Mathlib.Logic.Function.Basic
import RagForge.Identifier

namespace RagForge

-- An absolute path is its list of components below "/".
abbrev Path := List Str

-- `key.split("/")`
def splitSlash : Str → List Str
  | [] => [[]]
  | '/' :: rest => [] :: splitSlash rest
  | c :: rest => match splitSlash rest with
    | [] => [[c]]
    | part :: parts => (c :: part) :: parts

-- One component of a lexical walk: empty parts and "." stay, ".." goes up and
-- stops at the filesystem root.
def descend (at_ : Path) (part : Str) : Path :=
  if part = [] ∨ part = ['.'] then at_
  else if part = ['.','.'] then at_.dropLast
  else at_ ++ [part]

-- `(base / key).resolve()` without symlinks. A key that starts with "/" drops the base.
def lexical (base : Path) (key : Str) : Path :=
  (splitSlash key).foldl descend (if key.head? = some '/' then [] else base)

structure FileSystem where
  files : Path → Option Bytes
  dirs : Path → Bool

namespace FileSystem

-- `mkdir(parents=True, exist_ok=True)` fails where an ancestor is a file.
def mkdir (fs : FileSystem) (path : Path) : Option FileSystem :=
  if path.inits.all fun above => (fs.files above).isNone then
    some {fs with dirs := fun other => fs.dirs other || path.inits.contains other}
  else none

def put (fs : FileSystem) (path : Path) (content : Bytes) : FileSystem :=
  {fs with files := Function.update fs.files path (some content)}

-- `path.write_bytes(content)` after the parents exist.
def write (fs : FileSystem) (path : Path) (content : Bytes) : Option FileSystem := do
  let made ← fs.mkdir path.dropLast
  if made.dirs path then none else some (made.put path content)

-- `path.unlink(missing_ok=True)`: a directory cannot be unlinked.
def unlink (fs : FileSystem) (path : Path) : Option FileSystem :=
  if fs.dirs path then none else some {fs with files := Function.update fs.files path none}

theorem write_files {fs : FileSystem} (wrote : fs.write path content = some after) :
    after.files = Function.update fs.files path (some content) := by
  obtain ⟨made,mkdir,rest⟩ := Option.bind_eq_some_iff.mp wrote
  unfold FileSystem.mkdir at mkdir
  split at mkdir
  · cases Option.some.inj mkdir
    split at rest
    · cases rest
    · cases Option.some.inj rest; rfl
  · cases mkdir

theorem unlink_files {fs : FileSystem} (removed : fs.unlink path = some after) :
    after.files = Function.update fs.files path none := by
  unfold unlink at removed
  split at removed
  · cases removed
  · cases Option.some.inj removed; rfl

end FileSystem

-- `LocalStorageBackend` with `_root` already resolved.
structure LocalStorageBackend where
  root : Path

namespace LocalStorageBackend

-- `_resolve`: `none` is NotFoundError("Invalid storage path").
def resolve (backend : LocalStorageBackend) (key : Str) : Option Path :=
  let candidate := lexical backend.root key
  if backend.root <+: candidate then some candidate else none

def save (backend : LocalStorageBackend) (fs : FileSystem) (key : Str) (content : Bytes) : Option FileSystem := do
  let path ← backend.resolve key
  fs.write path content

def read (backend : LocalStorageBackend) (fs : FileSystem) (storage_path : Str) : Option Bytes := do
  let path ← backend.resolve storage_path
  fs.files path

def delete (backend : LocalStorageBackend) (fs : FileSystem) (storage_path : Str) : Option FileSystem := do
  let path ← backend.resolve storage_path
  fs.unlink path

theorem save_parts {backend : LocalStorageBackend} (saved : backend.save fs key content = some after) :
    ∃ path, backend.resolve key = some path ∧ after.files = Function.update fs.files path (some content) := by
  obtain ⟨path,resolved,wrote⟩ := Option.bind_eq_some_iff.mp saved
  exact ⟨path,resolved,FileSystem.write_files wrote⟩

theorem delete_parts {backend : LocalStorageBackend} (deleted : backend.delete fs key = some after) :
    ∃ path, backend.resolve key = some path ∧ after.files = Function.update fs.files path none := by
  obtain ⟨path,resolved,removed⟩ := Option.bind_eq_some_iff.mp deleted
  exact ⟨path,resolved,FileSystem.unlink_files removed⟩

theorem read_of_resolve {backend : LocalStorageBackend} (resolved : backend.resolve key = some path) :
    backend.read fs key = fs.files path := by simp [read,resolved]

end LocalStorageBackend
end RagForge
