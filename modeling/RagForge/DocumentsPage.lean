import RagForge.SingleTask

namespace RagForge.DocumentsPage
open RagForge Transition SingleTask
open RagForge.JobLedger (finished)

structure DocumentRead where
  id : Uuid
  workspace_id : Uuid
  filename : Str
  original_filename : Str
  mime_type : Str
  size_bytes : Nat
  status : DocumentStatus
  error_message : Option Str
  deriving DecidableEq

def DocumentRead.modelValidate (document : Document) : DocumentRead :=
  ⟨document.id,document.workspace_id,document.original_filename,document.original_filename,document.mime_type,document.size_bytes,
    document.status,document.error_message⟩

-- `list_documents`, up to the order of rows.
def listDocuments (db : Database) (workspace_id : Uuid) : List DocumentRead :=
  (db.documents.filter (·.workspace_id = workspace_id)).map .modelValidate

def ACTIVE_STATUSES : List DocumentStatus := [.pending,.processing]

def active (document : DocumentRead) : Bool := ACTIVE_STATUSES.contains document.status

inductive Fetch where
  | asked
  | answered (documents : List DocumentRead)

-- The state of the query `["documents", workspaceId]` that the page shows.
structure Query where
  data : Option (List DocumentRead)
  isError : Bool
  flight : Option Fetch

-- 3000 ms or false
def Query.refetchInterval (query : Query) : Bool := query.data.any (·.any active)

-- The page beside the site, with its own requests that have no answer yet.
structure View where
  site : SingleTask.Config
  query : Query
  awaited : List Nat

def View.list (c : View) (workspace_id : Uuid) : List DocumentRead := listDocuments c.site.shared.stores.db workspace_id

-- A request of the workspace that has not begun.
def sends (workspace_id : Uuid) : Slot → Bool
  | .queue (.upload (.requested upload)) => upload.workspace_id = workspace_id
  | .queue (.reingest (.requested home _)) => home = workspace_id
  | .delete (.requested home _) => home = workspace_id
  | _ => false

-- Whether a request has ended in success.
def succeeded : Slot → Option Bool
  | .queue (.accepted _) => some true
  | .queue (.refused _ _) => some false
  | .queue (.upload (.failed _)) => some false
  | .queue (.reingest (.failed _)) => some false
  | .delete (.deleted _) => some true
  | .delete (.failed _ _) => some false
  | _ => none

inductive PageLabel where
  | ask
  | tick
  | read (documents : List DocumentRead)
  | arrive
  | retry
  | fail
  | mutate (i : Nat)
  | settle (i : Nat)
  | lose (i : Nat)

inductive Label where
  | site (label : Nat × SingleTask.Label)
  | page (label : PageLabel)

-- `invalidateQueries` of the query client: a fetch under way is dropped for a new
-- one if there is data already, while a first one goes on.
def Query.invalidate (query : Query) : Query :=
  if query.data.isNone && query.flight.isSome then query else {query with flight := some .asked}

-- The page asks when it is opened or focused again, by its interval, and after
-- a mutation of its own has succeeded.
def browse (workspace_id : Uuid) (c : View) : PageLabel → Option View
  | .ask => if c.query.flight.isNone then some {c with query := {c.query with flight := some .asked}} else none
  | .tick =>
    if c.query.refetchInterval && c.query.flight.isNone then some {c with query := {c.query with flight := some .asked}} else none
  | .read documents => match c.query.flight with
    | some .asked =>
      if documents.Perm (c.list workspace_id) then some {c with query := {c.query with flight := some (.answered documents)}} else none
    | _ => none
  | .arrive => match c.query.flight with
    | some (.answered documents) => some {c with query := ⟨some documents,false,none⟩}
    | _ => none
  | .retry => if c.query.flight.isSome then some {c with query := {c.query with flight := some .asked}} else none
  | .fail => if c.query.flight.isSome then some {c with query := ⟨c.query.data,true,none⟩} else none
  | .mutate i =>
    if sends workspace_id (c.site.locals i) && !c.awaited.contains i then some {c with awaited := i :: c.awaited} else none
  | .settle i => if c.awaited.contains i then
      match succeeded (c.site.locals i) with
      | some true =>
        some {c with query := c.query.invalidate, awaited := c.awaited.filter (· ≠ i)}
      | some false => some {c with awaited := c.awaited.filter (· ≠ i)}
      | none => none
    else none
  | .lose i => if c.awaited.contains i then some {c with awaited := c.awaited.filter (· ≠ i)} else none

def advance (deployment : Deployment) (workspace_id : Uuid) (c : View) : Label → Option View
  | .site label => (Interleave.advance (fun _ => SingleTask.act deployment) c.site label).map ({c with site := ·})
  | .page label => browse workspace_id c label

abbrev Step (deployment : Deployment) (workspace_id : Uuid) : View → Label → View → Prop := taken (advance deployment workspace_id)

-- Nothing is under way that would make the page ask again.
structure Quiet (c : View) : Prop where
  landed : c.query.flight = none
  fine : c.query.isError = false
  still : c.query.refetchInterval = false
  answered : c.awaited = []

def request : Slot → Bool
  | .queue .worker => false
  | .queue (.executing _ _) => false
  | _ => true

-- The request has changed the list for good.
def committed : Slot → Bool
  | .queue (.upload (.uploaded _ _)) => true
  | .queue (.reingest (.queued _)) => true
  | .queue (.accepted _) => true
  | .queue (.refused _ _) => true
  | .delete (.deleted _) => true
  | _ => false

-- The first list has been read and has not arrived.
def Query.opening (query : Query) : Prop := query.data = none ∧ ∃ documents, query.flight = some (.answered documents)

-- The workspace's documents are changed by this page's requests and by workers
-- only, each request that commits is answered with success and not just before
-- the first list arrives, and the tasks stay tidy.
def Undisturbed (deployment : Deployment) (workspace_id : Uuid) (c : View) : Label → Prop
  | .site label => Tidy c.site label ∧ (request (c.site.locals label.1) = true → label.1 ∈ c.awaited ∨
      ∀ site, SingleTask.Step deployment c.site label site → listDocuments site.shared.stores.db workspace_id = c.list workspace_id)
  | .page (.settle i) => committed (c.site.locals i) = true → succeeded (c.site.locals i) = some true ∧ ¬ c.query.opening
  | .page (.lose i) => committed (c.site.locals i) = false
  | .page _ => True

-- A list that is the server's, or that is going to be asked for once more.
def Watched (workspace_id : Uuid) (c : View) (documents : List DocumentRead) : Prop :=
  documents.Perm (c.list workspace_id) ∨ documents.any active = true ∨ ∃ i ∈ c.awaited, committed (c.site.locals i) = true

structure Kept (workspace_id : Uuid) (c : View) : Prop where
  shown : c.query.flight = none → c.query.isError = false → ∀ documents, c.query.data = some documents → Watched workspace_id c documents
  coming : ∀ documents, c.query.flight = some (.answered documents) → Watched workspace_id c documents
  own : ∀ i ∈ c.awaited, request (c.site.locals i) = true
  named : Named c.site
  one : OneTask c.site

-- A list asked for is not there yet.
theorem Kept.asked {c : View} (kept : Kept workspace_id c) {query : Query} {awaited : List Nat} (fewer : awaited ⊆ c.awaited)
    (flight : query.flight = some .asked) : Kept workspace_id {c with query := query, awaited := awaited} where
  shown landed := by cases flight.symm.trans landed
  coming _ coming := by cases flight.symm.trans coming
  own i mine := kept.own i (fewer mine)
  named := kept.named
  one := kept.one

-- An upload through the page, and its ingestion by a worker.
def opened : View where
  site := ⟨⟨Site.vacant,[]⟩,fun
    | 0 => .queue (.upload (.requested Site.memo))
    | _ => .queue .worker⟩
  query := ⟨none,false,none⟩
  awaited := []

def listed (status : DocumentStatus) : DocumentRead := {DocumentRead.modelValidate (Site.memo.row ⟨10⟩) with status := status}

def uploadSteps : List Label :=
  [.page .ask,.page (.read []),.page .arrive,.page (.mutate 0),.site (0,.queue (.upload (.save ⟨10⟩))),
   .site (0,.queue (.upload (.insert ⟨11⟩ 0))),.site (0,.queue (.enqueue "task".toList .ok)),.page (.settle 0),
   .page (.read [listed .pending]),.page .arrive]

def calm (c : View) : Label → Bool
  | .site label => (renews c.site.shared.stores.db (c.site.locals label.1) label.2).isNone &&
      (!request (c.site.locals label.1) || c.awaited.contains label.1)
  | .page (.settle i) => succeeded (c.site.locals i) == some true && c.query.data.isSome
  | .page (.lose i) => !committed (c.site.locals i)
  | .page _ => true

end RagForge.DocumentsPage
