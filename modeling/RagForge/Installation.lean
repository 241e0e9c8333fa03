import RagForge.AccessControl

-- Requests to the endpoints and the workers' activities, side by side on one
-- installation.
namespace RagForge.Installation
open RagForge Site Provenance Residence Endpoints AccessControl Transition

inductive Slot where
  | request (phase : Phase)
  | background (a : Activity)

def Slot.fresh : Slot → Bool
  | .request (.received _) => true
  | .request _ => false
  | .background a => a.fresh

-- A guard reads the memberships as they are at that moment.
def act (deployment : Deployment) (i : Nat) (s : Stores) : Slot → List WorkspaceMember × Endpoints.Label → Option (Stores × Slot)
  | .request phase,(members,label) => (Endpoints.act deployment members s phase label).map (Prod.map id .request)
  | .background a,(_,.step label) => (Site.act deployment i s a label).map (Prod.map id .background)
  | .background _,_ => none

abbrev Config := Interleave.Config Stores Slot

abbrev Step (deployment : Deployment) : Config → Nat × List WorkspaceMember × Endpoints.Label → Config → Prop :=
  Interleave.Step (act deployment)

-- What a slot still has to write comes from what has been drawn.
def Slot.Told (s : Stores) : Slot → Prop
  | .request phase => AccessControl.Told s phase
  | .background a => Known s.issued a ∧ Settled s.issued a

theorem Slot.Told.mono {s s' : Stores} {slot : Slot} (grows : s.issued ⊆ s'.issued) (told : slot.Told s) : slot.Told s' := by
  cases slot with
  | request phase => exact fun a same => ⟨(told a same).1.mono grows,(told a same).2.mono grows⟩
  | background a => exact ⟨told.1.mono grows,told.2.mono grows⟩

theorem Slot.told_of_fresh {slot : Slot} (fresh : slot.fresh = true) : slot.Told s := by
  cases slot with
  | request phase =>
    cases phase with
    | received => exact fun _ same => by cases same
    | _ => cases fresh
  | background a => exact ⟨.of_fresh fresh,.of_fresh fresh⟩

theorem endpoint_issued (acted : Endpoints.act deployment members s phase label = some (s',phase')) : s.issued ⊆ s'.issued := by
  unfold Endpoints.act at acted
  split at acted
  · split at acted <;> cases acted <;> exact List.Subset.refl _
  · cases acted
    exact List.Subset.refl _
  · rcases (handle_parts acted).1 with rfl | ⟨_,rfl⟩
    · exact List.Subset.refl _
    · exact List.Subset.refl _
  · obtain ⟨_,moved,_⟩ := lifted acted
    exact fun _ member => Site.act_issued moved member
  · cases acted

theorem act_issued {slot : Slot} (acted : act deployment i s slot label = some (s',slot')) : s.issued ⊆ s'.issued := by
  unfold act at acted
  split at acted
  · obtain ⟨_,moved,_⟩ := lifted acted
    exact endpoint_issued moved
  · obtain ⟨_,moved,_⟩ := lifted acted
    exact fun _ member => Site.act_issued moved member
  · cases acted

theorem outline (deployment : Deployment) : Interleave.Outline (act deployment) Coherent fun s _ slot => slot.Told s where
  own i s slot label s' slot' coherent told acted := by
    unfold act at acted
    split at acted
    · obtain ⟨phase,moved,rfl⟩ := lifted acted
      exact act_coherent coherent told moved
    · obtain ⟨a,moved,rfl⟩ := lifted acted
      exact (Residence.outline deployment).own _ _ _ _ _ _ coherent told moved
    · cases acted
  others _ _ _ _ _ _ _ _ _ _ _ told acted := told.mono (act_issued acted)

-- Whatever has been requested and worked on, the stores agree on where each
-- name lives.
theorem runs_installed (path : Runs (Step deployment) start labels c) (opening : Opening start.shared)
    (fresh : ∀ i, (start.locals i).fresh = true) : Coherent c.shared :=
  ((outline deployment).runs ⟨coherent_of_opening opening,fun i => Slot.told_of_fresh (fresh i)⟩ path).1

-- The record a response carries.
def carried : Returned → Option Record
  | .document row => some (.document row)
  | .chunk row => some (.chunk row)
  | .job row => some (.job row)
  | .conversation row => some (.conversation row)
  | .message row _ => some (.message row)
  | .context _ => none

-- A record of the workspace by all it says.
def AtHome (s : Stores) (w : Uuid) (it : Record) : Prop := Stored s it ∧ Owned s w it ∧ Labelled s w it

theorem at_home (coherent : Coherent s) (stored : Stored s it) (owned : Owned s w it) : AtHome s w it :=
  ⟨stored,owned,labelled_of_owned coherent stored owned⟩

theorem answers_at_home (coherent : Coherent s) (answers : Answers s w row) (same : carried row = some it) : AtHome s w it := by
  cases row <;> cases same <;> exact ⟨answers.1,answers.2.1,answers.2.2 coherent⟩

-- A request to an installation in use answers and changes only what is at home
-- in its workspace, and quotes only its chunks.
theorem installed_request_at_home (deployment : Deployment) (start c : Config) (labels : List (Nat × List WorkspaceMember × Endpoints.Label))
    (opening : Opening start.shared) (fresh : ∀ i, (start.locals i).fresh = true) (path : Runs (Step deployment) start labels c)
    (keyed : PrimaryKeys c.shared) (members : List WorkspaceMember) (request : Request) (acts : List Endpoints.Label) (s : Stores)
    (phase : Phase) (handling : Runs (taken (Interleave.solo (Endpoints.act deployment members))) (c.shared,.received request) acts (s,phase)) :
    (∀ row ∈ returned s phase, Permitted members request ∧ (∀ it, carried row = some it → AtHome s request.workspace_id it) ∧
      Quotes s request.workspace_id row) ∧
    (∀ it, Stored c.shared it → ¬ Stored s it → Permitted members request ∧ AtHome c.shared request.workspace_id it) ∧
    ∀ it, Stored s it → ¬ Stored c.shared it → Permitted members request ∧ AtHome s request.workspace_id it := by
  have before := runs_installed path opening fresh
  have after := runs_request_coherent before handling
  have handled := runs_handled keyed handling
  obtain ⟨confined,changed⟩ := handled.confined
  have permitted {it : Record} (different : Stored s it ≠ Stored c.shared it) : Permitted members request :=
    changed.resolve_left fun same => different (congrFun same it)
  refine ⟨fun row member => ?_,fun it stored gone => ?_,fun it stored new => ?_⟩
  · obtain ⟨allowed,answers,quotes⟩ := handled.returned row member
    exact ⟨allowed,fun it same => answers_at_home after answers same,quotes before.traced⟩
  · exact ⟨permitted fun same => gone (same.mpr stored),at_home before stored (confined.removed it stored gone)⟩
  · exact ⟨permitted fun same => new (same.mp stored),at_home after stored (confined.added it stored new)⟩

-- An editor uploads a text, a worker ingests it, and the editor looks at its chunks.
def editor : WorkspaceMember := ⟨⟨1⟩,⟨9⟩,"editor".toList⟩

def staffed : Config where
  shared := vacant
  locals := fun
    | 0 => .request (.received ⟨⟨1⟩,⟨9⟩,.uploadDocument (some "a.txt".toList) (some "text/plain".toList) [65]⟩)
    | 1 => .background (.ingest (.received ⟨10⟩ none))
    | _ => .background .idle

def staffedSteps : List (Nat × List WorkspaceMember × Endpoints.Label) :=
  [(0,[editor],.guard),(0,[editor],.handle 0)] ++
    (uploadSteps 0 ⟨10⟩ ⟨11⟩ ++ ingestSteps 1 ⟨14⟩ ⟨12⟩ ⟨13⟩).map fun step => (step.1,[editor],.step step.2)

theorem staffed_fresh (i : Nat) : (staffed.locals i).fresh = true := by
  unfold staffed; dsimp only; split <;> rfl

def alphaChunk : DocumentChunk := ⟨⟨12⟩,⟨10⟩,⟨1⟩,0,"Alpha".toList,1,⟨13⟩,some 1⟩

theorem editor_reads_at_home : ∃ c s phase, Runs (Step plain) staffed staffedSteps c ∧
    Runs (taken (Interleave.solo (Endpoints.act plain [editor]))) (c.shared,.received ⟨⟨1⟩,⟨9⟩,.listChunks ⟨10⟩⟩) [.guard,.handle 0]
      (s,phase) ∧ returned s phase = [.chunk alphaChunk] ∧ AtHome s ⟨1⟩ (.chunk alphaChunk) := by
  obtain ⟨c,path,passed⟩ := run_any (Interleave.advance (act plain)) staffed staffedSteps
    (fun c => decide ((∀ a ∈ c.shared.db.documents, ∀ b ∈ c.shared.db.documents, a.id = b.id → a = b) ∧
      ∀ a ∈ c.shared.db.conversations, ∀ b ∈ c.shared.db.conversations, a.id = b.id → a = b) &&
      (run (Interleave.solo (Endpoints.act plain [editor])) (c.shared,.received ⟨⟨1⟩,⟨9⟩,.listChunks ⟨10⟩⟩) [.guard,.handle 0]).any
        fun out => returned out.1 out.2 = [.chunk alphaChunk]) (by decide +kernel)
  obtain ⟨keyed,shown⟩ := Bool.and_eq_true_iff.mp passed
  obtain ⟨documents,conversations⟩ := of_decide_eq_true keyed
  obtain ⟨⟨s,phase⟩,handling,carries⟩ := run_any _ _ _ _ shown
  have rows := of_decide_eq_true carries
  obtain ⟨answers,_⟩ := installed_request_at_home plain staffed c staffedSteps vacant_opening staffed_fresh path
    ⟨documents,conversations⟩ [editor] _ _ s phase handling
  exact ⟨c,s,phase,path,handling,rows,(answers (.chunk alphaChunk) (rows ▸ List.mem_singleton_self _)).2.1 _ rfl⟩

end RagForge.Installation
