import RagForge.AuditTrail
import RagForge.Paging

namespace RagForge.AuditPages
open RagForge Transition Credentials
open Paging (NewestFirst place)
open RagForge.Accounts (Security getCurrentUser)
open RagForge.AuditTrail (AuditLog)

structure AdminAuditLogRead where
  id : Uuid
  organization_id : Option Uuid
  user_id : Option Uuid
  action : Str
  resource_type : Str
  resource_id : Option Uuid
  ip_address : Option Str
  created_at : Nat
  deriving DecidableEq

def AdminAuditLogRead.modelValidate (log : AuditLog) : AdminAuditLogRead :=
  ⟨log.id,log.organization_id,log.user_id,log.action,log.resource_type,log.resource_id,log.ip_address,log.created_at⟩

structure Paginated where
  items : List AdminAuditLogRead
  total : Nat
  page : Nat
  page_size : Nat
  deriving DecidableEq

-- `select(AuditLog).order_by(created_at.desc()).limit(limit).offset(offset)` on
-- a database that has put the rows in this order.
def listAuditLogs (listing : List AuditLog) (limit offset : Nat) : List AuditLog := (listing.drop offset).take limit

def countAuditLogs (s : AuditTrail.Store) : Nat := s.audit_logs.length

-- The bounds of the endpoint's `Query` parameters.
def accepted (page page_size : Nat) : Bool := 1 ≤ page && 1 ≤ page_size && page_size ≤ 200

def PAGE_SIZE : Nat := 50

-- A request for one page, between its statements.
inductive Fetch where
  | asked
  | admitted
  | listed (logs : List AuditLog)
  deriving DecidableEq

-- `AdminAuditLogTab` over the query cache, whose keys are the page numbers; the
-- cache outlives the tab.
structure Tab where
  mounted : Bool
  page : Nat
  cache : Nat → Option Paginated
  flights : Nat → Option Fetch

namespace Tab

def data (tab : Tab) : Option Paginated := tab.cache tab.page

def totalPages (tab : Tab) : Nat :=
  match tab.data with
  | some data => max 1 ((data.total + PAGE_SIZE - 1) / PAGE_SIZE)
  | none => 1

-- `data && data.total > PAGE_SIZE` shows the two buttons.
def pager (tab : Tab) : Bool := tab.data.any (PAGE_SIZE < ·.total)

def canPrevious (tab : Tab) : Bool := tab.pager && 1 < tab.page

def canNext (tab : Tab) : Bool := tab.pager && tab.page < tab.totalPages

end Tab

structure Panel where
  site : AuditTrail.Config
  tab : Tab

def Panel.logs (c : Panel) : List AuditLog := c.site.shared.audit_logs

inductive TabLabel where
  | ask
  | enter (page : Nat) (token : Option Str) (now : Nat)
  | list (page : Nat) (listing : List AuditLog)
  | count (page : Nat)
  | retry (page : Nat)
  | fail (page : Nat)
  | forget (page : Nat)
  | previous
  | next
  | leave
  | reopen

inductive Label where
  | site (label : Nat × AuditTrail.Label)
  | tab (label : TabLabel)

-- The query client has at most one request a page under way; the list and the
-- count of an answer are two statements, and other transactions may commit
-- between them.
def browse (security : Security) (s : AuditTrail.Store) (tab : Tab) : TabLabel → Option Tab
  | .ask => match tab.mounted,tab.flights tab.page with
    | true,none => some {tab with flights := Function.update tab.flights tab.page (some .asked)}
    | _,_ => none
  | .enter page token now => match tab.flights page with
    | some .asked =>
      match getCurrentUser security s.platform token now with
      | .ok admin =>
        if admin.is_superuser && accepted page PAGE_SIZE then some {tab with flights := Function.update tab.flights page (some .admitted)}
        else some {tab with flights := Function.update tab.flights page none}
      | .error _ => some {tab with flights := Function.update tab.flights page none}
    | _ => none
  | .list page listing => match tab.flights page with
    | some .admitted =>
      if NewestFirst (·.created_at) s.audit_logs listing then
        some {tab with flights := Function.update tab.flights page (some (.listed (listAuditLogs listing PAGE_SIZE ((page - 1) * PAGE_SIZE))))}
      else none
    | _ => none
  | .count page => match tab.flights page with
    | some (.listed logs) =>
      some {tab with
        cache := Function.update tab.cache page
          (some ⟨logs.map AdminAuditLogRead.modelValidate,countAuditLogs s,page,PAGE_SIZE⟩)
        flights := Function.update tab.flights page none}
    | _ => none
  | .retry page => match tab.flights page with
    | some _ => some {tab with flights := Function.update tab.flights page (some .asked)}
    | none => none
  | .fail page => some {tab with flights := Function.update tab.flights page none}
  | .forget page => if tab.mounted = true ∧ page = tab.page then none else some {tab with cache := Function.update tab.cache page none}
  | .previous => if tab.mounted && tab.canPrevious then some {tab with page := tab.page - 1} else none
  | .next => if tab.mounted && tab.canNext then some {tab with page := tab.page + 1} else none
  | .leave => if tab.mounted then some {tab with mounted := false} else none
  | .reopen => if tab.mounted then none else some {tab with mounted := true,page := 1}

variable (libraries : Libraries)

def advance (c : Panel) : Label → Option Panel
  | .site label => (Interleave.advance (AuditTrail.act libraries) c.site label).map ({c with site := ·})
  | .tab label => (browse (security libraries) c.site.shared c.tab label).map ({c with tab := ·})

abbrev Step : Panel → Label → Panel → Prop := taken (advance libraries)

variable {libraries : Libraries}

-- A row of the log that the table on the screen has.
def Displayed (c : Panel) (row : AuditLog) : Prop :=
  c.tab.mounted = true ∧ ∃ data, c.tab.data = some data ∧ AdminAuditLogRead.modelValidate row ∈ data.items

-- The tab has just been opened, and nothing of the log is in the query cache or
-- under way.
structure Opened (c : Panel) : Prop where
  mounted : c.tab.mounted = true
  page : c.tab.page = 1
  cache : ∀ page, c.tab.cache page = none
  flights : ∀ page, c.tab.flights page = none

def newer (logs : List AuditLog) (row : AuditLog) : Nat := place (·.created_at) logs row

-- Of the rows to be seen, each has been shown, or so many rows are newer that
-- it comes after the pages before the furthest; what the furthest page holds is
-- shown next.
structure Walked (rows : List AuditLog) (shown : AuditLog → Prop) (c : Panel) (furthest : Nat) : Prop where
  here : 1 ≤ c.tab.page ∧ c.tab.page ≤ furthest
  unvisited : ∀ page, furthest < page → c.tab.cache page = none ∧ c.tab.flights page = none
  kept : ∀ row ∈ rows, row ∈ c.logs
  behind : ∀ row ∈ rows, shown row ∨ (furthest - 1) * PAGE_SIZE ≤ newer c.logs row
  listed : ∀ logs, c.tab.flights furthest = some (.listed logs) → ∀ row ∈ rows,
    shown row ∨ row ∈ logs ∨ furthest * PAGE_SIZE ≤ newer c.logs row
  cached : ∀ data, c.tab.cache furthest = some data → ∀ row ∈ rows,
    shown row ∨ AdminAuditLogRead.modelValidate row ∈ data.items ∨
      furthest * PAGE_SIZE ≤ newer c.logs row ∧ furthest * PAGE_SIZE < data.total
  counted : ∀ page data, c.tab.cache page = some data → data.total ≤ c.logs.length
  full : ∀ page, 1 ≤ page → page < furthest → page * PAGE_SIZE < c.logs.length ∧ ∀ data, c.tab.cache page = some data → page * PAGE_SIZE < data.total

-- What a step can do to the tab.
inductive Browsed (s : AuditTrail.Store) (tab : Tab) : Tab → Prop where
  | fly (page : Nat) (fetch : Option Fetch) : (tab.flights page ≠ none ∨ page = tab.page ∨ fetch = none) →
      (∀ logs, fetch ≠ some (.listed logs)) → Browsed s tab {tab with flights := Function.update tab.flights page fetch}
  | list (page : Nat) (listing : List AuditLog) : tab.flights page = some .admitted →
      NewestFirst (·.created_at) s.audit_logs listing →
      Browsed s tab {tab with
        flights := Function.update tab.flights page (some (.listed (listAuditLogs listing PAGE_SIZE ((page - 1) * PAGE_SIZE))))}
  | count (page : Nat) (logs : List AuditLog) : tab.flights page = some (.listed logs) →
      Browsed s tab {tab with
        cache := Function.update tab.cache page
          (some ⟨logs.map AdminAuditLogRead.modelValidate,countAuditLogs s,page,PAGE_SIZE⟩)
        flights := Function.update tab.flights page none}
  | forget (page : Nat) : Browsed s tab {tab with cache := Function.update tab.cache page none}
  | turn (mounted : Bool) (number : Nat) : 1 ≤ number ∨ number = tab.page → number ≤ max 1 tab.page →
      Browsed s tab {tab with mounted := mounted,page := number}
  | next : tab.mounted = true → tab.canNext = true → Browsed s tab {tab with page := tab.page + 1}

theorem browse_browsed {security : Security} (moved : browse security s tab label = some tab') : Browsed s tab tab' := by
  cases label with
  | ask =>
    simp only [browse] at moved
    split at moved
    · cases moved; exact .fly _ _ (.inr (.inl rfl)) nofun
    · cases moved
  | enter page token now =>
    simp only [browse] at moved
    split at moved
    · rename_i asked
      have visited : tab.flights page ≠ none := by rw [asked]; exact Option.some_ne_none _
      split at moved
      · split at moved
        · cases moved; exact .fly _ _ (.inl visited) nofun
        · cases moved; exact .fly _ _ (.inl visited) nofun
      · cases moved; exact .fly _ _ (.inl visited) nofun
    · cases moved
  | list page listing =>
    simp only [browse] at moved
    split at moved
    · rename_i admitted
      split at moved
      · rename_i ordered
        cases moved
        exact .list page listing admitted ordered
      · cases moved
    · cases moved
  | count page =>
    simp only [browse] at moved
    split at moved
    · rename_i listed
      cases moved
      exact .count page _ listed
    · cases moved
  | retry page =>
    simp only [browse] at moved
    split at moved
    · rename_i under_way
      have visited : tab.flights page ≠ none := by rw [under_way]; exact Option.some_ne_none _
      cases moved
      exact .fly _ _ (.inl visited) nofun
    · cases moved
  | fail page => cases moved; exact .fly _ _ (.inr (.inr rfl)) nofun
  | forget page =>
    simp only [browse] at moved
    split at moved
    · cases moved
    · cases moved; exact .forget page
  | previous =>
    simp only [browse] at moved
    split at moved
    · rename_i allowed
      have behind : 1 < tab.page := by
        unfold Tab.canPrevious at allowed
        simpa using (Bool.and_eq_true_iff.mp (Bool.and_eq_true_iff.mp allowed).2).2
      cases moved
      exact .turn tab.mounted _ (.inl (by omega)) (by omega)
    · cases moved
  | next =>
    simp only [browse] at moved
    split at moved
    · rename_i allowed
      cases moved
      exact .next (Bool.and_eq_true_iff.mp allowed).1 (Bool.and_eq_true_iff.mp allowed).2
    · cases moved
  | leave =>
    simp only [browse] at moved
    split at moved
    · cases moved; exact .turn false tab.page (.inr rfl) (Nat.le_max_right _ _)
    · cases moved
  | reopen =>
    simp only [browse] at moved
    split at moved
    · cases moved
    · cases moved; exact .turn true 1 (.inl (Nat.le_refl _)) (Nat.le_max_left _ _)

-- There is a next page exactly where the total says that rows are left.
theorem canNext_exact {tab : Tab} (begun : 1 ≤ tab.page) :
    tab.canNext = true ↔ ∃ data, tab.data = some data ∧ tab.page * PAGE_SIZE < data.total := by
  unfold Tab.canNext Tab.pager Tab.totalPages
  cases tab.data with
  | none => simp
  | some data =>
    have parts : (PAGE_SIZE < data.total ∧ tab.page < max 1 ((data.total + PAGE_SIZE - 1) / PAGE_SIZE)) ↔ tab.page * PAGE_SIZE < data.total := by
      unfold PAGE_SIZE
      omega
    simpa using parts

theorem newer_append (logs more : List AuditLog) (row : AuditLog) : newer logs row ≤ newer (logs ++ more) row :=
  Paging.place_append logs more row

theorem site_grows (moved : AuditTrail.Step libraries c label next) : ∃ more, next.shared.audit_logs = c.shared.audit_logs ++ more := by
  cases AuditTrail.act_recorded (Interleave.step_parts moved).1 with
  | quiet _ _ logs _ => exact ⟨[],logs.trans (List.append_nil _).symm⟩
  | closed entry _ _ _ _ logs _ _ => exact ⟨entry.row.toList,logs⟩

variable {rows : List AuditLog} {shown shown' : AuditLog → Prop} {c : Panel} {furthest : Nat}

theorem Walked.more_shown (walked : Walked rows shown c furthest) (seen : ∀ row, shown row → shown' row) : Walked rows shown' c furthest where
  here := walked.here
  unvisited := walked.unvisited
  kept := walked.kept
  behind row member := (walked.behind row member).imp_left (seen row)
  listed logs found row member := (walked.listed logs found row member).imp_left (seen row)
  cached data found row member := (walked.cached data found row member).imp_left (seen row)
  counted := walked.counted
  full := walked.full

-- New rows push the ones to be seen further back.
theorem Walked.grown (walked : Walked rows shown c furthest) (more : List AuditLog) (logs : site.shared.audit_logs = c.logs ++ more) :
    Walked rows shown {c with site := site} furthest := by
  have later (row : AuditLog) : newer c.logs row ≤ newer site.shared.audit_logs row := by
    rw [logs]
    exact newer_append c.logs more row
  have longer : c.logs.length ≤ site.shared.audit_logs.length := by
    rw [logs,List.length_append]
    exact Nat.le_add_right _ _
  refine ⟨walked.here,walked.unvisited,fun row member => ?_,fun row member => ?_,fun held found row member => ?_,
    fun data found row member => ?_,fun page data found => ?_,fun page begun before => ?_⟩
  · rw [Panel.logs,logs]
    exact List.mem_append_left _ (walked.kept row member)
  · exact (walked.behind row member).imp_right (·.trans (later row))
  · exact (walked.listed held found row member).imp_right (.imp_right (·.trans (later row)))
  · exact (walked.cached data found row member).imp_right (.imp_right (.imp_left (·.trans (later row))))
  · exact (walked.counted page data found).trans longer
  · exact ⟨(walked.full page begun before).1.trans_le longer,(walked.full page begun before).2⟩

theorem Walked.visited (walked : Walked rows shown c furthest)
    (known : c.tab.flights page ≠ none ∨ page = c.tab.page) : page ≤ furthest := by
  rcases known with flying | rfl
  · exact Nat.le_of_not_lt fun beyond => flying (walked.unvisited page beyond).2
  · exact walked.here.2

-- No answer of the furthest page is under way but a list the step has just read.
theorem Walked.flying (walked : Walked rows shown c furthest) (page : Nat) (fetch : Option Fetch) (reached : page ≤ furthest ∨ fetch = none)
    (answers : page = furthest → ∀ logs, fetch = some (.listed logs) → ∀ row ∈ rows,
      shown row ∨ row ∈ logs ∨ furthest * PAGE_SIZE ≤ newer c.logs row) :
    Walked rows shown {c with tab := {c.tab with flights := Function.update c.tab.flights page fetch}} furthest := by
  refine ⟨walked.here,fun number beyond => ⟨(walked.unvisited number beyond).1,?_⟩,walked.kept,walked.behind,fun logs found => ?_,
    walked.cached,walked.counted,walked.full⟩
  · by_cases own : number = page
    · subst own
      rcases reached with inside | empty
      · omega
      · exact (Function.update_self ..).trans empty
    · exact (Function.update_of_ne own ..).trans (walked.unvisited number beyond).2
  · by_cases own : furthest = page
    · subst own
      exact answers rfl logs ((Function.update_self (f := c.tab.flights) ..).symm.trans found)
    · exact walked.listed logs ((Function.update_of_ne own ..).symm.trans found)

theorem Walked.read (walked : Walked rows shown c furthest) (listing : List AuditLog) (distinct : (c.logs.map (·.created_at)).Nodup)
    (ordered : NewestFirst (·.created_at) c.logs listing) (page : Nat) (under_way : page ≤ furthest) :
    Walked rows shown {c with tab := {c.tab with
      flights := Function.update c.tab.flights page (some (.listed (listAuditLogs listing PAGE_SIZE ((page - 1) * PAGE_SIZE))))}} furthest := by
  refine walked.flying page _ (.inl under_way) fun own logs found row member => ?_
  subst own
  cases found
  refine (walked.behind row member).imp_right fun after => ?_
  exact Paging.page_or_later ordered distinct (walked.kept row member) (walked.here.1.trans walked.here.2) after

theorem Walked.answered (walked : Walked rows shown c furthest) (flying : c.tab.flights page = some (.listed logs)) :
    Walked rows shown {c with tab := {c.tab with
      cache := Function.update c.tab.cache page
        (some ⟨logs.map AdminAuditLogRead.modelValidate,countAuditLogs c.site.shared,page,PAGE_SIZE⟩)
      flights := Function.update c.tab.flights page none}} furthest := by
  have inside : page ≤ furthest := walked.visited (.inl (by rw [flying]; exact Option.some_ne_none _))
  have rest := walked.flying page none (.inr rfl) fun _ _ found => by cases found
  refine ⟨rest.here,fun number beyond => ⟨?_,(rest.unvisited number beyond).2⟩,rest.kept,rest.behind,rest.listed,fun data found row member => ?_,
    fun number data found => ?_,fun number begun before => ⟨(rest.full number begun before).1,fun data found => ?_⟩⟩
  · exact (Function.update_of_ne (by omega) ..).trans (walked.unvisited number beyond).1
  · by_cases own : furthest = page
    · subst own
      cases (Function.update_self ..).symm.trans found
      refine (walked.listed logs flying row member).imp_right (.imp (List.mem_map_of_mem ·) fun after => ⟨after,?_⟩)
      exact after.trans_lt (Paging.place_lt (walked.kept row member))
    · exact walked.cached data ((Function.update_of_ne own ..).symm.trans found) row member
  · by_cases own : number = page
    · subst own
      cases (Function.update_self ..).symm.trans found
      exact Nat.le_refl _
    · exact walked.counted number data ((Function.update_of_ne own ..).symm.trans found)
  · by_cases own : number = page
    · subst own
      cases (Function.update_self ..).symm.trans found
      exact (walked.full number begun before).1
    · exact (walked.full number begun before).2 data ((Function.update_of_ne own ..).symm.trans found)

theorem Walked.forgotten (walked : Walked rows shown c furthest) (page : Nat) :
    Walked rows shown {c with tab := {c.tab with cache := Function.update c.tab.cache page none}} furthest := by
  have old {number : Nat} {data : Paginated} (found : Function.update c.tab.cache page none number = some data) : c.tab.cache number = some data := by
    by_cases own : number = page
    · subst own
      cases (Function.update_self ..).symm.trans found
    · exact (Function.update_of_ne own ..).symm.trans found
  refine ⟨walked.here,fun number beyond => ⟨?_,(walked.unvisited number beyond).2⟩,walked.kept,walked.behind,walked.listed,
    fun data found => walked.cached data (old found),fun number data found => walked.counted number data (old found),
    fun number begun before => ⟨(walked.full number begun before).1,fun data found => (walked.full number begun before).2 data (old found)⟩⟩
  by_cases own : number = page
  · subst own
    exact Function.update_self ..
  · exact (Function.update_of_ne own ..).trans (walked.unvisited number beyond).1

theorem Walked.turned (walked : Walked rows shown c furthest) (begun : 1 ≤ number) (inside : number ≤ furthest) :
    Walked rows shown {c with tab := {c.tab with mounted := mounted,page := number}} furthest :=
  ⟨⟨begun,inside⟩,walked.unvisited,walked.kept,walked.behind,walked.listed,walked.cached,walked.counted,walked.full⟩

-- Going on from the furthest page, its rows have been shown.
theorem Walked.beyond (walked : Walked rows shown c furthest) (mounted : c.tab.mounted = true)
    (last : c.tab.page = furthest) (seen : ∀ row, Displayed c row → shown row) (more : c.tab.canNext = true) :
    Walked rows shown {c with tab := {c.tab with page := c.tab.page + 1}} (furthest + 1) := by
  subst last
  obtain ⟨data,found,left⟩ := (canNext_exact walked.here.1).mp more
  refine ⟨⟨Nat.le_add_left _ _,Nat.le_refl _⟩,fun number after => walked.unvisited number (by omega),walked.kept,fun row member => ?_,
    fun logs flying => ?_,fun other stored => ?_,walked.counted,fun number begun before => ?_⟩
  · rcases walked.cached data found row member with old | here | ⟨later,_⟩
    · exact .inl old
    · exact .inl (seen row ⟨mounted,data,found,here⟩)
    · exact .inr later
  · rw [(walked.unvisited (c.tab.page + 1) (by omega)).2] at flying
    cases flying
  · rw [(walked.unvisited (c.tab.page + 1) (by omega)).1] at stored
    cases stored
  · rcases Nat.lt_succ_iff_lt_or_eq.mp before with earlier | rfl
    · exact walked.full number begun earlier
    · refine ⟨left.trans_le (walked.counted _ data found),fun other stored => ?_⟩
      cases found.symm.trans stored
      exact left

theorem walked_step (walked : Walked rows shown c furthest) (distinct : (next.logs.map (·.created_at)).Nodup)
    (seen : ∀ row, Displayed c row → shown row) (moved : Step libraries c label next) : ∃ furthest', Walked rows shown next furthest' := by
  cases label with
  | site label =>
    obtain ⟨site,acted,rfl⟩ := Option.map_eq_some_iff.mp moved
    obtain ⟨more,logs⟩ := site_grows acted
    exact ⟨furthest,walked.grown more logs⟩
  | tab label =>
    obtain ⟨tab,browsed,rfl⟩ := Option.map_eq_some_iff.mp moved
    cases browse_browsed browsed with
    | fly page fetch known idle =>
      refine ⟨furthest,walked.flying page fetch ?_ fun _ logs found => absurd found (idle logs)⟩
      rcases known with flying | here | empty
      · exact .inl (walked.visited (.inl flying))
      · exact .inl (walked.visited (.inr here))
      · exact .inr empty
    | list page listing admitted ordered =>
      have visited : c.tab.flights page ≠ none := by rw [admitted]; exact Option.some_ne_none _
      exact ⟨furthest,walked.read listing distinct ordered page (walked.visited (.inl visited))⟩
    | count page logs flying => exact ⟨furthest,walked.answered flying⟩
    | forget page => exact ⟨furthest,walked.forgotten page⟩
    | turn mounted number begun inside =>
      have := walked.here
      exact ⟨furthest,walked.turned (by omega) (by omega)⟩
    | next mounted more =>
      by_cases last : c.tab.page = furthest
      · exact ⟨furthest + 1,walked.beyond mounted last seen more⟩
      · have := walked.here
        exact ⟨furthest,walked.turned (Nat.le_add_left _ _) (by omega)⟩

theorem step_grows (moved : Step libraries c label next) : ∃ more, next.logs = c.logs ++ more := by
  cases label with
  | site label =>
    obtain ⟨site,acted,rfl⟩ := Option.map_eq_some_iff.mp moved
    exact site_grows acted
  | tab label =>
    obtain ⟨tab,_,rfl⟩ := Option.map_eq_some_iff.mp moved
    exact ⟨[],(List.append_nil _).symm⟩

theorem opened_walked (opened : Opened c) (shown : AuditLog → Prop) : Walked c.logs shown c 1 where
  here := by rw [opened.page]; exact ⟨Nat.le_refl _,Nat.le_refl _⟩
  unvisited page _ := ⟨opened.cache page,opened.flights page⟩
  kept _ member := member
  behind _ _ := .inr (by simp)
  listed _ found := by rw [opened.flights] at found; cases found
  cached _ found := by rw [opened.cache] at found; cases found
  counted page _ found := by rw [opened.cache] at found; cases found
  full page begun before := by omega

-- Somewhere on the way the screen has had the row.
def Shown (libraries : Libraries) (start : Panel) (labels : List Label) (c : Panel) (row : AuditLog) : Prop :=
  ∃ m, Passes (Step libraries) start labels c m ∧ Displayed m row

theorem Shown.snoc (shown : Shown libraries start labels s row) (moved : Step libraries s label next) :
    Shown libraries start (labels ++ [label]) next row := by
  obtain ⟨m,passed,displayed⟩ := shown
  exact ⟨m,passed.snoc moved,displayed⟩

theorem runs_walked (opened : Opened start) (path : Runs (Step libraries) start labels c) (distinct : (c.logs.map (·.created_at)).Nodup) :
    ∃ furthest, Walked start.logs (Shown libraries start labels c) c furthest := by
  refine path.history (fun labels c => (c.logs.map (·.created_at)).Nodup → ∃ furthest, Walked start.logs (Shown libraries start labels c) c furthest)
    (fun _ => ⟨1,opened_walked opened _⟩) (fun labels s label next prior before moved distinct => ?_) distinct
  obtain ⟨more,grown⟩ := step_grows moved
  have earlier : (s.logs.map (·.created_at)).Nodup := by
    rw [grown,List.map_append] at distinct
    exact distinct.of_append_left
  obtain ⟨furthest,walked⟩ := before earlier
  refine walked_step (walked.more_shown fun row shown => shown.snoc moved) distinct (fun row displayed => ?_) moved
  exact ⟨s,(Passes.here prior).snoc moved,displayed⟩

-- Who pages on to the end has had every row on the screen that was there at the
-- first opening, whatever is logged, fetched again, forgotten, turned back or
-- closed meanwhile.
theorem pages_miss_nothing (libraries : Libraries) (start c : Panel) (labels : List Label) (opened : Opened start)
    (path : Runs (Step libraries) start labels c) (distinct : (c.logs.map (·.created_at)).Nodup)
    (mounted : c.tab.mounted = true) (loaded : c.tab.data ≠ none) (ended : c.tab.canNext = false) :
    ∀ row ∈ start.logs, Shown libraries start labels c row := by
  intro row member
  obtain ⟨furthest,walked⟩ := runs_walked opened path distinct
  obtain ⟨data,found⟩ := Option.ne_none_iff_exists'.mp loaded
  have all : data.total ≤ c.tab.page * PAGE_SIZE := by
    refine Nat.le_of_not_lt fun left => ?_
    rw [(canNext_exact walked.here.1).mpr ⟨data,found,left⟩] at ended
    cases ended
  have last : c.tab.page = furthest := by
    refine Nat.le_antisymm walked.here.2 (Nat.le_of_not_lt fun before => ?_)
    exact absurd ((walked.full c.tab.page walked.here.1 before).2 data found) (Nat.not_lt.mpr all)
  rcases walked.cached data (last ▸ found) row member with shown | here | ⟨_,left⟩
  · exact shown
  · exact ⟨c,.here path,mounted,data,found,here⟩
  · rw [← last] at left
    exact absurd left (Nat.not_lt.mpr all)

-- A log of one row more than a page holds, and a change of plan while its first
-- page is read.
def earlierRow (n : Nat) : AuditLog :=
  ⟨⟨1000 + n⟩,none,none,"admin.user.active_updated".toList,"user".toList,some ⟨2⟩,none,.is_active true,n⟩

def browsed : Panel where
  site := {AuditTrail.office with shared := {AuditTrail.office.shared with audit_logs := (List.range 51).map earlierRow}}
  tab := ⟨true,1,fun _ => none,fun _ => none⟩

def reading (page : Nat) (listing : List AuditLog) : List Label :=
  [.ask,.enter page (some AuditTrail.adasToken) 0,.list page listing,.count page].map .tab

def planRow : AuditLog := AuditTrail.planEvent ⟨⟨100⟩,60⟩ none ⟨⟨1⟩,"ada@example.com".toList,"pw".toList,true,true⟩ ⟨40⟩ .pro

def reader : List Label :=
  reading 1 ((List.range 51).map earlierRow).reverse ++
    ([.authenticate 0,.load,.flush,.commit].map fun label => .site (2,.plan label ⟨⟨100⟩,60⟩)) ++
    [.tab .next] ++ reading 2 (planRow :: ((List.range 51).map earlierRow).reverse)

def atEnd (c : Panel) : Bool := c.tab.mounted && c.tab.data.isSome && !c.tab.canNext && decide (c.logs.map (·.created_at)).Nodup

theorem reader_sees : ∃ c, Runs (Step Sessions.readable) browsed reader c ∧ c.logs.length = 52 ∧
    ∀ row ∈ browsed.logs, Shown Sessions.readable browsed reader c row := by
  obtain ⟨c,path,reached⟩ := run_any (advance Sessions.readable) browsed reader (fun c => atEnd c && c.logs.length == 52) (by decide +kernel)
  simp only [atEnd,Bool.and_eq_true,Bool.not_eq_true',decide_eq_true_eq,beq_iff_eq] at reached
  obtain ⟨⟨⟨⟨mounted,loaded⟩,ended⟩,distinct⟩,count⟩ := reached
  exact ⟨c,path,count,pages_miss_nothing Sessions.readable browsed c reader ⟨rfl,rfl,fun _ => rfl,fun _ => rfl⟩ path distinct mounted
    (Option.ne_none_iff_isSome.mpr loaded) ended⟩

end RagForge.AuditPages
