import RagForge.Grouping
import RagForge.Tables

namespace RagForge.Analytics
open Grouping

-- A usage record with its time. Instants are microseconds of UTC; a day is
-- named by its number, where both sides write the same date string.
structure LedgerRow extends UsageRecord where
  created_at : Int

def dayLength : Int := 86400000000

-- CAST(created_at AS DATE)
def date (instant : Int) : Int := instant / dayLength

structure UsageDailyPoint where
  day : Int
  event_type : UsageEventType
  event_count : Nat
  tokens_input : Nat
  tokens_output : Nat
  cost_usd : ℚ
  deriving DecidableEq

structure UsageSummary where
  points : List UsageDailyPoint
  total_events : Nat
  total_tokens_input : Nat
  total_tokens_output : Nat
  total_cost_usd : ℚ

-- ORDER BY day: points of one day come in any order.
structure DayOrder where
  order : List UsageDailyPoint → List UsageDailyPoint
  perm : ∀ points, (order points).Perm points
  sorted : ∀ points, (order points).Pairwise fun a b => a.day ≤ b.day

def notAfter (a b : UsageDailyPoint) : Bool := a.day ≤ b.day

-- One that keeps the points of a day as they come.
def stableOrder : DayOrder where
  order points := points.mergeSort notAfter
  perm points := List.mergeSort_perm points notAfter
  sorted points := by
    have trans (a b c : UsageDailyPoint) (first : notAfter a b = true) (second : notAfter b c = true) : notAfter a c = true :=
      decide_eq_true (Int.le_trans (of_decide_eq_true first) (of_decide_eq_true second))
    have total (a b : UsageDailyPoint) : (notAfter a b || notAfter b a) = true :=
      Bool.or_eq_true_iff.mpr ((Int.le_total a.day b.day).imp (fun le => decide_eq_true le) (fun le => decide_eq_true le))
    exact (List.pairwise_mergeSort trans total points).imp of_decide_eq_true

def since (now : Int) (lookback_days : Nat) : Int := now - lookback_days * dayLength

structure Scope where
  organization_id : Option Uuid
  workspace_id : Option Uuid

def Scope.covers (scope : Scope) (row : LedgerRow) : Bool :=
  scope.organization_id.all (fun id => row.organization_id = id) && scope.workspace_id.all (fun id => row.workspace_id = some id)

def selected (ledger : List LedgerRow) (scope : Scope) (now : Int) (lookback_days : Nat) : List LedgerRow :=
  ledger.filter fun row => since now lookback_days ≤ row.created_at && scope.covers row

def LedgerRow.key (row : LedgerRow) : Int × UsageEventType := (date row.created_at,row.event_type)

def UsageDailyPoint.key (point : UsageDailyPoint) : Int × UsageEventType := (point.day,point.event_type)

def aggregate (key : Int × UsageEventType) (rows : List LedgerRow) : UsageDailyPoint where
  day := key.1
  event_type := key.2
  event_count := rows.length
  tokens_input := (rows.map fun row => row.tokens_input).sum
  tokens_output := (rows.map fun row => row.tokens_output).sum
  cost_usd := (rows.map fun row => row.cost_usd).sum

def summarize (points : List UsageDailyPoint) : UsageSummary where
  points := points
  total_events := (points.map UsageDailyPoint.event_count).sum
  total_tokens_input := (points.map UsageDailyPoint.tokens_input).sum
  total_tokens_output := (points.map UsageDailyPoint.tokens_output).sum
  total_cost_usd := (points.map UsageDailyPoint.cost_usd).sum

def getUsageSummary (db : DayOrder) (ledger : List LedgerRow) (scope : Scope) (now : Int) (lookback_days : Nat) : UsageSummary :=
  summarize (db.order (groupBy LedgerRow.key aggregate (selected ledger scope now lookback_days)))

def EVENT_TYPES : List UsageEventType := [.chat_message,.document_ingested,.embedding_batch,.rerank_call]

-- `Date` counts milliseconds.
def today (now : Int) : Int := now / 1000 / 86400000

def days (now : Int) (lookbackDays : Nat) : List Int := (List.range lookbackDays).reverse.map fun i : Nat => today now - i

-- A day that is not in the map reads as the empty list.
def byDay (points : List UsageDailyPoint) : Int → List UsageDailyPoint :=
  points.foldl (fun byDay point => Function.update byDay point.day (byDay point.day ++ [point])) fun _ => []

structure EventSeries where
  eventType : UsageEventType
  values : List Nat

structure DailySeries where
  days : List Int
  tokensInput : List Nat
  tokensOutput : List Nat
  cost : List ℚ
  eventSeries : List EventSeries

def buildDailySeries (now : Int) (points : List UsageDailyPoint) (lookbackDays : Nat) : DailySeries where
  days := days now lookbackDays
  tokensInput := (days now lookbackDays).map fun day => ((byDay points day).map UsageDailyPoint.tokens_input).sum
  tokensOutput := (days now lookbackDays).map fun day => ((byDay points day).map UsageDailyPoint.tokens_output).sum
  cost := (days now lookbackDays).map fun day => ((byDay points day).map UsageDailyPoint.cost_usd).sum
  eventSeries := EVENT_TYPES.map fun eventType => ⟨eventType,(days now lookbackDays).map fun day =>
    ((byDay points day).find? fun p => p.event_type = eventType).elim 0 UsageDailyPoint.event_count⟩

theorem byDay_group (points : List UsageDailyPoint) (day : Int) : byDay points day = group UsageDailyPoint.day points day := by
  have filled (before : Int → List UsageDailyPoint) :
      points.foldl (fun byDay point => Function.update byDay point.day (byDay point.day ++ [point])) before day =
        before day ++ group UsageDailyPoint.day points day := by
    induction points generalizing before with
    | nil => exact (List.append_nil _).symm
    | cons point rest ih =>
      rw [List.foldl_cons,ih]
      by_cases here : point.day = day
      · subst here
        rw [Function.update_self,group_cons_self,List.append_assoc,List.singleton_append]
      · rw [Function.update_of_ne (Ne.symm here),group_cons_ne here]
  exact (filled _).trans (List.nil_append _)

theorem today_date (now : Int) : today now = date now := Int.ediv_ediv_of_nonneg (by decide)

theorem mem_days : day ∈ days now lookbackDays ↔ today now - lookbackDays < day ∧ day ≤ today now := by
  simp only [days,List.mem_map,List.mem_reverse,List.mem_range]
  constructor
  · rintro ⟨i,bound,rfl⟩
    omega
  · rintro ⟨lower,upper⟩
    exact ⟨(today now - day).toNat,by omega,by omega⟩

theorem days_apart (now : Int) (lookbackDays : Nat) : (days now lookbackDays).Nodup := by
  refine List.Nodup.map (fun i j same => ?_) (List.nodup_reverse.mpr List.nodup_range)
  exact Int.natCast_inj.mp (by omega)

theorem EVENT_TYPES_all (eventType : UsageEventType) : eventType ∈ EVENT_TYPES := by
  cases eventType <;> decide

theorem points_apart (db : DayOrder) (ledger : List LedgerRow) (scope : Scope) (now : Int) (lookback_days : Nat) :
    ((getUsageSummary db ledger scope now lookback_days).points.map UsageDailyPoint.key).Nodup :=
  ((db.perm _).map _).nodup_iff.mpr (groupBy_apart fun _ _ => rfl)

-- The totals are those of the records chosen: no group is lost or counted twice.
theorem total_exact (db : DayOrder) (rows : List LedgerRow) {M : Type} [AddCommMonoid M] (f : LedgerRow → M) (g : UsageDailyPoint → M)
    (summed : ∀ key rows, g (aggregate key rows) = (rows.map f).sum) :
    ((db.order (groupBy LedgerRow.key aggregate rows)).map g).sum = (rows.map f).sum :=
  ((db.perm _).map g).sum_eq.trans (sum_groupBy summed)

theorem mem_points {db : DayOrder} : point ∈ (getUsageSummary db ledger scope now lookback_days).points ↔
    ∃ row ∈ selected ledger scope now lookback_days,
      aggregate row.key (group LedgerRow.key (selected ledger scope now lookback_days) row.key) = point :=
  (db.perm _).mem_iff.trans mem_groupBy

end RagForge.Analytics
