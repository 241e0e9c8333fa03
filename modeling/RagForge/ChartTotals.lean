import RagForge.Analytics

namespace RagForge.ChartTotals
open Analytics Grouping

-- What the charts show adds up to the figures above them.
structure Agrees (series : DailySeries) (summary : UsageSummary) : Prop where
  tokensInput : series.tokensInput.sum = summary.total_tokens_input
  tokensOutput : series.tokensOutput.sum = summary.total_tokens_output
  cost : series.cost.sum = summary.total_cost_usd
  events : (series.eventSeries.map fun s => s.values.sum).sum = summary.total_events

theorem shown_sum {M : Type} [AddCommMonoid M] (now : Int) (points : List UsageDailyPoint) (lookbackDays : Nat) (f : UsageDailyPoint → M) :
    ((days now lookbackDays).map fun day => ((byDay points day).map f).sum).sum =
      ((among UsageDailyPoint.day points (days now lookbackDays)).map f).sum := by
  simp only [byDay_group]
  exact sum_groups (days_apart now lookbackDays) points f

theorem apart_in_day (apart : (points.map UsageDailyPoint.key).Nodup) (day : Int) :
    ((group UsageDailyPoint.day points day).map UsageDailyPoint.event_type).Nodup := by
  have sub : ((group UsageDailyPoint.day points day).map UsageDailyPoint.key).Nodup := (List.filter_sublist.map _).nodup apart
  refine List.Nodup.of_map (fun eventType => (day,eventType)) ?_
  rw [List.map_map]
  have keys : (group UsageDailyPoint.day points day).map UsageDailyPoint.key =
      (group UsageDailyPoint.day points day).map ((fun eventType => (day,eventType)) ∘ UsageDailyPoint.event_type) :=
    List.map_congr_left fun point member => Prod.ext (of_decide_eq_true (List.mem_filter.mp member).2) rfl
  exact keys ▸ sub

-- With one point for each day and type nothing is behind the first match.
theorem shown_events (apart : (points.map UsageDailyPoint.key).Nodup) (now : Int) (lookbackDays : Nat) :
    ((buildDailySeries now points lookbackDays).eventSeries.map fun s => s.values.sum).sum =
      ((among UsageDailyPoint.day points (days now lookbackDays)).map UsageDailyPoint.event_count).sum := by
  have first (eventType : UsageEventType) (day : Int) :
      ((byDay points day).find? fun p => p.event_type = eventType).elim 0 UsageDailyPoint.event_count =
        ((group UsageDailyPoint.day (group UsageDailyPoint.event_type points eventType) day).map UsageDailyPoint.event_count).sum := by
    rw [byDay_group,sum_first (apart_in_day apart day),group_group]
  have values (eventType : UsageEventType) : ((days now lookbackDays).map fun day =>
      ((byDay points day).find? fun p => p.event_type = eventType).elim 0 UsageDailyPoint.event_count).sum =
        ((group UsageDailyPoint.event_type (among UsageDailyPoint.day points (days now lookbackDays)) eventType).map
          UsageDailyPoint.event_count).sum := by
    simp only [first]
    rw [sum_groups (days_apart now lookbackDays),among_group]
  rw [buildDailySeries,List.map_map]
  refine (congrArg List.sum (List.map_congr_left fun eventType _ => values eventType)).trans ?_
  rw [sum_groups (by decide),among_all fun point _ => EVENT_TYPES_all point.event_type]

theorem agrees_iff (apart : (points.map UsageDailyPoint.key).Nodup) (positive : ∀ point ∈ points, 0 < point.event_count) :
    Agrees (buildDailySeries now points lookbackDays) (summarize points) ↔ ∀ point ∈ points, point.day ∈ days now lookbackDays := by
  constructor
  · intro agrees
    exact (sum_among_iff positive).mp ((shown_events apart now lookbackDays).symm.trans agrees.events)
  · intro all
    have whole : among UsageDailyPoint.day points (days now lookbackDays) = points := among_all all
    constructor
    · exact (shown_sum now points lookbackDays UsageDailyPoint.tokens_input).trans (by rw [whole]; rfl)
    · exact (shown_sum now points lookbackDays UsageDailyPoint.tokens_output).trans (by rw [whole]; rfl)
    · exact (shown_sum now points lookbackDays UsageDailyPoint.cost_usd).trans (by rw [whole]; rfl)
    · exact (shown_events apart now lookbackDays).trans (by rw [whole]; rfl)

-- From the midnight that begins the first day shown to the one that ends today.
def Displayed (now : Int) (lookback_days : Nat) (created_at : Int) : Prop :=
  (date now + 1 - lookback_days) * dayLength ≤ created_at ∧ created_at < (date now + 1) * dayLength

theorem displayed_iff : date created_at ∈ days now lookback_days ↔ Displayed now lookback_days created_at := by
  rw [mem_days,today_date]
  simp only [Displayed,date,dayLength]
  omega

-- The tiles count from this time of day `lookback_days` days ago, the charts from
-- the midnight after that.
theorem charts_agree_iff (db : DayOrder) (ledger : List LedgerRow) (scope : Scope) (now : Int) (lookback_days : Nat) :
    Agrees (buildDailySeries now (getUsageSummary db ledger scope now lookback_days).points lookback_days)
      (getUsageSummary db ledger scope now lookback_days) ↔
    ∀ row ∈ ledger, scope.covers row = true → since now lookback_days ≤ row.created_at → Displayed now lookback_days row.created_at := by
  have positive : ∀ point ∈ (getUsageSummary db ledger scope now lookback_days).points, 0 < point.event_count := by
    intro point member
    obtain ⟨row,chosen,rfl⟩ := mem_points.mp member
    exact List.length_pos_of_mem (List.mem_filter.mpr ⟨chosen,decide_eq_true rfl⟩)
  refine (agrees_iff (points_apart db ledger scope now lookback_days) positive).trans ⟨fun all row member covered recent => ?_,fun all point member => ?_⟩
  · have chosen : row ∈ selected ledger scope now lookback_days :=
      List.mem_filter.mpr ⟨member,Bool.and_eq_true_iff.mpr ⟨decide_eq_true recent,covered⟩⟩
    exact displayed_iff.mp (all _ (mem_points.mpr ⟨row,chosen,rfl⟩))
  · obtain ⟨row,chosen,rfl⟩ := mem_points.mp member
    obtain ⟨member,passed⟩ := List.mem_filter.mp chosen
    obtain ⟨recent,covered⟩ := Bool.and_eq_true_iff.mp passed
    exact displayed_iff.mpr (all row member covered (of_decide_eq_true recent))

-- At noon, a record of yesterday afternoon is in the last 24 hours, and today is
-- the only day shown.
theorem afternoon_missing : ¬ ∀ (db : DayOrder) (ledger : List LedgerRow) (scope : Scope) (now : Int) (lookback_days : Nat),
    1 ≤ lookback_days → lookback_days ≤ 365 →
    Agrees (buildDailySeries now (getUsageSummary db ledger scope now lookback_days).points lookback_days)
      (getUsageSummary db ledger scope now lookback_days) := by
  intro all
  have agrees := all stableOrder [⟨⟨⟨1⟩,some ⟨2⟩,none,.chat_message,100,40,1/100⟩,20000 * dayLength - 11 * 3600000000⟩] ⟨some ⟨1⟩,none⟩
    (20000 * dayLength + 12 * 3600000000) 1 (by decide) (by decide)
  exact absurd agrees.events (by decide +kernel)

end RagForge.ChartTotals
