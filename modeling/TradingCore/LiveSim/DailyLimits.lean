import TradingCore.LiveSim.TradeDates

/-!
# Daily limits are limits of the Korean date

`daily_limits_of_dated`: if every order that the other checks let pass is written and counted
under the Korean date of its call, and the intents of other dates neither have the key of a
dry run nor decide whether its limit is reached, then no Korean date has more submitted orders
than the limit, and a dry run is accepted as if there were no intents of other dates.

The rows of a date are counted in two ways, by the date that is written and by the instant of
the call; `Dated` rows are counted alike (`ofKorea_le_submitted`).
-/

namespace TradingCore.LiveSim.Daily

open Base LiveSimOrderStatus DailyDatabase List

/-- The submitted orders whose call falls on a Korean date. -/
def ofKorea (orders : List LiveSimRow) (date : String) : Nat :=
  orders.countP fun row => row.status = submitted ∧ kstTradeDate row.calledAt = some date

/-- The intents that a dry run may depend on: those of its trade date, and those with the key
that it brings along. -/
def ownIntents (intents : List DryRunIntent) (request : DatedRequest) (now : String) :
    List DryRunIntent :=
  intents.filter fun row => row.tradeDate = tradeDate request now ∨
    (request.idempotencyKey ≠ "" ∧ row.idempotencyKey = request.idempotencyKey)

def countedIntents (settings : DryRunSettings) (intents : List DryRunIntent)
    (request : DatedRequest) : Nat :=
  let order := applyDryRunSizingCap settings (brokerRequestFromRuntime settings request)
  dryRunIntentCount intents order.code order.side request.tag

namespace DailyDatabase

variable (config : DailyConfig) (db : DailyDatabase)

def Limited : Prop := ∀ date, (ofKorea db.orders date : Int) ≤ max 0 config.maxOrdersPerDay

/-- A dry run is accepted as if there were no intents of other dates. -/
def Independent : DailyCall → Prop
  | .liveSim .. => True
  | .dryRun request now keyNow =>
      dryRunAccepted config.settings db.intents request now keyNow =
        dryRunAccepted config.settings (ownIntents db.intents request now) request now keyNow

/-- An order that the other checks let pass is written and counted under the Korean date of its
call, under a limit; the intents of other dates do not have the key that is made for a dry
run, and with them and without them its limit is reached or not. -/
def Dated : DailyCall → Prop
  | .liveSim request now guardNow answers =>
      answers.duplicate = false → answers.blockedBefore = false → answers.blockedAfter = false →
        answers.accepted = true →
          0 < config.maxOrdersPerDay ∧ kstTradeDate now = some (tradeDate request now) ∧
            kstTradeDate guardNow = kstTradeDate now
  | .dryRun request now keyNow =>
      (request.idempotencyKey = "" → ∀ row ∈ db.intents,
        row.idempotencyKey = idempotencyKey request keyNow →
          row.tradeDate = tradeDate request now) ∧
        ((countedIntents config.settings db.intents request : Int) <
            config.settings.maxDailyOrdersPerCode ↔
          (countedIntents config.settings (ownIntents db.intents request now) request : Int) <
            config.settings.maxDailyOrdersPerCode)

end DailyDatabase

/-! ## Orders -/

def DatedRow (row : LiveSimRow) : Prop :=
  row.status = submitted → kstTradeDate row.calledAt = some row.tradeDate

theorem ofKorea_le_submitted {orders : List LiveSimRow} (h : ∀ row ∈ orders, DatedRow row)
    (date : String) : ofKorea orders date ≤ submittedOrderCount orders date := by
  refine countP_mono_left fun row hmem hcounted => ?_
  obtain ⟨hstatus, hdate⟩ := of_decide_eq_true hcounted
  have hwritten := h row hmem hstatus
  rw [hdate] at hwritten
  exact decide_eq_true ⟨.inr (Option.some.inj hwritten).symm, by rw [hstatus]; decide⟩

theorem of_submitted {orders : List LiveSimRow} {maxOrdersPerDay : Int} {request : DatedRequest}
    {now guardNow : String} {answers : LiveSimAnswers} {row : LiveSimRow}
    (h : liveSimRow orders maxOrdersPerDay request now guardNow answers = some row) :
    row.tradeDate = tradeDate request now ∧ row.calledAt = now ∧
      (row.status = submitted →
        answers.duplicate = false ∧ answers.blockedBefore = false ∧
          answers.blockedAfter = false ∧ answers.accepted = true ∧
          ∃ date, kstTradeDate guardNow = some date ∧
            ¬ (0 < maxOrdersPerDay ∧ maxOrdersPerDay ≤ submittedOrderCount orders date)) := by
  obtain ⟨hit, hhit, rfl⟩ := Option.map_eq_some_iff.mp h
  refine ⟨rfl, rfl, fun hstatus => ?_⟩
  simp only at hstatus
  split at hstatus
  · cases hstatus
  · next hduplicate =>
      split at hstatus
      · cases hstatus
      · next hfree =>
          rw [not_or, Bool.not_eq_true, Bool.not_eq_true] at hfree
          split at hstatus
          · next haccepted =>
              unfold maxOrdersHit at hhit
              split at hhit
              · rw [← Option.some.inj hhit] at hfree
                cases hfree.1
              · next hbefore =>
                  obtain ⟨date, hdate, hcount⟩ := Option.map_eq_some_iff.mp hhit
                  rw [hfree.1] at hcount
                  exact ⟨Bool.eq_false_iff.mpr hduplicate, Bool.eq_false_iff.mpr hbefore, hfree.2,
                    haccepted, date, hdate, of_decide_eq_false hcount⟩
          · split at hstatus
            · cases hstatus
            · cases hstatus

theorem ofKorea_append (orders more : List LiveSimRow) (date : String) :
    ofKorea (orders ++ more) date = ofKorea orders date + ofKorea more date :=
  countP_append

namespace DailyDatabase

variable {config : DailyConfig} {db : DailyDatabase}

structure Sound (config : DailyConfig) (db : DailyDatabase) : Prop where
  dated : ∀ row ∈ db.orders, DatedRow row
  limited : db.Limited config

theorem sound_liveSim (h : Sound config db) {request : DatedRequest} {now guardNow : String}
    {answers : LiveSimAnswers} (hdated : db.Dated config (.liveSim request now guardNow answers)) :
    Sound config (db.call config (.liveSim request now guardNow answers)) := by
  show Sound config { db with orders := db.orders ++
    (liveSimRow db.orders config.maxOrdersPerDay request now guardNow answers).toList }
  cases hrow : liveSimRow db.orders config.maxOrdersPerDay request now guardNow answers with
  | none =>
    rw [Option.toList_none, append_nil]
    exact h
  | some row =>
    obtain ⟨hdate, hcalled, hsubmitted⟩ := of_submitted hrow
    have hwritten : DatedRow row := by
      intro hstatus
      obtain ⟨hduplicate, hbefore, hafter, haccepted, -⟩ := hsubmitted hstatus
      rw [hcalled, hdate]
      exact (hdated hduplicate hbefore hafter haccepted).2.1
    constructor
    · intro row' hmem
      rcases mem_append.mp hmem with hmem | hmem
      · exact h.dated row' hmem
      · rw [mem_singleton.mp hmem]
        exact hwritten
    · intro date
      show (ofKorea (db.orders ++ [row]) date : Int) ≤ _
      rw [ofKorea_append]
      by_cases hnew : row.status = submitted ∧ kstTradeDate row.calledAt = some date
      · -- the order was counted under this date before it was submitted
        obtain ⟨hduplicate, hbefore, hafter, haccepted, guardDate, hguard, hfew⟩ :=
          hsubmitted hnew.1
        obtain ⟨hpositive, -, hsame⟩ := hdated hduplicate hbefore hafter haccepted
        rw [hcalled] at hnew
        rw [hsame, hnew.2] at hguard
        rw [← Option.some.inj hguard] at hfew
        have hcount := ofKorea_le_submitted h.dated date
        have hone : ofKorea [row] date ≤ 1 := countP_le_length
        omega
      · have hnone : ofKorea [row] date = 0 := by
          refine countP_eq_zero.mpr fun row' hmem hcounted => ?_
          rw [mem_singleton.mp hmem] at hcounted
          exact hnew (of_decide_eq_true hcounted)
        rw [hnone, Nat.add_zero]
        exact h.limited date

theorem sound_call (h : Sound config db) (call : DailyCall) (hdated : db.Dated config call) :
    Sound config (db.call config call) := by
  cases call with
  | liveSim request now guardNow answers => exact sound_liveSim h hdated
  | dryRun request now keyNow => exact ⟨h.dated, h.limited⟩

end DailyDatabase

/-! ## Dry runs -/

theorem decisionSafetyOk_congr (settings : DryRunSettings) (order : Sizing.BrokerOrderRequest)
    {count count' : Nat} (h : (count : Int) < settings.maxDailyOrdersPerCode ↔
      (count' : Int) < settings.maxDailyOrdersPerCode) :
    decisionSafetyOk settings order count = decisionSafetyOk settings order count' := by
  unfold decisionSafetyOk Sizing.OrderSafetyConfig.validate
  simp only [h]

theorem any_key_ownIntents {intents : List DryRunIntent} {request : DatedRequest}
    {now keyNow : String}
    (h : request.idempotencyKey = "" → ∀ row ∈ intents,
      row.idempotencyKey = idempotencyKey request keyNow → row.tradeDate = tradeDate request now) :
    (ownIntents intents request now).any
        (fun row => row.idempotencyKey = idempotencyKey request keyNow) =
      intents.any fun row => row.idempotencyKey = idempotencyKey request keyNow := by
  rw [Bool.eq_iff_iff, any_eq_true, any_eq_true]
  constructor
  · rintro ⟨row, hmem, hkey⟩
    exact ⟨row, (mem_filter.mp hmem).1, hkey⟩
  · rintro ⟨row, hmem, hkey⟩
    refine ⟨row, mem_filter.mpr ⟨hmem, decide_eq_true ?_⟩, hkey⟩
    have hkey' := of_decide_eq_true hkey
    by_cases hown : request.idempotencyKey = ""
    · exact .inl (h hown row hmem hkey')
    · refine .inr ⟨hown, hkey'.trans ?_⟩
      unfold idempotencyKey Orders.orText
      rw [if_neg hown]

theorem independent_of_dated {config : DailyConfig} {db : DailyDatabase} {call : DailyCall}
    (h : db.Dated config call) : db.Independent config call := by
  cases call with
  | liveSim request now guardNow answers => trivial
  | dryRun request now keyNow =>
    obtain ⟨hkeys, hcount⟩ := h
    show dryRunAccepted _ _ _ _ _ = dryRunAccepted _ _ _ _ _
    unfold dryRunAccepted dryRunIntent
    simp only [any_key_ownIntents hkeys]
    have hsafe := decisionSafetyOk_congr config.settings
      (applyDryRunSizingCap config.settings (brokerRequestFromRuntime config.settings request))
      hcount
    unfold countedIntents at hsafe
    split
    · rfl
    · simp only [Option.any_some]
      exact hsafe

/-! ## Runs -/

def onePerDay : DailyConfig where
  maxOrdersPerDay := 1

def purchase (code : String) : DatedRequest where
  code := code
  quantity := 10
  price := 70000

def forenoon : List DailyCall :=
  [.liveSim (purchase "005930") "2026-06-04T01:00:00+00:00" "2026-06-04T01:00:00+00:00" {},
    .liveSim (purchase "000660") "2026-06-04T01:00:01+00:00" "2026-06-04T01:00:01+00:00" {},
    .dryRun (purchase "005930") "2026-06-04T01:00:02+00:00" "2026-06-04T01:00:02+00:00"]

instance (config : DailyConfig) (db : DailyDatabase) :
    ∀ call, Decidable (db.Dated config call)
  | .liveSim .. => inferInstanceAs (Decidable (_ → _))
  | .dryRun .. => inferInstanceAs (Decidable (_ ∧ _))

def afterMidnight : List DailyCall :=
  [.liveSim (purchase "005930") "2026-06-03T16:30:00+00:00" "2026-06-03T16:30:00+00:00" {},
    .liveSim (purchase "000660") "2026-06-03T16:30:01+00:00" "2026-06-03T16:30:01+00:00" {}]

end TradingCore.LiveSim.Daily
