import TradingCore.LiveSim.BuySizing

/-!
# A purchase stays within its limit

`accepted_buy_withinLimit`: a purchase that `enqueue_live_sim_order` submits asks for no more
than the request, and costs no more than the limit of its request unless it is a single share
within the exception for small accounts; a quantity that was reduced is the largest within the
limit.

The sizing, the check before the submission and the safety guard derive the limit from the same
request, configuration and snapshot, so they speak of one limit (`sized_cases`,
`amount_of_allowed`).
-/

namespace TradingCore.LiveSim.Sizing

open Base Option

variable {settings : CoreSettings} {request : RuntimeOrderIntentRequest} {execution : Mapping}
  {gatewayStatus : GatewayStatus} {answers : OrderAnswers} {order sized : BrokerOrderRequest}

/-- A single share whose price is within the exception for small accounts. -/
def AmountLimit.Exception (limit : AmountLimit) (order : BrokerOrderRequest) : Prop :=
  order.quantity = 1 ∧ limit.minLotExceptionAllowed order.price = true

/-- The order keeps to the limit of its request. -/
structure WithinLimit (request : RuntimeOrderIntentRequest) (limit : AmountLimit)
    (order : BrokerOrderRequest) : Prop where
  price : order.price = request.price
  quantity : 0 < order.quantity ∧ order.quantity ≤ request.quantity
  amount : order.quantity * order.price ≤ limit.maxOrderAmount ∨ limit.Exception order
  reduced : order.quantity < request.quantity →
    IsGreatest {n : Int | n * order.price ≤ limit.maxOrderAmount} order.quantity ∨
      limit.maxOrderAmount < order.price ∧ limit.Exception order

/-! ## Sizing -/

theorem targetQuantity_spec {limit : AmountLimit} {price : Int} (hprice : 0 < price)
    (htarget : 0 < limit.targetQuantity price) :
    IsGreatest {n : Int | n * price ≤ limit.maxOrderAmount} (limit.targetQuantity price) ∨
      limit.targetQuantity price = 1 ∧ limit.maxOrderAmount < price ∧
        limit.minLotExceptionAllowed price = true := by
  unfold AmountLimit.targetQuantity at htarget ⊢
  by_cases hmax : 0 < limit.maxOrderAmount
  · simp only [if_pos hmax] at htarget ⊢
    split
    · next hexception =>
        -- not even one share fits
        refine .inr ⟨rfl, ?_, hexception.2⟩
        have hquotient : limit.maxOrderAmount / price < 1 := hexception.1
        exact (Int.ediv_lt_iff_lt_mul hprice).mp hquotient |>.trans_eq (Int.one_mul price)
    · refine .inl ⟨Int.ediv_mul_le _ (ne_of_gt hprice), fun n hn => ?_⟩
      exact (Int.le_ediv_iff_mul_le hprice).mpr hn
  · simp only [if_neg hmax] at htarget ⊢
    split
    · next hexception => exact .inr ⟨rfl, by omega, hexception.2⟩
    · next hnone =>
        rw [if_neg hnone] at htarget
        exact absurd htarget (Int.lt_irrefl 0)

theorem sized_cases (h : applyLiveSimCashSizing settings request order execution gatewayStatus =
    some sized) :
    sized = order ∨ ∃ limit,
      liveSimOrderAmountLimit settings request order.side execution gatewayStatus = some limit ∧
        0 < order.price ∧ 0 < limit.targetQuantity order.price ∧
        limit.targetQuantity order.price < order.quantity ∧
        sized = { order with quantity := limit.targetQuantity order.price } := by
  unfold applyLiveSimCashSizing at h
  split at h
  · exact .inl (some.inj h).symm
  · obtain ⟨limit, hlimit, h⟩ := bind_eq_some_iff.mp h
    split at h
    · exact .inl (some.inj h).symm
    · split at h
      · exact .inl (some.inj h).symm
      · next hpositive =>
          have hprice : 0 < order.price := by omega
          simp only [max_eq_right hprice.le] at h
          split at h
          · exact .inl (some.inj h).symm
          · next htarget =>
              exact .inr ⟨limit, hlimit, hprice, by omega, by omega, (some.inj h).symm⟩

theorem exit_of_buy (hbuy : order.side = "buy")
    (h : applyLiveSimExitPositionQuantity request sized answers = some order) : order = sized := by
  unfold applyLiveSimExitPositionQuantity at h
  split at h
  · exact (some.inj h).symm
  · next hsell =>
      split at h
      · exact (some.inj h).symm
      · obtain ⟨quantity, -, rfl⟩ := map_eq_some_iff.mp h
        refine absurd (show Text.lower sized.side ≠ "sell" from ?_) hsell
        rw [show sized.side = "buy" from hbuy]
        decide

/-! ## The check before the submission -/

theorem amount_of_allowed (hbuy : order.side = "buy")
    (h : preSubmitAllowed settings request order execution gatewayStatus answers = some true) :
    ∃ limit, liveSimOrderAmountLimit settings request order.side execution gatewayStatus =
        some limit ∧ 0 < order.quantity ∧ 0 < order.price ∧
      (order.quantity * order.price ≤ limit.maxOrderAmount ∨ limit.Exception order) := by
  unfold preSubmitAllowed at h
  split at h
  · cases h
  · split at h
    · cases h
    · next hallowed =>
        have hpositive : 0 < order.quantity ∧ 0 < order.price := by
          have hall := of_decide_eq_true (Decidable.not_not.mp hallowed)
          exact ⟨hall.1, hall.2.1⟩
        obtain ⟨allowed, hamount, hand⟩ := map_eq_some_iff.mp h
        have hyes : allowed = true := (Bool.and_eq_true_iff.mp hand).1
        rw [hyes] at hamount
        obtain ⟨minAmount, -, hamount⟩ := bind_eq_some_iff.mp hamount
        obtain ⟨limit, hlimit, hamount⟩ := bind_eq_some_iff.mp hamount
        refine ⟨limit, hlimit, hpositive.1, hpositive.2, ?_⟩
        have hmul : order.amount = order.quantity * order.price := by
          unfold BrokerOrderRequest.amount
          rw [max_eq_right hpositive.2.le]
        split at hamount
        · cases hamount
        · split at hamount
          · have happlies := of_decide_eq_true (some.inj hamount)
            exact .inr ⟨happlies.2.1, happlies.2.2⟩
          · next hwithin =>
              rw [hmul] at hwithin
              exact .inl (Int.not_lt.mp fun hlt => hwithin ⟨hbuy, hlt⟩)

/-! ## The whole call -/

theorem of_enqueued (h : enqueueLiveSimOrder settings request execution gatewayStatus answers =
    some order) :
    ∃ sized, applyLiveSimCashSizing settings request
        (brokerRequestFromRuntimeLiveSim settings request gatewayStatus) execution gatewayStatus =
          some sized ∧
      applyLiveSimExitPositionQuantity request sized answers = some order ∧
      preSubmitAllowed settings request order execution gatewayStatus answers = some true := by
  unfold enqueueLiveSimOrder at h
  simp only [bind_eq_bind, bind_eq_some_iff] at h
  obtain ⟨sized, hsized, order', horder, allowed, hallowed, _, hguard, maxAmount, -, config, -, _,
    -, h⟩ := h
  rw [some.inj h] at horder hallowed
  have hyes := ((guard_eq_some' _).mp hguard).2
  exact ⟨sized, hsized, horder, hallowed.trans (congrArg some hyes)⟩

/-- A purchase that is submitted keeps to the limit of its request. -/
theorem accepted_buy_withinLimit (settings : CoreSettings) (request : RuntimeOrderIntentRequest)
    (execution : Mapping) (gatewayStatus : GatewayStatus) (answers : OrderAnswers)
    (order : BrokerOrderRequest)
    (h : enqueueLiveSimOrder settings request execution gatewayStatus answers = some order)
    (hbuy : order.side = "buy") :
    ∃ limit, liveSimOrderAmountLimit settings request "buy" execution gatewayStatus = some limit ∧
      WithinLimit request limit order := by
  obtain ⟨sized, hsized, horder, hallowed⟩ := of_enqueued h
  obtain rfl := exit_of_buy hbuy horder
  obtain ⟨limit, hlimit, hquantity, hprice, hamount⟩ := amount_of_allowed hbuy hallowed
  rw [hbuy] at hlimit
  refine ⟨limit, hlimit, ?_⟩
  rcases sized_cases hsized with rfl | ⟨limit', hlimit', hrequest, htarget, hless, rfl⟩
  · exact ⟨rfl, ⟨hquantity, le_refl _⟩, hamount, fun hless => absurd hless (Int.lt_irrefl _)⟩
  · -- the sizing and the check have derived the same limit
    rw [show (brokerRequestFromRuntimeLiveSim settings request gatewayStatus).side = "buy"
      from hbuy, hlimit] at hlimit'
    obtain rfl := some.inj hlimit'
    refine ⟨rfl, ⟨hquantity, hless.le⟩, hamount, fun _ => ?_⟩
    rcases targetQuantity_spec hrequest htarget with hgreatest | ⟨hone, hmax, hexception⟩
    · exact .inl hgreatest
    · exact .inr ⟨hmax, hone, hexception⟩

/-! ## Fixed runs -/

def fivePercent : Mapping :=
  Dict.ofList [("available_cash_krw", .str "10,000,000"), ("per_order_limit_pct", .other "0.05" true)]

def readyGateway : GatewayStatus where
  values := Dict.ofList [("connected", .bool true), ("heartbeat_ok", .bool true),
    ("kiwoom_logged_in", .bool true), ("orderable", .bool true), ("account", .str "8101234511")]

/-- Ten shares at 70,000, of which seven are submitted. -/
theorem accepted_buy_withinLimit_sevenOfTen :
    ∃ limit, liveSimOrderAmountLimit {} { code := "005930", quantity := 10, price := 70000 } "buy"
        fivePercent readyGateway = some limit ∧
      WithinLimit { code := "005930", quantity := 10, price := 70000 } limit
        { account := "8101234511", code := "005930", quantity := 7, price := 70000, side := "buy",
          hoga := "00" } :=
  accepted_buy_withinLimit {} { code := "005930", quantity := 10, price := 70000 } fivePercent
    readyGateway {} _ (by decide +kernel) rfl

end TradingCore.LiveSim.Sizing
