import TradingCore.LiveSim.CashExposure

/-!
# The exposure of the account

The cash limits are checked against the open positions when a purchase is made. The purchases
of other codes that have not filled yet are not counted, so that their fills can carry the
exposure over the limits.

`exposureWithin_of_fit`: in every history in which each purchase fits into the limits beside
the open positions and all pending purchases, and each fill of one is worth no more than it
was let through for, the exposure stays within the limits, in all and code by code.
-/

namespace TradingCore.LiveSim

open Base LiveSimOrderStatus Ledger Dict Text LiveSimPosition
open Orders (orText orInt)

/-- What an exposure is counted over: an account, or a code of it. -/
structure ExposureScope where
  account : String
  code : Option String := none

namespace ExposureScope

def covers (s : ExposureScope) (account code : String) : Bool :=
  account = s.account ∧ s.code.all fun counted => code = counted

def scopesOf (account code : String) : List ExposureScope := [⟨account, none⟩, ⟨account, some code⟩]

theorem mem_scopesOf {s : ExposureScope} {account code : String}
    (h : s.covers account code = true) : s ∈ scopesOf account code := by
  obtain ⟨account', counted⟩ := s
  unfold covers at h
  simp only [decide_eq_true_eq] at h
  obtain ⟨rfl, hcode⟩ := h
  cases counted with
  | none => simp [scopesOf]
  | some counted =>
    simp only [Option.all_some, decide_eq_true_eq] at hcode
    simp [scopesOf, hcode]

end ExposureScope

def CashLimits.limit (limits : CashLimits) (s : ExposureScope) : Int :=
  match s.code with
  | none => limits.totalExposureAmount
  | some _ => limits.perSymbolExposureAmount

def LiveSimOrder.isPurchase (order : LiveSimOrder) : Bool := lower order.side = "buy"

namespace PricedLedger

variable (limits : CashLimits) (b : PricedLedger)

/-! ## Exposure -/

def exposureOf (s : ExposureScope) (p : String) (position : LiveSimPosition) : Int :=
  if position.status.isOpen ∧ s.covers position.accountIdMasked position.code then
    position.currentQty * b.averageOf p
  else 0

/-- The exposure: `current_qty * entry_avg_price` over the open positions. -/
def exposure (s : ExposureScope) : Int := b.ledger.positions.totalBy (b.exposureOf s)

/-- The exposure is within the limits, for every account in all and code by code. -/
def ExposureWithin : Prop :=
  ∀ account, b.exposure ⟨account, none⟩ ≤ limits.totalExposureAmount ∧
    ∀ code, b.exposure ⟨account, some code⟩ ≤ limits.perSymbolExposureAmount

def pendingValueOf (s : ExposureScope) (id : String) (order : LiveSimOrder) : Int :=
  if order.isPurchase ∧ s.covers order.accountIdMasked order.code ∧
      order.orderStatus.canStillFill then
    b.ledger.unfilled id order * max 0 order.submittedPrice
  else 0

def pendingValue (s : ExposureScope) : Int := b.ledger.orders.totalBy (b.pendingValueOf s)

/-! ## When a step fits -/

/-- The limits leave room for so much beside the open positions and the pending purchases. -/
def RoomFor (account code : String) (amount : Int) : Prop :=
  ∀ s ∈ ExposureScope.scopesOf account code,
    b.exposure s + b.pendingValue s + amount ≤ limits.limit s
deriving Decidable

def BuyFits (request : BuyRequest) (answers : EnqueueAnswers) : Prop :=
  (b.enqueuedBuyStatus limits request answers).canStillFill = true →
    RoomFor limits b (maskAccount request.account) request.code
      (max 0 request.quantity * max 0 request.price)
deriving Decidable

/-- What a message about a purchase that is no longer pending brings back. -/
def revivedValue (id : String) (order : LiveSimOrder) : Int :=
  if order.orderStatus.canStillFill then 0
  else b.ledger.unfilled id order * max 0 order.submittedPrice

def fillValue (event : ExecutionEvent) : Int :=
  max 0 event.price * (b.ledger.report event).fill.fillQty

/-- What a fill adds beyond its worth to the exposure of the position that it is booked on,
when the average price is rounded up. -/
def roundingGain (event : ExecutionEvent) (p : String) : Int :=
  let fillQty := (b.ledger.report event).fill.fillQty
  max 0
    (averageAfterBuy (b.averageOf p) (b.ledger.held p) (max 0 event.price) fillQty *
        (b.ledger.held p + fillQty) -
      (b.averageOf p * b.ledger.held p + b.fillValue event))

/-- The key under which an execution is booked as a purchase. -/
def purchaseKey (event : ExecutionEvent) : Option (String × String × String) :=
  if lower (b.ledger.report event).fill.side = "buy" ∧
      0 < (b.ledger.report event).fill.fillQty then b.ledger.bookingKey event
  else none

/-- A fill of a purchase is booked on a position of its account and code, at no more than its
price. -/
def BookedAsOrdered (event : ExecutionEvent) (order : LiveSimOrder)
    (position : LiveSimPosition) : Prop :=
  position.accountIdMasked = order.accountIdMasked ∧ position.code = order.code ∧
    max 0 event.price ≤ max 0 order.submittedPrice
deriving Decidable

/-- An execution of a purchase reports no more than was submitted, is booked as it was ordered,
and leaves room for what it revives and rounds up. -/
def PurchaseFits (event : ExecutionEvent) (id : String) (order : LiveSimOrder) : Prop :=
  id ≠ "" ∧ event.cumulativeFillQty ≤ order.submittedQty ∧
    RoomFor limits b order.accountIdMasked order.code (b.revivedValue id order) ∧
    ∀ key ∈ b.purchaseKey event,
      BookedAsOrdered event order (b.ledger.positionBefore key.1 key.2.1 key.2.2) ∧
        RoomFor limits b order.accountIdMasked order.code
          (b.revivedValue id order + b.roundingGain event (positionIdFor key.1 key.2.1 key.2.2))
deriving Decidable

/-- What another execution books as a purchase finds room. -/
def OtherFits (event : ExecutionEvent) : Prop :=
  ∀ key ∈ b.purchaseKey event,
    RoomFor limits b
      (b.ledger.positionBefore key.1 key.2.1 key.2.2).accountIdMasked
      (b.ledger.positionBefore key.1 key.2.1 key.2.2).code
      (b.fillValue event + b.roundingGain event (positionIdFor key.1 key.2.1 key.2.2))
deriving Decidable

def Fits (b : PricedLedger) : ExposureAction → Prop
  | .buy _ request answers => BuyFits limits b request answers
  | .orderResult result =>
      result.ok = true → ∀ found ∈ b.ledger.resultOrder result, found.2.isPurchase = true →
        RoomFor limits b found.2.accountIdMasked found.2.code (b.revivedValue found.1 found.2)
  | .execution event =>
      (b.ledger.report event).inserted = true →
        (∀ found ∈ b.ledger.executionOrder event, found.2.isPurchase = true →
          PurchaseFits limits b event found.1 found.2) ∧
        ((∀ found ∈ b.ledger.executionOrder event, ¬ found.2.isPurchase = true) →
          OtherFits limits b event)
  | .sell _ _ _ => True
  | .exitMonitor _ _ => True
  | .lifecycle _ _ => True

instance (b : PricedLedger) : ∀ action, Decidable (Fits limits b action)
  | .buy _ request answers => inferInstanceAs (Decidable (BuyFits limits b request answers))
  | .orderResult result =>
      inferInstanceAs (Decidable (_ → ∀ found ∈ b.ledger.resultOrder result, _ → _))
  | .execution event =>
      inferInstanceAs (Decidable (_ → (∀ found ∈ b.ledger.executionOrder event, _ → _) ∧
        (_ → OtherFits limits b event)))
  | .sell _ _ _ => .isTrue trivial
  | .exitMonitor _ _ => .isTrue trivial
  | .lifecycle _ _ => .isTrue trivial

/-! ## Prices -/

theorem roundHalfEven_nonneg {n d : Int} (hn : 0 ≤ n) (hd : 0 < d) : 0 ≤ roundHalfEven n d :=
  le_roundHalfEven hd (by rwa [Int.zero_mul])

variable {fillQty : Int} {position : LiveSimPosition} {id : String} {order' order : LiveSimOrder}
  {event : ExecutionEvent}

theorem averageAfterBuy_nonneg {oldAvg oldQty fillPrice : Int} (havg : 0 ≤ oldAvg)
    (hold : 0 ≤ oldQty) (hprice : 0 ≤ fillPrice) (hqty : 0 ≤ fillQty) :
    0 ≤ averageAfterBuy oldAvg oldQty fillPrice fillQty := by
  unfold averageAfterBuy
  split
  · rename_i hpos
    split
    · exact hprice
    · apply roundHalfEven_nonneg _ hpos
      have hboth := Int.mul_nonneg havg hold
      have hnew := Int.mul_nonneg hprice hqty
      omega
  · exact havg

/-! ## The invariant -/

/-- The positions hold no less than nothing at no less than nothing, and what is not open is
empty. -/
structure Sound (b : PricedLedger) : Prop where
  held : ∀ p record, b.ledger.positions.get? p = some record →
    0 ≤ record.currentQty ∧ (record.status.isOpen = false → record.currentQty = 0)
  priced : ∀ p, 0 ≤ b.averageOf p

def Within : Prop := ∀ s, b.exposure s + b.pendingValue s ≤ limits.limit s

variable {limits} {b} {s : ExposureScope}

theorem pendingValueOf_nonneg (id : String) (order : LiveSimOrder) :
    0 ≤ b.pendingValueOf s id order := by
  unfold pendingValueOf
  split
  · exact Int.mul_nonneg (unfilled_nonneg id order) (Int.le_max_left _ _)
  · exact Int.le_refl 0

theorem pendingValue_nonneg : 0 ≤ b.pendingValue s :=
  b.ledger.orders.totalBy_nonneg pendingValueOf_nonneg

theorem exposureWithin_of_within (h : Within limits b) : ExposureWithin limits b := by
  intro account
  refine ⟨?_, fun code => ?_⟩
  · have hall := h ⟨account, none⟩
    have hpending : 0 ≤ b.pendingValue ⟨account, none⟩ := pendingValue_nonneg
    change _ ≤ limits.totalExposureAmount at hall
    omega
  · have hall := h ⟨account, some code⟩
    have hpending : 0 ≤ b.pendingValue ⟨account, some code⟩ := pendingValue_nonneg
    change _ ≤ limits.perSymbolExposureAmount at hall
    omega

variable {p side : String}

theorem exposureOf_eq (h : position.status.isOpen = false → position.currentQty = 0) :
    b.exposureOf s p position =
      if s.covers position.accountIdMasked position.code then position.currentQty * b.averageOf p
      else 0 := by
  unfold exposureOf
  cases hopen : position.status.isOpen with
  | true => simp only [true_and]
  | false =>
    rw [if_neg (fun hboth => Bool.false_ne_true hboth.1), h hopen, Int.zero_mul, ite_self]

/-! ## Steps that write one order -/

theorem pendingValue_set {b' : PricedLedger}
    (horders : b'.ledger.orders = b.ledger.orders.set id order')
    (hothers : ∀ j, j ≠ id → ∀ order, b'.ledger.unfilled j order = b.ledger.unfilled j order) :
    b'.pendingValue s = b.pendingValue s -
      ((b.ledger.orders.get? id).map (b.pendingValueOf s id)).getD 0 +
        b'.pendingValueOf s id order' := by
  unfold pendingValue
  rw [horders]
  apply totalBy_set
  intro j hj order
  unfold pendingValueOf
  rw [hothers j hj order]

theorem within_order (h : Within limits b) (hnew : ∀ s, b.pendingValueOf s id order' ≤
        ((b.ledger.orders.get? id).map (b.pendingValueOf s id)).getD 0 ∨
      b.exposure s + b.pendingValue s + b.pendingValueOf s id order' ≤ limits.limit s) :
    Within limits { b with ledger := b.ledger.commit (.order id order') } := by
  intro s
  have hset : pendingValue { b with ledger := b.ledger.commit (.order id order') } s =
      b.pendingValue s - ((b.ledger.orders.get? id).map (b.pendingValueOf s id)).getD 0 +
        b.pendingValueOf s id order' :=
    pendingValue_set rfl fun j _ order => rfl
  have hbefore : 0 ≤ ((b.ledger.orders.get? id).map (b.pendingValueOf s id)).getD 0 := by
    cases b.ledger.orders.get? id with
    | none => exact Int.le_refl 0
    | some order => exact pendingValueOf_nonneg id order
  have hall := h s
  show b.exposure s + _ ≤ limits.limit s
  rw [hset]
  rcases hnew s with hless | hroom <;> omega

theorem within_notPurchase (h : Within limits b) (hsale : order'.isPurchase = false) :
    Within limits { b with ledger := b.ledger.commit (.order id order') } := by
  apply within_order h
  intro s
  left
  have hzero : b.pendingValueOf s id order' = 0 := by
    unfold pendingValueOf
    rw [hsale]
    exact if_neg fun hboth => Bool.false_ne_true hboth.1
  rw [hzero]
  cases b.ledger.orders.get? id with
  | none => exact Int.le_refl 0
  | some order => exact pendingValueOf_nonneg id order

theorem within_buy (h : Within limits b) {request : BuyRequest} {answers : EnqueueAnswers}
    (hfits : BuyFits limits b request answers) :
    Within limits
      { b with ledger := b.ledger.commit (.order id (b.enqueuedBuy limits request answers)) } := by
  apply within_order h
  intro s
  by_cases hshare : s.covers (maskAccount request.account) request.code = true ∧
      (b.enqueuedBuyStatus limits request answers).canStillFill = true
  · right
    have hroom := hfits hshare.2 s (ExposureScope.mem_scopesOf hshare.1)
    have hqty : b.ledger.unfilled id (b.enqueuedBuy limits request answers) ≤
        max 0 request.quantity := unfilled_le id _
    have hvalue := Int.mul_le_mul_of_nonneg_right hqty (Int.le_max_left 0 request.price)
    have hof : b.pendingValueOf s id (b.enqueuedBuy limits request answers) ≤
        max 0 request.quantity * max 0 request.price := by
      unfold pendingValueOf
      split
      · exact hvalue
      · exact Int.mul_nonneg (Int.le_max_left _ _) (Int.le_max_left _ _)
    omega
  · left
    have hzero : b.pendingValueOf s id (b.enqueuedBuy limits request answers) = 0 :=
      if_neg fun hall => hshare hall.2
    rw [hzero]
    cases b.ledger.orders.get? id with
    | none => exact Int.le_refl 0
    | some order => exact pendingValueOf_nonneg id order

theorem isPurchase_enqueuedOrder {l : Ledger} (request : SellRequest) (answers : EnqueueAnswers) :
    (l.enqueuedOrder request answers).isPurchase = false := by
  have hsell : ¬ lower "sell" = "buy" := by decide
  exact decide_eq_false hsell

theorem within_exitOrdered (h : Within limits b) {positionId : String}
    (hget : b.ledger.positions.get? positionId = some position)
    (hopen : position.status.isOpen = true) :
    Within limits { b with
      ledger := b.ledger.commit (.position positionId { position with status := .exitOrdered }) } := by
  intro s
  have hset : exposure { b with
      ledger := b.ledger.commit (.position positionId { position with status := .exitOrdered }) } s =
        b.exposure s := by
    have htotal := totalBy_set b.ledger.positions positionId
      { position with status := .exitOrdered } (f := b.exposureOf s) (g := b.exposureOf s)
        fun _ _ _ => rfl
    rw [hget, Option.map_some, Option.getD_some] at htotal
    have hsame : b.exposureOf s positionId { position with status := .exitOrdered } =
        b.exposureOf s positionId position := by
      unfold exposureOf
      rw [hopen]
      rfl
    show (b.ledger.positions.set positionId { position with status := .exitOrdered }).totalBy
      (b.exposureOf s) = b.exposure s
    rw [htotal, hsame]
    unfold exposure
    omega
  show exposure _ s + b.pendingValue s ≤ limits.limit s
  rw [hset]
  exact h s

theorem within_exitMonitor (h : Within limits b) (positionId : String) (trigger : ExitTrigger) :
    Within limits { b with ledger := b.ledger.exitMonitorStep positionId trigger } := by
  unfold exitMonitorStep
  cases hget : b.ledger.positions.get? positionId with
  | none => exact h
  | some position =>
    simp only
    by_cases hstatus : position.status ∈ [LiveSimPositionStatus.opened, .partlyOpen]
    · rw [if_neg (not_not.mpr hstatus)]
      cases hactive : b.ledger.hasActiveExitOrder positionId position.code with
      | true => exact h
      | false =>
        have hsale : Within limits { b with
            ledger := b.ledger.commit (.order trigger.orderIntentId (b.ledger.enqueuedOrder
              (position.exitRequest positionId trigger) trigger.answers)) } :=
          within_notPurchase h (isPurchase_enqueuedOrder _ _)
        rw [if_neg Bool.false_ne_true]
        split
        · apply within_exitOrdered hsale hget
          simp only [List.mem_cons, List.not_mem_nil, or_false] at hstatus
          rcases hstatus with heq | heq <;> rw [heq] <;> rfl
        · exact hsale
    · rw [if_pos hstatus]
      exact h

theorem pendingValueOf_purchase (id : String) (hpurchase : order.isPurchase = true)
    (hcovers : s.covers order.accountIdMasked order.code = true) :
    b.pendingValueOf s id order + b.revivedValue id order =
      b.ledger.unfilled id order * max 0 order.submittedPrice := by
  unfold pendingValueOf revivedValue
  cases hfill : order.orderStatus.canStillFill with
  | true => simp [hpurchase, hcovers]
  | false => simp

theorem pendingValueOf_eq_zero
    (h : ¬ (order.isPurchase = true ∧ s.covers order.accountIdMasked order.code = true)) :
    b.pendingValueOf s id order = 0 :=
  if_neg fun hall => h ⟨hall.1, hall.2.1⟩

theorem pendingValueOf_le (id : String) (order : LiveSimOrder) :
    b.pendingValueOf s id order ≤ b.ledger.unfilled id order * max 0 order.submittedPrice := by
  unfold pendingValueOf
  split
  · exact Int.le_refl _
  · exact Int.mul_nonneg (unfilled_nonneg id order) (Int.le_max_left _ _)

theorem within_status (h : Within limits b) (order' : LiveSimOrder)
    (hget : b.ledger.orders.get? id = some order) (hside : order'.side = order.side)
    (haccount : order'.accountIdMasked = order.accountIdMasked) (hcode : order'.code = order.code)
    (hvalue : b.ledger.unfilled id order' * max 0 order'.submittedPrice =
      b.ledger.unfilled id order * max 0 order.submittedPrice)
    (hroom : order.isPurchase = true → order'.orderStatus.canStillFill = true →
      RoomFor limits b order.accountIdMasked order.code (b.revivedValue id order)) :
    Within limits { b with ledger := b.ledger.commit (.order id order') } := by
  apply within_order h
  intro s
  rw [hget, Option.map_some, Option.getD_some]
  by_cases hshare : order'.isPurchase = true ∧
      s.covers order'.accountIdMasked order'.code = true ∧ order'.orderStatus.canStillFill = true
  · obtain ⟨hpurchase, hcovers, hfill⟩ := hshare
    have hpurchase' : order.isPurchase = true := by
      unfold LiveSimOrder.isPurchase at hpurchase ⊢
      rw [← hside]
      exact hpurchase
    rw [haccount, hcode] at hcovers
    have hall := pendingValueOf_purchase (b := b) id hpurchase' hcovers
    have hle : b.pendingValueOf s id order' ≤
        b.ledger.unfilled id order' * max 0 order'.submittedPrice := pendingValueOf_le id order'
    cases hbefore : order.orderStatus.canStillFill with
    | true =>
      left
      have hrevived : b.revivedValue id order = 0 := if_pos hbefore
      omega
    | false =>
      right
      have hnone : b.pendingValueOf s id order = 0 := if_neg fun hall => by
        rw [hbefore] at hall
        exact Bool.false_ne_true hall.2.2
      have hrevived := hroom hpurchase' hfill s (ExposureScope.mem_scopesOf hcovers)
      omega
  · left
    have hzero : b.pendingValueOf s id order' = 0 := if_neg hshare
    rw [hzero]
    exact pendingValueOf_nonneg id order

theorem within_lifecycle (h : Within limits b) (id : String) (answers : CancelAnswers) :
    Within limits { b with ledger := b.ledger.lifecycleStep id answers } := by
  unfold lifecycleStep
  cases hget : b.ledger.orders.get? id with
  | none => exact h
  | some order =>
    simp only
    by_cases hstatus : order.orderStatus ∈ [submitted, accepted, partialFilled]
    · rw [if_neg (not_not.mpr hstatus)]
      cases order.cancelStatus answers with
      | none => exact h
      | some status =>
        apply within_status h { order with orderStatus := status } hget rfl rfl rfl rfl
        intro _ _ s _
        -- the order was pending before, so that nothing is revived
        have hpending : order.orderStatus.canStillFill = true := by
          simp only [List.mem_cons, List.not_mem_nil, or_false] at hstatus
          rcases hstatus with heq | heq | heq <;> rw [heq] <;> rfl
        have hrevived : b.revivedValue id order = 0 := if_pos hpending
        have hall := h s
        omega
    · rw [if_pos hstatus]
      exact h

theorem within_orderResult (h : Within limits b) {result : BrokerOrderResult}
    (hfits : Fits limits b (.orderResult result)) :
    Within limits { b with ledger := b.ledger.act (.orderResult result) } := by
  rw [act_orderResult]
  cases horder : b.ledger.resultOrder result with
  | none => exact h
  | some found =>
    obtain ⟨id, order⟩ := found
    apply within_status h (order.afterResult result) (get?_of_resultOrder horder) rfl rfl
      rfl rfl
    intro hpurchase hfill
    have hok : result.ok = true := by
      by_contra hfailed
      have hrejected : (order.afterResult result).orderStatus = rejected := if_neg hfailed
      rw [hrejected] at hfill
      cases hfill
    exact hfits hok (id, order) horder hpurchase

/-! ## Executions -/

theorem averageOf_after (event : ExecutionEvent) (p : String) :
    (b.perform limits (.execution event)).averageOf p =
      if (b.ledger.report event).inserted = true ∧
          (b.ledger.report event).positionId = some p ∧
            lower (b.ledger.report event).fill.side = "buy" then
        averageAfterBuy (b.averageOf p) (b.ledger.held p) (max 0 event.price)
          (b.ledger.report event).fill.fillQty
      else b.averageOf p := by
  show (b.pricesAfter event).getD p 0 = _
  unfold pricesAfter
  cases hposition : (b.ledger.report event).positionId with
  | none => simp [averageOf]
  | some booked =>
    by_cases hbuy : (b.ledger.report event).inserted = true ∧
        lower (b.ledger.report event).fill.side = "buy"
    · simp only [hbuy, and_self, if_true, Option.some.injEq, true_and, and_true]
      unfold getD
      rw [get?_set]
      by_cases hp : p = booked
      · rw [if_pos hp, if_pos hp.symm, hp]
        rfl
      · rw [if_neg hp, if_neg (Ne.symm hp)]
        rfl
    · simp only [hbuy, if_false]
      rw [if_neg fun hall => hbuy ⟨hall.1, hall.2.2⟩]
      rfl

theorem Sound.held_nonneg (hsound : b.Sound) (p : String) : 0 ≤ b.ledger.held p := by
  unfold Ledger.held
  cases hget : b.ledger.positions.get? p with
  | none => exact Int.le_refl 0
  | some record => exact (hsound.held p record hget).1

theorem averageOf_other
    (h : (b.ledger.report event).inserted = true → (b.ledger.report event).positionId ≠ some p) :
    (b.perform limits (.execution event)).averageOf p = b.averageOf p := by
  rw [averageOf_after]
  exact if_neg fun hall => h hall.1 hall.2.1

theorem averageOf_after_nonneg (hsound : b.Sound) (event : ExecutionEvent) (p : String) :
    0 ≤ (b.perform limits (.execution event)).averageOf p := by
  rw [averageOf_after]
  split
  · exact averageAfterBuy_nonneg (hsound.priced p) (hsound.held_nonneg p) (Int.le_max_left _ _)
      (b.ledger.fillQty_report_nonneg event)
  · exact hsound.priced p

theorem heldAfter_nonneg {held : Int} (hqty : 0 ≤ fillQty) (hheld : 0 ≤ held) :
    0 ≤ heldAfter side fillQty held := by
  unfold heldAfter
  split_ifs <;> omega

/-- The worth of a position after a fill: a purchase adds that of the fill and what is rounded
up, and nothing else adds to it. -/
theorem worth_after (hsound : b.Sound) (hnew : (b.ledger.report event).inserted = true)
    (hposition : (b.ledger.report event).positionId = some p) :
    heldAfter (lower (b.ledger.report event).fill.side)
        (b.ledger.report event).fill.fillQty (b.ledger.held p) *
          (b.perform limits (.execution event)).averageOf p ≤
      b.ledger.held p * b.averageOf p +
        if lower (b.ledger.report event).fill.side = "buy" then
          b.fillValue event + b.roundingGain event p
        else 0 := by
  have hqty := b.ledger.fillQty_report_nonneg event
  have hheld := hsound.held_nonneg p
  have havg := hsound.priced p
  have hafter : (b.perform limits (.execution event)).averageOf p =
      if lower (b.ledger.report event).fill.side = "buy" then
        averageAfterBuy (b.averageOf p) (b.ledger.held p) (max 0 event.price)
          (b.ledger.report event).fill.fillQty
      else b.averageOf p := by
    rw [averageOf_after]
    simp only [hnew, hposition, true_and]
  rw [hafter]
  unfold roundingGain heldAfter
  generalize (b.ledger.report event).fill.fillQty = fillQty at hqty ⊢
  by_cases hbuy : lower (b.ledger.report event).fill.side = "buy"
  · simp only [hbuy, if_true]
    have hcomm := Int.mul_comm (b.ledger.held p + fillQty)
      (averageAfterBuy (b.averageOf p) (b.ledger.held p) (max 0 event.price) fillQty)
    have hcomm' := Int.mul_comm (b.ledger.held p) (b.averageOf p)
    omega
  · simp only [hbuy, if_false]
    -- what is sold leaves less at the same price
    have hless : (if lower (b.ledger.report event).fill.side = "sell" then
        max 0 (b.ledger.held p - min fillQty (b.ledger.held p)) else b.ledger.held p) ≤
          b.ledger.held p := by
      split <;> omega
    have hworth := Int.mul_le_mul_of_nonneg_right hless havg
    omega

theorem exposureOf_before (hsound : b.Sound) (account code candidate : String) :
    ((b.ledger.positions.get? (positionIdFor account code candidate)).map
        (b.exposureOf s (positionIdFor account code candidate))).getD 0 =
      if s.covers (b.ledger.positionBefore account code candidate).accountIdMasked
          (b.ledger.positionBefore account code candidate).code then
        b.ledger.held (positionIdFor account code candidate) *
          b.averageOf (positionIdFor account code candidate)
      else 0 := by
  unfold held positionBefore
  cases hget : b.ledger.positions.get? (positionIdFor account code candidate) with
  | none => simp
  | some record =>
    simp only [Option.map_some, Option.getD_some]
    exact exposureOf_eq (hsound.held _ record hget).2

theorem accountIdMasked_afterFill (position : LiveSimPosition) (side : String) (fillQty : Int) :
    (position.afterFill side fillQty).accountIdMasked = position.accountIdMasked := by
  unfold afterFill
  split_ifs <;> rfl

theorem code_afterFill (position : LiveSimPosition) (side : String) (fillQty : Int) :
    (position.afterFill side fillQty).code = position.code := by
  unfold afterFill
  split_ifs <;> rfl

theorem exposureOf_afterFill_le (havg : 0 ≤ b.averageOf p) (hqty : 0 ≤ fillQty)
    (hheld : 0 ≤ position.currentQty) (status : LiveSimPositionStatus) :
    b.exposureOf s p { position.afterFill side fillQty with status } ≤
      if s.covers position.accountIdMasked position.code then
        heldAfter side fillQty position.currentQty * b.averageOf p
      else 0 := by
  have hworth : 0 ≤ heldAfter side fillQty position.currentQty * b.averageOf p :=
    Int.mul_nonneg (heldAfter_nonneg hqty hheld) havg
  unfold exposureOf
  simp only [accountIdMasked_afterFill, code_afterFill, currentQty_afterFill]
  by_cases hcovers : s.covers position.accountIdMasked position.code = true
  · rw [if_pos hcovers]
    split
    · exact Int.le_refl _
    · exact hworth
  · rw [if_neg hcovers, if_neg fun hboth => hcovers hboth.2]

variable (limits) in
/-- The exposure after an execution: unless it books a purchase there, a scope has no more of
it. -/
theorem exposure_execution (hsound : b.Sound) (event : ExecutionEvent) (s : ExposureScope) :
    (b.perform limits (.execution event)).exposure s ≤ b.exposure s ∨
      ∃ key ∈ b.purchaseKey event,
        s.covers (b.ledger.positionBefore key.1 key.2.1 key.2.2).accountIdMasked
            (b.ledger.positionBefore key.1 key.2.1 key.2.2).code = true ∧
          (b.perform limits (.execution event)).exposure s ≤ b.exposure s +
            (b.fillValue event + b.roundingGain event (positionIdFor key.1 key.2.1 key.2.2)) := by
  rcases b.ledger.positions_act_execution_cases event with ⟨hsame, hnowhere⟩ | ⟨hnew, hqty, hbooks⟩
  · left
    apply Int.le_of_eq
    have hprices : (b.perform limits (.execution event)).exposureOf s = b.exposureOf s := by
      funext p position
      unfold exposureOf
      rw [averageOf_other]
      intro hnew
      rw [hnowhere hnew]
      exact Option.some_ne_none p |>.symm
    show (b.ledger.act (.execution event)).positions.totalBy _ = b.exposure s
    rw [hprices, hsame]
    rfl
  · obtain ⟨account, code, candidate, status, hkey, hset, hstatus⟩ := hbooks
    have hposition : (b.ledger.report event).positionId =
        some (positionIdFor account code candidate) := by
      rw [b.ledger.positionId_report, if_pos hqty, hkey]
      rfl
    have hheld := currentQty_positionBefore b.ledger account code candidate
    have hbefore := exposureOf_before (s := s) hsound account code candidate
    have hworth : heldAfter (lower (b.ledger.report event).fill.side)
        (b.ledger.report event).fill.fillQty
        (b.ledger.held (positionIdFor account code candidate)) *
          (b.perform limits (.execution event)).averageOf (positionIdFor account code candidate) ≤
        b.ledger.held (positionIdFor account code candidate) *
            b.averageOf (positionIdFor account code candidate) +
          if lower (b.ledger.report event).fill.side = "buy" then
            b.fillValue event + b.roundingGain event (positionIdFor account code candidate)
          else 0 := worth_after hsound hnew hposition
    -- the position is the only one whose share changes
    have htotal : (b.perform limits (.execution event)).exposure s =
        b.exposure s -
          ((b.ledger.positions.get? (positionIdFor account code candidate)).map
            (b.exposureOf s (positionIdFor account code candidate))).getD 0 +
          (b.perform limits (.execution event)).exposureOf s
            (positionIdFor account code candidate)
            { (b.ledger.positionBefore account code candidate).afterFill
                (lower (b.ledger.report event).fill.side)
                (b.ledger.report event).fill.fillQty with status } := by
      show (b.ledger.act (.execution event)).positions.totalBy _ = _
      rw [hset]
      apply totalBy_set
      intro p hp position
      unfold exposureOf
      rw [averageOf_other]
      intro _ hbooked
      rw [hposition] at hbooked
      injection hbooked with heq
      exact hp heq.symm
    have hshare : (b.perform limits (.execution event)).exposureOf s
          (positionIdFor account code candidate)
          { (b.ledger.positionBefore account code candidate).afterFill
              (lower (b.ledger.report event).fill.side)
              (b.ledger.report event).fill.fillQty with status } ≤
        if s.covers (b.ledger.positionBefore account code candidate).accountIdMasked
            (b.ledger.positionBefore account code candidate).code then
          heldAfter (lower (b.ledger.report event).fill.side)
            (b.ledger.report event).fill.fillQty
            (b.ledger.held (positionIdFor account code candidate)) *
              (b.perform limits (.execution event)).averageOf (positionIdFor account code candidate)
        else 0 := by
      rw [← hheld]
      exact exposureOf_afterFill_le (averageOf_after_nonneg hsound event _) (Int.le_of_lt hqty)
        (by rw [hheld]; exact hsound.held_nonneg _) status
    rw [hbefore] at htotal
    by_cases hcovers : s.covers (b.ledger.positionBefore account code candidate).accountIdMasked
        (b.ledger.positionBefore account code candidate).code = true
    · rw [if_pos hcovers] at htotal hshare
      by_cases hbuy : lower (b.ledger.report event).fill.side = "buy"
      · right
        rw [if_pos hbuy] at hworth
        refine ⟨(account, code, candidate), ?_, hcovers, ?_⟩
        · unfold purchaseKey
          rw [if_pos ⟨hbuy, hqty⟩]
          exact hkey
        · simp only
          omega
      · left
        rw [if_neg hbuy] at hworth
        omega
    · left
      rw [if_neg hcovers] at htotal hshare
      omega

variable (limits) in
theorem pendingValue_execution (horder : b.ledger.executionOrder event = some (id, order))
    (hnew : (b.ledger.report event).inserted = true) :
    (b.perform limits (.execution event)).pendingValue s =
      b.pendingValue s - b.pendingValueOf s id order +
        (b.perform limits (.execution event)).pendingValueOf s id
          (b.ledger.orderAfterExecution id order event) := by
  have hset : (b.perform limits (.execution event)).ledger.orders =
      b.ledger.orders.set id (b.ledger.orderAfterExecution id order event) := by
    show (b.ledger.act (.execution event)).orders = _
    rw [orders_act_execution, horder]
    exact if_pos hnew
  have hothers : ∀ j, j ≠ id → ∀ order',
      (b.perform limits (.execution event)).ledger.unfilled j order' =
        b.ledger.unfilled j order' := by
    intro j hj order'
    show (b.ledger.act (.execution event)).unfilled j order' = _
    unfold unfilled
    rw [previous_act_execution,
      if_neg fun hboth => hj ((bears_report_some horder j).mp hboth.2).2.symm]
  rw [pendingValue_set hset hothers, get?_of_executionOrder horder, Option.map_some,
    Option.getD_some]

theorem within_purchaseExecution (h : Within limits b) (hsound : b.Sound)
    (horder : b.ledger.executionOrder event = some (id, order))
    (hnew : (b.ledger.report event).inserted = true) (hpurchase : order.isPurchase = true)
    (hfits : PurchaseFits limits b event id order) :
    Within limits (b.perform limits (.execution event)) := by
  obtain ⟨hid, hreported, hroom, hbooked⟩ := hfits
  intro s
  have hall := h s
  have hpending := pendingValue_execution limits (s := s) horder hnew
  have hexposure := exposure_execution limits hsound event s
  by_cases hcovers : s.covers order.accountIdMasked order.code = true
  · have hvalue := pendingValueOf_purchase (b := b) id hpurchase hcovers
    have hafter : (b.perform limits (.execution event)).pendingValueOf s id
        (b.ledger.orderAfterExecution id order event) ≤
          (b.ledger.act (.execution event)).unfilled id
            (b.ledger.orderAfterExecution id order event) * max 0 order.submittedPrice :=
      pendingValueOf_le id _
    have hprice : 0 ≤ max 0 order.submittedPrice := Int.le_max_left _ _
    have hqty : 0 ≤ (b.ledger.report event).fill.fillQty := b.ledger.fillQty_report_nonneg event
    have hless := Int.mul_le_mul_of_nonneg_right
      (unfilled_act_execution_le horder hnew hid hreported) hprice
    rw [Int.add_mul] at hless
    have hmember := ExposureScope.mem_scopesOf hcovers
    rcases hexposure with hsame | ⟨key, hkey, -, hmore⟩
    · have hrevived := hroom s hmember
      have hfill := Int.mul_nonneg hqty hprice
      omega
    · obtain ⟨⟨-, -, hcheaper⟩, hspace⟩ := hbooked key hkey
      have hboth := hspace s hmember
      have hworth : b.fillValue event ≤
          (b.ledger.report event).fill.fillQty * max 0 order.submittedPrice := by
        unfold fillValue
        rw [Int.mul_comm]
        exact Int.mul_le_mul_of_nonneg_left hcheaper hqty
      omega
  · have hbefore : b.pendingValueOf s id order = 0 :=
      pendingValueOf_eq_zero fun hboth => hcovers hboth.2
    have hafter : (b.perform limits (.execution event)).pendingValueOf s id
        (b.ledger.orderAfterExecution id order event) = 0 :=
      pendingValueOf_eq_zero fun hboth => hcovers hboth.2
    rcases hexposure with hsame | ⟨key, hkey, hbookedHere, -⟩
    · omega
    · -- the fill is booked where the purchase is counted
      obtain ⟨⟨haccount, hcode, -⟩, -⟩ := hbooked key hkey
      rw [haccount, hcode] at hbookedHere
      exact absurd hbookedHere hcovers

theorem within_otherExecution (h : Within limits b) (hsound : b.Sound)
    (hsame : ∀ s, (b.perform limits (.execution event)).pendingValue s = b.pendingValue s)
    (hfits : OtherFits limits b event) : Within limits (b.perform limits (.execution event)) := by
  intro s
  have hall := h s
  have hpending := hsame s
  rcases exposure_execution limits hsound event s with hless | ⟨key, hkey, hcovers, hmore⟩
  · omega
  · have hroom := hfits key hkey s (ExposureScope.mem_scopesOf hcovers)
    omega

theorem within_execution (h : Within limits b) (hsound : b.Sound)
    (hfits : Fits limits b (.execution event)) :
    Within limits (b.perform limits (.execution event)) := by
  by_cases hnew : (b.ledger.report event).inserted = true
  · obtain ⟨hpurchases, hothers⟩ := hfits hnew
    cases horder : b.ledger.executionOrder event with
    | none =>
      apply within_otherExecution h hsound _ (hothers _)
      · intro s
        have hshares : (b.perform limits (.execution event)).pendingValueOf s =
            b.pendingValueOf s := by
          funext id order
          unfold pendingValueOf
          have hunfilled : (b.perform limits (.execution event)).ledger.unfilled id order =
              b.ledger.unfilled id order := by
            show (b.ledger.act (.execution event)).unfilled id order = _
            unfold unfilled
            rw [previous_act_execution, if_neg fun hboth => bears_report_none horder id hboth.2]
          rw [hunfilled]
        unfold pendingValue
        rw [hshares]
        show (b.ledger.act (.execution event)).orders.totalBy _ = _
        rw [orders_act_execution, horder]
      · intro found hfound
        rw [horder] at hfound
        cases hfound
    | some found =>
      obtain ⟨id, order⟩ := found
      by_cases hpurchase : order.isPurchase = true
      · exact within_purchaseExecution h hsound horder hnew hpurchase
          (hpurchases (id, order) horder hpurchase)
      · apply within_otherExecution h hsound _ (hothers _)
        · intro s
          have hbefore : b.pendingValueOf s id order = 0 :=
            pendingValueOf_eq_zero fun hboth => hpurchase hboth.1
          have hafter : (b.perform limits (.execution event)).pendingValueOf s id
              (b.ledger.orderAfterExecution id order event) = 0 :=
            pendingValueOf_eq_zero fun hboth => hpurchase hboth.1
          rw [pendingValue_execution limits horder hnew, hbefore, hafter]
          omega
        · intro found hfound
          rw [horder] at hfound
          injection hfound with hfound
          rw [← hfound]
          exact hpurchase
  · -- nothing is written
    have hidle : b.perform limits (.execution event) = b := by
      show ({ ledger := b.ledger.act (.execution event), entryAvgPrice := b.pricesAfter event } :
        PricedLedger) = b
      have hledger : b.ledger.act (.execution event) = b.ledger := by
        show (b.ledger.executionWrites event).foldl commit b.ledger = b.ledger
        rw [executionWrites_eq, if_neg hnew]
        rfl
      have hprices : b.pricesAfter event = b.entryAvgPrice := by
        unfold pricesAfter
        cases (b.ledger.report event).positionId with
        | none => rfl
        | some p =>
          simp only
          exact if_neg fun hboth => hnew hboth.1
      rw [hledger, hprices]
    rw [hidle]
    exact h

/-! ## Sound positions -/

theorem sound_positions (hsound : b.Sound) {l' : Ledger}
    (hsame : l'.positions = b.ledger.positions) : Sound { b with ledger := l' } := by
  refine ⟨?_, hsound.priced⟩
  intro p record hget
  apply hsound.held p record
  rw [← hsame]
  exact hget

theorem sound_exitMonitor (hsound : b.Sound) (positionId : String) (trigger : ExitTrigger) :
    Sound { b with ledger := b.ledger.exitMonitorStep positionId trigger } := by
  unfold exitMonitorStep
  cases hget : b.ledger.positions.get? positionId with
  | none => exact hsound
  | some position =>
    simp only
    split
    · exact hsound
    · split
      · exact hsound
      · split
        · refine ⟨?_, hsound.priced⟩
          intro p record hrecord
          have hset : (b.ledger.positions.set positionId
              { position with status := .exitOrdered }).get? p = some record := hrecord
          rw [get?_set] at hset
          split at hset
          · injection hset with hset
            rw [← hset]
            have hopen : LiveSimPositionStatus.exitOrdered.isOpen = true := rfl
            exact ⟨(hsound.held positionId position hget).1,
              fun hclosed => absurd (hclosed.symm.trans hopen) Bool.false_ne_true⟩
          · exact hsound.held p record hset
        · exact sound_positions hsound rfl

theorem sound_afterFill (hqty : 0 ≤ fillQty)
    (hclosed : position.status.isOpen = false → position.currentQty = 0) :
    (position.afterFill side fillQty).status.isOpen = false →
      (position.afterFill side fillQty).currentQty = 0 := by
  by_cases hbuy : side = "buy"
  · unfold afterFill
    rw [if_pos hbuy]
    intro hstatus
    cases hstatus
  · by_cases hsell : side = "sell"
    · unfold afterFill
      rw [if_neg hbuy, if_pos hsell]
      intro hstatus
      simp only at hstatus ⊢
      split at hstatus
      · omega
      · have := hclosed hstatus
        omega
    · unfold afterFill
      rw [if_neg hbuy, if_neg hsell]
      exact hclosed

theorem sound_execution (hsound : b.Sound) (event : ExecutionEvent) :
    (b.perform limits (.execution event)).Sound := by
  refine ⟨?_, averageOf_after_nonneg hsound event⟩
  intro p record hget
  change (b.ledger.act (.execution event)).positions.get? p = some record at hget
  rcases b.ledger.positions_act_execution_cases event with ⟨hsame, -⟩ | ⟨-, hqty, hbooks⟩
  · rw [hsame] at hget
    exact hsound.held p record hget
  · obtain ⟨account, code, candidate, status, -, hset, hstatus⟩ := hbooks
    rw [hset, get?_set] at hget
    split at hget
    · injection hget with hget
      have hbefore : 0 ≤ (b.ledger.positionBefore account code candidate).currentQty ∧
          ((b.ledger.positionBefore account code candidate).status.isOpen = false →
            (b.ledger.positionBefore account code candidate).currentQty = 0) := by
        unfold positionBefore
        cases hfound : b.ledger.positions.get? (positionIdFor account code candidate) with
        | none => exact ⟨Int.le_refl 0, fun _ => rfl⟩
        | some position => exact hsound.held _ position hfound
      generalize b.ledger.positionBefore account code candidate = before at hget hstatus hbefore
      generalize lower (b.ledger.report event).fill.side = side at hget hstatus
      generalize (b.ledger.report event).fill.fillQty = fillQty at hqty hget hstatus
      have hnonneg : 0 ≤ (before.afterFill side fillQty).currentQty := by
        rw [currentQty_afterFill]
        exact heldAfter_nonneg (Int.le_of_lt hqty) hbefore.1
      have hempty : (before.afterFill side fillQty).status.isOpen = false →
          (before.afterFill side fillQty).currentQty = 0 :=
        sound_afterFill (Int.le_of_lt hqty) hbefore.2
      generalize before.afterFill side fillQty = after at hget hstatus hnonneg hempty
      rw [← hget]
      refine ⟨hnonneg, ?_⟩
      rcases hstatus with hkept | ⟨hreconcile, -⟩
      · rw [hkept]
        exact hempty
      · intro hclosed
        rw [hreconcile] at hclosed
        cases hclosed
    · exact hsound.held p record hget

/-! ## Whole runs -/

theorem sound_step (hsound : b.Sound) (action : ExposureAction) :
    (b.perform limits action).Sound := by
  cases action with
  | buy id request answers => exact sound_positions hsound rfl
  | sell id request answers => exact sound_positions hsound rfl
  | exitMonitor positionId trigger => exact sound_exitMonitor hsound positionId trigger
  | lifecycle id answers =>
    apply sound_positions hsound
    unfold lifecycleStep
    cases b.ledger.orders.get? id with
    | none => rfl
    | some order =>
      simp only
      split
      · rfl
      · cases order.cancelStatus answers with
        | none => rfl
        | some status => rfl
  | orderResult result =>
    exact sound_positions hsound (b.ledger.positions_act_orderResult result)
  | execution event => exact sound_execution hsound event

theorem within_step (h : Within limits b) (hsound : b.Sound) {action : ExposureAction}
    (hfits : Fits limits b action) : Within limits (b.perform limits action) := by
  cases action with
  | buy id request answers => exact within_buy h hfits
  | sell id request answers => exact within_notPurchase h (isPurchase_enqueuedOrder request answers)
  | exitMonitor positionId trigger => exact within_exitMonitor h positionId trigger
  | lifecycle id answers => exact within_lifecycle h id answers
  | orderResult result => exact within_orderResult h hfits
  | execution event => exact within_execution h hsound hfits

theorem limitFromRatio_nonneg (product absoluteCap : Int) :
    0 ≤ limitFromRatio product absoluteCap := by
  unfold limitFromRatio
  split <;> omega

theorem limit_nonneg (config : CashConfig) (s : ExposureScope) :
    0 ≤ (resolveLiveSimCashLimits config).limit s := by
  have hamounts : 0 ≤ (resolveLiveSimCashLimits config).totalExposureAmount ∧
      0 ≤ (resolveLiveSimCashLimits config).perSymbolExposureAmount := by
    unfold resolveLiveSimCashLimits
    split
    · exact ⟨Int.le_refl 0, Int.le_refl 0⟩
    · exact ⟨limitFromRatio_nonneg _ _, limitFromRatio_nonneg _ _⟩
  unfold CashLimits.limit
  split
  · exact hamounts.1
  · exact hamounts.2

/-- Under any limits, and whether or not the steps fit into them: no position is ever short, one
that is closed is empty, and no average price is negative. -/
theorem positions_never_short (limits : CashLimits) (run : List ExposureAction) :
    (machine limits).Always Sound {} run := by
  refine Machine.always_iff_prefix.mpr fun past _ => ?_
  have hstep : ∀ b action, Sound b → Sound ((machine limits).next b action) :=
    fun b action hsound => sound_step hsound action
  have hstart : Sound {} :=
    ⟨fun p record hget => (by cases hget), fun p => Int.le_refl 0⟩
  exact Machine.run_preserves hstep hstart past

/-! ## Fixed runs -/

def tenThousand : CashConfig where
  availableCash := 10000
  totalExposureProduct := 2500
  perSymbolExposureProduct := 1500

def tenSharesBuy (code : String) : BuyRequest where
  account := "1234567890"
  code := code
  quantity := 10
  price := 100
  idempotencyKey := "buy:" ++ code

def tenSharesBought (code commandId : String) (filled : Int) : ExecutionEvent where
  code := code
  orderNo := "no:" ++ commandId
  commandId := commandId
  side := "buy"
  quantity := 10
  price := 100
  filledQuantity := filled
  remainingQuantity := 10 - filled

def twoCodes : List ExposureAction :=
  [.buy "O1" (tenSharesBuy "005930") { commandId := "C1" },
   .execution (tenSharesBought "005930" "C1" 4),
   .execution (tenSharesBought "005930" "C1" 10),
   .buy "O2" (tenSharesBuy "000660") { commandId := "C2" },
   .execution (tenSharesBought "000660" "C2" 10),
   .sell "S1" (tenSharesExit "STOP_LOSS") { commandId := "C3" },
   .execution (tenSharesFill "8" "sell" 10)]

def threeCodes : List ExposureAction :=
  [.buy "O1" (tenSharesBuy "005930") { commandId := "C1" },
   .buy "O2" (tenSharesBuy "000660") { commandId := "C2" },
   .buy "O3" (tenSharesBuy "035420") { commandId := "C3" },
   .execution (tenSharesBought "005930" "C1" 10),
   .execution (tenSharesBought "000660" "C2" 10),
   .execution (tenSharesBought "035420" "C3" 10)]

end PricedLedger
end TradingCore.LiveSim
