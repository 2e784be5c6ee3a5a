import TradingCore.Orders.CommandGates
import TradingCore.Orders.OrderTerms

/-!
# The budget of purchases

The risk check counts the orders of the table that the same run is growing. An order never
changes its date, side, code or key, so the counts grow only by the order of an approved
intent, and that one has just been counted against the limits. The statuses do change: an
event can give an order that was over an active status again.

`budget_kept_iff_noRival`: in every history the purchases stay within the budget iff no event
does that to a purchase while another purchase of its code is active.
-/

namespace TradingCore.Orders

open Base ManagedOrderStatus List Dict
open Broker (GatewayCommand)

/-! ## Counts -/

namespace Ledger

variable (l : Ledger)

def count (p : ManagedOrder → Bool) : Int := l.managedOrders.total fun order => if p order then 1 else 0

def ordersOf (date : String) : Int := l.count fun order => order.tradeDate = date

def buysOf (date : String) : Int :=
  l.count fun order => order.tradeDate = date ∧ order.hasSide .buy

def buysOfCode (date code : String) : Int :=
  l.count fun order =>
    order.tradeDate = date ∧ order.hasSide .buy ∧ codeColumn order.code = codeColumn code

variable {l}

theorem count_le_count {p q : ManagedOrder → Bool} (h : ∀ order, p order = true → q order = true) :
    l.count p ≤ l.count q := by
  refine total_le_total (fun order => ?_) _
  have hpq := h order
  split <;> split <;> first | omega | simp_all

theorem buysOf_le_todayOrderCount (date : String) :
    l.buysOf date ≤ l.todayOrderCount date .buy := by
  unfold todayOrderCount ofDate
  rw [filter_filter, length_filter_eq_total]
  refine count_le_count fun order h => ?_
  simp only [decide_eq_true_eq, Bool.and_eq_true] at h ⊢
  exact ⟨h.2, .inr h.1⟩

theorem buysOfCode_le_dailyCodeOrderCount {date : String} (hdate : date ≠ "") (code : String)
    (h : l.ordersOf date < 500) :
    l.buysOfCode date code ≤ l.dailyCodeOrderCount date code := by
  have hlength : (l.ofDate date).length < 500 := by
    have heq : ((l.ofDate date).length : Int) = l.ordersOf date := by
      unfold ofDate
      rw [length_filter_eq_total]
      unfold ordersOf count
      simp [hdate]
    omega
  unfold dailyCodeOrderCount
  rw [take_of_length_le, filter_filter, filter_reverse, length_reverse]
  · unfold ofDate
    rw [filter_filter, length_filter_eq_total]
    refine count_le_count fun order h => ?_
    simp only [decide_eq_true_eq, Bool.and_eq_true] at h ⊢
    exact ⟨⟨.inl h.2.1, .inr h.2.2⟩, .inr h.1⟩
  · refine (length_filter_le _ _).trans ?_
    rw [length_reverse]
    omega

end Ledger

/-! ## The budget -/

def ManagedOrder.activeBuy (order : ManagedOrder) : Bool := order.hasSide .buy ∧ order.status.active

/-- No two purchases of a code are under way. -/
def Ledger.OneActiveBuy (l : Ledger) : Prop :=
  ∀ id id' order order', l.managedOrders.get? id = some order →
    l.managedOrders.get? id' = some order' → order.activeBuy = true → order'.activeBuy = true →
    codeColumn order.code = codeColumn order'.code → id = id'

/-- The budget of purchases; a negative limit counts as zero. -/
structure Ledger.WithinBudget (config : OrderManagerSettings) (l : Ledger) : Prop where
  daily : ∀ date, l.buysOf date ≤ max 0 config.maxDailyBuyOrders
  perCode : ∀ date, date ≠ "" → l.ordersOf date < 500 →
    ∀ code, l.buysOfCode date code ≤ max 0 config.maxDailyOrdersPerCode
  oneActive : l.OneActiveBuy
  oneOrder : ∀ id id' order order', l.managedOrders.get? id = some order →
    l.managedOrders.get? id' = some order' → order.idempotencyKey = order'.idempotencyKey →
    id = id'

/-- The event gives an order that is not active an active status: it accepts an order that is
neither filled nor cancelled, or reports an execution that leaves something open. -/
def Ledger.Revives (l : Ledger) (canonicalType : CanonicalType) (payload : OrderPayload)
    (id : Nat) (order : ManagedOrder) : Prop :=
  order.status.active = false ∧
    match ackPayload canonicalType payload with
    | some ack => l.ackedOrder ack = some (id, order) ∧ ack.ackedStatus = ackedByGateway ∧
        order.status ∉ [filled, cancelled]
    | none => canonicalType ∈ fillTypes ∧
        l.findExecutionOrder (.fromDict payload) = some (id, order) ∧
        0 < order.remainingAfter (.fromDict payload)

namespace OrderManagerRuntimePipeline

variable {config : OrderManagerSettings} {digest : GatewayCommand → String}
  {p : OrderManagerRuntimePipeline}

/-- No event revives a purchase while another purchase of its code is active. -/
def NoRival (p : OrderManagerRuntimePipeline) : Action → Prop
  | .applyEvent canonicalType payload _ =>
      ∀ id order, p.db.Revives canonicalType payload id order → order.hasSide .buy = true →
        ∀ id' other, p.db.managedOrders.get? id' = some other → other.activeBuy = true →
          codeColumn other.code ≠ codeColumn order.code
  | _ => True

end OrderManagerRuntimePipeline

/-! ## Active purchases -/

theorem ManagedOrderStatus.active_of_waiting {status : ManagedOrderStatus}
    (h : status.waiting = true) : status.active = true := by
  revert h
  cases status <;> decide

variable {l : Ledger} {order : ManagedOrder}

theorem Ledger.OneActiveBuy.set {id : Nat} (hl : l.OneActiveBuy)
    (hbeside : ∀ id' other, id' ≠ id → l.managedOrders.get? id' = some other →
      other.activeBuy = true → order.activeBuy = true →
      codeColumn other.code ≠ codeColumn order.code) :
    { l with managedOrders := l.managedOrders.set id order }.OneActiveBuy := by
  have hcases : ∀ id' other, (l.managedOrders.set id order).get? id' = some other →
      (id' = id ∧ order = other) ∨ (id' ≠ id ∧ l.managedOrders.get? id' = some other) := by
    intro id' other hget'
    rw [get?_set] at hget'
    by_cases hid : id' = id
    · rw [if_pos hid] at hget'
      exact .inl ⟨hid, Option.some.inj hget'⟩
    · rw [if_neg hid] at hget'
      exact .inr ⟨hid, hget'⟩
  intro id₁ id₂ order₁ order₂ h₁ h₂ hactive₁ hactive₂ hcode
  rcases hcases id₁ order₁ h₁ with ⟨hid₁, rfl⟩ | ⟨hne₁, h₁⟩
  · rcases hcases id₂ order₂ h₂ with ⟨hid₂, -⟩ | ⟨hne₂, h₂⟩
    · rw [hid₁, hid₂]
    · exact absurd hcode.symm (hbeside id₂ order₂ hne₂ h₂ hactive₂ hactive₁)
  · rcases hcases id₂ order₂ h₂ with ⟨-, rfl⟩ | ⟨-, h₂⟩
    · exact absurd hcode (hbeside id₁ order₁ hne₁ h₁ hactive₁ hactive₂)
    · exact hl id₁ id₂ order₁ order₂ h₁ h₂ hactive₁ hactive₂ hcode

theorem Ledger.oneActiveBuy_set_iff {id : Nat} {order' : ManagedOrder}
    (hget : l.managedOrders.get? id = some order) (hterms : SameTerms order order')
    (hl : l.OneActiveBuy) :
    { l with managedOrders := l.managedOrders.set id order' }.OneActiveBuy ↔
      (order.status.active = false → order'.status.active = true → order.hasSide .buy = true →
        ∀ id' other, l.managedOrders.get? id' = some other → other.activeBuy = true →
          codeColumn other.code ≠ codeColumn order.code) := by
  have hside : order'.hasSide .buy = order.hasSide .buy := hterms.hasSide .buy
  constructor
  · intro h hover hactive hbuy id' other hget' hother hcode
    have hne : id' ≠ id := by
      rintro rfl
      rw [hget] at hget'
      injection hget' with heq
      rw [← heq] at hother
      exact absurd (of_decide_eq_true hother).2 (by rw [hover]; decide)
    refine hne (h id' id other order' ?_ (get?_set_self _ _ _) hother ?_ ?_)
    · exact (get?_set_ne _ _ hne).trans hget'
    · exact decide_eq_true ⟨hside.trans hbuy, hactive⟩
    · rw [hcode, hterms.code]
  · intro h
    refine hl.set ?_
    intro id' other hne hget' hother horder hcode
    obtain ⟨hbuy, hactive⟩ := of_decide_eq_true horder
    rw [hside] at hbuy
    rw [hterms.code] at hcode
    cases hover : order.status.active with
    | false => exact h hover hactive hbuy id' other hget' hother hcode
    | true => exact hne (hl id' id other order hget' hget hother
        (decide_eq_true ⟨hbuy, hover⟩) hcode)

theorem ManagedOrder.acked_active_iff {ack : OrderPayload} (hover : order.status.active = false) :
    (order.acked ack).status.active = true ↔
      ack.ackedStatus = ackedByGateway ∧ order.status ∉ [filled, cancelled] := by
  show (order.statusAfterAck ack).active = true ↔ _
  unfold statusAfterAck
  rcases ack.ackedStatus_cases with h | h | h | h
  all_goals
    rw [h]
    cases hs : order.status <;> rw [hs] at hover <;> revert hover <;> decide

theorem ManagedOrder.executed_active_iff {execution : BrokerExecutionEvent} :
    (order.executed execution).status.active = true ↔ 0 < order.remainingAfter execution := by
  show (order.statusAfterFill execution).active = true ↔ _
  unfold statusAfterFill
  split
  · rename_i h
    exact iff_of_false (by decide) (by omega)
  · rename_i h
    exact iff_of_true (by decide) (by omega)

theorem Ledger.oneActiveBuy_afterEvent_iff (hl : l.OneActiveBuy) (canonicalType : CanonicalType)
    (payload : OrderPayload) :
    (l.afterEvent canonicalType payload).OneActiveBuy ↔
      ∀ id order, l.Revives canonicalType payload id order → order.hasSide .buy = true →
        ∀ id' other, l.managedOrders.get? id' = some other → other.activeBuy = true →
          codeColumn other.code ≠ codeColumn order.code := by
  unfold afterEvent Revives
  cases hack : ackPayload canonicalType payload with
  | some ack =>
    simp only
    cases hfound : l.ackedOrder ack with
    | none => exact iff_of_true hl fun _ _ h => absurd h.2.1 (by simp)
    | some found =>
      refine (oneActiveBuy_set_iff (ackedOrder_spec hfound) (found.2.acked_sameTerms ack)
        hl).trans ?_
      constructor
      · rintro h id order ⟨hover, heq, haccepts⟩ hbuy
        injection heq with heq
        rw [heq] at h
        exact h hover ((ManagedOrder.acked_active_iff hover).mpr haccepts) hbuy
      · intro h hover hactive hbuy
        exact h found.1 found.2 ⟨hover, rfl, (ManagedOrder.acked_active_iff hover).mp hactive⟩ hbuy
  | none =>
    simp only
    by_cases hfill : canonicalType ∈ fillTypes
    · rw [if_pos hfill]
      cases hfound : l.findExecutionOrder (.fromDict payload) with
      | none => exact iff_of_true hl fun _ _ h => absurd h.2.2.1 (by simp)
      | some found =>
        refine Iff.trans (oneActiveBuy_set_iff (l.findExecutionOrder_spec hfound)
          (found.2.executed_sameTerms (.fromDict payload)) hl) ?_
        constructor
        · rintro h id order ⟨hover, -, heq, hopen⟩ hbuy
          injection heq with heq
          rw [heq] at h
          exact h hover (ManagedOrder.executed_active_iff.mpr hopen) hbuy
        · intro h hover hactive hbuy
          exact h found.1 found.2
            ⟨hover, hfill, rfl, ManagedOrder.executed_active_iff.mp hactive⟩ hbuy
    · rw [if_neg hfill]
      exact iff_of_true hl fun _ _ h => absurd h.2.1 hfill

theorem Restates.oneActiveBuy {l' : Ledger} (h : Restates l l') (hl : l.OneActiveBuy) :
    l'.OneActiveBuy := by
  induction h with
  | refl l => exact hl
  | step id order status commandId hget hwaits hstatus hrest ih =>
    refine ih ((Ledger.oneActiveBuy_set_iff hget (order.restated_sameTerms _ _) hl).mpr ?_)
    intro hover
    rw [ManagedOrderStatus.active_of_waiting hwaits] at hover
    cases hover

namespace OrderManagerRuntimePipeline

variable {config : OrderManagerSettings} {digest : GatewayCommand → String}
  {p : OrderManagerRuntimePipeline}

theorem oneActiveBuy_new {l : Ledger} (id : Nat) {order : ManagedOrder} (hl : l.OneActiveBuy)
    (hfree : order.hasSide .buy = true → l.hasPendingOrder order.code = false) :
    { l with managedOrders := l.managedOrders.set id order }.OneActiveBuy := by
  refine hl.set ?_
  intro id' other _ hget' hother horder hcode
  have hnone := hfree (of_decide_eq_true horder).1
  unfold Ledger.hasPendingOrder at hnone
  have hnot := any_eq_false.mp hnone other (mem_values_iff.mpr ⟨id', hget'⟩)
  exact hnot (decide_eq_true ⟨hcode, (of_decide_eq_true hother).2⟩)

theorem oneActiveBuy_processIntent (hp : p.db.OneActiveBuy) (cycle : Cycle)
    (killSwitchState : KillSwitchState) (intent : ManagedOrderIntent) :
    (p.processIntent config digest cycle killSwitchState intent).1.db.OneActiveBuy := by
  have hspec := processIntent_spec config digest p cycle killSwitchState intent
  generalize p.processIntent config digest cycle killSwitchState intent = result at hspec ⊢
  have hfree : ∀ (happroved : (p.riskDecision config cycle killSwitchState intent).approved = true),
      (intent.localOrder cycle (approved_quantity happroved).1).hasSide .buy = true →
        p.db.hasPendingOrder intent.code = false := by
    intro happroved hbuy
    exact (approved_buyLimits happroved ((hasSide_localOrder _ _ _).mp hbuy)).2.2.1
  cases hspec with
  | known _ => exact hp
  | stopped _ => exact hp
  | blocked _ happroved => exact oneActiveBuy_new _ hp (hfree happroved)
  | sent _ _ _ happroved _ _ => exact oneActiveBuy_new _ hp (hfree happroved)

theorem oneActiveBuy_act_iff (hp : p.db.OneActiveBuy) (action : Action) :
    (p.act config digest action).1.db.OneActiveBuy ↔ p.NoRival action := by
  cases action with
  | begin cycle =>
    exact iff_of_true ((begin_restates config digest p cycle).oneActiveBuy hp) trivial
  | cancelUnfilled cycle =>
    exact iff_of_true ((cancelUnfilled_restates config digest p cycle).2.2.oneActiveBuy hp) trivial
  | processIntent cycle killSwitchState intent =>
    exact iff_of_true (oneActiveBuy_processIntent hp cycle killSwitchState intent) trivial
  | markReconcileRequired reason payload today => exact iff_of_true hp trivial
  | gateway state => exact iff_of_true hp trivial
  | applyEvent canonicalType payload today =>
    rw [toLedger_applyEvent]
    exact Ledger.oneActiveBuy_afterEvent_iff hp canonicalType payload

/-! ## The counts -/

def Action.OwnDate : Action → Prop
  | .processIntent cycle _ intent => intent.tradeDate = cycle.tradeDate
  | _ => True

/-- A count over the terms of the orders grows by one for the order of an approved intent that
meets its condition, and by nothing else. -/
theorem count_act (config : OrderManagerSettings) (digest : GatewayCommand → String)
    (hp : p.WellKept) (q : ManagedOrder → Bool) (hq : ∀ a b, SameTerms a b → q b = q a)
    (action : Action) :
    (p.act config digest action).1.db.count q = p.db.count q ∨
      ∃ cycle killSwitchState intent, action = .processIntent cycle killSwitchState intent ∧
        ∃ h : (p.riskDecision config cycle killSwitchState intent).approved = true,
          q (intent.localOrder cycle (approved_quantity h).1) = true ∧
          (p.act config digest action).1.db.count q = p.db.count q + 1 := by
  have hshare : ∀ a b, SameTerms a b →
      (if q b then 1 else 0 : Int) = if q a then 1 else 0 := by
    intro a b h
    rw [hq a b h]
  rcases total_act config digest hp (fun order => if q order then 1 else 0) hshare action with
    heq | ⟨cycle, killSwitchState, intent, rfl, happroved, heq⟩
  · exact .inl heq
  · cases hmeets : q (intent.localOrder cycle (approved_quantity happroved).1) with
    | false =>
      rw [hmeets] at heq
      exact .inl (heq.trans (Int.add_zero _))
    | true =>
      rw [hmeets] at heq
      exact .inr ⟨cycle, killSwitchState, intent, rfl, happroved, hmeets, heq⟩

theorem localOrder_tradeDate {cycle : Cycle} {killSwitchState : KillSwitchState}
    {intent : ManagedOrderIntent} (h : 0 < intent.quantity)
    (hown : (Action.processIntent cycle killSwitchState intent).OwnDate) :
    (intent.localOrder cycle h).tradeDate = intent.tradeDate := by
  have hdate : intent.tradeDate = cycle.tradeDate := hown
  show orText intent.tradeDate cycle.tradeDate = _
  unfold orText
  split
  · exact hdate.symm
  · rfl

theorem daily_act (hp : p.WellKept) {date : String}
    (h : p.db.buysOf date ≤ max 0 config.maxDailyBuyOrders) {action : Action}
    (hown : action.OwnDate) :
    (p.act config digest action).1.db.buysOf date ≤ max 0 config.maxDailyBuyOrders := by
  rcases count_act config digest hp (fun order => order.tradeDate = date ∧ order.hasSide .buy)
      (fun a b hab => by rw [hab.tradeDate, hab.hasSide]) action with
    heq | ⟨cycle, killSwitchState, intent, rfl, happroved, hmeets, heq⟩
  · exact heq.trans_le h
  · obtain ⟨hdate, hbuy⟩ := of_decide_eq_true hmeets
    rw [localOrder_tradeDate _ hown] at hdate
    have hlimit := (approved_buyLimits happroved ((hasSide_localOrder _ _ _).mp hbuy)).1
    have hcovers := p.db.buysOf_le_todayOrderCount intent.tradeDate
    rw [hdate] at hlimit hcovers
    have hgrown : (p.act config digest (.processIntent cycle killSwitchState intent)).1.db.buysOf
        date = p.db.buysOf date + 1 := heq
    omega

theorem ordersOf_le_act (config : OrderManagerSettings) (digest : GatewayCommand → String)
    (hp : p.WellKept) (date : String) (action : Action) :
    p.db.ordersOf date ≤ (p.act config digest action).1.db.ordersOf date := by
  rcases count_act config digest hp (fun order => order.tradeDate = date)
      (fun a b hab => by rw [hab.tradeDate]) action with heq | ⟨_, _, _, _, _, _, heq⟩
  · exact heq.ge
  · have hgrown : (p.act config digest action).1.db.ordersOf date = p.db.ordersOf date + 1 := heq
    omega

theorem perCode_act (hp : p.WellKept) {date code : String} (hne : date ≠ "")
    (h : p.db.ordersOf date < 500 →
      p.db.buysOfCode date code ≤ max 0 config.maxDailyOrdersPerCode) {action : Action}
    (hown : action.OwnDate) (hfew : (p.act config digest action).1.db.ordersOf date < 500) :
    (p.act config digest action).1.db.buysOfCode date code ≤
      max 0 config.maxDailyOrdersPerCode := by
  have hfew' : p.db.ordersOf date < 500 := by
    have hle := ordersOf_le_act config digest hp date action
    omega
  have hbefore := h hfew'
  rcases count_act config digest hp
      (fun order => order.tradeDate = date ∧ order.hasSide .buy ∧
        codeColumn order.code = codeColumn code)
      (fun a b hab => by rw [hab.tradeDate, hab.hasSide, hab.code]) action with
    heq | ⟨cycle, killSwitchState, intent, rfl, happroved, hmeets, heq⟩
  · exact heq.trans_le hbefore
  · obtain ⟨hdate, hbuy, hcode⟩ := of_decide_eq_true hmeets
    rw [localOrder_tradeDate _ hown] at hdate
    have hlimit := (approved_buyLimits happroved ((hasSide_localOrder _ _ _).mp hbuy)).2.1
    have hcovers := Ledger.buysOfCode_le_dailyCodeOrderCount hne intent.code hfew'
    have hsame : p.db.buysOfCode date intent.code = p.db.buysOfCode date code := by
      have hcolumn : codeColumn intent.code = codeColumn code := hcode
      unfold Ledger.buysOfCode
      rw [hcolumn]
    rw [hdate] at hlimit
    have hgrown : (p.act config digest (.processIntent cycle killSwitchState intent)).1.db.buysOfCode
        date code = p.db.buysOfCode date code + 1 := heq
    omega

/-! ## Histories -/

theorem ownDate_actions (calls : List Call) :
    ∀ action ∈ actions config digest p calls, action.OwnDate := by
  induction calls generalizing p with
  | nil => exact fun action hmem => absurd hmem not_mem_nil
  | cons call calls ih =>
    intro action hmem
    rcases mem_append.mp hmem with hmem | hmem
    · cases call with
      | run cycle =>
        rcases mem_runActions hmem with rfl | rfl | ⟨intent, hdate, rfl⟩
        · trivial
        · trivial
        · exact hdate
      | applyEvent canonicalType payload today =>
        rw [mem_singleton.mp hmem]
        trivial
      | markReconcileRequired reason payload today =>
        rw [mem_singleton.mp hmem]
        trivial
      | gateway state =>
        rw [mem_singleton.mp hmem]
        trivial
    · exact ih action hmem

/-- In every history of the pipeline the purchases stay within the budget iff no event revives
a purchase while another purchase of its code is active. -/
theorem budget_kept_iff_noRival (config : OrderManagerSettings)
    (digest : GatewayCommand → String) (calls : List Call) :
    (machine config digest).Always (fun p => p.db.WithinBudget config) {}
        (actions config digest {} calls) ↔
      (machine config digest).Guarded NoRival {} (actions config digest {} calls) := by
  refine Machine.always_iff_guarded_of_mem (I := WellKept) ?_ ?_ wellKept_empty ?_
    (ownDate_actions calls)
  · intro p action hp _ _ _
    exact hp.act action
  · intro p action hp hown hbudget
    refine Iff.trans ⟨fun h => h.oneActive, fun h => ?_⟩ (oneActiveBuy_act_iff hbudget.oneActive action)
    exact
      { daily := fun date => daily_act hp (hbudget.daily date) hown
        perCode := fun date hne hfew code =>
          perCode_act hp hne (fun hfew' => hbudget.perCode date hne hfew' code) hown hfew
        oneActive := h
        oneOrder := fun _ _ _ _ hget hget' hkey => (hp.act action).distinct hget hget' hkey }
  · exact
      { daily := fun _ => Int.le_max_left _ _
        perCode := fun _ _ _ _ => Int.le_max_left _ _
        oneActive := fun _ _ _ _ hget => nomatch hget
        oneOrder := fun _ _ _ _ hget => nomatch hget }

/-- A purchase is rejected, the code is bought again, and a late acceptance of the first purchase
makes it active beside the second. -/
theorem late_acceptance_revives :
    ¬ ∀ (config : OrderManagerSettings) (digest : GatewayCommand → String) (calls : List Call),
      (machine config digest).Always (fun p => p.db.WithinBudget config) {}
        (actions config digest {} calls) := by
  intro h
  have hrun := Machine.always_iff_prefix.mp
    (h { sendingSettings with maxDailyOrdersPerCode := 2 } (fun _ => "")
      [.run readyCycle,
        .applyEvent .commandFailed { commandId := "buy:2026-06-18::200001:7:1000" } "2026-06-18",
        .run addOnCycle,
        .applyEvent .orderAccepted
          { commandId := "buy:2026-06-18::200001:7:1000", orderNo := "A0001" } "2026-06-18"])
    _ (prefix_refl _)
  exact absurd (hrun.oneActive 1 2 _ _ rfl rfl (by decide +kernel) (by decide +kernel) rfl)
    (by decide)

end OrderManagerRuntimePipeline

end TradingCore.Orders
