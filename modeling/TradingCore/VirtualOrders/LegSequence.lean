import Mathlib.Algebra.Order.BigOperators.Group.List
import TradingCore.VirtualOrders.LegInvariant

/-!
# The legs of a plan, one after the other

The legs of a plan are meant to be submitted one at a time, in the order of their numbers, each
once, and one that requires the leg before it only when that one is filled. The filter that finds
a plan's orders lets every order of the candidate pass where the plan has no id. It finds the
orders of such a plan and no others only as long as the candidate has no other plan.

* `InSequence.sequenced` — what the invariant says of the plan's orders;
* `legs_in_sequence` — a plan whose filter lets no other plan's orders pass is worked off in
  sequence;
* `orders_settle_once` — each order is settled by one call at most.
-/

namespace TradingCore.VirtualOrders

open Base Candidates Candles Prices List VirtualOrderService

structure Sequenced (s : VirtualOrderService) (plan : EntryPlan) : Prop where
  /-- At most one order of the plan is submitted. -/
  oneSubmitted : ((s.liveOrders plan).filter (·.status = .submitted)).length ≤ 1
  /-- Its legs were submitted by ascending numbers, none twice. -/
  ascending : ((s.keptOf plan).map (·.order.leg)).Pairwise (· < ·)
  /-- Where no leg has a negative weight, the filled ones weigh no more than all. -/
  weights : (∀ leg ∈ plan.splitPlan, 0 ≤ leg.weight) →
    (((s.liveOrders plan).filter (·.status = .filled)).map (·.weightPct)).sum ≤
      (plan.splitPlan.map (·.weight)).sum

/-- The filter of the plan lets no other plan's orders pass. -/
def Alone (plan : EntryPlan) (calls : List ServiceCall) : Prop :=
  ∀ other now save, ServiceCall.submit other now save ∈ calls → Admits plan other → other = plan

/-- A service that has not submitted an order yet, and no order of the plan in its database. -/
structure Fresh (s : VirtualOrderService) (plan : EntryPlan) : Prop where
  kept : s.submittedOrders = []
  rows : ∀ order ∈ s.rows, ¬ OfPlan plan order

section Sequence

variable {s : VirtualOrderService} {plan : EntryPlan}

/-! ## What the invariant says -/

theorem sum_weightPct_le {legs : List SplitLeg} {orders : List VirtualOrder}
    (hnonneg : ∀ leg ∈ legs, 0 ≤ leg.weight) (hnodup : (orders.map (·.leg)).Nodup)
    (hlegs : ∀ order ∈ orders, ∃ leg ∈ legs, leg.index = order.leg ∧ leg.weight = order.weightPct) :
    (orders.map (·.weightPct)).sum ≤ (legs.map (·.weight)).sum := by
  induction orders generalizing legs with
  | nil =>
    refine sum_nonneg ?_
    intro weight hmem
    obtain ⟨leg, hleg, rfl⟩ := mem_map.mp hmem
    exact hnonneg leg hleg
  | cons order rest ih =>
    obtain ⟨hnew, hrest⟩ := nodup_cons.mp hnodup
    obtain ⟨leg, hleg, hindex, hweight⟩ := hlegs order mem_cons_self
    have hsum : (legs.map (·.weight)).sum =
        leg.weight + ((legs.erase leg).map (·.weight)).sum := by
      rw [((perm_cons_erase hleg).map _).sum_eq, map_cons, sum_cons]
    have hle : (rest.map (·.weightPct)).sum ≤ ((legs.erase leg).map (·.weight)).sum := by
      refine ih ?_ hrest ?_
      · intro other hother
        exact hnonneg other (mem_of_mem_erase hother)
      · intro other hother
        obtain ⟨leg', hleg', hindex', hweight'⟩ := hlegs other (mem_cons_of_mem _ hother)
        refine ⟨leg', (mem_erase_of_ne ?_).mpr hleg', hindex', hweight'⟩
        rintro rfl
        exact hnew (mem_map.mpr ⟨other, hother, hindex'.symm.trans hindex⟩)
    rw [map_cons, sum_cons, hsum, hweight]
    linarith

theorem InSequence.nodup_liveOrders (h : InSequence s plan) :
    ((s.liveOrders plan).map (·.leg)).Nodup := by
  unfold liveOrders
  rw [map_append, map_map]
  refine nodup_append.mpr ⟨?_, ?_, ?_⟩
  · exact h.ascending.nodup.sublist (filter_sublist.map _)
  · -- the plan has one row at most
    have hrows : s.rows.Pairwise fun a b => ¬ (Owns plan a ∧ Owns plan b) := by
      rw [pairwise_iff_getElem]
      intro i j hi hj hlt howns
      have := h.row_eq (getElem?_eq_getElem hi) (getElem?_eq_getElem hj) howns.1 howns.2
      omega
    refine pairwise_map.mpr ((hrows.filter _).imp_of_mem ?_)
    intro a b ha hb hnot
    exact absurd ⟨of_decide_eq_true (mem_filter.mp ha).2,
      of_decide_eq_true (mem_filter.mp hb).2⟩ hnot
  · intro leg hleg leg' hleg' heq
    obtain ⟨kept, hmem, rfl⟩ := mem_map.mp hleg
    obtain ⟨hkept, hrow⟩ := mem_filter.mp hmem
    obtain ⟨order, horder, rfl⟩ := mem_map.mp hleg'
    obtain ⟨hstored, howns⟩ := mem_filter.mp horder
    obtain ⟨i, hi⟩ := mem_iff_getElem?.mp hstored
    obtain ⟨saved, hsaved, hsame, hleg, -⟩ := h.rows i order hi (of_decide_eq_true howns)
    have hunsaved : kept.row = none := of_decide_eq_true hrow
    rw [h.kept_eq hkept hsaved (heq.trans hleg.symm), hsame] at hunsaved
    cases hunsaved

theorem InSequence.kept_of_live (h : InSequence s plan) {order : VirtualOrder}
    (hlive : order ∈ s.liveOrders plan) :
    ∃ kept ∈ s.keptOf plan, kept.order.leg = order.leg ∧ kept.order.weightPct = order.weightPct ∧
      (order.status = .submitted → kept.order.status = .submitted) := by
  rcases mem_liveOrders.mp hlive with ⟨kept, hkept, -, rfl⟩ | ⟨hrow, howns⟩
  · exact ⟨kept, hkept, rfl, rfl, id⟩
  · obtain ⟨i, hi⟩ := mem_iff_getElem?.mp hrow
    obtain ⟨kept, hkept, hsaved, hleg, hweight⟩ := h.rows i order hi howns
    exact ⟨kept, hkept, hleg, hweight, fun _ => h.saved kept hkept (by rw [hsaved]; nofun)⟩

theorem InSequence.sequenced (h : InSequence s plan) : Sequenced s plan := by
  refine ⟨?_, h.ascending, ?_⟩
  · have hsub : (((s.liveOrders plan).filter (·.status = .submitted)).map (·.leg)).Sublist
        ((s.liveOrders plan).map (·.leg)) := filter_sublist.map _
    have hnodup := h.nodup_liveOrders.sublist hsub
    have hsame : ∀ a ∈ (s.liveOrders plan).filter (·.status = .submitted),
        ∀ b ∈ (s.liveOrders plan).filter (·.status = .submitted), a.leg ≤ b.leg := by
      intro a ha b hb
      obtain ⟨halive, -⟩ := mem_filter.mp ha
      obtain ⟨hblive, hstatus⟩ := mem_filter.mp hb
      obtain ⟨kept, hkept, hleg, -⟩ := h.kept_of_live halive
      obtain ⟨kept', hkept', hleg', -, hsubmitted⟩ := h.kept_of_live hblive
      rw [← hleg, ← hleg']
      exact h.newest kept' hkept' (hsubmitted (of_decide_eq_true hstatus)) kept hkept
    generalize (s.liveOrders plan).filter (·.status = .submitted) = submitted at hnodup hsame
    match submitted with
    | [] => exact Nat.zero_le 1
    | [_] => exact le_refl 1
    | a :: b :: rest =>
      have hle := hsame a (by simp) b (by simp)
      have hge := hsame b (by simp) a (by simp)
      have hne := (nodup_cons.mp hnodup).1
      refine absurd ?_ hne
      exact mem_map.mpr ⟨b, mem_cons_self, le_antisymm hge hle⟩
  · intro hnonneg
    refine sum_weightPct_le hnonneg (h.nodup_liveOrders.sublist (filter_sublist.map _)) ?_
    intro order hmem
    obtain ⟨kept, hkept, hleg, hweight, -⟩ := h.kept_of_live (mem_filter.mp hmem).1
    obtain ⟨leg, hmem', hindex, hsame⟩ := h.legs kept hkept
    exact ⟨leg, hmem', hindex.trans hleg, hsame.trans hweight⟩

theorem Fresh.inSequence (h : Fresh s plan) : InSequence s plan := by
  have hkept : s.keptOf plan = [] := by
    unfold keptOf
    rw [h.kept]
    rfl
  refine ⟨⟨?_, fun order hmem hof => absurd hof (h.rows order hmem)⟩, ?_, ?_, ?_, ?_, ?_, ?_⟩
  · intro kept hmem
    rw [h.kept] at hmem
    exact absurd hmem not_mem_nil
  · rw [hkept]
    exact .nil
  · intro kept hmem
    rw [hkept] at hmem
    exact absurd hmem not_mem_nil
  · intro kept hmem
    rw [hkept] at hmem
    exact absurd hmem not_mem_nil
  · intro i order horder howns
    exact absurd ⟨howns.1, .inr howns.2⟩ (h.rows order (mem_of_getElem? horder))
  · intro kept hmem
    rw [hkept] at hmem
    exact absurd hmem not_mem_nil
  · rintro leg - ⟨kept, hmem, -⟩
    rw [hkept] at hmem
    exact absurd hmem not_mem_nil

end Sequence

/-! ## Runs -/

theorem inSequence_run (provider : TickSizeProvider) {start : VirtualOrderService}
    {plan : EntryPlan} {calls : List ServiceCall} (hfresh : Fresh start plan)
    (halone : Alone plan calls) :
    ∀ past, past <+: calls → InSequence ((virtualOrderService provider).run start past) plan := by
  refine prefix_induction hfresh.inSequence ?_
  intro past call hpre h
  rw [Machine.run_concat]
  cases call with
  | submit other now save =>
    refine h.submit (halone other now save ?_) now save
    exact hpre.subset (mem_append_right _ (mem_singleton.mpr rfl))
  | evaluate place other candleBuilder now =>
    exact h.workOn (works_evaluateFill provider other candleBuilder now) place
  | cancel place reason now => exact h.workOn (works_cancelVirtualOrder reason now) place

/-- In every run in which the plan's filter lets no other plan's orders pass, the plan is worked
off in sequence throughout, and each of its submissions picks the right leg. -/
theorem legs_in_sequence (provider : TickSizeProvider) (start : VirtualOrderService)
    (plan : EntryPlan) (calls : List ServiceCall) (hfresh : Fresh start plan)
    (halone : Alone plan calls) :
    (∀ past, past <+: calls → Sequenced ((virtualOrderService provider).run start past) plan) ∧
      ∀ past now save, past ++ [.submit plan now save] <+: calls → ∀ order,
        (((virtualOrderService provider).run start past).submitVirtualOrder plan now).2 =
            { order := some order, submitted := true, duplicate := false, rejectedReason := "" } →
          ∃ leg, RightLeg ((virtualOrderService provider).run start past) plan order leg := by
  refine ⟨fun past hpre => (inSequence_run provider hfresh halone past hpre).sequenced, ?_⟩
  intro past now save hpre order hresult
  have h := inSequence_run provider hfresh halone past ((prefix_append past _).trans hpre)
  rcases submitVirtualOrder_cases ((virtualOrderService provider).run start past) plan now with
    ⟨hrejected, -⟩ | ⟨leg, hfind, hnext, hsubmit⟩
  · rw [hresult] at hrejected
    cases hrejected
  · rw [hsubmit] at hresult
    have horder := Option.some.inj (congrArg (·.order) hresult)
    exact ⟨leg, horder ▸ h.rightLeg now hfind hnext⟩

/-! ## Fixed runs -/

def oneCandle : CandleBuilder :=
  { CandleBuilder.new with
    completed := Dict.empty.set ("111111", 1) [⟨⟨36060, 1, 1, 1, 1, 1⟩, "111111", 1⟩] }

def twoLegs (id : Option Int) (weight : Rat) : EntryPlan where
  id := id
  candidateId := some 1
  entryType := "pullback_limit"
  limitPrice := 10000
  splitPlan := [⟨some 1, some 10000, some 50, none, none⟩,
    ⟨some 2, some 9800, some weight, none, some true⟩]
  orderTimeoutSec := 120
  cancelCondition := ⟨"111111", some "robot", none, ""⟩
  fillPolicy := .normal

def fillThenSubmit (first second : EntryPlan) : List ServiceCall :=
  [.submit first 36000 false, .evaluate (.kept 0) first oneCandle 36130, .submit second 36140 false]

def emptyService : VirtualOrderService := ⟨[], [], []⟩

def afterBoth (first second : EntryPlan) : VirtualOrderService :=
  (virtualOrderService .standard).run emptyService (fillThenSubmit first second)

theorem two_legs_in_sequence :
    Sequenced (afterBoth (twoLegs (some 5) 30) (twoLegs (some 5) 30)) (twoLegs (some 5) 30) := by
  refine (legs_in_sequence .standard emptyService (twoLegs (some 5) 30)
    (fillThenSubmit (twoLegs (some 5) 30) (twoLegs (some 5) 30)) ⟨rfl, ?_⟩ ?_).1 _ (prefix_refl _)
  · intro order hmem
    exact absurd hmem not_mem_nil
  · intro other now save hmem _
    simp only [fillThenSubmit, mem_cons, not_mem_nil, ServiceCall.submit.injEq,
      reduceCtorEq, or_false, false_or] at hmem
    rcases hmem with ⟨rfl, -⟩ | ⟨rfl, -⟩ <;> rfl

/-- A plan without an id takes the filled leg of another plan for its own, and submits the leg that
requires it. With a negative weight, the filled legs weigh more than all. -/
theorem unsaved_plan_and_negative_weight :
    ((afterBoth (twoLegs (some 5) 30) (twoLegs none 30)).liveOrders (twoLegs none 30)).map
          (fun order => (order.leg, order.status)) = [(2, .submitted)] ∧
      (twoLegs none 30).splitPlan.map (fun leg => (leg.index, leg.requiresPreviousLeg)) =
          [(1, none), (2, some true)] ∧
      ¬ ((((afterBoth (twoLegs (some 5) (-20)) (twoLegs (some 5) (-20))).liveOrders
            (twoLegs (some 5) (-20))).filter (·.status = .filled)).map (·.weightPct)).sum ≤
          ((twoLegs (some 5) (-20)).splitPlan.map (·.weight)).sum := by
  decide +kernel

/-! ## Each order settles once -/

/-- The order that a caller works on at a place. -/
inductive Holds (s : VirtualOrderService) : Place → VirtualOrder → Prop
  | kept {i : Nat} {order : VirtualOrder} :
      s.submittedOrders[i]? = some ⟨order, none⟩ → Holds s (.kept i) order
  | row {i : Nat} {order : VirtualOrder} : s.rows[i]? = some order → Holds s (.row i) order

/-- How a call settles the submitted order of a place. -/
inductive Settles (provider : TickSizeProvider) (place : Place) (order : VirtualOrder) :
    ServiceCall → VirtualOrder → Prop
  | filled (plan : EntryPlan) (candleBuilder : CandleBuilder) (now : Int) (candle : Candle) :
      candle ∈ candleBuilder.completedOf (normalizeCode plan.cancelCondition.code) 1 →
      Touches provider order plan candle →
      Settles provider place order (.evaluate place plan candleBuilder now)
        { order with
          status := .filled
          virtualFillPrice := order.limitPrice
          filledAt := some candle.startAt }
  | timedOut (plan : EntryPlan) (candleBuilder : CandleBuilder) (now : Int) :
      timeoutAt order plan ≤ now →
      (∀ candle ∈ candleBuilder.completedOf (normalizeCode plan.cancelCondition.code) 1,
        ¬ Touches provider order plan candle) →
      Settles provider place order (.evaluate place plan candleBuilder now)
        { order with status := .unfilled, unfilledReason := "TIMEOUT" }
  | cancelled (reason : String) (now : Int) :
      Settles provider place order (.cancel place reason now)
        { order with status := .cancelled, cancelledAt := some now, unfilledReason := reason }

/-- After some calls an order is as it was, or as the one that settled it left it. -/
def Outcome (provider : TickSizeProvider) (calls : List ServiceCall) (place : Place)
    (order order' : VirtualOrder) : Prop :=
  order' = order ∨ order.status = .submitted ∧
    ∃ call ∈ calls, Settles provider place order call order'

def SettlesOnce (provider : TickSizeProvider) (s s' : VirtualOrderService)
    (calls : List ServiceCall) : Prop :=
  ∀ place order, Holds s place order →
    ∃ order', Holds s' place order' ∧ Outcome provider calls place order order'

section Settled

variable {provider : TickSizeProvider} {s s' : VirtualOrderService} {calls : List ServiceCall}

theorem Outcome.trans {place : Place} {order order' order'' : VirtualOrder}
    {call : ServiceCall} (h : Outcome provider [call] place order order')
    (h' : Outcome provider calls place order' order'') :
    Outcome provider (call :: calls) place order order'' := by
  rcases h with rfl | ⟨hsubmitted, _, hcall, hsettles⟩
  · rcases h' with rfl | ⟨hsubmitted, later, hcall, hsettles⟩
    · exact .inl rfl
    · exact .inr ⟨hsubmitted, later, mem_cons_of_mem _ hcall, hsettles⟩
  · rcases h' with rfl | ⟨hagain, -⟩
    · exact .inr ⟨hsubmitted, _, mem_singleton.mp hcall ▸ mem_cons_self, hsettles⟩
    · cases hsettles <;> cases hagain

theorem outcome_evaluateFill (place : Place) (order : VirtualOrder) (plan : EntryPlan)
    (candleBuilder : CandleBuilder) (now : Int) :
    Outcome provider [.evaluate place plan candleBuilder now] place order
      (evaluateFill provider order plan candleBuilder now).order := by
  unfold evaluateFill
  split
  · exact .inl rfl
  · split
    · exact .inl rfl
    · next hsubmitted =>
        refine Or.imp_right (And.intro (not_not.mp hsubmitted)) ?_
        dsimp only
        split
        · next candle hfind =>
            have htouches := find?_some hfind
            exact .inr ⟨_, mem_singleton_self _, .filled _ _ _ candle
              (mem_of_find?_eq_some hfind) (of_decide_eq_true htouches)⟩
        · next hfind =>
            split
            · next htimeout =>
                refine .inr ⟨_, mem_singleton_self _, .timedOut _ _ _ htimeout ?_⟩
                intro candle hmem htouches
                exact find?_eq_none.mp hfind candle hmem (decide_eq_true htouches)
            · exact .inl rfl

theorem outcome_cancelVirtualOrder (place : Place) (order : VirtualOrder) (reason : String)
    (now : Int) :
    Outcome provider [.cancel place reason now] place order
      (cancelVirtualOrder order reason now).order := by
  unfold cancelVirtualOrder
  split
  · exact .inl rfl
  · split
    · exact .inl rfl
    · next hsubmitted =>
        exact .inr ⟨not_not.mp hsubmitted, _, mem_singleton_self _, .cancelled reason now⟩

theorem settlesOnce_workOn {place : Place} {work : VirtualOrder → EvaluationResult}
    (hwork : ∀ order, Outcome provider calls place order (work order).order) :
    SettlesOnce provider s (s.workOn place work).1 calls := by
  intro other order hget
  by_cases hsame : other = place
  · subst hsame
    refine ⟨(work order).order, ?_, hwork order⟩
    cases hget with
    | kept hget =>
      refine .kept ?_
      simp only [workOn, hget]
      exact getElem?_set_self (List.getElem?_eq_some_iff.mp hget).1
    | row hget =>
      refine .row ?_
      simp only [workOn, hget]
      exact getElem?_set_self (List.getElem?_eq_some_iff.mp hget).1
  · refine ⟨order, ?_, .inl rfl⟩
    unfold workOn
    cases hget with
    | kept hget =>
      refine .kept ?_
      split
      · next i =>
          have hne : i ≠ _ := fun heq => hsame (congrArg Place.kept heq.symm)
          split
          · exact (getElem?_set_ne hne).trans hget
          · exact hget
      · split <;> exact hget
    | row hget =>
      refine .row ?_
      split
      · split <;> exact hget
      · next i =>
          have hne : i ≠ _ := fun heq => hsame (congrArg Place.row heq.symm)
          split
          · exact (getElem?_set_ne hne).trans hget
          · exact hget

theorem settlesOnce_submit (provider : TickSizeProvider) (s : VirtualOrderService)
    (plan : EntryPlan) (now : Int) (save : Bool) :
    SettlesOnce provider s
      ((virtualOrderService provider).next s (.submit plan now save)) calls := by
  intro place order hget
  refine ⟨order, ?_, .inl rfl⟩
  rcases submitVirtualOrder_cases s plan now with ⟨hrejected, hsame⟩ | ⟨leg, -, -, hsubmit⟩
  · simpa [virtualOrderService, Machine.next, hrejected, hsame] using hget
  · obtain ⟨row, hadds⟩ := adds_submitted s (orderOfLeg plan leg now) save
    simp only [virtualOrderService, Machine.next, hsubmit, true_and]
    cases hget with
    | kept hget =>
      refine .kept ?_
      rw [hadds.kept, getElem?_append_left (List.getElem?_eq_some_iff.mp hget).1, hget]
    | row hget => exact .row (hadds.rows _ _ hget)

end Settled

/-- In every run each order keeps its place, is settled by one call at most, and after that never
changes again: it is filled where a completed candle reaches it in its time, given up at its timeout
where none does, or cancelled. -/
theorem orders_settle_once (provider : TickSizeProvider) (start : VirtualOrderService)
    (calls : List ServiceCall) :
    SettlesOnce provider start ((virtualOrderService provider).run start calls) calls := by
  induction calls generalizing start with
  | nil => exact fun place order hget => ⟨order, hget, .inl rfl⟩
  | cons call rest ih =>
    have hstep : SettlesOnce provider start ((virtualOrderService provider).next start call)
        [call] := by
      cases call with
      | submit plan now save => exact settlesOnce_submit provider start plan now save
      | evaluate place plan builder now =>
        exact settlesOnce_workOn (outcome_evaluateFill place · plan builder now)
      | cancel place reason now =>
        exact settlesOnce_workOn (outcome_cancelVirtualOrder place · reason now)
    intro place order hget
    obtain ⟨order', hget', hout⟩ := hstep place order hget
    obtain ⟨order'', hget'', hout'⟩ := ih _ place order' hget'
    exact ⟨order'', hget'', hout.trans hout'⟩

end TradingCore.VirtualOrders
