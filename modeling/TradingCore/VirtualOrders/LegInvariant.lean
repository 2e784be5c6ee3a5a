import TradingCore.VirtualOrders.VirtualOrderService

/-!
# What the calls of the service do to a plan

A plan has its kept orders and, once one is saved, a row. The newest of its legs may be submitted;
the others are settled, and the legs that were passed over cannot be submitted any more. This is
the invariant of a plan whose filter lets no other plan's orders pass.

* `InSequence.rightLeg` — the leg that a submission picks;
* `InSequence.submit`, `InSequence.workOn` — what each call preserves.
-/

namespace TradingCore.VirtualOrders

open Base Candles Prices VirtualOrderService List

def Owns (plan : EntryPlan) (order : VirtualOrder) : Prop :=
  order.candidateId = plan.candidateId ∧ order.entryPlanId = plan.id
deriving Decidable

namespace VirtualOrderService

def keptOf (s : VirtualOrderService) (plan : EntryPlan) : List KeptOrder :=
  s.submittedOrders.filter fun kept => Owns plan kept.order

/-- The orders of a plan as they are now: the rows, and the kept orders that were not saved. -/
def liveOrders (s : VirtualOrderService) (plan : EntryPlan) : List VirtualOrder :=
  ((s.keptOf plan).filter (·.row = none)).map (·.order) ++ s.rows.filter (Owns plan ·)

end VirtualOrderService

structure RightLeg (s : VirtualOrderService) (plan : EntryPlan) (order : VirtualOrder) (leg : SplitLeg) :
    Prop where
  mem : leg ∈ plan.splitPlan
  order_leg : order.leg = leg.index
  order_weight : order.weightPct = leg.weight
  /-- Of the legs that can be submitted it has the least number. -/
  submittable : Submittable (s.planOrders plan) leg
  least : ∀ other ∈ plan.splitPlan, Submittable (s.planOrders plan) other → leg.index ≤ other.index
  /-- No other order of the plan is submitted. -/
  idle : ∀ other ∈ s.liveOrders plan, other.status ≠ .submitted
  /-- A leg that it requires is filled. -/
  previous : leg.requiresPreviousLeg.getD false = true →
    ∃ other ∈ s.liveOrders plan, other.status = .filled ∧ other.leg = leg.index - 1

def Admits (plan other : EntryPlan) : Prop :=
  other.candidateId = plan.candidateId ∧ (plan.id = none ∨ other.id = plan.id)

/-! ## The plan's orders -/

namespace VirtualOrderService

theorem mem_foldl_unless_mem {α : Type} [DecidableEq α] (p : α → Prop) [DecidablePred p]
    (items found : List α) (a : α) :
    a ∈ items.foldl (fun found a => if p a ∧ a ∉ found then found ++ [a] else found) found ↔
      a ∈ found ∨ a ∈ items ∧ p a := by
  induction items generalizing found with
  | nil => simp
  | cons b rest ih =>
    rw [foldl_cons, ih, mem_cons]
    split
    · next hnew =>
        rw [mem_append, mem_singleton]
        constructor
        · rintro ((hfound | rfl) | hrest)
          · exact .inl hfound
          · exact .inr ⟨.inl rfl, hnew.1⟩
          · exact .inr ⟨.inr hrest.1, hrest.2⟩
        · rintro (hfound | ⟨rfl | hrest, hp⟩)
          · exact .inl (.inl hfound)
          · exact .inl (.inr rfl)
          · exact .inr ⟨hrest, hp⟩
    · next hold =>
        constructor
        · rintro (hfound | hrest)
          · exact .inl hfound
          · exact .inr ⟨.inr hrest.1, hrest.2⟩
        · rintro (hfound | ⟨rfl | hrest, hp⟩)
          · exact .inl hfound
          · exact .inl (not_not.mp fun hnew => hold ⟨hp, hnew⟩)
          · exact .inr ⟨hrest, hp⟩

theorem mem_planOrders (s : VirtualOrderService) (plan : EntryPlan) (order : VirtualOrder) :
    order ∈ s.planOrders plan ↔ OfPlan plan order ∧
      ((∃ kept ∈ s.submittedOrders, kept.order = order) ∨
        plan.candidateId ≠ none ∧ order ∈ s.rows) := by
  unfold planOrders
  rw [mem_foldl_unless_mem, mem_map]
  cases hcandidate : plan.candidateId with
  | none =>
    constructor
    · rintro (hmem | ⟨hkept, hof⟩)
      · exact absurd hmem not_mem_nil
      · exact ⟨hof, .inl hkept⟩
    · rintro ⟨hof, hkept | ⟨hsome, -⟩⟩
      · exact .inr ⟨hkept, hof⟩
      · exact absurd rfl hsome
  | some candidateId =>
    unfold listVirtualOrders OfPlan
    rw [mem_filter, mem_filter, decide_eq_true_iff, decide_eq_true_iff, hcandidate]
    constructor
    · rintro (⟨⟨hrow, hsame⟩, hid⟩ | ⟨hkept, hof⟩)
      · exact ⟨⟨hsame, hid⟩, .inr ⟨nofun, hrow⟩⟩
      · exact ⟨hof, .inl hkept⟩
    · rintro ⟨hof, hkept | ⟨-, hrow⟩⟩
      · exact .inr ⟨hkept, hof⟩
      · exact .inl ⟨⟨hrow, hof.1⟩, hof.2⟩

variable {s : VirtualOrderService}

theorem mem_keptOf {plan : EntryPlan} {kept : KeptOrder} :
    kept ∈ s.keptOf plan ↔ kept ∈ s.submittedOrders ∧ Owns plan kept.order := by
  unfold keptOf
  rw [mem_filter, decide_eq_true_iff]

theorem mem_liveOrders {plan : EntryPlan} {order : VirtualOrder} :
    order ∈ s.liveOrders plan ↔
      (∃ kept ∈ s.keptOf plan, kept.row = none ∧ kept.order = order) ∨
        order ∈ s.rows ∧ Owns plan order := by
  unfold liveOrders
  rw [mem_append, mem_map, mem_filter, decide_eq_true_iff]
  refine or_congr ?_ Iff.rfl
  constructor
  · rintro ⟨kept, hmem, hsame⟩
    obtain ⟨hkept, hrow⟩ := mem_filter.mp hmem
    exact ⟨kept, hkept, of_decide_eq_true hrow, hsame⟩
  · rintro ⟨kept, hkept, hrow, hsame⟩
    exact ⟨kept, mem_filter.mpr ⟨hkept, decide_eq_true hrow⟩, hsame⟩

end VirtualOrderService

/-- The filter of the plan lets no other plan's orders pass. -/
structure Sole (s : VirtualOrderService) (plan : EntryPlan) : Prop where
  kept_own : ∀ kept ∈ s.submittedOrders, OfPlan plan kept.order → Owns plan kept.order
  rows_own : ∀ order ∈ s.rows, OfPlan plan order → Owns plan order

/-- The plan is worked off in sequence, as its kept orders and its rows show it. -/
structure InSequence (s : VirtualOrderService) (plan : EntryPlan) : Prop extends Sole s plan where
  ascending : ((s.keptOf plan).map (·.order.leg)).Pairwise (· < ·)
  /-- A kept order that is still submitted is the newest. -/
  newest : ∀ kept ∈ s.keptOf plan, kept.order.status = .submitted →
    ∀ other ∈ s.keptOf plan, other.order.leg ≤ kept.order.leg
  /-- A saved order is kept as it was submitted. -/
  saved : ∀ kept ∈ s.keptOf plan, kept.row ≠ none → kept.order.status = .submitted
  rows : ∀ i order, s.rows[i]? = some order → Owns plan order →
    ∃ kept ∈ s.keptOf plan, kept.row = some i ∧ kept.order.leg = order.leg ∧
      kept.order.weightPct = order.weightPct
  legs : ∀ kept ∈ s.keptOf plan, ∃ leg ∈ plan.splitPlan, leg.index = kept.order.leg ∧
    leg.weight = kept.order.weightPct
  /-- A leg that was passed over cannot be submitted any more. -/
  passed : ∀ leg ∈ plan.splitPlan, (∃ kept ∈ s.keptOf plan, leg.index < kept.order.leg) →
    ¬ Submittable (s.planOrders plan) leg

section Sequence

variable {s : VirtualOrderService} {plan : EntryPlan}

variable {order : VirtualOrder} {work : VirtualOrder → EvaluationResult} {leg : SplitLeg}
  {s' : VirtualOrderService}

theorem Sole.mem_planOrders (h : Sole s plan) :
    order ∈ s.planOrders plan ↔
      (∃ kept ∈ s.keptOf plan, kept.order = order) ∨
        plan.candidateId ≠ none ∧ order ∈ s.rows ∧ Owns plan order := by
  rw [VirtualOrderService.mem_planOrders]
  constructor
  · rintro ⟨hof, ⟨kept, hmem, rfl⟩ | ⟨hsome, hmem⟩⟩
    · exact .inl ⟨kept, mem_keptOf.mpr ⟨hmem, h.kept_own kept hmem hof⟩, rfl⟩
    · exact .inr ⟨hsome, hmem, h.rows_own order hmem hof⟩
  · have hof : ∀ order, Owns plan order → OfPlan plan order :=
      fun order howns => ⟨howns.1, .inr howns.2⟩
    rintro (⟨kept, hmem, rfl⟩ | ⟨hsome, hmem, howns⟩)
    · obtain ⟨hkept, howns⟩ := mem_keptOf.mp hmem
      exact ⟨hof _ howns, .inl ⟨kept, hkept, rfl⟩⟩
    · exact ⟨hof _ howns, .inr ⟨hsome, hmem⟩⟩

theorem InSequence.kept_eq (h : InSequence s plan) {kept other : KeptOrder}
    (hkept : kept ∈ s.keptOf plan) (hother : other ∈ s.keptOf plan)
    (hleg : kept.order.leg = other.order.leg) : kept = other :=
  inj_on_of_nodup_map h.ascending.nodup hkept hother hleg

variable {i : Nat} {row : Option Nat}

theorem InSequence.row_eq (h : InSequence s plan) {j : Nat} {other : VirtualOrder}
    (horder : s.rows[i]? = some order) (hother : s.rows[j]? = some other) (howns : Owns plan order)
    (howns' : Owns plan other) : i = j := by
  obtain ⟨kept, hkept, hrow, -, -⟩ := h.rows i order horder howns
  obtain ⟨kept', hkept', hrow', -, -⟩ := h.rows j other hother howns'
  have hnew := h.saved kept hkept (by rw [hrow]; nofun)
  have hnew' := h.saved kept' hkept' (by rw [hrow']; nofun)
  have hle := h.newest kept hkept hnew kept' hkept'
  have hle' := h.newest kept' hkept' hnew' kept hkept
  rw [h.kept_eq hkept hkept' (by omega), hrow'] at hrow
  exact (Option.some.inj hrow).symm

/-! ## Working on an order -/

/-- What an evaluation or a cancellation does to an order: it stays that of its leg, and changes
only while it is submitted. -/
structure Works (work : VirtualOrder → EvaluationResult) : Prop where
  owns : ∀ plan order, Owns plan (work order).order ↔ Owns plan order
  ofPlan : ∀ plan order, OfPlan plan (work order).order ↔ OfPlan plan order
  leg : ∀ order, (work order).order.leg = order.leg
  weight : ∀ order, (work order).order.weightPct = order.weightPct
  settled : ∀ order, order.status ≠ .submitted → (work order).order = order

theorem works_of_fields (h : ∀ order, (work order).order = order ∨ order.status = .submitted ∧
      (work order).order.candidateId = order.candidateId ∧
      (work order).order.entryPlanId = order.entryPlanId ∧
      (work order).order.legIndex = order.legIndex ∧
      (work order).order.weightPct = order.weightPct) : Works work := by
  constructor
  · intro plan order
    rcases h order with hsame | ⟨-, hcandidate, hplan, -, -⟩
    · rw [hsame]
    · unfold Owns
      rw [hcandidate, hplan]
  · intro plan order
    rcases h order with hsame | ⟨-, hcandidate, hplan, -, -⟩
    · rw [hsame]
    · unfold OfPlan
      rw [hcandidate, hplan]
  · intro order
    rcases h order with hsame | ⟨-, -, -, hleg, -⟩
    · rw [hsame]
    · unfold VirtualOrder.leg
      rw [hleg]
  · intro order
    rcases h order with hsame | ⟨-, -, -, -, hweight⟩
    · rw [hsame]
    · exact hweight
  · intro order hsettled
    rcases h order with hsame | ⟨hsubmitted, -⟩
    · exact hsame
    · exact absurd hsubmitted hsettled

theorem works_evaluateFill (provider : TickSizeProvider) (plan : EntryPlan)
    (candleBuilder : CandleBuilder) (now : Int) :
    Works fun order => evaluateFill provider order plan candleBuilder now := by
  refine works_of_fields ?_
  intro order
  unfold evaluateFill
  split
  · exact .inl rfl
  · split
    · exact .inl rfl
    · next hsubmitted =>
        have hsubmitted := not_not.mp hsubmitted
        dsimp only
        split
        · exact .inr ⟨hsubmitted, rfl, rfl, rfl, rfl⟩
        · split
          · exact .inr ⟨hsubmitted, rfl, rfl, rfl, rfl⟩
          · exact .inl rfl

theorem works_cancelVirtualOrder (reason : String) (now : Int) :
    Works fun order => cancelVirtualOrder order reason now := by
  refine works_of_fields ?_
  intro order
  unfold cancelVirtualOrder
  split
  · exact .inl rfl
  · split
    · exact .inl rfl
    · next hsubmitted => exact .inr ⟨not_not.mp hsubmitted, rfl, rfl, rfl, rfl⟩

theorem submittable_of_worked {orders worked : List VirtualOrder}
    (hlegs : ∀ order ∈ orders, ∃ other ∈ worked, other.leg = order.leg)
    (hfilled : ∀ other ∈ worked, other.status = .filled →
      leg.index ≤ other.leg ∨ ∃ order ∈ orders, order.status = .filled ∧ order.leg = other.leg)
    (h : Submittable worked leg) :
    Submittable orders leg := by
  obtain ⟨hindex, hnew, hflag, hprice, hprevious⟩ := h
  refine ⟨hindex, ?_, hflag, hprice, ?_⟩
  · intro hmem
    obtain ⟨order, horder, hleg⟩ := mem_map.mp hmem
    obtain ⟨other, hother, hsame⟩ := hlegs order horder
    exact hnew (mem_map.mpr ⟨other, hother, hsame.trans hleg⟩)
  · intro hrequires
    obtain ⟨other, hmem, hleg⟩ := mem_map.mp (hprevious hrequires)
    obtain ⟨hother, hstatus⟩ := mem_filter.mp hmem
    rcases hfilled other hother (of_decide_eq_true hstatus) with hlater | ⟨order, horder, hold⟩
    · omega
    · exact mem_map.mpr ⟨order, mem_filter.mpr ⟨horder, decide_eq_true hold.1⟩, hold.2.trans hleg⟩

/-- Every order of the plan is that of a former one, and only a newest one was worked on. -/
structure Worked (s s' : VirtualOrderService) (plan : EntryPlan) : Prop extends Sole s' plan where
  legs : (s'.keptOf plan).map (·.order.leg) = (s.keptOf plan).map (·.order.leg)
  kept : ∀ kept ∈ s'.keptOf plan, ∃ old ∈ s.keptOf plan, old.order.leg = kept.order.leg ∧
    old.order.weightPct = kept.order.weightPct ∧ old.row = kept.row ∧
    (kept.order.status = .submitted → old.order.status = .submitted) ∧
    (kept.row ≠ none → kept.order = old.order)
  keptFrom : ∀ old ∈ s.keptOf plan, ∃ kept ∈ s'.keptOf plan, kept.order.leg = old.order.leg ∧
    kept.order.weightPct = old.order.weightPct ∧ kept.row = old.row
  rows : ∀ (i : Nat) (order : VirtualOrder), s'.rows[i]? = some order → Owns plan order →
    ∃ old, s.rows[i]? = some old ∧ Owns plan old ∧ old.leg = order.leg ∧
      old.weightPct = order.weightPct
  orders : ∀ old ∈ s.planOrders plan, ∃ order ∈ s'.planOrders plan, order.leg = old.leg
  filled : ∀ order ∈ s'.planOrders plan, order.status = .filled →
    (∃ newest ∈ s.keptOf plan, newest.order.status = .submitted ∧ newest.order.leg = order.leg) ∨
      ∃ old ∈ s.planOrders plan, old.status = .filled ∧ old.leg = order.leg

theorem InSequence.worked (h : InSequence s plan) (hworked : Worked s s' plan) :
    InSequence s' plan := by
  refine ⟨hworked.toSole, ?_, ?_, ?_, ?_, ?_, ?_⟩
  · rw [hworked.legs]
    exact h.ascending
  · intro kept hkept hsubmitted other hother
    obtain ⟨old, hold, hleg, -, -, hstatus, -⟩ := hworked.kept kept hkept
    obtain ⟨old', hold', hleg', -⟩ := hworked.kept other hother
    rw [← hleg, ← hleg']
    exact h.newest old hold (hstatus hsubmitted) old' hold'
  · intro kept hkept hrow
    obtain ⟨old, hold, -, -, hsame, -, horder⟩ := hworked.kept kept hkept
    rw [horder hrow]
    exact h.saved old hold (hsame ▸ hrow)
  · intro i order horder howns
    obtain ⟨old, hold, howns', hleg, hweight⟩ := hworked.rows i order horder howns
    obtain ⟨kept, hkept, hrow, hleg', hweight'⟩ := h.rows i old hold howns'
    obtain ⟨kept', hkept', hsame, hsame', hrow'⟩ := hworked.keptFrom kept hkept
    exact ⟨kept', hkept', hrow'.trans hrow, hsame.trans (hleg'.trans hleg),
      hsame'.trans (hweight'.trans hweight)⟩
  · intro kept hkept
    obtain ⟨old, hold, hleg, hweight, -⟩ := hworked.kept kept hkept
    obtain ⟨leg, hmem, hindex, hsame⟩ := h.legs old hold
    exact ⟨leg, hmem, hindex.trans hleg, hsame.trans hweight⟩
  · rintro leg hmem ⟨kept, hkept, hless⟩ hsubmittable
    obtain ⟨old, hold, hleg, -⟩ := hworked.kept kept hkept
    refine h.passed leg hmem ⟨old, hold, hleg ▸ hless⟩
      (submittable_of_worked hworked.orders ?_ hsubmittable)
    intro order horder hfilled
    refine (hworked.filled order horder hfilled).imp_left ?_
    -- only the newest leg can be filled by it, and that one comes after the leg passed over
    rintro ⟨newest, hnewest, hsubmitted, hsame⟩
    have := h.newest newest hnewest hsubmitted old hold
    omega

theorem exists_split_set {α : Type} {items : List α} {a : α} (hget : items[i]? = some a) (b : α) :
    ∃ front back, items = front ++ a :: back ∧ items.set i b = front ++ b :: back := by
  obtain ⟨hlt, hat⟩ := List.getElem?_eq_some_iff.mp hget
  refine ⟨items.take i, items.drop (i + 1), ?_, ?_⟩
  · rw [← hat, ← drop_eq_getElem_cons hlt, take_append_drop]
  · rw [set_eq_take_append_cons_drop, if_pos hlt]

theorem Sole.worked_kept (h : Sole s plan) (hworks : Works work)
    (hget : s.submittedOrders[i]? = some ⟨order, none⟩) (hsubmitted : order.status = .submitted) :
    Worked s { s with submittedOrders := s.submittedOrders.set i ⟨(work order).order, none⟩ }
      plan := by
  obtain ⟨front, back, hsplit, hset⟩ := exists_split_set hget ⟨(work order).order, none⟩
  generalize s.submittedOrders.set i ⟨(work order).order, none⟩ = after at hset ⊢
  have hkept : ∀ kept, kept ∈ s.submittedOrders ↔
      kept = ⟨order, none⟩ ∨ kept ∈ front ++ back := by
    intro kept
    rw [hsplit, mem_append, mem_cons, mem_append, or_left_comm]
  have hafter : ∀ kept, kept ∈ after ↔
      kept = ⟨(work order).order, none⟩ ∨ kept ∈ front ++ back := by
    intro kept
    rw [hset, mem_append, mem_cons, mem_append, or_left_comm]
  have hsole : Sole { s with submittedOrders := after } plan := by
    refine ⟨?_, h.rows_own⟩
    intro kept hmem hof
    rcases (hafter kept).mp hmem with rfl | hrest
    · exact (hworks.owns plan order).mpr
        (h.kept_own ⟨order, none⟩ ((hkept _).mpr (.inl rfl)) ((hworks.ofPlan plan order).mp hof))
    · exact h.kept_own kept ((hkept kept).mpr (.inr hrest)) hof
  -- the order worked on, and any other
  have hold : Owns plan order → ⟨order, none⟩ ∈ s.keptOf plan := fun howns =>
    mem_keptOf.mpr ⟨(hkept _).mpr (.inl rfl), howns⟩
  have hrest : ∀ kept ∈ front ++ back, Owns plan kept.order → kept ∈ s.keptOf plan :=
    fun kept hmem howns => mem_keptOf.mpr ⟨(hkept _).mpr (.inr hmem), howns⟩
  have hnewOf : Owns plan order → ⟨(work order).order, none⟩ ∈
      keptOf { s with submittedOrders := after } plan := fun howns =>
    mem_keptOf.mpr ⟨(hafter _).mpr (.inl rfl), (hworks.owns plan order).mpr howns⟩
  have hrestOf : ∀ kept ∈ front ++ back, Owns plan kept.order → kept ∈
      keptOf { s with submittedOrders := after } plan :=
    fun kept hmem howns => mem_keptOf.mpr ⟨(hafter _).mpr (.inr hmem), howns⟩
  refine ⟨hsole, ?_, ?_, ?_, fun i order horder howns => ⟨order, horder, howns, rfl, rfl⟩, ?_, ?_⟩
  · unfold keptOf
    dsimp only
    rw [hsplit, hset, filter_append, filter_append, filter_cons, filter_cons]
    simp only [hworks.owns]
    split
    · rw [map_append, map_append, map_cons, map_cons, hworks.leg]
    · rfl
  · intro kept hmem
    obtain ⟨hmem, howns⟩ := mem_keptOf.mp hmem
    rcases (hafter kept).mp hmem with rfl | hother
    · exact ⟨⟨order, none⟩, hold ((hworks.owns plan order).mp howns), (hworks.leg order).symm,
        (hworks.weight order).symm, rfl, fun _ => hsubmitted, fun hrow => absurd rfl hrow⟩
    · exact ⟨kept, hrest kept hother howns, rfl, rfl, rfl, id, fun _ => rfl⟩
  · intro old hmem
    obtain ⟨hmem, howns⟩ := mem_keptOf.mp hmem
    rcases (hkept old).mp hmem with rfl | hother
    · exact ⟨_, hnewOf howns, hworks.leg order, hworks.weight order, rfl⟩
    · exact ⟨old, hrestOf old hother howns, rfl, rfl, rfl⟩
  · intro old hmem
    rcases h.mem_planOrders.mp hmem with ⟨kept, hkeptOf, rfl⟩ | hrow
    · obtain ⟨hmem, howns⟩ := mem_keptOf.mp hkeptOf
      rcases (hkept kept).mp hmem with rfl | hother
      · exact ⟨_, hsole.mem_planOrders.mpr (.inl ⟨_, hnewOf howns, rfl⟩), hworks.leg order⟩
      · exact ⟨_, hsole.mem_planOrders.mpr (.inl ⟨kept, hrestOf kept hother howns, rfl⟩), rfl⟩
    · exact ⟨old, hsole.mem_planOrders.mpr (.inr hrow), rfl⟩
  · intro new hmem hfilled
    rcases hsole.mem_planOrders.mp hmem with ⟨kept, hkeptOf, rfl⟩ | hrow
    · obtain ⟨hmem, howns⟩ := mem_keptOf.mp hkeptOf
      rcases (hafter kept).mp hmem with rfl | hother
      · exact .inl ⟨_, hold ((hworks.owns plan order).mp howns), hsubmitted,
          (hworks.leg order).symm⟩
      · exact .inr ⟨_, h.mem_planOrders.mpr (.inl ⟨kept, hrest kept hother howns, rfl⟩), hfilled,
          rfl⟩
    · exact .inr ⟨new, h.mem_planOrders.mpr (.inr hrow), hfilled, rfl⟩

theorem InSequence.worked_row (h : InSequence s plan) (hworks : Works work)
    (hget : s.rows[i]? = some order) :
    Worked s { s with rows := s.rows.set i (work order).order } plan := by
  obtain ⟨hlt, hat⟩ := List.getElem?_eq_some_iff.mp hget
  have hrow : ∀ j : Nat, (s.rows.set i (work order).order)[j]? =
      if i = j then some (work order).order else s.rows[j]? := by
    intro j
    by_cases hsame : i = j
    · rw [if_pos hsame, ← hsame, getElem?_set_self hlt]
    · rw [if_neg hsame, getElem?_set_ne hsame]
  have hmem : ∀ new, new ∈ s.rows.set i (work order).order →
      new = (work order).order ∨ new ∈ s.rows := fun new hnew =>
    (mem_or_eq_of_mem_set hnew).symm
  have hold : order ∈ s.rows := mem_of_getElem? hget
  have hsole : Sole { s with rows := s.rows.set i (work order).order } plan := by
    refine ⟨h.kept_own, ?_⟩
    intro new hnew hof
    rcases hmem new hnew with rfl | hrest
    · exact (hworks.owns plan order).mpr (h.rows_own order hold ((hworks.ofPlan plan order).mp hof))
    · exact h.rows_own new hrest hof
  refine ⟨hsole, rfl, fun kept hkept => ⟨kept, hkept, rfl, rfl, rfl, id, fun _ => rfl⟩,
    fun old hold => ⟨old, hold, rfl, rfl, rfl⟩, ?_, ?_, ?_⟩
  · intro j new hnew howns
    rw [hrow] at hnew
    split at hnew
    · next hsame =>
        obtain rfl := Option.some.inj hnew
        exact ⟨order, hsame ▸ hget, (hworks.owns plan order).mp howns, (hworks.leg order).symm,
          (hworks.weight order).symm⟩
    · exact ⟨new, hnew, howns, rfl, rfl⟩
  · intro old holdOf
    rcases h.mem_planOrders.mp holdOf with hkept | ⟨hsome, hrows, howns⟩
    · exact ⟨old, hsole.mem_planOrders.mpr (.inl hkept), rfl⟩
    · obtain ⟨j, hj⟩ := mem_iff_getElem?.mp hrows
      by_cases hsame : i = j
      · rw [← hsame, hget] at hj
        obtain rfl := Option.some.inj hj
        refine ⟨(work order).order, hsole.mem_planOrders.mpr (.inr ⟨hsome, ?_, ?_⟩),
          hworks.leg order⟩
        · exact mem_iff_getElem?.mpr ⟨i, by rw [hrow, if_pos rfl]⟩
        · exact (hworks.owns plan order).mpr howns
      · refine ⟨old, hsole.mem_planOrders.mpr (.inr ⟨hsome, ?_, howns⟩), rfl⟩
        exact mem_iff_getElem?.mpr ⟨j, by rw [hrow, if_neg hsame]; exact hj⟩
  · intro new hnewOf hfilled
    rcases hsole.mem_planOrders.mp hnewOf with hkept | ⟨hsome, hrows, howns⟩
    · exact .inr ⟨new, h.mem_planOrders.mpr (.inl hkept), hfilled, rfl⟩
    · rcases hmem new hrows with rfl | hrest
      · -- the kept order of the row is still submitted
        have howns := (hworks.owns plan order).mp howns
        obtain ⟨kept, hkept, hsaved, hleg, -⟩ := h.rows i order hget howns
        exact .inl ⟨kept, hkept, h.saved kept hkept (by rw [hsaved]; nofun),
          hleg.trans (hworks.leg order).symm⟩
      · exact .inr ⟨new, h.mem_planOrders.mpr (.inr ⟨hsome, hrest, howns⟩), hfilled, rfl⟩

theorem InSequence.workOn (h : InSequence s plan) (hworks : Works work) (place : Place) :
    InSequence (s.workOn place work).1 plan := by
  unfold VirtualOrderService.workOn
  cases place with
  | kept i =>
    dsimp only
    split
    · next order hget =>
        by_cases hsubmitted : order.status = .submitted
        · exact h.worked (h.worked_kept hworks hget hsubmitted)
        · obtain ⟨front, back, hsplit, hset⟩ := exists_split_set hget ⟨(work order).order, none⟩
          dsimp only
          rw [hset, hworks.settled order hsubmitted, ← hsplit]
          exact h
    · exact h
  | row i =>
    dsimp only
    split
    · next order hget => exact h.worked (h.worked_row hworks hget)
    · exact h

/-! ## Submitting an order -/

theorem find?_insertionSort {legs : List SplitLeg} {ok : SplitLeg → Prop} [DecidablePred ok]
    (hfind : (legs.insertionSort (·.index ≤ ·.index)).find? (ok ·) = some leg) :
    leg ∈ legs ∧ ok leg ∧ ∀ other ∈ legs, ok other → leg.index ≤ other.index := by
  have hok := find?_some hfind
  refine ⟨(mem_insertionSort _).mp (mem_of_find?_eq_some hfind), of_decide_eq_true hok, ?_⟩
  intro other hmem hother
  obtain ⟨-, front, back, hsplit, hfront⟩ := find?_eq_some_iff_append.mp hfind
  have hsorted := pairwise_insertionSort (fun a b : SplitLeg => a.index ≤ b.index) legs
  have hmem' := (mem_insertionSort (fun a b : SplitLeg => a.index ≤ b.index)).mpr hmem
  rw [hsplit] at hsorted hmem'
  rcases mem_append.mp hmem' with hbefore | hafter
  · have hnot := hfront other hbefore
    rw [decide_eq_true hother] at hnot
    exact absurd hnot (by decide)
  · rcases mem_cons.mp hafter with rfl | hafter
    · exact le_refl _
    · exact (pairwise_cons.mp (pairwise_append.mp hsorted).2.1).1 other hafter

theorem VirtualOrderService.idle_of_findSubmittedOrder
    (hfind : s.findSubmittedOrder plan = none) :
    ∀ order ∈ s.planOrders plan, order.status ≠ .submitted := by
  unfold findSubmittedOrder at hfind
  split at hfind
  · cases hfind
  · next hnone =>
      intro order hmem hsubmitted
      exact find?_eq_none.mp hnone order hmem (decide_eq_true hsubmitted)

theorem InSequence.rightLeg (h : InSequence s plan) (now : Int)
    (hfind : s.findSubmittedOrder plan = none) (hnext : s.nextSubmittableLeg plan = some leg) :
    RightLeg s plan (orderOfLeg plan leg now) leg := by
  have hidle := idle_of_findSubmittedOrder hfind
  have hkept : ∀ kept ∈ s.keptOf plan, kept.order.status ≠ .submitted := fun kept hkept =>
    hidle _ (h.mem_planOrders.mpr (.inl ⟨kept, hkept, rfl⟩))
  unfold nextSubmittableLeg at hnext
  dsimp only at hnext
  split at hnext
  · cases hnext
  · obtain ⟨hmem, hsubmittable, hleast⟩ := find?_insertionSort hnext
    have hpositive : 0 < leg.leg.getD 0 := hsubmittable.1
    refine ⟨hmem, ?_, rfl, hsubmittable, hleast, ?_, ?_⟩
    · have hindex : (orderOfLeg plan leg now).legIndex = leg.leg.getD 0 :=
        if_neg (by omega)
      unfold VirtualOrder.leg
      rw [hindex]
      exact if_neg (by omega)
    · intro order hlive
      rcases mem_liveOrders.mp hlive with ⟨kept, hkeptOf, -, rfl⟩ | ⟨hrow, howns⟩
      · exact hkept kept hkeptOf
      · obtain ⟨i, hi⟩ := mem_iff_getElem?.mp hrow
        obtain ⟨kept, hkeptOf, hsaved, -⟩ := h.rows i order hi howns
        exact absurd (h.saved kept hkeptOf (by rw [hsaved]; nofun)) (hkept kept hkeptOf)
    · intro hrequires
      obtain ⟨order, hfilled, hleg⟩ := mem_map.mp (hsubmittable.2.2.2.2 hrequires)
      obtain ⟨hfound, hstatus⟩ := mem_filter.mp hfilled
      refine ⟨order, ?_, of_decide_eq_true hstatus, hleg⟩
      rw [mem_liveOrders]
      rcases h.mem_planOrders.mp hfound with ⟨kept, hkeptOf, rfl⟩ | ⟨-, hrow⟩
      · refine .inl ⟨kept, hkeptOf, ?_, rfl⟩
        by_contra hsaved
        exact hkept kept hkeptOf (h.saved kept hkeptOf hsaved)
      · exact .inr hrow

structure Adds (s : VirtualOrderService) (order : VirtualOrder) (row : Option Nat)
    (s' : VirtualOrderService) : Prop where
  kept : s'.submittedOrders = s.submittedOrders ++ [⟨order, row⟩]
  rowsFrom : ∀ (i : Nat) (stored : VirtualOrder), s'.rows[i]? = some stored →
    s.rows[i]? = some stored ∨ row = some i ∧ ∃ id, stored = { order with id }
  rows : ∀ (i : Nat) (stored : VirtualOrder), s.rows[i]? = some stored → s'.rows[i]? = some stored

theorem Adds.mem_rows {stored : VirtualOrder} (h : Adds s order row s') (hmem : stored ∈ s'.rows) :
    stored ∈ s.rows ∨ ∃ id, stored = { order with id } := by
  obtain ⟨i, hi⟩ := mem_iff_getElem?.mp hmem
  exact (h.rowsFrom i stored hi).imp mem_of_getElem? And.right

theorem InSequence.adds_other (h : InSequence s plan) (hadds : Adds s order row s')
    (hother : ¬ OfPlan plan order) : InSequence s' plan := by
  have hnot : ¬ Owns plan order := fun howns => hother ⟨howns.1, .inr howns.2⟩
  have hkeptOf : s'.keptOf plan = s.keptOf plan := by
    unfold keptOf
    rw [hadds.kept, filter_append, filter_cons_of_neg (by simp [hnot]), filter_nil, append_nil]
  have hsole : Sole s' plan := by
    constructor
    · intro kept hmem hof
      rw [hadds.kept, mem_append, mem_singleton] at hmem
      rcases hmem with hmem | rfl
      · exact h.kept_own kept hmem hof
      · exact absurd hof hother
    · intro stored hmem hof
      rcases hadds.mem_rows hmem with hmem | ⟨id, rfl⟩
      · exact h.rows_own stored hmem hof
      · exact absurd hof hother
  have hrows : ∀ stored, stored ∈ s'.rows ∧ Owns plan stored → stored ∈ s.rows := by
    rintro stored ⟨hmem, howns⟩
    rcases hadds.mem_rows hmem with hmem | ⟨id, rfl⟩
    · exact hmem
    · exact absurd howns hnot
  refine h.worked ⟨hsole, by rw [hkeptOf], ?_, ?_, ?_, ?_, ?_⟩
  · intro kept hkept
    rw [hkeptOf] at hkept
    exact ⟨kept, hkept, rfl, rfl, rfl, id, fun _ => rfl⟩
  · intro old hold
    rw [hkeptOf]
    exact ⟨old, hold, rfl, rfl, rfl⟩
  · intro i stored hstored howns
    rcases hadds.rowsFrom i stored hstored with hold | ⟨-, id, rfl⟩
    · exact ⟨stored, hold, howns, rfl, rfl⟩
    · exact absurd howns hnot
  · intro old hold
    refine ⟨old, hsole.mem_planOrders.mpr ?_, rfl⟩
    rw [hkeptOf]
    refine (h.mem_planOrders.mp hold).imp_right ?_
    rintro ⟨hsome, hmem, howns⟩
    obtain ⟨i, hi⟩ := mem_iff_getElem?.mp hmem
    exact ⟨hsome, mem_of_getElem? (hadds.rows i old hi), howns⟩
  · intro new hnew hfilled
    refine .inr ⟨new, h.mem_planOrders.mpr ?_, hfilled, rfl⟩
    have hnew := hsole.mem_planOrders.mp hnew
    rw [hkeptOf] at hnew
    exact hnew.imp_right fun ⟨hsome, hmem, howns⟩ => ⟨hsome, hrows new ⟨hmem, howns⟩, howns⟩

theorem InSequence.adds_right (h : InSequence s plan) {now : Int}
    (hadds : Adds s (orderOfLeg plan leg now) row s')
    (hright : RightLeg s plan (orderOfLeg plan leg now) leg)
    (hidle : ∀ order ∈ s.planOrders plan, order.status ≠ .submitted) : InSequence s' plan := by
  have hleg := hright.order_leg
  have howns : Owns plan (orderOfLeg plan leg now) := ⟨rfl, rfl⟩
  have hsubmitted : (orderOfLeg plan leg now).status = .submitted := rfl
  have hweight := hright.order_weight
  generalize orderOfLeg plan leg now = order at hadds hleg howns hsubmitted hweight
  have hkept : ∀ kept ∈ s.keptOf plan, kept.order.status ≠ .submitted := fun kept hkept =>
    hidle _ (h.mem_planOrders.mpr (.inl ⟨kept, hkept, rfl⟩))
  have hkeptOf : s'.keptOf plan = s.keptOf plan ++ [⟨order, row⟩] := by
    unfold keptOf
    rw [hadds.kept, filter_append, filter_cons_of_pos (by simp [howns]), filter_nil]
  -- the legs before it are those of the kept orders, or were passed over
  have hless : ∀ kept ∈ s.keptOf plan, kept.order.leg < leg.index := by
    intro kept hmem
    have hnew : leg.index ∉ (s.planOrders plan).map (·.leg) := hright.submittable.2.1
    have hne : kept.order.leg ≠ leg.index := fun hsame =>
      hnew (mem_map.mpr ⟨_, h.mem_planOrders.mpr (.inl ⟨kept, hmem, rfl⟩), hsame⟩)
    by_contra hnot
    exact h.passed leg hright.mem ⟨kept, hmem, by omega⟩ hright.submittable
  have hsole : Sole s' plan := by
    constructor
    · intro kept hmem hof
      rw [hadds.kept, mem_append, mem_singleton] at hmem
      rcases hmem with hmem | rfl
      · exact h.kept_own kept hmem hof
      · exact howns
    · intro stored hmem hof
      rcases hadds.mem_rows hmem with hmem | ⟨id, rfl⟩
      · exact h.rows_own stored hmem hof
      · exact howns
  have hcases : ∀ kept ∈ s'.keptOf plan, kept ∈ s.keptOf plan ∨ kept = ⟨order, row⟩ := by
    intro kept hmem
    rw [hkeptOf, mem_append, mem_singleton] at hmem
    exact hmem
  refine ⟨hsole, ?_, ?_, ?_, ?_, ?_, ?_⟩
  · rw [hkeptOf, map_append]
    refine pairwise_append.mpr ⟨h.ascending, pairwise_singleton _ _, ?_⟩
    intro old hold new hnew
    obtain ⟨kept, hmem, rfl⟩ := mem_map.mp hold
    rw [mem_singleton.mp hnew]
    show kept.order.leg < order.leg
    rw [hleg]
    exact hless kept hmem
  · intro kept hmem hstatus other hother
    rcases hcases kept hmem with hold | rfl
    · exact absurd hstatus (hkept kept hold)
    · rcases hcases other hother with hold | rfl
      · have := hless other hold
        show other.order.leg ≤ order.leg
        omega
      · exact le_refl _
  · intro kept hmem hrow
    rcases hcases kept hmem with hold | rfl
    · exact h.saved kept hold hrow
    · exact hsubmitted
  · intro i stored hstored hown
    rw [hkeptOf]
    rcases hadds.rowsFrom i stored hstored with hold | ⟨hrow, id, rfl⟩
    · obtain ⟨kept, hmem, hkept⟩ := h.rows i stored hold hown
      exact ⟨kept, mem_append_left _ hmem, hkept⟩
    · exact ⟨_, mem_append_right _ (mem_singleton.mpr rfl), hrow, rfl, rfl⟩
  · intro kept hmem
    rcases hcases kept hmem with hold | rfl
    · exact h.legs kept hold
    · exact ⟨leg, hright.mem, hleg.symm, hweight.symm⟩
  · rintro other hmem ⟨kept, hkeptMem, hbefore⟩ hsubmittable
    have hsubmittable : Submittable (s.planOrders plan) other := by
      refine submittable_of_worked ?_ ?_ hsubmittable
      · intro old hold
        refine ⟨old, hsole.mem_planOrders.mpr ?_, rfl⟩
        rcases h.mem_planOrders.mp hold with ⟨kept, hkept, hsame⟩ | ⟨hsome, hrow, hown⟩
        · exact .inl ⟨kept, by rw [hkeptOf]; exact mem_append_left _ hkept, hsame⟩
        · obtain ⟨i, hi⟩ := mem_iff_getElem?.mp hrow
          exact .inr ⟨hsome, mem_of_getElem? (hadds.rows i old hi), hown⟩
      · intro new hnew hfilled
        have hnotNew : ∀ id, new ≠ { order with id } := by
          rintro id rfl
          rw [show ({ order with id } : VirtualOrder).status = order.status from rfl, hsubmitted]
            at hfilled
          cases hfilled
        refine .inr ⟨new, h.mem_planOrders.mpr ?_, hfilled, rfl⟩
        rcases hsole.mem_planOrders.mp hnew with ⟨kept, hkept, hsame⟩ | ⟨hsome, hrow, hown⟩
        · rcases hcases kept hkept with hold | rfl
          · exact .inl ⟨kept, hold, hsame⟩
          · exact absurd hsame.symm (hnotNew order.id)
        · rcases hadds.mem_rows hrow with hold | ⟨id, hsame⟩
          · exact .inr ⟨hsome, hold, hown⟩
          · exact absurd hsame (hnotNew id)
    rcases hcases kept hkeptMem with hold | rfl
    · exact h.passed other hmem ⟨kept, hold, hbefore⟩ hsubmittable
    · have := hright.least other hmem hsubmittable
      have hbefore : other.index < order.leg := hbefore
      omega

/-! ## One call -/

theorem submitVirtualOrder_cases (s : VirtualOrderService) (other : EntryPlan) (now : Int) :
    (s.submitVirtualOrder other now).2.submitted = false ∧
        (s.submitVirtualOrder other now).1 = s ∨
      ∃ leg, s.findSubmittedOrder other = none ∧ s.nextSubmittableLeg other = some leg ∧
        s.submitVirtualOrder other now =
          ({ s with submittedOrders := s.submittedOrders ++
              [⟨orderOfLeg other leg now, none⟩] },
            { order := some (orderOfLeg other leg now), submitted := true
              duplicate := false, rejectedReason := "" }) := by
  unfold submitVirtualOrder
  split
  · exact .inl ⟨rfl, rfl⟩
  · split
    · exact .inl ⟨rfl, rfl⟩
    · next hfind =>
        split
        · exact .inl ⟨rfl, rfl⟩
        · next leg hnext => exact .inr ⟨leg, hfind, hnext, rfl⟩

theorem adds_submitted (s : VirtualOrderService) (order : VirtualOrder) (save : Bool) :
    ∃ row, Adds s order row
      (if save then
        saveNewest
          { s with submittedOrders := s.submittedOrders ++ [⟨order, none⟩] }
      else { s with submittedOrders := s.submittedOrders ++ [⟨order, none⟩] }) := by
  cases save with
  | false => exact ⟨none, rfl, fun i stored hstored => .inl hstored, fun i stored hstored => hstored⟩
  | true =>
    have hsave : saveNewest
        { s with submittedOrders := s.submittedOrders ++ [⟨order, none⟩] } =
        { s with
          submittedOrders := s.submittedOrders ++ [⟨order, some s.rows.length⟩]
          rows := s.rows ++ [{ order with id := some (s.rows.length + 1) }] } := by
      unfold saveNewest
      rw [getLast?_concat]
      dsimp only
      rw [dropLast_concat]
    refine ⟨some s.rows.length, ?_⟩
    rw [if_pos rfl, hsave]
    refine ⟨rfl, ?_, ?_⟩
    · intro i stored hstored
      by_cases hlt : i < s.rows.length
      · rw [getElem?_append_left hlt] at hstored
        exact .inl hstored
      · rw [getElem?_append_right (by omega), getElem?_singleton] at hstored
        split at hstored
        · next hzero =>
            exact .inr ⟨congrArg some (by omega), _, (Option.some.inj hstored).symm⟩
        · cases hstored
    · intro i stored hstored
      obtain ⟨hlt, -⟩ := List.getElem?_eq_some_iff.mp hstored
      rw [List.getElem?_append_left hlt]
      exact hstored

theorem InSequence.submit (h : InSequence s plan) {other : EntryPlan}
    (halone : Admits plan other → other = plan) (now : Int) (save : Bool) :
    InSequence
      (if (s.submitVirtualOrder other now).2.submitted ∧ save then
        (s.submitVirtualOrder other now).1.saveNewest
      else (s.submitVirtualOrder other now).1) plan := by
  rcases submitVirtualOrder_cases s other now with ⟨hrejected, hsame⟩ | ⟨leg, hfind, hnext, hsubmit⟩
  · rw [hrejected, hsame, if_neg (by simp)]
    exact h
  · rw [hsubmit]
    obtain ⟨row, hadds⟩ := adds_submitted s (orderOfLeg other leg now) save
    simp only [true_and]
    by_cases hadmits : Admits plan other
    · obtain rfl := halone hadmits
      exact h.adds_right hadds (h.rightLeg now hfind hnext) (idle_of_findSubmittedOrder hfind)
    · exact h.adds_other hadds hadmits

end Sequence

end TradingCore.VirtualOrders
