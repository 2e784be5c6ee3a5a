import TradingCore.Base.Machine
import TradingCore.Orders.ExactlyOnce

/-!
# The projected row of a broker order

Each event of a broker order rewrites its row of `broker_order_state`, column by column: the
quantity and the filled quantity only grow, the remaining quantity and the status are those of
the event.

* `filledQty_grows` — whatever comes, the filled quantity never decreases;
* `rows_agree_iff` — for events that each agree with themselves, the row agrees with itself
  throughout exactly when no event is late, no acknowledgement leaves the quantities out, and
  only the fill itself reports a full fill.
-/

namespace TradingCore.Orders

open Base List CanonicalGatewayEvent Write Ledger

/-! ## What an event reports -/

def OrderPayload.namedQty (payload : OrderPayload) : Int :=
  orInt payload.orderQty payload.quantity

def OrderPayload.reportedFilled (payload : OrderPayload) : Int :=
  orInt payload.filledQty payload.filledQuantity

def OrderPayload.reportedRemaining (payload : OrderPayload) : Int :=
  orInt payload.remainingQty payload.remainingQuantity

/-- The event is one of an order of some quantity. What it reports as filled and as remaining
makes up the order; an acknowledgement may also report neither. A fill is the full one exactly
when nothing remains. -/
structure CanonicalGatewayEvent.OfOrder (event : CanonicalGatewayEvent) (quantity : Int) :
    Prop where
  positive : 0 < quantity
  named : 0 ≤ event.payload.namedQty ∧ event.payload.namedQty ≤ quantity
  filled : 0 ≤ event.payload.reportedFilled
  remaining : 0 ≤ event.payload.reportedRemaining
  whole : event.payload.reportedFilled + event.payload.reportedRemaining = quantity ∨
    event.canonicalType ∉ fillTypes ∧
      event.payload.reportedFilled = 0 ∧ event.payload.reportedRemaining = 0
  fill : event.canonicalType ∈ fillTypes → 0 < event.payload.reportedFilled ∧
    (event.canonicalType = .orderFilled ↔ event.payload.reportedRemaining = 0)

/-! ## The run of the consumer -/

instance (event : CanonicalGatewayEvent) (quantity : Int) : Decidable (event.OfOrder quantity) :=
  decidable_of_iff
    (0 < quantity ∧ (0 ≤ event.payload.namedQty ∧ event.payload.namedQty ≤ quantity) ∧
      0 ≤ event.payload.reportedFilled ∧ 0 ≤ event.payload.reportedRemaining ∧
      (event.payload.reportedFilled + event.payload.reportedRemaining = quantity ∨
        event.canonicalType ∉ fillTypes ∧
          event.payload.reportedFilled = 0 ∧ event.payload.reportedRemaining = 0) ∧
      (event.canonicalType ∈ fillTypes → 0 < event.payload.reportedFilled ∧
        (event.canonicalType = .orderFilled ↔ event.payload.reportedRemaining = 0)))
    ⟨fun ⟨a, b, c, d, e, f⟩ => ⟨a, b, c, d, e, f⟩, fun ⟨a, b, c, d, e, f⟩ => ⟨a, b, c, d, e, f⟩⟩

def Database.answer (db : Database) (event : CanonicalGatewayEvent) (today : String) :
    ApplyResult :=
  (db.toLedger.applyCanonicalOrderEvent event.canonicalType event.payload today).1

/-- The consumer as a machine: events arrive, each on some day. -/
def orderConsumer (config : OrderConsumerConfig) :
    Machine Database (CanonicalGatewayEvent × String) Unit where
  step db arrival := (db.dispatch config arrival.1 arrival.2, ())

/-- Does the event update a row of the projection? -/
def CanonicalGatewayEvent.Updates (event : CanonicalGatewayEvent) (key : String × String) : Prop :=
  event.canonicalType ∈ projectedTypes ∧ event.payload.orderNo ≠ "" ∧
    (event.payload.account, event.payload.orderNo) = key
deriving Decidable

/-- The row agrees with itself: the filled and the remaining quantity make up the order, and an
order filled in full has the status of a full fill. -/
structure BrokerOrderState.Agrees (row : BrokerOrderState) : Prop where
  whole : row.filledQty + row.remainingQty = row.orderQty
  full : 0 < row.filledQty → row.filledQty = row.orderQty → row.brokerStatus = .orderFilled

instance (row : BrokerOrderState) : Decidable row.Agrees :=
  decidable_of_iff
    (row.filledQty + row.remainingQty = row.orderQty ∧
      (0 < row.filledQty → row.filledQty = row.orderQty → row.brokerStatus = .orderFilled))
    ⟨fun ⟨a, b⟩ => ⟨a, b⟩, fun ⟨a, b⟩ => ⟨a, b⟩⟩

/-- The row of the order, if there is one, agrees with itself. -/
def RowAgrees (key : String × String) (db : Database) : Prop :=
  ∀ row ∈ db.brokerOrderStates.get? key, row.Agrees
deriving Decidable

/-- Along the run the filled quantity of the order never decreases. -/
def FilledGrows (config : OrderConsumerConfig) (key : String × String) (db : Database)
    (run : List (CanonicalGatewayEvent × String)) : Prop :=
  ∀ past arrival, past ++ [arrival] <+: run →
    ∀ old ∈ ((orderConsumer config).run db past).brokerOrderStates.get? key,
      ∃ new ∈ ((orderConsumer config).run db (past ++ [arrival])).brokerOrderStates.get? key,
        old.filledQty ≤ new.filledQty

def knownQty (key : String × String) (db : Database) : Int :=
  ((db.brokerOrderStates.get? key).map (·.orderQty)).getD 0

def knownFilled (key : String × String) (db : Database) : Int :=
  ((db.brokerOrderStates.get? key).map (·.filledQty)).getD 0

/-- The event comes in order. One that reports quantities names the quantity of the order, or
the row does; it reports no less filled than the row has; and where it reports nothing remaining,
it is the full fill, and the pipeline knows of nothing remaining either. One that reports none
comes before any that does, and names no quantity. -/
def InOrder (config : OrderConsumerConfig) (key : String × String) (quantity : Int)
    (db : Database) (arrival : CanonicalGatewayEvent × String) : Prop :=
  let payload := arrival.1.payload
  arrival.1.Updates key → ¬ db.skips config arrival.1 →
    if payload.reportedFilled = 0 ∧ payload.reportedRemaining = 0 then
      payload.namedQty = 0 ∧ knownQty key db = 0
    else
      max (knownQty key db) payload.namedQty = quantity ∧
        knownFilled key db ≤ payload.reportedFilled ∧
        (payload.reportedRemaining = 0 →
          arrival.1.canonicalType = .orderFilled ∧
            (db.answer arrival.1 arrival.2).remainingQuantity ≤ 0)
deriving Decidable

/-! ## What an event does to the projection -/

theorem brokerOrderStates_execute {writes : List Write}
    (h : ∀ w ∈ writes, w.table ≠ some .brokerOrderStates) (l : Ledger) :
    (execute (writes.map onLedger) l).brokerOrderStates = l.brokerOrderStates := by
  induction writes generalizing l with
  | nil => rfl
  | cons w ws ih =>
    have hw : (w.onLedger l).brokerOrderStates = l.brokerOrderStates := by
      cases w with
      | brokerOrderState => exact absurd rfl (h _ mem_cons_self)
      | _ => rfl
    rw [map_cons, execute_cons, ih fun v hv => h v (mem_cons_of_mem w hv), hw]

theorem applied_not_projection {l : Ledger} {canonicalType : CanonicalType}
    {payload : OrderPayload} {today : String} {write : Write}
    (h : write ∈ (l.applyCanonicalOrderEvent canonicalType payload today).2) :
    write.table ≠ some .brokerOrderStates := by
  cases hack : ackPayload canonicalType payload with
  | some ack =>
    rw [applyCanonical_ack hack] at h
    rcases l.applyOrderAck_cases ack today with hw | ⟨id, order, _, _, hw⟩
    · rw [hw] at h
      rw [mem_singleton.mp h]
      simp [recordReconcileRequired, table]
    · rw [hw] at h
      rw [mem_singleton.mp h]
      simp [table]
  | none =>
    by_cases hfill : canonicalType ∈ fillTypes
    · rw [applyCanonical_fill hfill] at h
      cases hfound : l.findExecutionOrder (.fromDict payload) with
      | none =>
        rw [applyOrderFill_of_none today hfound] at h
        rw [mem_singleton.mp h]
        simp [recordReconcileRequired, table]
      | some found =>
        rw [applyOrderFill_of_found today hfound] at h
        rcases mem_cons.mp h with rfl | h
        · simp [table]
        · rw [mem_singleton.mp h]
          simp [syncLiveSimPosition, table]
    · rw [(applyCanonical_other hack hfill l l today today).2.2 write h]
      simp

theorem answer_quantities {event : CanonicalGatewayEvent} (hfill : event.canonicalType ∉ fillTypes)
    (db : Database) (today : String) :
    (db.answer event today).filledQuantity = 0 ∧ (db.answer event today).remainingQuantity = 0 := by
  have hack : ∀ ack, (db.toLedger.applyOrderAck ack today).1.filledQuantity = 0 ∧
      (db.toLedger.applyOrderAck ack today).1.remainingQuantity = 0 := by
    intro ack
    unfold applyOrderAck handleCommandAck
    dsimp only
    split
    · exact ⟨rfl, rfl⟩
    · split
      · exact ⟨rfl, rfl⟩
      · exact ⟨rfl, rfl⟩
  unfold Database.answer applyCanonicalOrderEvent
  cases htype : event.canonicalType with
  | orderPartiallyFilled => exact absurd (htype ▸ hfill) (by decide)
  | orderFilled => exact absurd (htype ▸ hfill) (by decide)
  | commandAck =>
    dsimp only
    split
    · exact ⟨rfl, rfl⟩
    · exact ⟨rfl, rfl⟩
  | commandFailed => exact hack _
  | orderRejected => exact hack _
  | orderAccepted => exact hack _
  | orderCancelAccepted => exact hack _
  | orderCancelled =>
    dsimp only
    split
    · exact ⟨rfl, rfl⟩
    · exact hack _
  | balanceSnapshot =>
    unfold applyBalanceSnapshot
    dsimp only
    split
    · exact ⟨rfl, rfl⟩
    · exact ⟨rfl, rfl⟩
  | _ => exact ⟨rfl, rfl⟩

theorem brokerOrderStates_closing (event : CanonicalGatewayEvent) (result : ApplyResult)
    (l : Ledger) :
    (execute ((event.closingWrites result).map onLedger) l).brokerOrderStates =
      if event.canonicalType ∈ projectedTypes ∧ event.payload.orderNo ≠ "" then
        l.brokerOrderStates.upsert (event.payload.account, event.payload.orderNo)
          (event.orderState result).params.onConflict
      else l.brokerOrderStates := by
  unfold closingWrites updateProjection
  rw [append_assoc, map_append, execute_append, brokerOrderStates_execute]
  · split
    · next hprojected =>
        rw [map_singleton, execute_cons, execute_nil]
        unfold onLedger
        dsimp only
        rw [if_neg hprojected.2]
    · rfl
  · intro w hw
    rcases mem_append.mp hw with hw | hw
    · split at hw
      · obtain ⟨item, _, rfl⟩ := mem_map.mp hw
        simp [table, positionState]
      · cases hw
    · rw [mem_singleton.mp hw]
      simp [table, saveReceipt]

theorem dispatch_row (config : OrderConsumerConfig) (event : CanonicalGatewayEvent)
    (today : String) (db : Database) (key : String × String) :
    (db.dispatch config event today).brokerOrderStates.get? key =
      if event.Updates key ∧ ¬ db.skips config event then
        some ((event.orderState (db.answer event today)).params.onConflict
          (db.brokerOrderStates.get? key))
      else db.brokerOrderStates.get? key := by
  by_cases hskip : db.skips config event = true
  · rw [if_neg (fun h => h.2 hskip)]
    unfold Database.dispatch Procedure.whole
    rw [plan_of_skips hskip]
    rfl
  · have htable : (db.dispatch config event today).brokerOrderStates =
        if event.canonicalType ∈ projectedTypes ∧ event.payload.orderNo ≠ "" then
          db.brokerOrderStates.upsert (event.payload.account, event.payload.orderNo)
            (event.orderState (db.answer event today)).params.onConflict
        else db.brokerOrderStates := by
      rw [dispatch_ledger hskip, applicationWrites_eq, map_append, execute_append,
        brokerOrderStates_closing, brokerOrderStates_execute fun w hw => applied_not_projection hw]
      rfl
    rw [htable]
    by_cases hprojected : event.canonicalType ∈ projectedTypes ∧ event.payload.orderNo ≠ ""
    · rw [if_pos hprojected]
      by_cases hkey : (event.payload.account, event.payload.orderNo) = key
      · rw [if_pos ⟨⟨hprojected.1, hprojected.2, hkey⟩, hskip⟩, ← hkey, Dict.get?_upsert_self]
      · rw [if_neg (fun h => hkey h.1.2.2), Dict.get?_upsert_ne _ _ (Ne.symm hkey)]
    · rw [if_neg hprojected, if_neg (fun h => hprojected ⟨h.1.1, h.1.2.1⟩)]

theorem filledQty_grows (config : OrderConsumerConfig) (key : String × String) (db : Database)
    (run : List (CanonicalGatewayEvent × String)) : FilledGrows config key db run := by
  rintro past ⟨event, today⟩ _ old hold
  rw [Machine.run_concat]
  generalize (orderConsumer config).run db past = reached at hold ⊢
  show ∃ new ∈ (reached.dispatch config event today).brokerOrderStates.get? key, _
  rw [dispatch_row]
  split
  · refine ⟨_, rfl, ?_⟩
    rw [hold]
    show old.filledQty ≤ max old.filledQty _
    omega
  · exact ⟨old, hold, Int.le_refl _⟩

/-! ## One event of the order -/

/-- What is known of the order: nothing, or its quantity. -/
def Known (key : String × String) (quantity : Int) (db : Database) : Prop :=
  knownQty key db = 0 ∧ knownFilled key db = 0 ∨ knownQty key db = quantity

section Columns

variable {event : CanonicalGatewayEvent} {quantity : Int}

section

variable (h : event.OfOrder quantity)
include h

theorem CanonicalGatewayEvent.OfOrder.sum_of_reports
    (hreports : ¬ (event.payload.reportedFilled = 0 ∧ event.payload.reportedRemaining = 0)) :
    event.payload.reportedFilled + event.payload.reportedRemaining = quantity := by
  rcases h.whole with hsum | ⟨-, hbare⟩
  · exact hsum
  · exact absurd hbare hreports

theorem CanonicalGatewayEvent.OfOrder.not_fill (hnone : event.payload.reportedFilled = 0) :
    event.canonicalType ∉ fillTypes := by
  intro hfill
  have := (h.fill hfill).1
  omega

theorem CanonicalGatewayEvent.OfOrder.filledQty (db : Database) (today : String) :
    (event.orderState (db.answer event today)).filledQty = event.payload.reportedFilled := by
  show orInt event.payload.filledQty (orInt event.payload.filledQuantity
    (db.answer event today).filledQuantity) = orInt event.payload.filledQty
      event.payload.filledQuantity
  by_cases hfill : event.canonicalType ∈ fillTypes
  · have hpos := (h.fill hfill).1
    unfold OrderPayload.reportedFilled orInt at hpos
    unfold orInt
    grind
  · rw [(answer_quantities hfill db today).1]
    unfold orInt
    grind

theorem CanonicalGatewayEvent.OfOrder.remainingQty (db : Database) (today : String) :
    (event.orderState (db.answer event today)).params.remainingQty =
      if event.payload.reportedRemaining = 0 then
        max 0 (db.answer event today).remainingQuantity
      else event.payload.reportedRemaining := by
  have hle := h.remaining
  show max 0 (orInt event.payload.remainingQty (orInt event.payload.remainingQuantity
    (db.answer event today).remainingQuantity)) = _
  unfold OrderPayload.reportedRemaining orInt at hle ⊢
  grind

theorem CanonicalGatewayEvent.OfOrder.onConflict (db : Database) (today : String)
    (old : Option BrokerOrderState) :
    let new := (event.orderState (db.answer event today)).params.onConflict old
    new.orderQty = max ((old.map (·.orderQty)).getD 0) event.payload.namedQty ∧
      new.filledQty = max ((old.map (·.filledQty)).getD 0) event.payload.reportedFilled ∧
      new.remainingQty = (event.orderState (db.answer event today)).params.remainingQty ∧
      new.brokerStatus = event.canonicalType := by
  have hfilled := h.filledQty db today
  have hnamed := h.named.1
  have hpos := h.filled
  cases old with
  | none =>
    refine ⟨?_, ?_, rfl, rfl⟩
    · show event.payload.namedQty = max 0 event.payload.namedQty
      omega
    · show (event.orderState (db.answer event today)).filledQty =
        max 0 event.payload.reportedFilled
      omega
  | some row =>
    refine ⟨rfl, ?_, rfl, rfl⟩
    show max row.filledQty (event.orderState (db.answer event today)).filledQty =
      max row.filledQty event.payload.reportedFilled
    rw [hfilled]

end

variable {config : OrderConsumerConfig}

theorem rowAgrees_dispatch_iff {key : String × String} {db : Database} {today : String}
    (h : event.Updates key → event.OfOrder quantity) (hknown : Known key quantity db)
    (hagrees : RowAgrees key db) :
    RowAgrees key (db.dispatch config event today) ↔
      InOrder config key quantity db (event, today) := by
  unfold RowAgrees InOrder at *
  dsimp only
  rw [dispatch_row]
  by_cases hwrites : event.Updates key ∧ ¬ db.skips config event
  · have horder := h hwrites.1
    rw [if_pos hwrites]
    obtain ⟨hqty, hfilled, hremaining, hstatus⟩ :=
      horder.onConflict db today (db.brokerOrderStates.get? key)
    rw [horder.remainingQty] at hremaining
    have hzero : event.canonicalType ∉ fillTypes →
        (db.answer event today).remainingQuantity = 0 :=
      fun hfill => (answer_quantities hfill db today).2
    have hpos := horder.positive
    have hfpos := horder.filled
    have hrpos := horder.remaining
    have hn := horder.named
    unfold Known at hknown
    change _ = max (knownQty key db) _ at hqty
    change _ = max (knownFilled key db) _ at hfilled
    generalize BrokerOrderState.onConflict _ _ = new at hqty hfilled hremaining hstatus
    constructor
    · intro hnew _ _
      obtain ⟨hwhole, hfull⟩ := hnew new rfl
      rw [hqty, hfilled, hremaining] at hwhole
      rw [hqty, hfilled, hstatus] at hfull
      split
      · next hbare =>
          -- nothing reported: a known order would have to be filled in full
          have hfill := horder.not_fill hbare.1
          have hnot : event.canonicalType ≠ .orderFilled :=
            fun heq => hfill (heq ▸ by decide)
          rw [hbare.1, hbare.2, if_pos rfl, hzero hfill] at hwhole
          rw [hbare.1] at hfull
          rcases hknown with ⟨hnone, hnoneFilled⟩ | hquantity
          · omega
          · exact absurd (hfull (by omega) (by omega)) hnot
      · next hreports =>
          have hmade := horder.sum_of_reports hreports
          by_cases hrest : event.payload.reportedRemaining = 0
          · rw [if_pos hrest] at hwhole
            refine ⟨by omega, by omega, fun _ => ⟨hfull (by omega) (by omega), by omega⟩⟩
          · rw [if_neg hrest] at hwhole
            exact ⟨by omega, by omega, fun hrest' => absurd hrest' hrest⟩
    · intro horderly row hrow
      obtain rfl := Option.some.inj hrow
      have hin := horderly hwrites.1 hwrites.2
      constructor
      · rw [hqty, hfilled, hremaining]
        split at hin
        · next hbare =>
            have hfill := horder.not_fill hbare.1
            rw [hbare.1, hbare.2, if_pos rfl, hzero hfill]
            omega
        · next hreports =>
            obtain ⟨hnames, hlate, hlast⟩ := hin
            have hmade := horder.sum_of_reports hreports
            split
            · next hrest =>
                have := (hlast hrest).2
                omega
            · omega
      · rw [hqty, hfilled, hstatus]
        intro hsome hall
        split at hin
        · next hbare => omega
        · next hreports =>
            obtain ⟨hnames, hlate, hlast⟩ := hin
            have hmade := horder.sum_of_reports hreports
            exact (hlast (by omega)).1
  · rw [if_neg hwrites]
    exact ⟨fun _ hupdates hskip => absurd ⟨hupdates, hskip⟩ hwrites, fun _ => hagrees⟩

theorem known_dispatch {key : String × String} {db : Database} {today : String}
    (h : event.Updates key → event.OfOrder quantity) (hknown : Known key quantity db)
    (hin : InOrder config key quantity db (event, today)) :
    Known key quantity (db.dispatch config event today) := by
  unfold InOrder at hin
  dsimp only at hin
  unfold Known knownQty knownFilled at *
  rw [dispatch_row]
  split
  · next hwrites =>
      have horder := h hwrites.1
      obtain ⟨hqty, hfilled, -⟩ :=
        horder.onConflict db today (db.brokerOrderStates.get? key)
      have hstep := hin hwrites.1 hwrites.2
      have hpos := horder.filled
      have hwhole := horder.positive
      simp only [Option.map_some, Option.getD_some]
      rw [hqty, hfilled]
      split at hstep
      · next hbare => omega
      · exact .inr hstep.1
  · exact hknown

end Columns

/-- The run agrees with the order throughout exactly when its events come in order. -/
theorem rows_agree_iff (config : OrderConsumerConfig) (key : String × String) (quantity : Int)
    (db : Database) (hfresh : db.brokerOrderStates.get? key = none)
    (run : List (CanonicalGatewayEvent × String))
    (horder : ∀ arrival ∈ run, arrival.1.Updates key → arrival.1.OfOrder quantity) :
    (orderConsumer config).Always (RowAgrees key) db run ∧ FilledGrows config key db run ↔
      (orderConsumer config).Guarded (InOrder config key quantity) db run := by
  have hknown : Known key quantity db := by
    unfold Known knownQty knownFilled
    rw [hfresh]
    exact .inl ⟨rfl, rfl⟩
  have hagrees : RowAgrees key db := by
    intro row hrow
    rw [hfresh] at hrow
    cases hrow
  rw [← Machine.always_iff_guarded_of_mem (P := RowAgrees key) (I := Known key quantity)
    (A := fun arrival => arrival.1.Updates key → arrival.1.OfOrder quantity) ?_ ?_ hknown hagrees
    horder]
  · exact and_iff_left (filledQty_grows config key db run)
  · intro db arrival hknown horder _ hin
    exact known_dispatch horder hknown hin
  · intro db arrival hknown horder hagrees
    exact rowAgrees_dispatch_iff horder hknown hagrees

/-! ## Fixed runs -/

def orderEvent (id : String) (canonicalType : CanonicalType) (filled remaining : Int) :
    CanonicalGatewayEvent × String :=
  ({ canonicalType
     payload := { account := "8012345611", code := "005930", orderNo := "0001001", side := "BUY",
                  quantity := 5, filledQuantity := filled, remainingQuantity := remaining }
     sourceEventId := id
     dedupeKey := id }, "2026-06-18")

def fillsInOrder : List (CanonicalGatewayEvent × String) :=
  [orderEvent "a" .orderAccepted 0 5, orderEvent "b" .orderPartiallyFilled 2 3,
    orderEvent "c" .orderPartiallyFilled 4 1, orderEvent "d" .orderFilled 5 0]

theorem rows_agree_in_order :
    (orderConsumer {}).Always (RowAgrees ("8012345611", "0001001")) {} fillsInOrder ∧
      FilledGrows {} ("8012345611", "0001001") {} fillsInOrder :=
  (rows_agree_iff {} _ 5 {} rfl fillsInOrder (by decide +kernel)).mpr (by decide +kernel)

def latePartialFill : List (CanonicalGatewayEvent × String) :=
  [orderEvent "a" .orderAccepted 0 5, orderEvent "c" .orderPartiallyFilled 4 1,
    orderEvent "b" .orderPartiallyFilled 2 3]

def lateAcknowledgement : List (CanonicalGatewayEvent × String) :=
  [orderEvent "d" .orderFilled 5 0, orderEvent "a" .orderAccepted 0 5]

/-- The late fill leaves 4 filled and 3 remaining of 5; the late acknowledgement leaves an order
filled in full as accepted, with 5 remaining. -/
theorem late_events_break_row :
    (∀ arrival ∈ latePartialFill ++ lateAcknowledgement, arrival.1.OfOrder 5) ∧
      ¬ (orderConsumer {}).Always (RowAgrees ("8012345611", "0001001")) {} latePartialFill ∧
      ¬ (orderConsumer {}).Always (RowAgrees ("8012345611", "0001001")) {}
        lateAcknowledgement := by
  decide +kernel

end TradingCore.Orders
