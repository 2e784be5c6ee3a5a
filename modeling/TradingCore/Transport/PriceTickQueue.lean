import TradingCore.Transport.ControlQueues

/-!
# The price ticks that Core coalesces

A price tick that finds none of its key in the queue is put there; a later one only replaces what
the worker will read under that key (`_enqueue_core_ws_price_tick_work` and
`_resolve_core_ws_event_work_item`, `trading_app/api.py`). An accepted tick that is not processed
was superseded by a later one of its key.

The queue is the one that price ticks are put into, with the other events that share it. The
counters of the worker state are left out, as are traces and metadata.
-/

namespace TradingCore.Transport

open Base Broker List

/-! ## The queue and its worker -/

/-- `_core_ws_price_tick_coalesce_key`. -/
def priceTickCoalesceKey (event : GatewayEvent) : String :=
  if event.type ≠ "price_tick" then ""
  else
    let code := Text.strip
      (((event.payload.value "code").or (event.payload.value "stock_code")).or (.str "")).text
    if code = "" then ""
    else
      let instrumentType := Text.strip
        ((event.payload.value "instrument_type").or (.str "stock")).text
      (if instrumentType = "" then "stock" else instrumentType) ++ ":" ++ code

/-- `_CoreWsEventWorkItem`. -/
structure EventWorkItem where
  event : GatewayEvent
  coalesceKey : String := ""

structure QueuedWork where
  priority : Int
  sequence : Nat
  workItem : EventWorkItem

def QueuedWork.le (a b : QueuedWork) : Prop :=
  a.priority < b.priority ∨ (a.priority = b.priority ∧ a.sequence ≤ b.sequence)
deriving Decidable

/-- The queue of the ticks and what is read under a key, with the accepted and the processed
events. -/
structure PriceTickQueue where
  queue : List QueuedWork := []
  latestByKey : String → Option EventWorkItem := fun _ => none
  nextSequence : Nat := 0
  accepted : List GatewayEvent := []
  processed : List GatewayEvent := []

/-- What the event loop does. -/
inductive TickAction
  | enqueue (event : GatewayEvent)
  | work

namespace PriceTickQueue

variable (config : ControlQueueConfig) (s : PriceTickQueue)

def eventPriority (event : GatewayEvent) : Int :=
  if ¬ config.priorityEnabled then 10
  else if event.type ∈ controlMessageTypes then 0
  else if event.type = "price_tick" then 50
  else 10

def accept (event : GatewayEvent) : PriceTickQueue :=
  { s with accepted := s.accepted ++ [event] }

/-- `queue.put_nowait` of an item: the counter moves on, whether or not there is room. -/
def putNowait (item : EventWorkItem) : Option PriceTickQueue :=
  if config.queueMaxSize ≤ s.queue.length then none
  else
    some { s.accept item.event with
      queue := s.queue.orderedInsert QueuedWork.le
        ⟨eventPriority config item.event, s.nextSequence, item⟩ }

/-- `_enqueue_core_ws_price_tick_work`. -/
def enqueuePriceTickWork (event : GatewayEvent) (coalesceKey : String) : PriceTickQueue :=
  let item := ⟨event, coalesceKey⟩
  if (s.latestByKey coalesceKey).isSome then
    { s.accept event with latestByKey := Function.update s.latestByKey coalesceKey (some item) }
  else
    let counted := { s with nextSequence := s.nextSequence + 1 }
    match s.putNowait config item with
    | none => counted
    | some put =>
        { put with
          nextSequence := s.nextSequence + 1
          latestByKey := Function.update s.latestByKey coalesceKey (some item) }

/-- `_enqueue_core_ws_event_work`, with the coalescing on. What goes to a control queue does not
come here. -/
def enqueueCoreWsEventWork (event : GatewayEvent) : PriceTickQueue :=
  if ¬ config.asyncEnabled then s
  else if config.splitEnabled ∧ eventPriority config event ≤ 0 then s
  else if priceTickCoalesceKey event ≠ "" then
    s.enqueuePriceTickWork config event (priceTickCoalesceKey event)
  else
    { (s.putNowait config ⟨event, ""⟩).getD s with nextSequence := s.nextSequence + 1 }

/-- `_resolve_core_ws_event_work_item`. -/
def resolve (item : EventWorkItem) : PriceTickQueue × EventWorkItem :=
  if item.coalesceKey = "" then (s, item)
  else
    ({ s with latestByKey := Function.update s.latestByKey item.coalesceKey none },
      (s.latestByKey item.coalesceKey).getD item)

def work : PriceTickQueue :=
  match s.queue with
  | [] => s
  | queued :: rest =>
      let resolved := { s with queue := rest }.resolve queued.workItem
      { resolved.1 with processed := s.processed ++ [resolved.2.event] }

def machine : Machine PriceTickQueue TickAction Unit where
  step s
    | .enqueue event => (s.enqueueCoreWsEventWork config event, ())
    | .work => (s.work, ())

def waiting (key : String) : Nat := s.queue.countP (·.workItem.coalesceKey = key)

def ofKey (events : List GatewayEvent) (key : String) : List GatewayEvent :=
  events.filter (priceTickCoalesceKey · = key)

/-- Only superseded ticks of the key are lost. -/
structure LosesOnlySuperseded (key : String) : Prop where
  pending : s.waiting key = if (s.latestByKey key).isSome then 1 else 0
  inOrder : (ofKey s.processed key).Sublist (ofKey s.accepted key)
  last : s.queue = [] → (ofKey s.processed key).getLast? = (ofKey s.accepted key).getLast?

/-! ## What every action keeps -/

/-- The processed ticks of the key are among those before the one that is pending. -/
structure SoundAt (key : String) : Prop where
  pending : s.waiting key = if (s.latestByKey key).isSome then 1 else 0
  trail : ∃ earlier,
    ofKey s.accepted key = earlier ++ (s.latestByKey key).toList.map (·.event) ∧
      (ofKey s.processed key).Sublist earlier ∧
      (s.latestByKey key = none → (ofKey s.processed key).getLast? = earlier.getLast?)

structure Sound : Prop where
  keyed : ∀ queued ∈ s.queue, queued.workItem.coalesceKey ≠ "" ∨
    priceTickCoalesceKey queued.workItem.event = ""
  sound : ∀ key ≠ "", s.SoundAt key

variable {config s} {key : String} {event : GatewayEvent}

theorem ofKey_append (events : List GatewayEvent) (event : GatewayEvent) (key : String) :
    ofKey (events ++ [event]) key =
      ofKey events key ++ if priceTickCoalesceKey event = key then [event] else [] := by
  unfold ofKey
  rw [filter_append, filter_singleton]
  simp

theorem SoundAt.trail_accept (h : s.SoundAt key) (hkey : priceTickCoalesceKey event = key) :
    ofKey (s.accepted ++ [event]) key = ofKey s.accepted key ++ [event] ∧
      (ofKey s.processed key).Sublist (ofKey s.accepted key) := by
  obtain ⟨earlier, haccepted, hsublist, -⟩ := h.trail
  rw [ofKey_append, if_pos hkey]
  refine ⟨rfl, hsublist.trans ?_⟩
  rw [haccepted]
  exact sublist_append_left _ _

theorem putNowait_eq_some {item : EventWorkItem} {put : PriceTickQueue}
    (h : s.putNowait config item = some put) :
    put.latestByKey = s.latestByKey ∧ put.accepted = s.accepted ++ [item.event] ∧
      put.processed = s.processed ∧
      (∀ queued ∈ put.queue, queued ∈ s.queue ∨ queued.workItem = item) ∧
      ∀ key, put.waiting key = s.waiting key + if item.coalesceKey = key then 1 else 0 := by
  unfold putNowait at h
  split at h
  · cases h
  · cases h
    refine ⟨rfl, rfl, rfl, ?_, ?_⟩
    · intro queued hqueued
      rcases (mem_orderedInsert _).mp hqueued with rfl | hold
      · exact .inr rfl
      · exact .inl hold
    · intro key
      unfold waiting
      dsimp only
      rw [(perm_orderedInsert _ _ _).countP_eq, countP_cons]
      simp

theorem sound_enqueuePriceTickWork (h : s.Sound) (hkey : priceTickCoalesceKey event ≠ "") :
    (s.enqueuePriceTickWork config event (priceTickCoalesceKey event)).Sound := by
  have hown := h.sound _ hkey
  obtain ⟨haccepted, hsublist⟩ := hown.trail_accept rfl
  have hother : ∀ {key}, key ≠ priceTickCoalesceKey event →
      ofKey (s.accepted ++ [event]) key = ofKey s.accepted key := by
    intro key hne
    rw [ofKey_append, if_neg (Ne.symm hne), append_nil]
  unfold enqueuePriceTickWork
  dsimp only
  split
  · rename_i hpending
    refine ⟨h.keyed, fun key hne => ?_⟩
    by_cases hsame : key = priceTickCoalesceKey event
    · subst hsame
      refine ⟨?_, ofKey s.accepted (priceTickCoalesceKey event), ?_⟩
      · simpa [hpending, waiting, accept] using hown.pending
      · simpa [accept, haccepted] using hsublist
    · refine ⟨?_, ?_⟩
      · simpa [hsame, waiting, accept] using (h.sound key hne).pending
      · simpa [hsame, accept, hother hsame] using (h.sound key hne).trail
  · rename_i hnone
    split
    · exact ⟨h.keyed, fun key hne => ⟨(h.sound key hne).pending, (h.sound key hne).trail⟩⟩
    · rename_i put hput
      obtain ⟨-, hlog, hprocessed, hmem, hwaiting⟩ := putNowait_eq_some hput
      refine ⟨?_, fun key hne => ?_⟩
      · intro queued hqueued
        rcases hmem queued hqueued with hold | hitem
        · exact h.keyed queued hold
        · exact .inl (by rw [hitem]; exact hkey)
      · have hcount := hwaiting key
        rw [(h.sound key hne).pending] at hcount
        by_cases hsame : key = priceTickCoalesceKey event
        · subst hsame
          refine ⟨?_, ofKey s.accepted (priceTickCoalesceKey event), ?_⟩
          · simpa [hnone, waiting] using hcount
          · simpa [hlog, hprocessed, haccepted] using hsublist
        · rw [if_neg (Ne.symm hsame)] at hcount
          refine ⟨?_, ?_⟩
          · simpa [hsame, waiting] using hcount
          · simpa [hsame, hlog, hprocessed, hother hsame] using (h.sound key hne).trail

theorem sound_enqueue (h : s.Sound) (event : GatewayEvent) :
    (s.enqueueCoreWsEventWork config event).Sound := by
  unfold enqueueCoreWsEventWork
  split
  · exact h
  · split
    · exact h
    · split
      · rename_i hkey
        exact sound_enqueuePriceTickWork h hkey
      · rename_i hkey
        cases hput : s.putNowait config ⟨event, ""⟩ with
        | none => exact ⟨h.keyed, fun key hne => ⟨(h.sound key hne).pending, (h.sound key hne).trail⟩⟩
        | some put =>
          obtain ⟨hlatest, hlog, hprocessed, hmem, hwaiting⟩ := putNowait_eq_some hput
          refine ⟨?_, fun key hne => ?_⟩
          · intro queued hqueued
            rcases hmem queued hqueued with hold | hitem
            · exact h.keyed queued hold
            · exact .inr (by rw [hitem]; exact not_not.mp hkey)
          · have hcount := hwaiting key
            rw [if_neg (Ne.symm hne), (h.sound key hne).pending] at hcount
            refine ⟨?_, ?_⟩
            · simpa [waiting, hlatest] using hcount
            · have hunkeyed : ¬ priceTickCoalesceKey event = key := by
                rw [not_not.mp hkey]
                exact Ne.symm hne
              simpa [hlatest, hlog, hprocessed, ofKey_append, hunkeyed]
                using (h.sound key hne).trail

theorem sound_work (h : s.Sound) : s.work.Sound := by
  unfold work
  split
  · exact h
  · rename_i queued rest hqueue
    have hwaiting : ∀ key, s.waiting key =
        rest.countP (·.workItem.coalesceKey = key) +
          if queued.workItem.coalesceKey = key then 1 else 0 := by
      intro key
      unfold waiting
      rw [hqueue, countP_cons]
      simp
    have hkeyed : ∀ other ∈ rest, other.workItem.coalesceKey ≠ "" ∨
        priceTickCoalesceKey other.workItem.event = "" :=
      fun other hother => h.keyed other (hqueue ▸ mem_cons_of_mem _ hother)
    unfold resolve
    dsimp only
    split
    · rename_i hempty
      refine ⟨hkeyed, fun key hne => ?_⟩
      have hunkeyed : priceTickCoalesceKey queued.workItem.event ≠ key := by
        rcases h.keyed queued (hqueue ▸ mem_cons_self) with hitem | hitem
        · exact absurd hempty hitem
        · rw [hitem]
          exact Ne.symm hne
      have hcount := hwaiting key
      rw [hempty, if_neg (Ne.symm hne), (h.sound key hne).pending] at hcount
      refine ⟨hcount.symm, ?_⟩
      simpa [ofKey_append, hunkeyed] using (h.sound key hne).trail
    · -- what is processed is the pending tick of the item's key
      rename_i hitem
      have hresolved : ∃ latest, s.latestByKey queued.workItem.coalesceKey = some latest ∧
          priceTickCoalesceKey latest.event = queued.workItem.coalesceKey := by
        obtain ⟨earlier, haccepted, -, -⟩ := (h.sound _ hitem).trail
        have hcount := hwaiting queued.workItem.coalesceKey
        rw [(h.sound _ hitem).pending, if_pos rfl] at hcount
        cases hlatest : s.latestByKey queued.workItem.coalesceKey with
        | none => simp [hlatest] at hcount
        | some latest =>
          have hmem : latest.event ∈ ofKey s.accepted queued.workItem.coalesceKey := by
            rw [haccepted, hlatest]
            simp
          exact ⟨latest, rfl, of_decide_eq_true (mem_filter.mp hmem).2⟩
      obtain ⟨latest, hlatest, hkey⟩ := hresolved
      refine ⟨hkeyed, fun key hne => ?_⟩
      have hcount := hwaiting key
      rw [(h.sound key hne).pending] at hcount
      obtain ⟨earlier, haccepted, hsublist, hlast⟩ := (h.sound key hne).trail
      by_cases hsame : key = queued.workItem.coalesceKey
      · subst hsame
        rw [hlatest] at haccepted hcount
        refine ⟨?_, earlier ++ [latest.event], ?_⟩
        · simpa [waiting] using hcount
        · simpa [ofKey_append, hlatest, hkey, haccepted] using hsublist
      · rw [if_neg (Ne.symm hsame)] at hcount
        have hother : ¬ queued.workItem.coalesceKey = key := Ne.symm hsame
        refine ⟨?_, earlier, ?_⟩
        · simpa [waiting, hsame] using hcount.symm
        · simpa [ofKey_append, hlatest, hkey, hother, hsame] using ⟨haccepted, hsublist, hlast⟩

/-! ## Schedules -/

/-- For all settings and every schedule of enqueues and of steps of the worker: only superseded
ticks are lost. -/
theorem loses_only_superseded (config : ControlQueueConfig) (schedule : List TickAction) :
    (machine config).Always (fun s => ∀ key ≠ "", s.LosesOnlySuperseded key) {} schedule := by
  have hstep : ∀ s action, Sound s → True → Sound ((machine config).next s action) := by
    intro s action hsound _
    cases action with
    | enqueue event => exact sound_enqueue hsound event
    | work => exact sound_work hsound
  have hstart : Sound {} :=
    ⟨by simp, fun key _ => ⟨rfl, [], rfl, Sublist.refl _, fun _ => rfl⟩⟩
  refine (Machine.always_of_guarded hstep hstart ?_).imp ?_
  · exact Machine.guarded_iff_prefix.mpr fun _ _ _ => trivial
  · intro s hsound key hne
    obtain ⟨earlier, haccepted, hsublist, hlast⟩ := (hsound.sound key hne).trail
    refine ⟨(hsound.sound key hne).pending, ?_, ?_⟩
    · rw [haccepted]
      exact hsublist.trans (sublist_append_left _ _)
    · intro hempty
      have hnone : s.latestByKey key = none := by
        have hpending := (hsound.sound key hne).pending
        cases hlatest : s.latestByKey key with
        | none => rfl
        | some latest => simp [waiting, hempty, hlatest] at hpending
      rw [hlast hnone, haccepted, hnone]
      simp

end PriceTickQueue

end TradingCore.Transport
