import TradingCore.Transport.ControlQueues

/-!
# The order in which control events are processed

Two events concern the same order if they carry the same command id or the same order number, or
one the command id and the other the order number of that order. `ProcessedInOrder` says of a
schedule: an event that a worker takes finds every event of the same order that was accepted
before it finished.

Events of one queue are processed in order (`putNowait_eq_put`), those of different queues need
not be. So a sequence of events is processed in order under every schedule precisely if any two
events of one order have the same queue (`processed_in_order_iff`). The shard key prefers the
command id, so an event with both ids and one with the order number only have different keys.
-/

namespace TradingCore.Transport

open Base Broker ControlQueues Machine

/-! ## The law -/

namespace ControlEvent

def orderNumbers (event : ControlEvent) : List String :=
  (["order_id", "order_no", "original_order_no", "order_number"].map
    fun key => Text.strip (event.payload.textOr key)).filter (· ≠ "")

/-- Do two events concern the same order? `placed` tells the order numbers of a command. -/
def SameOrder (placed : String → String → Prop) (a b : ControlEvent) : Prop :=
  (a.shardCommandId ≠ "" ∧ a.shardCommandId = b.shardCommandId) ∨
    (∃ number ∈ a.orderNumbers, number ∈ b.orderNumbers) ∨
    (a.shardCommandId ≠ "" ∧ ∃ number ∈ b.orderNumbers, placed a.shardCommandId number) ∨
    (b.shardCommandId ≠ "" ∧ ∃ number ∈ a.orderNumbers, placed b.shardCommandId number)

/-- Do two events go to the same queue? One queue takes every control event if the queues are
not split or priorities are off; else the shard keys decide. -/
def KeptTogether (config : ControlQueueConfig) (a b : ControlEvent) : Prop :=
  config.splitEnabled = false ∨ config.priorityEnabled = false ∨
    Text.crc32 a.shardKey % config.controlWorkerCount =
      Text.crc32 b.shardKey % config.controlWorkerCount

variable {config : ControlQueueConfig} {a b : ControlEvent}

theorem keptTogether_iff :
    KeptTogether config a b ↔ targetQueueName config a = targetQueueName config b := by
  unfold KeptTogether targetQueueName
  rw [priority_eq, priority_eq]
  cases config.splitEnabled with
  | false => simp
  | true =>
    cases config.priorityEnabled with
    | false => simp
    | true => simp [workerIndex]

end ControlEvent

open ControlEvent

/-- In a schedule, an event that a worker takes finds every earlier event of its order done. -/
def ProcessedInOrder (config : ControlQueueConfig) (placed : String → String → Prop)
    (schedule : List ControlAction) : Prop :=
  ∀ before queue rest, schedule = before ++ .take queue :: rest →
    ∀ later, (after config before).takes queue = some later →
      ∀ earlier ∈ (after config before).lanes.accepted, earlier.sequence < later.sequence →
        SameOrder placed earlier.event later.event → earlier ∈ (after config before).lanes.finished

theorem enqueuedEvents_append (first second : List ControlAction) :
    enqueuedEvents (first ++ second) = enqueuedEvents first ++ enqueuedEvents second :=
  List.filterMap_append

/-! ## A queue is first in, first out -/

/-- What holds of the queues after a schedule that has enqueued `events`. -/
structure WellServed (config : ControlQueueConfig) (s : ControlQueues)
    (events : List ControlEvent) : Prop where
  balanced : Lanes.Balanced (laneOf config) s.lanes
  numbered : s.lanes.accepted.Pairwise fun a b => a.sequence < b.sequence
  counted : ∀ item ∈ s.lanes.accepted, item.sequence < s.nextSequence
  recorded : (s.lanes.accepted.map QueuedItem.event).Sublist events
  priority : ∀ item ∈ s.lanes.accepted, item.priority = item.event.priority config

namespace WellServed

variable {config : ControlQueueConfig} {s : ControlQueues} {events : List ControlEvent}

theorem start (config : ControlQueueConfig) : WellServed config {} [] where
  balanced := Lanes.Balanced.start
  numbered := List.Pairwise.nil
  counted := fun _ hitem => by cases hitem
  recorded := List.Sublist.slnil
  priority := fun _ hitem => by cases hitem

theorem orderedInsert_eq {item : QueuedItem} {items : List QueuedItem}
    (hlast : ∀ other ∈ items, ¬ QueuedItem.le item other) :
    items.orderedInsert QueuedItem.le item = items ++ [item] := by
  induction items with
  | nil => rfl
  | cons head tail ih =>
    rw [List.orderedInsert_of_not_le _ _ (hlast head List.mem_cons_self),
      ih fun other hother => hlast other (List.mem_cons_of_mem _ hother)]
    rfl

section

variable (h : WellServed config s events)
include h

theorem putNowait_eq_put (event : ControlEvent) :
    (s.putNowait config (s.queuedItem config event)).lanes =
      s.lanes.put (laneOf config) (s.queuedItem config event) := by
  have hlast : ∀ other ∈ s.lanes.waiting (laneOf config (s.queuedItem config event)),
      ¬ QueuedItem.le (s.queuedItem config event) other := by
    intro other hother hle
    have hmem := h.balanced.mem_accepted_of_waiting hother
    have hpriority := h.priority other hmem
    have hnumber := h.counted other hmem
    rw [priority_eq] at hpriority
    rcases hle with hlt | ⟨-, hle⟩
    · rw [hpriority] at hlt
      exact absurd hlt (by rw [show (s.queuedItem config event).priority =
        event.priority config from rfl, priority_eq]; omega)
    · exact absurd hnumber (Nat.not_lt.mpr hle)
  unfold putNowait
  dsimp only
  rw [orderedInsert_eq hlast]
  rfl

theorem enqueue (event : ControlEvent) :
    WellServed config (s.enqueueCoreWsEventWork config event).1 (events ++ [event]) := by
  have hmore : (s.lanes.accepted.map QueuedItem.event).Sublist (events ++ [event]) :=
    h.recorded.trans (List.sublist_append_left _ _)
  unfold enqueueCoreWsEventWork
  by_cases hasync : config.asyncEnabled = true
  · rw [if_neg (by simpa using hasync)]
    dsimp only
    by_cases hfull : config.queueMaxSize ≤ (s.lanes.waiting (targetQueueName config event)).length
    · rw [if_pos hfull]
      exact
        { h with
          counted := fun item hitem => Nat.lt_succ_of_lt (h.counted item hitem)
          recorded := hmore }
    · rw [if_neg hfull]
      have hlanes := h.putNowait_eq_put event
      refine ⟨?_, ?_, ?_, ?_, ?_⟩
      · show Lanes.Balanced _ (s.putNowait config (s.queuedItem config event)).lanes
        rw [hlanes]
        exact h.balanced.put _
      · show (s.lanes.accepted ++ [s.queuedItem config event]).Pairwise _
        refine List.pairwise_append.mpr ⟨h.numbered, List.pairwise_singleton _ _, ?_⟩
        intro item hitem new hnew
        rw [List.mem_singleton.mp hnew]
        exact h.counted item hitem
      · intro item hitem
        rcases List.mem_append.mp hitem with hold | hnew
        · exact Nat.lt_succ_of_lt (h.counted item hold)
        · rw [List.mem_singleton.mp hnew]
          exact Nat.lt_succ_self _
      · show ((s.lanes.accepted ++ [s.queuedItem config event]).map _).Sublist _
        rw [List.map_append]
        exact h.recorded.append (List.Sublist.refl _)
      · intro item hitem
        rcases List.mem_append.mp hitem with hold | hnew
        · exact h.priority item hold
        · rw [List.mem_singleton.mp hnew]
          rfl
  · rw [if_pos (by simpa using hasync)]
    exact { h with recorded := hmore }

theorem take (queue : QueueName) : WellServed config (s.take queue) events := by
  unfold ControlQueues.take
  cases s.takes queue with
  | none => exact h
  | some item => exact { h with balanced := h.balanced.take queue 1 }

theorem done (queue : QueueName) : WellServed config (s.done queue) events := by
  have haccepted : (s.lanes.finish queue).accepted = s.lanes.accepted := by
    unfold Lanes.finish
    cases s.lanes.active queue with
    | nil => rfl
    | cons item rest => rfl
  refine ⟨h.balanced.finish queue, ?_, ?_, ?_, ?_⟩
  · exact haccepted ▸ h.numbered
  · exact fun item hitem => h.counted item (haccepted ▸ hitem)
  · exact haccepted ▸ h.recorded
  · exact fun item hitem => h.priority item (haccepted ▸ hitem)

end

theorem after (config : ControlQueueConfig) (schedule : List ControlAction) :
    WellServed config (after config schedule) (enqueuedEvents schedule) := by
  induction schedule using List.reverseRecOn with
  | nil => exact start config
  | append_singleton before action ih =>
    rw [enqueuedEvents_append, ControlQueues.after, run_concat]
    cases action with
    | enqueue event => exact ih.enqueue event
    | take queue =>
      rw [show enqueuedEvents [.take queue] = [] from rfl, List.append_nil]
      exact ih.take queue
    | done queue =>
      rw [show enqueuedEvents [.done queue] = [] from rfl, List.append_nil]
      exact ih.done queue

theorem related {P : ControlEvent → ControlEvent → Prop} (h : WellServed config s events)
    (hevents : events.Pairwise P) {earlier later : QueuedItem}
    (hearlier : earlier ∈ s.lanes.accepted) (hlater : later ∈ s.lanes.accepted)
    (hbefore : earlier.sequence < later.sequence) : P earlier.event later.event := by
  have hpairs : s.lanes.accepted.Pairwise fun a b => P a.event b.event :=
    List.pairwise_map.mp (hevents.sublist h.recorded)
  have hall : ∀ ⦃a⦄, a ∈ s.lanes.accepted → ∀ ⦃b⦄, b ∈ s.lanes.accepted →
      a.sequence < b.sequence → P a.event b.event := by
    refine List.Pairwise.forall_of_forall_of_flip ?_ (hpairs.imp ?_) (h.numbered.imp ?_)
    · exact fun item _ hlt => absurd hlt (Nat.lt_irrefl _)
    · exact fun hp _ => hp
    · exact fun hlt hgt => absurd hgt (Nat.lt_asymm hlt)
  exact hall hearlier hlater hbefore

end WellServed

variable {config : ControlQueueConfig}

theorem processedInOrder_of_pairwise {placed : String → String → Prop}
    {schedule : List ControlAction} (hkept : (enqueuedEvents schedule).Pairwise fun a b =>
      SameOrder placed a b → KeptTogether config a b) :
    ProcessedInOrder config placed schedule := by
  intro before queue rest hschedule later htakes earlier hearlier hbefore hsame
  have hserved := WellServed.after config before
  have hprefix : (enqueuedEvents before).Pairwise fun a b =>
      SameOrder placed a b → KeptTogether config a b := by
    refine hkept.sublist ?_
    rw [hschedule, enqueuedEvents_append]
    exact List.sublist_append_left _ _
  unfold takes at htakes
  by_cases hidle : (after config before).lanes.active queue = []
  · rw [if_pos hidle] at htakes
    obtain ⟨tail, hwaiting⟩ := List.head?_eq_some_iff.mp htakes
    have hlater : later ∈ (after config before).lanes.waiting queue := by
      rw [hwaiting]
      exact List.mem_cons_self
    have hkeptTogether := hserved.related hprefix hearlier
      (hserved.balanced.mem_accepted_of_waiting hlater) hbefore hsame
    have hlane : laneOf config earlier = queue :=
      (keptTogether_iff.mp hkeptTogether).trans (hserved.balanced.laneOf_waiting hlater)
    exact hserved.balanced.finished_of_before hserved.numbered Nat.lt_asymm hidle hwaiting
      hearlier hlane hbefore
  · rw [if_neg hidle] at htakes
    cases htakes

theorem accepted_of_disabled (hasync : config.asyncEnabled = false)
    (schedule : List ControlAction) : (after config schedule).lanes.accepted = [] := by
  induction schedule using List.reverseRecOn with
  | nil => rfl
  | append_singleton before action ih =>
    rw [after, run_concat]
    cases action with
    | enqueue event =>
      show (enqueueCoreWsEventWork config (after config before) event).1.lanes.accepted = []
      unfold enqueueCoreWsEventWork
      rw [if_pos (by simp [hasync])]
      exact ih
    | take queue =>
      show ((after config before).take queue).lanes.accepted = []
      unfold take
      split <;> exact ih
    | done queue =>
      show ((after config before).lanes.finish queue).accepted = []
      unfold Lanes.finish
      split <;> exact ih

/-! ## A schedule that leaves one worker behind -/

/-- All queues are idle, but for the one whose worker holds `held`. -/
structure Holding (config : ControlQueueConfig) (s : ControlQueues) (held : Option QueuedItem) :
    Prop where
  others : ∀ queue, held.map (laneOf config) ≠ some queue →
    s.lanes.active queue = [] ∧ s.lanes.waiting queue = []
  own : ∀ item, held = some item →
    s.lanes.active (laneOf config item) = [item] ∧ item ∈ s.lanes.accepted

/-- What the event loop does with an event: its worker serves it, unless it is busy. -/
def serve (config : ControlQueueConfig) (held : Option QueuedItem) (event : ControlEvent) :
    List ControlAction :=
  if held.map (laneOf config) = some (targetQueueName config event) then [.enqueue event]
  else
    [.enqueue event, .take (targetQueueName config event), .done (targetQueueName config event)]

theorem enqueuedEvents_serve (config : ControlQueueConfig) (held : Option QueuedItem)
    (events : List ControlEvent) :
    enqueuedEvents (events.flatMap (serve config held)) = events := by
  induction events with
  | nil => rfl
  | cons event rest ih =>
    rw [List.flatMap_cons, enqueuedEvents_append, ih, serve]
    split <;> rfl

namespace Holding

variable {config : ControlQueueConfig} {s : ControlQueues} {held : Option QueuedItem}
  {event : ControlEvent}

theorem start (config : ControlQueueConfig) : Holding config {} none where
  others := fun _ _ => ⟨rfl, rfl⟩
  own := fun _ hitem => by cases hitem

theorem enqueue_empty (hasync : config.asyncEnabled = true)
    (hempty : s.lanes.waiting (targetQueueName config event) = []) :
    (s.enqueueCoreWsEventWork config event).1 =
      { lanes := s.lanes.put (laneOf config) (s.queuedItem config event)
        nextSequence := s.nextSequence + 1 } := by
  have hroom : ¬ config.queueMaxSize ≤ (s.lanes.waiting (targetQueueName config event)).length := by
    rw [hempty]
    exact Nat.not_le.mpr config.queueMaxSize_pos
  have hlane : s.lanes.waiting (laneOf config (s.queuedItem config event)) = [] := hempty
  unfold enqueueCoreWsEventWork
  rw [if_neg (by simp [hasync])]
  dsimp only
  rw [if_neg hroom]
  unfold putNowait
  dsimp only
  rw [hlane]
  unfold Lanes.put
  rw [hlane]
  rfl

theorem takes_put {item : QueuedItem} (hidle : s.lanes.active (laneOf config item) = [])
    (hempty : s.lanes.waiting (laneOf config item) = []) (next : Nat) :
    takes { lanes := s.lanes.put (laneOf config) item, nextSequence := next }
      (laneOf config item) = some item := by
  unfold takes
  rw [show (s.lanes.put (laneOf config) item).active = s.lanes.active from rfl, if_pos hidle]
  show List.head? (Function.update s.lanes.waiting _ _ _) = _
  rw [Function.update_self, hempty]
  rfl

section

variable (h : Holding config s held)
include h

theorem enqueue_behind (hasync : config.asyncEnabled = true)
    (hqueue : held.map (laneOf config) = some (targetQueueName config event)) :
    Holding config (s.enqueueCoreWsEventWork config event).1 held := by
  unfold enqueueCoreWsEventWork
  rw [if_neg (by simp [hasync])]
  dsimp only
  split
  · exact ⟨h.others, h.own⟩
  · constructor
    · intro queue hother
      have hne : queue ≠ targetQueueName config event := fun heq => hother (heq ▸ hqueue)
      refine ⟨(h.others queue hother).1, ?_⟩
      show Function.update s.lanes.waiting (targetQueueName config event) _ queue = []
      rw [Function.update_of_ne hne]
      exact (h.others queue hother).2
    · intro item hitem
      exact ⟨(h.own item hitem).1, List.mem_append_left _ (h.own item hitem).2⟩

theorem enqueue_take (hasync : config.asyncEnabled = true)
    (hqueue : held.map (laneOf config) ≠ some (targetQueueName config event)) :
    let s' := (s.enqueueCoreWsEventWork config event).1.take (targetQueueName config event)
    s'.lanes.active = Function.update s.lanes.active (targetQueueName config event)
        [s.queuedItem config event] ∧
      s'.lanes.waiting = s.lanes.waiting ∧
      s'.lanes.accepted = s.lanes.accepted ++ [s.queuedItem config event] := by
  obtain ⟨hidle, hempty⟩ := h.others _ hqueue
  have hlane : laneOf config (s.queuedItem config event) = targetQueueName config event := rfl
  rw [enqueue_empty hasync hempty]
  unfold take
  rw [← hlane, takes_put (by rw [hlane, hidle]) (by rw [hlane, hempty])]
  refine ⟨?_, ?_, rfl⟩
  · show Function.update s.lanes.active _ (s.lanes.active _ ++ List.take 1
      (Function.update s.lanes.waiting _ _ _)) = _
    rw [Function.update_self, hlane, hidle, hempty]
    rfl
  · show Function.update (Function.update s.lanes.waiting _ _) _ (List.drop 1
      (Function.update s.lanes.waiting _ _ _)) = _
    rw [Function.update_self, Function.update_idem, hlane, hempty]
    exact Function.update_eq_self_iff.mpr hempty.symm

theorem serve_kept (hasync : config.asyncEnabled = true) :
    Holding config ((machine config).run s (serve config held event)) held := by
  unfold serve
  by_cases hqueue : held.map (laneOf config) = some (targetQueueName config event)
  · rw [if_pos hqueue]
    exact h.enqueue_behind hasync hqueue
  · rw [if_neg hqueue]
    obtain ⟨hactive, hwaiting, haccepted⟩ := h.enqueue_take hasync hqueue
    generalize hs' : (s.enqueueCoreWsEventWork config event).1.take
      (targetQueueName config event) = s' at hactive hwaiting haccepted
    have hrun : (machine config).run s [.enqueue event, .take (targetQueueName config event),
        .done (targetQueueName config event)] = s'.done (targetQueueName config event) := by
      rw [← hs']
      rfl
    have hdone : (s'.lanes.finish (targetQueueName config event)).active = s.lanes.active := by
      unfold Lanes.finish
      rw [hactive, Function.update_self]
      show Function.update (Function.update _ _ _) _ _ = _
      rw [Function.update_idem]
      exact Function.update_eq_self_iff.mpr (h.others _ hqueue).1.symm
    have hrest : (s'.lanes.finish (targetQueueName config event)).waiting = s'.lanes.waiting ∧
        (s'.lanes.finish (targetQueueName config event)).accepted = s'.lanes.accepted := by
      unfold Lanes.finish
      split <;> exact ⟨rfl, rfl⟩
    rw [hrun]
    constructor
    · intro queue hother
      show (s'.lanes.finish _).active queue = [] ∧ (s'.lanes.finish _).waiting queue = []
      rw [hdone, hrest.1, hwaiting]
      exact h.others queue hother
    · intro item hitem
      show (s'.lanes.finish _).active _ = [item] ∧ item ∈ (s'.lanes.finish _).accepted
      rw [hdone, hrest.2, haccepted]
      exact ⟨(h.own item hitem).1, List.mem_append_left _ (h.own item hitem).2⟩

theorem serve_all (hasync : config.asyncEnabled = true) (events : List ControlEvent) :
    Holding config ((machine config).run s (events.flatMap (serve config held))) held := by
  induction events generalizing s with
  | nil => exact h
  | cons event rest ih =>
    rw [List.flatMap_cons, run_append]
    exact ih (h.serve_kept hasync)

end

theorem hold (h : Holding config s none) (hasync : config.asyncEnabled = true) :
    Holding config ((s.enqueueCoreWsEventWork config event).1.take (targetQueueName config event))
      (some (s.queuedItem config event)) := by
  have hnone : (none : Option QueuedItem).map (laneOf config) ≠
      some (targetQueueName config event) := fun heq => by cases heq
  obtain ⟨hactive, hwaiting, haccepted⟩ := h.enqueue_take hasync hnone
  constructor
  · intro queue hother
    have hne : queue ≠ targetQueueName config event := fun heq => hother (by rw [heq]; rfl)
    rw [hactive, hwaiting, Function.update_of_ne hne]
    exact h.others queue fun heq => by cases heq
  · intro item hitem
    cases hitem
    rw [hactive, haccepted]
    exact ⟨Function.update_self .., List.mem_append_right _ (List.mem_singleton_self _)⟩

end Holding

/-- Two events of different queues: while the worker of the first is busy, the second is taken. -/
theorem overtaken {config : ControlQueueConfig} {placed : String → String → Prop}
    (hasync : config.asyncEnabled = true) (front mid : List ControlEvent) {a b : ControlEvent}
    (hsame : SameOrder placed a b) (hapart : ¬ KeptTogether config a b)
    (rest : List ControlAction) :
    ¬ ProcessedInOrder config placed
      ((front.flatMap (serve config none) ++
        [.enqueue a, .take (targetQueueName config a)] ++
        mid.flatMap (serve config (some ((after config (front.flatMap (serve config none))).queuedItem
          config a))) ++ [.enqueue b]) ++ .take (targetQueueName config b) :: rest) := by
  intro hordered
  generalize hfront : front.flatMap (serve config none) = opening at hordered
  generalize hitem : (after config opening).queuedItem config a = item at hordered
  generalize hmid : mid.flatMap (serve config (some item)) = middle at hordered
  have hevent : item.event = a := by rw [← hitem]; rfl
  have hqueue : laneOf config item = targetQueueName config a := by rw [laneOf, hevent]
  -- the first item is held, and all other queues are idle
  have hopening : Holding config (after config opening) none := by
    rw [← hfront]
    exact (Holding.start config).serve_all hasync front
  have hheld : Holding config (after config (opening ++
      [.enqueue a, .take (targetQueueName config a)])) (some item) := by
    rw [after, run_append, ← hitem]
    exact hopening.hold hasync
  generalize hbefore : opening ++ [.enqueue a, .take (targetQueueName config a)] ++ middle =
    before at hordered
  have hlast : Holding config (after config before) (some item) := by
    rw [← hbefore, after, run_append, ← hmid]
    exact hheld.serve_all hasync mid
  have hidle := hlast.others (targetQueueName config b) fun heq =>
    hapart (keptTogether_iff.mpr (hqueue.symm.trans (Option.some.inj heq)))
  -- the second event finds its queue idle
  have hafter : after config (before ++ [.enqueue b]) =
      { lanes := (after config before).lanes.put (laneOf config)
          ((after config before).queuedItem config b)
        nextSequence := (after config before).nextSequence + 1 } := by
    rw [after, run_concat]
    exact Holding.enqueue_empty hasync hidle.2
  have htakes : (after config (before ++ [.enqueue b])).takes (targetQueueName config b) =
      some ((after config before).queuedItem config b) := by
    have hlane : laneOf config ((after config before).queuedItem config b) =
        targetQueueName config b := rfl
    rw [← hlane] at hidle ⊢
    rw [hafter]
    exact Holding.takes_put hidle.1 hidle.2 _
  have hserved := WellServed.after config before
  have haccepted := (hlast.own item rfl).2
  have hfinished := hordered _ _ _ rfl _ htakes item
    (by rw [hafter]; exact List.mem_append_left _ haccepted) (hserved.counted item haccepted)
    (hevent ▸ hsame)
  rw [hafter] at hfinished
  have hnodup : (after config before).lanes.accepted.Nodup :=
    hserved.numbered.imp fun hlt heq => absurd (heq ▸ hlt) (Nat.lt_irrefl _)
  exact hserved.balanced.not_finished_of_active hnodup
    ((hlast.own item rfl).1 ▸ List.mem_singleton_self item) hfinished

/-! ## Exactly the sequences that are processed in order -/

/-- A sequence of control events is processed in order under every schedule precisely if any two
events of one order have the same queue. -/
theorem processed_in_order_iff (config : ControlQueueConfig) (placed : String → String → Prop)
    (events : List ControlEvent) :
    (∀ schedule, enqueuedEvents schedule = events → ProcessedInOrder config placed schedule) ↔
      config.asyncEnabled = false ∨
        events.Pairwise fun a b => SameOrder placed a b → KeptTogether config a b := by
  constructor
  · intro hall
    by_cases hasync : config.asyncEnabled = true
    · right
      rw [List.pairwise_iff_forall_sublist]
      intro a b hsub hsame
      by_contra hapart
      obtain ⟨front, behind, hevents, ha, hb⟩ := List.cons_sublist_iff.mp hsub
      obtain ⟨before, mid, hfront⟩ := List.append_of_mem ha
      obtain ⟨mid', last, hbehind⟩ := List.append_of_mem (List.singleton_sublist.mp hb)
      refine overtaken hasync before (mid ++ mid') hsame hapart (last.map .enqueue) (hall _ ?_)
      have hlast : enqueuedEvents (last.map .enqueue) = last := by
        rw [enqueuedEvents, List.filterMap_map]
        exact List.filterMap_some
      rw [hevents, hfront, hbehind, enqueuedEvents_append, enqueuedEvents_append,
        enqueuedEvents_append, enqueuedEvents_append, enqueuedEvents_serve, enqueuedEvents_serve]
      show before ++ [a] ++ (mid ++ mid') ++ [b] ++ enqueuedEvents (last.map .enqueue) = _
      rw [hlast]
      simp
    · exact Or.inl (by simpa using hasync)
  · rintro (hasync | hkept) schedule rfl
    · intro before queue rest _ later _ earlier hearlier
      rw [accepted_of_disabled hasync] at hearlier
      cases hearlier
    · exact processedInOrder_of_pairwise hkept

/-! ## Fixed runs -/

def acknowledgedOrder : ControlEvent where
  type := "command_ack"
  payload := Dict.ofList [("command_id", .str "cmd-1"), ("order_no", .str "0000101")]
  eventId := "evt-1"
  commandId := "cmd-1"
  isControl := by decide

def filledOrder : ControlEvent where
  type := "execution_event"
  payload := Dict.ofList [("order_no", .str "0000101"), ("code", .str "005930")]
  eventId := "evt-2"
  isControl := by decide

/-- With the default settings the fill is taken while the answer still waits. -/
theorem fill_overtakes_answer :
    ¬ ProcessedInOrder {} (fun _ _ => False)
      [.enqueue acknowledgedOrder, .enqueue filledOrder, .take (.control 0)] := by
  intro hordered
  have htakes : (after {} [.enqueue acknowledgedOrder, .enqueue filledOrder]).takes (.control 0) =
      some ⟨0, 1, filledOrder⟩ := by decide +kernel
  have haccepted : ⟨0, 0, acknowledgedOrder⟩ ∈
      (after {} [.enqueue acknowledgedOrder, .enqueue filledOrder]).lanes.accepted := by
    decide +kernel
  have hunfinished : ⟨0, 0, acknowledgedOrder⟩ ∉
      (after {} [.enqueue acknowledgedOrder, .enqueue filledOrder]).lanes.finished := by
    decide +kernel
  have hsame : SameOrder (fun _ _ => False) acknowledgedOrder filledOrder :=
    Or.inr (Or.inl ⟨"0000101", by decide +kernel, by decide +kernel⟩)
  exact hunfinished (hordered _ (.control 0) [] rfl _ htakes _ haccepted Nat.zero_lt_one hsame)

end TradingCore.Transport
