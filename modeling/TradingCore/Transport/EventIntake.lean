import TradingCore.Orders.GatewayPaths

/-!
# The intake of Gateway events

Where Core takes an event in: `_process_gateway_event_persist` for a request, and
`_process_condition_event_batch_in_worker` with `_process_condition_event_with_db` for a batch
of condition events (`trading_app/api.py`). Both ask the duplicate filter,
`GatewayStateStore.record_event` (`trading/broker/gateway_state.py`), which puts the id among the
seen ones before anything is persisted.

The persistence step is any procedure that commits its writes one after another, on any database.
An event has its effect when all of them are committed. A delivery can raise at any point. What
`record_event` notes of the connection and of prices is left out.
-/

namespace TradingCore.Transport

open Base Option List Orders Delivery

/-! ## The filter -/

/-- A Gateway event, as far as its intake reads it. -/
structure IntakeEvent (β : Type) where
  eventId : String
  type : String
  body : β

/-- The filter and the database behind it. `persisted` lists the ids of the events of which
every write was committed; no function reads it. -/
structure EventIntake (σ : Type) where
  seenEventIds : List String := []
  receivedEventCount : Nat := 0
  dedupedEventCount : Nat := 0
  db : σ
  persisted : List String := []

namespace EventIntake

variable {σ α β : Type}

/-- `record_event`: is the event let through? -/
def recordEvent (s : EventIntake σ) (eventId : String) : EventIntake σ × Bool :=
  if eventId ∈ s.seenEventIds then
    ({ s with dedupedEventCount := s.dedupedEventCount + 1 }, false)
  else
    ({ s with
      seenEventIds := eventId :: s.seenEventIds
      receivedEventCount := s.receivedEventCount + 1 }, true)

end EventIntake

/-! ## Deliveries -/

/-- Where a delivery raises. -/
inductive Stop
  /-- in `record_event`, once the id is among the seen ones -/
  | recording
  /-- in `open_database` -/
  | opening
  /-- in the persistence step, after so many of its commits; one at least is missing -/
  | persisting (commits : Nat)
  /-- after the persistence step, or in the sample that is saved for a duplicate -/
  | closing
deriving DecidableEq

/-- The two entry points. -/
inductive Entry
  | request
  | worker
deriving DecidableEq

structure Delivery (β : Type) where
  event : IntakeEvent β
  entry : Entry
  stop : Option Stop := none

/-- What becomes of a delivery. A request that fails raises; the worker catches the exception
and returns it as a result. -/
inductive Answer
  | accepted
  | duplicate
  | failed
deriving DecidableEq

namespace EventIntake

variable {σ α β : Type} (persist : Procedure (IntakeEvent β) σ α)

def persistEvent (s : EventIntake σ) (event : IntakeEvent β) : EventIntake σ :=
  { s with db := persist.whole event s.db, persisted := event.eventId :: s.persisted }

/-- The persistence step, stopped before its last commit. -/
def persistPart (s : EventIntake σ) (event : IntakeEvent β) (commits : Nat) : EventIntake σ :=
  { s with
    db := persist.interrupted event (min commits ((persist.plan event s.db).length - 1)) s.db }

/-- The filter and what follows it, at both entry points. -/
def filterAndPersist (s : EventIntake σ) (event : IntakeEvent β) (stop : Option Stop) :
    EventIntake σ × Answer :=
  let recorded := s.recordEvent event.eventId
  if recorded.2 then
    match stop with
    | some .recording | some .opening => (recorded.1, .failed)
    | some (.persisting commits) => (recorded.1.persistPart persist event commits, .failed)
    | some .closing => (recorded.1.persistEvent persist event, .failed)
    | none => (recorded.1.persistEvent persist event, .accepted)
  else
    match stop with
    | some .opening | some .closing => (recorded.1, .failed)
    | _ => (recorded.1, .duplicate)

/-- `_process_gateway_event_persist`. The database is opened after the filter. -/
def processGatewayEventPersist (s : EventIntake σ) (event : IntakeEvent β)
    (stop : Option Stop) : EventIntake σ × Answer :=
  s.filterAndPersist persist event stop

/-- `_process_condition_event_with_db`, with the exceptions that its caller catches. -/
def processConditionEventWithDb (s : EventIntake σ) (event : IntakeEvent β)
    (stop : Option Stop) : EventIntake σ × Answer :=
  if event.type ≠ "condition_event" then (s, .failed)
  else s.filterAndPersist persist event stop

/-- One delivery. The worker opens the database before it asks the filter. -/
def deliver (s : EventIntake σ) (delivery : Delivery β) : EventIntake σ × Answer :=
  match delivery.entry, delivery.stop with
  | .request, stop => s.processGatewayEventPersist persist delivery.event stop
  | .worker, some .opening => (s, .failed)
  | .worker, stop => s.processConditionEventWithDb persist delivery.event stop

def machine : Machine (EventIntake σ) (Delivery β) Answer where
  step s delivery := s.deliver persist delivery

/-! ## Batches of the worker -/

/-- An event of a batch. One that is too old is skipped, and `reject_condition_event` may write a
rejection instead; otherwise, where does it raise? -/
structure BatchEntry (σ β : Type) where
  event : IntakeEvent β
  skipped : Option (σ → σ) := none
  stop : Option Stop := none

def BatchEntry.delivery (entry : BatchEntry σ β) : Delivery β where
  event := entry.event
  entry := .worker
  stop := entry.stop

/-- One event of the batch. A skipped event does not reach the filter. -/
def processBatchEntry (s : EventIntake σ) (entry : BatchEntry σ β) : EventIntake σ :=
  match entry.skipped with
  | some reject => { s with db := reject s.db }
  | none => (s.deliver persist entry.delivery).1

/-- `_process_condition_event_batch_in_worker`. The database is opened at the first event that
has to be looked at; nothing was written before, and if it cannot be opened the batch is given
up. -/
def processConditionEventBatch (s : EventIntake σ) (opens : Bool)
    (entries : List (BatchEntry σ β)) : EventIntake σ :=
  if opens then entries.foldl (processBatchEntry persist) s else s

end EventIntake

/-! ## The law and its condition -/

namespace Delivery

variable {β : Type} (delivery : Delivery β)

def filtered : Bool :=
  delivery.entry = .request ∨
    (delivery.stop ≠ some .opening ∧ delivery.event.type = "condition_event")

def completes : Bool := delivery.stop = none ∨ delivery.stop = some .closing

def answersAgain : Bool := delivery.stop ≠ some .opening ∧ delivery.stop ≠ some .closing

def reaches (eventId : String) : Bool := delivery.filtered ∧ delivery.event.eventId = eventId

end Delivery

namespace EventIntake

variable {σ α β : Type} (persist : Procedure (IntakeEvent β) σ α)

/-- No event is lost by the filter. An event of which the last delivery did not fail has its
effect in the end, and a delivery is answered with `duplicate` only when its event has its
effect. -/
def Kept (s : EventIntake σ) (deliveries : List (Delivery β)) : Prop :=
  (∀ past delivery rest, deliveries = past ++ delivery :: rest →
      (machine persist).out ((machine persist).run s past) delivery ≠ .failed →
      (∀ mid later, mid ++ [later] <+: rest →
        later.event.eventId = delivery.event.eventId →
          (machine persist).out ((machine persist).run s (past ++ delivery :: mid)) later ≠
            .failed) →
      delivery.event.eventId ∈ ((machine persist).run s deliveries).persisted) ∧
    ∀ past delivery, past ++ [delivery] <+: deliveries →
      (machine persist).out ((machine persist).run s past) delivery = .duplicate →
        delivery.event.eventId ∈ ((machine persist).run s past).persisted

end EventIntake

/-- An event that is delivered again, and answered, had its effect when it reached the filter
for the first time. -/
def FirstCompletes {β : Type} (deliveries : List (Delivery β)) : Prop :=
  ∀ past delivery, past ++ [delivery] <+: deliveries →
    delivery.filtered = true → delivery.answersAgain = true →
      ∀ first, past.find? (·.reaches delivery.event.eventId) = some first → first.completes = true

/-! ## One delivery -/

namespace EventIntake

variable {σ α β : Type} {persist : Procedure (IntakeEvent β) σ α} {s : EventIntake σ}
  {delivery : Delivery β}

theorem deliver_unfiltered (h : delivery.filtered = false) :
    s.deliver persist delivery = (s, .failed) := by
  unfold Delivery.filtered at h
  simp only [decide_eq_false_iff_not, not_or, not_and] at h
  unfold deliver
  cases hentry : delivery.entry with
  | request => exact absurd hentry h.1
  | worker =>
    by_cases hopening : delivery.stop = some .opening
    · rw [hopening]
    · have htype := h.2 hopening
      split
      · next heq => cases heq
      · next _ heq => exact absurd heq hopening
      · unfold processConditionEventWithDb
        rw [if_pos htype]

theorem deliver_filtered (h : delivery.filtered = true) :
    s.deliver persist delivery = s.filterAndPersist persist delivery.event delivery.stop := by
  unfold Delivery.filtered at h
  rw [decide_eq_true_iff] at h
  unfold deliver
  cases hentry : delivery.entry with
  | request => rfl
  | worker =>
    rw [hentry] at h
    rcases h with h | h
    · cases h
    · split
      · next heq => cases heq
      · next _ heq => exact absurd heq h.1
      · unfold processConditionEventWithDb
        rw [if_neg (not_not.mpr h.2)]

variable (persist) in
theorem deliver_new (h : delivery.filtered = true)
    (hnew : delivery.event.eventId ∉ s.seenEventIds) :
    let next := (s.deliver persist delivery).1
    next.seenEventIds = delivery.event.eventId :: s.seenEventIds ∧
      next.persisted =
        (if delivery.completes then delivery.event.eventId :: s.persisted else s.persisted) ∧
      ((s.deliver persist delivery).2 = .duplicate → False) ∧
      ((s.deliver persist delivery).2 ≠ .failed → delivery.completes = true) := by
  intro next
  have hnext : next = (s.filterAndPersist persist delivery.event delivery.stop).1 :=
    congrArg Prod.fst (deliver_filtered h)
  rw [hnext, deliver_filtered h]
  unfold filterAndPersist recordEvent Delivery.completes
  rw [if_neg hnew]
  cases delivery.stop with
  | none => simp [persistEvent]
  | some stop => cases stop <;> simp [persistEvent, persistPart]

variable (persist) in
theorem deliver_seen (h : delivery.filtered = true)
    (hseen : delivery.event.eventId ∈ s.seenEventIds) :
    let next := (s.deliver persist delivery).1
    next.seenEventIds = s.seenEventIds ∧ next.persisted = s.persisted ∧
      (s.deliver persist delivery).2 = if delivery.answersAgain then .duplicate else .failed := by
  intro next
  have hnext : next = (s.filterAndPersist persist delivery.event delivery.stop).1 :=
    congrArg Prod.fst (deliver_filtered h)
  rw [hnext, deliver_filtered h]
  unfold filterAndPersist recordEvent Delivery.answersAgain
  rw [if_pos hseen]
  cases delivery.stop with
  | none => simp
  | some stop => cases stop <;> simp

/-! ## Runs -/

variable (persist) in
theorem run_spec (db : σ) (deliveries : List (Delivery β)) (eventId : String) :
    let s := (machine persist).run { db := db } deliveries
    (eventId ∈ s.seenEventIds ↔ (deliveries.find? (·.reaches eventId)).isSome) ∧
      (eventId ∈ s.persisted ↔
        ∃ first, deliveries.find? (·.reaches eventId) = some first ∧ first.completes = true) := by
  induction deliveries using reverseRecOn with
  | nil => exact ⟨by simp [Machine.run], by simp [Machine.run]⟩
  | append_singleton past delivery ih =>
    intro s
    have hs : s = ((((machine persist).run { db := db } past)).deliver persist delivery).1 :=
      (machine persist).run_concat _ past delivery
    generalize (machine persist).run { db := db } past = before at ih hs
    have hfind : (past ++ [delivery]).find? (·.reaches eventId) =
        (past.find? (·.reaches eventId)).or
          (if delivery.reaches eventId then some delivery else none) := by
      rw [find?_append, find?_cons]
      cases delivery.reaches eventId <;> rfl
    rw [hfind, hs]
    cases hfiltered : delivery.filtered with
    | false =>
      -- the delivery does not reach the filter
      have hreaches : delivery.reaches eventId = false := by
        unfold Delivery.reaches
        simp [hfiltered]
      rw [deliver_unfiltered hfiltered, hreaches]
      simpa using ih
    | true =>
      have hreaches : delivery.reaches eventId = decide (delivery.event.eventId = eventId) := by
        unfold Delivery.reaches
        simp [hfiltered]
      rw [hreaches]
      by_cases hseen : delivery.event.eventId ∈ before.seenEventIds
      · -- it was seen: an earlier delivery with its id is the first one
        have hsame := deliver_seen persist hfiltered hseen
        rw [hsame.1, hsame.2.1, ih.1, ih.2]
        by_cases hid : delivery.event.eventId = eventId
        · rw [hid, ih.1] at hseen
          obtain ⟨first, hfirst⟩ := isSome_iff_exists.mp hseen
          simp [hfirst]
        · simp [hid]
      · -- it is new: this delivery is the first one
        have hnew := deliver_new persist hfiltered hseen
        rw [hnew.1, hnew.2.1]
        by_cases hid : delivery.event.eventId = eventId
        · rw [hid, ih.1] at hseen
          have hnone : past.find? (·.reaches eventId) = none := by
            simpa using hseen
          rw [hnone] at ih ⊢
          simp only [hid, decide_true, if_true, none_or, isSome_some, mem_cons, true_or, some.injEq]
          cases hcompletes : delivery.completes with
          | true => simp [hcompletes]
          | false => simpa [hcompletes] using ih.2
        · have hne : eventId ≠ delivery.event.eventId := Ne.symm hid
          have hpersisted : eventId ∈ (if delivery.completes then
              delivery.event.eventId :: before.persisted else before.persisted) ↔
                eventId ∈ before.persisted := by
            split <;> simp [hne]
          rw [hpersisted, mem_cons, ih.1, ih.2]
          simp [hid, hne]

variable {past : List (Delivery β)}

/-- A delivery is answered with `duplicate` iff its id was seen and it does not raise. -/
theorem out_duplicate {db : σ} :
    (machine persist).out ((machine persist).run { db := db } past) delivery = .duplicate ↔
      delivery.filtered = true ∧ delivery.answersAgain = true ∧
        (past.find? (·.reaches delivery.event.eventId)).isSome := by
  have hspec := (run_spec persist db past delivery.event.eventId).1
  show (((machine persist).run { db := db } past).deliver persist delivery).2 = .duplicate ↔ _
  generalize (machine persist).run { db := db } past = before at hspec ⊢
  rw [← hspec]
  cases hfiltered : delivery.filtered with
  | false =>
    rw [deliver_unfiltered hfiltered]
    simp
  | true =>
    by_cases hseen : delivery.event.eventId ∈ before.seenEventIds
    · rw [(deliver_seen persist hfiltered hseen).2.2]
      cases delivery.answersAgain <;> simp [hseen]
    · constructor
      · exact fun h => absurd h (deliver_new persist hfiltered hseen).2.2.1
      · exact fun h => absurd h.2.2 hseen

theorem persisted_of_answered {db : σ}
    (hanswered : (machine persist).out ((machine persist).run { db := db } past) delivery ≠ .failed)
    (hfirst : delivery.filtered = true → delivery.answersAgain = true →
      ∀ first, past.find? (·.reaches delivery.event.eventId) = some first →
        first.completes = true) :
    delivery.event.eventId ∈
      ((machine persist).run { db := db } (past ++ [delivery])).persisted := by
  have hspec := run_spec persist db past delivery.event.eventId
  rw [(machine persist).run_concat]
  show delivery.event.eventId ∈
    (((machine persist).run { db := db } past).deliver persist delivery).1.persisted
  have hout : (((machine persist).run { db := db } past).deliver persist delivery).2 ≠ .failed :=
    hanswered
  generalize (machine persist).run { db := db } past = before at hspec hout
  cases hfiltered : delivery.filtered with
  | false =>
    rw [deliver_unfiltered hfiltered] at hout
    exact absurd rfl hout
  | true =>
    by_cases hseen : delivery.event.eventId ∈ before.seenEventIds
    · have hsame := deliver_seen persist hfiltered hseen
      rw [hsame.2.2] at hout
      have hagain : delivery.answersAgain = true := by
        by_contra hnot
        rw [if_neg hnot] at hout
        exact hout rfl
      obtain ⟨first, hfound⟩ := isSome_iff_exists.mp (hspec.1.mp hseen)
      rw [hsame.2.1]
      exact hspec.2.mpr ⟨first, hfound, hfirst hfiltered hagain first hfound⟩
    · have hnew := deliver_new persist hfiltered hseen
      rw [hnew.2.1, if_pos (hnew.2.2.2 hout)]
      exact mem_cons_self

theorem persisted_append {db : σ} {rest : List (Delivery β)} {eventId : String}
    (h : eventId ∈ ((machine persist).run { db := db } past).persisted) :
    eventId ∈ ((machine persist).run { db := db } (past ++ rest)).persisted := by
  obtain ⟨first, hfound, hcompletes⟩ := (run_spec persist db past eventId).2.mp h
  refine (run_spec persist db (past ++ rest) eventId).2.mpr ⟨first, ?_, hcompletes⟩
  rw [find?_append, hfound]
  rfl

/-- On any database and with any persistence step, no event is lost by the filter of a fresh
Core iff every event that is delivered again, and answered, had its effect when it reached the
filter for the first time. -/
theorem kept_iff (persist : Procedure (IntakeEvent β) σ α) (db : σ)
    (deliveries : List (Delivery β)) :
    Kept persist { db := db } deliveries ↔ FirstCompletes deliveries := by
  constructor
  · rintro ⟨-, hduplicates⟩ past delivery hpre hfiltered hagain first hfound
    have hseen := isSome_iff_exists.mpr ⟨first, hfound⟩
    have hpersisted := hduplicates past delivery hpre (out_duplicate.mpr ⟨hfiltered, hagain, hseen⟩)
    obtain ⟨first', hfound', hcompletes⟩ := (run_spec persist db past _).2.mp hpersisted
    rw [hfound, some.injEq] at hfound'
    rw [hfound']
    exact hcompletes
  · intro hfirst
    refine ⟨?_, ?_⟩
    · intro past delivery rest hsplit hanswered _
      have hpre : past ++ [delivery] <+: deliveries := by
        rw [hsplit]
        exact ⟨rest, by simp⟩
      have hpersisted := persisted_of_answered hanswered (hfirst past delivery hpre)
      rw [hsplit, append_cons]
      exact persisted_append hpersisted
    · intro past delivery hpre hduplicate
      obtain ⟨hfiltered, hagain, hseen⟩ := out_duplicate.mp hduplicate
      obtain ⟨first, hfound⟩ := isSome_iff_exists.mp hseen
      exact (run_spec persist db past _).2.mpr
        ⟨first, hfound, hfirst past delivery hpre hfiltered hagain first hfound⟩

/-! ## Whole calls -/

/-- The filter knows the ids that reached it, each once, and counts them and the other deliveries
apart. -/
structure Balanced (s : EventIntake σ) (deliveries : List (Delivery β)) : Prop where
  known : ∀ eventId, eventId ∈ s.seenEventIds ↔ ∃ delivery ∈ deliveries, delivery.reaches eventId
  distinct : s.seenEventIds.Nodup
  received : s.receivedEventCount = s.seenEventIds.length
  deduped : s.receivedEventCount + s.dedupedEventCount = deliveries.countP (·.filtered)
  once : s.persisted.Nodup
  persisted : s.persisted ⊆ s.seenEventIds

/-- What a delivery may do to the ids and the counters. -/
inductive Counts (s s' : EventIntake σ) (delivery : Delivery β) : Prop
  | outside (unfiltered : delivery.filtered = false) (same : s' = s)
  | again (filtered : delivery.filtered = true) (seen : delivery.event.eventId ∈ s.seenEventIds)
      (same : s' = { s with dedupedEventCount := s.dedupedEventCount + 1 })
  | first (filtered : delivery.filtered = true) (new : delivery.event.eventId ∉ s.seenEventIds)
      (ids : s'.seenEventIds = delivery.event.eventId :: s.seenEventIds)
      (received : s'.receivedEventCount = s.receivedEventCount + 1)
      (deduped : s'.dedupedEventCount = s.dedupedEventCount)
      (persisted : s'.persisted = s.persisted ∨
        s'.persisted = delivery.event.eventId :: s.persisted)

variable (persist)

theorem counts_deliver (s : EventIntake σ) (delivery : Delivery β) :
    Counts s (s.deliver persist delivery).1 delivery := by
  cases hfiltered : delivery.filtered with
  | false =>
    rw [deliver_unfiltered hfiltered]
    exact .outside hfiltered rfl
  | true =>
    rw [deliver_filtered hfiltered]
    unfold filterAndPersist recordEvent
    by_cases hseen : delivery.event.eventId ∈ s.seenEventIds
    · rw [if_pos hseen]
      cases delivery.stop with
      | none => exact .again hfiltered hseen rfl
      | some stop => cases stop <;> exact .again hfiltered hseen rfl
    · rw [if_neg hseen, if_pos rfl]
      cases delivery.stop with
      | none => exact .first hfiltered hseen rfl rfl rfl (.inr rfl)
      | some stop =>
        cases stop with
        | closing => exact .first hfiltered hseen rfl rfl rfl (.inr rfl)
        | _ => exact .first hfiltered hseen rfl rfl rfl (.inl rfl)

theorem Balanced.deliver {s : EventIntake σ} {past : List (Delivery β)} (h : Balanced s past)
    (delivery : Delivery β) :
    Balanced (s.deliver persist delivery).1 (past ++ [delivery]) := by
  have hreaches : ∀ eventId, (∃ other ∈ past ++ [delivery], other.reaches eventId) ↔
      eventId ∈ s.seenEventIds ∨ delivery.reaches eventId := by
    intro eventId
    rw [h.known]
    simp [or_and_right, exists_or]
  have hcounts := counts_deliver persist s delivery
  generalize (s.deliver persist delivery).1 = s' at hcounts
  cases hcounts with
  | outside hunfiltered hsame =>
    subst hsame
    refine ⟨fun eventId => ?_, h.distinct, h.received, ?_, h.once, h.persisted⟩
    · rw [hreaches]
      simp [Delivery.reaches, hunfiltered]
    · simp [h.deduped, hunfiltered]
  | again hfiltered hseen hsame =>
    subst hsame
    refine ⟨fun eventId => ?_, h.distinct, h.received, ?_, h.once, h.persisted⟩
    · rw [hreaches]
      refine ⟨.inl, fun hor => hor.elim id fun hreached => ?_⟩
      obtain ⟨-, heq⟩ := of_decide_eq_true hreached
      exact heq ▸ hseen
    · have := h.deduped
      simp only [countP_append, countP_singleton, hfiltered, if_true]
      omega
  | first hfiltered hnew hids hreceived hdeduped hpersisted =>
    refine ⟨fun eventId => ?_, ?_, ?_, ?_, ?_, ?_⟩
    · rw [hreaches, hids, mem_cons, or_comm]
      simp [Delivery.reaches, hfiltered, eq_comm]
    · rw [hids]
      exact nodup_cons.mpr ⟨hnew, h.distinct⟩
    · rw [hreceived, hids, h.received]
      rfl
    · have := h.deduped
      simp only [countP_append, countP_singleton, hfiltered, if_true]
      omega
    · rcases hpersisted with hsame | hcons
      · exact hsame ▸ h.once
      · exact hcons ▸ nodup_cons.mpr ⟨fun hmem => hnew (h.persisted hmem), h.once⟩
    · rcases hpersisted with hsame | hcons
      · rw [hsame, hids]
        exact Subset.trans h.persisted (subset_cons_self _ _)
      · rw [hcons, hids]
        exact cons_subset_cons _ h.persisted

/-- What Core is asked: one event, or a batch for the worker. -/
inductive IntakeCall (σ β : Type)
  | request (event : IntakeEvent β) (stop : Option Stop)
  | batch (opens : Bool) (entries : List (BatchEntry σ β))

def IntakeCall.deliveries : IntakeCall σ β → List (Delivery β)
  | .request event stop => [{ event, entry := .request, stop }]
  | .batch opens entries =>
    if opens then (entries.filter (·.skipped.isNone)).map (·.delivery) else []

def take (s : EventIntake σ) : IntakeCall σ β → EventIntake σ
  | .request event stop => (s.processGatewayEventPersist persist event stop).1
  | .batch opens entries => s.processConditionEventBatch persist opens entries

theorem Balanced.entries {s : EventIntake σ} {past : List (Delivery β)} (h : Balanced s past)
    (entries : List (BatchEntry σ β)) :
    Balanced (entries.foldl (processBatchEntry persist) s)
      (past ++ (entries.filter (·.skipped.isNone)).map (·.delivery)) := by
  induction entries generalizing s past with
  | nil => simpa using h
  | cons entry rest ih =>
    cases hskipped : entry.skipped with
    | some reject =>
      have hnext : Balanced (processBatchEntry persist s entry) past := by
        unfold processBatchEntry
        rw [hskipped]
        exact ⟨h.known, h.distinct, h.received, h.deduped, h.once, h.persisted⟩
      simpa [hskipped] using ih hnext
    | none =>
      have hnext : Balanced (processBatchEntry persist s entry) (past ++ [entry.delivery]) := by
        unfold processBatchEntry
        rw [hskipped]
        exact h.deliver persist entry.delivery
      simpa [hskipped] using ih hnext

/-- Whatever requests and batches come, and wherever they raise: no event is persisted twice, and
the counters add up to the deliveries that reached the filter. -/
theorem counters_balance (db : σ) (calls : List (IntakeCall σ β)) :
    Balanced (calls.foldl (take persist) { db := db }) (calls.flatMap (·.deliveries)) := by
  induction calls using reverseRecOn with
  | nil => exact ⟨by simp, nodup_nil, rfl, rfl, nodup_nil, Subset.refl _⟩
  | append_singleton past call ih =>
    rw [foldl_concat, flatMap_append, flatMap_singleton]
    cases call with
    | request event stop => exact ih.deliver persist { event, entry := .request, stop }
    | batch opens entries =>
      cases opens with
      | false =>
        simpa [take, processConditionEventBatch, IntakeCall.deliveries] using ih
      | true => exact ih.entries persist entries

/-! ## A fixed run -/

/-- `_persist_gateway_event` of order events as a procedure. -/
def persistOrderEvent : Procedure (IntakeEvent GatewayOrderEvent) GatewayStore
    (GatewayStore → GatewayStore) where
  plan event _ := [fun store => store.persistGatewayEvent event.body "" none]
  commit store write := write store

theorem fillId_ne : "evt-fill-1" ≠ "" := by decide

def saleFill : IntakeEvent GatewayOrderEvent where
  eventId := "evt-fill-1"
  type := "execution_event"
  body :=
    { type := .executionEvent
      eventId := "evt-fill-1"
      payload :=
        { account := "ACC", code := "005930", side := "SELL", quantity := 3, price := 70000,
          filledQuantity := 3, orderNo := "OID-1", executionId := "EXEC-1" }
      eventId_ne := fillId_ne }

/-- Its first delivery, at which the database is locked, and the second one. -/
def saleFillDeliveries : List (Delivery GatewayOrderEvent) :=
  [{ event := saleFill, entry := .request, stop := some (.persisting 0) },
    { event := saleFill, entry := .request }]

/-- The second delivery is answered as a duplicate, and the fill is nowhere. -/
theorem failed_fill_is_lost :
    ¬ ∀ (db : GatewayStore) (deliveries : List (Delivery GatewayOrderEvent)),
      Kept persistOrderEvent { db := db } deliveries := by
  intro h
  have hpersisted := (h {} saleFillDeliveries).2 (saleFillDeliveries.take 1)
    { event := saleFill, entry := .request } (prefix_refl _) (by decide +kernel)
  have hnone : ((machine persistOrderEvent).run { db := {} }
      (saleFillDeliveries.take 1)).persisted = [] := rfl
  rw [hnone] at hpersisted
  cases hpersisted

end EventIntake

end TradingCore.Transport
