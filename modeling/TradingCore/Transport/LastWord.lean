import Mathlib.Algebra.BigOperators.Group.Finset.Piecewise
import Mathlib.Algebra.Order.BigOperators.Group.Finset
import TradingCore.Transport.ConditionWorkers

/-!
# The last word on every key

`KeepsLastWord` says of the workers and a coalesce key: the events of the key that were handed to
persistence are among the accepted ones, in their order; an event was skipped as superseded only
if a later one of the key was accepted; and the last one accepted was handed over, unless it was
an include that waited too long.

It holds after every schedule that has drained the queues (`keeps_last_word`). The queue size that
a call checks is the number of waiting events (`Sound.counted`), so a call that has given out
generations is never refused; and an entry of the map is the generation of the newest event of its
key (`Sound.newest`), so an event that is found stale has a later one.
-/

namespace TradingCore.Transport

open Base Broker List Dict ConditionWorkers Lanes

/-! ## The law -/

def ofKey (key : String) (events : List ReceivedEvent) : List ReceivedEvent :=
  events.filter (·.event.coalesceKey = key)

namespace ConditionWorkers

def handed (s : ConditionWorkers) : List ReceivedEvent :=
  (s.outcomes.filter (·.2 = .handed)).map (·.1.toReceivedEvent)

def superseded (s : ConditionWorkers) : List ReceivedEvent :=
  (s.outcomes.filter (·.2 = .superseded)).map (·.1.toReceivedEvent)

/-- Was the event dropped as an include that has waited too long? -/
def DroppedInclude (config : ConditionWorkerConfig) (s : ConditionWorkers)
    (received : ReceivedEvent) : Prop :=
  received.event.action = "include" ∧ ∃ wait, 0 < config.skipMs ∧ config.skipMs < wait ∧
    ∃ queued, (queued, Outcome.dropped wait) ∈ s.outcomes ∧ queued.toReceivedEvent = received

/-- No call is in progress, the queues are empty and the workers are done. -/
def Drained (s : ConditionWorkers) : Prop :=
  s.call = none ∧ ∀ worker, s.queues worker = [] ∧ s.active worker = [] ∧ s.clearing worker = none

structure KeepsLastWord (config : ConditionWorkerConfig) (s : ConditionWorkers) (key : String) :
    Prop where
  handed_in_order : (ofKey key s.handed).Sublist (ofKey key s.accepted)
  superseded_by_later : ∀ event ∈ ofKey key s.superseded,
    ∃ later, [event, later].Sublist (ofKey key s.accepted)
  last_handed : ∀ last ∈ (ofKey key s.accepted).getLast?,
    last ∈ s.handed ∨ s.DroppedInclude config last

end ConditionWorkers

/-! ## The events of a key -/

section OfKey

variable {key : String} {events more : List ReceivedEvent} {received : ReceivedEvent}

theorem mem_ofKey : received ∈ ofKey key events ↔
    received ∈ events ∧ received.event.coalesceKey = key := by
  simp [ofKey]

theorem ofKey_append : ofKey key (events ++ more) = ofKey key events ++ ofKey key more :=
  filter_append ..

theorem sublist_cases {α : Type} {items : List α} {first second : α} (hfirst : first ∈ items)
    (hsecond : second ∈ items) :
    first = second ∨ [first, second].Sublist items ∨ [second, first].Sublist items := by
  have hordered : items.Pairwise fun a b => [a, b].Sublist items :=
    pairwise_of_forall_sublist id
  exact Pairwise.forall_of_forall_of_flip
    (R := fun a b => a = b ∨ [a, b].Sublist items ∨ [b, a].Sublist items)
    (fun _ _ => Or.inl rfl) (hordered.imp fun h => Or.inr (Or.inl h))
    (hordered.imp fun h => Or.inr (Or.inr h)) hfirst hsecond

theorem ofKey_prepare (hkey : key ≠ "") :
    ofKey key (prepareConditionEventsForQueue events) = (ofKey key events).getLast?.toList := by
  unfold prepareConditionEventsForQueue
  simp only
  generalize hlatest : ofList ((events.filter (·.event.coalesceKey ≠ "")).map
    fun received => (received.event.coalesceKey, received)) = latestByKey
  have hget : ∀ k, latestByKey.get? k =
      (events.filter (·.event.coalesceKey ≠ "")).reverse.find? (·.event.coalesceKey = k) := by
    intro k
    rw [← hlatest]
    exact get?_ofList_map (fun received : ReceivedEvent => received.event.coalesceKey) _ k
  have hvalues : latestByKey.values.filter (·.event.coalesceKey = key) =
      (latestByKey.get? key).toList := by
    refine filter_values (fun received : ReceivedEvent => received.event.coalesceKey) ?_ key
    intro k v hv
    rw [hget] at hv
    simpa using find?_some hv
  have hpass : ofKey key (events.filter (·.event.coalesceKey = "")) = [] := by
    refine filter_eq_nil_iff.mpr ?_
    intro received hreceived
    have := (mem_filter.mp hreceived).2
    simp only [decide_eq_true_eq] at this ⊢
    rw [this]
    exact Ne.symm hkey
  have hone : ofKey key (events.filter (·.event.coalesceKey = "") ++ latestByKey.values) =
      (latestByKey.get? key).toList := by
    rw [ofKey_append, hpass, nil_append]
    exact hvalues
  have hfound : latestByKey.get? key = (ofKey key events).getLast? := by
    rw [hget, ← head?_filter, filter_reverse, head?_reverse, filter_filter]
    refine congrArg getLast? (filter_congr ?_)
    intro received _
    by_cases hof : received.event.coalesceKey = key
    · simp [hof, hkey]
    · simp [hof]
  have hperm := (perm_insertionSort (fun a b : ReceivedEvent => a.number ≤ b.number)
    (events.filter (·.event.coalesceKey = "") ++ latestByKey.values)).filter
      (·.event.coalesceKey = key)
  rw [← hfound, ← hone]
  have hshape : ∀ option : Option ReceivedEvent, ∀ l : List ReceivedEvent,
      l.Perm option.toList → l = option.toList := by
    intro option l hl
    cases option with
    | none => exact Perm.eq_nil hl
    | some event => exact perm_singleton.mp hl
  unfold ofKey at hone ⊢
  rw [hone] at hperm ⊢
  exact hshape _ _ hperm

end OfKey

section Numbered

variable {start : Nat} {events : List CoreConditionEvent} {received : ReceivedEvent}

theorem number_of_mem_numberedFrom (h : received ∈ numberedFrom start events) :
    start ≤ received.number ∧ received.number < start + events.length := by
  obtain ⟨entry, hentry, rfl⟩ := mem_map.mp h
  exact ⟨le_snd_of_mem_zipIdx hentry, snd_lt_add_of_mem_zipIdx hentry⟩

theorem numberedFrom_pairwise (start : Nat) (events : List CoreConditionEvent) :
    (numberedFrom start events).Pairwise fun a b => a.number < b.number := by
  induction events generalizing start with
  | nil => exact Pairwise.nil
  | cons event events ih =>
    refine Pairwise.cons ?_ (ih (start + 1))
    intro received hreceived
    exact (number_of_mem_numberedFrom hreceived).1

end Numbered

/-! ## What holds of the workers -/

namespace ConditionWorkers

variable (config : ConditionWorkerConfig) (s : ConditionWorkers)

def lanes : Lanes Nat QueuedEvent where
  waiting worker := (s.queues worker).flatten
  active := s.active
  accepted := s.queued
  finished := s.outcomes.map Prod.fst

def announced : List ReceivedEvent := s.accepted ++ s.call.elim [] EnqueueCall.events

def issued : List QueuedEvent := s.queued ++ s.call.elim [] EnqueueCall.assigned

def planned : List ReceivedEvent :=
  s.issued.map QueuedEvent.toReceivedEvent ++ s.call.elim [] EnqueueCall.remaining

/-- What holds of the workers after every schedule. -/
structure Sound : Prop where
  balanced : Balanced (·.event.workerIndex config) s.lanes
  batches : ∀ worker, ∀ batch ∈ s.queues worker, batch ≠ []
  processed : ∀ worker, ∀ queued ∈ s.clearing worker, queued.event.workerIndex config = worker
  counted : s.queueSize =
    ∑ worker ∈ Finset.range config.workerCount, (s.queues worker).flatten.length
  room : ∀ call ∈ s.call,
    s.queueSize + call.assigned.length + call.remaining.length ≤ config.queueMaxSize
  numbered : s.announced.Pairwise fun a b => a.number < b.number
  bounded : ∀ received ∈ s.announced, received.number < s.arrivals
  sublist : ∀ key ≠ "", (ofKey key s.planned).Sublist (ofKey key s.announced)
  last : ∀ key ≠ "", (ofKey key s.planned).getLast? = (ofKey key s.announced).getLast?
  increasing : s.issued.Pairwise fun a b =>
    ∀ generation ∈ a.generation, ∀ other ∈ b.generation, generation < other
  generated : ∀ queued ∈ s.issued, ∀ generation ∈ queued.generation, generation ≤ s.generation
  newest : ∀ key generation, s.latestGeneration.get? key = some generation →
    ∃ newest ∈ s.issued, newest.event.coalesceKey = key ∧ newest.generation = some generation ∧
      ∀ queued ∈ s.issued, queued.event.coalesceKey = key →
        ∀ other ∈ queued.generation, other ≤ generation
  overtaken : ∀ queued, (queued, Outcome.superseded) ∈ s.outcomes →
    ∃ later ∈ s.issued, later.event.coalesceKey = queued.event.coalesceKey ∧
      queued.number < later.number
  late : ∀ queued wait, (queued, Outcome.dropped wait) ∈ s.outcomes →
    queued.event.action = "include" ∧ 0 < config.skipMs ∧ config.skipMs < wait

namespace Sound

variable {config} {s}

theorem start : Sound config {} where
  balanced := Balanced.start
  batches := fun _ _ hbatch => by cases hbatch
  processed := fun _ _ hqueued => by cases hqueued
  counted := by simp
  room := fun _ hcall => by cases hcall
  numbered := Pairwise.nil
  bounded := fun _ hreceived => by cases hreceived
  sublist := fun _ _ => Sublist.slnil
  last := fun _ _ => rfl
  increasing := Pairwise.nil
  generated := fun _ hqueued => by cases hqueued
  newest := fun _ _ hget => by cases hget
  overtaken := fun _ hmem => by cases hmem
  late := fun _ _ hmem => by cases hmem

/-! ### A call begins -/

theorem enqueue (h : Sound config s) (events : List CoreConditionEvent) (now : ℚ) :
    Sound config (s.enqueue config events now).1 := by
  unfold ConditionWorkers.enqueue
  split
  · exact h
  · rename_i hcall
    have hnone : s.call = none := by simpa using hcall
    split
    · exact h
    · simp only
      have hbounded : ∀ received ∈ s.announced, received.number < s.arrivals + events.length :=
        fun received hreceived => Nat.lt_add_right _ (h.bounded received hreceived)
      split
      · exact { h with bounded := hbounded }
      · rename_i hcapacity
        -- the call announces its events, and no event is issued yet
        let received := numberedFrom s.arrivals events
        let prepared := prepareConditionEventsForQueue received
        let begun : ConditionWorkers := { s with
          arrivals := s.arrivals + events.length
          call := some ⟨received, now, [], prepared⟩ }
        have hissued : begun.issued = s.issued := by
          show s.queued ++ [] = s.queued ++ s.call.elim [] _
          rw [hnone]
          rfl
        have hannounced : begun.announced = s.announced ++ received := by
          show s.accepted ++ received = s.accepted ++ s.call.elim [] _ ++ received
          rw [hnone]
          exact congrArg (· ++ received) (append_nil _).symm
        have hplanned : begun.planned = s.planned ++ prepared := by
          show begun.issued.map _ ++ prepared = s.issued.map _ ++ s.call.elim [] _ ++ prepared
          rw [hissued, hnone]
          exact congrArg (· ++ prepared) (append_nil _).symm
        have hof : ∀ key ≠ "", ofKey key prepared = (ofKey key received).getLast?.toList :=
          fun key hkey => ofKey_prepare hkey
        show Sound config begun
        refine { h with
          room := ?_
          numbered := ?_
          bounded := ?_
          sublist := ?_
          last := ?_
          increasing := hissued ▸ h.increasing
          generated := hissued ▸ h.generated
          newest := hissued ▸ h.newest
          overtaken := hissued ▸ h.overtaken }
        · intro call hbegun
          cases hbegun
          show s.queueSize + 0 + prepared.length ≤ config.queueMaxSize
          exact Nat.le_of_not_lt hcapacity
        · rw [hannounced]
          refine pairwise_append.mpr ⟨h.numbered, numberedFrom_pairwise _ _, ?_⟩
          intro earlier hearlier later hlater
          exact (h.bounded earlier hearlier).trans_le (number_of_mem_numberedFrom hlater).1
        · rw [hannounced]
          intro event hevent
          rcases mem_append.mp hevent with hold | hnew
          · exact hbounded event hold
          · exact (number_of_mem_numberedFrom hnew).2
        · intro key hkey
          rw [hplanned, hannounced, ofKey_append, ofKey_append, hof key hkey]
          refine (h.sublist key hkey).append ?_
          cases hlast : (ofKey key received).getLast? with
          | none => exact nil_sublist _
          | some event =>
            exact singleton_sublist.mpr (mem_of_getLast? hlast)
        · intro key hkey
          rw [hplanned, hannounced, ofKey_append, ofKey_append, hof key hkey,
            getLast?_append, getLast?_append, h.last key hkey]
          cases (ofKey key received).getLast? with
          | none => rfl
          | some event => rfl

/-! ### The call gives out a generation -/

theorem issue (h : Sound config s) {call : EnqueueCall} {received : ReceivedEvent}
    {remaining : List ReceivedEvent} {generation : Nat} {latestGeneration : Dict String Nat}
    (hcall : s.call = some call) (hremaining : call.remaining = received :: remaining)
    (queued : QueuedEvent) (hqueued : queued.toReceivedEvent = received)
    (hgeneration : s.generation ≤ generation)
    (hnew : ∀ own ∈ queued.generation, s.generation < own ∧ own ≤ generation)
    (hnewest : ∀ key latest, latestGeneration.get? key = some latest →
      ∃ newest ∈ s.issued ++ [queued], newest.event.coalesceKey = key ∧
        newest.generation = some latest ∧
        ∀ other ∈ s.issued ++ [queued], other.event.coalesceKey = key →
          ∀ old ∈ other.generation, old ≤ latest) :
    Sound config { s with
      generation := generation
      latestGeneration := latestGeneration
      call := some { call with
        assigned := call.assigned ++ [queued]
        remaining := remaining } } := by
  let moved : ConditionWorkers := { s with
    generation := generation
    latestGeneration := latestGeneration
    call := some { call with
      assigned := call.assigned ++ [queued]
      remaining := remaining } }
  have hissued : moved.issued = s.issued ++ [queued] := by
    show s.queued ++ (call.assigned ++ [queued]) = s.queued ++ s.call.elim [] _ ++ [queued]
    rw [hcall, append_assoc]
    rfl
  have hannounced : moved.announced = s.announced := by
    show s.accepted ++ call.events = s.accepted ++ s.call.elim [] _
    rw [hcall]
    rfl
  have hplanned : moved.planned = s.planned := by
    show moved.issued.map _ ++ remaining = s.issued.map _ ++ s.call.elim [] _
    rw [hissued, hcall, map_append, append_assoc]
    refine congrArg (_ ++ ·) ?_
    show queued.toReceivedEvent :: remaining = call.remaining
    rw [hremaining, hqueued]
  show Sound config moved
  refine { h with
    room := ?_
    numbered := hannounced ▸ h.numbered
    bounded := hannounced ▸ h.bounded
    sublist := ?_
    last := ?_
    increasing := ?_
    generated := ?_
    newest := hissued ▸ hnewest
    overtaken := ?_ }
  · intro moved hmoved
    cases hmoved
    have hroom := h.room call hcall
    rw [hremaining, length_cons] at hroom
    show s.queueSize + (call.assigned ++ [queued]).length + remaining.length ≤ _
    rw [length_append, length_singleton]
    omega
  · rw [hplanned, hannounced]
    exact h.sublist
  · rw [hplanned, hannounced]
    exact h.last
  · rw [hissued]
    refine pairwise_append.mpr ⟨h.increasing, pairwise_singleton _ _, ?_⟩
    intro earlier hearlier later hlater old hold own hown
    rw [mem_singleton.mp hlater] at hown
    exact (h.generated earlier hearlier old hold).trans_lt (hnew own hown).1
  · rw [hissued]
    intro event hevent own hown
    rcases mem_append.mp hevent with hold | hlast
    · exact (h.generated event hold own hown).trans hgeneration
    · rw [mem_singleton.mp hlast] at hown
      exact (hnew own hown).2
  · rw [hissued]
    intro event hevent
    obtain ⟨later, hlater, hrest⟩ := h.overtaken event hevent
    exact ⟨later, mem_append_left _ hlater, hrest⟩

theorem assign (h : Sound config s) : Sound config s.assign := by
  unfold ConditionWorkers.assign
  cases hcall : s.call with
  | none => exact h
  | some call =>
    cases hremaining : call.remaining with
    | nil => simpa [hremaining] using h
    | cons received remaining =>
      simp only [hremaining]
      split
      · -- no key: the map is as before, and the event has no generation
        refine h.issue hcall hremaining _ rfl (Nat.le_refl _) (fun _ hown => by cases hown) ?_
        intro key latest hget
        obtain ⟨newest, hmem, hkey, hown, hmax⟩ := h.newest key latest hget
        refine ⟨newest, mem_append_left _ hmem, hkey, hown, ?_⟩
        intro other hother hof old hold
        rcases mem_append.mp hother with hbefore | hlast
        · exact hmax other hbefore hof old hold
        · rw [mem_singleton.mp hlast] at hold
          cases hold
      · refine h.issue hcall hremaining _ rfl (Nat.le_succ _) ?_ ?_
        · intro own hown
          cases hown
          exact ⟨Nat.lt_succ_self _, Nat.le_refl _⟩
        · intro key latest hget
          rw [get?_set] at hget
          by_cases hown : key = received.event.coalesceKey
          · rw [if_pos hown] at hget
            cases hget
            refine ⟨_, mem_append_right _ mem_cons_self, hown.symm, rfl, ?_⟩
            intro other hother _ old hold
            rcases mem_append.mp hother with hbefore | hlast
            · exact (h.generated other hbefore old hold).trans (Nat.le_succ _)
            · rw [mem_singleton.mp hlast] at hold
              cases hold
              exact Nat.le_refl _
          · rw [if_neg hown] at hget
            obtain ⟨newest, hmem, hkey, hgen, hmax⟩ := h.newest key latest hget
            refine ⟨newest, mem_append_left _ hmem, hkey, hgen, ?_⟩
            intro other hother hof old hold
            rcases mem_append.mp hother with hbefore | hlast
            · exact hmax other hbefore hof old hold
            · rw [mem_singleton.mp hlast] at hof
              exact absurd hof.symm hown

/-! ### The call puts its batches -/

theorem not_shardQueueFull (h : Sound config s) {call : EnqueueCall} (hcall : s.call = some call)
    (hremaining : call.remaining = []) : s.shardQueueFull config call.assigned = false := by
  have hroom := h.room call hcall
  rw [hremaining, length_nil, Nat.add_zero] at hroom
  unfold shardQueueFull
  rw [any_eq_false]
  intro worker hworker hfull
  simp only [decide_eq_true_eq] at hfull
  have hqueue : (s.queues worker).length ≤ s.queueSize := by
    rw [h.counted]
    exact (length_le_length_flatten (h.batches worker)).trans
      (Finset.single_le_sum (f := fun worker => (s.queues worker).flatten.length)
        (fun _ _ => Nat.zero_le _) (Finset.mem_range.mpr (mem_range.mp hworker)))
  have hbatch : (batchOf config worker call.assigned).length ≤ call.assigned.length :=
    length_filter_le _ _
  have hpieces : (chunked config.batchChunkSize (batchOf config worker call.assigned)).length ≤
      (batchOf config worker call.assigned).length := length_pieces_le _ _
  omega

theorem sum_batchOf (config : ConditionWorkerConfig) (events : List QueuedEvent) :
    ∑ worker ∈ Finset.range config.workerCount, (batchOf config worker events).length =
      events.length := by
  induction events with
  | nil => simp [batchOf]
  | cons queued events ih =>
    have hmem : queued.event.workerIndex config ∈ Finset.range config.workerCount :=
      Finset.mem_range.mpr (queued.event.workerIndex_lt config)
    have hstep : ∀ worker, (batchOf config worker (queued :: events)).length =
        (batchOf config worker events).length +
          if queued.event.workerIndex config = worker then 1 else 0 := by
      intro worker
      unfold batchOf
      by_cases hworker : queued.event.workerIndex config = worker
      · rw [filter_cons_of_pos (by simpa using hworker), if_pos hworker, length_cons]
      · rw [filter_cons_of_neg (by simpa using hworker), if_neg hworker, Nat.add_zero]
    rw [Finset.sum_congr rfl fun worker _ => hstep worker, Finset.sum_add_distrib, ih,
      Finset.sum_ite_eq, if_pos hmem, length_cons]

theorem put (h : Sound config s) : Sound config (s.put config).1 := by
  unfold ConditionWorkers.put
  cases hcall : s.call with
  | none => exact h
  | some call =>
    simp only
    split
    · exact h
    · rename_i hall
      have hremaining : call.remaining = [] := not_not.mp hall
      rw [if_neg (by rw [h.not_shardQueueFull hcall hremaining]; decide)]
      let batch := fun worker => batchOf config worker call.assigned
      let done : ConditionWorkers := { s with
        queueSize := s.queueSize + call.assigned.length
        queues := fun worker => s.queues worker ++ chunked config.batchChunkSize (batch worker)
        call := none
        accepted := s.accepted ++ call.events
        queued := s.queued ++ call.assigned }
      have hflatten : ∀ worker, (done.queues worker).flatten =
          (s.queues worker).flatten ++ batch worker := by
        intro worker
        show (s.queues worker ++ chunked _ _).flatten = _
        rw [flatten_append]
        exact congrArg (_ ++ ·) (flatten_pieces config.batchChunkSize_pos _)
      have hissued : done.issued = s.issued := by
        show s.queued ++ call.assigned ++ [] = s.queued ++ s.call.elim [] _
        rw [hcall, append_nil]
        rfl
      have hannounced : done.announced = s.announced := by
        show s.accepted ++ call.events ++ [] = s.accepted ++ s.call.elim [] _
        rw [hcall, append_nil]
        rfl
      have hplanned : done.planned = s.planned := by
        show done.issued.map _ ++ [] = s.issued.map _ ++ s.call.elim [] _
        rw [hissued, hcall]
        exact congrArg (_ ++ ·) hremaining.symm
      have hlanes : done.lanes = s.lanes.putAll (·.event.workerIndex config) call.assigned := by
        unfold lanes putAll
        congr 1
        exact funext hflatten
      show Sound config done
      exact { h with
        balanced := hlanes ▸ h.balanced.putAll call.assigned
        batches := by
          intro worker piece hpiece
          rcases mem_append.mp hpiece with hold | hnew
          · exact h.batches worker piece hold
          · exact ne_nil_of_mem_pieces config.batchChunkSize_pos hnew
        counted := by
          show s.queueSize + call.assigned.length = _
          rw [Finset.sum_congr rfl fun worker _ => congrArg length (hflatten worker),
            Finset.sum_congr rfl fun worker _ => length_append, Finset.sum_add_distrib,
            ← h.counted]
          exact congrArg (_ + ·) (sum_batchOf config call.assigned).symm
        room := fun _ hnone => by cases hnone
        numbered := hannounced ▸ h.numbered
        bounded := hannounced ▸ h.bounded
        sublist := by rw [hplanned, hannounced]; exact h.sublist
        last := by rw [hplanned, hannounced]; exact h.last
        increasing := hissued ▸ h.increasing
        generated := hissued ▸ h.generated
        newest := hissued ▸ h.newest
        overtaken := hissued ▸ h.overtaken }

/-! ### A worker drains its queue -/

theorem drainBatches_flatten (size : Nat) (events : List QueuedEvent)
    (batches : List (List QueuedEvent)) :
    (drainBatches size events batches).1 ++ (drainBatches size events batches).2.flatten =
      events ++ batches.flatten := by
  induction batches generalizing events with
  | nil => rfl
  | cons batch batches ih =>
    unfold drainBatches
    split
    · rw [ih, flatten_cons, append_assoc]
    · rfl

theorem mem_drainBatches {size : Nat} {events batch : List QueuedEvent}
    {batches : List (List QueuedEvent)} (h : batch ∈ (drainBatches size events batches).2) :
    batch ∈ batches := by
  induction batches generalizing events with
  | nil => cases h
  | cons head batches ih =>
    unfold drainBatches at h
    split at h
    · exact mem_cons_of_mem _ (ih h)
    · exact h

theorem drain (h : Sound config s) (worker : Nat) : Sound config (s.drain config worker) := by
  unfold ConditionWorkers.drain
  split
  · exact h
  · rename_i hguard
    rw [not_or, not_or, not_not, not_not] at hguard
    obtain ⟨hcall, hidle, -⟩ := hguard
    cases hqueue : s.queues worker with
    | nil => exact h
    | cons first batches =>
      simp only
      generalize hdrained : drainBatches config.batchChunkSize first batches = drained
      have hparts : (s.queues worker).flatten = drained.1 ++ drained.2.flatten := by
        rw [hqueue, flatten_cons, ← hdrained, drainBatches_flatten]
      let after : ConditionWorkers := { s with
        queueSize := s.queueSize - drained.1.length
        queues := Function.update s.queues worker drained.2
        active := Function.update s.active worker drained.1 }
      have hlanes : after.lanes = s.lanes.take worker drained.1.length := by
        unfold lanes Lanes.take
        simp only
        congr 1
        · refine funext fun other => ?_
          by_cases hother : other = worker
          · subst hother
            show (Function.update s.queues other drained.2 other).flatten = _
            rw [Function.update_self, Function.update_self, hparts, drop_left]
          · show (Function.update s.queues worker drained.2 other).flatten = _
            rw [Function.update_of_ne hother, Function.update_of_ne hother]
        · rw [hidle, hparts, nil_append, take_left]
      have hbatches : ∀ batch ∈ drained.2, batch ≠ [] := by
        intro batch hbatch
        rw [← hdrained] at hbatch
        exact h.batches worker batch (hqueue ▸ mem_cons_of_mem _ (mem_drainBatches hbatch))
      -- only a worker that exists has something in its queue
      have hworker : worker ∈ Finset.range config.workerCount := by
        obtain ⟨queued, hqueued⟩ :=
          exists_mem_of_ne_nil _ (h.batches worker first (hqueue ▸ mem_cons_self))
        have hwaiting : queued ∈ s.lanes.waiting worker :=
          mem_flatten.mpr ⟨first, hqueue ▸ mem_cons_self, hqueued⟩
        rw [← h.balanced.laneOf_waiting hwaiting]
        exact Finset.mem_range.mpr (queued.event.workerIndex_lt config)
      show Sound config after
      exact { h with
        balanced := hlanes ▸ h.balanced.take worker drained.1.length
        batches := by
          intro other batch hbatch
          by_cases hother : other = worker
          · subst hother
            rw [show after.queues other = drained.2 from Function.update_self ..] at hbatch
            exact hbatches batch hbatch
          · rw [show after.queues other = s.queues other from
              Function.update_of_ne hother ..] at hbatch
            exact h.batches other batch hbatch
        counted := by
          have hrest : ∑ other ∈ (Finset.range config.workerCount).erase worker,
              (after.queues other).flatten.length =
              ∑ other ∈ (Finset.range config.workerCount).erase worker,
                (s.queues other).flatten.length := by
            refine Finset.sum_congr rfl fun other hother => ?_
            rw [show after.queues other = s.queues other from
              Function.update_of_ne (Finset.ne_of_mem_erase hother) ..]
          have hbefore := h.counted
          rw [← Finset.add_sum_erase _ _ hworker, hparts, length_append] at hbefore
          rw [← Finset.add_sum_erase _ _ hworker, hrest,
            show after.queues worker = drained.2 from Function.update_self ..]
          show s.queueSize - drained.1.length = _
          omega
        room := fun call hsome => by
          rw [show s.call = some call from hsome] at hcall
          exact absurd rfl hcall }

/-! ### A worker decides on an event -/

theorem issued_cases (h : Sound config s) {first second : QueuedEvent}
    (hfirst : first ∈ s.issued) (hsecond : second ∈ s.issued)
    (hkey : first.event.coalesceKey = second.event.coalesceKey)
    (hkeyed : first.event.coalesceKey ≠ "") :
    first = second ∨
      (first.number < second.number ∧
        ∀ generation ∈ first.generation, ∀ other ∈ second.generation, generation < other) ∨
      (second.number < first.number ∧
        ∀ generation ∈ second.generation, ∀ other ∈ first.generation, generation < other) := by
  have hsublist : (ofKey first.event.coalesceKey (s.issued.map QueuedEvent.toReceivedEvent)).Sublist
      (ofKey first.event.coalesceKey s.announced) := by
    refine Sublist.trans ?_ (h.sublist _ hkeyed)
    unfold planned
    rw [ofKey_append]
    exact sublist_append_left _ _
  have hnumbers := (h.numbered.filter (·.event.coalesceKey = first.event.coalesceKey)).sublist
    hsublist
  unfold ofKey at hnumbers
  rw [filter_map, pairwise_map] at hnumbers
  have hboth := hnumbers.and (h.increasing.filter (·.event.coalesceKey = first.event.coalesceKey))
  have hof : ∀ queued ∈ s.issued, queued.event.coalesceKey = first.event.coalesceKey →
      queued ∈ s.issued.filter (·.event.coalesceKey = first.event.coalesceKey) :=
    fun queued hmem hqueued => mem_filter.mpr ⟨hmem, by simpa using hqueued⟩
  rcases sublist_cases (hof first hfirst rfl) (hof second hsecond hkey.symm)
    with heq | hbefore | hbehind
  · exact Or.inl heq
  · exact Or.inr (Or.inl (hboth.forall_sublist hbefore))
  · exact Or.inr (Or.inr (hboth.forall_sublist hbehind))

theorem overtaken_of_isStale (h : Sound config s) {queued : QueuedEvent}
    (hqueued : queued ∈ s.issued) (hstale : isStale s.latestGeneration queued = true) :
    ∃ later ∈ s.issued, later.event.coalesceKey = queued.event.coalesceKey ∧
      queued.number < later.number := by
  unfold isStale at hstale
  cases hown : queued.generation with
  | none => rw [hown] at hstale; cases hstale
  | some own =>
    rw [hown] at hstale
    obtain ⟨hkeyed, latest, hget, hne⟩ := of_decide_eq_true hstale
    obtain ⟨newest, hmem, hkey, hlatest, hmax⟩ := h.newest _ latest hget
    refine ⟨newest, hmem, hkey, ?_⟩
    rcases h.issued_cases hqueued hmem hkey.symm hkeyed with rfl | ⟨hbefore, -⟩ | ⟨-, hgens⟩
    · rw [hown] at hlatest
      exact absurd (Option.some.inj hlatest).symm hne
    · exact hbefore
    -- an older newest one would have a smaller generation
    · have := hgens latest hlatest own hown
      have := hmax queued hqueued rfl own hown
      omega

theorem process (h : Sound config s) (worker : Nat) (now : ℚ) :
    Sound config (s.process config worker now) := by
  unfold ConditionWorkers.process
  split
  · exact h
  · cases hactive : s.active worker with
    | nil => exact h
    | cons queued rest =>
      have hfinish : s.lanes.finish worker =
          { s.lanes with
            active := Function.update s.active worker rest
            finished := s.outcomes.map Prod.fst ++ [queued] } := by
        unfold finish
        rw [show s.lanes.active worker = queued :: rest from hactive]
        rfl
      have hbalanced := h.balanced.finish worker
      rw [hfinish] at hbalanced
      have hhead : queued ∈ s.lanes.active worker :=
        (show s.lanes.active worker = queued :: rest from hactive) ▸ mem_cons_self
      simp only
      split
      · rename_i hstale
        have hqueued : queued ∈ s.issued :=
          mem_append_left _ (h.balanced.mem_accepted_of_active hhead)
        exact { h with
          balanced := by
            intro lane
            have := hbalanced lane
            show within _ lane s.queued = within _ lane
              ((s.outcomes ++ [(queued, Outcome.superseded)]).map Prod.fst) ++ _
            rw [map_append]
            exact this
          overtaken := by
            intro event hevent
            rcases mem_append.mp hevent with hold | hnew
            · exact h.overtaken event hold
            · cases mem_singleton.mp hnew
              exact h.overtaken_of_isStale hqueued hstale
          late := by
            intro event wait hevent
            rcases mem_append.mp hevent with hold | hnew
            · exact h.late event wait hold
            · cases mem_singleton.mp hnew }
      · exact { h with
          balanced := by
            intro lane
            have := hbalanced lane
            show within _ lane s.queued = within _ lane
              ((s.outcomes ++ [(queued, _)]).map Prod.fst) ++ _
            rw [map_append]
            exact this
          processed := by
            intro other event hevent
            change event ∈ Function.update s.clearing worker (some queued) other at hevent
            by_cases hother : other = worker
            · subst hother
              rw [Function.update_self] at hevent
              cases hevent
              exact h.balanced.laneOf_active hhead
            · rw [Function.update_of_ne hother] at hevent
              exact h.processed other event hevent
          overtaken := by
            intro event hevent
            rcases mem_append.mp hevent with hold | hnew
            · exact h.overtaken event hold
            · have := congrArg Prod.snd (mem_singleton.mp hnew)
              split at this <;> cases this
          late := by
            intro event wait hevent
            rcases mem_append.mp hevent with hold | hnew
            · exact h.late event wait hold
            · have hpair := mem_singleton.mp hnew
              have houtcome := congrArg Prod.snd hpair
              rw [show event = queued from congrArg Prod.fst hpair]
              split at houtcome
              · rename_i hskip
                cases houtcome
                obtain ⟨hpositive, -, haction, hwait⟩ := of_decide_eq_true hskip
                exact ⟨haction, hpositive, hwait⟩
              · cases houtcome }

theorem clear (h : Sound config s) (worker : Nat) : Sound config (s.clear worker) := by
  unfold ConditionWorkers.clear
  cases s.clearing worker with
  | none => exact h
  | some queued =>
    refine { h with processed := ?_, newest := ?_ }
    · intro other event hevent
      change event ∈ Function.update s.clearing worker none other at hevent
      by_cases hother : other = worker
      · subst hother
        rw [Function.update_self] at hevent
        cases hevent
      · rw [Function.update_of_ne hother] at hevent
        exact h.processed other event hevent
    intro key latest hget
    refine h.newest key latest ?_
    change (clearIfCurrent s.latestGeneration queued).get? key = some latest at hget
    unfold clearIfCurrent at hget
    split at hget
    · exact hget
    · split at hget
      · rw [get?_filter] at hget
        exact (Option.filter_eq_some_iff.mp hget).1
      · exact hget

theorem next (h : Sound config s) (action : ConditionAction) :
    Sound config ((machine config).next s action) := by
  cases action with
  | enqueue events now => exact h.enqueue events now
  | assign => exact h.assign
  | put => exact h.put
  | drain worker => exact h.drain worker
  | process worker now => exact h.process worker now
  | clear worker => exact h.clear worker

end Sound

theorem sound_after (schedule : List ConditionAction) :
    Sound config (after config schedule) :=
  (machine config).run_preserves (fun _ action h => h.next action) Sound.start schedule

/-! ## The last word is kept -/

variable {config} {s}

theorem Sound.drained (h : Sound config s) (hcall : s.call = none)
    (hidle : ∀ worker < config.workerCount,
      s.queues worker = [] ∧ s.active worker = [] ∧ s.clearing worker = none) : s.Drained := by
  refine ⟨hcall, ?_⟩
  intro worker
  by_cases hworker : worker < config.workerCount
  · exact hidle worker hworker
  · have hother : ∀ queued : QueuedEvent, queued.event.workerIndex config ≠ worker :=
      fun queued heq => hworker (heq ▸ queued.event.workerIndex_lt config)
    refine ⟨?_, ?_, ?_⟩
    · refine eq_nil_iff_forall_not_mem.mpr fun batch hbatch => ?_
      obtain ⟨queued, hqueued⟩ := exists_mem_of_ne_nil _ (h.batches worker batch hbatch)
      exact hother queued (h.balanced.laneOf_waiting (mem_flatten.mpr ⟨batch, hbatch, hqueued⟩))
    · exact eq_nil_iff_forall_not_mem.mpr fun queued hqueued =>
        hother queued (h.balanced.laneOf_active hqueued)
    · exact Option.eq_none_iff_forall_not_mem.mpr fun queued hqueued =>
        hother queued (h.processed worker queued hqueued)

variable (config) in
theorem filter_within (queued : QueuedEvent) (hkeyed : queued.event.coalesceKey ≠ "")
    (items : List QueuedEvent) :
    (within (·.event.workerIndex config) (queued.event.workerIndex config) items).filter
        (·.event.coalesceKey = queued.event.coalesceKey) =
      items.filter (·.event.coalesceKey = queued.event.coalesceKey) := by
  unfold within
  rw [filter_filter]
  refine filter_congr ?_
  intro other _
  by_cases hkey : other.event.coalesceKey = queued.event.coalesceKey
  · simp [hkey, CoreConditionEvent.workerIndex_eq config hkey (hkey ▸ hkeyed)]
  · simp [hkey]

theorem decided_of_drained (h : Sound config s) (hdrained : s.Drained) {key : String}
    (hkey : key ≠ "") :
    (s.outcomes.map Prod.fst).filter (·.event.coalesceKey = key) =
      s.queued.filter (·.event.coalesceKey = key) := by
  have hlane : ∀ lane, within (·.event.workerIndex config) lane (s.outcomes.map Prod.fst) =
      within (·.event.workerIndex config) lane s.queued := by
    intro lane
    obtain ⟨hqueue, hactive, -⟩ := hdrained.2 lane
    refine h.balanced.within_finished hactive ?_
    show (s.queues lane).flatten = []
    rw [hqueue]
    rfl
  by_cases hany : ∃ queued : QueuedEvent, queued.event.coalesceKey = key
  · obtain ⟨queued, rfl⟩ := hany
    rw [← filter_within config queued hkey (s.outcomes.map Prod.fst), hlane,
      filter_within config queued hkey]
  · have hnone : ∀ items : List QueuedEvent, items.filter (·.event.coalesceKey = key) = [] := by
      intro items
      refine filter_eq_nil_iff.mpr fun queued _ hof => hany ⟨queued, ?_⟩
      exact of_decide_eq_true hof
    rw [hnone, hnone]

theorem ofKey_map {key : String} (items : List QueuedEvent) :
    ofKey key (items.map QueuedEvent.toReceivedEvent) =
      (items.filter (·.event.coalesceKey = key)).map QueuedEvent.toReceivedEvent :=
  filter_map ..

/-- After every schedule that has drained the queues, the workers keep the last word on every
key. -/
theorem keeps_last_word (config : ConditionWorkerConfig) (schedule : List ConditionAction)
    (hdrained : (after config schedule).Drained) (key : String) (hkey : key ≠ "") :
    KeepsLastWord config (after config schedule) key := by
  have h := sound_after config schedule
  generalize after config schedule = s at hdrained h
  have hdecided := decided_of_drained h hdrained hkey
  have hissued : s.issued = s.queued := by
    unfold issued
    rw [hdrained.1]
    exact append_nil _
  have hannounced : s.announced = s.accepted := by
    unfold announced
    rw [hdrained.1]
    exact append_nil _
  have hplanned : s.planned = s.queued.map QueuedEvent.toReceivedEvent := by
    unfold planned
    rw [hissued, hdrained.1]
    exact append_nil _
  have hsublist := h.sublist key hkey
  have hlast := h.last key hkey
  have hnumbered := h.numbered.filter (·.event.coalesceKey = key)
  rw [hplanned, hannounced] at hsublist hlast
  rw [hannounced] at hnumbered
  rw [ofKey_map, ← hdecided, ← ofKey_map] at hsublist hlast
  have hofKey : ∀ received ∈ ofKey key (s.outcomes.map (·.1.toReceivedEvent)),
      received ∈ ofKey key s.accepted := by
    intro received hreceived
    refine hsublist.mem ?_
    rwa [map_map]
  have hovertaken : ∀ event ∈ ofKey key s.superseded,
      ∃ later ∈ ofKey key s.accepted, event.number < later.number := by
    intro event hevent
    obtain ⟨hmem, hof⟩ := mem_ofKey.mp hevent
    obtain ⟨⟨queued, outcome⟩, hfound, rfl⟩ := mem_map.mp hmem
    obtain ⟨hfound, houtcome⟩ := mem_filter.mp hfound
    cases of_decide_eq_true houtcome
    obtain ⟨later, hlater, hsame, hnumber⟩ := h.overtaken queued hfound
    rw [hissued] at hlater
    refine ⟨later.toReceivedEvent, hsublist.mem ?_, hnumber⟩
    rw [ofKey_map, hdecided]
    exact mem_map_of_mem (mem_filter.mpr ⟨hlater, by simpa using hsame.trans hof⟩)
  refine ⟨?_, ?_, ?_⟩
  · refine Sublist.trans ?_ hsublist
    rw [map_map]
    exact (filter_sublist.map _).filter _
  · intro event hevent
    obtain ⟨later, hlater, hnumber⟩ := hovertaken event hevent
    refine ⟨later, ?_⟩
    have hmem : event ∈ ofKey key s.accepted := by
      refine hofKey event ?_
      exact ((filter_sublist.map _).filter _).mem hevent
    rcases sublist_cases hmem hlater with rfl | hbefore | hbehind
    · exact absurd hnumber (Nat.lt_irrefl _)
    · exact hbefore
    · exact absurd (hnumbered.forall_sublist hbehind) (Nat.lt_asymm hnumber)
  · intro last haccepted
    have hdecidedLast := hlast ▸ haccepted
    obtain ⟨hmem, hof⟩ := mem_ofKey.mp (mem_of_getLast? hdecidedLast)
    rw [map_map] at hmem
    obtain ⟨⟨queued, outcome⟩, hfound, rfl⟩ := mem_map.mp hmem
    cases outcome with
    | handed =>
      exact Or.inl (mem_map_of_mem (mem_filter.mpr ⟨hfound, by simp⟩))
    | dropped wait =>
      obtain ⟨haction, hpositive, hwait⟩ := h.late queued wait hfound
      exact Or.inr ⟨haction, wait, hpositive, hwait, queued, hfound, rfl⟩
    | superseded =>
      -- a later event would be behind the last one
      have hskipped : queued.toReceivedEvent ∈ ofKey key s.superseded :=
        mem_ofKey.mpr ⟨mem_map_of_mem (mem_filter.mpr ⟨hfound, by simp⟩), hof⟩
      obtain ⟨later, hlater, hnumber⟩ := hovertaken _ hskipped
      obtain ⟨before, hsplit⟩ := getLast?_eq_some_iff.mp haccepted
      change ofKey key s.accepted = before ++ [queued.toReceivedEvent] at hsplit
      change (ofKey key s.accepted).Pairwise _ at hnumbered
      rw [hsplit] at hlater hnumbered
      rcases mem_append.mp hlater with hbefore | hself
      · have := (pairwise_append.mp hnumbered).2.2 later hbefore _ mem_cons_self
        exact absurd this (Nat.lt_asymm hnumber)
      · rw [mem_singleton.mp hself] at hnumber
        exact absurd hnumber (Nat.lt_irrefl _)

/-! ## A fixed run -/

def stockEnters : CoreConditionEvent where
  type := "condition_event"
  payload := ofList [("condition_index", .int 7), ("condition_name", .str "breakout"),
    ("code", .str "005930"), ("event_type", .str "include")]
  eventId := "e1"
  code_plain := by decide +kernel

def stockLeaves : CoreConditionEvent where
  type := "condition_event"
  payload := ofList [("condition_index", .int 7), ("condition_name", .str "breakout"),
    ("code", .str "005930"), ("event_type", .str "remove")]
  eventId := "e2"
  code_plain := by decide +kernel

/-- The stock leaves while the worker has not yet seen it enter. -/
def leavesWhileWaiting : List ConditionAction :=
  [.enqueue [stockEnters] 0, .assign, .put, .enqueue [stockLeaves] 10, .assign, .put,
    .drain 0, .process 0 20, .process 0 21, .clear 0]

/-- With one worker, the include is superseded and the remove is handed over. -/
theorem keeps_last_word_leaves :
    ((after { conditionWorkers := 1 } leavesWhileWaiting).superseded.map (·.event) =
        [stockEnters] ∧
      (after { conditionWorkers := 1 } leavesWhileWaiting).handed.map (·.event) = [stockLeaves]) ∧
    KeepsLastWord { conditionWorkers := 1 } (after { conditionWorkers := 1 } leavesWhileWaiting)
      "condition:7|name:breakout|code:005930" := by
  refine ⟨by decide +kernel, keeps_last_word _ _ ?_ _ (by decide)⟩
  exact (sound_after _ leavesWhileWaiting).drained (by decide +kernel) (by decide +kernel)

end ConditionWorkers

end TradingCore.Transport
