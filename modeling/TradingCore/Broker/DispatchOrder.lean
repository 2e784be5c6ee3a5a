import Mathlib.Order.ConditionallyCompleteLattice.Basic
import TradingCore.Base.Stable
import TradingCore.Broker.QueueLemmas
import Mathlib.Data.Prod.Lex
import Mathlib.Order.WithBot
import Mathlib.Data.Int.ConditionallyCompleteOrder

/-!
# The order of dispatch

A dispatch hands out the first records in one order: priority, class of the command, time of
creation, place in the queue. `dispatch_in_order` says which records these are and what becomes of
every other one. A queued record without attempts left is not handed out: if the loop comes to it,
it fails.
-/

namespace TradingCore.Broker

open Base List CommandRecord

/-! ## The law -/

/-- May a dispatch at `now` hand the record out? -/
def CommandRecord.eligible (record : CommandRecord) (now : Time) : Bool :=
  record.status = .queued && !record.isExpired now && record.attempts < record.maxAttempts

namespace CommandQueue

def stampOf : Option Time → WithBot Time
  | none => ⊥
  | some time => time

/-- Where a record stands in the order of dispatch: by priority, then by class, then by creation,
then by its place in the queue. -/
def place (q : CommandQueue) (record : CommandRecord) : Nat ×ₗ Nat ×ₗ WithBot Time ×ₗ Nat :=
  toLex (priorityRank record.priority, toLex (commandClassRank record,
    toLex (stampOf record.createdAt, q.sequence.idxOf record.commandId)))

/-- The status of a record after a dispatch that does not hand it out: a queued record without
attempts left fails if it comes before the records that use up the limit. -/
def statusKept (q : CommandQueue) (ordered : List CommandRecord) (limit : Int)
    (record : CommandRecord) : CommandStatus :=
  if record.status = .queued ∧ record.maxAttempts ≤ record.attempts ∧
      ordered.countP (fun other => q.place other < q.place record) < limit.toNat then .failed
  else record.status

/-- A dispatch hands out the first of the `ordered` records. -/
structure HandsOutFirst (q : CommandQueue) (limit : Int) (now : Time)
    (ordered : List CommandRecord) : Prop where
  eligible : ∀ record, record ∈ ordered ↔
    q.records.get? record.commandId = some record ∧ record.eligible now = true
  sorted : ordered.Pairwise fun a b => q.place a < q.place b
  returned : (q.dispatch limit now).2 = (ordered.take limit.toNat).map (·.command)
  dispatched : ∀ record ∈ ordered.take limit.toNat,
    (q.dispatch limit now).1.records.get? record.commandId = some { record with
      status := .dispatched
      dispatchedAt := some now
      attempts := record.attempts + 1 }
  kept : ∀ id record, q.records.get? id = some record → record.isExpired now = false →
    record ∉ ordered.take limit.toNat →
      ((q.dispatch limit now).1.records.get? id).map (·.status) =
        some (q.statusKept ordered limit record)

/-! ## The order -/

theorem stampLe_iff (a b : Option Time) : stampLe a b = true ↔ stampOf a ≤ stampOf b := by
  cases a with
  | none => exact iff_of_true rfl bot_le
  | some a =>
    cases b with
    | none => exact iff_of_false (by simp [stampLe]) (WithBot.not_coe_le_bot a)
    | some b =>
      unfold stampLe
      rw [decide_eq_true_eq]
      exact WithBot.coe_le_coe.symm

def sortKey (record : CommandRecord) : Nat ×ₗ Nat ×ₗ WithBot Time :=
  toLex (priorityRank record.priority, toLex (commandClassRank record, stampOf record.createdAt))

theorem dispatchBefore_iff (a b : CommandRecord) :
    dispatchBefore a b = true ↔ sortKey a ≤ sortKey b := by
  unfold dispatchBefore sortKey
  rw [Prod.Lex.toLex_le_toLex, Prod.Lex.toLex_le_toLex, ← stampLe_iff]
  by_cases hpriority : priorityRank a.priority = priorityRank b.priority
  · by_cases hclass : commandClassRank a = commandClassRank b
    · simp [hpriority, hclass]
    · simp [hpriority, hclass]
  · simp [hpriority]

instance : Std.Total fun a b : CommandRecord => dispatchBefore a b = true where
  total a b := by
    rw [dispatchBefore_iff, dispatchBefore_iff]
    exact le_total _ _

instance : IsTrans CommandRecord fun a b => dispatchBefore a b = true where
  trans a b c hab hbc := by
    rw [dispatchBefore_iff] at hab hbc ⊢
    exact hab.trans hbc

theorem place_lt_of_stable {q : CommandQueue} {a b : CommandRecord}
    (h : Stable (fun a b => dispatchBefore a b = true)
      (fun a b => q.sequence.idxOf a.commandId < q.sequence.idxOf b.commandId) a b) :
    q.place a < q.place b := by
  obtain ⟨hle, htie⟩ := h
  simp only [dispatchBefore_iff] at hle htie
  unfold sortKey at hle htie
  unfold place
  rw [Prod.Lex.toLex_le_toLex, Prod.Lex.toLex_le_toLex] at hle htie
  rw [Prod.Lex.toLex_lt_toLex, Prod.Lex.toLex_lt_toLex, Prod.Lex.toLex_lt_toLex]
  rcases hle with hlt | ⟨hpriority, hlt | ⟨hclass, hle⟩⟩
  · exact .inl hlt
  · exact .inr ⟨hpriority, .inl hlt⟩
  · refine .inr ⟨hpriority, .inr ⟨hclass, ?_⟩⟩
    rcases lt_or_eq_of_le hle with hlt | heq
    · exact .inl hlt
    · refine .inr ⟨heq, htie ?_⟩
      exact .inr ⟨hpriority.symm, .inr ⟨hclass.symm, heq.ge⟩⟩

theorem dispatchCandidates_pairwise {q : CommandQueue} (hwf : q.WellFormed) :
    q.dispatchCandidates.Pairwise fun a b => q.place a < q.place b := by
  have hnodup : q.sequence.Nodup := by
    rw [hwf.sequence_eq]
    exact q.records.nodup
  have hsequence : q.sequence.Pairwise fun id id' =>
      q.sequence.idxOf id < q.sequence.idxOf id' := by
    refine pairwise_iff_getElem.mpr fun i j hi hj hij => ?_
    rw [hnodup.idxOf_getElem, hnodup.idxOf_getElem]
    exact hij
  have hqueue : ((q.sequence.filterMap q.records.get?).filter (·.status = .queued)).Pairwise
      fun a b => q.sequence.idxOf a.commandId < q.sequence.idxOf b.commandId := by
    refine Pairwise.filter _ (pairwise_filterMap.mpr (hsequence.imp ?_))
    intro id id' hlt a ha b hb
    rw [(hwf.filed id a ha).1, (hwf.filed id' b hb).1]
    exact hlt
  exact (pairwise_stable hqueue).imp fun h => place_lt_of_stable h

/-! ## The loop -/

section Loop

variable (limit : Nat) (now : Time)

theorem dispatchLoop_selected (candidates : List CommandRecord) :
    ∀ (records : Dict String CommandRecord) (selected : List CommandRecord),
      (dispatchLoop limit now candidates records selected).2 = selected ++
        ((candidates.filter fun c => c.attempts < c.maxAttempts).take
          (limit - selected.length)).map (·.dispatch now) := by
  induction candidates with
  | nil =>
    intro records selected
    simp [dispatchLoop]
  | cons c rest ih =>
    intro records selected
    unfold dispatchLoop
    by_cases hfull : selected.length ≥ limit
    · rw [if_pos hfull, Nat.sub_eq_zero_of_le hfull]
      simp
    · rw [if_neg hfull]
      by_cases hmax : c.attempts ≥ c.maxAttempts
      · rw [if_pos hmax, ih, filter_cons_of_neg (by simpa using hmax)]
      · rw [if_neg hmax]
        show (dispatchLoop limit now rest _ (selected ++ [c.dispatch now])).2 = _
        have hroom : limit - selected.length =
            limit - (selected ++ [c.dispatch now]).length + 1 := by
          rw [length_append, length_singleton]
          omega
        rw [ih, filter_cons_of_pos (by simpa using hmax), hroom, take_succ_cons,
          map_cons, append_assoc]
        rfl

theorem dispatchLoop_other {id : String} (candidates : List CommandRecord) :
    ∀ (records : Dict String CommandRecord) (selected : List CommandRecord),
      id ∉ candidates.map (·.commandId) →
      (dispatchLoop limit now candidates records selected).1.get? id = records.get? id := by
  induction candidates with
  | nil => exact fun _ _ _ => rfl
  | cons c rest ih =>
    intro records selected hid
    rw [map_cons, mem_cons, not_or] at hid
    have hset : ∀ record, (records.set c.commandId record).get? id = records.get? id :=
      fun record => Dict.get?_set_ne _ _ hid.1
    unfold dispatchLoop
    split
    · rfl
    · split
      · rw [ih _ _ hid.2, hset]
      · show (dispatchLoop limit now rest _ _).1.get? id = _
        rw [ih _ _ hid.2, hset]

/-- A candidate without attempts left fails if the loop comes to it, and stays otherwise. -/
theorem dispatchLoop_exhausted {c : CommandRecord} {after : List CommandRecord}
    (hmax : c.maxAttempts ≤ c.attempts) (before : List CommandRecord) :
    ∀ (records : Dict String CommandRecord) (selected : List CommandRecord),
      ((before ++ c :: after).map (·.commandId)).Nodup →
      (dispatchLoop limit now (before ++ c :: after) records selected).1.get? c.commandId =
        if selected.length + before.countP (fun d => d.attempts < d.maxAttempts) < limit then
          some (c.finish .failed now "MAX_ATTEMPTS_EXCEEDED")
        else records.get? c.commandId := by
  induction before with
  | nil =>
    intro records selected hnodup
    rw [nil_append, map_cons, nodup_cons] at hnodup
    rw [nil_append, countP_nil, Nat.add_zero]
    unfold dispatchLoop
    by_cases hfull : selected.length ≥ limit
    · rw [if_pos hfull, if_neg (by omega)]
    · rw [if_neg hfull, if_pos hmax, if_pos (by omega), dispatchLoop_other _ _ _ _ _ hnodup.1,
        Dict.get?_set_self]
  | cons d before ih =>
    intro records selected hnodup
    rw [cons_append, map_cons, nodup_cons] at hnodup
    have hne : c.commandId ≠ d.commandId := by
      intro heq
      refine hnodup.1 (heq ▸ ?_)
      exact mem_map_of_mem (mem_append_right _ mem_cons_self)
    have hset : ∀ record, (records.set d.commandId record).get? c.commandId =
        records.get? c.commandId := fun record => Dict.get?_set_ne _ _ hne
    rw [cons_append]
    unfold dispatchLoop
    by_cases hfull : selected.length ≥ limit
    · rw [if_pos hfull, if_neg (by omega)]
    · rw [if_neg hfull]
      by_cases hleft : d.attempts ≥ d.maxAttempts
      · rw [if_pos hleft, ih _ _ hnodup.2, hset, countP_cons_of_neg (by simpa using hleft)]
      · rw [if_neg hleft, countP_cons_of_pos (by simpa using hleft)]
        show (dispatchLoop limit now (before ++ c :: after) _ (selected ++ [d.dispatch now])).1.get?
          c.commandId = _
        rw [ih _ _ hnodup.2, hset, length_append, length_singleton]
        simp only [Nat.add_assoc, Nat.add_comm]

end Loop

/-! ## A dispatch -/

section Dispatch

variable {q : CommandQueue} {now : Time}

theorem expired_queued {id : String} {record : CommandRecord} :
    (q.expireOld now).1.records.get? id = some record ∧ record.status = .queued ↔
      q.records.get? id = some record ∧ record.status = .queued ∧ record.isExpired now = false := by
  rw [expireOld_get?]
  constructor
  · rintro ⟨hget, hqueued⟩
    obtain ⟨old, hold, rfl⟩ := Option.map_eq_some_iff.mp hget
    have hstatus := expire_status old now
    have hdue : old.finished = true ∨ old.isExpired now = false := by
      by_contra hnot
      rw [not_or, Bool.not_eq_true, Bool.not_eq_false] at hnot
      rw [if_pos hnot, hqueued] at hstatus
      cases hstatus
    rw [expire_of_not_due hdue] at hqueued ⊢
    refine ⟨hold, hqueued, hdue.resolve_left ?_⟩
    rw [Bool.not_eq_true]
    exact finished_eq_false.mpr (.inl hqueued)
  · rintro ⟨hget, hqueued, hfresh⟩
    rw [hget, Option.map_some, expire_of_not_due (.inr hfresh)]
    exact ⟨rfl, hqueued⟩

theorem expired_fresh {id : String} {record : CommandRecord}
    (hget : q.records.get? id = some record) (hfresh : record.isExpired now = false) :
    (q.expireOld now).1.records.get? id = some record := by
  rw [expireOld_get?, hget, Option.map_some, expire_of_not_due (.inr hfresh)]

theorem countP_before {candidates before after : List CommandRecord} {c : CommandRecord}
    (hsplit : candidates = before ++ c :: after)
    (hsorted : candidates.Pairwise fun a b => q.place a < q.place b)
    (hmax : c.maxAttempts ≤ c.attempts) :
    (candidates.filter fun d => d.attempts < d.maxAttempts).countP
        (fun d => q.place d < q.place c) =
      before.countP fun d => d.attempts < d.maxAttempts := by
  rw [hsplit, pairwise_append, pairwise_cons] at hsorted
  obtain ⟨-, ⟨hlater, -⟩, hearlier⟩ := hsorted
  have hafter : (after.filter fun d => d.attempts < d.maxAttempts).countP
      (fun d => q.place d < q.place c) = 0 := by
    refine countP_eq_zero.mpr fun d hd => ?_
    simpa using (hlater d (mem_of_mem_filter hd)).le
  have hbefore : (before.filter fun d => d.attempts < d.maxAttempts).countP
      (fun d => q.place d < q.place c) =
        (before.filter fun d => d.attempts < d.maxAttempts).length := by
    refine countP_eq_length.mpr fun d hd => ?_
    simpa using hearlier d (mem_of_mem_filter hd) c mem_cons_self
  rw [hsplit, filter_append, filter_cons_of_neg (by simpa using hmax),
    countP_append, hafter, hbefore, countP_eq_length_filter]
  rfl

end Dispatch

/-! ## Fixed runs -/

/-- An order that was handed out once and is acknowledged as `QUEUED` again. -/
def exhaustedQueue : CommandQueue :=
  (((({} : CommandQueue).enqueue (fun _ => "") { type := "send_order", commandId := "cmd_1" } {}
    0).1.dispatch 1 1).1.ack "cmd_1" .queued none none 2).1

end CommandQueue

end TradingCore.Broker
