import TradingCore.EventLog.Consumer

/-!
# How often an event is handed to processing

Dispatchers claim events, close what they hold with `_finish_record`, hang or crash, and stale
claims are recovered, in any order. A row counts its hand-outs (`Tallied`), but only
`_finish_record` compares the count with `max_attempts`: `recover_stale_claims` returns an event
whatever its count, `claim_event` takes one over, and no completion looks at the status it
overwrites. `attempts_bounded_iff` says which runs stay within the bound all the same.
-/

namespace TradingCore.EventLog

open Base Broker ProcessingStatus EventLogRepository World List

/-! ## Dispatchers -/

/-- The log with its workers, and the records the workers hold. -/
structure Dispatchers where
  world : World
  held : List (String × Nat × EventLogRecord) := []

/-- A step of a dispatcher, of the gateway that appends, or of the recovery. A worker that hangs
takes no step for a while, one that crashes lets go of its records. -/
inductive DispatcherStep
  | append (event : GatewayEvent) (key serializationError nowText : String)
  | claimEvent (id : EventLogId) (workerId : String) (leaseSec : Option Int) (now : Time)
  | claimPendingEvents (limit : Int) (eventTypes : List String) (workerId : String)
      (leaseSec : Option Int) (now : Time)
  | finishRecord (workerId : String) (record : Nat × EventLogRecord) (status : ResultStatus)
      (retryable : Bool) (nowMicros : Int)
  | crash (workerId : String)
  | recoverStaleClaims (now : Time)

namespace Dispatchers

def call (config : GatewayEventConsumerConfig) (d : Dispatchers) : DispatcherStep → Option Call
  | .append event key serializationError nowText =>
      some (.append event key serializationError nowText)
  | .claimEvent id workerId leaseSec now => some (.claimEvent id workerId leaseSec now)
  | .claimPendingEvents limit eventTypes workerId leaseSec now =>
      some (.claimPendingEvents limit eventTypes workerId leaseSec now)
  | .finishRecord workerId record status retryable nowMicros =>
      if (workerId, record) ∈ d.held then
        some (.finish workerId record.1
          (EventLog.finishRecord config record.2.processingAttempts status retryable nowMicros))
      else none
  | .crash _ => none
  | .recoverStaleClaims now => some (.recoverStaleClaims now)

def heldAfter (d : Dispatchers) : DispatcherStep → List (String × Nat × EventLogRecord)
  | .claimEvent id workerId leaseSec now =>
      (d.world.handedBy (.claimEvent id workerId leaseSec now)).map (workerId, ·) ++ d.held
  | .claimPendingEvents limit eventTypes workerId leaseSec now =>
      (d.world.handedBy (.claimPendingEvents limit eventTypes workerId leaseSec now)).map
        (workerId, ·) ++ d.held
  | .finishRecord workerId record _ _ _ => d.held.erase (workerId, record)
  | .crash workerId => d.held.filter (·.1 ≠ workerId)
  | _ => d.held

def next (config : GatewayEventConsumerConfig) (d : Dispatchers) (step : DispatcherStep) :
    Dispatchers where
  world := (d.call config step).elim d.world d.world.act
  held := d.heldAfter step

def machine (config : GatewayEventConsumerConfig) : Machine Dispatchers DispatcherStep Unit :=
  ⟨fun d step => (d.next config step, ())⟩

def init (config : EventLogConfig) : Dispatchers := { world := .init config }

end Dispatchers

/-! ## Rows count their hand-outs -/

namespace World

def timesHanded (w : World) (n : Nat) : Nat := (w.handed.map Prod.fst).count n

structure Tallied (w : World) : Prop where
  counted : ∀ n, w.timesHanded n = ((w.log.rows.get? n).map (·.processingAttempts)).getD 0
  fresh : w.log.FreshIds

variable {w : World}

theorem claimPendingEvents_nodup (log : EventLogRepository) (limit : Int)
    (eventTypes : List String) (workerId : String) (leaseSec : Option Int) (now : Time) :
    ((log.claimPendingEvents limit eventTypes workerId leaseSec now).2.map Prod.fst).Nodup := by
  unfold claimPendingEvents
  have hstart : Claiming log workerId (log.leaseUntil leaseSec now) now (log, []) :=
    ⟨fun _ => rfl, fun r hr => absurd hr not_mem_nil, rfl⟩
  have hnodup : (([] : List (Nat × EventLogRecord)).map Prod.fst).Nodup := nodup_nil
  generalize log.claimCandidates limit eventTypes now = ids
  generalize hacc : (log, ([] : List (Nat × EventLogRecord))) = acc at hstart
  replace hnodup : (acc.2.map Prod.fst).Nodup := hacc ▸ hnodup
  clear hacc
  induction ids generalizing acc with
  | nil => exact hnodup
  | cons id rest ih =>
    refine ih _ (claimRow_claiming hstart id) ?_
    unfold claimRow
    split
    · next row hrow =>
        split
        · next hclaimable =>
            -- what this call has claimed already is not claimable again
            have hnew : id ∉ acc.2.map Prod.fst := by
              intro hmem
              have hsome : (acc.2.find? fun r => decide (r.1 = id)).isSome := by
                obtain ⟨r, hr, hid⟩ := mem_map.mp hmem
                exact find?_isSome.mpr ⟨r, hr, by simpa using hid⟩
              obtain ⟨r, hfind⟩ := Option.isSome_iff_exists.mp hsome
              have hget := hstart.rows id
              rw [hfind, hrow] at hget
              obtain ⟨old, -, -, hclaimed⟩ := hstart.records r (mem_of_find?_eq_some hfind)
              rw [Option.some.inj hget, hclaimed, not_claimable_claimed] at hclaimable
              cases hclaimable
            show ((acc.2 ++ [_]).map Prod.fst).Nodup
            rw [map_append, nodup_append]
            refine ⟨hnodup, nodup_singleton _, ?_⟩
            intro a ha b hb hab
            rw [map_singleton, mem_singleton] at hb
            rw [hab, hb] at ha
            exact hnew ha
        · exact hnodup
    · exact hnodup

theorem handedBy_nodup (c : Call) : ((w.handedBy c).map Prod.fst).Nodup := by
  cases c with
  | claimEvent id workerId leaseSec now =>
    refine Nodup.sublist (Sublist.map _ filter_sublist) ?_
    cases (w.log.claimEvent id workerId leaseSec now).2 <;> simp
  | claimPendingEvents limit eventTypes workerId leaseSec now =>
    exact claimPendingEvents_nodup w.log limit eventTypes workerId leaseSec now
  | append => exact nodup_nil
  | finish => exact nodup_nil
  | recoverStaleClaims => exact nodup_nil

theorem timesHanded_handOut (log : EventLogRepository) (workerId : String)
    (records : List (Nat × EventLogRecord)) (n : Nat) :
    (w.handOut log workerId records).timesHanded n =
      w.timesHanded n + (records.map Prod.fst).count n := by
  have hmap : (records.map fun r => (r.1, workerId)).map Prod.fst = records.map Prod.fst := by
    rw [map_map]
    rfl
  show ((records.map (fun r => (r.1, workerId)) ++ w.handed).map Prod.fst).count n = _
  rw [map_append, count_append, hmap]
  exact Nat.add_comm ..

theorem timesHanded_act (c : Call) (n : Nat) :
    (w.act c).timesHanded n = w.timesHanded n + ((w.handedBy c).map Prod.fst).count n := by
  cases c with
  | claimEvent id workerId leaseSec now => exact timesHanded_handOut ..
  | claimPendingEvents limit eventTypes workerId leaseSec now => exact timesHanded_handOut ..
  | append => rfl
  | finish workerId id outcome =>
    show (w.finish workerId id outcome).timesHanded n = _
    unfold finish
    split <;> rfl
  | recoverStaleClaims => rfl

variable {workerId : String} {r : Nat × EventLogRecord}

/-- `claim_event` hands out the open row it finds, claimed. -/
theorem handedBy_claimEvent {id : EventLogId} {leaseSec : Option Int} {now : Time}
    (hr : r ∈ w.handedBy (.claimEvent id workerId leaseSec now)) :
    ∃ row, w.log.getRow id = some (r.1, row) ∧ terminal row.processingStatus = false ∧
      r.2 = claimed row workerId (w.log.leaseUntil leaseSec now) := by
  rcases claimEvent_cases w.log id workerId leaseSec now with
    ⟨-, heq⟩ | ⟨found, -, hterminal, heq⟩ | ⟨n, row, hrow, hopen, heq⟩
  · simp [handedBy, heq] at hr
  · simp only [handedBy, heq, Option.toList_some] at hr
    obtain ⟨hmem, hprocessing⟩ := mem_filter.mp hr
    rw [mem_singleton] at hmem
    rw [← hmem, of_decide_eq_true hprocessing] at hterminal
    cases hterminal
  · simp only [handedBy, heq, Option.toList_some] at hr
    have hmem := mem_singleton.mp (mem_filter.mp hr).1
    rw [hmem]
    exact ⟨row, hrow, hopen, rfl⟩

theorem handedBy_open {c : Call} (hr : r ∈ w.handedBy c) :
    ∃ row, w.log.rows.get? r.1 = some row ∧ terminal row.processingStatus = false ∧
      r.2.processingStatus = processing ∧ r.2.processingAttempts = row.processingAttempts + 1 := by
  cases c with
  | claimEvent id workerId leaseSec now =>
    obtain ⟨row, hrow, hopen, hclaimed⟩ := handedBy_claimEvent hr
    exact ⟨row, getRow_get? hrow, hopen, hclaimed ▸ rfl, hclaimed ▸ rfl⟩
  | claimPendingEvents limit eventTypes workerId leaseSec now =>
    have hc := claimPendingEvents_claiming w.log limit eventTypes workerId leaseSec now
    obtain ⟨row, hrow, hclaimable, hclaimed⟩ := hc.records r hr
    have hopen : terminal row.processingStatus = false := by
      revert hclaimable
      unfold claimable terminal
      cases row.processingStatus <;> simp
    exact ⟨row, hrow, hopen, hclaimed ▸ rfl, hclaimed ▸ rfl⟩
  | append => exact absurd hr not_mem_nil
  | finish => exact absurd hr not_mem_nil
  | recoverStaleClaims => exact absurd hr not_mem_nil

theorem find?_of_nodup {records : List (Nat × EventLogRecord)}
    (hnodup : (records.map Prod.fst).Nodup) (hr : r ∈ records) :
    records.find? (fun r' => r'.1 = r.1) = some r := by
  have hsome : (records.find? fun r' => decide (r'.1 = r.1)).isSome :=
    find?_isSome.mpr ⟨r, hr, by simp⟩
  obtain ⟨found, hfound⟩ := Option.isSome_iff_exists.mp hsome
  have hkey : found.1 = r.1 := by simpa using find?_some hfound
  rw [hfound, inj_on_of_nodup_map hnodup (mem_of_find?_eq_some hfound) hr hkey]

theorem claim_rows {c : Call} {log : EventLogRepository}
    (hout : HandsOut w log workerId (w.handedBy c)) (n : Nat) :
    (∃ r ∈ w.handedBy c, r.1 = n ∧ log.rows.get? n = some r.2) ∨
      n ∉ (w.handedBy c).map Prod.fst ∧ log.rows.get? n = w.log.rows.get? n := by
  by_cases hmem : n ∈ (w.handedBy c).map Prod.fst
  · obtain ⟨r, hr, rfl⟩ := mem_map.mp hmem
    refine .inl ⟨r, hr, rfl, ?_⟩
    rw [hout.rows, find?_of_nodup (handedBy_nodup c) hr]
  · refine .inr ⟨hmem, ?_⟩
    rw [hout.rows]
    cases hfind : (w.handedBy c).find? fun r => decide (r.1 = n) with
    | none => rfl
    | some r =>
      have hkey : r.1 = n := by simpa using find?_some hfind
      exact absurd (mem_map.mpr ⟨r, mem_of_find?_eq_some hfind, hkey⟩) hmem

theorem append_attempts (h : w.log.FreshIds) (event : GatewayEvent)
    (key serializationError nowText : String) {row : EventLogRecord}
    (hrow : (w.log.appendGatewayEvent event key serializationError nowText).1.rows.get?
      w.log.nextId = some row) : row.processingAttempts = 0 := by
  have hfresh : w.log.rows.get? w.log.nextId ≠ some row := by
    rw [h _ (Nat.le_refl _)]
    exact (Option.some_ne_none row).symm
  unfold appendGatewayEvent at hrow
  split at hrow
  · exact absurd hrow hfresh
  · split at hrow
    · exact absurd hrow hfresh
    · split at hrow
      · exact absurd hrow hfresh
      · split at hrow
        · exact absurd hrow hfresh
        · rw [Dict.get?_set_self] at hrow
          rw [← Option.some.inj hrow]

/-- What a call can do to a row. -/
inductive RowChange (w : World) (c : Call) (n : Nat) : Prop
  | handed (r : Nat × EventLogRecord) (hr : r ∈ w.handedBy c) (hid : r.1 = n)
      (hrow : (w.act c).log.rows.get? n = some r.2)
  | same (hnot : n ∉ (w.handedBy c).map Prod.fst)
      (hrow : (w.act c).log.rows.get? n = w.log.rows.get? n)
  | appended (row : EventLogRecord) (hnot : n ∉ (w.handedBy c).map Prod.fst)
      (hnew : w.log.rows.get? n = none) (hrow : (w.act c).log.rows.get? n = some row)
      (hattempts : row.processingAttempts = 0)
  | closed (workerId : String) (outcome : Outcome) (row : EventLogRecord)
      (retryAt : Option (Option Time)) (hcall : c = .finish workerId n outcome)
      (hhanded : (n, workerId) ∈ w.handed) (hold : w.log.rows.get? n = some row)
      (hrow : (w.act c).log.rows.get? n = some (updated row outcome.status retryAt))
  | recovered (now : Time) (row : EventLogRecord) (hcall : c = .recoverStaleClaims now)
      (hold : w.log.rows.get? n = some row) (hstale : stale now row = true)
      (hrow : (w.act c).log.rows.get? n =
        some { row with processingStatus := pending, claimedBy := "", nextRetryAt := none })

theorem claim_rowChange {c : Call} (hout : HandsOut w (w.act c).log workerId (w.handedBy c))
    (n : Nat) : RowChange w c n := by
  rcases claim_rows hout n with ⟨r, hr, hid, hrow⟩ | ⟨hnot, hrow⟩
  · exact .handed r hr hid hrow
  · exact .same hnot hrow

theorem act_row (h : w.log.FreshIds) (c : Call) (n : Nat) : RowChange w c n := by
  cases c with
  | append event key serializationError nowText =>
    rcases appendGatewayEvent_cases w.log event key serializationError nowText with
      ⟨hsame, -⟩ | ⟨row, -, -, hnext, -⟩
    · refine .same not_mem_nil ?_
      rw [act, hsame]
    · have hrow : (w.act (.append event key serializationError nowText)).log.rows.get? n =
          if n = w.log.nextId then some row else w.log.rows.get? n := by
        rw [act, hnext]
        exact Dict.get?_set ..
      by_cases hn : n = w.log.nextId
      · rw [if_pos hn] at hrow
        refine .appended row not_mem_nil (h n (Nat.le_of_eq hn.symm)) hrow ?_
        subst hn
        exact append_attempts h event key serializationError nowText hrow
      · rw [if_neg hn] at hrow
        exact .same not_mem_nil hrow
  | claimEvent id workerId leaseSec now =>
    exact claim_rowChange (claimEvent_handsOut id workerId leaseSec now) n
  | claimPendingEvents limit eventTypes workerId leaseSec now =>
    exact claim_rowChange (claimPendingEvents_handsOut limit eventTypes workerId leaseSec now) n
  | finish workerId id outcome =>
    by_cases hhanded : (id, workerId) ∈ w.handed
    · obtain ⟨retryAt, hmark⟩ := mark_get? outcome w.log id
      have hrow : (w.act (.finish workerId id outcome)).log.rows.get? n =
          (w.log.rows.get? n).map fun row =>
            if n = id then updated row outcome.status retryAt else row := by
        rw [act, finish, if_pos hhanded]
        exact hmark n
      cases hold : w.log.rows.get? n with
      | none =>
        rw [hold] at hrow
        exact .same not_mem_nil (hrow.trans hold.symm)
      | some row =>
        rw [hold] at hrow
        by_cases hn : n = id
        · subst hn
          rw [Option.map_some, if_pos rfl] at hrow
          exact .closed workerId outcome row retryAt rfl hhanded hold hrow
        · rw [Option.map_some, if_neg hn] at hrow
          exact .same not_mem_nil (hrow.trans hold.symm)
    · refine .same not_mem_nil ?_
      rw [act, finish, if_neg hhanded]
  | recoverStaleClaims now =>
    have hrow := recoverStaleClaims_get? w.log now n
    cases hold : w.log.rows.get? n with
    | none =>
      rw [hold] at hrow
      exact .same not_mem_nil (hrow.trans hold.symm)
    | some row =>
      rw [hold, Option.map_some] at hrow
      by_cases hstale : stale now row = true
      · rw [if_pos hstale] at hrow
        exact .recovered now row rfl hold hstale hrow
      · rw [if_neg hstale] at hrow
        exact .same not_mem_nil (hrow.trans hold.symm)

theorem act_tallied (h : w.Tallied) (c : Call) : (w.act c).Tallied := by
  refine ⟨fun n => ?_, act_freshIds h.fresh⟩
  rw [timesHanded_act, h.counted n]
  cases act_row h.fresh c n with
  | handed r hr hid hrow =>
    obtain ⟨row, hold, -, -, hattempts⟩ := handedBy_open hr
    have hone : ((w.handedBy c).map Prod.fst).count n = 1 :=
      count_eq_one_of_mem (handedBy_nodup c) (mem_map.mpr ⟨r, hr, hid⟩)
    rw [hid] at hold
    rw [hrow, hold, hone]
    exact hattempts.symm
  | same hnot hrow => rw [hrow, count_eq_zero_of_not_mem hnot, Nat.add_zero]
  | appended row hnot hnew hrow hattempts =>
    rw [hnew, hrow, count_eq_zero_of_not_mem hnot]
    exact hattempts.symm
  | closed workerId outcome row retryAt hcall hhanded hold hrow =>
    subst hcall
    rw [hold, hrow]
    rfl
  | recovered now row hcall hold hstale hrow =>
    subst hcall
    rw [hold, hrow]
    rfl

/-! ## The log only grows -/

/-- Which event a row is of. -/
def eventOf (row : EventLogRecord) : String × String × String × String :=
  (row.eventId, row.eventType, row.dedupeKey, row.receivedAt)

def Apart (w : World) : Prop := ∀ n m a b, w.log.rows.get? n = some a →
  w.log.rows.get? m = some b → a.dedupeKey = b.dedupeKey → n = m

/-- Every row stays, of the event that it is of; no two rows share a dedupe key, and each counts
the times that it was handed out. -/
structure Grows (w w' : World) : Prop where
  stays : ∀ n row, w.log.rows.get? n = some row → (w'.log.rows.get? n).map eventOf = eventOf row
  apart : w'.Apart
  counted : ∀ n row, w'.log.rows.get? n = some row → row.processingAttempts = w'.timesHanded n

theorem map_handsOut {log : EventLogRepository} {records : List (Nat × EventLogRecord)}
    (hout : HandsOut w log workerId records) (n : Nat) :
    (log.rows.get? n).map eventOf = (w.log.rows.get? n).map eventOf := by
  rw [hout.rows n]
  cases hfind : records.find? fun r => decide (r.1 = n) with
  | none => rfl
  | some r =>
    obtain ⟨row, leaseEnd, hrow, hclaimed⟩ := hout.records r (mem_of_find?_eq_some hfind)
    obtain rfl : r.1 = n := by simpa using find?_some hfind
    show some (eventOf r.2) = _
    rw [hrow, hclaimed]
    rfl

theorem map_act (c : Call) :
    (∀ n, ((w.act c).log.rows.get? n).map eventOf = (w.log.rows.get? n).map eventOf) ∨
      ∃ new, (∀ n row, w.log.rows.get? n = some row → row.dedupeKey ≠ new.dedupeKey) ∧
        (w.act c).log.rows = w.log.rows.set w.log.nextId new := by
  cases c with
  | append event key serializationError nowText =>
    simp only [act, appendGatewayEvent]
    split
    · exact .inl fun _ => rfl
    · split
      · exact .inl fun _ => rfl
      · split
        · exact .inl fun _ => rfl
        · split
          · exact .inl fun _ => rfl
          · rename_i hnone
            refine .inr ⟨_, fun n row hrow => ?_, rfl⟩
            simpa using find?_eq_none.mp hnone _ (Dict.mem_entries_iff.mpr hrow)
  | claimEvent id workerId leaseSec now =>
    exact .inl (map_handsOut (claimEvent_handsOut id workerId leaseSec now))
  | claimPendingEvents limit eventTypes workerId leaseSec now =>
    exact .inl (map_handsOut (claimPendingEvents_handsOut limit eventTypes workerId leaseSec now))
  | finish workerId id outcome =>
    refine .inl fun n => ?_
    simp only [act, finish]
    split
    · obtain ⟨retryAt, hmark⟩ := mark_get? outcome w.log id
      rw [hmark n, Option.map_map]
      congr 1
      funext row
      simp only [Function.comp]
      split <;> rfl
    · rfl
  | recoverStaleClaims now =>
    refine .inl fun n => ?_
    show ((w.log.recoverStaleClaims now).rows.get? n).map eventOf = _
    rw [recoverStaleClaims_get?, Option.map_map]
    congr 1
    funext row
    simp only [Function.comp]
    split <;> rfl

theorem apart_act (h : w.Apart) (c : Call) : (w.act c).Apart := by
  intro n m a b ha hb hkey
  rcases map_act (w := w) c with hmap | ⟨new, hnew, hrows⟩
  · have hold : ∀ {k r}, (w.act c).log.rows.get? k = some r →
        ∃ row, w.log.rows.get? k = some row ∧ row.dedupeKey = r.dedupeKey := by
      intro k r hr
      have hsome := (hmap k).symm.trans (congrArg (Option.map eventOf) hr)
      obtain ⟨row, hrow, hevent⟩ := Option.map_eq_some_iff.mp hsome
      exact ⟨row, hrow, congrArg (·.2.2.1) hevent⟩
    obtain ⟨a', ha', hkeya⟩ := hold ha
    obtain ⟨b', hb', hkeyb⟩ := hold hb
    exact h n m a' b' ha' hb' (hkeya.trans (hkey.trans hkeyb.symm))
  · rw [hrows, Dict.get?_set] at ha hb
    by_cases hn : n = w.log.nextId
    · by_cases hm : m = w.log.nextId
      · rw [hn, hm]
      · rw [if_pos hn] at ha
        rw [if_neg hm] at hb
        rw [← Option.some.inj ha] at hkey
        exact absurd hkey.symm (hnew m b hb)
    · rw [if_neg hn] at ha
      by_cases hm : m = w.log.nextId
      · rw [if_pos hm] at hb
        rw [← Option.some.inj hb] at hkey
        exact absurd hkey (hnew n a ha)
      · rw [if_neg hm] at hb
        exact h n m a b ha hb hkey

theorem stays_act (hfresh : w.log.FreshIds) (c : Call) {n : Nat} {event}
    (h : (w.log.rows.get? n).map eventOf = some event) :
    ((w.act c).log.rows.get? n).map eventOf = some event := by
  rcases map_act (w := w) c with hmap | ⟨new, -, hrows⟩
  · rw [hmap, h]
  · rw [hrows, Dict.get?_set, if_neg ?_, h]
    rintro rfl
    rw [hfresh _ (Nat.le_refl _)] at h
    cases h

/-- In every history of the event log, whatever is appended and however many workers claim, finish
and recover in whatever order, the log only grows. -/
theorem log_only_grows (config : EventLogConfig) (past later : List Call) :
    Grows (machine.run (init config) past) (machine.run (init config) (past ++ later)) := by
  have hruns : ∀ calls, (machine.run (init config) calls).Tallied ∧
      (machine.run (init config) calls).Apart := by
    have hstep : ∀ w c, Tallied w ∧ w.Apart → (machine.next w c).Tallied ∧ (machine.next w c).Apart :=
      fun w c h => ⟨act_tallied h.1 c, apart_act h.2 c⟩
    refine Machine.run_preserves hstep ⟨⟨fun n => rfl, fun n _ => rfl⟩, ?_⟩
    intro n m a b ha
    cases ha
  obtain ⟨htallied, hapart⟩ := hruns (past ++ later)
  refine ⟨fun n row hrow => ?_, hapart, fun n row hrow => ?_⟩
  · induction later using List.reverseRecOn with
    | nil =>
      rw [append_nil, hrow]
      rfl
    | append_singleton between c ih =>
      rw [← append_assoc, Machine.run_concat]
      exact stays_act (hruns _).1.fresh c (ih (hruns _).1 (hruns _).2)
  · have hcounted := htallied.counted n
    rw [hrow] at hcounted
    exact hcounted.symm

end World

/-! ## The condition -/

namespace Dispatchers

variable (config : GatewayEventConsumerConfig)

/-- No event was handed out more than `max_attempts` times. -/
def Bounded (d : Dispatchers) : Prop := ∀ n, d.world.timesHanded n ≤ config.maxAttempts

def Absorbing (d : Dispatchers) (step : DispatcherStep) : Prop :=
  ∀ n status, d.world.status n = some status → terminal status = true →
    (d.next config step).world.status n = some status

/-- No claim takes an event that has used up its attempts. -/
def WithinAttempts (d : Dispatchers) (step : DispatcherStep) : Prop :=
  ∀ c, d.call config step = some c → ∀ r ∈ d.world.handedBy c,
    ∀ row, d.world.log.rows.get? r.1 = some row → row.processingAttempts < config.maxAttempts

/-- No worker closes an event that is in a terminal status with another one. -/
def LeavesTerminal (d : Dispatchers) (step : DispatcherStep) : Prop :=
  ∀ workerId n outcome, d.call config step = some (.finish workerId n outcome) →
    ∀ row, d.world.log.rows.get? n = some row → terminal row.processingStatus = true →
      outcome.status = row.processingStatus

/-- Nothing goes wrong on the way: an event that has used up its attempts is neither taken over
nor recovered from a worker that went down with it, and no worker closes an event that was
taken from it. -/
def Orderly (d : Dispatchers) : DispatcherStep → Prop
  | .claimEvent id _ _ _ => ∀ r, d.world.log.getRow id = some r →
      r.2.processingStatus = processing → r.2.processingAttempts < config.maxAttempts
  | .finishRecord workerId record _ _ _ => (workerId, record) ∈ d.held →
      d.world.log.rows.get? record.1 = some record.2
  | .recoverStaleClaims now => ∀ n row, d.world.log.rows.get? n = some row →
      stale now row = true → row.processingAttempts < config.maxAttempts
  | _ => True

/-- The rows count the hand-outs, and a worker holds what it was handed. -/
structure Sane (d : Dispatchers) : Prop where
  tallied : d.world.Tallied
  held : ∀ h ∈ d.held, (h.2.1, h.1) ∈ d.world.handed

variable {config} {d : Dispatchers} {step : DispatcherStep}

theorem world_next {c : Call} (h : d.call config step = some c) :
    (d.next config step).world = d.world.act c := by
  show (d.call config step).elim d.world d.world.act = _
  rw [h]
  rfl

theorem world_next_none (h : d.call config step = none) :
    (d.next config step).world = d.world := by
  show (d.call config step).elim d.world d.world.act = _
  rw [h]
  rfl

theorem handed_act {w : World} {c : Call} {h : Nat × String} (hmem : h ∈ w.handed) :
    h ∈ (w.act c).handed := by
  cases c with
  | claimEvent id workerId leaseSec now => exact mem_append_right _ hmem
  | claimPendingEvents limit eventTypes workerId leaseSec now =>
    exact mem_append_right _ hmem
  | append => exact hmem
  | finish workerId id outcome =>
    show h ∈ (w.finish workerId id outcome).handed
    unfold finish
    split <;> exact hmem
  | recoverStaleClaims => exact hmem

variable (config) in
theorem mem_heldAfter {h : String × Nat × EventLogRecord} (hmem : h ∈ d.heldAfter step) :
    h ∈ d.held ∨ ∃ c, d.call config step = some c ∧ h.2 ∈ d.world.handedBy c ∧
      (h.2.1, h.1) ∈ (d.world.act c).handed := by
  have hclaim : ∀ (c : Call) (workerId : String), d.call config step = some c →
      (d.world.act c).handed =
        (d.world.handedBy c).map (fun r => (r.1, workerId)) ++ d.world.handed →
      h ∈ (d.world.handedBy c).map (workerId, ·) ++ d.held →
      h ∈ d.held ∨ ∃ c, d.call config step = some c ∧ h.2 ∈ d.world.handedBy c ∧
        (h.2.1, h.1) ∈ (d.world.act c).handed := by
    intro c workerId hcall hhanded hmem
    rcases mem_append.mp hmem with hnew | hold
    · obtain ⟨r, hr, rfl⟩ := mem_map.mp hnew
      refine .inr ⟨c, hcall, hr, ?_⟩
      rw [hhanded]
      exact mem_append_left _ (mem_map.mpr ⟨r, hr, rfl⟩)
    · exact .inl hold
  cases step with
  | claimEvent id workerId leaseSec now => exact hclaim _ workerId rfl rfl hmem
  | claimPendingEvents limit eventTypes workerId leaseSec now =>
    exact hclaim _ workerId rfl rfl hmem
  | append => exact .inl hmem
  | finishRecord => exact .inl (mem_of_mem_erase hmem)
  | crash workerId => exact .inl (mem_of_mem_filter hmem)
  | recoverStaleClaims => exact .inl hmem

theorem next_sane (h : d.Sane) : (d.next config step).Sane := by
  refine ⟨?_, fun entry hmem => ?_⟩
  · cases hcall : d.call config step with
    | none =>
      rw [world_next_none hcall]
      exact h.tallied
    | some c =>
      rw [world_next hcall]
      exact act_tallied h.tallied c
  · rcases mem_heldAfter config hmem with hold | ⟨c, hcall, -, hhanded⟩
    · have hbefore := h.held entry hold
      cases hcall : d.call config step with
      | none =>
        rw [world_next_none hcall]
        exact hbefore
      | some c =>
        rw [world_next hcall]
        exact handed_act hbefore
    · rw [world_next hcall]
      exact hhanded

theorem call_finish {workerId : String} {n : Nat} {outcome : Outcome}
    (h : d.call config step = some (.finish workerId n outcome)) :
    ∃ record status retryable nowMicros, (workerId, record) ∈ d.held ∧ n = record.1 ∧
      step = .finishRecord workerId record status retryable nowMicros ∧
      outcome = EventLog.finishRecord config record.2.processingAttempts status retryable
        nowMicros := by
  cases step with
  | finishRecord workerId' record status retryable nowMicros =>
    by_cases hheld : (workerId', record) ∈ d.held
    · rw [call, if_pos hheld] at h
      cases h
      exact ⟨record, status, retryable, nowMicros, hheld, rfl, rfl, rfl⟩
    · rw [call, if_neg hheld] at h
      cases h
  | append => cases h
  | claimEvent => cases h
  | claimPendingEvents => cases h
  | crash => cases h
  | recoverStaleClaims => cases h

theorem call_claimEvent {id : EventLogId} {workerId : String} {leaseSec : Option Int} {now : Time}
    (h : d.call config step = some (.claimEvent id workerId leaseSec now)) :
    step = .claimEvent id workerId leaseSec now := by
  cases step with
  | claimEvent =>
    cases h
    rfl
  | finishRecord workerId record =>
    rw [call] at h
    split at h <;> cases h
  | append => cases h
  | claimPendingEvents => cases h
  | crash => cases h
  | recoverStaleClaims => cases h

theorem call_recoverStaleClaims {now : Time}
    (h : d.call config step = some (.recoverStaleClaims now)) :
    step = .recoverStaleClaims now := by
  cases step with
  | recoverStaleClaims =>
    cases h
    rfl
  | finishRecord workerId record =>
    rw [call] at h
    split at h <;> cases h
  | append => cases h
  | claimEvent => cases h
  | claimPendingEvents => cases h
  | crash => cases h

theorem bounded_next_iff (h : d.Sane) (hbound : d.Bounded config) :
    (d.next config step).Bounded config ↔ d.WithinAttempts config step := by
  cases hcall : d.call config step with
  | none =>
    refine ⟨fun _ c hc => ?_, fun _ => ?_⟩
    · rw [hcall] at hc
      cases hc
    · unfold Bounded
      rw [world_next_none hcall]
      exact hbound
  | some c =>
    unfold Bounded
    rw [world_next hcall]
    constructor
    · intro hnext c' hc' r hr row hrow
      rw [hcall] at hc'
      obtain rfl := Option.some.inj hc'
      have hle := hnext r.1
      rw [timesHanded_act, h.tallied.counted, hrow,
        count_eq_one_of_mem (handedBy_nodup c) (mem_map.mpr ⟨r, hr, rfl⟩)]
        at hle
      exact hle
    · intro hwithin n
      rw [timesHanded_act]
      by_cases hmem : n ∈ (d.world.handedBy c).map Prod.fst
      · obtain ⟨r, hr, rfl⟩ := mem_map.mp hmem
        obtain ⟨row, hrow, -⟩ := handedBy_open hr
        have hlt := hwithin c hcall r hr row hrow
        rw [h.tallied.counted, hrow, count_eq_one_of_mem (handedBy_nodup c) hmem]
        exact hlt
      · rw [count_eq_zero_of_not_mem hmem]
        exact hbound n

theorem absorbing_iff (h : d.Sane) :
    d.Absorbing config step ↔ d.LeavesTerminal config step := by
  constructor
  · intro hkept workerId n outcome hcall row hrow hterminal
    obtain ⟨record, -, -, -, hheld, rfl, -⟩ := call_finish hcall
    obtain ⟨retryAt, hmark⟩ := mark_get? outcome d.world.log record.1
    have hsame := hkept record.1 row.processingStatus (by rw [status, hrow]; rfl) hterminal
    rw [world_next hcall, act, finish, if_pos (h.held _ hheld)] at hsame
    change ((outcome.mark d.world.log (.id record.1)).rows.get? record.1).map _ = _ at hsame
    rw [hmark, hrow] at hsame
    simpa [updated] using hsame
  · intro hleaves n status hstatus hterminal
    obtain ⟨row, hrow, rfl⟩ := Option.map_eq_some_iff.mp hstatus
    cases hcall : d.call config step with
    | none =>
      rw [world_next_none hcall]
      exact hstatus
    | some c =>
      rw [world_next hcall]
      cases act_row h.tallied.fresh c n with
      | handed r hr hid hrow' =>
        obtain ⟨row', hold, hopen, -⟩ := handedBy_open hr
        rw [hid, hrow] at hold
        rw [Option.some.inj hold, hopen] at hterminal
        cases hterminal
      | same hnot hrow' =>
        rw [status, hrow']
        exact hstatus
      | appended row' hnot hnew hrow' hattempts =>
        rw [hnew] at hrow
        cases hrow
      | closed workerId outcome row' retryAt hc hhanded hold hrow' =>
        subst hc
        rw [status, hrow']
        exact congrArg some (hleaves _ _ _ hcall row hrow hterminal)
      | recovered now row' hc hold hstale hrow' =>
        rw [hrow] at hold
        obtain rfl := Option.some.inj hold
        unfold stale at hstale
        unfold terminal at hterminal
        cases hs : row.processingStatus <;> simp [hs] at hstale hterminal

/-! ## Orderly runs -/

/-- What an orderly run keeps: an event that waits for a claim has attempts left, and what a
worker holds is under way. -/
structure Sparing (config : GatewayEventConsumerConfig) (d : Dispatchers) : Prop extends
    Sane d where
  waiting : ∀ n row, d.world.log.rows.get? n = some row → terminal row.processingStatus = false →
    row.processingStatus ≠ processing → row.processingAttempts < config.maxAttempts
  underway : ∀ h ∈ d.held, h.2.2.processingStatus = processing

/-- `_finish_record` sends an event back only while it has attempts left. -/
theorem lt_of_finishRecord_open {attempts : Nat} {status : ResultStatus} {retryable : Bool}
    {nowMicros : Int}
    (h : terminal (EventLog.finishRecord config attempts status retryable nowMicros).status = false) :
    attempts < config.maxAttempts := by
  cases status with
  | failed =>
    rw [EventLog.finishRecord] at h
    split at h
    · cases h
    · next hleft =>
        rw [not_or] at hleft
        exact Nat.lt_of_not_le hleft.2
  | applied => cases h
  | duplicateAlreadyApplied => cases h
  | processed => cases h
  | ignored => cases h
  | reconcileRequired => cases h

theorem Orderly.withinAttempts (h : d.Sparing config) (hok : d.Orderly config step) :
    d.WithinAttempts config step := by
  intro c hcall r hr row hrow
  obtain ⟨row', hrow', hopen, -⟩ := handedBy_open hr
  obtain rfl := Option.some.inj (hrow.symm.trans hrow')
  by_cases hunderway : row.processingStatus = processing
  · -- a batch claim leaves claimed events alone, `claim_event` takes what the step allows
    cases c with
    | claimEvent id workerId leaseSec now =>
      obtain rfl := call_claimEvent hcall
      obtain ⟨found, hfound, -, -⟩ := handedBy_claimEvent hr
      obtain rfl := Option.some.inj (hrow.symm.trans (getRow_get? hfound))
      exact hok (r.1, row) hfound hunderway
    | claimPendingEvents limit eventTypes workerId leaseSec now =>
      have hc := claimPendingEvents_claiming d.world.log limit eventTypes workerId leaseSec now
      obtain ⟨found, hfound, hclaimable, -⟩ := hc.records r hr
      obtain rfl := Option.some.inj (hrow.symm.trans hfound)
      simp [claimable, hunderway] at hclaimable
    | append => exact absurd hr not_mem_nil
    | finish => exact absurd hr not_mem_nil
    | recoverStaleClaims => exact absurd hr not_mem_nil
  · exact h.waiting r.1 row hrow hopen hunderway

theorem Orderly.leavesTerminal (h : d.Sparing config) (hok : d.Orderly config step) :
    d.LeavesTerminal config step := by
  intro workerId n outcome hcall row hrow hterminal
  obtain ⟨record, status, retryable, nowMicros, hheld, rfl, rfl, -⟩ := call_finish hcall
  have hsame := Option.some.inj (hrow.symm.trans (hok hheld))
  rw [hsame, h.underway _ hheld] at hterminal
  cases hterminal

theorem next_sparing (hmax : 0 < config.maxAttempts) (h : d.Sparing config)
    (hok : d.Orderly config step) : (d.next config step).Sparing config := by
  refine { next_sane h.toSane with waiting := ?_, underway := ?_ }
  · intro n row hrow hopen hwaits
    cases hcall : d.call config step with
    | none =>
      rw [world_next_none hcall] at hrow
      exact h.waiting n row hrow hopen hwaits
    | some c =>
      rw [world_next hcall] at hrow
      cases act_row h.tallied.fresh c n with
      | handed r hr hid hrow' =>
        obtain ⟨-, -, -, hprocessing, -⟩ := handedBy_open hr
        rw [hrow'] at hrow
        exact absurd (Option.some.inj hrow ▸ hprocessing) hwaits
      | same hnot hrow' =>
        rw [hrow'] at hrow
        exact h.waiting n row hrow hopen hwaits
      | appended row' hnot hnew hrow' hattempts =>
        rw [hrow'] at hrow
        rw [← Option.some.inj hrow, hattempts]
        exact hmax
      | closed workerId outcome row' retryAt hc hhanded hold hrow' =>
        -- the row is as its worker was handed it, and goes back with attempts left
        subst hc
        obtain ⟨record, status, retryable, nowMicros, hheld, rfl, rfl, rfl⟩ :=
          call_finish hcall
        have hsame := Option.some.inj (hold.symm.trans (hok hheld))
        rw [hrow'] at hrow
        rw [← Option.some.inj hrow] at hopen ⊢
        show row'.processingAttempts < config.maxAttempts
        rw [hsame]
        exact lt_of_finishRecord_open hopen
      | recovered now row' hc hold hstale hrow' =>
        subst hc
        rw [hrow'] at hrow
        rw [← Option.some.inj hrow]
        obtain rfl := call_recoverStaleClaims hcall
        exact hok n row' hold hstale
  · intro entry hmem
    rcases mem_heldAfter config hmem with hold | ⟨c, -, hhanded, -⟩
    · exact h.underway entry hold
    · obtain ⟨-, -, -, hprocessing, -⟩ := handedBy_open hhanded
      exact hprocessing

/-- Events are handed out at most `max_attempts` times exactly if no claim takes one that has
used up its attempts, and their terminal statuses last exactly if no worker overwrites one. Both
hold of orderly runs. -/
theorem attempts_bounded_iff (logConfig : EventLogConfig) (config : GatewayEventConsumerConfig)
    (steps : List DispatcherStep) :
    ((machine config).Always (Bounded config) (init logConfig) steps ↔
        (machine config).Guarded (WithinAttempts config) (init logConfig) steps) ∧
      ((machine config).Guarded (Absorbing config) (init logConfig) steps ↔
        (machine config).Guarded (LeavesTerminal config) (init logConfig) steps) ∧
      (0 < config.maxAttempts → (machine config).Guarded (Orderly config) (init logConfig) steps →
        (machine config).Always (Bounded config) (init logConfig) steps ∧
          (machine config).Guarded (Absorbing config) (init logConfig) steps) := by
  have hsane : (init logConfig).Sane :=
    ⟨⟨fun _ => rfl, fun _ _ => rfl⟩, fun _ hmem => absurd hmem not_mem_nil⟩
  have hbounded : (machine config).Always (Bounded config) (init logConfig) steps ↔
      (machine config).Guarded (WithinAttempts config) (init logConfig) steps := by
    refine Machine.always_iff_guarded (I := Sane) ?_ ?_ hsane fun _ => Nat.zero_le _
    · intro d step h _ _
      exact next_sane h
    · intro d step h hbound
      exact bounded_next_iff h hbound
  have habsorbing : (machine config).Guarded (Absorbing config) (init logConfig) steps ↔
      (machine config).Guarded (LeavesTerminal config) (init logConfig) steps := by
    refine Machine.guarded_iff_guarded (I := Sane) ?_ ?_ hsane
    · intro d step h _
      exact next_sane h
    · intro d step h
      exact absorbing_iff h
  refine ⟨hbounded, habsorbing, fun hmax horderly => ?_⟩
  have hsparing : (init logConfig).Sparing config :=
    { hsane with
      waiting := fun _ _ hrow => absurd hrow.symm (Option.some_ne_none _)
      underway := fun _ hmem => absurd hmem not_mem_nil }
  have hkeeps : ∀ d step, d.Sparing config → d.Orderly config step →
      ((machine config).next d step).Sparing config := fun _ _ => next_sparing hmax
  exact ⟨hbounded.mpr (horderly.imp hkeeps (fun _ _ h => Orderly.withinAttempts h) hsparing),
    habsorbing.mpr (horderly.imp hkeeps (fun _ _ h => Orderly.leavesTerminal h) hsparing)⟩

/-! ## Fixed runs -/

def poisonEvent : GatewayEvent := { type := "order_fill", eventId := "evt-1", timestamp := "t0" }

def twoAttempts : GatewayEventConsumerConfig := { maxAttempts := 2 }

def crashedAttempt (now : Time) : List DispatcherStep :=
  [.claimPendingEvents 10 ["order_fill"] "w" none now, .crash "w", .recoverStaleClaims (now + 30)]

def poisonRun : List DispatcherStep :=
  .append poisonEvent "event:evt-1" "" "t0" :: crashedAttempt 100 ++ crashedAttempt 200 ++
    crashedAttempt 300

def handedFill (workerId : String) (attempts : Nat) (leaseEnd : Time) : Nat × EventLogRecord :=
  (1, { eventId := "evt-1", eventType := "order_fill", dedupeKey := "event:evt-1"
        receivedAt := "t0", processingStatus := processing, processingAttempts := attempts
        claimedBy := workerId, nextRetryAt := some leaseEnd })

def secondAttempt : List DispatcherStep :=
  [.append poisonEvent "event:evt-1" "" "t0",
   .claimPendingEvents 10 ["order_fill"] "w" none 100,
   .finishRecord "w" (handedFill "w" 1 130) .failed true 101000000,
   .claimPendingEvents 10 ["order_fill"] "w" none 110,
   .finishRecord "w" (handedFill "w" 2 140) .applied false 111000000]

def lateFailure : List DispatcherStep :=
  [.append poisonEvent "event:evt-1" "" "t0",
   .claimPendingEvents 10 ["order_fill"] "slow" none 100, .recoverStaleClaims 130,
   .claimPendingEvents 10 ["order_fill"] "w" none 131,
   .finishRecord "w" (handedFill "w" 2 161) .applied false 132000000,
   .finishRecord "slow" (handedFill "slow" 1 130) .failed true 133000000]

theorem attempts_bounded_second_attempt :
    (machine twoAttempts).Always (Bounded twoAttempts) (init {}) secondAttempt ∧
      (machine twoAttempts).Guarded (Absorbing twoAttempts) (init {}) secondAttempt :=
  (attempts_bounded_iff {} twoAttempts secondAttempt).2.2 (by decide)
    ⟨trivial, trivial, fun _ => by decide, trivial, fun _ => by decide, trivial⟩

/-- With two attempts allowed the fill is handed out three times, and a processed fill goes back
to the retries. -/
theorem poison_event_exceeds_attempts :
    ¬ (machine twoAttempts).Always (Bounded twoAttempts) (init {}) poisonRun ∧
      ¬ (machine twoAttempts).Guarded (Absorbing twoAttempts) (init {}) lateFailure := by
  constructor
  · intro h
    have hlast := Machine.always_iff_prefix.mp h poisonRun prefix_rfl 1
    exact absurd hlast (by decide)
  · intro h
    have hlast := Machine.guarded_iff_prefix.mp h (lateFailure.take 5)
      (.finishRecord "slow" (handedFill "slow" 1 130) .failed true 133000000) prefix_rfl
      1 processed (by decide) rfl
    exact absurd hlast (by decide)

end Dispatchers

end TradingCore.EventLog
