import TradingCore.EventLog.Consumer

/-!
# What the readiness flag promises

`order_lifecycle_ready` should mean that every order-critical event has been
processed or ignored. It looks at four statuses (`Open`), and `FAILED` is not among
them: a failed event goes unseen as soon as no critical event is open
(`replayed_iff`). `replayed_iff_attended` carries this over runs: which calls
bring such a state about.
-/

namespace TradingCore.EventLog

open Base Broker ProcessingStatus EventLogRepository List EventLogRecord

def ProcessingStatus.open : ProcessingStatus → Bool
  | pending | processing | retryWait | deadLetter => true
  | processed | ignored | failed => false

/-! ## Statuses by id -/

section Statuses

def SomeOpen (f : Nat → Option ProcessingStatus) : Prop := ∃ n s, f n = some s ∧ s.open = true

def FailuresSeen (f : Nat → Option ProcessingStatus) : Prop :=
  (∃ n, f n = some failed) → SomeOpen f

variable {f g : Nat → Option ProcessingStatus} {n : Nat} {s : ProcessingStatus}

theorem failuresSeen_of_open (hn : g n = some s) (hs : s.open = true) : FailuresSeen g :=
  fun _ => ⟨n, s, hn, hs⟩

theorem failuresSeen_closed_iff (hn : g n = some s) (hs : s.open = false)
    (hrest : ∀ m, m ≠ n → g m = f m) :
    FailuresSeen g ↔
      (∃ m t, m ≠ n ∧ f m = some t ∧ t.open = true) ∨
        s ≠ failed ∧ ∀ m, m ≠ n → f m ≠ some failed := by
  constructor
  · intro h
    by_cases hfail : ∃ m, g m = some failed
    · obtain ⟨m, t, hm, ht⟩ := h hfail
      have hne : m ≠ n := by
        intro hmn
        rw [hmn, hn] at hm
        injection hm with hst
        rw [hst, ht] at hs
        cases hs
      exact .inl ⟨m, t, hne, hrest m hne ▸ hm, ht⟩
    · refine .inr ⟨fun hsf => hfail ⟨n, hsf ▸ hn⟩, fun m hne hm => hfail ⟨m, ?_⟩⟩
      rw [hrest m hne]
      exact hm
  · intro h hfail
    rcases h with ⟨m, t, hne, hm, ht⟩ | ⟨hsf, hnone⟩
    · exact ⟨m, t, (hrest m hne).trans hm, ht⟩
    · obtain ⟨m, hm⟩ := hfail
      by_cases hmn : m = n
      · rw [hmn, hn] at hm
        injection hm with hst
        exact absurd hst hsf
      · rw [hrest m hmn] at hm
        exact absurd hm (hnone m hmn)

end Statuses

/-! ## The flag -/

namespace EventLogRepository

def criticalStatus (log : EventLogRepository) (n : Nat) : Option ProcessingStatus :=
  ((log.rows.get? n).filter critical).map processingStatus

variable {log : EventLogRepository}

theorem criticalStatus_eq_some {n : Nat} {s : ProcessingStatus} :
    log.criticalStatus n = some s ↔
      ∃ row, log.rows.get? n = some row ∧ row.critical = true ∧ row.processingStatus = s := by
  unfold criticalStatus
  rw [Option.map_eq_some_iff]
  constructor
  · rintro ⟨row, hrow, hs⟩
    obtain ⟨hget, hcrit⟩ := Option.filter_eq_some_iff.mp hrow
    exact ⟨row, hget, hcrit, hs⟩
  · rintro ⟨row, hget, hcrit, hs⟩
    exact ⟨row, Option.filter_eq_some_iff.mpr ⟨hget, hcrit⟩, hs⟩

theorem length_criticalRows {s : ProcessingStatus} :
    (log.criticalRows s).length = 0 ↔ ∀ n, log.criticalStatus n ≠ some s := by
  rw [length_eq_zero_iff, criticalRows, filter_eq_nil_iff]
  constructor
  · intro h n hn
    obtain ⟨row, hget, hcrit, hs⟩ := criticalStatus_eq_some.mp hn
    exact h row (Dict.mem_values_iff.mpr ⟨n, hget⟩) (by simp [hcrit, hs])
  · intro h row hrow hmatch
    obtain ⟨n, hget⟩ := Dict.mem_values_iff.mp hrow
    obtain ⟨hcrit, hs⟩ := Bool.and_eq_true_iff.mp hmatch
    exact h n (criticalStatus_eq_some.mpr ⟨row, hget, hcrit, by simpa using hs⟩)

theorem backlogReady_iff :
    log.criticalBacklogSnapshot.orderLifecycleReady = true ↔ ¬ SomeOpen log.criticalStatus := by
  have hcounts : log.criticalBacklogSnapshot.orderLifecycleReady = true ↔
      (((log.criticalRows pending).length = 0 ∧ (log.criticalRows processing).length = 0) ∧
        (log.criticalRows retryWait).length = 0) ∧ (log.criticalRows deadLetter).length = 0 := by
    simp [criticalBacklogSnapshot]
  rw [hcounts]
  simp only [length_criticalRows]
  constructor
  · rintro ⟨⟨⟨hp, hq⟩, hr⟩, hd⟩ ⟨n, s, hn, hs⟩
    cases s with
    | pending => exact hp n hn
    | processing => exact hq n hn
    | retryWait => exact hr n hn
    | deadLetter => exact hd n hn
    | processed | ignored | failed => cases hs
  · intro h
    refine ⟨⟨⟨fun n hn => h ⟨n, _, hn, rfl⟩, fun n hn => h ⟨n, _, hn, rfl⟩⟩,
      fun n hn => h ⟨n, _, hn, rfl⟩⟩, fun n hn => h ⟨n, _, hn, rfl⟩⟩

theorem waitingRows_eq_nil (h : ¬ SomeOpen log.criticalStatus) : log.waitingRows = [] := by
  refine filter_eq_nil_iff.mpr fun row hrow hmatch => h ?_
  obtain ⟨n, hget⟩ := Dict.mem_values_iff.mp hrow
  obtain ⟨hcrit, hs⟩ := Bool.and_eq_true_iff.mp hmatch
  refine ⟨n, row.processingStatus, criticalStatus_eq_some.mpr ⟨row, hget, hcrit, rfl⟩, ?_⟩
  cases hst : row.processingStatus with
  | pending | processing | retryWait | deadLetter => rfl
  | processed | ignored | failed => simp [hst] at hs

theorem consumerReady_iff (config : GatewayEventConsumerConfig) (elapsed : String → Option Int) :
    (consumerHealth config elapsed log).orderLifecycleReady = true ↔
      ¬ SomeOpen log.criticalStatus := by
  rw [← backlogReady_iff]
  constructor
  · intro h
    exact (Bool.and_eq_true_iff.mp h).1
  · intro h
    have hnone := backlogReady_iff.mp h
    have hpending : (log.criticalRows pending).length = 0 :=
      length_criticalRows.mpr fun n hn => hnone ⟨n, _, hn, rfl⟩
    have hdead : (log.criticalRows deadLetter).length = 0 :=
      length_criticalRows.mpr fun n hn => hnone ⟨n, _, hn, rfl⟩
    have hage : age elapsed log.criticalBacklogSnapshot.oldestPendingAt = 0 := by
      simp [criticalBacklogSnapshot, waitingRows_eq_nil hnone, age]
    have hmax : ¬ (config.pendingMaxAgeSec : Int) * 1000000 < 0 := by omega
    refine Bool.and_eq_true_iff.mpr ⟨h, ?_⟩
    rw [hage]
    simp [criticalBacklogSnapshot, hpending, hdead, hmax]

end EventLogRepository

/-! ## Ready means replayed -/

namespace World

/-- Whenever the consumer reports ready, every order-critical event is processed or
ignored. -/
def ReplayedWhenReady (config : GatewayEventConsumerConfig) (w : World) : Prop :=
  ∀ elapsed, (consumerHealth config elapsed w.log).orderLifecycleReady = true →
    ∀ n row, w.log.rows.get? n = some row → row.critical = true →
      row.processingStatus = processed ∨ row.processingStatus = ignored

variable {w : World} {c : Call}

theorem replayed_iff (config : GatewayEventConsumerConfig) :
    w.ReplayedWhenReady config ↔ FailuresSeen w.log.criticalStatus := by
  constructor
  · intro h hfail
    obtain ⟨n, hn⟩ := hfail
    obtain ⟨row, hget, hcrit, hs⟩ := criticalStatus_eq_some.mp hn
    by_contra hopen
    have hready := (consumerReady_iff config (fun _ => none)).mpr hopen
    rcases h _ hready n row hget hcrit with h' | h'
    · rw [hs] at h'
      cases h'
    · rw [hs] at h'
      cases h'
  · intro h elapsed hready n row hget hcrit
    have hopen := (consumerReady_iff config elapsed).mp hready
    have hn := criticalStatus_eq_some.mpr ⟨row, hget, hcrit, rfl⟩
    cases hs : row.processingStatus with
    | processed => exact .inl rfl
    | ignored => exact .inr rfl
    | failed => exact absurd (h ⟨n, hs ▸ hn⟩) hopen
    | pending | processing | retryWait | deadLetter =>
      exact absurd ⟨n, row.processingStatus, hn, by rw [hs]; rfl⟩ hopen

variable {log : EventLogRepository}

/-- The calls that leave no failure unseen. A critical event is appended with a
serialization error only while a critical event is open; and a critical event is
completed as processed, ignored or failed only while another one is open, or if no
critical event is left failed. -/
def Attended (w : World) : Call → Prop
  | .append event key serializationError nowText =>
      event.type ∈ replayableGatewayEventTypes → serializationError ≠ "" →
        (w.log.appendGatewayEvent event key serializationError nowText).2.appended = true →
        SomeOpen w.log.criticalStatus
  | .finish workerId n outcome =>
      (n, workerId) ∈ w.handed → (w.log.criticalStatus n).isSome = true →
        outcome.status.open = false →
        (∃ m t, m ≠ n ∧ w.log.criticalStatus m = some t ∧ t.open = true) ∨
          outcome.status ≠ failed ∧ ∀ m, m ≠ n → w.log.criticalStatus m ≠ some failed
  | _ => True

/-! ## Call by call -/

theorem criticalStatus_congr {log' : EventLogRepository} {n : Nat}
    (h : log'.rows.get? n = log.rows.get? n) : log'.criticalStatus n = log.criticalStatus n := by
  rw [criticalStatus, h, criticalStatus]

theorem criticalStatus_eq_none {n : Nat} {row : EventLogRecord} (hget : log.rows.get? n = some row)
    (h : row.critical = false) : log.criticalStatus n = none := by
  simp [criticalStatus, hget, h]

theorem append_failuresSeen_iff (hfresh : w.log.FreshIds) (h : FailuresSeen w.log.criticalStatus)
    (event : GatewayEvent) (key serializationError nowText : String) :
    FailuresSeen (w.act (.append event key serializationError nowText)).log.criticalStatus ↔
      w.Attended (.append event key serializationError nowText) := by
  have hnew : w.log.criticalStatus w.log.nextId = none := by
    simp [criticalStatus, hfresh _ (Nat.le_refl _)]
  rcases appendGatewayEvent_cases w.log event key serializationError nowText with
    ⟨hsame, happ⟩ | ⟨row, htype, hstatus, hnext, happ⟩
  · show FailuresSeen (w.log.appendGatewayEvent event key serializationError nowText).1.criticalStatus
      ↔ _
    rw [hsame]
    refine ⟨fun _ _ _ happ' => ?_, fun _ => h⟩
    rw [happ] at happ'
    cases happ'
  · show FailuresSeen (w.log.appendGatewayEvent event key serializationError nowText).1.criticalStatus
      ↔ _
    rw [hnext]
    -- the new row is the only difference
    have hget : ∀ n, ({ w.log with rows := w.log.rows.set w.log.nextId row
                                   nextId := w.log.nextId + 1 } : EventLogRepository).rows.get? n =
        if n = w.log.nextId then some row else w.log.rows.get? n :=
      fun n => Dict.get?_set w.log.rows w.log.nextId n row
    have hrest : ∀ m, m ≠ w.log.nextId →
        ({ w.log with rows := w.log.rows.set w.log.nextId row
                      nextId := w.log.nextId + 1 } : EventLogRepository).criticalStatus m =
          w.log.criticalStatus m := by
      intro m hm
      apply criticalStatus_congr
      rw [hget m, if_neg hm]
    have hself := hget w.log.nextId
    rw [if_pos rfl] at hself
    generalize ({ w.log with rows := w.log.rows.set w.log.nextId row
                             nextId := w.log.nextId + 1 } : EventLogRepository) = log'
      at hrest hself
    cases hcrit : row.critical with
    | false =>
      have hsame : log'.criticalStatus = w.log.criticalStatus := by
        funext m
        by_cases hm : m = w.log.nextId
        · rw [hm, hnew, criticalStatus_eq_none hself hcrit]
        · exact hrest m hm
      rw [hsame]
      refine ⟨fun _ hcrit' => ?_, fun _ => h⟩
      simp [critical, htype, hcrit'] at hcrit
    | true =>
      have hn := criticalStatus_eq_some.mpr ⟨row, hself, hcrit, hstatus⟩
      have hcrit' : event.type ∈ replayableGatewayEventTypes := by
        simpa [critical, htype] using hcrit
      by_cases herr : serializationError = ""
      · rw [herr] at hn
        refine ⟨fun _ _ hne => absurd herr hne, fun _ => failuresSeen_of_open hn rfl⟩
      · rw [if_pos herr] at hn
        rw [failuresSeen_closed_iff hn rfl hrest]
        constructor
        · intro hseen _ _ _
          rcases hseen with ⟨m, t, -, hm, ht⟩ | ⟨hne, -⟩
          · exact ⟨m, t, hm, ht⟩
          · exact absurd rfl hne
        · intro hatt
          obtain ⟨m, t, hm, ht⟩ := hatt hcrit' herr happ
          refine .inl ⟨m, t, fun hmn => ?_, hm, ht⟩
          rw [hmn, hnew] at hm
          cases hm

theorem handOut_failuresSeen {workerId : String} {records : List (Nat × EventLogRecord)}
    (h : FailuresSeen w.log.criticalStatus) (hout : HandsOut w log workerId records) :
    FailuresSeen log.criticalStatus := by
  by_cases hsome : ∃ n r, records.find? (fun r => decide (r.1 = n)) = some r ∧ r.2.critical = true
  · obtain ⟨n, r, hfind, hcrit⟩ := hsome
    have hget : log.rows.get? n = some r.2 := by
      rw [hout.rows n, hfind]
    obtain ⟨row, leaseEnd, -, hclaimed⟩ := hout.records r (mem_of_find?_eq_some hfind)
    have hstatus : r.2.processingStatus = processing := by
      rw [hclaimed]
      rfl
    exact failuresSeen_of_open (criticalStatus_eq_some.mpr ⟨r.2, hget, hcrit, hstatus⟩) rfl
  · have hsame : log.criticalStatus = w.log.criticalStatus := by
      funext n
      cases hfind : records.find? fun r => decide (r.1 = n) with
      | none =>
        apply criticalStatus_congr
        rw [hout.rows n, hfind]
      | some r =>
        obtain ⟨row, leaseEnd, hrow, hclaimed⟩ :=
          hout.records r (mem_of_find?_eq_some hfind)
        have hid : r.1 = n := by simpa using find?_some hfind
        have hget : log.rows.get? n = some r.2 := by
          rw [hout.rows n, hfind]
        have hcrit : r.2.critical = false := by
          cases hc : r.2.critical with
          | false => rfl
          | true => exact absurd ⟨n, r, hfind, hc⟩ hsome
        have hcrit' : row.critical = false := by
          rw [hclaimed] at hcrit
          exact hcrit
        rw [criticalStatus_eq_none hget hcrit, criticalStatus_eq_none (hid ▸ hrow) hcrit']
    rw [hsame]
    exact h

theorem recover_failuresSeen (h : FailuresSeen w.log.criticalStatus) (now : Time) :
    FailuresSeen (w.act (.recoverStaleClaims now)).log.criticalStatus := by
  have hrow : ∀ n, (w.log.recoverStaleClaims now).criticalStatus n = w.log.criticalStatus n ∨
      w.log.criticalStatus n = some processing ∧
        (w.log.recoverStaleClaims now).criticalStatus n = some pending := by
    intro n
    have hget := recoverStaleClaims_get? w.log now n
    cases hr : w.log.rows.get? n with
    | none =>
      rw [hr] at hget
      refine .inl (criticalStatus_congr ?_)
      rw [hget, hr]
      rfl
    | some row =>
      rw [hr] at hget
      cases hstale : stale now row with
      | false =>
        refine .inl (criticalStatus_congr ?_)
        rw [hget, hr]
        simp [hstale]
      | true =>
        have hp : row.processingStatus = processing := by
          simpa using (Bool.and_eq_true_iff.mp hstale).1
        cases hcrit : row.critical with
        | true =>
          refine .inr ⟨criticalStatus_eq_some.mpr ⟨row, hr, hcrit, hp⟩,
            criticalStatus_eq_some.mpr ⟨_, hget, ?_, ?_⟩⟩
          · simp only [hstale, if_true]
            exact hcrit
          · simp [hstale]
        | false =>
          refine .inl ?_
          rw [criticalStatus_eq_none hr hcrit]
          refine criticalStatus_eq_none hget ?_
          simp only [hstale, if_true]
          exact hcrit
  intro hfail
  obtain ⟨n, hn⟩ := hfail
  have hn' : (w.log.recoverStaleClaims now).criticalStatus n = some failed := hn
  have hfailed : w.log.criticalStatus n = some failed := by
    rcases hrow n with hsame | ⟨-, hpending⟩
    · exact hsame.symm.trans hn'
    · rw [hpending] at hn'
      cases hn'
  obtain ⟨m, t, hm, ht⟩ := h ⟨n, hfailed⟩
  rcases hrow m with hsame | ⟨-, hpending⟩
  · exact ⟨m, t, hsame.trans hm, ht⟩
  · exact ⟨m, pending, hpending, rfl⟩

theorem finish_failuresSeen_iff (h : FailuresSeen w.log.criticalStatus) (workerId : String)
    (n : Nat) (outcome : Outcome) :
    FailuresSeen (w.act (.finish workerId n outcome)).log.criticalStatus ↔
      w.Attended (.finish workerId n outcome) := by
  by_cases hhanded : (n, workerId) ∈ w.handed
  · obtain ⟨retryAt, hmark⟩ := mark_get? outcome w.log n
    have hlog : (w.act (.finish workerId n outcome)).log = outcome.mark w.log (.id n) := by
      rw [act, finish, if_pos hhanded]
    rw [hlog]
    have hrest : ∀ m, m ≠ n →
        (outcome.mark w.log (.id n)).criticalStatus m = w.log.criticalStatus m := by
      intro m hm
      apply criticalStatus_congr
      rw [hmark m]
      simp [hm]
    cases hcrit : w.log.criticalStatus n with
    | none =>
      have hsame : (outcome.mark w.log (.id n)).criticalStatus = w.log.criticalStatus := by
        funext m
        by_cases hm : m = n
        · subst hm
          have hget := hmark m
          cases hr : w.log.rows.get? m with
          | none =>
            rw [hr] at hget
            apply criticalStatus_congr
            rw [hget, hr]
            rfl
          | some row =>
            have hc : row.critical = false := by
              cases hc : row.critical with
              | false => rfl
              | true =>
                rw [criticalStatus_eq_some.mpr ⟨row, hr, hc, rfl⟩] at hcrit
                cases hcrit
            rw [hr] at hget
            rw [hcrit]
            refine criticalStatus_eq_none hget ?_
            simp only [if_true]
            exact hc
        · exact hrest m hm
      rw [hsame]
      refine ⟨fun _ _ hsome => ?_, fun _ => h⟩
      rw [hcrit] at hsome
      cases hsome
    | some s =>
      obtain ⟨row, hr, hc, -⟩ := criticalStatus_eq_some.mp hcrit
      have hget := hmark n
      rw [hr] at hget
      have hn : (outcome.mark w.log (.id n)).criticalStatus n = some outcome.status := by
        refine criticalStatus_eq_some.mpr ⟨_, hget, ?_, ?_⟩
        · simp only [if_true]
          exact hc
        · simp [updated]
      cases hopen : outcome.status.open with
      | true =>
        refine ⟨fun _ _ _ hclosed => ?_, fun _ => failuresSeen_of_open hn hopen⟩
        rw [hopen] at hclosed
        cases hclosed
      | false =>
        rw [failuresSeen_closed_iff hn hopen hrest]
        refine ⟨fun hseen _ _ _ => hseen, fun hatt => hatt hhanded ?_ hopen⟩
        rw [hcrit]
        rfl
  · have hsame : w.act (.finish workerId n outcome) = w := by
      rw [act, finish, if_neg hhanded]
    rw [hsame]
    exact ⟨fun _ hin => absurd hin hhanded, fun _ => h⟩

theorem act_failuresSeen_iff (hfresh : w.log.FreshIds) (h : FailuresSeen w.log.criticalStatus) :
    FailuresSeen (w.act c).log.criticalStatus ↔ w.Attended c := by
  cases c with
  | append event key serializationError nowText =>
    exact append_failuresSeen_iff hfresh h event key serializationError nowText
  | claimEvent id workerId leaseSec now =>
    exact ⟨fun _ => trivial,
      fun _ => handOut_failuresSeen h (claimEvent_handsOut id workerId leaseSec now)⟩
  | claimPendingEvents limit eventTypes workerId leaseSec now =>
    exact ⟨fun _ => trivial, fun _ => handOut_failuresSeen h
      (claimPendingEvents_handsOut limit eventTypes workerId leaseSec now)⟩
  | finish workerId n outcome => exact finish_failuresSeen_iff h workerId n outcome
  | recoverStaleClaims now => exact ⟨fun _ => trivial, fun _ => recover_failuresSeen h now⟩

/-! ## Over whole runs -/

/-- A fill that cannot be serialized is logged as `FAILED` at once. -/
def unserializableRun : List Call :=
  [.append { type := "order_fill", eventId := "evt-1", timestamp := "t0" } "event:evt-1"
    "PAYLOAD_SERIALIZATION_FAILED:keys must be str" "t0"]

end World

end TradingCore.EventLog
