import TradingCore.EventLog.Workers

/-!
# Lease exclusion

`Linked` says that the rows record what the workers know: the claim an event is under
is the lease of its row, and its worker is the one the event was last handed to. It
holds as long as the calls keep to `Disciplined`, and while it holds a call is
`LeaseSafe` precisely if it is `Disciplined`: `claim_pending_events` and
`recover_stale_claims` never break a lease, `claim_event` and the completions do,
because they test neither owner nor lease.
-/

namespace TradingCore.EventLog

open Base Broker ProcessingStatus EventLogRepository List EventLogRecord

namespace World

variable {w : World} {c : Call}

variable {workerId : String}

structure Linked (w : World) : Prop where
  lease : ∀ n, w.claim n = (w.log.rows.get? n).bind lease
  last : ∀ n cl, w.claim n = some cl → w.lastWorker n = some cl.worker
  fresh : w.log.FreshIds

theorem lease_eq_none {row : EventLogRecord} (h : row.processingStatus ≠ processing) :
    row.lease = none := if_neg h

theorem lease_claimed (row : EventLogRecord) (workerId : String) (leaseEnd : Time) :
    (claimed row workerId leaseEnd).lease = some ⟨workerId, leaseEnd⟩ := rfl

theorem lease_claimable {row : EventLogRecord} {now : Time} (h : claimable now row = true) :
    row.lease = none := by
  refine lease_eq_none fun hp => ?_
  simp [claimable, hp] at h

theorem outcome_status_ne (outcome : Outcome) : outcome.status ≠ processing := by
  cases outcome <;> simp [Outcome.status]

/-! ## A hand-out keeps the link -/

theorem handOut_linked {log : EventLogRepository} {records : List (Nat × EventLogRecord)}
    (h : w.Linked) (hout : HandsOut w log workerId records) :
    (w.handOut log workerId records).Linked := by
  refine ⟨fun n => ?_, fun n cl hcl => ?_, hout.freshIds h.fresh⟩
  · unfold handOut
    dsimp only
    rw [hout.rows n, h.lease n]
    cases records.find? fun r => decide (r.1 = n) with
    | some r => rfl
    | none => rfl
  · have hfind : (w.handOut log workerId records).lastWorker n =
        (records.find? fun r => r.1 = n).elim (w.lastWorker n) fun _ => some workerId := by
      show (((records.map fun r => (r.1, workerId)) ++ w.handed).find? fun h => h.1 = n).map
        Prod.snd = _
      rw [find?_append, find?_map]
      cases hf : records.find? fun r => decide (r.1 = n) with
      | some r =>
        have hf' : records.find? ((fun h : Nat × String => decide (h.1 = n)) ∘
            fun r => (r.1, workerId)) = some r := hf
        rw [hf']
        rfl
      | none =>
        have hf' : records.find? ((fun h : Nat × String => decide (h.1 = n)) ∘
            fun r => (r.1, workerId)) = none := hf
        rw [hf']
        rfl
    unfold handOut at hcl
    dsimp only at hcl
    rw [hfind]
    cases hf : records.find? fun r => decide (r.1 = n) with
    | some r =>
      rw [hf] at hcl
      obtain ⟨row, leaseEnd, -, hclaimed⟩ := hout.records r (mem_of_find?_eq_some hf)
      have hlease : r.2.lease = some ⟨workerId, leaseEnd⟩ := by
        rw [hclaimed, lease_claimed]
      have hsome : some (⟨workerId, leaseEnd⟩ : Claim) = some cl := hlease.symm.trans hcl
      injection hsome with hcl''
      rw [← hcl'']
      rfl
    | none =>
      rw [hf] at hcl
      exact h.last n cl hcl

/-! ## The other calls keep the link -/

theorem append_linked (h : w.Linked) (event : GatewayEvent) (key serializationError
    nowText : String) : (w.act (.append event key serializationError nowText)).Linked := by
  rcases appendGatewayEvent_cases w.log event key serializationError nowText with
    ⟨hsame, -⟩ | ⟨row, -, hstatus, hnext, -⟩
  · rw [act, hsame]
    exact h
  · have hfresh := act_freshIds (c := .append event key serializationError nowText) h.fresh
    rw [act, hnext] at hfresh ⊢
    have hnew : row.lease = none := by
      refine lease_eq_none ?_
      rw [hstatus]
      split <;> simp
    refine ⟨fun n => ?_, h.last, hfresh⟩
    show w.claim n = ((w.log.rows.set w.log.nextId row).get? n).bind _
    rw [Dict.get?_set, h.lease n]
    by_cases hn : n = w.log.nextId
    · rw [if_pos hn, hn, h.fresh _ (Nat.le_refl _)]
      exact hnew.symm
    · rw [if_neg hn]

theorem recover_linked (h : w.Linked) (now : Time) :
    (w.act (.recoverStaleClaims now)).Linked := by
  refine ⟨fun n => ?_, fun n cl hcl => ?_, act_freshIds (c := .recoverStaleClaims now) h.fresh⟩
  · show (w.claim n).filter (fun cl => decide (now < cl.leaseEnd)) =
      ((w.log.recoverStaleClaims now).rows.get? n).bind _
    rw [recoverStaleClaims_get?, h.lease n]
    cases w.log.rows.get? n with
    | none => rfl
    | some row =>
      simp only [Option.bind_some, Option.map_some]
      by_cases hp : row.processingStatus = processing
      · cases ht : row.nextRetryAt with
        | none => simp [lease, stale, hp, ht]
        | some t =>
          by_cases hle : t ≤ now
          · simp [lease, stale, hp, ht, hle]
          · have hlt : now < t := Int.not_le.mp hle
            simp [lease, stale, hp, ht, hle, hlt]
      · simp [lease, stale, hp]
  · exact h.last n cl (Option.filter_eq_some_iff.mp hcl).1

theorem updated_lease (row : EventLogRecord) (outcome : Outcome) (retryAt : Option (Option Time)) :
    (updated row outcome.status retryAt).lease = none :=
  lease_eq_none (outcome_status_ne outcome)

theorem Linked.takenOver (h : w.Linked) {n : Nat} {cl : Claim} (hhanded : (n, workerId) ∈ w.handed)
    (hcl : w.claim n = some cl) (hne : cl.worker ≠ workerId) : w.TakenOver workerId n := by
  refine ⟨hhanded, ?_⟩
  rw [h.last n cl hcl]
  intro hsame
  injection hsame with hsame
  exact hne hsame

theorem finish_linked {id : Nat} {outcome : Outcome} (h : w.Linked)
    (hok : w.Disciplined (.finish workerId id outcome)) :
    (w.act (.finish workerId id outcome)).Linked := by
  by_cases hhanded : (id, workerId) ∈ w.handed
  · obtain ⟨retryAt, hmark⟩ := mark_get? outcome w.log id
    have hnext : w.act (.finish workerId id outcome) =
        { w with log := outcome.mark w.log (.id id)
                 claim := Function.update w.claim id
                   ((w.claim id).filter fun cl => cl.worker ≠ workerId) } := by
      rw [act, finish, if_pos hhanded]
    -- only its own worker, or one that changes nothing, completes a claimed event
    have hown : (w.claim id).filter (fun cl => decide (cl.worker ≠ workerId)) = none := by
      cases hcl : w.claim id with
      | none => rfl
      | some cl =>
        by_cases hne : cl.worker = workerId
        · simp [hne]
        · have hlease := h.lease id
          rw [hcl] at hlease
          obtain ⟨row, hrow, hl⟩ := Option.bind_eq_some_iff.mp hlease.symm
          have hstatus := hok (h.takenOver hhanded hcl hne) row hrow
          rw [lease_eq_none (hstatus ▸ outcome_status_ne outcome)] at hl
          cases hl
    have hfresh := act_freshIds (c := .finish workerId id outcome) h.fresh
    rw [hnext] at hfresh ⊢
    refine ⟨fun n => ?_, fun n cl hcl => ?_, hfresh⟩
    · show Function.update w.claim id _ n = ((outcome.mark w.log (.id id)).rows.get? n).bind _
      rw [hmark n]
      by_cases hn : n = id
      · subst hn
        rw [Function.update_self, hown]
        cases w.log.rows.get? n with
        | none => rfl
        | some row =>
          simp only [Option.map_some, Option.bind_some, if_true]
          exact (updated_lease row outcome retryAt).symm
      · rw [Function.update_of_ne hn, h.lease n]
        cases w.log.rows.get? n with
        | none => rfl
        | some row => simp [hn]
    · have hcl' : Function.update w.claim id
          ((w.claim id).filter fun cl => decide (cl.worker ≠ workerId)) n = some cl := hcl
      by_cases hn : n = id
      · rw [hn, Function.update_self, hown] at hcl'
        cases hcl'
      · rw [Function.update_of_ne hn] at hcl'
        exact h.last n cl hcl'
  · rw [act, finish, if_neg hhanded]
    exact h

theorem act_linked (h : w.Linked) (hok : w.Disciplined c) : (w.act c).Linked := by
  cases c with
  | append event key serializationError nowText =>
    exact append_linked h event key serializationError nowText
  | claimEvent id workerId leaseSec now =>
    exact handOut_linked h (claimEvent_handsOut id workerId leaseSec now)
  | claimPendingEvents limit eventTypes workerId leaseSec now =>
    exact handOut_linked h (claimPendingEvents_handsOut limit eventTypes workerId leaseSec now)
  | finish workerId id outcome => exact finish_linked h hok
  | recoverStaleClaims now => exact recover_linked h now

/-! ## Safe is disciplined -/

theorem claimPendingEvents_safe (h : w.Linked) (limit : Int) (eventTypes : List String)
    (workerId : String) (leaseSec : Option Int) (now : Time) :
    w.LeaseSafe (.claimPendingEvents limit eventTypes workerId leaseSec now) := by
  intro r hr cl hcl
  have hc := claimPendingEvents_claiming w.log limit eventTypes workerId leaseSec now
  obtain ⟨row, hrow, hclaimable, -⟩ := hc.records r hr
  rw [h.lease r.1, hrow] at hcl
  have hnone : row.lease = some cl := hcl
  rw [lease_claimable hclaimable] at hnone
  cases hnone

theorem claimEvent_safe_iff (h : w.Linked) (id : EventLogId) (workerId : String)
    (leaseSec : Option Int) (now : Time) :
    w.LeaseSafe (.claimEvent id workerId leaseSec now) ↔
      w.Disciplined (.claimEvent id workerId leaseSec now) := by
  rcases claimEvent_cases w.log id workerId leaseSec now with
    ⟨hnone, heq⟩ | ⟨r, hrow, hterm, heq⟩ | ⟨n, row, hrow, -, heq⟩
  · refine ⟨fun _ r hr => ?_, fun _ r hr => ?_⟩
    · rw [hnone] at hr
      cases hr
    · simp [handedBy, heq] at hr
  · have hstatus : r.2.processingStatus ≠ processing := by
      intro hp
      rw [hp] at hterm
      cases hterm
    refine ⟨fun _ r' hr' cl hcl => ?_, fun _ r' hr' => ?_⟩
    · rw [hrow] at hr'
      injection hr' with hr'
      rw [← hr', lease_eq_none hstatus] at hcl
      cases hcl
    · simp [handedBy, heq, hstatus] at hr'
  · have hhanded : w.handedBy (.claimEvent id workerId leaseSec now) =
        [(n, claimed row workerId (w.log.leaseUntil leaseSec now))] := by
      simp [handedBy, heq, claimed]
    have hclaim : w.claim n = row.lease := by
      rw [h.lease n, getRow_get? hrow]
      rfl
    constructor
    · intro hsafe r hr cl hcl hlt
      rw [hrow] at hr
      injection hr with hr
      rw [← hr] at hcl
      exact hsafe _ (by rw [hhanded]; exact mem_singleton_self _) cl (hclaim.trans hcl) hlt
    · intro hok r hr cl hcl hlt
      rw [hhanded] at hr
      rw [mem_singleton.mp hr] at hcl
      exact hok (n, row) hrow cl (hclaim.symm.trans hcl) hlt

theorem finish_safe_iff (workerId : String) (id : Nat) (outcome : Outcome) :
    w.LeaseSafe (.finish workerId id outcome) ↔ w.Disciplined (.finish workerId id outcome) := by
  have hnext : w.TakenOver workerId id → (w.act (.finish workerId id outcome)).status id =
      (w.log.rows.get? id).map fun _ => outcome.status := by
    intro htaken
    obtain ⟨retryAt, hmark⟩ := mark_get? outcome w.log id
    rw [act, finish, if_pos htaken.1]
    show ((outcome.mark w.log (.id id)).rows.get? id).map _ = _
    rw [hmark id]
    cases w.log.rows.get? id with
    | none => rfl
    | some row => simp [updated]
  constructor
  · intro hsafe htaken row hrow
    have hstatus := hsafe htaken
    rw [hnext htaken, status, hrow] at hstatus
    injection hstatus with hstatus
    exact hstatus.symm
  · intro hok htaken
    rw [hnext htaken, status]
    cases hrow : w.log.rows.get? id with
    | none => rfl
    | some row =>
      have hstatus := hok htaken row hrow
      simp [hstatus]

theorem leaseSafe_iff (h : w.Linked) : w.LeaseSafe c ↔ w.Disciplined c := by
  cases c with
  | append event key serializationError nowText => exact Iff.rfl
  | claimEvent id workerId leaseSec now => exact claimEvent_safe_iff h id workerId leaseSec now
  | claimPendingEvents limit eventTypes workerId leaseSec now =>
    exact ⟨fun _ => trivial,
      fun _ => claimPendingEvents_safe h limit eventTypes workerId leaseSec now⟩
  | finish workerId id outcome => exact finish_safe_iff workerId id outcome
  | recoverStaleClaims now => exact Iff.rfl

/-- In every interleaving of appends, claims, completions and recoveries, every call
respects the leases precisely if every call is disciplined. -/
theorem leases_respected_iff_disciplined (config : EventLogConfig) (calls : List Call) :
    machine.Guarded LeaseSafe (init config) calls ↔
      machine.Guarded Disciplined (init config) calls := by
  refine Machine.guarded_iff_guarded (I := Linked) ?_ ?_ ?_
  · intro w c h hok
    exact act_linked h hok
  · intro w c h
    exact leaseSafe_iff h
  · exact ⟨fun _ => rfl, fun _ _ hcl => absurd hcl (by simp [init]), fun _ _ => rfl⟩

def fillEvent : GatewayEvent := { type := "order_fill", eventId := "evt-1", timestamp := "t0" }

def fillClaimed : List Call :=
  [.append fillEvent "event:evt-1" "" "t0", .claimPendingEvents 10 ["order_fill"] "replay" none 100]

/-- The replay worker hangs, its claim is recovered, and another one takes the fill over. -/
def fillTakenOver : List Call :=
  fillClaimed ++ [.recoverStaleClaims 130, .claimPendingEvents 10 ["order_fill"] "spare" none 131]

def liveClaim : Call := .claimEvent (.eventId "evt-1") "live" none 101

/-- Two ways to break a lease: the live consumer claims the fill that a replay worker is
working on; and a worker that comes back late gives up the fill that another one has
taken over. -/
theorem claim_is_stolen :
    ¬ machine.Guarded LeaseSafe (init {}) (fillClaimed ++ [liveClaim]) ∧
      ¬ machine.Guarded LeaseSafe (init {}) (fillTakenOver ++ [.finish "replay" 1 .deadLetter]) := by
  constructor
  · intro h
    have hsafe := Machine.guarded_iff_prefix.mp h fillClaimed liveClaim (prefix_refl _)
    have hids : ((machine.run (init {}) fillClaimed).handedBy liveClaim).map Prod.fst = [1] := by
      decide
    obtain ⟨r, hr, hid⟩ := mem_map.mp (hids ▸ mem_singleton_self 1)
    have hclaim : (machine.run (init {}) fillClaimed).claim r.1 = some ⟨"replay", 130⟩ := by
      rw [hid]
      decide
    have hworker := hsafe r hr _ hclaim (by decide)
    exact absurd hworker (by decide)
  · intro h
    have hsafe := Machine.guarded_iff_prefix.mp h fillTakenOver (.finish "replay" 1 .deadLetter)
      (prefix_refl _)
    have htaken : (machine.run (init {}) fillTakenOver).TakenOver "replay" 1 :=
      ⟨by decide, by decide⟩
    exact absurd (hsafe htaken) (by decide)

end World

end TradingCore.EventLog
