import TradingCore.Broker.QueueLemmas

/-!
# Active dedupe keys

`enqueue` refuses a command whose dedupe key an active record has. Whether this
keeps the active records of a key unique depends on the reports that come
later: an ack or a retryable failure may put a finished record back into an
active status after its key was taken by another command.

* `AtMostOneActive` — no two active records share a dedupe key;
* `KeepsKeysFree` — a step makes an inactive record active only while no other
  record of its key is.

The second, asked of every step, is exactly what the first needs along a run.
-/

namespace TradingCore.Broker

open Base CommandRecord Option

namespace CommandQueue

/-- No two active records share a dedupe key. -/
def AtMostOneActive (q : CommandQueue) : Prop :=
  ∀ i j a b, q.records.get? i = some a → q.records.get? j = some b →
    a.dedupeKey = b.dedupeKey → a.active = true → b.active = true → i = j

/-- The step makes an inactive record active only while its key is free. -/
def KeepsKeysFree (q : CommandQueue) (s : Step) : Prop :=
  match s.call with
  | .ack commandId status _ _ =>
      status ∈ activeDedupeStatuses →
        ∀ record, q.records.get? commandId = some record → record.active = false →
          q.activeDuplicate record.dedupeKey = none
  | .fail commandId _ retryable =>
      ∀ record, q.records.get? commandId = some record →
        record.requeues retryable s.now = true → record.active = false →
          q.activeDuplicate record.dedupeKey = none
  | _ => True

/-- What the uniqueness argument asks of a queue: its shape, and no empty key. -/
structure Keyed (q : CommandQueue) : Prop where
  wellFormed : q.WellFormed
  keyed : ∀ id record, q.records.get? id = some record → record.dedupeKey ≠ ""

theorem keyed_empty : Keyed {} := by
  refine ⟨wellFormed_empty, ?_⟩
  intro id record h
  cases h

/-- Every record after the step is one from before, under the same id and with
the same key, and active only if that one was. -/
def OnlyRetires (q q' : CommandQueue) : Prop :=
  ∀ id record, q'.records.get? id = some record →
    ∃ old, q.records.get? id = some old ∧ record.dedupeKey = old.dedupeKey ∧
      (record.active = true → old.active = true)

variable {q q' : CommandQueue}

theorem AtMostOneActive.of_retires (h : AtMostOneActive q) (hret : OnlyRetires q q') :
    AtMostOneActive q' := by
  intro i j a b ha hb hkey haa hba
  obtain ⟨a₀, ha₀, hka, haa₀⟩ := hret i a ha
  obtain ⟨b₀, hb₀, hkb, hba₀⟩ := hret j b hb
  exact h i j a₀ b₀ ha₀ hb₀ (by rw [← hka, ← hkb, hkey]) (haa₀ haa) (hba₀ hba)

theorem atMostOneActive_rewrite {id : String} {f : CommandRecord → CommandRecord} (hk : q.Keyed)
    (h : AtMostOneActive q) (hf : ∀ r, (f r).dedupeKey = r.dedupeKey)
    (hget : ∀ j, q'.records.get? j =
      if j = id then (q.records.get? id).map f else q.records.get? j) :
    AtMostOneActive q' ↔
      ∀ record, q.records.get? id = some record → (f record).active = true →
        record.active = false → q.activeDuplicate record.dedupeKey = none := by
  have hother : ∀ {j}, j ≠ id → q'.records.get? j = q.records.get? j := by
    intro j hj
    rw [hget, if_neg hj]
  have hself : q'.records.get? id = (q.records.get? id).map f := by
    rw [hget, if_pos rfl]
  constructor
  · intro h' record hrec hact hinact
    rw [activeDuplicate_eq_none (hk.keyed id record hrec)]
    intro j b hb hkey
    -- an active holder of the key would be a second active record
    cases hba : b.active with
    | false => rfl
    | true =>
      have hj : j ≠ id := by
        intro heq
        rw [heq, hrec] at hb
        injection hb with hb
        rw [← hb, hinact] at hba
        cases hba
      refine absurd (h' j id b (f record) ?_ ?_ ?_ hba hact) hj
      · rw [hother hj, hb]
      · rw [hself, hrec]
        rfl
      · rw [hf, hkey]
  · intro hfree
    -- a pair that involves the rewritten record
    have hpair : ∀ j record b, q.records.get? id = some record →
        q.records.get? j = some b → (f record).dedupeKey = b.dedupeKey →
        (f record).active = true → b.active = true → j = id := by
      intro j record b hrec hb hkey hact hba
      by_cases hra : record.active = true
      · exact h j id b record hb hrec (by rw [← hkey, hf]) hba hra
      · have hnone := hfree record hrec hact (Bool.eq_false_iff.mpr hra)
        rw [activeDuplicate_eq_none (hk.keyed id record hrec)] at hnone
        have := hnone j b hb (by rw [← hkey, hf])
        rw [hba] at this
        cases this
    intro i j a b ha hb hkey haa hba
    by_cases hi : i = id
    · by_cases hj : j = id
      · rw [hi, hj]
      · rw [hi, hself, map_eq_some_iff] at ha
        obtain ⟨record, hrec, rfl⟩ := ha
        rw [hother hj] at hb
        rw [hi, hpair j record b hrec hb hkey haa hba]
    · rw [hother hi] at ha
      by_cases hj : j = id
      · rw [hj, hself, map_eq_some_iff] at hb
        obtain ⟨record, hrec, rfl⟩ := hb
        rw [hj, hpair i record a hrec ha hkey.symm hba haa]
      · rw [hother hj] at hb
        exact h i j a b ha hb hkey haa hba

/-! ## The operations -/

theorem retires_expireOld (q : CommandQueue) (now : Time) :
    OnlyRetires q (q.expireOld now).1 := by
  intro id record h
  rw [expireOld_get?, map_eq_some_iff] at h
  obtain ⟨old, hold, rfl⟩ := h
  refine ⟨old, hold, (sameCommand_expire old now).dedupeKey, ?_⟩
  intro hact
  unfold active at hact ⊢
  rw [expire_status] at hact
  split at hact
  · simp [activeDedupeStatuses] at hact
  · exact hact

theorem OnlyRetires.trans {q'' : CommandQueue} (h : OnlyRetires q q') (h' : OnlyRetires q' q'') :
    OnlyRetires q q'' := by
  intro id record hrec
  obtain ⟨mid, hmid, hk, ha⟩ := h' id record hrec
  obtain ⟨old, hold, hk₀, ha₀⟩ := h id mid hmid
  exact ⟨old, hold, hk.trans hk₀, fun hact => ha₀ (ha hact)⟩

theorem retires_dispatch (hwf : q.WellFormed) (limit : Int) (now : Time) :
    OnlyRetires q (q.dispatch limit now).1 := by
  refine (retires_expireOld q now).trans ?_
  obtain ⟨sent, -, hd⟩ := dispatch_spec hwf limit now
  intro id record hrec
  by_cases hid : id ∈ sent.map (·.commandId)
  · obtain ⟨r, hr, rfl⟩ := List.mem_map.mp hid
    obtain ⟨old, hold, hq, -, hr', hafter⟩ := hd.of_sent r hr
    rw [hafter] at hrec
    injection hrec with hrec
    refine ⟨old, hold, by rw [← hrec, hr']; rfl, ?_⟩
    intro _
    simp [active, hq, activeDedupeStatuses]
  · rcases hd.of_unsent id hid with heq | ⟨old, hold, -, -, hafter⟩
    · rw [heq] at hrec
      exact ⟨record, hrec, rfl, fun hact => hact⟩
    · rw [hafter] at hrec
      injection hrec with hrec
      refine ⟨old, hold, by rw [← hrec]; rfl, ?_⟩
      intro hact
      rw [← hrec] at hact
      simp [active, finish, activeDedupeStatuses] at hact

theorem retires_cancel (q : CommandQueue) (commandId : String) (now : Time) :
    OnlyRetires q (q.cancel commandId now).1 := by
  intro id record hrec
  rcases cancel_cases q commandId now with ⟨old, hold, -, heq⟩ | ⟨-, heq⟩
  · rw [heq] at hrec
    simp only [Dict.get?_set] at hrec
    by_cases hid : id = commandId
    · rw [if_pos hid] at hrec
      injection hrec with hrec
      refine ⟨old, by rw [hid, hold], by rw [← hrec]; rfl, ?_⟩
      intro hact
      rw [← hrec] at hact
      simp [active, finish, activeDedupeStatuses] at hact
    · rw [if_neg hid] at hrec
      exact ⟨record, hrec, rfl, fun hact => hact⟩
  · rw [heq] at hrec
    exact ⟨record, hrec, rfl, fun hact => hact⟩

theorem retires_prune (hwf : q.WellFormed) (olderThanSec : Int) (now : Time) :
    OnlyRetires q (q.prune olderThanSec now).1 := by
  intro id record hrec
  rw [hwf.prune_get?, filter_eq_some_iff] at hrec
  exact ⟨record, hrec.1, rfl, fun hact => hact⟩

theorem atMostOneActive_enqueue (h : AtMostOneActive q) (digest : GatewayCommand → String)
    (command : GatewayCommand) (options : EnqueueOptions) (now : Time) :
    AtMostOneActive (q.enqueue digest command options now).1 := by
  rcases enqueue_cases digest q command options now with
    ⟨-, hrec, -⟩ | ⟨-, -, -, hfree, hrec, -⟩
  · unfold AtMostOneActive
    rw [hrec]
    exact h
  · rw [activeDuplicate_eq_none (dedupeKeyForCommand_ne_empty digest command)] at hfree
    intro i j a b ha hb hkey haa hba
    rw [hrec, Dict.get?_set] at ha hb
    split at ha
    · rename_i hi
      injection ha with ha
      split at hb
      · rename_i hj
        rw [hi, hj]
      · have := hfree j b hb (by rw [← hkey, ← ha]; rfl)
        rw [hba] at this
        cases this
    · split at hb
      · injection hb with hb
        have := hfree i a ha (by rw [hkey, ← hb]; rfl)
        rw [haa] at this
        cases this
      · exact h i j a b ha hb hkey haa hba

section

variable (hk : q.Keyed)
include hk

theorem Keyed.enqueue (digest : GatewayCommand → String) (command : GatewayCommand)
    (options : EnqueueOptions) (now : Time) : (q.enqueue digest command options now).1.Keyed := by
  refine ⟨hk.wellFormed.enqueue digest command options now, ?_⟩
  intro id record hrec
  rcases enqueue_cases digest q command options now with ⟨-, hr, -⟩ | ⟨-, -, -, -, hr, -⟩
  · rw [hr] at hrec
    exact hk.keyed id record hrec
  · rw [hr, Dict.get?_set] at hrec
    split at hrec
    · injection hrec with hrec
      rw [← hrec]
      exact create_dedupeKey_ne_empty digest command options now
    · exact hk.keyed id record hrec

theorem Keyed.of_retires (hwf : q'.WellFormed) (hret : OnlyRetires q q') : q'.Keyed := by
  refine ⟨hwf, ?_⟩
  intro id record hrec
  obtain ⟨old, hold, hkey, -⟩ := hret id record hrec
  rw [hkey]
  exact hk.keyed id old hold

theorem Keyed.rewrite {id : String} {f : CommandRecord → CommandRecord} (hwf : q'.WellFormed)
    (hf : ∀ r, (f r).dedupeKey = r.dedupeKey) (hget : ∀ j, q'.records.get? j =
      if j = id then (q.records.get? id).map f else q.records.get? j) : q'.Keyed := by
  refine ⟨hwf, ?_⟩
  intro j record hrec
  rw [hget] at hrec
  split at hrec
  · obtain ⟨old, hold, rfl⟩ := map_eq_some_iff.mp hrec
    rw [hf]
    exact hk.keyed id old hold
  · exact hk.keyed j record hrec

theorem Keyed.next (digest : GatewayCommand → String) (s : Step) :
    ((machine digest).next q s).Keyed := by
  obtain ⟨call, now⟩ := s
  have hwf := hk.wellFormed
  cases call with
  | enqueue command options => exact hk.enqueue digest command options now
  | dispatch limit => exact hk.of_retires (hwf.dispatch limit now) (retires_dispatch hwf limit now)
  | ack commandId status resultPayload error =>
    exact hk.rewrite (hwf.ack commandId status resultPayload error now)
      (fun r => (sameCommand_ack r status resultPayload error now).dedupeKey)
      (ack_get? q commandId status resultPayload error now)
  | fail commandId error retryable =>
    exact hk.rewrite (hwf.fail commandId error retryable now)
      (fun r => (sameCommand_fail r error retryable now).dedupeKey)
      (fail_get? q commandId error retryable now)
  | cancel commandId => exact hk.of_retires (hwf.cancel commandId now) (retires_cancel q _ now)
  | expireOld => exact hk.of_retires (hwf.expireOld now) (retires_expireOld q now)
  | prune olderThanSec =>
    exact hk.of_retires (hwf.prune olderThanSec now) (retires_prune hwf olderThanSec now)

theorem atMostOneActive_next_iff (h : AtMostOneActive q) (digest : GatewayCommand → String)
    (s : Step) : AtMostOneActive ((machine digest).next q s) ↔ KeepsKeysFree q s := by
  obtain ⟨call, now⟩ := s
  have hwf := hk.wellFormed
  cases call with
  | enqueue command options =>
    exact iff_of_true (atMostOneActive_enqueue h digest command options now) trivial
  | dispatch limit => exact iff_of_true (h.of_retires (retires_dispatch hwf limit now)) trivial
  | ack commandId status resultPayload error =>
    refine (atMostOneActive_rewrite hk h
      (fun r => (sameCommand_ack r status resultPayload error now).dedupeKey)
      (ack_get? q commandId status resultPayload error now)).trans ?_
    simp only [KeepsKeysFree, active, ack_status, decide_eq_true_eq]
    exact ⟨fun hfree hst r hr => hfree r hr hst, fun hfree r hr hst => hfree hst r hr⟩
  | fail commandId error retryable =>
    refine (atMostOneActive_rewrite hk h
      (fun r => (sameCommand_fail r error retryable now).dedupeKey)
      (fail_get? q commandId error retryable now)).trans ?_
    have hact : ∀ r : CommandRecord, (r.fail error retryable now).active = true ↔
        r.requeues retryable now = true := by
      intro r
      unfold active
      rw [fail_status]
      split
      · rename_i hreq
        simp [hreq, activeDedupeStatuses]
      · rename_i hreq
        simp [hreq, activeDedupeStatuses]
    simp only [KeepsKeysFree, hact]
  | cancel commandId => exact iff_of_true (h.of_retires (retires_cancel q _ now)) trivial
  | expireOld => exact iff_of_true (h.of_retires (retires_expireOld q now)) trivial
  | prune olderThanSec =>
    exact iff_of_true (h.of_retires (retires_prune hwf olderThanSec now)) trivial

end

/-- **Active-dedupe uniqueness, exactly.** A run from the empty queue keeps at
most one active record to a key in all its states if and only if no ack or
failure report of it activates an inactive record whose key is taken. -/
theorem active_unique_iff_keys_kept_free (digest : GatewayCommand → String) (steps : List Step) :
    (machine digest).Always AtMostOneActive {} steps ↔
      (machine digest).Guarded KeepsKeysFree {} steps := by
  have hempty : AtMostOneActive {} := by
    intro i j a b ha
    cases ha
  exact Machine.always_iff_guarded (P := AtMostOneActive) (I := Keyed)
    (fun q s hk _ _ => hk.next digest s)
    (fun q s hk h => atMostOneActive_next_iff hk h digest s) keyed_empty hempty

/-- An order is rejected, its key is taken by a second order, and a late ack of
the first one comes in. -/
def lateAckRun : List Step :=
  [⟨.enqueue { type := "send_order", commandId := "A", idempotencyKey := "K" } {}, 0⟩,
   ⟨.dispatch 20, 1⟩,
   ⟨.ack "A" .rejected none none, 2⟩,
   ⟨.enqueue { type := "send_order", commandId := "B", idempotencyKey := "K" } {}, 3⟩,
   ⟨.ack "A" .acked none none, 4⟩]

/-- The run ends with both orders active under the key. -/
theorem late_ack_breaks_uniqueness :
    ¬ ∀ (digest : GatewayCommand → String) (steps : List Step),
      AtMostOneActive ((machine digest).run {} steps) := by
  intro h
  have hA : (((machine fun _ => "").run {} lateAckRun).records.get? "A").map
      (fun r => (r.dedupeKey, r.active)) = some ("K", true) := by decide
  have hB : (((machine fun _ => "").run {} lateAckRun).records.get? "B").map
      (fun r => (r.dedupeKey, r.active)) = some ("K", true) := by decide
  obtain ⟨a, hga, ha⟩ := map_eq_some_iff.mp hA
  obtain ⟨b, hgb, hb⟩ := map_eq_some_iff.mp hB
  rw [Prod.mk.injEq] at ha hb
  have hkey : a.dedupeKey = b.dedupeKey := ha.1.trans hb.1.symm
  exact absurd (h _ lateAckRun "A" "B" a b hga hgb hkey ha.2 hb.2) (by decide)

end CommandQueue

end TradingCore.Broker
