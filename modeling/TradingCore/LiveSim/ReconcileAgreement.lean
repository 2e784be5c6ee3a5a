import TradingCore.LiveSim.Reconcile

/-!
# What a healthy reconcile says

The reconcile looks up each position of the broker, and never asks whether the broker holds
what the ledger holds. A position that the broker does not list stays as it is, and the
reconcile is healthy all the same. A position that was recorded as external is found again by
its own key at the next reconcile, and becomes an ordinary open position.

`reconcile_sound_iff`: exactly when a healthy reconcile means agreement and leaves the external
positions to the operator.
-/

namespace TradingCore.LiveSim

open Base LiveSimOrderStatus List Dict

/-! ## Agreement -/

def localQty (positions : Dict String LiveSimPosition) (key : PositionKey) : Int :=
  positions.totalBy fun _ position =>
    if position.status.isOpen ∧ position.key = key then position.currentQty else 0

def BrokerSnapshot.quantities (snapshot : BrokerSnapshot) (key : PositionKey) : List Int :=
  (snapshot.holdings.filter fun entry => entry.key = key).map (·.quantity)

def BrokerSnapshot.brokerQty (snapshot : BrokerSnapshot) (key : PositionKey) : Int :=
  (snapshot.quantities key).sum

/-- The ledger and the broker hold the same of every key. -/
def Agrees (positions : Dict String LiveSimPosition) (snapshot : BrokerSnapshot) : Prop :=
  ∀ key, localQty positions key = snapshot.brokerQty key

/-- A position that was recorded as external and waits for the operator. -/
def IsExternal (positionId : String) (record : LiveSimPosition) : Prop :=
  positionId = externalPositionId record.key ∧
    record.candidateInstanceId = "EXTERNAL_POSITION_DETECTED" ∧ record.status = .reconcileRequired

/-- What waited for the operator as external still waits. -/
def ExternalsStay (before after : Dict String LiveSimPosition) : Prop :=
  ∀ id record, before.get? id = some record → IsExternal id record →
    ∃ record', after.get? id = some record' ∧ record'.status = .reconcileRequired

/-- A healthy reconcile means agreement, and external positions are left to the operator. -/
def ReconcileSound (l : Ledger) (snapshot : BrokerSnapshot) (now : String) : Prop :=
  ((runLiveSimReconcile l snapshot now).2 = .healthy →
      Agrees (runLiveSimReconcile l snapshot now).1.positions snapshot) ∧
    ExternalsStay l.positions (runLiveSimReconcile l snapshot now).1.positions

/-! ## When it is so -/

/-- The quantity that the entries of a key leave in its position: each that differs from what
the position held before the loop replaces it. -/
def lastSynced (position : LiveSimPosition) (quantities : List Int) : Int :=
  quantities.foldl (fun qty quantity => if position.needsSync quantity then quantity else qty)
    position.currentQty

namespace Ledger

variable (l : Ledger) (snapshot : BrokerSnapshot)

/-- What the open positions of a key hold beyond the newest thousand. -/
def beyondQty (key : PositionKey) : Int :=
  (((l.positions.entries.reverse.drop 1000).filter fun e =>
    e.2.status.isOpen ∧ e.2.key = key).map (·.2.currentQty)).sum

def AllMatched : Prop :=
  ∀ entry ∈ snapshot.holdings, ∃ id position, l.openByKey entry.key = .only id position

/-- The ledger holds nothing of a key that the broker does not list, and nothing beyond the
newest thousand of a key that it lists; for a key that it lists several times, what is held
beyond makes up for the entries that were replaced. -/
def KeyFits (key : PositionKey) : Prop :=
  match snapshot.quantities key with
  | [] => localQty l.positions key = 0
  | [_] => l.beyondQty key = 0
  | quantities =>
      ∀ id position, l.openByKey key = .only id position →
        l.beyondQty key + lastSynced position quantities = quantities.sum

/-- Does the comparison with an entry write the position of this id? -/
def writesTo (id : String) (entry : SnapshotPosition) : Bool :=
  match l.openByKey entry.key with
  | .absent => externalPositionId entry.key = id
  | .only positionId position => positionId = id ∧ position.needsSync entry.quantity
  | .ambiguous => false

/-- The last position of the broker that is compared with this one, if any, records it as
external again. -/
def StaysExternal (id : String) : Prop :=
  ∀ entry ∈ (snapshot.holdings.filter (l.writesTo id)).getLast?, l.openByKey entry.key = .absent

/-! ## Health -/

variable {l} {snapshot}

theorem flagged_foldl (entries : List SnapshotPosition) (sync : PositionSync) :
    (0 < (entries.foldl l.syncHolding sync).externalPositions ∨
        (entries.foldl l.syncHolding sync).positionReconcileRequired = true) ↔
      (0 < sync.externalPositions ∨ sync.positionReconcileRequired = true) ∨
        ∃ entry ∈ entries, ∀ id position, l.openByKey entry.key ≠ .only id position := by
  induction entries generalizing sync with
  | nil => simp
  | cons entry rest ih =>
    rw [foldl_cons, ih]
    simp only [exists_mem_cons_iff]
    unfold syncHolding
    cases hmatch : l.openByKey entry.key with
    | absent => simp
    | only id position =>
      simp only [ne_eq, KeyMatch.only.injEq, not_and]
      split <;> simp
    | ambiguous => simp

variable {key : PositionKey} {id : String} {position : LiveSimPosition}

theorem healthy_iff (now : String) :
    (runLiveSimReconcile l snapshot now).2 = .healthy ↔
      (l.afterMessages snapshot now).AllMatched snapshot := by
  generalize hmessages : l.afterMessages snapshot now = l'
  have hflagged := flagged_foldl (l := l') snapshot.holdings { positions := l'.positions }
  have hhealth : (runLiveSimReconcile l snapshot now).2 = .healthy ↔
      ¬ (0 < (l'.syncPositions snapshot).externalPositions ∨
        (l'.syncPositions snapshot).positionReconcileRequired = true) := by
    unfold runLiveSimReconcile
    simp only [hmessages]
    split <;> simp_all
  rw [hhealth]
  unfold syncPositions AllMatched
  rw [hflagged]
  simp

/-! ## Positions -/

theorem mem_of_only (h : l.openByKey key = .only id position) :
    l.positions.get? id = some position ∧ position.status.isOpen = true ∧ position.key = key ∧
      (l.reconcilePositions.filter fun e => e.2.key = key) = [(id, position)] := by
  unfold openByKey at h
  split at h
  · cases h
  · rename_i e he
    injection h with hid hposition
    have hmem : e ∈ l.reconcilePositions.filter fun e => e.2.key = key := by
      rw [he]
      exact mem_singleton.mpr rfl
    obtain ⟨hlisted, hkey⟩ := mem_filter.mp hmem
    obtain ⟨htaken, hopen⟩ := mem_filter.mp hlisted
    have hget := mem_entries_iff.mp (mem_reverse.mp (mem_of_mem_take htaken))
    rw [hid, hposition] at hget
    rw [hposition] at hopen hkey
    refine ⟨hget, hopen, of_decide_eq_true hkey, ?_⟩
    rw [he, ← hid, ← hposition]
  · cases h

theorem lastSynced_append (position : LiveSimPosition) (quantities : List Int) (quantity : Int) :
    lastSynced position (quantities ++ [quantity]) =
      if position.needsSync quantity then quantity else lastSynced position quantities := by
  unfold lastSynced
  rw [foldl_append]
  rfl

theorem localQty_of_only (h : l.openByKey key = .only id position) :
    localQty l.positions key = position.currentQty + l.beyondQty key := by
  obtain ⟨-, -, -, honly⟩ := mem_of_only h
  have hsum : ∀ entries : List (String × LiveSimPosition),
      (entries.map fun e =>
        if e.2.status.isOpen ∧ e.2.key = key then e.2.currentQty else 0).sum =
      ((entries.filter fun e => e.2.status.isOpen ∧ e.2.key = key).map (·.2.currentQty)).sum := by
    intro entries
    induction entries with
    | nil => rfl
    | cons e rest ih =>
      rw [map_cons, sum_cons, filter_cons, ih]
      by_cases he : e.2.status.isOpen = true ∧ e.2.key = key
      · simp [he]
      · simp [he]
  have hnewest : (l.positions.entries.reverse.take 1000).filter
      (fun e => e.2.status.isOpen ∧ e.2.key = key) = [(id, position)] := by
    rw [← honly]
    unfold reconcilePositions
    rw [filter_filter]
    apply filter_congr
    intro e _
    simp [and_comm]
  unfold localQty totalBy beyondQty
  rw [← sum_reverse, ← map_reverse, hsum,
    ← take_append_drop 1000 l.positions.entries.reverse, filter_append, hnewest,
    map_append, sum_append]
  simp

theorem quantities_append (done : List SnapshotPosition) (entry : SnapshotPosition)
    (key : PositionKey) :
    ((done ++ [entry]).filter fun e => e.key = key).map (·.quantity) =
      (done.filter fun e => e.key = key).map (·.quantity) ++
        if entry.key = key then [entry.quantity] else [] := by
  rw [filter_append, map_append]
  by_cases hkey : entry.key = key
  · simp [hkey]
  · simp [hkey]

/-- What holds of the positions when the entries `done` have been compared, all of them with
only positions. -/
structure Compared (l : Ledger) (done : List SnapshotPosition)
    (positions : Dict String LiveSimPosition) : Prop where
  only : ∀ key id position, l.openByKey key = .only id position →
    ∃ row, positions.get? id = some row ∧ row.key = key ∧ row.status.isOpen = true ∧
      row.currentQty = lastSynced position ((done.filter fun e => e.key = key).map (·.quantity))
  qty : ∀ key id position, l.openByKey key = .only id position →
    localQty positions key = localQty l.positions key - position.currentQty +
      lastSynced position ((done.filter fun e => e.key = key).map (·.quantity))
  rest : ∀ key, (∀ id position, l.openByKey key ≠ .only id position) →
    localQty positions key = localQty l.positions key

theorem compared_nil : l.Compared [] l.positions := by
  refine ⟨?_, ?_, ?_⟩
  · intro key id position honly
    obtain ⟨hget, hopen, hkey, -⟩ := mem_of_only honly
    exact ⟨position, hget, hkey, hopen, rfl⟩
  · intro key id position honly
    show _ = _ - position.currentQty + position.currentQty
    omega
  · intro key _
    rfl

variable {positions : Dict String LiveSimPosition}

theorem localQty_set {row row' : LiveSimPosition} (hget : positions.get? id = some row)
    (hopen : row.status.isOpen = true) (hopen' : row'.status.isOpen = true)
    (hkey : row'.key = row.key) (key : PositionKey) :
    localQty (positions.set id row') key =
      if row.key = key then localQty positions key - row.currentQty + row'.currentQty
      else localQty positions key := by
  have htotal := positions.totalBy_set id row'
    (f := fun _ position => if position.status.isOpen ∧ position.key = key then
      position.currentQty else 0)
    (g := fun _ position => if position.status.isOpen ∧ position.key = key then
      position.currentQty else 0) fun _ _ _ => rfl
  rw [hget, Option.map_some, Option.getD_some] at htotal
  unfold localQty
  rw [htotal, hkey]
  simp only [hopen, hopen', true_and]
  split <;> omega

theorem only_ne {key' : PositionKey} {id' : String} {position' : LiveSimPosition}
    (h : l.openByKey key = .only id position) (h' : l.openByKey key' = .only id' position')
    (hkey : key' ≠ key) : id' ≠ id := by
  intro hid
  obtain ⟨hget, -, hown, -⟩ := mem_of_only h
  obtain ⟨hget', -, hown', -⟩ := mem_of_only h'
  rw [hid, hget] at hget'
  injection hget' with hsame
  rw [← hown, ← hown', hsame] at hkey
  exact hkey rfl

theorem compared_append {done : List SnapshotPosition} {sync : PositionSync}
    (h : l.Compared done sync.positions) {entry : SnapshotPosition}
    (hmatch : l.openByKey entry.key = .only id position) :
    l.Compared (done ++ [entry]) (l.syncHolding sync entry).positions := by
  obtain ⟨row, hget, hkey, hopen, hqty⟩ := h.only entry.key id position hmatch
  unfold syncHolding
  rw [hmatch]
  simp only
  by_cases hneeds : position.needsSync entry.quantity = true
  · -- the row is replaced
    rw [if_pos hneeds]
    unfold savePosition
    rw [hget]
    simp only
    generalize hrow : ({ position.synced entry.quantity with
      candidateInstanceId := row.candidateInstanceId
      code := row.code
      accountIdMasked := row.accountIdMasked } : LiveSimPosition) = row'
    have hkey' : row'.key = row.key := by
      rw [← hrow]
      rfl
    have hopen' : row'.status.isOpen = true := by
      rw [← hrow]
      rfl
    have hqty' : row'.currentQty = entry.quantity := by
      rw [← hrow]
      rfl
    refine ⟨?_, ?_, ?_⟩
    · intro key id' position' honly
      rw [quantities_append]
      by_cases hsame : entry.key = key
      · rw [← hsame, hmatch] at honly
        injection honly with hid hposition
        refine ⟨row', ?_, ?_, hopen', ?_⟩
        · rw [← hid, get?_set_self]
        · rw [hkey', hkey, hsame]
        · rw [if_pos hsame, lastSynced_append, ← hposition, if_pos hneeds, hqty']
      · obtain ⟨other, hother, hrest⟩ := h.only key id' position' honly
        refine ⟨other, ?_, ?_⟩
        · rw [get?_set_ne _ _ (only_ne hmatch honly (Ne.symm hsame))]
          exact hother
        · rw [if_neg hsame, append_nil]
          exact hrest
    · intro key id' position' honly
      rw [quantities_append, localQty_set hget hopen hopen' hkey', hkey]
      have hbefore := h.qty key id' position' honly
      by_cases hsame : entry.key = key
      · rw [if_pos hsame, if_pos hsame, lastSynced_append]
        rw [← hsame, hmatch] at honly
        injection honly with hid hposition
        rw [hsame] at hqty
        rw [← hposition] at hbefore ⊢
        rw [if_pos hneeds]
        omega
      · rw [if_neg hsame, if_neg hsame, append_nil]
        exact hbefore
    · intro key hnone
      rw [localQty_set hget hopen hopen' hkey', hkey, if_neg]
      · exact h.rest key hnone
      · intro hsame
        rw [hsame] at hmatch
        exact hnone id position hmatch
  · -- nothing is written, and the last quantity stays
    rw [if_neg hneeds]
    have hlast : ∀ key id' position', l.openByKey key = .only id' position' →
        lastSynced position'
            (((done ++ [entry]).filter fun e => e.key = key).map (·.quantity)) =
          lastSynced position' ((done.filter fun e => e.key = key).map (·.quantity)) := by
      intro key id' position' honly
      rw [quantities_append]
      by_cases hsame : entry.key = key
      · rw [← hsame, hmatch] at honly
        injection honly with hid hposition
        rw [if_pos hsame, lastSynced_append, ← hposition, if_neg hneeds]
      · rw [if_neg hsame, append_nil]
    refine ⟨?_, ?_, h.rest⟩
    · intro key id' position' honly
      rw [hlast key id' position' honly]
      exact h.only key id' position' honly
    · intro key id' position' honly
      rw [hlast key id' position' honly]
      exact h.qty key id' position' honly

theorem compared_foldl {entries : List SnapshotPosition}
    (hall : ∀ entry ∈ entries, ∃ id position, l.openByKey entry.key = .only id position) :
    l.Compared entries (entries.foldl l.syncHolding { positions := l.positions }).positions := by
  induction entries using reverseRecOn with
  | nil => exact compared_nil
  | append_singleton done entry ih =>
    obtain ⟨id, position, hmatch⟩ := hall entry (mem_append_right _ mem_cons_self)
    rw [foldl_append]
    exact compared_append (ih fun e he => hall e (mem_append_left _ he)) hmatch

theorem keyFits_iff (hall : l.AllMatched snapshot) (key : PositionKey) :
    l.KeyFits snapshot key ↔
      localQty (l.syncPositions snapshot).positions key = snapshot.brokerQty key := by
  have hcompared := compared_foldl hall
  unfold KeyFits syncPositions BrokerSnapshot.brokerQty
  have hlisted : (snapshot.holdings.filter fun e => e.key = key).map (·.quantity) =
      snapshot.quantities key := rfl
  by_cases honly : ∃ id position, l.openByKey key = .only id position
  · obtain ⟨id, position, honly⟩ := honly
    have hafter := hcompared.qty key id position honly
    have hbefore := localQty_of_only honly
    rw [hlisted] at hafter
    rw [hafter, hbefore]
    split
    · rename_i hnone
      rw [hnone]
      show _ ↔ position.currentQty + l.beyondQty key - position.currentQty + position.currentQty = 0
      constructor <;> intro h <;> omega
    · rename_i quantity hone
      rw [hone]
      have hlast : lastSynced position [quantity] = quantity := by
        show (if position.needsSync quantity then quantity else position.currentQty) = quantity
        split
        · rfl
        · rename_i hneeds
          unfold LiveSimPosition.needsSync at hneeds
          simp only [decide_eq_true_eq, not_or, not_not] at hneeds
          exact hneeds.1
      rw [hlast, sum_singleton]
      constructor <;> intro h <;> omega
    · constructor
      · intro hfits
        have := hfits id position honly
        omega
      · intro hsum id' position' honly'
        rw [honly] at honly'
        injection honly' with hid hposition
        rw [← hposition]
        omega
  · -- the broker lists nothing of the key
    have hnone : snapshot.quantities key = [] := by
      unfold BrokerSnapshot.quantities
      rw [map_eq_nil_iff, filter_eq_nil_iff]
      intro entry hentry hkey
      rw [decide_eq_true_eq] at hkey
      apply honly
      rw [← hkey]
      exact hall entry hentry
    rw [hnone, hcompared.rest key fun id position h => honly ⟨id, position, h⟩]
    rfl

/-! ## External positions -/

theorem positionIdFor_ne_external (account code candidate : String) (key : PositionKey) :
    positionIdFor account code candidate ≠ externalPositionId key := by
  intro h
  have hfirst := congrArg (fun id : String => id.toList.head?) h
  unfold positionIdFor externalPositionId at hfirst
  simp [String.toList_append] at hfirst

theorem get?_act_execution_external (event : ExecutionEvent) :
    (l.act (.execution event)).positions.get? (externalPositionId key) =
      l.positions.get? (externalPositionId key) := by
  rcases l.positions_act_execution_cases event with ⟨hsame, -⟩ | ⟨-, -, hbooks⟩
  · rw [hsame]
  · obtain ⟨account, code, candidate, status, -, hset, -⟩ := hbooks
    rw [hset, get?_set_ne _ _ (positionIdFor_ne_external account code candidate key).symm]

theorem get?_afterMessages_external (snapshot : BrokerSnapshot) (now : String) :
    (l.afterMessages snapshot now).positions.get? (externalPositionId key) =
      l.positions.get? (externalPositionId key) := by
  have hfills : ∀ (fills : List SnapshotFill) (l : Ledger),
      (fills.foldl (reconcileFill now) l).positions.get? (externalPositionId key) =
        l.positions.get? (externalPositionId key) := by
    intro fills
    induction fills with
    | nil => exact fun l => rfl
    | cons fill rest ih =>
      intro l
      rw [foldl_cons, ih]
      unfold reconcileFill
      cases l.findByBrokerOrderId fill.brokerOrderId with
      | none => rfl
      | some found => exact get?_act_execution_external _
  have hcancelled : ∀ (ids : List String) (l : Ledger),
      (ids.foldl reconcileCancelled l).positions = l.positions := by
    intro ids
    induction ids with
    | nil => exact fun l => rfl
    | cons id rest ih =>
      intro l
      rw [foldl_cons, ih]
      unfold reconcileCancelled
      cases l.findByBrokerOrderId id with
      | none => rfl
      | some found => rfl
  unfold afterMessages
  rw [hcancelled, hfills]

theorem get?_savePosition (positions : Dict String LiveSimPosition) (id : String)
    (record : LiveSimPosition) :
    ((savePosition positions id record).get? id).map (·.status) = some record.status := by
  unfold savePosition
  split
  · rw [get?_set_self]
    rfl
  · rw [get?_set_self]
    rfl

theorem get?_savePosition_ne {other : String} (h : other ≠ id) (record : LiveSimPosition) :
    (savePosition positions id record).get? other = positions.get? other := by
  unfold savePosition
  split <;> rw [get?_set_ne _ _ h]

theorem status_syncHolding (sync : PositionSync) (entry : SnapshotPosition) (id : String) :
    ((l.syncHolding sync entry).positions.get? id).map (·.status) =
      if l.writesTo id entry = true then
        some (if l.openByKey entry.key = .absent then .reconcileRequired else .opened)
      else (sync.positions.get? id).map (·.status) := by
  unfold syncHolding writesTo
  cases hmatch : l.openByKey entry.key with
  | ambiguous => simp
  | absent =>
    simp only [decide_eq_true_eq, if_true]
    by_cases hid : externalPositionId entry.key = id
    · rw [if_pos hid, ← hid, get?_savePosition]
      rfl
    · rw [if_neg hid, get?_savePosition_ne (Ne.symm hid)]
  | only positionId position =>
    simp only [decide_eq_true_eq, reduceCtorEq, if_false]
    by_cases hneeds : position.needsSync entry.quantity = true
    · by_cases hid : positionId = id
      · rw [if_pos hneeds, if_pos ⟨hid, hneeds⟩, ← hid, get?_savePosition]
        rfl
      · rw [if_pos hneeds, if_neg fun hboth => hid hboth.1, get?_savePosition_ne (Ne.symm hid)]
    · rw [if_neg hneeds, if_neg fun hboth => hneeds hboth.2]

theorem status_foldl (entries : List SnapshotPosition) (id : String) :
    ((entries.foldl l.syncHolding { positions := l.positions }).positions.get? id).map
        (·.status) =
      match (entries.filter (l.writesTo id)).getLast? with
      | none => (l.positions.get? id).map (·.status)
      | some entry =>
        some (if l.openByKey entry.key = .absent then .reconcileRequired else .opened) := by
  induction entries using reverseRecOn with
  | nil => rfl
  | append_singleton done entry ih =>
    rw [foldl_append, foldl_cons, foldl_nil, status_syncHolding, filter_append]
    by_cases hwrites : l.writesTo id entry = true
    · rw [if_pos hwrites, filter_cons_of_pos hwrites, filter_nil, getLast?_concat]
    · rw [if_neg hwrites, filter_cons_of_neg hwrites, filter_nil, append_nil, ih]

theorem staysExternal_iff {record : LiveSimPosition} (hget : l.positions.get? id = some record)
    (hexternal : IsExternal id record) :
    l.StaysExternal snapshot id ↔
      ∃ record', (l.syncPositions snapshot).positions.get? id = some record' ∧
        record'.status = .reconcileRequired := by
  have hstatus := status_foldl (l := l) snapshot.holdings id
  have hmap : (∃ record', (l.syncPositions snapshot).positions.get? id = some record' ∧
      record'.status = .reconcileRequired) ↔
        ((l.syncPositions snapshot).positions.get? id).map (·.status) =
          some .reconcileRequired := by
    rw [Option.map_eq_some_iff]
  rw [hmap]
  unfold syncPositions StaysExternal
  rw [hstatus]
  cases (snapshot.holdings.filter (l.writesTo id)).getLast? with
  | none =>
    simp only [hget, Option.map_some, hexternal.2.2]
    simp
  | some entry =>
    simp only [Option.mem_def, Option.some.injEq]
    by_cases habsent : l.openByKey entry.key = .absent
    · simp [habsent]
    · simp [habsent]

end Ledger

/-! ## The claim of a healthy reconcile -/

/-- A healthy reconcile means agreement and leaves the external positions to the operator
exactly when, in the ledger with the fills and cancellations of the snapshot, every key fits
(where each position of the broker is an only position) and no external position is matched
by its key. -/
theorem reconcile_sound_iff (l : Ledger) (snapshot : BrokerSnapshot) (now : String) :
    ReconcileSound l snapshot now ↔
      ((l.afterMessages snapshot now).AllMatched snapshot →
          ∀ key, (l.afterMessages snapshot now).KeyFits snapshot key) ∧
        ∀ id record, l.positions.get? id = some record → IsExternal id record →
          (l.afterMessages snapshot now).StaysExternal snapshot id := by
  have hpositions : (runLiveSimReconcile l snapshot now).1.positions =
      ((l.afterMessages snapshot now).syncPositions snapshot).positions := rfl
  unfold ReconcileSound ExternalsStay Agrees
  rw [Ledger.healthy_iff, hpositions]
  have hexternals : ∀ id record, l.positions.get? id = some record → IsExternal id record →
      ((l.afterMessages snapshot now).StaysExternal snapshot id ↔
        ∃ record', ((l.afterMessages snapshot now).syncPositions snapshot).positions.get? id =
          some record' ∧ record'.status = .reconcileRequired) := by
    intro id record hget hexternal
    refine Ledger.staysExternal_iff ?_ hexternal
    rw [hexternal.1, Ledger.get?_afterMessages_external, ← hexternal.1]
    exact hget
  constructor
  · rintro ⟨hagrees, hstay⟩
    refine ⟨?_, ?_⟩
    · intro hall key
      exact (Ledger.keyFits_iff hall key).mpr (hagrees hall key)
    · intro id record hget hexternal
      exact (hexternals id record hget hexternal).mpr (hstay id record hget hexternal)
  · rintro ⟨hfits, hstay⟩
    refine ⟨?_, ?_⟩
    · intro hall key
      exact (Ledger.keyFits_iff hall key).mp (hfits hall key)
    · intro id record hget hexternal
      exact (hexternals id record hget hexternal).mp (hstay id record hget hexternal)

/-! ## A fixed reconcile -/

def heldLocally : Ledger where
  positions := empty.set "LIVE_SIM:12******90:005930:no_ci"
    { code := "005930", accountIdMasked := "12******90", entryQty := 10, currentQty := 10 }

/-- The broker holds five shares of another code, which the ledger holds as well. -/
def heldElsewhere : Ledger where
  positions := heldLocally.positions.set "LIVE_SIM:12******90:000660:no_ci"
    { code := "000660", accountIdMasked := "12******90", entryQty := 5, currentQty := 5 }

def fiveOthers : BrokerSnapshot where
  positions := [{ code := "000660", account := "1234567890", quantity := 5 }]

/-- Ten shares that the broker does not hold leave the reconcile healthy. -/
theorem local_only_is_healthy : ¬ ReconcileSound heldElsewhere fiveOthers "" := by
  intro h
  have hten := h.1 (by decide +kernel) ⟨"005930", "12******90"⟩
  revert hten
  decide +kernel

end TradingCore.LiveSim
