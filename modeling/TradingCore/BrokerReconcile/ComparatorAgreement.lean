import TradingCore.BrokerReconcile.Comparator

/-!
# What a clean reconcile run says

The comparison knows no accounts: it takes the newest row of an order number or a code whoever
owns it, and reports pending orders of every account. It goes over the positions of the
snapshot only, so that a position the snapshot does not list is never compared.

`clean_iff_agrees_iff`: exactly when a clean run and agreement of the account are the same.
-/

namespace TradingCore.BrokerReconcile

open Base Dict Option List

/-! ## Agreement -/

/-- What the comparison is about: an order number or a code. -/
inductive CompareKey where
  | order (orderNo : String)
  | position (code : String)

/-- The account's remaining quantity of an order number: nought when it has no such order. -/
def BrokerTables.remaining (tables : BrokerTables) (account orderNo : String) : Nat :=
  ((tables.orders.get? (account, orderNo)).map (·.remainingQty)).getD 0

/-- The account's quantity of a code: nought when it has no such position. -/
def BrokerTables.quantity (tables : BrokerTables) (account code : String) : Int :=
  ((tables.positions.get? (account, code)).map (·.quantity)).getD 0

/-- The remaining quantity of an order number in the snapshot. -/
def TrSnapshot.remaining (tr : TrSnapshot) (orderNo : String) : Nat :=
  ((tr.openOrders.get? orderNo).map (·.remainingQuantity)).getD 0

def TrSnapshot.quantity (tr : TrSnapshot) (code : String) : Int :=
  ((tr.positions.get? code).map (·.quantity)).getD 0

/-- The account and the snapshot differ at a key. -/
def Differs (tables : BrokerTables) (tr : TrSnapshot) (account : String) : CompareKey → Prop
  | .order orderNo => orderNo ≠ "" ∧ tables.remaining account orderNo ≠ tr.remaining orderNo
  | .position code => code ≠ "" ∧ tables.quantity account code ≠ tr.quantity code

def Agrees (tables : BrokerTables) (tr : TrSnapshot) (account : String) : Prop :=
  ∀ key, ¬ Differs tables tr account key

/-- The comparison finds nothing, and marks the run clean, iff the account agrees. -/
def CleanMeansAgreement (tables : BrokerTables) (tr : TrSnapshot) (account : String)
    (run : ReconcileRun) : Prop :=
  (compareSnapshots tables tr run.accountToken = [] ↔ Agrees tables tr account) ∧
    ((finalizeRun tables tr run).status = .clean ∧
        (finalizeRun tables tr run).brokerTruthReady = true ↔ Agrees tables tr account)

/-! ## When it is so -/

/-- The comparison reports a key: an unlisted pending order of any account, a listed order that
no account has or whose newest row differs, a listed position that no account has or whose
newest row differs. -/
def Reported (tables : BrokerTables) (tr : TrSnapshot) : CompareKey → Prop
  | .order orderNo =>
      orderNo ≠ "" ∧
        match tr.openOrders.get? orderNo with
        | none => ∃ owner row, tables.orders.get? (owner, orderNo) = some row ∧ 0 < row.remainingQty
        | some trOrder =>
            match tables.brokerOrderByOrderNo orderNo with
            | none => True
            | some newest => newest.2.remainingQty ≠ trOrder.remainingQuantity
  | .position code =>
      code ≠ "" ∧
        match tr.positions.get? code with
        | none => False
        | some trPosition =>
            match tables.brokerPositionByCode code with
            | none => 0 < trPosition.quantity
            | some newest => newest.2.quantity ≠ trPosition.quantity

/-- A difference that the comparison does not see: a position that the snapshot does not list,
a negative one that no account has, an order or a position whose newest row belongs to another
account and happens to agree. -/
def Unseen (tables : BrokerTables) (tr : TrSnapshot) (account : String) : CompareKey → Prop
  | .order orderNo =>
      orderNo ≠ "" ∧ ∃ trOrder newest,
        tr.openOrders.get? orderNo = some trOrder ∧
          tables.brokerOrderByOrderNo orderNo = some newest ∧
            newest.2.remainingQty = trOrder.remainingQuantity ∧
              tables.remaining account orderNo ≠ trOrder.remainingQuantity
  | .position code =>
      code ≠ "" ∧
        match tr.positions.get? code with
        | none => tables.quantity account code ≠ 0
        | some trPosition =>
            match tables.brokerPositionByCode code with
            | none => trPosition.quantity < 0
            | some newest =>
                newest.2.quantity = trPosition.quantity ∧
                  tables.quantity account code ≠ trPosition.quantity

/-- A report about nothing: a pending order of another account that the snapshot does not list,
a listed order with nothing remaining that no account has, an order or a position whose newest
row belongs to another account and differs. -/
def FalseAlarm (tables : BrokerTables) (tr : TrSnapshot) (account : String) : CompareKey → Prop
  | .order orderNo =>
      orderNo ≠ "" ∧
        match tr.openOrders.get? orderNo with
        | none =>
            tables.remaining account orderNo = 0 ∧ ∃ owner row,
              tables.orders.get? (owner, orderNo) = some row ∧ 0 < row.remainingQty
        | some trOrder =>
            match tables.brokerOrderByOrderNo orderNo with
            | none => trOrder.remainingQuantity = 0
            | some newest =>
                newest.2.remainingQty ≠ trOrder.remainingQuantity ∧
                  tables.remaining account orderNo = trOrder.remainingQuantity
  | .position code =>
      code ≠ "" ∧ ∃ trPosition newest,
        tr.positions.get? code = some trPosition ∧
          tables.brokerPositionByCode code = some newest ∧
            newest.2.quantity ≠ trPosition.quantity ∧
              tables.quantity account code = trPosition.quantity

/-! ## What each loop finds -/

section

variable {tables : BrokerTables} {tr : TrSnapshot} {token : String}

theorem localOnlyPendingOrder_eq_none_iff {entry : (String × String) × BrokerOrderState} :
    localOnlyPendingOrder tr token entry = none ↔
      entry.1.2 ≠ "" → tr.openOrders.get? entry.1.2 = none → entry.2.remainingQty = 0 := by
  unfold localOnlyPendingOrder
  by_cases hno : entry.1.2 = ""
  · simp [hno]
  · simp only [hno, if_false, contains_eq_false]
    by_cases htr : tr.openOrders.get? entry.1.2 = none
    · by_cases hpos : 0 < entry.2.remainingQty
      · simp [hno, htr, hpos]
        omega
      · simp [htr, hpos]
        omega
    · simp [htr]

theorem compareOpenOrder_eq_none_iff {orderNo : String} {trOrder : TrOpenOrder}
    (h : tr.openOrders.get? orderNo = some trOrder) :
    compareOpenOrder tables token (orderNo, trOrder) = none ↔
      ¬ Reported tables tr (.order orderNo) := by
  unfold compareOpenOrder Reported
  by_cases hno : orderNo = ""
  · simp [hno]
  · cases hnewest : tables.brokerOrderByOrderNo orderNo with
    | none => simp [hno, h, hnewest]
    | some newest => simp [hno, h, hnewest]

theorem comparePosition_eq_none_iff {code : String} {trPosition : TrPosition}
    (h : tr.positions.get? code = some trPosition) :
    comparePosition tables token (code, trPosition) = none ↔
      ¬ Reported tables tr (.position code) := by
  unfold comparePosition Reported
  by_cases hcode : code = ""
  · simp [hcode]
  · cases hnewest : tables.brokerPositionByCode code with
    | none => simp [hcode, h, hnewest]
    | some newest => simp [hcode, h, hnewest]

theorem compareSnapshots_eq_nil_iff :
    compareSnapshots tables tr token = [] ↔ ∀ key, ¬ Reported tables tr key := by
  unfold compareSnapshots
  rw [append_eq_nil_iff, append_eq_nil_iff, filterMap_eq_nil_iff,
    filterMap_eq_nil_iff, filterMap_eq_nil_iff]
  constructor
  · rintro ⟨⟨hlocal, hopen⟩, hposition⟩ key
    cases key with
    | order orderNo =>
      cases htr : tr.openOrders.get? orderNo with
      | none =>
        simp only [Reported, htr]
        rintro ⟨hno, owner, row, hrow, hpos⟩
        have hzero := localOnlyPendingOrder_eq_none_iff.mp
          (hlocal _ (mem_entries_iff.mpr hrow)) hno htr
        simp only at hzero
        omega
      | some trOrder =>
        exact (compareOpenOrder_eq_none_iff htr).mp (hopen _ (mem_entries_iff.mpr htr))
    | position code =>
      cases htr : tr.positions.get? code with
      | none => simp [Reported, htr]
      | some trPosition =>
        exact (comparePosition_eq_none_iff htr).mp (hposition _ (mem_entries_iff.mpr htr))
  · intro h
    refine ⟨⟨?_, ?_⟩, ?_⟩
    · rintro ⟨⟨owner, orderNo⟩, row⟩ hmem
      refine localOnlyPendingOrder_eq_none_iff.mpr fun hno htr => ?_
      by_contra hpos
      apply h (.order orderNo)
      simp only [Reported, htr]
      exact ⟨hno, owner, row, mem_entries_iff.mp hmem, Nat.pos_of_ne_zero hpos⟩
    · rintro ⟨orderNo, trOrder⟩ hmem
      exact (compareOpenOrder_eq_none_iff (mem_entries_iff.mp hmem)).mpr (h _)
    · rintro ⟨code, trPosition⟩ hmem
      exact (comparePosition_eq_none_iff (mem_entries_iff.mp hmem)).mpr (h _)

end

/-! ## The differences that are not seen, and the reports about nothing -/

section

variable (tables : BrokerTables) (tr : TrSnapshot) (account : String)

theorem remaining_of_newest_none {tables : BrokerTables} {orderNo : String}
    (h : tables.brokerOrderByOrderNo orderNo = none) : tables.remaining account orderNo = 0 := by
  have hget : tables.orders.get? (account, orderNo) = none := by
    rw [get?_eq_none]
    intro hmem
    obtain ⟨entry, hentry, hkey⟩ := mem_map.mp hmem
    have hnot := find?_eq_none.mp h entry (mem_reverse.mpr hentry)
    simp [hkey] at hnot
  unfold BrokerTables.remaining
  rw [hget]
  rfl

theorem quantity_of_newest_none {tables : BrokerTables} {code : String}
    (h : tables.brokerPositionByCode code = none) : tables.quantity account code = 0 := by
  have hget : tables.positions.get? (account, code) = none := by
    rw [get?_eq_none]
    intro hmem
    obtain ⟨entry, hentry, hkey⟩ := mem_map.mp hmem
    have hnot := find?_eq_none.mp h entry (mem_reverse.mpr hentry)
    simp [hkey] at hnot
  unfold BrokerTables.quantity
  rw [hget]
  rfl

theorem pending_of_remaining_ne {tables : BrokerTables} {account orderNo : String}
    (h : tables.remaining account orderNo ≠ 0) :
    ∃ owner row, tables.orders.get? (owner, orderNo) = some row ∧ 0 < row.remainingQty := by
  unfold BrokerTables.remaining at h
  cases hget : tables.orders.get? (account, orderNo) with
  | none =>
    rw [hget] at h
    exact absurd rfl h
  | some row =>
    rw [hget] at h
    exact ⟨account, row, hget, Nat.pos_of_ne_zero h⟩

theorem unseen_iff (key : CompareKey) :
    Unseen tables tr account key ↔ Differs tables tr account key ∧ ¬ Reported tables tr key := by
  cases key with
  | order orderNo =>
    cases htr : tr.openOrders.get? orderNo with
    | none =>
      -- an unlisted order of the account is pending, and every pending one is reported
      simp only [Unseen, Differs, Reported, TrSnapshot.remaining, htr]
      constructor
      · rintro ⟨-, trOrder, newest, hnone, -⟩
        exact absurd hnone (by simp)
      · rintro ⟨⟨hno, hne⟩, hnot⟩
        exact absurd ⟨hno, pending_of_remaining_ne hne⟩ hnot
    | some trOrder =>
      cases hnewest : tables.brokerOrderByOrderNo orderNo with
      | none => simp +contextual [Unseen, Differs, Reported, htr, hnewest]
      | some newest =>
        simp only [Unseen, Differs, Reported, TrSnapshot.remaining, htr, hnewest,
          some.injEq, ↓existsAndEq, true_and, map_some, getD_some,
          not_and, not_not]
        constructor
        · rintro ⟨hno, heq, hne⟩
          exact ⟨⟨hno, hne⟩, fun _ => heq⟩
        · rintro ⟨⟨hno, hne⟩, heq⟩
          exact ⟨hno, heq hno, hne⟩
  | position code =>
    cases htr : tr.positions.get? code with
    | none => simp [Unseen, Differs, Reported, TrSnapshot.quantity, htr]
    | some trPosition =>
      cases hnewest : tables.brokerPositionByCode code with
      | none =>
        have hzero := quantity_of_newest_none account hnewest
        simp only [Unseen, Differs, Reported, TrSnapshot.quantity, htr, hnewest, hzero,
          map_some, getD_some, not_and]
        constructor
        · rintro ⟨hcode, hneg⟩
          exact ⟨⟨hcode, by omega⟩, fun _ => by omega⟩
        · rintro ⟨⟨hcode, hne⟩, hnot⟩
          have := hnot hcode
          exact ⟨hcode, by omega⟩
      | some newest =>
        simp only [Unseen, Differs, Reported, TrSnapshot.quantity, htr, hnewest,
          map_some, getD_some, not_and, not_not]
        constructor
        · rintro ⟨hcode, heq, hne⟩
          exact ⟨⟨hcode, hne⟩, fun _ => heq⟩
        · rintro ⟨⟨hcode, hne⟩, heq⟩
          exact ⟨hcode, heq hcode, hne⟩

theorem falseAlarm_iff (key : CompareKey) :
    FalseAlarm tables tr account key ↔
      Reported tables tr key ∧ ¬ Differs tables tr account key := by
  cases key with
  | order orderNo =>
    cases htr : tr.openOrders.get? orderNo with
    | none =>
      simp only [FalseAlarm, Differs, Reported, TrSnapshot.remaining, htr, map_none,
        getD_none, not_and, not_not]
      constructor
      · rintro ⟨hno, hzero, hpending⟩
        exact ⟨⟨hno, hpending⟩, fun _ => hzero⟩
      · rintro ⟨⟨hno, hpending⟩, hzero⟩
        exact ⟨hno, hzero hno, hpending⟩
    | some trOrder =>
      cases hnewest : tables.brokerOrderByOrderNo orderNo with
      | none =>
        have hzero := remaining_of_newest_none account hnewest
        simp only [FalseAlarm, Differs, Reported, TrSnapshot.remaining, htr, hnewest, hzero,
          map_some, getD_some, not_and, not_not, and_true]
        constructor
        · rintro ⟨hno, h⟩
          exact ⟨hno, fun _ => h.symm⟩
        · rintro ⟨hno, h⟩
          exact ⟨hno, (h hno).symm⟩
      | some newest =>
        simp only [FalseAlarm, Differs, Reported, TrSnapshot.remaining, htr, hnewest,
          map_some, getD_some, not_and, not_not]
        constructor
        · rintro ⟨hno, hne, heq⟩
          exact ⟨⟨hno, hne⟩, fun _ => heq⟩
        · rintro ⟨⟨hno, hne⟩, heq⟩
          exact ⟨hno, hne, heq hno⟩
  | position code =>
    cases htr : tr.positions.get? code with
    | none => simp [FalseAlarm, Reported, htr]
    | some trPosition =>
      cases hnewest : tables.brokerPositionByCode code with
      | none =>
        -- no row of the code: a reported position is held by the broker only
        have hzero := quantity_of_newest_none account hnewest
        simp only [FalseAlarm, Differs, Reported, TrSnapshot.quantity, htr, hnewest, hzero,
          map_some, getD_some, not_and, not_not]
        constructor
        · rintro ⟨-, position, newest, -, hnone, -⟩
          exact absurd hnone (by simp)
        · rintro ⟨⟨hcode, hpos⟩, heq⟩
          have := heq hcode
          omega
      | some newest =>
        simp only [FalseAlarm, Differs, Reported, TrSnapshot.quantity, htr, hnewest,
          some.injEq, ↓existsAndEq, true_and, map_some, getD_some,
          not_and, not_not]
        constructor
        · rintro ⟨hcode, hne, heq⟩
          exact ⟨⟨hcode, hne⟩, fun _ => heq⟩
        · rintro ⟨⟨hcode, hne⟩, heq⟩
          exact ⟨hcode, hne, heq hcode⟩

/-- A clean run means agreement exactly when every difference that is not seen comes with a
report, and every report about nothing with a difference. -/
theorem clean_iff_agrees_iff (run : ReconcileRun) :
    CleanMeansAgreement tables tr account run ↔
      ((∃ key, Unseen tables tr account key) → ∃ key, Reported tables tr key) ∧
        ((∃ key, FalseAlarm tables tr account key) → ∃ key, Differs tables tr account key) := by
  unfold CleanMeansAgreement
  rw [finalizeRun_clean_iff, and_self, compareSnapshots_eq_nil_iff]
  unfold Agrees
  constructor
  · intro h
    constructor
    · rintro ⟨key, hkey⟩
      by_contra hnone
      have hdiffers := ((unseen_iff tables tr account key).mp hkey).1
      exact h.mp (not_exists.mp hnone) key hdiffers
    · rintro ⟨key, hkey⟩
      by_contra hnone
      have hreported := ((falseAlarm_iff tables tr account key).mp hkey).1
      exact h.mpr (not_exists.mp hnone) key hreported
  · rintro ⟨hunseen, halarm⟩
    constructor
    · intro hclean key hdiffers
      have hkey := (unseen_iff tables tr account key).mpr ⟨hdiffers, hclean key⟩
      obtain ⟨key', hreported⟩ := hunseen ⟨key, hkey⟩
      exact hclean key' hreported
    · intro hagree key hreported
      have hkey := (falseAlarm_iff tables tr account key).mpr ⟨hreported, hagree key⟩
      obtain ⟨key', hdiffers⟩ := halarm ⟨key, hkey⟩
      exact hagree key' hdiffers

end

/-- Ten shares of `005930`, which the snapshot does not list. -/
def soldElsewhere : BrokerTables where
  orders := .empty
  positions := empty.set ("8101234511", "005930") { quantity := 10 }

def emptySnapshot : TrSnapshot where
  openOrders := .empty
  positions := .empty

def completeRun : ReconcileRun where
  accountToken := "ACC_TOKEN_0123456789ab"
  status := .complete
  requiredSources := ["OPEN_ORDERS", "ACCOUNT_POSITIONS"]
  completedSources := ["OPEN_ORDERS", "ACCOUNT_POSITIONS"]
  snapshotComplete := false
  brokerTruthReady := false
  reconcileClean := false
  discrepancyCount := 0
  criticalDiscrepancyCount := 0
  warnings := []
  errors := []

/-- A position that the snapshot does not list is never compared: the run is clean. -/
theorem unlisted_position_is_clean :
    ¬ CleanMeansAgreement soldElsewhere emptySnapshot "8101234511" completeRun := by
  intro h
  have hagree : Agrees soldElsewhere emptySnapshot "8101234511" := h.1.mp (by decide)
  exact hagree (.position "005930") (by unfold Differs; decide)

end TradingCore.BrokerReconcile
