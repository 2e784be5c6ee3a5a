import TradingCore.LiveSim.PositionRuntime

/-!
# Which open positions reach the engines

A row reaches the risk and exit engines intact if `build` returns exactly one snapshot with its
`position_id`, and this one has the quantity and the entry price of the row, and prices and a
return that are computed from it. `intact_iff` says exactly when every open row does: no open row
has an entry price, all of them are among the newest 100 rows, and nothing before them has their
code without a candidate.

`DistinctIds` is what the table has to offer for that: the ids are those of the ledger.
-/

namespace TradingCore.LiveSim

open Base List
open Orders (orText)

/-! ## The law -/

def openRows (table : PositionTable) : List (String × PositionRow) :=
  table.entries.filter fun entry => entry.2.status.inRuntime

namespace PositionRuntimeService

variable (service : PositionRuntimeService)

/-- A row has exactly one snapshot, and this one is made from its entry price. -/
def Reaches (snapshots : List PositionRuntimeSnapshot) (entry : String × PositionRow) : Prop :=
  ∃ snapshot, (snapshots.filter fun s => s.positionId = entry.1) = [snapshot] ∧
    snapshot.quantity = entry.2.currentQty ∧ snapshot.remainingQuantity = entry.2.currentQty ∧
      snapshot.entryPrice = entry.2.entryAvgPrice ∧
        snapshot.stopLossPrice = targetPrice entry.2.entryAvgPrice service.config.stopLossPct ∧
        snapshot.takeProfitPrice = targetPrice entry.2.entryAvgPrice service.config.takeProfit1Pct ∧
        snapshot.currentReturnPct = roundSix (returnPct snapshot.currentPrice entry.2.entryAvgPrice)

def Intact (tradeDate : String) (positions : List VirtualPosition) (table : PositionTable) :
    Prop :=
  ∀ entry ∈ openRows table, service.Reaches (service.build tradeDate positions table) entry

/-- A row that no stage drops or changes: it has no entry price, it is among the newest, no other
open row has its code, and no virtual position of the date has its code and no candidate. -/
def Passes (tradeDate : String) (positions : List VirtualPosition) (table : PositionTable)
    (entry : String × PositionRow) : Prop :=
  entry.2.entryAvgPrice = 0 ∧ entry ∈ listLiveSimPositions table ∧
    (∀ other ∈ openRows table, other.2.code = entry.2.code → other = entry) ∧
    ∀ position ∈ positions, service.ofTradeDate tradeDate position = true →
      position.candidateId ∈ [none, some 0] → service.virtualCode position ≠ entry.2.code

end PositionRuntimeService

/-! ## The ids -/

def LedgerIds (table : PositionTable) : Prop :=
  ∀ entry ∈ table.entries, ∃ rest, entry.1 = "LIVE_SIM:" ++ rest

theorem positionIdFor_eq (account code candidateInstanceId : String) :
    ∃ rest, positionIdFor account code candidateInstanceId = "LIVE_SIM:" ++ rest := by
  refine ⟨account ++ (":" ++ (code ++ (":" ++ orText candidateInstanceId "no_ci"))), ?_⟩
  unfold positionIdFor
  simp only [String.append_assoc]

theorem ledgerIds_upsert {table : PositionTable} (h : LedgerIds table) (order : PositionOrder)
    (fill : PositionFill) : LedgerIds (upsertLiveSimPositionFromFill table order fill) := by
  rintro ⟨id, row⟩ hentry
  have hget := Dict.mem_entries_iff.mp hentry
  unfold upsertLiveSimPositionFromFill at hget
  dsimp only at hget
  generalize hid : positionIdFor _ _ _ = positionId at hget
  by_cases heq : id = positionId
  · subst heq
    rw [← hid]
    exact positionIdFor_eq _ _ _
  · rw [Dict.get?_set_ne _ _ heq] at hget
    exact h (id, row) (Dict.mem_entries_iff.mpr hget)

theorem ledgerIds_positionsAfter (fills : List (PositionOrder × PositionFill)) :
    LedgerIds (positionsAfter fills) := by
  have hfold : ∀ table, LedgerIds table → LedgerIds (fills.foldl
      (fun table entry => upsertLiveSimPositionFromFill table entry.1 entry.2) table) := by
    induction fills with
    | nil => exact fun _ h => h
    | cons entry rest ih => exact fun table h => ih _ (ledgerIds_upsert h entry.1 entry.2)
  exact hfold _ fun _ hentry => by cases hentry

theorem virtual_ne_ledger (a b : String) : "virtual:" ++ a ≠ "LIVE_SIM:" ++ b := by
  intro h
  have hlist := congrArg String.toList h
  rw [String.toList_append, String.toList_append] at hlist
  have hhead := congrArg head? hlist
  exact absurd hhead (by simp)

theorem toString_ne_empty (n : Int) : toString n ≠ "" := by
  cases n with
  | ofNat m => exact Nat.repr_ne_empty
  | negSucc m =>
    intro hempty
    have hlist : ("-" ++ toString (m + 1)).toList = "".toList := congrArg String.toList hempty
    rw [String.toList_append] at hlist
    exact absurd (congrArg length hlist) (by simp)

namespace PositionRuntimeService

variable {service : PositionRuntimeService} {tradeDate : String}
  {positions : List VirtualPosition} {table : PositionTable}

/-! ## Snapshots of rows and of virtual positions -/

variable {entry : String × PositionRow} {snapshot : PositionRuntimeSnapshot}

theorem positionId_liveSimSnapshot (hids : LedgerIds table) (hentry : entry ∈ table.entries) :
    (service.liveSimSnapshot entry).positionId = entry.1 := by
  obtain ⟨rest, hrest⟩ := hids entry hentry
  have hne : entry.1 ≠ "" := by
    rw [hrest]
    intro hempty
    have hlist := congrArg String.toList hempty
    rw [String.toList_append] at hlist
    exact absurd (congrArg length hlist) (by simp)
  show orText entry.1 _ = entry.1
  unfold orText
  rw [if_neg hne]

theorem dedupeKey_liveSimSnapshot (entry : String × PositionRow) :
    dedupeKey (service.liveSimSnapshot entry) = ("", entry.2.code) := by
  show ("", orText entry.2.code "") = ("", entry.2.code)
  unfold orText
  split
  · next hempty => rw [hempty]
  · rfl

theorem mem_liveSimPositions :
    snapshot ∈ service.liveSimPositions table ↔
      ∃ entry ∈ listLiveSimPositions table, entry.2.status.inRuntime = true ∧
        service.liveSimSnapshot entry = snapshot := by
  unfold liveSimPositions
  simp only [mem_map, mem_filter, and_assoc]

theorem mem_entries_of_newest {limit : Nat} (h : entry ∈ listLiveSimPositions table limit) :
    entry ∈ table.entries :=
  mem_reverse.mp (take_subset _ _ h)

theorem eq_of_id {other : String × PositionRow} (hentry : entry ∈ table.entries)
    (hother : other ∈ table.entries) (hid : other.1 = entry.1) : other = entry :=
  inj_on_of_nodup_map table.nodup hother hentry hid

theorem dedupeKey_virtualSnapshot_iff {position : VirtualPosition} {code : String} :
    dedupeKey (service.virtualSnapshot position) = ("", code) ↔
      position.candidateId ∈ [none, some 0] ∧ service.virtualCode position = code := by
  have hid : (service.virtualSnapshot position).candidateId = position.candidateId := rfl
  unfold dedupeKey
  rw [hid, Prod.mk.injEq]
  refine and_congr ?_ Iff.rfl
  cases position.candidateId with
  | none => simp
  | some id =>
    by_cases hzero : id = 0
    · simp [hzero]
    · simp only [hzero, if_false, toString_ne_empty id, mem_cons, reduceCtorEq,
        Option.some.injEq, not_mem_nil, or_self]

theorem mem_virtualPositions :
    snapshot ∈ service.virtualPositions tradeDate positions ↔
      ∃ position ∈ positions, service.ofTradeDate tradeDate position = true ∧
        service.virtualSnapshot position = snapshot := by
  unfold virtualPositions
  simp only [mem_map, mem_filter, and_assoc]

theorem virtual_id_ne (hids : LedgerIds table) (hentry : entry ∈ table.entries)
    (hvirtual : snapshot ∈ service.virtualPositions tradeDate positions) :
    snapshot.positionId ≠ entry.1 := by
  obtain ⟨position, -, -, rfl⟩ := mem_virtualPositions.mp hvirtual
  obtain ⟨rest, hrest⟩ := hids entry hentry
  rw [hrest]
  exact virtual_ne_ledger _ _

theorem eq_liveSimSnapshot (hids : LedgerIds table) (hentry : entry ∈ table.entries)
    (hsnapshot : snapshot ∈ service.virtualPositions tradeDate positions ++
      service.liveSimPositions table) (hid : snapshot.positionId = entry.1) :
    entry ∈ listLiveSimPositions table ∧ snapshot = service.liveSimSnapshot entry := by
  rcases mem_append.mp hsnapshot with hvirtual | hlive
  · exact absurd hid (virtual_id_ne hids hentry hvirtual)
  · obtain ⟨other, hother, -, rfl⟩ := mem_liveSimPositions.mp hlive
    have hmem := mem_entries_of_newest hother
    rw [positionId_liveSimSnapshot hids hmem] at hid
    obtain rfl := eq_of_id hentry hmem hid
    exact ⟨hother, rfl⟩

/-! ## Exactly the tables that reach the engines -/

theorem snapshot_of_reaches (hids : LedgerIds table) (hentry : entry ∈ table.entries)
    (hreaches : service.Reaches (service.build tradeDate positions table) entry) :
    entry ∈ listLiveSimPositions table ∧ entry.2.entryAvgPrice = 0 ∧
      service.liveSimSnapshot entry ∈ service.build tradeDate positions table := by
  obtain ⟨snapshot, hfilter, -, -, hprice, -⟩ := hreaches
  have hmem : snapshot ∈ (service.build tradeDate positions table).filter
      fun s => s.positionId = entry.1 := by
    rw [hfilter]
    exact mem_cons_self
  obtain ⟨hbuild, hid⟩ := mem_filter.mp hmem
  obtain ⟨hnewest, rfl⟩ := eq_liveSimSnapshot hids hentry (keepFirst_sublist.mem hbuild)
    (of_decide_eq_true hid)
  exact ⟨hnewest, hprice.symm, hbuild⟩

theorem reaches_of_passes (hids : LedgerIds table) (hopen : entry ∈ openRows table)
    (hpasses : service.Passes tradeDate positions table entry) :
    service.Reaches (service.build tradeDate positions table) entry := by
  obtain ⟨hprice, hnewest, hcode, hvirtual⟩ := hpasses
  obtain ⟨hentry, hruntime⟩ := mem_filter.mp hopen
  have hlive : service.liveSimSnapshot entry ∈ service.virtualPositions tradeDate positions ++
      service.liveSimPositions table :=
    mem_append_right _ (mem_liveSimPositions.mpr ⟨entry, hnewest, hruntime, rfl⟩)
  -- no other snapshot has its key
  have honly : ∀ other ∈ service.virtualPositions tradeDate positions ++
      service.liveSimPositions table, dedupeKey other = dedupeKey (service.liveSimSnapshot entry) →
        other = service.liveSimSnapshot entry := by
    intro other hother hkey
    rw [dedupeKey_liveSimSnapshot] at hkey
    rcases mem_append.mp hother with hother | hother
    · obtain ⟨position, hposition, hdate, rfl⟩ := mem_virtualPositions.mp hother
      obtain ⟨hcandidate, hsame⟩ := dedupeKey_virtualSnapshot_iff.mp hkey
      exact absurd hsame (hvirtual position hposition hdate hcandidate)
    · obtain ⟨row, hrow, hstatus, rfl⟩ := mem_liveSimPositions.mp hother
      rw [dedupeKey_liveSimSnapshot] at hkey
      have hsame := hcode row (mem_filter.mpr ⟨mem_entries_of_newest hrow, hstatus⟩)
        (Prod.mk.inj hkey).2
      rw [hsame]
  have hfilter := filter_keepFirst (p := fun s => decide (s.positionId = entry.1))
    (mem_keepFirst hlive honly) (decide_eq_true (positionId_liveSimSnapshot hids hentry))
    fun other hother hid => (eq_liveSimSnapshot hids hentry hother (of_decide_eq_true hid)).2
  have hquantity : firstNumber [entry.2.currentQty] = entry.2.currentQty := by
    unfold firstNumber
    by_cases hzero : entry.2.currentQty = 0 <;> simp [hzero]
  refine ⟨service.liveSimSnapshot entry, hfilter, hquantity, hquantity, hprice.symm, ?_⟩
  rw [hprice]
  exact ⟨rfl, rfl, rfl⟩

/-- Every open row reaches the engines iff every open row passes all stages. -/
theorem intact_iff (service : PositionRuntimeService) (tradeDate : String)
    (positions : List VirtualPosition) (fills : List (PositionOrder × PositionFill)) :
    service.Intact tradeDate positions (positionsAfter fills) ↔
      ∀ entry ∈ openRows (positionsAfter fills),
        service.Passes tradeDate positions (positionsAfter fills) entry := by
  have hids := ledgerIds_positionsAfter fills
  generalize positionsAfter fills = table at hids
  constructor
  · intro hintact entry hopen
    have hentry := (mem_filter.mp hopen).1
    obtain ⟨hnewest, hprice, hbuild⟩ := snapshot_of_reaches hids hentry (hintact entry hopen)
    refine ⟨hprice, hnewest, ?_, ?_⟩
    · -- two snapshots of one key are the same, and so are the rows
      intro other hother hcode
      have hmem := (mem_filter.mp hother).1
      have hbuilt := (snapshot_of_reaches hids hmem (hintact other hother)).2.2
      have hsame := eq_of_mem_keepFirst hbuilt hbuild (by
        rw [dedupeKey_liveSimSnapshot, dedupeKey_liveSimSnapshot, hcode])
      have hid := congrArg PositionRuntimeSnapshot.positionId hsame
      rw [positionId_liveSimSnapshot hids hmem, positionId_liveSimSnapshot hids hentry] at hid
      exact eq_of_id hentry hmem hid
    · -- a virtual position of its key would be kept in its place
      intro position hposition hdate hcandidate hcode
      have hvirtual := mem_virtualPositions.mpr ⟨position, hposition, hdate, rfl⟩
      obtain ⟨first, hfirst, hkey⟩ := exists_keepFirst dedupeKey [] hvirtual (by simp)
      rw [dedupeKey_virtualSnapshot_iff.mpr ⟨hcandidate, hcode⟩,
        ← @dedupeKey_liveSimSnapshot service entry] at hkey
      have hsame := eq_of_mem_keepFirst (mem_keepFirst_append hfirst) hbuild hkey
      refine virtual_id_ne hids hentry (keepFirst_sublist.mem hfirst) ?_
      rw [hsame, positionId_liveSimSnapshot hids hentry]
  · exact fun hpasses entry hopen => reaches_of_passes hids hopen (hpasses entry hopen)

/-! ## A fixed run -/

/-- One purchase of 10 shares at 70000: the snapshot has no entry price, and no stop-loss. -/
theorem bought_position_loses_its_price :
    ¬ ({} : PositionRuntimeService).Intact "2026-01-05" []
      (positionsAfter [({ code := "005930", accountIdMasked := "12****78", side := "buy" },
        { side := "buy", fillQty := 10, fillPrice := 70000 })]) := by
  intro hintact
  have hreaches := hintact (positionIdFor "12****78" "005930" "",
    { candidateInstanceId := "", code := "005930", name := "", accountIdMasked := "12****78"
      openedAt := "", entryQty := 10, entryAvgPrice := 70000, currentQty := 10 }) (by decide)
  have hprice := (snapshot_of_reaches (ledgerIds_positionsAfter _) (by decide) hreaches).2.1
  exact absurd hprice (by decide)

end PositionRuntimeService

end TradingCore.LiveSim
