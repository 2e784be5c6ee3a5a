import TradingCore.Base.IsoTime
import TradingCore.Base.Numeral
import TradingCore.Broker.CommandQueue

/-!
# Counting the order commands of a day

`count_order_commands` (`trading/broker/command_persistence.py`) counts rows of `gateway_commands`,
`_in_memory_order_command_count` (`trading/broker/gateway_state.py`) counts records, and
`daily_order_command_count` asks the table if there is one. The two read an order type that counts
as false differently, and only the first answers nought when it is not told a date, a code or a
side (`order_counts_agree_iff`).

The JSON text of `payload_json` is known by its document.
-/

namespace TradingCore.Broker

open Base List

structure OrderFilter where
  tradeDate : String
  code : String
  side : String
  tag : String := ""
  orderType : Option Int := none

/-! ## In the table -/

/-- `_trade_date`, the Korean date of a time. -/
def tradeDate : Option Time → String
  | none => ""
  | some t => dateText (dateOf (719162 + (t + 9 * 3600) / 86400).toNat)

/-- The columns of `gateway_commands` that are counted by. -/
structure OrderRow where
  tradeDate : String
  commandType : String
  payloadJson : Mapping

/-- These columns as `_upsert_record_no_lock` writes them. -/
def orderRow (record : CommandRecord) : OrderRow where
  tradeDate := tradeDate record.createdAt
  commandType := record.commandType
  payloadJson := record.command.payload

def safeInt (value : Value) (default : Int) : Int := value.int?.getD default

/-- Does the loop of `count_order_commands` count the payload of a row? -/
def rowCounts (f : OrderFilter) (payload : Mapping) : Bool :=
  if payload.textOr "code" ≠ f.code then false
  else if payload.textOr "side" ≠ f.side then false
  else if f.tag ≠ "" ∧ payload.textOr "tag" ≠ f.tag then false
  else
    match f.orderType with
    | none => true
    | some orderType => safeInt (payload.value "order_type") (-1) = orderType

def countOrderCommands (rows : List OrderRow) (f : OrderFilter) : Nat :=
  if f.tradeDate = "" ∨ f.code = "" ∨ f.side = "" then 0
  else
    let selected := rows.filter fun row =>
      row.tradeDate = f.tradeDate ∧ row.commandType ∈ orderCommandTypes
    selected.countP fun row => rowCounts f row.payloadJson

/-! ## In memory -/

def kstTradeDate (time : Option Time) : String := tradeDate time

/-- Does the loop of `_in_memory_order_command_count` count a record? -/
def recordCounts (f : OrderFilter) (record : CommandRecord) : Bool :=
  let payload := record.command.payload
  if record.commandType ∉ orderCommandTypes then false
  else if kstTradeDate record.createdAt ≠ f.tradeDate then false
  else if payload.textOr "code" ≠ f.code then false
  else if payload.textOr "side" ≠ f.side then false
  else if f.tag ≠ "" ∧ payload.textOr "tag" ≠ f.tag then false
  else
    match f.orderType with
    | none => true
    | some orderType =>
        (((payload.value "order_type").or (.int 0)).int?.getD (-1)) = orderType

def inMemoryOrderCommandCount (records : List CommandRecord) (f : OrderFilter) : Nat :=
  records.countP (recordCounts f)

def newestFirst (queue : CommandQueue) : List CommandRecord :=
  queue.sequence.reverse.filterMap queue.records.get?

/-- `GatewayStateStore.daily_order_command_count`, with the rows of the command store if there is
one. -/
def dailyOrderCommandCount (rows : Option (List OrderRow)) (queue : CommandQueue)
    (f : OrderFilter) : Nat :=
  match rows with
  | some rows => countOrderCommands rows f
  | none => inMemoryOrderCommandCount (queue.listAll 10000) f

/-! ## What the two ask of a record -/

/-- The part of a filter that both read alike: an order of the day with the code, the side and,
where one is asked for, the tag. -/
structure Selected (f : OrderFilter) (record : CommandRecord) : Prop where
  commandType : record.commandType ∈ orderCommandTypes
  tradeDate : tradeDate record.createdAt = f.tradeDate
  code : record.command.payload.textOr "code" = f.code
  side : record.command.payload.textOr "side" = f.side
  tag : f.tag = "" ∨ record.command.payload.textOr "tag" = f.tag

/-- The order type counts as false and `int` does not read it as nought: there is none, or it is
`None`, an empty text or an empty container. -/
def Misread (record : CommandRecord) : Prop :=
  let orderType := record.command.payload.value "order_type"
  orderType.truthy = false ∧ orderType.int? ≠ some 0

def rowOrderType (record : CommandRecord) : Int :=
  safeInt (record.command.payload.value "order_type") (-1)

def recordOrderType (record : CommandRecord) : Int :=
  ((record.command.payload.value "order_type").or (.int 0)).int?.getD (-1)

variable {f : OrderFilter} {record : CommandRecord}

theorem recordOrderType_of_misread (h : Misread record) : recordOrderType record = 0 := by
  rw [recordOrderType, Value.or, if_neg (by rw [h.1]; exact Bool.false_ne_true)]
  rfl

theorem rowOrderType_of_misread (h : Misread record) : rowOrderType record ≠ 0 := by
  intro hzero
  rw [rowOrderType, safeInt] at hzero
  cases hint : (record.command.payload.value "order_type").int? with
  | none =>
    rw [hint] at hzero
    cases hzero
  | some n =>
    rw [hint] at hzero
    exact h.2 (by rw [hint, show n = 0 from hzero])

theorem recordOrderType_eq (h : ¬ Misread record) :
    recordOrderType record = rowOrderType record := by
  rw [recordOrderType, rowOrderType, safeInt, Value.or]
  split
  · rfl
  · next hfalsy =>
      have hzero : (record.command.payload.value "order_type").int? = some 0 :=
        not_not.mp fun hne => h ⟨Bool.not_eq_true _ ▸ hfalsy, hne⟩
      rw [hzero]
      rfl

theorem payload_counts_iff {payload : Mapping} {orderType : Int} {b : Bool}
    (hb : b = match f.orderType with
      | none => true
      | some t => decide (orderType = t)) :
    (if payload.textOr "code" ≠ f.code then false
      else if payload.textOr "side" ≠ f.side then false
      else if f.tag ≠ "" ∧ payload.textOr "tag" ≠ f.tag then false
      else b) = true ↔
      payload.textOr "code" = f.code ∧ payload.textOr "side" = f.side ∧
        (f.tag = "" ∨ payload.textOr "tag" = f.tag) ∧
        ∀ t, f.orderType = some t → orderType = t := by
  have htype : b = true ↔ ∀ t, f.orderType = some t → orderType = t := by
    rw [hb]
    cases f.orderType with
    | none => simp
    | some t => simp
  rw [← htype]
  by_cases htag : f.tag = ""
  · simp [htag]
  · simp [htag]

theorem recordCounts_iff :
    recordCounts f record = true ↔
      Selected f record ∧ ∀ t, f.orderType = some t → recordOrderType record = t := by
  unfold recordCounts
  by_cases hcommand : record.commandType ∈ orderCommandTypes
  · by_cases hdate : kstTradeDate record.createdAt = f.tradeDate
    · rw [if_neg (not_not_intro hcommand), if_neg (not_not_intro hdate), payload_counts_iff rfl]
      constructor
      · rintro ⟨hcode, hside, htag, htype⟩
        exact ⟨⟨hcommand, hdate, hcode, hside, htag⟩, htype⟩
      · rintro ⟨hselected, htype⟩
        exact ⟨hselected.code, hselected.side, hselected.tag, htype⟩
    · rw [if_neg (not_not_intro hcommand), if_pos hdate]
      exact ⟨fun h => absurd h Bool.false_ne_true, fun h => absurd h.1.tradeDate hdate⟩
  · rw [if_pos hcommand]
    exact ⟨fun h => absurd h Bool.false_ne_true, fun h => absurd h.1.commandType hcommand⟩

theorem rowCounts_iff :
    ((orderRow record).tradeDate = f.tradeDate ∧
        (orderRow record).commandType ∈ orderCommandTypes) ∧
        rowCounts f (orderRow record).payloadJson = true ↔
      Selected f record ∧ ∀ t, f.orderType = some t → rowOrderType record = t := by
  unfold rowCounts
  rw [payload_counts_iff rfl]
  constructor
  · rintro ⟨⟨hdate, hcommand⟩, hcode, hside, htag, htype⟩
    exact ⟨⟨hcommand, hdate, hcode, hside, htag⟩, htype⟩
  · rintro ⟨hselected, htype⟩
    exact ⟨⟨hselected.tradeDate, hselected.commandType⟩, hselected.code, hselected.side,
      hselected.tag, htype⟩

def tableCounts (f : OrderFilter) (record : CommandRecord) : Bool :=
  decide ((orderRow record).tradeDate = f.tradeDate ∧
    (orderRow record).commandType ∈ orderCommandTypes) &&
  rowCounts f (orderRow record).payloadJson

theorem tableCounts_iff :
    tableCounts f record = true ↔
      Selected f record ∧ ∀ t, f.orderType = some t → rowOrderType record = t := by
  rw [tableCounts, Bool.and_eq_true, decide_eq_true_iff, rowCounts_iff]

theorem countOrderCommands_map (records : List CommandRecord)
    (h : ¬ (f.tradeDate = "" ∨ f.code = "" ∨ f.side = "")) :
    countOrderCommands (records.map orderRow) f = records.countP (tableCounts f) := by
  rw [countOrderCommands, if_neg h, countP_filter, countP_map]
  refine countP_congr fun record _ => ?_
  rw [tableCounts, Bool.and_comm]
  rfl

/-! ## When the counts agree -/

theorem countP_eq_iff_of_imp {α : Type} {p q : α → Bool} {items : List α}
    (h : ∀ a ∈ items, p a = true → q a = true) :
    items.countP p = items.countP q ↔ ∀ a ∈ items, q a = true → p a = true := by
  constructor
  · intro heq a ha hq
    by_contra hp
    obtain ⟨front, back, rfl⟩ := append_of_mem ha
    have hfront : front.countP p ≤ front.countP q :=
      countP_mono_left fun b hb => h b (mem_append_left _ hb)
    have hback : back.countP p ≤ back.countP q :=
      countP_mono_left fun b hb => h b (mem_append_right _ (mem_cons_of_mem a hb))
    rw [countP_append, countP_append, countP_cons, countP_cons, if_pos hq, if_neg hp] at heq
    omega
  · exact fun hback => countP_congr fun a ha => ⟨h a ha, hback a ha⟩

/-- The records and filters for which the counts agree. Told a date, a code and a side, no order
of that day with the code, side and tag must have an order type that counts as false without being
read as nought, if orders of type nought or of what the table reads instead are counted. Not told
one of them, no record must pass the filter in memory. -/
def CountsAgree (records : List CommandRecord) (f : OrderFilter) : Prop :=
  if f.tradeDate = "" ∨ f.code = "" ∨ f.side = "" then
    ∀ record ∈ records, recordCounts f record = false
  else
    ∀ record ∈ records, Selected f record → Misread record →
      f.orderType ≠ some 0 ∧ f.orderType ≠ some (rowOrderType record)

theorem tableCounts_eq_iff :
    (tableCounts f record = true ↔ recordCounts f record = true) ↔
      (Selected f record → Misread record →
        f.orderType ≠ some 0 ∧ f.orderType ≠ some (rowOrderType record)) := by
  rw [tableCounts_iff, recordCounts_iff]
  constructor
  · intro h hselected hmisread
    have hrow := rowOrderType_of_misread hmisread
    rw [recordOrderType_of_misread hmisread] at h
    constructor
    · intro hzero
      -- orders of type nought: only memory counts the record
      have htable := (h.mpr ⟨hselected, fun t ht => Option.some.inj (hzero.symm.trans ht)⟩).2
      exact hrow (htable 0 hzero)
    · intro hread
      -- orders of what the table reads: only the table does
      have hmemory := (h.mp ⟨hselected, fun t ht => Option.some.inj (hread.symm.trans ht)⟩).2
      exact hrow (hmemory _ hread).symm
  · intro h
    refine and_congr_right fun hselected => ?_
    by_cases hmisread : Misread record
    · obtain ⟨hzero, hread⟩ := h hselected hmisread
      rw [recordOrderType_of_misread hmisread]
      constructor
      · exact fun heq t ht => absurd (ht.trans (congrArg some (heq t ht).symm)) hread
      · exact fun heq t ht => absurd (ht.trans (congrArg some (heq t ht).symm)) hzero
    · rw [recordOrderType_eq hmisread]

theorem counts_one_sided (f : OrderFilter) :
    (∀ record, tableCounts f record = true → recordCounts f record = true) ∨
      ∀ record, recordCounts f record = true → tableCounts f record = true := by
  by_cases hzero : f.orderType = some 0
  · refine Or.inl fun record htable => ?_
    obtain ⟨hselected, hrow⟩ := tableCounts_iff.mp htable
    refine recordCounts_iff.mpr ⟨hselected, fun t ht => ?_⟩
    have hread : ¬ Misread record := fun h => rowOrderType_of_misread h (hrow 0 hzero)
    rw [recordOrderType_eq hread]
    exact hrow t ht
  · refine Or.inr fun record hmemory => ?_
    obtain ⟨hselected, hrecord⟩ := recordCounts_iff.mp hmemory
    refine tableCounts_iff.mpr ⟨hselected, fun t ht => ?_⟩
    have hread : ¬ Misread record := fun h =>
      hzero (ht.trans (congrArg some ((hrecord t ht).symm.trans (recordOrderType_of_misread h))))
    rw [← recordOrderType_eq hread]
    exact hrecord t ht

/-- For every set of command records and every filter, the count in the table of their rows and
the count in memory are equal if and only if `CountsAgree`, and what the gateway state counts in
memory, over the newest 10000 records, is the count over all of them if and only if no older
record passes the filter. -/
theorem order_counts_agree_iff (records : List CommandRecord) (f : OrderFilter) :
    (countOrderCommands (records.map orderRow) f = inMemoryOrderCommandCount records f ↔
        CountsAgree records f) ∧
      ∀ queue : CommandQueue,
        dailyOrderCommandCount none queue f = inMemoryOrderCommandCount (newestFirst queue) f ↔
          ∀ record ∈ (newestFirst queue).drop 10000, recordCounts f record = false := by
  constructor
  · unfold CountsAgree inMemoryOrderCommandCount
    split
    · next hempty =>
        rw [countOrderCommands, if_pos hempty, eq_comm, countP_eq_zero]
        simp
    · next hfull =>
        rw [countOrderCommands_map records hfull]
        have hpointwise : (∀ record ∈ records, (tableCounts f record = true ↔
            recordCounts f record = true)) ↔ _ :=
          forall_congr' fun record => forall_congr' fun _ => tableCounts_eq_iff
        rw [← hpointwise]
        rcases counts_one_sided f with htable | hmemory
        · rw [countP_eq_iff_of_imp fun record _ => htable record]
          exact ⟨fun h record hmem => ⟨htable record, h record hmem⟩,
            fun h record hmem => (h record hmem).mpr⟩
        · rw [eq_comm, countP_eq_iff_of_imp fun record _ => hmemory record]
          exact ⟨fun h record hmem => ⟨h record hmem, hmemory record⟩,
            fun h record hmem => (h record hmem).mp⟩
  · intro queue
    show ((newestFirst queue).take 10000).countP _ = (newestFirst queue).countP _ ↔ _
    have hsplit : (newestFirst queue).countP (recordCounts f) =
        ((newestFirst queue).take 10000).countP (recordCounts f) +
          ((newestFirst queue).drop 10000).countP (recordCounts f) := by
      rw [← countP_append, take_append_drop]
    rw [hsplit, Nat.left_eq_add, countP_eq_zero]
    simp

/-! ## A fixed record -/

/-- A buy order whose payload says nothing of an order type, of the first of January 1970. -/
def untypedOrder : CommandRecord where
  command :=
    { type := "send_order"
      commandId := "cmd_1"
      payload := Dict.ofList [("code", .str "005930"), ("side", .str "buy")] }
  createdAt := some 0
  commandType := "send_order"
  commandId := "cmd_1"

/-- An order without an order type is an order of type nought in memory, and none in the table. -/
theorem untyped_order_counts_in_memory :
    ¬ ∀ (records : List CommandRecord) (f : OrderFilter),
      countOrderCommands (records.map orderRow) f = inMemoryOrderCommandCount records f := by
  intro hagree
  have h := hagree [untypedOrder]
    { tradeDate := "1970-01-01", code := "005930", side := "buy", orderType := some 0 }
  exact absurd h (by decide +kernel)

end TradingCore.Broker
