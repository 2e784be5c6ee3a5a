import TradingCore.BrokerReconcile.Models
import TradingCore.Candidates.Codes

/-!
# Parsing the answers of the reconcile requests

A row of an answer is a map from the broker's field names to texts. A field is read under the
first of its aliases that is not blank; a text that is no number reads as nought and leaves a
warning. An infinite number cannot be converted and fails the whole answer.

How a text reads as a floating-point number is a parameter.
-/

namespace TradingCore.BrokerReconcile

open Base Candidates

/-! ## The requests -/

/-- `KiwoomReconcileTrSpec`, with what the parser reads of it. -/
structure KiwoomReconcileTrSpec where
  logicalSource : String
  fieldAliases : List (String × List String)
  validEmptyAllowed : Bool

def openOrdersSpec : KiwoomReconcileTrSpec where
  logicalSource := "OPEN_ORDERS"
  fieldAliases :=
    [("account", ["계좌번호"]), ("order_no", ["주문번호"]), ("original_order_no", ["원주문번호"]),
      ("code", ["종목코드"]), ("side", ["주문구분", "매매구분"]), ("order_quantity", ["주문수량"]),
      ("order_price", ["주문가격"]), ("remaining_quantity", ["미체결수량"]),
      ("filled_quantity", ["체결량", "체결누계수량"]), ("order_status", ["주문상태"]),
      ("order_time", ["시간"])]
  validEmptyAllowed := true

def accountPositionsSpec : KiwoomReconcileTrSpec where
  logicalSource := "ACCOUNT_POSITIONS"
  fieldAliases :=
    [("code", ["종목번호", "종목코드"]), ("quantity", ["보유수량"]),
      ("orderable_quantity", ["매매가능수량", "주문가능수량"]),
      ("average_price", ["평균단가", "매입가"]), ("total_buy_amount", ["매입금액"]),
      ("current_price", ["현재가"]), ("evaluation_amount", ["평가금액"]),
      ("evaluation_pnl", ["평가손익"]), ("profit_rate", ["수익률(%)"])]
  validEmptyAllowed := true

def accountCashSpec : KiwoomReconcileTrSpec where
  logicalSource := "ACCOUNT_CASH"
  fieldAliases :=
    [("deposit", ["예수금"]), ("orderable_cash", ["주문가능금액", "주식증거금현금"]),
      ("withdrawable_cash", ["출금가능금액"]),
      ("d1_estimated_deposit", ["d+1추정예수금", "D+1추정예수금"]),
      ("d2_estimated_deposit", ["d+2추정예수금", "D+2추정예수금"])]
  validEmptyAllowed := false

/-- `KiwoomReconcileTrSpecRegistry.get`: an unknown source is an error. -/
def specOf (source : String) : Option KiwoomReconcileTrSpec :=
  [openOrdersSpec, accountPositionsSpec, accountCashSpec].find? fun spec =>
    spec.logicalSource = source

/-! ## Parse results -/

structure ParserWarning where
  field : String
  raw : String
deriving DecidableEq

def ParserWarning.text (warning : ParserWarning) : String :=
  "FIELD_PARSE_FAILED:" ++ warning.field ++ ":" ++ warning.raw

structure BrokerOpenOrderSnapshot where
  accountToken : String
  orderNo : String
  originalOrderNo : String
  code : String
  orderQuantity : Int
  orderPrice : Int
  filledQuantity : Int
  remainingQuantity : Nat

structure BrokerPositionSnapshot where
  accountToken : String
  code : String
  quantity : Int
  orderableQuantity : Int

structure BrokerCashSnapshot where
  accountToken : String
  deposit : Int
  orderableCash : Int
  withdrawableCash : Int
  d1EstimatedDeposit : Int
  d2EstimatedDeposit : Int

inductive ReconcileParserStatus where
  | pass
  | degraded
  | invalid
  | validEmpty

structure ReconcileTrParseResult where
  logicalSource : String
  parserStatus : ReconcileParserStatus
  complete : Bool
  validEmpty : Bool
  rowCount : Nat
  openOrders : List BrokerOpenOrderSnapshot
  positions : List BrokerPositionSnapshot
  cash : Option BrokerCashSnapshot
  warnings : List ParserWarning
  errors : List String

def quantityFields : List String :=
  ["order_quantity", "filled_quantity", "remaining_quantity", "quantity", "orderable_quantity"]

namespace ReconcileTrParseResult

/-- Every quantity of the answer was a number. -/
def QuantitiesRead (result : ReconcileTrParseResult) : Prop :=
  ∀ warning ∈ result.warnings, warning.field ∉ quantityFields
deriving Decidable

def Completes (result : ReconcileTrParseResult) : Prop :=
  result.complete = true ∧ result.errors = []
deriving Decidable

def Sound (result : ReconcileTrParseResult) : Prop :=
  result.Completes ∧ result.QuantitiesRead
deriving Decidable

end ReconcileTrParseResult

/-! ## Reading fields -/

abbrev TrRowFields := Dict String String

/-- What `float(text)` gives: a finite number with its integer part, an infinite one, not a
number, or an error. -/
inductive NumberText where
  | value (intPart : Int)
  | infinite
  | notANumber
  | invalid
deriving DecidableEq

abbrev TrParser := StateT (List ParserWarning) Option

def strAlias (row : TrRowFields) (spec : KiwoomReconcileTrSpec) (normalized : String) : String :=
  let aliases := (spec.fieldAliases.lookup normalized).getD []
  ((aliases.map fun field => Text.strip (row.getD field "")).find? (· ≠ "")).getD ""

def cleanNumber (value : String) : String :=
  .ofList ((Text.strip value).toList.filter fun c => c ≠ ',' ∧ c ≠ '+' ∧ c ≠ '%')

/-- `account_token`. The digest is the abbreviated SHA-256 of the text. -/
def accountToken (digest : String → String) (account : String) : String :=
  let text := Text.strip account
  if text = "" then "" else "ACC_TOKEN_" ++ digest text

section

variable (readNumber : String → NumberText)

def intAlias (row : TrRowFields) (spec : KiwoomReconcileTrSpec) (normalized : String) :
    TrParser Int :=
  let raw := strAlias row spec normalized
  if raw = "" then pure 0
  else
    match readNumber (cleanNumber raw) with
    | .value n => pure n
    | .infinite => failure
    | .notANumber | .invalid => do
        modify (· ++ [⟨normalized, raw⟩])
        pure 0

/-- `_float_alias`, for the warning it leaves. -/
def floatAlias (row : TrRowFields) (spec : KiwoomReconcileTrSpec) (normalized : String) :
    TrParser Unit :=
  let raw := strAlias row spec normalized
  if raw ≠ "" ∧ readNumber (cleanNumber raw) = .invalid then
    modify (· ++ [⟨normalized, raw⟩])
  else pure ()

def parseOpenOrder (token : String) (row : TrRowFields) : TrParser BrokerOpenOrderSnapshot := do
  let spec := openOrdersSpec
  let remaining ← intAlias readNumber row spec "remaining_quantity"
  let orderQty ← intAlias readNumber row spec "order_quantity"
  let filled ← intAlias readNumber row spec "filled_quantity"
  let filled :=
    if filled = 0 ∧ 0 < orderQty ∧ 0 ≤ remaining then max 0 (orderQty - remaining) else filled
  let orderPrice ← intAlias readNumber row spec "order_price"
  return {
    accountToken := token
    orderNo := strAlias row spec "order_no"
    originalOrderNo := strAlias row spec "original_order_no"
    code := normalizeCode (strAlias row spec "code")
    orderQuantity := orderQty
    orderPrice := orderPrice
    filledQuantity := filled
    remainingQuantity := remaining.toNat }

/-- `_parse_position`. The prices only leave their warnings. -/
def parsePosition (token : String) (row : TrRowFields) : TrParser BrokerPositionSnapshot := do
  let spec := accountPositionsSpec
  let quantity ← intAlias readNumber row spec "quantity"
  let orderable ← intAlias readNumber row spec "orderable_quantity"
  floatAlias readNumber row spec "average_price"
  floatAlias readNumber row spec "total_buy_amount"
  floatAlias readNumber row spec "current_price"
  floatAlias readNumber row spec "evaluation_amount"
  floatAlias readNumber row spec "evaluation_pnl"
  floatAlias readNumber row spec "profit_rate"
  return {
    accountToken := token
    code := normalizeCode (strAlias row spec "code")
    quantity := quantity
    orderableQuantity := orderable }

def parseCash (token : String) (single : TrRowFields) : TrParser BrokerCashSnapshot := do
  let spec := accountCashSpec
  return {
    accountToken := token
    deposit := ← intAlias readNumber single spec "deposit"
    orderableCash := ← intAlias readNumber single spec "orderable_cash"
    withdrawableCash := ← intAlias readNumber single spec "withdrawable_cash"
    d1EstimatedDeposit := ← intAlias readNumber single spec "d1_estimated_deposit"
    d2EstimatedDeposit := ← intAlias readNumber single spec "d2_estimated_deposit" }

/-! ## Parsing an answer -/

/-- `_result`, with what the branch of the source has parsed. -/
def parseResult (spec : KiwoomReconcileTrSpec) (complete : Bool) (rows : List TrRowFields)
    (warnings : List ParserWarning) (errors : List String)
    (openOrders : List BrokerOpenOrderSnapshot) (positions : List BrokerPositionSnapshot)
    (cash : Option BrokerCashSnapshot) : ReconcileTrParseResult :=
  let validEmpty := complete && errors.isEmpty && rows.isEmpty && spec.validEmptyAllowed
  { logicalSource := spec.logicalSource
    parserStatus :=
      if errors ≠ [] then .invalid
      else if validEmpty then .validEmpty
      else if warnings ≠ [] then .degraded
      else .pass
    complete := complete && errors.isEmpty
    validEmpty := validEmpty
    rowCount := rows.length
    openOrders := openOrders
    positions := positions
    cash := cash
    warnings := warnings.eraseDups
    errors := errors.eraseDups }

/-- The answer of a reconcile request, as the Gateway forwards it. -/
structure ReconcileAck where
  logicalSource : String
  account : String
  complete : Bool
  parserErrors : List String
  capturedSingle : TrRowFields
  capturedRows : List TrRowFields

def captureErrors (token : String) (complete : Bool) : List String :=
  (if token = "" then ["ACCOUNT_MISSING"] else []) ++
    if complete then [] else ["TR_CAPTURE_INCOMPLETE"]

/-- `parse_command_ack` and `parse_capture`. Nothing comes of an answer of an unknown source,
nor of one with an infinite number. -/
def parseCommandAck (digest : String → String) (ack : ReconcileAck) :
    Option ReconcileTrParseResult := do
  let spec ← specOf ack.logicalSource
  let complete := ack.complete && ack.parserErrors.isEmpty
  let token := accountToken digest ack.account
  let errors := captureErrors token complete
  if spec.logicalSource = "OPEN_ORDERS" then
    let (orders, warnings) ← (ack.capturedRows.mapM (parseOpenOrder readNumber token)).run []
    return parseResult spec complete ack.capturedRows warnings errors orders [] none
  else if spec.logicalSource = "ACCOUNT_POSITIONS" then
    let (positions, warnings) ← (ack.capturedRows.mapM (parsePosition readNumber token)).run []
    return parseResult spec complete ack.capturedRows warnings errors [] positions none
  else
    let (cash, warnings) ← (parseCash readNumber token ack.capturedSingle).run []
    return parseResult spec complete ack.capturedRows warnings errors [] [] (some cash)

end

end TradingCore.BrokerReconcile
