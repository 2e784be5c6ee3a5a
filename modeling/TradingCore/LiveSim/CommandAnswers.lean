import TradingCore.LiveSim.Ledger

/-!
# Answers to commands and the LIVE_SIM ledger

What `_persist_gateway_event` and `_handle_command_ack` of `trading_app/api.py` do to the
orders of the ledger when a `command_started`, a `command_ack` or a `command_failed` arrives.
`_append_live_sim_command_audit_event` records the answer and, when a `send_order` was
rejected or failed, writes the status of its order itself. Only then is the `order_result`
that an acknowledgement may carry saved.

The rows of `live_sim_order_events` and the texts of an answer are left out, as are its
effects on the command queue and on the managed orders.
-/

namespace TradingCore.LiveSim

open Base LiveSimOrderStatus
open Orders (orText)

/-! ## The answer -/

/-- What `gateway_state.get_command` has of a command, as far as the audit reads it. The two
texts of its payload may be missing. -/
structure KnownCommand where
  commandType : String
  orderMode : Option String := none
  originalOrderId : Option String := none
  /-- the `runtime` of its metadata -/
  runtime : String := ""

structure AnswerPayload where
  commandId : String := ""
  commandType : String := ""
  status : String := ""
  orderMode : Option String := none
  originalOrderId : Option String := none
  /-- the key `order_result`, if it is a mapping -/
  orderResult : Option BrokerOrderResult := none

/-- The types of an answer. -/
inductive AnswerType
  | commandStarted
  | commandAck
  | commandFailed
deriving DecidableEq

/-- The event of an answer. `known` is what the command queue has of the command when the
audit asks. -/
structure CommandAnswer where
  type : AnswerType
  commandId : String := ""
  payload : AnswerPayload := {}
  known : Option KnownCommand := none

namespace CommandAnswer

variable (answer : CommandAnswer)

def answeredId : String := orText answer.payload.commandId answer.commandId

def auditStatus : String :=
  orText answer.payload.status (if answer.type = .commandStarted then "DISPATCHED" else "ACKED")

def auditType : String :=
  orText answer.payload.commandType ((answer.known.map (·.commandType)).getD "")

/-- `order_mode` of the merged payloads: that of the answer, if it has the key. -/
def orderMode : String :=
  (answer.payload.orderMode.or (answer.known.bind (·.orderMode))).getD ""

/-- `original_order_id` of the merged payloads. -/
def originalOrderId : String :=
  (answer.payload.originalOrderId.or (answer.known.bind (·.originalOrderId))).getD ""

def ofLiveSim : Bool :=
  answer.orderMode = "LIVE_SIM" ∨ (answer.known.map (·.runtime)).getD "" = "LIVE_SIM"

def verdict : Option LiveSimOrderStatus :=
  if answer.auditType ≠ "send_order" then none
  else if answer.auditStatus = "REJECTED" then some rejected
  else if answer.auditStatus = "FAILED" then some failed
  else none

/-- The result that an acknowledgement brings along. The type of the command counts only when
the payload itself names it. -/
def embeddedResult : Option BrokerOrderResult :=
  if answer.type = .commandAck ∧ answer.payload.commandType = "send_order" then
    answer.payload.orderResult
  else none

end CommandAnswer

/-! ## What it does -/

namespace Ledger

variable (l : Ledger)

/-- The order on which the audit records the answer. A `command_failed` is not recorded. -/
def auditedOrder (answer : CommandAnswer) : Option (String × LiveSimOrder) :=
  if answer.type = .commandFailed ∨ answer.answeredId = "" ∨ ¬ answer.ofLiveSim then none
  else if answer.auditType = "send_order" then l.findByCommandId answer.answeredId
  else if answer.auditType = "cancel_order" ∧ answer.originalOrderId ≠ "" then
    (l.orders.get? answer.originalOrderId).map fun order => (answer.originalOrderId, order)
  else none

/-- The writes of `_append_live_sim_command_audit_event`. -/
def auditWrites (answer : CommandAnswer) : List Write :=
  match l.auditedOrder answer, answer.verdict with
  | some (id, order), some status => [.order id { order with orderStatus := status }, .audit]
  | some _, none => [.audit]
  | none, _ => []

def audit (answer : CommandAnswer) : Ledger := (l.auditWrites answer).foldl commit l

/-- The ledger after the result that an answer brings along. -/
def saveEmbedded (answer : CommandAnswer) : Ledger :=
  match answer.embeddedResult with
  | some result => l.act (.orderResult result)
  | none => l

def answer (answer : CommandAnswer) : Ledger := (l.audit answer).saveEmbedded answer

end Ledger

/-! ## The ledger with answers -/

/-- What happens to the ledger: an answer to a command, or anything else. -/
inductive Message
  | answer (answer : CommandAnswer)
  | other (action : Action)

def Ledger.answered : Machine Ledger Message Unit where
  step l message :=
    match message with
    | .answer answer => (l.answer answer, ())
    | .other action => (l.act action, ())

end TradingCore.LiveSim
