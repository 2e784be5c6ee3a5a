import TradingCore.Base.Value

/-!
# Broker models

The command envelope that Core hands to the Gateway, and the event envelope that
comes back (`trading/broker/models.py`).
-/

namespace TradingCore.Broker

open Base

/-- A point in time: UTC seconds. Every clock value of the command queue goes
through `_clean_time`, which drops the microseconds. -/
abbrev Time := Int

structure GatewayCommand where
  type : String
  payload : Mapping := Dict.empty
  commandId : String
  requestId : String := ""
  timestamp : String := ""
  source : String := "core"
  idempotencyKey : String := ""
deriving DecidableEq

structure GatewayEvent where
  type : String
  payload : Mapping := Dict.empty
  eventId : String
  requestId : String := ""
  timestamp : String := ""
  source : String := "kiwoom_gateway"
  commandId : String := ""
  idempotencyKey : String := ""
deriving DecidableEq

end TradingCore.Broker
