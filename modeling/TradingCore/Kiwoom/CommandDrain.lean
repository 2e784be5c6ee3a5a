import TradingCore.Base.Machine
import TradingCore.Broker.Models
import Mathlib.Algebra.Order.Field.Rat

/-!
# The Gateway's local command queue

The network thread of `apps/kiwoom_gateway.py` puts the commands that it polls into a queue.
A Qt timer calls `_drain_real_commands`, which takes them out, asks the rate limiter of
`trading/broker/rate_limit.py`, and carries them out. While a command is carried out Qt may
process events, so that the timer starts another drain inside the running one.

A drain is modelled in the steps between which something else can come in. Times are exact, in
seconds. What Kiwoom answers and what the pilot policy says of a command is input.
-/

namespace TradingCore.Kiwoom

open Base Broker

/-! ## The rate limiter -/

def defaultIntervals : Dict String Rat :=
  Dict.ofList [("send_order", 35 / 100), ("cancel_order", 35 / 100), ("modify_order", 35 / 100),
    ("tr_request", 8 / 10), ("send_condition", 5 / 10), ("register_realtime", 5 / 10),
    ("remove_realtime", 5 / 10), ("remove_all_realtime", 5 / 10), ("stop_condition", 5 / 10),
    ("login", 1), ("load_conditions", 1), ("*", 2 / 10)]

/-- `RateLimiter`, without its counters. -/
structure RateLimiter where
  minIntervals : Dict String Rat := defaultIntervals
  lastAt : Dict String Rat := Dict.empty

namespace RateLimiter

variable (limiter : RateLimiter)

def interval (commandType : String) : Rat :=
  max 0 ((limiter.minIntervals.get? commandType).getD (limiter.minIntervals.getD "*" (2 / 10)))

def waitTime (commandType : String) (now : Rat) : Rat :=
  match limiter.lastAt.get? commandType with
  | none => 0
  | some lastAt => max 0 (lastAt + limiter.interval commandType - now)

def record (commandType : String) (now : Rat) : RateLimiter :=
  { limiter with lastAt := limiter.lastAt.set commandType now }

end RateLimiter

/-! ## The runtime -/

structure Execution where
  command : GatewayCommand
  startedAt : Rat

/-- The types of the event that ends a command. -/
inductive TerminalType
  | commandAck
  | commandFailed

structure TerminalEvent where
  command : GatewayCommand
  type : TerminalType

/-- Where the innermost drain is: nowhere in its loop (there is none, or it waits for the
command that it carries out), at the head of its loop, or with a command in hand that it is
about to put back. -/
inductive DrainPhase
  | outside
  | looping
  | holding (command : GatewayCommand)
deriving DecidableEq

/-- `GatewayRuntime`, as far as commands are concerned. `running` are the commands that are
being carried out, the innermost first. The rest is history: the commands that were polled,
the executions that have started, those that have ended in an exception before the limiter
recorded them, and the events that end commands. -/
structure GatewayRuntime where
  commands : List GatewayCommand := []
  rateLimiter : RateLimiter := {}
  now : Rat := 0
  phase : DrainPhase := .outside
  running : List Execution := []
  polled : List GatewayCommand := []
  started : List Execution := []
  unrecorded : List Execution := []
  ended : List TerminalEvent := []

/-- How a Kiwoom call ends: it returns a result of any kind, it raises an exception, or what
follows the recording does. -/
inductive CallOutcome
  | returned
  | raised
  | raisedAfterRecord

/-- A step of the Gateway. -/
inductive DrainStep
  /-- the network thread puts a polled command -/
  | poll (command : GatewayCommand)
  /-- the clock goes on to `time`, if that is later -/
  | clock (time : Rat)
  /-- the timer calls `_drain_real_commands` -/
  | timer
  /-- the drain takes a command; `rejection` is what the pilot policy says of it -/
  | take (rejection : String)
  /-- the drain puts a limited command back and returns -/
  | putBack
  /-- the innermost running command ends -/
  | finish (outcome : CallOutcome)

namespace GatewayRuntime

variable (s : GatewayRuntime)

def start (command : GatewayCommand) : GatewayRuntime :=
  let execution : Execution := { command, startedAt := s.now }
  { s with
    phase := .outside
    running := execution :: s.running
    started := s.started ++ [execution] }

def take (rejection : String) : GatewayRuntime :=
  match s.commands with
  | [] => { s with phase := .outside }
  | command :: rest =>
      let taken := { s with commands := rest }
      if 0 < s.rateLimiter.waitTime command.type s.now then
        { taken with phase := .holding command }
      else if rejection ≠ "" then
        { taken with ended := s.ended ++ [{ command, type := .commandAck }] }
      else taken.start command

/-- The innermost running command ends, and its drain goes on. -/
def finish (outcome : CallOutcome) : GatewayRuntime :=
  match s.running with
  | [] => s
  | execution :: outer =>
      let back := { s with running := outer, phase := .looping }
      let recorded := s.rateLimiter.record execution.command.type s.now
      let event := TerminalEvent.mk execution.command
      match outcome with
      | .returned =>
          { back with rateLimiter := recorded, ended := s.ended ++ [event .commandAck] }
      | .raised =>
          { back with
            unrecorded := s.unrecorded ++ [execution]
            ended := s.ended ++ [event .commandFailed] }
      | .raisedAfterRecord =>
          { back with rateLimiter := recorded, ended := s.ended ++ [event .commandFailed] }

/-- Carry out a step; one that does not fit the phase does nothing. -/
def act : DrainStep → GatewayRuntime
  | .poll command =>
      { s with commands := s.commands ++ [command], polled := s.polled ++ [command] }
  | .clock time => { s with now := max s.now time }
  | .timer => if s.phase = .outside then { s with phase := .looping } else s
  | .take rejection => if s.phase = .looping then s.take rejection else s
  | .putBack =>
      match s.phase with
      | .holding command => { s with commands := s.commands ++ [command], phase := .outside }
      | _ => s
  | .finish outcome => if s.phase = .outside then s.finish outcome else s

def machine : Machine GatewayRuntime DrainStep Unit where
  step s step := (s.act step, ())

end GatewayRuntime

end TradingCore.Kiwoom
