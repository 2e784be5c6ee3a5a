import TradingCore.Realtime.SubscriptionLifecycle
import Mathlib.Data.List.Sort
import Mathlib.Data.Prod.Lex
import Mathlib.Data.String.Basic

/-!
# The realtime subscription manager

`RealTimeSubscriptionManager` of `trading/strategy/realtime.py` with a lifecycle tracker attached,
the client that turns its requests into Gateway commands (`trading_app/runtime_adapters.py`), and
what the Gateway does with them (`kiwoom/client.py`). The maps of the manager are written partly
when a command is asked for and partly when its answer arrives.

Screens are known by their numbers, and the idempotency keys of commands by the parts of their
texts. Timestamps, generations of records and warnings are left out.
-/

namespace TradingCore.Realtime

open Base Candidates Text

/-! ## Records -/

/-- `SOURCE_PRIORITIES.get(source, 0)`. -/
def sourcePriorityOf : String → Int
  | "reboot_v2_index" => 110
  | "reboot_v2_position" => 105
  | "reboot_v2_theme_expansion" => 82
  | "reboot_v2_opening_seed" => 70
  | "reboot_v2_candidate" => 65
  | "reboot_v2_theme_board" => 60
  | "index" => 100
  | "leading_stock" => 90
  | "semiconductor_signal" => 90
  | "virtual_position" => 85
  | "virtual_order" => 84
  | "holding" => 80
  | "candidate_watch" => 50
  | "theme_board_watch" => 56
  | "theme_lab_watchset" => 55
  | "theme_lab_bootstrap" => 54
  | "theme_lab_outcome_tracking" => 53
  | "theme_universe" => 45
  | _ => 0

def protectedSources : List String :=
  ["reboot_v2_index", "reboot_v2_position", "index", "leading_stock", "semiconductor_signal",
   "virtual_order", "virtual_position", "holding"]

/-- `FALLBACK_SOURCE_ORDER.get(source, 99)`. -/
def fallbackSourceOrder : String → Int
  | "reboot_v2_index" => 0
  | "reboot_v2_position" => 1
  | "reboot_v2_theme_expansion" => 2
  | "reboot_v2_opening_seed" => 3
  | "reboot_v2_candidate" => 4
  | "reboot_v2_theme_board" => 5
  | "index" => 0
  | "leading_stock" => 1
  | "semiconductor_signal" => 1
  | "holding" => 2
  | "virtual_position" => 3
  | "virtual_order" => 4
  | "theme_board_watch" => 5
  | "candidate_watch" => 5
  | "theme_lab_watchset" => 5
  | "theme_lab_bootstrap" => 5
  | "theme_lab_outcome_tracking" => 5
  | _ => 99

/-- `SubscriptionRecord`: a code, the sources that want it, and what they make of it. -/
structure SubscriptionRecord where
  code : String
  sources : List String := []
  sourcePriorities : Dict String Int := .empty
  sourceProtected : Dict String Bool := .empty
  priority : Int := 0
  isProtected : Bool := false

namespace SubscriptionRecord

def refresh (record : SubscriptionRecord) : SubscriptionRecord :=
  { record with
    priority := match record.sourcePriorities.values with
      | [] => 0
      | first :: rest => rest.foldl max first
    isProtected := record.sourceProtected.values.any id }

def addSource (record : SubscriptionRecord) (source : String) (priority : Int)
    (isProtected : Bool) : SubscriptionRecord :=
  refresh { record with
    sources := if source ∈ record.sources then record.sources else record.sources ++ [source]
    sourcePriorities := record.sourcePriorities.set source priority
    sourceProtected := record.sourceProtected.set source isProtected }

def removeSource (record : SubscriptionRecord) (source : String) : SubscriptionRecord :=
  refresh { record with
    sources := record.sources.filter (· ≠ source)
    sourcePriorities := record.sourcePriorities.filter fun other _ => other ≠ source
    sourceProtected := record.sourceProtected.filter fun other _ => other ≠ source }

@[simp] theorem addSource_code (record : SubscriptionRecord) (source : String) (priority : Int)
    (isProtected : Bool) : (record.addSource source priority isProtected).code = record.code := rfl

@[simp] theorem removeSource_code (record : SubscriptionRecord) (source : String) :
    (record.removeSource source).code = record.code := rfl

def recordSortKey (record : SubscriptionRecord) : Int ×ₗ Int ×ₗ String :=
  toLex (if record.isProtected then 1 else 0, toLex (record.priority, record.code))

def registrationSortKey (record : SubscriptionRecord) : Int ×ₗ Int ×ₗ Int ×ₗ String :=
  let sourceOrder := match record.sources.map fallbackSourceOrder with
    | [] => 99
    | first :: rest => rest.foldl min first
  toLex (sourceOrder, toLex (if record.isProtected then 0 else 1,
    toLex (-record.priority, record.code)))

end SubscriptionRecord

/-! ## Commands -/

/-- The types of realtime commands. -/
inductive RealtimeCommandType
  | registerRealtime
  | removeRealtime
  | removeAllRealtime
deriving DecidableEq

structure RealtimeCommand where
  commandType : RealtimeCommandType
  codes : List String := []
  screenNo : Option Nat := none
  subscriptionGeneration : Nat
  reason : String := ""
deriving DecidableEq

/-- The parts of the idempotency key. A removal has the same key in every generation. -/
def RealtimeCommand.key (command : RealtimeCommand) : RealtimeCommand :=
  match command.commandType with
  | .removeRealtime => { command with subscriptionGeneration := 0 }
  | _ => command

/-- A command that was taken by the queue and not answered by the Gateway: whether the Gateway has
run it, and if so, with success, and whether the command has ended without the Gateway's answer. -/
structure IssuedCommand where
  command : RealtimeCommand
  outcome : Option Bool := none
  ended : Bool := false

/-- An answer to a command. A failure that may be tried again leaves the command outstanding. -/
inductive CommandAnswer
  | acked
  | failed (triedAgain : Bool)
  | timedOut
  | expired

/-- The commands that the Gateway has not answered, by their ids. -/
structure RealtimeCommandQueue where
  issued : Dict Nat IssuedCommand := .empty
  nextId : Nat := 0

/-- The commands after an answer to one of them. What timed out or expired may still be run, and
answered, by the Gateway. -/
def RealtimeCommandQueue.afterAnswer (queue : RealtimeCommandQueue) (id : Nat)
    (issued : IssuedCommand) (answer : CommandAnswer) : RealtimeCommandQueue :=
  { queue with
    issued := match answer with
      | .acked | .failed false => queue.issued.filter fun other _ => other ≠ id
      | .failed true => queue.issued.set id { issued with outcome := none }
      | .timedOut | .expired => queue.issued.set id { issued with ended := true } }

/-- What the queue makes of a command: it takes it, or rejects it because a command with its key
is active, or because one that finished is still retained. -/
inductive Admission
  | accept
  | duplicateActive
  | duplicateFinished
deriving DecidableEq

/-- The receipt of a command that is or will be answered. -/
def RealtimeCommandReceipt.pendingTrackable (receipt : RealtimeCommandReceipt) : Bool :=
  receipt.accepted ∨ (receipt.duplicateOf ≠ "" ∧ upper receipt.status ∈ ["QUEUED", "DISPATCHED"])

/-- `_enqueue`: a command is a duplicate of an active one only if there is one. Whether that one
was handed out makes no difference to the manager, nor how one that finished ended. -/
def RealtimeCommandQueue.enqueue (queue : RealtimeCommandQueue) (admission : Admission)
    (command : RealtimeCommand) : RealtimeCommandQueue × RealtimeCommandReceipt :=
  match admission with
  | .accept =>
      ({ issued := queue.issued.set queue.nextId { command }, nextId := queue.nextId + 1 },
        { accepted := true, status := "QUEUED" })
  | .duplicateActive =>
      match queue.issued.entries.find? fun entry =>
          !entry.2.ended && entry.2.command.key = command.key with
      | some existing =>
          (queue, { accepted := false, duplicateOf := toString existing.1, status := "QUEUED" })
      | none => (queue, { accepted := false, status := "REJECTED" })
  | .duplicateFinished =>
      (queue, { accepted := false, duplicateOf := toString queue.nextId, status := "ACKED" })

def cleanCodes (codes : List String) : List String :=
  distinct (fun code => upper (strip code)) codes

/-- The command of `register_realtime_records`. -/
def registerCommand (generation screen : Nat) (codes : List String) : RealtimeCommand where
  commandType := .registerRealtime
  codes := cleanCodes codes
  screenNo := some screen
  subscriptionGeneration := generation

/-- The command of `remove_realtime`. -/
def removeCommand (generation screen : Nat) (codes : List String) : RealtimeCommand where
  commandType := .removeRealtime
  codes := cleanCodes codes
  screenNo := some screen
  subscriptionGeneration := generation

def cleanIdempotencyPart (value : String) : String :=
  let kept := (lower (strip value)).toList.map fun char =>
    if char.isAlphanum ∨ char ∈ ['-', '_', '.', ':'] then char else '_'
  let trimmed := ((kept.dropWhile (· = '_')).reverse.dropWhile (· = '_')).reverse
  .ofList (trimmed.take 120)

/-- The command of `remove_all_realtime`. -/
def removeAllCommand (generation : Nat) (reason : String) : RealtimeCommand where
  commandType := .removeAllRealtime
  subscriptionGeneration := generation
  reason :=
    let cleanReason := cleanIdempotencyPart reason
    if cleanReason = "" then "unspecified" else cleanReason

/-! ## The manager -/

structure RealtimeSettings where
  maxCodes : Int := 100
  screenBase : Nat := 7000
  screenSize : Nat := 100

/-- `RealTimeSubscriptionManager`, with the generation that its client counts. -/
structure RealTimeSubscriptionManager where
  records : Dict String SubscriptionRecord := .empty
  codeToScreen : Dict String Nat := .empty
  screenToCodes : Dict Nat (List String) := .empty
  targetScreenByCode : Dict String Nat := .empty
  pendingRegisterByCode : Dict String Nat := .empty
  ackedScreenByCode : Dict String Nat := .empty
  pendingReleaseByCode : Dict String Nat := .empty
  subscriptionGeneration : Nat := 0

def withCode (codes : List String) (code : String) : List String :=
  if code ∈ codes then codes else codes ++ [code]

def addToScreen (screens : Dict Nat (List String)) (screen : Nat) (code : String) :
    Dict Nat (List String) :=
  screens.upsert screen fun codes => withCode (codes.getD []) code

/-- The codes of the screens without one; a screen without codes is dropped. -/
def dropFromScreen (screens : Dict Nat (List String)) (screen : Nat) (code : String) :
    Dict Nat (List String) :=
  match screens.get? screen with
  | none => screens
  | some codes =>
      let rest := codes.filter (· ≠ code)
      if rest = [] then screens.filter fun other _ => other ≠ screen else screens.set screen rest

def pop {υ : Type} (map : Dict String υ) (code : String) : Dict String υ :=
  map.filter fun other _ => other ≠ code

@[simp] theorem get?_pop {υ : Type} (map : Dict String υ) (code other : String) :
    (pop map code).get? other = if other = code then none else map.get? other := by
  unfold pop
  rw [Dict.get?_filter]
  by_cases h : other = code
  · cases map.get? other <;> simp [h]
  · cases map.get? other <;> simp [h]

/-- `_screen_for_new_code`: the first screen with room. The search goes past as many screens as
there are, one of the numbers after which has no codes yet. -/
def screenForNewCode (settings : RealtimeSettings) (screens : Dict Nat (List String)) : Nat :=
  let candidates := (List.range (screens.entries.length + 1)).map (settings.screenBase + ·)
  (candidates.find? fun screen => ((screens.getD screen []).length < settings.screenSize)).getD
    (settings.screenBase + screens.entries.length)

namespace RealTimeSubscriptionManager

def ensureSubscription (manager : RealTimeSubscriptionManager) (code source : String)
    (priority : Option Int) (isProtected : Option Bool) : RealTimeSubscriptionManager :=
  let cleanCode := normalizeCode code
  let record := (manager.records.get? cleanCode).getD { code := cleanCode }
  { manager with
    records := manager.records.set cleanCode
      (record.addSource source (priority.getD (sourcePriorityOf source))
        (isProtected.getD (source ∈ protectedSources))) }

def removeSubscription (manager : RealTimeSubscriptionManager) (code source : String) :
    RealTimeSubscriptionManager :=
  let cleanCode := normalizeCode code
  match manager.records.get? cleanCode with
  | none => manager
  | some record =>
      let rest := record.removeSource source
      { manager with
        records := if rest.sources = [] then pop manager.records cleanCode
          else manager.records.set cleanCode rest }

def targetRecords (manager : RealTimeSubscriptionManager) (settings : RealtimeSettings) :
    List SubscriptionRecord :=
  let sorted := List.insertionSort fun a b : SubscriptionRecord =>
    b.recordSortKey ≤ a.recordSortKey
  let protectedRecords := sorted (manager.records.values.filter (·.isProtected))
  let regularRecords := sorted (manager.records.values.filter fun record => !record.isProtected)
  if (protectedRecords.length : Int) > settings.maxCodes then protectedRecords
  else
    let remaining := max 0 (settings.maxCodes - protectedRecords.length)
    protectedRecords ++ regularRecords.take remaining.toNat

def targetCodes (manager : RealTimeSubscriptionManager) (settings : RealtimeSettings) :
    List String :=
  (manager.targetRecords settings).map (·.code)

def unselected (manager : RealTimeSubscriptionManager) (settings : RealtimeSettings) :
    List String :=
  manager.codeToScreen.keys.filter (· ∉ manager.targetCodes settings)

/-- The records that a sync registers, among the selected ones. -/
def unregistered (manager : RealTimeSubscriptionManager) (records : List SubscriptionRecord) :
    List SubscriptionRecord :=
  records.filter fun record => manager.codeToScreen.get? record.code = none ∧
    manager.pendingRegisterByCode.get? record.code = none

end RealTimeSubscriptionManager

/-! ## Requests -/

/-- The manager while it asks its client for commands: the queue, and the commands handed to it. -/
structure Exchange where
  manager : RealTimeSubscriptionManager
  queue : RealtimeCommandQueue
  issued : List RealtimeCommand := []

namespace Exchange

def request (judge : RealtimeCommand → Admission) (x : Exchange) (command : RealtimeCommand) :
    Exchange × RealtimeCommandReceipt :=
  let (queue, receipt) := x.queue.enqueue (judge command) command
  ({ x with queue, issued := x.issued ++ [command] }, receipt)

/-- The screens that `_register_records` finds for codes, one after the other, and the batch of
records of each. -/
def assignScreen (settings : RealtimeSettings)
    (assigned : Dict Nat (List String) × Dict Nat (List SubscriptionRecord))
    (record : SubscriptionRecord) :
    Dict Nat (List String) × Dict Nat (List SubscriptionRecord) :=
  let screen := screenForNewCode settings assigned.1
  (addToScreen assigned.1 screen record.code,
    assigned.2.upsert screen fun records => records.getD [] ++ [record])

/-- The batches of `_register_records`. -/
def batchesOf (settings : RealtimeSettings) (manager : RealTimeSubscriptionManager)
    (records : List SubscriptionRecord) : Dict Nat (List SubscriptionRecord) :=
  let screens := manager.pendingRegisterByCode.entries.foldl
    (fun screens entry => addToScreen screens entry.2 entry.1) manager.screenToCodes
  let sorted := records.insertionSort fun a b : SubscriptionRecord =>
    a.registrationSortKey ≤ b.registrationSortKey
  (sorted.foldl (assignScreen settings) (screens, .empty)).2

/-- One batch of `_register_records`: the records of a screen are asked for in one command. A
request without codes is none. -/
def registerBatch (judge : RealtimeCommand → Admission) (x : Exchange)
    (batch : Nat × List SubscriptionRecord) : Exchange :=
  let codes := batch.2.map (·.code)
  let (x', trackable) :=
    if cleanCodes codes = [] then (x, false)
    else
      let (x', receipt) := x.request judge
        (registerCommand x.manager.subscriptionGeneration batch.1 codes)
      (x', receipt.pendingTrackable)
  { x' with
    manager := { x'.manager with
      targetScreenByCode := x'.manager.targetScreenByCode.upsertAll codes fun _ _ => batch.1
      pendingRegisterByCode :=
        if trackable then x'.manager.pendingRegisterByCode.upsertAll codes fun _ _ => batch.1
        else x'.manager.pendingRegisterByCode } }

def registerRecords (settings : RealtimeSettings) (judge : RealtimeCommand → Admission)
    (x : Exchange) (records : List SubscriptionRecord) : Exchange :=
  (batchesOf settings x.manager records).entries.foldl (registerBatch judge) x

def removeAllClientRealtime (judge : RealtimeCommand → Admission) (x : Exchange)
    (reason : String) : Exchange :=
  (x.request judge (removeAllCommand x.manager.subscriptionGeneration reason)).1

/-- One code of `_remove_codes`: it leaves the map of codes as it is asked to be removed. -/
def removeCode (judge : RealtimeCommand → Admission) (x : Exchange) (code : String) : Exchange :=
  match x.manager.codeToScreen.get? code with
  | none => x
  | some screen =>
      let x' := if cleanCodes [code] = [] then x
        else (x.request judge (removeCommand x.manager.subscriptionGeneration screen [code])).1
      { x' with
        manager := { x'.manager with
          codeToScreen := pop x'.manager.codeToScreen code
          pendingReleaseByCode := x'.manager.pendingReleaseByCode.set code screen
          screenToCodes := dropFromScreen x'.manager.screenToCodes screen code } }

/-- `_remove_codes`. A code that is on no screen is removed by removing all. -/
def removeCodes (settings : RealtimeSettings) (judge : RealtimeCommand → Admission)
    (x : Exchange) (codes : List String) : Exchange :=
  let codes := codes.filter (· ≠ "")
  if codes = [] then x
  else if ∃ code ∈ codes, x.manager.codeToScreen.get? code = none then
    let x := x.removeAllClientRealtime judge "REALTIME_REMOVE_ALL_FALLBACK"
    let x := { x with
      manager := { x.manager with codeToScreen := .empty, screenToCodes := .empty } }
    x.registerRecords settings judge (x.manager.targetRecords settings)
  else codes.foldl (removeCode judge) x

def sync (settings : RealtimeSettings) (judge : RealtimeCommand → Admission) (x : Exchange) :
    Exchange :=
  let targets := x.manager.targetRecords settings
  let x' := x.removeCodes settings judge (x.manager.unselected settings)
  x'.registerRecords settings judge (x'.manager.unregistered targets)

def markAllStale (judge : RealtimeCommand → Admission) (x : Exchange) (reason : String) :
    Exchange :=
  let x :=
    if x.manager.codeToScreen.entries ≠ [] ∨ x.manager.screenToCodes.entries ≠ [] then
      removeAllClientRealtime judge
        { x with manager := { x.manager with
            subscriptionGeneration := x.manager.subscriptionGeneration + 1 } }
        reason
    else x
  { x with
    manager :=
      { records := x.manager.records
        subscriptionGeneration := x.manager.subscriptionGeneration } }

end Exchange

/-! ## Answers -/

namespace RealTimeSubscriptionManager

def acknowledgeCode (settings : RealtimeSettings) (screenNo : Option Nat)
    (manager : RealTimeSubscriptionManager) (code : String) : RealTimeSubscriptionManager :=
  let resolved := (screenNo
      <|> manager.pendingRegisterByCode.get? code
      <|> manager.targetScreenByCode.get? code
      <|> manager.codeToScreen.get? code).getD
    (screenForNewCode settings manager.screenToCodes)
  { manager with
    pendingRegisterByCode := pop manager.pendingRegisterByCode code
    codeToScreen := manager.codeToScreen.set code resolved
    ackedScreenByCode := manager.ackedScreenByCode.set code resolved
    screenToCodes := addToScreen manager.screenToCodes resolved code }

def forgetCode (manager : RealTimeSubscriptionManager) (code : String) :
    RealTimeSubscriptionManager :=
  { manager with
    codeToScreen := pop manager.codeToScreen code
    pendingReleaseByCode := pop manager.pendingReleaseByCode code
    pendingRegisterByCode := pop manager.pendingRegisterByCode code
    screenToCodes := match manager.codeToScreen.get? code with
      | none => manager.screenToCodes
      | some screen => dropFromScreen manager.screenToCodes screen code }

/-- `_apply_realtime_command_ack`. -/
def applyCommandAck (settings : RealtimeSettings) (manager : RealTimeSubscriptionManager)
    (command : RealtimeCommand) : RealTimeSubscriptionManager :=
  let codes := normalizeCodes command.codes
  match command.commandType with
  | .registerRealtime => codes.foldl (acknowledgeCode settings command.screenNo) manager
  | .removeRealtime => codes.foldl forgetCode manager
  | .removeAllRealtime => manager.codeToScreen.keys.foldl forgetCode manager

/-- `_apply_realtime_command_failed`. -/
def applyCommandFailed (manager : RealTimeSubscriptionManager) (command : RealtimeCommand) :
    RealTimeSubscriptionManager :=
  let codes := normalizeCodes command.codes
  match command.commandType with
  | .registerRealtime =>
      { manager with
        pendingRegisterByCode := codes.foldl pop manager.pendingRegisterByCode }
  | .removeRealtime =>
      { manager with pendingReleaseByCode := codes.foldl pop manager.pendingReleaseByCode }
  | .removeAllRealtime =>
      { manager with
        pendingReleaseByCode :=
          (manager.pendingRegisterByCode.keys ++ manager.codeToScreen.keys).foldl pop
            manager.pendingReleaseByCode }

end RealTimeSubscriptionManager

/-- `handle_realtime_command_event`, for the answer to a command. -/
def RealTimeSubscriptionManager.handleCommandAnswer (settings : RealtimeSettings)
    (manager : RealTimeSubscriptionManager) (command : RealtimeCommand) :
    CommandAnswer → RealTimeSubscriptionManager
  | .acked => manager.applyCommandAck settings command
  | .failed _ => manager.applyCommandFailed command
  | .timedOut => manager.applyCommandFailed command
  | .expired => manager.applyCommandFailed command

/-! ## The Gateway -/

local instance lawfulEntries : LawfulBEq (Nat × String) := inferInstance

/-- What a command does to the codes registered at the Gateway, screen by screen. -/
def RealtimeCommand.execute (command : RealtimeCommand) (registered : List (Nat × String)) :
    List (Nat × String) :=
  match command.commandType, command.screenNo with
  | .registerRealtime, some screen =>
      registered ++ ((command.codes.filter (· ≠ "")).map (screen, ·)).filter (· ∉ registered)
  | .removeRealtime, some screen =>
      registered.filter fun entry => ¬ (entry.1 = screen ∧ entry.2 ∈ command.codes)
  | .removeRealtime, none => registered.filter fun entry => entry.2 ∉ command.codes
  | .removeAllRealtime, _ => []
  | .registerRealtime, none => registered

/-! ## The system -/

/-- The manager, the commands without an answer and the codes registered at the Gateway. -/
structure RealtimeWorld where
  manager : RealTimeSubscriptionManager := {}
  queue : RealtimeCommandQueue := {}
  registered : List (Nat × String) := []

/-- A call of the manager, the Gateway running a command, an answer arriving, or the queue giving
up on a command (its time in the queue is over, or it was handed out too long ago). What the queue
makes of the commands of a call is part of it. -/
inductive RealtimeEvent
  | ensureSubscription (code source : String) (priority : Option Int) (isProtected : Option Bool)
  | removeSubscription (code source : String)
  | sync (judge : RealtimeCommand → Admission)
  | markAllStale (reason : String) (judge : RealtimeCommand → Admission)
  | execute (id : Nat) (succeeds : Bool)
  | answer (id : Nat) (answer : CommandAnswer)
  | lapse (id : Nat)

/-- An answer says what the Gateway did: success only after it ran the command with success, and
failure only after it ran it without. A command may time out or expire at any time. -/
def IssuedCommand.fits (issued : IssuedCommand) : CommandAnswer → Bool
  | .acked => issued.outcome = some true
  | .failed _ => issued.outcome = some false
  | .timedOut | .expired => !issued.ended

namespace RealtimeWorld

def afterExchange (w : RealtimeWorld) (x : Exchange) : RealtimeWorld :=
  { w with manager := x.manager, queue := x.queue }

def exchange (w : RealtimeWorld) : Exchange := { manager := w.manager, queue := w.queue }

/-- One event, and the commands that are handed to the queue in it. -/
def step (settings : RealtimeSettings) (w : RealtimeWorld) :
    RealtimeEvent → RealtimeWorld × List RealtimeCommand
  | .ensureSubscription code source priority isProtected =>
      ({ w with manager := w.manager.ensureSubscription code source priority isProtected }, [])
  | .removeSubscription code source =>
      ({ w with manager := w.manager.removeSubscription code source }, [])
  | .sync judge =>
      let x := w.exchange.sync settings judge
      (w.afterExchange x, x.issued)
  | .markAllStale reason judge =>
      let x := w.exchange.markAllStale judge reason
      (w.afterExchange x, x.issued)
  | .execute id succeeds =>
      match w.queue.issued.get? id with
      | some issued =>
          if issued.outcome = none then
            ({ w with
               queue := { w.queue with
                 issued := w.queue.issued.set id { issued with outcome := some succeeds } }
               registered := if succeeds then issued.command.execute w.registered
                 else w.registered }, [])
          else (w, [])
      | none => (w, [])
  | .answer id answer =>
      match w.queue.issued.get? id with
      | some issued =>
          if issued.fits answer then
            ({ w with
               manager := w.manager.handleCommandAnswer settings issued.command answer
               queue := w.queue.afterAnswer id issued answer }, [])
          else (w, [])
      | none => (w, [])
  | .lapse id =>
      match w.queue.issued.get? id with
      | some issued =>
          ({ w with
             queue := { w.queue with
               issued := w.queue.issued.set id { issued with ended := true } } }, [])
      | none => (w, [])

def machine (settings : RealtimeSettings) :
    Machine RealtimeWorld RealtimeEvent (List RealtimeCommand) := ⟨step settings⟩

end RealtimeWorld

end TradingCore.Realtime
