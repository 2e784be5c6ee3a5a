import TradingCore.Base.Dict
import TradingCore.Base.Machine
import TradingCore.Candidates.Codes

/-!
# The lifecycle of a realtime subscription

The tracker keeps one snapshot for each code: a state and the flags of what has been seen. Its
handlers go over the codes of their event; each of them reads the last snapshot of a code and
replaces it.

Times are texts. How a text is brought into its normal form and how it is read as a time are
parameters; a moment carries its own text and time.
-/

namespace TradingCore.Realtime

open Base Candidates

/-! ## Snapshots -/

inductive RealtimeSubscriptionLifecycleState where
  | notRequested
  | requested
  | targetSelected
  | budgetDeferred
  | commandEnqueued
  | commandDispatched
  | ackedWaitFirstTick
  | activeFresh
  | activeStale
  | releasePending
  | released
  | failed
deriving DecidableEq

namespace RealtimeSubscriptionLifecycleState

/-- `TARGET_SELECTION_PRESERVE_STATES`. -/
def preserved : RealtimeSubscriptionLifecycleState → Bool
  | .commandEnqueued | .commandDispatched | .ackedWaitFirstTick | .activeFresh | .activeStale =>
      true
  | .notRequested | .requested | .targetSelected | .budgetDeferred | .releasePending
  | .released | .failed => false

def targets (state : RealtimeSubscriptionLifecycleState) : Bool :=
  state = .targetSelected || state.preserved

def active (state : RealtimeSubscriptionLifecycleState) : Bool :=
  state = .activeFresh || state = .activeStale

def ofFresh (fresh : Bool) : RealtimeSubscriptionLifecycleState :=
  if fresh then .activeFresh else .activeStale

@[simp] theorem ofFresh_eq_activeFresh {fresh : Bool} :
    ofFresh fresh = .activeFresh ↔ fresh = true := by
  cases fresh <;> simp [ofFresh]

@[simp] theorem ofFresh_ne_notRequested (fresh : Bool) : ofFresh fresh ≠ .notRequested := by
  cases fresh <;> simp [ofFresh]

@[simp] theorem ofFresh_ne_ackedWaitFirstTick (fresh : Bool) :
    ofFresh fresh ≠ .ackedWaitFirstTick := by
  cases fresh <;> simp [ofFresh]

end RealtimeSubscriptionLifecycleState

structure RealtimeSubscriptionLifecycleSnapshot where
  lifecycleState : RealtimeSubscriptionLifecycleState := .notRequested
  requested : Bool := false
  targetSelected : Bool := false
  budgetDeferred : Bool := false
  commandEnqueued : Bool := false
  commandDispatched : Bool := false
  acked : Bool := false
  transportActive : Bool := false
  firstTickVerified : Bool := false
  decisionFresh : Bool := false
  stale : Bool := false
  released : Bool := false
  failed : Bool := false
  registrationAckBaselineAtUtc : String := ""
  firstTickAtUtc : String := ""
  lastTickAtUtc : String := ""

namespace RealtimeSubscriptionLifecycleSnapshot

/-- `_transition`: the flags that follow from the new state. -/
def transition (payload : RealtimeSubscriptionLifecycleSnapshot)
    (state : RealtimeSubscriptionLifecycleState) : RealtimeSubscriptionLifecycleSnapshot :=
  { payload with
    lifecycleState := state
    requested := payload.requested || state ≠ .notRequested
    targetSelected :=
      if state = .budgetDeferred then false else payload.targetSelected || state.targets
    budgetDeferred :=
      if state = .budgetDeferred then true
      else if state.targets then false
      else payload.budgetDeferred }

section

variable (payload : RealtimeSubscriptionLifecycleSnapshot)
variable (state : RealtimeSubscriptionLifecycleState)

@[simp] theorem transition_lifecycleState : (payload.transition state).lifecycleState = state := rfl

@[simp] theorem transition_commandEnqueued :
    (payload.transition state).commandEnqueued = payload.commandEnqueued := rfl

@[simp] theorem transition_commandDispatched :
    (payload.transition state).commandDispatched = payload.commandDispatched := rfl

@[simp] theorem transition_acked : (payload.transition state).acked = payload.acked := rfl

@[simp] theorem transition_transportActive :
    (payload.transition state).transportActive = payload.transportActive := rfl

@[simp] theorem transition_firstTickVerified :
    (payload.transition state).firstTickVerified = payload.firstTickVerified := rfl

@[simp] theorem transition_decisionFresh :
    (payload.transition state).decisionFresh = payload.decisionFresh := rfl

@[simp] theorem transition_released : (payload.transition state).released = payload.released := rfl

@[simp] theorem transition_failed : (payload.transition state).failed = payload.failed := rfl

@[simp] theorem transition_registrationAckBaselineAtUtc :
    (payload.transition state).registrationAckBaselineAtUtc =
      payload.registrationAckBaselineAtUtc := rfl

@[simp] theorem transition_lastTickAtUtc :
    (payload.transition state).lastTickAtUtc = payload.lastTickAtUtc := rfl

end

end RealtimeSubscriptionLifecycleSnapshot

open RealtimeSubscriptionLifecycleSnapshot

/-! ## Events -/

/-- A moment: its UTC text, and the time that the text stands for in milliseconds. -/
structure Moment where
  text : String
  time : Int

structure TickEvidence where
  tickAt : String
  source : String

/-- `RealtimeCommandReceipt`, with what the tracker and the manager read of it. -/
structure RealtimeCommandReceipt where
  accepted : Bool
  commandId : String := ""
  duplicateOf : String := ""
  status : String := ""
  codes : List String := []

structure CommandPayload where
  commandType : String
  commandId : String := ""
  codes : List String := []
  status : String := ""
  gatewayKiwoomCallFinishedAtUtc : String := ""
  gatewayCommandAckCreatedAtUtc : String := ""

structure TickPayload where
  code : String
  gatewayReceivedAtUtc : String := ""
  coreEventReceivedAtUtc : String := ""
  timestamp : String := ""
  latestTickAt : String := ""
  source : String := ""

/-- The tracker: snapshots, the last tick of each code, and the codes of each command. -/
structure RealtimeSubscriptionLifecycleTracker where
  snapshots : Dict String RealtimeSubscriptionLifecycleSnapshot
  latestTickEvidence : Dict String TickEvidence
  commandCodes : Dict String (List String)

def emptyTracker : RealtimeSubscriptionLifecycleTracker := ⟨.empty, .empty, .empty⟩

/-! ## What an event makes of one snapshot -/

section

variable (readTime : String → Option Int) (utcText : String → String) (maxTickAgeMs : Int)

def parseTime (text : String) : Option Int :=
  if Text.strip text = "" then none else readTime text

/-- `_first_text`: the first of the texts that is not blank, in its normal form. -/
def firstText (values : List String) : String :=
  ((values.find? (· ≠ "")).map utcText).getD ""

def tickTime (payload : TickPayload) (fallback : String) : String :=
  let text := firstText utcText [payload.gatewayReceivedAtUtc, payload.coreEventReceivedAtUtc,
    payload.timestamp, payload.latestTickAt]
  if text = "" then fallback else text

def tickEvidence (payload : TickPayload) (now : Moment) : TickEvidence where
  tickAt := tickTime utcText payload now.text
  source := Text.upper (if payload.source = "" then "REALTIME" else payload.source)

/-- The text lies before the baseline, as far as both can be read. -/
def beforeBaseline (baseline tickAt : String) : Bool :=
  match parseTime readTime baseline, parseTime readTime tickAt with
  | some b, some t => t < b
  | _, _ => false

def youngAt (now : Moment) (tickAt : Int) : Bool := max 0 (now.time - tickAt) ≤ maxTickAgeMs

/-- `_target_selection_preserved_state`, on the last snapshot. -/
def targetSelectionPreservedState (previous : RealtimeSubscriptionLifecycleSnapshot) :
    RealtimeSubscriptionLifecycleState :=
  if previous.lifecycleState.preserved then previous.lifecycleState
  else if previous.transportActive && previous.firstTickVerified then
    .ofFresh previous.decisionFresh
  else if previous.acked || previous.transportActive then .ackedWaitFirstTick
  else if previous.commandDispatched then .commandDispatched
  else if previous.commandEnqueued then .commandEnqueued
  else .targetSelected

def lastTick (snapshot : RealtimeSubscriptionLifecycleSnapshot) : String :=
  if snapshot.lastTickAtUtc = "" then snapshot.firstTickAtUtc else snapshot.lastTickAtUtc

/-- `on_target_selected` for one record. An active state with a tick from before the baseline
falls back to waiting. -/
def selectTarget (previous : RealtimeSubscriptionLifecycleSnapshot) :
    RealtimeSubscriptionLifecycleSnapshot :=
  let state := targetSelectionPreservedState previous
  let updated : RealtimeSubscriptionLifecycleSnapshot :=
    { previous with
      requested := true
      targetSelected := true
      budgetDeferred := false
      released := false
      failed := false }
  if state.active ∧ beforeBaseline readTime previous.registrationAckBaselineAtUtc
      (lastTick previous) then
    transition
      { updated with
        firstTickVerified := false
        decisionFresh := false
        stale := false
        firstTickAtUtc := ""
        lastTickAtUtc := "" }
      .ackedWaitFirstTick
  else updated.transition state

/-- `on_requested`. -/
def request (previous : RealtimeSubscriptionLifecycleSnapshot) :
    RealtimeSubscriptionLifecycleSnapshot :=
  transition { previous with requested := true } .requested

/-- `on_budget_deferred` for one record. -/
def deferBudget (previous : RealtimeSubscriptionLifecycleSnapshot) :
    RealtimeSubscriptionLifecycleSnapshot :=
  transition
    { previous with
      requested := true
      targetSelected := false
      budgetDeferred := true
      commandEnqueued := false
      commandDispatched := false
      acked := false
      transportActive := false
      firstTickVerified := false
      decisionFresh := false
      stale := false
      released := false
      failed := false
      registrationAckBaselineAtUtc := ""
      firstTickAtUtc := ""
      lastTickAtUtc := "" }
    .budgetDeferred

/-- The subscription is active and verified: a further register command leaves it so. -/
def preserveActive (previous : RealtimeSubscriptionLifecycleSnapshot) : Bool :=
  !previous.released && !previous.failed && previous.transportActive &&
    previous.firstTickVerified && previous.lifecycleState.active

/-- `on_command_enqueued` for one code. -/
def enqueue (dispatched : Bool) (previous : RealtimeSubscriptionLifecycleSnapshot) :
    RealtimeSubscriptionLifecycleSnapshot :=
  let keep := preserveActive previous
  transition
    { previous with
      requested := true
      targetSelected := true
      budgetDeferred := false
      commandEnqueued := true
      commandDispatched := dispatched || (keep && previous.commandDispatched)
      acked := keep && previous.acked
      transportActive := keep && previous.transportActive
      firstTickVerified := keep && previous.firstTickVerified
      decisionFresh := keep && previous.decisionFresh
      stale := keep && previous.stale
      released := false
      failed := false
      firstTickAtUtc := if keep then previous.firstTickAtUtc else ""
      lastTickAtUtc := if keep then previous.lastTickAtUtc else ""
      registrationAckBaselineAtUtc :=
        if keep then previous.registrationAckBaselineAtUtc else "" }
    (if keep then previous.lifecycleState
      else if dispatched then .commandDispatched
      else .commandEnqueued)

/-- `on_command_started` for one code. -/
def start (previous : RealtimeSubscriptionLifecycleSnapshot) :
    RealtimeSubscriptionLifecycleSnapshot :=
  transition { previous with commandDispatched := true } .commandDispatched

/-- `_maybe_verify_first_tick`: only acknowledged subscriptions, and ticks of the realtime feed
that can be read and are not older than the baseline. -/
def verifyFirstTick (now : Moment) (tick : TickEvidence)
    (snapshot : RealtimeSubscriptionLifecycleSnapshot) : RealtimeSubscriptionLifecycleSnapshot :=
  if snapshot.acked = false ∨ tick.source ≠ "REALTIME" then snapshot
  else
    match parseTime readTime tick.tickAt with
    | none => snapshot
    | some tickAt =>
        if beforeBaseline readTime snapshot.registrationAckBaselineAtUtc tick.tickAt then snapshot
        else
          let fresh := youngAt maxTickAgeMs now tickAt
          transition
            { snapshot with
              transportActive := true
              firstTickVerified := true
              decisionFresh := fresh
              stale := !fresh
              firstTickAtUtc :=
                if snapshot.firstTickAtUtc = "" then tick.tickAt else snapshot.firstTickAtUtc
              lastTickAtUtc := tick.tickAt }
            (.ofFresh fresh)

/-- The acknowledgement of a register command for one code, before the last tick is looked
at. -/
def acknowledge (baseline : String) (previous : RealtimeSubscriptionLifecycleSnapshot) :
    RealtimeSubscriptionLifecycleSnapshot :=
  transition
    { previous with
      commandDispatched := true
      acked := true
      transportActive := true
      firstTickVerified := false
      decisionFresh := false
      stale := false
      released := false
      failed := false
      registrationAckBaselineAtUtc := baseline
      firstTickAtUtc := ""
      lastTickAtUtc := "" }
    .ackedWaitFirstTick

/-- `on_command_ack` of a register command for one code. -/
def acknowledgeRegister (now : Moment) (baseline : String) (evidence : Option TickEvidence)
    (previous : RealtimeSubscriptionLifecycleSnapshot) :
    RealtimeSubscriptionLifecycleSnapshot :=
  let snapshot := acknowledge baseline previous
  match evidence with
  | none => snapshot
  | some tick => verifyFirstTick readTime maxTickAgeMs now tick snapshot

/-- `on_command_ack` of a remove command for one code. -/
def acknowledgeRelease (previous : RealtimeSubscriptionLifecycleSnapshot) :
    RealtimeSubscriptionLifecycleSnapshot :=
  transition
    { previous with
      transportActive := false
      decisionFresh := false
      released := true }
    .released

/-- `on_command_failed` for one code. -/
def fail (previous : RealtimeSubscriptionLifecycleSnapshot) :
    RealtimeSubscriptionLifecycleSnapshot :=
  transition { previous with failed := true } .failed

/-- `on_release_requested` for one code. -/
def requestRelease (previous : RealtimeSubscriptionLifecycleSnapshot) :
    RealtimeSubscriptionLifecycleSnapshot :=
  previous.transition .releasePending

/-- `refresh_staleness` for one code. -/
def refreshStaleness (now : Moment) (snapshot : RealtimeSubscriptionLifecycleSnapshot) :
    RealtimeSubscriptionLifecycleSnapshot :=
  if snapshot.acked = false ∨ snapshot.firstTickVerified = false ∨
      snapshot.transportActive = false then snapshot
  else
    match parseTime readTime (lastTick snapshot) with
    | none => snapshot
    | some tickAt =>
        let fresh := youngAt maxTickAgeMs now tickAt
        let state : RealtimeSubscriptionLifecycleState := .ofFresh fresh
        if snapshot.lifecycleState ≠ state ∨ snapshot.decisionFresh ≠ fresh ∨
            snapshot.stale = fresh then
          transition { snapshot with decisionFresh := fresh, stale := !fresh } state
        else snapshot

/-! ## The handlers -/

namespace RealtimeSubscriptionLifecycleTracker

variable (t : RealtimeSubscriptionLifecycleTracker)

/-- `_event_codes`: the codes of the payload, or those of its command. -/
def eventCodes (payload : CommandPayload) : List String :=
  let values := normalizeCodes payload.codes
  if values ≠ [] then values
  else if payload.commandId = "" then []
  else t.commandCodes.getD payload.commandId []

def snapshotOf (code : String) : RealtimeSubscriptionLifecycleSnapshot :=
  (t.snapshots.get? code).getD {}

def updateAll (codes : List String)
    (f : String → RealtimeSubscriptionLifecycleSnapshot →
      RealtimeSubscriptionLifecycleSnapshot) : RealtimeSubscriptionLifecycleTracker :=
  { t with
    snapshots := t.snapshots.upsertAll codes fun code previous => f code (previous.getD {}) }

variable {t : RealtimeSubscriptionLifecycleTracker}
  {f : String → RealtimeSubscriptionLifecycleSnapshot → RealtimeSubscriptionLifecycleSnapshot}

variable {R : RealtimeSubscriptionLifecycleSnapshot → Prop} {code : String}

theorem snapshotOf_updateAll_keeps (codes : List String) (hkeep : ∀ s, R s → R (f code s))
    (h : R (t.snapshotOf code)) : R ((t.updateAll codes f).snapshotOf code) :=
  Dict.upsertAll_keeps (R := fun previous => R (previous.getD {})) (fun _ => hkeep _) codes
    t.snapshots h

theorem snapshotOf_updateAll_of_notMem {codes : List String} (hcode : code ∉ codes) :
    (t.updateAll codes f).snapshotOf code = t.snapshotOf code := by
  unfold snapshotOf updateAll
  rw [Dict.get?_upsertAll_of_notMem _ hcode]

theorem snapshotOf_updateAll_reaches {Q : RealtimeSubscriptionLifecycleSnapshot → Prop}
    {codes : List String} (hstart : ∀ s, R s → Q (f code s)) (hkeep : ∀ s, Q s → Q (f code s))
    (hcode : code ∈ codes) (h : R (t.snapshotOf code)) :
    Q ((t.updateAll codes f).snapshotOf code) :=
  Dict.upsertAll_reaches (R := fun previous => R (previous.getD {}))
    (Q := fun previous => Q (previous.getD {})) (fun _ => hstart _) (fun _ => hkeep _) hcode
    t.snapshots h

def onRequested (code : String) : RealtimeSubscriptionLifecycleTracker :=
  t.updateAll (normalizeCodes [code]) fun _ => request

def onTargetSelected (records : List String) : RealtimeSubscriptionLifecycleTracker :=
  t.updateAll (normalizeCodes records) fun _ => selectTarget readTime

def onBudgetDeferred (records : List String) : RealtimeSubscriptionLifecycleTracker :=
  t.updateAll (normalizeCodes records) fun _ => deferBudget

/-- The command's codes are remembered first. A duplicate of a command that is no longer under
way changes no snapshot. -/
def onCommandEnqueued : Option RealtimeCommandReceipt → RealtimeSubscriptionLifecycleTracker
  | none => t
  | some receipt =>
      let codes := normalizeCodes receipt.codes
      let own := if receipt.commandId = "" then t.commandCodes
        else t.commandCodes.set receipt.commandId codes
      let all := if receipt.duplicateOf = "" then own else own.set receipt.duplicateOf codes
      let t := { t with commandCodes := all }
      let status := Text.upper receipt.status
      if receipt.accepted = false ∧ receipt.duplicateOf ≠ "" ∧ status ≠ "QUEUED" ∧
          status ≠ "DISPATCHED" then t
      else t.updateAll codes fun _ => enqueue (status = "DISPATCHED")

def onCommandStarted (payload : CommandPayload) : RealtimeSubscriptionLifecycleTracker :=
  if payload.commandType ≠ "register_realtime" then t
  else t.updateAll (t.eventCodes payload) fun _ => start

def isRealtimeCommand (commandType : String) : Bool :=
  commandType = "register_realtime" || commandType = "remove_realtime" ||
    commandType = "remove_all_realtime"

def onCommandFailed (payload : CommandPayload) : RealtimeSubscriptionLifecycleTracker :=
  if isRealtimeCommand payload.commandType then
    t.updateAll (t.eventCodes payload) fun _ => fail
  else t

/-- The status of an acknowledgement, which is `ACKED` unless it says otherwise. -/
def ackStatus (payload : CommandPayload) : String :=
  Text.upper (if payload.status = "" then "ACKED" else payload.status)

def ackBaseline (payload : CommandPayload) (now : Moment) : String :=
  firstText utcText [payload.gatewayKiwoomCallFinishedAtUtc,
    payload.gatewayCommandAckCreatedAtUtc, now.text]

def onCommandAck (payload : CommandPayload) (now : Moment) :
    RealtimeSubscriptionLifecycleTracker :=
  if payload.commandType = "register_realtime" then
    if ackStatus payload ≠ "ACKED" then t.onCommandFailed payload
    else
      t.updateAll (t.eventCodes payload) fun code =>
        acknowledgeRegister readTime maxTickAgeMs now (ackBaseline utcText payload now)
          (t.latestTickEvidence.get? code)
  else if payload.commandType = "remove_all_realtime" then
    t.updateAll t.snapshots.keys fun _ => acknowledgeRelease
  else if payload.commandType = "remove_realtime" then
    t.updateAll (t.eventCodes payload) fun _ => acknowledgeRelease
  else t

def onReleaseRequested (receipt : Option RealtimeCommandReceipt) (codes : List String) :
    RealtimeSubscriptionLifecycleTracker :=
  match receipt with
  | none => t
  | some _ => t.updateAll (normalizeCodes codes) fun _ => requestRelease

/-- The tick is remembered; a code without a snapshot gets none. -/
def onPriceTick (payload : TickPayload) (now : Moment) : RealtimeSubscriptionLifecycleTracker :=
  let code := normalizeCode payload.code
  if code = "" then t
  else
    let tick := tickEvidence utcText payload now
    let t := { t with latestTickEvidence := t.latestTickEvidence.set code tick }
    match t.snapshots.get? code with
    | none => t
    | some snapshot =>
        { t with
          snapshots :=
            t.snapshots.set code (verifyFirstTick readTime maxTickAgeMs now tick snapshot) }

def onRefreshStaleness (code : String) (now : Moment) : RealtimeSubscriptionLifecycleTracker :=
  match t.snapshots.get? (normalizeCode code) with
  | none => t
  | some snapshot =>
      { t with
        snapshots := t.snapshots.set (normalizeCode code)
          (refreshStaleness readTime maxTickAgeMs now snapshot) }

end RealtimeSubscriptionLifecycleTracker

end

end TradingCore.Realtime
