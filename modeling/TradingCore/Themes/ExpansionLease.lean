import TradingCore.Base.Machine
import TradingCore.Candidates.Models

/-!
# Expansion leases

`ExpansionLeaseManager` of `trading/theme_engine/expansion_lease.py`: a code that a theme selects
for its realtime expansion gets a lease of the code for the theme. Each call of `reconcile` renews
the leases of the current targets and moves the others on, and a code may be removed from the
realtime registrations once every lease of it has expired.

Instants are in microseconds; a timestamp is kept as the instant it parses to.
-/

namespace TradingCore.Themes

open Base Candidates

inductive ExpansionLeaseStatus
  | active
  | holding
  | removalPending
  | expired
  | protectedCode
deriving DecidableEq

/-- The fields of `FocusedExpansionTarget` that a lease reads. -/
structure FocusedExpansionTarget where
  code : String
  themeId : String := ""
  source : String := "reboot_v2_theme_expansion"
  subscriptionTtlSec : Int := 90
  minimumHoldSec : Int := 30
  reasonCodes : List String := []

/-- `ExpansionLease`. An empty timestamp is `none`. -/
structure ExpansionLease where
  code : String
  themeId : String := ""
  source : String := "reboot_v2_theme_expansion"
  subscriptionGeneration : Nat := 1
  selectedAt : Option Int := none
  selectedTickBaselineAt : Option Int := none
  firstActiveAt : Option Int := none
  firstFreshTickAt : Option Int := none
  firstPostSubscriptionTickAt : Option Int := none
  firstTickSourceEventId : String := ""
  minimumHoldUntil : Option Int := none
  expiresAt : Option Int := none
  lastEligibleAt : Option Int := none
  removalPendingAt : Option Int := none
  cooldownUntil : Option Int := none
  status : ExpansionLeaseStatus := .active
  reasonCodes : List String := []
  target : Option FocusedExpansionTarget := none

structure ExpansionLeaseSnapshot where
  calculatedAt : Int
  leases : List ExpansionLease
  activeLeaseCount : Nat
  holdingCount : Nat
  protectedCount : Nat
  pendingRemovalCount : Nat
  expiredCount : Nat
  churnCount : Nat
  firstTickWaitCount : Nat
  leaseByTheme : Dict String Nat
  topRemovalReasons : List (String × Nat)

/-- A tick event as it is handed in: `tickAt` is `none` where the event names no time, and
`some none` where the time does not parse. -/
structure RawTickEvent where
  tickAt : Option (Option Int) := none
  sourceEventId : String := ""

/-- A tick event as `_fresh_events` returns it. -/
structure FreshTickEvent where
  tickAt : Option Int
  sourceEventId : String

/-- The arguments of `reconcile`. -/
structure Reconcile where
  targets : List FocusedExpansionTarget := []
  now : Int
  activeCodes : List String := []
  freshTickCodes : List String := []
  freshTickEvents : List (String × RawTickEvent) := []
  protectedCodes : List String := []

/-! ## Times -/

/-- `replace(microsecond=0)`. -/
def wholeSecond (now : Int) : Int := now - now % 1000000

/-- A `timedelta` of seconds. -/
def seconds (count : Int) : Int := count * 1000000

def before (now : Int) (timestamp : Option Int) : Bool := timestamp.any (now < ·)

/-! ## One lease -/

def FocusedExpansionTarget.hold (target : FocusedExpansionTarget) : Int :=
  max 0 target.minimumHoldSec

/-- The time to live that a target asks for; zero is the default. -/
def FocusedExpansionTarget.ttl (target : FocusedExpansionTarget) : Int :=
  max 1 (if target.subscriptionTtlSec = 0 then 90 else target.subscriptionTtlSec)

def newLease (target : FocusedExpansionTarget) (now : Int) : ExpansionLease where
  code := normalizeCode target.code
  themeId := target.themeId
  source := if target.source = "" then "reboot_v2_theme_expansion" else target.source
  selectedAt := some now
  selectedTickBaselineAt := some now
  minimumHoldUntil := some (now + seconds target.hold)
  expiresAt := some (now + seconds target.ttl)
  lastEligibleAt := some now
  reasonCodes := dedupe (target.reasonCodes ++ ["EXPANSION_LEASE_CREATED"])
  target := some target

namespace ExpansionLease

def refreshLease (lease : ExpansionLease) (target : FocusedExpansionTarget) (now : Int) :
    ExpansionLease :=
  { lease with
    source := if target.source = "" then lease.source else target.source
    selectedTickBaselineAt := lease.selectedTickBaselineAt.or lease.selectedAt
    lastEligibleAt := some now
    expiresAt := some (now + seconds target.ttl)
    cooldownUntil := none
    status := .active
    removalPendingAt := none
    reasonCodes := dedupe (lease.reasonCodes ++ target.reasonCodes ++ ["EXPANSION_LEASE_REFRESHED"])
    target := some target }

/-- `_post_subscription_fresh_tick`: the tick is not older than any baseline of the lease. -/
def postSubscriptionFreshTick (lease : ExpansionLease) (event : FreshTickEvent) : Bool :=
  match event.tickAt with
  | none => false
  | some tickAt =>
      let baselines := [lease.selectedTickBaselineAt, lease.firstActiveAt,
        lease.selectedAt].filterMap id
      match baselines with
      | [] => false
      | first :: rest => rest.foldl max first ≤ tickAt

def noteActive (lease : ExpansionLease) (isActive : Bool) (now : Int) : ExpansionLease :=
  if isActive ∧ lease.firstActiveAt = none then { lease with firstActiveAt := some now } else lease

def noteTick (lease : ExpansionLease) (event : Option FreshTickEvent) (now : Int) :
    ExpansionLease :=
  match event with
  | none => lease
  | some event =>
      if lease.firstFreshTickAt = none ∧ lease.postSubscriptionFreshTick event then
        { lease with
          firstFreshTickAt := some now
          firstPostSubscriptionTickAt := event.tickAt
          firstTickSourceEventId := event.sourceEventId
          reasonCodes := dedupe (lease.reasonCodes ++ ["THEME_EXPANSION_TICK_READY"]) }
      else lease

/-- What becomes of a lease that is not a target, and whether it counts as churn. -/
def release (lease : ExpansionLease) (cooldownSec : Int) (isProtected : Bool) (now : Int) :
    ExpansionLease × Bool :=
  if isProtected then
    ({ lease with
       status := .protectedCode
       reasonCodes := dedupe (lease.reasonCodes ++ ["PROTECTED_SUBSCRIPTION"]) }, false)
  else if before now lease.minimumHoldUntil then
    ({ lease with
       status := .holding
       reasonCodes := dedupe (lease.reasonCodes ++ ["MINIMUM_HOLD_ACTIVE"]) }, false)
  else if lease.status = .removalPending then
    if before now lease.cooldownUntil ∧ before now lease.expiresAt then (lease, false)
    else
      ({ lease with
         status := .expired
         reasonCodes := dedupe (lease.reasonCodes ++ ["LEASE_COOLDOWN_EXPIRED"]) }, true)
  else if ¬ before now lease.expiresAt then
    ({ lease with
       status := .expired
       removalPendingAt := some now
       reasonCodes := dedupe (lease.reasonCodes ++ ["LEASE_TTL_EXPIRED"]) }, true)
  else
    ({ lease with
       status := .removalPending
       removalPendingAt := some now
       cooldownUntil := some (now + seconds cooldownSec)
       reasonCodes := dedupe (lease.reasonCodes ++ ["THEME_NO_LONGER_ELIGIBLE"]) }, true)

end ExpansionLease

/-! ## What a call hands in -/

namespace Reconcile

variable (call : Reconcile)

def current : Int := wholeSecond call.now

def activeCodeSet : List String := normalizeCodes call.activeCodes

def protectedCodeSet : List String := normalizeCodes call.protectedCodes

def targetByKey : Dict (String × String) FocusedExpansionTarget :=
  .ofList ((call.targets.filter fun target => normalizeCode target.code ≠ "").map
    fun target => ((normalizeCode target.code, target.themeId), target))

def freshEvents : Dict String FreshTickEvent :=
  let named := (call.freshTickEvents.filter fun e => normalizeCode e.1 ≠ "").foldl
    (fun (result : Dict String FreshTickEvent) e => result.set (normalizeCode e.1)
      { tickAt := e.2.tickAt.getD (some call.current), sourceEventId := e.2.sourceEventId }) .empty
  (normalizeCodes call.freshTickCodes).foldl (fun result code =>
    if result.contains code then result
    else result.set code { tickAt := some call.current, sourceEventId := "" }) named

end Reconcile

/-! ## The manager -/

structure ExpansionLeaseManager where
  cooldownSec : Int := 60
  leases : Dict (String × String) ExpansionLease := .empty
  lastSnapshot : Option ExpansionLeaseSnapshot := none

def currentStatuses : List ExpansionLeaseStatus := [.active, .holding, .protectedCode]

def retainedStatuses : List ExpansionLeaseStatus := currentStatuses ++ [.removalPending]

/-- `_snapshot`. -/
def leaseSnapshot (leases : List ExpansionLease) (calculatedAt : Int) (churn : Nat) :
    ExpansionLeaseSnapshot :=
  let increment (counts : Dict String Nat) (key : String) := counts.set key (counts.getD key 0 + 1)
  let count (p : ExpansionLease → Bool) := leases.countP p
  let reasonCounts := (leases.filter fun lease =>
    lease.status ∈ [.removalPending, .expired]).foldl
      (fun counts lease => lease.reasonCodes.foldl increment counts) .empty
  { calculatedAt
    leases
    activeLeaseCount := count fun lease => lease.status ∈ currentStatuses
    holdingCount := count fun lease => lease.status = .holding
    protectedCount := count fun lease => lease.status = .protectedCode
    pendingRemovalCount := count fun lease => lease.status = .removalPending
    expiredCount := count fun lease => lease.status = .expired
    churnCount := churn
    firstTickWaitCount := count fun lease =>
      lease.status = .active ∧ lease.firstFreshTickAt = none
    leaseByTheme := (leases.filter fun lease => lease.status ∈ currentStatuses).foldl
      (fun counts lease => increment counts lease.themeId) .empty
    topRemovalReasons := (reasonCounts.entries.mergeSort fun a b => b.2 ≤ a.2).take 10 }

namespace ExpansionLeaseManager

/-- The lease of a target: a new one, or the old one refreshed. -/
def selectLease (target : FocusedExpansionTarget) (now : Int) :
    Option ExpansionLease → ExpansionLease
  | none => newLease target now
  | some lease => lease.refreshLease target now

/-- The lease of a target, with what is known of its code. -/
def targetLease (call : Reconcile) (key : String × String) (target : FocusedExpansionTarget)
    (old : Option ExpansionLease) : ExpansionLease :=
  ((selectLease target call.current old).noteActive (key.1 ∈ call.activeCodeSet)
    call.current).noteTick (call.freshEvents.get? key.1) call.current

def renewed (m : ExpansionLeaseManager) (call : Reconcile) :
    Dict (String × String) ExpansionLease :=
  call.targetByKey.entries.foldl
    (fun leases e => leases.upsert e.1 (targetLease call e.1 e.2)) m.leases

/-- The leases that are not targets, with what becomes of them. -/
def released (m : ExpansionLeaseManager) (call : Reconcile) (key : String × String)
    (lease : ExpansionLease) : ExpansionLease × Bool :=
  if call.targetByKey.contains key then (lease, false)
  else lease.release m.cooldownSec (key.1 ∈ call.protectedCodeSet) call.current

/-- How many leases a call creates, expires or puts up for removal. -/
def churn (m : ExpansionLeaseManager) (call : Reconcile) : Nat :=
  call.targetByKey.keys.countP (fun key => ¬ m.leases.contains key) +
    (m.renewed call).entries.countP fun e => (m.released call e.1 e.2).2

def reconcile (m : ExpansionLeaseManager) (call : Reconcile) :
    ExpansionLeaseManager × ExpansionLeaseSnapshot :=
  let leases := (m.renewed call).mapVals fun key lease => (m.released call key lease).1
  let snapshot := leaseSnapshot leases.values call.current (m.churn call)
  ({ m with leases, lastSnapshot := some snapshot }, snapshot)

def codeStatuses (m : ExpansionLeaseManager) : Dict String (List ExpansionLeaseStatus) :=
  m.leases.values.foldl (fun statuses lease =>
    statuses.set lease.code (statuses.getD lease.code [] ++ [lease.status])) .empty

def removableCodes (m : ExpansionLeaseManager) : List String :=
  ((m.codeStatuses.entries.filter fun e =>
    e.2 ≠ [] ∧ ¬ e.2.any (· ∈ retainedStatuses)).map (·.1)).mergeSort (· ≤ ·)

end ExpansionLeaseManager

end TradingCore.Themes
