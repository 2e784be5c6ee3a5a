import TradingCore.Base.Coalesce
import TradingCore.Candidates.ConditionCollector

/-!
# The condition adapter forwards the final membership

`KiwoomConditionAdapter` of `trading/strategy/conditions.py`: the initial list of a condition and
its realtime events become events about candidates, but for those that repeat an event of their
own type within a window. The memory of each type is separate: an event that comes back within
the window after one of the other type is lost. It must not be one that changes the membership.

Registration, warnings, counts and the request for the rest of a list are left out. Times are the
clock's local time in seconds: `_clean_time` drops the rest.
-/

namespace TradingCore.Candidates

open Base List

structure RegisteredCondition where
  conditionName : String
  conditionIndex : Int
  strategyProfile : String
  purpose : String

structure ConditionCandidateEvent where
  conditionName : String
  code : String
  conditionIndex : Int
  eventType : ConditionEventType
  source : String
  strategyProfile : String
  purpose : String

abbrev ConditionAddress := String × Int × String

structure KiwoomConditionAdapter where
  registeredConditions : Dict (String × Int) RegisteredCondition
  recentEvents : Dict (Int × ConditionAddress × ConditionEventType) Int := .empty

/-- `_parse_code_list`. -/
def parseCodeList (codeList : String) : List String :=
  (((codeList.toList.splitOn ';').map String.ofList).filter (normalizeCode · ≠ "")).map Text.strip

def RegisteredCondition.address (condition : RegisteredCondition) (code : String) :
    ConditionAddress :=
  (condition.conditionName, condition.conditionIndex, normalizeCode code)

def normalizedEvent (eventType : String) : Option ConditionEventType :=
  if Text.upper eventType = "I" then some .included
  else if Text.upper eventType = "D" then some .removed
  else none

namespace KiwoomConditionAdapter

variable (dedupeWindowSec : Nat) (now : Int)

/-- An event of this type was emitted within the window, on the same date. -/
def Suppresses (adapter : KiwoomConditionAdapter) (eventType : ConditionEventType)
    (address : ConditionAddress) : Prop :=
  ∃ previous ∈ adapter.recentEvents.get? (now / 86400, address, eventType),
    now ≤ previous + dedupeWindowSec
deriving Decidable

/-- `_emit_candidate_event`. -/
def emitCandidateEvent (eventType : ConditionEventType) (condition : RegisteredCondition)
    (adapter : KiwoomConditionAdapter) (code : String) :
    KiwoomConditionAdapter × List ConditionCandidateEvent :=
  if adapter.Suppresses dedupeWindowSec now eventType (condition.address code) then (adapter, [])
  else
    ({ adapter with
       recentEvents :=
         adapter.recentEvents.set (now / 86400, condition.address code, eventType) now },
     [{ conditionName := condition.conditionName
        code := normalizeCode code
        conditionIndex := condition.conditionIndex
        eventType
        source := "condition"
        strategyProfile := condition.strategyProfile
        purpose := condition.purpose }])

def emitEach (eventType : ConditionEventType) (condition : RegisteredCondition) :
    List String → KiwoomConditionAdapter → KiwoomConditionAdapter × List ConditionCandidateEvent
  | [], adapter => (adapter, [])
  | code :: rest, adapter =>
      let emitted := emitCandidateEvent dedupeWindowSec now eventType condition adapter code
      let later := emitEach eventType condition rest emitted.1
      (later.1, emitted.2 ++ later.2)

def handleTrCondition (adapter : KiwoomConditionAdapter) (codeList conditionName : String)
    (conditionIndex : Int) : KiwoomConditionAdapter × List ConditionCandidateEvent :=
  match adapter.registeredConditions.get? (conditionName, conditionIndex) with
  | none => (adapter, [])
  | some registered =>
      emitEach dedupeWindowSec now .included registered (parseCodeList codeList) adapter

def handleRealCondition (adapter : KiwoomConditionAdapter)
    (code eventType conditionName : String) (conditionIndex : Int) :
    KiwoomConditionAdapter × List ConditionCandidateEvent :=
  match adapter.registeredConditions.get? (conditionName, conditionIndex) with
  | none => (adapter, [])
  | some registered =>
      match normalizedEvent eventType with
      | none => (adapter, [])
      | some eventType => emitEach dedupeWindowSec now eventType registered [code] adapter

end KiwoomConditionAdapter

/-! ## Memberships -/

/-- What the client tells of the conditions. -/
inductive ClientInput
  | tr (codeList conditionName : String) (conditionIndex : Int)
  | real (code eventType conditionName : String) (conditionIndex : Int)

/-- What an input says: some codes were included in, or removed from, a registered condition. -/
def ClientInput.reported (adapter : KiwoomConditionAdapter) :
    ClientInput → Option (RegisteredCondition × ConditionEventType × List String)
  | .tr codeList name index =>
      (adapter.registeredConditions.get? (name, index)).map fun registered =>
        (registered, .included, parseCodeList codeList)
  | .real code eventType name index =>
      (adapter.registeredConditions.get? (name, index)).bind fun registered =>
        (normalizedEvent eventType).map fun eventType => (registered, eventType, [code])

def ConditionCandidateEvent.told (event : ConditionCandidateEvent) : ConditionAddress × Bool :=
  ((event.conditionName, event.conditionIndex, event.code), event.eventType = .included)

/-- The adapter, with the memberships that the emitted events and the inputs come to. No function
of the adapter reads these. -/
structure Forwarding where
  adapter : KiwoomConditionAdapter
  forwarded : ConditionAddress → Bool := fun _ => false
  actual : ConditionAddress → Bool := fun _ => false

namespace Forwarding

def step (dedupeWindowSec : Nat) (s : Forwarding) (input : ClientInput × Int) : Forwarding :=
  let handled := match input.1 with
    | .tr codeList name index =>
        s.adapter.handleTrCondition dedupeWindowSec input.2 codeList name index
    | .real code eventType name index =>
        s.adapter.handleRealCondition dedupeWindowSec input.2 code eventType name index
  { adapter := handled.1
    forwarded := writeAll s.forwarded (handled.2.map (·.told))
    actual :=
      match input.1.reported s.adapter with
      | none => s.actual
      | some (condition, eventType, codes) =>
          writeAll s.actual (codes.map fun code =>
            (condition.address code, decide (eventType = .included))) }

def machine (dedupeWindowSec : Nat) : Machine Forwarding (ClientInput × Int) Unit :=
  ⟨fun s input => (s.step dedupeWindowSec input, ())⟩

def Agrees (s : Forwarding) : Prop := ∀ address, s.forwarded address = s.actual address

/-- What the input says and the adapter suppresses is so already. -/
def LosesNothing (dedupeWindowSec : Nat) (s : Forwarding) (input : ClientInput × Int) : Prop :=
  ∀ report ∈ input.1.reported s.adapter, ∀ code ∈ report.2.2,
    s.adapter.Suppresses dedupeWindowSec input.2 report.2.1 (report.1.address code) →
      s.actual (report.1.address code) = decide (report.2.1 = .included)

end Forwarding

/-! ## One input -/

variable {dedupeWindowSec : Nat} {now : Int} {eventType : ConditionEventType}
  {condition : RegisteredCondition}

open KiwoomConditionAdapter

/-- What the events of some codes come to: all of them are included or removed, but for those that
were suppressed at the start. -/
theorem writeAll_emitEach (codes : List String) (address : ConditionAddress) :
    ∀ (adapter : KiwoomConditionAdapter) (table : ConditionAddress → Bool),
      writeAll table
          ((emitEach dedupeWindowSec now eventType condition codes adapter).2.map (·.told))
          address =
        if address ∈ codes.map condition.address ∧
            ¬ adapter.Suppresses dedupeWindowSec now eventType address then
          decide (eventType = .included)
        else table address := by
  induction codes with
  | nil => simp [emitEach, writeAll]
  | cons code rest ih =>
    intro adapter table
    have happend : ∀ first later : List ConditionCandidateEvent,
        writeAll table ((first ++ later).map (·.told)) =
          writeAll (writeAll table (first.map (·.told))) (later.map (·.told)) := by
      intro first later
      rw [writeAll, map_append, foldl_append]
      rfl
    rw [emitEach, happend, ih]
    simp only [map_cons, mem_cons]
    unfold emitCandidateEvent
    by_cases hcode : adapter.Suppresses dedupeWindowSec now eventType (condition.address code)
    · rw [if_pos hcode]
      by_cases haddress : address = condition.address code
      · subst haddress
        simp [hcode, writeAll]
      · simp [haddress, writeAll]
    · rw [if_neg hcode]
      by_cases haddress : address = condition.address code
      · -- it is written now, and not otherwise later
        subst haddress
        unfold RegisteredCondition.address at hcode ⊢
        simp [hcode, writeAll, ConditionCandidateEvent.told]
      · have hkeep : Dict.get? (adapter.recentEvents.set
            (now / 86400, condition.address code, eventType) now) (now / 86400, address, eventType) =
              adapter.recentEvents.get? (now / 86400, address, eventType) :=
          Dict.get?_set_ne _ _ (by simp [haddress])
        have hother : (condition.conditionName, condition.conditionIndex, normalizeCode code) ≠
            address := fun h => haddress h.symm
        simp [haddress, Suppresses, hkeep, writeAll, ConditionCandidateEvent.told,
          Function.update_of_ne (Ne.symm hother)]

theorem writeAll_reported (codes : List String) (value : Bool) (table : ConditionAddress → Bool)
    (address : ConditionAddress) :
    writeAll table (codes.map fun code => (condition.address code, value)) address =
      if address ∈ codes.map condition.address then value else table address := by
  have hstep : ∀ (t : ConditionAddress → Bool) (a : ConditionAddress),
      Function.update t a value address = if address = a then value else t address := by
    intro t a
    rw [Function.update_apply]
  have hfold := Dict.foldl_leaves (fun t : ConditionAddress → Bool => t address) hstep
    (codes.map condition.address) table
  rw [foldl_map] at hfold
  rw [writeAll, foldl_map]
  convert hfold

namespace Forwarding

theorem step_eq (s : Forwarding) (input : ClientInput × Int) :
    s.step dedupeWindowSec input = match input.1.reported s.adapter with
      | none => s
      | some (condition, eventType, codes) =>
          let handled := emitEach dedupeWindowSec input.2 eventType condition codes s.adapter
          { adapter := handled.1
            forwarded := writeAll s.forwarded (handled.2.map (·.told))
            actual := writeAll s.actual (codes.map fun code =>
              (condition.address code, decide (eventType = .included))) } := by
  obtain ⟨input, now⟩ := input
  cases input with
  | tr codeList name index =>
    unfold step handleTrCondition ClientInput.reported
    cases h : s.adapter.registeredConditions.get? (name, index) with
    | none => simp [h, writeAll]
    | some registered => simp [h]
  | real code eventType name index =>
    unfold step handleRealCondition ClientInput.reported
    cases h : s.adapter.registeredConditions.get? (name, index) with
    | none => simp [h, writeAll]
    | some registered =>
      cases htype : normalizedEvent eventType with
      | none => simp [h, htype, writeAll]
      | some eventType => simp [h, htype]

theorem agrees_step_iff (s : Forwarding) (input : ClientInput × Int) (h : s.Agrees) :
    (s.step dedupeWindowSec input).Agrees ↔ s.LosesNothing dedupeWindowSec input := by
  rw [step_eq]
  unfold LosesNothing
  cases input.1.reported s.adapter with
  | none => exact iff_of_true h (by simp)
  | some report =>
    obtain ⟨condition, eventType, codes⟩ := report
    unfold Agrees
    dsimp only
    simp only [writeAll_emitEach, writeAll_reported, h _, Option.mem_def, Option.some.injEq,
      forall_eq']
    constructor
    · intro hagrees code hcode hsuppressed
      have haddress := hagrees (condition.address code)
      have hmem : condition.address code ∈ codes.map condition.address :=
        mem_map_of_mem hcode
      rw [if_neg (fun hnot => hnot.2 hsuppressed), if_pos hmem] at haddress
      exact haddress
    · intro hlost address
      by_cases hmem : address ∈ codes.map condition.address
      · by_cases hsuppressed : s.adapter.Suppresses dedupeWindowSec input.2 eventType address
        · obtain ⟨code, hcode, rfl⟩ := mem_map.mp hmem
          rw [if_neg (fun hnot => hnot.2 hsuppressed), if_pos hmem]
          exact hlost code hcode hsuppressed
        · rw [if_pos ⟨hmem, hsuppressed⟩, if_pos hmem]
      · rw [if_neg (fun hnot => hmem hnot.1), if_neg hmem]

/-! ## Runs -/

/-- For all registered conditions and every sequence of inputs: the emitted events come to the
membership of the inputs after each of them, iff none of them loses a change. -/
theorem forwards_membership (dedupeWindowSec : Nat)
    (registered : Dict (String × Int) RegisteredCondition)
    (inputs : List (ClientInput × Int)) :
    (machine dedupeWindowSec).Always Agrees { adapter := { registeredConditions := registered } }
        inputs ↔
      (machine dedupeWindowSec).Guarded (LosesNothing dedupeWindowSec)
        { adapter := { registeredConditions := registered } } inputs := by
  refine Machine.always_iff_guarded (I := fun _ => True) ?_ ?_ trivial ?_
  · exact fun _ _ _ _ _ => trivial
  · exact fun s input _ h => s.agrees_step_iff input h
  · exact fun _ => rfl

/-! ## Fixed inputs -/

/-- A stock is included, removed and included again within three seconds. -/
theorem final_include_suppressed : ¬ ∀ (dedupeWindowSec : Nat)
    (registered : Dict (String × Int) RegisteredCondition)
    (inputs : List (ClientInput × Int)), (inputs.map Prod.snd).Pairwise (· ≤ ·) →
      (machine dedupeWindowSec).Always Agrees
        { adapter := { registeredConditions := registered } } inputs := by
  intro h
  have halways := h 3 (.ofList [(("leaders", 7), ⟨"leaders", 7, "", ""⟩)])
    [(.real "005930" "I" "leaders" 7, 100), (.real "005930" "D" "leaders" 7, 101),
      (.real "005930" "I" "leaders" 7, 102)] (by decide)
  have hlast := Machine.always_iff_prefix.mp halways _ (prefix_refl _)
  have hcode := hlast ("leaders", 7, "005930")
  revert hcode
  decide +kernel

end Forwarding

end TradingCore.Candidates
