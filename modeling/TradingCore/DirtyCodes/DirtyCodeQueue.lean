import TradingCore.Base.Joined
import TradingCore.Base.Line
import TradingCore.Base.Machine
import TradingCore.Evaluation.DirtyCodeQueue

/-!
# The queue of dirty codes, with its texts

`DirtyCodeQueue` of `trading/strategy/market_data_service.py` as its callers see it: a reason is a
member of `DirtyReason` or a text, an entry has the text that its reasons are joined to at commas,
and `_split_reasons` of `trading/strategy/dirty_strategy_evaluator.py` takes that text apart again.

The codes of the queue are a waiting `Line`: a mark that is accepted joins (`line_markDirty`) and a
call of `pop_dirty` serves (`line_popDirty`).
-/

namespace TradingCore.DirtyCodes

open Base List Dict
open Evaluation (DirtyReason cleanCode cleanTime)

/-- The value of a `DirtyReason`. -/
def reasonValue : DirtyReason → String
  | .priceTick => "PRICE_TICK"
  | .candleBoundary => "CANDLE_BOUNDARY"
  | .dataQualityChanged => "DATA_QUALITY_CHANGED"
  | .spreadChanged => "SPREAD_CHANGED"
  | .orderEvent => "ORDER_EVENT"
  | .positionEvent => "POSITION_EVENT"
  | .themeRoleChanged => "THEME_ROLE_CHANGED"
  | .marketRegimeChanged => "MARKET_REGIME_CHANGED"
  | .themeStateChanged => "THEME_STATE_CHANGED"
  | .themeLeaderChanged => "THEME_LEADER_CHANGED"
  | .themeExpansionTickReady => "THEME_EXPANSION_TICK_READY"
  | .strategyContextChanged => "STRATEGY_CONTEXT_CHANGED"

def reasonText : DirtyReason ⊕ String → String
  | .inl reason => reasonValue reason
  | .inr text => text

def splitReasons (value : String) : List String :=
  ((value.toList.splitOn ',').map String.ofList).filter (· ≠ "")

structure DirtyCodeEvent where
  code : String
  reason : String
  sourceEventId : String
  markedAt : Int

structure DirtyCodeQueue where
  items : Dict String DirtyCodeEvent := .empty
  lastMarkedAt : Dict (String × String) Int := .empty

namespace DirtyCodeQueue

/-- The mark comes within the debounce time of the last one for the same code and reason. -/
def debounced (debounceMs : Int) (queue : DirtyCodeQueue) (code reason : String) (now : Int) :
    Bool :=
  match queue.lastMarkedAt.get? (code, reason) with
  | none => false
  | some previous => 0 < debounceMs ∧ (now - previous) * 1000 < debounceMs

def entryOf (existing : Option DirtyCodeEvent) (code reason sourceEventId : String) (now : Int) :
    DirtyCodeEvent :=
  match existing with
  | none => { code, reason, sourceEventId, markedAt := now }
  | some existing =>
      { code
        reason := if existing.reason = reason then reason else existing.reason ++ "," ++ reason
        sourceEventId := if sourceEventId ≠ "" then sourceEventId else existing.sourceEventId
        markedAt := now }

/-- `mark_dirty`, answering whether the code is marked. -/
def markDirty (debounceMs : Int) (queue : DirtyCodeQueue) (code : String)
    (reason : DirtyReason ⊕ String) (sourceEventId : String) (markedAt : Int) :
    DirtyCodeQueue × Bool :=
  let code := cleanCode code
  let reason := reasonText reason
  let now := cleanTime markedAt
  if code = "" then (queue, false)
  else if reason = "" then (queue, false)
  else if queue.debounced debounceMs code reason now then (queue, false)
  else
    ({ items := (queue.items.filter fun other _ => other ≠ code).set code
         (entryOf (queue.items.get? code) code reason sourceEventId now)
       lastMarkedAt := queue.lastMarkedAt.set (code, reason) now }, true)

/-- `pop_dirty`: the first entries, and the queue without them. -/
def popDirty (queue : DirtyCodeQueue) (limit : Int) : DirtyCodeQueue × List DirtyCodeEvent :=
  ({ queue with
      items := ⟨queue.items.entries.drop limit.toNat,
        ((drop_sublist _ _).map Prod.fst).nodup queue.items.nodup⟩ },
    (queue.items.entries.take limit.toNat).map Prod.snd)

end DirtyCodeQueue

/-- A call of the queue. -/
inductive QueueCall
  | mark (code : String) (reason : DirtyReason ⊕ String) (sourceEventId : String) (markedAt : Int)
  | pop (limit : Int)

/-- The answer to a call. -/
inductive QueueAnswer
  | marked (accepted : Bool)
  | popped (events : List DirtyCodeEvent)

def dirtyCodeQueue (debounceMs : Int) : Machine DirtyCodeQueue QueueCall QueueAnswer where
  step queue
    | .mark code reason sourceEventId markedAt =>
        let (queue, accepted) := queue.markDirty debounceMs code reason sourceEventId markedAt
        (queue, .marked accepted)
    | .pop limit =>
        let (queue, events) := queue.popDirty limit
        (queue, .popped events)

/-! ## Reasons -/

theorem splitReasons_joined (known reason : String) :
    splitReasons (known ++ "," ++ reason) = splitReasons known ++ splitReasons reason := by
  have hjoined : (known ++ "," ++ reason).toList = known.toList ++ ',' :: reason.toList := by
    rw [String.toList_append, String.toList_append, append_assoc]
    rfl
  unfold splitReasons
  rw [hjoined, splitOn_append_cons_self, map_append, filter_append]

theorem splitReasons_of_notMem {reason : String} (hcomma : ',' ∉ reason.toList)
    (hreason : reason ≠ "") : splitReasons reason = [reason] := by
  unfold splitReasons
  rw [splitOn_eq_singleton hcomma, map_singleton, String.ofList_toList,
    filter_cons_of_pos (by simpa using hreason), filter_nil]

theorem comma_notMem_splitReasons {reason value : String} (h : reason ∈ splitReasons value) :
    ',' ∉ reason.toList := by
  obtain ⟨part, hpart, rfl⟩ := mem_map.mp (mem_filter.mp h).1
  rw [String.toList_ofList]
  exact notMem_of_mem_splitOn hpart

/-! ## Codes in a line -/

namespace DirtyCodeQueue

def line (queue : DirtyCodeQueue) : Line String := ⟨queue.items.keys, queue.items.nodup⟩

variable {debounceMs : Int} {queue : DirtyCodeQueue} {code : String}
  {reason : DirtyReason ⊕ String} {sourceEventId : String} {markedAt : Int}

theorem mem_line : code ∈ queue.line.order ↔ ∃ event, queue.items.get? code = some event :=
  mem_keys_iff

structure Marked (queue marked : DirtyCodeQueue) (code reason : String) : Prop where
  code_ne : code ≠ ""
  reason_ne : reason ≠ ""
  line : marked.line = queue.line.join code
  other : ∀ other, other ≠ code → marked.items.get? other = queue.items.get? other
  entry : ∃ sourceEventId now, marked.items.get? code =
    some (entryOf (queue.items.get? code) code reason sourceEventId now)

/-- A mark is refused and changes nothing, or its code is at the end of the queue with the reason
added. -/
theorem markDirty_cases (debounceMs : Int) (queue : DirtyCodeQueue) (code : String)
    (reason : DirtyReason ⊕ String) (sourceEventId : String) (markedAt : Int) :
    queue.markDirty debounceMs code reason sourceEventId markedAt = (queue, false) ∨
      (queue.markDirty debounceMs code reason sourceEventId markedAt).2 = true ∧
        Marked queue (queue.markDirty debounceMs code reason sourceEventId markedAt).1
          (cleanCode code) (reasonText reason) := by
  unfold markDirty
  dsimp only
  by_cases hcode : cleanCode code = ""
  · exact .inl (if_pos hcode)
  by_cases hreason : reasonText reason = ""
  · left
    rw [if_neg hcode, if_pos hreason]
  cases hdebounced : queue.debounced debounceMs (cleanCode code) (reasonText reason)
      (cleanTime markedAt) with
  | true =>
    left
    rw [if_neg hcode, if_neg hreason, if_pos rfl]
  | false =>
    right
    rw [if_neg hcode, if_neg hreason, if_neg Bool.false_ne_true]
    have habsent : (queue.items.filter fun other _ => other ≠ cleanCode code).get?
        (cleanCode code) = none := by
      rw [get?_filter]
      cases queue.items.get? (cleanCode code) with
      | none => rfl
      | some event => simp
    refine ⟨rfl, hcode, hreason, ?_, ?_, sourceEventId, cleanTime markedAt, ?_⟩
    · refine Line.ext ?_
      show (Dict.set _ _ _).keys = queue.items.keys.filter (· ≠ cleanCode code) ++ [_]
      rw [keys_set_of_absent _ _ habsent,
        keys_filter (q := fun other => other ≠ cleanCode code) _ fun _ _ _ => rfl]
    · intro other hother
      show (Dict.set _ _ _).get? other = _
      rw [get?_set_ne _ _ hother, get?_filter]
      cases queue.items.get? other with
      | none => rfl
      | some event => simp [hother]
    · exact get?_set_self ..

theorem line_popDirty (queue : DirtyCodeQueue) (limit : Int) :
    (queue.popDirty limit).1.line = queue.line.serve limit.toNat := by
  refine Line.ext ?_
  show (queue.items.entries.drop limit.toNat).map Prod.fst = queue.items.keys.drop limit.toNat
  exact map_drop

theorem get?_popDirty {limit : Int} (h : code ∈ (queue.popDirty limit).1.line.order) :
    (queue.popDirty limit).1.items.get? code = queue.items.get? code := by
  obtain ⟨event, hevent⟩ := mem_line.mp h
  rw [hevent]
  exact (mem_entries_iff.mp (mem_of_mem_drop (mem_entries_iff.mpr hevent))).symm

def Keyed (queue : DirtyCodeQueue) : Prop :=
  ∀ code event, queue.items.get? code = some event → event.code = code

theorem popDirty_returns (hkeyed : queue.Keyed) (limit : Int) :
    (∃ event ∈ (queue.popDirty limit).2, event.code = code) ↔
      code ∈ queue.line.order ∧ code ∉ (queue.popDirty limit).1.line.order := by
  have htaken : (∃ event ∈ (queue.popDirty limit).2, event.code = code) ↔
      code ∈ queue.items.keys.take limit.toNat := by
    show (∃ event ∈ (queue.items.entries.take limit.toNat).map Prod.snd, event.code = code) ↔
      code ∈ (queue.items.entries.map Prod.fst).take limit.toNat
    rw [← map_take]
    constructor
    · rintro ⟨event, hevent, rfl⟩
      obtain ⟨entry, hentry, rfl⟩ := mem_map.mp hevent
      have hget := mem_entries_iff.mp (mem_of_mem_take hentry)
      rw [hkeyed _ _ hget]
      exact mem_map_of_mem hentry
    · intro hcode
      obtain ⟨entry, hentry, rfl⟩ := mem_map.mp hcode
      have hget := mem_entries_iff.mp (mem_of_mem_take hentry)
      exact ⟨entry.2, mem_map_of_mem hentry, hkeyed _ _ hget⟩
  rw [htaken, line_popDirty]
  exact queue.line.mem_take_iff

theorem keyed_markDirty (h : queue.Keyed) :
    (queue.markDirty debounceMs code reason sourceEventId markedAt).1.Keyed := by
  rcases markDirty_cases debounceMs queue code reason sourceEventId markedAt with
    hrefused | ⟨-, hmarked⟩
  · rw [hrefused]
    exact h
  · intro other event hevent
    by_cases hother : other = cleanCode code
    · obtain ⟨sourceEventId, now, hentry⟩ := hmarked.entry
      rw [hother, hentry, Option.some.injEq] at hevent
      rw [← hevent, hother]
      cases queue.items.get? (cleanCode code) <;> rfl
    · rw [hmarked.other other hother] at hevent
      exact h other event hevent

theorem keyed_popDirty (h : queue.Keyed) (limit : Int) : (queue.popDirty limit).1.Keyed := by
  intro other event hevent
  refine h other event ?_
  rw [← get?_popDirty (mem_line.mpr ⟨event, hevent⟩), hevent]

theorem keyed_run (debounceMs : Int) (calls : List QueueCall) :
    ((dirtyCodeQueue debounceMs).run {} calls).Keyed := by
  refine Machine.run_preserves ?_ ?_ calls
  · intro queue call h
    cases call with
    | mark code reason sourceEventId markedAt => exact keyed_markDirty h
    | pop limit => exact keyed_popDirty h limit
  · intro code event hevent
    cases hevent

end DirtyCodeQueue

end TradingCore.DirtyCodes
