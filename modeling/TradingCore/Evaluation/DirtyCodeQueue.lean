import TradingCore.Base.Dict
import TradingCore.Base.Text

/-!
# The queue of dirty codes

`DirtyCodeQueue` of `trading/strategy/market_data_service.py`: the codes to evaluate again, in the
order of their last mark, each with the reasons that marked it. A code is not marked twice for one
reason within the debounce time, whether or not its first mark is still in the queue. Times are in
microseconds, and the queue keeps whole seconds.
-/

namespace TradingCore.Evaluation

open Base

inductive DirtyReason
  | priceTick
  | candleBoundary
  | dataQualityChanged
  | spreadChanged
  | orderEvent
  | positionEvent
  | themeRoleChanged
  | marketRegimeChanged
  | themeStateChanged
  | themeLeaderChanged
  | themeExpansionTickReady
  | strategyContextChanged
deriving DecidableEq

/-- A text without the `A` of the market before six characters. -/
def dropMarket (text : String) : String :=
  if text.toList.head? = some 'A' ∧ text.length = 7 then .ofList (text.toList.drop 1) else text

/-- `_clean_code`, and `_normalize_code` of the evaluator. -/
@[irreducible]
def cleanCode (code : String) : String :=
  let text := dropMarket (Text.upper (Text.strip code))
  let digits := text.toList.filter Char.isDigit
  if digits ≠ [] then Text.zfill 6 (.ofList digits) else text

/-- `_clean_time`: the whole second of a time. -/
def cleanTime (time : Int) : Int := time / 1000000

/-- `DirtyCodeEvent`, with the reasons that are joined in its text. -/
structure DirtyCodeEvent where
  code : String
  reasons : List DirtyReason
  sourceEventId : String
  markedAt : Int

structure DirtyCodeQueue where
  items : Dict String DirtyCodeEvent := .empty
  lastMarkedAt : Dict (String × DirtyReason) Int := .empty

namespace DirtyCodeQueue

/-- The mark comes within the debounce time of the last one for the same code and reason. -/
def debounced (debounceMs : Int) (queue : DirtyCodeQueue) (code : String) (reason : DirtyReason)
    (now : Int) : Bool :=
  match queue.lastMarkedAt.get? (code, reason) with
  | none => false
  | some previous => 0 < debounceMs ∧ (now - previous) * 1000 < debounceMs

def entryOf (existing : Option DirtyCodeEvent) (code : String) (reason : DirtyReason)
    (sourceEventId : String) (now : Int) : DirtyCodeEvent :=
  match existing with
  | none => { code, reasons := [reason], sourceEventId, markedAt := now }
  | some existing =>
      { code
        reasons :=
          if existing.reasons = [reason] then [reason] else existing.reasons ++ [reason]
        sourceEventId := if sourceEventId ≠ "" then sourceEventId else existing.sourceEventId
        markedAt := now }

/-- `mark_dirty`, answering whether the code is marked. -/
def markDirty (debounceMs : Int) (queue : DirtyCodeQueue) (code : String) (reason : DirtyReason)
    (sourceEventId : String) (markedAt : Int) : DirtyCodeQueue × Bool :=
  let code := cleanCode code
  let now := cleanTime markedAt
  if code = "" then (queue, false)
  else if queue.debounced debounceMs code reason now then (queue, false)
  else
    ({ items := (queue.items.filter fun other _ => other ≠ code).set code
         (entryOf (queue.items.get? code) code reason sourceEventId now)
       lastMarkedAt := queue.lastMarkedAt.set (code, reason) now }, true)

/-- `pop_dirty`: the first entries, and the queue without them. -/
def popDirty (queue : DirtyCodeQueue) (limit : Int) : DirtyCodeQueue × List DirtyCodeEvent :=
  let popped := queue.items.entries.take limit.toNat
  ({ queue with items := queue.items.filter fun code _ => code ∉ popped.map Prod.fst },
    popped.map Prod.snd)

/-! ## Lookup -/

@[simp] theorem entryOf_code (existing : Option DirtyCodeEvent) (code : String)
    (reason : DirtyReason) (sourceEventId : String) (now : Int) :
    (entryOf existing code reason sourceEventId now).code = code := by
  cases existing <;> rfl

variable {code sourceEventId : String} {reason : DirtyReason} {queue : DirtyCodeQueue}

theorem mem_entryOf_reasons {existing : Option DirtyCodeEvent} {now : Int} {known : DirtyReason} :
    known ∈ (entryOf existing code reason sourceEventId now).reasons ↔
      known = reason ∨ ∃ event ∈ existing, known ∈ event.reasons := by
  cases existing with
  | none => simp [entryOf]
  | some event =>
    unfold entryOf
    dsimp only
    split
    · next hsame => simp [hsame]
    · simp [or_comm]

/-- A mark leaves the entry of its code with the reason added, and the other entries alone. -/
theorem get?_markDirty {debounceMs : Int} {markedAt : Int} (hcode : cleanCode code ≠ "")
    (hfresh : queue.debounced debounceMs (cleanCode code) reason (cleanTime markedAt) = false)
    (other : String) :
    (queue.markDirty debounceMs code reason sourceEventId markedAt).1.items.get? other =
      if other = cleanCode code then
        some (entryOf (queue.items.get? (cleanCode code)) (cleanCode code) reason sourceEventId
          (cleanTime markedAt))
      else queue.items.get? other := by
  unfold markDirty
  dsimp only
  rw [if_neg hcode, hfresh, if_neg Bool.false_ne_true]
  dsimp only
  rw [Dict.get?_set]
  by_cases hother : other = cleanCode code
  · rw [if_pos hother, if_pos hother]
  · rw [if_neg hother, if_neg hother, Dict.get?_filter]
    cases queue.items.get? other with
    | none => rfl
    | some event => simp [hother]

theorem markDirty_of_debounced {debounceMs : Int} {markedAt : Int} (h : cleanCode code = "" ∨
      queue.debounced debounceMs (cleanCode code) reason (cleanTime markedAt) = true) :
    (queue.markDirty debounceMs code reason sourceEventId markedAt).1 = queue := by
  unfold markDirty
  dsimp only
  rcases h with h | h
  · rw [if_pos h]
  · rw [h, if_pos rfl, ite_self]

theorem popDirty_cases {event : DirtyCodeEvent} (limit : Int)
    (h : queue.items.get? code = some event) :
    event ∈ (queue.popDirty limit).2 ∨ (queue.popDirty limit).1.items.get? code = some event := by
  by_cases hpopped : code ∈ (queue.items.entries.take limit.toNat).map Prod.fst
  · left
    obtain ⟨entry, hentry, rfl⟩ := List.mem_map.mp hpopped
    have hsome : queue.items.get? entry.1 = some entry.2 :=
      Dict.mem_entries_iff.mp (List.mem_of_mem_take hentry)
    rw [hsome, Option.some.injEq] at h
    exact List.mem_map.mpr ⟨entry, hentry, h⟩
  · right
    show (queue.items.filter _).get? code = some event
    rw [Dict.get?_filter, h, Option.filter_some, if_pos (by simpa using hpopped)]

end DirtyCodeQueue

end TradingCore.Evaluation
