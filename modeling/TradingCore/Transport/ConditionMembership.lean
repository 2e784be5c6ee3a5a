import TradingCore.Transport.ConditionBatch

/-!
# What a batch says about the conditions

Core reads the events in order and keeps, for every condition and code, whether the code is in the
result of the condition. `Preserves` compares what the produced batches tell it with what the
events themselves say.

* `write_eq_of_batchKey` — the batch key tells condition, code and action;
* `Faithful` — the pending batch is the window coalesced under that key, and so is every batch sent;
* `preserves_iff` — the batches preserve the final state precisely if, for each condition and code,
  the last event that opened an entry of its own says the same as the last event: an event that
  comes back to an earlier action lands in the earlier entry.
-/

namespace TradingCore.Transport

open Base Broker ConditionEvent List

/-! ## Reading the events -/

structure ConditionCode where
  name : String
  index : String
  code : String
deriving DecidableEq

namespace ConditionEvent

/-- What an event is about, and whether the code is in afterwards. -/
def write (e : ConditionEvent) : ConditionCode × Bool :=
  (⟨conditionName e.payload, conditionIndex e.payload, conditionCode e.payload⟩,
    conditionAction e.payload ≠ "remove")

/-- The batch key, `none` for an event that is never replaced. -/
def batchKey (e : ConditionEvent) : Option String :=
  if conditionEventBatchKey e.toGatewayEvent = "" then none
  else some (conditionEventBatchKey e.toGatewayEvent)

end ConditionEvent

def applyEvents (members : ConditionCode → Bool) (events : List ConditionEvent) :
    ConditionCode → Bool :=
  writeAll members (events.map write)

def lastChange (events : List ConditionEvent) (c : ConditionCode) : Option Bool :=
  lastWrite (events.map write) c

/-! ## What the batch key tells -/

theorem bar_notMem_codeDigits (text : List Char) : '|' ∉ (codeDigits text).toList := by
  unfold codeDigits
  split
  · simp
  · rw [Text.zfill, String.toList_ofList, leftpad, String.toList_ofList]
    intro h
    rcases mem_append.mp h with h' | h'
    · have hzero := eq_of_mem_replicate h'
      cases hzero
    · have hdigit := (mem_filter.mp h').2
      cases hdigit

theorem bar_notMem_conditionCode (payload : Mapping) :
    '|' ∉ (conditionCode payload).toList := by
  rw [conditionCode, cleanCode]
  exact bar_notMem_codeDigits _

theorem bar_notMem_action (e : ConditionEvent) : '|' ∉ (conditionAction e.payload).toList := by
  rcases e.known with h | h
  · rw [h]
    decide
  · rw [h]
    decide

theorem batchKey_eq_some {e : ConditionEvent} {k : String} (h : e.batchKey = some k) :
    k = conditionName e.payload ++ "|" ++ conditionIndex e.payload ++ "|" ++
        conditionCode e.payload ++ "|" ++ conditionAction e.payload ++ "|" ++
        payloadText e.payload ["source"] ++ "|" ++
        payloadText e.payload ["strategy_profile", "profile"] ++ "|" ++
        payloadText e.payload ["purpose"] := by
  unfold batchKey at h
  split at h
  · cases h
  · rename_i hne
    injection h with hk
    rw [← hk]
    unfold conditionEventBatchKey at hne ⊢
    by_cases hcode : conditionCode e.payload = ""
    · simp [hcode] at hne
    · simp only [e.isCondition, ne_eq, not_true_eq_false, if_false, hcode]
      rfl

theorem append_bar_inj {a b a' b' : String} (hb : '|' ∉ b.toList) (hb' : '|' ∉ b'.toList)
    (h : a ++ "|" ++ b = a' ++ "|" ++ b') : a = a' ∧ b = b' := by
  have hlist : a.toList ++ '|' :: b.toList = a'.toList ++ '|' :: b'.toList := by
    have h' := congrArg String.toList h
    simpa [String.toList_append] using h'
  obtain ⟨h₁, h₂⟩ := Text.append_sep_inj hb hb' hlist
  exact ⟨String.toList_inj.mp h₁, String.toList_inj.mp h₂⟩

theorem write_eq_of_batchKey (e f : ConditionEvent) (k : String) (he : e.batchKey = some k)
    (hf : f.batchKey = some k) : e.write = f.write := by
  have hkey := (batchKey_eq_some he).symm.trans (batchKey_eq_some hf)
  have plain : ∀ (g : ConditionEvent) (text : String), text ∈ plainTexts g.payload →
      '|' ∉ text.toList := fun g => g.plain
  -- peel the parts of the key off, the last one first
  obtain ⟨hkey, -⟩ := append_bar_inj (plain e _ (by simp [plainTexts]))
    (plain f _ (by simp [plainTexts])) hkey
  obtain ⟨hkey, -⟩ := append_bar_inj (plain e _ (by simp [plainTexts]))
    (plain f _ (by simp [plainTexts])) hkey
  obtain ⟨hkey, -⟩ := append_bar_inj (plain e _ (by simp [plainTexts]))
    (plain f _ (by simp [plainTexts])) hkey
  obtain ⟨hkey, haction⟩ := append_bar_inj (bar_notMem_action e) (bar_notMem_action f) hkey
  obtain ⟨hkey, hcode⟩ := append_bar_inj (bar_notMem_conditionCode _)
    (bar_notMem_conditionCode _) hkey
  obtain ⟨hname, hindex⟩ := append_bar_inj (plain e _ (by simp [plainTexts]))
    (plain f _ (by simp [plainTexts])) hkey
  rw [write, write, hname, hindex, hcode, haction]

/-! ## The batch is the window, coalesced -/

theorem appendConditionBatchEvent_eq (pending : List ConditionEvent) (event : ConditionEvent) :
    (appendConditionBatchEvent pending event).1 = absorb batchKey pending event := by
  by_cases hk : conditionEventBatchKey event.toGatewayEvent = ""
  · simp [appendConditionBatchEvent, absorb, batchKey, hk]
  · have hsame : ∀ e : ConditionEvent,
        decide (conditionEventBatchKey e.toGatewayEvent = conditionEventBatchKey event.toGatewayEvent)
          = decide (e.batchKey = some (conditionEventBatchKey event.toGatewayEvent)) := by
      intro e
      by_cases he : conditionEventBatchKey e.toGatewayEvent = ""
      · simp [batchKey, he, Ne.symm hk]
      · simp [batchKey, he]
    have hkey : event.batchKey = some (conditionEventBatchKey event.toGatewayEvent) := by
      simp [batchKey, hk]
    simp only [appendConditionBatchEvent, absorb, hkey, ne_eq, hk, not_false_eq_true, if_true,
      hsame]
    cases replaceLast (fun e : ConditionEvent =>
        decide (e.batchKey = some (conditionEventBatchKey event.toGatewayEvent))) event pending with
    | some pending' => rfl
    | none => rfl

theorem drainConditionEvents_eq (maxSize : Nat) (pending queue : List ConditionEvent) :
    ∃ taken rest, queue = taken ++ rest ∧
      drainConditionEvents maxSize pending queue
        = (taken.foldl (absorb batchKey) pending, rest) := by
  induction queue generalizing pending with
  | nil => exact ⟨[], [], rfl, rfl⟩
  | cons event queue ih =>
    by_cases hroom : pending.length < maxSize
    · obtain ⟨taken, rest, hq, hd⟩ := ih (appendConditionBatchEvent pending event).1
      refine ⟨event :: taken, rest, by rw [hq]; rfl, ?_⟩
      rw [drainConditionEvents, if_pos hroom, hd, appendConditionBatchEvent_eq]
      rfl
    · exact ⟨[], event :: queue, rfl, by rw [drainConditionEvents, if_neg hroom]; rfl⟩

namespace ConditionBatcher

def Faithful (b : ConditionBatcher) : Prop :=
  b.pending = coalesce batchKey b.window ∧ b.sent = b.closed.map (coalesce batchKey)

theorem act_faithful {b : ConditionBatcher} {a : BatchAction} (h : b.Faithful) :
    (b.act a).Faithful := by
  obtain ⟨hpending, hsent⟩ := h
  cases a with
  | post event => exact ⟨hpending, hsent⟩
  | drain =>
    obtain ⟨taken, rest, hq, hd⟩ :=
      drainConditionEvents_eq (boundOr 100 b.maxSize) b.pending b.queue
    have hlen : b.queue.take (b.queue.length - rest.length) = taken := by
      rw [hq, length_append, Nat.add_sub_cancel, take_left']
      rfl
    refine ⟨?_, hsent⟩
    show (drainConditionEvents _ b.pending b.queue).1 = coalesce _ (b.window ++ _)
    rw [hd, hlen, coalesce, foldl_append, ← coalesce, ← hpending]
  | send =>
    show b.send.Faithful
    by_cases hnil : b.pending = []
    · rw [send, if_pos hnil]
      exact ⟨hpending, hsent⟩
    · rw [send, if_neg hnil]
      refine ⟨rfl, ?_⟩
      show b.sent ++ [b.pending] = (b.closed ++ [b.window]).map _
      rw [map_append, ← hsent, hpending]
      rfl

/-! ## The final state -/

def openers (b : ConditionBatcher) : List ConditionEvent :=
  b.windows.flatMap (introducers batchKey)

/-- The produced batches leave every membership as the drained events do; and the
last batch event about each condition and code says what the last event said. -/
def Preserves (b : ConditionBatcher) : Prop :=
  (∀ members, applyEvents members b.produced = applyEvents members b.windows.flatten) ∧
    ∀ c, lastChange b.produced c = lastChange b.windows.flatten c

def LastOpenerCurrent (b : ConditionBatcher) : Prop :=
  ∀ c, lastChange b.openers c = lastChange b.windows.flatten c

theorem produced_map_write {b : ConditionBatcher} (h : b.Faithful) :
    b.produced.map write = b.openers.map write := by
  have hwindow : ∀ w, (coalesce batchKey w).map write
      = (introducers batchKey w).map write :=
    coalesce_map write_eq_of_batchKey
  have hclosed : ∀ ws : List (List ConditionEvent),
      (ws.map (coalesce batchKey)).flatten.map write
        = (ws.flatMap (introducers batchKey)).map write := by
    intro ws
    induction ws with
    | nil => rfl
    | cons w rest ih =>
      rw [map_cons, flatten_cons, map_append, ih, hwindow w, flatMap_cons, map_append]
  rw [produced, h.1, h.2, openers, windows, map_append, hclosed, hwindow,
    flatMap_append, map_append, flatMap_singleton]

/-- Whatever is queued, drained and sent, in whatever order: the batches preserve the
final state of every condition and code precisely if the last event that opened an
entry of its own is up to date. -/
theorem preserves_iff_lastOpenerCurrent (maxSize : Int) (actions : List BatchAction) :
    (machine.run { maxSize } actions).Preserves ↔
      (machine.run { maxSize } actions).LastOpenerCurrent := by
  have hfaithful : (machine.run { maxSize } actions).Faithful :=
    Machine.run_preserves (fun b a => act_faithful (b := b) (a := a)) ⟨rfl, rfl⟩ actions
  have hsame := produced_map_write hfaithful
  generalize machine.run { maxSize } actions = b at hfaithful hsame
  have hlast : ∀ c, lastChange b.produced c = lastChange b.openers c := by
    intro c
    rw [lastChange, hsame, lastChange]
  constructor
  · intro h c
    rw [← hlast c]
    exact h.2 c
  · intro h
    have hchange : ∀ c, lastChange b.produced c = lastChange b.windows.flatten c := by
      intro c
      rw [hlast c, h c]
    exact ⟨writeAll_eq_iff.mpr hchange, hchange⟩

/-- The stock 005930 enters the result of the condition "entry", leaves it and comes
back. -/
def reentryRun : List BatchAction :=
  [.post (kiwoomConditionEvent "evt-1" "005930" "entry" 7 "I"),
   .post (kiwoomConditionEvent "evt-2" "005930" "entry" 7 "D"),
   .post (kiwoomConditionEvent "evt-3" "005930" "entry" 7 "I"), .drain, .send]

/-- The second include lands in the entry of the first one, in front of the remove:
Core ends up without the stock. -/
theorem reentry_is_lost : ¬ (machine.run {} reentryRun).Preserves := by
  intro h
  have hlast := h.2 ⟨"entry", "7", "005930"⟩
  exact absurd hlast (by decide)

end ConditionBatcher

end TradingCore.Transport
