import TradingCore.Themes.BridgeReconciler

/-!
# The events of the bridge tell who is eligible

A consumer of the bridge sees its events and knows nothing else. Folded in order, the events of a
trade date give it after each call the pairs that are eligible then, and none of them is about a
pair that has not changed since the call before of that date (`FeedExact`).

The reconciler alone does not feed it so: it has one memory for all dates, and a pair that is
eligible as it was the day before gives no event on the next day. The pipeline restores the memory
from the rows of the date whenever the date changes.
-/

namespace TradingCore.Themes

open Base Candidates List Dict

/-! ## What a consumer makes of the events -/

def pairOf (event : CandidateSourceEvent) : String × String := (event.code, event.themeId)

def follow (pairs : Finset (String × String)) (event : CandidateSourceEvent) :
    Finset (String × String) :=
  if event.saysRemove then pairs.erase (pairOf event) else insert (pairOf event) pairs

def includedPairs (events : List CandidateSourceEvent) : Finset (String × String) :=
  events.foldl follow ∅

/-- The events of a trade date in some answers, in order. -/
def eventsOn (tradeDate : String) (answers : List (List CandidateSourceEvent)) :
    List CandidateSourceEvent :=
  answers.flatten.filter (·.tradeDate = tradeDate)

/-- The pair is eligible by one of the decisions. -/
def EligiblePair (decisions : List StockRoleDecision) (pair : String × String) : Prop :=
  ∃ decision ∈ decisions, decision.eligible = true ∧ decision.key = pair

/-- The eligible pairs of the last call on a trade date with their states. -/
def statesOn (sourceIdPrefix tradeDate : String) (past : List BridgeCall) :
    Dict (String × String) CandidateBridgeSourceState :=
  match past.reverse.find? (·.tradeDate = tradeDate) with
  | none => .empty
  | some call => eligibleStates sourceIdPrefix call.decisions

/-- After each call the events of its trade date leave the eligible pairs included, and each event
of a call is about a pair that has changed since the call before on that date. -/
structure FeedExact {σ : Type} (m : Machine σ BridgeCall (List CandidateSourceEvent))
    (sourceIdPrefix : String) (s : σ) (calls : List BridgeCall) : Prop where
  included : ∀ past call, past ++ [call] <+: calls → ∀ pair,
    pair ∈ includedPairs (eventsOn call.tradeDate (m.outputs s (past ++ [call]))) ↔
      EligiblePair call.decisions pair
  changed : ∀ past call, past ++ [call] <+: calls → ∀ event ∈ m.out (m.run s past) call,
    (statesOn sourceIdPrefix call.tradeDate past).get? (pairOf event) ≠
      (eligibleStates sourceIdPrefix call.decisions).get? (pairOf event)

def Advancing (calls : List BridgeCall) : Prop :=
  calls.Pairwise fun before after => before.tradeDate ≤ after.tradeDate

/-! ## Eligible pairs -/

def Keyed (states : Dict (String × String) CandidateBridgeSourceState) : Prop :=
  ∀ key state, states.get? key = some state → (state.code, state.themeId) = key

variable {sourceIdPrefix : String}

theorem get?_eligibleStates (decisions : List StockRoleDecision) (pair : String × String) :
    (eligibleStates sourceIdPrefix decisions).get? pair =
      ((decisions.filter (·.eligible)).reverse.find? (·.key = pair)).map
        (stateFromDecision sourceIdPrefix) := by
  unfold eligibleStates
  rw [get?_ofList, ← map_reverse, find?_map, Option.map_map]
  rfl

theorem keyed_eligibleStates (decisions : List StockRoleDecision) :
    Keyed (eligibleStates sourceIdPrefix decisions) := by
  intro key state hget
  rw [get?_eligibleStates] at hget
  obtain ⟨decision, hfound, rfl⟩ := Option.map_eq_some_iff.mp hget
  have hkey := find?_some hfound
  exact of_decide_eq_true hkey

theorem mem_keys_eligibleStates {decisions : List StockRoleDecision} {pair : String × String} :
    pair ∈ (eligibleStates sourceIdPrefix decisions).keys ↔ EligiblePair decisions pair := by
  rw [mem_keys_iff]
  constructor
  · rintro ⟨state, hget⟩
    rw [get?_eligibleStates] at hget
    obtain ⟨decision, hfound, -⟩ := Option.map_eq_some_iff.mp hget
    have hmem := mem_reverse.mp (mem_of_find?_eq_some hfound)
    have hkey := find?_some hfound
    obtain ⟨hlisted, heligible⟩ := mem_filter.mp hmem
    exact ⟨decision, hlisted, heligible, of_decide_eq_true hkey⟩
  · rintro ⟨decision, hlisted, heligible, hkey⟩
    have hsome : ((decisions.filter (·.eligible)).reverse.find? (·.key = pair)).isSome := by
      rw [find?_isSome]
      refine ⟨decision, ?_, decide_eq_true hkey⟩
      exact mem_reverse.mpr (mem_filter.mpr ⟨hlisted, heligible⟩)
    obtain ⟨found, hfound⟩ := Option.isSome_iff_exists.mp hsome
    exact ⟨stateFromDecision sourceIdPrefix found, by rw [get?_eligibleStates, hfound]; rfl⟩

/-! ## The events of a call -/

def eventOf (sourceType : String) (call : BridgeCall) :
    Change (String × String) CandidateBridgeSourceState → CandidateSourceEvent
  | .put _ state => eventFromState state call.tradeDate call.detectedAt sourceType "include"
  | .drop _ state => eventFromState state call.tradeDate call.detectedAt sourceType "remove"

theorem events_reconcile (r : CandidateBridgeSourceReconciler) (call : BridgeCall) :
    (r.reconcile call).2.events =
      (r.active.changesTo (eligibleStates r.sourceIdPrefix call.decisions)).map
        (eventOf r.sourceType call) := by
  unfold changesTo
  rw [map_append, map_map, map_map]
  rfl

variable {tradeDate sourceType : String} {call : BridgeCall} {past : List BridgeCall}
  {dates : String → Prop} {p : ThemeCoreV3RuntimePipeline}

theorem saysRemove_eventFromState {state : CandidateBridgeSourceState}
    {detectedAt eventType : String} :
    (eventFromState state tradeDate detectedAt sourceType eventType).saysRemove ↔
      Text.lower ((Value.str eventType).or (.str "")).text = "remove" := by
  unfold CandidateSourceEvent.saysRemove Mapping.textOr
  have hvalue : (eventFromState state tradeDate detectedAt sourceType
      eventType).rawPayload.value "event_type" = .str eventType := rfl
  rw [hvalue]

theorem eventOf_spec {old new : Dict (String × String) CandidateBridgeSourceState}
    (hold : Keyed old) (hnew : Keyed new)
    {change : Change (String × String) CandidateBridgeSourceState}
    (hmem : change ∈ old.changesTo new) :
    pairOf (eventOf sourceType call change) = change.key ∧
      ∀ pairs, follow pairs (eventOf sourceType call change) = change.apply pairs := by
  rcases mem_append.mp hmem with hput | hdrop
  · obtain ⟨entry, hentry, rfl⟩ := mem_map.mp hput
    have hpair : pairOf (eventOf sourceType call (.put entry.1 entry.2)) = entry.1 :=
      hnew entry.1 entry.2 (mem_putsTo.mp hentry).1
    refine ⟨hpair, fun pairs => ?_⟩
    have hincludes : ¬ (eventOf sourceType call (.put entry.1 entry.2)).saysRemove :=
      saysRemove_eventFromState.not.mpr (by decide)
    unfold follow
    rw [if_neg hincludes, hpair]
    rfl
  · obtain ⟨entry, hentry, rfl⟩ := mem_map.mp hdrop
    have hpair : pairOf (eventOf sourceType call (.drop entry.1 entry.2)) = entry.1 :=
      hold entry.1 entry.2 (mem_dropsTo.mp hentry).1
    refine ⟨hpair, fun pairs => ?_⟩
    have hremoves : (eventOf sourceType call (.drop entry.1 entry.2)).saysRemove :=
      saysRemove_eventFromState.mpr (by decide)
    unfold follow
    rw [if_pos hremoves, hpair]
    rfl

theorem foldl_follow (changes : List (Change (String × String) CandidateBridgeSourceState))
    (hchanges : ∀ change ∈ changes, ∀ pairs,
      follow pairs (eventOf sourceType call change) = change.apply pairs)
    (pairs : Finset (String × String)) :
    (changes.map (eventOf sourceType call)).foldl follow pairs =
      changes.foldl Change.apply pairs := by
  induction changes generalizing pairs with
  | nil => rfl
  | cons change rest ih =>
    rw [map_cons, foldl_cons, foldl_cons, hchanges change mem_cons_self]
    exact ih (fun later hlater => hchanges later (mem_cons_of_mem _ hlater)) _

theorem tradeDate_eventOf (sourceType : String) (call : BridgeCall)
    (change : Change (String × String) CandidateBridgeSourceState) :
    (eventOf sourceType call change).tradeDate = call.tradeDate := by
  cases change with
  | put key state => rfl
  | drop key state => rfl

theorem reconcile_exact {r : CandidateBridgeSourceReconciler} (hkeyed : Keyed r.active)
    (call : BridgeCall) {pairs : Finset (String × String)}
    (hpairs : ∀ pair, pair ∈ pairs ↔ pair ∈ r.active.keys) :
    (∀ pair, pair ∈ (r.reconcile call).2.events.foldl follow pairs ↔
      EligiblePair call.decisions pair) ∧
    (∀ event ∈ (r.reconcile call).2.events, event.tradeDate = call.tradeDate ∧
      r.active.get? (pairOf event) ≠
        (eligibleStates r.sourceIdPrefix call.decisions).get? (pairOf event)) := by
  have hspec := fun change hmem => @eventOf_spec r.sourceType call r.active
    (eligibleStates r.sourceIdPrefix call.decisions) hkeyed (keyed_eligibleStates _) change hmem
  rw [events_reconcile]
  refine ⟨fun pair => ?_, fun event hevent => ?_⟩
  · rw [foldl_follow _ fun change hmem => (hspec change hmem).2, mem_replay_changes hpairs,
      mem_keys_eligibleStates]
  · obtain ⟨change, hmem, rfl⟩ := mem_map.mp hevent
    refine ⟨tradeDate_eventOf r.sourceType call change, ?_⟩
    rw [(hspec change hmem).1]
    exact get?_ne_of_mem_changes hmem

/-! ## The calls of a trade date -/

theorem statesOn_of_notMem (h : ∀ call ∈ past, call.tradeDate ≠ tradeDate) :
    statesOn sourceIdPrefix tradeDate past = .empty := by
  have hnone : past.reverse.find? (·.tradeDate = tradeDate) = none := by
    rw [find?_eq_none]
    intro call hcall hdate
    exact h call (mem_reverse.mp hcall) (of_decide_eq_true hdate)
  unfold statesOn
  rw [hnone]

theorem statesOn_concat (tradeDate : String) (past : List BridgeCall) (call : BridgeCall) :
    statesOn sourceIdPrefix tradeDate (past ++ [call]) =
      if call.tradeDate = tradeDate then eligibleStates sourceIdPrefix call.decisions
      else statesOn sourceIdPrefix tradeDate past := by
  unfold statesOn
  rw [reverse_append, reverse_singleton, singleton_append, find?_cons]
  by_cases hdate : call.tradeDate = tradeDate
  · rw [if_pos hdate, decide_eq_true hdate]
  · rw [if_neg hdate, decide_eq_false hdate]

theorem keyed_statesOn (tradeDate : String) (past : List BridgeCall) :
    Keyed (statesOn sourceIdPrefix tradeDate past) := by
  unfold statesOn
  split
  · intro key state hget
    cases hget
  · exact keyed_eligibleStates _

variable {events : List CandidateSourceEvent} {table : BridgeSourceTable}

theorem eventsOn_concat_self (h : ∀ event ∈ events, event.tradeDate = tradeDate)
    (answers : List (List CandidateSourceEvent)) :
    eventsOn tradeDate (answers ++ [events]) = eventsOn tradeDate answers ++ events := by
  have hall : events.filter (·.tradeDate = tradeDate) = events := by
    rw [filter_eq_self]
    exact fun event hevent => decide_eq_true (h event hevent)
  unfold eventsOn
  rw [flatten_append, flatten_singleton, filter_append, hall]

theorem eventsOn_concat_ne {other : String} (h : ∀ event ∈ events, event.tradeDate = other)
    (hother : other ≠ tradeDate) (answers : List (List CandidateSourceEvent)) :
    eventsOn tradeDate (answers ++ [events]) = eventsOn tradeDate answers := by
  have hnone : events.filter (·.tradeDate = tradeDate) = [] := by
    rw [filter_eq_nil_iff]
    intro event hevent hdate
    exact hother ((h event hevent).symm.trans (of_decide_eq_true hdate))
  unfold eventsOn
  rw [flatten_append, flatten_singleton, filter_append, hnone, append_nil]

/-! ## What the pipeline remembers -/

def DatedBy (dates : String → Prop) (table : BridgeSourceTable) : Prop :=
  ∀ key row, table.get? key = some row → dates key.1

theorem DatedBy.saveState (h : DatedBy dates table) (hdate : dates tradeDate)
    (code themeId sourceId : String) (row : BridgeSourceRow) :
    DatedBy dates (table.saveState tradeDate code themeId sourceId row) := by
  unfold BridgeSourceTable.saveState
  dsimp only
  split
  · exact h
  · intro key found hget
    rw [get?_set] at hget
    split at hget
    · next hkey =>
        rw [hkey]
        exact hdate
    · exact h key found hget

theorem DatedBy.persist (h : DatedBy dates p.bridgeSourceState) (hdate : dates tradeDate)
    (result : CandidateBridgeReconcileResult) (calculatedAt : String) :
    DatedBy dates (p.persistBridgeSourceState result tradeDate calculatedAt).bridgeSourceState := by
  have hactive : DatedBy dates (result.activeState.foldl
      (ThemeCoreV3RuntimePipeline.saveActive tradeDate calculatedAt) p.bridgeSourceState) := by
    refine foldlRecOn result.activeState _ h ?_
    exact fun table htable state _ => htable.saveState hdate _ _ _ _
  refine foldlRecOn result.removeEvents _ hactive ?_
  exact fun table htable event _ => htable.saveState hdate _ _ _ _

theorem listActive_eq_nil (h : DatedBy dates table) (hdate : ¬ dates tradeDate) (limit : Nat) :
    table.listActive tradeDate limit = [] := by
  have hnone : (table.entries.filter fun entry => entry.1.1 = tradeDate ∧ entry.2.active) = [] := by
    rw [filter_eq_nil_iff]
    intro entry hentry hlisted
    have hget := h entry.1 entry.2 (mem_entries_iff.mp hentry)
    exact hdate ((of_decide_eq_true hlisted).1 ▸ hget)
  unfold BridgeSourceTable.listActive
  rw [hnone]
  exact take_nil

def newPipeline (sourceType sourceIdPrefix : String) : ThemeCoreV3RuntimePipeline where
  bridgeReconciler := { sourceType, sourceIdPrefix }

/-- After some calls: the memory is of the date that it was restored for, which is that of the last
call, and rows are only of dates of calls. -/
structure Remembers (sourceIdPrefix : String) (past : List BridgeCall)
    (p : ThemeCoreV3RuntimePipeline) : Prop where
  named : p.bridgeReconciler.sourceIdPrefix = sourceIdPrefix
  active : p.bridgeReconciler.active =
    statesOn sourceIdPrefix p.bridgeReconcilerRestoredTradeDate past
  restored : ∀ call ∈ past.getLast?, call.tradeDate = p.bridgeReconcilerRestoredTradeDate
  dated : DatedBy (fun date => ∃ call ∈ past, call.tradeDate = date) p.bridgeSourceState

theorem remembers_new (sourceType sourceIdPrefix : String) :
    Remembers sourceIdPrefix [] (newPipeline sourceType sourceIdPrefix) := by
  refine ⟨rfl, rfl, ?_, ?_⟩
  · intro call hcall
    cases hcall
  · intro key row hget
    cases hget

theorem tradeDate_ne_of_advancing (hadvancing : Advancing (past ++ [call]))
    (hlast : ∀ last ∈ past.getLast?, last.tradeDate ≠ call.tradeDate) :
    ∀ before ∈ past, before.tradeDate ≠ call.tradeDate := by
  intro before hbefore heq
  obtain ⟨front, last, rfl⟩ := eq_nil_or_concat past |>.resolve_left (ne_nil_of_mem hbefore)
  rw [concat_eq_append] at hlast hbefore hadvancing
  have hle := fun earlier hearlier => (pairwise_append.mp hadvancing).2.2 earlier hearlier call
    (mem_singleton_self call)
  have hnext := pairwise_append.mp (pairwise_append.mp hadvancing).1
  refine hlast last (by rw [getLast?_concat]; rfl) ?_
  rcases mem_append.mp hbefore with hfront | hthis
  · refine String.le_antisymm (hle last (mem_append_right _ (mem_singleton_self last))) ?_
    rw [← heq]
    exact hnext.2.2 before hfront last (mem_singleton_self last)
  · rw [← mem_singleton.mp hthis]
    exact heq

theorem Remembers.restore (h : Remembers sourceIdPrefix past p)
    (hadvancing : Advancing (past ++ [call])) :
    (p.restoreBridgeSourceState call.tradeDate).bridgeReconciler.active =
      statesOn sourceIdPrefix call.tradeDate past ∧
    (p.restoreBridgeSourceState call.tradeDate).bridgeReconciler.sourceIdPrefix = sourceIdPrefix ∧
    (p.restoreBridgeSourceState call.tradeDate).bridgeSourceState = p.bridgeSourceState ∧
    (p.restoreBridgeSourceState call.tradeDate).bridgeReconcilerRestoredTradeDate =
      call.tradeDate := by
  unfold ThemeCoreV3RuntimePipeline.restoreBridgeSourceState
  by_cases hdate : p.bridgeReconcilerRestoredTradeDate = call.tradeDate
  · rw [if_pos hdate]
    exact ⟨hdate ▸ h.active, h.named, rfl, hdate⟩
  · rw [if_neg hdate]
    refine ⟨?_, h.named, rfl, rfl⟩
    have hnew := tradeDate_ne_of_advancing hadvancing fun last hlast heq =>
      hdate ((h.restored last hlast).symm.trans heq)
    have hrows := listActive_eq_nil h.dated
      (fun ⟨before, hbefore, heq⟩ => hnew before hbefore heq) 3000
    rw [statesOn_of_notMem hnew]
    dsimp only
    rw [hrows]
    rfl

theorem Remembers.run (h : Remembers sourceIdPrefix past p)
    (hadvancing : Advancing (past ++ [call])) :
    Remembers sourceIdPrefix (past ++ [call]) (p.run call).1 := by
  obtain ⟨-, hids, htable, hrestored⟩ := h.restore hadvancing
  have hdated : DatedBy (fun date => ∃ before ∈ past ++ [call], before.tradeDate = date)
      (p.restoreBridgeSourceState call.tradeDate).bridgeSourceState := by
    rw [htable]
    intro key row hget
    obtain ⟨before, hbefore, hdate⟩ := h.dated key row hget
    exact ⟨before, mem_append_left _ hbefore, hdate⟩
  refine ⟨hids, ?_, ?_, ?_⟩
  · show eligibleStates (p.restoreBridgeSourceState call.tradeDate).bridgeReconciler.sourceIdPrefix
      call.decisions = statesOn sourceIdPrefix
        (p.restoreBridgeSourceState call.tradeDate).bridgeReconcilerRestoredTradeDate _
    rw [hids, hrestored, statesOn_concat, if_pos rfl]
  · intro last hlast
    rw [getLast?_concat] at hlast
    rw [← Option.some.inj hlast]
    exact hrestored.symm
  · exact DatedBy.persist hdated ⟨call, mem_append_right _ (mem_singleton_self call), rfl⟩ _ _

/-! ## Runs -/

/-- The pairs that the events of each date leave included are those of the last call on it. -/
def Fed (sourceIdPrefix : String) (past : List BridgeCall)
    (answers : List (List CandidateSourceEvent)) : Prop :=
  ∀ tradeDate pair, pair ∈ includedPairs (eventsOn tradeDate answers) ↔
    pair ∈ (statesOn sourceIdPrefix tradeDate past).keys

theorem fed_run {answers : List (List CandidateSourceEvent)} (h : Remembers sourceIdPrefix past p)
    (hfed : Fed sourceIdPrefix past answers) (hadvancing : Advancing (past ++ [call])) :
    Fed sourceIdPrefix (past ++ [call]) (answers ++ [(p.run call).2]) ∧
      ∀ event ∈ (p.run call).2,
        (statesOn sourceIdPrefix call.tradeDate past).get? (pairOf event) ≠
          (eligibleStates sourceIdPrefix call.decisions).get? (pairOf event) := by
  obtain ⟨hactive, hids, -, -⟩ := h.restore hadvancing
  have hpairs := hfed call.tradeDate
  rw [← hactive] at hpairs
  have hkeyed : Keyed (p.restoreBridgeSourceState call.tradeDate).bridgeReconciler.active := by
    rw [hactive]
    exact keyed_statesOn _ _
  obtain ⟨hincluded, hevents⟩ := reconcile_exact hkeyed call hpairs
  rw [hactive, hids] at hevents
  have hdates : ∀ event ∈ (p.run call).2, event.tradeDate = call.tradeDate :=
    fun event hevent => (hevents event hevent).1
  refine ⟨?_, fun event hevent => (hevents event hevent).2⟩
  intro tradeDate pair
  rw [statesOn_concat]
  by_cases hdate : call.tradeDate = tradeDate
  · rw [if_pos hdate, ← hdate, eventsOn_concat_self hdates, mem_keys_eligibleStates]
    unfold includedPairs
    rw [foldl_append]
    exact hincluded pair
  · rw [if_neg hdate, eventsOn_concat_ne hdates hdate]
    exact hfed tradeDate pair

/-- Where trade dates advance, the events of the pipeline tell a consumer of each date which pairs
are eligible after each call, and no event is about a pair that has not changed since the call
before on that date. -/
theorem bridge_feed_exact (sourceType sourceIdPrefix : String) {calls : List BridgeCall}
    (hadvancing : Advancing calls) :
    FeedExact bridgeMachine sourceIdPrefix (newPipeline sourceType sourceIdPrefix) calls := by
  have hstart := remembers_new sourceType sourceIdPrefix
  generalize newPipeline sourceType sourceIdPrefix = start at hstart
  have hpast : ∀ past, past <+: calls →
      Remembers sourceIdPrefix past (bridgeMachine.run start past) ∧
        Fed sourceIdPrefix past (bridgeMachine.outputs start past) := by
    refine prefix_induction ⟨hstart, fun _ _ => Iff.rfl⟩ ?_
    rintro past call hpre ⟨hremembers, hfed⟩
    have hadvances : Advancing (past ++ [call]) := hadvancing.sublist hpre.sublist
    rw [Machine.run_concat, Machine.outputs_append]
    exact ⟨hremembers.run hadvances, (fed_run hremembers hfed hadvances).1⟩
  refine ⟨?_, ?_⟩
  · intro past call hpre pair
    have hfed := (hpast _ hpre).2 call.tradeDate pair
    rw [statesOn_concat, if_pos rfl, mem_keys_eligibleStates] at hfed
    exact hfed
  · intro past call hpre
    obtain ⟨hremembers, hfed⟩ := hpast past ((prefix_append _ _).trans hpre)
    exact (fed_run hremembers hfed (hadvancing.sublist hpre.sublist)).2

/-! ## Fixed runs -/

def leaderDecision : StockRoleDecision where
  code := "000001"
  themeId := "ai"
  tradeRole := "LEADER_CONFIRMED"
  roleScore := 90
  themeState := some "LEADING_THEME"

def leadingDays : List BridgeCall :=
  [⟨[leaderDecision], "2026-06-19", "2026-06-19T09:20:00"⟩,
   ⟨[leaderDecision], "2026-06-22", "2026-06-22T09:20:00"⟩]

theorem advancing_leadingDays : Advancing leadingDays := by
  unfold Advancing
  decide +kernel

/-- The reconciler alone is silent about a leader of the day before. -/
theorem reconciler_silent_next_day :
    Advancing leadingDays ∧ ¬ FeedExact reconcilerMachine "theme_core_v3" {} leadingDays := by
  refine ⟨advancing_leadingDays, fun hexact => ?_⟩
  have hpair := (hexact.included [leadingDays[0]] leadingDays[1] (prefix_refl _)
    ("000001", "ai")).mpr ⟨leaderDecision, mem_singleton_self _, by decide, rfl⟩
  have hnone : (eventsOn "2026-06-22" (reconcilerMachine.outputs {} leadingDays)).length = 0 := by
    decide +kernel
  change ("000001", "ai") ∈
    includedPairs (eventsOn "2026-06-22" (reconcilerMachine.outputs {} leadingDays)) at hpair
  rw [length_eq_zero_iff.mp hnone] at hpair
  cases hpair

/-- The pipeline feeds the consumer of each of the two days. -/
theorem bridge_feed_exact_days :
    FeedExact bridgeMachine "theme_core_v3" (newPipeline "theme_board" "theme_core_v3")
      leadingDays :=
  bridge_feed_exact "theme_board" "theme_core_v3" advancing_leadingDays

end TradingCore.Themes
