import TradingCore.MarketData.MarketDataService

/-!
# How fresh a snapshot is

The snapshot of a code says whether its tick is fresh. That is judged once, when the tick is
handled, and with the time of the tick for the present: the age is nought, and every snapshot is
fresh for ever, or none is where the age allowed is below nought.

* `dated_run` — in every run, the snapshot of a code is that of its last tick handled, and as fresh
  as any;
* `fresh_iff_read_in_time` — so it is right to call it fresh only where it is read in time.
-/

namespace TradingCore.MarketData

open Base Candidates Evaluation Option List

/-! ## What is asked for -/

/-- A tick of a whole second is at most as old as allowed, at a time in microseconds. -/
def Recent (config : MarketDataServiceConfig) (tickAt now : Int) : Prop :=
  now - tickAt * 1000000 ≤ config.maxTickAgeSec * 1000000
deriving Decidable

/-- The code that a step reads the snapshot of, and when. -/
def readOf : MarketStep → Option (String × Int)
  | .latestSnapshot code now => some (code, now)
  | .fsmTarget decision now => some (decision.code, now)
  | _ => none

/-- A snapshot that is read and called fresh, or not called stale, is of a recent tick. -/
def FreshIsFresh (config : MarketDataServiceConfig) (service : MarketDataService)
    (step : MarketStep) : Prop :=
  ∀ code now, readOf step = some (code, now) →
    ∀ snapshot, service.latestSnapshot code = some snapshot →
      snapshot.isFresh ∨ "STALE_TICK" ∉ snapshot.reasonCodes → Recent config snapshot.tickAt now

/-- A candidate passes the stage of the data only on a recent tick. -/
def StagedOnRecent (config : MarketDataServiceConfig) (service : MarketDataService)
    (step : MarketStep) : Prop :=
  ∀ decision now, step = .fsmTarget decision now →
    (fsmTarget decision (service.latestSnapshot decision.code)).1 ≠ .data →
    ∃ snapshot, service.latestSnapshot decision.code = some snapshot ∧
      Recent config snapshot.tickAt now

def handledAt (code : String) : MarketStep × MarketAnswer → Option Int
  | (.priceTick payload _ clock, .handled true) =>
      if cleanCode payload.code = code then some (cleanTime clock) else none
  | _ => none

/-- The second of the last tick of a code that is handled in a run. -/
def lastHandled (config : MarketDataServiceConfig) (steps : List MarketStep) (code : String) :
    Option Int :=
  ((steps.zip ((marketDataService config).outputs {} steps)).filterMap (handledAt code)).getLast?

/-- The snapshot that a step reads is of a tick that was handled at most as long ago as allowed. -/
def ReadInTime (config : MarketDataServiceConfig) (past : List MarketStep) (step : MarketStep) :
    Prop :=
  ∀ code now, readOf step = some (code, now) →
    ∀ tickAt, lastHandled config past (cleanCode code) = some tickAt → Recent config tickAt now

/-! ## Ticks -/

namespace MarketDataStore

theorem latestTicks_keep (store : MarketDataStore) (tick : StrategyTick) :
    (store.keep tick).latestTicks.get? tick.code = some tick := by
  show (store.latestTicks.set tick.code tick).get? tick.code = some tick
  rw [Dict.get?_set_self]

theorem updateTick_latest {store : MarketDataStore} {tick : StrategyTick}
    (h : (store.updateTick tick).2 = true) :
    ∃ kept, (store.updateTick tick).1.latestTicks.get? tick.code = some kept ∧
      kept.timestamp = tick.timestamp := by
  unfold updateTick at h ⊢
  split at h
  · cases h
  · next hnew =>
      rw [if_neg hnew]
      cases hprevious : store.latestTicks.get? tick.code with
      | none => exact ⟨tick, store.latestTicks_keep tick, rfl⟩
      | some previous =>
        dsimp only
        split
        · exact ⟨_, store.latestTicks_keep (mergeMissingPriceTick previous tick), rfl⟩
        · exact ⟨tick, store.latestTicks_keep tick, rfl⟩

end MarketDataStore

/-! ## Snapshots -/

theorem mem_ite_singleton {p : Prop} [Decidable p] {text known : String} :
    known ∈ (if p then [text] else []) ↔ p ∧ known = text := by
  split <;> simp [*]

theorem stale_mem_dataQuality {config : MarketDataServiceConfig} {tick : StrategyTick}
    {ageSec : Int} :
    "STALE_TICK" ∈ (dataQuality config tick ageSec).2 ↔ config.maxTickAgeSec < ageSec := by
  have hmem : "STALE_TICK" ∈ qualityReasons config tick ageSec ↔
      config.maxTickAgeSec < ageSec := by
    unfold qualityReasons
    simp only [mem_append, mem_ite_singleton, String.reduceEq, and_true, and_false, or_false]
  unfold dataQuality
  dsimp only
  split
  · next hnone =>
      rw [hnone] at hmem
      rw [← hmem]
      exact iff_of_false (by decide) not_mem_nil
  · split <;> exact hmem

theorem snapshotFromTick_fresh (config : MarketDataServiceConfig) (tick : StrategyTick)
    (sourceEventId : String) :
    ((snapshotFromTick config tick sourceEventId tick.timestamp).isFresh = true ↔
      0 ≤ config.maxTickAgeSec) ∧
    ("STALE_TICK" ∉ (snapshotFromTick config tick sourceEventId tick.timestamp).reasonCodes ↔
      0 ≤ config.maxTickAgeSec) := by
  have hage : max 0 (tick.timestamp - tick.timestamp) = 0 := by omega
  unfold snapshotFromTick
  dsimp only
  rw [hage, stale_mem_dataQuality, not_lt]
  refine ⟨?_, Iff.rfl⟩
  by_cases hallowed : 0 ≤ config.maxTickAgeSec <;> simp [hallowed]

namespace MarketDataService

@[simp] theorem latestSnapshots_markDirty (config : MarketDataServiceConfig)
    (service : MarketDataService) (code : String) (reason : DirtyReason) (sourceEventId : String)
    (markedAt : Int) : (service.markDirty config code reason sourceEventId markedAt).latestSnapshots =
      service.latestSnapshots := by
  unfold markDirty
  split <;> rfl

@[simp] theorem latestSnapshots_markDirtyIf (config : MarketDataServiceConfig) (condition : Bool)
    (service : MarketDataService) (code : String) (reason : DirtyReason) (sourceEventId : String)
    (markedAt : Int) :
    (service.markDirtyIf config condition code reason sourceEventId markedAt).latestSnapshots =
      service.latestSnapshots := by
  unfold markDirtyIf
  split
  · exact latestSnapshots_markDirty ..
  · rfl

theorem latestSnapshots_publish (config : MarketDataServiceConfig) (service : MarketDataService)
    (code : String) (tick : StrategyTick) (sourceEventId : String) (boundary : Bool) :
    (service.publish config code tick sourceEventId boundary).latestSnapshots =
      service.latestSnapshots.set code
        (snapshotFromTick config tick sourceEventId tick.timestamp) := by
  simp [publish]

theorem latestSnapshots_onRealtimeTick (service : MarketDataService) (payload : PriceTick)
    (code : String) (clock : Int) :
    (service.onRealtimeTick payload code clock).1.latestSnapshots = service.latestSnapshots := by
  unfold onRealtimeTick
  dsimp only
  split <;> rfl

theorem strategyTick_code (service : MarketDataService) (payload : PriceTick) (code : String)
    (clock : Int) : (service.strategyTick payload code clock).code = normalizeCode code := by
  unfold strategyTick
  dsimp only

theorem strategyTick_timestamp (service : MarketDataService) (payload : PriceTick) (code : String)
    (clock : Int) : (service.strategyTick payload code clock).timestamp = cleanTime clock := by
  unfold strategyTick
  dsimp only

theorem onRealtimeTick_latest {service : MarketDataService} {payload : PriceTick} {code : String}
    {clock : Int} (h : (service.onRealtimeTick payload code clock).2 = true) :
    ∃ tick, (service.onRealtimeTick payload code clock).1.marketData.latestTick code = some tick ∧
      tick.timestamp = cleanTime clock := by
  unfold onRealtimeTick at h ⊢
  dsimp only at h ⊢
  cases hupdated : (service.marketData.updateTick (service.strategyTick payload code clock)).2 with
  | false =>
    rw [hupdated] at h
    cases h
  | true =>
    obtain ⟨kept, hkept, htime⟩ := MarketDataStore.updateTick_latest hupdated
    rw [strategyTick_code] at hkept
    rw [strategyTick_timestamp] at htime
    rw [if_neg (by simp)]
    exact ⟨kept, hkept, htime⟩

/-- A price tick that is handled puts a snapshot of it in its place; one that is not leaves the
snapshots alone. -/
theorem handlePriceTick_cases (config : MarketDataServiceConfig) (service : MarketDataService)
    (payload : PriceTick) (sourceEventId : String) (clock : Int) :
    ((service.handlePriceTick config payload sourceEventId clock).2 = false ∧
      (service.handlePriceTick config payload sourceEventId clock).1.latestSnapshots =
        service.latestSnapshots) ∨
    ((service.handlePriceTick config payload sourceEventId clock).2 = true ∧
      ∃ tick, tick.timestamp = cleanTime clock ∧
        (service.handlePriceTick config payload sourceEventId clock).1.latestSnapshots =
          service.latestSnapshots.set (cleanCode payload.code)
            (snapshotFromTick config tick sourceEventId tick.timestamp)) := by
  have hkept := service.latestSnapshots_onRealtimeTick payload (cleanCode payload.code) clock
  unfold handlePriceTick
  dsimp only
  by_cases hskip : config.enabled = false ∨ cleanCode payload.code = ""
  · rw [if_pos hskip]
    exact .inl ⟨rfl, rfl⟩
  rw [if_neg hskip]
  cases hrouted : (service.onRealtimeTick payload (cleanCode payload.code) clock).2 with
  | false =>
    rw [if_pos rfl]
    exact .inl ⟨hrouted, hkept⟩
  | true =>
    obtain ⟨tick, htick, htime⟩ := onRealtimeTick_latest hrouted
    rw [if_neg (by simp), htick]
    exact .inr ⟨rfl, tick, htime, by rw [latestSnapshots_publish, hkept]⟩

end MarketDataService

/-! ## Runs -/

theorem lastHandled_concat (config : MarketDataServiceConfig) (past : List MarketStep)
    (step : MarketStep) (code : String) :
    lastHandled config (past ++ [step]) code =
      (handledAt code (step, (marketDataService config).out
        ((marketDataService config).run {} past) step)).or (lastHandled config past code) := by
  unfold lastHandled
  rw [Machine.zip_outputs_concat, filterMap_append]
  generalize (marketDataService config).out ((marketDataService config).run {} past) step = answer
  cases hhandled : handledAt code (step, answer) with
  | none => simp only [filterMap_cons_none hhandled, filterMap_nil, append_nil,
      none_or]
  | some tickAt => simp only [filterMap_cons_some hhandled, filterMap_nil,
      getLast?_concat, some_or]

theorem handledAt_eq_none {code : String} {step : MarketStep} {answer : MarketAnswer}
    (h : ∀ payload sourceEventId clock, step ≠ .priceTick payload sourceEventId clock) :
    handledAt code (step, answer) = none := by
  cases step with
  | priceTick payload sourceEventId clock => exact absurd rfl (h payload sourceEventId clock)
  | themeBackfill payload clock => rfl
  | popDirty limit => rfl
  | latestSnapshot code now => rfl
  | fsmTarget decision now => rfl

/-- The snapshots are those of the last ticks handled, each as fresh as any. -/
structure Dated (config : MarketDataServiceConfig) (past : List MarketStep)
    (service : MarketDataService) : Prop where
  tickAt : ∀ code, (service.latestSnapshots.get? code).map (·.tickAt) = lastHandled config past code
  fresh : ∀ code snapshot, service.latestSnapshots.get? code = some snapshot →
    (snapshot.isFresh = true ↔ 0 ≤ config.maxTickAgeSec) ∧
      ("STALE_TICK" ∉ snapshot.reasonCodes ↔ 0 ≤ config.maxTickAgeSec)

variable {config : MarketDataServiceConfig} {past : List MarketStep} {service : MarketDataService}

theorem Dated.frame (h : Dated config past service) {service' : MarketDataService}
    {steps : List MarketStep} (hkept : service'.latestSnapshots = service.latestSnapshots)
    (hlast : ∀ code, lastHandled config steps code = lastHandled config past code) :
    Dated config steps service' := by
  refine ⟨fun code => ?_, fun code snapshot hsnapshot => ?_⟩
  · rw [hkept, h.tickAt, hlast]
  · rw [hkept] at hsnapshot
    exact h.fresh code snapshot hsnapshot

theorem dated_step (h : Dated config past ((marketDataService config).run {} past))
    (step : MarketStep) :
    Dated config (past ++ [step]) ((marketDataService config).run {} (past ++ [step])) := by
  have hlast := lastHandled_concat config past step
  rw [Machine.run_concat]
  generalize (marketDataService config).run {} past = service at h hlast ⊢
  cases step with
  | priceTick payload sourceEventId clock =>
    show Dated _ _ (service.handlePriceTick config payload sourceEventId clock).1
    have hout : (marketDataService config).out service (.priceTick payload sourceEventId clock) =
        .handled (service.handlePriceTick config payload sourceEventId clock).2 := rfl
    rcases service.handlePriceTick_cases config payload sourceEventId clock with
      ⟨hrefused, hkept⟩ | ⟨hhandled, tick, htime, hset⟩
    · refine h.frame hkept fun code => ?_
      rw [hlast, hout, hrefused]
      rfl
    · refine ⟨fun code => ?_, fun code snapshot hsnapshot => ?_⟩
      · rw [hlast, hout, hhandled, hset, Dict.get?_set]
        by_cases hcode : code = cleanCode payload.code
        · rw [if_pos hcode, hcode]
          show some tick.timestamp = _
          rw [htime]
          simp [handledAt]
        · rw [if_neg hcode, h.tickAt]
          simp [handledAt, Ne.symm hcode]
      · rw [hset, Dict.get?_set] at hsnapshot
        split at hsnapshot
        · obtain rfl := some.inj hsnapshot
          exact snapshotFromTick_fresh config tick sourceEventId
        · exact h.fresh code snapshot hsnapshot
  | themeBackfill payload clock =>
    refine h.frame ?_ fun code => by rw [hlast, handledAt_eq_none (by simp), none_or]
    exact (rfl : { service with
      marketData := (service.marketData.applyThemeBackfill payload clock).1 }.latestSnapshots = _)
  | popDirty limit =>
    exact h.frame rfl fun code => by rw [hlast, handledAt_eq_none (by simp), none_or]
  | latestSnapshot code now =>
    exact h.frame rfl fun code => by rw [hlast, handledAt_eq_none (by simp), none_or]
  | fsmTarget decision now =>
    exact h.frame rfl fun code => by rw [hlast, handledAt_eq_none (by simp), none_or]

theorem dated_run (config : MarketDataServiceConfig) (steps : List MarketStep) :
    Dated config steps ((marketDataService config).run {} steps) := by
  induction steps using reverseRecOn with
  | nil => exact ⟨fun _ => rfl, nofun⟩
  | append_singleton past step ih => exact dated_step ih step

/-! ## Reads -/

theorem freshIsFresh_iff (h : Dated config past service) (step : MarketStep) :
    FreshIsFresh config service step ↔ config.maxTickAgeSec < 0 ∨ ReadInTime config past step := by
  unfold FreshIsFresh ReadInTime MarketDataService.latestSnapshot
  constructor
  · intro hfresh
    by_cases hallowed : 0 ≤ config.maxTickAgeSec
    · right
      intro code now hread tickAt hlast
      rw [← h.tickAt] at hlast
      obtain ⟨snapshot, hsnapshot, rfl⟩ := map_eq_some_iff.mp hlast
      exact hfresh code now hread snapshot hsnapshot
        (.inl ((h.fresh _ snapshot hsnapshot).1.mpr hallowed))
    · exact .inl (not_le.mp hallowed)
  · intro hor code now hread snapshot hsnapshot hclaimed
    obtain ⟨hfresh, hstale⟩ := h.fresh _ snapshot hsnapshot
    have hallowed : 0 ≤ config.maxTickAgeSec := by
      rcases hclaimed with hclaimed | hclaimed
      · exact hfresh.mp hclaimed
      · exact hstale.mp hclaimed
    rcases hor with hnever | hintime
    · omega
    · refine hintime code now hread _ ?_
      rw [← h.tickAt, hsnapshot]
      rfl

theorem stagedOnRecent_of_freshIsFresh {step : MarketStep} (h : FreshIsFresh config service step) :
    StagedOnRecent config service step := by
  rintro decision now rfl hpast
  cases hsnapshot : service.latestSnapshot decision.code with
  | none =>
    rw [hsnapshot] at hpast
    exact absurd rfl hpast
  | some snapshot =>
    refine ⟨snapshot, rfl, h decision.code now rfl snapshot hsnapshot (.inl ?_)⟩
    by_contra hstale
    apply hpast
    rw [hsnapshot]
    unfold fsmTarget snapshotIsNotFreshRealtime
    rw [if_pos (by simp [hstale])]

/-- In a run, every snapshot that is read and called fresh is of a recent tick, and candidates pass
the stage of the data on such ticks only, exactly if no age is allowed or every snapshot is read in
time. -/
theorem fresh_iff_read_in_time (config : MarketDataServiceConfig) (steps : List MarketStep) :
    (∀ past step, past ++ [step] <+: steps →
      FreshIsFresh config ((marketDataService config).run {} past) step ∧
        StagedOnRecent config ((marketDataService config).run {} past) step) ↔
    config.maxTickAgeSec < 0 ∨
      ∀ past step, past ++ [step] <+: steps → ReadInTime config past step := by
  have hiff := fun past step => freshIsFresh_iff (dated_run config past) step
  constructor
  · intro h
    by_cases hnever : config.maxTickAgeSec < 0
    · exact .inl hnever
    · right
      intro past step hpre
      exact ((hiff past step).mp (h past step hpre).1).resolve_left hnever
  · intro h past step hpre
    have hfresh := (hiff past step).mpr (h.imp id fun hintime => hintime past step hpre)
    exact ⟨hfresh, stagedOnRecent_of_freshIsFresh hfresh⟩

/-! ## Fixed runs -/

def samsungTick : PriceTick :=
  { code := "005930", price := 10000, cumVolume := 50, tradeValue := 500000, spreadTicks := 1 }

def afterTick : MarketDataService :=
  (marketDataService {}).run {} [.priceTick samsungTick "e1" 1000000000]

/-- The feed dies after one tick. An hour later its snapshot is called fresh and not stale, and a
candidate passes the stage of the data on it. -/
theorem dead_feed_fresh :
    ¬ FreshIsFresh {} afterTick (.latestSnapshot "005930" 4600000000) ∧
      ¬ StagedOnRecent {} afterTick
        (.fsmTarget { code := "005930", dataReady := .pass } 4600000000) := by
  have hread : (afterTick.latestSnapshot "005930").map (fun s => (s.isFresh, s.tickAt)) =
      some (true, 1000) := by decide +kernel
  obtain ⟨snapshot, hsnapshot, hfields⟩ := map_eq_some_iff.mp hread
  obtain ⟨hfresh, htickAt⟩ := Prod.mk.inj hfields
  constructor
  · intro h
    have hrecent := h "005930" 4600000000 rfl snapshot hsnapshot (.inl hfresh)
    rw [htickAt] at hrecent
    exact absurd hrecent (by decide)
  · intro h
    obtain ⟨snapshot', hsnapshot', hrecent⟩ :=
      h { code := "005930", dataReady := .pass } 4600000000 rfl (by decide +kernel)
    obtain rfl := some.inj (hsnapshot.symm.trans hsnapshot')
    rw [htickAt] at hrecent
    exact absurd hrecent (by decide)

end TradingCore.MarketData
