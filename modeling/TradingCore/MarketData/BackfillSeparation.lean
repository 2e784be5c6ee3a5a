import TradingCore.MarketData.DayPrices

/-!
# Backfills beside realtime ticks

The store is compared with the one that the same ticks make without the backfills. A backfill that
comes before the first tick of a code dates it by its own clock, and a backfill of a tick without a
price does not mark the price it gives it: the condition excludes the ticks that these concern.
-/

namespace TradingCore.DayPrices

open Base Candidates MarketDataStore List Dict Option

/-- The tick says that its price is from a backfill. -/
structure StrategyTick.Marked (tick : StrategyTick) : Prop where
  source : tick.metadata.get? "price_source" = some (.str "TR_BACKFILL")
  gate : tick.metadata.get? "gate_usable" = some (.bool false)

/-- Merged over a marked tick, the tick is marked. -/
structure StrategyTick.KeepsMarks (tick : StrategyTick) : Prop where
  source : ∀ value ∈ tick.metadata.get? "price_source", value = .str "TR_BACKFILL"
  gate : ∀ value ∈ tick.metadata.get? "gate_usable", value = .bool false

def MarketDataStore.price (store : MarketDataStore) (code : String) : Int :=
  (store.latestTicks.get? code).elim 0 (·.price)

inductive StoreEvent
  | tick (tick : StrategyTick)
  | backfill (backfill : ThemeBackfill) (now : Int)

/-- The store, the store without the backfills, the prices that backfills have brought, and whether
a tick was refused that is accepted without them. -/
structure TwoRuns where
  store : MarketDataStore := {}
  plain : MarketDataStore := {}
  backfilled : List (String × Int) := []
  displaced : Bool := false

namespace TwoRuns

def step (s : TwoRuns) : StoreEvent → TwoRuns
  | .tick tick =>
      { s with
        store := (s.store.updateTick tick).1
        plain := (s.plain.updateTick tick).1
        displaced := s.displaced || (s.plain.updateTick tick).2 && !(s.store.updateTick tick).2 }
  | .backfill backfill now =>
      { s with
        store := (s.store.applyThemeBackfill backfill now).1
        backfilled := (normalizeCode backfill.code, (backfill.currentPrice : Int)) :: s.backfilled }

def machine : Machine TwoRuns StoreEvent Unit := ⟨fun s event => (s.step event, ())⟩

/-- The prices of a code: the realtime one wherever there is one, and else a marked one that a
backfill has brought. -/
structure SeparateAt (s : TwoRuns) (code : String) : Prop where
  realtime : 0 < s.plain.price code → s.store.price code = s.plain.price code
  marked : s.plain.price code ≤ 0 → ∀ tick ∈ s.store.latestTicks.get? code, 0 < tick.price →
    (code, tick.price) ∈ s.backfilled ∧ tick.Marked

/-- Backfills displace no realtime tick and are known from their marks. -/
structure Separate (s : TwoRuns) : Prop where
  kept : s.displaced = false
  prices : ∀ code, s.SeparateAt code

/-- The tick is not refused for a backfill, and one without a price that is to take over that of a
backfill keeps its marks; a backfill gives a price to no tick that is not marked. -/
def Harmless (s : TwoRuns) : StoreEvent → Prop
  | .tick tick => (s.store.Outdated tick → s.plain.Outdated tick) ∧
      (¬ s.store.Outdated tick → tick.price ≤ 0 → s.plain.price tick.code ≤ 0 →
        0 < s.store.price tick.code → tick.KeepsMarks)
  | .backfill backfill _ => normalizeCode backfill.code ≠ "" →
      ∀ existing ∈ s.store.latestTick backfill.code, existing.price ≤ 0 →
        0 < backfill.currentPrice → existing.Marked

/-- How the two stores are related, code by code: a tick without backfills is dated alike with
them, and a store has a time iff it has a tick. -/
structure Related (s : TwoRuns) (code : String) : Prop where
  fresh : s.plain.latestTicks.get? code = none → s.plain.lastTimestamps.get? code = none
  dated : s.plain.latestTicks.get? code ≠ none → s.store.latestTicks.get? code ≠ none ∧
    s.store.lastTimestamps.get? code = s.plain.lastTimestamps.get? code

end TwoRuns

/-! ## Marks -/

theorem fillMetadata_get? {key : String} (metadata updates : Mapping)
    (h : updates.get? key = none) : (fillMetadata metadata updates).get? key = metadata.get? key := by
  have hkey : key ∉ updates.entries.map Prod.fst := get?_eq_none.mp h
  unfold fillMetadata
  generalize updates.entries = entries at hkey
  induction entries generalizing metadata with
  | nil => rfl
  | cons entry rest ih =>
    rw [map_cons, mem_cons, not_or] at hkey
    rw [foldl_cons, ih _ hkey.2]
    split
    · exact get?_set_ne _ _ hkey.1
    · rfl

theorem backfillMetadata_get? (payload : Mapping) (key : String) (hkey : key ∉ backfillKeys)
    (hown : key ≠ "backfill_source" ∧ key ≠ "tr_backfill_applied") :
    (backfillMetadata payload).get? key = none := by
  have hfold : ∀ (keys : List String) (metadata : Mapping), key ∉ keys →
      (keys.foldl (fun metadata key =>
        if (payload.value key).truthy then metadata.set key (payload.value key) else metadata)
        metadata).get? key = metadata.get? key := by
    intro keys
    induction keys with
    | nil => exact fun _ _ => rfl
    | cons next rest ih =>
      intro metadata hnot
      rw [mem_cons, not_or] at hnot
      rw [foldl_cons, ih _ hnot.2]
      split
      · exact get?_set_ne _ _ hnot.1
      · rfl
  have htaken := hfold backfillKeys (.ofList [("backfill_source", .str "theme_data_backfill"),
    ("tr_backfill_applied", .bool true)]) hkey
  have hstart : (ofList [("backfill_source", Value.str "theme_data_backfill"),
      ("tr_backfill_applied", Value.bool true)]).get? key = none :=
    (get?_set_ne _ _ hown.2).trans (get?_set_ne _ _ hown.1)
  unfold backfillMetadata
  dsimp only
  split
  · have hne : key ≠ "prev_close_source" := by
      rintro rfl
      exact hkey (by decide)
    rw [get?_set_ne _ _ hne, htaken, hstart]
  · rw [htaken, hstart]

namespace StrategyTick

variable {previous tick : StrategyTick}

theorem marked_fill_iff (payload : Mapping) (price : Int) :
    Marked { tick with
      price, metadata := fillMetadata tick.metadata (backfillMetadata payload) } ↔ tick.Marked := by
  have hsource := fillMetadata_get? tick.metadata _
    (backfillMetadata_get? payload "price_source" (by decide) (by decide))
  have hgate := fillMetadata_get? tick.metadata _
    (backfillMetadata_get? payload "gate_usable" (by decide) (by decide))
  constructor
  · rintro ⟨h, h'⟩
    exact ⟨hsource.symm.trans h, hgate.symm.trans h'⟩
  · rintro ⟨h, h'⟩
    exact ⟨hsource.trans h, hgate.trans h'⟩

theorem Marked.merge_iff (h : previous.Marked) :
    (mergeMissingPriceTick previous tick).Marked ↔ tick.KeepsMarks := by
  have hget : ∀ key, key ≠ "merged_from_previous_price_tick" →
      (mergeMissingPriceTick previous tick).metadata.get? key =
        (tick.metadata.get? key).or (previous.metadata.get? key) := by
    intro key hne
    exact (get?_set_ne _ _ hne).trans (get?_merge _ _ _)
  have hone : ∀ (found : Option Value) (value : Value),
      found.or (some value) = some value ↔ ∀ v ∈ found, v = value := by
    intro found value
    cases found with
    | none => simp
    | some v => simp
  constructor
  · rintro ⟨hsource, hgate⟩
    rw [hget _ (by decide), h.source, hone] at hsource
    rw [hget _ (by decide), h.gate, hone] at hgate
    exact ⟨hsource, hgate⟩
  · rintro ⟨hsource, hgate⟩
    refine ⟨?_, ?_⟩
    · rw [hget _ (by decide), h.source, hone]
      exact hsource
    · rw [hget _ (by decide), h.gate, hone]
      exact hgate

end StrategyTick

/-! ## One event -/

namespace MarketDataStore

variable {store : MarketDataStore} {tick : StrategyTick}

theorem kept_code (store : MarketDataStore) (tick : StrategyTick) :
    (store.kept tick).code = tick.code ∧ (store.kept tick).timestamp = tick.timestamp := by
  unfold kept
  split
  · exact ⟨rfl, rfl⟩
  · split
    · exact ⟨rfl, rfl⟩
    · exact ⟨rfl, rfl⟩

theorem kept_eq_self (h : 0 < tick.price ∨ store.price tick.code ≤ 0) : store.kept tick = tick := by
  unfold kept
  unfold price at h
  cases hget : store.latestTicks.get? tick.code with
  | none => rfl
  | some previous =>
    rw [hget] at h
    refine if_neg fun hmerge => ?_
    have hprevious : 0 < tick.price ∨ previous.price ≤ 0 := h
    omega

theorem kept_eq_merge (hmissing : tick.price ≤ 0) (h : 0 < store.price tick.code) :
    ∃ previous, store.latestTicks.get? tick.code = some previous ∧
      previous.price = store.price tick.code ∧
      store.kept tick = mergeMissingPriceTick previous tick := by
  unfold kept
  unfold price at h ⊢
  cases hget : store.latestTicks.get? tick.code with
  | none =>
    rw [hget] at h
    exact absurd h (by simp)
  | some previous =>
    rw [hget] at h
    exact ⟨previous, rfl, rfl, if_pos ⟨hmissing, h⟩⟩

theorem updateTick_refused (h : store.Outdated tick) : store.updateTick tick = (store, false) :=
  if_pos h

theorem updateTick_accepted (h : ¬ store.Outdated tick) :
    (store.updateTick tick).2 = true ∧
      (store.updateTick tick).1.latestTicks = store.latestTicks.set tick.code (store.kept tick) ∧
      (store.updateTick tick).1.lastTimestamps =
        store.lastTimestamps.set tick.code tick.timestamp := by
  obtain ⟨hcode, htime⟩ := store.kept_code tick
  unfold updateTick
  rw [if_neg h]
  dsimp only
  rw [hcode, htime]
  exact ⟨rfl, rfl, rfl⟩

/-- What a backfill does: nothing, or it gives a tick to a code without one, or it fills a tick. -/
theorem applyThemeBackfill_cases (store : MarketDataStore) (backfill : ThemeBackfill) (now : Int) :
    (store.applyThemeBackfill backfill now).1 = store ∧
        (normalizeCode backfill.code = "" ∨
          store.latestTicks.get? (normalizeCode backfill.code) = none) ∨
      (∃ tick : StrategyTick, tick.Marked ∧ tick.price = backfill.currentPrice ∧
        store.latestTicks.get? (normalizeCode backfill.code) = none ∧
        (store.applyThemeBackfill backfill now).1 =
          { store with
            latestTicks := store.latestTicks.set (normalizeCode backfill.code) tick
            lastTimestamps :=
              store.lastTimestamps.set (normalizeCode backfill.code) tick.timestamp }) ∨
      ∃ existing, normalizeCode backfill.code ≠ "" ∧
        store.latestTicks.get? (normalizeCode backfill.code) = some existing ∧
        (store.applyThemeBackfill backfill now).1 =
          { store with
            latestTicks := store.latestTicks.set (normalizeCode backfill.code)
              { existing with
                price := if 0 < existing.price then existing.price else backfill.currentPrice
                metadata :=
                  fillMetadata existing.metadata (backfillMetadata backfill.payload) } } := by
  have hclean := (cleanCode_normalizeCode backfill.code).normalizeCode
  unfold applyThemeBackfill latestTick
  dsimp only
  rw [hclean]
  by_cases hblank : normalizeCode backfill.code = ""
  · exact .inl (by simp [hblank])
  · rw [if_neg hblank]
    cases hget : store.latestTicks.get? (normalizeCode backfill.code) with
    | some existing => exact .inr (.inr ⟨existing, hblank, rfl, rfl⟩)
    | none =>
      dsimp only
      by_cases hprice : backfill.currentPrice = 0
      · exact .inl ⟨by rw [if_pos hprice], .inr rfl⟩
      · rw [if_neg hprice]
        refine .inr (.inl ⟨_, ⟨?_, ?_⟩, rfl, rfl, rfl⟩)
        · exact (get?_set_ne _ _ (by decide)).trans (get?_set_self _ _ _)
        · exact get?_set_self _ _ _

end MarketDataStore

namespace TwoRuns

variable {s : TwoRuns} {tick : StrategyTick} {code : String}

theorem Related.outdated (h : s.Related tick.code) (hplain : s.plain.Outdated tick) :
    s.store.Outdated tick := by
  obtain ⟨last, hlast, hlt⟩ := hplain
  have hsome : s.plain.latestTicks.get? tick.code ≠ none := by
    intro hnone
    rw [h.fresh hnone] at hlast
    cases hlast
  exact ⟨last, (h.dated hsome).2 ▸ hlast, hlt⟩

theorem SeparateAt.tick_iff (h : s.SeparateAt tick.code) {store plain : MarketDataStore}
    (hstore : store.latestTicks.get? tick.code = some (s.store.kept tick))
    (hplain : plain.latestTicks.get? tick.code = some (s.plain.kept tick)) (displaced : Bool) :
    SeparateAt { s with store, plain, displaced } tick.code ↔
      (tick.price ≤ 0 → s.plain.price tick.code ≤ 0 → 0 < s.store.price tick.code →
        tick.KeepsMarks) := by
  have hprice : store.price tick.code = (s.store.kept tick).price := by
    rw [price, hstore]
    rfl
  have hprice' : plain.price tick.code = (s.plain.kept tick).price := by
    rw [price, hplain]
    rfl
  by_cases hpriced : 0 < tick.price
  · refine iff_of_true ⟨?_, ?_⟩ fun hmissing => absurd hpriced (by omega)
    · show 0 < plain.price tick.code → store.price tick.code = plain.price tick.code
      intro _
      rw [hprice, hprice', kept_eq_self (.inl hpriced), kept_eq_self (.inl hpriced)]
    · show plain.price tick.code ≤ 0 → _
      rw [hprice', kept_eq_self (.inl hpriced)]
      exact fun hmissing => absurd hpriced (by omega)
  · by_cases hknown : 0 < s.plain.price tick.code
    · -- both take over the same realtime price
      have hsame := h.realtime hknown
      obtain ⟨previous, -, hpp, hkept⟩ := kept_eq_merge (by omega) hknown
      obtain ⟨previous', -, hpp', hkept'⟩ := kept_eq_merge (by omega) (hsame ▸ hknown)
      have hplainPrice : plain.price tick.code = s.plain.price tick.code := by
        rw [hprice', hkept]
        exact hpp
      refine iff_of_true ⟨?_, ?_⟩ fun _ hnone => absurd hknown (by omega)
      · show 0 < plain.price tick.code → store.price tick.code = plain.price tick.code
        intro _
        rw [hplainPrice, hprice, hkept', ← hsame]
        exact hpp'
      · show plain.price tick.code ≤ 0 → _
        rw [hplainPrice]
        exact fun hnone => absurd hknown (by omega)
    · have hplainPrice : plain.price tick.code ≤ 0 := by
        rw [hprice', kept_eq_self (.inr (by omega))]
        omega
      by_cases hgiven : 0 < s.store.price tick.code
      · obtain ⟨previous, hget, hpp, hkept⟩ := kept_eq_merge (by omega) hgiven
        obtain ⟨hbackfilled, hmarked⟩ := h.marked (by omega) previous hget (by omega)
        rw [hkept] at hstore
        constructor
        · intro hseparate _ _ _
          exact hmarked.merge_iff.mp (hseparate.marked hplainPrice _ hstore (hpp ▸ hgiven)).2
        · intro hkeeps
          refine ⟨fun hpos => absurd hplainPrice (Int.not_le.mpr hpos), ?_⟩
          intro _ tick' htick' _
          obtain rfl := some.inj (hstore.symm.trans htick')
          exact ⟨hbackfilled, hmarked.merge_iff.mpr (hkeeps (by omega) (by omega) hgiven)⟩
      · rw [kept_eq_self (.inr (by omega))] at hstore
        refine iff_of_true ⟨fun hpos => absurd hplainPrice (Int.not_le.mpr hpos), ?_⟩
          fun _ _ hpos => absurd hpos hgiven
        intro _ tick' htick' hpos
        obtain rfl := some.inj (hstore.symm.trans htick')
        exact absurd hpos hpriced

theorem SeparateAt.congr {s' : TwoRuns} (h : s.SeparateAt code)
    (hstore : s'.store.latestTicks.get? code = s.store.latestTicks.get? code)
    (hplain : s'.plain.latestTicks.get? code = s.plain.latestTicks.get? code)
    (hbackfilled : s.backfilled ⊆ s'.backfilled) : s'.SeparateAt code := by
  have hprice : s'.store.price code = s.store.price code := by rw [price, hstore, price]
  have hprice' : s'.plain.price code = s.plain.price code := by rw [price, hplain, price]
  refine ⟨by rw [hprice, hprice']; exact h.realtime, ?_⟩
  rw [hstore, hprice']
  intro hnone tick htick hpos
  obtain ⟨hmem, hmarked⟩ := h.marked hnone tick htick hpos
  exact ⟨hbackfilled hmem, hmarked⟩

theorem Separate.tick_iff (h : s.Separate) (hrelated : s.Related tick.code) :
    (s.step (.tick tick)).Separate ↔ s.Harmless (.tick tick) := by
  unfold step Harmless
  dsimp only
  by_cases hlate : s.store.Outdated tick
  · rw [updateTick_refused hlate]
    by_cases hlate' : s.plain.Outdated tick
    · rw [updateTick_refused hlate']
      refine iff_of_true ⟨by simp [h.kept], fun code => ?_⟩ ?_
      · exact (h.prices code).congr rfl rfl (Subset.refl _)
      · exact ⟨fun _ => hlate', fun hfresh => absurd hlate hfresh⟩
    · refine iff_of_false (fun hseparate => ?_) fun hharmless => hlate' (hharmless.1 hlate)
      have hkept := hseparate.kept
      rw [(updateTick_accepted hlate').1] at hkept
      simp at hkept
  · have hfresh : ¬ s.plain.Outdated tick := fun hlate' => hlate (hrelated.outdated hlate')
    obtain ⟨hstore, hticks, -⟩ := updateTick_accepted hlate
    obtain ⟨hplain, hticks', -⟩ := updateTick_accepted hfresh
    have hget : (s.store.updateTick tick).1.latestTicks.get? tick.code =
        some (s.store.kept tick) := by rw [hticks, get?_set_self]
    have hget' : (s.plain.updateTick tick).1.latestTicks.get? tick.code =
        some (s.plain.kept tick) := by rw [hticks', get?_set_self]
    have hat := (h.prices tick.code).tick_iff hget hget'
    constructor
    · intro hseparate
      exact ⟨fun hout => absurd hout hlate, fun _ => (hat _).mp (hseparate.prices tick.code)⟩
    · rintro ⟨-, hkeeps⟩
      refine ⟨by simp [h.kept, hstore], fun code => ?_⟩
      by_cases hcode : code = tick.code
      · subst hcode
        exact (hat _).mpr (hkeeps hlate)
      · refine (h.prices code).congr ?_ ?_ (Subset.refl _)
        · exact hticks ▸ get?_set_ne _ _ hcode
        · exact hticks' ▸ get?_set_ne _ _ hcode

theorem Separate.backfill_iff (h : s.Separate) (backfill : ThemeBackfill) (now : Int)
    (hrelated : s.Related (normalizeCode backfill.code)) :
    (s.step (.backfill backfill now)).Separate ↔ s.Harmless (.backfill backfill now) := by
  have hfound : s.store.latestTick backfill.code =
      s.store.latestTicks.get? (normalizeCode backfill.code) := rfl
  have hother : ∀ (ticks : Dict String StrategyTick) (code : String),
      ticks.get? code = s.store.latestTicks.get? code → ∀ store : MarketDataStore,
        store.latestTicks = ticks → SeparateAt { s with
          store
          backfilled := (normalizeCode backfill.code, (backfill.currentPrice : Int)) ::
            s.backfilled } code := by
    rintro ticks code hticks store rfl
    exact (h.prices code).congr hticks rfl (subset_cons_self _ _)
  unfold step Harmless
  dsimp only
  rw [hfound]
  have hcases := applyThemeBackfill_cases s.store backfill now
  generalize normalizeCode backfill.code = clean at hrelated hother hcases ⊢
  rcases hcases with ⟨hsame, hnone⟩ |
    ⟨tick, hmarked, hprice, hnone, hstore⟩ | ⟨existing, hblank, hget, hstore⟩
  · rw [hsame]
    refine iff_of_true ⟨h.kept, fun code => hother _ code rfl _ rfl⟩ ?_
    intro hblank existing hget
    rcases hnone with hempty | hnone
    · exact absurd hempty hblank
    · rw [hnone] at hget
      cases hget
  · rw [hstore, hnone]
    refine iff_of_true ⟨h.kept, fun code => ?_⟩ (by simp)
    by_cases hcode : code = clean
    · subst hcode
      -- without backfills the code has no tick either
      have hplain : s.plain.latestTicks.get? code = none := by
        by_contra hsome
        exact (hrelated.dated hsome).1 hnone
      have hzero : s.plain.price code = 0 := by
        rw [price, hplain]
        rfl
      refine ⟨fun hpos => absurd hpos (by rw [hzero]; decide), ?_⟩
      intro _ tick' htick' _
      obtain rfl := some.inj ((get?_set_self _ _ _).symm.trans htick')
      exact ⟨hprice ▸ mem_cons_self, hmarked⟩
    · exact hother _ code (get?_set_ne _ _ hcode) _ rfl
  · rw [hstore, hget]
    have hat := h.prices clean
    have hold : s.store.price clean = existing.price := by
      rw [price, hget]
      rfl
    by_cases hpriced : 0 < existing.price
    · refine iff_of_true ⟨h.kept, fun code => ?_⟩ ?_
      · by_cases hcode : code = clean
        · subst hcode
          refine ⟨fun hpos => ?_, ?_⟩
          · rw [price, get?_set_self, if_pos hpriced]
            exact hold.symm.trans (hat.realtime hpos)
          · intro hnone tick' htick' hpos
            obtain rfl := some.inj ((get?_set_self _ _ _).symm.trans htick')
            rw [if_pos hpriced]
            obtain ⟨hmem, hmarked⟩ := hat.marked hnone existing hget hpriced
            exact ⟨mem_cons_of_mem _ hmem,
              (StrategyTick.marked_fill_iff backfill.payload existing.price).mpr hmarked⟩
        · exact hother _ code (get?_set_ne _ _ hcode) _ rfl
      · intro _ found hfound hmissing
        obtain rfl := some.inj hfound
        omega
    · have hplain : s.plain.price clean ≤ 0 := by
        by_contra hpos
        have := hat.realtime (by omega)
        omega
      constructor
      · intro hseparate _ found hfound _ hprice
        obtain rfl := some.inj hfound
        have hmarked := (hseparate.prices _).marked hplain _ (get?_set_self _ _ _)
        rw [if_neg hpriced] at hmarked
        exact (StrategyTick.marked_fill_iff backfill.payload _).mp (hmarked (by simpa)).2
      · intro hharmless
        refine ⟨h.kept, fun code => ?_⟩
        by_cases hcode : code = clean
        · subst hcode
          refine ⟨fun hpos => absurd hplain (Int.not_le.mpr hpos), ?_⟩
          intro _ tick' htick' hpos
          obtain rfl := some.inj ((get?_set_self _ _ _).symm.trans htick')
          rw [if_neg hpriced] at hpos ⊢
          have hprice : 0 < backfill.currentPrice := by simpa using hpos
          have hmarked := hharmless hblank existing rfl (by omega) hprice
          exact ⟨mem_cons_self, (StrategyTick.marked_fill_iff backfill.payload _).mpr hmarked⟩
        · exact hother _ code (get?_set_ne _ _ hcode) _ rfl

/-! ## Runs -/

theorem Related.next (hrelated : ∀ code, s.Related code) {event : StoreEvent}
    (hharmless : s.Harmless event) (code : String) : (s.step event).Related code := by
  cases event with
  | tick tick =>
    unfold step
    dsimp only
    by_cases hlate : s.store.Outdated tick
    · rw [updateTick_refused hlate, updateTick_refused (hharmless.1 hlate)]
      exact ⟨(hrelated code).fresh, (hrelated code).dated⟩
    · have hfresh : ¬ s.plain.Outdated tick :=
        fun hlate' => hlate ((hrelated tick.code).outdated hlate')
      obtain ⟨-, hticks, htimes⟩ := updateTick_accepted hlate
      obtain ⟨-, hticks', htimes'⟩ := updateTick_accepted hfresh
      refine ⟨?_, ?_⟩
      · rw [hticks', htimes', get?_set, get?_set]
        split
        · simp
        · exact (hrelated code).fresh
      · rw [hticks, htimes, hticks', htimes', get?_set, get?_set, get?_set,
          get?_set]
        split
        · simp
        · exact (hrelated code).dated
  | backfill backfill now =>
    unfold step
    refine ⟨(hrelated code).fresh, fun hsome => ?_⟩
    have hdated := (hrelated code).dated hsome
    dsimp only
    have hcases := applyThemeBackfill_cases s.store backfill now
    generalize normalizeCode backfill.code = clean at hcases
    rcases hcases with ⟨hsame, -⟩ | ⟨tick, -, -, hnone, hstore⟩ | ⟨existing, -, -, hstore⟩
    · rw [hsame]
      exact hdated
    · have hcode : code ≠ clean := by
        rintro rfl
        exact hdated.1 hnone
      rw [hstore]
      exact ⟨(get?_set_ne _ _ hcode).symm ▸ hdated.1, (get?_set_ne _ _ hcode).trans hdated.2⟩
    · rw [hstore]
      refine ⟨?_, hdated.2⟩
      rw [get?_set]
      split
      · simp
      · exact hdated.1

/-- In every interleaving of ticks and backfills: no tick is displaced, the latest price is the
realtime one wherever there is one, and else comes marked from a backfill, as long as every event
is harmless, and only then. -/
theorem separate_iff_harmless (events : List StoreEvent) :
    machine.Always Separate {} events ↔ machine.Guarded Harmless {} events := by
  refine Machine.always_iff_guarded (I := fun s => ∀ code, s.Related code) ?_ ?_ ?_ ?_
  · intro s event hrelated _ hharmless
    exact Related.next hrelated hharmless
  · intro s event hrelated h
    cases event with
    | tick tick => exact h.tick_iff (hrelated tick.code)
    | backfill backfill now => exact h.backfill_iff backfill now (hrelated _)
  · exact fun code => ⟨fun _ => rfl, fun hsome => absurd rfl hsome⟩
  · refine ⟨rfl, fun code => ⟨fun hpos => absurd hpos (Int.lt_irrefl 0), ?_⟩⟩
    intro _ tick htick
    cases htick

/-! ## Fixed events -/

/-- A tick without a price takes one from a backfill, and does not say so. -/
theorem backfilled_unmarked : ¬ ∀ events, machine.Always Separate {} events := by
  intro h
  have halways := h [.tick ⟨"005930", 0, 100, .empty⟩, .backfill ⟨"005930", 70000, .empty⟩ 105]
  have hlast := Machine.always_iff_prefix.mp halways _ (prefix_refl _)
  have hmarked := ((hlast.prices "005930").marked (by decide +kernel) _ rfl (by decide +kernel)).2
  exact absurd hmarked.source (by decide +kernel)

end TwoRuns

end TradingCore.DayPrices
