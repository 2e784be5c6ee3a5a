import TradingCore.BrokerReconcile.Orchestrator

/-!
# What a clean run has seen

The set of complete sources only grows, while every later answer of a source replaces what is
staged of it, a failed one too. An answer with a quantity that is no number completes its source
with nought in its place. And an answer that comes after the run was cancelled or marked stale
finishes the run once more.

`clean_is_sound`: a run whose answers avoid these three cases is clean on sound data only.
-/

namespace TradingCore.BrokerReconcile

open Base Orders ReconcileDesk Option WatchedRun

/-! ## Clean runs -/

namespace ReconcileDesk

/-- What is staged of a result's source is what the result brought. -/
def Holds (d : ReconcileDesk) (result : ReconcileTrParseResult) : Prop :=
  (result.logicalSource = "OPEN_ORDERS" →
      d.snapshot.openOrders = stageOpenOrders result.openOrders) ∧
    (result.logicalSource = "ACCOUNT_POSITIONS" →
      d.snapshot.positions = stagePositions result.positions) ∧
    (result.logicalSource = "ACCOUNT_CASH" → d.cash = result.cash)

/-- The stored snapshot of a source came from a sound result. -/
def SoundSource (d : ReconcileDesk) (source : String) : Prop :=
  ∃ result, d.sourceResults.get? source = some result ∧ result.logicalSource = source ∧
    d.Holds result ∧ result.Sound

end ReconcileDesk

/-- A run is clean and ready only on sound data of every required source, and only if its
operator has not stopped it. -/
def WatchedRun.CleanIsSound (s : WatchedRun) : Prop :=
  s.desk.run.status = .clean → s.desk.run.brokerTruthReady = true →
    s.stopped = false ∧ ∀ source ∈ s.desk.run.requiredSources, s.desk.SoundSource source

/-! ## When it is so -/

variable (readNumber : String → NumberText) (digest : String → String)

/-- The answer comes before the run is stopped. If its source is required, it does not complete
the source with a quantity unread, and it does not fail once the source is complete. -/
def WatchedRun.InTime (s : WatchedRun) : ReconcileAction → Prop
  | .sourceAck ack =>
      ∀ result, parseCommandAck readNumber digest ack = some result →
        s.stopped = false ∧
          (result.logicalSource ∈ s.desk.run.requiredSources →
            (result.Completes → result.QuantitiesRead) ∧
              (¬ result.Completes → result.logicalSource ∉ s.desk.run.completedSources))
  | .markStale | .cancelPendingRun _ | .projectionChanged _ => True

instance (s : WatchedRun) (action : ReconcileAction) :
    Decidable (s.InTime readNumber digest action) :=
  match action with
  | .sourceAck ack =>
      match h : parseCommandAck readNumber digest ack with
      | none => .isTrue fun result hresult => by rw [h] at hresult; cases hresult
      | some parsed =>
          decidable_of_iff
            (s.stopped = false ∧
              (parsed.logicalSource ∈ s.desk.run.requiredSources →
                (parsed.Completes → parsed.QuantitiesRead) ∧
                  (¬ parsed.Completes → parsed.logicalSource ∉ s.desk.run.completedSources)))
            ⟨fun hin result hresult => by
                rw [h, some.injEq] at hresult
                exact hresult ▸ hin,
              fun hin => hin parsed h⟩
  | .markStale | .cancelPendingRun _ | .projectionChanged _ => .isTrue trivial

/-! ## What a parsed answer is -/

variable {readNumber digest}

theorem source_of_parseCommandAck {ack : ReconcileAck} {result : ReconcileTrParseResult}
    (h : parseCommandAck readNumber digest ack = some result) :
    result.logicalSource = "ACCOUNT_CASH" → result.cash.isSome := by
  unfold parseCommandAck at h
  simp only [bind_eq_bind, bind_eq_some_iff] at h
  obtain ⟨spec, hspec, h⟩ := h
  split at h
  · rename_i hopen
    obtain ⟨⟨orders, warnings⟩, -, h⟩ := bind_eq_some_iff.mp h
    cases h
    intro hcash
    have : spec.logicalSource = "ACCOUNT_CASH" := hcash
    rw [hopen] at this
    exact absurd this (by decide)
  · split at h
    · rename_i hpositions
      obtain ⟨⟨positions, warnings⟩, -, h⟩ := bind_eq_some_iff.mp h
      cases h
      intro hcash
      have : spec.logicalSource = "ACCOUNT_CASH" := hcash
      rw [hpositions] at this
      exact absurd this (by decide)
    · obtain ⟨⟨cash, warnings⟩, -, h⟩ := bind_eq_some_iff.mp h
      cases h
      exact fun _ => rfl

namespace ReconcileDesk

variable {d : ReconcileDesk} {result other : ReconcileTrParseResult}

/-! ## What is staged -/

@[simp] theorem stage_run (d : ReconcileDesk) (result : ReconcileTrParseResult) :
    (d.stage result).run = d.run := by
  unfold stage
  split <;> [rfl; split <;> [rfl; split <;> rfl]]

@[simp] theorem stage_sourceResults (d : ReconcileDesk) (result : ReconcileTrParseResult) :
    (d.stage result).sourceResults = d.sourceResults := by
  unfold stage
  split <;> [rfl; split <;> [rfl; split <;> rfl]]

theorem holds_stage_self (hcash : result.logicalSource = "ACCOUNT_CASH" → result.cash.isSome) :
    (d.stage result).Holds result := by
  unfold stage
  refine ⟨fun hopen => ?_, fun hpositions => ?_, fun hsource => ?_⟩
  · rw [if_pos hopen]
  · rw [if_neg (by rw [hpositions]; decide), if_pos hpositions]
  · rw [if_neg (by rw [hsource]; decide), if_neg (by rw [hsource]; decide),
      if_pos ⟨hsource, hcash hsource⟩]

theorem holds_stage_other (h : d.Holds other)
    (hne : other.logicalSource ≠ result.logicalSource) : (d.stage result).Holds other := by
  unfold stage
  split
  · rename_i hopen
    exact ⟨fun hother => absurd (hother.trans hopen.symm) hne, h.2.1, h.2.2⟩
  · split
    · rename_i hpositions
      exact ⟨h.1, fun hother => absurd (hother.trans hpositions.symm) hne, h.2.2⟩
    · split
      · rename_i hcash
        exact ⟨h.1, h.2.1, fun hother => absurd (hother.trans hcash.1.symm) hne⟩
      · exact h

/-! ## What an update of the run keeps -/

section

variable (d : ReconcileDesk) (result : ReconcileTrParseResult)

@[simp] theorem updateRun_sourceResults :
    (d.updateRunAfterSourceResult result).sourceResults = d.sourceResults := by
  by_cases hall : d.run.AllRequired (d.run.completedAfter result)
  · simp [updateRunAfterSourceResult, hall]
  · simp [updateRunAfterSourceResult, hall]

@[simp] theorem updateRun_requiredSources :
    (d.updateRunAfterSourceResult result).run.requiredSources = d.run.requiredSources := by
  by_cases hall : d.run.AllRequired (d.run.completedAfter result)
  · simp [updateRunAfterSourceResult, hall]
  · simp [updateRunAfterSourceResult, hall]

@[simp] theorem updateRun_completedSources :
    (d.updateRunAfterSourceResult result).run.completedSources = d.run.completedAfter result := by
  by_cases hall : d.run.AllRequired (d.run.completedAfter result)
  · simp [updateRunAfterSourceResult, hall]
  · simp [updateRunAfterSourceResult, hall]

theorem updateRun_holds_iff :
    (d.updateRunAfterSourceResult result).Holds other ↔ d.Holds other := by
  by_cases hall : d.run.AllRequired (d.run.completedAfter result)
  · simp [updateRunAfterSourceResult, Holds, hall]
  · simp [updateRunAfterSourceResult, Holds, hall]

theorem allRequired_of_clean
    (h : (d.updateRunAfterSourceResult result).run.status = .clean) :
    d.run.AllRequired (d.run.completedAfter result) := by
  by_contra hall
  simp [updateRunAfterSourceResult, hall] at h

end

end ReconcileDesk

theorem ReconcileRun.mem_completedAfter {run : ReconcileRun} {result : ReconcileTrParseResult}
    {source : String} (h : source ∈ run.completedAfter result) :
    source ∈ run.completedSources ∨ source = result.logicalSource ∧ result.Completes := by
  unfold ReconcileRun.completedAfter at h
  split at h
  · rename_i hnew
    rcases List.mem_append.mp h with h | h
    · exact .inl h
    · exact .inr ⟨List.mem_singleton.mp h, hnew.1⟩
  · exact .inl h

/-! ## The invariant -/

/-- What is staged is what the last results brought, a complete required source has a sound
last result, and a clean run has all of them and has not been stopped. -/
structure WatchedRun.Kept (s : WatchedRun) : Prop where
  staged : ∀ source result, s.desk.sourceResults.get? source = some result →
    result.logicalSource = source ∧ s.desk.Holds result
  sound : ∀ source ∈ s.desk.run.requiredSources, source ∈ s.desk.run.completedSources →
    ∃ result, s.desk.sourceResults.get? source = some result ∧ result.Sound
  clean : s.desk.run.status = .clean →
    s.stopped = false ∧ s.desk.run.AllRequired s.desk.run.completedSources

namespace WatchedRun

variable {s : WatchedRun}

theorem Kept.cleanIsSound (h : s.Kept) : s.CleanIsSound := by
  intro hclean _
  obtain ⟨hstopped, hall⟩ := h.clean hclean
  refine ⟨hstopped, fun source hrequired => ?_⟩
  obtain ⟨result, hget, hsound⟩ := h.sound source hrequired (hall.2 source hrequired)
  obtain ⟨hsource, hholds⟩ := h.staged source result hget
  exact ⟨result, hget, hsource, hholds, hsound⟩

theorem Kept.applySourceResult (h : s.Kept) {result : ReconcileTrParseResult}
    (hcash : result.logicalSource = "ACCOUNT_CASH" → result.cash.isSome)
    (hstopped : s.stopped = false)
    (hin : result.logicalSource ∈ s.desk.run.requiredSources →
      (result.Completes → result.QuantitiesRead) ∧
        (¬ result.Completes → result.logicalSource ∉ s.desk.run.completedSources)) :
    Kept { s with desk := s.desk.applySourceResult result } := by
  unfold ReconcileDesk.applySourceResult
  refine ⟨?_, ?_, ?_⟩
  · intro source found hget
    simp only [updateRun_sourceResults, stage_sourceResults, Dict.get?_set] at hget
    rw [updateRun_holds_iff]
    by_cases hsource : source = result.logicalSource
    · rw [if_pos hsource] at hget
      cases hget
      exact ⟨hsource.symm, holds_stage_self hcash⟩
    · rw [if_neg hsource] at hget
      obtain ⟨hfound, hholds⟩ := h.staged source found hget
      exact ⟨hfound, holds_stage_other hholds (hfound ▸ hsource)⟩
  · intro source hrequired hcompleted
    simp only [updateRun_requiredSources, stage_run] at hrequired
    simp only [updateRun_completedSources, stage_run] at hcompleted
    simp only [updateRun_sourceResults, stage_sourceResults, Dict.get?_set]
    by_cases hsource : source = result.logicalSource
    · -- the source's own result replaced the last one: it completes the source
      rw [if_pos hsource]
      subst hsource
      obtain ⟨hread, hnot⟩ := hin hrequired
      have hcompletes : result.Completes := by
        rcases ReconcileRun.mem_completedAfter hcompleted with hold | ⟨-, hnew⟩
        · by_contra hfails
          exact hnot hfails hold
        · exact hnew
      exact ⟨result, rfl, hcompletes, hread hcompletes⟩
    · rw [if_neg hsource]
      rcases ReconcileRun.mem_completedAfter hcompleted with hold | ⟨heq, -⟩
      · exact h.sound source hrequired hold
      · exact absurd heq hsource
  · intro hclean
    have hall := allRequired_of_clean _ _ hclean
    refine ⟨hstopped, ?_⟩
    rw [updateRun_completedSources]
    simpa only [ReconcileRun.AllRequired, updateRun_requiredSources] using hall

theorem Kept.stop (h : s.Kept) {run : ReconcileRun}
    (hrequired : run.requiredSources = s.desk.run.requiredSources)
    (hcompleted : run.completedSources = s.desk.run.completedSources)
    (hstatus : run.status ≠ .clean) :
    Kept { desk := { s.desk with run := run }, stopped := true } := by
  refine ⟨h.staged, ?_, fun hclean => absurd hclean hstatus⟩
  intro source
  simp only [hrequired, hcompleted]
  exact h.sound source

theorem Kept.step (h : s.Kept) {action : ReconcileAction}
    (hin : s.InTime readNumber digest action) :
    ((machine readNumber digest).next s action).Kept := by
  have hnot : ∀ b, (s.stopped || (b : Bool)) = (if b then true else s.stopped) := by
    intro b
    cases b <;> simp
  show Kept { desk := s.desk.perform readNumber digest action
              stopped := s.stopped || action.stops }
  rw [hnot]
  cases action with
  | sourceAck ack =>
    cases hparse : parseCommandAck readNumber digest ack with
    | none =>
      simp only [perform, hparse]
      exact h
    | some result =>
      obtain ⟨hstopped, hresult⟩ := hin result hparse
      simp only [perform, hparse]
      exact h.applySourceResult (source_of_parseCommandAck hparse) hstopped hresult
  | markStale => exact h.stop rfl rfl (by simp)
  | cancelPendingRun reason => exact h.stop rfl rfl (by simp)
  | projectionChanged tables => exact ⟨h.staged, h.sound, h.clean⟩

theorem kept_start {tables : BrokerTables} {run : ReconcileRun}
    (hcompleted : run.completedSources = []) (hstatus : run.status ≠ .clean) :
    Kept { desk := .start tables run } := by
  refine ⟨?_, ?_, fun hclean => absurd hclean hstatus⟩
  · intro source result hget
    exact absurd hget (by simp [start])
  · intro source _ hmem
    have hmem' : source ∈ run.completedSources := hmem
    rw [hcompleted] at hmem'
    exact absurd hmem' List.not_mem_nil

end WatchedRun

/-- What `_start_run` saves has no complete source and is not clean. -/
theorem startRun_spec {config : BrokerReconcileConfig} {account brokerEnv : String}
    {sources : List String} {dispatch : DispatchSummary} {run : ReconcileRun}
    (h : startRun config digest account brokerEnv sources dispatch = some run) :
    run.completedSources = [] ∧ run.status ≠ .clean := by
  simp only [startRun, ite_none_left_eq_some, some.injEq] at h
  obtain ⟨-, -, -, rfl⟩ := h
  refine ⟨rfl, ?_⟩
  dsimp only
  split
  · decide
  · split <;> decide

/-- A run is clean on sound data only, if its answers come in time: before it is stopped, with
every quantity of a required source read, and without a failure once its source is complete. -/
theorem clean_is_sound (readNumber : String → NumberText) (digest : String → String)
    (config : BrokerReconcileConfig) (account brokerEnv : String) (sources : List String)
    (dispatch : DispatchSummary) (tables : BrokerTables) (run : ReconcileRun)
    (actions : List ReconcileAction)
    (hstart : startRun config digest account brokerEnv sources dispatch = some run)
    (hin : (machine readNumber digest).Guarded (InTime readNumber digest)
      { desk := .start tables run } actions) :
    (machine readNumber digest).Always CleanIsSound { desk := .start tables run }
      actions := by
  obtain ⟨hcompleted, hstatus⟩ := startRun_spec hstart
  have hkept := Machine.always_of_guarded (I := Kept)
    (fun s action h hin => h.step hin) (kept_start hcompleted hstatus) hin
  exact hkept.imp fun s h => h.cleanIsSound

/-! ## Fixed runs -/

def readDigits (text : String) : NumberText :=
  if text.toList ≠ [] ∧ text.toList.all Char.isDigit then
    .value (text.toList.foldl (fun n c => 10 * n + (c.toNat - '0'.toNat)) 0)
  else .invalid

def fixedDigest (_ : String) : String := "0123456789ab"

def emptyTables : BrokerTables := ⟨.empty, .empty⟩

def startedRun : ReconcileRun where
  accountToken := "ACC_TOKEN_0123456789ab"
  status := .waitGateway
  requiredSources := ["OPEN_ORDERS", "ACCOUNT_POSITIONS"]
  completedSources := []
  snapshotComplete := false
  brokerTruthReady := false
  reconcileClean := false
  discrepancyCount := 0
  criticalDiscrepancyCount := 0
  warnings := ["RECONCILE_TR_DISPATCH_DISABLED"]
  errors := []

def ackOf (source : String) (complete : Bool) (rows : List TrRowFields) : ReconcileAction :=
  .sourceAck
    { logicalSource := source
      account := "8101234511"
      complete := complete
      parserErrors := []
      capturedSingle := .empty
      capturedRows := rows }

def samsungRow : TrRowFields := .ofList [("종목번호", "A005930"), ("보유수량", "10")]

def bothAnswered : List ReconcileAction :=
  [ackOf "OPEN_ORDERS" true [], ackOf "ACCOUNT_POSITIONS" true []]

/-- The general theorem at a run that becomes clean. -/
theorem clean_is_sound_bothAnswered :
    (machine readDigits fixedDigest).Always CleanIsSound
      { desk := .start emptyTables startedRun } bothAnswered :=
  clean_is_sound readDigits fixedDigest {} "8101234511" "SIMULATION" [] {} emptyTables startedRun
    bothAnswered (by decide +kernel) (by decide +kernel)

def retriedPositions : List ReconcileAction :=
  [ackOf "OPEN_ORDERS" true [], ackOf "ACCOUNT_POSITIONS" true [samsungRow],
    ackOf "ACCOUNT_POSITIONS" false []]

/-- The failed answer replaces the ten shares by nothing, and the run is clean. -/
theorem failed_retry_is_clean :
    startRun {} fixedDigest "8101234511" "SIMULATION" [] {} = some startedRun ∧
      ¬ (machine readDigits fixedDigest).Always CleanIsSound
        { desk := .start emptyTables startedRun } retriedPositions := by
  refine ⟨by decide +kernel, fun h => ?_⟩
  have hlast := Machine.always_iff_prefix.mp h _ List.prefix_rfl
  obtain ⟨-, hsound⟩ := hlast (by decide +kernel) (by decide +kernel)
  obtain ⟨result, hget, -, -, hresult⟩ := hsound "ACCOUNT_POSITIONS" (by decide +kernel)
  have hfailed : (((machine readDigits fixedDigest).run { desk := .start emptyTables startedRun }
      retriedPositions).desk.sourceResults.get? "ACCOUNT_POSITIONS").map (·.complete) =
        some false := by decide +kernel
  rw [hget, map_some, hresult.1.1] at hfailed
  exact absurd hfailed (by decide)

end TradingCore.BrokerReconcile
