import TradingCore.Candidates.RequestBook

/-!
# What holds of a candidate and its requests

`Tracked` is the invariant of one candidate, of its requests and of the commands that failed for it.
Each failure takes the candidate to a new generation, whose dedupe key no command of the candidate
has held before; so a retry is a new command, and it is made when the one before has finished.
-/

namespace TradingCore.Candidates

open Base Broker List

namespace CandidateHydrator

variable (h : CandidateHydrator)

/-! ## Keys of a candidate -/

/-- The idempotency key of a candidate in a generation of its retries. -/
def generationKey (candidate : Candidate) (generation : Nat) : String :=
  hydrationIdempotencyKey candidate.tradeDate candidate.code h.config.trCode
    (if generation = 0 then h.config.bucket
      else h.config.bucket ++ ":retry" ++ toString generation)

theorem requestKey_eq (candidate : Candidate) :
    h.requestKey candidate = h.generationKey candidate candidate.retryGeneration := rfl

theorem generationKey_injective (candidate : Candidate) :
    Function.Injective (h.generationKey candidate) := by
  intro generation other heq
  unfold generationKey hydrationIdempotencyKey at heq
  have hbucket := (String.append_right_inj _).mp heq
  have hretry : ∀ n : Nat, h.config.bucket ≠ h.config.bucket ++ ":retry" ++ toString n := by
    intro n hsame
    have hlength := congrArg String.length hsame
    rw [String.length_append, String.length_append] at hlength
    have : (":retry" : String).length = 6 := by decide
    omega
  by_cases hzero : generation = 0
  · by_cases hzero' : other = 0
    · rw [hzero, hzero']
    · rw [if_pos hzero, if_neg hzero'] at hbucket
      exact absurd hbucket (hretry other)
  · by_cases hzero' : other = 0
    · rw [if_neg hzero, if_pos hzero'] at hbucket
      exact absurd hbucket.symm (hretry generation)
    · rw [if_neg hzero, if_neg hzero'] at hbucket
      have hdigits := congrArg String.toList ((String.append_right_inj _).mp hbucket)
      rw [Nat.toString_eq_repr, Nat.toString_eq_repr, Nat.toList_repr, Nat.toList_repr] at hdigits
      rw [← @Nat.ofDigitChars_ten_toDigits generation, hdigits, Nat.ofDigitChars_ten_toDigits]

theorem requestKey_ne_empty (candidate : Candidate) : h.requestKey candidate ≠ "" := by
  intro hempty
  have hlength := congrArg String.length hempty
  unfold requestKey hydrationIdempotencyKey at hlength
  simp only [String.length_append] at hlength
  have : ("candidate_hydration:" : String).length = 20 := by decide
  have : ("" : String).length = 0 := by decide
  omega

/-! ## The invariant of a candidate -/

/-- The command was requested in an earlier generation of the candidate. -/
def HeldBefore (g : GatewayStateStore) (candidate : Candidate) (commandId : String) : Prop :=
  ∃ generation, generation < candidate.retryGeneration ∧
    g.HoldsOnly commandId (h.generationKey candidate generation)

/-- The command of a request that the candidate waits on no more: it has finished, if it was
accepted, and is of an earlier generation. -/
structure Over (g : GatewayStateStore) (candidate : Candidate) (ask : HydrationAsk) : Prop where
  finished : ask.accepted = true → g.outstanding ask.commandId = false
  before : h.HeldBefore g candidate ask.commandId

/-- What holds of a candidate, its requests and the commands that failed for it. -/
structure Tracked (g : GatewayStateStore) (candidate : Candidate) (asks : List HydrationAsk)
    (failed : List String) : Prop where
  status : candidate.hydration.statusText ∈ ["", "PENDING", "ACKED", "RETRY_WAIT", "FAILED"]
  distinct : failed.Nodup
  counted : candidate.hydration.retryCount = failed.length
  asked : ∀ commandId ∈ failed, ∃ ask ∈ asks, ask.commandId = commandId
  bounded : (asks.countP (·.accepted) : Int) ≤ h.config.maxAttempts
  single : ∀ ask ∈ asks, ∀ other ∈ asks, ask.accepted = true → other.accepted = true →
    g.outstanding ask.commandId = true → g.outstanding other.commandId = true →
      ask.commandId = other.commandId
  new : candidate.hydration.statusText = "" →
    asks = [] ∧ failed = [] ∧ candidate.hydration.retryAfterAt = none
  idle : candidate.hydration.statusText ∈ ["RETRY_WAIT", "FAILED"] →
    asks.countP (·.accepted) ≤ candidate.hydration.retryCount ∧ ∀ ask ∈ asks, h.Over g candidate ask
  retry : candidate.hydration.statusText = "RETRY_WAIT" →
    candidate.hydration.retryAfterAt.isSome ∧
      (candidate.hydration.retryCount : Int) < h.config.maxAttempts
  lost : candidate.hydration.statusText = "FAILED" →
    max 1 h.config.maxAttempts ≤ (candidate.hydration.retryCount : Int)
  waits : candidate.hydration.statusText = "PENDING" →
    asks.countP (·.accepted) ≤ candidate.hydration.retryCount + 1 ∧
    (candidate.hydration.retryCount : Int) < h.config.maxAttempts ∧
    candidate.hydration.commandId ∉ failed ∧
    (∃ ask ∈ asks, ask.commandId = candidate.hydration.commandId) ∧
    g.HoldsOnly candidate.hydration.commandId (h.requestKey candidate) ∧
    ∀ ask ∈ asks, ask.commandId = candidate.hydration.commandId ∨ h.Over g candidate ask

variable {h} {g g' : GatewayStateStore} {candidate saved : Candidate} {asks : List HydrationAsk}
  {failed : List String}

theorem generationKey_congr (hsame : SameHydration candidate saved) (generation : Nat) :
    h.generationKey saved generation = h.generationKey candidate generation := by
  unfold generationKey
  rw [hsame.tradeDate, hsame.code]

theorem tracked_new (hattempts : 1 ≤ h.config.maxAttempts) (g : GatewayStateStore)
    (hnone : candidate.hydration = {}) : h.Tracked g candidate [] [] := by
  have hstatus : candidate.hydration.statusText = "" := by
    rw [hnone]
    decide
  refine
    { status := ?_, distinct := nodup_nil, counted := ?_, asked := ?_, bounded := ?_
      single := ?_, new := ?_, idle := ?_, retry := ?_, lost := ?_, waits := ?_ }
  · rw [hstatus]
    exact mem_cons_self
  · rw [hnone]
    rfl
  · intro commandId hcommand
    cases hcommand
  · rw [countP_nil]
    omega
  · intro ask hask
    cases hask
  · intro _
    rw [hnone]
    exact ⟨rfl, rfl, rfl⟩
  all_goals
    rw [hstatus]
    exact fun hother => absurd hother (by decide)

theorem Tracked.same (htracked : h.Tracked g candidate asks failed)
    (hsame : SameHydration candidate saved) : h.Tracked g saved asks failed := by
  have hgeneration : saved.retryGeneration = candidate.retryGeneration := by
    unfold Candidate.retryGeneration
    rw [hsame.hydration]
  have hover : ∀ ask, h.Over g candidate ask → h.Over g saved ask := by
    rintro ask ⟨hfinished, generation, hlt, hholds⟩
    refine ⟨hfinished, generation, hgeneration ▸ hlt, ?_⟩
    rw [generationKey_congr hsame]
    exact hholds
  have hkey : h.requestKey saved = h.requestKey candidate := by
    rw [requestKey_eq, requestKey_eq, hgeneration, generationKey_congr hsame]
  obtain ⟨hstatus, hdistinct, hcounted, hasked, hbounded, hsingle, hnew, hidle, hretry, hlost,
    hwaits⟩ := htracked
  rw [← hsame.hydration] at hstatus hcounted hnew hidle hretry hlost hwaits
  refine ⟨hstatus, hdistinct, hcounted, hasked, hbounded, hsingle, hnew, ?_, hretry, hlost, ?_⟩
  · intro hstatus
    obtain ⟨hcount, hasks⟩ := hidle hstatus
    exact ⟨hcount, fun ask hask => hover ask (hasks ask hask)⟩
  · intro hpending
    obtain ⟨hcount, hleft, hfresh, hask, hholds, hasks⟩ := hwaits hpending
    exact ⟨hcount, hleft, hfresh, hask, hkey ▸ hholds,
      fun ask hmem => (hasks ask hmem).imp_right (hover ask)⟩

/-- What the gateway state store keeps of a command: the keys it holds, and that it has finished. -/
structure KeepsCommand (g g' : GatewayStateStore) (commandId : String) : Prop where
  holds : ∀ key, g.HoldsOnly commandId key → g'.HoldsOnly commandId key
  finished : g'.outstanding commandId = true → g.outstanding commandId = true

variable {commandId : String} {ask : HydrationAsk} {moment : HydrationMoment}

theorem KeepsCommand.not_outstanding (hkeeps : KeepsCommand g g' commandId)
    (hfinished : g.outstanding commandId = false) : g'.outstanding commandId = false := by
  rw [← Bool.not_eq_true] at hfinished ⊢
  exact fun hopen => hfinished (hkeeps.finished hopen)

theorem Over.gateway (hover : h.Over g candidate ask) (hkeeps : KeepsCommand g g' ask.commandId) :
    h.Over g' candidate ask := by
  obtain ⟨hfinished, generation, hlt, hholds⟩ := hover
  exact ⟨fun haccepted => hkeeps.not_outstanding (hfinished haccepted), generation, hlt,
    hkeeps.holds _ hholds⟩

theorem Tracked.gateway (htracked : h.Tracked g candidate asks failed)
    (hkeeps : ∀ ask ∈ asks, KeepsCommand g g' ask.commandId) :
    h.Tracked g' candidate asks failed := by
  refine { htracked with single := ?_, idle := ?_, waits := ?_ }
  · intro ask hask other hother haccepted haccepted' hopen hopen'
    exact htracked.single ask hask other hother haccepted haccepted'
      ((hkeeps ask hask).finished hopen) ((hkeeps other hother).finished hopen')
  · intro hstatus
    obtain ⟨hcount, hasks⟩ := htracked.idle hstatus
    exact ⟨hcount, fun ask hask => (hasks ask hask).gateway (hkeeps ask hask)⟩
  · intro hpending
    obtain ⟨hcount, hleft, hfresh, ⟨ask, hask, hwaits⟩, hholds, hasks⟩ := htracked.waits hpending
    refine ⟨hcount, hleft, hfresh, ⟨ask, hask, hwaits⟩, ?_, ?_⟩
    · rw [← hwaits] at hholds ⊢
      exact (hkeeps ask hask).holds _ hholds
    · exact fun ask hask => (hasks ask hask).imp_right fun hover => hover.gateway (hkeeps ask hask)

theorem failedHydration_cases (h : CandidateHydrator) (hydration : CandidateHydration) (answer : HydrationAnswer)
    (idempotencyKey reason : String) (parsed : Mapping) (moment : HydrationMoment) :
    ((h.failedHydration hydration answer idempotencyKey reason parsed moment).statusText =
        "RETRY_WAIT" ∧
      (h.failedHydration hydration answer idempotencyKey reason parsed moment).retryAfterAt.isSome ∧
      ((hydration.retryCount + 1 : Nat) : Int) < max 1 h.config.maxAttempts) ∨
    ((h.failedHydration hydration answer idempotencyKey reason parsed moment).statusText =
        "FAILED" ∧
      max 1 h.config.maxAttempts ≤ ((hydration.retryCount + 1 : Nat) : Int)) := by
  unfold CandidateHydration.statusText failedHydration
  dsimp only
  by_cases hretryable : ((hydration.retryCount + 1 : Nat) : Int) < max 1 h.config.maxAttempts
  · rw [decide_eq_true hretryable]
    exact .inl ⟨by decide, rfl, hretryable⟩
  · rw [decide_eq_false hretryable]
    exact .inr ⟨by decide, not_lt.mp hretryable⟩

theorem Tracked.markFailure (hattempts : 1 ≤ h.config.maxAttempts)
    (htracked : h.Tracked g candidate asks failed) {answer : HydrationAnswer}
    (hwaiting : candidate.waitingOn answer.commandId = true)
    (hfinished : g.outstanding answer.commandId = false) (idempotencyKey reason : String)
    (parsed : Mapping) (moment : HydrationMoment) :
    h.Tracked g (h.afterFailure candidate answer idempotencyKey reason parsed moment) asks
      (failed ++ [answer.commandId]) := by
  unfold Candidate.waitingOn at hwaiting
  rw [decide_eq_true_iff] at hwaiting
  obtain ⟨-, hcommandId, hpending⟩ := hwaiting
  obtain ⟨hcount, hleft, hfresh, ⟨ask, hask, hwaits⟩, hholds, hasks⟩ := htracked.waits hpending
  rw [hcommandId] at hfresh hwaits hholds hasks
  refine Tracked.same ?_ (h.sameHydration_afterFailure candidate answer idempotencyKey reason parsed
    moment)
  generalize hmarked : h.failedCandidate candidate answer idempotencyKey reason parsed moment =
    marked
  have hhydration : marked.hydration =
      h.failedHydration candidate.hydration answer idempotencyKey reason parsed moment := by
    rw [← hmarked]
    rfl
  have hretryCount : marked.hydration.retryCount = candidate.hydration.retryCount + 1 := by
    rw [hhydration]
    rfl
  have hgeneration : marked.retryGeneration = candidate.retryGeneration + 1 := by
    unfold Candidate.retryGeneration
    rw [hhydration]
    exact Nat.add_max_add_right _ _ 1
  have hkey : ∀ generation, h.generationKey marked generation =
      h.generationKey candidate generation := by
    intro generation
    rw [← hmarked]
    rfl
  have hcases := h.failedHydration_cases candidate.hydration answer idempotencyKey reason parsed
    moment
  rw [← hhydration] at hcases
  have hstatus : marked.hydration.statusText ∈ ["RETRY_WAIT", "FAILED"] := by
    rcases hcases with ⟨hretry, -⟩ | ⟨hlost, -⟩
    · rw [hretry]
      exact mem_cons_self
    · rw [hlost]
      exact mem_cons_of_mem _ mem_cons_self
  have hover : ∀ ask ∈ asks, h.Over g marked ask := by
    intro ask hask
    rcases hasks ask hask with hthis | ⟨hended, generation, hlt, hkept⟩
    · refine ⟨fun _ => hthis ▸ hfinished, candidate.retryGeneration, by omega, ?_⟩
      rw [hthis, hkey, ← requestKey_eq]
      exact hholds
    · exact ⟨hended, generation, by omega, hkey generation ▸ hkept⟩
  refine
    { status := ?_, distinct := ?_, counted := ?_, asked := ?_, bounded := htracked.bounded
      single := htracked.single, new := ?_, idle := fun _ => ⟨by omega, hover⟩, retry := ?_
      lost := ?_, waits := ?_ }
  · exact mem_of_mem_drop (i := 3) hstatus
  · rw [← concat_eq_append]
    exact htracked.distinct.concat hfresh
  · rw [hretryCount, htracked.counted, length_append, length_singleton]
  · intro commandId hcommand
    rcases mem_append.mp hcommand with hbefore | hlast
    · exact htracked.asked commandId hbefore
    · exact ⟨ask, hask, hwaits.trans (mem_singleton.mp hlast).symm⟩
  · intro hnone
    rw [hnone] at hstatus
    exact absurd hstatus (by decide)
  · intro hretry
    rcases hcases with ⟨-, hdue, hleft⟩ | ⟨hlost, -⟩
    · exact ⟨hdue, by omega⟩
    · rw [hretry] at hlost
      exact absurd hlost (by decide)
  · intro hlost
    rcases hcases with ⟨hretry, -⟩ | ⟨-, hnone⟩
    · rw [hlost] at hretry
      exact absurd hretry (by decide)
    · omega
  · intro hwaits'
    rw [hwaits'] at hstatus
    exact absurd hstatus (by decide)

theorem Tracked.mergeAck (htracked : h.Tracked g candidate asks failed) (answer : HydrationAnswer)
    (idempotencyKey : String) (parsed : Mapping) (moment : HydrationMoment) :
    h.Tracked g (h.afterMerge candidate answer idempotencyKey parsed moment) asks failed := by
  have hstatus : (h.afterMerge candidate answer idempotencyKey parsed
      moment).hydration.statusText = "ACKED" := by
    unfold CandidateHydration.statusText
    rw [h.afterMerge_status]
    decide
  have hcounted := h.afterMerge_retryCount candidate answer idempotencyKey parsed moment
  generalize h.afterMerge candidate answer idempotencyKey parsed moment = merged at hstatus hcounted
  refine
    { status := ?_, distinct := htracked.distinct, counted := hcounted.trans htracked.counted
      asked := htracked.asked, bounded := htracked.bounded, single := htracked.single, new := ?_
      idle := ?_, retry := ?_, lost := ?_, waits := ?_ }
  all_goals rw [hstatus]
  · decide
  all_goals exact fun hother => absurd hother (by decide)

/-- A candidate that may ask for its data: it has attempts left, its commands have finished, and its
retry time has come. -/
structure Ready (h : CandidateHydrator) (g : GatewayStateStore) (candidate : Candidate)
    (asks : List HydrationAsk) (moment : HydrationMoment) : Prop where
  attempts : asks.countP (·.accepted) ≤ candidate.hydration.retryCount
  left : (candidate.hydration.retryCount : Int) < h.config.maxAttempts
  finished : ∀ ask ∈ asks, h.Over g candidate ask
  due : ∀ due ∈ candidate.hydration.retryAfterAt, due ≤ moment.seconds

theorem Tracked.ready (hattempts : 1 ≤ h.config.maxAttempts)
    (htracked : h.Tracked g candidate asks failed)
    (hneeds : h.needsHydration candidate moment = true) : Ready h g candidate asks moment := by
  have hcounted := htracked.counted
  unfold needsHydration at hneeds
  dsimp only at hneeds
  have hstatus := htracked.status
  simp only [mem_cons, not_mem_nil, or_false] at hstatus
  rcases hstatus with hnone | hpending | hacked | hretry | hlost
  · obtain ⟨rfl, rfl, hdue⟩ := htracked.new hnone
    rw [length_nil] at hcounted
    refine ⟨Nat.zero_le _, by omega, ?_, ?_⟩
    · intro ask hask
      cases hask
    · intro due hmem
      rw [hdue] at hmem
      cases hmem
  · rw [hpending, if_neg (by decide), if_pos rfl] at hneeds
    cases hneeds
  · rw [hacked, if_pos (by decide)] at hneeds
    cases hneeds
  · have hidle : candidate.hydration.statusText ∈ ["RETRY_WAIT", "FAILED"] := by
      rw [hretry]
      exact mem_cons_self
    obtain ⟨hcount, hover⟩ := htracked.idle hidle
    refine ⟨hcount, (htracked.retry hretry).2, hover, ?_⟩
    intro due hdue
    rw [hretry, if_neg (by decide), if_neg (by decide), if_neg (by simp), if_pos rfl,
      Option.mem_def.mp hdue] at hneeds
    exact not_lt.mp (of_decide_eq_true hneeds)
  · rw [hlost, if_neg (by decide), if_neg (by decide),
      if_pos ⟨rfl, htracked.lost hlost⟩] at hneeds
    cases hneeds

/-- What a request leaves of a candidate: it waits on a command, in the generation that it was in. -/
structure WaitsOn (h : CandidateHydrator) (candidate waiting : Candidate) (commandId : String) :
    Prop where
  retryCount : waiting.hydration.retryCount = candidate.hydration.retryCount
  commandId : waiting.hydration.commandId = commandId
  status : waiting.hydration.statusText = "PENDING"
  generation : waiting.retryGeneration = candidate.retryGeneration
  key : ∀ generation, h.generationKey waiting generation = h.generationKey candidate generation

theorem waitsOn_of_requested {command : GatewayCommand}
    (hsame : SameHydration (requestedCandidate candidate command commandId moment) saved) :
    WaitsOn h candidate saved commandId := by
  refine ⟨?_, ?_, ?_, ?_, ?_⟩
  · rw [hsame.hydration]
    rfl
  · rw [hsame.hydration]
    rfl
  · rw [hsame.hydration]
    show Text.upper ((Value.str "PENDING").or (.str "")).text = "PENDING"
    decide
  · unfold Candidate.retryGeneration
    rw [hsame.hydration]
    exact max_eq_left (le_max_right _ _)
  · intro generation
    rw [generationKey_congr hsame]
    rfl

theorem WaitsOn.over (hwaits : WaitsOn h candidate saved commandId)
    (hover : h.Over g candidate ask) : h.Over g saved ask := by
  obtain ⟨hfinished, generation, hlt, hholds⟩ := hover
  exact ⟨hfinished, generation, hwaits.generation ▸ hlt, hwaits.key generation ▸ hholds⟩

theorem WaitsOn.requestKey (hwaits : WaitsOn h candidate saved commandId) :
    h.requestKey saved = h.requestKey candidate := by
  rw [requestKey_eq, requestKey_eq, hwaits.generation, hwaits.key]

theorem Tracked.wait (htracked : h.Tracked g candidate asks failed)
    (hready : Ready h g candidate asks moment)
    (hkeeps : ∀ other ∈ asks, KeepsCommand g g' other.commandId)
    (hnew : ∀ other ∈ asks, other.commandId ≠ ask.commandId)
    (hholds : g'.HoldsOnly ask.commandId (h.requestKey candidate))
    (hwaits : WaitsOn h candidate saved ask.commandId) :
    h.Tracked g' saved (asks ++ [ask]) failed := by
  have hover : ∀ other ∈ asks, h.Over g' saved other := fun other hother =>
    hwaits.over ((hready.finished other hother).gateway (hkeeps other hother))
  have hcount : (asks ++ [ask]).countP (·.accepted) ≤ candidate.hydration.retryCount + 1 := by
    have hone := countP_le_length (p := (·.accepted)) (l := [ask])
    rw [countP_append]
    exact Nat.add_le_add hready.attempts hone
  refine
    { status := ?_, distinct := htracked.distinct
      counted := hwaits.retryCount.trans htracked.counted, asked := ?_, bounded := ?_, single := ?_
      new := ?_, idle := ?_, retry := ?_, lost := ?_, waits := ?_ }
  · rw [hwaits.status]
    decide
  · intro commandId hcommand
    obtain ⟨other, hother, hthis⟩ := htracked.asked commandId hcommand
    exact ⟨other, mem_append_left _ hother, hthis⟩
  · have := hready.left
    omega
  · -- of all requests only the new one can be outstanding
    have hlast : ∀ other ∈ asks ++ [ask], other.accepted = true →
        g'.outstanding other.commandId = true → other = ask := by
      intro other hother haccepted hopen
      rcases mem_append.mp hother with hbefore | hthis
      · rw [(hover other hbefore).finished haccepted] at hopen
        cases hopen
      · exact mem_singleton.mp hthis
    intro one hone other hother haccepted haccepted' hopen hopen'
    rw [hlast one hone haccepted hopen, hlast other hother haccepted' hopen']
  · rw [hwaits.status]
    exact fun hother => absurd hother (by decide)
  · rw [hwaits.status]
    exact fun hother => absurd hother (by decide)
  · rw [hwaits.status]
    exact fun hother => absurd hother (by decide)
  · rw [hwaits.status]
    exact fun hother => absurd hother (by decide)
  · intro _
    rw [hwaits.retryCount, hwaits.commandId, hwaits.requestKey]
    refine ⟨hcount, hready.left, ?_, ?_, hholds, ?_⟩
    · intro hfailed
      obtain ⟨other, hother, hthis⟩ := htracked.asked _ hfailed
      exact hnew other hother hthis
    · exact ⟨ask, mem_append_right _ (mem_singleton_self _), rfl⟩
    · intro other hother
      rcases mem_append.mp hother with hbefore | hthis
      · exact .inr (hover other hbefore)
      · exact .inl (congrArg _ (mem_singleton.mp hthis))

theorem Tracked.waitAgain (htracked : h.Tracked g candidate asks failed)
    (hwaiting : candidate.waitingOn ask.commandId = true) (hrefused : ask.accepted = false)
    (hwaits : WaitsOn h candidate saved ask.commandId) :
    h.Tracked g saved (asks ++ [ask]) failed := by
  unfold Candidate.waitingOn at hwaiting
  rw [decide_eq_true_iff] at hwaiting
  obtain ⟨-, hcommandId, hpending⟩ := hwaiting
  obtain ⟨hcount, hleft, hfresh, -, hholds, hasks⟩ := htracked.waits hpending
  rw [hcommandId] at hfresh hholds hasks
  have hsame : (asks ++ [ask]).countP (·.accepted) = asks.countP (·.accepted) := by
    rw [countP_append, countP_singleton, hrefused]
    rfl
  have hbefore : ∀ other ∈ asks ++ [ask], other.accepted = true → other ∈ asks := by
    intro other hother haccepted
    rcases mem_append.mp hother with hbefore | hthis
    · exact hbefore
    · rw [mem_singleton.mp hthis, hrefused] at haccepted
      cases haccepted
  refine
    { status := ?_, distinct := htracked.distinct
      counted := hwaits.retryCount.trans htracked.counted, asked := ?_
      bounded := hsame ▸ htracked.bounded, single := ?_, new := ?_, idle := ?_, retry := ?_
      lost := ?_, waits := ?_ }
  · rw [hwaits.status]
    decide
  · intro commandId hcommand
    obtain ⟨other, hother, hthis⟩ := htracked.asked commandId hcommand
    exact ⟨other, mem_append_left _ hother, hthis⟩
  · intro one hone other hother haccepted haccepted'
    exact htracked.single one (hbefore one hone haccepted) other (hbefore other hother haccepted')
      haccepted haccepted'
  · rw [hwaits.status]
    exact fun hother => absurd hother (by decide)
  · rw [hwaits.status]
    exact fun hother => absurd hother (by decide)
  · rw [hwaits.status]
    exact fun hother => absurd hother (by decide)
  · rw [hwaits.status]
    exact fun hother => absurd hother (by decide)
  · intro _
    rw [hwaits.retryCount, hwaits.commandId, hwaits.requestKey, hsame]
    refine ⟨hcount, hleft, hfresh, ?_, hholds, ?_⟩
    · exact ⟨ask, mem_append_right _ (mem_singleton_self _), rfl⟩
    · intro other hother
      rcases mem_append.mp hother with hbefore | hthis
      · exact (hasks other hbefore).imp_right hwaits.over
      · exact .inl (congrArg _ (mem_singleton.mp hthis))

end CandidateHydrator

end TradingCore.Candidates
