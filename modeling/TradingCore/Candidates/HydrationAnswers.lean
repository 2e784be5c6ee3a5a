import TradingCore.Candidates.HydrationCommands

/-!
# What an answer does to its candidate

`markFailure` and `mergeAck` rewrite one candidate, the one that the answer resolves to, and pass
it to the state machine, which keeps its hydration. A failure never moves a candidate that is past
waiting for data (`afterFailure_state`), but it counts against whatever command the candidate
waits on now. A merge sets `WATCHING` or `WAIT_DATA` whatever the state was, so a late answer
brings a removed candidate back. `answers_only_advance_iff` says exactly when no answer does such
a thing.
-/

namespace TradingCore.Candidates

open Base Broker CandidateFsmService CandidateStateContractService List CandidateHydration
open CandidateRuntimeState

/-! ## The state machine keeps the hydration -/

namespace CandidateFsmService

variable (service : CandidateFsmService)

theorem apply_hydration (candidate : Candidate) (target : CandidateRuntimeState) (reason : String)
    (stage : CandidateBlockingStage) (source : TransitionSource) (details : Mapping)
    (now : String) :
    (service.apply candidate target reason stage source details now).1.metadata.candidateHydration =
      candidate.metadata.candidateHydration := by
  unfold apply reconcileStateContract
  dsimp only
  cases service.contract with
  | none => rfl
  | some contract =>
    generalize candidate.metadata.candidateFsm.written target reason stage source.eventId details
      now = fsm
    obtain ⟨state, lastSeenAt, record, h⟩ := contract.reconcileCandidate_frame
      { candidate with metadata := { candidate.metadata with candidateFsm := fsm } } now
    dsimp only
    rw [h]

theorem promote_hydration (candidate : Candidate) (target : CandidateRuntimeState)
    (reason : String) (stage : CandidateBlockingStage) (source : TransitionSource)
    (details : Mapping) (now : String) :
    (service.promote candidate target reason stage source details now).1.metadata.candidateHydration =
      candidate.metadata.candidateHydration := by
  unfold promote
  split
  · exact service.apply_hydration ..
  · exact service.apply_hydration ..

end CandidateFsmService

/-- What hearing of an event leaves of a candidate: its key and its hydration. -/
structure SameHydration (before after : Candidate) : Prop where
  tradeDate : after.tradeDate = before.tradeDate
  code : after.code = before.code
  hydration : after.hydration = before.hydration

theorem sameHydration_of_follows {before after : Candidate}
    (hfollows : Follows before after)
    (hhydration : after.metadata.candidateHydration = before.metadata.candidateHydration) :
    SameHydration before after := by
  refine ⟨hfollows.tradeDate, hfollows.code, ?_⟩
  unfold Candidate.hydration
  rw [hhydration]

namespace CandidateHydrator

variable (h : CandidateHydrator)

/-! ## The candidate after an answer -/

variable (candidate : Candidate)

theorem sameHydration_afterFailure (answer : HydrationAnswer) (idempotencyKey reason : String)
    (parsed : Mapping) (moment : HydrationMoment) :
    SameHydration (h.failedCandidate candidate answer idempotencyKey reason parsed moment)
      (h.afterFailure candidate answer idempotencyKey reason parsed moment) :=
  sameHydration_of_follows (follows_apply ..) (apply_hydration ..)

theorem sameHydration_afterMerge (answer : HydrationAnswer) (idempotencyKey : String)
    (parsed : Mapping) (moment : HydrationMoment) :
    SameHydration (h.mergedCandidate candidate answer idempotencyKey parsed moment)
      (h.afterMerge candidate answer idempotencyKey parsed moment) := by
  unfold afterMerge onHydrationResult
  dsimp only
  split
  · exact sameHydration_of_follows (follows_promote ..) (promote_hydration ..)
  · exact sameHydration_of_follows (follows_apply ..) (apply_hydration ..)

theorem sameHydration_onHydrationRequested (now : String) :
    SameHydration candidate (h.fsm.onHydrationRequested candidate now).1 :=
  sameHydration_of_follows (follows_promote ..) (promote_hydration ..)

theorem afterFailure_status (answer : HydrationAnswer) (idempotencyKey reason : String)
    (parsed : Mapping) (moment : HydrationMoment) :
    (h.afterFailure candidate answer idempotencyKey reason parsed moment).hydration.statusText ∈
      ["RETRY_WAIT", "FAILED"] := by
  rw [(h.sameHydration_afterFailure ..).hydration]
  show statusText (h.failedHydration _ _ _ _ _ _) ∈ _
  unfold statusText failedHydration
  dsimp only
  split
  · decide
  · decide

theorem afterMerge_status (answer : HydrationAnswer) (idempotencyKey : String) (parsed : Mapping)
    (moment : HydrationMoment) :
    (h.afterMerge candidate answer idempotencyKey parsed moment).hydration.status =
      .str "ACKED" := by
  rw [(h.sameHydration_afterMerge ..).hydration]
  rfl

theorem afterMerge_retryCount (answer : HydrationAnswer) (idempotencyKey : String)
    (parsed : Mapping) (moment : HydrationMoment) :
    (h.afterMerge candidate answer idempotencyKey parsed moment).hydration.retryCount =
      candidate.hydration.retryCount := by
  rw [(h.sameHydration_afterMerge ..).hydration]
  rfl

theorem afterFailure_retryCount (answer : HydrationAnswer) (idempotencyKey reason : String)
    (parsed : Mapping) (moment : HydrationMoment) :
    (h.afterFailure candidate answer idempotencyKey reason parsed moment).hydration.retryCount =
      candidate.hydration.retryCount + 1 := by
  rw [(h.sameHydration_afterFailure ..).hydration]
  rfl

theorem not_hydrationComplete_of_failed {candidate : Candidate}
    (hstatus : candidate.hydration.statusText ∈ ["RETRY_WAIT", "FAILED"])
    (hbasic : candidate.hydration.basicHydrationComplete = .bool false) :
    h.contract.hydrationComplete candidate = false := by
  unfold Candidate.hydration at hstatus hbasic
  unfold hydrationComplete
  cases hsection : candidate.metadata.candidateHydration with
  | none =>
    rw [hsection] at hbasic
    cases hbasic
  | some hydration =>
    rw [hsection, Option.getD_some] at hstatus hbasic
    have hpending : Text.upper (hydration.status.or (.str "")).text ∉ ["ACKED", "MERGED", "OK"] := by
      rcases mem_cons.mp hstatus with heq | htail
      · show statusText hydration ∉ _
        rw [heq]
        decide
      · show statusText hydration ∉ _
        rw [mem_singleton.mp htail]
        decide
    dsimp only
    rw [hbasic, if_neg (by decide), if_pos hpending]

theorem afterFailure_state {candidate : Candidate} (answer : HydrationAnswer)
    (idempotencyKey reason : String) (parsed : Mapping) (moment : HydrationMoment)
    (hpast : ¬ waitsForData candidate) :
    (h.afterFailure candidate answer idempotencyKey reason parsed moment).state =
      candidate.state := by
  unfold afterFailure applyBlockingReason apply
  dsimp only
  generalize CandidateFsm.written _ _ _ _ _ _ _ = fsm
  have hbefore : (h.failedCandidate candidate answer idempotencyKey reason parsed moment).state =
      candidate.state := if_neg hpast
  have hincomplete : h.contract.hydrationComplete
      { h.failedCandidate candidate answer idempotencyKey reason parsed moment with
        metadata := { (h.failedCandidate candidate answer idempotencyKey reason parsed
          moment).metadata with candidateFsm := fsm } } = false := by
    refine h.not_hydrationComplete_of_failed ?_ rfl
    have hstatus := h.afterFailure_status candidate answer idempotencyKey reason parsed moment
    rw [(h.sameHydration_afterFailure ..).hydration] at hstatus
    exact hstatus
  rcases h.contract.reconcileCandidate_cases
      { h.failedCandidate candidate answer idempotencyKey reason parsed moment with
        metadata := { (h.failedCandidate candidate answer idempotencyKey reason parsed
          moment).metadata with candidateFsm := fsm } } moment.now with
    hsame | ⟨-, ⟨hcomplete, -, -⟩ | ⟨hwaits, -⟩⟩
  · show (h.contract.reconcileCandidate _ _).1.state = _
    rw [hsame]
    exact hbefore
  · rw [hincomplete] at hcomplete
    cases hcomplete
  · have hwaits' : (h.failedCandidate candidate answer idempotencyKey reason parsed moment).state ∈
        [.detected, .hydrating, .waitData] := hwaits
    rw [hbefore] at hwaits'
    exact absurd hwaits' hpast

theorem reconcile_waitData_iff {candidate : Candidate} (now : String)
    (hstate : candidate.state = .waitData)
    (hv2 : candidate.metadata.candidateFsm.v2State = watching.value)
    (hstatus : candidate.hydration.statusText = "ACKED") :
    (h.contract.reconcileCandidate candidate now).1.state = .watching ↔
      h.contract.enabled = true ∧ h.contract.hydrationComplete candidate = true ∧
        activeSourceExists candidate = true := by
  have hlive : isTerminal candidate = false := by
    unfold isTerminal
    rw [hstate]
    decide
  have hready : lifecycleReadiness candidate (h.contract.hydrationComplete candidate) false =
      if h.contract.hydrationComplete candidate then .hydrationComplete else .discovered := by
    unfold Candidate.hydration at hstatus
    unfold lifecycleReadiness
    cases hsection : candidate.metadata.candidateHydration with
    | none =>
      rw [hsection] at hstatus
      exact absurd hstatus (by decide)
    | some hydration =>
      rw [hsection, Option.getD_some] at hstatus
      have htext : Text.upper (hydration.status.or (.str "")).text = "ACKED" := hstatus
      simp [htext, hstate]
  have hcontract : contractV2State candidate = .watching := by
    unfold contractV2State
    rw [hv2, ofValue?_value]
    simp
  have htarget : h.contract.projectLegacyState candidate =
      if h.contract.hydrationComplete candidate then .watching else .waitData := by
    unfold projectLegacyState
    rw [hlive, hready, hcontract]
    cases h.contract.hydrationComplete candidate with
    | false => rfl
    | true => rfl
  have hterminal : (h.contract.snapshot candidate).terminal = false := hlive
  unfold reconcileCandidate
  dsimp only
  rw [htarget, hterminal]
  cases henabled : h.contract.enabled with
  | false => simp [hstate]
  | true =>
    cases hcomplete : h.contract.hydrationComplete candidate with
    | false => simp [hstate]
    | true =>
      have hallowed : stateChangeAllowed candidate .watching
          (h.contract.snapshot candidate) = activeSourceExists candidate := by
        rw [hcomplete] at hready
        unfold stateChangeAllowed
        simp [snapshot, hlive, hcomplete, hready]
      simp only [if_true, hallowed, hstate]
      cases activeSourceExists candidate with
      | false => simp [hstate]
      | true => simp [withState]

/-- Does a merge leave a watched candidate watched? The data are enough, or the state contract
finds them complete and a source active. -/
def staysWatching (candidate : Candidate) (parsed : Mapping) : Prop :=
  (h.minimumWatchingData candidate parsed).1 = true ∨
    h.contract.enabled = true ∧
      h.contract.basicHydrationPayloadComplete candidate parsed = true ∧
      activeSourceExists { candidate with state := .waitData } = true

/-- A merge has the state machine apply `WATCHING` to what it merged. -/
theorem afterMerge_eq_apply (answer : HydrationAnswer) (idempotencyKey : String) (parsed : Mapping)
    (moment : HydrationMoment) :
    ∃ reason stage source details,
      h.afterMerge candidate answer idempotencyKey parsed moment =
        (h.fsm.apply (h.mergedCandidate candidate answer idempotencyKey parsed moment) .watching
          reason stage source details moment.now).1 := by
  have hstate : (h.mergedCandidate candidate answer idempotencyKey parsed moment).state ∈
      [.watching, .waitData] := by
    unfold mergedCandidate
    dsimp only
    split
    · decide
    · decide
  unfold afterMerge onHydrationResult
  dsimp only
  split
  · unfold promote
    rw [if_neg (by simp), promoteTarget_watching]
    exact ⟨_, _, _, _, rfl⟩
  · have htarget : blockingTarget
        (h.mergedCandidate candidate answer idempotencyKey parsed moment) .data = .watching := by
      unfold blockingTarget waitsOrWatches
      rcases mem_cons.mp hstate with hwatching | hwaits
      · simp [hwatching, legacyToV2State]
      · simp [mem_singleton.mp hwaits, legacyToV2State]
    unfold applyBlockingReason
    rw [htarget]
    exact ⟨_, _, _, _, rfl⟩

theorem mergedCandidate_state (answer : HydrationAnswer) (idempotencyKey : String)
    (parsed : Mapping) (moment : HydrationMoment) :
    (h.mergedCandidate candidate answer idempotencyKey parsed moment).state =
      if (h.minimumWatchingData candidate parsed).1 then .watching else .waitData := by
  simp only [mergedCandidate]

/-- A merge ends in `WATCHING` or `WAIT_DATA`, whatever the state was. -/
theorem afterMerge_state (answer : HydrationAnswer) (idempotencyKey : String) (parsed : Mapping)
    (moment : HydrationMoment) :
    (h.afterMerge candidate answer idempotencyKey parsed moment).state ∈
      [.watching, .waitData] := by
  obtain ⟨reason, stage, source, details, heq⟩ :=
    h.afterMerge_eq_apply candidate answer idempotencyKey parsed moment
  have hfollows := @follows_apply h.fsm
    (h.mergedCandidate candidate answer idempotencyKey parsed moment) .watching reason stage source
    details moment.now
  rw [heq]
  rcases hfollows.state with hsame | ⟨-, hwatching⟩ | ⟨-, hwaits⟩
  · rw [hsame, mergedCandidate_state]
    split
    · decide
    · decide
  · rw [hwatching]
    decide
  · rw [hwaits]
    decide

theorem reconcile_merged_iff {merged : Candidate} {hydration : CandidateHydration}
    {fsm : CandidateFsm} (now : String) (hwaits : merged.state = .waitData)
    (hv2 : fsm.v2State = watching.value)
    (hsection : merged.metadata.candidateHydration = some hydration)
    (hstatus : hydration.status = .str "ACKED")
    (hbasic : hydration.basicHydrationComplete = .bool false) :
    (h.contract.reconcileCandidate
        { merged with metadata := { merged.metadata with candidateFsm := fsm } } now).1.state =
        .watching ↔
      h.contract.enabled = true ∧
        h.contract.basicHydrationPayloadComplete merged hydration.parsed = true ∧
        activeSourceExists merged = true := by
  have hstatusText : statusText
      (merged.metadata.candidateHydration.getD {}) = "ACKED" := by
    rw [hsection, Option.getD_some]
    unfold statusText
    rw [hstatus]
    decide
  have hcomplete : h.contract.hydrationComplete
      { merged with metadata := { merged.metadata with candidateFsm := fsm } } =
      h.contract.basicHydrationPayloadComplete merged hydration.parsed := by
    unfold hydrationComplete
    dsimp only
    rw [hsection]
    dsimp only
    rw [hstatus, hbasic, if_neg (by decide), if_neg (by decide)]
    rfl
  rw [← hcomplete]
  exact @reconcile_waitData_iff h
    { merged with metadata := { merged.metadata with candidateFsm := fsm } } now hwaits hv2
    hstatusText

theorem afterMerge_watching_iff (answer : HydrationAnswer) (idempotencyKey : String)
    (parsed : Mapping) (moment : HydrationMoment) :
    (h.afterMerge candidate answer idempotencyKey parsed moment).state = .watching ↔
      h.staysWatching candidate parsed := by
  obtain ⟨reason, stage, source, details, heq⟩ :=
    h.afterMerge_eq_apply candidate answer idempotencyKey parsed moment
  have hstate := h.mergedCandidate_state candidate answer idempotencyKey parsed moment
  rw [heq]
  unfold staysWatching
  cases henough : (h.minimumWatchingData candidate parsed).1 with
  | true =>
    rw [henough, if_pos rfl] at hstate
    refine ⟨fun _ => .inl rfl, fun _ => ?_⟩
    have hfollows := @follows_apply h.fsm
      (h.mergedCandidate candidate answer idempotencyKey parsed moment) .watching reason stage
      source details moment.now
    rcases hfollows.state with hsame | ⟨-, hwatching⟩ | ⟨hwaits, -⟩
    · rw [hsame, hstate]
    · exact hwatching
    · rw [hstate] at hwaits
      exact absurd hwaits (by decide)
  | false =>
    rw [henough, if_neg (by decide)] at hstate
    have hcode : (h.mergedCandidate candidate answer idempotencyKey parsed moment).code =
        candidate.code := by
      unfold mergedCandidate
      rfl
    have hcomplete : h.contract.basicHydrationPayloadComplete
        (h.mergedCandidate candidate answer idempotencyKey parsed moment) parsed =
        h.contract.basicHydrationPayloadComplete candidate parsed := by
      unfold basicHydrationPayloadComplete
      rw [hcode]
    have hactive : activeSourceExists
        (h.mergedCandidate candidate answer idempotencyKey parsed moment) =
        activeSourceExists { candidate with state := .waitData } := by
      unfold activeSourceExists
      rw [hstate]
      unfold mergedCandidate
      rfl
    have hsection : (h.mergedCandidate candidate answer idempotencyKey parsed
        moment).metadata.candidateHydration = some (mergedHydration candidate.hydration answer
          idempotencyKey parsed false (h.minimumWatchingData candidate parsed).2 moment) := by
      unfold mergedCandidate
      dsimp only
      rw [henough]
    rw [← hcomplete, ← hactive]
    refine Iff.trans (h.reconcile_merged_iff moment.now hstate rfl hsection rfl rfl) ?_
    exact ⟨.inr, fun hstays => hstays.resolve_left (by decide)⟩

/-! ## The candidate that an answer reaches -/

/-- What the hydrator does with an event. -/
inductive Handling
  | ignored
  | failure
  | merge
deriving DecidableEq

def parsedAnswer (w : HydrationWorld) (answer : HydrationAnswer) : Mapping :=
  h.parsedOf answer.payload (answeredCode w answer)

/-- Why the data of an answer are a failure, the empty text if they are none. -/
def answerFailure (w : HydrationWorld) (answer : HydrationAnswer) : String :=
  h.parseFailureReason (h.parsedAnswer w answer) (h.ackRows answer.payload)

/-- The code under which a merge looks for its candidate: the parsed data may name it. -/
def mergeCode (w : HydrationWorld) (answer : HydrationAnswer) : String :=
  if answeredCode w answer ≠ "" then answeredCode w answer
  else normalizeCode ((h.parsedAnswer w answer).textOr "code")

/-- What `handle_event` does with an event: `merge_ack` of an answer without data is a failure. -/
def handling (w : HydrationWorld) (event : GatewayEvent) : Handling :=
  let payload := event.payload
  if ¬ answersHydration w event then .ignored
  else if event.type ≠ "command_ack" ∨ ackStatus payload ≠ "ACKED" ∨
      h.int ((payload.value "result_code").or (payload.value "code")) < 0 then .failure
  else if h.answerFailure w (answerOf event) ≠ "" then .failure
  else .merge

def reached (w : HydrationWorld) (event : GatewayEvent) (moment : HydrationMoment) :
    Option (Int × Candidate) :=
  let answer := answerOf event
  match h.handling w event with
  | .ignored => none
  | .failure => h.answeredCandidate w answer (answeredCode w answer) moment
  | .merge => h.answeredCandidate w answer (h.mergeCode w answer) moment

variable {w : HydrationWorld} {moment : HydrationMoment} {answer : HydrationAnswer}

theorem get?_of_candidateAt {candidateId id : Int} {tradeDate code : String} {candidate : Candidate}
    (hat : w.candidateAt candidateId tradeDate code = some (id, candidate)) :
    w.candidates.get? id = some candidate := by
  unfold HydrationWorld.candidateAt at hat
  split at hat
  · next found hfound =>
      simp only [Option.some.injEq, Prod.mk.injEq] at hat
      obtain ⟨rfl, rfl⟩ := hat
      split at hfound
      · exact hfound
      · cases hfound
  · split at hat
    · exact Dict.mem_entries_iff.mp (mem_of_find?_eq_some hat)
    · cases hat

theorem candidates_updateRequestStatus (w : HydrationWorld) (commandId status : String) :
    (w.updateRequestStatus commandId status).candidates = w.candidates := by
  unfold HydrationWorld.updateRequestStatus
  split
  · rfl
  · rfl

theorem gateway_updateRequestStatus (w : HydrationWorld) (commandId status : String) :
    (w.updateRequestStatus commandId status).gateway = w.gateway := by
  unfold HydrationWorld.updateRequestStatus
  split
  · rfl
  · rfl

/-- The candidates after an answer that was handled one way and reached a candidate, or none:
at most that one is rewritten. -/
inductive Answered (w : HydrationWorld) (answer : HydrationAnswer) (merged : Mapping)
    (moment : HydrationMoment) : Handling → Option (Int × Candidate) → Dict Int Candidate → Prop
  | nobody {handling : Handling} : Answered w answer merged moment handling none w.candidates
  | failed (id : Int) (candidate : Candidate) (idempotencyKey reason : String) (parsed : Mapping) :
      Answered w answer merged moment .failure (some (id, candidate))
        (w.candidates.set id (h.afterFailure candidate answer idempotencyKey reason parsed moment))
  | merged (id : Int) (candidate : Candidate) (idempotencyKey : String) :
      Answered w answer merged moment .merge (some (id, candidate))
        (w.candidates.set id (h.afterMerge candidate answer idempotencyKey merged moment))

theorem gateway_markFailure (w : HydrationWorld) (answer : HydrationAnswer) (reason : String)
    (parsed : Mapping) (moment : HydrationMoment) :
    (h.markFailure w answer reason parsed moment).gateway = w.gateway := by
  unfold markFailure
  split
  · rfl
  · exact gateway_updateRequestStatus _ _ _

theorem answered_markFailure (w : HydrationWorld) (answer : HydrationAnswer) (reason : String)
    (parsed merged : Mapping) (moment : HydrationMoment) :
    h.Answered w answer merged moment .failure
      (h.answeredCandidate w answer (answeredCode w answer) moment)
      (h.markFailure w answer reason parsed moment).candidates := by
  unfold markFailure
  cases h.answeredCandidate w answer (answeredCode w answer) moment with
  | none => exact .nobody
  | some found =>
    dsimp only
    rw [candidates_updateRequestStatus]
    exact .failed found.1 found.2 _ reason _

theorem gateway_handleEvent (w : HydrationWorld) (event : GatewayEvent)
    (moment : HydrationMoment) : (h.handleEvent w event moment).1.gateway = w.gateway := by
  unfold handleEvent
  dsimp only
  split
  · rfl
  · split
    · exact h.gateway_markFailure ..
    · split
      · exact h.gateway_markFailure ..
      · split
        · exact h.gateway_markFailure ..
        · unfold mergeAck
          dsimp only
          split
          · exact h.gateway_markFailure ..
          · split
            · rfl
            · exact gateway_updateRequestStatus _ _ _

theorem answered_of_failure {event : GatewayEvent} {reason : String} {parsed : Mapping}
    (hhandling : h.handling w event = .failure) (heq : (h.handleEvent w event moment).1 =
      h.markFailure w (answerOf event) reason parsed moment) :
    h.Answered w (answerOf event) (h.parsedAnswer w (answerOf event)) moment
      (h.handling w event) (h.reached w event moment)
      (h.handleEvent w event moment).1.candidates := by
  unfold reached
  rw [heq, hhandling]
  exact h.answered_markFailure ..

theorem mergeAck_of_failure (hreason : h.answerFailure w answer ≠ "") :
    h.mergeAck w answer moment =
      h.markFailure w answer (h.answerFailure w answer) (h.parsedAnswer w answer) moment := by
  unfold mergeAck answerFailure parsedAnswer at *
  dsimp only
  rw [if_pos hreason]

theorem answered_mergeAck (hreason : h.answerFailure w answer = "") (moment : HydrationMoment) :
    h.Answered w answer (h.parsedAnswer w answer) moment .merge
      (h.answeredCandidate w answer (h.mergeCode w answer) moment)
      (h.mergeAck w answer moment).candidates := by
  have hreason' : ¬ h.answerFailure w answer ≠ "" := fun hne => hne hreason
  unfold mergeAck mergeCode answerFailure parsedAnswer at *
  dsimp only
  rw [if_neg hreason']
  generalize h.answeredCandidate w answer (if answeredCode w answer ≠ "" then _ else _) moment =
    found
  cases found with
  | none => exact .nobody
  | some found =>
    dsimp only
    rw [candidates_updateRequestStatus]
    exact .merged found.1 found.2 _

theorem answered_handleEvent (w : HydrationWorld) (event : GatewayEvent)
    (moment : HydrationMoment) :
    h.Answered w (answerOf event) (h.parsedAnswer w (answerOf event)) moment
      (h.handling w event) (h.reached w event moment)
      (h.handleEvent w event moment).1.candidates := by
  by_cases hanswers : answersHydration w event
  · by_cases htype : event.type = "command_ack"
    · by_cases hstatus : ackStatus event.payload = "ACKED"
      · by_cases hcode :
            h.int ((event.payload.value "result_code").or (event.payload.value "code")) < 0
        · have heq : (h.handleEvent w event moment).1 =
              h.markFailure w (answerOf event) "REJECTED" .empty moment := by
            simp [handleEvent, hanswers, htype, hstatus, hcode]
          exact h.answered_of_failure (by simp [handling, hanswers, hcode]) heq
        · have hmerge : (h.handleEvent w event moment).1 =
              h.mergeAck w (answerOf event) moment := by
            simp [handleEvent, hanswers, htype, hstatus, hcode]
          by_cases hreason : h.answerFailure w (answerOf event) = ""
          · have hhandling : h.handling w event = .merge := by
              simp [handling, hanswers, htype, hstatus, hcode, hreason]
            unfold reached
            rw [hmerge, hhandling]
            exact h.answered_mergeAck hreason moment
          · have heq := hmerge.trans (h.mergeAck_of_failure hreason)
            exact h.answered_of_failure
              (by simp [handling, hanswers, htype, hstatus, hcode, hreason]) heq
      · have heq : (h.handleEvent w event moment).1 =
            h.markFailure w (answerOf event) (ackStatus event.payload) .empty moment := by
          simp [handleEvent, hanswers, htype, hstatus]
        exact h.answered_of_failure (by simp [handling, hanswers, hstatus]) heq
    · have heq : (h.handleEvent w event moment).1 =
          h.markFailure w (answerOf event) (failureReasonOf event.type) .empty moment := by
        simp [handleEvent, hanswers, htype]
      exact h.answered_of_failure (by simp [handling, hanswers, htype]) heq
  · have hhandling : h.handling w event = .ignored := by simp [handling, hanswers]
    have heq : (h.handleEvent w event moment).1 = w := by simp [handleEvent, hanswers]
    unfold reached
    rw [heq, hhandling]
    exact .nobody

theorem get?_of_reached {event : GatewayEvent} {id : Int} {candidate : Candidate}
    (hreached : h.reached w event moment = some (id, candidate)) :
    w.candidates.get? id = some candidate := by
  unfold reached at hreached
  dsimp only at hreached
  split at hreached
  · cases hreached
  · exact get?_of_candidateAt hreached
  · exact get?_of_candidateAt hreached

/-! ## Answers that only advance -/

/-- After an answer to a command, candidates that are past waiting for data have kept their state,
and candidates that did not wait on that command their hydration status and retry count. -/
structure OnlyAdvances (before after : HydrationWorld) (commandId : String) : Prop where
  state : ∀ id candidate, before.candidates.get? id = some candidate → ¬ waitsForData candidate →
    ∃ candidate', after.candidates.get? id = some candidate' ∧ candidate'.state = candidate.state
  hydration : ∀ id candidate, before.candidates.get? id = some candidate →
    candidate.waitingOn commandId = false →
    ∃ candidate', after.candidates.get? id = some candidate' ∧
      candidate'.hydration.status = candidate.hydration.status ∧
      candidate'.hydration.retryCount = candidate.hydration.retryCount

/-- A failure may reach only a candidate that waits on the command. A merge may also reach one that
is `ACKED`, but no candidate past waiting for data that it would not leave in `WATCHING`. -/
def Awaited (w : HydrationWorld) (event : GatewayEvent) (moment : HydrationMoment) : Prop :=
  ∀ id candidate, h.reached w event moment = some (id, candidate) →
    match h.handling w event with
    | .merge =>
        (waitsForData candidate ∨ candidate.state = .watching ∧
          h.staysWatching candidate (h.parsedAnswer w (answerOf event))) ∧
        (candidate.waitingOn (answerOf event).commandId = true ∨
          candidate.hydration.status = .str "ACKED")
    | _ => candidate.waitingOn (answerOf event).commandId = true

theorem onlyAdvances_set_iff {after : HydrationWorld} {id : Int} {candidate saved : Candidate}
    {commandId : String} (hget : w.candidates.get? id = some candidate)
    (hset : after.candidates = w.candidates.set id saved) :
    OnlyAdvances w after commandId ↔
      (¬ waitsForData candidate → saved.state = candidate.state) ∧
      (candidate.waitingOn commandId = false →
        saved.hydration.status = candidate.hydration.status ∧
        saved.hydration.retryCount = candidate.hydration.retryCount) := by
  have hself : after.candidates.get? id = some saved := by
    rw [hset, Dict.get?_set_self]
  constructor
  · rintro ⟨hstate, hhydration⟩
    refine ⟨fun hpast => ?_, fun hother => ?_⟩
    · obtain ⟨candidate', hget', heq⟩ := hstate id candidate hget hpast
      rw [hself] at hget'
      injection hget' with hget'
      rw [hget', heq]
    · obtain ⟨candidate', hget', heq⟩ := hhydration id candidate hget hother
      rw [hself] at hget'
      injection hget' with hget'
      rw [hget']
      exact heq
  · rintro ⟨hstate, hhydration⟩
    -- every other candidate is the same
    have hsame : ∀ id' candidate', id' ≠ id → w.candidates.get? id' = some candidate' →
        after.candidates.get? id' = some candidate' := by
      intro id' candidate' hne hget'
      rw [hset, Dict.get?_set_ne _ _ hne, hget']
    refine ⟨fun id' candidate' hget' hpast => ?_, fun id' candidate' hget' hother => ?_⟩
    · by_cases hid : id' = id
      · subst hid
        rw [hget] at hget'
        injection hget' with hget'
        subst hget'
        exact ⟨saved, hself, hstate hpast⟩
      · exact ⟨candidate', hsame id' candidate' hid hget', rfl⟩
    · by_cases hid : id' = id
      · subst hid
        rw [hget] at hget'
        injection hget' with hget'
        subst hget'
        exact ⟨saved, hself, hhydration hother⟩
      · exact ⟨candidate', hsame id' candidate' hid hget', rfl, rfl⟩

theorem onlyAdvances_failed_iff {candidate : Candidate} {idempotencyKey reason : String}
    {parsed : Mapping} :
    ((¬ waitsForData candidate →
        (h.afterFailure candidate answer idempotencyKey reason parsed moment).state =
          candidate.state) ∧
      (candidate.waitingOn answer.commandId = false →
        (h.afterFailure candidate answer idempotencyKey reason parsed moment).hydration.status =
          candidate.hydration.status ∧
        (h.afterFailure candidate answer idempotencyKey reason parsed moment).hydration.retryCount =
          candidate.hydration.retryCount)) ↔
      candidate.waitingOn answer.commandId = true := by
  constructor
  · rintro ⟨-, hhydration⟩
    cases hwaiting : candidate.waitingOn answer.commandId with
    | true => rfl
    | false =>
      have hcount := (hhydration hwaiting).2
      rw [h.afterFailure_retryCount] at hcount
      omega
  · intro hwaiting
    refine ⟨fun hpast => h.afterFailure_state answer idempotencyKey reason parsed moment hpast, ?_⟩
    intro hother
    rw [hwaiting] at hother
    cases hother

theorem onlyAdvances_merged_iff {candidate : Candidate} {idempotencyKey : String}
    {parsed : Mapping} :
    ((¬ waitsForData candidate →
        (h.afterMerge candidate answer idempotencyKey parsed moment).state = candidate.state) ∧
      (candidate.waitingOn answer.commandId = false →
        (h.afterMerge candidate answer idempotencyKey parsed moment).hydration.status =
          candidate.hydration.status ∧
        (h.afterMerge candidate answer idempotencyKey parsed moment).hydration.retryCount =
          candidate.hydration.retryCount)) ↔
      (waitsForData candidate ∨ candidate.state = .watching ∧ h.staysWatching candidate parsed) ∧
      (candidate.waitingOn answer.commandId = true ∨ candidate.hydration.status = .str "ACKED") := by
  have hwatching := h.afterMerge_watching_iff candidate answer idempotencyKey parsed moment
  refine and_congr ?_ ?_
  · by_cases hwaits : waitsForData candidate
    · exact ⟨fun _ => .inl hwaits, fun _ hpast => absurd hwaits hpast⟩
    · constructor
      · intro hstate
        have hkept := hstate hwaits
        rcases mem_cons.mp (h.afterMerge_state candidate answer idempotencyKey parsed moment)
          with hmerged | hmerged
        · exact .inr ⟨hkept ▸ hmerged, hwatching.mp hmerged⟩
        · rw [hkept] at hmerged
          exact absurd (mem_cons_of_mem _ (mem_cons_of_mem _ hmerged)) hwaits
      · rintro (hwaits' | ⟨hstate, hstays⟩) _
        · exact absurd hwaits' hwaits
        · rw [hwatching.mpr hstays, hstate]
  · rw [h.afterMerge_status, h.afterMerge_retryCount]
    cases candidate.waitingOn answer.commandId with
    | true => simp
    | false => simp [eq_comm]

theorem onlyAdvances_handleEvent_iff (w : HydrationWorld) (event : GatewayEvent)
    (moment : HydrationMoment) :
    OnlyAdvances w (h.handleEvent w event moment).1 (answerOf event).commandId ↔
      h.Awaited w event moment := by
  unfold Awaited
  have hanswered := h.answered_handleEvent w event moment
  have hget := @get?_of_reached h w moment event
  generalize hcandidates : (h.handleEvent w event moment).1.candidates = candidates at hanswered
  generalize h.handling w event = handling at hanswered ⊢
  generalize h.reached w event moment = reached at hanswered hget ⊢
  cases hanswered with
  | nobody =>
    constructor
    · intro _ id candidate hnone
      cases hnone
    · intro _
      refine ⟨?_, ?_⟩
      · intro id candidate hid _
        exact ⟨candidate, by rw [hcandidates, hid], rfl⟩
      · intro id candidate hid _
        exact ⟨candidate, by rw [hcandidates, hid], rfl, rfl⟩
  | failed id candidate idempotencyKey reason parsed =>
    rw [onlyAdvances_set_iff (hget rfl) hcandidates, h.onlyAdvances_failed_iff]
    simp
  | merged id candidate idempotencyKey =>
    rw [onlyAdvances_set_iff (hget rfl) hcandidates, h.onlyAdvances_merged_iff]
    simp

/-- Along a run, every answer only advances candidates that still wait for it. -/
def AnswersOnlyAdvance (w : HydrationWorld) (steps : List HydrationStep) : Prop :=
  ∀ past event moment, past ++ [.handleEvent event moment] <+: steps →
    OnlyAdvances (h.machine.run w past)
      (h.machine.next (h.machine.run w past) (.handleEvent event moment))
      (answerOf event).commandId

/-- In a run from any tables, answers only advance waiting candidates precisely if each of them is
awaited by the candidate that it reaches. -/
theorem answers_only_advance_iff (w : HydrationWorld) (steps : List HydrationStep) :
    h.AnswersOnlyAdvance w steps ↔
      ∀ past event moment, past ++ [.handleEvent event moment] <+: steps →
        h.Awaited (h.machine.run w past) event moment := by
  unfold AnswersOnlyAdvance
  constructor
  · intro hall past event moment hpre
    exact (h.onlyAdvances_handleEvent_iff _ event moment).mp (hall past event moment hpre)
  · intro hall past event moment hpre
    exact (h.onlyAdvances_handleEvent_iff _ event moment).mpr (hall past event moment hpre)

/-! ## Fixed runs -/

def parsedValue : Value := .other "\x7b'current_price': '71000', 'prev_close': '70000'\x7d" true

def rowsValue : Value := .other "[\x7b'code': '005930'\x7d]" true

def exampleReaders : PayloadReaders where
  mapping value :=
    if value = parsedValue then
      some (.ofList [("current_price", .str "71000"), ("prev_close", .str "70000")])
    else if value = .other "\x7b'code': '005930'\x7d" true then some (.ofList [("code", .str "005930")])
    else none
  items value := if value = rowsValue then [.other "\x7b'code': '005930'\x7d" true] else []
  parseRows _ code := if code = "" then .empty else .ofList [("code", .str code)]

def exampleHydrator : CandidateHydrator where
  contract :=
    { enabled := true
      readFloat := fun text =>
        if text = "71000" then some 71000
        else if text = "70000" then some 70000
        else if text = "005930" then some 5930
        else if text = "0" then some 0
        else none }
  readers := exampleReaders
  digest _ := ""

/-- A candidate that waits on the command `cmd`. -/
def waitingCandidate (state : CandidateState) : Candidate :=
  { tradeDate := "2026-06-19"
    code := "005930"
    state
    metadata := {
      candidateHydration := some { status := .str "PENDING", commandId := "cmd" }
      candidateIngestion := some { activeSourceTypes := ["condition_search"] } } }

def oneCandidate (candidate : Candidate) : HydrationWorld where
  candidates := .ofList [(1, candidate)]

def answerEvent (type commandId : String) (payload : List (String × Value)) : GatewayEvent :=
  { type
    eventId := "evt"
    payload := .ofList
      ([("purpose", .str "candidate_hydration"), ("command_id", .str commandId),
        ("candidate_id", .int 1)] ++ payload) }

def noon : HydrationMoment where
  seconds := 0
  now := "2026-06-19T12:00:00"
  today := "2026-06-19"
  wall := 0

def dataEvent : GatewayEvent :=
  answerEvent "command_ack" "cmd" [("parsed", parsedValue), ("tr_rows", rowsValue)]

/-- An answer that arrives after its candidate was removed brings it back to `WATCHING`, and the
failure of an older command counts as one of the command that the candidate waits on. -/
theorem late_answers_change_candidates :
    (¬ exampleHydrator.AnswersOnlyAdvance (oneCandidate (waitingCandidate .removed))
        [.handleEvent dataEvent noon] ∧
      ((exampleHydrator.machine.run (oneCandidate (waitingCandidate .removed))
        [.handleEvent dataEvent noon]).candidates.get? 1).map (·.state) = some .watching) ∧
    (¬ exampleHydrator.AnswersOnlyAdvance (oneCandidate (waitingCandidate .hydrating))
        [.handleEvent (answerEvent "command_failed" "old" []) noon] ∧
      ((exampleHydrator.machine.run (oneCandidate (waitingCandidate .hydrating))
        [.handleEvent (answerEvent "command_failed" "old" []) noon]).candidates.get? 1).map
          (·.hydration.retryCount) = some 1) := by
  have hremoved : ((exampleHydrator.machine.run (oneCandidate (waitingCandidate .removed))
      [.handleEvent dataEvent noon]).candidates.get? 1).map (·.state) = some .watching := by
    decide +kernel
  have hcounted : ((exampleHydrator.machine.run (oneCandidate (waitingCandidate .hydrating))
      [.handleEvent (answerEvent "command_failed" "old" []) noon]).candidates.get? 1).map
        (·.hydration.retryCount) = some 1 := by
    decide +kernel
  refine ⟨⟨?_, hremoved⟩, ⟨?_, hcounted⟩⟩
  · intro hall
    obtain ⟨candidate, hget, hstate⟩ := (hall [] dataEvent noon (prefix_refl _)).state 1
      (waitingCandidate .removed) rfl (by decide)
    have hafter : (exampleHydrator.machine.run (oneCandidate (waitingCandidate .removed))
        [.handleEvent dataEvent noon]).candidates.get? 1 = some candidate := hget
    rw [hafter, Option.map_some, hstate] at hremoved
    cases hremoved
  · intro hall
    obtain ⟨candidate, hget, -, hcount⟩ :=
      (hall [] (answerEvent "command_failed" "old" []) noon (prefix_refl _)).hydration 1
        (waitingCandidate .hydrating) rfl (by decide)
    have hafter : (exampleHydrator.machine.run (oneCandidate (waitingCandidate .hydrating))
        [.handleEvent (answerEvent "command_failed" "old" []) noon]).candidates.get? 1 =
        some candidate := hget
    rw [hafter, Option.map_some, hcount] at hcounted
    revert hcounted
    decide

end CandidateHydrator

end TradingCore.Candidates
