import Mathlib.Data.List.Dedup
import TradingCore.Candidates.TrackedRequests

/-!
# Bounded requests

Where every failure is told once, of the command that the candidate waits on, and requests are made
only for candidates that need hydration, the requests are `Bounded`. The source does not make sure
of that: `handle_event` and the recovery mark a failure without looking at what the candidate waits
on, and `enqueue_candidate` does not look at the retry time or at the retries that are left.

* `Orderly` — every candidate and its requests are tracked;
* `orderly_next` — a sound step keeps it;
* `requests_bounded` — so requests are bounded all along a run of sound steps.
-/

namespace TradingCore.Candidates

open Base Broker HydrationBook GatewayStateStore List Dict CandidateHydrator

/-! ## The requests of a candidate -/

namespace HydrationBook

theorem mem_asksOf {b : HydrationBook} {id : Int} {ask : HydrationAsk} :
    ask ∈ b.asksOf id ↔ ask ∈ b.asks ∧ ask.candidateId = id := by
  unfold asksOf
  rw [mem_filter, decide_eq_true_iff]

theorem asksOf_append (asks : List HydrationAsk) (ask : HydrationAsk) (world : HydrationWorld)
    (failures : List (Int × String)) (id : Int) :
    asksOf ⟨world, asks ++ [ask], failures⟩ id =
      if ask.candidateId = id then asksOf ⟨world, asks, failures⟩ id ++ [ask]
      else asksOf ⟨world, asks, failures⟩ id := by
  unfold asksOf
  dsimp only
  rw [filter_append, filter_singleton]
  by_cases hid : ask.candidateId = id
  · rw [if_pos hid, decide_eq_true hid]
    rfl
  · rw [if_neg hid, decide_eq_false hid]
    exact append_nil _

theorem failuresOf_append (failures : List (Int × String)) (failure : Int × String)
    (world : HydrationWorld) (asks : List HydrationAsk) (id : Int) :
    failuresOf ⟨world, asks, failures ++ [failure]⟩ id =
      if failure.1 = id then failuresOf ⟨world, asks, failures⟩ id ++ [failure.2]
      else failuresOf ⟨world, asks, failures⟩ id := by
  unfold failuresOf
  dsimp only
  rw [filter_append, filter_singleton, map_append]
  by_cases hid : failure.1 = id
  · rw [if_pos hid, decide_eq_true hid]
    rfl
  · rw [if_neg hid, decide_eq_false hid]
    exact append_nil _

end HydrationBook

namespace CandidateHydrator

variable {h : CandidateHydrator} {b : HydrationBook}

/-! ## The invariant -/

/-- What holds all along a run: the gateway state store files every command under one key, nothing
was asked for a candidate that is not in the table, no request came before its time, and every
candidate is tracked. -/
structure Orderly (h : CandidateHydrator) (b : HydrationBook) : Prop where
  serving : b.world.gateway.Serving
  keyed : b.world.gateway.KeyedOnce
  unknown : ∀ id, b.world.candidates.get? id = none → b.asksOf id = [] ∧ b.failuresOf id = []
  retries : ∀ ask ∈ b.asks, ask.accepted = true → ∀ due ∈ ask.dueAt, due ≤ ask.askedAt
  tracked : ∀ id candidate, b.world.candidates.get? id = some candidate →
    h.Tracked b.world.gateway candidate (b.asksOf id) (b.failuresOf id)

theorem orderly_newBook (retention : Option Int) (expireStaleDispatched : Bool) :
    Orderly h (newBook retention expireStaleDispatched) := by
  refine ⟨serving_empty retention expireStaleDispatched,
    keyedOnce_empty retention expireStaleDispatched, ?_, ?_, ?_⟩
  · exact fun _ _ => ⟨rfl, rfl⟩
  · intro ask hask
    cases hask
  · intro id candidate hget
    cases hget

variable {candidate : Candidate} {id : Int} {world w : HydrationWorld} {moment : HydrationMoment}
  {event : GatewayEvent} {record : CommandRecord} {commandId messageId : String}
  {g : GatewayStateStore}

theorem length_endedWithoutData
    (htracked : h.Tracked b.world.gateway candidate (b.asksOf id) (b.failuresOf id)) :
    (b.endedWithoutData id).length = (b.failuresOf id).length := by
  have hperm : (b.endedWithoutData id).Perm (b.failuresOf id) := by
    unfold endedWithoutData
    refine (perm_ext_iff_of_nodup ((nodup_dedup _).filter _) htracked.distinct).mpr ?_
    intro commandId
    rw [mem_filter, mem_dedup, mem_map, decide_eq_true_iff]
    refine ⟨And.right, fun hfailed => ⟨htracked.asked commandId hfailed, hfailed⟩⟩
  exact hperm.length_eq

theorem Orderly.bounded (hattempts : 1 ≤ h.config.maxAttempts) (hb : Orderly h b) :
    Bounded h.config.maxAttempts b := by
  refine ⟨?_, hb.retries, ?_, ?_⟩
  · intro id
    cases hget : b.world.candidates.get? id with
    | none =>
      rw [(hb.unknown id hget).1, countP_nil]
      omega
    | some candidate => exact (hb.tracked id candidate hget).bounded
  · intro id
    cases hget : b.world.candidates.get? id with
    | none =>
      rw [(hb.unknown id hget).1]
      intro ask hask
      cases hask
    | some candidate => exact (hb.tracked id candidate hget).single
  · intro id candidate hget
    have htracked := hb.tracked id candidate hget
    rw [htracked.counted, length_endedWithoutData htracked]

/-! ## Candidates that are rewritten -/

/-- A step that rewrites one candidate, and keeps the commands of all requests, is orderly if the
rewritten candidate is tracked. -/
theorem Orderly.rewrite (hb : Orderly h b) {after : HydrationBook} {saved : Candidate}
    (hserving : after.world.gateway.Serving) (hkeyed : after.world.gateway.KeyedOnce)
    (hkeeps : ∀ ask ∈ b.asks, KeepsCommand b.world.gateway after.world.gateway ask.commandId)
    (hset : after.world.candidates = b.world.candidates.set id saved)
    (hothers : ∀ other, other ≠ id →
      after.asksOf other = b.asksOf other ∧ after.failuresOf other = b.failuresOf other)
    (hretries : ∀ ask ∈ after.asks, ask.accepted = true → ∀ due ∈ ask.dueAt, due ≤ ask.askedAt)
    (htracked : h.Tracked after.world.gateway saved (after.asksOf id) (after.failuresOf id)) :
    Orderly h after := by
  refine ⟨hserving, hkeyed, ?_, hretries, ?_⟩
  · intro other hget
    rw [hset, get?_set] at hget
    by_cases hid : other = id
    · rw [if_pos hid] at hget
      cases hget
    · rw [if_neg hid] at hget
      rw [(hothers other hid).1, (hothers other hid).2]
      exact hb.unknown other hget
  · intro other candidate hget
    rw [hset, get?_set] at hget
    by_cases hid : other = id
    · rw [if_pos hid] at hget
      rw [← Option.some.inj hget, hid]
      exact htracked
    · rw [if_neg hid] at hget
      rw [(hothers other hid).1, (hothers other hid).2]
      exact (hb.tracked other candidate hget).gateway fun ask hask =>
        hkeeps ask (mem_asksOf.mp hask).1

theorem Orderly.gateway (hb : Orderly h b) (digest : GatewayCommand → String)
    (s : Step)
    (hfresh : ∀ command, Accepts digest b.world.gateway s command → b.Fresh command.commandId)
    (hclosed : ∀ ask ∈ b.asks,
      ((GatewayStateStore.machine digest).next b.world.gateway s).outstanding ask.commandId = true →
        b.outstanding ask.commandId = true) :
    Orderly h { b with world := { b.world with
      gateway := (GatewayStateStore.machine digest).next b.world.gateway s } } := by
  refine ⟨hb.serving.next digest s, ?_, hb.unknown, hb.retries, ?_⟩
  · exact hb.keyed.next hb.serving digest s fun command haccepts => (hfresh command haccepts).1
  · intro id candidate hget
    refine (hb.tracked id candidate hget).gateway fun ask hask => ?_
    have hmem := (mem_asksOf.mp hask).1
    refine ⟨fun key hkey => ?_, hclosed ask hmem⟩
    exact holdsOnly_next hb.serving digest s hkey fun command haccepts heq =>
      (hfresh command haccepts).2 ask hmem heq.symm

theorem Orderly.unchanged (hb : Orderly h b) (hgateway : world.gateway = b.world.gateway)
    (hcandidates : world.candidates = b.world.candidates) : Orderly h { b with world } := by
  refine ⟨hgateway ▸ hb.serving, hgateway ▸ hb.keyed, ?_, hb.retries, ?_⟩
  · rw [hcandidates]
    exact hb.unknown
  · rw [hcandidates, hgateway]
    exact hb.tracked

theorem keepsCommand_refl (g : GatewayStateStore) (commandId : String) :
    KeepsCommand g g commandId := ⟨fun _ hkey => hkey, fun hopen => hopen⟩

theorem Orderly.failure (hattempts : 1 ≤ h.config.maxAttempts) (hb : Orderly h b)
    (hget : b.world.candidates.get? id = some candidate) {answer : HydrationAnswer}
    (hwaiting : candidate.waitingOn answer.commandId = true)
    (hfinished : b.outstanding answer.commandId = false)
    (hgateway : world.gateway = b.world.gateway) {idempotencyKey reason : String} {parsed : Mapping}
    (hset : world.candidates = b.world.candidates.set id
      (h.afterFailure candidate answer idempotencyKey reason parsed moment)) :
    Orderly h { b with world, failures := b.failures ++ [(id, answer.commandId)] } := by
  refine hb.rewrite (hgateway ▸ hb.serving) (hgateway ▸ hb.keyed) ?_ hset ?_ hb.retries ?_
  · intro ask _
    rw [hgateway]
    exact keepsCommand_refl _ _
  · intro other hother
    rw [failuresOf_append, if_neg hother.symm]
    exact ⟨rfl, rfl⟩
  · rw [failuresOf_append, if_pos rfl]
    show h.Tracked world.gateway _ (b.asksOf id) (b.failuresOf id ++ [answer.commandId])
    rw [hgateway]
    exact (hb.tracked id candidate hget).markFailure hattempts hwaiting hfinished idempotencyKey
      reason parsed moment

/-! ## Events -/

theorem reported_of_failure (hfailure : h.handling w event = .failure) :
    h.reported w (answerOf event) moment =
      ((h.reached w event moment).map fun found =>
        (found.1, (answerOf event).commandId)).toList := by
  unfold reached reported
  dsimp only
  rw [hfailure]

theorem Orderly.bookEvent (hattempts : 1 ≤ h.config.maxAttempts) (hb : Orderly h b)
    (hsound : h.Sound b (.handleEvent event moment)) : Orderly h (h.bookEvent b event moment) := by
  have hanswered := h.answered_handleEvent b.world event moment
  have hreached := fun id candidate => @get?_of_reached h b.world moment event id candidate
  have hgateway := h.gateway_handleEvent b.world event moment
  have hreported := @reported_of_failure h b.world moment event
  unfold CandidateHydrator.bookEvent
  generalize (h.handleEvent b.world event moment).1 = world at hanswered hgateway ⊢
  change h.handling b.world event = .failure → ∀ id candidate, _ at hsound
  generalize h.handling b.world event = handling at hanswered hsound hreported ⊢
  generalize h.reached b.world event moment = reached at hanswered hreached hsound hreported
  generalize hcandidates : world.candidates = candidates at hanswered
  cases hanswered with
  | nobody =>
    have hnone : (if handling = .failure then h.reported b.world (answerOf event) moment
        else []) = [] := by
      by_cases hfailure : handling = .failure
      · rw [if_pos hfailure, hreported hfailure]
        rfl
      · rw [if_neg hfailure]
    rw [hnone, append_nil]
    exact hb.unchanged hgateway hcandidates
  | failed id candidate idempotencyKey reason parsed =>
    obtain ⟨hwaiting, hfinished⟩ := hsound rfl id candidate rfl
    rw [if_pos rfl, hreported rfl]
    exact hb.failure hattempts (hreached id candidate rfl) hwaiting hfinished hgateway hcandidates
  | merged id candidate idempotencyKey =>
    rw [if_neg (by decide), append_nil]
    refine hb.rewrite (hgateway ▸ hb.serving) (hgateway ▸ hb.keyed) ?_ hcandidates
      (fun _ _ => ⟨rfl, rfl⟩) hb.retries ?_
    · intro ask _
      rw [hgateway]
      exact keepsCommand_refl _ _
    · show h.Tracked world.gateway _ (b.asksOf id) (b.failuresOf id)
      rw [hgateway]
      exact (hb.tracked id candidate (hreached id candidate rfl)).mergeAck ..

/-! ## The recovery -/

theorem or_assoc (a b c : Value) : (a.or b).or c = a.or (b.or c) := by
  unfold Value.or
  cases ha : a.truthy with
  | true => rw [if_pos rfl, if_pos rfl, if_pos ha]
  | false => rfl

theorem eitherText_merge (payload result : Mapping) (key : String) :
    eitherText (payload.merge result) payload key = eitherText result payload key := by
  have hmerge := value_merge payload result key
  unfold eitherText
  rw [← or_assoc, ← or_assoc, hmerge]

theorem value_recordAnswer {key : String} (hkey : key ≠ "command_id") :
    (recordAnswer record commandId).payload.value key =
      Mapping.value (record.command.payload.merge record.resultPayload) key := by
  unfold recordAnswer Mapping.value Dict.getD
  rw [get?_set_ne _ _ hkey]

theorem answeredCandidate_of_found {found : Int × Candidate}
    (hknown : w.gateway.getCommand record.commandId = some record) (hne : record.commandId ≠ "")
    (hfound : h.candidateForCommandPayload w record.command.payload record.resultPayload =
      some found) :
    h.answeredCandidate w (recordAnswer record record.commandId)
      (answeredCode w (recordAnswer record record.commandId)) moment = some found := by
  have hcommand : w.commandPayload record.commandId = record.command.payload := by
    unfold HydrationWorld.commandPayload
    rw [if_neg hne, hknown]
    rfl
  have htext : ∀ key, key ≠ "command_id" →
      eitherText (recordAnswer record record.commandId).payload record.command.payload key =
        eitherText record.resultPayload record.command.payload key := by
    intro key hkey
    rw [← eitherText_merge record.command.payload record.resultPayload key]
    unfold eitherText
    rw [value_recordAnswer hkey]
  unfold candidateForCommandPayload at hfound
  unfold answeredCandidate answeredCode
  dsimp only
  rw [commandId_recordAnswer hne, hcommand, value_recordAnswer (by decide), value_merge,
    htext "trade_date" (by decide), htext "code" (by decide)]
  by_cases hdate : eitherText record.resultPayload record.command.payload "trade_date" = ""
  · -- without a trade date the id decides
    unfold HydrationWorld.candidateAt at hfound ⊢
    generalize (if h.int ((record.resultPayload.value "candidate_id").or
        (record.command.payload.value "candidate_id")) ≠ 0 then _ else none) = known at hfound ⊢
    cases known with
    | some candidate => exact hfound
    | none =>
      dsimp only at hfound
      rw [if_neg fun hboth => hboth.1 hdate] at hfound
      cases hfound
  · rw [if_pos hdate]
    exact hfound

theorem finished_of_recordFailure (hfailure : h.recordFailure record ≠ "") :
    record.finished = true := by
  unfold recordFailure at hfailure
  unfold CommandRecord.finished
  generalize record.status = status at hfailure ⊢
  cases status with
  | acked => decide
  | rejected => decide
  | failed => decide
  | cancelled => decide
  | expired => decide
  | expiredBeforeDispatch => decide
  | _ => exact absurd rfl hfailure

theorem recoverRecord_cases (moment : HydrationMoment) (w : HydrationWorld)
    (record : CommandRecord) :
    (h.recovers w record = false ∧ h.recoverRecord moment w record = w) ∨
      ∃ id candidate parsed, h.recovers w record = true ∧
        h.candidateForCommandPayload w record.command.payload record.resultPayload =
          some (id, candidate) ∧
        candidate.waitingOn (recordCommandId record) = true ∧ h.recordFailure record ≠ "" ∧
        h.recoverRecord moment w record =
          h.markFailure w (recordAnswer record (recordCommandId record)) (h.recordFailure record)
            parsed moment := by
  unfold recovers recoverRecord
  by_cases hpurpose : recordPurpose record = candidateHydrationPurpose
  · rw [if_neg (not_not_intro hpurpose), decide_eq_true hpurpose]
    cases hfound : h.candidateForCommandPayload w record.command.payload record.resultPayload with
    | none => exact .inl ⟨rfl, rfl⟩
    | some found =>
      dsimp only
      rw [Option.any_some]
      cases hwaiting : found.2.waitingOn (recordCommandId record) with
      | false => exact .inl ⟨rfl, if_pos (by decide)⟩
      | true =>
        rw [if_neg (by decide)]
        by_cases hfailure : h.recordFailure record = ""
        · rw [if_pos hfailure, decide_eq_false (not_not_intro hfailure)]
          exact .inl ⟨rfl, rfl⟩
        · rw [if_neg hfailure, decide_eq_true hfailure]
          exact .inr ⟨found.1, found.2, _, rfl, rfl, hwaiting, hfailure, rfl⟩
  · rw [if_pos hpurpose, decide_eq_false hpurpose]
    exact .inl ⟨rfl, rfl⟩

theorem outstanding_of_finished (hget : g.getCommand commandId = some record)
    (hfinished : record.finished = true) : g.outstanding commandId = false := by
  unfold GatewayStateStore.outstanding
  rw [hget, Option.any_some, hfinished]
  rfl

section

variable (hattempts : 1 ≤ h.config.maxAttempts)
include hattempts

theorem Orderly.bookRecord (hb : Orderly h b)
    (hknown : b.world.gateway.getCommand record.commandId = some record)
    (moment : HydrationMoment) : Orderly h (h.bookRecord moment b record) := by
  unfold CandidateHydrator.bookRecord
  rcases h.recoverRecord_cases moment b.world record with
    ⟨hpassed, hsame⟩ | ⟨id, candidate, parsed, hrecovers, hfound, hwaiting, hfailure, hmarked⟩
  · rw [hpassed, hsame, if_neg (by decide), append_nil]
    exact hb
  · have hne : record.commandId ≠ "" := by
      intro hempty
      refine hb.serving.wellFormed.named record ?_
      rw [← hempty]
      exact Copies.has_of_current (getCommand_eq _ _ ▸ hknown)
    rw [show recordCommandId record = record.commandId from if_pos hne] at hwaiting hmarked ⊢
    have hanswered := h.answered_markFailure b.world (recordAnswer record record.commandId)
      (h.recordFailure record) parsed .empty moment
    rw [answeredCandidate_of_found hknown hne hfound, ← hmarked] at hanswered
    have hgateway := h.gateway_markFailure b.world (recordAnswer record record.commandId)
      (h.recordFailure record) parsed moment
    rw [← hmarked] at hgateway
    have hget : b.world.candidates.get? id = some candidate := get?_of_candidateAt hfound
    have hreported : h.reported b.world (recordAnswer record record.commandId) moment =
        [(id, (recordAnswer record record.commandId).commandId)] := by
      unfold reported
      rw [answeredCandidate_of_found hknown hne hfound]
      rfl
    rw [hrecovers, if_pos rfl, hreported]
    have hcommandId : (recordAnswer record record.commandId).commandId = record.commandId :=
      commandId_recordAnswer hne
    generalize hcandidates : (h.recoverRecord moment b.world record).candidates = candidates
      at hanswered
    cases hanswered with
    | failed id candidate idempotencyKey reason parsed =>
      refine hb.failure hattempts hget ?_ ?_ hgateway hcandidates
      · rw [hcommandId]
        exact hwaiting
      · rw [hcommandId]
        exact outstanding_of_finished hknown (finished_of_recordFailure hfailure)

theorem Orderly.bookRecords (moment : HydrationMoment) (records : List CommandRecord)
    (hb : Orderly h b)
    (hknown : ∀ record ∈ records, b.world.gateway.getCommand record.commandId = some record) :
    Orderly h (records.foldl (h.bookRecord moment) b) := by
  induction records generalizing b with
  | nil => exact hb
  | cons record rest ih =>
    refine ih (hb.bookRecord hattempts (hknown record mem_cons_self) moment) ?_
    intro later hlater
    show (h.recoverRecord moment b.world record).gateway.getCommand later.commandId = some later
    rw [(h.settles_recoverRecord moment b.world record).gateway]
    exact hknown later (mem_cons_of_mem _ hlater)

theorem Orderly.bookRecover (hb : Orderly h b) (moment : HydrationMoment) :
    Orderly h (h.bookRecover b moment) := by
  have hexpired := hb.gateway (fun _ => "") ⟨.expireOld (some moment.seconds), moment.wall⟩
    (by rintro command ⟨options, now, hcall, -⟩; cases hcall)
    (fun ask _ hopen =>
      GatewayStateStore.outstanding_expireOld hb.serving.wellFormed _ _ hopen)
  refine hexpired.bookRecords hattempts moment _ ?_
  intro record hrecord
  exact getCommand_of_mem_listCommands hexpired.serving.wellFormed hrecord

end

/-! ## Requests -/

def enqueueStep (h : CandidateHydrator) (id : Int) (candidate : Candidate) (messageId : String)
    (moment : HydrationMoment) : Step :=
  ⟨.enqueue (h.hydrationCommand id candidate messageId) (h.hydrationOptions candidate) none,
    moment.wall⟩

theorem dedupeKeyForCommand_hydrationCommand (h : CandidateHydrator) (id : Int)
    (candidate : Candidate) (messageId : String) :
    dedupeKeyForCommand h.digest (h.hydrationCommand id candidate messageId) =
      h.requestKey candidate := by
  unfold dedupeKeyForCommand
  exact if_pos (h.requestKey_ne_empty candidate)

/-- What an enqueue does: the candidate waits on the command that holds its key, or a new command is
handed to the queue and the candidate waits on that one. -/
theorem enqueueCandidate_cases (henabled : h.config.enabled = true)
    {result : CandidateHydrationEnqueueResult}
    (henqueue : h.enqueueCandidate w id candidate messageId moment = (world, result)) :
    ∃ saved, world.candidates = w.candidates.set id saved ∧
      WaitsOn h candidate saved result.commandId ∧
      ((result.commandId = w.gateway.duplicateOf (h.requestKey candidate) moment.wall ∧
          result.commandId ≠ "" ∧ result.enqueued = false ∧ world.gateway = w.gateway) ∨
        (w.gateway.duplicateOf (h.requestKey candidate) moment.wall = "" ∧
          result.commandId = messageId ∧
          (result.enqueued = true → Accepts h.digest w.gateway
            (h.enqueueStep id candidate messageId moment)
            (h.hydrationCommand id candidate messageId)) ∧
          world.gateway = (GatewayStateStore.machine h.digest).next w.gateway
            (h.enqueueStep id candidate messageId moment))) := by
  unfold enqueueCandidate at henqueue
  dsimp only at henqueue
  rw [if_neg (not_not_intro henabled)] at henqueue
  by_cases hfree : w.gateway.duplicateOf (h.requestKey candidate) moment.wall = ""
  · rw [if_neg (not_not_intro hfree)] at henqueue
    have hkey := h.dedupeKeyForCommand_hydrationCommand id candidate messageId
    have hduplicate := duplicateOf_enqueue (hkey ▸ hfree) (h.hydrationOptions candidate) none
    generalize hreply : (w.gateway.enqueueCommand h.digest
      (h.hydrationCommand id candidate messageId) (h.hydrationOptions candidate) none
      moment.wall).2 = reply at henqueue hduplicate
    have hwaitsOn : (if reply.duplicateOf ≠ "" then reply.duplicateOf else messageId) =
        messageId := by
      rcases hduplicate with hnone | hthis
      · rw [hnone, if_neg (by decide)]
      · rw [hthis]
        exact ite_self _
    obtain ⟨rfl, rfl⟩ := Prod.mk.inj henqueue
    refine ⟨_, rfl, ?_, .inr ⟨hfree, hwaitsOn, fun haccepted => ?_, rfl⟩⟩
    · exact waitsOn_of_requested (h.sameHydration_onHydrationRequested _ _)
    · exact ⟨_, _, rfl, (congrArg EnqueueResult.accepted hreply).trans haccepted⟩
  · rw [if_pos hfree] at henqueue
    obtain ⟨rfl, rfl⟩ := Prod.mk.inj henqueue
    refine ⟨_, rfl, ?_, .inl ⟨rfl, hfree, rfl, rfl⟩⟩
    have hsame := h.sameHydration_onHydrationRequested (requestedCandidate candidate
      (h.hydrationCommand id candidate messageId)
      (w.gateway.duplicateOf (h.requestKey candidate) moment.wall) moment) moment.now
    rw [if_pos hfree]
    exact waitsOn_of_requested hsame

theorem Orderly.request (hb : Orderly h b) {ask : HydrationAsk} {saved : Candidate}
    (hserving : world.gateway.Serving) (hkeyed : world.gateway.KeyedOnce)
    (hkeeps : ∀ other ∈ b.asks, KeepsCommand b.world.gateway world.gateway other.commandId)
    (hset : world.candidates = b.world.candidates.set ask.candidateId saved)
    (hdue : ask.accepted = true → ∀ due ∈ ask.dueAt, due ≤ ask.askedAt)
    (htracked : h.Tracked world.gateway saved (b.asksOf ask.candidateId ++ [ask])
      (b.failuresOf ask.candidateId)) : Orderly h { b with world, asks := b.asks ++ [ask] } := by
  refine hb.rewrite hserving hkeyed hkeeps hset ?_ ?_ ?_
  · intro other hother
    rw [asksOf_append, if_neg hother.symm]
    exact ⟨rfl, rfl⟩
  · intro other hother haccepted
    rcases mem_append.mp hother with hbefore | hthis
    · exact hb.retries other hbefore haccepted
    · rw [mem_singleton.mp hthis] at haccepted ⊢
      exact hdue haccepted
  · rw [asksOf_append, if_pos rfl]
    exact htracked

theorem commandId_ne_of_over (hserving : g.Serving) {wall : Time}
    (hduplicate : g.duplicateOf (h.requestKey candidate) wall = commandId) (hne : commandId ≠ "")
    {ask : HydrationAsk} (hover : h.Over g candidate ask) : ask.commandId ≠ commandId := by
  intro hthis
  obtain ⟨-, generation, hlt, hholds⟩ := hover
  rw [hthis] at hholds
  have hkey := key_of_duplicateOf hserving hduplicate hne hholds
  rw [requestKey_eq] at hkey
  have := h.generationKey_injective candidate hkey
  omega

theorem command_of_accepts {command : GatewayCommand}
    (haccepts : g.Accepts h.digest (h.enqueueStep id candidate messageId moment) command) :
    command = h.hydrationCommand id candidate messageId := by
  obtain ⟨options, now, hcall, -⟩ := haccepts
  cases hcall
  rfl

theorem holdsOnly_enqueueStep (hserving : g.Serving) (hunnamed : ¬ g.Named messageId) :
    ((GatewayStateStore.machine h.digest).next g
      (h.enqueueStep id candidate messageId moment)).HoldsOnly messageId
        (h.requestKey candidate) := by
  by_cases haccepts : g.Accepts h.digest (h.enqueueStep id candidate messageId moment)
      (h.hydrationCommand id candidate messageId)
  · rw [← h.dedupeKeyForCommand_hydrationCommand id candidate messageId]
    exact GatewayStateStore.holdsOnly_accepted hserving hunnamed haccepts
  · refine GatewayStateStore.holdsOnly_next hserving h.digest _
      (holdsOnly_of_not_named hunnamed _) ?_
    intro command hcommand
    exact absurd (command_of_accepts hcommand ▸ hcommand) haccepts

theorem Orderly.bookEnqueue (hattempts : 1 ≤ h.config.maxAttempts) (hb : Orderly h b)
    (hget : b.world.candidates.get? id = some candidate)
    (hsound : h.EnqueueSound b candidate messageId moment) :
    Orderly h (h.bookEnqueue b id candidate messageId moment) := by
  have htracked := hb.tracked id candidate hget
  unfold CandidateHydrator.bookEnqueue
  by_cases henabled : h.config.enabled = true
  · rw [if_neg (not_not_intro henabled)]
    generalize henqueue : h.enqueueCandidate b.world id candidate messageId moment = outcome
    obtain ⟨world, result⟩ := outcome
    dsimp only
    obtain ⟨saved, hset, hwaits, ⟨hduplicate, hne, hrefused, hgateway⟩ |
      ⟨hfree, hcommandId, haccepts, hgateway⟩⟩ := enqueueCandidate_cases henabled henqueue
    · -- the candidate waits on a command that the queue has already
      refine hb.request (hgateway ▸ hb.serving) (hgateway ▸ hb.keyed) ?_ hset ?_ ?_
      · intro other _
        rw [hgateway]
        exact keepsCommand_refl _ _
      · intro haccepted
        rw [hrefused] at haccepted
        cases haccepted
      · rw [hgateway]
        rcases hsound henabled with hwaiting | ⟨hneeds, -⟩
        · exact htracked.waitAgain (hduplicate ▸ hwaiting) hrefused hwaits
        · have hready := htracked.ready hattempts hneeds
          refine htracked.wait hready (fun other _ => keepsCommand_refl _ _) ?_ ?_ hwaits
          · intro other hother
            exact commandId_ne_of_over hb.serving hduplicate.symm hne (hready.finished other hother)
          · obtain ⟨key, hholds⟩ := hb.keyed result.commandId
            rw [key_of_duplicateOf hb.serving hduplicate.symm hne hholds]
            exact hholds
    · -- a new command is handed to the queue
      rcases hsound henabled with hwaiting | ⟨hneeds, hfresh⟩
      · rw [hfree] at hwaiting
        cases hwaiting
      · obtain ⟨hunnamed, hunasked⟩ := hfresh hfree
        have hready := htracked.ready hattempts hneeds
        have hkeeps : ∀ other ∈ b.asks,
            KeepsCommand b.world.gateway world.gateway other.commandId := by
          intro other hother
          rw [hgateway]
          refine ⟨fun key hkey => ?_, fun hopen => ?_⟩
          · refine GatewayStateStore.holdsOnly_next hb.serving h.digest _ hkey ?_
            intro command hcommand heq
            rw [command_of_accepts hcommand] at heq
            exact hunasked other hother heq.symm
          · rw [← GatewayStateStore.outstanding_enqueue h.digest b.world.gateway
              (h.hydrationCommand id candidate messageId) (h.hydrationOptions candidate) none
              moment.wall (hunasked other hother)]
            exact hopen
        refine hb.request ?_ ?_ hkeeps hset (fun _ => hready.due) ?_
        · rw [hgateway]
          exact hb.serving.next h.digest _
        · rw [hgateway]
          refine hb.keyed.next hb.serving h.digest _ ?_
          intro command hcommand
          rw [command_of_accepts hcommand]
          exact hunnamed
        · refine htracked.wait hready ?_ ?_ ?_ hwaits
          · intro other hother
            exact hkeeps other (mem_asksOf.mp hother).1
          · intro other hother
            rw [hcommandId]
            exact hunasked other (mem_asksOf.mp hother).1
          · rw [hgateway, hcommandId]
            exact holdsOnly_enqueueStep hb.serving hunnamed
  · rw [if_pos henabled]
    exact hb

theorem get?_bookEnqueue {other : Int} {found : Candidate}
    (hget : b.world.candidates.get? other = some found) (hother : other ≠ id) :
    (h.bookEnqueue b id candidate messageId moment).world.candidates.get? other = some found := by
  rw [world_bookEnqueue]
  by_cases henabled : h.config.enabled = true
  · generalize henqueue : h.enqueueCandidate b.world id candidate messageId moment = outcome
    obtain ⟨world, result⟩ := outcome
    obtain ⟨saved, hset, -, -⟩ := enqueueCandidate_cases henabled henqueue
    show world.candidates.get? other = some found
    rw [hset, get?_set, if_neg hother]
    exact hget
  · unfold enqueueCandidate
    dsimp only
    rw [if_pos henabled]
    exact hget

theorem Orderly.bookEnqueueAll (hattempts : 1 ≤ h.config.maxAttempts) {messageIds : Nat → String}
    (entries : List ((Int × Candidate) × Nat)) (hb : Orderly h b)
    (hlisted : ∀ entry ∈ entries, b.world.candidates.get? entry.1.1 = some entry.1.2)
    (hdistinct : (entries.map (·.1.1)).Nodup)
    (hsound : h.EnqueuesSound b messageIds moment entries) :
    Orderly h (h.bookEnqueueAll b messageIds moment entries) := by
  induction entries generalizing b with
  | nil => exact hb
  | cons entry rest ih =>
    obtain ⟨⟨id, candidate⟩, drawn⟩ := entry
    rw [map_cons, nodup_cons] at hdistinct
    refine ih (hb.bookEnqueue hattempts (hlisted _ mem_cons_self) hsound.1) ?_ hdistinct.2 hsound.2
    intro later hlater
    refine get?_bookEnqueue (hlisted later (mem_cons_of_mem _ hlater)) ?_
    exact fun heq => hdistinct.1 (mem_map.mpr ⟨later, hlater, heq⟩)

theorem nodup_due (w : HydrationWorld) (tradeDate : String) (moment : HydrationMoment) :
    ((h.dueCandidates w tradeDate moment).zipIdx.map (·.1.1)).Nodup := by
  have hentries : ((w.listCandidates tradeDate).map Prod.fst).Nodup := by
    refine ((perm_insertionSort _ _).map _).nodup_iff.mpr ?_
    exact (filter_sublist.map Prod.fst).nodup w.candidates.nodup
  have hdue : ((h.dueCandidates w tradeDate moment).map Prod.fst).Nodup := by
    refine ((take_sublist _ _).map Prod.fst).nodup ?_
    refine ((perm_insertionSort _ _).map _).nodup_iff.mpr ?_
    exact (filter_sublist.map Prod.fst).nodup hentries
  have hfst : (h.dueCandidates w tradeDate moment).zipIdx.map (·.1.1) =
      (h.dueCandidates w tradeDate moment).map Prod.fst := by
    rw [show (fun entry : (Int × Candidate) × Nat => entry.1.1) = Prod.fst ∘ Prod.fst from rfl,
      ← map_map, zipIdx_map_fst]
  rw [hfst]
  exact hdue

/-! ## Runs -/

theorem Orderly.save (hattempts : 1 ≤ h.config.maxAttempts) (hb : Orderly h b) (id : Int)
    (candidate : Candidate) :
    Orderly h { b with world := save b.world id candidate } := by
  unfold CandidateHydrator.save
  by_cases hid : id ≤ 0
  · rw [if_pos hid]
    exact hb
  · rw [if_neg hid]
    cases hget : b.world.candidates.get? id with
    | none =>
      obtain ⟨hasks, hfailures⟩ := hb.unknown id hget
      refine hb.rewrite hb.serving hb.keyed (fun _ _ => keepsCommand_refl _ _) rfl
        (fun _ _ => ⟨rfl, rfl⟩) hb.retries ?_
      show h.Tracked b.world.gateway _ (b.asksOf id) (b.failuresOf id)
      rw [hasks, hfailures]
      exact tracked_new hattempts b.world.gateway rfl
    | some old =>
      refine hb.rewrite hb.serving hb.keyed (fun _ _ => keepsCommand_refl _ _) rfl
        (fun _ _ => ⟨rfl, rfl⟩) hb.retries ?_
      exact (hb.tracked id old hget).same ⟨rfl, rfl, rfl⟩

theorem orderly_next (hattempts : 1 ≤ h.config.maxAttempts) (hb : Orderly h b)
    (step : HydrationStep) (hsound : h.Sound b step) : Orderly h (h.bookStep b step) := by
  cases step with
  | enqueueDueCandidates tradeDate messageIds moment =>
    show Orderly h (if ¬ h.config.enabled then b else _)
    by_cases henabled : h.config.enabled = true
    · rw [if_neg (not_not_intro henabled)]
      exact (hb.bookRecover hattempts moment).bookEnqueueAll hattempts _
        (fun _ hmem => h.get?_of_due hmem) (nodup_due _ _ _) (hsound henabled)
    · rw [if_pos henabled]
      exact hb
  | enqueueCandidate id messageId moment =>
    simp only [bookStep]
    cases hget : b.world.candidates.get? id with
    | none => exact hb
    | some candidate => exact hb.bookEnqueue hattempts hget (hsound candidate hget)
  | handleEvent event moment => exact hb.bookEvent hattempts hsound
  | recoverFromCommandHistory moment => exact hb.bookRecover hattempts moment
  | gateway call => exact hb.gateway h.digest call hsound.1 hsound.2
  | save id candidate => exact hb.save hattempts id candidate

/-- In a run of sound steps a candidate has at most as many commands accepted as configured, none
of them before its retry time, and at most one outstanding at a time; and its retry count is that
of its different commands that ended without usable data. -/
theorem requests_bounded (hattempts : 1 ≤ h.config.maxAttempts) {retention : Option Int}
    {expireStaleDispatched : Bool} {steps : List HydrationStep}
    (hsound : h.books.Guarded h.Sound (newBook retention expireStaleDispatched) steps) :
    h.books.Always (Bounded h.config.maxAttempts)
      (newBook retention expireStaleDispatched) steps := by
  have hnext : ∀ b step, Orderly h b → h.Sound b step → Orderly h (h.books.next b step) :=
    fun _ step hb hmeets => orderly_next hattempts hb step hmeets
  exact (Machine.always_of_guarded hnext (orderly_newBook _ _) hsound).imp
    fun _ hb => hb.bounded hattempts

/-! ## Fixed runs -/

def failedRequest : List HydrationStep :=
  [.save 1 detectedCandidate, .enqueueCandidate 1 "cmd" noon, failedCommand]

def failureTold : HydrationStep := .handleEvent (answerEvent "command_failed" "cmd" []) noon

/-- An event that comes twice counts twice, so after one failed command the count is two. -/
theorem repeated_event_counts_twice :
    ¬ exampleHydrator.books.Always
      (Bounded exampleHydrator.config.maxAttempts) (newBook (some 86400) true)
      (failedRequest ++ [failureTold, failureTold]) := by
  intro hall
  have hbounded := Machine.always_iff_prefix.mp hall _ (prefix_refl _)
  generalize hbook : exampleHydrator.books.run (newBook (some 86400) true)
    (failedRequest ++ [failureTold, failureTold]) = book at hbounded
  have hcount : (book.world.candidates.get? 1).map (·.hydration.retryCount) = some 2 := by
    rw [← hbook]
    decide +kernel
  have hended : (book.endedWithoutData 1).length = 1 := by
    rw [← hbook]
    decide +kernel
  obtain ⟨candidate, hget, htwo⟩ := Option.map_eq_some_iff.mp hcount
  have := hbounded.counted 1 candidate hget
  omega

theorem fresh_of_all (hcopies : b.world.gateway.copies commandId = ⟨none, none⟩)
    (hledger : (b.world.gateway.commandStore.all fun store =>
      store.dedupeKeys.values.all fun row => row.commandId ≠ commandId) = true)
    (hasks : ∀ ask ∈ b.asks, ask.commandId ≠ commandId) : b.Fresh commandId := by
  refine ⟨?_, hasks⟩
  rintro (⟨record, hrecord⟩ | ⟨key, entry, hentry, hid⟩)
  · rw [hcopies] at hrecord
    rcases hrecord with hmemory | hrow
    · cases hmemory
    · cases hrow
  · obtain ⟨store, hstore, hkey⟩ := Option.bind_eq_some_iff.mp hentry
    obtain ⟨row, hrow, rfl⟩ := Option.map_eq_some_iff.mp hkey
    rw [hstore, Option.all_some, all_eq_true] at hledger
    exact of_decide_eq_true (hledger row (mem_values_iff.mpr ⟨key, hrow⟩)) hid

theorem sound_enqueueCandidate (hneeds : ((b.world.candidates.get? id).all fun candidate =>
      h.needsHydration candidate moment) = true) (hfresh : b.Fresh messageId) :
    h.Sound b (.enqueueCandidate id messageId moment) := by
  intro candidate hget _
  rw [hget, Option.all_some] at hneeds
  exact .inr ⟨hneeds, fun _ => hfresh⟩

theorem sound_handleEvent (hawaited : ((h.reached b.world event moment).all fun found =>
      found.2.waitingOn (answerOf event).commandId) = true)
    (hfinished : b.outstanding (answerOf event).commandId = false) :
    h.Sound b (.handleEvent event moment) := by
  intro _ id candidate hreached
  rw [hreached, Option.all_some] at hawaited
  exact ⟨hawaited, hfinished⟩

/-- A failed command whose failure is told once, and a retry a minute later. -/
theorem requests_bounded_retry :
    exampleHydrator.books.Always
      (Bounded exampleHydrator.config.maxAttempts) (newBook (some 86400) true)
      (failedRequest ++ [failureTold, .enqueueCandidate 1 "retry" later]) := by
  refine requests_bounded (by decide) ⟨trivial, ?_, ⟨?_, ?_⟩, ?_, ?_, trivial⟩
  · exact sound_enqueueCandidate (by decide +kernel)
      (fresh_of_all (by decide +kernel) (by decide +kernel) (by decide +kernel))
  · rintro command ⟨options, now, hcall, -⟩
    cases hcall
  · decide +kernel
  · exact sound_handleEvent (by decide +kernel) (by decide +kernel)
  · exact sound_enqueueCandidate (by decide +kernel)
      (fresh_of_all (by decide +kernel) (by decide +kernel) (by decide +kernel))

end CandidateHydrator

end TradingCore.Candidates
