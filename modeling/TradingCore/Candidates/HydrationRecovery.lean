import TradingCore.Broker.HeldKeys
import TradingCore.Candidates.HydrationAnswers

/-!
# No candidate is stranded

A candidate with the hydration status `PENDING` is left alone until its command answers or the
recovery finds the answer in the command records. The invariant of a run is that such a candidate
waits on a command that the gateway state store knows and that asks for this very candidate
(`Followed`). Then a recovery settles it if the command is finished and its record tells of a
failure.

It does not always: a record that is `ACKED` with data that parse is passed over, so an answer whose
event was lost strands its candidate, and so does a command that was answered as skipped.
-/

namespace TradingCore.Candidates

open Base Broker GatewayStateStore HydrationWorld List Dict Option

/-! ## Places of a candidate -/

/-- A hydration that an answer has settled: merged, to be retried at a time, or failed. -/
structure CandidateHydration.Settled (hydration : CandidateHydration) : Prop where
  status : hydration.statusText ∈ ["ACKED", "RETRY_WAIT", "FAILED"]
  retry : hydration.statusText = "RETRY_WAIT" → hydration.retryAfterAt.isSome

def Candidate.pending (candidate : Candidate) : Prop :=
  candidate.hydration.statusText = "PENDING"
deriving Decidable

theorem not_settled_of_pending {candidate : Candidate} (hpending : candidate.pending) :
    ¬ candidate.hydration.Settled := by
  intro hsettled
  have hstatus := hsettled.status
  rw [show candidate.hydration.statusText = "PENDING" from hpending] at hstatus
  revert hstatus
  decide

namespace CandidateHydrator

variable (h : CandidateHydrator)

theorem settled_afterFailure (candidate : Candidate) (answer : HydrationAnswer)
    (idempotencyKey reason : String) (parsed : Mapping) (moment : HydrationMoment) :
    (h.afterFailure candidate answer idempotencyKey reason parsed moment).hydration.Settled := by
  refine ⟨?_, ?_⟩
  · exact mem_cons_of_mem _
      (h.afterFailure_status candidate answer idempotencyKey reason parsed moment)
  · rw [(h.sameHydration_afterFailure ..).hydration]
    show CandidateHydration.statusText (h.failedHydration _ _ _ _ _ _) = _ →
      (h.failedHydration _ _ _ _ _ _).retryAfterAt.isSome
    unfold CandidateHydration.statusText failedHydration
    dsimp only
    split
    · exact fun _ => rfl
    · exact fun hfailed => absurd hfailed (by decide)

theorem settled_afterMerge (candidate : Candidate) (answer : HydrationAnswer)
    (idempotencyKey : String) (parsed : Mapping) (moment : HydrationMoment) :
    (h.afterMerge candidate answer idempotencyKey parsed moment).hydration.Settled := by
  have hstatus : (h.afterMerge candidate answer idempotencyKey parsed
      moment).hydration.statusText = "ACKED" := by
    unfold CandidateHydration.statusText
    rw [h.afterMerge_status]
    decide
  refine ⟨hstatus ▸ mem_cons_self, ?_⟩
  rw [hstatus]
  exact fun hretry => absurd hretry (by decide)

/-! ## Answers settle -/

/-- From one world to the other, candidates were at most settled. -/
structure Settles (before after : HydrationWorld) : Prop where
  gateway : after.gateway = before.gateway
  candidates : ∀ id, after.candidates.get? id = before.candidates.get? id ∨
    (before.candidates.get? id).isSome ∧
      ∃ candidate, after.candidates.get? id = some candidate ∧ candidate.hydration.Settled

variable {w before after : HydrationWorld} {id : Int} {candidate : Candidate}
  {moment : HydrationMoment} {g : GatewayStateStore} {commandId : String} {record : CommandRecord}

theorem settles_rfl : Settles w w := ⟨rfl, fun _ => .inl rfl⟩

theorem Settles.trans {a b c : HydrationWorld} (hab : Settles a b) (hbc : Settles b c) :
    Settles a c := by
  refine ⟨hbc.gateway.trans hab.gateway, fun id => ?_⟩
  rcases hbc.candidates id with hsame | ⟨hsome, hsettled⟩
  · rw [hsame]
    exact hab.candidates id
  · refine .inr ⟨?_, hsettled⟩
    rcases hab.candidates id with hsame | ⟨hsome', -⟩
    · rw [← hsame]
      exact hsome
    · exact hsome'

theorem Settles.pending (hsettles : Settles before after)
    (hget : after.candidates.get? id = some candidate) (hpending : candidate.pending) :
    before.candidates.get? id = some candidate := by
  rcases hsettles.candidates id with hsame | ⟨-, settled, hsettled, hplace⟩
  · rw [← hsame, hget]
  · rw [hget] at hsettled
    injection hsettled with hsettled
    exact absurd (hsettled ▸ hplace) (not_settled_of_pending hpending)

theorem settles_set {saved : Candidate} (hgateway : after.gateway = before.gateway)
    (hget : before.candidates.get? id = some candidate)
    (hset : after.candidates = before.candidates.set id saved)
    (hsettled : saved.hydration.Settled) : Settles before after := by
  refine ⟨hgateway, fun id' => ?_⟩
  rw [hset, get?_set]
  split
  · next heq =>
      refine .inr ⟨?_, saved, rfl, hsettled⟩
      rw [heq, hget]
      rfl
  · exact .inl rfl

theorem settles_of_answered {answer : HydrationAnswer} {merged : Mapping} {handling : Handling}
    {reached : Option (Int × Candidate)} (hgateway : after.gateway = w.gateway)
    (hget : ∀ id candidate, reached = some (id, candidate) → w.candidates.get? id = some candidate)
    (hanswered : h.Answered w answer merged moment handling reached after.candidates) :
    Settles w after := by
  generalize hcandidates : after.candidates = candidates at hanswered
  cases hanswered with
  | nobody => exact ⟨hgateway, fun id => .inl (by rw [hcandidates])⟩
  | failed id candidate idempotencyKey reason parsed =>
    exact settles_set hgateway (hget id candidate rfl) hcandidates (h.settled_afterFailure ..)
  | merged id candidate idempotencyKey =>
    exact settles_set hgateway (hget id candidate rfl) hcandidates (h.settled_afterMerge ..)

theorem settles_handleEvent (w : HydrationWorld) (event : GatewayEvent)
    (moment : HydrationMoment) : Settles w (h.handleEvent w event moment).1 :=
  h.settles_of_answered (h.gateway_handleEvent w event moment)
    (fun _ _ => h.get?_of_reached) (h.answered_handleEvent w event moment)

theorem settles_markFailure (w : HydrationWorld) (answer : HydrationAnswer) (reason : String)
    (parsed : Mapping) (moment : HydrationMoment) :
    Settles w (h.markFailure w answer reason parsed moment) :=
  h.settles_of_answered (h.gateway_markFailure ..) (fun _ _ => get?_of_candidateAt)
    (h.answered_markFailure w answer reason parsed .empty moment)

theorem settles_recoverRecord (moment : HydrationMoment) (w : HydrationWorld)
    (record : CommandRecord) : Settles w (h.recoverRecord moment w record) := by
  unfold recoverRecord
  split
  · exact settles_rfl
  · split
    · exact settles_rfl
    · split
      · exact settles_rfl
      · split
        · exact settles_rfl
        · exact h.settles_markFailure ..

theorem settles_recoverRecords (moment : HydrationMoment) (records : List CommandRecord)
    (w : HydrationWorld) : Settles w (records.foldl (h.recoverRecord moment) w) := by
  induction records generalizing w with
  | nil => exact settles_rfl
  | cons record rest ih => exact (h.settles_recoverRecord moment w record).trans (ih _)

/-! ## Commands on record -/

/-- The record of a TR command that asks for the data of a candidate. -/
structure RequestOf (id : Int) (record : CommandRecord) : Prop where
  type : record.commandType = "tr_request"
  purpose : record.command.payload.value "purpose" = .str candidateHydrationPurpose
  candidate : record.command.payload.value "candidate_id" = .int id

theorem RequestOf.of_same {a b : CommandRecord} (ha : RequestOf id a)
    (hsame : CommandRecord.SameCommand a b) : RequestOf id b := by
  refine ⟨hsame.commandType.trans ha.type, ?_, ?_⟩
  · rw [hsame.command]
    exact ha.purpose
  · rw [hsame.command]
    exact ha.candidate

/-- The gateway state store knows the command, and every copy of it is a request of the
candidate. -/
structure OnRecord (g : GatewayStateStore) (id : Int) (commandId : String) : Prop where
  known : (g.getCommand commandId).isSome
  request : ∀ record, (g.copies commandId).Has record → RequestOf id record

theorem onRecord_put {copies : Copies} (hput : g.copies commandId = copies.put g.stored record)
    (hrequest : RequestOf id record) : OnRecord g id commandId := by
  refine ⟨?_, ?_⟩
  · rw [getCommand_eq, hput]
    exact Copies.current_put record
  · rw [hput]
    exact fun _ hhas => hrequest.of_same (Copies.has_put hhas)

theorem onRecord_next (hwf : g.WellFormed) (digest : GatewayCommand → String)
    (s : Step) (honRecord : OnRecord g id commandId)
    (hkeeps : ¬ g.Forgets s commandId) :
    OnRecord ((GatewayStateStore.machine digest).next g s) id commandId := by
  have hrestart : g.stored = true ∨ s.call ≠ .restart := by
    cases hstored : g.stored with
    | true => exact .inl rfl
    | false =>
      refine .inr fun hcall => hkeeps ?_
      unfold Forgets
      rw [hcall]
      exact hstored
  refine ⟨known_next hwf digest s honRecord.known hkeeps, ?_⟩
  rcases derived_next hwf digest s hrestart commandId with
    hderived | ⟨command, options, now, hcall, rfl, haccepted, -, -⟩
  · intro record hhas
    obtain ⟨old, hold, hcontinues⟩ := hderived record hhas
    exact (honRecord.request old hold).of_same hcontinues.same
  · -- a known id is not enqueued again
    rcases copies_enqueue digest g command options now s.wall with
      ⟨hrejected, -⟩ | ⟨-, -, hrow, hmemory, -⟩
    · rw [hrejected] at haccepted
      cases haccepted
    · have hknown := honRecord.known
      rw [getCommand_eq] at hknown
      unfold Copies.current at hknown
      cases hstored : g.stored with
      | true =>
        rw [hstored, if_pos rfl, hrow hstored] at hknown
        cases hknown
      | false =>
        rw [hstored, if_neg (by decide), hmemory hstored] at hknown
        cases hknown

/-! ## The invariant -/

/-- What holds all along a run: the gateway state store is well formed, candidates have ids, and
each of them was settled, is not hydrated yet, or waits on a command on record for it. -/
structure Followed (w : HydrationWorld) : Prop where
  gateway : w.gateway.WellFormed
  ids : ∀ id candidate, w.candidates.get? id = some candidate → id ≠ 0
  places : ∀ id candidate, w.candidates.get? id = some candidate →
    candidate.hydration.statusText = "" ∨ candidate.hydration.Settled ∨
      candidate.pending ∧ OnRecord w.gateway id candidate.hydration.commandId

theorem Followed.onRecord (hw : Followed w) (hget : w.candidates.get? id = some candidate)
    (hpending : candidate.pending) : OnRecord w.gateway id candidate.hydration.commandId := by
  rcases hw.places id candidate hget with hnone | hsettled | ⟨-, honRecord⟩
  · rw [show candidate.hydration.statusText = "PENDING" from hpending] at hnone
    exact absurd hnone (by decide)
  · exact absurd hsettled (not_settled_of_pending hpending)
  · exact honRecord

theorem Followed.settles (hw : Followed before) (hsettles : Settles before after) :
    Followed after := by
  refine ⟨hsettles.gateway ▸ hw.gateway, ?_, ?_⟩
  · intro id candidate hget
    rcases hsettles.candidates id with hsame | ⟨hsome, -⟩
    · exact hw.ids id candidate (hsame ▸ hget)
    · obtain ⟨old, hold⟩ := isSome_iff_exists.mp hsome
      exact hw.ids id old hold
  · intro id candidate hget
    rcases hsettles.candidates id with hsame | ⟨-, settled, hsettled, hplace⟩
    · rw [hsettles.gateway]
      exact hw.places id candidate (hsame ▸ hget)
    · rw [hget] at hsettled
      injection hsettled with hsettled
      exact .inr (.inl (hsettled ▸ hplace))

theorem Followed.gateway_next (hw : Followed w) (digest : GatewayCommand → String)
    (s : Step)
    (hkeeps : ∀ id candidate, w.candidates.get? id = some candidate → candidate.pending →
      ¬ w.gateway.Forgets s candidate.hydration.commandId) :
    Followed { w with gateway := (GatewayStateStore.machine digest).next w.gateway s } := by
  refine ⟨wellFormed_next hw.gateway digest s, hw.ids, ?_⟩
  intro id candidate hget
  rcases hw.places id candidate hget with hnone | hsettled | ⟨hpending, honRecord⟩
  · exact .inl hnone
  · exact .inr (.inl hsettled)
  · exact .inr (.inr ⟨hpending, onRecord_next hw.gateway digest s honRecord
      (hkeeps id candidate hget hpending)⟩)

theorem Followed.set (hw : Followed w) {saved : Candidate} (hid : id ≠ 0)
    (hplace : saved.hydration.statusText = "" ∨ saved.hydration.Settled ∨
      saved.pending ∧ OnRecord w.gateway id saved.hydration.commandId) :
    Followed (w.saveCandidate id saved) := by
  refine ⟨hw.gateway, ?_, ?_⟩
  · intro id' candidate hget
    rw [saveCandidate, get?_set] at hget
    split at hget
    · next heq => exact heq ▸ hid
    · exact hw.ids id' candidate hget
  · intro id' candidate hget
    rw [saveCandidate, get?_set] at hget
    split at hget
    · next heq =>
        injection hget with hget
        subst heq hget
        exact hplace
    · exact hw.places id' candidate hget

theorem followed_save (hw : Followed w) (id : Int) (candidate : Candidate) :
    Followed (save w id candidate) := by
  unfold save
  split
  · exact hw
  · next hpositive =>
      have hid : id ≠ 0 := by omega
      split
      · exact hw.set hid (.inl rfl)
      · next old hold => exact hw.set hid (hw.places id old hold)

/-! ## The recovery -/

/-- The record tells the recovery of a failure if it is finished, and names no other candidate. -/
structure Tells (id : Int) (record : CommandRecord) : Prop where
  failure : record.finished = true → h.recordFailure record ≠ ""
  candidate : h.int ((record.resultPayload.value "candidate_id").or (.int id)) = id

/-- A recovery has room to list the commands, and what candidates wait on tells of its failure. -/
structure RecoveryTold (w : HydrationWorld) (moment : HydrationMoment) : Prop where
  room : ((w.gateway.expireOldCommands (some moment.seconds) moment.wall).1.listed
    "tr_request").length ≤ 200
  told : ∀ id candidate, w.candidates.get? id = some candidate → candidate.pending →
    ∀ record, (w.gateway.copies candidate.hydration.commandId).Has record → h.Tells id record

theorem tells_of_expiredFrom {old : CommandRecord} (hold : h.Tells id old)
    (hfrom : CommandRecord.ExpiredFrom old record) : h.Tells id record := by
  refine ⟨fun hfinished => ?_, ?_⟩
  · rcases hfrom.status with hsame | hexpired
    · have heq : h.recordFailure record = h.recordFailure old := by
        unfold recordFailure
        rw [hsame, hfrom.command, hfrom.resultPayload]
      rw [heq]
      refine hold.failure ?_
      unfold CommandRecord.finished at hfinished ⊢
      rw [← hsame]
      exact hfinished
    · unfold recordFailure
      rw [hexpired]
      show "EXPIRED" ≠ ""
      decide
  · rw [hfrom.resultPayload]
    exact hold.candidate

theorem value_merge (payload result : Mapping) (key : String) :
    (Mapping.value (payload.merge result) key).or (payload.value key) =
      (result.value key).or (payload.value key) := by
  unfold Mapping.value Dict.getD
  rw [get?_merge]
  cases result.get? key with
  | none =>
    simp only [none_or, getD_none]
    unfold Value.or
    split
    · rfl
    · rfl
  | some value => rfl

theorem commandId_recordAnswer (hne : commandId ≠ "") :
    (recordAnswer record commandId).commandId = commandId := by
  have hvalue : (recordAnswer record commandId).payload.value "command_id" = .str commandId := by
    unfold recordAnswer Mapping.value Dict.getD
    rw [get?_set_self]
    rfl
  unfold HydrationAnswer.commandId
  rw [hvalue]
  simp [Value.or, Value.truthy, Value.text, hne]

theorem answeredCandidate_recordAnswer {code : String} (hid : id ≠ 0)
    (hget : w.candidates.get? id = some candidate)
    (hknown : w.gateway.getCommand record.commandId = some record) (hne : record.commandId ≠ "")
    (hrequest : RequestOf id record) (htells : h.Tells id record) :
    h.answeredCandidate w (recordAnswer record record.commandId) code moment =
      some (id, candidate) := by
  have hcommand : w.commandPayload record.commandId = record.command.payload := by
    unfold commandPayload
    rw [if_neg hne, hknown]
    rfl
  have hvalue : (recordAnswer record record.commandId).payload.value "candidate_id" =
      Mapping.value (record.command.payload.merge record.resultPayload) "candidate_id" := by
    unfold recordAnswer Mapping.value Dict.getD
    rw [get?_set_ne _ _ (by decide)]
  unfold answeredCandidate
  dsimp only
  rw [commandId_recordAnswer hne, hcommand, hvalue, value_merge, hrequest.candidate,
    htells.candidate]
  unfold candidateAt
  rw [if_pos hid, hget]

theorem recoverRecord_settles (moment : HydrationMoment) (hid : id ≠ 0)
    (hget : w.candidates.get? id = some candidate) (hpending : candidate.pending)
    (hwaits : candidate.hydration.commandId = record.commandId)
    (hknown : w.gateway.getCommand record.commandId = some record) (hne : record.commandId ≠ "")
    (hrequest : RequestOf id record) (htells : h.Tells id record)
    (hfinished : record.finished = true) :
    ∃ settled, (h.recoverRecord moment w record).candidates.get? id = some settled ∧
      settled.hydration.Settled := by
  have hpurpose : recordPurpose record = candidateHydrationPurpose := by
    unfold recordPurpose eitherText
    rw [hrequest.purpose]
    rfl
  have hfound : h.candidateForCommandPayload w record.command.payload record.resultPayload =
      some (id, candidate) := by
    unfold candidateForCommandPayload
    rw [hrequest.candidate, htells.candidate]
    unfold candidateAt
    rw [if_pos hid, hget]
  have hcommandId : recordCommandId record = record.commandId := if_pos hne
  have hwaiting : candidate.waitingOn record.commandId = true := by
    unfold Candidate.waitingOn
    rw [hwaits, show candidate.hydration.statusText = "PENDING" from hpending]
    simp [hne]
  have hanswered : ∀ parsed, ∃ settled,
      (h.markFailure w (recordAnswer record record.commandId) (h.recordFailure record) parsed
        moment).candidates.get? id = some settled ∧ settled.hydration.Settled := by
    intro parsed
    have hcases := h.answered_markFailure w (recordAnswer record record.commandId)
      (h.recordFailure record) parsed .empty moment
    rw [h.answeredCandidate_recordAnswer hid hget hknown hne hrequest htells] at hcases
    generalize (h.markFailure w (recordAnswer record record.commandId) (h.recordFailure record)
      parsed moment).candidates = candidates at hcases
    cases hcases with
    | failed id candidate idempotencyKey reason parsed =>
      exact ⟨_, get?_set_self _ _ _, h.settled_afterFailure ..⟩
  unfold recoverRecord
  rw [if_neg (fun hne' => hne' hpurpose), hfound]
  dsimp only
  rw [hcommandId, if_neg (fun hnot => hnot hwaiting), if_neg (htells.failure hfinished)]
  exact hanswered _

theorem not_pending_recoverRecords {records : List CommandRecord} (moment : HydrationMoment)
    (hmem : record ∈ records) (hid : id ≠ 0)
    (hwaits : candidate.hydration.commandId = record.commandId)
    (hknown : w.gateway.getCommand record.commandId = some record) (hne : record.commandId ≠ "")
    (hrequest : RequestOf id record) (htells : h.Tells id record)
    (hfinished : record.finished = true)
    (hget : (records.foldl (h.recoverRecord moment) w).candidates.get? id = some candidate) :
    ¬ candidate.pending := by
  intro hpending
  induction records generalizing w with
  | nil => cases hmem
  | cons first rest ih =>
    have hrest := (h.settles_recoverRecords moment rest _).pending hget hpending
    have hstep := h.settles_recoverRecord moment w first
    rcases mem_cons.mp hmem with rfl | hlater
    · -- the record settled it, and settled it stays
      obtain ⟨settled, hsettled, hplace⟩ := h.recoverRecord_settles moment hid
        (hstep.pending hrest hpending) hpending hwaits hknown hne hrequest htells hfinished
      rw [hrest] at hsettled
      injection hsettled with hsettled
      exact not_settled_of_pending hpending (hsettled ▸ hplace)
    · exact ih hlater (by rw [hstep.gateway]; exact hknown) hget

/-- Every candidate is not hydrated yet, hydrated, waits for a scheduled retry, has failed, or
waits on a live command. -/
def NoneStranded (w : HydrationWorld) : Prop :=
  ∀ id candidate, w.candidates.get? id = some candidate →
    candidate.hydration.statusText = "" ∨ candidate.hydration.Settled ∨
      candidate.pending ∧ ∃ record,
        w.gateway.getCommand candidate.hydration.commandId = some record ∧ record.finished = false

theorem followed_expired (hw : Followed w) (moment : HydrationMoment) :
    Followed { w with
      gateway := (w.gateway.expireOldCommands (some moment.seconds) moment.wall).1 } :=
  hw.gateway_next (fun _ => "") ⟨.expireOld (some moment.seconds), moment.wall⟩
    (fun _ _ _ _ hforgets => hforgets)

theorem settles_recover (w : HydrationWorld) (moment : HydrationMoment) :
    Settles { w with
      gateway := (w.gateway.expireOldCommands (some moment.seconds) moment.wall).1 }
      (h.recoverFromCommandHistory w moment) :=
  h.settles_recoverRecords moment _ _

theorem followed_recover (hw : Followed w) (moment : HydrationMoment) :
    Followed (h.recoverFromCommandHistory w moment) :=
  (followed_expired hw moment).settles (h.settles_recover w moment)

theorem noneStranded_recover (hw : Followed w) (htold : h.RecoveryTold w moment) :
    NoneStranded (h.recoverFromCommandHistory w moment) := by
  intro id candidate hget
  have hexpired := followed_expired hw moment
  have hsettles := h.settles_recover w moment
  refine ((h.followed_recover hw moment).places id candidate hget).imp_right ?_
  refine Or.imp_right ?_
  rintro ⟨hpending, -⟩
  refine ⟨hpending, ?_⟩
  have hbefore := hsettles.pending hget hpending
  have honRecord := hexpired.onRecord hbefore hpending
  obtain ⟨record, hrecord⟩ := isSome_iff_exists.mp honRecord.known
  rw [hsettles.gateway]
  refine ⟨record, hrecord, ?_⟩
  cases hfinished : record.finished with
  | false => rfl
  | true =>
    have hhas := Copies.has_of_current (getCommand_eq _ _ ▸ hrecord)
    have hrequest := honRecord.request record hhas
    have hfiled := (hexpired.gateway.filed hhas).1
    have hne : record.commandId ≠ "" := by
      intro hempty
      rw [hfiled] at hempty
      exact hexpired.gateway.named record (hempty ▸ hhas)
    have htells : h.Tells id record := by
      obtain ⟨old, hold, hfrom⟩ :=
        expiredFrom_expireOld hw.gateway _ _ hhas
      exact h.tells_of_expiredFrom (htold.told id candidate hbefore hpending old hold) hfrom
    have hlisted := mem_listCommands hexpired.gateway hrecord (hrequest.type ▸ htold.room)
    rw [hrequest.type] at hlisted
    exact absurd hpending (h.not_pending_recoverRecords moment hlisted
      (hexpired.ids id candidate hbefore) hfiled.symm (hfiled.symm ▸ hrecord) hne hrequest htells
      hfinished hget)

/-! ## Requests -/

/-- An enqueue makes the candidate wait on a command that is on record for it: the command that
holds its key, or else the new one, which the store admits. -/
def EnqueueTold (w : HydrationWorld) (id : Int) (candidate : Candidate) (messageId : String)
    (moment : HydrationMoment) : Prop :=
  let duplicate := w.gateway.duplicateOf (h.requestKey candidate) moment.wall
  h.config.enabled = true →
    (duplicate = "" → Admits h.digest w.gateway
      (h.hydrationCommand id candidate messageId) moment.wall) ∧
    (duplicate ≠ "" → OnRecord w.gateway id duplicate)

theorem requestOf_created (id : Int) (candidate : Candidate) (messageId : String)
    (options : EnqueueOptions) (now : Option Time) (wall : Time) :
    RequestOf id (created h.digest (h.hydrationCommand id candidate messageId)
      options now wall) := by
  refine ⟨rfl, ?_, ?_⟩
  · rfl
  · rfl

variable {command : GatewayCommand} {options : EnqueueOptions}

theorem duplicateOf_of_accepted {now : Option Time} {wall : Time}
    (haccepted : (g.enqueueCommand h.digest command options now wall).2.accepted = true) :
    (g.enqueueCommand h.digest command options now wall).2.duplicateOf = "" := by
  unfold enqueueCommand at haccepted ⊢
  cases hs : g.commandStore with
  | none =>
    simp only [hs] at haccepted ⊢
    unfold CommandQueue.enqueue at haccepted ⊢
    split at haccepted
    · cases haccepted
    · next hne =>
        rw [if_neg hne]
        dsimp only at haccepted ⊢
        split at haccepted
        · cases haccepted
        · split at haccepted
          · cases haccepted
          · rfl
  | some store =>
    simp only [hs] at haccepted ⊢
    split at haccepted
    · cases haccepted
    · next hne =>
        rw [if_neg hne]
        dsimp only at haccepted ⊢
        unfold SQLiteCommandStore.enqueueRecord at haccepted ⊢
        split at haccepted
        · cases haccepted
        · next hne' =>
            rw [if_neg hne']
            split at haccepted
            · cases haccepted
            · next hrow =>
                rw [if_neg hrow]
                split at haccepted
                · cases haccepted
                · rfl

theorem onRecord_enqueue {now : Option Time} {wall : Time}
    (haccepted : (g.enqueueCommand h.digest command options now wall).2.accepted = true)
    (hrequest : RequestOf id (created h.digest command options now wall)) :
    OnRecord (g.enqueueCommand h.digest command options now wall).1 id command.commandId := by
  rcases copies_enqueue h.digest g command options now wall with
    ⟨hrejected, -⟩ | ⟨-, -, -, -, hput⟩
  · rw [haccepted] at hrejected
    cases hrejected
  · have hcopies := hput command.commandId
    rw [if_pos rfl] at hcopies
    have hstored : (g.enqueueCommand h.digest command options now wall).1.stored = g.stored :=
      stored_next h.digest g ⟨.enqueue command options now, wall⟩
    rw [← hstored] at hcopies
    exact onRecord_put hcopies hrequest

theorem pending_markHydrating (candidate : Candidate) (command : GatewayCommand) (waitsOn : String)
    (moment : HydrationMoment) :
    (h.fsm.onHydrationRequested (requestedCandidate candidate command waitsOn moment)
        moment.now).1.pending ∧
      (h.fsm.onHydrationRequested (requestedCandidate candidate command waitsOn moment)
        moment.now).1.hydration.commandId = waitsOn := by
  have hsame := h.sameHydration_onHydrationRequested
    (requestedCandidate candidate command waitsOn moment) moment.now
  unfold Candidate.pending
  rw [hsame.hydration]
  refine ⟨?_, rfl⟩
  show Text.upper ((Value.str "PENDING").or (.str "")).text = "PENDING"
  decide

theorem followed_enqueueCandidate (hw : Followed w) (hid : id ≠ 0) {messageId : String}
    (htold : h.EnqueueTold w id candidate messageId moment) :
    Followed (h.enqueueCandidate w id candidate messageId moment).1 := by
  unfold EnqueueTold at htold
  unfold enqueueCandidate
  dsimp only at htold ⊢
  split
  · exact hw
  · next henabled =>
      have henabled' : h.config.enabled = true := by simpa using henabled
      obtain ⟨hnew, hduplicate⟩ := htold henabled'
      generalize hdup : w.gateway.duplicateOf (h.requestKey candidate) moment.wall = duplicate
        at hnew hduplicate
      split
      · next hne =>
          -- the candidate waits on the command that holds its key
          have hsaved : Followed (w.saveRequest messageId candidate.tradeDate "DUPLICATE") :=
            ⟨hw.gateway, hw.ids, hw.places⟩
          have hpending := h.pending_markHydrating candidate
            (h.hydrationCommand id candidate messageId) duplicate moment
          unfold markHydrating
          dsimp only
          rw [if_pos hne]
          exact hsaved.set hid (.inr (.inr ⟨hpending.1, hpending.2.symm ▸ hduplicate hne⟩))
      · next hempty =>
          have hadmits := hnew (by simpa using hempty)
          have haccepted := (accepted_iff h.digest w.gateway
            (h.hydrationCommand id candidate messageId) (h.hydrationOptions candidate) none
            moment.wall).mpr hadmits
          have hgateway : Followed { w with
              gateway := (w.gateway.enqueueCommand h.digest
                (h.hydrationCommand id candidate messageId) (h.hydrationOptions candidate) none
                moment.wall).1 } :=
            hw.gateway_next h.digest
              ⟨.enqueue (h.hydrationCommand id candidate messageId) (h.hydrationOptions candidate)
                none, moment.wall⟩ (fun _ _ _ _ hforgets => hforgets)
          have honRecord := h.onRecord_enqueue haccepted (h.requestOf_created id candidate messageId
            (h.hydrationOptions candidate) none moment.wall)
          have hpending := h.pending_markHydrating candidate
            (h.hydrationCommand id candidate messageId) messageId moment
          rw [if_pos haccepted]
          unfold markHydrating
          dsimp only
          rw [h.duplicateOf_of_accepted haccepted, if_neg (fun hne => hne rfl)]
          have hsaved : Followed (saveRequest { w with
              gateway := (w.gateway.enqueueCommand h.digest
                (h.hydrationCommand id candidate messageId) (h.hydrationOptions candidate) none
                moment.wall).1 } messageId candidate.tradeDate "QUEUED") :=
            ⟨hgateway.gateway, hgateway.ids, hgateway.places⟩
          exact hsaved.set hid (.inr (.inr ⟨hpending.1, hpending.2.symm ▸ honRecord⟩))

/-- Each of some enqueues, one after the other. -/
def EnqueuesTold (w : HydrationWorld) (messageIds : Nat → String) (moment : HydrationMoment) :
    List ((Int × Candidate) × Nat) → Prop
  | [] => True
  | ((id, candidate), drawn) :: rest =>
      h.EnqueueTold w id candidate (messageIds drawn) moment ∧
        EnqueuesTold (h.enqueueCandidate w id candidate (messageIds drawn) moment).1 messageIds
          moment rest

theorem followed_enqueueAll {messageIds : Nat → String}
    (candidates : List ((Int × Candidate) × Nat)) (hw : Followed w)
    (hids : ∀ entry ∈ candidates, entry.1.1 ≠ 0)
    (htold : h.EnqueuesTold w messageIds moment candidates) :
    Followed (h.enqueueAll w messageIds moment candidates) := by
  induction candidates generalizing w with
  | nil => exact hw
  | cons entry rest ih =>
    exact ih (h.followed_enqueueCandidate hw (hids entry mem_cons_self) htold.1)
      (fun entry' hmem => hids entry' (mem_cons_of_mem _ hmem)) htold.2

theorem get?_of_due {tradeDate : String} {entry : (Int × Candidate) × Nat}
    (hmem : entry ∈ (h.dueCandidates w tradeDate moment).zipIdx) :
    w.candidates.get? entry.1.1 = some entry.1.2 := by
  have hdue : entry.1 ∈ h.dueCandidates w tradeDate moment := fst_mem_of_mem_zipIdx hmem
  have hsorted := mem_of_mem_take hdue
  rw [mem_insertionSort] at hsorted
  have hlisted := (mem_filter.mp hsorted).1
  unfold listCandidates at hlisted
  rw [mem_insertionSort] at hlisted
  exact mem_entries_iff.mp (mem_filter.mp hlisted).1

theorem ids_dueCandidates (hw : Followed w) (tradeDate : String) (moment : HydrationMoment) :
    ∀ entry ∈ (h.dueCandidates w tradeDate moment).zipIdx, entry.1.1 ≠ 0 := fun entry hmem =>
  hw.ids entry.1.1 entry.1.2 (h.get?_of_due hmem)

/-! ## Runs -/

/-- The condition on a step: a recovery is told of the failure of every finished command that a
candidate waits on, an enqueue leaves the candidate with a command on record for it, and no call
makes the gateway state store forget a command that a candidate waits on. -/
def Told (w : HydrationWorld) : HydrationStep → Prop
  | .enqueueDueCandidates tradeDate messageIds moment =>
      h.config.enabled = true →
        h.RecoveryTold w moment ∧
        h.EnqueuesTold (h.recoverFromCommandHistory w moment) messageIds moment
          (h.dueCandidates (h.recoverFromCommandHistory w moment)
            (if tradeDate ≠ "" then tradeDate else moment.today) moment).zipIdx
  | .enqueueCandidate id messageId moment =>
      ∀ candidate, w.candidates.get? id = some candidate →
        h.EnqueueTold w id candidate messageId moment
  | .handleEvent _ _ => True
  | .recoverFromCommandHistory moment => h.RecoveryTold w moment
  | .gateway call =>
      ∀ id candidate, w.candidates.get? id = some candidate → candidate.pending →
        ¬ w.gateway.Forgets call candidate.hydration.commandId
  | .save _ _ => True

/-- Does the step recover from the command history, at the moment? -/
def Recovers : HydrationStep → HydrationMoment → Prop
  | .enqueueDueCandidates _ _ moment, at' => h.config.enabled = true ∧ moment = at'
  | .recoverFromCommandHistory moment, at' => moment = at'
  | _, _ => False

theorem followed_next (hw : Followed w) (step : HydrationStep) (htold : h.Told w step) :
    Followed (h.machine.next w step) := by
  cases step with
  | enqueueDueCandidates tradeDate messageIds moment =>
    show Followed (h.enqueueDueCandidates w tradeDate messageIds moment)
    unfold enqueueDueCandidates
    split
    · exact hw
    · next henabled =>
        have hrecovered := h.followed_recover hw moment
        exact h.followed_enqueueAll _ hrecovered (h.ids_dueCandidates hrecovered _ moment)
          (htold (by simpa using henabled)).2
  | enqueueCandidate id messageId moment =>
    simp only [Machine.next, machine, step]
    cases hget : w.candidates.get? id with
    | none => exact hw
    | some candidate =>
      exact h.followed_enqueueCandidate hw (hw.ids id candidate hget) (htold candidate hget)
  | handleEvent event moment => exact hw.settles (h.settles_handleEvent w event moment)
  | recoverFromCommandHistory moment => exact h.followed_recover hw moment
  | gateway call => exact hw.gateway_next h.digest call htold
  | save id candidate => exact followed_save hw id candidate

/-- Core starts without candidates, on a fresh gateway state store. -/
def start (retention : Option Int) (expireStaleDispatched : Bool) : HydrationWorld where
  gateway := empty retention expireStaleDispatched

theorem followed_start (retention : Option Int) (expireStaleDispatched : Bool) :
    Followed (start retention expireStaleDispatched) := by
  refine ⟨wellFormed_fresh _ _, ?_, ?_⟩
  · intro id candidate hget
    cases hget
  · intro id candidate hget
    cases hget

/-- In a run whose steps all meet the condition, no recovery leaves a candidate behind that is
`PENDING` on a command that is finished or unknown. -/
theorem recovery_strands_nobody (retention : Option Int) (expireStaleDispatched : Bool)
    {steps : List HydrationStep}
    (htold : h.machine.Guarded h.Told (start retention expireStaleDispatched) steps) :
    ∀ past step moment, past ++ [step] <+: steps → h.Recovers step moment →
      NoneStranded (h.recoverFromCommandHistory
        (h.machine.run (start retention expireStaleDispatched) past) moment) := by
  intro past step moment hpre hrecovers
  have hfollowed : Followed (h.machine.run (start retention expireStaleDispatched) past) := by
    have hnext : ∀ w step, Followed w → h.Told w step → Followed (h.machine.next w step) :=
      fun _ step hw hmeets => h.followed_next hw step hmeets
    have halways := Machine.always_of_guarded hnext
      (followed_start retention expireStaleDispatched) htold
    exact Machine.always_iff_prefix.mp halways past ((prefix_append _ _).trans hpre)
  have hstep := Machine.guarded_iff_prefix.mp htold past step hpre
  cases step with
  | enqueueDueCandidates tradeDate messageIds moment' =>
    obtain ⟨henabled, rfl⟩ := hrecovers
    exact h.noneStranded_recover hfollowed (hstep henabled).1
  | recoverFromCommandHistory moment' =>
    obtain rfl : moment' = moment := hrecovers
    exact h.noneStranded_recover hfollowed hstep
  | _ => exact hrecovers.elim

/-! ## Fixed runs -/

def detectedCandidate : Candidate :=
  { tradeDate := "2026-06-19"
    code := "005930"
    metadata := {
      candidateIngestion := some { activeSourceTypes := ["condition_search"] } } }

def requested : List HydrationStep :=
  [.save 1 detectedCandidate, .enqueueDueCandidates "" (fun _ => "cmd") noon,
    .gateway ⟨.dispatch 5 none, 1⟩]

def answered : HydrationStep :=
  .gateway ⟨.ack "cmd" .acked (some dataEvent.payload) none, 2⟩

def failedCommand : HydrationStep := .gateway ⟨.fail "cmd" "TIMEOUT" false, 2⟩

def later : HydrationMoment := { noon with seconds := 60, wall := 60 }

/-- A lost answer with good data: the candidate stays `PENDING` on the finished command. -/
theorem lost_answer_strands :
    ¬ NoneStranded (exampleHydrator.machine.run (start (some 86400) true)
        (requested ++ [answered, .recoverFromCommandHistory later])) := by
  intro hnone
  have hpending : ((exampleHydrator.machine.run (start (some 86400) true)
      (requested ++ [answered, .recoverFromCommandHistory later])).candidates.get? 1).map
        (fun candidate => (candidate.hydration.statusText, candidate.hydration.commandId)) =
      some ("PENDING", "cmd") := by
    decide +kernel
  have hfinished : ((exampleHydrator.machine.run (start (some 86400) true)
      (requested ++ [answered, .recoverFromCommandHistory later])).gateway.getCommand "cmd").map
        (·.finished) = some true := by
    decide +kernel
  obtain ⟨candidate, hget, heq⟩ := map_eq_some_iff.mp hpending
  simp only [Prod.mk.injEq] at heq
  rcases hnone 1 candidate hget with hempty | hsettled | ⟨-, record, hrecord, hlive⟩
  · rw [heq.1] at hempty
    revert hempty
    decide
  · exact not_settled_of_pending heq.1 hsettled
  · rw [heq.2] at hrecord
    rw [hrecord, map_some, hlive] at hfinished
    cases hfinished

instance (id : Int) (record : CommandRecord) : Decidable (h.Tells id record) :=
  decidable_of_iff
    ((record.finished = true → h.recordFailure record ≠ "") ∧
      h.int ((record.resultPayload.value "candidate_id").or (.int id)) = id)
    ⟨fun htells => ⟨htells.1, htells.2⟩, fun htells => ⟨htells.failure, htells.candidate⟩⟩

theorem recoveryTold_of_all
    (hroom : ((w.gateway.expireOldCommands (some moment.seconds) moment.wall).1.listed
      "tr_request").length ≤ 200) (hall : ∀ entry ∈ w.candidates.entries, entry.2.pending →
      (∀ record ∈ (w.gateway.copies entry.2.hydration.commandId).memory, h.Tells entry.1 record) ∧
      ∀ record ∈ (w.gateway.copies entry.2.hydration.commandId).row, h.Tells entry.1 record) :
    h.RecoveryTold w moment := by
  refine ⟨hroom, ?_⟩
  intro id candidate hget hpending record hhas
  have hentry := hall (id, candidate) (mem_entries_iff.mpr hget) hpending
  rcases hhas with hmemory | hrow
  · exact hentry.1 record hmemory
  · exact hentry.2 record hrow

/-- A lost failure: the next recovery has the candidate wait for its retry. -/
theorem recovery_strands_nobody_lostFailure :
    NoneStranded (exampleHydrator.recoverFromCommandHistory
      (exampleHydrator.machine.run (start (some 86400) true)
        [.save 1 detectedCandidate, .enqueueCandidate 1 "cmd" noon, failedCommand]) later) := by
  refine @recovery_strands_nobody exampleHydrator (some 86400) true
    [.save 1 detectedCandidate, .enqueueCandidate 1 "cmd" noon, failedCommand,
      .recoverFromCommandHistory later] ?_ _ _ _ (prefix_refl _) rfl
  refine ⟨trivial, ?_, ?_, ?_, trivial⟩
  · intro candidate hget
    have hsaved : detectedCandidate = candidate := some.inj hget
    subst hsaved
    intro _
    refine ⟨fun _ => ?_, fun hne => ?_⟩
    · refine ⟨by decide, ?_⟩
      refine ⟨by decide +kernel, ?_⟩
      intro retained hretained
      cases hretained
    · exact absurd (by decide +kernel) hne
  · intro id candidate _ _ hforgets
    exact hforgets
  · refine exampleHydrator.recoveryTold_of_all (by decide +kernel) ?_
    decide +kernel

end CandidateHydrator

end TradingCore.Candidates
