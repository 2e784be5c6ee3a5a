import TradingCore.Candidates.ConditionSteps

/-!
# What is recorded of the conditions of a candidate

The collector and the ingestion service each keep which conditions a candidate is in: the names of
the conditions and the source `condition` here, the source map and the source `condition_search`
there. `Agrees` says that the copies are right after the events of a candidate, and that it is
removed when no condition is left.

A remove of the last condition does not keep them right: nobody takes `condition_search` from the
candidate, and a `READY` or `BLOCKED` one is not removed. And the collector does not look at a code
that is no stock code, which the ingestion service takes in. Between the events, sources of other
types come and go and other services move the candidate to any state but `REMOVED`.
-/

namespace TradingCore.Candidates

open Base List Dict Option Candidates CandidateIngestionService

/-! ## The law -/

/-- What is recorded of a candidate's conditions agrees with those whose last event was an
include. -/
structure Agrees (candidate : Candidate) (included : List String) : Prop where
  names : ∀ name, name ∈ candidate.conditionNames ↔ name ∈ included
  sourceMap : ∀ name, name ∈ activeConditions candidate ↔ name ∈ included
  sources : (∃ source ∈ candidate.sources, source ∈ conditionTypes) ↔ included ≠ []
  removed : (∀ source ∈ candidate.sources, source ∈ conditionTypes) →
    BeforeOrderStage candidate.state → (candidate.state = .removed ↔ included = [])

/-! ## Runs -/

structure DatedClock extends Clock where
  dated : today ≠ ""

/-- What happens to candidates. -/
inductive ConditionInput
  /-- a condition event is persisted -/
  | condition (event : BrokerConditionEvent) (membership : Option ThemeMembership)
      (ticket : Option HydrationTicket) (clock : DatedClock)
  /-- a source of another type includes or withdraws -/
  | otherIncludes (event : CandidateSourceEvent) (other : event.sourceType ∈ otherSourceTypes)
      (clock : Clock)
  | otherWithdraws (event : CandidateSourceEvent) (other : event.sourceType ∈ otherSourceTypes)
      (clock : Clock)
  /-- another service rewrites the state of a candidate and what goes with it -/
  | elsewhere (key : String × String) (state : CandidateState) (stays : state ≠ .removed)
      (fsm : CandidateFsm) (hydration : Option CandidateHydration)

/-- The candidates, with the conditions of each whose last event was an include. -/
structure ConditionBook where
  candidates : CandidateTable := .empty
  included : Dict (String × String) (List String) := .empty

namespace ConditionBook

def includedAt (book : ConditionBook) (key : String × String) : List String :=
  book.included.getD key []

def includedAfter (book : ConditionBook) (event : BrokerConditionEvent) (clock : Clock) :
    Dict (String × String) (List String) :=
  let key := event.candidateKey clock
  let included := book.includedAt key
  book.included.set key <| match event.eventType with
    | .included => appendNew included event.conditionName
    | .removed => included.filter (· ≠ event.conditionName)

/-- What is recorded of a candidate agrees with its conditions; without a candidate there are
none. -/
def AgreesAt : Option Candidate → List String → Prop
  | none, included => included = []
  | some candidate, included => Agrees candidate included

def Agrees (book : ConditionBook) : Prop :=
  ∀ key, AgreesAt (book.candidates.get? key) (book.includedAt key)

/-- A remove of a condition that is included leaves another one, and its code is a stock code. -/
def KeepsOne (book : ConditionBook) : ConditionInput → Prop
  | .condition event _ _ clock =>
      event.eventType = .removed →
        event.conditionName ∈ book.includedAt (event.candidateKey clock.toClock) →
          isValidStockCode event.code = true ∧
            ∃ other ∈ book.includedAt (event.candidateKey clock.toClock),
              other ≠ event.conditionName
  | _ => True

def machine (services : ConditionServices) : Machine ConditionBook ConditionInput Unit where
  step book
    | .condition event membership ticket clock =>
        ({ candidates := services.persistConditionEvent book.candidates event membership ticket
            clock.toClock
           included := book.includedAfter event clock.toClock }, ())
    | .otherIncludes event _ clock =>
        ({ book with candidates := (services.ingestion.ingest book.candidates event clock).1 }, ())
    | .otherWithdraws event _ clock =>
        ({ book with
          candidates := (services.ingestion.removeSource book.candidates event clock).1 }, ())
    | .elsewhere key state _ fsm hydration =>
        match book.candidates.get? key with
        | none => (book, ())
        | some candidate =>
            ({ book with
              candidates := book.candidates.set key { candidate with
                state := state
                metadata := { candidate.metadata with
                  candidateFsm := fsm
                  candidateHydration := hydration } } }, ())

end ConditionBook

/-! ## Candidates that are kept -/

/-- What holds of a candidate whose last include of each condition is recorded, so long as no
condition source is left over. -/
structure Kept (key : String × String) (candidate : Candidate) (included : List String) : Prop where
  stored : (candidate.tradeDate, candidate.code) = key
  nodup : candidate.conditionNames.Nodup
  keyed : KeyedByName candidate.sourceMap
  searched : included ≠ [] → .conditionSearch ∈ candidate.sources
  sourced : ∃ source ∈ candidate.sources, source ≠ .condition
  removed : candidate.state = .removed → included = []

namespace Kept

variable {key : String × String} {candidate after : Candidate} {included : List String}
  {name : String}

theorem agrees_iff (h : Kept key candidate included) :
    Agrees candidate included ↔
      (∀ name, name ∈ candidate.conditionNames ↔ name ∈ included) ∧
        (∀ name, "condition_search:" ++ name ∈ activeKeys candidate.sourceMap ↔ name ∈ included) ∧
        (included = [] → ∀ source ∈ candidate.sources, source ∉ conditionTypes) := by
  have hsearched : included ≠ [] → ∃ source ∈ candidate.sources, source ∈ conditionTypes :=
    fun hne => ⟨.conditionSearch, h.searched hne, by decide⟩
  constructor
  · intro hagrees
    refine ⟨hagrees.names, fun name => ?_, ?_⟩
    · rw [← mem_activeConditions h.keyed]
      exact hagrees.sourceMap name
    · intro hnone source hsource htype
      exact hagrees.sources.mp ⟨source, hsource, htype⟩ hnone
  · rintro ⟨hnames, hactive, hclear⟩
    refine ⟨hnames, fun name => ?_, ⟨?_, hsearched⟩, ?_⟩
    · rw [mem_activeConditions h.keyed]
      exact hactive name
    · rintro ⟨source, hsource, htype⟩ hnone
      exact hclear hnone source hsource htype
    · -- a candidate with nothing but condition sources is in a condition
      intro honly _
      refine ⟨h.removed, fun hnone => ?_⟩
      obtain ⟨source, hsource, -⟩ := h.sourced
      exact absurd (honly source hsource) (hclear hnone source hsource)

theorem afterInclude {found : Option Candidate}
    (hkept : ∀ candidate ∈ found, Kept key candidate included)
    (hagrees : ConditionBook.AgreesAt found included)
    (h : IncludesCondition found after key name) :
    Kept key after (appendNew included name) ∧ Agrees after (appendNew included name) := by
  have hne : appendNew included name ≠ [] := fun hnil =>
    absurd (hnil ▸ mem_appendNew.mpr (Or.inl rfl) : name ∈ ([] : List String)) not_mem_nil
  have hfound : (namesOf found).Nodup ∧ KeyedByName (sourceMapOf found) ∧
      (∀ other, other ∈ namesOf found ↔ other ∈ included) ∧
      ∀ other, "condition_search:" ++ other ∈ activeKeys (sourceMapOf found) ↔
        other ∈ included := by
    cases found with
    | none =>
      rw [show included = [] from hagrees]
      exact ⟨nodup_nil, keyedByName_empty, fun _ => Iff.rfl, fun _ => by
        simp [sourceMapOf, activeKeys, empty]⟩
    | some candidate =>
      have hcandidate := hkept candidate rfl
      obtain ⟨hnames, hactive, -⟩ := hcandidate.agrees_iff.mp hagrees
      exact ⟨hcandidate.nodup, hcandidate.keyed, hnames, hactive⟩
  obtain ⟨hnodup, hkeyed, hnames, hactive⟩ := hfound
  have hafter : Kept key after (appendNew included name) :=
    { stored := h.stored
      nodup := h.nodup hnodup
      keyed := h.keyed hkeyed
      searched := fun _ => h.searched
      sourced := ⟨.conditionSearch, h.searched, by decide⟩
      removed := fun hremoved => absurd hremoved h.stays }
  refine ⟨hafter, hafter.agrees_iff.mpr ⟨fun other => ?_, fun other => ?_, fun hnil => ?_⟩⟩
  · rw [h.names, hnames, mem_appendNew]
  · rw [h.active, append_condition_inj, hactive, mem_appendNew]
  · exact absurd hnil hne

theorem afterRemove {valid : Bool} (h : Kept key candidate included)
    (hagrees : Agrees candidate included)
    (hafter : WithdrawsCondition candidate after valid name)
    (hok : name ∈ included → valid = true ∧ ∃ other ∈ included, other ≠ name) :
    Kept key after (included.filter (· ≠ name)) ∧ Agrees after (included.filter (· ≠ name)) := by
  obtain ⟨hnames, hactive, hclear⟩ := h.agrees_iff.mp hagrees
  have hmem : ∀ other, other ∈ included.filter (· ≠ name) ↔ other ∈ included ∧ other ≠ name := by
    intro other
    rw [mem_filter, decide_eq_true_eq]
  have hactive' : ∀ other, "condition_search:" ++ other ∈ activeKeys after.sourceMap ↔
      other ∈ included.filter (· ≠ name) := by
    intro other
    rw [hafter.active, hactive, hmem, ne_eq, append_condition_inj]
    exact and_comm
  -- a condition that is left is left in the records too
  have hempty : included.filter (· ≠ name) = [] → included = [] := by
    intro hnil
    refine eq_nil_iff_forall_not_mem.mpr fun other hother => ?_
    by_cases heq : other = name
    · obtain ⟨-, rest, hrest, hne⟩ := hok (heq ▸ hother)
      exact absurd (hnil ▸ (hmem rest).mpr ⟨hrest, hne⟩) not_mem_nil
    · exact absurd (hnil ▸ (hmem other).mpr ⟨hother, heq⟩) not_mem_nil
  have hkept : Kept key after (included.filter (· ≠ name)) :=
    { stored := hafter.stored.trans h.stored
      nodup := hafter.nodup
      keyed := hafter.keyed h.keyed
      searched := by
        intro hne
        refine hafter.kept _ (h.searched fun hnil => hne ?_) (by decide)
        rw [hnil]
        rfl
      sourced := by
        obtain ⟨source, hsource, hne⟩ := h.sourced
        exact ⟨source, hafter.kept source hsource hne, hne⟩
      removed := by
        intro hremoved
        rcases hafter.removed hremoved with hbefore | hnone | hnone
        · rw [h.removed hbefore]
          rfl
        · obtain ⟨source, hsource, hne⟩ := h.sourced
          exact absurd (hnone ▸ hafter.kept source hsource hne) not_mem_nil
        · refine eq_nil_iff_forall_not_mem.mpr fun other hother => ?_
          exact absurd (hnone ▸ (hactive' other).mpr hother) not_mem_nil }
  refine ⟨hkept, hkept.agrees_iff.mpr ⟨fun other => ?_, hactive', fun hnil => ?_⟩⟩
  · rw [hafter.names, hnames, hmem]
    refine and_congr_right fun hother => ⟨fun hne heq => ?_, fun hne _ => hne⟩
    exact hne (hok (heq ▸ hother)).1 heq
  · intro source hsource
    exact hclear (hempty hnil) source (hafter.sources source hsource)

theorem of_afterRemove {valid : Bool} (h : Kept key candidate included)
    (hagrees : Agrees candidate included)
    (hafter : WithdrawsCondition candidate after valid name)
    (hright : Agrees after (included.filter (· ≠ name))) (hname : name ∈ included) :
    valid = true ∧ ∃ other ∈ included, other ≠ name := by
  have hmem : ∀ other, other ∈ included.filter (· ≠ name) ↔ other ∈ included ∧ other ≠ name := by
    intro other
    rw [mem_filter, decide_eq_true_eq]
  constructor
  · by_contra hinvalid
    -- without the collector the name stays
    have hstays : name ∈ after.conditionNames :=
      (hafter.names name).mpr ⟨(hagrees.names name).mpr hname, fun hvalid =>
        absurd hvalid hinvalid⟩
    exact ((hmem name).mp ((hright.names name).mp hstays)).2 rfl
  · have hsearch : .conditionSearch ∈ after.sources :=
      hafter.kept _ (h.searched (ne_nil_of_mem hname)) (by decide)
    have hne := hright.sources.mp ⟨_, hsearch, by decide⟩
    obtain ⟨other, hother⟩ := exists_mem_of_ne_nil _ hne
    exact ⟨other, (hmem other).mp hother⟩

end Kept

theorem LeavesConditions.kept {key : String × String} {found : Option Candidate}
    {after : Candidate} {included : List String} (h : LeavesConditions key found after)
    (hkept : ∀ candidate ∈ found, Kept key candidate included)
    (hagrees : ConditionBook.AgreesAt found included) :
    Kept key after included ∧ Agrees after included := by
  have hfound : (namesOf found).Nodup ∧ KeyedByName (sourceMapOf found) ∧
      (included ≠ [] → .conditionSearch ∈ sourcesOf found) ∧
      (∀ name, name ∈ namesOf found ↔ name ∈ included) ∧
      (∀ name, "condition_search:" ++ name ∈ activeKeys (sourceMapOf found) ↔ name ∈ included) ∧
      (included = [] → ∀ source ∈ sourcesOf found, source ∉ conditionTypes) ∧
      ((∃ before ∈ found, before.state = .removed) → included = []) := by
    cases found with
    | none =>
      rw [show included = [] from hagrees]
      exact ⟨nodup_nil, keyedByName_empty, fun hne => absurd rfl hne, fun _ => Iff.rfl,
        fun _ => by simp [sourceMapOf, activeKeys, empty],
        fun _ source hsource => absurd hsource not_mem_nil, fun _ => rfl⟩
    | some candidate =>
      have hcandidate := hkept candidate rfl
      obtain ⟨hnames, hactive, hclear⟩ := hcandidate.agrees_iff.mp hagrees
      refine ⟨hcandidate.nodup, hcandidate.keyed, hcandidate.searched, hnames, hactive, hclear, ?_⟩
      rintro ⟨before, hbefore, hremoved⟩
      obtain rfl := some.inj hbefore
      exact hcandidate.removed hremoved
  obtain ⟨hnodup, hkeyed, hsearched, hnames, hactive, hclear, hremoved⟩ := hfound
  have hactive' : ∀ name, "condition_search:" ++ name ∈ activeKeys after.sourceMap ↔
      name ∈ included := fun name => (h.active name).trans (hactive name)
  have hafter : Kept key after included :=
    { stored := h.stored
      nodup := h.names ▸ hnodup
      keyed := h.keyed hkeyed
      searched := fun hne => (h.sources _ (by decide)).mpr (hsearched hne)
      sourced := h.sourced
      removed := by
        intro hstate
        rcases h.removed hstate with hbefore | hnone
        · exact hremoved hbefore
        · refine eq_nil_iff_forall_not_mem.mpr fun name hname => ?_
          exact absurd (hnone ▸ (hactive' name).mpr hname) not_mem_nil }
  refine ⟨hafter, hafter.agrees_iff.mpr ⟨fun name => ?_, hactive', ?_⟩⟩
  · rw [h.names]
    exact hnames name
  · intro hnil source hsource hcondition
    exact hclear hnil source ((h.sources source hcondition).mp hsource) hcondition

/-! ## The run -/

namespace ConditionBook

variable {services : ConditionServices} {book after : ConditionBook} {key : String × String}

def WellKept (book : ConditionBook) : Prop :=
  ∀ key, ∀ candidate ∈ book.candidates.get? key, Kept key candidate (book.includedAt key)

variable (key) in
theorem changed_at (hkept : book.WellKept) (hagrees : book.Agrees)
    (hothers : ∀ other, other ≠ key →
      after.candidates.get? other = book.candidates.get? other ∧
        after.includedAt other = book.includedAt other)
    (hself : ∀ candidate ∈ after.candidates.get? key, Kept key candidate (after.includedAt key))
    (hright : AgreesAt (after.candidates.get? key) (after.includedAt key)) :
    after.WellKept ∧ after.Agrees := by
  constructor
  · intro other candidate hcandidate
    by_cases heq : other = key
    · subst heq
      exact hself candidate hcandidate
    · obtain ⟨hget, hincluded⟩ := hothers other heq
      rw [hget] at hcandidate
      rw [hincluded]
      exact hkept other candidate hcandidate
  · intro other
    by_cases heq : other = key
    · subst heq
      exact hright
    · obtain ⟨hget, hincluded⟩ := hothers other heq
      rw [hget, hincluded]
      exact hagrees other

theorem includedAt_includedAfter (book : ConditionBook) (candidates : CandidateTable)
    (event : BrokerConditionEvent) (clock : Clock) (other : String × String) :
    ({ candidates := candidates, included := book.includedAfter event clock } :
      ConditionBook).includedAt other =
        if other = event.candidateKey clock then
          match event.eventType with
          | .included => appendNew (book.includedAt other) event.conditionName
          | .removed => (book.includedAt other).filter (· ≠ event.conditionName)
        else book.includedAt other := by
  unfold includedAt includedAfter Dict.getD
  dsimp only
  rw [get?_set]
  split
  · rename_i heq
    subst heq
    rfl
  · rfl

theorem tableAfter_kept {service : CandidateIngestionService} {clock : Clock} {move : SourceMove}
    (hkept : book.WellKept) (hagrees : book.Agrees)
    (hincludes : ∀ event, move = .includes event → event.sourceType ∈ otherSourceTypes)
    (hwithdraws : ∀ event, move = .withdraws event → event.sourceType ∈ otherSourceTypes) :
    ({ book with candidates := service.tableAfter book.candidates clock move } :
        ConditionBook).WellKept ∧
      ({ book with candidates := service.tableAfter book.candidates clock move } :
        ConditionBook).Agrees := by
  cases move with
  | ignored => exact ⟨hkept, hagrees⟩
  | includes event =>
    have hstored : ∀ candidate ∈ book.candidates.get? event.candidateKey,
        (candidate.tradeDate, candidate.code) = event.candidateKey :=
      fun candidate hcandidate => (hkept _ candidate hcandidate).stored
    have hleaves := leavesConditions_included service clock (hincludes event rfl) hstored
    obtain ⟨hself, hright⟩ := hleaves.kept (hkept _) (hagrees _)
    refine changed_at event.candidateKey hkept hagrees ?_ ?_ ?_
    · intro other hne
      exact ⟨(get?_save hleaves.stored other).trans (if_neg hne), rfl⟩
    · intro candidate hcandidate
      obtain rfl := some.inj
        (((get?_save hleaves.stored event.candidateKey).trans (if_pos rfl)).symm.trans hcandidate)
      exact hself
    · show AgreesAt ((book.candidates.save _).get? event.candidateKey) _
      rw [get?_save hleaves.stored, if_pos rfl]
      exact hright
  | withdraws event =>
    unfold tableAfter
    dsimp only
    cases hget : book.candidates.get? event.candidateKey with
    | none => exact ⟨hkept, hagrees⟩
    | some candidate =>
      have hcandidate := hkept _ candidate hget
      have hleaves := leavesConditions_removed service clock
        (hwithdraws event rfl) hcandidate.stored hcandidate.sourced
      obtain ⟨hself, hright⟩ := hleaves.kept (hget ▸ hkept _) (hget ▸ hagrees _)
      refine changed_at event.candidateKey hkept hagrees ?_ ?_ ?_
      · intro other hne
        exact ⟨(get?_save hleaves.stored other).trans (if_neg hne), rfl⟩
      · intro found hfound
        obtain rfl := some.inj
          (((get?_save hleaves.stored event.candidateKey).trans (if_pos rfl)).symm.trans hfound)
        exact hself
      · show AgreesAt ((book.candidates.save _).get? event.candidateKey) _
        rw [get?_save hleaves.stored, if_pos rfl]
        exact hright

variable {event : BrokerConditionEvent} {membership : Option ThemeMembership}
  {ticket : Option HydrationTicket}

theorem included_kept {clock : DatedClock} (hkept : book.WellKept) (hagrees : book.Agrees)
    (hincluded : event.eventType = .included) :
    ((machine services).next book (.condition event membership ticket clock)).WellKept ∧
      ((machine services).next book (.condition event membership ticket clock)).Agrees := by
  have hstored : ∀ candidate ∈ book.candidates.get? (event.candidateKey clock.toClock),
      (candidate.tradeDate, candidate.code) = event.candidateKey clock.toClock :=
    fun candidate hcandidate => (hkept _ candidate hcandidate).stored
  have htable := persist_included services membership clock.dated hincluded hstored ticket
  have hincludedAt := includedAt_includedAfter book
    (services.persistConditionEvent book.candidates event membership ticket clock.toClock) event
    clock.toClock
  obtain ⟨hself, hright⟩ := Kept.afterInclude (hkept (event.candidateKey clock.toClock))
    (hagrees _) (includesCondition_afterInclude services membership clock.dated _ hstored ticket)
  have hnew := hincludedAt (event.candidateKey clock.toClock)
  rw [if_pos rfl, hincluded] at hnew
  refine changed_at (event.candidateKey clock.toClock) hkept hagrees ?_ ?_ ?_
  · intro other hne
    exact ⟨(htable other).trans (if_neg hne), (hincludedAt other).trans (if_neg hne)⟩
  · intro candidate hcandidate
    obtain rfl := some.inj (((htable _).trans (if_pos rfl)).symm.trans hcandidate)
    exact hnew ▸ hself
  · show AgreesAt ((services.persistConditionEvent _ _ _ _ _).get? _) _
    rw [htable, if_pos rfl]
    exact hnew ▸ hright

/-- A remove keeps the records right exactly if a condition that it removes is not the last one,
and its code is looked at by the collector. -/
theorem removed_kept {clock : DatedClock} (hkept : book.WellKept) (hagrees : book.Agrees)
    (hremoved : event.eventType = .removed) :
    (book.KeepsOne (.condition event membership ticket clock) →
        ((machine services).next book (.condition event membership ticket clock)).WellKept ∧
          ((machine services).next book (.condition event membership ticket clock)).Agrees) ∧
      (((machine services).next book (.condition event membership ticket clock)).Agrees →
        book.KeepsOne (.condition event membership ticket clock)) := by
  have hstored : ∀ candidate ∈ book.candidates.get? (event.candidateKey clock.toClock),
      (candidate.tradeDate, candidate.code) = event.candidateKey clock.toClock :=
    fun candidate hcandidate => (hkept _ candidate hcandidate).stored
  have htable := persist_removed services membership clock.dated hremoved hstored ticket
  have hincludedAt := includedAt_includedAfter book
    (services.persistConditionEvent book.candidates event membership ticket clock.toClock) event
    clock.toClock
  have hnew := hincludedAt (event.candidateKey clock.toClock)
  simp only [if_true, hremoved] at hnew
  have hself := htable (event.candidateKey clock.toClock)
  rw [if_pos rfl] at hself
  have hbefore := hagrees (event.candidateKey clock.toClock)
  cases hget : book.candidates.get? (event.candidateKey clock.toClock) with
  | none =>
    rw [hget] at hself hbefore
    have hnone : book.includedAt (event.candidateKey clock.toClock) = [] := hbefore
    constructor
    · intro _
      refine changed_at (event.candidateKey clock.toClock) hkept hagrees ?_ ?_ ?_
      · intro other hne
        exact ⟨(htable other).trans (if_neg hne), (hincludedAt other).trans (if_neg hne)⟩
      · intro candidate hcandidate
        exact absurd (hself.symm.trans hcandidate) (by simp)
      · show AgreesAt ((services.persistConditionEvent _ _ _ _ _).get? _) _
        rw [hself]
        exact hnew.trans (by rw [hnone]; rfl)
    · intro _ _ hmem
      rw [hnone] at hmem
      exact absurd hmem not_mem_nil
  | some candidate =>
    rw [hget] at hself hbefore
    have hcandidate := hkept _ candidate hget
    have hafter := withdrawsCondition_afterRemove services event membership clock.dated
      hcandidate.nodup
    constructor
    · intro hkeeps
      obtain ⟨hkept', hright⟩ := hcandidate.afterRemove hbefore hafter (hkeeps hremoved)
      rw [← hnew] at hkept' hright
      refine changed_at (event.candidateKey clock.toClock) hkept hagrees ?_ ?_ ?_
      · intro other hne
        exact ⟨(htable other).trans (if_neg hne), (hincludedAt other).trans (if_neg hne)⟩
      · intro found hfound
        obtain rfl := some.inj (hself.symm.trans hfound)
        exact hkept'
      · show AgreesAt ((services.persistConditionEvent _ _ _ _ _).get? _) _
        rw [hself]
        exact hright
    · intro hright _ hmem
      have hnext := hright (event.candidateKey clock.toClock)
      rw [show ((machine services).next book (.condition event membership ticket
        clock)).candidates.get? (event.candidateKey clock.toClock) = _ from hself,
        show ((machine services).next book (.condition event membership ticket
          clock)).includedAt (event.candidateKey clock.toClock) = _ from hnew] at hnext
      exact hcandidate.of_afterRemove hbefore hafter hnext hmem

theorem elsewhere_kept {state : CandidateState} (stays : state ≠ .removed) {fsm : CandidateFsm}
    {hydration : Option CandidateHydration} (hkept : book.WellKept) (hagrees : book.Agrees) :
    ((machine services).next book (.elsewhere key state stays fsm hydration)).WellKept ∧
      ((machine services).next book (.elsewhere key state stays fsm hydration)).Agrees := by
  unfold Machine.next machine
  dsimp only
  cases hget : book.candidates.get? key with
  | none => exact ⟨hkept, hagrees⟩
  | some candidate =>
    have hcandidate := hkept _ candidate hget
    have hleaves : LeavesConditions key (some candidate) { candidate with
        state := state
        metadata := { candidate.metadata with
          candidateFsm := fsm
          candidateHydration := hydration } } :=
      ⟨hcandidate.stored, rfl, fun _ _ => Iff.rfl, hcandidate.sourced, id, fun _ => Iff.rfl,
        fun hremoved => absurd hremoved stays⟩
    obtain ⟨hself, hright⟩ := hleaves.kept (hget ▸ hkept _) (hget ▸ hagrees _)
    refine changed_at key hkept hagrees ?_ ?_ ?_
    · intro other hne
      exact ⟨(get?_set ..).trans (if_neg hne), rfl⟩
    · intro found hfound
      obtain rfl := some.inj ((get?_set_self ..).symm.trans hfound)
      exact hself
    · show AgreesAt ((book.candidates.set key _).get? key) _
      rw [get?_set_self]
      exact hright

variable (services) in
theorem next_spec (hkept : book.WellKept) (hagrees : book.Agrees) (input : ConditionInput) :
    (book.KeepsOne input → ((machine services).next book input).WellKept ∧
        ((machine services).next book input).Agrees) ∧
      (((machine services).next book input).Agrees → book.KeepsOne input) := by
  cases input with
  | condition event membership ticket clock =>
    cases htype : event.eventType with
    | included =>
      refine ⟨fun _ => included_kept hkept hagrees htype, fun _ hremoved => ?_⟩
      rw [htype] at hremoved
      cases hremoved
    | removed => exact removed_kept hkept hagrees htype
  | otherIncludes event other clock =>
    refine ⟨fun _ => ?_, fun _ => trivial⟩
    -- the call comes to an include, or to a withdrawal that its payload asks for
    show ConditionBook.WellKept { book with
      candidates := (services.ingestion.ingest book.candidates event clock).1 } ∧
        ConditionBook.Agrees { book with
          candidates := (services.ingestion.ingest book.candidates event clock).1 }
    rw [ingest_table]
    refine tableAfter_kept hkept hagrees ?_ ?_
    · intro found hfound
      unfold SourceCall.move at hfound
      dsimp only at hfound
      split at hfound
      · cases hfound
      · split at hfound
        · cases hfound
        · cases hfound
          exact sourceType_normalized other
    · intro found hfound
      unfold SourceCall.move at hfound
      dsimp only at hfound
      split at hfound
      · cases hfound
      · split at hfound
        · cases hfound
          exact sourceType_normalized (sourceType_normalized other)
        · cases hfound
  | otherWithdraws event other clock =>
    refine ⟨fun _ => ?_, fun _ => trivial⟩
    show ConditionBook.WellKept { book with
      candidates := (services.ingestion.removeSource book.candidates event clock).1 } ∧
        ConditionBook.Agrees { book with
          candidates := (services.ingestion.removeSource book.candidates event clock).1 }
    rw [removeSource_table]
    refine tableAfter_kept hkept hagrees ?_ ?_
    · intro found hfound
      cases hfound
    · intro found hfound
      cases hfound
      exact sourceType_normalized other
  | elsewhere key state stays fsm hydration =>
    exact ⟨fun _ => elsewhere_kept stays hkept hagrees, fun _ => trivial⟩

/-- From no candidates, both writers record the conditions of every candidate alike, and remove a
candidate that is in none, exactly so long as every remove of an included condition leaves another
one and names a stock code. -/
theorem two_writers_agree_iff (services : ConditionServices) (inputs : List ConditionInput) :
    (machine services).Always Agrees {} inputs ↔ (machine services).Guarded KeepsOne {} inputs := by
  have hkept : WellKept {} := fun _ _ hcandidate => by simp at hcandidate
  have hagrees : Agrees {} := fun _ => rfl
  refine Machine.always_iff_guarded (I := WellKept) ?_ ?_ hkept hagrees
  · intro book input hbook hright hkeeps
    exact ((next_spec services hbook hright input).1 hkeeps).1
  · intro book input hbook hright
    obtain ⟨hforward, hback⟩ := next_spec services hbook hright input
    exact ⟨hback, fun hkeeps => (hforward hkeeps).2⟩

/-! ## Fixed runs -/

theorem AgreesAt.included_ne_nil {found : Option Candidate} {included : List String}
    (h : AgreesAt found included) :
    ∀ candidate ∈ found, (∃ source ∈ candidate.sources, source ∈ conditionTypes) →
      included ≠ [] := by
  rintro candidate hcandidate hsource
  obtain rfl := mem_def.mp hcandidate
  exact (Agrees.sources h).mp hsource

/-- A condition includes a stock and removes it: the candidate keeps the source
`condition_search`. -/
theorem last_condition_stays_a_source :
    ¬ (machine ⟨⟨{ enabled := true, readFloat := fun _ => none }⟩,
        { contract := { enabled := true, readFloat := fun _ => none }
          readers := ⟨fun _ => none, fun _ => [], fun _ _ => .empty⟩
          digest := fun _ => "" }⟩).Always Agrees {}
      [.condition { conditionName := "theme_alive", code := "005930", named := by decide,
                    coded := by decide } none none
        ⟨⟨"2026-06-17T09:01:00", "2026-06-17", "2026-06-17T09:31:00"⟩, by decide⟩,
       .condition { conditionName := "theme_alive", code := "005930", eventType := .removed,
                    named := by decide, coded := by decide } none none
        ⟨⟨"2026-06-17T09:02:00", "2026-06-17", "2026-06-17T09:32:00"⟩, by decide⟩] := by
  intro h
  have hagrees := h.2.2 ("2026-06-17", "005930")
  exact absurd hagrees.included_ne_nil (by decide +kernel)

end ConditionBook

end TradingCore.Candidates
