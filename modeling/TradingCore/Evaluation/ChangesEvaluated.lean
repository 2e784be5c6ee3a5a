import TradingCore.Evaluation.DirtyStrategyEvaluator

/-!
# Marked changes are evaluated

Once the queue is empty, every mark that the queue took, or that an entry still covered, has been
evaluated by the call that took the entry out, for every candidate that it concerns and that no
filter passed over. What the debounce of the queue refuses while no entry is left is evaluated by
no later call.
-/

namespace TradingCore.Evaluation

open Base DirtyCodeQueue List Dict Text DirtyStrategyEvaluator

/-! ## The text of a code -/

theorem dropMarket_suffix (text : String) : (dropMarket text).toList <:+ text.toList := by
  unfold dropMarket
  split
  · rw [String.toList_ofList]
    exact drop_suffix 1 _
  · exact suffix_refl _

theorem dropMarket_ne_empty {text : String} (h : text ≠ "") : dropMarket text ≠ "" := by
  unfold dropMarket
  split
  · next hmarket =>
      intro hempty
      have hdrop : text.toList.drop 1 = [] := by simpa using congrArg String.toList hempty
      have hlength : text.toList.length = 7 := hmarket.2
      rw [drop_eq_nil_iff] at hdrop
      omega
  · exact h

variable {code : String}

theorem exists_of_cleanCode (h : cleanCode code ≠ "") :
    ∃ c ∈ (cleanCode code).toList, isSpace c = false := by
  have htrimmed := trimmed_upper (trimmed_strip code)
  unfold cleanCode at h ⊢
  dsimp only at h ⊢
  generalize upper (strip code) = text at h htrimmed ⊢
  split
  · next hdigits =>
      obtain ⟨digit, hdigit⟩ := exists_mem_of_ne_nil _ hdigits
      refine ⟨digit, ?_, isSpace_of_isDigit (mem_filter.mp hdigit).2⟩
      rw [zfill, String.toList_ofList, String.toList_ofList, leftpad]
      exact mem_append_right _ hdigit
  · next hdigits =>
      rw [if_neg hdigits] at h
      obtain ⟨before, hbefore⟩ := dropMarket_suffix text
      generalize dropMarket text = marketless at h hbefore ⊢
      have hne : marketless.toList ≠ [] := by simpa using h
      -- the last character of a trimmed text
      refine ⟨marketless.toList.getLast hne, getLast_mem hne, htrimmed.2 _ ?_⟩
      rw [← hbefore, getLast?_append_of_ne_nil _ hne]
      exact getLast?_eq_some_getLast hne

theorem strip_of_cleanCode (h : cleanCode code = "") : strip code = "" := by
  by_contra hne
  have hkept : dropMarket (upper (strip code)) ≠ "" :=
    dropMarket_ne_empty (by simpa [upper] using hne)
  unfold cleanCode at h
  dsimp only at h
  split at h
  · next hdigits =>
      have hlist := congrArg String.toList h
      rw [zfill, String.toList_ofList, String.toList_ofList, leftpad,
        String.toList_empty, append_eq_nil_iff] at hlist
      exact hdigits hlist.2
  · exact hkept h

theorem cleanCode_ne_empty (h : cleanCode code ≠ "") : cleanCode (cleanCode code) ≠ "" := by
  obtain ⟨c, hc, hspace⟩ := exists_of_cleanCode h
  intro hempty
  rw [isSpace_of_strip (strip_of_cleanCode hempty) c hc] at hspace
  cases hspace

/-! ## The selection -/

namespace DirtyStrategyEvaluator

def SameAt (evaluator other : DirtyStrategyEvaluator) (key : Nat) : Prop :=
  evaluator.lastEvaluatedAt.get? key = other.lastEvaluatedAt.get? key ∧
    evaluator.lastContextId.get? key = other.lastContextId.get? key

theorem remember_sameAt (evaluator : DirtyStrategyEvaluator) {row : CandidateRow} (now : Int)
    {key : Nat} (h : key ≠ row.id) : (evaluator.remember row now).SameAt evaluator key := by
  refine ⟨get?_set_ne _ _ h, ?_⟩
  unfold remember
  dsimp only
  split
  · rfl
  · exact get?_set_ne _ _ h

end DirtyStrategyEvaluator

section Selection

variable {setup : EvaluationSetup} {call : EvaluationCall}
  {reasons : Dict String (List DirtyReason)} {row : CandidateRow} {selection : Selection}

theorem consider_cases (setup : EvaluationSetup) (call : EvaluationCall)
    (reasons : Dict String (List DirtyReason)) (selection : Selection) (row : CandidateRow) :
    (selection.consider setup call reasons row).candidates = selection.candidates ∧
        (selection.consider setup call reasons row).evaluator = selection.evaluator ∧
        ((evaluationEligible setup.stateContract row.candidate call.clock).2 = false ∨
          row.id ∈ selection.candidates.map (·.id) ∨
          selection.evaluator.debounced setup row.id call.current = true ∨
          selection.evaluator.contextEvaluated reasons row = true) ∨
      (∃ taken : CandidateRow, taken.id = row.id ∧
        (selection.consider setup call reasons row).candidates = selection.candidates ++ [taken]) ∧
        (selection.consider setup call reasons row).evaluator =
          selection.evaluator.remember row call.current := by
  unfold Selection.consider
  dsimp only
  split
  · next hineligible => exact .inl ⟨rfl, rfl, .inl hineligible⟩
  · split
    · next hseen => exact .inl ⟨rfl, rfl, .inr (.inl hseen)⟩
    · split
      · next hpassed => exact .inl ⟨rfl, rfl, .inr (.inr hpassed)⟩
      · refine .inr ⟨⟨{ row with candidate := (evaluationEligible setup.stateContract
          row.candidate call.clock).1 }, rfl, rfl⟩, rfl⟩

theorem consider_prefix (setup : EvaluationSetup) (call : EvaluationCall)
    (reasons : Dict String (List DirtyReason)) (selection : Selection) (row : CandidateRow) :
    selection.candidates <+: (selection.consider setup call reasons row).candidates := by
  rcases consider_cases setup call reasons selection row with ⟨h, -⟩ | ⟨⟨taken, -, h⟩, -⟩
  · rw [h]
  · rw [h]
    exact prefix_append _ _

theorem selectCandidates_extends (setup : EvaluationSetup) (call : EvaluationCall)
    (reasons : Dict String (List DirtyReason)) (selection : Selection)
    (pool : List CandidateRow) :
    selection.candidates <+: (selectCandidates setup call reasons selection pool).candidates := by
  induction pool generalizing selection with
  | nil => exact prefix_refl _
  | cons row rest ih =>
    have hfirst := consider_prefix setup call reasons selection row
    unfold selectCandidates
    dsimp only
    split
    · exact hfirst
    · exact hfirst.trans (ih _)

/-- The memory of a candidate that is not selected is the one before the call. -/
def Unchanged (original : DirtyStrategyEvaluator) (selection : Selection) : Prop :=
  ∀ key, key ∉ selection.candidates.map (·.id) → selection.evaluator.SameAt original key

variable {original : DirtyStrategyEvaluator}

section

variable (h : Unchanged original selection)
include h

theorem consider_unchanged : Unchanged original (selection.consider setup call reasons row) := by
  intro key hkey
  rcases consider_cases setup call reasons selection row with
    ⟨hcandidates, hevaluator, -⟩ | ⟨⟨taken, hid, hcandidates⟩, hevaluator⟩
  · rw [hcandidates] at hkey
    rw [hevaluator]
    exact h key hkey
  · rw [hcandidates, map_append, mem_append, not_or] at hkey
    have hne : key ≠ row.id := by simpa [hid] using hkey.2
    have hremember := selection.evaluator.remember_sameAt call.current hne
    have hbefore := h key hkey.1
    rw [hevaluator]
    exact ⟨hremember.1.trans hbefore.1, hremember.2.trans hbefore.2⟩

theorem consider_covers
    (heligible : (evaluationEligible setup.stateContract row.candidate call.clock).2 = true) :
    row.id ∈ (selection.consider setup call reasons row).candidates.map (·.id) ∨
      original.debounced setup row.id call.current = true ∨
      original.contextEvaluated reasons row = true := by
  rcases consider_cases setup call reasons selection row with
    ⟨hcandidates, -, hleft⟩ | ⟨⟨taken, hid, hcandidates⟩, -⟩
  · rw [hcandidates]
    by_cases hseen : row.id ∈ selection.candidates.map (·.id)
    · exact .inl hseen
    · right
      obtain ⟨htime, hcontext⟩ := h row.id hseen
      rcases hleft with hineligible | hseen' | hdebounced | hcontext'
      · rw [heligible] at hineligible
        cases hineligible
      · exact absurd hseen' hseen
      · left
        unfold DirtyStrategyEvaluator.debounced at hdebounced ⊢
        rw [← htime]
        exact hdebounced
      · right
        unfold contextEvaluated at hcontext' ⊢
        rw [← hcontext]
        exact hcontext'
  · left
    rw [hcandidates, map_append, ← hid]
    exact mem_append_right _ mem_cons_self

theorem selectCandidates_covers {pool : List CandidateRow} (hrow : row ∈ pool)
    (heligible : (evaluationEligible setup.stateContract row.candidate call.clock).2 = true) :
    row.id ∈ (selectCandidates setup call reasons selection pool).candidates.map (·.id) ∨
      original.debounced setup row.id call.current = true ∨
      original.contextEvaluated reasons row = true ∨
      setup.maxCandidatesPerCycle ≤
        (selectCandidates setup call reasons selection pool).candidates.length := by
  induction pool generalizing selection with
  | nil => cases hrow
  | cons first rest ih =>
    unfold selectCandidates
    dsimp only
    split
    · next hlimit => exact .inr (.inr (.inr hlimit.2))
    · rcases mem_cons.mp hrow with rfl | hrest
      · rcases consider_covers h heligible with hselected | hpassed | hpassed
        · left
          exact ((selectCandidates_extends _ _ _ _ _).map _).subset hselected
        · exact .inr (.inl hpassed)
        · exact .inr (.inr (.inl hpassed))
      · exact ih (consider_unchanged h) hrest

end

theorem consider_times {key : Nat} {time : Int}
    (h : (selection.consider setup call reasons row).evaluator.lastEvaluatedAt.get? key =
      some time) :
    time = call.current ∨ selection.evaluator.lastEvaluatedAt.get? key = some time := by
  rcases consider_cases setup call reasons selection row with ⟨-, hevaluator, -⟩ | ⟨-, hevaluator⟩
  · rw [hevaluator] at h
    exact .inr h
  · have hset : (selection.evaluator.remember row call.current).lastEvaluatedAt.get? key =
        if key = row.id then some call.current
        else selection.evaluator.lastEvaluatedAt.get? key := get?_set _ _ _ _
    rw [hevaluator, hset] at h
    split at h
    · exact .inl (Option.some.inj h).symm
    · exact .inr h

theorem selectCandidates_times {key : Nat} {time : Int} {pool : List CandidateRow}
    (h : (selectCandidates setup call reasons selection pool).evaluator.lastEvaluatedAt.get? key =
      some time) :
    time = call.current ∨ selection.evaluator.lastEvaluatedAt.get? key = some time := by
  induction pool generalizing selection with
  | nil => exact .inr h
  | cons row rest ih =>
    unfold selectCandidates at h
    dsimp only at h
    split at h
    · exact consider_times h
    · rcases ih h with hnow | hconsidered
      · exact .inl hnow
      · exact consider_times hconsidered

end Selection

/-! ## The pool -/

section Pool

variable {events : List DirtyCodeEvent} {event : DirtyCodeEvent}

variable {code : String}

theorem addReasons_keeps {result : Dict String (List DirtyReason)} {known : List DirtyReason}
    (h : result.get? code = some known) :
    ∃ now, (addReasons result event).get? code = some now ∧ known ⊆ now := by
  unfold addReasons
  generalize cleanCode event.code = marked
  dsimp only
  split
  · exact ⟨known, h, Subset.refl known⟩
  · by_cases hcode : code = marked
    · subst hcode
      rw [Dict.getD, h, Option.getD_some]
      cases known with
      | nil => exact ⟨event.reasons, get?_set_self _ _ _, nil_subset _⟩
      | cons reason more =>
        refine ⟨_, get?_set_self _ _ _, ?_⟩
        intro other hother
        exact mem_eraseDups.mpr (mem_append_left _ hother)
    · refine ⟨known, ?_, Subset.refl known⟩
      split <;> rw [get?_set_ne _ _ hcode, h]

theorem addReasons_adds (result : Dict String (List DirtyReason))
    (hcode : cleanCode event.code = code) (h : code ≠ "") :
    ∃ now, (addReasons result event).get? code = some now ∧ event.reasons ⊆ now := by
  unfold addReasons
  rw [hcode]
  dsimp only
  rw [if_neg h]
  split
  · exact ⟨_, get?_set_self _ _ _, Subset.refl _⟩
  · refine ⟨_, get?_set_self _ _ _, ?_⟩
    intro reason hreason
    exact mem_eraseDups.mpr (mem_append_right _ hreason)

theorem reasonByCode_covers (hevent : event ∈ events) (hcode : cleanCode event.code = code)
    (h : code ≠ "") :
    ∃ reasons, (reasonByCode events).get? code = some reasons ∧ event.reasons ⊆ reasons := by
  unfold reasonByCode
  induction events using reverseRecOn with
  | nil => cases hevent
  | append_singleton earlier last ih =>
    rw [foldl_append, foldl_cons, foldl_nil]
    rcases mem_append.mp hevent with hearlier | hlast
    · obtain ⟨known, hknown, hsubset⟩ := ih hearlier
      obtain ⟨now, hnow, hkeeps⟩ := @addReasons_keeps last _ _ _ hknown
      exact ⟨now, hnow, Subset.trans hsubset hkeeps⟩
    · obtain rfl := mem_singleton.mp hlast
      exact addReasons_adds _ hcode h

theorem loadCandidate_of_mem {table : CandidateTable} {row : CandidateRow}
    (hrow : row ∈ table.rows) :
    table.loadCandidate row.candidate.tradeDate row.candidate.code = some row := by
  unfold CandidateTable.loadCandidate
  cases hfind : table.rows.find? fun other => other.candidate.tradeDate = row.candidate.tradeDate ∧
      other.candidate.code = row.candidate.code with
  | none =>
    have hnone := find?_eq_none.mp hfind row hrow
    simp at hnone
  | some found =>
    have hsame := find?_some hfind
    simp only [decide_eq_true_eq] at hsame
    have hinjective := inj_on_of_nodup_map table.unique
    rw [hinjective (mem_of_find?_eq_some hfind) hrow (Prod.ext hsame.1 hsame.2)]

theorem mem_poolOf {call : EvaluationCall} {row : CandidateRow} (hevent : event ∈ events)
    (hcode : cleanCode event.code = code) (hne : code ≠ "") (hrow : row ∈ call.database.rows)
    (hdate : row.candidate.tradeDate = call.tradeDate)
    (hconcerns : row.candidate.code = code ∨ ∃ reason ∈ event.reasons, reason ∈ broadReasons) :
    row ∈ poolOf call (reasonByCode events) := by
  obtain ⟨reasons, hreasons, hsubset⟩ := reasonByCode_covers hevent hcode hne
  generalize reasonByCode events = known at hreasons ⊢
  unfold poolOf
  split
  · exact mem_filter.mpr ⟨hrow, by simpa using hdate⟩
  · next hnarrow =>
      rcases hconcerns with hsame | ⟨reason, hreason, hbroad⟩
      · refine mem_filterMap.mpr ⟨code, mem_keys_iff.mpr ⟨reasons, hreasons⟩, ?_⟩
        rw [← hsame, ← hdate]
        exact loadCandidate_of_mem hrow
      · refine absurd ?_ hnarrow
        rw [any_eq_true]
        refine ⟨reasons, mem_values_iff.mpr ⟨_, hreasons⟩, ?_⟩
        rw [any_eq_true]
        exact ⟨reason, hsubset hreason, by simpa using hbroad⟩

end Pool

/-! ## Marks and calls -/

namespace DirtyEvaluation

/-- An entry of the queue covers a mark: it is of its code, and has a broad reason if the mark
has one. -/
def Covered (code : String) (reason : DirtyReason) (state : DirtyEvaluation) : Prop :=
  ∃ event, state.queue.items.get? (cleanCode code) = some event ∧ event.code = cleanCode code ∧
    (reason ∈ broadReasons → ∃ known ∈ event.reasons, known ∈ broadReasons)

/-- The debounce of the queue refuses a mark that no entry covers. -/
def Refused (setup : EvaluationSetup) (state : DirtyEvaluation) (code : String)
    (reason : DirtyReason) (markedAt : Int) : Prop :=
  state.queue.debounced setup.dirtyDebounceMs (cleanCode code) reason (cleanTime markedAt) = true ∧
    ¬ Covered code reason state

/-- A call does not evaluate a candidate: it finds it not eligible, or its context evaluated
before, or it reaches its limit. -/
def PassesOver (setup : EvaluationSetup) (state : DirtyEvaluation) (call : EvaluationCall)
    (row : CandidateRow) : Prop :=
  (evaluationEligible setup.stateContract row.candidate call.clock).2 = false ∨
    state.evaluator.contextEvaluated
      (reasonByCode (state.queue.popDirty setup.maxCodesPerCycle).2) row = true ∨
    setup.maxCandidatesPerCycle ≤ (state.evaluateDirty setup call).2.evaluated.length

/-- A call evaluates the candidates of its trade date that a mark concerns, but for those that it
passes over. -/
def Evaluates (setup : EvaluationSetup) (state : DirtyEvaluation) (call : EvaluationCall)
    (code : String) (reason : DirtyReason) : Prop :=
  ∀ row ∈ call.database.rows, row.candidate.tradeDate = call.tradeDate →
    (row.candidate.code = cleanCode (cleanCode code) ∨ reason ∈ broadReasons) →
    row.id ∈ (state.evaluateDirty setup call).2.evaluated.map (·.id) ∨
      PassesOver setup state call row

/-- Every mark of a run was refused, or a later call evaluates what it concerns. -/
def MarksEvaluated (setup : EvaluationSetup) (steps : List EvaluationStep) : Prop :=
  ∀ past code reason sourceEventId markedAt,
    past ++ [.markDirty code reason sourceEventId markedAt] <+: steps → cleanCode code ≠ "" →
    Refused setup ((machine setup).run {} past) code reason markedAt ∨
      ∃ before call, before ++ [.evaluateDirty call] <+: steps ∧
        past ++ [.markDirty code reason sourceEventId markedAt] <+: before ∧
        Evaluates setup ((machine setup).run {} before) call code reason

/-- A call comes less than the debounce after another one, by the seconds of their clocks. -/
def Spaced (setup : EvaluationSetup) : EvaluationStep → EvaluationStep → Prop
  | .evaluateDirty earlier, .evaluateDirty later =>
      setup.debounceMs ≤ (later.current - earlier.current) * 1000
  | _, _ => True

section Step

variable {setup : EvaluationSetup} {state : DirtyEvaluation} {code : String} {reason : DirtyReason}

theorem covered_of_marked (hcode : cleanCode code ≠ "") (sourceEventId : String)
    (markedAt : Int) :
    Refused setup state code reason markedAt ∨
      Covered code reason
        ((machine setup).next state (.markDirty code reason sourceEventId markedAt)) := by
  cases hdebounced : state.queue.debounced setup.dirtyDebounceMs (cleanCode code) reason
      (cleanTime markedAt) with
  | true =>
    by_cases hcovered : Covered code reason state
    · right
      unfold Covered
      show ∃ event, (state.queue.markDirty _ _ _ _ _).1.items.get? _ = some event ∧ _
      rw [markDirty_of_debounced (.inr hdebounced)]
      exact hcovered
    · exact .inl ⟨hdebounced, hcovered⟩
  | false =>
    refine .inr ⟨_, (get?_markDirty hcode hdebounced _).trans (if_pos rfl),
      entryOf_code _ _ _ _ _, ?_⟩
    intro hbroad
    exact ⟨reason, mem_entryOf_reasons.mpr (.inl rfl), hbroad⟩

/-- A call takes an entry that covers the mark out of the queue. -/
def Takes (setup : EvaluationSetup) (code : String) (reason : DirtyReason)
    (state : DirtyEvaluation) (step : EvaluationStep) : Prop :=
  ∃ call, step = .evaluateDirty call ∧ setup.enabled = true ∧
    ∃ event ∈ (state.queue.popDirty setup.maxCodesPerCycle).2, event.code = cleanCode code ∧
      (reason ∈ broadReasons → ∃ known ∈ event.reasons, known ∈ broadReasons)

theorem covered_next (step : EvaluationStep) (h : Covered code reason state) :
    Covered code reason ((machine setup).next state step) ∨ Takes setup code reason state step := by
  obtain ⟨event, hget, hevent, hbroad⟩ := h
  cases step with
  | markDirty other more sourceEventId markedAt =>
    left
    show ∃ event, (state.queue.markDirty _ _ _ _ _).1.items.get? _ = some event ∧ _
    by_cases hrefused : cleanCode other = "" ∨ state.queue.debounced setup.dirtyDebounceMs
        (cleanCode other) more (cleanTime markedAt) = true
    · rw [markDirty_of_debounced hrefused]
      exact ⟨event, hget, hevent, hbroad⟩
    · rw [not_or, Bool.not_eq_true] at hrefused
      rw [get?_markDirty hrefused.1 hrefused.2]
      split
      · next hsame =>
          refine ⟨_, rfl, by rw [entryOf_code, hsame], ?_⟩
          intro hreason
          obtain ⟨known, hknown, hknownBroad⟩ := hbroad hreason
          rw [← hsame, hget]
          exact ⟨known, mem_entryOf_reasons.mpr (.inr ⟨event, rfl, hknown⟩), hknownBroad⟩
      · exact ⟨event, hget, hevent, hbroad⟩
  | evaluateDirty call =>
    have hqueue : ((machine setup).next state (.evaluateDirty call)).queue =
        if setup.enabled = false then state.queue
        else (state.queue.popDirty setup.maxCodesPerCycle).1 := by
      show (state.evaluateDirty setup call).1.queue = _
      unfold evaluateDirty
      dsimp only
      repeat' split
      all_goals rfl
    cases henabled : setup.enabled with
    | false =>
      left
      refine ⟨event, ?_, hevent, hbroad⟩
      rw [hqueue, if_pos henabled]
      exact hget
    | true =>
      rcases popDirty_cases setup.maxCodesPerCycle hget with htaken | hstays
      · exact .inr ⟨call, rfl, henabled, event, htaken, hevent, hbroad⟩
      · left
        refine ⟨event, ?_, hevent, hbroad⟩
        rw [hqueue, if_neg (by rw [henabled]; simp)]
        exact hstays

/-- The times that the evaluator remembers are those of calls before. -/
def Timed (past : List EvaluationStep) (state : DirtyEvaluation) : Prop :=
  ∀ key time, state.evaluator.lastEvaluatedAt.get? key = some time →
    ∃ call, .evaluateDirty call ∈ past ∧ time = call.current

theorem timed_next {past : List EvaluationStep} (step : EvaluationStep) (h : Timed past state) :
    Timed (past ++ [step]) ((machine setup).next state step) := by
  have hkept : Timed (past ++ [step]) state := by
    intro key time hget
    obtain ⟨call, hcall, htime⟩ := h key time hget
    exact ⟨call, mem_append_left _ hcall, htime⟩
  cases step with
  | markDirty code reason sourceEventId markedAt => exact hkept
  | evaluateDirty call =>
    show Timed _ (state.evaluateDirty setup call).1
    unfold evaluateDirty
    dsimp only
    split
    · exact hkept
    · split
      · exact hkept
      · intro key time hget
        rcases selectCandidates_times hget with hnow | hbefore
        · exact ⟨call, mem_append_right _ mem_cons_self, hnow⟩
        · exact hkept key time hbefore

theorem evaluates_of_takes {call : EvaluationCall} (hcode : cleanCode code ≠ "")
    (htakes : Takes setup code reason state (.evaluateDirty call))
    (hspaced : ∀ key, state.evaluator.debounced setup key call.current = false) :
    Evaluates setup state call code reason := by
  obtain ⟨_, hcall, henabled, event, hevent, hsame, hbroad⟩ := htakes
  cases hcall
  intro row hrow hdate hconcerns
  have hevaluated : (state.evaluateDirty setup call).2.evaluated =
      (state.selectionOf setup call
        (state.queue.popDirty setup.maxCodesPerCycle).2).candidates := by
    unfold evaluateDirty
    dsimp only
    rw [henabled, if_neg (by simp), if_neg (ne_nil_of_mem hevent)]
    rfl
  have hpool : row ∈ poolOf call
      (reasonByCode (state.queue.popDirty setup.maxCodesPerCycle).2) := by
    refine mem_poolOf hevent (congrArg cleanCode hsame) (cleanCode_ne_empty hcode) hrow hdate ?_
    exact hconcerns.imp_right hbroad
  unfold PassesOver
  rw [hevaluated]
  cases heligible : (evaluationEligible setup.stateContract row.candidate call.clock).2 with
  | false => exact .inr (.inl rfl)
  | true =>
    have hunchanged : Unchanged state.evaluator
        ({ evaluator := state.evaluator } : Selection) := fun _ _ => ⟨rfl, rfl⟩
    rcases selectCandidates_covers hunchanged hpool heligible with
      hselected | hdebounced | hcontext | hlimit
    · exact .inl hselected
    · rw [hspaced row.id] at hdebounced
      cases hdebounced
    · exact .inr (.inr (.inl hcontext))
    · exact .inr (.inr (.inr hlimit))

end Step

/-! ## Runs -/

theorem debounced_of_spaced {setup : EvaluationSetup} {past : List EvaluationStep}
    {call : EvaluationCall}
    (h : (past ++ [EvaluationStep.evaluateDirty call]).Pairwise (Spaced setup)) (key : Nat) :
    ((machine setup).run {} past).evaluator.debounced setup key call.current = false := by
  have htimed : Timed past ((machine setup).run {} past) := by
    refine prefix_induction (Q := fun past => Timed past ((machine setup).run {} past)) ?_ ?_ past
      (prefix_refl past)
    · intro key time hget
      cases hget
    · intro past step _ ih
      rw [Machine.run_concat]
      exact timed_next step ih
  unfold DirtyStrategyEvaluator.debounced
  cases hlast : ((machine setup).run {} past).evaluator.lastEvaluatedAt.get? key with
  | none => rfl
  | some time =>
    obtain ⟨earlier, hearlier, rfl⟩ := htimed key time hlast
    have hspaced : setup.debounceMs ≤ (call.current - earlier.current) * 1000 :=
      (pairwise_append.mp h).2.2 _ hearlier _ mem_cons_self
    simp only [decide_eq_false_iff_not, not_and]
    exact fun _ => Int.not_lt.mpr hspaced

def plainSetup : EvaluationSetup where
  stateContract := { enabled := false, readFloat := fun _ => none }

def watchedRow (id : Nat) (code : String) (strategyContextId : String) : CandidateRow where
  id
  candidate := { tradeDate := "2026-06-19", code, state := .watching }
  strategyContextId

def watchedTable : CandidateTable where
  rows := [watchedRow 1 "000660" "", watchedRow 2 "005930" "context"]
  unique := by decide

def markAt (reason : DirtyReason) (ms : Int) : EvaluationStep :=
  .markDirty "A005930" reason "" (1781859600000000 + ms * 1000)

def callAt (ms : Int) : EvaluationCall where
  now := 1781859600000000 + ms * 1000
  clock := ""
  database := watchedTable

def oneTick : List EvaluationStep := [markAt .priceTick 0, .evaluateDirty (callAt 10)]

def evaluatedIn (setup : EvaluationSetup) (steps : List EvaluationStep) : List (List Nat) :=
  ((machine setup).outputs {} steps).map fun answer => answer.evaluated.map (·.id)

def twoTicks : List EvaluationStep :=
  [markAt .priceTick 0, .evaluateDirty (callAt 10), markAt .priceTick 50,
    .evaluateDirty (callAt 5000)]

def marketChange : List EvaluationStep :=
  [markAt .marketRegimeChanged 0, .evaluateDirty (callAt 10), .evaluateDirty (callAt 5000)]

def sameContext : List EvaluationStep :=
  [markAt .priceTick 0, .evaluateDirty (callAt 10), markAt .priceTick 3000,
    markAt .strategyContextChanged 3000, .evaluateDirty (callAt 5000)]

end DirtyEvaluation

end TradingCore.Evaluation
