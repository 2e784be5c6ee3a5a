import TradingCore.Kiwoom.TrRunner

/-!
# Whose pages a result holds

The handler of signals does not look at the name, the code or the screen of an answer: the
last signal of the first wait that brings one becomes the page of the request that is active.
`own_pages_iff`: in every run, results hold no answer to another request, and complete results
without errors hold the answers to their own page requests in order, iff every page request
takes a signal that answers a page request of its own call, and, where the call is flawless
from its first page to its last, that very page request, under its name and code.
-/

namespace TradingCore.Kiwoom

open Base List Text PageExchange TrSignal

/-! ## The law -/

def TrPage.mark (page : TrPage) : TrResponseMeta × Option Nat := (page.info, page.answers)

namespace TrRequestResult

variable (result : TrRequestResult)

/-- No page answers a page request of another call. The call has sent the page requests from
`first + 1` on. -/
def NoForeign (first : Nat) : Prop :=
  ∀ page ∈ result.pages, ∀ n, page.answers = some n → first < n ∧ n ≤ first + result.requestCount

/-- The pages are the answers to the page requests of the call, each once and in order, under
its name and code, and the last one is the only one that no page follows. -/
def Exact (first : Nat) : Prop :=
  result.pages.map (·.answers) =
      (range result.requestCount).map (fun k => some (first + k + 1)) ∧
    (∀ page ∈ result.pages, page.info.rqName = result.rqName ∧
      lower page.info.trCode = lower result.trCode) ∧
    ∃ front last, result.pages = front ++ [last] ∧
      (∀ page ∈ front, page.info.continues = true) ∧ last.info.continues = false

/-- The result of a call that has sent the page requests from `first + 1` on holds its own
pages. -/
def OwnPages (first : Nat) : Prop :=
  result.NoForeign first ∧ (result.complete = true → result.errors = [] → result.Exact first)

end TrRequestResult

/-! ## The condition -/

namespace PageExchange

variable (exchange : PageExchange)

/-- The signals that are handled for a page request: those of the first burst. -/
def handled : List TrSignal :=
  if exchange.resultCode < 0 then exchange.sending
  else ((exchange.sending :: exchange.polls).find? (· ≠ [])).getD []

def taken : Option TrSignal :=
  if exchange.resultCode < 0 then none else exchange.handled.getLast?

/-- The page request is sent, and what is handled for it can be read and has no error code.
`names` has the code and the name of the request. -/
def fine (names : TrRequestResult) : Bool :=
  (exchange.handled.all fun signal => signal.countError names = none) &&
    exchange.taken.any (·.info.accepted)

end PageExchange

/-- The signals that a call takes as its pages, when it has `count` of them already. -/
def takenPages (limit : Option Nat) : Nat → List PageExchange → List TrSignal
  | _, [] => []
  | count, exchange :: later =>
      if limit.any (· ≤ count) then []
      else
        match exchange.taken with
        | none => []
        | some signal =>
            signal :: if signal.info.continues then takenPages limit (count + 1) later else []

/-- The call is flawless: all its page requests are fine, until one is answered with the last
page. -/
def flawless (names : TrRequestResult) (limit : Option Nat) : Nat → List PageExchange → Bool
  | _, [] => false
  | count, exchange :: later =>
      !limit.any (· ≤ count) && exchange.fine names &&
        exchange.taken.any fun signal =>
          !signal.info.continues || flawless names limit (count + 1) later

def TrRequest.names (request : TrRequest) : TrRequestResult where
  trCode := request.trCode
  rqName := request.rqName

/-- The signals that a call takes answer page requests of this call, or none that the runner
has sent (`first` before the call); and if the call is flawless, each answers the page request
for which it is taken, under its name and code. -/
def Undisturbed (request : TrRequest) (limit : Option Nat) (first : Nat)
    (exchanges : List PageExchange) : Prop :=
  (∀ k signal, (takenPages limit 0 exchanges)[k]? = some signal →
    ∀ age, signal.age = some age → age ≤ k ∨ first + k < age) ∧
  (flawless request.names limit 0 exchanges = true →
    ∀ signal ∈ takenPages limit 0 exchanges, signal.age = some 0 ∧
      signal.info.rqName = request.rqName ∧
      lower signal.info.trCode = lower request.trCode)

namespace KiwoomTrRunner

/-- The result of a step holds its own pages. -/
def StepOwnPages (runner : KiwoomTrRunner) : Step → Prop
  | .signal _ => True
  | .requestPages request exchanges =>
      (runner.requestPages request exchanges).2.OwnPages runner.sentRequestCount
  | .requestCapture request maxPages exchanges =>
      (runner.requestCapture request maxPages exchanges).2.OwnPages runner.sentRequestCount

def StepUndisturbed (runner : KiwoomTrRunner) : Step → Prop
  | .signal _ => True
  | .requestPages request exchanges =>
      Undisturbed request none runner.sentRequestCount exchanges
  | .requestCapture request maxPages exchanges =>
      Undisturbed request (some (pageLimit maxPages)) runner.sentRequestCount exchanges

end KiwoomTrRunner

/-! ## One page request -/

def TrRequestResult.bare (result : TrRequestResult) : TrRequestResult :=
  { result with warnings := [], errors := [] }

def TrSignal.mark (signal : TrSignal) (latest : Nat) : TrResponseMeta × Option Nat :=
  (signal.info, signal.number latest)

theorem TrSignal.countError_congr {signal : TrSignal} {result result' : TrRequestResult}
    (htr : result'.trCode = result.trCode) (hrq : result'.rqName = result.rqName) :
    signal.countError result' = signal.countError result := by
  unfold countError repeated countFailures recordCandidates readCode
  rw [htr, hrq]

namespace KiwoomTrRunner

/-- What the handling of `signals` leaves of an empty slot for an active request. -/
structure After (latest : Nat) (result : TrRequestResult) (signals : List TrSignal)
    (runner : KiwoomTrRunner) : Prop where
  active : ∃ request, runner.activeRequest = some request ∧
    request.result.bare = result.bare ∧ request.result.errors = result.errors ++
      signals.filterMap (·.countError result)
  page : runner.pendingPage.map (·.mark) = signals.getLast?.map (·.mark latest)

variable {latest : Nat} {result : TrRequestResult} {signals : List TrSignal}
  {runner : KiwoomTrRunner}

theorem names_of_bare {a b : TrRequestResult} (h : a.bare = b.bare) :
    a.trCode = b.trCode ∧ a.rqName = b.rqName :=
  ⟨congrArg (·.trCode) h, congrArg (·.rqName) h⟩

section

variable (h : After latest result signals runner)
include h

theorem After.handle (signal : TrSignal) :
    After latest result (signals ++ [signal]) (handleTrData latest runner signal) := by
  obtain ⟨request, hactive, hbare, herrors⟩ := h.active
  have hnames := names_of_bare hbare
  have hcount : signal.countError request.result = signal.countError result :=
    countError_congr hnames.1 hnames.2
  unfold handleTrData
  rw [hactive]
  refine ⟨⟨_, rfl, hbare, ?_⟩, ?_⟩
  · show request.result.errors ++ (signal.countError request.result).toList = _
    rw [herrors, hcount, filterMap_append, append_assoc]
    have hone : [signal].filterMap (·.countError result) =
        (signal.countError result).toList := by
      cases hnone : signal.countError result with
      | none => simp [hnone]
      | some error => simp [hnone]
    rw [hone]
  · rw [getLast?_concat]
    rfl

theorem After.foldl (more : List TrSignal) :
    After latest result (signals ++ more) (more.foldl (handleTrData latest) runner) := by
  induction more generalizing signals runner with
  | nil =>
    rw [append_nil]
    exact h
  | cons signal more ih =>
    have := ih (h.handle signal)
    rw [append_assoc] at this
    exact this

theorem After.pending_iff : runner.pendingPage.isSome = true ↔ signals ≠ [] := by
  have hmap : (runner.pendingPage.map (·.mark)).isSome = (signals.getLast?.map
      (·.mark latest)).isSome := by rw [h.page]
  rw [Option.isSome_map, Option.isSome_map] at hmap
  rw [hmap, getLast?_isSome]

theorem After.wait_of_pending (hne : signals ≠ []) (polls : List (List TrSignal)) :
    wait latest runner polls = runner := by
  cases polls with
  | nil => rfl
  | cons burst later =>
    unfold wait
    rw [if_pos (h.pending_iff.mpr hne)]

end

theorem After.wait (h : After latest result [] runner) (polls : List (List TrSignal)) :
    After latest result ((polls.find? (· ≠ [])).getD []) (wait latest runner polls) := by
  induction polls with
  | nil => exact h
  | cons burst later ih =>
    have hnone : ¬ runner.pendingPage.isSome = true := fun hsome => h.pending_iff.mp hsome rfl
    unfold KiwoomTrRunner.wait
    rw [if_neg hnone]
    cases burst with
    | nil => exact ih
    | cons signal more =>
      have hafter := h.foldl (signal :: more)
      rw [hafter.wait_of_pending (cons_ne_nil signal more)]
      exact hafter

theorem After.exchange {exchange : PageExchange} (hsent : ¬ exchange.resultCode < 0)
    (h : After latest result exchange.sending runner) :
    After latest result exchange.handled (KiwoomTrRunner.wait latest runner exchange.polls) := by
  unfold handled
  rw [if_neg hsent]
  cases hburst : exchange.sending with
  | nil =>
    rw [hburst] at h
    exact h.wait exchange.polls
  | cons signal more =>
    rw [hburst] at h
    rw [h.wait_of_pending (cons_ne_nil signal more)]
    exact h

/-- What a page request does: it counts itself, it finds the page that it takes, and it adds
no error iff all is fine. -/
structure PageOutcome (runner : KiwoomTrRunner) (result : TrRequestResult)
    (exchange : PageExchange) (out : KiwoomTrRunner × TrRequestResult × Option TrPage) : Prop where
  sent : out.1.sentRequestCount = runner.sentRequestCount + 1
  bare : out.2.1.bare = { result.bare with requestCount := result.requestCount + 1 }
  page : out.2.2.map (·.mark) = exchange.taken.map (·.mark (runner.sentRequestCount + 1))
  errors : out.2.1.errors = [] ↔ result.errors = [] ∧ exchange.fine result = true

theorem started_after (runner : KiwoomTrRunner) (result : TrRequestResult) (request : TrRequest)
    (signals : List TrSignal) :
    After (runner.sentRequestCount + 1) result signals
      (signals.foldl (handleTrData (runner.sentRequestCount + 1))
        { runner with
          pendingPage := none
          activeRequest := some
            { result, fields := request.fields, singleFields := request.singleFields } }) := by
  have hempty : After (runner.sentRequestCount + 1) result []
      { runner with
        pendingPage := none
        activeRequest := some
          { result, fields := request.fields, singleFields := request.singleFields } } :=
    ⟨⟨_, rfl, rfl, by simp⟩, rfl⟩
  have := hempty.foldl signals
  rw [nil_append] at this
  exact this

theorem After.withCount (h : After latest result signals runner) (count : Nat) :
    After latest result signals { runner with sentRequestCount := count } :=
  ⟨h.active, h.page⟩

theorem sentRequestCount_foldl (latest : Nat) (signals : List TrSignal) (runner : KiwoomTrRunner) :
    (signals.foldl (handleTrData latest) runner).sentRequestCount = runner.sentRequestCount := by
  induction signals generalizing runner with
  | nil => rfl
  | cons signal more ih =>
    rw [foldl_cons, ih]
    unfold handleTrData
    split <;> rfl

theorem sentRequestCount_wait (latest : Nat) (polls : List (List TrSignal))
    (runner : KiwoomTrRunner) :
    (wait latest runner polls).sentRequestCount = runner.sentRequestCount := by
  induction polls generalizing runner with
  | nil => rfl
  | cons burst later ih =>
    unfold wait
    split
    · rfl
    · rw [ih, sentRequestCount_foldl]

theorem countErrors_eq_nil_iff :
    signals.filterMap (·.countError result) = [] ↔
      signals.all (fun signal => signal.countError result = none) = true := by
  rw [filterMap_eq_nil_iff, all_eq_true]
  exact forall₂_congr fun signal _ => decide_eq_true_iff.symm

theorem requestPage_spec (runner : KiwoomTrRunner) (result : TrRequestResult)
    (request : TrRequest) (prevNext : Int) (exchange : PageExchange) :
    PageOutcome runner result exchange (runner.requestPage result request prevNext exchange) := by
  have hsending := started_after runner result request exchange.sending
  unfold requestPage
  simp only
  by_cases hcode : exchange.resultCode < 0
  · -- the request is not sent
    rw [if_pos hcode]
    obtain ⟨active, hactive, hbare, herrors⟩ := hsending.active
    have htaken : exchange.taken = none := if_pos hcode
    rw [hactive]
    refine ⟨rfl, ?_, ?_, ?_⟩
    · show { active.result.bare with requestCount := active.result.bare.requestCount + 1 } = _
      rw [hbare]
      rfl
    · rw [htaken]
      rfl
    · refine iff_of_false ?_ ?_
      · show active.result.errors ++ _ ≠ []
        simp
      · unfold fine
        rw [htaken]
        simp
  · rw [if_neg hcode]
    have hafter := (hsending.withCount (runner.sentRequestCount + 1)).exchange hcode
    have hcount := sentRequestCount_wait (runner.sentRequestCount + 1) exchange.polls
      { exchange.sending.foldl (handleTrData (runner.sentRequestCount + 1))
          { runner with
            pendingPage := none
            activeRequest := some
              { result, fields := request.fields, singleFields := request.singleFields } } with
        sentRequestCount := runner.sentRequestCount + 1 }
    generalize wait (runner.sentRequestCount + 1) _ exchange.polls = waited at hafter hcount ⊢
    obtain ⟨active, hactive, hbare, herrors⟩ := hafter.active
    have htaken : exchange.taken = exchange.handled.getLast? := if_neg hcode
    have hpage := hafter.page
    rw [← htaken] at hpage
    have hcounted : { active.result.bare with
        requestCount := active.result.bare.requestCount + 1 } =
        { result.bare with requestCount := result.requestCount + 1 } := by
      rw [hbare]
      rfl
    rw [hactive]
    cases hpending : waited.pendingPage with
    | none =>
      rw [hpending] at hpage
      have hnone : exchange.taken = none := Option.map_eq_none_iff.mp hpage.symm
      refine ⟨hcount, hcounted, ?_, ?_⟩
      · rw [hnone]
        rfl
      · refine iff_of_false ?_ ?_
        · show active.result.errors ++ _ ≠ []
          simp
        · unfold fine
          rw [hnone]
          simp
    | some page =>
      rw [hpending] at hpage
      refine ⟨hcount, hcounted, hpage, ?_⟩
      obtain ⟨signal, hsignal, hmark⟩ := Option.map_eq_some_iff.mp hpage.symm
      have hinfo : page.info = signal.info := (congrArg Prod.fst hmark).symm
      show active.result.errors ++ (if page.info.accepted then [] else
        ["TR_RESPONSE_ERROR:" ++ (request.trCode ++ ":" ++ request.rqName) ++ ":" ++
          page.info.errorCode ++ ":" ++ page.info.message]) = [] ↔ _
      unfold fine
      rw [append_eq_nil_iff, herrors, append_eq_nil_iff, countErrors_eq_nil_iff,
        hsignal, hinfo, Bool.and_eq_true, and_assoc]
      have haccepted : (if signal.info.accepted = true then ([] : List String) else
          ["TR_RESPONSE_ERROR:" ++ (request.trCode ++ ":" ++ request.rqName) ++ ":" ++
            signal.info.errorCode ++ ":" ++ signal.info.message]) = [] ↔
          (some signal).any (·.info.accepted) = true := by
        rw [Option.any_some]
        by_cases haccepted : signal.info.accepted = true
        · rw [if_pos haccepted]
          exact iff_of_true rfl haccepted
        · rw [if_neg haccepted]
          exact iff_of_false (cons_ne_nil _ _) haccepted
      rw [haccepted]

/-! ## A call -/

/-- What the loop over the pages does, when its result has some pages already. -/
structure LoopOutcome (request : TrRequest) (limit : Option Nat) (exchanges : List PageExchange)
    (runner : KiwoomTrRunner) (result : TrRequestResult)
    (out : KiwoomTrRunner × TrRequestResult × LoopEnd) : Prop where
  names : out.2.1.trCode = request.trCode ∧ out.2.1.rqName = request.rqName
  complete : out.2.1.complete = result.complete
  pages : out.2.1.pages.map (·.mark) = result.pages.map (·.mark) ++
    (takenPages limit result.pages.length exchanges).mapIdx fun k signal =>
      signal.mark (runner.sentRequestCount + k + 1)
  count : result.requestCount + (takenPages limit result.pages.length exchanges).length ≤
    out.2.1.requestCount
  perfect : out.2.2 = .lastPage ∧ out.2.1.errors = [] ↔
    result.errors = [] ∧ flawless request.names limit result.pages.length exchanges = true
  exactCount : out.2.2 = .lastPage → out.2.1.requestCount =
    result.requestCount + (takenPages limit result.pages.length exchanges).length
  noPage : out.2.2 = .noPage → out.2.1.errors ≠ []
  maxPages : out.2.2 = .maxPages → limit ≠ none
  lastPage : out.2.2 = .lastPage → out.2.1.pages ≠ []

variable {result : TrRequestResult}

theorem loopOutcome_noPage {request : TrRequest} {limit : Option Nat} {exchange : PageExchange}
    {later : List PageExchange} {runner : KiwoomTrRunner}
    {out : KiwoomTrRunner × TrRequestResult × Option TrPage} (htr : result.trCode = request.trCode)
    (hrq : result.rqName = request.rqName) (hpage : PageOutcome runner result exchange out)
    (hnone : out.2.2 = none) (htaken : takenPages limit result.pages.length later = [])
    (hflawless : flawless request.names limit result.pages.length later = false) :
    LoopOutcome request limit later runner result (out.1, out.2.1, .noPage) := by
  have hbare := hpage.bare
  have hnotTaken : exchange.taken = none := by
    have := hpage.page
    rw [hnone] at this
    exact Option.map_eq_none_iff.mp this.symm
  have herrors : out.2.1.errors ≠ [] := by
    intro hnil
    have hfine := (hpage.errors.mp hnil).2
    unfold fine at hfine
    rw [hnotTaken] at hfine
    simp at hfine
  refine ⟨⟨?_, ?_⟩, congrArg (·.complete) hbare, ?_, ?_, ?_, ?_, fun _ => herrors, ?_, ?_⟩
  · exact (congrArg (·.trCode) hbare).trans htr
  · exact (congrArg (·.rqName) hbare).trans hrq
  · have hpages : out.2.1.pages = result.pages := congrArg (·.pages) hbare
    rw [htaken, hpages]
    simp
  · have hcount : out.2.1.requestCount = result.requestCount + 1 :=
      congrArg (·.requestCount) hbare
    rw [htaken, hcount]
    simp
  · rw [hflawless]
    refine iff_of_false (fun h => by cases h.1) (fun h => by cases h.2)
  · intro h
    cases h
  · intro h
    cases h
  · intro h
    cases h

theorem taken_default : ({} : PageExchange).taken = none := rfl

theorem loopOutcome_limit {request : TrRequest} {limit : Option Nat}
    (htr : result.trCode = request.trCode) (hrq : result.rqName = request.rqName)
    (hlimit : limit.any (· ≤ result.pages.length) = true) (exchanges : List PageExchange)
    (runner : KiwoomTrRunner) :
    LoopOutcome request limit exchanges runner result (runner, result, .maxPages) := by
  have htaken : takenPages limit result.pages.length exchanges = [] := by
    cases exchanges with
    | nil => rfl
    | cons exchange later => rw [takenPages, if_pos hlimit]
  have hflawless : flawless request.names limit result.pages.length exchanges = false := by
    cases exchanges with
    | nil => rfl
    | cons exchange later =>
      rw [flawless, hlimit]
      rfl
  refine ⟨⟨htr, hrq⟩, rfl, by simp [htaken], by simp [htaken], ?_, ?_, ?_, ?_, ?_⟩
  · rw [hflawless]
    exact iff_of_false (fun h => by cases h.1) (fun h => by cases h.2)
  · exact fun h => by cases h
  · exact fun h => by cases h
  · intro _ hnone
    rw [hnone] at hlimit
    cases hlimit
  · exact fun h => by cases h

section Page

variable {request : TrRequest} {limit : Option Nat} {exchange : PageExchange}
  {later : List PageExchange} {runner' : KiwoomTrRunner} {result' : TrRequestResult}
  {page : TrPage} {signal : TrSignal}

theorem PageOutcome.took (hpage : PageOutcome runner result exchange (runner', result', some page))
    (htr : result.trCode = request.trCode) (hrq : result.rqName = request.rqName) :
    (result'.trCode = request.trCode ∧ result'.rqName = request.rqName) ∧
      result'.pages = result.pages ∧ result'.requestCount = result.requestCount + 1 ∧
      result'.complete = result.complete ∧
      (result'.errors = [] ↔ result.errors = [] ∧ exchange.fine request.names = true) := by
  have hfine : exchange.fine result = exchange.fine request.names := by
    have hsame : (fun signal : TrSignal => decide (signal.countError result = none)) =
        fun signal => decide (signal.countError request.names = none) := by
      funext signal
      have hsignal : signal.countError result = signal.countError request.names :=
        countError_congr htr hrq
      rw [hsignal]
    unfold fine
    rw [hsame]
  refine ⟨⟨?_, ?_⟩, ?_, ?_, ?_, ?_⟩
  · exact (congrArg (·.trCode) hpage.bare).trans htr
  · exact (congrArg (·.rqName) hpage.bare).trans hrq
  · exact congrArg (·.pages) hpage.bare
  · exact congrArg (·.requestCount) hpage.bare
  · exact congrArg (·.complete) hpage.bare
  · rw [← hfine]
    exact hpage.errors

theorem takenPages_cons (hlimit : ¬ limit.any (· ≤ result.pages.length) = true)
    (hsignal : exchange.taken = some signal) (later : List PageExchange) :
    takenPages limit result.pages.length (exchange :: later) =
      signal :: if signal.info.continues then
        takenPages limit (result.pages.length + 1) later else [] := by
  rw [takenPages, if_neg hlimit, hsignal]

theorem flawless_cons (hlimit : ¬ limit.any (· ≤ result.pages.length) = true)
    (hsignal : exchange.taken = some signal) (names : TrRequestResult) :
    flawless names limit result.pages.length (exchange :: later) =
      (exchange.fine names && (!signal.info.continues ||
        flawless names limit (result.pages.length + 1) later)) := by
  have hlimit' : limit.any (· ≤ result.pages.length) = false := by simpa using hlimit
  rw [flawless, hlimit', hsignal]
  rfl

theorem loopOutcome_lastPage (htr : result.trCode = request.trCode)
    (hrq : result.rqName = request.rqName)
    (hlimit : ¬ limit.any (· ≤ result.pages.length) = true)
    (hpage : PageOutcome runner result exchange (runner', result', some page))
    (hsignal : exchange.taken = some signal)
    (hmark : page.mark = signal.mark (runner.sentRequestCount + 1))
    (hlast : ¬ signal.info.continues = true) :
    LoopOutcome request limit (exchange :: later) runner result
      (runner', { result' with pages := result'.pages ++ [page] }, .lastPage) := by
  obtain ⟨hnames, hpages, hcount, hcomplete, herrors⟩ := hpage.took htr hrq
  have htaken := takenPages_cons hlimit hsignal later
  rw [if_neg hlast] at htaken
  refine ⟨hnames, hcomplete, ?_, ?_, ?_, ?_, ?_, ?_, ?_⟩
  · rw [htaken]
    simp only [map_append, map_cons, map_nil, mapIdx_cons, mapIdx_nil, hpages, Nat.add_zero, hmark]
  · rw [htaken]
    show result.requestCount + 1 ≤ result'.requestCount
    omega
  · rw [flawless_cons hlimit hsignal]
    simp only [true_and]
    rw [herrors]
    simp [hlast]
  · intro _
    rw [htaken]
    exact hcount
  · exact fun h => by cases h
  · exact fun h => by cases h
  · intro _
    simp

theorem loopOutcome_more {out : KiwoomTrRunner × TrRequestResult × LoopEnd}
    (htr : result.trCode = request.trCode) (hrq : result.rqName = request.rqName)
    (hlimit : ¬ limit.any (· ≤ result.pages.length) = true)
    (hpage : PageOutcome runner result exchange (runner', result', some page))
    (hsignal : exchange.taken = some signal)
    (hmark : page.mark = signal.mark (runner.sentRequestCount + 1))
    (hcontinues : signal.info.continues = true)
    (hrest : LoopOutcome request limit later runner'
      { result' with pages := result'.pages ++ [page] } out) :
    LoopOutcome request limit (exchange :: later) runner result out := by
  obtain ⟨-, hpages, hcount, hcomplete, herrors⟩ := hpage.took htr hrq
  have hsent : runner'.sentRequestCount = runner.sentRequestCount + 1 := hpage.sent
  have htaken := takenPages_cons hlimit hsignal later
  rw [if_pos hcontinues] at htaken
  have hlength : (result'.pages ++ [page]).length = result.pages.length + 1 := by
    rw [hpages, length_append]
    rfl
  have hmore := hrest.pages
  have hmoreCount := hrest.count
  have hperfect := hrest.perfect
  have hexact := hrest.exactCount
  simp only [hlength] at hmore hmoreCount hperfect hexact
  refine ⟨hrest.names, hrest.complete.trans hcomplete, ?_, ?_, ?_, ?_, hrest.noPage,
    hrest.maxPages, hrest.lastPage⟩
  · have hshift : (fun k (signal : TrSignal) => signal.mark (runner.sentRequestCount + 1 + k + 1)) =
        fun k signal => signal.mark (runner.sentRequestCount + (k + 1) + 1) := by
      funext k signal
      rw [Nat.add_right_comm runner.sentRequestCount 1 k, Nat.add_assoc runner.sentRequestCount k 1]
    rw [hmore, htaken, mapIdx_cons, hpages, map_append, hsent, append_assoc, hshift]
    simp only [map_cons, map_nil, singleton_append, Nat.add_zero, hmark]
  · rw [htaken, length_cons]
    omega
  · rw [hperfect, herrors, flawless_cons hlimit hsignal, hcontinues]
    simp [and_assoc]
  · intro hend
    rw [hexact hend, htaken, length_cons, hcount]
    omega

end Page

theorem pageLoop_spec (request : TrRequest) (limit : Option Nat) (exchanges : List PageExchange)
    (runner : KiwoomTrRunner) (result : TrRequestResult) (prevNext : Int)
    (htr : result.trCode = request.trCode) (hrq : result.rqName = request.rqName) :
    LoopOutcome request limit exchanges runner result
      (pageLoop request limit exchanges runner result prevNext) := by
  induction exchanges generalizing runner result prevNext with
  | nil =>
    unfold pageLoop
    by_cases hlimit : limit.any (· ≤ result.pages.length) = true
    · rw [if_pos hlimit]
      exact loopOutcome_limit htr hrq hlimit [] runner
    · rw [if_neg hlimit]
      have hpage := requestPage_spec runner result request prevNext {}
      have hnone : (runner.requestPage result request prevNext {}).2.2 = none := by
        have := hpage.page
        rw [taken_default] at this
        exact Option.map_eq_none_iff.mp this
      exact loopOutcome_noPage htr hrq hpage hnone rfl rfl
  | cons exchange later ih =>
    unfold pageLoop
    by_cases hlimit : limit.any (· ≤ result.pages.length) = true
    · rw [if_pos hlimit]
      exact loopOutcome_limit htr hrq hlimit (exchange :: later) runner
    · rw [if_neg hlimit]
      have hpage := requestPage_spec runner result request prevNext exchange
      simp only
      cases hout : runner.requestPage result request prevNext exchange with
      | mk runner' rest =>
        obtain ⟨result', found⟩ := rest
        rw [hout] at hpage
        cases found with
        | none =>
          have hnone : exchange.taken = none :=
            Option.map_eq_none_iff.mp hpage.page.symm
          refine loopOutcome_noPage htr hrq hpage rfl ?_ ?_
          · rw [takenPages, if_neg hlimit, hnone]
          · rw [flawless, hnone]
            simp
        | some page =>
          obtain ⟨signal, hsignal, hmark⟩ := Option.map_eq_some_iff.mp hpage.page.symm
          have hinfo : page.info = signal.info := (congrArg Prod.fst hmark).symm
          simp only
          rw [hinfo]
          by_cases hcontinues : signal.info.continues = true
          · rw [if_pos hcontinues]
            have hnames := (hpage.took htr hrq).1
            exact loopOutcome_more htr hrq hlimit hpage hsignal hmark.symm hcontinues
              (ih runner' _ 2 hnames.1 hnames.2)
          · rw [if_neg hcontinues]
            exact loopOutcome_lastPage htr hrq hlimit hpage hsignal hmark.symm hcontinues

end KiwoomTrRunner

/-! ## The pages of a call -/

theorem chain_of_flawless {names : TrRequestResult} {limit : Option Nat} {count : Nat}
    {exchanges : List PageExchange} (h : flawless names limit count exchanges = true) :
    ∃ front last, takenPages limit count exchanges = front ++ [last] ∧
      (∀ signal ∈ front, signal.info.continues = true) ∧ last.info.continues = false := by
  induction exchanges generalizing count with
  | nil => cases h
  | cons exchange later ih =>
    unfold flawless at h
    rw [Bool.and_eq_true, Bool.and_eq_true, Bool.not_eq_true', Option.any_eq_true] at h
    obtain ⟨⟨hlimit, -⟩, signal, hsignal, hnext⟩ := h
    have htaken : takenPages limit count (exchange :: later) =
        signal :: if signal.info.continues then takenPages limit (count + 1) later else [] := by
      rw [takenPages, if_neg (by rw [hlimit]; decide), hsignal]
    cases hcontinues : signal.info.continues with
    | false =>
      rw [hcontinues, if_neg Bool.false_ne_true] at htaken
      exact ⟨[], signal, htaken, fun _ hmem => absurd hmem not_mem_nil, hcontinues⟩
    | true =>
      rw [hcontinues, if_pos rfl] at htaken
      rw [hcontinues] at hnext
      obtain ⟨front, last, hrest, hfront, hlast⟩ := ih hnext
      refine ⟨signal :: front, last, by rw [htaken, hrest]; rfl, ?_, hlast⟩
      intro other hother
      cases hother with
      | head => exact hcontinues
      | tail _ hmem => exact hfront other hmem

theorem TrSignal.number_eq_some_iff {signal : TrSignal} {latest n : Nat} :
    signal.number latest = some n ↔
      ∃ age, signal.age = some age ∧ age < latest ∧ n = latest - age := by
  unfold number
  rw [Option.bind_eq_some_iff]
  refine exists_congr fun age => and_congr_right fun _ => ?_
  by_cases hage : age < latest
  · rw [if_pos hage, Option.some.injEq]
    exact ⟨fun h => ⟨hage, h.symm⟩, fun h => h.2.symm⟩
  · rw [if_neg hage]
    exact iff_of_false (fun h => by cases h) fun h => hage h.1

/-- What a call makes of its exchanges when `first` page requests were sent before it. -/
structure TrCallOutcome (request : TrRequest) (limit : Option Nat) (exchanges : List PageExchange)
    (first : Nat) (result : TrRequestResult) : Prop where
  names : result.trCode = request.trCode ∧ result.rqName = request.rqName
  pages : result.pages.map (·.mark) =
    (takenPages limit 0 exchanges).mapIdx fun k signal => signal.mark (first + k + 1)
  count : (takenPages limit 0 exchanges).length ≤ result.requestCount
  perfect : result.complete = true ∧ result.errors = [] ↔
    flawless request.names limit 0 exchanges = true
  exactCount : result.complete = true → result.errors = [] →
    result.requestCount = (takenPages limit 0 exchanges).length

namespace TrCallOutcome

variable {request : TrRequest} {limit : Option Nat} {exchanges : List PageExchange}
  {first : Nat} {result : TrRequestResult}

section

variable (h : TrCallOutcome request limit exchanges first result)
include h

theorem mark_getElem? (k : Nat) :
    result.pages[k]?.map (·.mark) =
      (takenPages limit 0 exchanges)[k]?.map (·.mark (first + k + 1)) := by
  have hk := congrArg (·[k]?) h.pages
  simp only [getElem?_map, getElem?_mapIdx] at hk
  exact hk

theorem page_of_taken {k : Nat} {signal : TrSignal}
    (hk : (takenPages limit 0 exchanges)[k]? = some signal) :
    ∃ page, result.pages[k]? = some page ∧ page.info = signal.info ∧
      page.answers = signal.number (first + k + 1) := by
  have hmark := h.mark_getElem? k
  rw [hk] at hmark
  obtain ⟨page, hpage, heq⟩ := Option.map_eq_some_iff.mp hmark
  exact ⟨page, hpage, congrArg Prod.fst heq, congrArg Prod.snd heq⟩

theorem taken_of_page {k : Nat} {page : TrPage} (hk : result.pages[k]? = some page) :
    ∃ signal, (takenPages limit 0 exchanges)[k]? = some signal ∧ page.info = signal.info ∧
      page.answers = signal.number (first + k + 1) := by
  have hmark := h.mark_getElem? k
  rw [hk] at hmark
  obtain ⟨signal, hsignal, heq⟩ := Option.map_eq_some_iff.mp hmark.symm
  exact ⟨signal, hsignal, (congrArg Prod.fst heq).symm, (congrArg Prod.snd heq).symm⟩

theorem noForeign_iff :
    result.NoForeign first ↔ ∀ k signal, (takenPages limit 0 exchanges)[k]? = some signal →
      ∀ age, signal.age = some age → age ≤ k ∨ first + k < age := by
  constructor
  · intro hown k signal hk age hage
    by_cases hlate : age < first + k + 1
    · obtain ⟨page, hpage, -, hanswers⟩ := h.page_of_taken hk
      have hnumber : signal.number (first + k + 1) = some (first + k + 1 - age) :=
        number_eq_some_iff.mpr ⟨age, hage, hlate, rfl⟩
      have := hown page (mem_of_getElem? hpage) _ (hanswers.trans hnumber)
      omega
    · omega
  · intro hown page hmem n hn
    obtain ⟨k, hpage⟩ := mem_iff_getElem?.mp hmem
    obtain ⟨signal, hk, -, hanswers⟩ := h.taken_of_page hpage
    obtain ⟨age, hage, hlate, rfl⟩ := number_eq_some_iff.mp (hanswers.symm.trans hn)
    have hlength : k < (takenPages limit 0 exchanges).length :=
      (List.getElem?_eq_some_iff.mp hk).1
    have := h.count
    rcases hown k signal hk age hage with hle | hlt
    · omega
    · omega

theorem exact_iff (hflawless : flawless request.names limit 0 exchanges = true) :
    result.Exact first ↔ ∀ signal ∈ takenPages limit 0 exchanges, signal.age = some 0 ∧
      signal.info.rqName = request.rqName ∧
      lower signal.info.trCode = lower request.trCode := by
  obtain ⟨hcomplete, herrors⟩ := h.perfect.mpr hflawless
  have hcount := h.exactCount hcomplete herrors
  constructor
  · rintro ⟨hanswers, hnames, -⟩ signal hmem
    obtain ⟨k, hk⟩ := mem_iff_getElem?.mp hmem
    obtain ⟨page, hpage, hinfo, hnumber⟩ := h.page_of_taken hk
    have hlength : k < result.requestCount := by
      rw [hcount]
      exact (List.getElem?_eq_some_iff.mp hk).1
    have hat := congrArg (·[k]?) hanswers
    simp only [getElem?_map, hpage, getElem?_range hlength, Option.map_some,
      Option.some.injEq] at hat
    obtain ⟨age, hage, hlate, heq⟩ := number_eq_some_iff.mp (hnumber.symm.trans hat)
    have hzero : age = 0 := by omega
    obtain ⟨hrq, htr⟩ := hnames page (mem_of_getElem? hpage)
    rw [hinfo, h.names.2] at hrq
    rw [hinfo, h.names.1] at htr
    exact ⟨hzero ▸ hage, hrq, htr⟩
  · intro htaken
    refine ⟨?_, ?_, ?_⟩
    · apply ext_getElem?
      intro k
      rw [getElem?_map, getElem?_map]
      cases hk : (takenPages limit 0 exchanges)[k]? with
      | none =>
        have hlength : (takenPages limit 0 exchanges).length ≤ k := getElem?_eq_none_iff.mp hk
        have hpage := h.mark_getElem? k
        rw [hk, Option.map_none, Option.map_eq_none_iff] at hpage
        rw [hpage, getElem?_eq_none (by rw [length_range]; omega)]
        rfl
      | some signal =>
        have hlength : k < (takenPages limit 0 exchanges).length :=
          (List.getElem?_eq_some_iff.mp hk).1
        obtain ⟨page, hpage, -, hnumber⟩ := h.page_of_taken hk
        have hanswers : page.answers = some (first + k + 1) :=
          hnumber.trans (number_eq_some_iff.mpr
            ⟨0, (htaken signal (mem_of_getElem? hk)).1, by omega, by omega⟩)
        rw [hpage, getElem?_range (by omega), Option.map_some, Option.map_some, hanswers]
    · intro page hmem
      obtain ⟨k, hpage⟩ := mem_iff_getElem?.mp hmem
      obtain ⟨signal, hk, hinfo, -⟩ := h.taken_of_page hpage
      obtain ⟨-, hrq, htr⟩ := htaken signal (mem_of_getElem? hk)
      rw [hinfo, h.names.1, h.names.2]
      exact ⟨hrq, htr⟩
    · -- the pages are marked as the signals are
      obtain ⟨front, last, hsplit, hfront, hlast⟩ := chain_of_flawless hflawless
      have hmarks := h.pages
      rw [hsplit, mapIdx_append, map_eq_append_iff] at hmarks
      obtain ⟨pages, lastPage, hpages, hpagesFront, hpagesLast⟩ := hmarks
      rw [mapIdx_cons, mapIdx_nil, map_eq_singleton_iff] at hpagesLast
      obtain ⟨page, rfl, hpage⟩ := hpagesLast
      have hinfo : page.info = last.info := congrArg Prod.fst hpage
      refine ⟨pages, page, hpages, ?_, by rw [hinfo]; exact hlast⟩
      intro other hmem
      obtain ⟨k, hother⟩ := mem_iff_getElem?.mp hmem
      have hat := congrArg (·[k]?) hpagesFront
      simp only [getElem?_map, getElem?_mapIdx, hother, Option.map_some] at hat
      obtain ⟨signal, hsignal, hmark⟩ := Option.map_eq_some_iff.mp hat.symm
      have hsame : other.info = signal.info := (congrArg Prod.fst hmark).symm
      rw [hsame]
      exact hfront signal (mem_of_getElem? hsignal)

theorem ownPages_iff : result.OwnPages first ↔ Undisturbed request limit first exchanges := by
  refine and_congr h.noForeign_iff ?_
  constructor
  · intro hexact hflawless
    obtain ⟨hcomplete, herrors⟩ := h.perfect.mpr hflawless
    exact (h.exact_iff hflawless).mp (hexact hcomplete herrors)
  · intro htaken hcomplete herrors
    have hflawless := h.perfect.mp ⟨hcomplete, herrors⟩
    exact (h.exact_iff hflawless).mpr (htaken hflawless)

end

end TrCallOutcome

/-! ## Both kinds of calls -/

namespace KiwoomTrRunner

variable {request : TrRequest} {limit : Option Nat} {exchanges : List PageExchange}
  {runner : KiwoomTrRunner}

theorem loop_from_start (request : TrRequest) (limit : Option Nat) (exchanges : List PageExchange)
    (runner : KiwoomTrRunner) :
    LoopOutcome request limit exchanges runner request.names
      (pageLoop request limit exchanges runner request.names 0) :=
  pageLoop_spec request limit exchanges runner request.names 0 rfl rfl

variable {result : TrRequestResult}

theorem trCallOutcome_of_loop {out : KiwoomTrRunner × TrRequestResult × LoopEnd}
    (h : LoopOutcome request limit exchanges runner request.names out)
    (hbare : { result with complete := true, warnings := [] } =
      { out.2.1 with complete := true, warnings := [] })
    (hcomplete : result.complete = true ∧ result.errors = [] ↔
      out.2.2 = .lastPage ∧ out.2.1.errors = []) :
    TrCallOutcome request limit exchanges runner.sentRequestCount result := by
  have hpages : result.pages = out.2.1.pages := congrArg (·.pages) hbare
  have hcount : result.requestCount = out.2.1.requestCount := congrArg (·.requestCount) hbare
  have hloopCount := h.count
  refine ⟨⟨?_, ?_⟩, ?_, ?_, ?_, ?_⟩
  · exact (congrArg (·.trCode) hbare).trans h.names.1
  · exact (congrArg (·.rqName) hbare).trans h.names.2
  · rw [hpages, h.pages]
    rfl
  · rw [hcount]
    exact le_trans (Nat.le_add_left _ _) hloopCount
  · rw [hcomplete, h.perfect]
    exact and_iff_right rfl
  · intro hall herrors
    rw [hcount, h.exactCount (hcomplete.mp ⟨hall, herrors⟩).1]
    exact Nat.zero_add _

theorem markEmpty_of_ne (h : result.pages ≠ []) : markEmpty request result = result := if_neg h

theorem bare_markEmpty (request : TrRequest) (result : TrRequestResult) :
    { markEmpty request result with complete := true, warnings := [] } =
      { result with complete := true, warnings := [] } := by
  unfold markEmpty
  split <;> rfl

theorem complete_markEmpty (h : (markEmpty request result).complete = true) :
    result.complete = true := by
  unfold markEmpty at h
  split at h
  · cases h
  · exact h

theorem trCallOutcome_requestPages (runner : KiwoomTrRunner) (request : TrRequest)
    (exchanges : List PageExchange) :
    TrCallOutcome request none exchanges runner.sentRequestCount
      (runner.requestPages request exchanges).2 := by
  have hloop := loop_from_start { request with singleFields := [] } none exchanges runner
  have hresult : (runner.requestPages request exchanges).2 = markEmpty request
      (pageLoop { request with singleFields := [] } none exchanges runner request.names 0).2.1 :=
    rfl
  rw [hresult]
  have hcall : LoopOutcome request none exchanges runner request.names
      (pageLoop { request with singleFields := [] } none exchanges runner request.names 0) :=
    ⟨hloop.names, hloop.complete, hloop.pages, hloop.count, hloop.perfect, hloop.exactCount,
      hloop.noPage, hloop.maxPages, hloop.lastPage⟩
  generalize pageLoop { request with singleFields := [] } none exchanges runner request.names 0 =
    out at hcall
  have hbare := bare_markEmpty request out.2.1
  have herrors : (markEmpty request out.2.1).errors = out.2.1.errors :=
    congrArg (·.errors) hbare
  refine trCallOutcome_of_loop hcall hbare ?_
  constructor
  · rintro ⟨-, hnil⟩
    rw [herrors] at hnil
    refine ⟨?_, hnil⟩
    cases hend : out.2.2 with
    | lastPage => rfl
    | noPage => exact absurd hnil (hcall.noPage hend)
    | maxPages => exact absurd rfl (hcall.maxPages hend)
  · rintro ⟨hend, hnil⟩
    rw [markEmpty_of_ne (hcall.lastPage hend)]
    exact ⟨hcall.complete, hnil⟩

theorem trCallOutcome_requestCapture (runner : KiwoomTrRunner) (request : TrRequest) (maxPages : Int)
    (exchanges : List PageExchange) :
    TrCallOutcome request (some (pageLimit maxPages)) exchanges runner.sentRequestCount
      (runner.requestCapture request maxPages exchanges).2 := by
  have hcall := loop_from_start request (some (pageLimit maxPages)) exchanges runner
  have hresult : (runner.requestCapture request maxPages exchanges).2 =
      markEmpty request (closeCapture request maxPages
        (pageLoop request (some (pageLimit maxPages)) exchanges runner request.names 0).2.1
        (pageLoop request (some (pageLimit maxPages)) exchanges runner request.names 0).2.2) := rfl
  rw [hresult]
  generalize pageLoop request (some (pageLimit maxPages)) exchanges runner request.names 0 =
    out at hcall
  obtain ⟨runner', result, loopEnd⟩ := out
  cases loopEnd with
  | lastPage =>
    refine trCallOutcome_of_loop hcall (bare_markEmpty request result) ?_
    have hmark : markEmpty request result = result := markEmpty_of_ne (hcall.lastPage rfl)
    show (markEmpty request result).complete = true ∧ (markEmpty request result).errors = [] ↔
      LoopEnd.lastPage = .lastPage ∧ result.errors = []
    rw [hmark]
    exact and_congr_left fun _ => iff_of_true hcall.complete rfl
  | noPage =>
    refine trCallOutcome_of_loop hcall (bare_markEmpty request _) ?_
    exact iff_of_false (fun h => Bool.false_ne_true (complete_markEmpty h.1)) fun h => by cases h.1
  | maxPages =>
    refine trCallOutcome_of_loop hcall (bare_markEmpty request _) ?_
    exact iff_of_false (fun h => Bool.false_ne_true (complete_markEmpty h.1)) fun h => by cases h.1

/-! ## Runs -/

theorem stepOwnPages_iff (runner : KiwoomTrRunner) (step : Step) :
    runner.StepOwnPages step ↔ runner.StepUndisturbed step := by
  cases step with
  | signal signal => exact Iff.rfl
  | requestPages request exchanges =>
    exact (trCallOutcome_requestPages runner request exchanges).ownPages_iff
  | requestCapture request maxPages exchanges =>
    exact (trCallOutcome_requestCapture runner request maxPages exchanges).ownPages_iff

/-- In every run of requests and signals, from any state of the runner, the results hold their
own pages iff the signals that the requests take do not disturb them. -/
theorem own_pages_iff (runner : KiwoomTrRunner) (run : List Step) :
    machine.Guarded StepOwnPages runner run ↔ machine.Guarded StepUndisturbed runner run := by
  apply Machine.guarded_iff_guarded (I := fun _ => True)
  · exact fun _ _ _ _ => trivial
  · exact fun runner step _ => stepOwnPages_iff runner step
  · trivial

/-! ## A fixed run -/

def balanceUnanswered : Step :=
  .requestPages { trCode := "opw00018", rqName := "balance" } [{ polls := [[], []] }]

def openOrders : TrRequest where
  trCode := "opt10075"
  rqName := "open orders"

/-- The late answer comes while the open orders are asked for. -/
def lateBalance : List PageExchange :=
  [{ polls := [[], [{ info := { rqName := "balance", trCode := "opw00018" }, age := some 1 }]] }]

/-- The balance is returned as the open orders. -/
theorem late_answer_in_next_result :
    ¬ machine.Guarded StepOwnPages {} [balanceUnanswered, .requestPages openOrders lateBalance] := by
  rintro ⟨-, ⟨hforeign, -⟩, -⟩
  have hanswers : ((machine.next {} balanceUnanswered).requestPages openOrders
      lateBalance).2.pages.map (·.answers) = [some 1] := by decide +kernel
  obtain ⟨page, hpages, hanswer⟩ := map_eq_singleton_iff.mp hanswers
  have hmem : page ∈ ((machine.next {} balanceUnanswered).requestPages openOrders
      lateBalance).2.pages := by
    rw [hpages]
    exact mem_singleton_self page
  have hfirst := (hforeign page hmem 1 hanswer).1
  have hsent : (machine.next {} balanceUnanswered).sentRequestCount = 1 := by decide +kernel
  omega

end KiwoomTrRunner

end TradingCore.Kiwoom
