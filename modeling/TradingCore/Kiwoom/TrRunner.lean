import TradingCore.Base.Dict
import TradingCore.Base.Machine
import TradingCore.Base.Text

/-!
# Requests of several pages

`KiwoomTrRunner` of `kiwoom/tr.py` sends one page request after another and waits for each
answer. The answers come as signals while the request is sent and while events are processed; the
handler puts the page into the one slot `_pending_page`, for whatever request is active.

What happens outside the runner is input: which signals each wait brings until its deadline,
what the client answers when it is read, the code with which a request is sent. A signal also
says which page request it answers, which the program cannot see. The inputs of a request, its
screen, `parser_metadata` and the client's other exceptions are left out.
-/

namespace TradingCore.Kiwoom

open Base Text

/-! ## Answers -/

structure TrResponseMeta where
  screenNo : String := ""
  rqName : String := ""
  trCode : String := ""
  recordName : String := ""
  prevNext : String := ""
  errorCode : String := ""
  message : String := ""
  splmMsg : String := ""

namespace TrResponseMeta

variable (info : TrResponseMeta)

def continues : Bool := strip info.prevNext = "2"

def accepted : Bool := strip info.errorCode ∈ ["", "0"]

end TrResponseMeta

/-- What the client answers to `get_repeat_count` and `get_comm_data` while a signal is
handled. -/
structure CommData where
  getRepeatCount : (trCode recordName : String) → Except String Int := fun _ _ => .ok 0
  getCommData : (trCode recordName : String) → (index : Nat) → (fieldName : String) →
    Except String String := fun _ _ _ _ => .ok ""

/-- A `tr_data_received` signal. `age` is the page request that it answers, counted back from
the latest one; a request that this runner did not send has a greater age or none. -/
structure TrSignal where
  info : TrResponseMeta
  comm : CommData := {}
  age : Option Nat := none

/-- The number of the page request that a signal answers when `latest` have been sent. -/
def TrSignal.number (signal : TrSignal) (latest : Nat) : Option Nat :=
  signal.age.bind fun age => if age < latest then some (latest - age) else none

/-- `TrPage`, with the number of the page request that it answers. -/
structure TrPage where
  info : TrResponseMeta
  single : Dict String String := Dict.empty
  rows : List (Dict String String) := []
  answers : Option Nat := none

structure TrRequestResult where
  trCode : String := ""
  rqName : String := ""
  pages : List TrPage := []
  requestCount : Nat := 0
  warnings : List String := []
  errors : List String := []
  complete : Bool := true

/-! ## Reading an answer -/

def recordCandidates (result : TrRequestResult) (info : TrResponseMeta) : List String :=
  distinct id [info.rqName, result.rqName, info.recordName, result.trCode,
    upper result.trCode, lower result.trCode]

def readCode (result : TrRequestResult) (info : TrResponseMeta) : String :=
  if info.trCode = "" then result.trCode else info.trCode

namespace TrSignal

variable (signal : TrSignal) (result : TrRequestResult)

def repeated : Option (String × Nat) :=
  (recordCandidates result signal.info).findSome? fun recordName =>
    match signal.comm.getRepeatCount (readCode result signal.info) recordName with
    | .ok count => if 0 < count then some (recordName, count.toNat) else none
    | .error _ => none

/-- The records whose rows cannot be counted, with the reasons. -/
def countFailures : List String :=
  (recordCandidates result signal.info).filterMap fun recordName =>
    match signal.comm.getRepeatCount (readCode result signal.info) recordName with
    | .ok _ => none
    | .error reason => some (recordName ++ ":" ++ reason)

/-- The error of `_repeat_count`. -/
def countError : Option String :=
  if signal.repeated result = none ∧ signal.countFailures result ≠ [] then
    some ("TR_REPEAT_COUNT_FAILED:" ++ result.trCode ++ ":" ++ result.rqName ++ ":" ++
      ";".intercalate (signal.countFailures result))
  else none

/-- `_repeat_count`, without its error. -/
def repeatCount : String × Nat :=
  (signal.repeated result).getD ((recordCandidates result signal.info).head?.getD result.rqName, 0)

/-- A field of a row; one that cannot be read is empty. -/
def field (recordName : String) (index : Nat) (fieldName : String) : String :=
  match signal.comm.getCommData (readCode result signal.info) recordName index fieldName with
  | .ok value => strip value
  | .error _ => ""

def row (recordName : String) (index : Nat) (fields : List String) : Dict String String :=
  fields.foldl (fun row fieldName => row.set fieldName (signal.field result recordName index
    fieldName)) Dict.empty

/-- The fields of a row that cannot be read, after `tag`. -/
def readFailures (tag recordName : String) (index : Nat) (fields : List String) : List String :=
  fields.filterMap fun fieldName =>
    match signal.comm.getCommData (readCode result signal.info) recordName index fieldName with
    | .ok _ => none
    | .error reason => some (tag ++ ":" ++ fieldName ++ ":" ++ reason)

/-- `_extract_single_row`: the first record with a value in its first row, and the warnings. -/
def extractSingleRow (fields : List String) :
    List String → Option (String × Dict String String) × List String
  | [] => (none, [])
  | recordName :: later =>
      let row := signal.row result recordName 0 fields
      let warnings := signal.readFailures result
        ("TR_SINGLE_FIELD_READ_FAILED:" ++ result.trCode ++ ":" ++ recordName) recordName 0 fields
      if row.entries.any (·.2 ≠ "") then (some (recordName, row), warnings)
      else
        let found := extractSingleRow fields later
        (found.1, warnings ++ found.2)

/-- `_extract_rows`: the rows and the warnings. -/
def extractRows (fields : List String) : List (Dict String String) × List String :=
  let (recordName, repeatCount) := signal.repeatCount result
  let rows := (List.range repeatCount).map fun index =>
    signal.row result recordName index fields
  let warnings := (List.range repeatCount).flatMap fun index =>
    signal.readFailures result ("TR_FIELD_READ_FAILED:" ++ result.trCode) recordName index fields
  if rows ≠ [] then (rows, warnings)
  else
    match signal.extractSingleRow result fields (recordCandidates result signal.info) with
    | (some (found, row), more) =>
        -- the name of the record is kept in the row under this name for a while
        ([row.filter fun name _ => name ≠ "_record_name"],
          warnings ++ more ++ ["TR_SINGLE_ROW_FALLBACK:" ++ result.trCode ++ ":" ++
            result.rqName ++ ":record=" ++ (if found = "" then "-" else found)])
    | (none, more) =>
        ([], warnings ++ more ++ ["TR_PAGE_EMPTY:" ++ result.trCode ++ ":" ++ result.rqName ++
          ":record=" ++ (if recordName = "" then "-" else recordName) ++ ":event_record=" ++
          (if signal.info.recordName = "" then "-" else signal.info.recordName)])

/-- A single value under the first record that has one: the value, the last record that was
read and the last reason why one was not. -/
def singleValue (fieldName : String) :
    List String → (value recordName lastError : String) → String × String × String
  | [], value, recordName, lastError => (value, recordName, lastError)
  | candidate :: later, value, recordName, lastError =>
      match signal.comm.getCommData (readCode result signal.info) candidate 0 fieldName with
      | .ok raw =>
          if strip raw ≠ "" then (strip raw, candidate, lastError)
          else singleValue fieldName later "" candidate lastError
      | .error reason => singleValue fieldName later value recordName reason

/-- `_extract_single` of the remaining fields: the values and the warnings. -/
def extractSingleFrom : List String → (recordName : String) → (single : Dict String String) →
    (warnings : List String) → Dict String String × List String
  | [], _, single, warnings => (single, warnings)
  | fieldName :: later, recordName, single, warnings =>
      let (value, recordName, lastError) := signal.singleValue result fieldName
        (recordCandidates result signal.info) "" recordName ""
      extractSingleFrom later recordName (single.set fieldName value)
        (if lastError ≠ "" ∧ value = "" then
          warnings ++ ["TR_SINGLE_FIELD_READ_FAILED:" ++ result.trCode ++ ":" ++ recordName ++
            ":" ++ fieldName ++ ":" ++ lastError]
        else warnings)

def extractSingle (fields : List String) : Dict String String × List String :=
  signal.extractSingleFrom result fields
    ((recordCandidates result signal.info).head?.getD result.rqName) Dict.empty []

end TrSignal

/-! ## The runner -/

structure TrRequest where
  trCode : String
  rqName : String
  fields : List String := []
  singleFields : List String := []

/-- `_active_request`. The result is the object that the request builds. -/
structure ActiveRequest where
  result : TrRequestResult
  fields : List String
  singleFields : List String

structure KiwoomTrRunner where
  pendingPage : Option TrPage := none
  activeRequest : Option ActiveRequest := none
  sentRequestCount : Nat := 0

/-- What happens around one page request: the signals that are handled while it is sent, the
code with which it is sent, and the signals of each poll until the deadline. -/
structure PageExchange where
  sending : List TrSignal := []
  resultCode : Int := 0
  polls : List (List TrSignal) := []

namespace KiwoomTrRunner

/-- `_handle_tr_data` when `latest` page requests have been sent. -/
def handleTrData (latest : Nat) (runner : KiwoomTrRunner) (signal : TrSignal) : KiwoomTrRunner :=
  match runner.activeRequest with
  | none =>
      { runner with
        pendingPage := some { info := signal.info, answers := signal.number latest } }
  | some request =>
      let (rows, rowWarnings) := signal.extractRows request.result request.fields
      let (single, singleWarnings) := signal.extractSingle request.result request.singleFields
      { runner with
        pendingPage := some
          { info := signal.info, single, rows, answers := signal.number latest }
        activeRequest := some { request with
          result := { request.result with
            warnings := request.result.warnings ++ rowWarnings ++ singleWarnings
            errors := request.result.errors ++ (signal.countError request.result).toList } } }

def wait (latest : Nat) (runner : KiwoomTrRunner) : List (List TrSignal) → KiwoomTrRunner
  | [] => runner
  | burst :: later =>
      if runner.pendingPage.isSome then runner
      else wait latest (burst.foldl (handleTrData latest) runner) later

/-- `_request_page`: the runner and the result afterwards, and the page if there is one. -/
def requestPage (runner : KiwoomTrRunner) (result : TrRequestResult) (request : TrRequest)
    (prevNext : Int) (exchange : PageExchange) :
    KiwoomTrRunner × TrRequestResult × Option TrPage :=
  let latest := runner.sentRequestCount + 1
  let started : KiwoomTrRunner := { runner with
    pendingPage := none
    activeRequest := some
      { result, fields := request.fields, singleFields := request.singleFields } }
  let sent := exchange.sending.foldl (handleTrData latest) started
  let name := request.trCode ++ ":" ++ request.rqName
  if exchange.resultCode < 0 then
    let result := (sent.activeRequest.map (·.result)).getD result
    ({ sent with sentRequestCount := latest, activeRequest := none },
      { result with
        requestCount := result.requestCount + 1
        errors := result.errors ++
          ["TR_REQUEST_FAILED:" ++ name ++ ":" ++ toString exchange.resultCode] },
      none)
  else
    let waited := wait latest { sent with sentRequestCount := latest } exchange.polls
    let result := (waited.activeRequest.map (·.result)).getD result
    let counted := { result with requestCount := result.requestCount + 1 }
    match waited.pendingPage with
    | none =>
        ({ waited with activeRequest := none },
          { counted with
            errors := counted.errors ++ ["TR_TIMEOUT:" ++ name ++ ":" ++ toString prevNext] },
          none)
    | some page =>
        ({ waited with pendingPage := none, activeRequest := none },
          { counted with
            warnings := counted.warnings ++
              if page.info.trCode ≠ "" ∧
                  lower page.info.trCode ≠ lower request.trCode then
                ["TR_CODE_MISMATCH:" ++ request.trCode ++ ":" ++ page.info.trCode]
              else []
            errors := counted.errors ++
              if page.info.accepted then []
              else ["TR_RESPONSE_ERROR:" ++ name ++ ":" ++ page.info.errorCode ++ ":" ++
                page.info.message] },
          some page)

/-- How the loop over the pages ends. -/
inductive LoopEnd
  | lastPage
  | noPage
  | maxPages

/-- The loop over the pages, with at most `limit` of them. When nothing more is known of what
happens, the next page request is not answered. -/
def pageLoop (request : TrRequest) (limit : Option Nat) :
    List PageExchange → KiwoomTrRunner → TrRequestResult → Int →
      KiwoomTrRunner × TrRequestResult × LoopEnd
  | exchanges, runner, result, prevNext =>
      if limit.any (· ≤ result.pages.length) then (runner, result, .maxPages)
      else
        match exchanges with
        | [] =>
            let (runner, result, _) := runner.requestPage result request prevNext {}
            (runner, result, .noPage)
        | exchange :: later =>
            match runner.requestPage result request prevNext exchange with
            | (runner, result, none) => (runner, result, .noPage)
            | (runner, result, some page) =>
                let result := { result with pages := result.pages ++ [page] }
                if page.info.continues then pageLoop request limit later runner result 2
                else (runner, result, .lastPage)

def markEmpty (request : TrRequest) (result : TrRequestResult) : TrRequestResult :=
  if result.pages = [] then
    { result with
      warnings := result.warnings ++ ["TR_EMPTY:" ++ request.trCode ++ ":" ++ request.rqName]
      complete := false }
  else result

def requestPages (runner : KiwoomTrRunner) (request : TrRequest) (exchanges : List PageExchange) :
    KiwoomTrRunner × TrRequestResult :=
  let (runner, result, _) := pageLoop { request with singleFields := [] } none exchanges runner
    { trCode := request.trCode, rqName := request.rqName } 0
  (runner, markEmpty request result)

/-- `max(1, int(max_pages or 20))`. -/
def pageLimit (maxPages : Int) : Nat := (max 1 (if maxPages = 0 then 20 else maxPages)).toNat

def closeCapture (request : TrRequest) (maxPages : Int) (result : TrRequestResult) :
    LoopEnd → TrRequestResult
  | .lastPage => result
  | .noPage => { result with complete := false }
  | .maxPages =>
      { result with
        complete := false
        warnings := result.warnings ++ ["TR_MAX_PAGES_REACHED:" ++ request.trCode ++ ":" ++
          request.rqName ++ ":" ++ toString maxPages] }

def requestCapture (runner : KiwoomTrRunner) (request : TrRequest) (maxPages : Int)
    (exchanges : List PageExchange) : KiwoomTrRunner × TrRequestResult :=
  let (runner, result, loopEnd) := pageLoop request (some (pageLimit maxPages)) exchanges runner
    { trCode := request.trCode, rqName := request.rqName } 0
  (runner, markEmpty request (closeCapture request maxPages result loopEnd))

/-- What happens to a runner: a signal between two requests, or a request with all that
happens meanwhile. -/
inductive Step
  | signal (signal : TrSignal)
  | requestPages (request : TrRequest) (exchanges : List PageExchange)
  | requestCapture (request : TrRequest) (maxPages : Int) (exchanges : List PageExchange)

/-- The runner as a machine that tells the results of its requests. -/
def machine : Machine KiwoomTrRunner Step (Option TrRequestResult) where
  step runner step :=
    match step with
    | .signal signal => (runner.handleTrData runner.sentRequestCount signal, none)
    | .requestPages request exchanges =>
        ((runner.requestPages request exchanges).1, some (runner.requestPages request exchanges).2)
    | .requestCapture request maxPages exchanges =>
        ((runner.requestCapture request maxPages exchanges).1,
          some (runner.requestCapture request maxPages exchanges).2)

end KiwoomTrRunner

end TradingCore.Kiwoom
