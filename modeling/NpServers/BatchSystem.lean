import NpServers.ConsoleProcess
import NpServers.HttpRequest

namespace NpServers.BatchSystem

open Console
open CStrings
open Http
open TransitionPath

/-!
# From a submitted form to the page

The panel submits its form as the query of a request.  `http_server.cpp` stores
the query in the environment of the program it forks, `console.cpp` takes the
sessions from there and prints their page.

The variables of the request line can be those of another session by the time of
the fork.  The query cannot: the handler that forks the program stores it again,
from its own session.
-/

/-! ## The query of a forked program -/

/-- Every program has been forked with the query and the path of its own request. -/
def ForksOwnQuery (server : HttpServer) : Prop :=
  ∀ fork ∈ server.forks,
    ∃ words,
      parseRequest fork.session.request = some words ∧
        fork.environment.queryString = queryString words.uri ∧
        execFile words.uri = some fork.execFile

theorem ForksOwnQuery.step
    {server next : HttpServer}
    {event : HttpEvent}
    (own : ForksOwnQuery server)
    (consistent : server.Consistent)
    (stepped : server.Step event next) :
    ForksOwnQuery next := by
  cases event with
  | accept id endpoints =>
      obtain ⟨_, rfl⟩ := stepped
      exact own
  | readDone id request =>
      obtain ⟨session, words, _, _, _, rfl⟩ := stepped
      exact own
  | writeDone id =>
      obtain ⟨session, file, query, isSession, writes, isFile, isQuery, rfl⟩ :=
        stepped
      intro fork member
      change fork ∈ server.forks ++ [_] at member
      rw [List.mem_append, List.mem_singleton] at member
      rcases member with old | rfl
      · exact own fork old
      · obtain ⟨words, isParsed, isUri⟩ := consistent.parsed id session isSession writes
        rw [isUri] at isFile isQuery
        exact ⟨words, isParsed, isQuery.symm, isFile⟩
  | fails id =>
      obtain ⟨session, _, _, rfl⟩ := stepped
      exact own

/-- In every run of the server, whatever its sessions do at the same time. -/
theorem forksOwnQuery_run
    {environment : Environment}
    {path : List (HttpEvent × HttpServer)}
    (isPath : Path HttpServer.Step (.start environment) path) :
    ForksOwnQuery (lastState (.start environment) path) := by
  have everywhere :
      EveryState (fun server => server.Consistent ∧ ForksOwnQuery server)
        (.start environment) path := by
    refine isPath.everyState ?_ ⟨HttpServer.consistent_start environment, ?_⟩
    · intro server event next holds stepped
      exact ⟨holds.1.step stepped, holds.2.step holds.1 stepped⟩
    · intro fork member
      cases member
  exact everywhere.last.2

/-! ## The page of the form -/

variable {Endpoint : Type}

/--
The console of a form prints nothing if no row of the form has a host.
Otherwise it prints a page with one header and one cell for each row that has
one, exactly when these rows have no `<` in their hosts and ports.
-/
def OpensPage
    (form : Form)
    (result : Option (Launched Endpoint)) : Prop :=
  ∃ launched,
    result = some launched ∧
      (form.filledRows = [] → launched = .exits) ∧
      (form.filledRows ≠ [] →
        (pageHeaders launched.cout = form.filledRows.map FormRow.address ∧
            pageCells launched.cout = htmlIds.take form.filledRows.length ↔
          ∀ row ∈ form.filledRows, '<' ∉ row.address))

theorem launch_opensPage
    (surroundings : Surroundings Endpoint)
    (form : Form)
    (socksServer : SocksServerInfor) :
    OpensPage form
      (some
        (ConsoleProcess.launch surroundings (Sessions.ofRows form.filledRows)
          socksServer)) := by
  refine ⟨_, rfl, ?_, ?_⟩
  · intro none
    unfold ConsoleProcess.launch
    rw [none]
    exact if_pos rfl
  · intro some
    have notEmpty : (Sessions.ofRows form.filledRows).sessionCount ≠ 0 :=
      fun isZero => some (List.length_eq_zero_iff.mp isZero)
    have isCout :
        (ConsoleProcess.launch surroundings (Sessions.ofRows form.filledRows)
          socksServer).cout =
          setHtmlFormat (Sessions.ofRows form.filledRows) := by
      unfold ConsoleProcess.launch
      rw [if_neg notEmpty]
      split
      · rfl
      · rfl
    rw [isCout]
    apply page_readsBack_iff
    exact (List.length_filter_le _ _).trans form.five.le

/-- The tokens of the query of a form, without and with a proxy. -/
theorem tokens_batchQuery (form : Form) :
    tokens (· = '&') form.batchQuery = rowFields form.rows 0 :=
  tokens_intercalate (rowFields_areTokens form.rows 0) (by decide)

theorem tokens_query (form : Form) :
    tokens (· = '&') form.query =
      rowFields form.rows 0 ++ form.proxyFields := by
  refine tokens_intercalate ?_ (by decide)
  intro text member
  rcases List.mem_append.mp member with inRows | inProxy
  · exact rowFields_areTokens form.rows 0 text inRows
  · exact proxyFields_areTokens form text inProxy

theorem rowFields_ne_nil (form : Form) : rowFields form.rows 0 ≠ [] := by
  have five := form.five
  cases isRows : form.rows with
  | nil =>
      rw [isRows] at five
      cases five
  | cons row rest =>
      rw [rowFields_cons]
      exact List.cons_ne_nil _ _

theorem batchQuery_ne_nil (form : Form) : form.batchQuery ≠ [] := by
  intro isEmpty
  have cut := tokens_batchQuery form
  rw [isEmpty, tokens_nil] at cut
  exact rowFields_ne_nil form cut.symm

theorem query_ne_nil (form : Form) : form.query ≠ [] := by
  intro isEmpty
  have cut := tokens_query form
  rw [isEmpty, tokens_nil] at cut
  exact rowFields_ne_nil form (List.append_eq_nil_iff.mp cut.symm).1

/-- The consoles take the sessions of a form from its query. -/
theorem main_batchQuery
    (surroundings : Surroundings Endpoint)
    (form : Form) :
    ConsoleProcess.main surroundings (some form.batchQuery) =
      some
        (ConsoleProcess.launch surroundings (Sessions.ofRows form.filledRows)
          .cleared) := by
  have room : ([] : List FormRow).length + form.rows.length ≤ maxSessionNum :=
    (Nat.zero_add _).trans_le form.five.le
  have isParsed :
      batchParseQueryString form.batchQuery =
        some (Sessions.ofRows form.filledRows) := by
    rw [batchParseQueryString, tokens_batchQuery, ← ofRows_nil,
      batchParseLoop_rows room 0]
    rfl
  unfold ConsoleProcess.main
  simp [isParsed]

theorem proxyMain_query
    (surroundings : Surroundings Endpoint)
    (form : Form) :
    ConsoleProcess.proxyMain surroundings (some form.query) =
      some
        (ConsoleProcess.launch surroundings (Sessions.ofRows form.filledRows)
          form.socksServer) := by
  have room : ([] : List FormRow).length + form.rows.length ≤ maxSessionNum :=
    (Nat.zero_add _).trans_le form.five.le
  have counted : 1 + form.rows.length = 6 := by rw [form.five]; rfl
  have isParsed :
      parseQueryString form.query =
        some (Sessions.ofRows form.filledRows, form.socksServer) := by
    rw [parseQueryString, tokens_query, ← ofRows_nil,
      parseLoop_rows room 0 counted.le, counted]
    exact parseLoop_proxy form _
  unfold ConsoleProcess.proxyMain
  simp [isParsed]

/-- The program of a request has its query, if it is not empty and has no `?`. -/
theorem queryString_run
    {environment : Environment}
    {path : List (HttpEvent × HttpServer)}
    (isPath : Path HttpServer.Step (.start environment) path)
    {fork : Fork}
    (isFork : fork ∈ (lastState (HttpServer.start environment) path).forks)
    {request : Request}
    (isRequest : fork.session.request = request.text) :
    fork.execFile = '.' :: request.path ∧
      (fork.environment.queryString = some request.query ↔
        request.query ≠ [] ∧ '?' ∉ request.query) := by
  obtain ⟨words, isParsed, isQuery, isFile⟩ := forksOwnQuery_run isPath fork isFork
  rw [isRequest] at isParsed
  obtain ⟨_, isUri, _⟩ := request.words_protocol isParsed
  rw [isUri] at isQuery isFile
  rw [isQuery]
  exact ⟨request.execFile_eq isFile, request.queryString_iff⟩

/-- A row that was left empty. -/
def emptyRow : FormRow where
  host := ⟨[], by decide, by decide⟩
  port := ⟨[], by decide, by decide⟩
  file := ⟨[], by decide, by decide⟩

/-- A form with one session. -/
def shortForm : Form where
  rows := [ConsoleProcess.shortRow, emptyRow, emptyRow, emptyRow, emptyRow]
  five := rfl
  proxyHost := ⟨[], by decide, by decide⟩
  proxyPort := ⟨[], by decide, by decide⟩

/-- The request that submits it. -/
def formRequest : Request :=
  { shortRequest with
    path := "/console.cgi".toList
    query := shortForm.batchQuery
    isPath := by decide
    isQuery := by decide }

/-- The words of this request. -/
def formWords : RequestWords where
  method := "GET".toList
  uri := formRequest.target
  protocol := "HTTP/1.1\r".toList
  host := "np\r".toList

/-- The session of this request, before and behind its read. -/
def formReader : Http.Session where
  endpoints := ⟨[], [], [], []⟩
  request := []
  requestUri := []
  phase := .reading

def formWriter : Http.Session :=
  { formReader with
    request := formRequest.text
    requestUri := formRequest.target
    phase := .writing }

/-- The server serves this request. -/
def formPath : List (HttpEvent × HttpServer) :=
  let accepted := idleServer.accept 0 formReader.endpoints
  let hasRead := accepted.handleRead 0 formReader formRequest.text formWords
  [(.accept 0 formReader.endpoints, accepted),
    (.readDone 0 formRequest.text, hasRead),
    (.writeDone 0,
      hasRead.handleWrite 0 formWriter ('.' :: formRequest.path)
        formRequest.query)]

end NpServers.BatchSystem
