import Mathlib.Logic.Function.Basic
import NpServers.CStrings
import NpServers.TransitionPath

namespace NpServers.Http

open NpServers.CStrings NpServers.TransitionPath

/-!
# Sessions of the HTTP server

All sessions of `http_server.cpp` run in one process.  The handler of a read sets
four variables of the environment, and the handler of the write behind it sets
the others and forks the CGI program.  Between the two, handlers of other
sessions may run.

A handler that runs into undefined behaviour (a request with too few words, a
string that does not fit its array, a path without `?`) has no transition.
-/

/-! ## The source functions -/

/-- The variables that the handlers set. -/
structure Environment where
  requestMethod : Option (List Char)
  requestUri : Option (List Char)
  serverProtocol : Option (List Char)
  httpHost : Option (List Char)
  queryString : Option (List Char)
  serverAddr : Option (List Char)
  serverPort : Option (List Char)
  remoteAddr : Option (List Char)
  remotePort : Option (List Char)
deriving DecidableEq, Repr

/-- The end points of a socket, as texts. -/
structure Endpoints where
  serverAddr : List Char
  serverPort : List Char
  remoteAddr : List Char
  remotePort : List Char
deriving DecidableEq, Repr

/-- The words of a request that the handler of the read uses. -/
structure RequestWords where
  method : List Char
  uri : List Char
  protocol : List Char
  host : List Char
deriving DecidableEq, Repr

/-- `http_env` and its elements 0, 1, 2 and 4. -/
def parseRequest (request : List Char) : Option RequestWords := do
  let httpRequest ← bufferString 1024 (Char.ofNat 0) request
  let httpEnv := split (fun symbol => symbol = ' ' ∨ symbol = '\n') httpRequest
  let method ← httpEnv[0]?
  let uri ← httpEnv[1]?
  let uri ← copyInto 1000 uri
  let protocol ← httpEnv[2]?
  let host ← httpEnv[4]?
  some { method := method, uri := uri, protocol := protocol, host := host }

/-- `exec_file` after `strcat`. -/
def execFile (requestUri : List Char) : Option (List Char) := do
  let path ← (tokens (· = '?') requestUri)[0]?
  copyInto 100 ('.' :: path)

/-- The second word of the path. -/
def queryString (requestUri : List Char) : Option (List Char) :=
  (tokens (· = '?') requestUri)[1]?

/-- The operation of a session that is pending. -/
inductive Phase where
  | reading
  | writing
  | closed
deriving DecidableEq, Repr

/-- The members of a session: its socket, the arrays `request` and
`REQUEST_URI`, and its phase. -/
structure Session where
  endpoints : Endpoints
  request : List Char
  requestUri : List Char
  phase : Phase
deriving DecidableEq, Repr

/-- A forked CGI program: its session, and what it is executed with. -/
structure Fork where
  session : Session
  environment : Environment
  execFile : List Char
deriving DecidableEq, Repr

/-- The server process.  `lastRead` is the request that was read last; no handler
uses it. -/
structure HttpServer where
  environment : Environment
  sessions : Nat → Option Session
  forks : List Fork
  lastRead : Option (List Char)

namespace HttpServer

/-- The server before the first connection. -/
def start (environment : Environment) : HttpServer where
  environment := environment
  sessions := fun _ => none
  forks := []
  lastRead := none

/-- A new session. -/
def accept
    (id : Nat)
    (endpoints : Endpoints)
    (server : HttpServer) : HttpServer :=
  { server with
    sessions :=
      Function.update server.sessions id
        (some
          { endpoints := endpoints
            request := []
            requestUri := []
            phase := .reading }) }

/-- The handler of `do_read`. -/
def handleRead
    (id : Nat)
    (session : Session)
    (request : List Char)
    (words : RequestWords)
    (server : HttpServer) : HttpServer :=
  { server with
    environment :=
      { server.environment with
        requestMethod := some words.method
        requestUri := some words.uri
        serverProtocol := some words.protocol
        httpHost := some words.host }
    sessions :=
      Function.update server.sessions id
        (some
          { session with
            request := request
            requestUri := words.uri
            phase := .writing })
    lastRead := some request }

/-- The environment after the handler of `do_write`. -/
def writeEnvironment
    (endpoints : Endpoints)
    (query : List Char)
    (environment : Environment) : Environment :=
  { environment with
    queryString := some query
    serverAddr := some endpoints.serverAddr
    serverPort := some endpoints.serverPort
    remoteAddr := some endpoints.remoteAddr
    remotePort := some endpoints.remotePort }

/-- The handler of `do_write`. -/
def handleWrite
    (id : Nat)
    (session : Session)
    (file query : List Char)
    (server : HttpServer) : HttpServer :=
  let environment :=
    writeEnvironment session.endpoints query server.environment
  { server with
    environment := environment
    sessions :=
      Function.update server.sessions id (some { session with phase := .closed })
    forks :=
      server.forks ++
        [{ session := session, environment := environment, execFile := file }] }

/-- A handler that is called with an error. -/
def close
    (id : Nat)
    (session : Session)
    (server : HttpServer) : HttpServer :=
  { server with
    sessions :=
      Function.update server.sessions id
        (some { session with phase := .closed }) }

end HttpServer

/-- What happens in the event loop. -/
inductive HttpEvent where
  | accept (id : Nat) (endpoints : Endpoints)
  | readDone (id : Nat) (request : List Char)
  | writeDone (id : Nat)
  | fails (id : Nat)
deriving DecidableEq, Repr

/-- A transition of the event loop. -/
def HttpServer.Step
    (server : HttpServer)
    (event : HttpEvent)
    (next : HttpServer) : Prop :=
  match event with
  | .accept id endpoints =>
      server.sessions id = none ∧ next = server.accept id endpoints
  | .readDone id request =>
      ∃ session words,
        server.sessions id = some session ∧ session.phase = .reading ∧
          parseRequest request = some words ∧
          next = server.handleRead id session request words
  | .writeDone id =>
      ∃ session file query,
        server.sessions id = some session ∧ session.phase = .writing ∧
          execFile session.requestUri = some file ∧
          queryString session.requestUri = some query ∧
          next = server.handleWrite id session file query
  | .fails id =>
      ∃ session,
        server.sessions id = some session ∧ session.phase ≠ .closed ∧
          next = server.close id session

/-! ## Environments that belong to a session -/

/-- The environment that the request and the socket of a session give. -/
def Session.ownEnvironment (session : Session) : Option Environment := do
  let words ← parseRequest session.request
  let query ← queryString words.uri
  some
    { requestMethod := some words.method
      requestUri := some words.uri
      serverProtocol := some words.protocol
      httpHost := some words.host
      queryString := some query
      serverAddr := some session.endpoints.serverAddr
      serverPort := some session.endpoints.serverPort
      remoteAddr := some session.endpoints.remoteAddr
      remotePort := some session.endpoints.remotePort }

/-- The executable name that the request of a session gives. -/
def Session.ownExecFile (session : Session) : Option (List Char) := do
  let words ← parseRequest session.request
  execFile words.uri

/-- The program is executed with what its own session gives. -/
def Fork.Own (fork : Fork) : Prop :=
  some fork.environment = fork.session.ownEnvironment ∧
    some fork.execFile = fork.session.ownExecFile

/-- All programs are executed with what their own sessions give. -/
def HttpServer.AllOwn (server : HttpServer) : Prop :=
  ∀ fork ∈ server.forks, fork.Own

/-- Where a program is forked, the request that was read last has the words of
the session's own request. -/
def HttpServer.LastReadAgrees
    (server : HttpServer)
    (event : HttpEvent) : Prop :=
  ∀ id session,
    event = .writeDone id →
    server.sessions id = some session →
      server.lastRead.bind parseRequest = parseRequest session.request

/-- What the handlers keep: the four variables are the words of the request that
was read last, and a writing session has parsed its request. -/
structure HttpServer.Consistent (server : HttpServer) : Prop where
  environment :
    ∀ request, server.lastRead = some request →
      ∃ words,
        parseRequest request = some words ∧
          server.environment.requestMethod = some words.method ∧
          server.environment.requestUri = some words.uri ∧
          server.environment.serverProtocol = some words.protocol ∧
          server.environment.httpHost = some words.host
  parsed :
    ∀ id session, server.sessions id = some session →
      session.phase = .writing →
        ∃ words,
          parseRequest session.request = some words ∧
            session.requestUri = words.uri
  read :
    ∀ id session, server.sessions id = some session →
      session.phase = .writing → ∃ request, server.lastRead = some request

/-! ## One transition -/

namespace HttpServer

variable {server next : HttpServer}

theorem consistent_start
    (environment : Environment) :
    (start environment).Consistent where
  environment := by
    intro request isRead
    cases isRead
  parsed := by
    intro id session isSession
    cases isSession
  read := by
    intro id session isSession
    cases isSession

/-- A session that writes after the update of another kind was there before. -/
theorem writing_of_update
    {sessions : Nat → Option Session}
    {id other : Nat}
    {session otherSession : Session}
    (notWriting : session.phase ≠ .writing)
    (isSession :
      Function.update sessions id (some session) other = some otherSession)
    (writes : otherSession.phase = .writing) :
    sessions other = some otherSession := by
  by_cases same : other = id
  · subst same
    rw [Function.update_self] at isSession
    obtain rfl := Option.some.inj isSession
    exact absurd writes notWriting
  · rwa [Function.update_of_ne same] at isSession

/-- Replacing a session that does not write then keeps the server consistent. -/
theorem Consistent.updateSession
    (consistent : server.Consistent)
    (id : Nat)
    {session : Session}
    (notWriting : session.phase ≠ .writing)
    (environment : Environment)
    (sameFour :
      environment.requestMethod = server.environment.requestMethod ∧
        environment.requestUri = server.environment.requestUri ∧
        environment.serverProtocol = server.environment.serverProtocol ∧
        environment.httpHost = server.environment.httpHost)
    (forks : List Fork) :
    Consistent
      { server with
        environment := environment
        sessions := Function.update server.sessions id (some session)
        forks := forks } := by
  obtain ⟨sameMethod, sameUri, sameProtocol, sameHost⟩ := sameFour
  refine ⟨?_, ?_, ?_⟩
  · intro request isRead
    obtain ⟨words, isParsed, isMethod, isUri, isProtocol, isHost⟩ :=
      consistent.environment request isRead
    exact
      ⟨words, isParsed, sameMethod.trans isMethod, sameUri.trans isUri,
        sameProtocol.trans isProtocol, sameHost.trans isHost⟩
  · intro other otherSession isSession writes
    exact consistent.parsed other otherSession
      (writing_of_update notWriting isSession writes) writes
  · intro other otherSession isSession writes
    exact consistent.read other otherSession
      (writing_of_update notWriting isSession writes) writes

theorem Consistent.handleRead
    (consistent : server.Consistent)
    (id : Nat)
    (session : Session)
    {request : List Char}
    {words : RequestWords}
    (isParsed : parseRequest request = some words) :
    (server.handleRead id session request words).Consistent := by
  refine ⟨?_, ?_, ?_⟩
  · intro other isRead
    obtain rfl := Option.some.inj isRead
    exact ⟨words, isParsed, rfl, rfl, rfl, rfl⟩
  · intro other otherSession isSession writes
    unfold HttpServer.handleRead at isSession
    dsimp only at isSession
    by_cases same : other = id
    · subst same
      rw [Function.update_self] at isSession
      obtain rfl := Option.some.inj isSession
      exact ⟨words, isParsed, rfl⟩
    · rw [Function.update_of_ne same] at isSession
      exact consistent.parsed other otherSession isSession writes
  · intro _ _ _ _
    exact ⟨request, rfl⟩

theorem Consistent.step
    {event : HttpEvent}
    (consistent : server.Consistent)
    (stepped : server.Step event next) :
    next.Consistent := by
  cases event with
  | accept id endpoints =>
      obtain ⟨_, rfl⟩ := stepped
      refine
        consistent.updateSession id ?_ server.environment ⟨rfl, rfl, rfl, rfl⟩
          server.forks
      simp
  | readDone id request =>
      obtain ⟨session, words, _, _, isParsed, rfl⟩ := stepped
      exact consistent.handleRead id session isParsed
  | writeDone id =>
      obtain ⟨session, file, query, _, _, _, _, rfl⟩ := stepped
      refine
        consistent.updateSession id ?_
          (writeEnvironment session.endpoints query server.environment)
          ⟨rfl, rfl, rfl, rfl⟩ _
      simp
  | fails id =>
      obtain ⟨session, _, _, rfl⟩ := stepped
      refine
        consistent.updateSession id ?_ server.environment ⟨rfl, rfl, rfl, rfl⟩
          server.forks
      simp

/-- A forked program gets what its own session gives exactly if the request that
was read last has the words of the session's own request. -/
theorem Consistent.fork_own_iff
    (consistent : server.Consistent)
    {id : Nat}
    {session : Session}
    {file query : List Char}
    (isSession : server.sessions id = some session)
    (writes : session.phase = .writing)
    (isFile : execFile session.requestUri = some file)
    (isQuery : queryString session.requestUri = some query) :
    Fork.Own
        { session := session
          environment :=
            writeEnvironment session.endpoints query server.environment
          execFile := file } ↔
      server.lastRead.bind parseRequest = parseRequest session.request := by
  obtain ⟨words, isParsed, isUri⟩ :=
    consistent.parsed id session isSession writes
  obtain ⟨request, isRead⟩ := consistent.read id session isSession writes
  obtain ⟨last, lastParsed, sameMethod, sameUri, sameProtocol, sameHost⟩ :=
    consistent.environment request isRead
  rw [isUri] at isFile isQuery
  have ownFile : session.ownExecFile = some file := by
    simp [Session.ownExecFile, isParsed, isFile]
  unfold Fork.Own Session.ownEnvironment writeEnvironment
  rw [ownFile, isRead, isParsed, Option.bind_some, lastParsed]
  simp only [Option.bind_eq_bind, Option.bind_some, isQuery, and_true,
    Option.some.injEq, Environment.mk.injEq, sameMethod, sameUri, sameProtocol,
    sameHost]
  constructor
  · rintro ⟨isMethod, isUri, isProtocol, isHost⟩
    cases last
    cases words
    simp_all
  · rintro rfl
    exact ⟨rfl, rfl, rfl, rfl⟩

/-- One transition keeps that all programs get what their sessions give, exactly
if it meets the condition. -/
theorem Consistent.allOwn_step_iff
    {event : HttpEvent}
    (consistent : server.Consistent)
    (allOwn : server.AllOwn)
    (stepped : server.Step event next) :
    next.AllOwn ↔ server.LastReadAgrees event := by
  have unchanged
      (sameForks : next.forks = server.forks)
      (noFork : ∀ id, event ≠ .writeDone id) :
      next.AllOwn ↔ server.LastReadAgrees event := by
    unfold AllOwn
    rw [sameForks]
    exact ⟨fun _ id _ isFork => absurd isFork (noFork id), fun _ => allOwn⟩
  cases event with
  | accept id endpoints =>
      obtain ⟨_, rfl⟩ := stepped
      exact unchanged rfl fun _ => by simp
  | readDone id request =>
      obtain ⟨session, words, _, _, _, rfl⟩ := stepped
      exact unchanged rfl fun _ => by simp
  | fails id =>
      obtain ⟨session, _, _, rfl⟩ := stepped
      exact unchanged rfl fun _ => by simp
  | writeDone id =>
      obtain ⟨session, file, query, isSession, writes, isFile, isQuery, rfl⟩ :=
        stepped
      have own := consistent.fork_own_iff isSession writes isFile isQuery
      constructor
      · intro allOwnNext other otherSession isEvent isOther
        cases isEvent
        rw [isSession] at isOther
        cases isOther
        exact own.mp (allOwnNext _ (List.mem_append_right _ (List.mem_singleton_self _)))
      · intro agrees fork member
        rcases List.mem_append.mp member with earlier | isNew
        · exact allOwn fork earlier
        · rw [List.mem_singleton] at isNew
          rw [isNew]
          exact own.mpr (agrees id session rfl isSession)

/-- In every run, all CGI programs get what their own sessions give exactly if at
each fork the request that was read last has the words of the own request. -/
theorem cgi_own_iff
    {environment : Environment}
    {path : List (HttpEvent × HttpServer)}
    (isPath : Path Step (start environment) path) :
    EveryState AllOwn (start environment) path ↔
      EveryStep LastReadAgrees (start environment) path := by
  refine
    Path.everyState_iff_everyStep ?_ ?_ (consistent_start environment) ?_ isPath
  · intro server event next consistent stepped
    exact consistent.step stepped
  · intro server event next consistent allOwn stepped
    exact consistent.allOwn_step_iff allOwn stepped
  · intro fork member
    exact absurd member List.not_mem_nil

end HttpServer

/-! ## Two sessions -/

/-- The end points of a connection on the local host. -/
def localEndpoints (remotePort : List Char) : Endpoints where
  serverAddr := "127.0.0.1".toList
  serverPort := "80".toList
  remoteAddr := "127.0.0.1".toList
  remotePort := remotePort

/-- The request for the console of a user. -/
def consoleRequest : List Char :=
  "GET /console.cgi?h0=a HTTP/1.1\nHost: np1".toList

/-- The request of another user. -/
def panelRequest : List Char :=
  "GET /panel.cgi?s=1 HTTP/1.1\nHost: np2".toList

/-- An environment without the variables. -/
def emptyEnvironment : Environment where
  requestMethod := none
  requestUri := none
  serverProtocol := none
  httpHost := none
  queryString := none
  serverAddr := none
  serverPort := none
  remoteAddr := none
  remotePort := none

/-- The first session before its read. -/
def firstSession : Session where
  endpoints := localEndpoints "4001".toList
  request := []
  requestUri := []
  phase := .reading

/-- The first session between its two handlers. -/
def waitingSession : Session :=
  { firstSession with
    request := consoleRequest
    requestUri := "/console.cgi?h0=a".toList
    phase := .writing }

/-- The words of the first request. -/
def consoleWords : RequestWords where
  method := "GET".toList
  uri := "/console.cgi?h0=a".toList
  protocol := "HTTP/1.1".toList
  host := "np1".toList

/-- The words of the other request. -/
def panelWords : RequestWords where
  method := "GET".toList
  uri := "/panel.cgi?s=1".toList
  protocol := "HTTP/1.1".toList
  host := "np2".toList

/-- The server after the read of the first session. -/
def readServer : HttpServer :=
  ((HttpServer.start emptyEnvironment).accept 1 firstSession.endpoints).handleRead 1
    firstSession consoleRequest consoleWords

/-- The first session reads, and its program is forked at once. -/
def alonePath : List (HttpEvent × HttpServer) :=
  [(.accept 1 firstSession.endpoints,
      (HttpServer.start emptyEnvironment).accept 1 firstSession.endpoints),
    (.readDone 1 consoleRequest, readServer),
    (.writeDone 1,
      readServer.handleWrite 1 waitingSession "./console.cgi".toList
        "h0=a".toList)]

theorem parseRequest_console :
    parseRequest consoleRequest = some consoleWords := by
  decide

theorem parseRequest_panel :
    parseRequest panelRequest = some panelWords := by
  decide

theorem tokens_console :
    tokens (· = '?') waitingSession.requestUri =
      ["/console.cgi".toList, "h0=a".toList] :=
  @tokens_intercalate _ (· = '?') ["/console.cgi".toList, "h0=a".toList]
    (by simp) '?' (by decide)

theorem execFile_console :
    execFile waitingSession.requestUri = some "./console.cgi".toList := by
  rw [execFile, tokens_console]
  rfl

theorem queryString_console :
    queryString waitingSession.requestUri = some "h0=a".toList := by
  rw [queryString, tokens_console]
  rfl

theorem cgi_own_alone :
    EveryState HttpServer.AllOwn (HttpServer.start emptyEnvironment) alonePath := by
  have isPath :
      Path HttpServer.Step (HttpServer.start emptyEnvironment) alonePath :=
    ⟨⟨rfl, rfl⟩,
      ⟨firstSession, consoleWords, rfl, rfl, parseRequest_console, rfl⟩,
      ⟨waitingSession, _, _, rfl, rfl, execFile_console, queryString_console,
        rfl⟩,
      trivial⟩
  refine (HttpServer.cgi_own_iff isPath).mpr ⟨?_, ?_, ?_, trivial⟩
  · intro id session isWrite
    cases isWrite
  · intro id session isWrite
    cases isWrite
  · intro id session isWrite isSession
    cases isWrite
    obtain rfl := Option.some.inj isSession
    rfl

/-- The server after the second session has read as well. -/
def overwrittenServer : HttpServer :=
  (readServer.accept 2 (localEndpoints "4002".toList)).handleRead 2
    { firstSession with endpoints := localEndpoints "4002".toList }
    panelRequest panelWords

/-- The second session reads before the program of the first one is forked. -/
def overwrittenPath : List (HttpEvent × HttpServer) :=
  [(.accept 1 firstSession.endpoints,
      (HttpServer.start emptyEnvironment).accept 1 firstSession.endpoints),
    (.readDone 1 consoleRequest, readServer),
    (.accept 2 (localEndpoints "4002".toList),
      readServer.accept 2 (localEndpoints "4002".toList)),
    (.readDone 2 panelRequest, overwrittenServer),
    (.writeDone 1,
      overwrittenServer.handleWrite 1 waitingSession "./console.cgi".toList
        "h0=a".toList)]

/-- The program of the first session gets the URI and the host of the second. -/
theorem cgi_of_other_request :
    Path HttpServer.Step (HttpServer.start emptyEnvironment) overwrittenPath ∧
      ¬ (lastState (HttpServer.start emptyEnvironment) overwrittenPath).AllOwn := by
  constructor
  · exact
      ⟨⟨rfl, rfl⟩,
        ⟨firstSession, consoleWords, rfl, rfl, parseRequest_console, rfl⟩,
        ⟨rfl, rfl⟩,
        ⟨_, panelWords, rfl, rfl, parseRequest_panel, rfl⟩,
        ⟨waitingSession, _, _, rfl, rfl, execFile_console, queryString_console,
          rfl⟩,
        trivial⟩
  · intro allOwn
    have own := (allOwn _ List.mem_cons_self).1
    have ownEnvironment :
        waitingSession.ownEnvironment.bind Environment.requestUri =
          some consoleWords.uri := by
      have isQuery : queryString consoleWords.uri = some "h0=a".toList :=
        queryString_console
      have isParsed : parseRequest waitingSession.request = some consoleWords :=
        parseRequest_console
      simp [Session.ownEnvironment, isParsed, isQuery]
    have shared :=
      congrArg (fun environment => environment.bind Environment.requestUri) own
    have different : some panelWords.uri = some consoleWords.uri :=
      shared.trans ownEnvironment
    exact absurd different (by decide)

end NpServers.Http
