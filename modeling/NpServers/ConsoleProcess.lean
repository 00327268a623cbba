import NpServers.BrowserDocument
import NpServers.ConsolePage
import NpServers.ConsoleProxy
import NpServers.InterleavedRuns
import NpServers.SocksRequest

namespace NpServers.Console

open InterleavedRuns
open MarkupText
open TransitionPath

/-!
# The console process

`main` of `console.cpp` parses the query string, prints the page and starts one
client object for each session; from then on the event loop calls their
handlers, in any order, and all of them print to the same `std::cout`.

A handler is a step.  There is no step where a handler leaves its arrays or
throws: a read that fills the buffer without a NUL, and a request to the proxy
that does not fit or whose port is no number.  The results of the resolver and
the lines of the input files are parameters; a file that cannot be opened has no
line.
-/

/-! ## A client object from its start on -/

/-- Where a client object is, before the handlers of its dialogue are called. -/
inductive Stage (Endpoint : Type) where
  | connecting (endpoint : Endpoint) (later : List Endpoint)
  | sending
  | talking
deriving DecidableEq, Repr

/-- A client object. -/
structure Connection (Endpoint : Type) where
  htmlId : List Char
  connectProxy : Bool
  proxyDestDomainName : List Char
  proxyDestPort : List Char
  stage : Stage Endpoint
  client : Client
deriving DecidableEq, Repr

/-- The handlers, with the result of the operation that ended. -/
inductive Callback where
  | handleConnect (succeeds : Bool)
  | handleSendSocks4a (succeeds : Bool)
  | handleRead (received : Option (List Char))
  | handleWrite (succeeds : Bool)
deriving DecidableEq, Repr

namespace Connection

variable {Endpoint : Type}

/-- `stop`. -/
def stop (connection : Connection Endpoint) : Connection Endpoint :=
  { connection with stage := .talking, client := connection.client.stop }

/--
`start_connect`.  The iterator over the endpoints of the proxy is compared with
the end of `endpoints_`, which is the end of every range.
-/
def startConnect
    (connection : Connection Endpoint) :
    List Endpoint → Connection Endpoint
  | [] => connection.stop
  | endpoint :: later =>
      { connection with stage := .connecting endpoint later }

/-- `start`. -/
def start
    (endpoints : List Endpoint)
    (hId : List Char)
    (lines : List (List Char)) : Connection Endpoint :=
  startConnect
    { htmlId := hId
      connectProxy := false
      proxyDestDomainName := []
      proxyDestPort := []
      stage := .talking
      client := Client.start lines }
    endpoints

/-- `start_proxy`. -/
def startProxy
    (endpointsP : List Endpoint)
    (entry : ClientInfor)
    (lines : List (List Char)) : Connection Endpoint :=
  startConnect
    { htmlId := entry.htmlId
      connectProxy := true
      proxyDestDomainName := entry.host
      proxyDestPort := entry.port
      stage := .talking
      client := Client.startProxy lines }
    endpointsP

/-- The request that `make_socks4a_request` leaves in its array. -/
def socks4aRequest (connection : Connection Endpoint) : Socks.Socks4aRequest :=
  Socks.makeSocks4aRequest
    (connection.proxyDestDomainName.map fun symbol => UInt8.ofNat symbol.toNat)
    connection.proxyDestPort

/-- `std::stoi` finds a number, and the name fits into the array. -/
def encodes (connection : Connection Endpoint) : Bool :=
  (connection.proxyDestPort.head?.any Char.isDigit) &&
    decide connection.socks4aRequest.Inside

/-- `handle_connect`. -/
def handleConnect
    (succeeds : Bool)
    (later : List Endpoint)
    (connection : Connection Endpoint) : Option (Connection Endpoint) :=
  if succeeds then
    if connection.connectProxy then
      if connection.encodes then some { connection with stage := .sending }
      else none
    else
      some { connection with stage := .talking }
  else
    some (connection.startConnect later)

/-- `handle_send_socks4a`. -/
def handleSendSocks4a
    (succeeds : Bool)
    (connection : Connection Endpoint) : Connection Endpoint :=
  if succeeds then { connection with stage := .talking } else connection.stop

/--
`handle_receive_socks4`, or `handle_read` with its calls of `print_output` and
`print_command`.
-/
def handleRead
    (chunk : List Char)
    (connection : Connection Endpoint) :
    Option (Connection Endpoint × List Print) :=
  match connection.client.phase with
  | .replying =>
      some
        ({ connection with
            client := connection.client.handleReceiveSocks4 chunk }, [])
  | .reading =>
      match dataString chunk with
      | none => none
      | some data =>
          some
            ({ connection with client := connection.client.handleRead chunk },
              .output data ::
                if '%' ∈ data then
                  [.command (cutLine connection.client.getline)]
                else
                  [])
  | _ => none

/-- `handle_write`. -/
def handleWrite
    (succeeds : Bool)
    (connection : Connection Endpoint) : Option (Connection Endpoint) :=
  if connection.client.phase = .writing then
    some
      (if succeeds then
        { connection with client := connection.client.handleWrite }
      else
        connection.stop)
  else
    none

/-- The object after a handler, and what the handler prints. -/
def call
    (connection : Connection Endpoint) :
    Callback → Option (Connection Endpoint × List Print)
  | .handleConnect succeeds =>
      match connection.stage with
      | .connecting _ later =>
          (connection.handleConnect succeeds later).map fun next => (next, [])
      | _ => none
  | .handleSendSocks4a succeeds =>
      match connection.stage with
      | .sending => some (connection.handleSendSocks4a succeeds, [])
      | _ => none
  | .handleRead received =>
      match connection.stage, received with
      | .talking, some chunk =>
          if chunk ≠ [] ∧ chunk.length ≤ maxLength then
            connection.handleRead chunk
          else
            none
      | .talking, none =>
          if connection.client.phase = .replying ∨
              connection.client.phase = .reading then
            some (connection.stop, [])
          else
            none
      | _, _ => none
  | .handleWrite succeeds =>
      match connection.stage with
      | .talking => (connection.handleWrite succeeds).map fun next => (next, [])
      | _ => none

/-- A handler, with the id under which it prints. -/
def act
    (connection : Connection Endpoint)
    (callback : Callback) :
    Option (Connection Endpoint × List (List Char × Print)) :=
  (connection.call callback).map fun result =>
    (result.1, result.2.map fun print => (connection.htmlId, print))

end Connection

/-! ## The process -/

/-- What the process finds outside: the resolver and the input files. -/
structure Surroundings (Endpoint : Type) where
  resolve : List Char → List Char → Option (List Endpoint)
  lines : List Char → List (List Char)

/-- The client objects, and what has been written to `std::cout`. -/
structure ConsoleProcess (Endpoint : Type) where
  connections : List (Connection Endpoint)
  cout : List Char

/-- What `main` comes to before the event loop runs. -/
inductive Launched (Endpoint : Type) where
  | exits
  | thrown (cout : List Char)
  | running (process : ConsoleProcess Endpoint)

/-- What `main` has printed before the event loop runs. -/
def Launched.cout
    {Endpoint : Type} :
    Launched Endpoint → List Char
  | .exits => []
  | .thrown cout => cout
  | .running process => process.cout

namespace ConsoleProcess

variable {Endpoint : Type}

/-- The body of the loop in `main` that starts the client objects. -/
def openConnection
    (surroundings : Surroundings Endpoint)
    (socksServer : SocksServerInfor)
    (entry : ClientInfor) : Option (Connection Endpoint) :=
  let lines := surroundings.lines entry.fileName
  if socksServer.connectProxy then
    (surroundings.resolve socksServer.host socksServer.port).map
      fun endpoints => Connection.startProxy endpoints entry lines
  else
    (surroundings.resolve entry.host entry.port).map
      fun endpoints => Connection.start endpoints entry.htmlId lines

/--
`main` behind `parse_query_string`, up to the event loop.  When the resolver
throws, the event loop does not run at all.
-/
def launch
    (surroundings : Surroundings Endpoint)
    (sessions : Sessions)
    (socksServer : SocksServerInfor) : Launched Endpoint :=
  if sessions.sessionCount = 0 then
    .exits
  else
    match
      (sessions.list.take sessions.sessionCount).mapM
        (openConnection surroundings socksServer)
    with
    | none => .thrown (setHtmlFormat sessions)
    | some connections =>
        .running { connections := connections, cout := setHtmlFormat sessions }

/-- `main` of the console without a proxy; the variable must be set. -/
def main
    (surroundings : Surroundings Endpoint)
    (queryString : Option (List Char)) : Option (Launched Endpoint) := do
  let queryString ← queryString
  let sessions ← batchParseQueryString queryString
  return launch surroundings sessions SocksServerInfor.cleared

/-- `main` of the console with a proxy. -/
def proxyMain
    (surroundings : Surroundings Endpoint)
    (queryString : Option (List Char)) : Option (Launched Endpoint) := do
  let queryString ← queryString
  let (sessions, socksServer) ← parseQueryString queryString
  return launch surroundings sessions socksServer

/-- The texts of some calls that print. -/
def printed (prints : List (List Char × Print)) : List Char :=
  prints.flatMap fun entry => entry.2.text entry.1

/-- The event loop calls a handler of one client object. -/
def step
    (process : ConsoleProcess Endpoint)
    (event : Nat × Callback) : Option (ConsoleProcess Endpoint) :=
  match process.connections[event.1]? with
  | none => none
  | some connection =>
      match connection.act event.2 with
      | none => none
      | some (next, prints) =>
          some
            { connections := process.connections.set event.1 next
              cout := process.cout ++ printed prints }

/-- One call that is possible. -/
def Steps
    (process : ConsoleProcess Endpoint)
    (event : Nat × Callback)
    (next : ConsoleProcess Endpoint) : Prop :=
  process.step event = some next

end ConsoleProcess

/-! ## What a handler does -/

/-- What the handler has read is shown as it is. -/
def Callback.SafeRead : Callback → Prop
  | .handleRead (some chunk) =>
      ∀ data, dataString chunk = some data → SafeOutput data
  | _ => True

namespace Connection

variable {Endpoint : Type}
variable {connection after : Connection Endpoint}
variable {callback : Callback}
variable {prints : List Print}

/-- Nothing is shown, sent or read from the file. -/
structure Quiet (connection after : Connection Endpoint) : Prop where
  htmlId : after.htmlId = connection.htmlId
  client : ∃ phase, after.client = { connection.client with phase := phase }

theorem quiet_stage (stage : Stage Endpoint) :
    connection.Quiet { connection with stage := stage } where
  htmlId := rfl
  client := ⟨connection.client.phase, rfl⟩

theorem quiet_stop : connection.Quiet connection.stop where
  htmlId := rfl
  client := ⟨.stopped, rfl⟩

theorem quiet_startConnect (endpoints : List Endpoint) :
    connection.Quiet (connection.startConnect endpoints) := by
  cases endpoints with
  | nil => exact quiet_stop
  | cons endpoint later => exact quiet_stage (.connecting endpoint later)

theorem quiet_handleConnect
    {succeeds : Bool}
    {later : List Endpoint}
    (called : connection.handleConnect succeeds later = some after) :
    connection.Quiet after := by
  unfold handleConnect at called
  split_ifs at called
  · cases called
    exact quiet_stage .sending
  · cases called
    exact quiet_stage .talking
  · cases called
    exact quiet_startConnect later

theorem quiet_handleReceiveSocks4 (chunk : List Char) :
    connection.Quiet
      { connection with
        client := connection.client.handleReceiveSocks4 chunk } where
  htmlId := rfl
  client := by
    change
      ∃ phase,
        connection.client.handleReceiveSocks4 chunk =
          { connection.client with phase := phase }
    unfold Client.handleReceiveSocks4
    split_ifs
    · exact ⟨.reading, rfl⟩
    · exact ⟨.stopped, rfl⟩

theorem quiet_handleWrite
    {succeeds : Bool}
    (called : connection.handleWrite succeeds = some after) :
    connection.Quiet after := by
  unfold handleWrite at called
  split_ifs at called
  · cases called
    exact ⟨rfl, .reading, rfl⟩
  · cases called
    exact quiet_stop

/--
What a handler does: it prints nothing and leaves the texts of the client, or it
is `handle_read` on received output.
-/
theorem call_cases
    (called : connection.call callback = some (after, prints)) :
    (prints = [] ∧ connection.Quiet after) ∨
      ∃ chunk data,
        callback = .handleRead (some chunk) ∧
          dataString chunk = some data ∧
          after =
            { connection with client := connection.client.handleRead chunk } ∧
          prints =
            .output data ::
              if '%' ∈ data then
                [.command (cutLine connection.client.getline)]
              else
                [] := by
  cases callback with
  | handleConnect succeeds =>
      left
      simp only [call] at called
      split at called
      · obtain ⟨next, isNext, same⟩ := Option.map_eq_some_iff.mp called
        cases same
        exact ⟨rfl, quiet_handleConnect isNext⟩
      · cases called
  | handleSendSocks4a succeeds =>
      left
      simp only [call] at called
      split at called
      · cases called
        refine ⟨rfl, ?_⟩
        unfold handleSendSocks4a
        split_ifs
        · exact quiet_stage .talking
        · exact quiet_stop
      · cases called
  | handleRead received =>
      simp only [call] at called
      split at called
      · rename_i chunk _
        split_ifs at called
        unfold handleRead at called
        split at called
        · cases called
          exact Or.inl ⟨rfl, quiet_handleReceiveSocks4 chunk⟩
        · split at called
          · cases called
          · rename_i data isData
            cases called
            exact Or.inr ⟨chunk, data, rfl, isData, rfl, rfl⟩
        · cases called
      · split_ifs at called
        cases called
        exact Or.inl ⟨rfl, quiet_stop⟩
      · cases called
  | handleWrite succeeds =>
      left
      simp only [call] at called
      split at called
      · obtain ⟨next, isNext, same⟩ := Option.map_eq_some_iff.mp called
        cases same
        exact ⟨rfl, quiet_handleWrite isNext⟩
      · cases called

/-- What a handler has printed is what the client has shown and sent by it. -/
theorem call_prints
    (called : connection.call callback = some (after, prints)) :
    after.htmlId = connection.htmlId ∧
      after.client.shown =
        connection.client.shown ++ shownText (prints.map Print.shown) ∧
      after.client.sent =
        connection.client.sent ++ shownCommands (prints.map Print.shown) := by
  rcases call_cases called with
    ⟨rfl, isQuiet⟩ | ⟨chunk, data, rfl, isData, rfl, rfl⟩
  · obtain ⟨phase, isClient⟩ := isQuiet.client
    rw [isClient]
    simp [isQuiet.htmlId, shownText, shownCommands]
  · refine ⟨rfl, ?_⟩
    change
      (connection.client.handleRead chunk).shown = _ ∧
        (connection.client.handleRead chunk).sent = _
    unfold Client.handleRead
    rw [isData]
    by_cases prompts : '%' ∈ data
    · simp only [prompts, if_true, Client.startWrite]
      simp [shownText, shownCommands, Print.shown]
      rfl
    · simp [prompts, shownText, shownCommands, Print.shown]

/-- The lines left in the file of a client object. -/
def LinesLeft
    (allowed : List Char → Prop)
    (connection : Connection Endpoint) : Prop :=
  ∀ line ∈ connection.client.lines, allowed line

theorem call_linesLeft
    {allowed : List Char → Prop}
    (left : connection.LinesLeft allowed)
    (called : connection.call callback = some (after, prints)) :
    after.LinesLeft allowed := by
  rcases call_cases called with
    ⟨_, isQuiet⟩ | ⟨chunk, data, rfl, isData, rfl, _⟩
  · obtain ⟨phase, isClient⟩ := isQuiet.client
    unfold LinesLeft
    rw [isClient]
    exact left
  · intro line member
    change line ∈ (connection.client.handleRead chunk).lines at member
    unfold Client.handleRead at member
    rw [isData] at member
    by_cases prompts : '%' ∈ data
    · simp only [prompts, if_true, Client.startWrite] at member
      split_ifs at member
      · exact left line (List.mem_of_mem_tail member)
      · cases member
    · simp only [prompts, if_false] at member
      exact left line member

/-- A line that `getline` and `strtok` leave as it is, and the browser shows. -/
structure SafeLine (line : List Char) : Prop where
  isInput : IsInputLine line
  isSafe : SafeCommand line

theorem safeLine_nil : SafeLine [] where
  isInput :=
    { noNewline := by simp
      noReturn := by simp
      noNul := by simp
      short := by decide }
  isSafe :=
    { noBackslash := by simp
      noQuote := by simp
      noTerminator := by simp
      noEntity := by decide
      noMarkup := by
        rintro ⟨symbol, _, inside⟩
        simpa using inside.length_le }

/-- The command is the next line of the file, or empty. -/
theorem cutLine_getline
    {client : Client}
    (left : ∀ line ∈ client.lines, SafeLine line) :
    SafeLine (cutLine client.getline) := by
  have isSafe : SafeLine (client.lines.headD []) := by
    cases isLines : client.lines with
    | nil => exact safeLine_nil
    | cons line later => exact left line (isLines ▸ List.mem_cons_self)
  have isLine : client.getline = client.lines.headD [] := by
    unfold Client.getline
    have short := isSafe.isInput.short
    have noNul := isSafe.isInput.noNul
    generalize client.lines.headD [] = line at *
    rw [List.take_of_length_le (by omega), List.takeWhile_eq_self_iff]
    intro symbol member
    exact decide_eq_true fun isNul => noNul (isNul ▸ member)
  rw [isLine, cutLine_of_plain isSafe.isInput.noReturn isSafe.isInput.noNewline]
  exact isSafe

/-- A handler prints safe texts only. -/
theorem call_safe
    (left : connection.LinesLeft SafeLine)
    (safeRead : callback.SafeRead)
    (called : connection.call callback = some (after, prints)) :
    ∀ print ∈ prints, print.Safe := by
  rcases call_cases called with
    ⟨rfl, _⟩ | ⟨chunk, data, rfl, isData, rfl, rfl⟩
  · intro print member
    cases member
  · have command := cutLine_getline left
    intro print member
    rw [List.mem_cons] at member
    rcases member with rfl | isCommand
    · exact safeRead data isData
    · split_ifs at isCommand
      · rw [List.mem_singleton] at isCommand
        rw [isCommand]
        exact
          ⟨command.isSafe, command.isInput.noNewline, command.isInput.noReturn⟩
      · cases isCommand

/-- What is to be seen of a client object that runs alone. -/
def transcript
    (connection : Connection Endpoint)
    (callbacks : List Callback) : List Shown :=
  match alone Connection.act connection callbacks with
  | none => []
  | some (_, prints) => prints.map fun entry => entry.2.shown

end Connection

/-! ## Runs of the process -/

namespace ConsoleProcess

variable {Endpoint : Type}
variable {page : List Char}
variable {process next : ConsoleProcess Endpoint}
variable {system : System (Connection Endpoint) (List Char × Print)}

/--
The process has the client objects of a system of components, and has printed
its page and then what is in the log.
-/
structure Follows
    (page : List Char)
    (process : ConsoleProcess Endpoint)
    (system : System (Connection Endpoint) (List Char × Print)) : Prop where
  components : system.components = process.connections
  cout : process.cout = page ++ printed (system.log.map Prod.snd)

theorem printed_append (first second : List (List Char × Print)) :
    printed (first ++ second) = printed first ++ printed second :=
  List.flatMap_append

/-- Every call of a handler is a step of the client objects. -/
theorem Follows.step
    {event : Nat × Callback}
    (follows : Follows page process system)
    (stepped : process.Steps event next) :
    ∃ moved,
      System.Steps Connection.act system event moved ∧
        Follows page next moved := by
  unfold Steps ConsoleProcess.step at stepped
  split at stepped
  · cases stepped
  · rename_i connection isConnection
    split at stepped
    · cases stepped
    · rename_i after prints acts
      cases stepped
      refine
        ⟨{ components := system.components.set event.1 after
           log := system.log ++ prints.map fun print => (event.1, print) },
          ?_, ?_⟩
      · unfold System.Steps System.step
        rw [follows.components, isConnection]
        simp only [acts]
      · constructor
        · change system.components.set event.1 after = _
          rw [follows.components]
        · change process.cout ++ printed prints = _
          have isLog :
              (system.log ++ prints.map fun print => (event.1, print)).map
                  Prod.snd =
                system.log.map Prod.snd ++ prints := by
            simp [Function.comp_def]
          rw [isLog, printed_append, follows.cout, List.append_assoc]

/-- A run of the process is a run of its client objects. -/
theorem Follows.run
    {path : List ((Nat × Callback) × ConsoleProcess Endpoint)}
    (isPath : Path Steps process path)
    (follows : Follows page process system) :
    ∃ moves,
      Path (System.Steps Connection.act) system moves ∧
        moves.map Prod.fst = path.map Prod.fst ∧
        Follows page (lastState process path) (lastState system moves) := by
  induction path generalizing process system with
  | nil =>
      exact ⟨[], trivial, rfl, follows⟩
  | cons entry rest inductionHypothesis =>
      obtain ⟨event, next⟩ := entry
      obtain ⟨moved, steps, followsNext⟩ := follows.step isPath.1
      obtain ⟨moves, isMoves, sameEvents, followsLast⟩ :=
        inductionHypothesis isPath.2 followsNext
      refine ⟨(event, moved) :: moves, ⟨steps, isMoves⟩, ?_, followsLast⟩
      rw [List.map_cons, sameEvents]
      rfl

/-- A loop that stops at the first failure has done all of its rounds. -/
theorem mapM_some
    {Entry Result : Type}
    {act : Entry → Option Result}
    {entries : List Entry}
    {results : List Result}
    (isMap : entries.mapM act = some results) :
    results.length = entries.length ∧
      ∀ (index : Nat) (result : Result),
        results[index]? = some result →
        ∃ entry, entries[index]? = some entry ∧ act entry = some result := by
  induction entries generalizing results with
  | nil =>
      rw [List.mapM_nil] at isMap
      obtain rfl := Option.some.inj isMap
      simp
  | cons entry rest inductionHypothesis =>
      rw [List.mapM_cons] at isMap
      obtain ⟨first, isFirst, isRest⟩ := Option.bind_eq_some_iff.mp isMap
      obtain ⟨later, isLater, isResults⟩ := Option.bind_eq_some_iff.mp isRest
      obtain rfl := Option.some.inj isResults
      obtain ⟨sameLength, each⟩ := inductionHypothesis isLater
      refine ⟨by simp [sameLength], ?_⟩
      intro index result isResult
      cases index with
      | zero =>
          obtain rfl := Option.some.inj isResult
          exact ⟨entry, rfl, isFirst⟩
      | succ index => exact each index result isResult

/-- A client object starts with the id and the file of its session. -/
theorem openConnection_some
    {surroundings : Surroundings Endpoint}
    {socksServer : SocksServerInfor}
    {entry : ClientInfor}
    {connection : Connection Endpoint}
    (opened :
      openConnection surroundings socksServer entry = some connection) :
    connection.htmlId = entry.htmlId ∧
      connection.client.lines = surroundings.lines entry.fileName ∧
      connection.client.shown = [] ∧ connection.client.sent = [] := by
  unfold openConnection at opened
  split_ifs at opened
  · obtain ⟨endpoints, _, rfl⟩ := Option.map_eq_some_iff.mp opened
    cases endpoints <;> exact ⟨rfl, rfl, rfl, rfl⟩
  · obtain ⟨endpoints, _, rfl⟩ := Option.map_eq_some_iff.mp opened
    cases endpoints <;> exact ⟨rfl, rfl, rfl, rfl⟩

/-- What a running process has started with. -/
theorem launch_running
    {surroundings : Surroundings Endpoint}
    {sessions : Sessions}
    {socksServer : SocksServerInfor}
    (launched : launch surroundings sessions socksServer = .running process) :
    process.cout = setHtmlFormat sessions ∧
      (sessions.list.take sessions.sessionCount).mapM
          (openConnection surroundings socksServer) =
        some process.connections := by
  unfold launch at launched
  split_ifs at launched
  split at launched
  · cases launched
  · rename_i connections isMap
    cases launched
    exact ⟨rfl, isMap⟩

/-- What a client object has shown and sent alone is what it has printed. -/
theorem alone_prints
    {connection after : Connection Endpoint}
    {callbacks : List Callback}
    {prints : List (List Char × Print)}
    (ran :
      alone Connection.act connection callbacks = some (after, prints)) :
    after.client.shown =
        connection.client.shown ++
          shownText (prints.map fun entry => entry.2.shown) ∧
      after.client.sent =
        connection.client.sent ++
          shownCommands (prints.map fun entry => entry.2.shown) := by
  induction callbacks generalizing connection prints with
  | nil =>
      cases ran
      simp [shownText, shownCommands]
  | cons callback rest inductionHypothesis =>
      unfold alone at ran
      split at ran
      · cases ran
      · rename_i next outputs acts
        obtain ⟨⟨last, later⟩, isRest, same⟩ := Option.map_eq_some_iff.mp ran
        cases same
        obtain ⟨⟨called, texts⟩, isCall, sameCall⟩ :=
          Option.map_eq_some_iff.mp acts
        cases sameCall
        obtain ⟨_, isShown, isSent⟩ := Connection.call_prints isCall
        obtain ⟨restShown, restSent⟩ := inductionHypothesis isRest
        have sameTexts :
            (texts.map fun print => (connection.htmlId, print)).map
                (fun entry => entry.2.shown) =
              texts.map Print.shown := by
          simp [Function.comp_def]
        rw [List.map_append, sameTexts, restShown, restSent, isShown, isSent]
        unfold shownText shownCommands
        simp only [List.flatMap_append, List.append_assoc]
        exact ⟨trivial, trivial⟩

/-- A client object of the session with an index, in a run with safe texts. -/
structure InSession
    (ids : List (List Char))
    (index : Nat)
    (connection : Connection Endpoint) : Prop where
  htmlId : ids[index]? = some connection.htmlId
  left : connection.LinesLeft Connection.SafeLine

/-- A safe text, printed under the id of its session. -/
def InCell
    (ids : List (List Char))
    (index : Nat)
    (entry : List Char × Print) : Prop :=
  ids[index]? = some entry.1 ∧ entry.2.Safe

/-- A handler stays with its session, and prints into its cell only. -/
theorem InSession.act
    {ids : List (List Char)}
    {index : Nat}
    {connection after : Connection Endpoint}
    {callback : Callback}
    {prints : List (List Char × Print)}
    (inSession : InSession ids index connection)
    (safeRead : callback.SafeRead)
    (acts : connection.act callback = some (after, prints)) :
    InSession ids index after ∧ ∀ print ∈ prints, InCell ids index print := by
  obtain ⟨⟨called, texts⟩, isCall, sameCall⟩ := Option.map_eq_some_iff.mp acts
  cases sameCall
  obtain ⟨sameId, _⟩ := Connection.call_prints isCall
  refine ⟨?_, ?_⟩
  · exact
      { htmlId := sameId ▸ inSession.htmlId
        left := Connection.call_linesLeft inSession.left isCall }
  · intro entry member
    obtain ⟨print, isPrint, rfl⟩ := List.mem_map.mp member
    exact
      ⟨inSession.htmlId,
        Connection.call_safe inSession.left safeRead isCall print isPrint⟩

/-- What is in the log under the id of a session is what that session put out. -/
theorem log_of_cell
    {ids : List (List Char)}
    (distinct : ids.Nodup)
    {log : List (Nat × (List Char × Print))}
    (inCells : ∀ entry ∈ log, InCell ids entry.1 entry.2)
    {index : Nat}
    {htmlId : List Char}
    (isId : ids[index]? = some htmlId) :
    ((log.map Prod.snd).map fun entry => (entry.1, entry.2.shown)).filterMap
        (fun entry => if entry.1 = htmlId then some entry.2 else none) =
      (ownOutputs index log).map fun entry => entry.2.shown := by
  induction log with
  | nil =>
      rfl
  | cons entry rest inductionHypothesis =>
      obtain ⟨here, later⟩ := List.forall_mem_cons.mp inCells
      have isRest := inductionHypothesis later
      unfold ownOutputs at isRest ⊢
      by_cases own : entry.1 = index
      · have sameId : entry.2.1 = htmlId := by
          have isEntry := here.1
          rw [own, isId] at isEntry
          exact (Option.some.inj isEntry).symm
        simp [own, sameId, ← isRest]
      · have otherId : entry.2.1 ≠ htmlId := by
          intro same
          have isEntry := here.1
          rw [same, ← isId] at isEntry
          have inside : entry.1 < ids.length :=
            (List.getElem?_eq_some_iff.mp here.1).1
          exact own ((List.getElem?_inj inside distinct).mp isEntry)
        simp [own, otherId, ← isRest]

/-- One session with a file of one line. -/
def shortRow : FormRow where
  host := ⟨"np".toList, by decide, by decide⟩
  port := ⟨"70".toList, by decide, by decide⟩
  file := ⟨"t1.txt".toList, by decide, by decide⟩

/-- Every host has one address, and every file the line `ls`. -/
def shortSurroundings : Surroundings Unit where
  resolve := fun _ _ => some [()]
  lines := fun _ => ["ls".toList]

/-- The console of this session. -/
def shortProcess : ConsoleProcess Unit where
  connections := [Connection.start [()] ['s', '0'] ["ls".toList]]
  cout := setHtmlFormat (Sessions.ofRows [shortRow])

/-- The session connects, is prompted and sends its line. -/
def shortEvents : List (Nat × Callback) :=
  [(0, .handleConnect true), (0, .handleRead (some "% ".toList)),
    (0, .handleWrite true)]

/-- The run of these events. -/
def shortPath : List ((Nat × Callback) × ConsoleProcess Unit) :=
  (trace step shortProcess shortEvents).getD []

end ConsoleProcess

end NpServers.Console
