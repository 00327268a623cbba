import NpServers.EnvTable
import NpServers.ServerProcess
import NpServers.ShellInput

namespace NpServers.Shell

open CStrings DescriptorTable

/-!
# The loop of `main` in the single-process server

One round of `main` in `np_single_proc.c`: `select` reports the descriptors that
are ready, `accept` takes one new client, and every ready client is served in the
order of the descriptors.  Serving reads the bytes of the client, switches the
environment to it, runs `run_shell` and writes what the server itself writes: the
messages, the answers of the built-in commands and the prompt.

What `select`, `accept` and `read` return is the input of a round.  Where the
program has undefined behaviour there is no next state: a null pointer or a text
that leaves its buffer, a number that indexes the client list out of bounds, a
client without a slot, a freed array or node.
-/

/-- `struct sockaddr_in`, as `inet_ntoa` and `ntohs` show it. -/
structure SockaddrIn where
  sinAddr : String
  sinPort : Nat
  deriving Repr, DecidableEq

/-- The address and the port in a message. -/
def SockaddrIn.peer (address : SockaddrIn) : String :=
  address.sinAddr ++ ":" ++ toString address.sinPort

/-- The text of `print_welcome_msg`. -/
def welcomeMsg : String :=
  "****************************************\n" ++
    "** Welcome to the information server. **\n" ++
    "****************************************\n"

/-- What one call of `write` sends to a client. -/
inductive Written where
  | welcome
  | prompt
  | announcement (text : String)
  | answer (text : String)
  deriving Repr, DecidableEq

/-- The bytes of the call. -/
def Written.text : Written → String
  | welcome => welcomeMsg
  | prompt => "% "
  | announcement text => text
  | answer text => text

/--
The variables of `main` and what the process shares with them: the tables, the
environment, `connection_infor` of each slot, and the texts written so far with
the connection each was written to.
-/
structure MainLoop where
  server : Server
  environ : Environ
  envVars : List EnvVar
  envId : Nat
  connectionInfor : Nat → SockaddrIn
  activeFdSet : Int → Bool
  written : List (Nat × Written)

/-- The descriptor of the listening socket. -/
def msockfd : Int :=
  3

/-- What `select`, `accept` and the calls of `read` return in one round. -/
structure Round where
  incoming : Option SockaddrIn
  received : Int → Option (List Char)
  outside : Int → Outside

namespace MainLoop

/-- The program when it enters its loop. -/
def initial (environ : Environ) : MainLoop where
  server := .initial
  environ := environ
  envVars := initialEnvVar
  envId := 0
  connectionInfor := fun _ => { sinAddr := "0.0.0.0", sinPort := 0 }
  activeFdSet := fun fd => decide (fd = msockfd)
  written := []

/-! ## Writing -/

/-- `write` on the socket of a client. -/
def writeTo
    (sockfd : Int)
    (what : Written)
    (loop : MainLoop) : MainLoop :=
  match loop.server.fds.file sockfd with
  | some (.socket connection) =>
      { loop with written := loop.written ++ [(connection, what)] }
  | _ => loop

/-- `write` on the socket of the current client. -/
def reply
    (text : String)
    (loop : MainLoop) : MainLoop :=
  loop.writeTo loop.server.sockfd (.answer text)

/-- `broadcast`. -/
def broadcast
    (msg : String)
    (loop : MainLoop) : MainLoop :=
  clientIds.foldl
    (fun loop i =>
      if (loop.server.client.list i).state then
        loop.writeTo (loop.server.client.list i).sockfd (.announcement msg)
      else
        loop)
    loop

/-- The calls of `write` behind a message about user pipes. -/
def writeMessage
    (loop : MainLoop)
    (message : Message) : MainLoop :=
  match message.notice with
  | .received .. | .piped .. => loop.broadcast message.text
  | _ =>
      message.sockets.foldl
        (fun loop sockfd => loop.writeTo sockfd (.answer message.text)) loop

/-! ## The commands of the server itself -/

/-- One line of `cmd_who`. -/
def whoLine
    (loop : MainLoop)
    (i : Nat) : String :=
  toString i ++ "    " ++ (loop.server.client.list i).name ++ "    " ++
    (loop.connectionInfor i).peer ++
    (if loop.server.client.id = i then "    <-me" else "") ++ "\n"

/-- The text of `cmd_who`. -/
def whoMsg (loop : MainLoop) : String :=
  "<ID>    <nickname>    <IP:port>    <indicate me>\n" ++
    String.join
      ((clientIds.filter fun i => (loop.server.client.list i).state).map
        loop.whoLine)

/-- `set_env`. -/
def setEnv
    (name value : String)
    (id : Nat)
    (overwrite : Bool)
    (loop : MainLoop) : MainLoop :=
  { loop with
    environ := setenv loop.environ name value overwrite
    envVars := setEnvVar name value id loop.envVars }

/-- The branch of `env_setting` for `printenv`. -/
def printEnv
    (name : String)
    (loop : MainLoop) : MainLoop :=
  match loop.environ name with
  | some output =>
      if output ≠ "" then (loop.reply output).reply "\n" else loop
  | none => loop

/-- The texts that the functions find in the client list. -/
def view (loop : MainLoop) : ShellInput.ClientView where
  id := loop.server.client.id
  state := fun i =>
    decide (0 ≤ i ∧ i ≤ maxClientNum) &&
      (loop.server.client.list i.toNat).state
  name := fun i => (loop.server.client.list i.toNat).name.toList

/-- `run_shell` on the tables and descriptors. -/
def run
    (input : Input)
    (outside : Outside)
    (loop : MainLoop) : MainLoop :=
  { loop with server := loop.server.runShell input outside }

/-- The call of `single_cmd` or `ordinary_pipe`, if it reads no slot outside. -/
def inputOf : SplitCall → Option Input
  | .singleCmd arguments =>
      if 0 ≤ arguments.userInId ∧ 0 ≤ arguments.userOutId then
        some (.single arguments.command)
      else
        none
  | .ordinaryPipe _ arguments =>
      if stages : 2 ≤ arguments.command.cmdNum then
        if 0 ≤ arguments.userInId ∧ 0 ≤ arguments.userOutId then
          some (.pipeline arguments.command stages)
        else
          none
      else
        none
  | _ => none

/-- A message is written by `broadcast` when the line is a `yell`. -/
def spoken
    (received text : List Char) : Written :=
  if (tokens ShellInput.isBlank (ShellInput.lineOf received)).head? =
      some "yell".toList then
    .announcement (String.ofList text)
  else
    .answer (String.ofList text)

/-- What the commands of a line do. -/
def obey
    (received : List Char)
    (outside : Outside)
    (loop : MainLoop) :
    ShellInput.Reply → Option MainLoop
  | .sent messages =>
      some
        (messages.foldl
          (fun loop message =>
            loop.writeTo (loop.server.client.list message.1.toNat).sockfd
              (spoken received message.2))
          (loop.run .talk outside))
  | .refused text => some ((loop.run .talk outside).reply (String.ofList text))
  | .nameExists name =>
      some
        ((loop.run (.name (String.ofList name)) outside).reply
          (nameExistsMsg (String.ofList name)))
  | .named name =>
      some
        ((loop.run (.name (String.ofList name)) outside).broadcast
          (namedMsg (loop.connectionInfor loop.server.client.id).peer
            (String.ofList name)))
  | .listed => some ((loop.run .builtin outside).reply loop.whoMsg)
  | .variableSet name value =>
      some
        ((loop.run .builtin outside).setEnv (String.ofList name)
          (String.ofList value) loop.server.client.id true)
  | .variableRead name =>
      some ((loop.run .builtin outside).printEnv (String.ofList name))
  | .runs call =>
      (inputOf call).map fun input =>
        let ran := loop.run input outside
        (ran.server.sent.drop loop.server.sent.length).foldl writeMessage ran

/-- The input starts with the byte that ends the session. -/
def endsSession (received : List Char) : Bool :=
  (ShellInput.inputBuffer received).head? = some (Char.ofNat 4)

/-- `read` has left a zero byte behind what it stored, unless nobody looks. -/
def Terminated (received : List Char) : Prop :=
  received.length < maxInputLen ∨ endsSession received = true

instance Terminated.decidable
    (received : List Char) :
    Decidable (Terminated received) :=
  inferInstanceAs (Decidable (_ ∨ _))

/-- The id of `tell` is in the table, and other lines fit the arrays. -/
def inBounds (received : List Char) : Bool :=
  match tokens ShellInput.isBlank (ShellInput.lineOf received) with
  | [] => true
  | word :: rest =>
      if word = "tell".toList then
        rest.head?.all fun id => decide (0 ≤ atoi id ∧ atoi id ≤ maxClientNum)
      else
        decide (word = "yell".toList) ||
          (stringSplit (ShellInput.lineOf received)).inside

/-- `run_shell`; the flag says that it returns -1. -/
def runShell
    (received : List Char)
    (outside : Outside)
    (loop : MainLoop) : Option (MainLoop × Bool) :=
  if Terminated received then
    match ShellInput.runShell loop.view received with
    | .error _ => none
    | .ok .logout =>
        some
          (if endsSession received then
            loop
          else
            { loop with server := loop.server.countDown }, true)
    | .ok .blank => some (loop, false)
    | .ok (.handled reply) =>
        if inBounds received then
          (loop.obey received outside reply).map fun ran => (ran, false)
        else
          none
  else
    none

/-! ## A round -/

/-- The part of `main` for a new client. -/
def login
    (clientAddr : SockaddrIn)
    (loop : MainLoop) : MainLoop :=
  let ssockfd := loop.server.fds.lowestFree
  let minId := loop.server.main.minId
  let accepted : MainLoop :=
    { loop with
      server := loop.server.login
      activeFdSet := Function.update loop.activeFdSet ssockfd true
      connectionInfor := Function.update loop.connectionInfor minId clientAddr }
  (((accepted.writeTo ssockfd .welcome).setEnv "PATH" "bin:." minId false).broadcast
    (loginMsg (accepted.server.client.list minId).name clientAddr.peer)).writeTo
      ssockfd .prompt

/-- `client.id = fd_id_list[fd]`, and the environment follows. -/
def enter
    (fd : Int)
    (loop : MainLoop) : MainLoop :=
  let id := (loop.server.main.fdIdList fd).toNat
  let entered := { loop with server := loop.server.enter fd }
  if id = loop.envId then
    entered
  else
    { entered with
      envId := id
      environ := renewEnvVar loop.envVars id loop.environ }

/-- The part of `main` for a client that leaves. -/
def logout
    (fd : Int)
    (loop : MainLoop) : Option MainLoop :=
  if loop.server.dangling then
    none
  else
    (deleteEnvVar loop.envId loop.envVars).map fun remaining =>
      let left : MainLoop :=
        { loop with
          server := loop.server.logout fd
          activeFdSet := Function.update loop.activeFdSet fd false }
      { left.broadcast (logoutMsg loop.server.self.name) with
        envVars := remaining }

/-- The body of the loop over the descriptors, for one that is ready. -/
def serve
    (round : Round)
    (loop : MainLoop)
    (fd : Int) : Option MainLoop :=
  if loop.server.connected fd then
    match (loop.enter fd).runShell ((round.received fd).getD [])
        (round.outside fd) with
    | some (ran, true) => ran.logout fd
    | some (ran, false) => some (ran.writeTo fd .prompt)
    | none => none
  else
    none

/-- The part of `main` for the listening socket. -/
def accept
    (totalFdNum : Nat)
    (round : Round)
    (loop : MainLoop) : MainLoop :=
  match round.incoming with
  | some clientAddr =>
      if loop.server.main.clientNum < maxClientNum then
        -- `accept` fails when no descriptor is left
        if loop.server.fds.lowestFree < totalFdNum then
          loop.login clientAddr
        else
          loop
      else
        loop
  | none => loop

/-- The clients in `read_fd_set`, in the order of the loop. -/
def ready
    (totalFdNum : Nat)
    (round : Round)
    (loop : MainLoop) : List Int :=
  ((List.range totalFdNum).map Int.ofNat).filter fun fd =>
    decide (fd ≠ msockfd) && (loop.activeFdSet fd && (round.received fd).isSome)

/-- One round of the loop. -/
def step
    (totalFdNum : Nat)
    (loop : MainLoop)
    (round : Round) : Option MainLoop :=
  (loop.ready totalFdNum round).foldlM (serve round)
    (loop.accept totalFdNum round)

end MainLoop

/-- A round of the loop, or the end of a command in between. -/
inductive MainAction where
  | round (round : Round)
  | childExits (index : Nat)

namespace MainLoop

/-- The program after an action. -/
def act
    (totalFdNum : Nat)
    (loop : MainLoop) :
    MainAction → Option MainLoop
  | .round round => loop.step totalFdNum round
  | .childExits index =>
      some { loop with server := loop.server.exitChild index }

/-- The step relation of `main`. -/
def Steps
    (totalFdNum : Nat)
    (loop : MainLoop)
    (action : MainAction)
    (next : MainLoop) : Prop :=
  loop.act totalFdNum action = some next

end MainLoop

end NpServers.Shell
