import NpServers.ClientTable
import NpServers.DescriptorTable
import NpServers.Messages

namespace NpServers.Shell

open CrossPipe DescriptorTable

/-!
# The single-process server with its descriptors and children

`np_single_proc.c` runs all clients in one process.  Every external command is
forked from it, so a child starts with a copy of the server's descriptor table
and closes what it is told to close before `execvp`.  This module models
`run_shell`, `string_split` (after tokenising), `single_cmd`, `ordinary_pipe`
and their helpers on descriptor tables.

A child is kept with the table it has when it calls `execvp`.  Local variables
that the program reads before it writes them are inputs of a line, and so are
the results of `open`.  An id of zero means that `<` or `>` was not given; a
negative id, which indexes the client list out of bounds, is not modelled.
`pipe` never fails: the program repeats the call until it succeeds.
-/

/-- What a descriptor refers to. -/
inductive File where
  | terminal
  | listener
  | socket (connection : Nat)
  | named (path : String)
  | readEnd (pipe : Nat)
  | writeEnd (pipe : Nat)
  deriving Repr, DecidableEq

/-- The descriptor refers to an end of a pipe. -/
def File.pipe? : File → Option Nat
  | .readEnd pipe => some pipe
  | .writeEnd pipe => some pipe
  | _ => none

/-- The arguments of `single_cmd` and `ordinary_pipe` besides the client. -/
structure Command where
  cmd : List (List String)
  cmdReserve : String
  crossNum : Int
  redir : Bool
  userInId : Nat
  userOutId : Nat
  deriving Repr, DecidableEq

/-- `cmd[i][0]`. -/
def Command.word
    (line : Command)
    (i : Nat) : String :=
  ((line.cmd.getD i [])[0]?).getD ""

/-- The stage count that `string_split` passes to `ordinary_pipe`. -/
def Command.cmdNum (line : Command) : Nat :=
  if line.redir then line.cmd.length - 1 else line.cmd.length

/--
What a line finds outside the program: the values of the variables that are not
initialised, and which files can be opened.
-/
structure Outside where
  fd : PipeFds
  pos : Int
  exFd0 : Int
  opens : String → Bool

/-- `fork` returns in the child and in the parent. -/
inductive Side where
  | child
  | parent
  deriving Repr, DecidableEq

/-! ## Operations on descriptor tables -/

/-- `close_cross_pipe_fd`. -/
def closeCrossPipeFd
    (infor : CrossPipe)
    (pos : Int)
    (fds : DescriptorTable File) : DescriptorTable File :=
  infor.closeFdRecord.foldl
    (fun fds (fdPos : Nat) =>
      if pos ≠ fdPos then
        (fds.close (infor.list fdPos).writeFd).close (infor.list fdPos).readFd
      else
        fds)
    fds

/-- `connect_pipe_to_first_process`. -/
def connectPipeToFirstProcess
    (infor : CrossPipe)
    (side : Side)
    (fds : DescriptorTable File) : DescriptorTable File :=
  let block := infor.list infor.outputPoint.toNat
  let written := fds.close block.writeFd
  match side with
  | .child => (written.dup2 block.readFd stdin).close block.readFd
  | .parent => written.close block.readFd

/-- The part of `close_and_connect_fd` for `current != last`. -/
def connectWriteEnd
    (fd : PipeFds)
    (side : Side)
    (fds : DescriptorTable File) : DescriptorTable File :=
  match side with
  | .child => ((fds.close fd.readFd).dup2 fd.writeFd stdout).close fd.writeFd
  | .parent => fds.close fd.writeFd

/-- The part of `close_and_connect_fd` for `current != first`. -/
def connectReadEnd
    (exFd0 : Int)
    (side : Side)
    (fds : DescriptorTable File) : DescriptorTable File :=
  match side with
  | .child => (fds.dup2 exFd0 stdin).close exFd0
  | .parent => fds.close exFd0

/-- `close_and_connect_fd`. -/
def closeAndConnectFd
    (current first last : Nat)
    (fd : PipeFds)
    (exFd0 : Int)
    (side : Side)
    (fds : DescriptorTable File) : DescriptorTable File :=
  let written := if current ≠ last then connectWriteEnd fd side fds else fds
  if current ≠ first then connectReadEnd exFd0 side written else written

/-- `/dev/null`. -/
def devNull : String :=
  "/dev/null"

/--
A file opened in a child, put on a standard stream and closed.  When it cannot
be opened, the child exits with the table it has.
-/
def redirectTo
    (path : String)
    (target : Int)
    (outside : Outside)
    (fds : DescriptorTable File) :
    Except (DescriptorTable File) (DescriptorTable File) :=
  if outside.opens path then
    .ok (fds.redirected (.named path) target)
  else
    .error fds

/-! ## Messages about user pipes -/

/-- What a message says, with the id of the client whose line caused it. -/
inductive Notice where
  | received (id targetId : Nat) (cmd : String)
  | piped (id targetId : Nat) (cmd : String)
  | pipeMissing (id targetId : Nat)
  | pipeExists (id targetId : Nat)
  | noUser (id targetId : Nat)
  | cannotOpen (id : Nat)
  deriving Repr, DecidableEq

namespace Notice

/-- The text of a message. -/
def text
    (client : ClientStructure) :
    Notice → String
  | .received id targetId cmd =>
      receivedMsg (client.list id).name id (client.list targetId).name targetId
        cmd
  | .piped id targetId cmd =>
      pipedMsg (client.list id).name id (client.list targetId).name targetId cmd
  | .pipeMissing id targetId => pipeMissingMsg id targetId
  | .pipeExists id targetId => pipeExistsMsg id targetId
  | .noUser _ targetId => noUserMsg targetId
  | .cannotOpen _ => "Error: can't open file\n"

/-- The sockets a message is written to: `broadcast`, or the own socket. -/
def sockets
    (client : ClientStructure) :
    Notice → List Int
  | .received .. | .piped .. =>
      (clientIds.filter fun i => (client.list i).state).map fun i =>
        (client.list i).sockfd
  | .pipeMissing id _ | .pipeExists id _ | .noUser id _ | .cannotOpen id =>
      [(client.list id).sockfd]

end Notice

/-- A message as it was written. -/
structure Message where
  notice : Notice
  text : String
  sockets : List Int
  deriving Repr, DecidableEq

/-- `print_user_pipe_msg`; `inOut` is false for `<` and true for `>`. -/
def printUserPipeMsg
    (cmd : String)
    (targetId : Nat)
    (mode : Int)
    (inOut : Bool)
    (id : Nat) : Notice :=
  if 0 < mode then
    if !inOut then .received id targetId cmd else .piped id targetId cmd
  else if mode = 0 then
    if !inOut then .pipeMissing id targetId else .pipeExists id targetId
  else
    .noUser id targetId

namespace ClientStructure

/-- The structure with another `cp_infor` of the current client. -/
def setInfor
    (client : ClientStructure)
    (infor : CrossPipe) : ClientStructure where
  id := client.id
  list := Function.update client.list client.id
    { client.list client.id with cpInfor := infor }

/-- The structure with another `list[receiver].user_pipe[sender]`. -/
def setUserPipe
    (client : ClientStructure)
    (receiver sender : Nat)
    (fd : Int) : ClientStructure where
  id := client.id
  list := Function.update client.list receiver
    { client.list receiver with
      userPipe := Function.update (client.list receiver).userPipe sender fd }

/-- The test of every branch that reads from the user pipe of `<`. -/
def userInReady
    (client : ClientStructure)
    (userInId : Nat) : Bool :=
  decide (userInId ≤ maxClientNum) && (client.list userInId).state &&
    decide (0 ≤ (client.list client.id).userPipe userInId)

/-- The test of every branch that creates the user pipe of `>`. -/
def userOutReady
    (client : ClientStructure)
    (userOutId : Nat) : Bool :=
  decide (userOutId ≤ maxClientNum) && (client.list userOutId).state &&
    decide ((client.list userOutId).userPipe client.id < 0)

/-- The test for a user that does not exist. -/
def noUser
    (client : ClientStructure)
    (targetId : Nat) : Bool :=
  decide (maxClientNum < targetId) || !(client.list targetId).state

/-- The part of `print_user_pipe_msg_handler` for `<`. -/
def userInNotice
    (client : ClientStructure)
    (line : Command) : Notice :=
  if client.userInReady line.userInId then
    printUserPipeMsg line.cmdReserve line.userInId 1 false client.id
  else if client.noUser line.userInId then
    printUserPipeMsg "" line.userInId (-1) false client.id
  else
    printUserPipeMsg "" line.userInId 0 false client.id

/-- The part of `print_user_pipe_msg_handler` for `>`. -/
def userOutNotice
    (client : ClientStructure)
    (line : Command) : Notice :=
  if client.userOutReady line.userOutId then
    printUserPipeMsg line.cmdReserve line.userOutId 1 true client.id
  else if client.noUser line.userOutId then
    printUserPipeMsg "" line.userOutId (-1) true client.id
  else
    printUserPipeMsg "" line.userOutId 0 true client.id

/-- `print_user_pipe_msg_handler`. -/
def printUserPipeMsgHandler
    (client : ClientStructure)
    (line : Command) : List Notice :=
  (if line.userInId ≠ 0 then [client.userInNotice line] else []) ++
    (if line.userOutId ≠ 0 then [client.userOutNotice line] else [])

end ClientStructure

/-! ## The server -/

/--
A forked command.  `client`, `stage`, `crossNum`, `pos` and `inherited` record
how it was started: the client, the position in the pipeline, the cross number
of the line, the value of `pos` and the server's table at the fork.  `directed`
is the numbered pipe that the line selects for the output of this command.
-/
structure Child where
  client : Nat
  stage : Nat
  argv : List String
  crossNum : Int
  pos : Int
  inherited : DescriptorTable File
  directed : Option Nat
  fds : DescriptorTable File
  execs : Bool
  alive : Bool

/-- The state of the server process and of the children it has forked. -/
structure Server where
  main : MainState
  fds : DescriptorTable File
  nextPipe : Nat
  nextConnection : Nat
  children : List Child
  sent : List Message

/-- The variables of `single_cmd` and `ordinary_pipe` that outlive a fork. -/
structure Vars where
  fd : PipeFds
  pos : Int
  exFd0 : Int
  deriving Repr, DecidableEq

namespace Server

/-- `client_structure`. -/
def client (server : Server) : ClientStructure :=
  server.main.client

/-- `client->list[client->id]`. -/
def self (server : Server) : ClientInfor :=
  server.client.list server.client.id

/-- `client->list[client->id].cp_infor`. -/
def infor (server : Server) : CrossPipe :=
  server.self.cpInfor

/-- `client->list[client->id].sockfd`. -/
def sockfd (server : Server) : Int :=
  server.self.sockfd

/-- An assignment to the client structure. -/
def setClient
    (server : Server)
    (client : ClientStructure) : Server :=
  { server with main := { server.main with client := client } }

/-- An assignment to `*cp_infor` of the current client. -/
def setInfor
    (server : Server)
    (infor : CrossPipe) : Server :=
  server.setClient (server.client.setInfor infor)

/-- An assignment to `client->list[receiver].user_pipe[sender]`. -/
def setUserPipe
    (server : Server)
    (receiver sender : Nat)
    (fd : Int) : Server :=
  server.setClient (server.client.setUserPipe receiver sender fd)

/-- A message is written. -/
def post
    (server : Server)
    (notice : Notice) : Server :=
  { server with
    sent := server.sent ++
      [{ notice := notice
         text := notice.text server.client
         sockets := notice.sockets server.client }] }

/-- The messages of `print_user_pipe_msg_handler`, if `<` or `>` is given. -/
def announce
    (server : Server)
    (line : Command) : Server :=
  (server.client.printUserPipeMsgHandler line).foldl post server

/-- The descriptors that the next `pipe` returns. -/
def pipeFds (server : Server) : PipeFds where
  readFd := server.fds.lowestFree
  writeFd :=
    (server.fds.openFile (.readEnd server.nextPipe)).lowestFree

/-- `pipe`. -/
def pipe (server : Server) : Server :=
  { server with
    fds :=
      (server.fds.openFile (.readEnd server.nextPipe)).openFile
        (.writeEnd server.nextPipe)
    nextPipe := server.nextPipe + 1 }

/--
The block of `single_cmd` before the fork, which `ordinary_pipe` repeats before
the fork of the last stage.
-/
def openOutput
    (line : Command)
    (vars : Vars)
    (server : Server) : Vars × Server :=
  if line.crossNum ≠ 0 then
    let pos := server.infor.findSameCrossPipe line.crossNum
    if pos < 0 then
      ({ vars with pos := pos, fd := server.pipeFds }, server.pipe)
    else
      ({ vars with pos := pos, fd := server.infor.fdsAt pos }, server)
  else if line.userOutId ≠ 0 ∧ server.client.userOutReady line.userOutId then
    ({ vars with fd := server.pipeFds }, server.pipe)
  else
    (vars, server)

/-! ## The child -/

/-- The first lines of a child, which close the waiting numbered pipes. -/
def childStart
    (server : Server)
    (pos : Int) : DescriptorTable File :=
  if server.infor.dataNum ≠ 0 then
    closeCrossPipeFd server.infor pos server.fds
  else
    server.fds

/-- The standard input of the first command. -/
def childInput
    (line : Command)
    (outside : Outside)
    (server : Server)
    (fds : DescriptorTable File) :
    Except (DescriptorTable File) (DescriptorTable File) :=
  if 0 ≤ server.infor.outputPoint then
    .ok (connectPipeToFirstProcess server.infor .child fds)
  else if line.userInId ≠ 0 then
    if server.client.userInReady line.userInId then
      let userPipe := server.self.userPipe line.userInId
      .ok ((fds.dup2 userPipe stdin).close userPipe)
    else
      redirectTo devNull stdin outside fds
  else
    .ok (fds.dup2 server.sockfd stdin)

/-- The child's branch for a cross number. -/
def childCross
    (line : Command)
    (fd : PipeFds)
    (fds : DescriptorTable File) : DescriptorTable File :=
  let errors :=
    if line.crossNum < 0 then fds.dup2 fd.writeFd stderr else fds
  closeAndConnectFd 0 0 1 fd (-1) .child errors

/-- The child's branch for `>id`. -/
def childUserOut
    (line : Command)
    (outside : Outside)
    (server : Server)
    (fd : PipeFds)
    (fds : DescriptorTable File) :
    Except (DescriptorTable File) (DescriptorTable File) :=
  if server.client.userOutReady line.userOutId then
    .ok (closeAndConnectFd 0 0 1 fd (-1) .child fds)
  else
    redirectTo devNull stdout outside fds

/-- The standard output of the command of `single_cmd`. -/
def singleOutput
    (line : Command)
    (outside : Outside)
    (server : Server)
    (fd : PipeFds)
    (fds : DescriptorTable File) :
    Except (DescriptorTable File) (DescriptorTable File) :=
  if line.crossNum ≠ 0 then
    .ok (childCross line fd fds)
  else if line.redir then
    redirectTo (line.word 1) stdout outside fds
  else if line.userOutId ≠ 0 then
    childUserOut line outside server fd fds
  else
    .ok (fds.dup2 server.sockfd stdout)

/-- The child of `single_cmd` up to `execvp`, or up to its early exit. -/
def singleChild
    (line : Command)
    (outside : Outside)
    (vars : Vars)
    (server : Server) :
    Except (DescriptorTable File) (DescriptorTable File) := do
  let input ← childInput line outside server (server.childStart vars.pos)
  let output ← singleOutput line outside server vars.fd input
  return if 0 ≤ line.crossNum then
    output.dup2 server.sockfd stderr
  else
    output

/-- The standard output of the last command of `ordinary_pipe`. -/
def lastOutput
    (line : Command)
    (outside : Outside)
    (fdRedir : Int)
    (server : Server)
    (fd : PipeFds)
    (fds : DescriptorTable File) :
    Except (DescriptorTable File) (DescriptorTable File) :=
  if line.crossNum ≠ 0 then
    .ok (childCross line fd fds)
  else if line.redir then
    .ok (fds.dup2 fdRedir stdout)
  else if line.userOutId ≠ 0 then
    childUserOut line outside server fd fds
  else
    .ok (fds.dup2 server.sockfd stdout)

/-- The child for stage `i` of `ordinary_pipe`. -/
def stageChild
    (line : Command)
    (outside : Outside)
    (cmdNum : Nat)
    (fdRedir : Int)
    (vars : Vars)
    (i : Nat)
    (server : Server) :
    Except (DescriptorTable File) (DescriptorTable File) := do
  let start := (server.childStart vars.pos).dup2 server.sockfd stderr
  let ended ←
    if i = 0 then
      childInput line outside server start
    else if i = cmdNum - 1 then
      lastOutput line outside fdRedir server vars.fd start
    else
      pure start
  let kept := if line.redir then ended.close fdRedir else ended
  return closeAndConnectFd i 0 (cmdNum - 1) vars.fd vars.exFd0 .child kept

/-- The numbered pipe behind a descriptor. -/
def pipeBehind
    (server : Server)
    (fd : Int) : Option Nat :=
  (server.fds.file fd).bind File.pipe?

/--
`fork`: the child runs its code.  When it exits early it has written a message.
-/
def fork
    (line : Command)
    (vars : Vars)
    (stage : Nat)
    (isLast : Bool)
    (ran : Except (DescriptorTable File) (DescriptorTable File))
    (server : Server) : Server :=
  let child (fds : DescriptorTable File) (execs : Bool) : Child :=
    { client := server.client.id
      stage := stage
      argv := line.cmd.getD stage []
      crossNum := line.crossNum
      pos := vars.pos
      inherited := server.fds
      directed :=
        if isLast ∧ line.crossNum ≠ 0 then
          server.pipeBehind vars.fd.writeFd
        else
          none
      fds := fds
      execs := execs
      alive := execs }
  match ran with
  | .ok fds =>
      { server with children := server.children ++ [child fds true] }
  | .error fds =>
      { server with children := server.children ++ [child fds false] }.post
        (.cannotOpen server.client.id)

/-! ## The parent -/

/-- The parent's part for the input of the first command. -/
def takeInput
    (line : Command)
    (server : Server) : Server :=
  if 0 ≤ server.infor.outputPoint then
    { server with
      fds := connectPipeToFirstProcess server.infor .parent server.fds }
  else if line.userInId ≠ 0 ∧ server.client.userInReady line.userInId then
    { server with
      fds := server.fds.close (server.self.userPipe line.userInId) }.setUserPipe
        server.client.id line.userInId (-1)
  else
    server

/-- The parent's part for a cross number. -/
def storeCross
    (line : Command)
    (vars : Vars)
    (server : Server) : Server :=
  if vars.pos < 0 then
    server.setInfor (server.infor.updateCrossPipeFd vars.fd line.crossNum)
  else
    server

/-- The parent's part for `>id`. -/
def storeUserPipe
    (line : Command)
    (vars : Vars)
    (server : Server) : Server :=
  if server.client.userOutReady line.userOutId then
    { server with fds := server.fds.close vars.fd.writeFd }.setUserPipe
      line.userOutId server.client.id vars.fd.readFd
  else
    server

/-- The parent's part for the output in `single_cmd`. -/
def singleStore
    (line : Command)
    (vars : Vars)
    (server : Server) : Server :=
  if line.crossNum ≠ 0 then
    server.storeCross line vars
  else if line.userOutId ≠ 0 then
    server.storeUserPipe line vars
  else
    server

/-- The parent's part for the output in `ordinary_pipe`. -/
def lastStore
    (line : Command)
    (fdRedir : Int)
    (vars : Vars)
    (server : Server) : Server :=
  if line.crossNum ≠ 0 then
    server.storeCross line vars
  else if line.redir then
    { server with fds := server.fds.close fdRedir }
  else if line.userOutId ≠ 0 then
    server.storeUserPipe line vars
  else
    server

/-- `waitpid` for the children forked since there were `count` of them. -/
def waitSince
    (line : Command)
    (count : Nat)
    (server : Server) : Server :=
  if line.crossNum = 0 ∧ line.redir = false ∧ line.userOutId = 0 then
    { server with
      children := server.children.take count ++
        (server.children.drop count).map fun child =>
          { child with alive := false } }
  else
    server

/-! ## The two functions -/

/-- The variables of `single_cmd` when it starts. -/
def singleVars (outside : Outside) : Vars where
  fd := outside.fd
  pos := outside.pos
  exFd0 := outside.exFd0

/-- The variables of `ordinary_pipe` when it starts. -/
def pipelineVars (outside : Outside) : Vars where
  fd := outside.fd
  pos := -1
  exFd0 := outside.exFd0

/-- `single_cmd` up to the fork. -/
def singleFork
    (line : Command)
    (outside : Outside)
    (server : Server) : Vars × Server :=
  let opened := openOutput line (singleVars outside) (server.announce line)
  (opened.1,
    opened.2.fork line opened.1 0 true
      (singleChild line outside opened.1 opened.2))

/-- `single_cmd` up to the point where the parent has dealt with the input. -/
def singleConnected
    (line : Command)
    (outside : Outside)
    (server : Server) : Vars × Server :=
  let forked := singleFork line outside server
  (forked.1, forked.2.takeInput line)

/-- `single_cmd`. -/
def singleCmd
    (line : Command)
    (outside : Outside)
    (server : Server) : Server :=
  let connected := singleConnected line outside server
  (connected.2.singleStore line connected.1).waitSince line
    server.children.length

/-- The pipe that stage `i` of `ordinary_pipe` writes to, opened before its fork. -/
def stageOpened
    (line : Command)
    (cmdNum : Nat)
    (vars : Vars)
    (i : Nat)
    (server : Server) : Vars × Server :=
  if i ≠ cmdNum - 1 then
    ({ vars with fd := server.pipeFds }, server.pipe)
  else
    openOutput line vars server

/-- One round of the loop in `ordinary_pipe` up to the fork. -/
def stageForked
    (line : Command)
    (outside : Outside)
    (cmdNum : Nat)
    (fdRedir : Int)
    (vars : Vars)
    (i : Nat)
    (server : Server) : Vars × Server :=
  let opened := stageOpened line cmdNum vars i server
  (opened.1,
    opened.2.fork line opened.1 i (decide (i = cmdNum - 1))
      (stageChild line outside cmdNum fdRedir opened.1 i opened.2))

/-- One round of the loop in `ordinary_pipe`, up to the parent's branch. -/
def stageConnected
    (line : Command)
    (outside : Outside)
    (cmdNum : Nat)
    (fdRedir : Int)
    (vars : Vars)
    (i : Nat)
    (server : Server) : Vars × Server :=
  let forked := stageForked line outside cmdNum fdRedir vars i server
  (forked.1,
    if i = 0 then
      forked.2.takeInput line
    else if i = cmdNum - 1 then
      forked.2.lastStore line fdRedir forked.1
    else
      forked.2)

/-- One round of the loop in `ordinary_pipe`. -/
def runStage
    (line : Command)
    (outside : Outside)
    (cmdNum : Nat)
    (fdRedir : Int)
    (state : Vars × Server)
    (i : Nat) : Vars × Server :=
  let connected :=
    stageConnected line outside cmdNum fdRedir state.1 i state.2
  ({ connected.1 with
      exFd0 :=
        if i ≠ cmdNum - 1 then connected.1.fd.readFd else connected.1.exFd0 },
    { connected.2 with
      fds := closeAndConnectFd i 0 (cmdNum - 1) connected.1.fd connected.1.exFd0
        .parent connected.2.fds })

/-- The loop of `ordinary_pipe` over the first `count` stages. -/
def runStages
    (line : Command)
    (outside : Outside)
    (cmdNum : Nat)
    (fdRedir : Int)
    (server : Server)
    (count : Nat) : Vars × Server :=
  (List.range count).foldl (runStage line outside cmdNum fdRedir)
    (pipelineVars outside, server)

/-- The file of `>` is opened by `ordinary_pipe` itself. -/
def openRedir
    (line : Command)
    (cmdNum : Nat)
    (server : Server) : Server :=
  if line.redir then
    { server with fds := server.fds.openFile (.named (line.word cmdNum)) }
  else
    server

/-- `ordinary_pipe` once the file of `>` is open. -/
def runPipeline
    (line : Command)
    (outside : Outside)
    (cmdNum : Nat)
    (server : Server) : Server :=
  ((runStages line outside cmdNum server.fds.lowestFree
      ((server.openRedir line cmdNum).announce line) cmdNum).2).waitSince line
    server.children.length

/-- `ordinary_pipe`. -/
def ordinaryPipe
    (line : Command)
    (outside : Outside)
    (cmdNum : Nat)
    (server : Server) : Server :=
  if line.redir ∧ outside.opens (line.word cmdNum) = false then
    server.post (.cannotOpen server.client.id)
  else
    server.runPipeline line outside cmdNum

/-! ## Lines and sessions -/

/-- `cmd_name`, without its messages. -/
def cmdName
    (name : String)
    (server : Server) : Server :=
  if clientIds.any fun i =>
      decide (i ≠ server.client.id) && (server.client.list i).state &&
        decide (name = (server.client.list i).name) then
    server
  else
    server.setClient
      { server.client with
        list := Function.update server.client.list server.client.id
          { server.self with name := name } }

/-- The last lines of `string_split`. -/
def freeRecord (server : Server) : Server :=
  if server.infor.dataNum ≠ 0 then
    server.setInfor { server.infor with recordFreed := true }
  else
    server

/-- The call of `count_down_and_check` in `run_shell`. -/
def countDown (server : Server) : Server :=
  server.setInfor server.infor.countDownAndCheck

end Server

/--
A line after tokenising: a blank line, `tell` or `yell`, a built-in without
effect on this state (`who`, `setenv`, `printenv`), `name`, one command, or a
pipeline.  A pipeline comes from at least one `|`, so it has two stages.
-/
inductive Input where
  | blank
  | talk
  | builtin
  | name (name : String)
  | single (line : Command)
  | pipeline (line : Command) (stages : 2 ≤ line.cmdNum)

namespace Server

/-- What `string_split` calls, after the countdown. -/
def dispatch
    (input : Input)
    (outside : Outside)
    (server : Server) : Server :=
  match input with
  | .blank | .talk | .builtin => server
  | .name name => server.cmdName name
  | .single line => server.singleCmd line outside
  | .pipeline line _ => server.ordinaryPipe line outside line.cmdNum

/-- `run_shell` for a line that does not end the session. -/
def runShell
    (input : Input)
    (outside : Outside)
    (server : Server) : Server :=
  match input with
  | .blank => server
  | .talk => server.countDown
  | input => (server.countDown.dispatch input outside).freeRecord

/-- The closes of `delete_client_infor`. -/
def deleteFds
    (server : Server)
    (fds : DescriptorTable File) : DescriptorTable File :=
  let crossClosed :=
    if server.infor.dataNum ≠ 0 then
      closeCrossPipeFd server.infor (-1) fds
    else
      fds
  clientIds.foldl
    (fun fds i =>
      let rowClosed :=
        if 0 ≤ server.self.userPipe i then
          fds.close (server.self.userPipe i)
        else
          fds
      if 0 ≤ (server.client.list i).userPipe server.client.id then
        rowClosed.close ((server.client.list i).userPipe server.client.id)
      else
        rowClosed)
    crossClosed

/-- The part of `main` that accepts a client. -/
def login (server : Server) : Server :=
  { server with
    main := server.main.login server.fds.lowestFree
    fds := server.fds.openFile (.socket server.nextConnection)
    nextConnection := server.nextConnection + 1 }

/-- The part of `main` that ends the session on a descriptor. -/
def logout
    (server : Server)
    (fd : Int) : Server :=
  { server with
    main := server.main.logout fd
    fds := server.deleteFds (server.fds.close fd) }

/-- `client.id = fd_id_list[fd]`. -/
def enter
    (server : Server)
    (fd : Int) : Server :=
  server.setClient
    { server.client with id := (server.main.fdIdList fd).toNat }

/-- A descriptor of the active set whose client has a slot in the table. -/
def connected
    (server : Server)
    (fd : Int) : Bool :=
  decide (0 ≤ server.main.fdIdList fd) &&
    (server.client.list (server.main.fdIdList fd).toNat).state

/-- `delete_client_infor` would read an array that was freed. -/
def dangling (server : Server) : Bool :=
  decide (server.infor.dataNum ≠ 0) && server.infor.recordFreed

/-- A child ends. -/
def exitChild
    (server : Server)
    (index : Nat) : Server :=
  { server with
    children := server.children.modify index fun child =>
      { child with alive := false } }

/-- The server before its first client. -/
def initial : Server where
  main := MainState.initialClientInfor
  fds :=
    (((DescriptorTable.empty.openFile .terminal).openFile .terminal).openFile
      .terminal).openFile .listener
  nextPipe := 0
  nextConnection := 0
  children := []
  sent := []

end Server

/-- What can happen to the server. -/
inductive ServerEvent where
  | login
  | input (fd : Int) (input : Input) (outside : Outside)
  | exit (fd : Int)
  | endOfFile (fd : Int)
  | childExits (index : Nat)

namespace Server

/--
One round of the loop in `main`, or the end of a child.  There is no step where
the program has undefined behaviour: a line of a client whose slot was deleted,
and a logout that reads a freed array.
-/
def step
    (server : Server) :
    ServerEvent → Option Server
  | .login =>
      if server.main.clientNum < maxClientNum then some server.login else none
  | .input fd input outside =>
      if server.connected fd then
        some ((server.enter fd).runShell input outside)
      else
        none
  | .exit fd =>
      if server.connected fd then
        some ((server.enter fd).countDown.logout fd)
      else
        none
  | .endOfFile fd =>
      if server.connected fd && !(server.enter fd).dangling then
        some ((server.enter fd).logout fd)
      else
        none
  | .childExits index => some (server.exitChild index)

/-- One event that the server admits. -/
def Steps
    (server : Server)
    (event : ServerEvent)
    (next : Server) : Prop :=
  server.step event = some next

end Server

end NpServers.Shell
