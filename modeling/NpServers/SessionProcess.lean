import NpServers.MultiProcShared
import NpServers.Messages
import Mathlib.Data.Finset.Insert

namespace NpServers.MultiProc

open Shell

/-!
# Session processes of the multi-process server

A machine of `np_multi_proc.c`: the accepting parent and one process for each
client, over the shared segments.  Each statement that touches shared memory,
a semaphore, a fifo or a signal is a step of its own, so that the steps of
different processes interleave freely.

Signals do not queue: a process has one pending flag for each of `SIGUSR1` and
`SIGUSR2`.  A pending signal is delivered at any later point; its handler then
runs on top of the interrupted code, which goes on when the handler has
returned.  `signal` installs handlers that restart an interrupted `sem_wait`
or `open`.  Process ids are not used twice.

`acquired`, `signalled` and `registered` record what happened.  No step reads
them.
-/

/-- The two signals between session processes. -/
inductive Signal where
  | usr1
  | usr2
  deriving Repr, DecidableEq

/-- What a sender acquired the lock of a mailbox for. -/
structure Letter where
  sender : Nat
  fromId : Nat
  signal : Signal
  text : String
  deriving Repr, DecidableEq

/-- The statements between waiting for the lock of a mailbox and giving it up. -/
inductive SendStage where
  | wait
  | copy
  | mark
  | check
  | kill
  | release
  deriving Repr, DecidableEq

/--
A line of external commands, as far as user pipes are concerned: `crossed`
when it has a numbered pipe, `expired` when a numbered pipe expires at it,
`piped` when it is run by `ordinary_pipe`.
-/
structure CmdLine where
  cmd : String
  userInId : Nat
  userOutId : Nat
  crossed : Bool
  expired : Bool
  piped : Bool

/-- A line a client sends to its shell. -/
inductive Line where
  | exit
  | tell (tellId : Nat) (text : String)
  | yell (text : String)
  | name (name : String)
  | command (line : CmdLine)

/-- The line together with the locals read at the start of `single_cmd`. -/
structure PipeVars where
  line : CmdLine
  upipeReadFd : Int
  userOutState : Bool

/-- What follows a `broadcast`. -/
inductive AfterBroadcast where
  | shell
  | announceOut (vars : PipeVars)
  | userPipes (vars : PipeVars)
  | unlockLogout

/-- What follows when a sender is done with a mailbox. -/
inductive AfterSend where
  | broadcast (msg : String) (i : Nat) (after : AfterBroadcast)
  | shell
  | openFifo (path : String) (vars : PipeVars)

/-- The next statement of a session process outside its handlers. -/
inductive Code where
  | lockLogin
  | takeId
  | countLogin
  | storePid
  | storeState
  | storeName
  | scanMinId
  | postLock
  | unlockLogin
  | printLoginMsg
  | shell
  | broadcast (msg : String) (i : Nat) (after : AfterBroadcast)
  | send
      (target : Nat)
      (signal : Signal)
      (text : String)
      (stage : SendStage)
      (after : AfterSend)
  | nameScan (name : String) (i : Nat)
  | nameStore (name : String)
  | announceIn (vars : PipeVars)
  | announceOut (vars : PipeVars)
  | createPipe (vars : PipeVars)
  | lockFifo (vars : PipeVars)
  | countFifo (vars : PipeVars)
  | unlockFifo (vars : PipeVars) (fileName : Nat)
  | openFifo (path : String) (vars : PipeVars)
  | consumePipe (vars : PipeVars)
  | stop
  | lockLogout
  | clearState
  | clearRow
  | clearColumn (name : String) (i : Nat)
  | countLogout (name : String)
  | lowerMinId (name : String)
  | unlockLogout
  | exit

/-- The next statement of a running handler. -/
inductive Frame where
  | msgHandler
  | userPipeHandler
  | openGarbage
  | openMailbox (fromId : Nat)
  | storePipe (fromId : Nat) (path : String) (fd : Nat)
  | post

/-- A text on the socket, written by `msg_handler` or by the session itself. -/
inductive Output where
  | mail (text : String)
  | own (text : String)
  deriving Repr, DecidableEq

/-- A session process. -/
structure Process where
  running : Bool
  id : Nat
  stopped : Bool
  peer : String
  code : Code
  frames : List Frame
  pending : Signal → Bool
  written : List Output
  signalled : List Letter
  registered : List (Nat × String)

/-- Which ends of a fifo have been opened. -/
structure FifoEnds where
  reader : Bool
  writer : Bool

/-- What the processes share. -/
structure Common where
  shared : Shared
  fifos : String → FifoEnds
  acquired : Nat → List Letter

/-! ## Code after a broadcast, a message or a fifo -/

/-- `create_user_pipe` comes first in `single_cmd` and last in `ordinary_pipe`. -/
def PipeVars.start
    (vars : PipeVars) : Code :=
  if vars.line.piped then .consumePipe vars else .createPipe vars

/-- The code behind the call of `create_user_pipe`. -/
def PipeVars.created
    (vars : PipeVars) : Code :=
  if vars.line.piped then .shell else .consumePipe vars

/-- The code behind the release of the input pipe. -/
def PipeVars.consumed
    (vars : PipeVars) : Code :=
  if vars.line.piped then .createPipe vars else .shell

/-- The code a finished broadcast returns to. -/
def AfterBroadcast.code :
    AfterBroadcast → Code
  | .shell => .shell
  | .announceOut vars => .announceOut vars
  | .userPipes vars => vars.start
  | .unlockLogout => .unlockLogout

/-- The code after the signal was sent. -/
def AfterSend.signalled :
    AfterSend → Code
  | .broadcast msg i after => .broadcast msg (i + 1) after
  | .shell => .shell
  | .openFifo path vars => .openFifo path vars

/-- The code after the lock was given back unused. -/
def AfterSend.released :
    AfterSend → Code
  | .broadcast msg i after => .broadcast msg (i + 1) after
  | .shell => .shell
  | .openFifo _ vars => vars.created

/-- The stage after the mailbox was filled: only `create_user_pipe` sets `from_id`. -/
def Signal.afterCopy :
    Signal → SendStage
  | .usr1 => .check
  | .usr2 => .mark

namespace Process

/-- The child after `fork`. -/
def forked
    (peer : String) : Process where
  running := true
  id := 0
  stopped := false
  peer := peer
  code := .lockLogin
  frames := []
  pending := fun _ => false
  written := []
  signalled := []
  registered := []

/-- Go on with another statement. -/
def goto
    (proc : Process)
    (code : Code) : Process :=
  { proc with code := code }

/-- Write a text to the own socket. -/
def print
    (proc : Process)
    (text : String) : Process :=
  { proc with written := proc.written ++ [.own text] }

/-- The texts `msg_handler` has written to the socket. -/
def mailTexts
    (proc : Process) : List String :=
  proc.written.filterMap fun output =>
    match output with
    | .mail text => some text
    | .own _ => none

end Process

/-! ## Single statements -/

namespace Common

/-- Change the shared segments. -/
def modify
    (common : Common)
    (change : Shared → Shared) : Common :=
  { common with shared := change common.shared }

/-- Change the entry of one client. -/
def setClient
    (common : Common)
    (i : Nat)
    (change : ClientInfor → ClientInfor) : Common :=
  common.modify fun shared => shared.setClient i change

/-- The entry of one client. -/
def client
    (common : Common)
    (i : Nat) : ClientInfor :=
  common.shared.clientList i

/-- Change the counters of `connect_state`. -/
def setState
    (common : Common)
    (change : ConnectionState → ConnectionState) : Common :=
  common.modify fun shared =>
    { shared with connectState := change shared.connectState }

/-- Change the fifo counter. -/
def setFifo
    (common : Common)
    (change : FifoInformation → FifoInformation) : Common :=
  common.modify fun shared =>
    { shared with fifoInfor := change shared.fifoInfor }

/-- The lock of a mailbox is taken for a letter. -/
def acquire
    (common : Common)
    (i : Nat)
    (letter : Letter) : Common :=
  { common.setClient i fun client => { client with lock := client.lock - 1 } with
    acquired :=
      Function.update common.acquired i (common.acquired i ++ [letter]) }

/-- `sem_post` on the lock of a mailbox. -/
def post
    (common : Common)
    (i : Nat) : Common :=
  common.setClient i fun client => { client with lock := client.lock + 1 }

/-- One end of a fifo has been opened. -/
def openEnd
    (common : Common)
    (path : String)
    (change : FifoEnds → FifoEnds) : Common :=
  { common with
    fifos := Function.update common.fifos path (change (common.fifos path)) }

end Common

/-- The message part of `print_user_pipe_msg_handler` for `<`. -/
def announceIn
    (common : Common)
    (proc : Process)
    (vars : PipeVars) : Process :=
  let target := vars.line.userInId
  if target = 0 then
    proc.goto (.announceOut vars)
  else if maxClientNum < target ∨ ¬ (common.client target).state then
    (proc.print (noUserMsg target)).goto (.announceOut vars)
  else if (common.client proc.id).userPipe target < 0 then
    (proc.print (pipeMissingMsg proc.id target)).goto (.announceOut vars)
  else
    proc.goto
      (.broadcast
        (receivedMsg (common.client proc.id).name proc.id
          (common.client target).name target vars.line.cmd)
        1 (.announceOut vars))

/-- The message part of `print_user_pipe_msg_handler` for `>`. -/
def announceOut
    (common : Common)
    (proc : Process)
    (vars : PipeVars) : Process :=
  let target := vars.line.userOutId
  if target = 0 then
    proc.goto vars.start
  else if maxClientNum < target ∨ ¬ (common.client target).state then
    (proc.print (noUserMsg target)).goto vars.start
  else if 0 ≤ (common.client target).userPipe proc.id then
    (proc.print (pipeExistsMsg proc.id target)).goto vars.start
  else
    proc.goto
      (.broadcast
        (pipedMsg (common.client proc.id).name proc.id
          (common.client target).name target vars.line.cmd)
        1 (.userPipes vars))

/-- The tests before the call of `create_user_pipe`. -/
def createsPipe
    (common : Common)
    (proc : Process)
    (vars : PipeVars) : Bool :=
  !vars.line.crossed && vars.line.userOutId != 0 &&
    decide (vars.line.userOutId ≤ maxClientNum) &&
    (common.client vars.line.userOutId).state &&
    decide ((common.client vars.line.userOutId).userPipe proc.id < 0) &&
    vars.userOutState

/-- The tests before the parent forgets its input pipe. -/
def consumesPipe
    (common : Common)
    (vars : PipeVars) : Bool :=
  !vars.line.expired && vars.line.userInId != 0 &&
    decide (vars.line.userInId ≤ maxClientNum) &&
    (common.client vars.line.userInId).state &&
    decide (0 ≤ vars.upipeReadFd)

/-- The path of the fifo with a given number. -/
def fifoPath
    (fileName : Nat) : String :=
  "user_pipe/" ++ toString fileName

/-- One step of a sender at a mailbox; the signal itself is sent by `Machine.kill`. -/
def sendStep
    (self : Nat)
    (common : Common)
    (proc : Process)
    (target : Nat)
    (signal : Signal)
    (text : String)
    (after : AfterSend) :
    SendStage → Option (Common × Process)
  | .wait =>
      if 0 < (common.client target).lock then
        some
          (common.acquire target
            { sender := self
              fromId := proc.id
              signal := signal
              text := text },
            proc.goto (.send target signal text .copy after))
      else
        none
  | .copy =>
      some
        (common.setClient target fun client => { client with mailbox := text },
          proc.goto (.send target signal text signal.afterCopy after))
  | .mark =>
      some
        (common.setClient target fun client => { client with fromId := proc.id },
          proc.goto (.send target signal text .check after))
  | .check =>
      if (common.client target).state then
        some (common, proc.goto (.send target signal text .kill after))
      else
        some (common, proc.goto (.send target signal text .release after))
  | .kill => none
  | .release => some (common.post target, proc.goto after.released)

/-- One round of `broadcast`. -/
def broadcastStep
    (common : Common)
    (proc : Process)
    (msg : String)
    (i : Nat)
    (after : AfterBroadcast) : Process :=
  if maxClientNum < i then
    proc.goto after.code
  else if (common.client i).state then
    if i = proc.id then
      (proc.print msg).goto (.broadcast msg (i + 1) after)
    else
      proc.goto (.send i .usr1 msg .wait (.broadcast msg i after))
  else
    proc.goto (.broadcast msg (i + 1) after)

/-- One round of the scan of `cmd_name`. -/
def nameStep
    (common : Common)
    (proc : Process)
    (name : String)
    (i : Nat) : Process :=
  if maxClientNum < i then
    proc.goto (.nameStore name)
  else if i ≠ proc.id ∧ (common.client i).state ∧
      name = (common.client i).name then
    (proc.print (nameExistsMsg name)).goto .shell
  else
    proc.goto (.nameScan name (i + 1))

/--
One statement of the process `self` outside its handlers.  A statement that
waits gives no result while it has to wait.  Reading the next line, sending a
signal and leaving are separate below.
-/
def mainStep
    (self : Nat)
    (canOpen : String → Bool)
    (common : Common)
    (proc : Process) : Option (Common × Process) :=
  match proc.code with
  | .lockLogin =>
      if 0 < common.shared.connectState.lock2 then
        some
          (common.setState fun state => { state with lock2 := state.lock2 - 1 },
            proc.goto .takeId)
      else
        none
  | .takeId =>
      some
        (common,
          { proc with id := common.shared.connectState.minId }.goto .countLogin)
  | .countLogin =>
      some (common.modify Shared.countLogin, proc.goto .storePid)
  | .storePid =>
      some
        (common.setClient proc.id fun client => { client with pid := self },
          proc.goto .storeState)
  | .storeState =>
      some
        (common.setClient proc.id fun client => { client with state := true },
          proc.goto .storeName)
  | .storeName =>
      some
        (common.setClient proc.id fun client => { client with name := noName },
          proc.goto .scanMinId)
  | .scanMinId =>
      -- the states are only changed under `lock2`, which this process holds
      some (common.modify Shared.rescanMinId, proc.goto .postLock)
  | .postLock =>
      some
        (common.setState fun state => { state with lock := state.lock + 1 },
          proc.goto .unlockLogin)
  | .unlockLogin =>
      some
        (common.setState fun state => { state with lock2 := state.lock2 + 1 },
          proc.goto .printLoginMsg)
  | .printLoginMsg =>
      some
        (common,
          proc.goto
            (.broadcast (loginMsg (common.client proc.id).name proc.peer) 1
              .shell))
  | .shell => none
  | .broadcast msg i after =>
      some (common, broadcastStep common proc msg i after)
  | .send target signal text stage after =>
      sendStep self common proc target signal text after stage
  | .nameScan name i => some (common, nameStep common proc name i)
  | .nameStore name =>
      some
        (common.setClient proc.id fun client => { client with name := name },
          proc.goto (.broadcast (namedMsg proc.peer name) 1 .shell))
  | .announceIn vars => some (common, announceIn common proc vars)
  | .announceOut vars => some (common, announceOut common proc vars)
  | .createPipe vars =>
      if createsPipe common proc vars then
        some (common, proc.goto (.lockFifo vars))
      else
        some (common, proc.goto vars.created)
  | .lockFifo vars =>
      if 0 < common.shared.fifoInfor.lock then
        some
          (common.setFifo fun fifo => { fifo with lock := fifo.lock - 1 },
            proc.goto (.countFifo vars))
      else
        none
  | .countFifo vars =>
      some
        (common.setFifo fun fifo => { fifo with count := fifo.count + 1 },
          proc.goto (.unlockFifo vars (common.shared.fifoInfor.count + 1)))
  | .unlockFifo vars fileName =>
      some
        (common.setFifo fun fifo => { fifo with lock := fifo.lock + 1 },
          proc.goto
            (.send vars.line.userOutId .usr2 (fifoPath fileName) .wait
              (.openFifo (fifoPath fileName) vars)))
  | .openFifo path vars =>
      if canOpen path then
        some
          (common.openEnd path fun ends => { ends with writer := true },
            proc.goto vars.created)
      else
        none
  | .consumePipe vars =>
      if consumesPipe common vars then
        some
          (common.setClient proc.id fun client =>
            { client with
              userPipe :=
                Function.update client.userPipe vars.line.userInId (-1) },
            proc.goto vars.consumed)
      else
        some (common, proc.goto vars.consumed)
  | .stop =>
      some (common, { proc with stopped := true }.goto .lockLogout)
  | .lockLogout =>
      if 0 < common.shared.connectState.lock2 then
        some
          (common.setState fun state => { state with lock2 := state.lock2 - 1 },
            proc.goto .clearState)
      else
        none
  | .clearState =>
      some
        (common.setClient proc.id fun client => { client with state := false },
          proc.goto .clearRow)
  | .clearRow =>
      some
        (common.modify fun shared => shared.clearRow proc.id,
          proc.goto (.clearColumn (common.client proc.id).name 1))
  | .clearColumn name i =>
      if maxClientNum < i then
        some (common, proc.goto (.countLogout name))
      else
        some
          (common.modify fun shared => shared.clearColumnEntry proc.id i,
            proc.goto (.clearColumn name (i + 1)))
  | .countLogout name =>
      some (common.modify Shared.countLogout, proc.goto (.lowerMinId name))
  | .lowerMinId name =>
      some
        (common.modify fun shared => shared.lowerMinId proc.id,
          proc.goto (.broadcast (logoutMsg name) 1 .unlockLogout))
  | .unlockLogout =>
      some
        (common.setState fun state => { state with lock2 := state.lock2 + 1 },
          proc.goto .exit)
  | .exit => none

/-- The shell reads a line. -/
def obey
    (common : Common)
    (proc : Process) :
    Line → Process
  | .exit => proc.goto .stop
  | .tell tellId text =>
      if maxClientNum < tellId ∨ ¬ (common.client tellId).state then
        proc.print (noUserMsg tellId)
      else
        proc.goto
          (.send tellId .usr1 (tellMsg (common.client proc.id).name text) .wait
            .shell)
  | .yell text =>
      proc.goto
        (.broadcast (yellMsg (common.client proc.id).name text) 1 .shell)
  | .name name => proc.goto (.nameScan name 1)
  | .command line =>
      proc.goto
        (.announceIn
          { line := line
            upipeReadFd := (common.client proc.id).userPipe line.userInId
            userOutState := (common.client line.userOutId).state })

/--
One statement of the handler on top.  `fd` is the descriptor that an `open`
returns.  The variable `stopped` is only changed outside the handlers, so its
test and the statement after it are one step.
-/
def handlerStep
    (canOpen : String → Bool)
    (fd : Nat)
    (common : Common)
    (proc : Process) : Option (Common × Process) :=
  match proc.frames with
  | [] => none
  | .msgHandler :: below =>
      if proc.stopped then
        some (common, { proc with frames := .post :: below })
      else
        some
          (common,
            { proc with
              frames := .post :: below
              written :=
                proc.written ++ [.mail (common.client proc.id).mailbox] })
  | .userPipeHandler :: below =>
      if proc.stopped then
        some (common, { proc with frames := .openGarbage :: below })
      else
        some
          (common,
            { proc with
              frames := .openMailbox (common.client proc.id).fromId :: below })
  | .openGarbage :: below =>
      if canOpen (common.client proc.id).mailbox then
        some
          (common.openEnd (common.client proc.id).mailbox
            fun ends => { ends with reader := true },
            { proc with frames := .post :: below })
      else
        none
  | .openMailbox fromId :: below =>
      if canOpen (common.client proc.id).mailbox then
        some
          (common.openEnd (common.client proc.id).mailbox
            fun ends => { ends with reader := true },
            { proc with
              frames :=
                .storePipe fromId (common.client proc.id).mailbox fd :: below })
      else
        none
  | .storePipe fromId path stored :: below =>
      some
        (common.setClient proc.id fun client =>
          { client with
            userPipe := Function.update client.userPipe fromId stored },
          { proc with
            frames := .post :: below
            registered := proc.registered ++ [(fromId, path)] })
  | .post :: below =>
      some (common.post proc.id, { proc with frames := below })

/-! ## The machine -/

/-- The accepting parent. -/
inductive ParentCode where
  | accept
  | waitLock
  | waitRoom
  deriving Repr, DecidableEq

/-- The parent, its children and what they share. -/
structure Machine where
  common : Common
  parent : ParentCode
  forked : Finset Nat
  procs : Nat → Process

/-- The steps of the machine. -/
inductive Action where
  | fork (pid : Nat) (peer : String)
  | waitLock
  | waitRoom
  | main (pid : Nat)
  | line (pid : Nat) (line : Line)
  | kill (pid : Nat)
  | exit (pid : Nat)
  | deliver (pid : Nat) (signal : Signal)
  | handle (pid : Nat) (fd : Nat)

/-- The handler that a signal starts. -/
def Signal.handler :
    Signal → Frame
  | .usr1 => .msgHandler
  | .usr2 => .userPipeHandler

namespace Process

/-- A signal arrives.  It is lost on a process that has exited. -/
def receive
    (proc : Process)
    (letter : Letter) : Process :=
  if proc.running then
    { proc with
      pending := Function.update proc.pending letter.signal true
      signalled := proc.signalled ++ [letter] }
  else
    proc

/-- A pending signal interrupts the process. -/
def interrupt
    (proc : Process)
    (signal : Signal) : Process :=
  { proc with
    pending := Function.update proc.pending signal false
    frames := signal.handler :: proc.frames }

/-- The process is about to open a fifo for writing, and no handler is running. -/
def opensForWriting
    (proc : Process)
    (path : String) : Bool :=
  match proc.running, proc.frames, proc.code with
  | true, [], .openFifo opened _ => decide (opened = path)
  | _, _, _ => false

/-- The handler on top is about to open the mailbox of the process. -/
def opensForReading
    (proc : Process)
    (common : Common)
    (path : String) : Bool :=
  match proc.running, proc.frames with
  | true, .openGarbage :: _ => decide ((common.client proc.id).mailbox = path)
  | true, .openMailbox _ :: _ => decide ((common.client proc.id).mailbox = path)
  | _, _ => false

end Process

namespace Machine

/-- The server when the parent first waits for a client. -/
def initial (serverPid : Nat) : Machine where
  common :=
    { shared := .createSharedMem serverPid
      fifos := fun _ => { reader := false, writer := false }
      acquired := fun _ => [] }
  parent := .accept
  forked := ∅
  procs := fun _ => { Process.forked "" with running := false }

/-- An `open` for writing returns once the other end is open or being opened. -/
def canOpenWriter
    (machine : Machine)
    (path : String) : Bool :=
  (machine.common.fifos path).reader ||
    decide (∃ pid ∈ machine.forked,
      (machine.procs pid).opensForReading machine.common path = true)

/-- An `open` for reading returns once the other end is open or being opened. -/
def canOpenReader
    (machine : Machine)
    (path : String) : Bool :=
  (machine.common.fifos path).writer ||
    decide (∃ pid ∈ machine.forked,
      (machine.procs pid).opensForWriting path = true)

/-- Change one process. -/
def setProc
    (machine : Machine)
    (pid : Nat)
    (proc : Process) : Machine :=
  { machine with procs := Function.update machine.procs pid proc }

/-- Change one process and what it shares. -/
def setBoth
    (machine : Machine)
    (pid : Nat)
    (result : Common × Process) : Machine :=
  { machine.setProc pid result.2 with common := result.1 }

/-- The process can execute a statement outside its handlers. -/
def mainRuns
    (machine : Machine)
    (pid : Nat) : Bool :=
  decide (pid ∈ machine.forked) && (machine.procs pid).running &&
    (machine.procs pid).frames.isEmpty

/-- `kill` on the process that the entry of `target` names. -/
def kill
    (machine : Machine)
    (pid target : Nat)
    (signal : Signal)
    (text : String)
    (after : AfterSend) : Machine :=
  let sent := machine.setProc pid ((machine.procs pid).goto after.signalled)
  let receiver := (machine.common.client target).pid
  sent.setProc receiver
    ((sent.procs receiver).receive
      { sender := pid
        fromId := (machine.procs pid).id
        signal := signal
        text := text })

/-- The machine after one step, when that step is possible. -/
def step
    (machine : Machine) :
    Action → Option Machine
  | .fork pid peer =>
      if machine.parent = .accept ∧ pid ∉ machine.forked ∧ pid ≠ 0 ∧
          pid ≠ (machine.common.client 0).pid then
        some
          { machine.setProc pid (.forked peer) with
            parent := .waitLock
            forked := insert pid machine.forked }
      else
        none
  | .waitLock =>
      if machine.parent = .waitLock ∧
          0 < machine.common.shared.connectState.lock then
        some
          { machine with
            common := machine.common.setState fun state =>
              { state with lock := state.lock - 1 }
            parent := .waitRoom }
      else
        none
  | .waitRoom =>
      if machine.parent = .waitRoom ∧
          machine.common.shared.connectState.clientNum < maxClientNum then
        some { machine with parent := .accept }
      else
        none
  | .main pid =>
      if machine.mainRuns pid then
        (mainStep pid machine.canOpenWriter machine.common
          (machine.procs pid)).map (machine.setBoth pid)
      else
        none
  | .line pid line =>
      match machine.mainRuns pid, (machine.procs pid).code with
      | true, .shell =>
          some
            (machine.setProc pid
              (obey machine.common (machine.procs pid) line))
      | _, _ => none
  | .kill pid =>
      match machine.mainRuns pid, (machine.procs pid).code with
      | true, .send target signal text .kill after =>
          some (machine.kill pid target signal text after)
      | _, _ => none
  | .exit pid =>
      match machine.mainRuns pid, (machine.procs pid).code with
      | true, .exit =>
          some
            (machine.setProc pid { machine.procs pid with running := false })
      | _, _ => none
  | .deliver pid signal =>
      if pid ∈ machine.forked ∧ (machine.procs pid).running = true ∧
          (machine.procs pid).pending signal = true then
        some (machine.setProc pid ((machine.procs pid).interrupt signal))
      else
        none
  | .handle pid fd =>
      if pid ∈ machine.forked ∧ (machine.procs pid).running = true then
        (handlerStep machine.canOpenReader fd machine.common
          (machine.procs pid)).map (machine.setBoth pid)
      else
        none

/-- The step relation of the machine. -/
def Steps
    (machine : Machine)
    (action : Action)
    (next : Machine) : Prop :=
  machine.step action = some next

end Machine

end NpServers.MultiProc
