import NpServers.CrossPipeFullTable
import NpServers.ServerRun

namespace NpServers.Shell

open CrossPipe DescriptorTable TransitionPath

/-!
# Descriptor accounting of the server process

The open pipe descriptors of the server should be those it has recorded, each
in one place.  A line with one output directive keeps this, unless it inserts a
numbered pipe while `min_input_point` is stale: the pipe waiting in that block
is then overwritten and its descriptors are lost.  This happens after a run
that has filled the table once.
-/

namespace Server

/-- A descriptor of the server is open on an end of a pipe. -/
def PipeOpen
    (server : Server)
    (fd : Int) : Prop :=
  ∃ file pipe, server.fds.file fd = some file ∧ file.pipe? = some pipe

/-- Between two lines, the open pipe descriptors are those recorded. -/
def Accounted (server : Server) : Prop :=
  server.client.ledger.Exact server.PipeOpen

/-- After the countdown, the just expired pipe counts as recorded. -/
def AccountedInLine (server : Server) : Prop :=
  server.client.lineLedger.Exact server.PipeOpen

/-- The line inserts a numbered pipe into a block where another one waits. -/
def Overwrites
    (server : Server)
    (line : Command) : Prop :=
  server.infor.Inserts line.crossNum ∧
    server.infor.Pending server.infor.minInputPoint

end Server

namespace Input

/-- The command of a line that `single_cmd` or `ordinary_pipe` runs. -/
def command? : Input → Option Command
  | .single line => some line
  | .pipeline line _ => some line
  | _ => none

/-- How many pipes connect the commands of a line. -/
def innerPipes : Input → Nat
  | .pipeline line _ => line.cmdNum - 1
  | _ => 0

/-- The file of `>` can be opened. -/
def FileOpens
    (outside : Outside) :
    Input → Prop
  | .single line => line.redir = true → outside.opens (line.word 1) = true
  | .pipeline line _ =>
      line.redir = true → outside.opens (line.word line.cmdNum) = true
  | _ => True

end Input

namespace Server

variable {before after server : Server}
variable {line : Command}

/-- The recorded input is open. -/
theorem AccountedInLine.inputOpen
    (accounted : server.AccountedInLine)
    (line : Command) :
    server.InputOpen line where
  distinct := by
    apply List.Nodup.map_on _ (server.client.inputPorts_nodup line)
    intro first firstMember second secondMember sameFd
    exact accounted.distinct
      (ClientStructure.recordedOrExpired_of_mem_inputPorts firstMember)
      (ClientStructure.recordedOrExpired_of_mem_inputPorts secondMember)
      sameFd
  isOpen := by
    intro fd member
    obtain ⟨port, isInput, rfl⟩ := List.mem_map.mp member
    have isHeld := ClientStructure.recordedOrExpired_of_mem_inputPorts isInput
    obtain ⟨file, _, isOpen, _⟩ :=
      (accounted.inUse_iff _).mpr ⟨port, isHeld, rfl⟩
    change server.fds.file (port.fd server.client) = some file at isOpen
    rw [isOpen]
    simp

/-- The pipe descriptors after a line: the new ones, and those not consumed. -/
theorem Frame.pipeOpen_iff
    {extra : List (Int × File)}
    {client : ClientStructure}
    (frame :
      Frame before (before.fds.closeAll (before.inputFds line)) extra client
        after)
    (fd : Int) :
    after.PipeOpen fd ↔
      (∃ file pipe, (fd, file) ∈ extra ∧ file.pipe? = some pipe) ∨
        before.PipeOpen fd ∧ fd ∉ before.inputFds line := by
  unfold PipeOpen
  simp only [frame.fds.file_iff, closeAll_file]
  constructor
  · rintro ⟨file, pipe, isExtra | isBase, isPipe⟩
    · exact Or.inl ⟨file, pipe, isExtra, isPipe⟩
    · split_ifs at isBase with consumed
      exact Or.inr ⟨⟨file, pipe, isBase, isPipe⟩, consumed⟩
  · rintro (⟨file, pipe, isExtra, isPipe⟩ | ⟨⟨file, pipe, isOpen, isPipe⟩, kept⟩)
    · exact ⟨file, pipe, Or.inl isExtra, isPipe⟩
    · exact ⟨file, pipe, Or.inr (by rw [if_neg kept]; exact isOpen), isPipe⟩

/-- A recorded descriptor that is not consumed differs from every new one. -/
theorem Frame.fd_ne_of_recorded
    {extra : List (Int × File)}
    {client : ClientStructure}
    (frame :
      Frame before (before.fds.closeAll (before.inputFds line)) extra client
        after)
    (accounted : before.AccountedInLine)
    {port : Port}
    (isHeld : before.client.RecordedOrExpired port)
    (kept : port ∉ before.client.inputPorts line)
    {fd : Int}
    {file : File}
    (isNew : (fd, file) ∈ extra) :
    port.fd before.client ≠ fd := by
  rintro rfl
  have notConsumed : port.fd before.client ∉ before.inputFds line := by
    intro member
    obtain ⟨other, isInput, sameFd⟩ := List.mem_map.mp member
    have same :=
      accounted.distinct
        (ClientStructure.recordedOrExpired_of_mem_inputPorts isInput) isHeld
        sameFd
    exact kept (same ▸ isInput)
  have free := frame.fds.free isNew
  rw [closeAll_file, if_neg notConsumed] at free
  obtain ⟨oldFile, _, isOpen, _⟩ :=
    (accounted.inUse_iff _).mpr ⟨port, isHeld, rfl⟩
  change before.fds.file (port.fd before.client) = some oldFile at isOpen
  rw [free] at isOpen
  cases isOpen

/-- The use of descriptors after a line, in the form of the ledger. -/
theorem Frame.inUse_iff
    {extra : List (Int × File)}
    {client : ClientStructure}
    (frame :
      Frame before (before.fds.closeAll (before.inputFds line)) extra client
        after)
    {issued : List Port}
    (isIssued :
      ∀ fd,
        (∃ file pipe, (fd, file) ∈ extra ∧ file.pipe? = some pipe) ↔
          ∃ port ∈ issued, port.fd client = fd)
    (fd : Int) :
    after.PipeOpen fd ↔
      (∃ port ∈ issued, client.ledger.name port = fd) ∨
        before.PipeOpen fd ∧
          ∀ port ∈ before.client.inputPorts line,
            before.client.lineLedger.name port ≠ fd := by
  rw [frame.pipeOpen_iff, isIssued]
  have notConsumed_iff :
      fd ∉ before.inputFds line ↔
        ∀ port ∈ before.client.inputPorts line,
          before.client.lineLedger.name port ≠ fd := by
    simp [inputFds, ClientStructure.lineLedger]
  rw [notConsumed_iff]
  rfl

/-- The block at `min_input_point` is lost exactly if another pipe waits there. -/
theorem inputPoint_lost_iff
    (inLine : server.client.InLine)
    (line : Command) :
    (∀ port ∈ server.client.inputPointPorts,
        server.client.lineLedger.held port →
        port ∈ server.client.inputPorts line) ↔
      ¬ server.infor.Pending server.infor.minInputPoint := by
  constructor
  · intro noneLost pending
    have waiting :
        server.client.Waiting server.client.id server.infor.minInputPoint :=
      ⟨inLine.state, pending⟩
    have consumed := noneLost _ List.mem_cons_self (Or.inl waiting)
    exact inLine.not_waiting_of_expired
      (ClientStructure.block_mem_inputPorts_iff.1.mp consumed) waiting
  · intro notPending port isPoint isHeld
    rcases List.mem_pair.mp isPoint with rfl | rfl
    · rcases isHeld with waiting | expired
      · exact absurd waiting.2 notPending
      · exact ClientStructure.block_mem_inputPorts_iff.1.mpr expired
    · rcases isHeld with waiting | expired
      · exact absurd waiting.2 notPending
      · exact ClientStructure.block_mem_inputPorts_iff.2.mpr expired

/-- A new numbered pipe. -/
theorem Frame.accounted_numbered_iff
    {fd : PipeFds}
    {pipe : Nat}
    (frame :
      Frame before (before.fds.closeAll (before.inputFds line))
        [(fd.readFd, .readEnd pipe), (fd.writeFd, .writeEnd pipe)]
        ((before.client.takeInput line).setInfor
          (before.infor.updateCrossPipeFd fd line.crossNum))
        after)
    (inserts : before.infor.Inserts line.crossNum)
    (inLine : before.client.InLine)
    (accounted : before.AccountedInLine) :
    after.Accounted ↔ ¬ before.infor.Pending before.infor.minInputPoint := by
  have readIn :
      (fd.readFd, File.readEnd pipe) ∈
        [(fd.readFd, File.readEnd pipe), (fd.writeFd, File.writeEnd pipe)] :=
    List.mem_cons_self
  have writeIn :
      (fd.writeFd, File.writeEnd pipe) ∈
        [(fd.readFd, File.readEnd pipe), (fd.writeFd, File.writeEnd pipe)] :=
    List.mem_cons_of_mem _ List.mem_cons_self
  have turnover :=
    inLine.turnover_numbered line inserts.1
      (frame.fds.fd_ne readIn writeIn (by simp))
      (fun port isHeld isKept =>
        ⟨frame.fd_ne_of_recorded accounted isHeld isKept readIn,
          frame.fd_ne_of_recorded accounted isHeld isKept writeIn⟩)
  have names := before.client.fd_inputPoint line fd line.crossNum
  have isIssued (name : Int) :
      (∃ file other, (name, file) ∈
          [(fd.readFd, File.readEnd pipe), (fd.writeFd, File.writeEnd pipe)] ∧
          file.pipe? = some other) ↔
        ∃ port ∈ before.client.inputPointPorts,
          port.fd ((before.client.takeInput line).setInfor
            (before.infor.updateCrossPipeFd fd line.crossNum)) = name := by
    constructor
    · rintro ⟨file, other, member, _⟩
      rcases List.mem_pair.mp member with isRead | isWrite
      · exact ⟨_, List.mem_cons_self,
          names.1.trans (Prod.mk.inj isRead).1.symm⟩
      · exact ⟨_, List.mem_cons_of_mem _ List.mem_cons_self,
          names.2.trans (Prod.mk.inj isWrite).1.symm⟩
    · rintro ⟨port, isPoint, isName⟩
      rcases List.mem_pair.mp isPoint with rfl | rfl
      · have isRead : name = fd.readFd := isName.symm.trans names.1
        exact ⟨.readEnd pipe, pipe, isRead ▸ readIn, rfl⟩
      · have isWrite : name = fd.writeFd := isName.symm.trans names.2
        exact ⟨.writeEnd pipe, pipe, isWrite ▸ writeIn, rfl⟩
  have exact_iff := turnover.exact_iff accounted (frame.inUse_iff isIssued)
  unfold Accounted
  rw [frame.client_eq]
  exact exact_iff.trans (inputPoint_lost_iff inLine line)

/-- A new user pipe. -/
theorem Frame.accounted_user
    {fd : Int}
    {pipe : Nat}
    (frame :
      Frame before (before.fds.closeAll (before.inputFds line))
        [(fd, .readEnd pipe)]
        ((before.client.takeInput line).setUserPipe line.userOutId
          before.client.id fd)
        after)
    (ready : (before.client.takeInput line).userOutReady line.userOutId = true)
    (inLine : before.client.InLine)
    (accounted : before.AccountedInLine) :
    after.Accounted := by
  have newIn : (fd, File.readEnd pipe) ∈ [(fd, File.readEnd pipe)] :=
    List.mem_singleton_self _
  have isOpen := frame.fds.file_extra newIn
  have nonneg : 0 ≤ fd := (after.fds.bounded fd (by rw [isOpen]; simp)).1
  have turnover :=
    inLine.turnover_user line line.userOutId nonneg fun port isHeld isKept =>
      frame.fd_ne_of_recorded accounted isHeld isKept newIn
  have isIssued (name : Int) :
      (∃ file other, (name, file) ∈ [(fd, File.readEnd pipe)] ∧
          file.pipe? = some other) ↔
        ∃ port ∈ [Port.userPipe line.userOutId before.client.id],
          port.fd ((before.client.takeInput line).setUserPipe line.userOutId
            before.client.id fd) = name := by
    have isName :
        Port.fd
          ((before.client.takeInput line).setUserPipe line.userOutId
            before.client.id fd)
          (.userPipe line.userOutId before.client.id) = fd := by
      simp [Port.fd, ClientStructure.setUserPipe_userPipe]
    constructor
    · rintro ⟨file, other, member, _⟩
      have isNew := List.mem_singleton.mp member
      exact ⟨_, List.mem_singleton_self _,
        isName.trans (Prod.mk.inj isNew).1.symm⟩
    · rintro ⟨port, isPort, rfl⟩
      rw [List.mem_singleton.mp isPort, isName]
      exact ⟨.readEnd pipe, pipe, newIn, rfl⟩
  have exact_iff := turnover.exact_iff accounted (frame.inUse_iff isIssued)
  unfold Accounted
  rw [frame.client_eq]
  refine exact_iff.mpr ?_
  intro port isPort isHeld
  -- the parent found the entry empty, so it was empty or has been consumed
  obtain rfl := List.mem_singleton.mp isPort
  exact ClientStructure.consumed_of_userOutReady ready isHeld

/-- No new pipe. -/
theorem Frame.accounted_plain
    (frame :
      Frame before (before.fds.closeAll (before.inputFds line)) []
        (before.client.takeInput line) after)
    (inLine : before.client.InLine)
    (accounted : before.AccountedInLine) :
    after.Accounted := by
  have turnover := inLine.turnover_plain line
  have exact_iff :=
    turnover.exact_iff accounted (frame.inUse_iff (by simp))
  unfold Accounted
  rw [frame.client_eq]
  exact exact_iff.mpr (by simp)

/-- The effect of a line keeps the accounting unless a pipe is overwritten. -/
theorem Effect.accounted_iff
    {pipe : Nat}
    (effect : Effect line pipe before after)
    (inLine : before.client.InLine)
    (accounted : before.AccountedInLine)
    (notCompeting : ¬ Competing line) :
    after.Accounted ↔ ¬ before.Overwrites line := by
  cases effect with
  | numbered fd kept inserts onlyCompeting frame =>
      rw [onlyCompeting notCompeting] at frame
      rw [frame.accounted_numbered_iff inserts inLine accounted]
      simp [Overwrites, inserts]
  | user fd noCross given ready frame =>
      refine iff_of_true (frame.accounted_user ready inLine accounted) ?_
      rintro ⟨inserts, _⟩
      exact inserts.1 noCross
  | plain kept keeps notUser onlyCompeting frame =>
      rw [onlyCompeting notCompeting] at frame
      refine iff_of_true (frame.accounted_plain inLine accounted) ?_
      rintro ⟨inserts, _⟩
      exact keeps inserts

/-- No descriptor is closed twice. -/
theorem Effect.badCloses
    {pipe : Nat}
    (effect : Effect line pipe before after)
    (inputOpen : before.InputOpen line) :
    after.fds.badCloses = before.fds.badCloses := by
  have closed :=
    closeAll_badCloses inputOpen.distinct inputOpen.isOpen
  cases effect with
  | numbered fd kept inserts onlyCompeting frame =>
      exact frame.fds.badCloses.trans closed
  | user fd noCross given ready frame =>
      exact frame.fds.badCloses.trans closed
  | plain kept keeps notUser onlyCompeting frame =>
      exact frame.fds.badCloses.trans closed

/-! ## Lines of a run -/

/-- The command of a line has its effect, from `single_cmd` or `ordinary_pipe`. -/
theorem dispatch_effect
    {input : Input}
    (isCommand : input.command? = some line)
    {outside : Outside}
    (fileOpens : input.FileOpens outside)
    (inputOpen : server.InputOpen line)
    (notSelf : ¬ server.client.SelfPiped line) :
    Effect line (server.nextPipe + input.innerPipes) server
      (server.dispatch input outside) := by
  cases input with
  | single own =>
      cases isCommand
      exact singleCmd_effect outside inputOpen notSelf
  | pipeline own stages =>
      cases isCommand
      change Effect line _ server (server.ordinaryPipe line outside line.cmdNum)
      rw [ordinaryPipe_of_opens fileOpens]
      exact runPipeline_effect outside stages inputOpen
  | blank => cases isCommand
  | talk => cases isCommand
  | builtin => cases isCommand
  | name name => cases isCommand

/-- A line with a command runs it after the countdown. -/
theorem runShell_of_command
    {input : Input}
    (isCommand : input.command? = some line)
    (outside : Outside)
    (server : Server) :
    server.runShell input outside =
      (server.countDown.dispatch input outside).freeRecord := by
  cases input with
  | single own => rfl
  | pipeline own stages => rfl
  | blank => cases isCommand
  | talk => cases isCommand
  | builtin => cases isCommand
  | name name => cases isCommand

/-- The server has the same descriptors, recorded in the same places. -/
structure SameRecords (first second : Server) : Prop where
  fds : first.fds = second.fds
  nextPipe : first.nextPipe = second.nextPipe
  children : first.children = second.children
  fdIdList : first.main.fdIdList = second.main.fdIdList
  state : ∀ c, (first.client.list c).state = (second.client.list c).state
  sockfd : ∀ c, (first.client.list c).sockfd = (second.client.list c).sockfd
  record :
    ∀ c,
      (first.client.list c).cpInfor.closeFdRecord =
        (second.client.list c).cpInfor.closeFdRecord
  blocks :
    ∀ c,
      (first.client.list c).cpInfor.list = (second.client.list c).cpInfor.list
  userPipe :
    ∀ c, (first.client.list c).userPipe = (second.client.list c).userPipe

/-- The ledger is then the same. -/
theorem SameRecords.ledger
    (same : SameRecords after before) :
    after.client.ledger = before.client.ledger := by
  unfold ClientStructure.ledger
  congr 1
  · funext port
    cases port with
    | readFd c slot =>
        simp [ClientStructure.Recorded, ClientStructure.Waiting, Pending,
          same.state, same.blocks]
    | writeFd c slot =>
        simp [ClientStructure.Recorded, ClientStructure.Waiting, Pending,
          same.state, same.blocks]
    | userPipe receiver sender =>
        simp [ClientStructure.Recorded, same.userPipe]
  · funext port
    cases port with
    | readFd c slot => simp [Port.fd, same.blocks]
    | writeFd c slot => simp [Port.fd, same.blocks]
    | userPipe receiver sender => simp [Port.fd, same.userPipe]

/-- Freeing the record changes no recorded descriptor. -/
theorem sameRecords_freeRecord
    (server : Server) :
    SameRecords server.freeRecord server := by
  have sameInfor (c : Nat) :
      ((server.client.setInfor
          { server.infor with recordFreed := true }).list
            c).cpInfor.closeFdRecord =
          (server.client.list c).cpInfor.closeFdRecord ∧
        ((server.client.setInfor
          { server.infor with recordFreed := true }).list c).cpInfor.list =
          (server.client.list c).cpInfor.list := by
    rw [ClientStructure.setInfor_cpInfor]
    split_ifs with own
    · rw [own]
      exact ⟨rfl, rfl⟩
    · exact ⟨rfl, rfl⟩
  unfold Server.freeRecord
  split_ifs
  · refine ⟨rfl, rfl, rfl, rfl, ?_, ?_, fun c => (sameInfor c).1,
      fun c => (sameInfor c).2, ?_⟩
    · exact server.client.setInfor_state _
    · exact server.client.setInfor_sockfd _
    · exact server.client.setInfor_userPipe _
  · constructor <;> first | rfl | exact fun _ => rfl

@[simp] theorem freeRecord_fds
    (server : Server) :
    server.freeRecord.fds = server.fds := by
  unfold freeRecord
  split_ifs <;> rfl

theorem freeRecord_accounted_iff
    (server : Server) :
    server.freeRecord.Accounted ↔ server.Accounted := by
  unfold Accounted PipeOpen
  rw [(sameRecords_freeRecord server).ledger, freeRecord_fds]

/-- The state in which the command of a line runs. -/
theorem SoundTables.inLine
    (sound : server.SoundTables)
    {fd : Int}
    (connected : server.connected fd = true) :
    ((server.enter fd).countDown).client.InLine := by
  simp only [Server.connected, Bool.and_eq_true] at connected
  exact ClientStructure.inLine_countDown connected.2
    (sound (server.enter fd).client.id)

/-- An admitted line of a connected client. -/
theorem steps_input
    {fd : Int}
    {input : Input}
    {outside : Outside}
    {next : Server}
    (stepped : server.Steps (.input fd input outside) next) :
    server.connected fd = true ∧
      next = (server.enter fd).runShell input outside := by
  unfold Steps step at stepped
  rw [Option.ite_none_right_eq_some] at stepped
  exact ⟨stepped.1, (Option.some.inj stepped.2).symm⟩

/-- The accounting after one line of a state with sound tables. -/
theorem SoundTables.accounted_line_iff
    (sound : server.SoundTables)
    {fd : Int}
    {input : Input}
    {outside : Outside}
    {next : Server}
    (stepped : server.Steps (.input fd input outside) next)
    (isCommand : input.command? = some line)
    (accounted : ((server.enter fd).countDown).AccountedInLine)
    (oneDirective : OneDirective line)
    (fileOpens : input.FileOpens outside)
    (notOwn :
      ¬ (line.userInId = (server.enter fd).client.id ∧
        line.userOutId = (server.enter fd).client.id)) :
    (next.Accounted ↔ ¬ ((server.enter fd).countDown).Overwrites line) ∧
      next.fds.badCloses = server.fds.badCloses := by
  obtain ⟨connected, rfl⟩ := steps_input stepped
  have inLine := sound.inLine connected
  have inputOpen := accounted.inputOpen line
  have notSelf :
      ¬ ((server.enter fd).countDown).client.SelfPiped line := by
    rintro ⟨_, _, isIn, isOut, _⟩
    exact notOwn ⟨isIn, isOut⟩
  have effect := dispatch_effect isCommand fileOpens inputOpen notSelf
  rw [runShell_of_command isCommand, freeRecord_accounted_iff]
  refine ⟨effect.accounted_iff inLine accounted oneDirective.not_competing, ?_⟩
  rw [freeRecord_fds]
  exact effect.badCloses inputOpen

/--
In every reachable state whose open pipe descriptors are those recorded, a line
with one output directive keeps this and closes nothing twice, exactly when it
does not insert a numbered pipe into a block where another pipe waits.
-/
theorem descriptors_accounted_iff
    {path : List (ServerEvent × Server)}
    (isPath : Path Steps initial path)
    {fd : Int}
    {input : Input}
    {outside : Outside}
    {next : Server}
    (stepped :
      (lastState initial path).Steps (.input fd input outside) next)
    (isCommand : input.command? = some line)
    (accounted :
      (((lastState initial path).enter fd).countDown).AccountedInLine)
    (oneDirective : OneDirective line)
    (fileOpens : input.FileOpens outside)
    (notOwn :
      ¬ (line.userInId = ((lastState initial path).enter fd).client.id ∧
        line.userOutId = ((lastState initial path).enter fd).client.id)) :
    next.Accounted ∧
        next.fds.badCloses = (lastState initial path).fds.badCloses ↔
      ¬ (((lastState initial path).enter fd).countDown).Overwrites line := by
  obtain ⟨accounted_iff, sameCloses⟩ :=
    (soundTables_run isPath).accounted_line_iff stepped isCommand accounted
      oneDirective fileOpens notOwn
  rw [accounted_iff]
  exact and_iff_left sameCloses

/-! ## A run that loses a pipe -/

/-- The accounting survives the countdown. -/
theorem Accounted.countDown
    (accounted : server.Accounted)
    (sound : server.SoundTables)
    (state : (server.client.list server.client.id).state = true) :
    server.countDown.AccountedInLine :=
  Ledger.Exact.congr accounted
    (ClientStructure.recordedOrExpired_countDown_iff state
      (sound server.client.id))
    server.client.fd_countDown

/-- The command `cat |n` at a position of the run that fills the table. -/
def fillingCommand (position : Nat) : Command where
  cmd := [["cat"]]
  cmdReserve := "cat"
  crossNum := fillingCross position
  redir := false
  userInId := 0
  userOutId := 0

/-- Nothing outside matters to these lines. -/
def fillingOutside : Outside where
  fd := { readFd := -1, writeFd := -1 }
  pos := -1
  exFd0 := -1
  opens := fun _ => true

/-- A line of the run, from the client on descriptor 4. -/
def fillingEvent (position : Nat) : ServerEvent :=
  .input 4 (.single (fillingCommand position)) fillingOutside

/-- Client 1 is connected on descriptor 4, and its table is as described. -/
structure FillingState
    (table : CrossPipe → Prop)
    (server : Server) : Prop where
  id : server.main.fdIdList 4 = 1
  state : (server.client.list 1).state = true
  sound : server.SoundTables
  accounted : server.Accounted
  table : table (server.client.list 1).cpInfor

theorem FillingState.connected
    {table : CrossPipe → Prop}
    (filling : FillingState table server) :
    server.connected 4 = true := by
  simp [Server.connected, filling.id, filling.state]

/-- The client's next line is admitted. -/
theorem FillingState.steps
    {table : CrossPipe → Prop}
    (filling : FillingState table server)
    (position : Nat) :
    server.Steps (fillingEvent position)
      ((server.enter 4).runShell (.single (fillingCommand position))
        fillingOutside) :=
  if_pos filling.connected

theorem FillingState.enter_id
    {table : CrossPipe → Prop}
    (filling : FillingState table server) :
    (server.enter 4).client.id = 1 := by
  change (server.main.fdIdList 4).toNat = 1
  rw [filling.id]
  rfl

theorem FillingState.countDown_infor
    {table : CrossPipe → Prop}
    (filling : FillingState table server) :
    ((server.enter 4).countDown).infor =
      (server.client.list 1).cpInfor.countDownAndCheck := by
  change (((server.enter 4).client.countDown).list
    ((server.enter 4).client.countDown).id).cpInfor = _
  rw [ClientStructure.countDown, ClientStructure.setInfor_cpInfor,
    if_pos (by simp), filling.enter_id]
  rfl

theorem FillingState.accountedInLine
    {table : CrossPipe → Prop}
    (filling : FillingState table server) :
    ((server.enter 4).countDown).AccountedInLine := by
  have entered : (server.enter 4).Accounted := filling.accounted
  apply entered.countDown filling.sound
  rw [filling.enter_id]
  exact filling.state

theorem oneDirective_fillingCommand
    (position : Nat) :
    OneDirective (fillingCommand position) := by
  simp [OneDirective, fillingCommand]

/-- The table of the client after one of these lines. -/
theorem FillingState.cpInfor_runShell
    {table : CrossPipe → Prop}
    (filling : FillingState table server)
    (position : Nat) :
    ∃ fd freed,
      (((server.enter 4).runShell (.single (fillingCommand position))
          fillingOutside).client.list 1).cpInfor =
        { (server.client.list 1).cpInfor.countDownAndCheck.connectCross
            (fillingCross position) fd with recordFreed := freed } := by
  have connects :=
    connects_singleCmd (fillingCommand position) fillingOutside
      (server.enter 4).countDown
  obtain ⟨fd, cpInfor⟩ := connects.cpInfor
  have own : (server.enter 4).countDown.client.id = 1 := filling.enter_id
  have connected := cpInfor 1
  rw [if_pos own.symm, filling.countDown_infor] at connected
  have sameId : ((server.enter 4).countDown.singleCmd
      (fillingCommand position) fillingOutside).client.id = 1 :=
    connects.id.trans own
  change ∃ fd freed,
    (((server.enter 4).countDown.singleCmd (fillingCommand position)
      fillingOutside).freeRecord.client.list 1).cpInfor = _
  generalize (server.enter 4).countDown.singleCmd (fillingCommand position)
    fillingOutside = ran at *
  refine ⟨fd, ?_⟩
  unfold freeRecord
  split_ifs
  · refine ⟨true, ?_⟩
    change ((ran.client.setInfor _).list 1).cpInfor = _
    rw [ClientStructure.setInfor_cpInfor, if_pos sameId.symm]
    unfold Server.infor self
    rw [sameId, connected]
    rfl
  · exact ⟨(ran.client.list 1).cpInfor.recordFreed, by rw [connected]; rfl⟩

/-- A line of the run that does not overwrite a waiting pipe. -/
theorem FillingState.next
    {table after : CrossPipe → Prop}
    (filling : FillingState table server)
    {position : Nat}
    (kept :
      ∀ infor, table infor →
        ¬ infor.countDownAndCheck.Pending
          infor.countDownAndCheck.minInputPoint)
    (moves :
      ∀ infor fd freed, table infor →
        after
          { infor.countDownAndCheck.connectCross (fillingCross position) fd with
            recordFreed := freed }) :
    ∃ next,
      server.Steps (fillingEvent position) next ∧ FillingState after next := by
  have stepped := filling.steps position
  refine ⟨_, stepped, ?_⟩
  have connects :=
    connects_singleCmd (fillingCommand position) fillingOutside
      (server.enter 4).countDown
  have freed (ran : Server) :
      ran.freeRecord.main.fdIdList = ran.main.fdIdList ∧
        ∀ c, (ran.freeRecord.client.list c).state =
          (ran.client.list c).state := by
    unfold freeRecord
    split_ifs
    · exact ⟨rfl, ran.client.setInfor_state _⟩
    · exact ⟨rfl, fun _ => rfl⟩
  have accounted_iff :=
    (filling.sound.accounted_line_iff stepped rfl filling.accountedInLine
      (oneDirective_fillingCommand position) (fun file => by cases file)
      (by
        rw [filling.enter_id]
        rintro ⟨isIn, _⟩
        cases isIn)).1
  refine {
    id := ?_
    state := ?_
    sound := filling.sound.step stepped
    accounted := ?_
    table := ?_ }
  · change (freeRecord _).main.fdIdList 4 = 1
    rw [(freed _).1]
    exact (congrFun connects.fdIdList 4).trans filling.id
  · change ((freeRecord _).client.list 1).state = true
    rw [(freed _).2]
    refine (connects.state 1).trans ?_
    change ((ClientStructure.setInfor _ _).list 1).state = true
    rw [ClientStructure.setInfor_state]
    exact filling.state
  · refine accounted_iff.mpr ?_
    rintro ⟨_, pending⟩
    rw [filling.countDown_infor] at pending
    exact kept _ filling.table pending
  · obtain ⟨fd, isFreed, isTable⟩ := filling.cpInfor_runShell position
    rw [isTable]
    exact moves _ fd isFreed filling.table

/-- The flag for the freed record does not matter to the shape of the table. -/
theorem filled_recordFreed
    {position : Nat}
    {infor : CrossPipe}
    (filled : Filled position infor)
    (freed : Bool) :
    Filled position { infor with recordFreed := freed } where
  sound := ⟨filled.sound.nonzero, filled.sound.distinct, filled.sound.tight⟩
  waiting := filled.waiting
  free := filled.free
  inputPoint := filled.inputPoint

theorem refilled_recordFreed
    {infor : CrossPipe}
    (refilled : Refilled infor)
    (freed : Bool) :
    Refilled { infor with recordFreed := freed } where
  sound :=
    ⟨refilled.sound.nonzero, refilled.sound.distinct, refilled.sound.tight⟩
  zero := refilled.zero
  one := refilled.one
  others := refilled.others
  inputPoint := refilled.inputPoint

/-- The first client is connected, and nothing is open but its socket. -/
theorem fillingState_login :
    FillingState (Filled 0) initial.login where
  id := rfl
  state := rfl
  sound := soundTables_initial.login
  accounted := by
    have noPipe (fd : Int) : ¬ initial.login.PipeOpen fd := by
      rintro ⟨file, pipe, isOpen, isPipe⟩
      simp only [login, initial, openFile_file, Function.update_apply] at isOpen
      split_ifs at isOpen
      all_goals cases isOpen
      all_goals cases isPipe
    have tables (c : Nat) :
        (initial.login.client.list c).cpInfor = initialCrossPipeInfor ∧
          (initial.login.client.list c).userPipe = fun _ => -1 := by
      change ((Function.update (fun _ => ClientInfor.vacant) 1
          (ClientInfor.loggedIn initial.fds.lowestFree)) c).cpInfor = _ ∧
        ((Function.update (fun _ => ClientInfor.vacant) 1
          (ClientInfor.loggedIn initial.fds.lowestFree)) c).userPipe = _
      by_cases new : c = 1
      · subst new
        exact ⟨rfl, rfl⟩
      · rw [Function.update_of_ne new]
        exact ⟨rfl, rfl⟩
    have noneHeld (port : Port) : ¬ initial.login.client.ledger.held port := by
      cases port with
      | readFd c slot =>
          rintro ⟨_, pending⟩
          rw [(tables c).1] at pending
          simp [Pending, initialCrossPipeInfor] at pending
      | writeFd c slot =>
          rintro ⟨_, pending⟩
          rw [(tables c).1] at pending
          simp [Pending, initialCrossPipeInfor] at pending
      | userPipe receiver sender =>
          change ¬ 0 ≤ (initial.login.client.list receiver).userPipe sender
          rw [(tables receiver).2]
          change ¬ (0 : Int) ≤ -1
          decide
    refine ⟨?_, ?_⟩
    · intro first _ firstHeld
      exact absurd firstHeld (noneHeld first)
    · intro fd
      refine iff_of_false (noPipe fd) ?_
      rintro ⟨port, isHeld, _⟩
      exact noneHeld port isHeld
  table := by
    change Filled 0 initialCrossPipeInfor
    exact {
      sound := sound_initialCrossPipeInfor
      waiting := by
        intro i none
        omega
      free := by
        intro i _
        rfl
      inputPoint := by
        simp [initialCrossPipeInfor, fdInforListSize] }

/-- The run that consists of one login. -/
def loginPath : List (ServerEvent × Server) :=
  [(.login, initial.login)]

theorem path_loginPath : Path Steps initial loginPath :=
  ⟨rfl, trivial⟩

/-- After a login, the line `cat |511` keeps the accounting. -/
theorem firstPipe_accounted :
    ∃ next,
      (lastState initial loginPath).Steps (fillingEvent 0) next ∧
        next.Accounted ∧
        next.fds.badCloses = (lastState initial loginPath).fds.badCloses := by
  have stepped := fillingState_login.steps 0
  refine ⟨_, stepped, ?_⟩
  refine (descriptors_accounted_iff path_loginPath stepped rfl
    fillingState_login.accountedInLine (oneDirective_fillingCommand 0)
    (fun file => by cases file)
    (by
      rintro ⟨isIn, _⟩
      cases isIn)).mpr ?_
  rintro ⟨_, pending⟩
  change (initial.login.enter 4).countDown.infor.Pending
    (initial.login.enter 4).countDown.infor.minInputPoint at pending
  have counted :=
    fillingState_login.table.countDownAndCheck (by simp [fdInforListSize])
  rw [fillingState_login.countDown_infor, counted.2.2] at pending
  have := counted.2.1 0 (Nat.le_refl _)
  have := pending.2
  omega

/-- The first lines of the run fill the table. -/
theorem filling_reaches_filled
    {position : Nat}
    (upTo : position ≤ fdInforListSize) :
    ∃ path,
      Path Steps initial path ∧
        FillingState (Filled position) (lastState initial path) := by
  induction position with
  | zero =>
      exact ⟨loginPath, path_loginPath, fillingState_login⟩
  | succ position inductionHypothesis =>
      obtain ⟨path, isPath, filling⟩ := inductionHypothesis (by omega)
      have inBound : position < fdInforListSize := by omega
      obtain ⟨next, stepped, nextFilling⟩ :=
        filling.next
          (fun infor filled pending => by
            have free := (filled.countDownAndCheck inBound).2
            rw [free.2] at pending
            have := free.1 position (Nat.le_refl _)
            have := pending.2
            omega)
          (fun infor fd freed filled =>
            filled_recordFreed (filled.lineStep inBound fd).2 freed)
      refine ⟨path ++ [(fillingEvent position, next)],
        isPath.snoc stepped, ?_⟩
      rw [lastState_snoc]
      exact nextFilling

/-- One more line frees block 0 and fills it again. -/
theorem filling_reaches_refilled :
    ∃ path,
      Path Steps initial path ∧
        FillingState Refilled (lastState initial path) := by
  obtain ⟨path, isPath, filling⟩ :=
    filling_reaches_filled (Nat.le_refl fdInforListSize)
  have filled511 : FillingState (Filled 511) (lastState initial path) := filling
  obtain ⟨next, stepped, refilled⟩ :=
    filled511.next
      (fun infor filled pending => by
        obtain ⟨zero, _, _, inputPoint⟩ := filled.full_countDownAndCheck
        rw [inputPoint] at pending
        have := pending.2
        omega)
      (fun infor fd freed filled =>
        refilled_recordFreed (filled.refill fd).2 freed)
  refine ⟨path ++ [(fillingEvent 511, next)], isPath.snoc stepped, ?_⟩
  rw [lastState_snoc]
  exact refilled

/--
In a reachable state whose descriptors are all recorded, with fewer than 511
pipes waiting, the line `cat |1000` loses the descriptors of a waiting pipe.
-/
theorem descriptors_lost :
    ∃ path next,
      Path Steps initial path ∧
        (lastState initial path).Steps (fillingEvent 512) next ∧
        (((lastState initial path).enter 4).countDown).AccountedInLine ∧
        (((lastState initial path).enter 4).countDown).infor.pendingSlots.length <
          fdInforListSize ∧
        OneDirective (fillingCommand 512) ∧
        fillingCross 512 = 1000 ∧
        ¬ next.Accounted := by
  obtain ⟨path, isPath, filling⟩ := filling_reaches_refilled
  obtain ⟨zero, one, _, inputPoint⟩ := filling.table.countDownAndCheck
  have stepped := filling.steps 512
  refine ⟨path, _, isPath, stepped, filling.accountedInLine, ?_,
    oneDirective_fillingCommand 512, rfl, ?_⟩
  · rw [filling.countDown_infor]
    have notPending :
        ¬ ((lastState initial path).client.list 1).cpInfor.countDownAndCheck.Pending
          1 := by
      rintro ⟨_, positive⟩
      omega
    exact pendingSlots_length_lt (by simp [fdInforListSize]) notPending
  · have accounted_iff :=
      (filling.sound.accounted_line_iff stepped rfl filling.accountedInLine
        (oneDirective_fillingCommand 512) (fun file => by cases file)
        (by
          rw [filling.enter_id]
          rintro ⟨isIn, _⟩
          cases isIn)).1
    rw [accounted_iff, not_not]
    refine ⟨?_, ?_⟩
    · rw [filling.countDown_infor]
      exact filling.table.inserts
    · rw [filling.countDown_infor, inputPoint]
      exact ⟨by simp [fdInforListSize], by omega⟩

end Server

end NpServers.Shell
