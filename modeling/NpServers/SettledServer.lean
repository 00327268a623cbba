import NpServers.DescriptorAccounting
import NpServers.ForkedChildren

namespace NpServers.Shell

open CrossPipe DescriptorTable TransitionPath

/-!
# The server between two lines

Every recorded descriptor refers to the end of a pipe that its place is meant
for, every session has its socket, and the record of waiting pipes lists only
waiting ones.  This holds in all states of runs without self-piped single
commands, also after stale logins and overwritten blocks: these lose pipes, but
what is recorded afterwards is right.
-/

namespace Server

/-- The descriptors of the sessions are sockets, and each client has its own. -/
structure SessionSockets (server : Server) : Prop where
  isOpen :
    ∀ {fd},
      0 ≤ server.main.fdIdList fd →
      ∃ connection, server.fds.file fd = some (.socket connection)
  own :
    ∀ {c},
      (server.client.list c).state = true →
      server.main.fdIdList (server.client.list c).sockfd = c

/-- The server between two lines. -/
structure Settled (server : Server) : Prop where
  healthy : server.Healthy
  sockets : server.SessionSockets
  sound : server.SoundTables
  record :
    ∀ {c slot},
      slot ∈ (server.client.list c).cpInfor.closeFdRecord →
      (server.client.list c).cpInfor.Pending slot
  wired : server.Wired server.client.ledger
  known : server.KnownPipes

/-! ## Operations that keep the records -/

variable {server before after : Server}

theorem Settled.of_sameRecords
    (settled : before.Settled)
    (same : SameRecords after before)
    (sound : after.SoundTables) :
    after.Settled where
  healthy := by
    refine ⟨?_, ?_, ?_, ?_⟩
    · rw [same.fds]
      exact settled.healthy.standard
    · rw [same.fds]
      exact settled.healthy.unique
    · rw [same.fds, same.nextPipe]
      exact settled.healthy.known
    · intro c isClient
      rw [same.state] at isClient
      rw [same.fds, same.sockfd]
      exact settled.healthy.socket isClient
  sockets := by
    refine ⟨?_, ?_⟩
    · rw [same.fds, same.fdIdList]
      exact settled.sockets.isOpen
    · intro c isClient
      rw [same.state] at isClient
      rw [same.fdIdList, same.sockfd]
      exact settled.sockets.own isClient
  sound := sound
  record := by
    intro c slot recorded
    rw [same.record] at recorded
    unfold Pending
    rw [same.blocks]
    exact settled.record recorded
  wired := by
    rw [same.ledger]
    refine ⟨settled.wired.distinct, ?_, ?_⟩
    · rw [same.fds]
      exact settled.wired.block
    · rw [same.fds]
      exact settled.wired.user
  known := by
    refine settled.known.of_draws ?_ same.nextPipe same.children
    rw [same.fds]
    exact .refl _

theorem sameRecords_enter
    (server : Server)
    (fd : Int) :
    SameRecords (server.enter fd) server := by
  constructor <;> first | rfl | exact fun _ => rfl

theorem sameRecords_post
    (server : Server)
    (notice : Notice) :
    SameRecords (server.post notice) server := by
  constructor <;> first | rfl | exact fun _ => rfl

theorem sameRecords_cmdName
    (server : Server)
    (name : String) :
    SameRecords (server.cmdName name) server := by
  have sameSlot (c : Nat) :
      ∃ other,
        Function.update server.client.list server.client.id
            { server.self with name := name } c =
          { server.client.list c with name := other } := by
    by_cases own : c = server.client.id
    · subst own
      exact ⟨name, Function.update_self ..⟩
    · exact ⟨(server.client.list c).name, Function.update_of_ne own ..⟩
  have sameField {Field : Type} (field : ClientInfor → Field)
      (ignores : ∀ slot name, field { slot with name := name } = field slot)
      (c : Nat) :
      field
          (Function.update server.client.list server.client.id
            { server.self with name := name } c) =
        field (server.client.list c) := by
    obtain ⟨other, isSlot⟩ := sameSlot c
    rw [isSlot, ignores]
  unfold Server.cmdName
  split_ifs
  · constructor <;> first | rfl | exact fun _ => rfl
  · exact {
      fds := rfl
      nextPipe := rfl
      children := rfl
      fdIdList := rfl
      state := sameField ClientInfor.state fun _ _ => rfl
      sockfd := sameField ClientInfor.sockfd fun _ _ => rfl
      record :=
        sameField (fun slot => slot.cpInfor.closeFdRecord) fun _ _ => rfl
      blocks := sameField (fun slot => slot.cpInfor.list) fun _ _ => rfl
      userPipe := sameField ClientInfor.userPipe fun _ _ => rfl }

theorem Settled.enter
    (settled : server.Settled)
    (fd : Int) :
    (server.enter fd).Settled :=
  settled.of_sameRecords (sameRecords_enter server fd) settled.sound

theorem Settled.freeRecord
    (settled : server.Settled) :
    server.freeRecord.Settled :=
  settled.of_sameRecords (sameRecords_freeRecord server)
    settled.sound.freeRecord

theorem Settled.cmdName
    (settled : server.Settled)
    (name : String) :
    (server.cmdName name).Settled :=
  settled.of_sameRecords (sameRecords_cmdName server name)
    (settled.sound.cmdName name)

/-! ## The countdown -/

/-- A ledger that holds less, where what it holds is still open. -/
theorem Wired.of_kept
    {ledger smaller : Ledger Port Int}
    (wired : server.Wired ledger)
    (isHeld : ∀ {port}, smaller.held port → ledger.held port)
    (paired :
      ∀ {c slot},
        smaller.held (.readFd c slot) → smaller.held (.writeFd c slot))
    (sameName :
      ∀ {port}, smaller.held port → smaller.name port = ledger.name port)
    (sameFile :
      ∀ {port file},
        smaller.held port →
        server.fds.file (ledger.name port) = some file →
        after.fds.file (ledger.name port) = some file) :
    after.Wired smaller where
  distinct := by
    intro first second firstHeld secondHeld same
    rw [sameName firstHeld, sameName secondHeld] at same
    exact wired.distinct (isHeld firstHeld) (isHeld secondHeld) same
  block := by
    intro c slot held
    obtain ⟨pipe, isRead, isWrite⟩ := wired.block (isHeld held)
    rw [sameName held, sameName (paired held)]
    exact ⟨pipe, sameFile held isRead, sameFile (paired held) isWrite⟩
  user := by
    intro receiver sender held
    obtain ⟨pipe, isRead⟩ := wired.user (isHeld held)
    rw [sameName held]
    exact ⟨pipe, sameFile held isRead⟩

theorem Settled.healthy_countDown
    (settled : server.Settled) :
    server.countDown.Healthy where
  standard := settled.healthy.standard
  unique := settled.healthy.unique
  known := settled.healthy.known
  socket := by
    intro c isClient
    change ((server.client.setInfor _).list c).state = true at isClient
    change ∃ connection,
      server.fds.file ((server.client.setInfor _).list c).sockfd =
        some (.socket connection)
    rw [ClientStructure.setInfor_state] at isClient
    rw [ClientStructure.setInfor_sockfd]
    exact settled.healthy.socket isClient

/-- The countdown brings a connected client into its line. -/
theorem Settled.lineReady
    (settled : server.Settled)
    (state : (server.client.list server.client.id).state = true) :
    server.countDown.LineReady where
  healthy := settled.healthy_countDown
  inLine :=
    ClientStructure.inLine_countDown state (settled.sound server.client.id)
  wired :=
    settled.wired.of_kept
      (ClientStructure.recordedOrExpired_countDown_iff state
        (settled.sound server.client.id) _).mp
      id
      (fun _ => server.client.fd_countDown _)
      fun _ => id

theorem Settled.countDown
    (settled : server.Settled)
    (state : (server.client.list server.client.id).state = true) :
    server.countDown.Settled where
  healthy := settled.healthy_countDown
  sockets := by
    refine ⟨settled.sockets.isOpen, ?_⟩
    intro c isClient
    change ((server.client.setInfor _).list c).state = true at isClient
    change server.main.fdIdList ((server.client.setInfor _).list c).sockfd = c
    rw [ClientStructure.setInfor_state] at isClient
    rw [ClientStructure.setInfor_sockfd]
    exact settled.sockets.own isClient
  sound := settled.sound.countDown
  record := by
    intro c slot
    change slot ∈ ((server.client.setInfor _).list c).cpInfor.closeFdRecord →
      ((server.client.setInfor _).list c).cpInfor.Pending slot
    rw [ClientStructure.setInfor_cpInfor]
    split_ifs
    · rw [countDownAndCheck_closeFdRecord, mem_pendingSlots]
      exact id
    · exact settled.record
  wired := by
    refine (settled.lineReady state).wired.of_kept ?_ id (fun _ => rfl)
      fun _ => id
    intro port
    cases port with
    | readFd c slot => exact Or.inl
    | writeFd c slot => exact Or.inl
    | userPipe receiver sender => exact id
  known := settled.known.of_draws (.refl _) rfl rfl

/-! ## A line -/

section Line

variable {line : Command}
variable {extra : List (Int × File)}
variable {client : ClientStructure}

/-- A place that is not consumed still refers to its file. -/
theorem LineReady.file_of_kept
    (lineReady : server.LineReady)
    (frame : Frame server (server.takenFds line) extra client after)
    {port : Port}
    (isHeld : server.client.RecordedOrExpired port)
    (kept : port ∉ server.client.inputPorts line) :
    after.fds.file (port.fd server.client) =
      server.fds.file (port.fd server.client) := by
  obtain ⟨file, pipe, isOpen, _⟩ := lineReady.file_of_held isHeld
  have notTaken := lineReady.not_mem_inputFds isHeld kept
  rw [isOpen]
  apply frame.fds.file_base
  rw [takenFds, closeAll_file, if_neg notTaken]
  exact isOpen

/-- Its descriptor differs from every new one. -/
theorem LineReady.fd_ne_new
    (lineReady : server.LineReady)
    (frame : Frame server (server.takenFds line) extra client after)
    {port : Port}
    (isHeld : server.client.RecordedOrExpired port)
    (kept : port ∉ server.client.inputPorts line)
    {fd : Int}
    {file : File}
    (isNew : (fd, file) ∈ extra) :
    port.fd server.client ≠ fd := by
  rintro rfl
  obtain ⟨oldFile, pipe, isOpen, _⟩ := lineReady.file_of_held isHeld
  have free := frame.fds.free isNew
  rw [takenFds, closeAll_file,
    if_neg (lineReady.not_mem_inputFds isHeld kept), isOpen] at free
  cases free

/-- What a line stores and what it keeps refers to the right files. -/
theorem LineReady.wired_of_turnover
    (lineReady : server.LineReady)
    (frame : Frame server (server.takenFds line) extra client after)
    {issued : List Port}
    (turnover :
      Ledger.Turnover server.client.lineLedger client.ledger
        (server.client.inputPorts line) issued)
    (paired :
      ∀ {c slot},
        Port.writeFd c slot ∈ issued → Port.readFd c slot ∈ issued)
    (issuedBlock :
      ∀ {c slot},
        Port.readFd c slot ∈ issued →
        ∃ pipe,
          after.fds.file (Port.fd client (.readFd c slot)) =
              some (.readEnd pipe) ∧
            after.fds.file (Port.fd client (.writeFd c slot)) =
              some (.writeEnd pipe))
    (issuedUser :
      ∀ {receiver sender},
        Port.userPipe receiver sender ∈ issued →
        ∃ pipe,
          after.fds.file (Port.fd client (.userPipe receiver sender)) =
            some (.readEnd pipe)) :
    after.Wired client.ledger where
  distinct := turnover.distinct lineReady.wired.distinct
  block := by
    intro c slot held
    rcases (turnover.held_iff _).mp held with
        isIssued | ⟨wasHeld, kept, notIssued⟩
    · exact issuedBlock isIssued
    · obtain ⟨pipe, isRead, isWrite⟩ := lineReady.wired.block wasHeld
      have readHeld :
          server.client.RecordedOrExpired (.readFd c slot) := wasHeld
      have writeHeld :
          server.client.RecordedOrExpired (.writeFd c slot) := wasHeld
      have writeKept : Port.writeFd c slot ∉ server.client.inputPorts line := by
        rw [ClientStructure.block_mem_inputPorts_iff.2]
        rwa [ClientStructure.block_mem_inputPorts_iff.1] at kept
      have writeNotIssued : Port.writeFd c slot ∉ issued :=
        fun member => notIssued (paired member)
      refine ⟨pipe, ?_, ?_⟩
      · rw [turnover.name_eq _ wasHeld kept notIssued]
        exact (lineReady.file_of_kept frame readHeld kept).trans isRead
      · rw [turnover.name_eq (.writeFd c slot) writeHeld writeKept
          writeNotIssued]
        exact (lineReady.file_of_kept frame writeHeld writeKept).trans isWrite
  user := by
    intro receiver sender held
    rcases (turnover.held_iff _).mp held with
        isIssued | ⟨wasHeld, kept, notIssued⟩
    · exact issuedUser isIssued
    · obtain ⟨pipe, isRead⟩ := lineReady.wired.user wasHeld
      have entryHeld :
          server.client.RecordedOrExpired (.userPipe receiver sender) :=
        wasHeld
      refine ⟨pipe, ?_⟩
      rw [turnover.name_eq _ wasHeld kept notIssued]
      exact (lineReady.file_of_kept frame entryHeld kept).trans isRead

/-- A line with a new numbered pipe stores its two ends. -/
theorem LineReady.turnover_numbered
    (lineReady : server.LineReady)
    {fd : PipeFds}
    {pipe : Nat}
    (cross : line.crossNum ≠ 0)
    (isRead : (fd.readFd, .readEnd pipe) ∈ extra)
    (isWrite : (fd.writeFd, .writeEnd pipe) ∈ extra)
    (frame : Frame server (server.takenFds line) extra client after) :
    Ledger.Turnover server.client.lineLedger
      ((server.client.takeInput line).setInfor
        (server.infor.updateCrossPipeFd fd line.crossNum)).ledger
      (server.client.inputPorts line) server.client.inputPointPorts :=
  lineReady.inLine.turnover_numbered line cross
    (frame.fds.fd_ne isRead isWrite (by simp))
    fun _ isHeld kept =>
      ⟨lineReady.fd_ne_new frame isHeld kept isRead,
        lineReady.fd_ne_new frame isHeld kept isWrite⟩

/-- A line with a new user pipe stores its read end. -/
theorem LineReady.turnover_user
    (lineReady : server.LineReady)
    {fd : Int}
    {pipe : Nat}
    (isRead : (fd, .readEnd pipe) ∈ extra)
    (frame : Frame server (server.takenFds line) extra client after) :
    Ledger.Turnover server.client.lineLedger
      ((server.client.takeInput line).setUserPipe line.userOutId
        server.client.id fd).ledger
      (server.client.inputPorts line)
      [.userPipe line.userOutId server.client.id] := by
  have isOpen := frame.fds.file_extra isRead
  have nonneg : 0 ≤ fd := (after.fds.bounded fd (by rw [isOpen]; simp)).1
  exact lineReady.inLine.turnover_user line line.userOutId nonneg
    fun _ isHeld kept => lineReady.fd_ne_new frame isHeld kept isRead

theorem LineReady.wired_numbered
    (lineReady : server.LineReady)
    {fd : PipeFds}
    {pipe : Nat}
    (cross : line.crossNum ≠ 0)
    (isRead : (fd.readFd, .readEnd pipe) ∈ extra)
    (isWrite : (fd.writeFd, .writeEnd pipe) ∈ extra)
    (frame :
      Frame server (server.takenFds line) extra
        ((server.client.takeInput line).setInfor
          (server.infor.updateCrossPipeFd fd line.crossNum))
        after) :
    after.Wired after.client.ledger := by
  have turnover := lineReady.turnover_numbered cross isRead isWrite frame
  have names := server.client.fd_inputPoint line fd line.crossNum
  rw [frame.client_eq]
  refine lineReady.wired_of_turnover frame turnover ?_ ?_ ?_
  · intro c slot member
    simp only [ClientStructure.inputPointPorts, List.mem_cons,
      Port.writeFd.injEq, reduceCtorEq, List.not_mem_nil, or_false,
      false_or] at member
    obtain ⟨rfl, rfl⟩ := member
    exact List.mem_cons_self
  · intro c slot member
    simp only [ClientStructure.inputPointPorts, List.mem_cons,
      Port.readFd.injEq, reduceCtorEq, List.not_mem_nil, or_false] at member
    obtain ⟨rfl, rfl⟩ := member
    exact ⟨pipe, (congrArg _ names.1).trans (frame.fds.file_extra isRead),
      (congrArg _ names.2).trans (frame.fds.file_extra isWrite)⟩
  · intro receiver sender member
    simp [ClientStructure.inputPointPorts] at member

theorem LineReady.wired_user
    (lineReady : server.LineReady)
    {fd : Int}
    {pipe : Nat}
    (isRead : (fd, .readEnd pipe) ∈ extra)
    (frame :
      Frame server (server.takenFds line) extra
        ((server.client.takeInput line).setUserPipe line.userOutId
          server.client.id fd)
        after) :
    after.Wired after.client.ledger := by
  have isOpen := frame.fds.file_extra isRead
  have turnover := lineReady.turnover_user isRead frame
  rw [frame.client_eq]
  refine lineReady.wired_of_turnover frame turnover (by simp) (by simp) ?_
  intro receiver sender member
  obtain ⟨rfl, rfl⟩ : receiver = line.userOutId ∧ sender = server.client.id := by
    simpa using member
  refine ⟨pipe, ?_⟩
  simpa [Port.fd, ClientStructure.setUserPipe_userPipe] using isOpen

theorem LineReady.wired_plain
    (lineReady : server.LineReady)
    (frame :
      Frame server (server.takenFds line) extra
        (server.client.takeInput line) after) :
    after.Wired after.client.ledger := by
  have turnover := lineReady.inLine.turnover_plain line
  rw [frame.client_eq]
  exact lineReady.wired_of_turnover frame turnover (by simp) (by simp)
    (by simp)

/-- The record still lists only waiting pipes. -/
theorem Settled.record_updateCrossPipeFd
    (settled : server.Settled)
    (inLine : server.client.InLine)
    {crossNum : Int}
    (given : crossNum ≠ 0)
    (fd : PipeFds)
    {slot : Nat}
    (recorded :
      slot ∈ (server.infor.updateCrossPipeFd fd crossNum).closeFdRecord) :
    (server.infor.updateCrossPipeFd fd crossNum).Pending slot := by
  rw [updateCrossPipeFd_closeFdRecord] at recorded
  exact (inLine.pending_updateCrossPipeFd_iff given fd slot).mpr
    (Or.inr (settled.record recorded))

/-- The effect of a line on the clients themselves. -/
theorem Settled.of_frame
    (settled : server.Settled)
    (lineReady : server.LineReady)
    (frame : Frame server (server.takenFds line) extra client after)
    (sameState :
      ∀ c, (client.list c).state = (server.client.list c).state)
    (sameSockfd :
      ∀ c, (client.list c).sockfd = (server.client.list c).sockfd)
    (record :
      ∀ {c slot},
        slot ∈ (client.list c).cpInfor.closeFdRecord →
        (client.list c).cpInfor.Pending slot)
    (wired : after.Wired after.client.ledger)
    (sound : after.SoundTables)
    (known : after.KnownPipes) :
    after.Settled where
  healthy :=
    frame.healthy lineReady.healthy (lineReady.underway_taken line).within
      (lineReady.underway_taken line).keeps sameState sameSockfd
  sockets := by
    have sameIds : after.main.fdIdList = server.main.fdIdList := by
      rw [frame.main]
    refine ⟨?_, ?_⟩
    · intro fd inRange
      rw [sameIds] at inRange
      obtain ⟨connection, isOpen⟩ := settled.sockets.isOpen inRange
      exact ⟨connection, frame.fds.file_base
        ((lineReady.underway_taken line).keeps isOpen rfl)⟩
    · intro c isClient
      rw [frame.client_eq, sameState] at isClient
      rw [frame.client_eq, sameSockfd, sameIds]
      exact settled.sockets.own isClient
  sound := sound
  record := by
    rw [frame.client_eq]
    exact record
  wired := wired
  known := known

theorem Settled.of_effect
    (settled : server.Settled)
    (lineReady : server.LineReady)
    {pipe : Nat}
    (effect : Effect line pipe server after)
    (sound : after.SoundTables)
    (known : after.KnownPipes) :
    after.Settled := by
  cases effect with
  | numbered fd kept inserts onlyCompeting frame =>
      have wired :=
        lineReady.wired_numbered inserts.1 List.mem_cons_self
          (List.mem_cons_of_mem _ List.mem_cons_self) frame
      refine settled.of_frame lineReady frame (by simp) (by simp) ?_ wired
        sound known
      intro c slot
      rw [ClientStructure.setInfor_cpInfor]
      split_ifs
      · exact settled.record_updateCrossPipeFd lineReady.inLine inserts.1 fd
      · rw [ClientStructure.takeInput_cpInfor]
        exact settled.record
  | user fd noCross given ready frame =>
      have wired := lineReady.wired_user List.mem_cons_self frame
      refine settled.of_frame lineReady frame (by simp) (by simp) ?_ wired
        sound known
      intro c slot
      rw [ClientStructure.setUserPipe_cpInfor,
        ClientStructure.takeInput_cpInfor]
      exact settled.record
  | plain kept keeps notUser onlyCompeting frame =>
      have wired := lineReady.wired_plain frame
      refine settled.of_frame lineReady frame (by simp) (by simp) ?_ wired
        sound known
      intro c slot
      rw [ClientStructure.takeInput_cpInfor]
      exact settled.record

theorem Settled.singleCmd
    (settled : server.Settled)
    (lineReady : server.LineReady)
    {line : Command}
    (outside : Outside)
    (notSelf : ¬ server.client.SelfPiped line)
    (sound : (server.singleCmd line outside).SoundTables) :
    (server.singleCmd line outside).Settled := by
  have effect :=
    singleCmd_effect outside (lineReady.inputPipes line).inputOpen notSelf
  exact settled.of_effect lineReady effect sound
    (settled.known.singleCmd line outside)

theorem Settled.ordinaryPipe
    (settled : server.Settled)
    (lineReady : server.LineReady)
    {line : Command}
    (stages : 2 ≤ line.cmdNum)
    (outside : Outside)
    (sound : (server.ordinaryPipe line outside line.cmdNum).SoundTables) :
    (server.ordinaryPipe line outside line.cmdNum).Settled := by
  have known := settled.known.ordinaryPipe line outside line.cmdNum
  unfold Server.ordinaryPipe at sound known ⊢
  split_ifs at sound known ⊢
  · exact settled.of_sameRecords (sameRecords_post ..) sound
  · have effect :=
      runPipeline_effect outside stages (lineReady.inputPipes line).inputOpen
    exact settled.of_effect lineReady effect sound known

end Line

/-- The line is one command that reads and writes its client's own pipe. -/
def SelfPipes
    (server : Server) :
    Input → Prop
  | .single line => server.client.SelfPiped line
  | _ => False

instance
    (server : Server)
    (input : Input) :
    Decidable (server.SelfPipes input) := by
  cases input <;> unfold SelfPipes <;> infer_instance

theorem Settled.dispatch
    (settled : server.Settled)
    (lineReady : server.LineReady)
    (record : server.infor.closeFdRecord = server.infor.pendingSlots)
    {input : Input}
    (outside : Outside)
    (notSelf : ¬ server.SelfPipes input) :
    (server.dispatch input outside).Settled := by
  have sound := settled.sound.dispatch record input outside
  cases input with
  | blank => exact settled
  | talk => exact settled
  | builtin => exact settled
  | name name => exact settled.cmdName name
  | single line => exact settled.singleCmd lineReady outside notSelf sound
  | pipeline line stages =>
      exact settled.ordinaryPipe lineReady stages outside sound

theorem Settled.runShell
    (settled : server.Settled)
    (state : (server.client.list server.client.id).state = true)
    {input : Input}
    (outside : Outside)
    (notSelf : ¬ server.countDown.SelfPipes input) :
    (server.runShell input outside).Settled := by
  have counted := settled.countDown state
  have finished (other : Input) (otherNotSelf : ¬ server.countDown.SelfPipes other) :
      (server.countDown.dispatch other outside).freeRecord.Settled :=
    (counted.dispatch (settled.lineReady state) server.countDown_record outside
      otherNotSelf).freeRecord
  cases input with
  | blank => exact settled
  | talk => exact counted
  | builtin => exact finished .builtin notSelf
  | name name => exact finished (.name name) notSelf
  | single line => exact finished (.single line) notSelf
  | pipeline line stages => exact finished (.pipeline line stages) notSelf

end Server

end NpServers.Shell
