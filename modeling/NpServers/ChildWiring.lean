import NpServers.ServerWiring

namespace NpServers.Shell

open CrossPipe DescriptorTable

/-!
# The descriptors of a child at `execvp`

A child closes the waiting numbered pipes of its client, connects its standard
streams and closes what it used for that.  The lemmas below follow its table
from the fork: which descriptors it has closed, and what its streams refer to.
-/

/-- The descriptors that `close_cross_pipe_fd` closes. -/
def crossFds
    (infor : CrossPipe)
    (pos : Int) : List Int :=
  (infor.closeFdRecord.filter fun slot : Nat => decide (pos ≠ slot)).flatMap
    fun slot => [(infor.list slot).writeFd, (infor.list slot).readFd]

theorem closeCrossPipeFd_eq
    (infor : CrossPipe)
    (pos : Int)
    (fds : DescriptorTable File) :
    closeCrossPipeFd infor pos fds = fds.closeAll (crossFds infor pos) := by
  unfold closeCrossPipeFd crossFds
  induction infor.closeFdRecord generalizing fds with
  | nil =>
      rfl
  | cons slot rest inductionHypothesis =>
      rw [List.foldl_cons, inductionHypothesis, List.filter_cons]
      by_cases skipped : pos = slot
      · simp [skipped]
      · simp [skipped, closeAll_cons]

theorem mem_crossFds
    {infor : CrossPipe}
    {pos fd : Int} :
    fd ∈ crossFds infor pos ↔
      ∃ slot ∈ infor.closeFdRecord,
        pos ≠ slot ∧
          (fd = (infor.list slot).writeFd ∨ fd = (infor.list slot).readFd) := by
  simp only [crossFds, List.mem_flatMap, List.mem_filter, decide_eq_true_eq,
    List.mem_cons, List.not_mem_nil, or_false]
  constructor
  · rintro ⟨slot, ⟨recorded, notPos⟩, isFd⟩
    exact ⟨slot, recorded, notPos, isFd⟩
  · rintro ⟨slot, recorded, notPos, isFd⟩
    exact ⟨slot, ⟨recorded, notPos⟩, isFd⟩

namespace Server

theorem childStart_eq
    (server : Server)
    (pos : Int) :
    server.childStart pos =
      server.fds.closeAll (crossFds server.infor pos) := by
  unfold childStart
  split_ifs with some
  · exact closeCrossPipeFd_eq ..
  · have none : server.infor.closeFdRecord = [] := by
      simpa [dataNum] using some
    simp [crossFds, none]

/-! ## A server about to fork -/

/--
The server about to fork for the current client: its record lists the waiting
numbered pipes, both ends of each of them are open, and no two share them.
-/
structure ForkReady (server : Server) : Prop where
  healthy : server.Healthy
  state : server.self.state = true
  record : server.infor.closeFdRecord = server.infor.pendingSlots
  block :
    ∀ {slot},
      server.infor.Pending slot →
      ∃ pipe,
        server.fds.file (server.infor.list slot).readFd =
            some (.readEnd pipe) ∧
          server.fds.file (server.infor.list slot).writeFd =
            some (.writeEnd pipe)
  apart :
    ∀ {slot other},
      server.infor.Pending slot →
      server.infor.Pending other →
      (server.infor.list slot).writeFd = (server.infor.list other).writeFd →
      slot = other

variable {server : Server}

/-- The descriptors of the waiting pipes are ends of pipes. -/
theorem ForkReady.crossFds_pipe
    (ready : server.ForkReady)
    {pos fd : Int}
    (member : fd ∈ crossFds server.infor pos) :
    ∃ slot pipe,
      server.infor.Pending slot ∧ pos ≠ slot ∧
        server.fds.file (server.infor.list slot).writeFd =
          some (.writeEnd pipe) ∧
        (server.fds.file fd = some (.writeEnd pipe) ∨
          server.fds.file fd = some (.readEnd pipe)) := by
  obtain ⟨slot, recorded, notPos, isFd⟩ := mem_crossFds.mp member
  rw [ready.record, mem_pendingSlots] at recorded
  obtain ⟨pipe, isRead, isWrite⟩ := ready.block recorded
  refine ⟨slot, pipe, recorded, notPos, isWrite, ?_⟩
  rcases isFd with rfl | rfl
  · exact Or.inl isWrite
  · exact Or.inr isRead

/-- A descriptor that is no end of a pipe is not among them. -/
theorem ForkReady.not_mem_crossFds
    (ready : server.ForkReady)
    {fd : Int}
    {file : File}
    (isOpen : server.fds.file fd = some file)
    (notPipe : file.pipe? = none)
    (pos : Int) :
    fd ∉ crossFds server.infor pos := by
  intro member
  obtain ⟨_, pipe, _, _, _, isWrite | isRead⟩ := ready.crossFds_pipe member
  · rw [isOpen] at isWrite
    rw [Option.some.inj isWrite] at notPipe
    cases notPipe
  · rw [isOpen] at isRead
    rw [Option.some.inj isRead] at notPipe
    cases notPipe

/-- The block that a child keeps is not among the ones it closes. -/
theorem ForkReady.block_not_mem_crossFds
    (ready : server.ForkReady)
    {slot : Nat}
    (pending : server.infor.Pending slot) :
    (server.infor.list slot).readFd ∉ crossFds server.infor slot ∧
      (server.infor.list slot).writeFd ∉ crossFds server.infor slot := by
  obtain ⟨pipe, isRead, isWrite⟩ := ready.block pending
  constructor
  · intro member
    obtain ⟨other, otherPipe, otherPending, different, otherWrite, isEnd⟩ :=
      ready.crossFds_pipe member
    rw [isRead] at isEnd
    rcases isEnd with wrongEnd | sameEnd
    · cases wrongEnd
    · cases sameEnd
      have sameFd := ready.healthy.unique isWrite otherWrite rfl
      exact different (by rw [ready.apart pending otherPending sameFd])
  · intro member
    obtain ⟨other, otherPipe, otherPending, different, otherWrite, isEnd⟩ :=
      ready.crossFds_pipe member
    rw [isWrite] at isEnd
    rcases isEnd with sameEnd | wrongEnd
    · cases sameEnd
      have sameFd := ready.healthy.unique isWrite otherWrite rfl
      exact different (by rw [ready.apart pending otherPending sameFd])
    · cases wrongEnd

/-- The child's table after its first lines. -/
theorem ForkReady.childStart_image
    (ready : server.ForkReady)
    (pos : Int) :
    Image server.fds (server.childStart pos) (crossFds server.infor pos)
      (some .terminal) (some .terminal) (some .terminal) := by
  have start := Image.refl server.fds
  rw [ready.healthy.standard standard_stdin,
    ready.healthy.standard standard_stdout,
    ready.healthy.standard standard_stderr] at start
  rw [childStart_eq]
  have notStandard : ∀ fd ∈ crossFds server.infor pos, ¬ Standard fd := by
    intro fd member
    obtain ⟨_, pipe, _, _, _, isWrite | isRead⟩ := ready.crossFds_pipe member
    · exact ready.healthy.not_standard isWrite (by simp)
    · exact ready.healthy.not_standard isRead (by simp)
  exact start.closeAll notStandard

/-! ## Connecting the streams -/

section Streams

variable {start table : DescriptorTable File}
variable {closed : List Int}
variable {input output errors : Option File}

/-- The write end of a pipe becomes the standard output. -/
theorem connectWriteEnd_image
    (image : Image start table closed input output errors)
    {fd : PipeFds}
    {file : File}
    (isOpen : start.file fd.writeFd = some file)
    (readNotStandard : ¬ Standard fd.readFd)
    (writeNotStandard : ¬ Standard fd.writeFd)
    (different : fd.readFd ≠ fd.writeFd)
    (kept : fd.writeFd ∉ closed) :
    Image start (connectWriteEnd fd .child table)
      (closed ++ [fd.readFd, fd.writeFd]) input (some file) errors := by
  have closedRead := image.close readNotStandard
  have stillOpen :
      (table.close fd.readFd).file fd.writeFd = some file := by
    rw [closedRead.file_of_not_mem writeNotStandard]
    · exact isOpen
    · simpa [kept] using different.symm
  have connected := (closedRead.dup2_stdout stillOpen).close writeNotStandard
  rwa [List.append_assoc] at connected

/-- The read end of a pipe becomes the standard input. -/
theorem connectReadEnd_image
    (image : Image start table closed input output errors)
    {fd : Int}
    {file : File}
    (isOpen : start.file fd = some file)
    (notStandard : ¬ Standard fd)
    (kept : fd ∉ closed) :
    Image start (connectReadEnd fd .child table) (closed ++ [fd])
      (some file) output errors := by
  have stillOpen : table.file fd = some file := by
    rw [image.file_of_not_mem notStandard kept]
    exact isOpen
  exact (image.dup2_stdin stillOpen).close notStandard

end Streams

/-- The input that the line selects for its first command. -/
def selectedInput
    (server : Server)
    (line : Command) : Option File :=
  if 0 ≤ server.infor.outputPoint then
    server.fds.file
      (server.infor.list server.infor.outputPoint.toNat).readFd
  else if line.userInId ≠ 0 then
    if server.client.userInReady line.userInId then
      server.fds.file (server.self.userPipe line.userInId)
    else
      some (.named devNull)
  else
    server.fds.file server.sockfd

/-- The child's first command gets the selected input. -/
theorem ForkReady.childInput_image
    (ready : server.ForkReady)
    {line : Command}
    (inputPipes : server.InputPipes line)
    {outside : Outside}
    {table connected : DescriptorTable File}
    {closed : List Int}
    {first second third : File}
    (image :
      Image server.fds table closed (some first) (some second) (some third))
    (inputKept : ∀ fd ∈ server.inputFds line, fd ∉ closed)
    (socketKept : server.sockfd ∉ closed)
    (ran : childInput line outside server table = .ok connected) :
    Image server.fds connected (closed ++ server.inputFds line)
        (server.selectedInput line) (some second) (some third) ∧
      ∃ file, server.selectedInput line = some file := by
  have notStandard {fd : Int} (member : fd ∈ server.inputFds line) :
      ¬ Standard fd := by
    obtain ⟨file, pipe, isOpen, isPipe⟩ := inputPipes.isPipe fd member
    apply ready.healthy.not_standard isOpen
    rintro rfl
    cases isPipe
  unfold childInput at ran
  unfold selectedInput
  split_ifs at ran ⊢ with expired given isReady
  · -- the expired numbered pipe
    have ports := ClientStructure.inputPorts_of_expired line expired
    have isInput :
        server.inputFds line =
          [(server.infor.list server.infor.outputPoint.toNat).writeFd,
            (server.infor.list server.infor.outputPoint.toNat).readFd] := by
      unfold inputFds
      rw [ports]
      rfl
    rw [isInput] at inputKept notStandard ⊢
    have distinct := inputPipes.distinct
    rw [isInput] at distinct
    obtain ⟨file, pipe, isOpen, _⟩ :=
      inputPipes.isPipe _ (by rw [isInput]; exact List.mem_cons_of_mem _ List.mem_cons_self)
    cases ran
    have closedWrite := image.close (notStandard List.mem_cons_self)
    have kept :
        (server.infor.list server.infor.outputPoint.toNat).readFd ∉
          closed ++
            [(server.infor.list server.infor.outputPoint.toNat).writeFd] := by
      have notClosed := inputKept _ (List.mem_cons_of_mem _ List.mem_cons_self)
      have different := (List.nodup_cons.mp distinct).1
      simp only [List.mem_singleton] at different
      simp [notClosed, Ne.symm different]
    have connected :=
      connectReadEnd_image closedWrite isOpen
        (notStandard (List.mem_cons_of_mem _ List.mem_cons_self)) kept
    rw [List.append_assoc] at connected
    rw [isOpen]
    exact ⟨connected, file, rfl⟩
  · -- a user pipe
    have ports := ClientStructure.inputPorts_of_given expired ⟨given, isReady⟩
    have isInput :
        server.inputFds line = [server.self.userPipe line.userInId] := by
      unfold inputFds
      rw [ports]
      rfl
    rw [isInput] at inputKept notStandard ⊢
    obtain ⟨file, pipe, isOpen, _⟩ :=
      inputPipes.isPipe _ (by rw [isInput]; exact List.mem_cons_self)
    cases ran
    rw [isOpen]
    exact ⟨connectReadEnd_image image isOpen (notStandard List.mem_cons_self)
      (inputKept _ List.mem_cons_self), file, rfl⟩
  · -- `/dev/null` in place of a user pipe
    have ports := ClientStructure.inputPorts_of_not_given expired
      (fun both : line.userInId ≠ 0 ∧ _ => isReady both.2)
    have isInput : server.inputFds line = [] := by
      unfold inputFds
      rw [ports]
      rfl
    rw [isInput, List.append_nil]
    unfold redirectTo at ran
    split_ifs at ran with opens
    cases ran
    exact ⟨image.redirected_stdin image.lowestFree_not_standard _, _, rfl⟩
  · -- the socket
    have ports := ClientStructure.inputPorts_of_not_given expired
      (fun both : line.userInId ≠ 0 ∧ _ => given both.1)
    have isInput : server.inputFds line = [] := by
      unfold inputFds
      rw [ports]
      rfl
    rw [isInput, List.append_nil]
    obtain ⟨connection, isOpen⟩ := ready.healthy.socket ready.state
    change server.fds.file server.sockfd = some (.socket connection) at isOpen
    have stillOpen : table.file server.sockfd = some (.socket connection) := by
      rw [image.file_of_not_mem
        (ready.healthy.not_standard isOpen (by simp)) socketKept]
      exact isOpen
    cases ran
    rw [isOpen]
    exact ⟨image.dup2_stdin stillOpen, _, rfl⟩

/-! ## The output -/

/-- A pipe that the child can put on its standard output. -/
structure WritablePipe
    (server : Server)
    (fd : PipeFds)
    (closed : List Int) : Prop where
  ends :
    ∃ pipe,
      server.fds.file fd.readFd = some (.readEnd pipe) ∧
        server.fds.file fd.writeFd = some (.writeEnd pipe)
  kept : fd.writeFd ∉ closed

/-- The write end of such a pipe becomes the standard output. -/
theorem WritablePipe.image
    (healthy : server.Healthy)
    {fd : PipeFds}
    {table : DescriptorTable File}
    {closed : List Int}
    {input output errors : Option File}
    (writable : server.WritablePipe fd closed)
    (image : Image server.fds table closed input output errors) :
    Image server.fds (connectWriteEnd fd .child table)
      (closed ++ [fd.readFd, fd.writeFd]) input (server.fds.file fd.writeFd)
      errors := by
  obtain ⟨⟨pipe, isRead, isWrite⟩, kept⟩ := writable
  rw [isWrite]
  refine connectWriteEnd_image image isWrite
    (healthy.not_standard isRead (by simp))
    (healthy.not_standard isWrite (by simp)) ?_ kept
  intro same
  rw [same, isWrite] at isRead
  cases isRead

/-- The output that a line selects for its last command, at the fork. -/
def selectedOutput
    (server : Server)
    (line : Command)
    (fd : PipeFds)
    (file : String) : Option File :=
  if line.crossNum ≠ 0 then
    server.fds.file fd.writeFd
  else if line.redir then
    some (.named file)
  else if line.userOutId ≠ 0 then
    if server.client.userOutReady line.userOutId then
      server.fds.file fd.writeFd
    else
      some (.named devNull)
  else
    server.fds.file server.sockfd

/-- The line writes to a pipe. -/
def writesPipe
    (server : Server)
    (line : Command) : Bool :=
  decide (line.crossNum ≠ 0) ||
    !line.redir && decide (line.userOutId ≠ 0) &&
      server.client.userOutReady line.userOutId

/-- The descriptors that a child closes for its output. -/
def outputFds
    (server : Server)
    (line : Command)
    (fd : PipeFds) : List Int :=
  if server.writesPipe line then [fd.readFd, fd.writeFd] else []

/-- The calls for the output alone. -/
theorem closeAndConnectFd_output
    (fd : PipeFds)
    (side : Side)
    (fds : DescriptorTable File) :
    closeAndConnectFd 0 0 1 fd (-1) side fds = connectWriteEnd fd side fds :=
  rfl

/-- The child's branch for a cross number. -/
theorem childCross_image
    (healthy : server.Healthy)
    {line : Command}
    {fd : PipeFds}
    {table : DescriptorTable File}
    {closed : List Int}
    {input output errors : Option File}
    (writable : server.WritablePipe fd closed)
    (image : Image server.fds table closed input output errors) :
    Image server.fds (childCross line fd table)
      (closed ++ [fd.readFd, fd.writeFd]) input (server.fds.file fd.writeFd)
      (if line.crossNum < 0 then server.fds.file fd.writeFd else errors) := by
  unfold childCross
  dsimp only
  rw [closeAndConnectFd_output]
  split_ifs with toErrors
  · obtain ⟨pipe, _, isWrite⟩ := writable.ends
    have stillOpen : table.file fd.writeFd = some (.writeEnd pipe) := by
      rw [image.file_of_not_mem (healthy.not_standard isWrite (by simp))
        writable.kept]
      exact isWrite
    have connected :=
      writable.image healthy (image.dup2_stderr stillOpen)
    rw [isWrite] at connected ⊢
    exact connected
  · exact writable.image healthy image

/-- The child's branch for `>id`. -/
theorem childUserOut_image
    (healthy : server.Healthy)
    {line : Command}
    {outside : Outside}
    {fd : PipeFds}
    {table connected : DescriptorTable File}
    {closed : List Int}
    {first second third : File}
    (writable :
      server.client.userOutReady line.userOutId = true →
      server.WritablePipe fd closed)
    (image :
      Image server.fds table closed (some first) (some second) (some third))
    (ran : childUserOut line outside server fd table = .ok connected) :
    Image server.fds connected
      (closed ++
        if server.client.userOutReady line.userOutId then
          [fd.readFd, fd.writeFd]
        else [])
      (some first)
      (if server.client.userOutReady line.userOutId then
        server.fds.file fd.writeFd
      else some (.named devNull))
      (some third) := by
  unfold childUserOut at ran
  split_ifs at ran ⊢ with isReady
  · cases ran
    rw [closeAndConnectFd_output]
    exact (writable isReady).image healthy image
  · unfold redirectTo at ran
    split_ifs at ran with opens
    cases ran
    rw [List.append_nil]
    exact image.redirected_stdout image.lowestFree_not_standard _

/-! ## A fork in the middle of a line -/

/--
The tables under a fork: of the descriptors that were open when the line began,
only ends of pipes may be closed already, and no waiting numbered pipe is.
-/
structure Underway
    (server : Server)
    (base : DescriptorTable File)
    (client : ClientStructure) : Prop where
  within :
    ∀ {fd file}, base.file fd = some file → server.fds.file fd = some file
  keeps :
    ∀ {fd file},
      server.fds.file fd = some file →
      file.pipe? = none →
      base.file fd = some file
  waiting :
    ∀ {slot},
      server.infor.Pending slot →
      base.file (server.infor.list slot).readFd =
          server.fds.file (server.infor.list slot).readFd ∧
        base.file (server.infor.list slot).writeFd =
          server.fds.file (server.infor.list slot).writeFd
  ownId : client.id = server.client.id
  cpInfor :
    ∀ c, (client.list c).cpInfor = (server.client.list c).cpInfor
  state : ∀ c, (client.list c).state = (server.client.list c).state
  sockfd : ∀ c, (client.list c).sockfd = (server.client.list c).sockfd

/-- Before the parent has taken the input. -/
theorem Underway.start
    (server : Server) :
    Underway server server.fds server.client where
  within := id
  keeps := fun isOpen _ => isOpen
  waiting := fun _ => ⟨rfl, rfl⟩
  ownId := rfl
  cpInfor := fun _ => rfl
  state := fun _ => rfl
  sockfd := fun _ => rfl

/-- After the parent has taken the input. -/
theorem LineReady.underway_taken
    (lineReady : server.LineReady)
    (line : Command) :
    Underway server (server.takenFds line)
      (server.client.takeInput line) where
  within := by
    intro fd file isOpen
    rw [takenFds, closeAll_file] at isOpen
    split_ifs at isOpen
    exact isOpen
  keeps := by
    intro fd file isOpen notPipe
    rw [takenFds, closeAll_file, if_neg]
    · exact isOpen
    · intro member
      obtain ⟨other, pipe, otherOpen, isPipe⟩ :=
        (lineReady.inputPipes line).isPipe fd member
      rw [isOpen] at otherOpen
      cases otherOpen
      rw [notPipe] at isPipe
      cases isPipe
  waiting := by
    intro slot pending
    obtain ⟨readKept, writeKept⟩ :=
      lineReady.pending_not_mem_inputFds pending
    rw [takenFds, closeAll_file, closeAll_file, if_neg readKept,
      if_neg writeKept]
    exact ⟨rfl, rfl⟩
  ownId := server.client.takeInput_id line
  cpInfor := server.client.takeInput_cpInfor line
  state := server.client.takeInput_state line
  sockfd := server.client.takeInput_sockfd line

variable {current : Server}
variable {base : DescriptorTable File}
variable {extra : List (Int × File)}
variable {client : ClientStructure}

theorem Underway.infor_eq
    (underway : Underway server base client)
    (frame : Frame server base extra client current) :
    current.infor = server.infor := by
  rw [frame.infor_eq, underway.cpInfor, underway.ownId]
  rfl

theorem Underway.sockfd_eq
    (underway : Underway server base client)
    (frame : Frame server base extra client current) :
    current.sockfd = server.sockfd := by
  unfold Server.sockfd self
  rw [frame.client_eq, underway.sockfd, underway.ownId]

/-- At every fork of a line the server is ready for it. -/
theorem LineReady.forkReady
    (lineReady : server.LineReady)
    (underway : Underway server base client)
    (frame : Frame server base extra client current) :
    current.ForkReady where
  healthy :=
    frame.healthy lineReady.healthy underway.within underway.keeps
      underway.state underway.sockfd
  state := by
    unfold self
    rw [frame.client_eq, underway.state, underway.ownId]
    exact lineReady.inLine.state
  record := by
    rw [underway.infor_eq frame]
    exact lineReady.inLine.record
  block := by
    intro slot pending
    rw [underway.infor_eq frame] at pending ⊢
    have isHeld :
        server.client.RecordedOrExpired (.readFd server.client.id slot) :=
      Or.inl ⟨lineReady.inLine.state, pending⟩
    obtain ⟨pipe, isRead, isWrite⟩ := lineReady.wired.block isHeld
    obtain ⟨sameRead, sameWrite⟩ := underway.waiting pending
    exact ⟨pipe, frame.fds.file_base (sameRead.trans isRead),
      frame.fds.file_base (sameWrite.trans isWrite)⟩
  apart := by
    intro slot other pending otherPending sameFd
    rw [underway.infor_eq frame] at pending otherPending sameFd
    have held {slot : Nat} (pending : server.infor.Pending slot) :
        server.client.lineLedger.held (.writeFd server.client.id slot) :=
      Or.inl ⟨lineReady.inLine.state, pending⟩
    have samePort :=
      lineReady.wired.distinct (held pending) (held otherPending) sameFd
    cases samePort
    rfl

/-! ## What a child holds outside its streams -/

/-- The numbered pipe of a block of the current client waits or has expired. -/
def InUse
    (server : Server)
    (slot : Nat) : Prop :=
  server.infor.Pending slot ∨ server.infor.outputPoint = slot

/--
A pipe of the line: one created since it began, or a numbered pipe of its client
that waits or has expired.
-/
def OwnPipe
    (server : Server)
    (pipe : Nat) : Prop :=
  server.nextPipe ≤ pipe ∨
    ∃ slot, server.InUse slot ∧
      server.fds.file (server.infor.list slot).readFd = some (.readEnd pipe)

/-- A table with no end of such a pipe outside the standard streams. -/
def Cleared
    (server : Server)
    (table : DescriptorTable File) : Prop :=
  ∀ fd file pipe,
    ¬ Standard fd →
    table.file fd = some file →
    file.pipe? = some pipe →
    ¬ server.OwnPipe pipe

theorem LineReady.block_of_inUse
    (lineReady : server.LineReady)
    {slot : Nat}
    (inUse : server.InUse slot) :
    ∃ pipe,
      server.fds.file (server.infor.list slot).readFd =
          some (.readEnd pipe) ∧
        server.fds.file (server.infor.list slot).writeFd =
          some (.writeEnd pipe) := by
  have isHeld :
      server.client.lineLedger.held (.readFd server.client.id slot) := by
    rcases inUse with pending | expired
    · exact Or.inl ⟨lineReady.inLine.state, pending⟩
    · exact Or.inr ⟨rfl, expired⟩
  exact lineReady.wired.block isHeld

/-- A descriptor of such a block is the only one of its end. -/
theorem LineReady.fd_of_block
    (lineReady : server.LineReady)
    {slot pipe : Nat}
    (inUse : server.InUse slot)
    (isRead :
      server.fds.file (server.infor.list slot).readFd = some (.readEnd pipe))
    {fd : Int}
    {file : File}
    (isOpen : server.fds.file fd = some file)
    (isPipe : file.pipe? = some pipe) :
    fd = (server.infor.list slot).readFd ∨
      fd = (server.infor.list slot).writeFd := by
  obtain ⟨samePipe, alsoRead, isWrite⟩ := lineReady.block_of_inUse inUse
  rw [isRead] at alsoRead
  cases alsoRead
  cases file with
  | readEnd other =>
      cases isPipe
      exact Or.inl (lineReady.healthy.unique isOpen isRead rfl)
  | writeEnd other =>
      cases isPipe
      exact Or.inr (lineReady.healthy.unique isOpen isWrite rfl)
  | terminal | listener | socket connection | named path => cases isPipe

/-- A child that has closed all of them holds none. -/
theorem LineReady.cleared
    (lineReady : server.LineReady)
    (underway : Underway server base client)
    (frame : Frame server base extra client current)
    {table : DescriptorTable File}
    {closed : List Int}
    {input output errors : Option File}
    (image : Image current.fds table closed input output errors)
    (extraClosed :
      ∀ {fd file pipe},
        (fd, file) ∈ extra → file.pipe? = some pipe → fd ∈ closed)
    (blocksClosed :
      ∀ {slot fd},
        server.InUse slot →
        fd = (server.infor.list slot).readFd ∨
          fd = (server.infor.list slot).writeFd →
        fd ∈ closed ∨ base.file fd = none) :
    server.Cleared table := by
  intro fd file pipe notStandard isOpen isPipe
  rw [image.sheds fd notStandard] at isOpen
  split_ifs at isOpen with isClosed
  rcases (frame.fds.file_iff fd file).mp isOpen with isNew | isOld
  · exact absurd (extraClosed isNew isPipe) isClosed
  · have before := underway.within isOld
    rintro (created | ⟨slot, inUse, isRead⟩)
    · have known := lineReady.healthy.known before isPipe
      omega
    · have isBlock := lineReady.fd_of_block inUse isRead before isPipe
      rcases blocksClosed inUse isBlock with closes | gone
      · exact isClosed closes
      · rw [isOld] at gone
        cases gone

/-- The waiting blocks are closed by the first lines of a child. -/
theorem LineReady.mem_crossFds
    (lineReady : server.LineReady)
    (underway : Underway server base client)
    (frame : Frame server base extra client current)
    {slot : Nat}
    (pending : server.infor.Pending slot)
    {pos : Int}
    (notPos : pos ≠ slot)
    {fd : Int}
    (isBlock :
      fd = (server.infor.list slot).readFd ∨
        fd = (server.infor.list slot).writeFd) :
    fd ∈ crossFds current.infor pos := by
  rw [underway.infor_eq frame, Shell.mem_crossFds]
  refine ⟨slot, ?_, notPos, isBlock.symm⟩
  have recorded : slot ∈ server.infor.pendingSlots :=
    mem_pendingSlots.mpr pending
  have record : server.infor.closeFdRecord = server.infor.pendingSlots :=
    lineReady.inLine.record
  rwa [record]

/-- The further descriptors of a fork are not among the blocks. -/
theorem LineReady.extra_not_mem_crossFds
    (lineReady : server.LineReady)
    (underway : Underway server base client)
    (frame : Frame server base extra client current)
    {fd : Int}
    {file : File}
    (member : (fd, file) ∈ extra)
    (pos : Int) :
    fd ∉ crossFds current.infor pos := by
  rw [underway.infor_eq frame, Shell.mem_crossFds]
  rintro ⟨slot, recorded, _, isBlock⟩
  have record : server.infor.closeFdRecord = server.infor.pendingSlots :=
    lineReady.inLine.record
  rw [record, mem_pendingSlots] at recorded
  obtain ⟨pipe, isRead, isWrite⟩ :=
    lineReady.block_of_inUse (Or.inl recorded)
  obtain ⟨sameRead, sameWrite⟩ := underway.waiting recorded
  have free := frame.fds.free member
  rcases isBlock with rfl | rfl
  · rw [sameWrite, isWrite] at free
    cases free
  · rw [sameRead, isRead] at free
    cases free

end Server

end NpServers.Shell
