import NpServers.ServerRun

namespace NpServers.Shell

open CrossPipe DescriptorTable TransitionPath

/-!
# The server's descriptors over runs

Every recorded descriptor refers to the end of a pipe that its place is meant
for, and no two places share one.  This holds in all states of runs without
self-piped single commands: such a command lets the parent close and record the
descriptors in its uninitialised variable `fd`.
-/

namespace Server

/-! ## What the server keeps right about its own table -/

/--
The standard streams are those the server was started with, an end of a pipe
has one descriptor, pipes are numbered in order of their creation, and every
connected client has its socket.
-/
structure Healthy (server : Server) : Prop where
  standard :
    ∀ {fd}, Standard fd → server.fds.file fd = some .terminal
  unique :
    ∀ {first second file pipe},
      server.fds.file first = some file →
      server.fds.file second = some file →
      file.pipe? = some pipe →
      first = second
  known :
    ∀ {fd file pipe},
      server.fds.file fd = some file →
      file.pipe? = some pipe →
      pipe < server.nextPipe
  socket :
    ∀ {c},
      (server.client.list c).state = true →
      ∃ connection,
        server.fds.file (server.client.list c).sockfd =
          some (.socket connection)

/-- A descriptor of anything but the terminal is not a standard stream. -/
theorem Healthy.not_standard
    {server : Server}
    (healthy : server.Healthy)
    {fd : Int}
    {file : File}
    (isOpen : server.fds.file fd = some file)
    (notTerminal : file ≠ .terminal) :
    ¬ Standard fd := by
  intro isStandard
  rw [healthy.standard isStandard] at isOpen
  exact notTerminal (Option.some.inj isOpen).symm

/-- The tables reached during a line stay in order. -/
theorem Frame.healthy
    {before after : Server}
    {base : DescriptorTable File}
    {extra : List (Int × File)}
    {client : ClientStructure}
    (frame : Frame before base extra client after)
    (healthy : before.Healthy)
    (within :
      ∀ {fd file}, base.file fd = some file → before.fds.file fd = some file)
    (keeps :
      ∀ {fd file},
        before.fds.file fd = some file →
        file.pipe? = none →
        base.file fd = some file)
    (sameState : ∀ c, (client.list c).state = (before.client.list c).state)
    (sameSockfd : ∀ c, (client.list c).sockfd = (before.client.list c).sockfd) :
    after.Healthy where
  standard := fun isStandard =>
    frame.fds.file_base (keeps (healthy.standard isStandard) rfl)
  unique := by
    intro first second file pipe firstOpen secondOpen isPipe
    rcases (frame.fds.file_iff first file).mp firstOpen with isNew | isOld
    · rcases (frame.fds.file_iff second file).mp secondOpen with
          alsoNew | alsoOld
      · exact frame.once isNew alsoNew isPipe
      · -- a pipe created on the way was not open before
        have created := (frame.fresh isNew isPipe).1
        have known := healthy.known (within alsoOld) isPipe
        omega
    · rcases (frame.fds.file_iff second file).mp secondOpen with
          alsoNew | alsoOld
      · have created := (frame.fresh alsoNew isPipe).1
        have known := healthy.known (within isOld) isPipe
        omega
      · exact healthy.unique (within isOld) (within alsoOld) isPipe
  known := by
    intro fd file pipe isOpen isPipe
    rcases (frame.fds.file_iff fd file).mp isOpen with isNew | isOld
    · exact (frame.fresh isNew isPipe).2
    · exact Nat.lt_of_lt_of_le (healthy.known (within isOld) isPipe)
        frame.nextPipe
  socket := by
    intro c state
    rw [frame.client_eq, sameState] at state
    obtain ⟨connection, isOpen⟩ := healthy.socket state
    refine ⟨connection, ?_⟩
    rw [frame.client_eq, sameSockfd]
    exact frame.fds.file_base (keeps isOpen rfl)

variable {server : Server}

/-- The descriptors of the input are ends of pipes, and different. -/
structure InputPipes
    (server : Server)
    (line : Command) : Prop where
  distinct : (server.inputFds line).Nodup
  isPipe :
    ∀ fd ∈ server.inputFds line,
      ∃ file pipe, server.fds.file fd = some file ∧ file.pipe? = some pipe

theorem InputPipes.inputOpen
    {line : Command}
    (inputPipes : server.InputPipes line) :
    server.InputOpen line where
  distinct := inputPipes.distinct
  isOpen := by
    intro fd member
    obtain ⟨file, _, isOpen, _⟩ := inputPipes.isPipe fd member
    rw [isOpen]
    simp

/-! ## What the recorded descriptors refer to -/

/--
The held places have different descriptors; a block holds the two ends of one
pipe, and an entry of `user_pipe` the read end of one.
-/
structure Wired
    (server : Server)
    (ledger : Ledger Port Int) : Prop where
  distinct : ledger.Distinct
  block :
    ∀ {c slot},
      ledger.held (.readFd c slot) →
      ∃ pipe,
        server.fds.file (ledger.name (.readFd c slot)) =
            some (.readEnd pipe) ∧
          server.fds.file (ledger.name (.writeFd c slot)) =
            some (.writeEnd pipe)
  user :
    ∀ {receiver sender},
      ledger.held (.userPipe receiver sender) →
      ∃ pipe,
        server.fds.file (ledger.name (.userPipe receiver sender)) =
          some (.readEnd pipe)

/-- Every held place refers to an end of a pipe. -/
theorem Wired.file_of_held
    {ledger : Ledger Port Int}
    (wired : server.Wired ledger)
    (paired :
      ∀ {c slot},
        ledger.held (.writeFd c slot) → ledger.held (.readFd c slot))
    {port : Port}
    (isHeld : ledger.held port) :
    ∃ file pipe,
      server.fds.file (ledger.name port) = some file ∧
        file.pipe? = some pipe := by
  cases port with
  | readFd c slot =>
      obtain ⟨pipe, isRead, _⟩ := wired.block isHeld
      exact ⟨_, pipe, isRead, rfl⟩
  | writeFd c slot =>
      obtain ⟨pipe, _, isWrite⟩ := wired.block (paired isHeld)
      exact ⟨_, pipe, isWrite, rfl⟩
  | userPipe receiver sender =>
      obtain ⟨pipe, isRead⟩ := wired.user isHeld
      exact ⟨_, pipe, isRead, rfl⟩

/-- The server in a line of the current client, after the countdown. -/
structure LineReady (server : Server) : Prop where
  healthy : server.Healthy
  inLine : server.client.InLine
  wired : server.Wired server.client.lineLedger

/-- Every held place refers to an end of a pipe. -/
theorem LineReady.file_of_held
    (lineReady : server.LineReady)
    {port : Port}
    (isHeld : server.client.RecordedOrExpired port) :
    ∃ file pipe,
      server.fds.file (port.fd server.client) = some file ∧
        file.pipe? = some pipe :=
  lineReady.wired.file_of_held id isHeld

theorem LineReady.inputPipes
    (lineReady : server.LineReady)
    (line : Command) :
    server.InputPipes line where
  distinct := by
    apply List.Nodup.map_on _ (server.client.inputPorts_nodup line)
    intro first firstMember second secondMember sameFd
    exact lineReady.wired.distinct
      (ClientStructure.recordedOrExpired_of_mem_inputPorts firstMember)
      (ClientStructure.recordedOrExpired_of_mem_inputPorts secondMember)
      sameFd
  isPipe := by
    intro fd member
    obtain ⟨port, isInput, rfl⟩ := List.mem_map.mp member
    exact lineReady.file_of_held
      (ClientStructure.recordedOrExpired_of_mem_inputPorts isInput)

/-- A held place that is not consumed does not share its descriptor. -/
theorem LineReady.not_mem_inputFds
    (lineReady : server.LineReady)
    {line : Command}
    {port : Port}
    (isHeld : server.client.RecordedOrExpired port)
    (kept : port ∉ server.client.inputPorts line) :
    port.fd server.client ∉ server.inputFds line := by
  intro member
  obtain ⟨other, isInput, sameFd⟩ := List.mem_map.mp member
  have same :=
    lineReady.wired.distinct
      (ClientStructure.recordedOrExpired_of_mem_inputPorts isInput) isHeld
      sameFd
  exact kept (same ▸ isInput)

/-- A waiting numbered pipe of the current client is not the input. -/
theorem LineReady.pending_not_mem_inputFds
    (lineReady : server.LineReady)
    {line : Command}
    {slot : Nat}
    (pending : server.infor.Pending slot) :
    (server.infor.list slot).readFd ∉ server.inputFds line ∧
      (server.infor.list slot).writeFd ∉ server.inputFds line := by
  have waiting : server.client.Waiting server.client.id slot :=
    ⟨lineReady.inLine.state, pending⟩
  have notExpired : ¬ server.client.Expired server.client.id slot :=
    fun expired => lineReady.inLine.not_waiting_of_expired expired waiting
  constructor
  · have isHeld :
        server.client.RecordedOrExpired (.readFd server.client.id slot) :=
      Or.inl waiting
    apply lineReady.not_mem_inputFds isHeld
    rw [ClientStructure.block_mem_inputPorts_iff.1]
    exact notExpired
  · have isHeld :
        server.client.RecordedOrExpired (.writeFd server.client.id slot) :=
      Or.inl waiting
    apply lineReady.not_mem_inputFds isHeld
    rw [ClientStructure.block_mem_inputPorts_iff.2]
    exact notExpired

end Server

end NpServers.Shell
