import NpServers.NumberedPipeWriters

namespace NpServers.Shell

open CrossPipe DescriptorTable

/-!
# The standard input of a child

A child that reads a pipe on its standard input reads the one its line selects,
or the one between it and the stage before it.  The lemmas below follow the read
ends through the child's code, also through competing output directives and
through its early exits, and compare them with the write ends it holds.
-/

namespace Server

/-- The standard input is the read end of a pipe. -/
def ReadsPipe
    (table : DescriptorTable File)
    (pipe : Nat) : Prop :=
  table.file stdin = some (.readEnd pipe)

/-- A descriptor refers to the write end of a pipe. -/
def HoldsWriteEnd
    (table : DescriptorTable File)
    (pipe : Nat) : Prop :=
  ∃ fd, table.file fd = some (.writeEnd pipe)

/-- The write ends of a table that draws from another are among the other's. -/
theorem DrawsFrom.holds
    {source table : DescriptorTable File}
    (draws : DrawsFrom source table)
    {pipe : Nat}
    (holds : HoldsWriteEnd table pipe) :
    HoldsWriteEnd source pipe := by
  obtain ⟨fd, isWrite⟩ := holds
  exact draws fd _ pipe isWrite rfl

/-! ## Read ends in a child -/

/-- Apart from the two output streams, the read ends stay where they were. -/
def KeepsReadEnds (source table : DescriptorTable File) : Prop :=
  ∀ fd pipe,
    fd ≠ stdout →
    fd ≠ stderr →
    table.file fd = some (.readEnd pipe) →
    source.file fd = some (.readEnd pipe)

theorem KeepsReadEnds.refl
    (table : DescriptorTable File) :
    KeepsReadEnds table table :=
  fun _ _ _ _ => id

section Keeps

variable {source table : DescriptorTable File}

theorem KeepsReadEnds.reads
    (keeps : KeepsReadEnds source table)
    {pipe : Nat}
    (reads : ReadsPipe table pipe) :
    ReadsPipe source pipe :=
  keeps stdin pipe (by decide) (by decide) reads

theorem KeepsReadEnds.close
    (keeps : KeepsReadEnds source table)
    (fd : Int) :
    KeepsReadEnds source (table.close fd) := by
  intro other pipe notOut notErr isRead
  rw [close_file, Function.update_apply, Option.ite_none_left_eq_some] at isRead
  exact keeps other pipe notOut notErr isRead.2

theorem KeepsReadEnds.closeAll
    (keeps : KeepsReadEnds source table)
    (fds : List Int) :
    KeepsReadEnds source (table.closeAll fds) := by
  intro other pipe notOut notErr isRead
  rw [closeAll_file, Option.ite_none_left_eq_some] at isRead
  exact keeps other pipe notOut notErr isRead.2

theorem KeepsReadEnds.dup2_stdout
    (keeps : KeepsReadEnds source table)
    (fd : Int) :
    KeepsReadEnds source (table.dup2 fd stdout) := by
  intro other pipe notOut notErr isRead
  rw [dup2_file_of_ne _ notOut] at isRead
  exact keeps other pipe notOut notErr isRead

theorem KeepsReadEnds.dup2_stderr
    (keeps : KeepsReadEnds source table)
    (fd : Int) :
    KeepsReadEnds source (table.dup2 fd stderr) := by
  intro other pipe notOut notErr isRead
  rw [dup2_file_of_ne _ notErr] at isRead
  exact keeps other pipe notOut notErr isRead

theorem KeepsReadEnds.openFile
    (keeps : KeepsReadEnds source table)
    {file : File}
    (notPipe : file.pipe? = none) :
    KeepsReadEnds source (table.openFile file) := by
  intro other pipe notOut notErr isRead
  rw [openFile_file, Function.update_apply] at isRead
  split_ifs at isRead
  · cases isRead
    cases notPipe
  · exact keeps other pipe notOut notErr isRead

theorem KeepsReadEnds.redirectTo
    (keeps : KeepsReadEnds source table)
    (path : String)
    (outside : Outside) :
    KeepsReadEnds source (ranFds (redirectTo path stdout outside table)) := by
  unfold Shell.redirectTo
  split_ifs
  · exact ((keeps.openFile rfl).dup2_stdout _).close _
  · exact keeps

theorem KeepsReadEnds.connectWriteEnd
    (keeps : KeepsReadEnds source table)
    (fd : PipeFds) :
    KeepsReadEnds source (connectWriteEnd fd .child table) :=
  ((keeps.close _).dup2_stdout _).close _

theorem KeepsReadEnds.childCross
    (keeps : KeepsReadEnds source table)
    (line : Command)
    (fd : PipeFds) :
    KeepsReadEnds source (childCross line fd table) := by
  unfold Server.childCross
  dsimp only
  rw [closeAndConnectFd_output]
  split_ifs
  · exact (keeps.dup2_stderr _).connectWriteEnd fd
  · exact keeps.connectWriteEnd fd

theorem KeepsReadEnds.childUserOut
    (keeps : KeepsReadEnds source table)
    (line : Command)
    (outside : Outside)
    (server : Server)
    (fd : PipeFds) :
    KeepsReadEnds source
      (ranFds (childUserOut line outside server fd table)) := by
  unfold Server.childUserOut
  split_ifs
  · exact keeps.connectWriteEnd fd
  · exact keeps.redirectTo devNull outside

/-- The parts of a child one after the other. -/
theorem keepsReadEnds_bind
    {part : Except (DescriptorTable File) (DescriptorTable File)}
    {rest :
      DescriptorTable File →
        Except (DescriptorTable File) (DescriptorTable File)}
    (keeps : KeepsReadEnds source (ranFds part))
    (continues :
      ∀ {between},
        KeepsReadEnds source between →
        KeepsReadEnds source (ranFds (rest between))) :
    KeepsReadEnds source (ranFds (part >>= rest)) := by
  cases part with
  | error fds => exact keeps
  | ok fds => exact continues keeps

variable (line : Command) (outside : Outside) (server : Server)

/-- After its input is connected, the child of `single_cmd` keeps it. -/
theorem KeepsReadEnds.singleChild
    {vars : Vars}
    (keepsInput :
      KeepsReadEnds source
        (ranFds (childInput line outside server (server.childStart vars.pos)))) :
    KeepsReadEnds source (ranFds (singleChild line outside vars server)) := by
  unfold Server.singleChild
  refine keepsReadEnds_bind keepsInput ?_
  intro input keepsInput
  refine keepsReadEnds_bind ?_ ?_
  · unfold singleOutput
    split_ifs
    · exact keepsInput.childCross line vars.fd
    · exact keepsInput.redirectTo _ outside
    · exact keepsInput.childUserOut line outside server vars.fd
    · exact keepsInput.dup2_stdout _
  · intro output keepsOutput
    dsimp only [pure, Except.pure, ranFds]
    split_ifs
    · exact keepsOutput.dup2_stderr _
    · exact keepsOutput

/-- So does the first stage of `ordinary_pipe`. -/
theorem KeepsReadEnds.stageChild_first
    {cmdNum : Nat}
    {fdRedir : Int}
    {vars : Vars}
    (keepsInput :
      KeepsReadEnds source
        (ranFds (childInput line outside server (stageStart vars server)))) :
    KeepsReadEnds source
      (ranFds (stageChild line outside cmdNum fdRedir vars 0 server)) := by
  have finish {ended : DescriptorTable File}
      (keeps : KeepsReadEnds source ended) :
      KeepsReadEnds source
        (closeAndConnectFd 0 0 (cmdNum - 1) vars.fd vars.exFd0 .child ended) := by
    unfold closeAndConnectFd
    dsimp only
    rw [if_neg (by simp)]
    split_ifs
    · exact keeps.connectWriteEnd vars.fd
    · exact keeps
  unfold Server.stageChild
  dsimp only
  rw [if_pos rfl]
  refine keepsReadEnds_bind keepsInput ?_
  intro ended keepsEnded
  dsimp only [pure, Except.pure, ranFds]
  split_ifs
  · exact finish (keepsEnded.close _)
  · exact finish keepsEnded

/-- A later stage connects the descriptor that the parent kept for it. -/
theorem reads_stageChild_later
    {cmdNum : Nat}
    {fdRedir : Int}
    {vars : Vars}
    {i : Nat}
    (later : i ≠ 0)
    (notOut : vars.exFd0 ≠ stdout)
    (notErr : vars.exFd0 ≠ stderr)
    {pipe : Nat}
    (reads :
      ReadsPipe
        (ranFds (stageChild line outside cmdNum fdRedir vars i server))
        pipe) :
    ReadsPipe (stageStart vars server) pipe ∨
      (stageStart vars server).file vars.exFd0 = some (.readEnd pipe) := by
  have finish {ended : DescriptorTable File}
      (keeps : KeepsReadEnds (stageStart vars server) ended)
      (endReads :
        ReadsPipe
          (closeAndConnectFd i 0 (cmdNum - 1) vars.fd vars.exFd0 .child
            (if line.redir then ended.close fdRedir else ended))
          pipe) :
      ReadsPipe (stageStart vars server) pipe ∨
        (stageStart vars server).file vars.exFd0 = some (.readEnd pipe) := by
    obtain ⟨written, keepsWritten, connects⟩ :
        ∃ written,
          KeepsReadEnds (stageStart vars server) written ∧
            ReadsPipe (connectReadEnd vars.exFd0 .child written) pipe := by
      unfold closeAndConnectFd at endReads
      dsimp only at endReads
      rw [if_pos later] at endReads
      refine ⟨_, ?_, endReads⟩
      split_ifs
      · exact (keeps.close _).connectWriteEnd vars.fd
      · exact keeps.connectWriteEnd vars.fd
      · exact keeps.close _
      · exact keeps
    have copied :
        (written.dup2 vars.exFd0 stdin).file stdin = some (.readEnd pipe) := by
      unfold connectReadEnd ReadsPipe at connects
      dsimp only at connects
      rw [close_file, Function.update_apply, Option.ite_none_left_eq_some]
        at connects
      exact connects.2
    rcases written.dup2_file_cases vars.exFd0 stdin with fromOld | stays
    · rw [fromOld] at copied
      exact Or.inr (keepsWritten vars.exFd0 pipe notOut notErr copied)
    · rw [stays] at copied
      exact Or.inl (keepsWritten.reads copied)
  have start :=
    KeepsReadEnds.refl (stageStart vars server)
  unfold Server.stageChild at reads
  dsimp only at reads
  rw [if_neg later] at reads
  by_cases isLast : i = cmdNum - 1
  · -- the last stage may exit before it connects its input
    have keepsOutput :
        KeepsReadEnds (stageStart vars server)
          (ranFds
            (lastOutput line outside fdRedir server vars.fd
              (stageStart vars server))) := by
      unfold lastOutput
      split_ifs
      · exact start.childCross line vars.fd
      · exact start.dup2_stdout _
      · exact start.childUserOut line outside server vars.fd
      · exact start.dup2_stdout _
    rw [if_pos isLast] at reads
    unfold stageStart at keepsOutput finish ⊢
    generalize
      lastOutput line outside fdRedir server vars.fd
        ((server.childStart vars.pos).dup2 server.sockfd stderr) = ran at *
    cases ran with
    | error fds => exact Or.inl (keepsOutput.reads reads)
    | ok fds => exact finish keepsOutput reads
  · rw [if_neg isLast] at reads
    exact finish start reads

end Keeps

/-! ## The input that a line selects -/

section Selected

variable {server current : Server}
variable {line : Command}
variable {outside : Outside}

/-- A first command that reads a pipe reads the selected one. -/
theorem reads_childInput
    (healthy : server.Healthy)
    (state : server.self.state = true)
    (inputPipes : server.InputPipes line)
    {table : DescriptorTable File}
    (keeps : KeepsReadEnds server.fds table)
    {pipe : Nat}
    (reads : ReadsPipe (ranFds (childInput line outside server table)) pipe) :
    server.selectedInput line = some (.readEnd pipe) := by
  have notTerminal : ¬ ReadsPipe table pipe := by
    intro tableReads
    have serverReads := keeps.reads tableReads
    rw [ReadsPipe, healthy.standard standard_stdin] at serverReads
    cases serverReads
  -- what `dup2` puts on the standard input was elsewhere in the server
  have copied {between : DescriptorTable File} {fd : Int}
      (keepsBetween : KeepsReadEnds table between)
      (notStandard : ¬ Standard fd)
      (betweenReads : ReadsPipe (between.dup2 fd stdin) pipe) :
      server.fds.file fd = some (.readEnd pipe) := by
    unfold ReadsPipe at betweenReads
    rcases between.dup2_file_cases fd stdin with fromOld | stays
    · rw [fromOld] at betweenReads
      have notOut : fd ≠ stdout :=
        fun same => notStandard (same ▸ standard_stdout)
      have notErr : fd ≠ stderr :=
        fun same => notStandard (same ▸ standard_stderr)
      exact keeps fd pipe notOut notErr
        (keepsBetween fd pipe notOut notErr betweenReads)
    · rw [stays] at betweenReads
      exact absurd (keepsBetween.reads betweenReads) notTerminal
  have closed {between : DescriptorTable File} {fd : Int}
      (closeReads : ReadsPipe (between.close fd) pipe) :
      ReadsPipe between pipe :=
    ((KeepsReadEnds.refl between).close fd).reads closeReads
  have notStandard {fd : Int}
      (member : fd ∈ server.inputFds line) :
      ¬ Standard fd := by
    obtain ⟨file, number, isOpen, isPipe⟩ := inputPipes.isPipe fd member
    apply healthy.not_standard isOpen
    rintro rfl
    cases isPipe
  have start := KeepsReadEnds.refl table
  unfold childInput at reads
  unfold selectedInput
  split_ifs at reads ⊢ with expired given isReady
  · have isInput :=
      expired_mem_inputFds (Int.toNat_of_nonneg expired).symm line (Or.inl rfl)
    exact copied (start.close _) (notStandard isInput) (closed reads)
  · have isInput :
        server.self.userPipe line.userInId ∈ server.inputFds line := by
      unfold inputFds
      rw [ClientStructure.inputPorts_of_given expired ⟨given, isReady⟩]
      exact List.mem_cons_self
    exact copied start (notStandard isInput) (closed reads)
  · -- `/dev/null` is no pipe, and a failed `open` leaves the input as it was
    unfold redirectTo at reads
    split_ifs at reads
    · have opened := closed reads
      unfold ReadsPipe at opened
      rcases (table.openFile (.named devNull)).dup2_file_cases
          table.lowestFree stdin with fromOld | stays
      · rw [fromOld, openFile_file, Function.update_self] at opened
        cases opened
      · rw [stays] at opened
        exact absurd ((start.openFile rfl).reads opened) notTerminal
    · exact absurd reads notTerminal
  · obtain ⟨connection, isOpen⟩ := healthy.socket state
    exact copied start (healthy.not_standard isOpen (by simp)) reads

/-- A line that goes on finds the input as it was when the line began. -/
theorem LineReady.inputPipes_current
    (lineReady : server.LineReady)
    {extra : List (Int × File)}
    (frame : Frame server server.fds extra server.client current)
    (line : Command) :
    current.InputPipes line := by
  have sameInput : current.inputFds line = server.inputFds line := by
    unfold inputFds
    rw [frame.client_eq]
  refine ⟨sameInput ▸ (lineReady.inputPipes line).distinct, ?_⟩
  intro fd member
  rw [sameInput] at member
  obtain ⟨file, pipe, isOpen, isPipe⟩ :=
    (lineReady.inputPipes line).isPipe fd member
  exact ⟨file, pipe, frame.fds.file_base isOpen, isPipe⟩

theorem LineReady.reads_childInput
    (lineReady : server.LineReady)
    {extra : List (Int × File)}
    (frame : Frame server server.fds extra server.client current)
    {table : DescriptorTable File}
    (keeps : KeepsReadEnds current.fds table)
    {pipe : Nat}
    (reads : ReadsPipe (ranFds (childInput line outside current table)) pipe) :
    server.selectedInput line = some (.readEnd pipe) := by
  have ready := lineReady.forkReady (Underway.start server) frame
  rw [← lineReady.selectedInput_eq frame line]
  exact Server.reads_childInput ready.healthy ready.state
    (lineReady.inputPipes_current frame line) keeps reads

theorem keepsReadEnds_childStart
    (server : Server)
    (pos : Int) :
    KeepsReadEnds server.fds (server.childStart pos) := by
  rw [childStart_eq]
  exact (KeepsReadEnds.refl _).closeAll _

theorem LineReady.reads_singleOf
    (lineReady : server.LineReady)
    {pipe : Nat}
    (reads : ReadsPipe (singleOf line outside server).fds pipe) :
    server.selectedInput line = some (.readEnd pipe) := by
  obtain ⟨pipes, _, frame⟩ := singleFork_frame line outside server
  have keeps :
      KeepsReadEnds
        (ranFds
          (childInput line outside (singleOpened line outside server).2
            ((singleOpened line outside server).2.childStart
              (singleOpened line outside server).1.pos)))
        (singleOf line outside server).fds :=
    .singleChild line outside _ (.refl _)
  exact lineReady.reads_childInput frame (keepsReadEnds_childStart _ _)
    (keeps.reads reads)

variable {cmdNum : Nat}

theorem LineReady.reads_stageOf_first
    (lineReady : server.LineReady)
    (stages : 2 ≤ cmdNum)
    {pipe : Nat}
    (reads : ReadsPipe (stageOf line outside cmdNum server 0).fds pipe) :
    server.selectedInput line = some (.readEnd pipe) := by
  have frame := first_frame line cmdNum server
  have keeps :
      KeepsReadEnds
        (ranFds
          (childInput line outside (stageFork line outside cmdNum server 0).2
            (stageStart (stageFork line outside cmdNum server 0).1
              (stageFork line outside cmdNum server 0).2)))
        (stageOf line outside cmdNum server 0).fds :=
    .stageChild_first line outside _ (.refl _)
  rw [stageFork_first line outside server stages] at keeps
  exact lineReady.reads_childInput frame
    ((keepsReadEnds_childStart _ _).dup2_stderr _) (keeps.reads reads)

/-! ## The stages of a pipeline -/

/-- The ends of pipes that a line opens before a fork belong to one pipe. -/
theorem Opened.pipe_eq
    {client : ClientStructure}
    {start vars : Vars}
    {pipe : Nat}
    {pipes : List (Int × File)}
    (opened : Opened line pipe client start vars pipes)
    {entry : Int × File}
    (member : entry ∈ pipes) :
    entry.2.pipe? = some pipe := by
  have ends
      (isNew :
        pipes = [(vars.fd.readFd, .readEnd pipe),
          (vars.fd.writeFd, .writeEnd pipe)]) :
      entry.2.pipe? = some pipe := by
    rw [isNew] at member
    simp only [List.mem_cons, List.not_mem_nil, or_false] at member
    rcases member with rfl | rfl <;> rfl
  cases opened with
  | numbered inserts notFound isNew different => exact ends isNew
  | found slot cross isSlot isPos isFd none =>
      rw [none] at member
      cases member
  | user noCross given ready samePos isNew different => exact ends isNew
  | nothing noCross notReady same none =>
      rw [none] at member
      cases member

/-- The server at the fork of a stage after the first one. -/
theorem InputOpen.laterFork
    (inputOpen : server.InputOpen line)
    (outside : Outside)
    {i : Nat}
    (inRange : i + 1 < cmdNum) :
    ∃ pipes,
      Frame server (server.takenFds line)
          (pipes ++
            ((stageFork line outside cmdNum server (i + 1)).1.exFd0,
                .readEnd (server.nextPipe + i)) ::
              server.redirExtra line cmdNum)
          (server.client.takeInput line)
          (stageFork line outside cmdNum server (i + 1)).2 ∧
        ∀ entry ∈ pipes, entry.2.pipe? = some (server.nextPipe + (i + 1)) := by
  have looping := inputOpen.looping outside inRange
  by_cases isLast : i + 1 = cmdNum - 1
  · obtain ⟨pipes, opened, lastFork, sameFd⟩ := looping.lastFork
    rw [stageFork_last line outside server isLast, sameFd]
    exact ⟨pipes, lastFork.frame, fun _ => opened.pipe_eq⟩
  · rw [stageFork_middle line outside server isLast]
    refine ⟨_ :: [_], looping.pipe_frame, ?_⟩
    intro entry member
    simp only [List.mem_cons, List.not_mem_nil, or_false] at member
    rcases member with rfl | rfl <;> rfl

/-- A later stage that reads a pipe reads the one before it. -/
theorem LineReady.reads_stageOf_later
    (lineReady : server.LineReady)
    {i : Nat}
    (inRange : i + 1 < cmdNum)
    {pipe : Nat}
    (reads : ReadsPipe (stageOf line outside cmdNum server (i + 1)).fds pipe) :
    pipe = server.nextPipe + i := by
  obtain ⟨pipes, frame, _⟩ :=
    (lineReady.inputPipes line).inputOpen.laterFork outside inRange
  have healthy :=
    (lineReady.forkReady (lineReady.underway_taken line) frame).healthy
  have isRead := frame.fds.file_extra
    (List.mem_append_right pipes List.mem_cons_self)
  have notStandard := healthy.not_standard isRead (by simp)
  have notOut :
      (stageFork line outside cmdNum server (i + 1)).1.exFd0 ≠ stdout :=
    fun same => notStandard (same ▸ standard_stdout)
  have notErr :
      (stageFork line outside cmdNum server (i + 1)).1.exFd0 ≠ stderr :=
    fun same => notStandard (same ▸ standard_stderr)
  have keeps :
      KeepsReadEnds (stageFork line outside cmdNum server (i + 1)).2.fds
        (stageStart (stageFork line outside cmdNum server (i + 1)).1
          (stageFork line outside cmdNum server (i + 1)).2) :=
    (keepsReadEnds_childStart _ _).dup2_stderr _
  rcases reads_stageChild_later line outside _ (Nat.succ_ne_zero i) notOut
      notErr reads with startReads | kept
  · have serverReads := keeps.reads startReads
    rw [ReadsPipe, healthy.standard standard_stdin] at serverReads
    cases serverReads
  · have alsoRead := keeps _ pipe notOut notErr kept
    rw [isRead] at alsoRead
    cases alsoRead
    rfl

/-- The write ends at a fork are the new one and those from before. -/
theorem holds_of_frame
    {base : DescriptorTable File}
    {pipes rest : List (Int × File)}
    {client : ClientStructure}
    {number : Nat}
    (frame : Frame server base (pipes ++ rest) client current)
    (isPipe : ∀ entry ∈ pipes, entry.2.pipe? = some number)
    (notWrite : ∀ fd pipe, (fd, .writeEnd pipe) ∉ rest)
    {pipe : Nat}
    (holds : HoldsWriteEnd current.fds pipe) :
    pipe = number ∨ HoldsWriteEnd base pipe := by
  obtain ⟨fd, isWrite⟩ := holds
  rcases (frame.fds.file_iff fd _).mp isWrite with isNew | isOld
  · rcases List.mem_append.mp isNew with inPipes | inRest
    · exact Or.inl (Option.some.inj (isPipe _ inPipes))
    · exact absurd inRest (notWrite fd pipe)
  · exact Or.inr ⟨fd, isOld⟩

theorem redirExtra_not_writeEnd
    (fd : Int)
    (pipe : Nat) :
    (fd, .writeEnd pipe) ∉ server.redirExtra line cmdNum := by
  intro member
  cases redirExtra_not_pipe member

/-- The write ends at the fork of a later stage. -/
theorem InputOpen.holds_laterFork
    (inputOpen : server.InputOpen line)
    (outside : Outside)
    {i : Nat}
    (inRange : i + 1 < cmdNum)
    {pipe : Nat}
    (holds :
      HoldsWriteEnd (stageFork line outside cmdNum server (i + 1)).2.fds pipe) :
    pipe = server.nextPipe + (i + 1) ∨
      HoldsWriteEnd (server.takenFds line) pipe := by
  obtain ⟨pipes, frame, isPipe⟩ := inputOpen.laterFork outside inRange
  refine holds_of_frame frame isPipe ?_ holds
  intro fd number member
  rcases List.mem_cons.mp member with isRead | inRedir
  · cases isRead
  · exact redirExtra_not_writeEnd fd number inRedir

/-- A stage holds the write end of its own pipe or one from before the line. -/
theorem LineReady.holds_stageOf
    (lineReady : server.LineReady)
    (stages : 2 ≤ cmdNum)
    {i : Nat}
    (inRange : i < cmdNum)
    {pipe : Nat}
    (holds :
      HoldsWriteEnd (stageOf line outside cmdNum server i).fds pipe) :
    pipe = server.nextPipe + i ∨ HoldsWriteEnd server.fds pipe := by
  have inputOpen := (lineReady.inputPipes line).inputOpen
  have atFork :
      HoldsWriteEnd (stageFork line outside cmdNum server i).2.fds pipe :=
    (drawsFrom_stageChild line outside _ _ _ _ _).holds holds
  cases i with
  | zero =>
      rw [stageFork_first line outside server stages] at atFork
      have frame :
          Frame server server.fds
            ([((server.loopStart line cmdNum).pipeFds.readFd,
                  .readEnd server.nextPipe),
                ((server.loopStart line cmdNum).pipeFds.writeFd,
                  .writeEnd server.nextPipe)] ++
              server.redirExtra line cmdNum)
            server.client (server.loopStart line cmdNum).pipe :=
        first_frame line cmdNum server
      refine holds_of_frame frame ?_ redirExtra_not_writeEnd atFork
      intro entry member
      simp only [List.mem_cons, List.not_mem_nil, or_false] at member
      rcases member with rfl | rfl <;> rfl
  | succ i =>
      rcases inputOpen.holds_laterFork outside inRange atFork with isNew | isOld
      · exact Or.inl isNew
      · exact Or.inr
          (((DrawsFrom.refl _).closeAll (server.inputFds line)).holds isOld)

/-- The command of `single_cmd` holds the new write end or one from before. -/
theorem holds_singleOf
    {pipe : Nat}
    (holds : HoldsWriteEnd (singleOf line outside server).fds pipe) :
    pipe = server.nextPipe ∨ HoldsWriteEnd server.fds pipe := by
  obtain ⟨pipes, opened, frame⟩ := singleFork_frame line outside server
  have framed :
      Frame server server.fds (pipes ++ []) server.client
        (singleOpened line outside server).2 := by
    rwa [List.append_nil]
  exact holds_of_frame framed (fun _ => opened.pipe_eq) (by simp)
    ((drawsFrom_singleChild line outside _ _).holds holds)

/-- The parent's part for the output opens nothing. -/
theorem drawsFrom_lastStore
    (line : Command)
    (fdRedir : Int)
    (vars : Vars)
    (current : Server) :
    DrawsFrom current.fds (current.lastStore line fdRedir vars).fds := by
  have start := DrawsFrom.refl current.fds
  unfold lastStore storeCross storeUserPipe
  split_ifs
  · exact start
  · exact start
  · exact start.close fdRedir
  · exact start.close vars.fd.writeFd
  · exact start
  · exact start

/-- After a pipeline only the pipe of its last stage may be left open. -/
theorem LineReady.holds_runPipeline
    (lineReady : server.LineReady)
    (stages : 2 ≤ cmdNum)
    {pipe : Nat}
    (holds :
      HoldsWriteEnd (server.runPipeline line outside cmdNum).fds pipe) :
    pipe = server.nextPipe + (cmdNum - 1) ∨
      HoldsWriteEnd (server.takenFds line) pipe := by
  obtain ⟨i, rfl⟩ : ∃ i, cmdNum = i + 2 := ⟨cmdNum - 2, by omega⟩
  have inputOpen := (lineReady.inputPipes line).inputOpen
  refine inputOpen.holds_laterFork outside (by omega : i + 1 < i + 2) ?_
  have draws :
      DrawsFrom (stageFork line outside (i + 2) server (i + 1)).2.fds
        (stageState line outside (i + 2) server (i + 2)).2.fds := by
    unfold stageState
    rw [runStages_succ]
    unfold runStage
    dsimp only
    rw [stageConnected_of_last outside _ _ rfl]
    refine DrawsFrom.closeAndConnectFd ?_ _ _ _ _ _ _
    have forked :=
      sameTables_stageForked line (i + 2) outside server.fds.lowestFree
        (stageState line outside (i + 2) server (i + 1)).1 (i + 1)
        (stageState line outside (i + 2) server (i + 1)).2
    unfold stageFork
    rw [← forked.fds]
    exact drawsFrom_lastStore line _ _ _
  have same :=
    sameTables_waitSince line server.children.length
      (stageState line outside (i + 2) server (i + 2)).2
  refine draws.holds ?_
  rw [← same.fds]
  exact holds

end Selected

end Server

end NpServers.Shell
