import NpServers.SettledRun

namespace NpServers.Shell

open CrossPipe DescriptorTable

/-!
# The wiring of a pipeline

The children of `ordinary_pipe` at `execvp`: each stage writes to the pipe that
the next one reads, the ends of the pipeline are what the line selects, and no
child holds another end of a pipe of the line.  The tables at each fork come
from the loop invariant of the parent.
-/

namespace Server

/-- What a stage has at `execvp`. -/
structure StageWired
    (server : Server)
    (input output errors : Option File)
    (table : DescriptorTable File) : Prop where
  stdin : table.file stdin = input
  stdout : table.file stdout = output
  stderr : table.file stderr = errors
  cleared : server.Cleared table

variable {server current : Server}
variable {base : DescriptorTable File}
variable {extra : List (Int × File)}
variable {client : ClientStructure}

/-! ## The parts of a stage -/

/-- The table of a stage after its first lines. -/
theorem ForkReady.stageStart_image
    (ready : current.ForkReady)
    (pos : Int) :
    ∃ connection,
      current.fds.file current.sockfd = some (.socket connection) ∧
        current.sockfd ∉ crossFds current.infor pos ∧
        Image current.fds ((current.childStart pos).dup2 current.sockfd stderr)
          (crossFds current.infor pos) (some .terminal) (some .terminal)
          (some (.socket connection)) := by
  obtain ⟨connection, isOpen⟩ := ready.healthy.socket ready.state
  have isSocket : current.fds.file current.sockfd =
      some (.socket connection) :=
    isOpen
  have kept := ready.not_mem_crossFds isSocket rfl pos
  have image := ready.childStart_image pos
  have stillOpen :
      (current.childStart pos).file current.sockfd =
        some (.socket connection) := by
    rw [image.file_of_not_mem
      (ready.healthy.not_standard isSocket (by simp)) kept]
    exact isSocket
  exact ⟨connection, isSocket, kept, image.dup2_stderr stillOpen⟩

/-- The socket of the client is the same throughout a line. -/
theorem LineReady.socket_eq
    (lineReady : server.LineReady)
    (underway : Underway server base client)
    (frame : Frame server base extra client current) :
    current.fds.file current.sockfd = server.fds.file server.sockfd := by
  obtain ⟨connection, isOpen⟩ :=
    lineReady.healthy.socket lineReady.inLine.state
  have isSocket :
      server.fds.file server.sockfd = some (.socket connection) :=
    isOpen
  rw [underway.sockfd_eq frame, isSocket]
  exact frame.fds.file_base (underway.keeps isSocket rfl)

/-- The descriptor of the file of `>`, which every stage closes. -/
def redirFds
    (line : Command)
    (fdRedir : Int) : List Int :=
  if line.redir then [fdRedir] else []

theorem closeRedir_image
    {start table : DescriptorTable File}
    {closed : List Int}
    {input output errors : Option File}
    (image : Image start table closed input output errors)
    {line : Command}
    {fdRedir : Int}
    (notStandard : line.redir = true → ¬ Standard fdRedir) :
    Image start (if line.redir then table.close fdRedir else table)
      (closed ++ redirFds line fdRedir) input output errors := by
  unfold redirFds
  split_ifs with file
  · exact image.close (notStandard file)
  · rw [List.append_nil]
    exact image

/-- The input of a line is not among the waiting blocks. -/
theorem LineReady.input_not_mem_crossFds
    (lineReady : server.LineReady)
    (underway : Underway server base client)
    (frame : Frame server base extra client current)
    {line : Command}
    {fd : Int}
    (isInput : fd ∈ server.inputFds line)
    (pos : Int) :
    fd ∉ crossFds current.infor pos := by
  rw [underway.infor_eq frame, Shell.mem_crossFds]
  rintro ⟨slot, recorded, _, isBlock⟩
  have record : server.infor.closeFdRecord = server.infor.pendingSlots :=
    lineReady.inLine.record
  rw [record, mem_pendingSlots] at recorded
  obtain ⟨notRead, notWrite⟩ := lineReady.pending_not_mem_inputFds recorded
  rcases isBlock with rfl | rfl
  · exact notWrite isInput
  · exact notRead isInput

/-- The descriptors of the expired pipe are those of the input. -/
theorem expired_mem_inputFds
    {slot : Nat}
    (expired : server.infor.outputPoint = slot)
    (line : Command)
    {fd : Int}
    (isBlock :
      fd = (server.infor.list slot).readFd ∨
        fd = (server.infor.list slot).writeFd) :
    fd ∈ server.inputFds line := by
  have isExpired : 0 ≤ server.infor.outputPoint := by omega
  have ports := ClientStructure.inputPorts_of_expired line isExpired
  have isSlot : server.infor.outputPoint.toNat = slot := by omega
  have isInput :
      server.inputFds line =
        [(server.infor.list server.infor.outputPoint.toNat).writeFd,
          (server.infor.list server.infor.outputPoint.toNat).readFd] := by
    unfold inputFds
    rw [ports]
    rfl
  rw [isInput, isSlot]
  rcases isBlock with rfl | rfl
  · exact List.mem_cons_of_mem _ List.mem_cons_self
  · exact List.mem_cons_self

/-- Once the input is taken, the expired pipe is closed. -/
theorem takenFds_expired
    {slot : Nat}
    (expired : server.infor.outputPoint = slot)
    (line : Command)
    {fd : Int}
    (isBlock :
      fd = (server.infor.list slot).readFd ∨
        fd = (server.infor.list slot).writeFd) :
    (server.takenFds line).file fd = none := by
  rw [takenFds, closeAll_file,
    if_pos (expired_mem_inputFds expired line isBlock)]

/-- The file of `>` in the table at a fork. -/
theorem Frame.redir_file
    {line : Command}
    {cmdNum : Nat}
    (frame : Frame server base extra client current)
    (included : ∀ entry ∈ server.redirExtra line cmdNum, entry ∈ extra)
    (file : line.redir = true) :
    (server.fds.lowestFree, .named (line.word cmdNum)) ∈ extra ∧
      current.fds.file server.fds.lowestFree =
        some (.named (line.word cmdNum)) := by
  have member :
      (server.fds.lowestFree, File.named (line.word cmdNum)) ∈ extra := by
    apply included
    rw [redirExtra_eq_file file]
    exact List.mem_singleton_self _
  exact ⟨member, frame.fds.file_extra member⟩

/-- The entries of `redirExtra` are not pipes. -/
theorem redirExtra_not_pipe
    {line : Command}
    {cmdNum : Nat}
    {entry : Int × File}
    (member : entry ∈ server.redirExtra line cmdNum) :
    entry.2.pipe? = none := by
  unfold redirExtra at member
  split_ifs at member
  · rw [List.mem_singleton.mp member]
    rfl
  · cases member

/-- A pipe whose ends were opened on the way can become the output. -/
theorem Frame.writablePipe
    (frame : Frame server base extra client current)
    {fd : PipeFds}
    {pipe : Nat}
    (isRead : (fd.readFd, .readEnd pipe) ∈ extra)
    (isWrite : (fd.writeFd, .writeEnd pipe) ∈ extra)
    {closed : List Int}
    (kept : fd.writeFd ∉ closed) :
    current.WritablePipe fd closed where
  ends := ⟨pipe, frame.fds.file_extra isRead, frame.fds.file_extra isWrite⟩
  kept := kept

/-- The file of `>` is not the descriptor of a pipe. -/
theorem Frame.not_mem_redirFds
    {line : Command}
    {cmdNum : Nat}
    (frame : Frame server base extra client current)
    (included : ∀ entry ∈ server.redirExtra line cmdNum, entry ∈ extra)
    {fd : Int}
    {file : File}
    {pipe : Nat}
    (isOpen : current.fds.file fd = some file)
    (isPipe : file.pipe? = some pipe) :
    fd ∉ redirFds line server.fds.lowestFree := by
  unfold redirFds
  split_ifs with isRedir
  · rw [List.mem_singleton]
    rintro rfl
    rw [(frame.redir_file included isRedir).2] at isOpen
    cases isOpen
    cases isPipe
  · exact List.not_mem_nil

/-- The file of `>` is closed at the end of every stage. -/
theorem Frame.closeRedir_image
    {line : Command}
    {cmdNum : Nat}
    (frame : Frame server base extra client current)
    (included : ∀ entry ∈ server.redirExtra line cmdNum, entry ∈ extra)
    (healthy : current.Healthy)
    {table : DescriptorTable File}
    {closed : List Int}
    {input output errors : Option File}
    (image : Image current.fds table closed input output errors) :
    Image current.fds
      (if line.redir then table.close server.fds.lowestFree else table)
      (closed ++ redirFds line server.fds.lowestFree) input output errors := by
  apply Server.closeRedir_image image
  intro isRedir
  exact healthy.not_standard (frame.redir_file included isRedir).2 (by simp)

/-- The calls of the first stage, which is not the last. -/
theorem closeAndConnectFd_first
    {last : Nat}
    (notLast : 0 ≠ last)
    (fd : PipeFds)
    (exFd0 : Int)
    (side : Side)
    (fds : DescriptorTable File) :
    closeAndConnectFd 0 0 last fd exFd0 side fds =
      connectWriteEnd fd side fds := by
  unfold closeAndConnectFd
  rw [if_pos notLast, if_neg (by simp)]

/-- A child that gets to `execvp` got past each of its parts. -/
theorem ok_of_bind
    {part : Except (DescriptorTable File) (DescriptorTable File)}
    {rest :
      DescriptorTable File →
        Except (DescriptorTable File) (DescriptorTable File)}
    {final : DescriptorTable File}
    (ran : (part >>= rest) = .ok final) :
    ∃ between, part = .ok between ∧ rest between = .ok final := by
  cases part with
  | error fds => cases ran
  | ok between => exact ⟨between, rfl, ran⟩

/-! ## The first stage -/

/-- The input that was selected when the line began is still there. -/
theorem LineReady.selectedInput_eq
    (lineReady : server.LineReady)
    (frame : Frame server server.fds extra server.client current)
    (line : Command) :
    current.selectedInput line = server.selectedInput line := by
  have keeps {fd : Int} {file : File}
      (isOpen : server.fds.file fd = some file) :
      current.fds.file fd = server.fds.file fd := by
    rw [isOpen]
    exact frame.fds.file_base isOpen
  have sameInfor := (Underway.start server).infor_eq frame
  have sameSockfd := (Underway.start server).sockfd_eq frame
  have sameSelf : current.self = server.self := by
    unfold self
    rw [frame.client_eq]
  unfold selectedInput
  rw [sameInfor, sameSockfd, sameSelf, frame.client_eq]
  split_ifs with expired given isReady
  · have inUse : server.InUse server.infor.outputPoint.toNat :=
      Or.inr (by omega)
    obtain ⟨pipe, isRead, _⟩ := lineReady.block_of_inUse inUse
    exact keeps isRead
  · have isHeld :
        server.client.lineLedger.held
          (.userPipe server.client.id line.userInId) := by
      simp only [ClientStructure.userInReady, Bool.and_eq_true,
        decide_eq_true_eq] at isReady
      exact isReady.2
    obtain ⟨pipe, isRead⟩ := lineReady.wired.user isHeld
    exact keeps isRead
  · rfl
  · obtain ⟨connection, isOpen⟩ :=
      lineReady.healthy.socket lineReady.inLine.state
    exact keeps isOpen

/-- A first command gets the input that was selected when the line began. -/
theorem LineReady.childInput_image
    (lineReady : server.LineReady)
    (frame : Frame server server.fds extra server.client current)
    {line : Command}
    {outside : Outside}
    {pos : Int}
    {table connected : DescriptorTable File}
    {first second third : File}
    (image :
      Image current.fds table (crossFds current.infor pos) (some first)
        (some second) (some third))
    (ran : childInput line outside current table = .ok connected) :
    Image current.fds connected
        (crossFds current.infor pos ++ server.inputFds line)
        (server.selectedInput line) (some second) (some third) ∧
      ∃ file, server.selectedInput line = some file := by
  have underway := Underway.start server
  have ready := lineReady.forkReady underway frame
  have sameInput : current.inputFds line = server.inputFds line := by
    unfold inputFds
    rw [frame.client_eq]
  have inputPipes : current.InputPipes line := by
    refine ⟨sameInput ▸ (lineReady.inputPipes line).distinct, ?_⟩
    intro fd member
    rw [sameInput] at member
    obtain ⟨file, pipe, isOpen, isPipe⟩ :=
      (lineReady.inputPipes line).isPipe fd member
    exact ⟨file, pipe, frame.fds.file_base isOpen, isPipe⟩
  obtain ⟨_, _, socketKept, _⟩ := ready.stageStart_image pos
  have input :=
    ready.childInput_image inputPipes image
      (by
        rw [sameInput]
        intro fd member
        exact lineReady.input_not_mem_crossFds underway frame member pos)
      socketKept ran
  rwa [lineReady.selectedInput_eq frame line, sameInput] at input

/-- The first stage reads the selected input and writes to the first pipe. -/
theorem LineReady.first_wired
    (lineReady : server.LineReady)
    {line : Command}
    {outside : Outside}
    {cmdNum : Nat}
    (stages : 2 ≤ cmdNum)
    {vars : Vars}
    (isPos : vars.pos = -1)
    (isFd : vars.fd = (server.loopStart line cmdNum).pipeFds)
    {table : DescriptorTable File}
    (ran :
      stageChild line outside cmdNum server.fds.lowestFree vars 0
        (server.loopStart line cmdNum).pipe = .ok table) :
    server.StageWired (server.selectedInput line)
      (some (.writeEnd server.nextPipe)) (server.fds.file server.sockfd)
      table := by
  have frame := first_frame line cmdNum server
  rw [← isFd] at frame
  have underway := Underway.start server
  generalize (server.loopStart line cmdNum).pipe = current at frame ran
  have ready := lineReady.forkReady underway frame
  obtain ⟨connection, isSocket, _, start⟩ :=
    ready.stageStart_image vars.pos
  have included :
      ∀ entry ∈ server.redirExtra line cmdNum,
        entry ∈ (vars.fd.readFd, File.readEnd server.nextPipe) ::
          (vars.fd.writeFd, .writeEnd server.nextPipe) ::
            server.redirExtra line cmdNum :=
    fun _ member => List.mem_cons_of_mem _ (List.mem_cons_of_mem _ member)
  simp only [stageChild, if_true] at ran
  obtain ⟨connected, ranInput, finishes⟩ := ok_of_bind ran
  obtain ⟨input, _⟩ := lineReady.childInput_image frame start ranInput
  rw [← isSocket, lineReady.socket_eq underway frame] at input
  cases finishes
  rw [closeAndConnectFd_first (by omega)]
  have isRead :
      (vars.fd.readFd, File.readEnd server.nextPipe) ∈
        (vars.fd.readFd, File.readEnd server.nextPipe) ::
          (vars.fd.writeFd, .writeEnd server.nextPipe) ::
            server.redirExtra line cmdNum :=
    List.mem_cons_self
  have isWrite :
      (vars.fd.writeFd, File.writeEnd server.nextPipe) ∈
        (vars.fd.readFd, File.readEnd server.nextPipe) ::
          (vars.fd.writeFd, .writeEnd server.nextPipe) ::
            server.redirExtra line cmdNum :=
    List.mem_cons_of_mem _ List.mem_cons_self
  have writeOpen := frame.fds.file_extra isWrite
  have kept :
      vars.fd.writeFd ∉
        (crossFds current.infor vars.pos ++ server.inputFds line) ++
          redirFds line server.fds.lowestFree := by
    simp only [List.mem_append, not_or]
    refine ⟨⟨lineReady.extra_not_mem_crossFds underway frame isWrite _, ?_⟩,
      frame.not_mem_redirFds included writeOpen rfl⟩
    intro member
    obtain ⟨file, _, isOpen, _⟩ := (lineReady.inputPipes line).isPipe _ member
    rw [frame.fds.free isWrite] at isOpen
    cases isOpen
  have final :=
    (frame.writablePipe isRead isWrite kept).image ready.healthy
      (frame.closeRedir_image included ready.healthy input)
  rw [writeOpen] at final
  refine ⟨final.stdin, final.stdout, final.stderr,
    lineReady.cleared underway frame final ?_ ?_⟩
  · intro fd file pipe member isPipe
    rcases List.mem_cons.mp member with isEnd | later
    · cases isEnd
      simp
    · rcases List.mem_cons.mp later with isEnd | inRedir
      · cases isEnd
        simp
      · have notPipe := redirExtra_not_pipe inRedir
        rw [isPipe] at notPipe
        cases notPipe
  · rintro slot fd (pending | expired) isBlock
    · have closes := lineReady.mem_crossFds underway frame pending
        (by omega : vars.pos ≠ slot) isBlock
      exact Or.inl (by simp [closes])
    · have closes := expired_mem_inputFds expired line isBlock
      exact Or.inl (by simp [closes])

/-! ## The middle stages -/

/-- The calls of a middle stage. -/
theorem closeAndConnectFd_middle
    {i last : Nat}
    (notFirst : i ≠ 0)
    (notLast : i ≠ last)
    (fd : PipeFds)
    (exFd0 : Int)
    (side : Side)
    (fds : DescriptorTable File) :
    closeAndConnectFd i 0 last fd exFd0 side fds =
      connectReadEnd exFd0 side (connectWriteEnd fd side fds) := by
  unfold closeAndConnectFd
  rw [if_pos notLast, if_pos notFirst]

/-- A middle stage reads from the pipe before it and writes to the next one. -/
theorem LineReady.middle_wired
    (lineReady : server.LineReady)
    {line : Command}
    {outside : Outside}
    {cmdNum i : Nat}
    {state : Vars × Server}
    (looping : Looping line cmdNum server i state)
    (notLast : i + 1 ≠ cmdNum - 1)
    {vars : Vars}
    (isVars : vars = { state.1 with fd := state.2.pipeFds })
    {table : DescriptorTable File}
    (ran :
      stageChild line outside cmdNum server.fds.lowestFree vars (i + 1)
        state.2.pipe = .ok table) :
    server.StageWired (some (.readEnd (server.nextPipe + i)))
      (some (.writeEnd (server.nextPipe + i + 1)))
      (server.fds.file server.sockfd) table := by
  have frame := looping.pipe_frame
  have isPos : vars.pos = -1 := by
    rw [isVars]
    exact looping.pos
  have isFd : state.2.pipeFds = vars.fd := by rw [isVars]
  have isEx : state.1.exFd0 = vars.exFd0 := by rw [isVars]
  rw [isFd, isEx] at frame
  have underway := lineReady.underway_taken line
  generalize state.2.pipe = current at frame ran
  have ready := lineReady.forkReady underway frame
  obtain ⟨connection, isSocket, _, start⟩ := ready.stageStart_image vars.pos
  rw [← isSocket, lineReady.socket_eq underway frame] at start
  generalize isExtra :
    (vars.fd.readFd, File.readEnd (server.nextPipe + i + 1)) ::
      (vars.fd.writeFd, .writeEnd (server.nextPipe + i + 1)) ::
      (vars.exFd0, .readEnd (server.nextPipe + i)) ::
      server.redirExtra line cmdNum = extra at frame
  have isRead :
      (vars.fd.readFd, File.readEnd (server.nextPipe + i + 1)) ∈ extra := by
    simp [← isExtra]
  have isWrite :
      (vars.fd.writeFd, File.writeEnd (server.nextPipe + i + 1)) ∈ extra := by
    simp [← isExtra]
  have isInner :
      (vars.exFd0, File.readEnd (server.nextPipe + i)) ∈ extra := by
    simp [← isExtra]
  have included :
      ∀ entry ∈ server.redirExtra line cmdNum, entry ∈ extra := by
    intro entry member
    simp [← isExtra, member]
  have notCross {fd : Int} {file : File} (member : (fd, file) ∈ extra) :
      fd ∉ crossFds current.infor vars.pos :=
    lineReady.extra_not_mem_crossFds underway frame member _
  have writeOpen := frame.fds.file_extra isWrite
  have innerOpen := frame.fds.file_extra isInner
  have kept :
      vars.fd.writeFd ∉
        crossFds current.infor vars.pos ++
          redirFds line server.fds.lowestFree := by
    simp only [List.mem_append, not_or]
    exact ⟨notCross isWrite, frame.not_mem_redirFds included writeOpen rfl⟩
  have innerKept :
      vars.exFd0 ∉
        (crossFds current.infor vars.pos ++
            redirFds line server.fds.lowestFree) ++
          [vars.fd.readFd, vars.fd.writeFd] := by
    simp only [List.mem_append, not_or, List.mem_cons, List.not_mem_nil,
      or_false]
    refine ⟨⟨notCross isInner, frame.not_mem_redirFds included innerOpen rfl⟩,
      ?_, ?_⟩
    · exact frame.fds.fd_ne isInner isRead (by simp)
    · exact frame.fds.fd_ne isInner isWrite (by simp)
  have writes :=
    (frame.writablePipe isRead isWrite kept).image ready.healthy
      (frame.closeRedir_image included ready.healthy start)
  rw [writeOpen] at writes
  have final :=
    connectReadEnd_image writes innerOpen
      (ready.healthy.not_standard innerOpen (by simp)) innerKept
  simp only [stageChild, if_neg (Nat.succ_ne_zero i), if_neg notLast] at ran
  obtain ⟨connected, ranStart, finishes⟩ := ok_of_bind ran
  cases ranStart
  cases finishes
  rw [closeAndConnectFd_middle (Nat.succ_ne_zero i) notLast]
  refine ⟨final.stdin, final.stdout, final.stderr,
    lineReady.cleared underway frame final ?_ ?_⟩
  · intro fd file pipe member isPipe
    rw [← isExtra] at member
    simp only [List.mem_cons] at member
    rcases member with isEnd | isEnd | isEnd | inRedir
    · cases isEnd
      simp
    · cases isEnd
      simp
    · cases isEnd
      simp
    · have notPipe := redirExtra_not_pipe inRedir
      rw [isPipe] at notPipe
      cases notPipe
  · rintro slot fd (pending | expired) isBlock
    · have closes := lineReady.mem_crossFds underway frame pending
        (by omega : vars.pos ≠ slot) isBlock
      exact Or.inl (by simp [closes])
    · exact Or.inr (takenFds_expired expired line isBlock)

/-! ## The last stage -/

/-- The last stage gets the selected output. -/
theorem ForkReady.lastOutput_image
    (ready : current.ForkReady)
    {line : Command}
    {outside : Outside}
    {fd : PipeFds}
    {fdRedir : Int}
    {name : String}
    {table connected : DescriptorTable File}
    {closed : List Int}
    {first second third : File}
    (image :
      Image current.fds table closed (some first) (some second) (some third))
    (socketKept : current.sockfd ∉ closed)
    (writable :
      current.writesPipe line = true → current.WritablePipe fd closed)
    (isFile :
      line.crossNum = 0 →
      line.redir = true →
      current.fds.file fdRedir = some (.named name) ∧ fdRedir ∉ closed)
    (ran : lastOutput line outside fdRedir current fd table = .ok connected) :
    Image current.fds connected (closed ++ current.outputFds line fd)
      (some first) (current.selectedOutput line fd name)
      (if line.crossNum < 0 then current.fds.file fd.writeFd
      else some third) := by
  unfold lastOutput at ran
  unfold outputFds selectedOutput
  unfold writesPipe at writable ⊢
  by_cases cross : line.crossNum ≠ 0
  · rw [if_pos cross] at ran ⊢
    cases ran
    have isWritable := writable (by simp [cross])
    rw [if_pos (by simp [cross])]
    exact childCross_image ready.healthy isWritable image
  · have noErrors : ¬ line.crossNum < 0 := by omega
    rw [if_neg cross] at ran ⊢
    rw [if_neg noErrors]
    simp only [cross, decide_false, Bool.false_or] at writable ⊢
    by_cases file : line.redir = true
    · rw [if_pos file] at ran ⊢
      cases ran
      obtain ⟨isOpen, fileKept⟩ := isFile (by simpa using cross) file
      have stillOpen : table.file fdRedir = some (.named name) := by
        rw [image.file_of_not_mem
          (ready.healthy.not_standard isOpen (by simp)) fileKept]
        exact isOpen
      rw [if_neg (by simp [file]), List.append_nil]
      exact image.dup2_stdout stillOpen
    · rw [if_neg file] at ran ⊢
      by_cases given : line.userOutId ≠ 0
      · rw [if_pos given] at ran ⊢
        have final := childUserOut_image ready.healthy
          (fun isReady => writable (by simp [file, given, isReady])) image ran
        simpa [file, given] using final
      · rw [if_neg given] at ran ⊢
        cases ran
        obtain ⟨connection, isOpen⟩ := ready.healthy.socket ready.state
        have isSocket :
            current.fds.file current.sockfd = some (.socket connection) :=
          isOpen
        have stillOpen :
            table.file current.sockfd = some (.socket connection) := by
          rw [image.file_of_not_mem
            (ready.healthy.not_standard isSocket (by simp)) socketKept]
          exact isSocket
        rw [if_neg (by simp [given]), List.append_nil, isSocket]
        exact image.dup2_stdout stillOpen

/-- What the block before a fork has prepared for the output of the child. -/
structure OutputReady
    (server current : Server)
    (line : Command)
    (start vars : Vars)
    (pipes rest : List (Int × File)) : Prop where
  writable :
    current.writesPipe line = true →
    current.WritablePipe vars.fd (crossFds current.infor vars.pos)
  closes : ∀ entry ∈ pipes, entry.1 ∈ current.outputFds line vars.fd
  spares :
    ∀ entry ∈ rest,
      (∀ new ∈ pipes, new.1 ≠ entry.1) →
      entry.1 ∉ current.outputFds line vars.fd
  found :
    ∀ {slot : Nat},
      server.infor.Pending slot →
      vars.pos = slot →
      (line.crossNum = 0 ∧ vars.pos = start.pos) ∨
        current.outputFds line vars.fd =
          [(server.infor.list slot).readFd, (server.infor.list slot).writeFd]

/-- The search finds a waiting pipe with the same count. -/
theorem LineReady.pending_of_found
    (lineReady : server.LineReady)
    {crossNum : Int}
    {slot : Nat}
    (isSlot : server.infor.findSameCrossPipe crossNum = slot) :
    server.infor.Pending slot ∧
      (server.infor.list slot).count = crossCount crossNum := by
  have record : server.infor.closeFdRecord = server.infor.pendingSlots :=
    lineReady.inLine.record
  rcases findSameCrossPipe_cases server.infor crossNum with
    ⟨isNone, _⟩ | ⟨other, recorded, isOther, sameCount⟩
  · omega
  · have same : other = slot := by omega
    subst same
    rw [record, mem_pendingSlots] at recorded
    exact ⟨recorded, sameCount⟩

/-- A new pipe for the output. -/
theorem LineReady.outputReady_new
    (lineReady : server.LineReady)
    (underway : Underway server base client)
    {line : Command}
    {pipe : Nat}
    {start vars : Vars}
    {rest : List (Int × File)}
    (frame :
      Frame server base
        ([(vars.fd.readFd, .readEnd pipe), (vars.fd.writeFd, .writeEnd pipe)] ++
          rest)
        client current)
    (writes : current.writesPipe line = true)
    (notFound :
      ∀ {slot : Nat},
        vars.pos = slot → line.crossNum = 0 ∧ vars.pos = start.pos) :
    OutputReady server current line start vars
      [(vars.fd.readFd, .readEnd pipe), (vars.fd.writeFd, .writeEnd pipe)]
      rest where
  writable := by
    intro _
    have isRead :
        (vars.fd.readFd, File.readEnd pipe) ∈
          [(vars.fd.readFd, File.readEnd pipe),
            (vars.fd.writeFd, .writeEnd pipe)] ++ rest := by
      simp
    have isWrite :
        (vars.fd.writeFd, File.writeEnd pipe) ∈
          [(vars.fd.readFd, File.readEnd pipe),
            (vars.fd.writeFd, .writeEnd pipe)] ++ rest := by
      simp
    exact frame.writablePipe isRead isWrite
      (lineReady.extra_not_mem_crossFds underway frame isWrite _)
  closes := by
    rw [outputFds, if_pos writes]
    simp
  spares := by
    intro entry _ apart
    have notRead := apart _ List.mem_cons_self
    have notWrite := apart _ (List.mem_cons_of_mem _ List.mem_cons_self)
    rw [outputFds, if_pos writes]
    simpa [eq_comm] using And.intro notRead.symm notWrite.symm
  found := fun _ isSlot => Or.inl (notFound isSlot)

theorem LineReady.outputReady
    (lineReady : server.LineReady)
    (underway : Underway server base client)
    {line : Command}
    {pipe : Nat}
    {start vars : Vars}
    {pipes rest : List (Int × File)}
    (frame : Frame server base (pipes ++ rest) client current)
    (opened : Opened line pipe client start vars pipes)
    (used :
      line.crossNum = 0 →
      line.userOutId ≠ 0 →
      client.userOutReady line.userOutId = true →
        line.redir = false) :
    OutputReady server current line start vars pipes rest := by
  cases opened with
  | numbered inserts notFound isNew different =>
      subst isNew
      refine lineReady.outputReady_new underway frame ?_ ?_
      · simp [writesPipe, inserts.1]
      · intro slot isSlot
        omega
  | user noCross given ready samePos isNew different =>
      subst isNew
      refine lineReady.outputReady_new underway frame ?_ fun _ =>
        ⟨noCross, samePos⟩
      have noFile := used noCross given ready
      simp [writesPipe, noFile, given, frame.client_eq, ready]
  | nothing noCross notReady same none =>
      subst none
      have noWrite : current.writesPipe line = false := by
        by_contra writes
        simp only [writesPipe, noCross, frame.client_eq, Bool.not_eq_false,
          ne_eq, not_true_eq_false, decide_false, Bool.false_or,
          Bool.and_eq_true, decide_eq_true_eq] at writes
        exact notReady ⟨writes.1.2, writes.2⟩
      constructor
      · intro writes
        rw [noWrite] at writes
        cases writes
      · simp
      · simp [outputFds, noWrite]
      · exact fun _ _ => Or.inl ⟨noCross, by rw [same]⟩
  | found slot cross isSlot isPos isFd none =>
      subst none
      have ready := lineReady.forkReady underway frame
      have writes : current.writesPipe line = true := by
        simp [writesPipe, cross]
      have sameInfor := underway.infor_eq frame
      have isInfor : (client.list client.id).cpInfor = server.infor := by
        rw [← frame.infor_eq, sameInfor]
      rw [isInfor] at isSlot isFd
      have pending := (lineReady.pending_of_found isSlot).1
      have fds :
          current.outputFds line vars.fd =
            [(server.infor.list slot).readFd,
              (server.infor.list slot).writeFd] := by
        rw [outputFds, if_pos writes, isFd]
        rfl
      constructor
      · intro _
        rw [isPos, isFd, ← sameInfor]
        rw [← sameInfor] at pending
        exact ⟨ready.block pending, (ready.block_not_mem_crossFds pending).2⟩
      · simp
      · intro entry member _
        obtain ⟨pipe, isRead, isWrite⟩ :=
          lineReady.block_of_inUse (Or.inl pending)
        obtain ⟨sameRead, sameWrite⟩ := underway.waiting pending
        have free := frame.fds.free (by simpa using member)
        rw [fds]
        simp only [List.mem_cons, List.not_mem_nil, or_false]
        rintro (isEnd | isEnd)
        · rw [isEnd, sameRead, isRead] at free
          cases free
        · rw [isEnd, sameWrite, isWrite] at free
          cases free
      · intro other _ isOther
        have same : other = slot := by omega
        rw [same]
        exact Or.inr fds

/-- The calls of the last stage, which is not the first. -/
theorem closeAndConnectFd_last
    {last : Nat}
    (notFirst : last ≠ 0)
    (fd : PipeFds)
    (exFd0 : Int)
    (side : Side)
    (fds : DescriptorTable File) :
    closeAndConnectFd last 0 last fd exFd0 side fds =
      connectReadEnd exFd0 side fds := by
  unfold closeAndConnectFd
  rw [if_pos notFirst, if_neg (by simp)]

/-- The last stage reads from the pipe before it and writes to the output. -/
theorem LineReady.last_wired
    (lineReady : server.LineReady)
    {line : Command}
    {outside : Outside}
    {cmdNum i : Nat}
    {state : Vars × Server}
    (looping : Looping line cmdNum server i state)
    (isLast : i + 1 = cmdNum - 1)
    (used :
      line.crossNum = 0 →
      line.userOutId ≠ 0 →
      (server.client.takeInput line).userOutReady line.userOutId = true →
        line.redir = false)
    {table : DescriptorTable File}
    (ran :
      stageChild line outside cmdNum server.fds.lowestFree
        (openOutput line state.1 state.2).1 (i + 1)
        (openOutput line state.1 state.2).2 = .ok table) :
    server.StageWired (some (.readEnd (server.nextPipe + i)))
      ((openOutput line state.1 state.2).2.selectedOutput line
        (openOutput line state.1 state.2).1.fd (line.word cmdNum))
      (if line.crossNum < 0 then
        (openOutput line state.1 state.2).2.fds.file
          (openOutput line state.1 state.2).1.fd.writeFd
      else server.fds.file server.sockfd)
      table := by
  obtain ⟨pipes, opened, ⟨frame, pipesApart, fileApart⟩, sameEx⟩ :=
    looping.lastFork
  have startPos := looping.pos
  rw [← sameEx] at frame pipesApart fileApart
  generalize (openOutput line state.1 state.2).1 = vars at *
  generalize (openOutput line state.1 state.2).2 = current at *
  have underway := lineReady.underway_taken line
  have ready := lineReady.forkReady underway frame
  have output := lineReady.outputReady underway frame opened used
  obtain ⟨connection, isSocket, socketKept, start⟩ :=
    ready.stageStart_image vars.pos
  generalize isExtra :
    pipes ++ (vars.exFd0, File.readEnd (server.nextPipe + i)) ::
      server.redirExtra line cmdNum = extra at frame
  have isInner :
      (vars.exFd0, File.readEnd (server.nextPipe + i)) ∈ extra := by
    simp [← isExtra]
  have included :
      ∀ entry ∈ server.redirExtra line cmdNum, entry ∈ extra := by
    intro entry member
    simp [← isExtra, member]
  have notCross {fd : Int} {file : File} (member : (fd, file) ∈ extra) :
      fd ∉ crossFds current.infor vars.pos :=
    lineReady.extra_not_mem_crossFds underway frame member _
  have innerOpen := frame.fds.file_extra isInner
  simp only [stageChild, if_neg (Nat.succ_ne_zero i), if_pos isLast] at ran
  obtain ⟨connected, ranOutput, finishes⟩ := ok_of_bind ran
  have writes :=
    ready.lastOutput_image start socketKept output.writable
      (fun _ file =>
        ⟨(frame.redir_file included file).2,
          notCross (frame.redir_file included file).1⟩)
      ranOutput
  rw [← isSocket, lineReady.socket_eq underway frame] at writes
  have innerKept :
      vars.exFd0 ∉
        (crossFds current.infor vars.pos ++ current.outputFds line vars.fd) ++
          redirFds line server.fds.lowestFree := by
    simp only [List.mem_append, not_or]
    refine ⟨⟨notCross isInner, ?_⟩,
      frame.not_mem_redirFds included innerOpen rfl⟩
    exact output.spares _ List.mem_cons_self
      fun new isNew => (pipesApart new isNew).1
  have final :=
    connectReadEnd_image (frame.closeRedir_image included ready.healthy writes)
      innerOpen (ready.healthy.not_standard innerOpen (by simp)) innerKept
  cases finishes
  rw [isLast, closeAndConnectFd_last (by omega)]
  refine ⟨final.stdin, final.stdout, final.stderr,
    lineReady.cleared underway frame final ?_ ?_⟩
  · intro fd file pipe member isPipe
    rw [← isExtra, List.mem_append, List.mem_cons] at member
    rcases member with isNew | isEnd | inRedir
    · have closes := output.closes _ isNew
      simp [closes]
    · cases isEnd
      simp
    · have notPipe := redirExtra_not_pipe inRedir
      rw [isPipe] at notPipe
      cases notPipe
  · rintro slot fd (pending | expired) isBlock
    · by_cases isPos : vars.pos = slot
      · rcases output.found pending isPos with ⟨_, samePos⟩ | fds
        · omega
        · have closes : fd ∈ current.outputFds line vars.fd := by
            rw [fds]
            simpa using isBlock
          exact Or.inl (by simp [closes])
      · have closes := lineReady.mem_crossFds underway frame pending isPos
          isBlock
        exact Or.inl (by simp [closes])
    · exact Or.inr (takenFds_expired expired line isBlock)

/-! ## The selected output -/

/--
The output that the directive of a line selects: the numbered pipe that waits
with its count after the line, the file, a new pipe registered with the other
client, `/dev/null` if there is none, or the socket.
-/
structure Directed
    (line : Command)
    (cmdNum : Nat)
    (server after : Server)
    (output : Option File) : Prop where
  numbered :
    line.crossNum ≠ 0 →
    ∃ slot pipe,
      after.infor.Pending slot ∧
        (after.infor.list slot).count = crossCount line.crossNum ∧
        after.fds.file (after.infor.list slot).readFd = some (.readEnd pipe) ∧
        after.fds.file (after.infor.list slot).writeFd =
          some (.writeEnd pipe) ∧
        output = some (.writeEnd pipe)
  file : line.redir = true → output = some (.named (line.word cmdNum))
  user :
    line.userOutId ≠ 0 →
    (server.client.takeInput line).userOutReady line.userOutId = true →
    ∃ pipe,
      server.nextPipe ≤ pipe ∧
        after.fds.file
            ((after.client.list line.userOutId).userPipe server.client.id) =
          some (.readEnd pipe) ∧
        output = some (.writeEnd pipe)
  missing :
    line.userOutId ≠ 0 →
    (server.client.takeInput line).userOutReady line.userOutId = false →
    output = some (.named devNull)
  socket :
    line.crossNum = 0 →
    line.redir = false →
    line.userOutId = 0 →
    output = server.fds.file server.sockfd

/-- The numbered pipe of a line waits in its block after the line. -/
theorem LineReady.directed_numbered
    (lineReady : server.LineReady)
    {line : Command}
    {pipe : Nat}
    {start vars : Vars}
    {pipes rest : List (Int × File)}
    {after : Server}
    (underway : Underway server base client)
    (frame : Frame server base (pipes ++ rest) client current)
    (opened : Opened line pipe client start vars pipes)
    (effect : Effect line pipe server after)
    (cross : line.crossNum ≠ 0) :
    ∃ slot pipe,
      after.infor.Pending slot ∧
        (after.infor.list slot).count = crossCount line.crossNum ∧
        after.fds.file (after.infor.list slot).readFd = some (.readEnd pipe) ∧
        after.fds.file (after.infor.list slot).writeFd =
          some (.writeEnd pipe) ∧
        current.fds.file vars.fd.writeFd = some (.writeEnd pipe) := by
  have isInfor : (client.list client.id).cpInfor = server.infor := by
    rw [← frame.infor_eq, underway.infor_eq frame]
  cases opened with
  | user noCross | nothing noCross => exact absurd noCross cross
  | numbered inserts notFound isNew different =>
      rw [isInfor] at inserts
      have isOutput :
          current.fds.file vars.fd.writeFd = some (.writeEnd pipe) := by
        apply frame.fds.file_extra
        rw [isNew]
        simp
      cases effect with
      | plain kept keeps => exact absurd inserts keeps
      | user fd noCross => exact absurd noCross cross
      | numbered fd kept _ _ stored =>
          have isStored :
              after.infor =
                server.infor.updateCrossPipeFd fd line.crossNum := by
            rw [stored.infor_eq, ClientStructure.setInfor_cpInfor]
            exact if_pos rfl
          have isBlock :
              after.infor.list server.infor.minInputPoint =
                { count := crossCount line.crossNum
                  writeFd := fd.writeFd
                  readFd := fd.readFd } := by
            rw [isStored, updateCrossPipeFd_list, Function.update_self]
          have inRange : server.infor.minInputPoint < fdInforListSize := by
            have member := lineReady.inLine.sound.tight.1
            simpa [slots, Server.infor, self] using member
          refine ⟨server.infor.minInputPoint, pipe, ⟨inRange, ?_⟩, ?_, ?_, ?_,
            isOutput⟩
          · rw [isBlock]
            exact crossCount_pos cross
          · rw [isBlock]
          · rw [isBlock]
            exact stored.fds.file_extra List.mem_cons_self
          · rw [isBlock]
            exact stored.fds.file_extra
              (List.mem_cons_of_mem _ List.mem_cons_self)
  | found slot _ isSlot isPos isFd none =>
      rw [isInfor] at isSlot isFd
      obtain ⟨pending, sameCount⟩ := lineReady.pending_of_found isSlot
      obtain ⟨waitingPipe, isRead, isWrite⟩ :=
        lineReady.block_of_inUse (Or.inl pending)
      cases effect with
      | numbered fd kept inserts =>
          have notFound := inserts.2
          omega
      | user fd noCross => exact absurd noCross cross
      | plain kept keeps _ _ stored =>
          have sameInfor : after.infor = server.infor := by
            rw [stored.infor_eq]
            exact infor_takeInput server line
          obtain ⟨keptRead, keptWrite⟩ :=
            (lineReady.underway_taken line).waiting pending
          rw [sameInfor]
          refine ⟨slot, waitingPipe, pending, sameCount,
            stored.fds.file_base (keptRead.trans isRead),
            stored.fds.file_base (keptWrite.trans isWrite), ?_⟩
          rw [isFd]
          exact frame.fds.file_base ((underway.waiting pending).2.trans isWrite)

/-- The effect of a line registers the user pipe it creates. -/
theorem Effect.user_registered
    {line : Command}
    {pipe : Nat}
    {after : Server}
    (effect : Effect line pipe server after)
    (notCompeting : ¬ Competing line)
    (noCross : line.crossNum = 0)
    (given : line.userOutId ≠ 0)
    (isReady :
      (server.client.takeInput line).userOutReady line.userOutId = true) :
    after.fds.file
        ((after.client.list line.userOutId).userPipe server.client.id) =
      some (.readEnd pipe) := by
  cases effect with
  | numbered fd kept inserts => exact absurd noCross inserts.1
  | plain kept _ notUser =>
      exact absurd isReady
        (notUser notCompeting noCross given)
  | user fd _ _ _ stored =>
      rw [stored.client_eq, ClientStructure.setUserPipe_userPipe,
        if_pos ⟨rfl, rfl⟩]
      exact stored.fds.file_extra List.mem_cons_self

/-- The user pipe of a line is registered with the other client after it. -/
theorem directed_user
    {line : Command}
    {pipe : Nat}
    {start vars : Vars}
    {pipes rest : List (Int × File)}
    {after : Server}
    (frame : Frame server base (pipes ++ rest) client current)
    (opened : Opened line pipe client start vars pipes)
    (effect : Effect line pipe server after)
    (notCompeting : ¬ Competing line)
    (noCross : line.crossNum = 0)
    (given : line.userOutId ≠ 0)
    (isReady : client.userOutReady line.userOutId = true)
    (stillReady :
      (server.client.takeInput line).userOutReady line.userOutId = true) :
    ∃ pipe,
      server.nextPipe ≤ pipe ∧
        after.fds.file
            ((after.client.list line.userOutId).userPipe server.client.id) =
          some (.readEnd pipe) ∧
        current.fds.file vars.fd.writeFd = some (.writeEnd pipe) := by
  cases opened with
  | numbered inserts => exact absurd noCross inserts.1
  | found slot cross => exact absurd noCross cross
  | nothing _ notReady => exact absurd ⟨given, isReady⟩ notReady
  | user _ _ _ _ isNew _ =>
      have isWrite : (vars.fd.writeFd, File.writeEnd pipe) ∈ pipes ++ rest := by
        rw [isNew]
        simp
      exact ⟨pipe, (frame.fresh isWrite rfl).1,
        effect.user_registered notCompeting noCross given stillReady,
        frame.fds.file_extra isWrite⟩

/-- The output at the last fork is the one that the directive selects. -/
theorem LineReady.directed
    (lineReady : server.LineReady)
    {line : Command}
    (cmdNum : Nat)
    {pipe : Nat}
    {start vars : Vars}
    {pipes rest : List (Int × File)}
    {after : Server}
    (underway :
      Underway server base (server.client.takeInput line))
    (frame :
      Frame server base (pipes ++ rest) (server.client.takeInput line) current)
    (opened :
      Opened line pipe (server.client.takeInput line) start vars pipes)
    (effect : Effect line pipe server after)
    (oneDirective : OneDirective line) :
    Directed line cmdNum server after
      (current.selectedOutput line vars.fd (line.word cmdNum)) where
  numbered := by
    intro cross
    rw [selectedOutput, if_pos cross]
    exact lineReady.directed_numbered underway frame opened effect cross
  file := by
    intro file
    have noCross : line.crossNum = 0 := by
      by_contra cross
      rw [(oneDirective.1 cross).1] at file
      cases file
    rw [selectedOutput, if_neg (by simpa using noCross), if_pos file]
  user := by
    intro given isReady
    obtain ⟨noCross, noFile⟩ := oneDirective.of_given given
    rw [selectedOutput, if_neg (by simpa using noCross), if_neg noFile,
      if_pos given, frame.client_eq, if_pos isReady]
    exact
      directed_user frame opened effect oneDirective.not_competing noCross
        given isReady isReady
  missing := by
    intro given notReady
    obtain ⟨noCross, noFile⟩ := oneDirective.of_given given
    rw [selectedOutput, if_neg (by simpa using noCross), if_neg noFile,
      if_pos given, frame.client_eq, if_neg (by simp [notReady])]
  socket := by
    intro noCross noFile notGiven
    rw [selectedOutput, if_neg (by simpa using noCross),
      if_neg (by simp [noFile]), if_neg (by simpa using notGiven)]
    exact lineReady.socket_eq underway frame

/-- The pipes in the server's table after a line with one directive. -/
theorem Effect.pipe_or_before
    {line : Command}
    {pipe : Nat}
    {after : Server}
    (effect : Effect line pipe server after)
    (healthy : server.Healthy)
    (notCompeting : ¬ Competing line)
    {fd : Int}
    {file : File}
    {number : Nat}
    (isOpen : after.fds.file fd = some file)
    (isPipe : file.pipe? = some number) :
    number = pipe ∨ number < server.nextPipe := by
  have known
      (isOld :
        (server.fds.closeAll (server.inputFds line)).file fd = some file) :
      number = pipe ∨ number < server.nextPipe := by
    rw [closeAll_file] at isOld
    split_ifs at isOld
    exact Or.inr (healthy.known isOld isPipe)
  cases effect with
  | numbered _ kept _ onlyCompeting frame =>
      rw [onlyCompeting notCompeting] at frame
      rcases (frame.fds.file_iff fd file).mp isOpen with isNew | isOld
      · simp only [List.mem_cons, Prod.mk.injEq, List.not_mem_nil,
          or_false] at isNew
        rcases isNew with ⟨_, rfl⟩ | ⟨_, rfl⟩
        · exact Or.inl (Option.some.inj isPipe).symm
        · exact Or.inl (Option.some.inj isPipe).symm
      · exact known isOld
  | user _ _ _ _ frame =>
      rcases (frame.fds.file_iff fd file).mp isOpen with isNew | isOld
      · rw [List.mem_singleton, Prod.mk.injEq] at isNew
        rw [isNew.2] at isPipe
        exact Or.inl (Option.some.inj isPipe).symm
      · exact known isOld
  | plain kept _ _ onlyCompeting frame =>
      rw [onlyCompeting notCompeting] at frame
      rcases (frame.fds.file_iff fd file).mp isOpen with isNew | isOld
      · cases isNew
      · exact known isOld

/-! ## The whole pipeline -/

/--
The streams of stage `i` at `execvp`: neighbours share a pipe, and the ends of
the pipeline are what the line selects.  Outside its streams the stage holds no
end of a pipe of the line.
-/
structure StageStreams
    (line : Command)
    (cmdNum : Nat)
    (server after : Server)
    (i : Nat)
    (table : DescriptorTable File) : Prop where
  first : i = 0 → table.file stdin = server.selectedInput line
  reads :
    ∀ {before},
      i = before + 1 →
      table.file stdin = some (.readEnd (server.nextPipe + before))
  writes :
    i + 1 < cmdNum →
    table.file stdout = some (.writeEnd (server.nextPipe + i))
  last : i + 1 = cmdNum → Directed line cmdNum server after (table.file stdout)
  errors :
    table.file stderr =
      if i + 1 = cmdNum ∧ line.crossNum < 0 then
        table.file stdout
      else
        server.fds.file server.sockfd
  cleared : server.Cleared table

section Pipeline

variable {line : Command}
variable {outside : Outside}
variable {cmdNum : Nat}

theorem LineReady.streams_first
    (lineReady : server.LineReady)
    (stages : 2 ≤ cmdNum)
    (after : Server)
    (execs : (stageOf line outside cmdNum server 0).execs = true) :
    StageStreams line cmdNum server after 0
      (stageOf line outside cmdNum server 0).fds := by
  have ran := forkedChild_ran execs
  have isFork := stageFork_first line outside server stages
  rw [isFork] at ran
  have wired := lineReady.first_wired stages rfl rfl ran
  rw [← isFork] at wired
  refine ⟨fun _ => wired.stdin, fun later => absurd later (by omega),
    fun _ => wired.stdout, fun isLast => absurd isLast (by omega), ?_,
    wired.cleared⟩
  rw [if_neg (by omega)]
  exact wired.stderr

theorem LineReady.streams_middle
    (lineReady : server.LineReady)
    {i : Nat}
    (inner : i + 2 < cmdNum)
    (after : Server)
    (execs : (stageOf line outside cmdNum server (i + 1)).execs = true) :
    StageStreams line cmdNum server after (i + 1)
      (stageOf line outside cmdNum server (i + 1)).fds := by
  have ran := forkedChild_ran execs
  have looping :=
    (lineReady.inputPipes line).inputOpen.looping outside
      (by omega : i + 1 < cmdNum)
  have isFork :=
    stageFork_middle line outside server (by omega : i + 1 ≠ cmdNum - 1)
  rw [isFork] at ran
  have wired := lineReady.middle_wired looping (by omega) rfl ran
  rw [← isFork] at wired
  refine ⟨fun isFirst => absurd isFirst (by omega), ?_, fun _ => wired.stdout,
    fun isLast => absurd isLast (by omega), ?_, wired.cleared⟩
  · intro before isNext
    have same : before = i := by omega
    rw [same]
    exact wired.stdin
  · rw [if_neg (by omega)]
    exact wired.stderr

theorem LineReady.streams_last
    (lineReady : server.LineReady)
    {i : Nat}
    (isLast : i + 2 = cmdNum)
    (oneDirective : OneDirective line)
    (execs : (stageOf line outside cmdNum server (i + 1)).execs = true) :
    StageStreams line cmdNum server (server.runPipeline line outside cmdNum)
      (i + 1) (stageOf line outside cmdNum server (i + 1)).fds := by
  have ran := forkedChild_ran execs
  have inputOpen := (lineReady.inputPipes line).inputOpen
  have looping := inputOpen.looping outside (by omega : i + 1 < cmdNum)
  have isFork :=
    stageFork_last line outside server (by omega : i + 1 = cmdNum - 1)
  rw [isFork] at ran
  have wired :=
    lineReady.last_wired looping (by omega)
      (fun _ given _ =>
        noFile_of_not_competing oneDirective.not_competing given)
      ran
  rw [← isFork] at wired
  change server.StageWired _ _ _
    (stageOf line outside cmdNum server (i + 1)).fds at wired
  obtain ⟨pipes, opened, lastFork, _⟩ := looping.lastFork
  have effect :=
    runPipeline_effect outside (by omega : 2 ≤ cmdNum) inputOpen
  have isPipe : server.nextPipe + (cmdNum - 1) = server.nextPipe + i + 1 := by
    omega
  rw [isPipe] at effect
  have directed :=
    lineReady.directed cmdNum (lineReady.underway_taken line) lastFork.frame
      opened effect oneDirective
  refine ⟨fun isFirst => absurd isFirst (by omega), ?_,
    fun inner => absurd inner (by omega), ?_, ?_, wired.cleared⟩
  · intro before isNext
    have same : before = i := by omega
    rw [same]
    exact wired.stdin
  · intro _
    rw [wired.stdout, isFork]
    exact directed
  · rw [wired.stderr, wired.stdout]
    by_cases toErrors : line.crossNum < 0
    · have cross : line.crossNum ≠ 0 := by omega
      rw [if_pos toErrors, if_pos ⟨by omega, toErrors⟩, selectedOutput,
        if_pos cross]
    · rw [if_neg toErrors, if_neg fun both => toErrors both.2]

/-- Every stage that gets to `execvp` has its streams. -/
theorem LineReady.stageOf_streams
    (lineReady : server.LineReady)
    (stages : 2 ≤ cmdNum)
    (oneDirective : OneDirective line)
    {i : Nat}
    (inRange : i < cmdNum)
    (execs : (stageOf line outside cmdNum server i).execs = true) :
    StageStreams line cmdNum server (server.runPipeline line outside cmdNum) i
      (stageOf line outside cmdNum server i).fds := by
  cases i with
  | zero => exact lineReady.streams_first stages _ execs
  | succ i =>
      by_cases isLast : i + 2 = cmdNum
      · exact lineReady.streams_last isLast oneDirective execs
      · exact lineReady.streams_middle (by omega) _ execs

/-- The input of a child is always there with `/dev/null`. -/
theorem childInput_ok
    (line : Command)
    (opens : outside.opens devNull = true)
    (current : Server)
    (fds : DescriptorTable File) :
    ∃ connected, childInput line outside current fds = .ok connected := by
  unfold childInput redirectTo
  split_ifs
  all_goals exact ⟨_, rfl⟩

/-- A child fails only on `/dev/null`. -/
theorem stageChild_ok
    (opens : outside.opens devNull = true)
    (fdRedir : Int)
    (vars : Vars)
    (i : Nat)
    (current : Server) :
    (stageChild line outside cmdNum fdRedir vars i current).toBool = true := by
  have output (fds : DescriptorTable File) :
      ∃ connected,
        lastOutput line outside fdRedir current vars.fd fds =
          .ok connected := by
    unfold lastOutput childUserOut redirectTo
    split_ifs <;> exact ⟨_, rfl⟩
  unfold stageChild
  dsimp only
  by_cases isFirst : i = 0
  · obtain ⟨connected, isInput⟩ :=
      childInput_ok line opens current
        ((current.childStart vars.pos).dup2 current.sockfd stderr)
    rw [if_pos isFirst, isInput]
    rfl
  · rw [if_neg isFirst]
    by_cases isLast : i = cmdNum - 1
    · obtain ⟨connected, isOutput⟩ :=
        output ((current.childStart vars.pos).dup2 current.sockfd stderr)
      rw [if_pos isLast, isOutput]
      rfl
    · rw [if_neg isLast]
      rfl

/-- The server after a pipeline holds no end of an inner pipe. -/
theorem LineReady.inner_closed
    (lineReady : server.LineReady)
    (stages : 2 ≤ cmdNum)
    (oneDirective : OneDirective line)
    {i : Nat}
    (inner : i + 1 < cmdNum)
    {fd : Int}
    {file : File}
    (isOpen :
      (server.runPipeline line outside cmdNum).fds.file fd = some file) :
    file.pipe? ≠ some (server.nextPipe + i) := by
  intro isPipe
  have effect :=
    runPipeline_effect outside stages (lineReady.inputPipes line).inputOpen
  rcases effect.pipe_or_before lineReady.healthy oneDirective.not_competing
      isOpen isPipe with isLast | isOld
  · omega
  · omega

/-- The selected input existed before the line. -/
theorem LineReady.selectedInput_before
    (lineReady : server.LineReady)
    {file : File}
    {pipe : Nat}
    (selected : server.selectedInput line = some file)
    (isPipe : file.pipe? = some pipe) :
    pipe < server.nextPipe := by
  unfold selectedInput at selected
  split_ifs at selected
  · exact lineReady.healthy.known selected isPipe
  · exact lineReady.healthy.known selected isPipe
  · cases selected
    cases isPipe
  · exact lineReady.healthy.known selected isPipe

/-- The output of the last stage is not an inner pipe. -/
theorem LineReady.directed_not_inner
    (lineReady : server.LineReady)
    (stages : 2 ≤ cmdNum)
    (oneDirective : OneDirective line)
    {output : Option File}
    (directed :
      Directed line cmdNum server (server.runPipeline line outside cmdNum)
        output)
    {i : Nat}
    (inner : i + 1 < cmdNum) :
    output ≠ some (.writeEnd (server.nextPipe + i)) := by
  intro isInner
  by_cases cross : line.crossNum ≠ 0
  · obtain ⟨slot, pipe, _, _, _, isWrite, isOutput⟩ := directed.numbered cross
    rw [isOutput] at isInner
    cases isInner
    exact lineReady.inner_closed stages oneDirective inner isWrite rfl
  · by_cases file : line.redir = true
    · rw [directed.file file] at isInner
      cases isInner
    · by_cases given : line.userOutId ≠ 0
      · by_cases isReady :
            (server.client.takeInput line).userOutReady line.userOutId = true
        · obtain ⟨pipe, _, isRead, isOutput⟩ := directed.user given isReady
          rw [isOutput] at isInner
          cases isInner
          exact lineReady.inner_closed stages oneDirective inner isRead rfl
        · rw [directed.missing given (by simpa using isReady)] at isInner
          cases isInner
      · rw [directed.socket (by simpa using cross) (by simpa using file)
          (by simpa using given)] at isInner
        obtain ⟨connection, isOpen⟩ :=
          lineReady.healthy.socket lineReady.inLine.state
        rw [show server.fds.file server.sockfd = some (.socket connection)
          from isOpen] at isInner
        cases isInner

/-- Of the stages, only the `i`th holds the write end of the `i`th pipe. -/
theorem LineReady.stage_of_writeEnd
    (lineReady : server.LineReady)
    (stages : 2 ≤ cmdNum)
    (oneDirective : OneDirective line)
    {stage i : Nat}
    (inRange : stage < cmdNum)
    (inner : i + 1 < cmdNum)
    {table : DescriptorTable File}
    (streams :
      StageStreams line cmdNum server (server.runPipeline line outside cmdNum)
        stage table)
    {fd : Int}
    (holds : table.file fd = some (.writeEnd (server.nextPipe + i))) :
    stage = i := by
  have fromOutput
      (isOutput :
        table.file stdout = some (.writeEnd (server.nextPipe + i))) :
      stage = i := by
    by_cases isLast : stage + 1 = cmdNum
    · exact absurd isOutput
        (lineReady.directed_not_inner stages oneDirective
          (streams.last isLast) inner)
    · rw [streams.writes (by omega), Option.some.injEq, File.writeEnd.injEq]
        at isOutput
      omega
  by_cases isStandard : Standard fd
  · rcases isStandard.cases with rfl | rfl | rfl
    · cases stage with
      | zero =>
          rw [streams.first rfl] at holds
          have before := lineReady.selectedInput_before holds rfl
          omega
      | succ before =>
          rw [streams.reads rfl] at holds
          cases holds
    · exact fromOutput holds
    · rw [streams.errors] at holds
      split_ifs at holds
      · exact fromOutput holds
      · have before := lineReady.healthy.known holds rfl
        omega
  · have created : server.OwnPipe (server.nextPipe + i) :=
      Or.inl (Nat.le_add_right _ _)
    exact absurd created
      (streams.cleared fd _ _ isStandard holds rfl)

/--
The processes of a pipeline: one child for each stage with its streams, and no
end of an inner pipe anywhere but at its two stages.  A child that does not get
to `execvp` has exited and holds nothing.
-/
structure PipelineWired
    (line : Command)
    (outside : Outside)
    (cmdNum : Nat)
    (server after : Server) : Prop where
  count : after.children.length = server.children.length + cmdNum
  stage :
    ∀ {i},
      i < cmdNum →
      ∃ child,
        after.children[server.children.length + i]? = some child ∧
          child.argv = line.cmd.getD i [] ∧
          (outside.opens devNull = true → child.execs = true) ∧
          (child.execs = true →
            StageStreams line cmdNum server after i child.fds)
  parent :
    ∀ {i},
      i + 1 < cmdNum →
      ∀ fd,
        after.fds.file fd ≠ some (.readEnd (server.nextPipe + i)) ∧
          after.fds.file fd ≠ some (.writeEnd (server.nextPipe + i))
  only :
    ∀ {i},
      i + 1 < cmdNum →
      ∀ {k child fd},
        after.children[k]? = some child →
        child.execs = true →
        child.fds.file fd = some (.writeEnd (server.nextPipe + i)) →
        k = server.children.length + i

/--
The wiring of `ordinary_pipe` for every pipeline with at most one output
directive whose file, if there is one, can be opened.
-/
theorem LineReady.pipeline_wired
    (lineReady : server.LineReady)
    (knownPipes : server.KnownPipes)
    (stages : 2 ≤ cmdNum)
    (oneDirective : OneDirective line)
    (fileOpens :
      line.redir = true → outside.opens (line.word cmdNum) = true) :
    PipelineWired line outside cmdNum server
      (server.ordinaryPipe line outside cmdNum) := by
  have isRun :
      server.ordinaryPipe line outside cmdNum =
        server.runPipeline line outside cmdNum :=
    ordinaryPipe_of_opens fileOpens
  rw [isRun]
  have child := runPipeline_child line outside cmdNum
  refine ⟨?_, ?_, ?_, ?_⟩
  · have forked := stageState_children line outside cmdNum server cmdNum
    refine (waitSince_length ..).trans ?_
    change (stageState line outside cmdNum server cmdNum).2.children.length = _
    rw [forked, List.length_append, List.length_map, List.length_range]
  · intro i inRange
    obtain ⟨alive, isChild⟩ := child (server.children.length + i) server
    rw [List.getElem?_append_right (by omega)] at isChild
    simp only [Nat.add_sub_cancel_left, List.getElem?_map,
      List.getElem?_range inRange, Option.map_some] at isChild
    refine ⟨_, isChild, rfl, ?_, ?_⟩
    · intro opens
      exact stageChild_ok opens ..
    · exact lineReady.stageOf_streams stages oneDirective inRange
  · intro i inner fd
    constructor
    · intro isOpen
      exact lineReady.inner_closed stages oneDirective inner isOpen rfl
    · intro isOpen
      exact lineReady.inner_closed stages oneDirective inner isOpen rfl
  · intro i inner k held fd isHeld execs holds
    obtain ⟨alive, isChild⟩ := child k server
    rw [isChild, Option.map_eq_some_iff] at isHeld
    obtain ⟨forked, isForked, rfl⟩ := isHeld
    by_cases isOld : k < server.children.length
    · rw [List.getElem?_append_left isOld] at isForked
      have known := knownPipes.children forked (List.mem_of_getElem? isForked)
      have before := known.fds fd _ _ holds rfl
      omega
    · rw [List.getElem?_append_right (by omega), List.getElem?_map,
        Option.map_eq_some_iff] at isForked
      obtain ⟨stage, isStage, rfl⟩ := isForked
      obtain ⟨inRange, isIndex⟩ := List.getElem?_eq_some_iff.mp isStage
      rw [List.getElem_range] at isIndex
      rw [List.length_range] at inRange
      have streams :=
        lineReady.stageOf_streams stages oneDirective
          (by omega : stage < cmdNum) execs
      have isStage :=
        lineReady.stage_of_writeEnd stages oneDirective (by omega) inner
          streams holds
      omega

end Pipeline

/-- The line `ls | cat |1`. -/
def listing : Command where
  cmd := [["ls"], ["cat"]]
  cmdReserve := "ls | cat |1"
  crossNum := 1
  redir := false
  userInId := 0
  userOutId := 0

/-- The first client enters `ls | cat |1`. -/
theorem listing_wired :
    let server := (initial.login.enter 4).countDown
    PipelineWired listing fillingOutside 2 server
      (server.ordinaryPipe listing fillingOutside 2) := by
  intro server
  have settled := settled_initial.login.enter 4
  have state :
      ((initial.login.enter 4).client.list
        (initial.login.enter 4).client.id).state = true :=
    rfl
  exact (settled.lineReady state).pipeline_wired (settled.countDown state).known
    (by decide) ⟨fun _ => ⟨rfl, rfl⟩, fun file => by cases file⟩
    (fun file => by cases file)

end Server

end NpServers.Shell
