import NpServers.PipelineWiring

namespace NpServers.Shell

open CrossPipe DescriptorTable

/-!
# The wiring of a single command

The child of `single_cmd` at `execvp` has the input and the output that the
line selects, as the two ends of a pipeline have them in `ordinary_pipe`.
-/

namespace Server

variable {server current : Server}
variable {pipes : List (Int × File)}
variable {line : Command}
variable {outside : Outside}
variable {vars : Vars}

/-- Unless it is the file, the output is selected as in the last stage. -/
theorem singleOutput_of_notFile
    (notFile : line.crossNum = 0 → line.redir = false)
    (fdRedir : Int)
    (fds : DescriptorTable File) :
    singleOutput line outside current vars.fd fds =
      lastOutput line outside fdRedir current vars.fd fds := by
  unfold singleOutput lastOutput
  by_cases cross : line.crossNum ≠ 0
  · rw [if_pos cross, if_pos cross]
  · rw [if_neg cross, if_neg cross, notFile (by simpa using cross)]
    rfl

/-- The command gets the selected output. -/
theorem ForkReady.singleOutput_image
    (ready : current.ForkReady)
    {table connected : DescriptorTable File}
    {closed : List Int}
    {first second third : File}
    (image :
      Image current.fds table closed (some first) (some second) (some third))
    (socketKept : current.sockfd ∉ closed)
    (writable :
      current.writesPipe line = true → current.WritablePipe vars.fd closed)
    (ran : singleOutput line outside current vars.fd table = .ok connected) :
    Image current.fds connected (closed ++ current.outputFds line vars.fd)
      (some first) (current.selectedOutput line vars.fd (line.word 1))
      (if line.crossNum < 0 then current.fds.file vars.fd.writeFd
      else some third) := by
  by_cases file : line.crossNum = 0 ∧ line.redir = true
  · have noCross : ¬ line.crossNum ≠ 0 := fun cross => cross file.1
    have noErrors : ¬ line.crossNum < 0 := by omega
    rw [singleOutput, if_neg noCross, if_pos file.2, redirectTo] at ran
    split_ifs at ran
    cases ran
    rw [selectedOutput, if_neg noCross, if_pos file.2, if_neg noErrors,
      outputFds, if_neg (by simp [writesPipe, file.2, noCross]),
      List.append_nil]
    exact image.redirected_stdout image.lowestFree_not_standard _
  · have notFile (noCross : line.crossNum = 0) : line.redir = false := by
      by_contra isFile
      exact file ⟨noCross, by simpa using isFile⟩
    rw [singleOutput_of_notFile notFile (-1)] at ran
    exact ready.lastOutput_image image socketKept writable
      (fun noCross isFile => absurd ⟨noCross, isFile⟩ file) ran

/-- The pipe of the output is not the input. -/
theorem LineReady.writeFd_not_mem_inputFds
    (lineReady : server.LineReady)
    {start : Vars}
    (frame : Frame server server.fds pipes server.client current)
    (opened : Opened line server.nextPipe server.client start vars pipes)
    (writes : current.writesPipe line = true) :
    vars.fd.writeFd ∉ server.inputFds line := by
  have ofNew
      (isWrite : (vars.fd.writeFd, File.writeEnd server.nextPipe) ∈ pipes) :
      vars.fd.writeFd ∉ server.inputFds line := by
    intro member
    obtain ⟨file, _, isOpen, _⟩ := (lineReady.inputPipes line).isPipe _ member
    rw [frame.fds.free isWrite] at isOpen
    cases isOpen
  cases opened with
  | numbered inserts notFound isNew different =>
      exact ofNew (by simp [isNew])
  | user noCross given ready samePos isNew different =>
      exact ofNew (by simp [isNew])
  | found slot cross isSlot isPos isFd none =>
      have pending := (lineReady.pending_of_found isSlot).1
      rw [isFd]
      exact (lineReady.pending_not_mem_inputFds pending).2
  | nothing noCross notReady same none =>
      simp only [writesPipe, noCross, frame.client_eq, ne_eq, not_true_eq_false,
        decide_false, Bool.false_or, Bool.and_eq_true,
        decide_eq_true_eq] at writes
      exact absurd ⟨writes.1.2, writes.2⟩ notReady

/-- The streams of the command that `single_cmd` runs. -/
theorem LineReady.single_streams
    (lineReady : server.LineReady)
    (used :
      line.crossNum = 0 →
      line.userOutId ≠ 0 →
      server.client.userOutReady line.userOutId = true →
        line.redir = false)
    {start : Vars}
    (frame : Frame server server.fds pipes server.client current)
    (opened : Opened line server.nextPipe server.client start vars pipes)
    {table : DescriptorTable File}
    (ran : singleChild line outside vars current = .ok table) :
    table.file stdin = server.selectedInput line ∧
      table.file stdout =
        current.selectedOutput line vars.fd (line.word 1) := by
  have underway := Underway.start server
  have ready := lineReady.forkReady underway frame
  have framed : Frame server server.fds (pipes ++ []) server.client current := by
    rwa [List.append_nil]
  have output := lineReady.outputReady underway framed opened used
  obtain ⟨connection, isSocket, socketKept, _⟩ :=
    ready.stageStart_image vars.pos
  obtain ⟨connected, ranInput, continues⟩ := ok_of_bind ran
  obtain ⟨written, ranOutput, finishes⟩ := ok_of_bind continues
  obtain ⟨input, file, isInput⟩ :=
    lineReady.childInput_image frame (ready.childStart_image vars.pos) ranInput
  rw [isInput] at input ⊢
  have notInput : current.sockfd ∉ server.inputFds line := by
    intro member
    obtain ⟨found, pipe, isOpen, isPipe⟩ :=
      (lineReady.inputPipes line).isPipe _ member
    cases isSocket.symm.trans (frame.fds.file_base isOpen)
    cases isPipe
  have final :=
    ready.singleOutput_image input
      (by
        rw [List.mem_append, not_or]
        exact ⟨socketKept, notInput⟩)
      (fun writes =>
        ⟨(output.writable writes).ends, by
          rw [List.mem_append, not_or]
          exact ⟨(output.writable writes).kept,
            lineReady.writeFd_not_mem_inputFds frame opened writes⟩⟩)
      ranOutput
  cases finishes
  split_ifs
  · rw [dup2_file_of_ne _ (by decide), dup2_file_of_ne _ (by decide)]
    exact ⟨final.stdin, final.stdout⟩
  · exact ⟨final.stdin, final.stdout⟩

/-! ## The child of a single command -/

section Child

variable (line : Command) (outside : Outside)

/-- The state at the fork of `single_cmd`. -/
def singleOpened (server : Server) : Vars × Server :=
  openOutput line (singleVars outside) (server.announce line)

/-- The child of `single_cmd`. -/
def singleOf (server : Server) : Child :=
  forkedChild line (singleOpened line outside server).1 0 true
    (singleChild line outside (singleOpened line outside server).1
      (singleOpened line outside server).2)
    (singleOpened line outside server).2

theorem singleConnected_children
    (server : Server) :
    (singleConnected line outside server).2.children =
      server.children ++ [singleOf line outside server] := by
  refine (silent_takeInput line _).children.trans ?_
  refine (fork_children ..).trans ?_
  rw [(silent_openOutput ..).children, announce_children]
  rfl

/-- The children after a single command are those before it and its child. -/
theorem singleCmd_child
    (k : Nat)
    (server : Server) :
    ∃ alive : Bool → Bool,
      (server.singleCmd line outside).children[k]? =
        ((server.children ++ [singleOf line outside server])[k]?).map
          fun child => { child with alive := alive child.alive } := by
  have forked := singleConnected_children line outside server
  have stored :=
    (silent_singleStore line (singleConnected line outside server).1
      (singleConnected line outside server).2).children
  rw [← forked, ← stored]
  exact waitSince_child ..

/-- The child fails only on a file that cannot be opened. -/
theorem singleChild_ok
    (fileOpens : line.redir = true → outside.opens (line.word 1) = true)
    (opens : outside.opens devNull = true)
    (vars : Vars)
    (current : Server) :
    (singleChild line outside vars current).toBool = true := by
  have output (fds : DescriptorTable File) :
      ∃ connected,
        singleOutput line outside current vars.fd fds = .ok connected := by
    unfold singleOutput childUserOut redirectTo
    split_ifs with cross file isOpen
    · exact ⟨_, rfl⟩
    · exact ⟨_, rfl⟩
    · exact absurd (fileOpens file) isOpen
    · exact ⟨_, rfl⟩
    · exact ⟨_, rfl⟩
    · exact ⟨_, rfl⟩
  obtain ⟨connected, isInput⟩ :=
    childInput_ok line opens current (current.childStart vars.pos)
  obtain ⟨written, isOutput⟩ := output connected
  unfold singleChild
  rw [isInput]
  change (singleOutput line outside current vars.fd connected >>= _).toBool = _
  rw [isOutput]
  rfl

end Child

end Server

end NpServers.Shell
