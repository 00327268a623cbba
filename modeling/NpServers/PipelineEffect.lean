import NpServers.LineEffect

namespace NpServers.Shell

open CrossPipe DescriptorTable

/-!
# The fork loop of `ordinary_pipe` in the server process

Between two stages the server holds one descriptor more than before the line:
the read end of the pipe to the next stage, in `ex_fd0`.  This invariant of the
loop gives the tables at every fork and the effect of the whole pipeline.
-/

namespace Server

section Loop

variable (line : Command) (cmdNum : Nat) (server : Server)

/-- The file of `>`, which stays open during the loop. -/
def redirExtra : List (Int × File) :=
  if line.redir then
    [(server.fds.lowestFree, .named (line.word cmdNum))]
  else
    []

/-- The server's own descriptors once the input is taken. -/
def takenFds : DescriptorTable File :=
  server.fds.closeAll (server.inputFds line)

/-- The state before the first stage. -/
def loopStart : Server :=
  (server.openRedir line cmdNum).announce line

/-- The state of the loop after stage `i`, when another stage follows. -/
structure Looping
    (i : Nat)
    (state : Vars × Server) : Prop where
  pos : state.1.pos = -1
  frame :
    Frame server (server.takenFds line)
      ((state.1.exFd0, .readEnd (server.nextPipe + i)) ::
        server.redirExtra line cmdNum)
      (server.client.takeInput line) state.2
  nextPipe : state.2.nextPipe = server.nextPipe + i + 1

theorem loopStart_frame :
    Frame server server.fds (server.redirExtra line cmdNum) server.client
      (server.loopStart line cmdNum) := by
  apply Frame.sameTables _ (sameTables_announce _ line)
  unfold openRedir redirExtra
  split_ifs
  · exact (Frame.start server).openFile rfl
  · exact Frame.start server

variable {line cmdNum server}

@[simp] theorem loopStart_nextPipe :
    (server.loopStart line cmdNum).nextPipe = server.nextPipe := by
  refine (sameTables_announce _ line).nextPipe.trans ?_
  unfold openRedir
  split_ifs <;> rfl

theorem runStages_succ
    (outside : Outside)
    (fdRedir : Int)
    (start : Server)
    (count : Nat) :
    runStages line outside cmdNum fdRedir start (count + 1) =
      runStage line outside cmdNum fdRedir
        (runStages line outside cmdNum fdRedir start count) count := by
  unfold runStages
  rw [List.range_succ, List.foldl_append]
  rfl

/-- Before a stage that is not the last, a new pipe is opened. -/
theorem stageOpened_of_not_last
    {i : Nat}
    (notLast : i ≠ cmdNum - 1)
    (vars : Vars)
    (current : Server) :
    stageOpened line cmdNum vars i current =
      ({ vars with fd := current.pipeFds }, current.pipe) :=
  if_pos notLast

/-- Before the last stage, the pipe for the output is opened. -/
theorem stageOpened_of_last
    {i : Nat}
    (isLast : i = cmdNum - 1)
    (vars : Vars)
    (current : Server) :
    stageOpened line cmdNum vars i current = openOutput line vars current :=
  if_neg (by simpa using isLast)

theorem sameTables_stageForked
    (line : Command)
    (cmdNum : Nat)
    (outside : Outside)
    (fdRedir : Int)
    (vars : Vars)
    (i : Nat)
    (current : Server) :
    SameTables (stageForked line outside cmdNum fdRedir vars i current).2
      (stageOpened line cmdNum vars i current).2 :=
  sameTables_fork ..

@[simp] theorem stageForked_fst
    (outside : Outside)
    (fdRedir : Int)
    (vars : Vars)
    (i : Nat)
    (current : Server) :
    (stageForked line outside cmdNum fdRedir vars i current).1 =
      (stageOpened line cmdNum vars i current).1 :=
  rfl

/-- After the fork of the last stage, the parent stores the output. -/
theorem stageConnected_of_last
    (outside : Outside)
    (fdRedir : Int)
    (vars : Vars)
    {i : Nat}
    (isLast : i + 1 = cmdNum - 1)
    (current : Server) :
    (stageConnected line outside cmdNum fdRedir vars (i + 1) current).2 =
      (stageForked line outside cmdNum fdRedir vars (i + 1)
        current).2.lastStore line fdRedir
          (stageForked line outside cmdNum fdRedir vars (i + 1) current).1 := by
  unfold stageConnected
  dsimp only
  rw [if_neg (Nat.succ_ne_zero i), if_pos isLast]

/-- What the parent closes at the end of a round. -/
theorem closeAndConnectFd_parent
    {i : Nat}
    (fd : PipeFds)
    (exFd0 : Int)
    (fds : DescriptorTable File) :
    closeAndConnectFd i 0 (cmdNum - 1) fd exFd0 .parent fds =
      fds.closeAll
        ((if i ≠ cmdNum - 1 then [fd.writeFd] else []) ++
          (if i ≠ 0 then [exFd0] else [])) := by
  unfold closeAndConnectFd connectWriteEnd connectReadEnd
  split_ifs <;> rfl

/-- The file of `>` is not a pipe. -/
theorem redirExtra_apart
    {base : DescriptorTable File}
    {extra : List (Int × File)}
    {table : DescriptorTable File}
    (extension : Extends base extra table)
    (included : ∀ entry ∈ server.redirExtra line cmdNum, entry ∈ extra)
    {fd : Int}
    {pipe : Nat}
    (member : (fd, .readEnd pipe) ∈ extra)
    (entry : Int × File)
    (inRedir : entry ∈ server.redirExtra line cmdNum) :
    entry.1 ≠ fd := by
  rintro rfl
  have isFile := extension.file_unique (included entry inRedir) member
  unfold redirExtra at inRedir
  split_ifs at inRedir
  · rw [List.mem_singleton.mp inRedir] at isFile
    cases isFile
  · cases inRedir

variable (line cmdNum server) in
/-- The tables when the child of the first stage is forked. -/
theorem first_frame :
    Frame server server.fds
      (((server.loopStart line cmdNum).pipeFds.readFd,
          .readEnd server.nextPipe) ::
        ((server.loopStart line cmdNum).pipeFds.writeFd,
          .writeEnd server.nextPipe) ::
        server.redirExtra line cmdNum)
      server.client (server.loopStart line cmdNum).pipe := by
  have opened := (loopStart_frame line cmdNum server).pipe
  rwa [loopStart_nextPipe] at opened

/-- The tables when the child of a middle stage is forked. -/
theorem Looping.pipe_frame
    {i : Nat}
    {state : Vars × Server}
    (looping : Looping line cmdNum server i state) :
    Frame server (server.takenFds line)
      ((state.2.pipeFds.readFd, .readEnd (server.nextPipe + i + 1)) ::
        (state.2.pipeFds.writeFd, .writeEnd (server.nextPipe + i + 1)) ::
        (state.1.exFd0, .readEnd (server.nextPipe + i)) ::
        server.redirExtra line cmdNum)
      (server.client.takeInput line) state.2.pipe := by
  have opened := looping.frame.pipe
  rwa [looping.nextPipe] at opened

theorem takeInput_nextPipe
    (current : Server) :
    (current.takeInput line).nextPipe = current.nextPipe := by
  rw [takeInput_eq]
  rfl

/-- The loop after its first round. -/
theorem looping_first
    (outside : Outside)
    (fdRedir : Int)
    (stages : 2 ≤ cmdNum)
    (inputOpen : server.InputOpen line) :
    Looping line cmdNum server 0
      (runStages line outside cmdNum fdRedir
        (server.loopStart line cmdNum) 1) := by
  have notLast : 0 ≠ cmdNum - 1 := by omega
  have start := loopStart_frame line cmdNum server
  have forked := sameTables_stageForked line cmdNum
    outside fdRedir (pipelineVars outside) 0 (server.loopStart line cmdNum)
  rw [stageOpened_of_not_last notLast] at forked
  have taken :=
    ((first_frame line cmdNum server).sameTables forked).takeInput_of_inputOpen
      inputOpen
  have apart :
      ∀ entry ∈ server.redirExtra line cmdNum,
        entry.1 ≠ (server.loopStart line cmdNum).pipeFds.writeFd :=
    fun entry member => (ne_pipeFds (start.fds.file_extra member)).2
  change Looping line cmdNum server 0
    (runStage line outside cmdNum fdRedir
      (pipelineVars outside, server.loopStart line cmdNum) 0)
  unfold runStage stageConnected
  dsimp only
  rw [stageForked_fst, stageOpened_of_not_last notLast, if_pos rfl,
    if_pos notLast, closeAndConnectFd_parent, if_pos notLast,
    if_neg (by simp)]
  refine {
    pos := rfl
    frame := taken.close_writeEnd (pipeFds_ne _) apart
    nextPipe := ?_ }
  change (takeInput line _).nextPipe = _
  rw [takeInput_nextPipe, forked.nextPipe]
  change (server.loopStart line cmdNum).nextPipe + 1 = _
  rw [loopStart_nextPipe]

/-- A round for a middle stage. -/
theorem Looping.next
    {i : Nat}
    {state : Vars × Server}
    (looping : Looping line cmdNum server i state)
    (outside : Outside)
    (fdRedir : Int)
    (notLast : i + 1 ≠ cmdNum - 1) :
    Looping line cmdNum server (i + 1)
      (runStage line outside cmdNum fdRedir state (i + 1)) := by
  have forked := sameTables_stageForked line cmdNum
    outside fdRedir state.1 (i + 1) state.2
  rw [stageOpened_of_not_last notLast] at forked
  have apart :
      ∀ entry ∈ (state.1.exFd0, .readEnd (server.nextPipe + i)) ::
          server.redirExtra line cmdNum,
        entry.1 ≠ state.2.pipeFds.readFd ∧
          entry.1 ≠ state.2.pipeFds.writeFd :=
    fun entry member => ne_pipeFds (looping.frame.fds.file_extra member)
  have apartRead :
      ∀ entry ∈ server.redirExtra line cmdNum, entry.1 ≠ state.1.exFd0 :=
    redirExtra_apart looping.frame.fds
      (fun _ member => List.mem_cons_of_mem _ member)
      List.mem_cons_self
  have closedWrite :
      Frame server (server.takenFds line)
        ([(state.2.pipeFds.readFd, .readEnd (server.nextPipe + i + 1))] ++
          (state.1.exFd0, .readEnd (server.nextPipe + i)) ::
            server.redirExtra line cmdNum)
        (server.client.takeInput line) _ :=
    (looping.pipe_frame.sameTables forked).close_writeEnd (pipeFds_ne _)
      fun entry member => (apart entry member).2
  unfold runStage stageConnected
  dsimp only
  rw [stageForked_fst, stageOpened_of_not_last notLast,
    if_neg (Nat.succ_ne_zero i), if_neg notLast, if_pos notLast,
    closeAndConnectFd_parent, if_pos notLast, if_pos (Nat.succ_ne_zero i)]
  refine {
    pos := looping.pos
    frame := closedWrite.close_at ?_
    nextPipe := ?_ }
  · rintro entry (_ | ⟨_, inRedir⟩)
    · exact (apart _ List.mem_cons_self).1.symm
    · exact apartRead entry inRedir
  · refine forked.nextPipe.trans ?_
    change state.2.nextPipe + 1 = _
    rw [looping.nextPipe]
    omega

/-- The loop before its last round. -/
theorem looping_runStages
    (outside : Outside)
    (fdRedir : Int)
    (inputOpen : server.InputOpen line)
    {i : Nat}
    (notLast : i + 1 < cmdNum) :
    Looping line cmdNum server i
      (runStages line outside cmdNum fdRedir
        (server.loopStart line cmdNum) (i + 1)) := by
  induction i with
  | zero =>
      exact looping_first outside fdRedir notLast inputOpen
  | succ i inductionHypothesis =>
      rw [runStages_succ]
      exact (inductionHypothesis (by omega)).next outside fdRedir (by omega)

/-! ## The last stage -/

/-- Without `> file` there is no file to keep open. -/
theorem redirExtra_eq_nil
    (noFile : line.redir = false) :
    server.redirExtra line cmdNum = [] := by
  simp [redirExtra, noFile]

theorem redirExtra_eq_file
    (file : line.redir = true) :
    server.redirExtra line cmdNum =
      [(server.fds.lowestFree, .named (line.word cmdNum))] := by
  simp [redirExtra, file]

/--
The tables of the parent after the fork of the last stage: the pipe opened for
the output, the read end of the last inner pipe, and the file of `>`.
-/
structure LastFork
    (line : Command)
    (cmdNum : Nat)
    (server : Server)
    (pipes : List (Int × File))
    (exFd0 : Int)
    (inner : Nat)
    (current : Server) : Prop where
  frame :
    Frame server (server.takenFds line)
      (pipes ++ (exFd0, .readEnd inner) :: server.redirExtra line cmdNum)
      (server.client.takeInput line) current
  pipes_apart :
    ∀ new ∈ pipes,
      new.1 ≠ exFd0 ∧ ∀ old ∈ server.redirExtra line cmdNum, new.1 ≠ old.1
  file_apart :
    ∀ entry ∈ server.redirExtra line cmdNum, entry.1 ≠ exFd0

/-- The parent closes a descriptor. -/
def closeFd
    (server : Server)
    (fd : Int) : Server :=
  { server with fds := server.fds.close fd }

variable {pipes : List (Int × File)}
variable {exFd0 : Int}
variable {inner : Nat}
variable {current : Server}
variable {vars : Vars}
variable {pipe : Nat}

/--
The pipeline leaves descriptors open that are not recorded: the file of `>` next
to a cross number, or a new user pipe next to the file of `>`.
-/
def LeavesOpen
    (server : Server)
    (line : Command) : Prop :=
  line.redir = true ∧
    (line.crossNum ≠ 0 ∨
      line.userOutId ≠ 0 ∧
        (server.client.takeInput line).userOutReady line.userOutId = true)

instance
    (server : Server)
    (line : Command) :
    Decidable (server.LeavesOpen line) :=
  inferInstanceAs (Decidable (_ ∧ _))

theorem LeavesOpen.competing
    (leavesOpen : server.LeavesOpen line) :
    Competing line :=
  ⟨leavesOpen.1, leavesOpen.2.imp_right And.left⟩

/-- Next to a cross number, the file of `>` is kept. -/
theorem redirExtra_eq_nil_iff
    (cross : line.crossNum ≠ 0) :
    server.redirExtra line cmdNum = [] ↔ ¬ server.LeavesOpen line := by
  unfold redirExtra LeavesOpen
  split_ifs with file
  · simp [file, cross]
  · simp [file]

/-- The last round, by kind of output: a new numbered pipe. -/
theorem LastFork.numbered
    (lastFork : LastFork line cmdNum server pipes exFd0 inner current)
    (inserts : server.infor.Inserts line.crossNum)
    (notFound : vars.pos < 0)
    (isNew :
      pipes = [(vars.fd.readFd, .readEnd pipe),
        (vars.fd.writeFd, .writeEnd pipe)]) :
    Outcome line pipe (server.redirExtra line cmdNum) server
      ((current.storeCross line vars).closeFd exFd0) := by
  have stored := lastFork.frame.storeCross line notFound
  have closed := stored.close_at (by
    intro entry member
    rcases List.mem_append.mp member with isPipe | isFile
    · exact (lastFork.pipes_apart entry isPipe).1
    · exact lastFork.file_apart entry isFile)
  have apart := lastFork.pipes_apart
  rw [infor_takeInput server line, isNew] at closed
  rw [isNew] at apart
  refine .numbered vars.fd inserts ?_ closed
  intro entry member
  exact
    ⟨((apart _ List.mem_cons_self).2 entry member).symm,
      ((apart _ (List.mem_cons_of_mem _ List.mem_cons_self)).2 entry
        member).symm⟩

/-- A waiting numbered pipe with the same count. -/
theorem LastFork.found
    (lastFork : LastFork line cmdNum server [] exFd0 inner current)
    (cross : line.crossNum ≠ 0)
    (keeps : ¬ server.infor.Inserts line.crossNum) :
    Outcome line pipe (server.redirExtra line cmdNum) server
      (current.closeFd exFd0) := by
  have closed := lastFork.frame.close_at lastFork.file_apart
  exact .plain keeps (fun noCross => absurd noCross cross) closed

/-- The file of `>`, which the parent closes; an opened pipe is left over. -/
theorem LastFork.file
    (lastFork : LastFork line cmdNum server pipes exFd0 inner current)
    (file : line.redir = true)
    (noCross : line.crossNum = 0)
    (opened :
      line.userOutId ≠ 0 →
      (server.client.takeInput line).userOutReady line.userOutId = true →
        pipes ≠ []) :
    Outcome line pipe pipes server
      ((current.closeFd server.fds.lowestFree).closeFd exFd0) := by
  have frame := lastFork.frame
  have apart := lastFork.pipes_apart
  have fileApart := lastFork.file_apart
  rw [redirExtra_eq_file file] at frame apart fileApart
  have notEx : server.fds.lowestFree ≠ exFd0 :=
    fileApart _ List.mem_cons_self
  have reordered :
      Frame server (server.takenFds line)
        ((pipes ++ [(exFd0, .readEnd inner)]) ++
          (server.fds.lowestFree, .named (line.word cmdNum)) :: [])
        (server.client.takeInput line) current := by
    simpa using frame
  have closedFile := reordered.close_at (by
    intro entry member
    rw [List.append_nil, List.mem_append, List.mem_singleton] at member
    rcases member with isPipe | rfl
    · exact (apart entry isPipe).2 _ List.mem_cons_self
    · exact notEx.symm)
  rw [List.append_nil] at closedFile
  have closed := closedFile.close_at (by
    intro entry member
    rw [List.append_nil] at member
    exact (apart entry member).1)
  rw [List.append_nil] at closed
  exact .plain (fun inserts => inserts.1 noCross) (fun _ => opened) closed

/-- A new user pipe. -/
theorem LastFork.user
    (lastFork : LastFork line cmdNum server pipes exFd0 inner current)
    (noFile : line.redir = false)
    (noCross : line.crossNum = 0)
    (given : line.userOutId ≠ 0)
    (ready :
      (server.client.takeInput line).userOutReady line.userOutId = true)
    (isNew :
      pipes = [(vars.fd.readFd, .readEnd pipe),
        (vars.fd.writeFd, .writeEnd pipe)])
    (different : vars.fd.readFd ≠ vars.fd.writeFd) :
    Outcome line pipe [] server
      ((current.storeUserPipe line vars).closeFd exFd0) := by
  have frame := lastFork.frame
  have apart := lastFork.pipes_apart
  rw [redirExtra_eq_nil noFile, isNew] at frame
  rw [isNew] at apart
  have stored := frame.storeUserPipe ready different (by
    intro entry member
    obtain rfl := List.mem_singleton.mp member
    exact (apart _ (List.mem_cons_of_mem _ List.mem_cons_self)).1.symm)
  have listed :
      Frame server (server.takenFds line)
        ([(vars.fd.readFd, .readEnd pipe)] ++ (exFd0, .readEnd inner) :: [])
        ((server.client.takeInput line).setUserPipe line.userOutId
          (server.client.takeInput line).id vars.fd.readFd)
        (current.storeUserPipe line vars) :=
    stored
  have closed := listed.close_at (by
    intro entry member
    rw [List.append_nil, List.mem_singleton] at member
    rw [member]
    exact (apart _ List.mem_cons_self).1)
  rw [ClientStructure.takeInput_id] at closed
  exact .user vars.fd.readFd noCross given ready rfl closed

/-- No new pipe and no file. -/
theorem LastFork.nothing
    (lastFork : LastFork line cmdNum server [] exFd0 inner current)
    (noFile : line.redir = false)
    (noCross : line.crossNum = 0)
    (notReady :
      ¬ (line.userOutId ≠ 0 ∧
        (server.client.takeInput line).userOutReady line.userOutId = true)) :
    Outcome line pipe [] server (current.closeFd exFd0) := by
  have closed := lastFork.frame.close_at lastFork.file_apart
  rw [redirExtra_eq_nil noFile] at closed
  exact .plain (fun inserts => inserts.1 noCross)
    (fun _ given ready => absurd ⟨given, ready⟩ notReady) closed

/-- Every kind of output completes the line. -/
theorem LastFork.outcome
    (lastFork : LastFork line cmdNum server pipes exFd0 inner current)
    {start : Vars}
    (opened :
      Opened line pipe (server.client.takeInput line) start vars pipes) :
    ∃ kept,
      Outcome line pipe kept server
          ((current.lastStore line server.fds.lowestFree vars).closeFd exFd0) ∧
        (kept = [] ↔ ¬ server.LeavesOpen line) := by
  have sameInfor := infor_takeInput server line
  unfold lastStore
  cases opened with
  | numbered inserts notFound isNew different =>
      rw [sameInfor] at inserts
      rw [if_pos inserts.1]
      exact
        ⟨_, lastFork.numbered inserts notFound isNew,
          redirExtra_eq_nil_iff inserts.1⟩
  | found slot cross isSlot isPos isFd none =>
      rw [sameInfor] at isSlot
      subst none
      rw [if_pos cross, storeCross, if_neg (by omega)]
      refine ⟨_, lastFork.found cross ?_, redirExtra_eq_nil_iff cross⟩
      rintro ⟨_, search⟩
      omega
  | user noCross given ready samePos isNew different =>
      rw [if_neg (by simpa using noCross)]
      by_cases file : line.redir = true
      · rw [if_pos file]
        refine ⟨pipes, lastFork.file file noCross fun _ _ => ?_, ?_⟩
        · simp [isNew]
        · simp [isNew, LeavesOpen, file, given, ready]
      · rw [if_neg file, if_pos given]
        refine
          ⟨[], lastFork.user (by simpa using file) noCross given ready isNew
            different, ?_⟩
        simp [LeavesOpen, file]
  | nothing noCross notReady same none =>
      subst none
      rw [if_neg (by simpa using noCross)]
      have keepsNothing : ¬ server.LeavesOpen line := by
        rintro ⟨_, cross | ready⟩
        · exact cross noCross
        · exact notReady ready
      refine ⟨[], ?_, iff_of_true rfl keepsNothing⟩
      by_cases file : line.redir = true
      · rw [if_pos file]
        exact lastFork.file file noCross fun given ready =>
          absurd ⟨given, ready⟩ notReady
      · have noFile : line.redir = false := by simpa using file
        have kept : Outcome line pipe [] server (current.closeFd exFd0) :=
          lastFork.nothing noFile noCross notReady
        rw [if_neg file]
        split_ifs with given
        · have stays : current.storeUserPipe line vars = current := by
            rw [storeUserPipe, lastFork.frame.client_eq,
              if_neg fun ready => notReady ⟨given, ready⟩]
          rw [stays]
          exact kept
        · exact kept

/-- The tables when the child of the last stage is forked. -/
theorem Looping.lastFork
    {i : Nat}
    {state : Vars × Server}
    (looping : Looping line cmdNum server i state) :
    ∃ pipes,
      Opened line (server.nextPipe + i + 1) (server.client.takeInput line)
          state.1 (openOutput line state.1 state.2).1 pipes ∧
        LastFork line cmdNum server pipes state.1.exFd0 (server.nextPipe + i)
          (openOutput line state.1 state.2).2 ∧
        (openOutput line state.1 state.2).1.exFd0 = state.1.exFd0 := by
  obtain ⟨pipes, opened, frame, sameEx, apart⟩ :=
    looping.frame.openOutput line state.1
  rw [looping.nextPipe] at opened
  refine ⟨pipes, opened, ⟨frame, ?_, ?_⟩, sameEx⟩
  · intro new isNew
    refine ⟨(apart _ List.mem_cons_self new isNew).symm, ?_⟩
    intro old inRedir
    exact (apart old (List.mem_cons_of_mem _ inRedir) new isNew).symm
  · exact redirExtra_apart looping.frame.fds
      (fun _ member => List.mem_cons_of_mem _ member)
      List.mem_cons_self

/-- The last round completes the line. -/
theorem Looping.last
    {i : Nat}
    {state : Vars × Server}
    (looping : Looping line cmdNum server i state)
    (outside : Outside)
    (isLast : i + 1 = cmdNum - 1) :
    ∃ kept,
      Outcome line (server.nextPipe + i + 1) kept server
          (runStage line outside cmdNum server.fds.lowestFree state
            (i + 1)).2 ∧
        (kept = [] ↔ ¬ server.LeavesOpen line) := by
  obtain ⟨pipes, opened, lastFork, sameEx⟩ := looping.lastFork
  have forked := sameTables_stageForked line cmdNum
    outside server.fds.lowestFree state.1 (i + 1) state.2
  rw [stageOpened_of_last isLast] at forked
  have forkedLast :
      LastFork line cmdNum server pipes state.1.exFd0 (server.nextPipe + i) _ :=
    { lastFork with frame := lastFork.frame.sameTables forked }
  unfold runStage stageConnected
  dsimp only
  rw [stageForked_fst, stageOpened_of_last isLast,
    if_neg (Nat.succ_ne_zero i), if_pos isLast, closeAndConnectFd_parent,
    if_neg (by simpa using isLast), if_pos (Nat.succ_ne_zero i), sameEx]
  exact forkedLast.outcome opened

/-- A pipeline whose file can be opened, with what it leaves open. -/
theorem runPipeline_outcome
    (outside : Outside)
    (stages : 2 ≤ cmdNum)
    (inputOpen : server.InputOpen line) :
    ∃ kept,
      Outcome line (server.nextPipe + (cmdNum - 1)) kept server
          (server.runPipeline line outside cmdNum) ∧
        (kept = [] ↔ ¬ server.LeavesOpen line) := by
  obtain ⟨i, rfl⟩ : ∃ i, cmdNum = i + 2 := ⟨cmdNum - 2, by omega⟩
  have looping :=
    looping_runStages outside server.fds.lowestFree inputOpen
      (Nat.lt_succ_self (i + 1))
  obtain ⟨kept, outcome, isKept⟩ := looping.last outside rfl
  rw [← runStages_succ] at outcome
  exact
    ⟨kept, outcome.sameTables (sameTables_waitSince line _ _), isKept⟩

/-- A pipeline whose file can be opened has the effect of a line. -/
theorem runPipeline_effect
    (outside : Outside)
    (stages : 2 ≤ cmdNum)
    (inputOpen : server.InputOpen line) :
    Effect line (server.nextPipe + (cmdNum - 1)) server
      (server.runPipeline line outside cmdNum) := by
  obtain ⟨kept, outcome, isKept⟩ :=
    runPipeline_outcome outside stages inputOpen
  refine outcome.effect fun notCompeting => ?_
  exact isKept.mpr fun leavesOpen => notCompeting leavesOpen.competing

/-- A pipeline is run when the file of `>`, if it has one, can be opened. -/
theorem ordinaryPipe_of_opens
    {outside : Outside}
    (opens : line.redir = true → outside.opens (line.word cmdNum) = true) :
    server.ordinaryPipe line outside cmdNum =
      server.runPipeline line outside cmdNum := by
  unfold ordinaryPipe
  rw [if_neg]
  rintro ⟨file, fails⟩
  rw [opens file] at fails
  cases fails

end Loop

end Server

end NpServers.Shell
