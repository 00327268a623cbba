import NpServers.LeftDescriptors

namespace NpServers.Shell

open CrossPipe DescriptorTable

/-!
# The target of the last command

A line can name a numbered pipe, a file and a user pipe at once.  `single_cmd`
and `ordinary_pipe` decide between them in three places each, before the fork,
in the child and in the parent.  In both, a numbered pipe comes before the file,
and the file before a user pipe.
-/

/-- What the standard output of a command is, by the tables after its line. -/
inductive Target where
  | numbered (count : Int)
  | user (receiver : Nat)
  | named (path : String)
  | socket
  deriving Repr, DecidableEq

/--
The directives of a line with one command and of a pipeline are the same.  The
name of the file stands behind the commands.
-/
structure SameDirectives (one many : Command) : Prop where
  crossNum : one.crossNum = many.crossNum
  redir : one.redir = many.redir
  userInId : one.userInId = many.userInId
  userOutId : one.userOutId = many.userOutId
  file : one.redir = true → one.word 1 = many.word many.cmdNum

section Directives

variable {one many : Command}

theorem SameDirectives.takeInput
    (same : SameDirectives one many)
    (client : ClientStructure) :
    client.takeInput one = client.takeInput many := by
  unfold ClientStructure.takeInput
  rw [same.userInId]

theorem SameDirectives.inputFds
    (same : SameDirectives one many)
    (server : Server) :
    server.inputFds one = server.inputFds many := by
  unfold Server.inputFds ClientStructure.inputPorts
  rw [same.userInId]

theorem SameDirectives.leavesOpen_iff
    (same : SameDirectives one many)
    (server : Server) :
    server.LeavesOpen one ↔ server.LeavesOpen many := by
  unfold Server.LeavesOpen
  rw [same.redir, same.crossNum, same.userOutId, same.takeInput]

theorem SameDirectives.overwrites_iff
    (same : SameDirectives one many)
    (server : Server) :
    server.Overwrites one ↔ server.Overwrites many := by
  unfold Server.Overwrites
  rw [same.crossNum]

/-- The outcome of a line depends on its directives only. -/
theorem SameDirectives.outcome
    (same : SameDirectives one many)
    {pipe : Nat}
    {kept : List (Int × File)}
    {server after : Server}
    (outcome : Server.Outcome many pipe kept server after) :
    Server.Outcome one pipe kept server after := by
  have sameInput := same.takeInput server.client
  have sameFds := same.inputFds server
  cases outcome with
  | numbered fd inserts apart frame =>
      rw [← same.crossNum] at inserts frame
      rw [← sameInput, ← sameFds] at frame
      exact .numbered fd inserts apart frame
  | user fd noCross given ready noneKept frame =>
      rw [← same.crossNum] at noCross
      rw [← same.userOutId] at given ready frame
      rw [← sameInput] at ready frame
      rw [← sameFds] at frame
      exact .user fd noCross given ready noneKept frame
  | plain keeps unregistered frame =>
      rw [← same.crossNum] at keeps unregistered
      rw [← same.userOutId, ← sameInput] at unregistered
      rw [← sameInput, ← sameFds] at frame
      exact .plain keeps unregistered frame

end Directives

namespace Server

/-- The file is the given target in the server after a line. -/
def IsTarget
    (after : Server)
    (file : Option File) :
    Target → Prop
  | .numbered count =>
      ∃ slot pipe,
        after.infor.Pending slot ∧
          (after.infor.list slot).count = count ∧
          after.fds.file (after.infor.list slot).readFd =
            some (.readEnd pipe) ∧
          file = some (.writeEnd pipe)
  | .user receiver =>
      ∃ pipe,
        after.fds.file
            ((after.client.list receiver).userPipe after.client.id) =
          some (.readEnd pipe) ∧
          file = some (.writeEnd pipe)
  | .named path => file = some (.named path)
  | .socket => file = after.fds.file after.sockfd

/-- The last of the `count` commands that a line has started. -/
def lastCommand
    (before after : Server)
    (count : Nat) : Option Child :=
  after.children[before.children.length + (count - 1)]?

/--
The last command of the one line and that of the other have the same target.
They get to `execvp` if `/dev/null` can be opened.
-/
def SameTarget
    (before : Server)
    (oneOutside manyOutside : Outside)
    (cmdNum : Nat)
    (one many : Server) : Prop :=
  ∃ oneChild manyChild,
    lastCommand before one 1 = some oneChild ∧
      lastCommand before many cmdNum = some manyChild ∧
      (oneOutside.opens devNull = true → oneChild.execs = true) ∧
      (manyOutside.opens devNull = true → manyChild.execs = true) ∧
      (oneChild.execs = true →
        manyChild.execs = true →
          ∃ target,
            one.IsTarget (oneChild.fds.file stdout) target ∧
              many.IsTarget (manyChild.fds.file stdout) target)

variable {server current after : Server}
variable {base : DescriptorTable File}
variable {pipes rest : List (Int × File)}
variable {client : ClientStructure}
variable {line : Command}
variable {outside : Outside}
variable {start vars : Vars}
variable {pipe : Nat}

/-! ## The target of the last command -/

/-- A numbered pipe comes before the file, and the file before a user pipe. -/
def target
    (server : Server)
    (line : Command)
    (file : String) : Target :=
  if line.crossNum ≠ 0 then
    .numbered (crossCount line.crossNum)
  else if line.redir then
    .named file
  else if line.userOutId ≠ 0 then
    if (server.client.takeInput line).userOutReady line.userOutId then
      .user line.userOutId
    else
      .named devNull
  else
    .socket

/-- After a line the current client is the same, with the same socket. -/
theorem Effect.sameClient
    (effect : Effect line pipe server after) :
    after.client.id = server.client.id ∧ after.sockfd = server.sockfd := by
  have ofFrame
      {extra : List (Int × File)}
      {own : ClientStructure}
      (frame : Frame server (server.takenFds line) extra own after)
      (sameId : own.id = server.client.id)
      (sameSockfd :
        ∀ c, (own.list c).sockfd = (server.client.list c).sockfd) :
      after.client.id = server.client.id ∧ after.sockfd = server.sockfd := by
    have isId := congrArg ClientStructure.id frame.client_eq
    refine ⟨isId.trans sameId, ?_⟩
    unfold Server.sockfd self
    rw [frame.client_eq, sameSockfd, sameId]
  cases effect with
  | numbered fd kept inserts onlyCompeting frame =>
      exact ofFrame frame (by simp) (by simp)
  | user fd noCross given ready frame =>
      exact ofFrame frame (by simp) (by simp)
  | plain kept keeps notUser onlyCompeting frame =>
      exact ofFrame frame (by simp) (by simp)

/-- The socket of the client stays open on the same connection. -/
theorem LineReady.socket_after
    (lineReady : server.LineReady)
    (effect : Effect line pipe server after) :
    after.fds.file after.sockfd = server.fds.file server.sockfd := by
  obtain ⟨extra, own, frame⟩ := effect.takes
  obtain ⟨connection, isOpen⟩ :=
    lineReady.healthy.socket lineReady.inLine.state
  have isSocket :
      server.fds.file server.sockfd = some (.socket connection) :=
    isOpen
  rw [effect.sameClient.2, isSocket]
  exact
    frame.fds.file_base ((lineReady.underway_taken line).keeps isSocket rfl)

/-- The output at the last fork is the target of the line. -/
theorem LineReady.isTarget
    (lineReady : server.LineReady)
    (underway : Underway server base client)
    (frame : Frame server base (pipes ++ rest) client current)
    (opened : Opened line pipe client start vars pipes)
    (effect : Effect line pipe server after)
    (sameReady :
      line.crossNum = 0 →
      client.userOutReady line.userOutId =
        (server.client.takeInput line).userOutReady line.userOutId)
    (file : String) :
    after.IsTarget (current.selectedOutput line vars.fd file)
      (server.target line file) := by
  unfold selectedOutput target
  by_cases cross : line.crossNum ≠ 0
  · rw [if_pos cross, if_pos cross]
    obtain ⟨slot, number, pending, sameCount, isRead, -, isOutput⟩ :=
      lineReady.directed_numbered underway frame opened effect cross
    exact ⟨slot, number, pending, sameCount, isRead, isOutput⟩
  · rw [if_neg cross, if_neg cross]
    have noCross : line.crossNum = 0 := by simpa using cross
    by_cases isFile : line.redir = true
    · rw [if_pos isFile, if_pos isFile]
      exact rfl
    · rw [if_neg isFile, if_neg isFile]
      by_cases given : line.userOutId ≠ 0
      · rw [if_pos given, if_pos given, frame.client_eq, sameReady noCross]
        split_ifs with isReady
        · have notCompeting : ¬ Competing line :=
            fun competing => isFile competing.1
          obtain ⟨number, -, isRead, isOutput⟩ :=
            directed_user frame opened effect notCompeting noCross given
              ((sameReady noCross).trans isReady) isReady
          refine ⟨number, ?_, isOutput⟩
          rw [effect.sameClient.1]
          exact isRead
        · exact rfl
      · rw [if_neg given, if_neg given]
        exact
          (lineReady.socket_eq underway frame).trans
            (lineReady.socket_after effect).symm

/-- The file of `>` and a new user pipe do not come together. -/
theorem noFile_of_not_leavesOpen
    (notOpen : ¬ server.LeavesOpen line)
    (given : line.userOutId ≠ 0)
    (ready :
      (server.client.takeInput line).userOutReady line.userOutId = true) :
    line.redir = false := by
  by_contra isFile
  exact notOpen ⟨by simpa using isFile, Or.inr ⟨given, ready⟩⟩

/-- The command of `single_cmd` writes to the target of its line. -/
theorem LineReady.singleOf_target
    (lineReady : server.LineReady)
    (notSelf : ¬ server.client.SelfPiped line)
    (notOpen : ¬ server.LeavesOpen line)
    (execs : (singleOf line outside server).execs = true) :
    (server.singleCmd line outside).IsTarget
      ((singleOf line outside server).fds.file stdout)
      (server.target line (line.word 1)) := by
  obtain ⟨pipes, opened, frame⟩ := singleFork_frame line outside server
  have sameReady (noCross : line.crossNum = 0) :
      server.client.userOutReady line.userOutId =
        (server.client.takeInput line).userOutReady line.userOutId :=
    (ClientStructure.userOutReady_takeInput noCross notSelf).symm
  have isOutput :
      (singleOf line outside server).fds.file stdout =
        (singleOpened line outside server).2.selectedOutput line
          (singleOpened line outside server).1.fd (line.word 1) :=
    (lineReady.single_streams
      (fun noCross given ready =>
        noFile_of_not_leavesOpen notOpen given
          ((sameReady noCross).symm.trans ready))
      frame opened (forkedChild_ran execs)).2
  have effect :=
    singleCmd_effect outside (lineReady.inputPipes line).inputOpen notSelf
  rw [isOutput]
  rw [← List.append_nil pipes] at frame
  exact
    lineReady.isTarget (.start server) frame opened effect sameReady
      (line.word 1)

/-- The last command of `ordinary_pipe` writes to the target of its line. -/
theorem LineReady.stageOf_target
    (lineReady : server.LineReady)
    {cmdNum : Nat}
    (stages : 2 ≤ cmdNum)
    (notOpen : ¬ server.LeavesOpen line)
    (execs : (stageOf line outside cmdNum server (cmdNum - 1)).execs = true) :
    (server.runPipeline line outside cmdNum).IsTarget
      ((stageOf line outside cmdNum server (cmdNum - 1)).fds.file stdout)
      (server.target line (line.word cmdNum)) := by
  obtain ⟨i, rfl⟩ : ∃ i, cmdNum = i + 2 := ⟨cmdNum - 2, by omega⟩
  have ran := forkedChild_ran execs
  have inputOpen := (lineReady.inputPipes line).inputOpen
  have looping := inputOpen.looping outside (by omega : i + 1 < i + 2)
  have isFork :=
    stageFork_last line outside server (by omega : i + 1 = (i + 2) - 1)
  change stageChild line outside (i + 2) server.fds.lowestFree
    (stageFork line outside (i + 2) server (i + 1)).1 (i + 1)
    (stageFork line outside (i + 2) server (i + 1)).2 =
      .ok (stageOf line outside (i + 2) server (i + 1)).fds at ran
  rw [isFork] at ran
  have isOutput :=
    (lineReady.last_wired looping (by omega)
      (fun _ given ready => noFile_of_not_leavesOpen notOpen given ready)
      ran).stdout
  obtain ⟨pipes, opened, lastFork, _⟩ := looping.lastFork
  have effect := runPipeline_effect outside stages inputOpen
  change (server.runPipeline line outside (i + 2)).IsTarget
    ((stageOf line outside (i + 2) server (i + 1)).fds.file stdout) _
  rw [isOutput]
  exact
    lineReady.isTarget (lineReady.underway_taken line) lastFork.frame opened
      effect (fun _ => rfl) (line.word (i + 2))

/-- The two lines write to the same target. -/
theorem target_eq
    {one many : Command}
    (same : SameDirectives one many)
    (server : Server) :
    server.target one (one.word 1) =
      server.target many (many.word many.cmdNum) := by
  have sameInput := same.takeInput server.client
  unfold Server.target
  rw [same.crossNum, same.userOutId, sameInput, same.redir]
  split_ifs with cross file given ready
  · rfl
  · rw [same.file (same.redir.trans file)]
  · rfl
  · rfl
  · rfl

/-- The child of a single command, and when it gets to `execvp`. -/
theorem singleCmd_lastCommand
    (line : Command)
    (outside : Outside)
    (server : Server) :
    ∃ child,
      lastCommand server (server.singleCmd line outside) 1 = some child ∧
        child.fds = (singleOf line outside server).fds ∧
        child.execs = (singleOf line outside server).execs := by
  obtain ⟨alive, isChild⟩ :=
    singleCmd_child line outside server.children.length server
  rw [List.getElem?_append_right (Nat.le_refl _), Nat.sub_self] at isChild
  exact ⟨_, isChild, rfl, rfl⟩

/-- The child of the last stage, and when it gets to `execvp`. -/
theorem runPipeline_lastCommand
    (line : Command)
    (outside : Outside)
    {cmdNum : Nat}
    (stages : 2 ≤ cmdNum)
    (server : Server) :
    ∃ child,
      lastCommand server (server.runPipeline line outside cmdNum) cmdNum =
          some child ∧
        child.fds = (stageOf line outside cmdNum server (cmdNum - 1)).fds ∧
        child.execs =
          (stageOf line outside cmdNum server (cmdNum - 1)).execs := by
  have inRange : cmdNum - 1 < cmdNum := by omega
  obtain ⟨alive, isChild⟩ :=
    runPipeline_child line outside cmdNum
      (server.children.length + (cmdNum - 1)) server
  rw [List.getElem?_append_right (Nat.le_add_right _ _),
    Nat.add_sub_cancel_left, List.getElem?_map,
    List.getElem?_range inRange] at isChild
  exact ⟨_, isChild, rfl, rfl⟩

/-- The last commands have the same target. -/
theorem LineReady.sameTarget
    (lineReady : server.LineReady)
    {one many : Command}
    (same : SameDirectives one many)
    (stages : 2 ≤ many.cmdNum)
    {oneOutside : Outside}
    (manyOutside : Outside)
    (fileOpens : one.redir = true → oneOutside.opens (one.word 1) = true)
    (notSelf : ¬ server.client.SelfPiped one)
    (notOpen : ¬ server.LeavesOpen many) :
    SameTarget server oneOutside manyOutside many.cmdNum
      (server.singleCmd one oneOutside)
      (server.runPipeline many manyOutside many.cmdNum) := by
  obtain ⟨oneChild, isOne, oneFds, oneExecs⟩ :=
    singleCmd_lastCommand one oneOutside server
  obtain ⟨manyChild, isMany, manyFds, manyExecs⟩ :=
    runPipeline_lastCommand many manyOutside stages server
  have oneNotOpen : ¬ server.LeavesOpen one := by
    rwa [same.leavesOpen_iff server]
  refine ⟨oneChild, manyChild, isOne, isMany, ?_, ?_, ?_⟩
  · intro opens
    rw [oneExecs]
    exact singleChild_ok one oneOutside fileOpens opens _ _
  · intro opens
    rw [manyExecs]
    exact stageChild_ok opens _ _ _ _
  · intro oneRuns manyRuns
    rw [oneExecs] at oneRuns
    rw [manyExecs] at manyRuns
    rw [oneFds, manyFds]
    refine ⟨server.target one (one.word 1), ?_, ?_⟩
    · exact lineReady.singleOf_target notSelf oneNotOpen oneRuns
    · rw [target_eq same]
      exact lineReady.stageOf_target stages notOpen manyRuns

end Server

end NpServers.Shell
