import NpServers.UserPipeDecisions

namespace NpServers.Shell

open CrossPipe DescriptorTable TransitionPath

/-!
# Writers of numbered pipes

The command that reads a numbered pipe sees the end of its input when no process
holds the write end any more.  A child closes the waiting pipes of its own client
only, and `single_cmd` leaves out the block that its variable `pos` selects.  In
runs where no command stays running that has inherited a write end this way, the
writers of a numbered pipe are the commands that were directed into it.
-/

/-- The child runs and holds the write end of a pipe. -/
def Child.Writes
    (child : Child)
    (pipe : Nat) : Prop :=
  child.alive = true ∧ ∃ fd, child.fds.file fd = some (.writeEnd pipe)

/-- The client started the child and directed its output into a pipe. -/
def Child.DirectedInto
    (child : Child)
    (c pipe : Nat) : Prop :=
  child.client = c ∧ child.directed = some pipe

namespace Server

/-- Only commands directed into a waiting numbered pipe hold its write end. -/
def OnlyDirectedWrite (server : Server) : Prop :=
  ∀ (c slot pipe : Nat) (child : Child),
    server.client.Recorded (.writeFd c slot) →
    server.fds.file (Port.fd server.client (.writeFd c slot)) =
      some (.writeEnd pipe) →
    child ∈ server.children →
    child.Writes pipe →
    child.DirectedInto c pipe

/-! ## Events that start no command -/

section Kept

variable {before after server : Server}

/-- What is recorded was so before, and whoever writes did so before. -/
theorem OnlyDirectedWrite.of_kept
    (directed : before.OnlyDirectedWrite)
    (recorded :
      ∀ {c slot},
        after.client.Recorded (.writeFd c slot) →
        before.client.Recorded (.writeFd c slot) ∧
          Port.fd after.client (.writeFd c slot) =
            Port.fd before.client (.writeFd c slot))
    (wasOpen :
      ∀ {fd pipe},
        after.fds.file fd = some (.writeEnd pipe) →
        before.fds.file fd = some (.writeEnd pipe))
    (wrote :
      ∀ {child},
        child ∈ after.children →
        ∃ old ∈ before.children,
          (child.alive = true → old.alive = true) ∧ old.fds = child.fds ∧
            old.client = child.client ∧ old.directed = child.directed) :
    after.OnlyDirectedWrite := by
  intro c slot pipe child isRecorded isOpen member writes
  obtain ⟨wasRecorded, sameFd⟩ := recorded isRecorded
  obtain ⟨old, isOld, alive, sameFds, sameClient, sameDirected⟩ := wrote member
  rw [sameFd] at isOpen
  have oldWrites : old.Writes pipe := by
    refine ⟨alive writes.1, ?_⟩
    rw [sameFds]
    exact writes.2
  obtain ⟨isClient, isDirected⟩ :=
    directed c slot pipe old wasRecorded (wasOpen isOpen) isOld oldWrites
  exact ⟨sameClient ▸ isClient, sameDirected ▸ isDirected⟩

/-- The same children write the same pipes. -/
theorem OnlyDirectedWrite.of_sameRecords
    (directed : before.OnlyDirectedWrite)
    (same : SameRecords after before) :
    after.OnlyDirectedWrite := by
  refine directed.of_kept ?_ ?_ ?_
  · intro c slot recorded
    have sameHeld := congrArg (fun ledger => ledger.held (.writeFd c slot)) same.ledger
    have sameName := congrArg (fun ledger => ledger.name (.writeFd c slot)) same.ledger
    exact ⟨sameHeld.mp recorded, sameName⟩
  · rw [same.fds]
    exact id
  · rw [same.children]
    exact fun member => ⟨_, member, id, rfl, rfl, rfl⟩

theorem OnlyDirectedWrite.login
    (directed : server.OnlyDirectedWrite) :
    server.login.OnlyDirectedWrite := by
  refine directed.of_kept recorded_of_login ?_
    fun member => ⟨_, member, id, rfl, rfl, rfl⟩
  intro fd pipe isOpen
  exact file_of_login isOpen rfl

theorem OnlyDirectedWrite.logout
    (directed : server.OnlyDirectedWrite)
    {fd : Int}
    (isId : (server.main.fdIdList fd).toNat = server.client.id) :
    (server.logout fd).OnlyDirectedWrite := by
  refine directed.of_kept ?_ file_of_logout
    fun member => ⟨_, member, id, rfl, rfl, rfl⟩
  intro c slot recorded
  obtain ⟨wasRecorded, sameFd, _⟩ := recorded_of_logout isId recorded
  exact ⟨wasRecorded, sameFd⟩

theorem OnlyDirectedWrite.exitChild
    (directed : server.OnlyDirectedWrite)
    (index : Nat) :
    (server.exitChild index).OnlyDirectedWrite := by
  refine directed.of_kept (fun recorded => ⟨recorded, rfl⟩) id ?_
  intro child member
  obtain ⟨old, isOld, rfl | rfl⟩ := mem_exitChild member
  · exact ⟨child, isOld, id, rfl, rfl, rfl⟩
  · refine ⟨old, isOld, ?_, rfl, rfl, rfl⟩
    intro alive
    cases alive

end Kept

/-! ## What a child keeps of the waiting pipes -/

section Fork

variable {server current : Server}
variable {base : DescriptorTable File}
variable {extra : List (Int × File)}
variable {client : ClientStructure}

/-- A child that holds the write end of a waiting pipe has spared its block. -/
theorem LineReady.pos_of_writes
    (lineReady : server.LineReady)
    (underway : Underway server base client)
    (frame : Frame server base extra client current)
    {slot pipe : Nat}
    (pending : server.infor.Pending slot)
    (isWrite :
      server.fds.file (server.infor.list slot).writeFd =
        some (.writeEnd pipe))
    {pos : Int}
    {table : DescriptorTable File}
    (draws : DrawsFrom (current.childStart pos) table)
    {fd : Int}
    (holds : table.file fd = some (.writeEnd pipe)) :
    pos = slot := by
  by_contra different
  obtain ⟨other, otherOpen⟩ := draws fd _ pipe holds rfl
  rw [childStart_eq, closeAll_file, Option.ite_none_left_eq_some] at otherOpen
  have stillOpen :
      current.fds.file (server.infor.list slot).writeFd =
        some (.writeEnd pipe) :=
    frame.fds.file_base ((underway.waiting pending).2.trans isWrite)
  have same :=
    (lineReady.forkReady underway frame).healthy.unique otherOpen.2 stillOpen
      rfl
  exact otherOpen.1
    (lineReady.mem_crossFds underway frame pending different (Or.inr same))

variable {line : Command}
variable {pipe : Nat}
variable {start vars : Vars}
variable {pipes rest : List (Int × File)}

/-- A block is spared for the output of the line, or because `pos` was not set. -/
theorem Underway.spared_block
    (underway : Underway server base client)
    (frame : Frame server base (pipes ++ rest) client current)
    (opened : Opened line pipe client start vars pipes)
    {slot waitingPipe : Nat}
    (pending : server.infor.Pending slot)
    (isWrite :
      server.fds.file (server.infor.list slot).writeFd =
        some (.writeEnd waitingPipe))
    (isPos : vars.pos = slot) :
    (line.crossNum = 0 ∧ start.pos = slot) ∨
      (line.crossNum ≠ 0 ∧
        current.pipeBehind vars.fd.writeFd = some waitingPipe) := by
  cases opened with
  | numbered inserts notFound isNew different => omega
  | user noCross given ready samePos isNew different =>
      exact Or.inl ⟨noCross, samePos ▸ isPos⟩
  | nothing noCross notReady same none =>
      exact Or.inl ⟨noCross, same ▸ isPos⟩
  | found other cross isSlot isOther isFd none =>
      have same : other = slot := by omega
      have isInfor : (client.list client.id).cpInfor = server.infor := by
        rw [← frame.infor_eq, underway.infor_eq frame]
      have stillOpen :
          current.fds.file (server.infor.list slot).writeFd =
            some (.writeEnd waitingPipe) :=
        frame.fds.file_base ((underway.waiting pending).2.trans isWrite)
      refine Or.inr ⟨cross, ?_⟩
      rw [isFd, isInfor, same, pipeBehind]
      exact congrArg (Option.bind · File.pipe?) stillOpen

/-- A new numbered pipe is the output of the line. -/
theorem pipeBehind_of_inserts
    (frame : Frame server base (pipes ++ rest) client current)
    (opened : Opened line pipe client start vars pipes)
    (inserts : (client.list client.id).cpInfor.Inserts line.crossNum) :
    current.pipeBehind vars.fd.writeFd = some pipe := by
  cases opened with
  | user noCross => exact absurd noCross inserts.1
  | nothing noCross => exact absurd noCross inserts.1
  | found slot _ isSlot =>
      have notFound := inserts.2
      omega
  | numbered _ _ isNew _ =>
      have isOpen :
          current.fds.file vars.fd.writeFd = some (.writeEnd pipe) := by
        apply frame.fds.file_extra
        rw [isNew]
        simp
      rw [pipeBehind]
      exact congrArg (Option.bind · File.pipe?) isOpen

/-- A numbered pipe of the client: one that waits, or the new one of a line. -/
inductive OwnNumbered
    (server : Server)
    (line : Command)
    (newPipe : Nat) :
    Nat → Prop where
  | waiting
      {slot pipe : Nat}
      (pending : server.infor.Pending slot)
      (isWrite :
        server.fds.file (server.infor.list slot).writeFd =
          some (.writeEnd pipe)) :
      OwnNumbered server line newPipe pipe
  | inserted
      (inserts : server.infor.Inserts line.crossNum) :
      OwnNumbered server line newPipe newPipe

/-- The last child of a line writes such a pipe only by direction. -/
theorem LineReady.pipeBehind_of_writes
    (lineReady : server.LineReady)
    (underway : Underway server base client)
    (frame : Frame server base (pipes ++ rest) client current)
    (opened : Opened line pipe client start vars pipes)
    {table : DescriptorTable File}
    (draws : DrawsFrom (current.childStart vars.pos) table)
    {fd : Int}
    {numbered : Nat}
    (holds : table.file fd = some (.writeEnd numbered))
    (own : server.OwnNumbered line pipe numbered)
    (notSpared :
      line.crossNum = 0 →
      ∀ slot : Nat, server.infor.Pending slot → start.pos ≠ slot) :
    line.crossNum ≠ 0 ∧
      current.pipeBehind vars.fd.writeFd = some numbered := by
  have isInfor : (client.list client.id).cpInfor = server.infor := by
    rw [← frame.infor_eq, underway.infor_eq frame]
  cases own with
  | @waiting slot _ pending isWrite =>
      have isPos :=
        lineReady.pos_of_writes underway frame pending isWrite draws holds
      rcases underway.spared_block frame opened pending isWrite isPos with
          ⟨noCross, startPos⟩ | directed
      · exact absurd startPos (notSpared noCross slot pending)
      · exact directed
  | inserted inserts =>
      rw [← isInfor] at inserts
      exact ⟨inserts.1, pipeBehind_of_inserts frame opened inserts⟩

/-- An earlier child of a line writes no such pipe. -/
theorem LineReady.not_writes
    (lineReady : server.LineReady)
    (underway : Underway server base client)
    (frame : Frame server base extra client current)
    {pos : Int}
    (notPos : pos = -1)
    {newPipe : Nat}
    (later : current.nextPipe ≤ newPipe)
    {table : DescriptorTable File}
    (draws : DrawsFrom (current.childStart pos) table)
    {numbered : Nat}
    (own : server.OwnNumbered line newPipe numbered)
    (fd : Int) :
    table.file fd ≠ some (.writeEnd numbered) := by
  intro holds
  cases own with
  | waiting pending isWrite =>
      have isPos :=
        lineReady.pos_of_writes underway frame pending isWrite draws holds
      omega
  | inserted inserts =>
      obtain ⟨other, isOpen⟩ := draws fd _ newPipe holds rfl
      obtain ⟨source, sourceOpen⟩ :=
        drawsFrom_childStart current pos other _ newPipe isOpen rfl
      have known :=
        (lineReady.forkReady underway frame).healthy.known sourceOpen rfl
      omega

end Fork

/-! ## The commands of a line -/

section Line

variable {server : Server}
variable {line : Command}
variable {outside : Outside}

theorem LineReady.singleOf_directed
    (lineReady : server.LineReady)
    {fd : Int}
    {numbered : Nat}
    (holds :
      (singleOf line outside server).fds.file fd = some (.writeEnd numbered))
    (own : server.OwnNumbered line server.nextPipe numbered)
    (notSpared :
      line.crossNum = 0 →
      ∀ slot : Nat, server.infor.Pending slot → outside.pos ≠ slot) :
    (singleOf line outside server).DirectedInto server.client.id numbered := by
  obtain ⟨pipes, opened, frame⟩ := singleFork_frame line outside server
  have framed :
      Frame server server.fds (pipes ++ []) server.client
        (singleOpened line outside server).2 := by
    rwa [List.append_nil]
  have draws :
      DrawsFrom
        ((singleOpened line outside server).2.childStart
          (singleOpened line outside server).1.pos)
        (singleOf line outside server).fds :=
    .singleChild line outside _ ((DrawsFrom.refl _).childInput line outside _)
  obtain ⟨cross, isBehind⟩ :=
    lineReady.pipeBehind_of_writes (Underway.start server) framed opened draws
      holds own notSpared
  refine ⟨congrArg ClientStructure.id framed.client_eq, ?_⟩
  exact (if_pos ⟨rfl, cross⟩).trans isBehind

variable {cmdNum : Nat}

theorem LineReady.stageOf_directed
    (lineReady : server.LineReady)
    (stages : 2 ≤ cmdNum)
    {i : Nat}
    (inRange : i < cmdNum)
    {fd : Int}
    {numbered : Nat}
    (holds :
      (stageOf line outside cmdNum server i).fds.file fd =
        some (.writeEnd numbered))
    (own :
      server.OwnNumbered line (server.nextPipe + (cmdNum - 1)) numbered) :
    (stageOf line outside cmdNum server i).DirectedInto server.client.id
      numbered := by
  have draws :
      DrawsFrom
        ((stageFork line outside cmdNum server i).2.childStart
          (stageFork line outside cmdNum server i).1.pos)
        (stageOf line outside cmdNum server i).fds := by
    have start := (DrawsFrom.refl
      ((stageFork line outside cmdNum server i).2.childStart
        (stageFork line outside cmdNum server i).1.pos)).dup2
      (stageFork line outside cmdNum server i).2.sockfd stderr
    exact .stageChild line outside _ (fun _ => start) fun _ =>
      start.childInput line outside _
  have inputOpen := (lineReady.inputPipes line).inputOpen
  cases i with
  | zero =>
      rw [stageFork_first line outside server stages] at draws
      refine absurd holds (lineReady.not_writes (Underway.start server)
        (first_frame line cmdNum server) rfl ?_ draws own fd)
      change (server.loopStart line cmdNum).nextPipe + 1 ≤ _
      rw [loopStart_nextPipe]
      omega
  | succ i =>
      have looping := inputOpen.looping outside inRange
      have underway := lineReady.underway_taken line
      by_cases isLast : i + 1 = cmdNum - 1
      · have isFork := stageFork_last line outside server isLast
        rw [isFork] at draws
        obtain ⟨pipes, opened, lastFork, _⟩ := looping.lastFork
        have isPipe :
            server.nextPipe + (cmdNum - 1) = server.nextPipe + i + 1 := by
          omega
        rw [isPipe] at own
        obtain ⟨cross, isBehind⟩ :=
          lineReady.pipeBehind_of_writes underway lastFork.frame opened draws
            holds own
            (by
              intro _ slot _
              rw [looping.pos]
              omega)
        rw [← isFork] at isBehind
        refine ⟨?_, (if_pos ⟨by simpa using isLast, cross⟩).trans isBehind⟩
        change (stageFork line outside cmdNum server (i + 1)).2.client.id = _
        rw [isFork, lastFork.frame.client_eq]
        exact underway.ownId
      · rw [stageFork_middle line outside server isLast] at draws
        refine absurd holds (lineReady.not_writes underway looping.pipe_frame
          looping.pos ?_ draws own fd)
        change (stageState line outside cmdNum server (i + 1)).2.nextPipe + 1 ≤ _
        rw [looping.nextPipe]
        omega

/-- A pipe that waits after a line and is not new waited before it. -/
theorem LineReady.waited_of_turnover
    (lineReady : server.LineReady)
    {extra : List (Int × File)}
    {client : ClientStructure}
    {after : Server}
    (frame : Frame server (server.takenFds line) extra client after)
    {issued : List Port}
    (turnover :
      Ledger.Turnover server.client.lineLedger client.ledger
        (server.client.inputPorts line) issued)
    {c slot : Nat}
    (recorded : client.Recorded (.writeFd c slot))
    (notIssued : .writeFd c slot ∉ issued)
    {pipe : Nat}
    (isOpen :
      after.fds.file (Port.fd client (.writeFd c slot)) =
        some (.writeEnd pipe)) :
    server.client.Recorded (.writeFd c slot) ∧
      server.fds.file (Port.fd server.client (.writeFd c slot)) =
        some (.writeEnd pipe) := by
  rcases (turnover.held_iff (.writeFd c slot)).mp recorded with
      isIssued | ⟨wasHeld, kept, _⟩
  · exact absurd isIssued notIssued
  · have sameName := turnover.name_eq _ wasHeld kept notIssued
    have held : server.client.RecordedOrExpired (.writeFd c slot) := wasHeld
    have stillOpen :
        after.fds.file (Port.fd server.client (.writeFd c slot)) =
          some (.writeEnd pipe) := by
      rw [← isOpen]
      exact congrArg after.fds.file sameName.symm
    rw [lineReady.file_of_kept frame held kept] at stillOpen
    refine ⟨?_, stillOpen⟩
    rcases held with waiting | expired
    · exact waiting
    · exact absurd (ClientStructure.block_mem_inputPorts_iff.2.mpr expired) kept

/-- A pipe that waits after a line waited before it, or is its new one. -/
theorem LineReady.waiting_cases
    (lineReady : server.LineReady)
    {newPipe : Nat}
    {after : Server}
    (effect : Effect line newPipe server after)
    {c slot pipe : Nat}
    (recorded : after.client.Recorded (.writeFd c slot))
    (isOpen :
      after.fds.file (Port.fd after.client (.writeFd c slot)) =
        some (.writeEnd pipe)) :
    (server.client.Recorded (.writeFd c slot) ∧
        server.fds.file (Port.fd server.client (.writeFd c slot)) =
          some (.writeEnd pipe)) ∨
      (c = server.client.id ∧ pipe = newPipe ∧
        server.infor.Inserts line.crossNum) := by
  cases effect with
  | numbered fd kept inserts onlyCompeting frame =>
      have isWrite :
          (fd.writeFd, File.writeEnd newPipe) ∈
            (fd.readFd, File.readEnd newPipe) ::
              (fd.writeFd, .writeEnd newPipe) :: kept :=
        List.mem_cons_of_mem _ List.mem_cons_self
      have turnover :=
        lineReady.turnover_numbered inserts.1 List.mem_cons_self isWrite frame
      rw [frame.client_eq] at recorded isOpen
      by_cases issued : .writeFd c slot ∈ server.client.inputPointPorts
      · obtain ⟨rfl, rfl⟩ :
            c = server.client.id ∧ slot = server.infor.minInputPoint := by
          simpa [ClientStructure.inputPointPorts, Server.infor, self]
            using issued
        have isNew :=
          (server.client.fd_inputPoint line fd line.crossNum).2
        have newOpen :
            after.fds.file
                (Port.fd
                  ((server.client.takeInput line).setInfor
                    (server.infor.updateCrossPipeFd fd line.crossNum))
                  (.writeFd server.client.id server.infor.minInputPoint)) =
              some (.writeEnd newPipe) :=
          (congrArg _ isNew).trans (frame.fds.file_extra isWrite)
        cases newOpen.symm.trans isOpen
        exact Or.inr ⟨rfl, rfl, inserts⟩
      · exact Or.inl
          (lineReady.waited_of_turnover frame turnover recorded issued isOpen)
  | user fd noCross given ready frame =>
      have turnover := lineReady.turnover_user List.mem_cons_self frame
      rw [frame.client_eq] at recorded isOpen
      exact Or.inl
        (lineReady.waited_of_turnover frame turnover recorded (by simp) isOpen)
  | plain kept keeps notUser onlyCompeting frame =>
      have turnover := lineReady.inLine.turnover_plain line
      rw [frame.client_eq] at recorded isOpen
      exact Or.inl
        (lineReady.waited_of_turnover frame turnover recorded (by simp) isOpen)

/-- A numbered pipe of another client waits. -/
def OthersWaiting (server : Server) : Prop :=
  ∃ c slot, c ≠ server.client.id ∧ server.client.Waiting c slot

/-- The effect of a line, when the commands that stay running write as directed. -/
theorem OnlyDirectedWrite.of_effect
    (directed : server.OnlyDirectedWrite)
    (lineReady : server.LineReady)
    (known : server.KnownPipes)
    {newPipe : Nat}
    {after : Server}
    (effect : Effect line newPipe server after)
    (fresh : server.nextPipe ≤ newPipe)
    (running :
      ∀ {child},
        child ∈ after.children →
        child.alive = true →
        child ∈ server.children ∨
          ¬ server.OthersWaiting ∧
            ∀ {fd numbered},
              child.fds.file fd = some (.writeEnd numbered) →
              server.OwnNumbered line newPipe numbered →
              child.DirectedInto server.client.id numbered) :
    after.OnlyDirectedWrite := by
  rintro c slot pipe child recorded isOpen member ⟨alive, fd, holds⟩
  rcases running member alive with isOld | ⟨notOthers, writesOwn⟩
  · rcases lineReady.waiting_cases effect recorded isOpen with
        ⟨wasRecorded, wasOpen⟩ | ⟨_, isNew, _⟩
    · exact directed c slot pipe child wasRecorded wasOpen isOld
        ⟨alive, fd, holds⟩
    · have below := (known.children child isOld).fds fd _ _ holds rfl
      omega
  · rcases lineReady.waiting_cases effect recorded isOpen with
        ⟨wasRecorded, wasOpen⟩ | ⟨isClient, isNew, inserts⟩
    · have isClient : c = server.client.id := by
        by_contra other
        exact notOthers ⟨c, slot, other, wasRecorded⟩
      subst isClient
      exact writesOwn holds (.waiting wasRecorded.2 wasOpen)
    · subst isClient isNew
      exact writesOwn holds (.inserted inserts)

end Line

/-- The server waits for the commands of the line. -/
def Waited (line : Command) : Prop :=
  line.crossNum = 0 ∧ line.redir = false ∧ line.userOutId = 0

/-- Of the commands forked since then, none runs that the server waits for. -/
theorem mem_waitSince
    {line : Command}
    {count : Nat}
    {server : Server}
    {child : Child}
    (member : child ∈ (server.waitSince line count).children)
    (alive : child.alive = true) :
    child ∈ server.children.take count ∨
      ¬ Waited line ∧ child ∈ server.children.drop count := by
  unfold waitSince at member
  split_ifs at member with waits
  · rcases List.mem_append.mp member with isOld | isNew
    · exact Or.inl isOld
    · obtain ⟨old, _, rfl⟩ := List.mem_map.mp isNew
      cases alive
  · rw [← List.take_append_drop count server.children, List.mem_append] at member
    rcases member with isOld | isNew
    · exact Or.inl isOld
    · exact Or.inr ⟨waits, isNew⟩

section Commands

variable {server : Server}
variable {line : Command}
variable {outside : Outside}

theorem OnlyDirectedWrite.singleCmd
    (directed : server.OnlyDirectedWrite)
    (lineReady : server.LineReady)
    (known : server.KnownPipes)
    (notSelf : ¬ server.client.SelfPiped line)
    (notOthers : ¬ Waited line → ¬ server.OthersWaiting)
    (notSpared :
      ¬ Waited line →
      line.crossNum = 0 →
      ∀ slot : Nat, server.infor.Pending slot → outside.pos ≠ slot) :
    (server.singleCmd line outside).OnlyDirectedWrite := by
  have effect :=
    singleCmd_effect outside (lineReady.inputPipes line).inputOpen notSelf
  refine directed.of_effect lineReady known effect (Nat.le_refl _) ?_
  intro child member alive
  have running := mem_waitSince member alive
  rw [(silent_singleStore ..).children, singleConnected_children,
    List.take_left, List.drop_left, List.mem_singleton] at running
  rcases running with isOld | ⟨notWaited, rfl⟩
  · exact Or.inl isOld
  · exact Or.inr ⟨notOthers notWaited, fun holds own =>
      lineReady.singleOf_directed holds own (notSpared notWaited)⟩

theorem OnlyDirectedWrite.ordinaryPipe
    (directed : server.OnlyDirectedWrite)
    (lineReady : server.LineReady)
    (known : server.KnownPipes)
    (stages : 2 ≤ line.cmdNum)
    (notOthers : ¬ Waited line → ¬ server.OthersWaiting) :
    (server.ordinaryPipe line outside line.cmdNum).OnlyDirectedWrite := by
  unfold Server.ordinaryPipe
  split_ifs
  · exact directed.of_sameRecords (sameRecords_post ..)
  · have effect :=
      runPipeline_effect outside stages (lineReady.inputPipes line).inputOpen
    refine directed.of_effect lineReady known effect (Nat.le_add_right _ _) ?_
    intro child member alive
    have running := mem_waitSince member alive
    have forked := stageState_children line outside line.cmdNum server line.cmdNum
    change child ∈ (stageState line outside line.cmdNum server
        line.cmdNum).2.children.take _ ∨
      _ ∧ child ∈ (stageState line outside line.cmdNum server
        line.cmdNum).2.children.drop _ at running
    rw [forked, List.take_left, List.drop_left, List.mem_map] at running
    rcases running with isOld | ⟨notWaited, i, inRange, rfl⟩
    · exact Or.inl isOld
    · exact Or.inr ⟨notOthers notWaited, fun holds own =>
        lineReady.stageOf_directed stages (List.mem_range.mp inRange) holds own⟩

end Commands

/-! ## The command that reads the pipe -/

/--
The states in which the expired pipe is connected to the first command of a line
and the server has closed its own copies, up to the last fork of the line.
-/
inductive Connected
    (server : Server)
    (outside : Outside) :
    Input → Server → Prop where
  | single
      (line : Command) :
      Connected server outside (.single line)
        (singleConnected line outside server).2
  | stages
      {line : Command}
      {stages : 2 ≤ line.cmdNum}
      {count : Nat}
      (opens :
        ¬ (line.redir = true ∧ outside.opens (line.word line.cmdNum) = false))
      (isFirst : 1 ≤ count)
      (inRange : count ≤ line.cmdNum) :
      Connected server outside (.pipeline line stages)
        (stageState line outside line.cmdNum server count).2

section Reader

variable {server current : Server}
variable {line : Command}
variable {outside : Outside}

/-- The pipes of a child before it connects its streams are the server's. -/
theorem file_of_image
    {start table : DescriptorTable File}
    {closed : List Int}
    {first second third : File}
    (image : Image start table closed (some first) (some second) (some third))
    (notPipe :
      first.pipe? = none ∧ second.pipe? = none ∧ third.pipe? = none)
    {fd : Int}
    {pipe : Nat}
    (holds : table.file fd = some (.writeEnd pipe)) :
    start.file fd = some (.writeEnd pipe) := by
  by_cases isStandard : Standard fd
  · rcases isStandard.cases with rfl | rfl | rfl
    · rw [image.stdin] at holds
      cases holds
      cases notPipe.1
    · rw [image.stdout] at holds
      cases holds
      cases notPipe.2.1
    · rw [image.stderr] at holds
      cases holds
      cases notPipe.2.2
  · rw [image.sheds fd isStandard, Option.ite_none_left_eq_some] at holds
    exact holds.2

/-- The first command closes the write end of its input. -/
theorem drawsFrom_childInput_expired
    (expired : 0 ≤ current.infor.outputPoint)
    (table : DescriptorTable File) :
    DrawsFrom
      (table.close
        (current.infor.list current.infor.outputPoint.toNat).writeFd)
      (ranFds (childInput line outside current table)) := by
  rw [childInput, if_pos expired]
  exact ((DrawsFrom.refl _).dup2 _ _).close _

/-- A first command does not hold the write end of the expired pipe. -/
theorem LineReady.reader_not_writes
    (lineReady : server.LineReady)
    {extra : List (Int × File)}
    (frame : Frame server server.fds extra server.client current)
    {slot pipe : Nat}
    (expired : server.infor.outputPoint = slot)
    (isWrite :
      server.fds.file (server.infor.list slot).writeFd =
        some (.writeEnd pipe))
    {start table : DescriptorTable File}
    {closed : List Int}
    {first second third : File}
    (image :
      Image current.fds start closed (some first) (some second) (some third))
    (notPipe :
      first.pipe? = none ∧ second.pipe? = none ∧ third.pipe? = none)
    (draws :
      DrawsFrom (ranFds (childInput line outside current start)) table)
    (fd : Int) :
    table.file fd ≠ some (.writeEnd pipe) := by
  intro holds
  have sameInfor := (Underway.start server).infor_eq frame
  have isExpired : 0 ≤ current.infor.outputPoint := by
    rw [sameInfor, expired]
    exact Int.natCast_nonneg _
  have isSlot : current.infor.outputPoint.toNat = slot := by
    rw [sameInfor, expired]
    rfl
  obtain ⟨between, inInput⟩ := draws fd _ pipe holds rfl
  obtain ⟨other, otherOpen⟩ :=
    drawsFrom_childInput_expired isExpired start between _ pipe inInput rfl
  rw [isSlot, sameInfor, close_file, Function.update_apply,
    Option.ite_none_left_eq_some] at otherOpen
  have stillOpen := frame.fds.file_base isWrite
  have healthy :=
    (lineReady.forkReady (Underway.start server) frame).healthy
  exact otherOpen.1
    (healthy.unique (file_of_image image notPipe otherOpen.2) stillOpen rfl)

theorem LineReady.singleOf_not_writes
    (lineReady : server.LineReady)
    {slot pipe : Nat}
    (expired : server.infor.outputPoint = slot)
    (isWrite :
      server.fds.file (server.infor.list slot).writeFd =
        some (.writeEnd pipe))
    (fd : Int) :
    (singleOf line outside server).fds.file fd ≠ some (.writeEnd pipe) := by
  obtain ⟨pipes, _, frame⟩ := singleFork_frame line outside server
  have ready := lineReady.forkReady (Underway.start server) frame
  exact lineReady.reader_not_writes frame expired isWrite
    (ready.childStart_image _) ⟨rfl, rfl, rfl⟩
    (.singleChild line outside _ (.refl _)) fd

variable {cmdNum : Nat}

theorem LineReady.stageOf_not_writes
    (lineReady : server.LineReady)
    (stages : 2 ≤ cmdNum)
    {i : Nat}
    (inRange : i < cmdNum)
    {slot pipe : Nat}
    (expired : server.infor.outputPoint = slot)
    (isWrite :
      server.fds.file (server.infor.list slot).writeFd =
        some (.writeEnd pipe))
    (fd : Int) :
    (stageOf line outside cmdNum server i).fds.file fd ≠
      some (.writeEnd pipe) := by
  have isInput := expired_mem_inputFds expired line (Or.inr rfl)
  have inputOpen := (lineReady.inputPipes line).inputOpen
  cases i with
  | zero =>
      have frame := first_frame line cmdNum server
      have ready := lineReady.forkReady (Underway.start server) frame
      obtain ⟨connection, _, _, start⟩ :=
        ready.stageStart_image (pipelineVars outside).pos
      have draws :
          DrawsFrom
            (ranFds
              (childInput line outside (stageFork line outside cmdNum server 0).2
                (stageStart (stageFork line outside cmdNum server 0).1
                  (stageFork line outside cmdNum server 0).2)))
            (stageOf line outside cmdNum server 0).fds :=
        .stageChild line outside _ (fun notFirst => absurd rfl notFirst)
          fun _ => .refl _
      rw [stageFork_first line outside server stages] at draws
      exact lineReady.reader_not_writes frame expired isWrite start
        ⟨rfl, rfl, rfl⟩ draws fd
  | succ i =>
      -- the parent has closed the expired pipe before this fork
      have looping := inputOpen.looping outside inRange
      have gone (other : Int) :
          (stageFork line outside cmdNum server (i + 1)).2.fds.file other ≠
            some (.writeEnd pipe) := by
        by_cases isLast : i + 1 = cmdNum - 1
        · rw [stageFork_last line outside server isLast]
          obtain ⟨_, _, lastFork, _⟩ := looping.lastFork
          exact lineReady.input_gone lastFork.frame isInput isWrite other
        · rw [stageFork_middle line outside server isLast]
          exact lineReady.input_gone looping.pipe_frame isInput isWrite other
      intro holds
      obtain ⟨other, isOpen⟩ :=
        drawsFrom_stageChild line outside
          (stageFork line outside cmdNum server (i + 1)).2 cmdNum
          server.fds.lowestFree
          (stageFork line outside cmdNum server (i + 1)).1 (i + 1) fd _ pipe
          holds rfl
      exact gone other isOpen

/-- After the first stage the server has closed the expired pipe. -/
theorem LineReady.stageState_gone
    (lineReady : server.LineReady)
    (stages : 2 ≤ cmdNum)
    {count : Nat}
    (isFirst : 1 ≤ count)
    (inRange : count ≤ cmdNum)
    {slot pipe : Nat}
    (expired : server.infor.outputPoint = slot)
    (isWrite :
      server.fds.file (server.infor.list slot).writeFd =
        some (.writeEnd pipe))
    (fd : Int) :
    (stageState line outside cmdNum server count).2.fds.file fd ≠
      some (.writeEnd pipe) := by
  have isInput := expired_mem_inputFds expired line (Or.inr rfl)
  have inputOpen := (lineReady.inputPipes line).inputOpen
  by_cases isAll : count = cmdNum
  · obtain ⟨_, _, frame⟩ :=
      (runPipeline_effect outside stages inputOpen).takes
    have gone := lineReady.input_gone frame isInput isWrite fd
    have same :=
      sameTables_waitSince line server.children.length
        (stageState line outside cmdNum server cmdNum).2
    rw [isAll, ← same.fds]
    exact gone
  · obtain ⟨i, rfl⟩ : ∃ i, count = i + 1 := ⟨count - 1, by omega⟩
    have looping := inputOpen.looping outside (by omega : i + 1 < cmdNum)
    exact lineReady.input_gone looping.frame isInput isWrite fd

/-- No command of the line, nor the server, holds the write end of its input. -/
theorem LineReady.connected_writers
    (lineReady : server.LineReady)
    {input : Input}
    {moment : Server}
    (connected : Connected server outside input moment)
    {slot pipe : Nat}
    (expired : server.infor.outputPoint = slot)
    (isWrite :
      server.fds.file (server.infor.list slot).writeFd =
        some (.writeEnd pipe)) :
    (∀ fd, moment.fds.file fd ≠ some (.writeEnd pipe)) ∧
      ∀ child ∈ moment.children,
        child.Writes pipe → child ∈ server.children := by
  cases connected with
  | single line =>
      have isInput := expired_mem_inputFds expired line (Or.inr rfl)
      obtain ⟨_, _, frame⟩ :=
        singleConnected_frame outside (lineReady.inputPipes line).inputOpen
      refine ⟨lineReady.input_gone frame isInput isWrite, ?_⟩
      rintro child member ⟨_, fd, holds⟩
      rw [singleConnected_children, List.mem_append, List.mem_singleton]
        at member
      rcases member with isOld | rfl
      · exact isOld
      · exact absurd holds (lineReady.singleOf_not_writes expired isWrite fd)
  | @stages line stages count opens isFirst inRange =>
      refine ⟨lineReady.stageState_gone stages isFirst inRange expired isWrite,
        ?_⟩
      rintro child member ⟨_, fd, holds⟩
      rw [stageState_children, List.mem_append, List.mem_map] at member
      rcases member with isOld | ⟨i, isStage, rfl⟩
      · exact isOld
      · have beforeCount := List.mem_range.mp isStage
        exact absurd holds
          (lineReady.stageOf_not_writes stages (by omega) expired isWrite fd)

end Reader

/-! ## Runs -/

/--
The line leaves commands running that hold the write end of a waiting pipe they
were not directed into: one of another client, or the one in the block that
`single_cmd` spares because `pos` was not set.
-/
def Exposes
    (server : Server)
    (outside : Outside) :
    Input → Prop
  | .single line =>
      ¬ Waited line ∧
        (server.OthersWaiting ∨
          line.crossNum = 0 ∧
            ∃ slot : Nat, server.infor.Pending slot ∧ outside.pos = slot)
  | .pipeline line _ => ¬ Waited line ∧ server.OthersWaiting
  | _ => False

/-- The event is such a line. -/
def ExposesAt
    (server : Server) :
    ServerEvent → Prop
  | .input fd input outside =>
      ((server.enter fd).countDown).Exposes outside input
  | _ => False

section Runs

variable {server next : Server}

/-- The countdown leaves what still waits. -/
theorem OnlyDirectedWrite.countDown
    (directed : server.OnlyDirectedWrite)
    (settled : server.Settled)
    (state : (server.client.list server.client.id).state = true) :
    server.countDown.OnlyDirectedWrite := by
  refine directed.of_kept ?_ id fun member => ⟨_, member, id, rfl, rfl, rfl⟩
  intro c slot recorded
  have recordedBefore :=
    (ClientStructure.recordedOrExpired_countDown_iff state
      (settled.sound server.client.id) (.writeFd c slot)).mp
      (Or.inl recorded)
  exact ⟨recordedBefore, server.client.fd_countDown (.writeFd c slot)⟩

theorem OnlyDirectedWrite.dispatch
    (directed : server.OnlyDirectedWrite)
    (lineReady : server.LineReady)
    (known : server.KnownPipes)
    {input : Input}
    {outside : Outside}
    (notSelf : ¬ server.SelfPipes input)
    (notExposes : ¬ server.Exposes outside input) :
    (server.dispatch input outside).OnlyDirectedWrite := by
  cases input with
  | blank => exact directed
  | talk => exact directed
  | builtin => exact directed
  | name name => exact directed.of_sameRecords (sameRecords_cmdName server name)
  | single line =>
      refine directed.singleCmd lineReady known notSelf ?_ ?_
      · exact fun notWaited others => notExposes ⟨notWaited, Or.inl others⟩
      · exact fun notWaited noCross slot pending isPos =>
          notExposes ⟨notWaited, Or.inr ⟨noCross, slot, pending, isPos⟩⟩
  | pipeline line stages =>
      exact directed.ordinaryPipe lineReady known stages fun notWaited others =>
        notExposes ⟨notWaited, others⟩

theorem OnlyDirectedWrite.runShell
    (directed : server.OnlyDirectedWrite)
    (settled : server.Settled)
    (state : (server.client.list server.client.id).state = true)
    {input : Input}
    {outside : Outside}
    (notSelf : ¬ server.countDown.SelfPipes input)
    (notExposes : ¬ server.countDown.Exposes outside input) :
    (server.runShell input outside).OnlyDirectedWrite := by
  have counted := directed.countDown settled state
  have finished (other : Input)
      (otherNotSelf : ¬ server.countDown.SelfPipes other)
      (otherNotExposes : ¬ server.countDown.Exposes outside other) :
      (server.countDown.dispatch other outside).freeRecord.OnlyDirectedWrite :=
    (counted.dispatch (settled.lineReady state) (settled.countDown state).known
      otherNotSelf otherNotExposes).of_sameRecords (sameRecords_freeRecord _)
  cases input with
  | blank => exact directed
  | talk => exact counted
  | builtin => exact finished .builtin notSelf notExposes
  | name name => exact finished (.name name) notSelf notExposes
  | single line => exact finished (.single line) notSelf notExposes
  | pipeline line stages =>
      exact finished (.pipeline line stages) notSelf notExposes

theorem OnlyDirectedWrite.step
    {event : ServerEvent}
    (directed : server.OnlyDirectedWrite)
    (settled : server.Settled)
    (notSelf : ¬ server.SelfPipesAt event)
    (notExposes : ¬ server.ExposesAt event)
    (stepped : server.Steps event next) :
    next.OnlyDirectedWrite := by
  have entered (fd : Int) : (server.enter fd).OnlyDirectedWrite :=
    directed.of_sameRecords (sameRecords_enter server fd)
  cases stepped.moves with
  | login => exact directed.login
  | @input fd input outside connected =>
      obtain ⟨state, _⟩ := enter_of_connected connected
      exact (entered fd).runShell (settled.enter fd) state notSelf notExposes
  | @exit fd connected =>
      obtain ⟨state, _⟩ := enter_of_connected connected
      exact ((entered fd).countDown (settled.enter fd) state).logout rfl
  | @endOfFile fd _ _ => exact (entered fd).logout rfl
  | childExits index => exact directed.exitChild index

/-- No step of the run leaves a command with a pipe it was not directed into. -/
def NotExposed
    (server : Server)
    (event : ServerEvent) : Prop :=
  ¬ server.SelfPipesAt event ∧ ¬ server.ExposesAt event

/-- The writers of the waiting pipes in every state of such a run. -/
theorem onlyDirectedWrite_run
    {path : List (ServerEvent × Server)}
    (isPath : Path Steps initial path)
    (notExposed : EveryStep NotExposed initial path) :
    (lastState initial path).Settled ∧
      (lastState initial path).OnlyDirectedWrite := by
  have initially : initial.Settled ∧ initial.OnlyDirectedWrite := by
    refine ⟨settled_initial, ?_⟩
    intro c slot pipe child recorded
    exact absurd recorded (not_recorded_initial (.writeFd c slot))
  have everywhere :
      EveryState (fun server => server.Settled ∧ server.OnlyDirectedWrite)
        initial path := by
    refine isPath.everyState_of_everyStep ?_ initially notExposed
    rintro state event after ⟨settled, directed⟩ ⟨notSelf, notExposes⟩ stepped
    exact ⟨settled.step notSelf stepped,
      directed.step settled notSelf notExposes stepped⟩
  exact everywhere.last

end Runs

/--
In every run whose steps leave no command with a pipe it was not directed into:
when a numbered pipe is connected to the command that reads it, the server has no
write end of it, and every running process that has one is a command of the same
client that was directed into the pipe.
-/
theorem numberedPipe_writers
    {path : List (ServerEvent × Server)}
    (isPath : Path Steps initial path)
    (notExposed : EveryStep NotExposed initial path)
    {fd : Int}
    {input : Input}
    {outside : Outside}
    {next : Server}
    (stepped : (lastState initial path).Steps (.input fd input outside) next)
    {moment : Server}
    (connected :
      Connected ((lastState initial path).enter fd).countDown outside input
        moment)
    {slot pipe : Nat}
    (expired :
      ((lastState initial path).enter fd).countDown.infor.outputPoint = slot)
    (isRead :
      ((lastState initial path).enter fd).countDown.fds.file
          (((lastState initial path).enter fd).countDown.infor.list
            slot).readFd =
        some (.readEnd pipe)) :
    (∀ other, moment.fds.file other ≠ some (.writeEnd pipe)) ∧
      ∀ child ∈ moment.children,
        child.Writes pipe →
        child.DirectedInto ((lastState initial path).enter fd).client.id
          pipe := by
  obtain ⟨isConnected, _⟩ := steps_input stepped
  obtain ⟨state, _⟩ := enter_of_connected isConnected
  obtain ⟨settledBefore, directedBefore⟩ :=
    onlyDirectedWrite_run isPath notExposed
  have settled := settledBefore.enter fd
  have directed :=
    directedBefore.of_sameRecords (sameRecords_enter _ fd)
  generalize (lastState initial path).enter fd = server at *
  have lineReady := settled.lineReady state
  obtain ⟨samePipe, alsoRead, isWrite⟩ :=
    lineReady.block_of_inUse (Or.inr expired)
  cases isRead.symm.trans alsoRead
  obtain ⟨gone, started⟩ :=
    lineReady.connected_writers connected expired isWrite
  refine ⟨gone, ?_⟩
  intro child member writes
  -- the pipe still waited before the countdown of this line
  have wasRecorded :=
    (ClientStructure.recordedOrExpired_countDown_iff state
      (settled.sound server.client.id)
      (.writeFd server.client.id slot)).mp (Or.inr ⟨rfl, expired⟩)
  have sameFd :=
    server.client.fd_countDown (.writeFd server.client.id slot)
  refine directed server.client.id slot pipe child wasRecorded ?_
    (started child member writes) writes
  rw [← sameFd]
  exact isWrite

/-- The line `cat |1`. -/
def counting : Command where
  cmd := [["cat"]]
  cmdReserve := "cat |1"
  crossNum := 1
  redir := false
  userInId := 0
  userOutId := 0

/-- The line `cat`. -/
def reading : Command where
  cmd := [["cat"]]
  cmdReserve := "cat"
  crossNum := 0
  redir := false
  userInId := 0
  userOutId := 0

/-- The first client enters `cat |1`. -/
def countingPath : List (ServerEvent × Server) :=
  [(.login, initial.login),
    (.input 4 (.single counting) fillingOutside,
      (initial.login.enter 4).runShell (.single counting) fillingOutside)]

theorem path_countingPath : Path Steps initial countingPath :=
  ⟨Moves.steps (.login (by decide)), Moves.steps (.input rfl), trivial⟩

theorem countingPath_notExposed :
    EveryStep NotExposed initial countingPath := by
  refine ⟨⟨id, id⟩, ⟨?_, ?_⟩, trivial⟩
  · rintro ⟨noCross, _⟩
    cases noCross
  · rintro ⟨_, ⟨c, slot, other, waiting, _⟩ | ⟨noCross, _⟩⟩
    · have state :
          ((initial.login.client.setInfor initial.login.infor.countDownAndCheck).list
            c).state = true :=
        waiting
      have notFirst : c ≠ initial.main.minId := other
      rw [ClientStructure.setInfor_state, login_list, if_neg notFirst] at state
      cases state
    · cases noCross

/-- The first client then enters `cat`, which reads the pipe of its first line. -/
theorem reading_writers :
    ∃ moment,
      Connected ((lastState initial countingPath).enter 4).countDown
          fillingOutside (.single reading) moment ∧
        (∀ other, moment.fds.file other ≠ some (.writeEnd 0)) ∧
        ∀ child ∈ moment.children,
          child.Writes 0 →
          child.DirectedInto
            ((lastState initial countingPath).enter 4).client.id 0 := by
  have stepped :
      (lastState initial countingPath).Steps
        (.input 4 (.single reading) fillingOutside)
        (((lastState initial countingPath).enter 4).runShell (.single reading)
          fillingOutside) :=
    Moves.steps (.input (by decide +kernel))
  have expired :
      ((lastState initial countingPath).enter 4).countDown.infor.outputPoint =
        (0 : Nat) := by
    decide +kernel
  have isRead :
      ((lastState initial countingPath).enter 4).countDown.fds.file
          (((lastState initial countingPath).enter 4).countDown.infor.list
            0).readFd =
        some (.readEnd 0) := by
    decide +kernel
  exact ⟨_, .single reading,
    numberedPipe_writers path_countingPath countingPath_notExposed stepped
      (.single reading) expired isRead⟩

/-- Both clients enter `cat |1`. -/
def exposingPath : List (ServerEvent × Server) :=
  let connected := initial.login.login
  let first :=
    (connected.enter 4).runShell (.single counting) fillingOutside
  let second := (first.enter 5).runShell (.single counting) fillingOutside
  [(.login, initial.login), (.login, connected),
    (.input 4 (.single counting) fillingOutside, first),
    (.input 5 (.single counting) fillingOutside, second)]

theorem path_exposingPath : Path Steps initial exposingPath :=
  ⟨Moves.steps (.login (by decide)), Moves.steps (.login (by decide)),
    Moves.steps (.input (by decide +kernel)),
    Moves.steps (.input (by decide +kernel)), trivial⟩

/--
When the first client then enters `cat`, the command of the second client runs
and holds the write end of the pipe that is connected to it.
-/
theorem otherClient_writes :
    ∃ next child,
      Path Steps initial exposingPath ∧
        (lastState initial exposingPath).Steps
          (.input 4 (.single reading) fillingOutside) next ∧
        ((lastState initial exposingPath).enter 4).countDown.infor.outputPoint =
          (0 : Nat) ∧
        ((lastState initial exposingPath).enter 4).countDown.fds.file
            (((lastState initial exposingPath).enter 4).countDown.infor.list
              0).readFd =
          some (.readEnd 0) ∧
        child ∈
          (singleConnected reading fillingOutside
            ((lastState initial exposingPath).enter 4).countDown).2.children ∧
        child.Writes 0 ∧
        ¬ child.DirectedInto
          ((lastState initial exposingPath).enter 4).client.id 0 := by
  have stepped :
      (lastState initial exposingPath).Steps
        (.input 4 (.single reading) fillingOutside)
        (((lastState initial exposingPath).enter 4).runShell (.single reading)
          fillingOutside) :=
    Moves.steps (.input (by decide +kernel))
  have holds :
      ((singleConnected reading fillingOutside
          ((lastState initial exposingPath).enter 4).countDown).2.children[1]?).any
        (fun child =>
          child.alive && decide (child.fds.file 7 = some (.writeEnd 0)) &&
            decide (child.client ≠
              ((lastState initial exposingPath).enter 4).client.id)) =
        true := by
    decide +kernel
  obtain ⟨child, isChild, properties⟩ := (Option.any_eq_true ..).mp holds
  simp only [Bool.and_eq_true, decide_eq_true_eq] at properties
  obtain ⟨⟨alive, isWrite⟩, otherClient⟩ := properties
  exact ⟨_, child, path_exposingPath, stepped, by decide +kernel,
    by decide +kernel, List.mem_of_getElem? isChild, ⟨alive, 7, isWrite⟩,
    fun directed => otherClient directed.1⟩

end Server

end NpServers.Shell
