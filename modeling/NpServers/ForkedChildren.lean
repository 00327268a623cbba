import NpServers.ChildWiring

namespace NpServers.Shell

open CrossPipe DescriptorTable TransitionPath

/-!
# The forked children

Which children a line starts, and where their descriptors come from.  Pipes are
numbered in the order of their creation, so no descriptor of the server or of a
child refers to a pipe that is yet to be created, in every state of every run.
-/

namespace Server

/-! ## The children that a line starts -/

/-- The table that a child has when it calls `execvp` or exits. -/
def ranFds :
    Except (DescriptorTable File) (DescriptorTable File) →
      DescriptorTable File
  | .ok fds => fds
  | .error fds => fds

/-- The child that a fork starts. -/
def forkedChild
    (line : Command)
    (vars : Vars)
    (stage : Nat)
    (isLast : Bool)
    (ran : Except (DescriptorTable File) (DescriptorTable File))
    (server : Server) : Child where
  client := server.client.id
  stage := stage
  argv := line.cmd.getD stage []
  crossNum := line.crossNum
  pos := vars.pos
  inherited := server.fds
  directed :=
    if isLast ∧ line.crossNum ≠ 0 then
      server.pipeBehind vars.fd.writeFd
    else
      none
  fds := ranFds ran
  execs := ran.toBool
  alive := ran.toBool

theorem fork_children
    (line : Command)
    (vars : Vars)
    (stage : Nat)
    (isLast : Bool)
    (ran : Except (DescriptorTable File) (DescriptorTable File))
    (server : Server) :
    (server.fork line vars stage isLast ran).children =
      server.children ++ [forkedChild line vars stage isLast ran server] := by
  cases ran <;> rfl

/-- A child that calls `execvp` got through its code. -/
theorem forkedChild_ran
    {line : Command}
    {vars : Vars}
    {stage : Nat}
    {isLast : Bool}
    {ran : Except (DescriptorTable File) (DescriptorTable File)}
    (execs : (forkedChild line vars stage isLast ran server).execs = true) :
    ran = .ok (forkedChild line vars stage isLast ran server).fds := by
  cases ran with
  | error fds => cases execs
  | ok fds => rfl

theorem announce_children
    (server : Server)
    (line : Command) :
    (server.announce line).children = server.children := by
  have posts (notices : List Notice) :
      ∀ current : Server,
        (notices.foldl post current).children = current.children := by
    induction notices with
    | nil => exact fun _ => rfl
    | cons notice rest inductionHypothesis =>
        exact fun current => inductionHypothesis (current.post notice)
  exact posts _ server

/-- Nobody was forked and nothing was written. -/
structure Silent (before after : Server) : Prop where
  children : after.children = before.children
  sent : after.sent = before.sent

theorem silent_openOutput
    (line : Command)
    (vars : Vars)
    (server : Server) :
    Silent server (openOutput line vars server).2 := by
  unfold openOutput
  dsimp only
  split_ifs <;> exact ⟨rfl, rfl⟩

theorem silent_takeInput
    (line : Command)
    (server : Server) :
    Silent server (server.takeInput line) := by
  rw [takeInput_eq]
  exact ⟨rfl, rfl⟩

theorem silent_storeCross
    (line : Command)
    (vars : Vars)
    (server : Server) :
    Silent server (server.storeCross line vars) := by
  unfold storeCross
  split_ifs <;> exact ⟨rfl, rfl⟩

theorem silent_storeUserPipe
    (line : Command)
    (vars : Vars)
    (server : Server) :
    Silent server (server.storeUserPipe line vars) := by
  unfold storeUserPipe
  split_ifs <;> exact ⟨rfl, rfl⟩

theorem silent_singleStore
    (line : Command)
    (vars : Vars)
    (server : Server) :
    Silent server (server.singleStore line vars) := by
  unfold singleStore
  split_ifs
  · exact silent_storeCross ..
  · exact silent_storeUserPipe ..
  · exact ⟨rfl, rfl⟩

theorem silent_lastStore
    (line : Command)
    (fdRedir : Int)
    (vars : Vars)
    (server : Server) :
    Silent server (server.lastStore line fdRedir vars) := by
  unfold lastStore
  split_ifs
  · exact silent_storeCross ..
  · exact ⟨rfl, rfl⟩
  · exact silent_storeUserPipe ..
  · exact ⟨rfl, rfl⟩

section Children

variable (line : Command) (outside : Outside) (cmdNum : Nat)

/-- The state of the loop before stage `i`. -/
def stageState
    (server : Server)
    (i : Nat) : Vars × Server :=
  runStages line outside cmdNum server.fds.lowestFree
    (server.loopStart line cmdNum) i

/-- The state at the fork of stage `i`. -/
def stageFork
    (server : Server)
    (i : Nat) : Vars × Server :=
  stageOpened line cmdNum (stageState line outside cmdNum server i).1 i
    (stageState line outside cmdNum server i).2

/-- The first stage is forked with a new pipe. -/
theorem stageFork_first
    (server : Server)
    {cmdNum : Nat}
    (stages : 2 ≤ cmdNum) :
    stageFork line outside cmdNum server 0 =
      ({ pipelineVars outside with
          fd := (server.loopStart line cmdNum).pipeFds },
        (server.loopStart line cmdNum).pipe) :=
  stageOpened_of_not_last (by omega) _ _

/-- So is a middle one. -/
theorem stageFork_middle
    (server : Server)
    {cmdNum i : Nat}
    (notLast : i + 1 ≠ cmdNum - 1) :
    stageFork line outside cmdNum server (i + 1) =
      ({ (stageState line outside cmdNum server (i + 1)).1 with
          fd := (stageState line outside cmdNum server (i + 1)).2.pipeFds },
        (stageState line outside cmdNum server (i + 1)).2.pipe) :=
  stageOpened_of_not_last notLast _ _

/-- The last stage is forked once the output is open. -/
theorem stageFork_last
    (server : Server)
    {cmdNum i : Nat}
    (isLast : i + 1 = cmdNum - 1) :
    stageFork line outside cmdNum server (i + 1) =
      openOutput line (stageState line outside cmdNum server (i + 1)).1
        (stageState line outside cmdNum server (i + 1)).2 :=
  stageOpened_of_last isLast _ _

/-- The loop before a stage that is not the first. -/
theorem InputOpen.looping
    {server : Server}
    {line : Command}
    (inputOpen : server.InputOpen line)
    (outside : Outside)
    {cmdNum i : Nat}
    (inRange : i + 1 < cmdNum) :
    Looping line cmdNum server i
      (stageState line outside cmdNum server (i + 1)) :=
  looping_runStages outside server.fds.lowestFree inputOpen inRange

/-- The child of stage `i`. -/
def stageOf
    (server : Server)
    (i : Nat) : Child :=
  forkedChild line (stageFork line outside cmdNum server i).1 i
    (decide (i = cmdNum - 1))
    (stageChild line outside cmdNum server.fds.lowestFree
      (stageFork line outside cmdNum server i).1 i
      (stageFork line outside cmdNum server i).2)
    (stageFork line outside cmdNum server i).2

theorem silent_stageOpened
    (vars : Vars)
    (i : Nat)
    (current : Server) :
    Silent current (stageOpened line cmdNum vars i current).2 := by
  unfold stageOpened
  split_ifs
  · exact ⟨rfl, rfl⟩
  · exact silent_openOutput ..

/-- The loop forks the stages one after the other. -/
theorem stageState_children
    (server : Server)
    (count : Nat) :
    (stageState line outside cmdNum server count).2.children =
      server.children ++
        (List.range count).map (stageOf line outside cmdNum server) := by
  induction count with
  | zero =>
      rw [List.range_zero, List.map_nil, List.append_nil]
      refine (announce_children _ line).trans ?_
      unfold openRedir
      split_ifs <;> rfl
  | succ count inductionHypothesis =>
      have forked :
          (stageForked line outside cmdNum server.fds.lowestFree
              (stageState line outside cmdNum server count).1 count
              (stageState line outside cmdNum server count).2).2.children =
            server.children ++
              (List.range (count + 1)).map
                (stageOf line outside cmdNum server) := by
        unfold stageForked
        dsimp only
        rw [fork_children, (silent_stageOpened ..).children, inductionHypothesis,
          List.range_succ, List.map_append, List.append_assoc]
        rfl
      rw [stageState, runStages_succ]
      unfold runStage stageConnected
      dsimp only
      rw [← forked]
      split_ifs
      · exact (silent_takeInput ..).children
      · exact (silent_lastStore ..).children
      · rfl

end Children

/-- Waiting changes nothing but who is alive. -/
theorem waitSince_child
    (line : Command)
    (count k : Nat)
    (server : Server) :
    ∃ alive : Bool → Bool,
      (server.waitSince line count).children[k]? =
        (server.children[k]?).map fun child =>
          { child with alive := alive child.alive } := by
  unfold waitSince
  split_ifs with waits
  · dsimp only
    by_cases old : k < count
    · refine ⟨id, ?_⟩
      rw [List.getElem?_append]
      split_ifs with inside
      · rw [List.getElem?_take_of_lt old]
        simp
      · have short : server.children.length ≤ k := by
          rw [List.length_take] at inside
          omega
        rw [List.getElem?_eq_none short, List.getElem?_eq_none (by simp; omega)]
        rfl
    · refine ⟨fun _ => false, ?_⟩
      rw [List.getElem?_append_right (by rw [List.length_take]; omega),
        List.getElem?_map, List.getElem?_drop, List.length_take]
      by_cases short : server.children.length ≤ k
      · rw [List.getElem?_eq_none short, List.getElem?_eq_none (by omega)]
      · have isIndex :
            count + (k - min count server.children.length) = k := by
          omega
        rw [isIndex]
  · exact ⟨id, by simp⟩

theorem waitSince_length
    (line : Command)
    (count : Nat)
    (server : Server) :
    (server.waitSince line count).children.length =
      server.children.length := by
  unfold waitSince
  split_ifs
  · dsimp only
    rw [List.length_append, List.length_map, List.length_take,
      List.length_drop]
    omega
  · rfl

/-- The children after a pipeline are those before it and its stages. -/
theorem runPipeline_child
    (line : Command)
    (outside : Outside)
    (cmdNum k : Nat)
    (server : Server) :
    ∃ alive : Bool → Bool,
      (server.runPipeline line outside cmdNum).children[k]? =
        ((server.children ++
            (List.range cmdNum).map
              (stageOf line outside cmdNum server))[k]?).map
          fun child => { child with alive := alive child.alive } := by
  have forked := stageState_children line outside cmdNum server cmdNum
  rw [← forked]
  exact waitSince_child ..

/-! ## Where the descriptors of a child come from -/

/-- Every end of a pipe in the table is one of the source. -/
def DrawsFrom (source table : DescriptorTable File) : Prop :=
  ∀ fd file pipe,
    table.file fd = some file →
    file.pipe? = some pipe →
    ∃ other, source.file other = some file

theorem DrawsFrom.refl
    (table : DescriptorTable File) :
    DrawsFrom table table :=
  fun fd _ _ isOpen _ => ⟨fd, isOpen⟩

section Draws

variable {source table : DescriptorTable File}

theorem DrawsFrom.close
    (draws : DrawsFrom source table)
    (fd : Int) :
    DrawsFrom source (table.close fd) := by
  intro other file pipe isOpen isPipe
  rw [close_file] at isOpen
  by_cases here : other = fd
  · rw [here, Function.update_self] at isOpen
    cases isOpen
  · rw [Function.update_of_ne here] at isOpen
    exact draws other file pipe isOpen isPipe

theorem DrawsFrom.dup2
    (draws : DrawsFrom source table)
    (oldFd newFd : Int) :
    DrawsFrom source (table.dup2 oldFd newFd) := by
  intro other file pipe isOpen isPipe
  by_cases here : other = newFd
  · subst here
    rcases table.dup2_file_cases oldFd other with fromOld | stays
    · rw [fromOld] at isOpen
      exact draws oldFd file pipe isOpen isPipe
    · rw [stays] at isOpen
      exact draws other file pipe isOpen isPipe
  · rw [dup2_file_of_ne _ here] at isOpen
    exact draws other file pipe isOpen isPipe

theorem DrawsFrom.openFile
    (draws : DrawsFrom source table)
    {file : File}
    (notPipe : file.pipe? = none) :
    DrawsFrom source (table.openFile file) := by
  intro other found pipe isOpen isPipe
  rw [openFile_file] at isOpen
  by_cases here : other = table.lowestFree
  · rw [here, Function.update_self] at isOpen
    cases isOpen
    rw [notPipe] at isPipe
    cases isPipe
  · rw [Function.update_of_ne here] at isOpen
    exact draws other found pipe isOpen isPipe

theorem DrawsFrom.closeAll
    (draws : DrawsFrom source table)
    (fds : List Int) :
    DrawsFrom source (table.closeAll fds) := by
  intro other file pipe isOpen isPipe
  rw [closeAll_file] at isOpen
  split_ifs at isOpen
  exact draws other file pipe isOpen isPipe

/-- A part of a child that fails has the table it started with. -/
theorem DrawsFrom.redirectTo
    (draws : DrawsFrom source table)
    (path : String)
    (target : Int)
    (outside : Outside) :
    DrawsFrom source (ranFds (redirectTo path target outside table)) := by
  unfold Shell.redirectTo
  split_ifs
  · exact ((draws.openFile rfl).dup2 _ _).close _
  · exact draws

/-- The parts of a child one after the other. -/
theorem drawsFrom_bind
    {part : Except (DescriptorTable File) (DescriptorTable File)}
    {rest :
      DescriptorTable File →
        Except (DescriptorTable File) (DescriptorTable File)}
    (draws : DrawsFrom source (ranFds part))
    (continues :
      ∀ {between},
        DrawsFrom source between → DrawsFrom source (ranFds (rest between))) :
    DrawsFrom source (ranFds (part >>= rest)) := by
  cases part with
  | error fds => exact draws
  | ok fds => exact continues draws

theorem DrawsFrom.closeAndConnectFd
    (draws : DrawsFrom source table)
    (current first last : Nat)
    (fd : PipeFds)
    (exFd0 : Int)
    (side : Side) :
    DrawsFrom source
      (closeAndConnectFd current first last fd exFd0 side table) := by
  have writes : DrawsFrom source (connectWriteEnd fd side table) := by
    cases side with
    | child => exact ((draws.close _).dup2 _ _).close _
    | parent => exact draws.close _
  have reads {between : DescriptorTable File}
      (drawsBetween : DrawsFrom source between) :
      DrawsFrom source (connectReadEnd exFd0 side between) := by
    cases side with
    | child => exact (drawsBetween.dup2 _ _).close _
    | parent => exact drawsBetween.close _
  unfold Shell.closeAndConnectFd
  dsimp only
  split_ifs
  · exact reads writes
  · exact reads draws
  · exact writes
  · exact draws

variable (line : Command) (outside : Outside) (server : Server)

theorem drawsFrom_childStart
    (pos : Int) :
    DrawsFrom server.fds (server.childStart pos) := by
  rw [childStart_eq]
  exact (DrawsFrom.refl _).closeAll _

theorem DrawsFrom.childInput
    (draws : DrawsFrom source table) :
    DrawsFrom source (ranFds (childInput line outside server table)) := by
  unfold Server.childInput
  split_ifs
  · exact ((draws.close _).dup2 _ _).close _
  · exact (draws.dup2 _ _).close _
  · exact draws.redirectTo devNull stdin outside
  · exact draws.dup2 _ _

theorem DrawsFrom.childCross
    (draws : DrawsFrom source table)
    (fd : PipeFds) :
    DrawsFrom source (childCross line fd table) := by
  unfold Server.childCross
  dsimp only
  split_ifs
  · exact (draws.dup2 _ _).closeAndConnectFd 0 0 1 fd (-1) .child
  · exact draws.closeAndConnectFd 0 0 1 fd (-1) .child

theorem DrawsFrom.childUserOut
    (draws : DrawsFrom source table)
    (fd : PipeFds) :
    DrawsFrom source (ranFds (childUserOut line outside server fd table)) := by
  unfold Server.childUserOut
  split_ifs
  · exact draws.closeAndConnectFd 0 0 1 fd (-1) .child
  · exact draws.redirectTo devNull stdout outside

/-- The child of `single_cmd` has no end of a pipe that its input has not. -/
theorem DrawsFrom.singleChild
    {vars : Vars}
    (drawsInput :
      DrawsFrom source
        (ranFds
          (Server.childInput line outside server
            (server.childStart vars.pos)))) :
    DrawsFrom source (ranFds (singleChild line outside vars server)) := by
  unfold Server.singleChild
  refine drawsFrom_bind drawsInput ?_
  intro input drawsInput
  refine drawsFrom_bind ?_ ?_
  · unfold singleOutput
    split_ifs
    · exact drawsInput.childCross line vars.fd
    · exact drawsInput.redirectTo _ _ outside
    · exact drawsInput.childUserOut line outside server vars.fd
    · exact drawsInput.dup2 _ _
  · intro output drawsOutput
    dsimp only [pure, Except.pure, ranFds]
    split_ifs
    · exact drawsOutput.dup2 _ _
    · exact drawsOutput

/-- So it has none that the server has not. -/
theorem drawsFrom_singleChild
    (vars : Vars) :
    DrawsFrom server.fds
      (ranFds (singleChild line outside vars server)) :=
  .singleChild line outside server
    ((drawsFrom_childStart server vars.pos).childInput line outside server)

/-- The table of a stage after its first lines. -/
def stageStart
    (vars : Vars)
    (server : Server) : DescriptorTable File :=
  (server.childStart vars.pos).dup2 server.sockfd stderr

/-- A stage of `ordinary_pipe` has no end of a pipe that its start has not. -/
theorem DrawsFrom.stageChild
    {cmdNum : Nat}
    {fdRedir : Int}
    {vars : Vars}
    {i : Nat}
    (start : i ≠ 0 → DrawsFrom source (stageStart vars server))
    (input :
      i = 0 →
      DrawsFrom source
        (ranFds
          (Server.childInput line outside server (stageStart vars server)))) :
    DrawsFrom source
      (ranFds (stageChild line outside cmdNum fdRedir vars i server)) := by
  have finish {ended : DescriptorTable File}
      (drawsEnded : DrawsFrom source ended) :
      DrawsFrom source
        (Shell.closeAndConnectFd i 0 (cmdNum - 1) vars.fd vars.exFd0 .child
          (if line.redir then ended.close fdRedir else ended)) := by
    split_ifs
    · exact (drawsEnded.close _).closeAndConnectFd i 0 _ vars.fd vars.exFd0
        .child
    · exact drawsEnded.closeAndConnectFd i 0 _ vars.fd vars.exFd0 .child
  unfold Server.stageChild
  dsimp only
  by_cases isFirst : i = 0
  · rw [if_pos isFirst]
    exact drawsFrom_bind (input isFirst) finish
  · rw [if_neg isFirst]
    have drawsStart := start isFirst
    by_cases isLast : i = cmdNum - 1
    · rw [if_pos isLast]
      refine drawsFrom_bind ?_ finish
      unfold lastOutput
      split_ifs
      · exact drawsStart.childCross line vars.fd
      · exact drawsStart.dup2 _ _
      · exact drawsStart.childUserOut line outside server vars.fd
      · exact drawsStart.dup2 _ _
    · rw [if_neg isLast]
      exact finish drawsStart

/-- So it has none that the server has not. -/
theorem drawsFrom_stageChild
    (cmdNum : Nat)
    (fdRedir : Int)
    (vars : Vars)
    (i : Nat) :
    DrawsFrom server.fds
      (ranFds (stageChild line outside cmdNum fdRedir vars i server)) := by
  have start : DrawsFrom server.fds (stageStart vars server) :=
    (drawsFrom_childStart server vars.pos).dup2 server.sockfd stderr
  exact .stageChild line outside server (fun _ => start) fun _ =>
    start.childInput line outside server

end Draws

/-! ## Pipes are numbered in the order of their creation -/

/-- Every end of a pipe in the table has a number below the bound. -/
def PipesBelow
    (bound : Nat)
    (table : DescriptorTable File) : Prop :=
  ∀ fd file pipe,
    table.file fd = some file →
    file.pipe? = some pipe →
    pipe < bound

theorem PipesBelow.mono
    {bound larger : Nat}
    {table : DescriptorTable File}
    (below : PipesBelow bound table)
    (grows : bound ≤ larger) :
    PipesBelow larger table := by
  intro fd file pipe isOpen isPipe
  have := below fd file pipe isOpen isPipe
  omega

theorem PipesBelow.draws
    {bound : Nat}
    {source table : DescriptorTable File}
    (below : PipesBelow bound source)
    (draws : DrawsFrom source table) :
    PipesBelow bound table := by
  intro fd file pipe isOpen isPipe
  obtain ⟨other, otherOpen⟩ := draws fd file pipe isOpen isPipe
  exact below other file pipe otherOpen isPipe

/-- The child has nothing to do with pipes that are yet to be created. -/
structure ChildKnown
    (bound : Nat)
    (child : Child) : Prop where
  fds : PipesBelow bound child.fds
  inherited : PipesBelow bound child.inherited
  directed : ∀ {pipe}, child.directed = some pipe → pipe < bound

theorem ChildKnown.mono
    {bound larger : Nat}
    {child : Child}
    (known : ChildKnown bound child)
    (grows : bound ≤ larger) :
    ChildKnown larger child where
  fds := known.fds.mono grows
  inherited := known.inherited.mono grows
  directed := by
    intro pipe isDirected
    have := known.directed isDirected
    omega

/-- Neither has the server nor any child. -/
structure KnownPipes (server : Server) : Prop where
  table : PipesBelow server.nextPipe server.fds
  children : ∀ child ∈ server.children, ChildKnown server.nextPipe child

section Known

variable {before after server : Server}

/-- Operations that take no descriptors from elsewhere. -/
theorem KnownPipes.of_draws
    (known : before.KnownPipes)
    (draws : DrawsFrom before.fds after.fds)
    (sameNext : after.nextPipe = before.nextPipe)
    (sameChildren : after.children = before.children) :
    after.KnownPipes where
  table := by
    rw [sameNext]
    exact known.table.draws draws
  children := by
    rw [sameNext, sameChildren]
    exact known.children

theorem KnownPipes.announce
    (known : server.KnownPipes)
    (line : Command) :
    (server.announce line).KnownPipes := by
  have same := sameTables_announce server line
  refine known.of_draws ?_ same.nextPipe (announce_children server line)
  rw [same.fds]
  exact .refl _

theorem KnownPipes.pipe
    (known : server.KnownPipes) :
    server.pipe.KnownPipes where
  table := by
    intro fd file pipe isOpen isPipe
    change pipe < server.nextPipe + 1
    change ((server.fds.openFile (.readEnd server.nextPipe)).openFile
      (.writeEnd server.nextPipe)).file fd = some file at isOpen
    rw [openFile_file, openFile_file] at isOpen
    simp only [Function.update_apply] at isOpen
    split_ifs at isOpen
    · cases isOpen
      cases isPipe
      omega
    · cases isOpen
      cases isPipe
      omega
    · have := known.table fd file pipe isOpen isPipe
      omega
  children := fun child member =>
    (known.children child member).mono (Nat.le_succ _)

theorem KnownPipes.openOutput
    (known : server.KnownPipes)
    (line : Command)
    (vars : Vars) :
    (openOutput line vars server).2.KnownPipes := by
  unfold Server.openOutput
  dsimp only
  split_ifs
  · exact known.pipe
  · exact known
  · exact known.pipe
  · exact known

theorem KnownPipes.fork
    (known : server.KnownPipes)
    {ran : Except (DescriptorTable File) (DescriptorTable File)}
    (draws : DrawsFrom server.fds (ranFds ran))
    (line : Command)
    (vars : Vars)
    (stage : Nat)
    (isLast : Bool) :
    (server.fork line vars stage isLast ran).KnownPipes := by
  have same := sameTables_fork line vars stage isLast ran server
  refine ⟨?_, ?_⟩
  · rw [same.nextPipe, same.fds]
    exact known.table
  · rw [same.nextPipe, fork_children]
    intro child member
    rcases List.mem_append.mp member with isOld | isNew
    · exact known.children child isOld
    · rw [List.mem_singleton.mp isNew]
      refine ⟨known.table.draws draws, known.table, ?_⟩
      intro pipe isDirected
      simp only [forkedChild] at isDirected
      split_ifs at isDirected
      obtain ⟨file, isOpen, isPipe⟩ := Option.bind_eq_some_iff.mp isDirected
      exact known.table _ file pipe isOpen isPipe

theorem KnownPipes.takeInput
    (known : server.KnownPipes)
    (line : Command) :
    (server.takeInput line).KnownPipes := by
  refine known.of_draws ?_ (takeInput_nextPipe server)
    (silent_takeInput line server).children
  rw [takeInput_eq]
  exact (DrawsFrom.refl _).closeAll _

theorem KnownPipes.storeCross
    (known : server.KnownPipes)
    (line : Command)
    (vars : Vars) :
    (server.storeCross line vars).KnownPipes := by
  unfold Server.storeCross
  split_ifs
  · exact known.of_draws (.refl _) rfl rfl
  · exact known

theorem KnownPipes.storeUserPipe
    (known : server.KnownPipes)
    (line : Command)
    (vars : Vars) :
    (server.storeUserPipe line vars).KnownPipes := by
  unfold Server.storeUserPipe
  split_ifs
  · exact known.of_draws ((DrawsFrom.refl _).close _) rfl rfl
  · exact known

theorem KnownPipes.waitSince
    (known : server.KnownPipes)
    (line : Command)
    (count : Nat) :
    (server.waitSince line count).KnownPipes := by
  have same := sameTables_waitSince line count server
  refine ⟨?_, ?_⟩
  · rw [same.nextPipe, same.fds]
    exact known.table
  · rw [same.nextPipe]
    intro child member
    obtain ⟨k, isChild⟩ := List.getElem?_of_mem member
    obtain ⟨alive, isMapped⟩ := waitSince_child line count k server
    rw [isMapped, Option.map_eq_some_iff] at isChild
    obtain ⟨old, isOld, rfl⟩ := isChild
    have knownOld := known.children old (List.mem_of_getElem? isOld)
    exact ⟨knownOld.fds, knownOld.inherited, knownOld.directed⟩

theorem KnownPipes.singleCmd
    (known : server.KnownPipes)
    (line : Command)
    (outside : Outside) :
    (server.singleCmd line outside).KnownPipes := by
  have opened := (known.announce line).openOutput line (singleVars outside)
  have forked : (singleFork line outside server).2.KnownPipes :=
    opened.fork (drawsFrom_singleChild line outside _ _) line _ 0 true
  have connected := forked.takeInput line
  refine KnownPipes.waitSince ?_ line _
  unfold singleStore
  split_ifs
  · exact connected.storeCross line _
  · exact connected.storeUserPipe line _
  · exact connected

theorem KnownPipes.lastStore
    (known : server.KnownPipes)
    (line : Command)
    (fdRedir : Int)
    (vars : Vars) :
    (server.lastStore line fdRedir vars).KnownPipes := by
  unfold Server.lastStore
  split_ifs
  · exact known.storeCross line vars
  · exact known.of_draws ((DrawsFrom.refl _).close _) rfl rfl
  · exact known.storeUserPipe line vars
  · exact known

theorem KnownPipes.runStage
    {state : Vars × Server}
    (known : state.2.KnownPipes)
    (line : Command)
    (outside : Outside)
    (cmdNum : Nat)
    (fdRedir : Int)
    (i : Nat) :
    (runStage line outside cmdNum fdRedir state i).2.KnownPipes := by
  have opened :
      (stageOpened line cmdNum state.1 i state.2).2.KnownPipes := by
    unfold stageOpened
    split_ifs
    · exact known.pipe
    · exact known.openOutput line state.1
  have forked :
      (stageForked line outside cmdNum fdRedir state.1 i
        state.2).2.KnownPipes :=
    opened.fork (drawsFrom_stageChild line outside _ cmdNum fdRedir _ i) line
      _ i _
  have connected :
      (stageConnected line outside cmdNum fdRedir state.1 i
        state.2).2.KnownPipes := by
    unfold stageConnected
    dsimp only
    split_ifs
    · exact forked.takeInput line
    · exact forked.lastStore line fdRedir _
    · exact forked
  exact connected.of_draws
    ((DrawsFrom.refl _).closeAndConnectFd i 0 (cmdNum - 1) _ _ .parent) rfl rfl

theorem KnownPipes.runStages
    (known : server.KnownPipes)
    (line : Command)
    (outside : Outside)
    (cmdNum : Nat)
    (fdRedir : Int)
    (count : Nat) :
    (runStages line outside cmdNum fdRedir server count).2.KnownPipes := by
  induction count with
  | zero => exact known
  | succ count inductionHypothesis =>
      rw [runStages_succ]
      exact inductionHypothesis.runStage line outside cmdNum fdRedir count

theorem KnownPipes.ordinaryPipe
    (known : server.KnownPipes)
    (line : Command)
    (outside : Outside)
    (cmdNum : Nat) :
    (server.ordinaryPipe line outside cmdNum).KnownPipes := by
  unfold Server.ordinaryPipe
  split_ifs
  · exact known.of_draws (.refl _) rfl rfl
  · have started : (server.openRedir line cmdNum).KnownPipes := by
      unfold openRedir
      split_ifs
      · exact known.of_draws ((DrawsFrom.refl _).openFile rfl) rfl rfl
      · exact known
    exact ((started.announce line).runStages line outside cmdNum _
      cmdNum).waitSince line _

end Known

end Server

end NpServers.Shell
