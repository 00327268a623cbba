import NpServers.SingleWiring

namespace NpServers.Shell

open CrossPipe DescriptorTable TransitionPath

/-!
# Decisions about user pipes

For `<a` and `>b`, the message handler, the code before the fork, the child and
the parent each test the client table for themselves, and the parent changes it
in between.  The lemmas below say what each of them decides, so that the
messages, the pipe that is created, the streams of the commands and the table
afterwards can be compared.
-/

namespace Server

/-! ## Messages of a line -/

/-- What was written between two states. -/
def newNotices (before after : Server) : List Notice :=
  (after.sent.drop before.sent.length).map Message.notice

/-- Between two states, only children wrote that they cannot open a file. -/
def OnlyFailures (before after : Server) : Prop :=
  ∃ failures,
    after.sent = before.sent ++ failures ∧
      ∀ message ∈ failures, ∃ id, message.notice = .cannotOpen id

section Failures

variable {before between after : Server}

theorem OnlyFailures.of_sent
    (same : after.sent = before.sent) :
    OnlyFailures before after :=
  ⟨[], by rw [same, List.append_nil], by simp⟩

theorem OnlyFailures.trans
    (first : OnlyFailures before between)
    (second : OnlyFailures between after) :
    OnlyFailures before after := by
  obtain ⟨earlier, isEarlier, areEarlier⟩ := first
  obtain ⟨later, isLater, areLater⟩ := second
  refine ⟨earlier ++ later, ?_, ?_⟩
  · rw [isLater, isEarlier, List.append_assoc]
  · intro message member
    rcases List.mem_append.mp member with inEarlier | inLater
    · exact areEarlier message inEarlier
    · exact areLater message inLater

theorem onlyFailures_fork
    (line : Command)
    (vars : Vars)
    (stage : Nat)
    (isLast : Bool)
    (ran : Except (DescriptorTable File) (DescriptorTable File))
    (server : Server) :
    OnlyFailures server (server.fork line vars stage isLast ran) := by
  cases ran with
  | ok fds => exact .of_sent rfl
  | error fds =>
      refine ⟨_, rfl, ?_⟩
      intro message member
      rw [List.mem_singleton.mp member]
      exact ⟨_, rfl⟩

theorem waitSince_sent
    (line : Command)
    (count : Nat)
    (server : Server) :
    (server.waitSince line count).sent = server.sent := by
  unfold waitSince
  split_ifs <;> rfl

theorem onlyFailures_runStage
    (line : Command)
    (outside : Outside)
    (cmdNum : Nat)
    (fdRedir : Int)
    (state : Vars × Server)
    (i : Nat) :
    OnlyFailures state.2 (runStage line outside cmdNum fdRedir state i).2 := by
  have opened :=
    (silent_stageOpened line cmdNum state.1 i state.2).sent
  have forked :
      OnlyFailures state.2
        (stageForked line outside cmdNum fdRedir state.1 i state.2).2 :=
    (OnlyFailures.of_sent opened).trans (onlyFailures_fork ..)
  refine forked.trans (.of_sent ?_)
  change (stageConnected line outside cmdNum fdRedir state.1 i state.2).2.sent = _
  unfold stageConnected
  dsimp only
  split_ifs
  · exact (silent_takeInput line _).sent
  · exact (silent_lastStore line fdRedir _ _).sent
  · rfl

theorem onlyFailures_runStages
    (line : Command)
    (outside : Outside)
    (cmdNum : Nat)
    (fdRedir : Int)
    (server : Server)
    (count : Nat) :
    OnlyFailures server
      (runStages line outside cmdNum fdRedir server count).2 := by
  induction count with
  | zero => exact .of_sent rfl
  | succ count inductionHypothesis =>
      rw [runStages_succ]
      exact inductionHypothesis.trans (onlyFailures_runStage ..)

end Failures

/-- The messages of the handler. -/
theorem announce_notices
    (server : Server)
    (line : Command) :
    ∃ messages,
      (server.announce line).sent = server.sent ++ messages ∧
        messages.map Message.notice =
          server.client.printUserPipeMsgHandler line := by
  unfold announce
  generalize server.client.printUserPipeMsgHandler line = notices
  induction notices generalizing server with
  | nil => exact ⟨[], by simp, rfl⟩
  | cons notice rest inductionHypothesis =>
      obtain ⟨messages, areSent, sameNotices⟩ :=
        inductionHypothesis (server.post notice)
      refine ⟨{
          notice := notice
          text := notice.text server.client
          sockets := notice.sockets server.client } :: messages, ?_,
        congrArg (notice :: ·) sameNotices⟩
      rw [List.foldl_cons, areSent]
      exact List.append_assoc ..

/-- Other messages of a line than failures are those of the handler. -/
theorem OnlyFailures.mem_newNotices_iff
    {server after : Server}
    {line : Command}
    (failures : OnlyFailures (server.announce line) after)
    {notice : Notice}
    (notFailure : ∀ id, notice ≠ .cannotOpen id) :
    notice ∈ newNotices server after ↔
      notice ∈ server.client.printUserPipeMsgHandler line := by
  obtain ⟨later, isLater, areLater⟩ := failures
  obtain ⟨messages, areSent, sameNotices⟩ := server.announce_notices line
  have isNew :
      newNotices server after =
        server.client.printUserPipeMsgHandler line ++
          later.map Message.notice := by
    unfold newNotices
    rw [isLater, areSent, List.append_assoc, List.drop_left, List.map_append,
      sameNotices]
  rw [isNew, List.mem_append, or_iff_left]
  intro member
  obtain ⟨message, isMessage, rfl⟩ := List.mem_map.mp member
  obtain ⟨id, isFailure⟩ := areLater message isMessage
  exact notFailure id isFailure

theorem onlyFailures_singleCmd
    (line : Command)
    (outside : Outside)
    (server : Server) :
    OnlyFailures (server.announce line) (server.singleCmd line outside) := by
  have opened :
      OnlyFailures (server.announce line)
        (openOutput line (singleVars outside) (server.announce line)).2 :=
    .of_sent (silent_openOutput ..).sent
  have forked :
      OnlyFailures (server.announce line) (singleFork line outside server).2 :=
    opened.trans (onlyFailures_fork ..)
  refine forked.trans (.of_sent ?_)
  unfold singleCmd singleConnected
  dsimp only
  rw [waitSince_sent, (silent_singleStore ..).sent, (silent_takeInput ..).sent]

theorem onlyFailures_runPipeline
    {line : Command}
    (noFile : line.redir = false)
    (outside : Outside)
    (cmdNum : Nat)
    (server : Server) :
    OnlyFailures (server.announce line)
      (server.runPipeline line outside cmdNum) := by
  have noRedir : server.openRedir line cmdNum = server := by
    simp [openRedir, noFile]
  unfold runPipeline
  rw [noRedir]
  exact (onlyFailures_runStages ..).trans (.of_sent (waitSince_sent ..))

end Server

/-! ## What is announced -/

namespace ClientStructure

variable {client : ClientStructure}
variable {line : Command}

theorem piped_mem_handler_iff :
    .piped client.id line.userOutId line.cmdReserve ∈
        client.printUserPipeMsgHandler line ↔
      line.userOutId ≠ 0 ∧ client.userOutReady line.userOutId = true := by
  have notInput :
      client.userInNotice line ≠
        .piped client.id line.userOutId line.cmdReserve := by
    unfold userInNotice printUserPipeMsg
    split_ifs <;> simp_all
  have isOutput :
      client.userOutNotice line =
          .piped client.id line.userOutId line.cmdReserve ↔
        client.userOutReady line.userOutId = true := by
    unfold userOutNotice printUserPipeMsg
    split_ifs <;> simp_all
  unfold printUserPipeMsgHandler
  rw [List.mem_append, or_iff_right]
  · rw [List.mem_ite_nil_right, List.mem_singleton, eq_comm, isOutput]
  · rw [List.mem_ite_nil_right, List.mem_singleton, eq_comm]
    exact fun isInput => notInput isInput.2

theorem received_mem_handler_iff :
    .received client.id line.userInId line.cmdReserve ∈
        client.printUserPipeMsgHandler line ↔
      line.userInId ≠ 0 ∧ client.userInReady line.userInId = true := by
  have notOutput :
      client.userOutNotice line ≠
        .received client.id line.userInId line.cmdReserve := by
    unfold userOutNotice printUserPipeMsg
    split_ifs <;> simp_all
  have isInput :
      client.userInNotice line =
          .received client.id line.userInId line.cmdReserve ↔
        client.userInReady line.userInId = true := by
    unfold userInNotice printUserPipeMsg
    split_ifs <;> simp_all
  unfold printUserPipeMsgHandler
  rw [List.mem_append, or_iff_left]
  · rw [List.mem_ite_nil_right, List.mem_singleton, eq_comm, isInput]
  · rw [List.mem_ite_nil_right, List.mem_singleton, eq_comm]
    exact fun isOutput => notOutput isOutput.2

end ClientStructure

namespace Server

/-! ## Agreement -/

/-- The line has `<a` or `>b`, and nothing else selects its input or output. -/
structure OnlyUserPipes
    (server : Server)
    (line : Command) : Prop where
  given : line.userInId ≠ 0 ∨ line.userOutId ≠ 0
  noCross : line.crossNum = 0
  noFile : line.redir = false
  notExpiring : server.infor.outputPoint < 0

theorem OnlyUserPipes.oneDirective
    {server : Server}
    {line : Command}
    (only : server.OnlyUserPipes line) :
    OneDirective line := by
  refine ⟨fun cross => absurd only.noCross cross, ?_⟩
  intro file
  rw [only.noFile] at file
  cases file

/--
The decisions about the user pipes of a line agree.  Its commands are connected
by `inner` pipes, so the pipe of `>b` is the one with the number after these.
It is announced, the output of the last command, and registered with the other
client exactly if it is created.  The input is announced exactly if the first
command reads the pipe that existed, and this is not registered any more.
-/
@[mk_iff] structure UserPipesAgree
    (line : Command)
    (outside : Outside)
    (inner : Nat)
    (server after : Server) : Prop where
  count : after.children.length = server.children.length + inner + 1
  runs :
    outside.opens devNull = true →
    ∀ {i child},
      after.children[server.children.length + i]? = some child →
      child.execs = true
  piped :
    .piped server.client.id line.userOutId line.cmdReserve ∈
        newNotices server after ↔
      server.nextPipe + inner < after.nextPipe
  written :
    ∀ {child},
      after.children[server.children.length + inner]? = some child →
      child.execs = true →
      (child.fds.file stdout = some (.writeEnd (server.nextPipe + inner)) ↔
        server.nextPipe + inner < after.nextPipe)
  registered :
    after.fds.file
        ((after.client.list line.userOutId).userPipe server.client.id) =
        some (.readEnd (server.nextPipe + inner)) ↔
      server.nextPipe + inner < after.nextPipe
  received :
    ∀ {child},
      after.children[server.children.length]? = some child →
      child.execs = true →
      (.received server.client.id line.userInId line.cmdReserve ∈
          newNotices server after ↔
        ∃ pipe,
          server.fds.file (server.self.userPipe line.userInId) =
              some (.readEnd pipe) ∧
            child.fds.file stdin = some (.readEnd pipe) ∧
            ∀ receiver sender,
              after.fds.file ((after.client.list receiver).userPipe sender) ≠
                some (.readEnd pipe))

/-! ## The input -/

section Input

variable {server after : Server}
variable {line : Command}

/-- Once the input is taken, no descriptor of the server refers to it. -/
theorem LineReady.input_gone
    (lineReady : server.LineReady)
    {extra : List (Int × File)}
    {client : ClientStructure}
    (frame : Frame server (server.takenFds line) extra client after)
    {input : Int}
    (isInput : input ∈ server.inputFds line)
    {file : File}
    (isOpen : server.fds.file input = some file)
    (fd : Int) :
    after.fds.file fd ≠ some file := by
  intro stillOpen
  obtain ⟨found, pipe, foundOpen, isPipe⟩ :=
    (lineReady.inputPipes line).isPipe input isInput
  cases isOpen.symm.trans foundOpen
  rcases (frame.fds.file_iff fd file).mp stillOpen with isNew | isOld
  · have created := (frame.fresh isNew isPipe).1
    have known := lineReady.healthy.known isOpen isPipe
    omega
  · rw [takenFds, closeAll_file, Option.ite_none_left_eq_some] at isOld
    have same := lineReady.healthy.unique isOld.2 isOpen isPipe
    exact isOld.1 (same ▸ isInput)

/-- The test for `<a` decides what the first command reads. -/
theorem LineReady.userIn_iff
    (lineReady : server.LineReady)
    (only : server.OnlyUserPipes line)
    {table : DescriptorTable File}
    (isInput : table.file stdin = server.selectedInput line)
    (gone :
      ∀ {input file},
        input ∈ server.inputFds line →
        server.fds.file input = some file →
        ∀ fd, after.fds.file fd ≠ some file) :
    line.userInId ≠ 0 ∧ server.client.userInReady line.userInId = true ↔
      ∃ pipe,
        server.fds.file (server.self.userPipe line.userInId) =
            some (.readEnd pipe) ∧
          table.file stdin = some (.readEnd pipe) ∧
          ∀ receiver sender,
            after.fds.file ((after.client.list receiver).userPipe sender) ≠
              some (.readEnd pipe) := by
  have notExpired : ¬ 0 ≤ server.infor.outputPoint :=
    Int.not_le.mpr only.notExpiring
  rw [isInput, selectedInput, if_neg notExpired]
  constructor
  · rintro ⟨given, isReady⟩
    have isEntry : server.client.Recorded (.userPipe server.client.id line.userInId) := by
      simp only [ClientStructure.userInReady, Bool.and_eq_true,
        decide_eq_true_eq] at isReady
      exact isReady.2
    obtain ⟨pipe, isRead⟩ := lineReady.wired.user isEntry
    have entryOpen :
        server.fds.file (server.self.userPipe line.userInId) =
          some (.readEnd pipe) :=
      isRead
    have isInputFd :
        server.self.userPipe line.userInId ∈ server.inputFds line := by
      unfold inputFds
      rw [ClientStructure.inputPorts_of_given notExpired ⟨given, isReady⟩]
      exact List.mem_singleton_self _
    rw [if_pos given, if_pos isReady]
    exact ⟨pipe, entryOpen, entryOpen, fun _ _ => gone isInputFd entryOpen _⟩
  · rintro ⟨pipe, _, selected, _⟩
    split_ifs at selected with given isReady
    · exact ⟨given, isReady⟩
    · cases selected
    · obtain ⟨connection, isOpen⟩ :=
        lineReady.healthy.socket lineReady.inLine.state
      cases selected.symm.trans isOpen

end Input

/-! ## The output of a single command -/

section Output

variable {server after : Server}
variable {line : Command}

/--
What is written or registered with the number of the pipe for `>b` shows that
this pipe was created; the tables have to show the converse.
-/
theorem KnownPipes.output_iff
    (known : after.KnownPipes)
    {inner : Nat}
    {made : Prop}
    (created : server.nextPipe + inner < after.nextPipe ↔ made)
    (written :
      made →
      ∀ {child},
        after.children[server.children.length + inner]? = some child →
        child.execs = true →
        child.fds.file stdout = some (.writeEnd (server.nextPipe + inner)))
    (registered :
      made →
      after.fds.file
          ((after.client.list line.userOutId).userPipe server.client.id) =
        some (.readEnd (server.nextPipe + inner))) :
    (∀ {child},
        after.children[server.children.length + inner]? = some child →
        child.execs = true →
        (child.fds.file stdout = some (.writeEnd (server.nextPipe + inner)) ↔
          server.nextPipe + inner < after.nextPipe)) ∧
      (after.fds.file
          ((after.client.list line.userOutId).userPipe server.client.id) =
          some (.readEnd (server.nextPipe + inner)) ↔
        server.nextPipe + inner < after.nextPipe) := by
  refine ⟨?_, ?_, ?_⟩
  · intro child isChild execs
    refine ⟨fun isOutput => ?_, fun isNew =>
      written (created.mp isNew) isChild execs⟩
    have childKnown := known.children child (List.mem_of_getElem? isChild)
    exact childKnown.fds stdout _ _ isOutput rfl
  · exact fun isEntry => known.table _ _ _ isEntry rfl
  · exact fun isNew => registered (created.mp isNew)

theorem singleCmd_created_iff
    (noCross : line.crossNum = 0)
    (outside : Outside)
    (server : Server) :
    server.nextPipe + 0 < (server.singleCmd line outside).nextPipe ↔
      line.userOutId ≠ 0 ∧
        server.client.userOutReady line.userOutId = true := by
  have announced := sameTables_announce server line
  have sameNext :
      (server.singleCmd line outside).nextPipe =
        (openOutput line (singleVars outside) (server.announce line)).2.nextPipe := by
    refine (sameTables_waitSince ..).nextPipe.trans ?_
    have stored (vars : Vars) (current : Server) :
        (current.singleStore line vars).nextPipe = current.nextPipe := by
      unfold singleStore storeCross storeUserPipe
      split_ifs <;> rfl
    rw [stored]
    exact (takeInput_nextPipe _).trans (sameTables_fork ..).nextPipe
  rw [sameNext, openOutput, if_neg (by simpa using noCross), announced.client]
  split_ifs with ready
  · refine iff_of_true ?_ ready
    change server.nextPipe + 0 < (server.announce line).nextPipe + 1
    rw [announced.nextPipe]
    omega
  · refine iff_of_false ?_ ready
    rw [announced.nextPipe]
    omega

/-- A pipe that is free before the line is not the one it reads. -/
theorem not_selfPiped_of_ready
    {client : ClientStructure}
    (ready : client.userOutReady line.userOutId = true) :
    ¬ client.SelfPiped line := by
  rintro ⟨_, _, _, isOwn, _, isInput⟩
  rw [isOwn] at ready
  simp only [ClientStructure.userOutReady, ClientStructure.userInReady,
    Bool.and_eq_true, decide_eq_true_eq] at ready isInput
  omega

/-- A new user pipe is the output of the command. -/
theorem LineReady.singleOf_written
    (lineReady : server.LineReady)
    (only : server.OnlyUserPipes line)
    (outside : Outside)
    (made :
      line.userOutId ≠ 0 ∧ server.client.userOutReady line.userOutId = true)
    (execs : (singleOf line outside server).execs = true) :
    (singleOf line outside server).fds.file stdout =
      some (.writeEnd server.nextPipe) := by
  obtain ⟨pipes, opened, frame⟩ := singleFork_frame line outside server
  have isOutput :=
    (lineReady.single_streams (fun _ _ _ => only.noFile) frame opened
      (forkedChild_ran execs)).2
  refine isOutput.trans ?_
  rw [selectedOutput, if_neg (by simpa using only.noCross),
    if_neg (by simp [only.noFile]), if_pos made.1, frame.client_eq,
    if_pos made.2]
  cases opened with
  | numbered inserts => exact absurd only.noCross inserts.1
  | found slot cross => exact absurd only.noCross cross
  | nothing _ notReady => exact absurd made notReady
  | user _ _ _ _ isNew _ =>
      apply frame.fds.file_extra
      rw [isNew]
      exact List.mem_cons_of_mem _ List.mem_cons_self

/-- The only new child of a single command. -/
theorem singleCmd_new_child
    {outside : Outside}
    {i : Nat}
    {child : Child}
    (isChild :
      (server.singleCmd line outside).children[server.children.length + i]? =
        some child) :
    i = 0 ∧
      child.fds = (singleOf line outside server).fds ∧
      child.execs = (singleOf line outside server).execs := by
  obtain ⟨alive, isMapped⟩ :=
    singleCmd_child line outside (server.children.length + i) server
  rw [isMapped, Option.map_eq_some_iff] at isChild
  obtain ⟨old, isOld, rfl⟩ := isChild
  rw [List.getElem?_append_right (Nat.le_add_right _ _),
    Nat.add_sub_cancel_left, List.getElem?_singleton] at isOld
  split_ifs at isOld with isFirst
  cases isOld
  exact ⟨isFirst, rfl, rfl⟩

/-- The descriptors after a single command were open after its input was taken. -/
theorem file_of_singleCmd
    (noCross : line.crossNum = 0)
    {outside : Outside}
    {fd : Int}
    {file : File}
    (isOpen : (server.singleCmd line outside).fds.file fd = some file) :
    (singleConnected line outside server).2.fds.file fd = some file := by
  have same :=
    sameTables_waitSince line server.children.length
      ((singleConnected line outside server).2.singleStore line
        (singleConnected line outside server).1)
  have stored : ((singleConnected line outside server).2.singleStore line
      (singleConnected line outside server).1).fds.file fd = some file := by
    rw [← same.fds]
    exact isOpen
  rw [singleStore, if_neg (by simpa using noCross)] at stored
  unfold storeUserPipe at stored
  split_ifs at stored
  · change (DescriptorTable.close _ _).file fd = some file at stored
    rw [close_file, Function.update_apply, Option.ite_none_left_eq_some] at stored
    exact stored.2
  · exact stored
  · exact stored

/-- The decisions of `single_cmd` agree. -/
theorem LineReady.singleCmd_agree
    (lineReady : server.LineReady)
    (known : server.KnownPipes)
    (only : server.OnlyUserPipes line)
    (outside : Outside) :
    UserPipesAgree line outside 0 server (server.singleCmd line outside) := by
  have inputOpen := (lineReady.inputPipes line).inputOpen
  have created := singleCmd_created_iff only.noCross outside server
  obtain ⟨written, registered⟩ :=
    (known.singleCmd line outside).output_iff created
      (by
        intro made child isChild execs
        obtain ⟨_, sameFds, sameExecs⟩ := singleCmd_new_child isChild
        rw [sameFds]
        rw [sameExecs] at execs
        exact lineReady.singleOf_written only outside made execs)
      (by
        intro made
        have notSelf := not_selfPiped_of_ready made.2
        refine (singleCmd_effect outside inputOpen notSelf).user_registered
          only.oneDirective.not_competing only.noCross made.1 ?_
        rw [ClientStructure.userOutReady_takeInput only.noCross notSelf]
        exact made.2)
  refine ⟨?_, ?_, ?_, written, registered, ?_⟩
  · refine (waitSince_length ..).trans ?_
    rw [(silent_singleStore ..).children, singleConnected_children,
      List.length_append]
    rfl
  · intro opens i child isChild
    obtain ⟨_, _, sameExecs⟩ := singleCmd_new_child isChild
    rw [sameExecs]
    exact singleChild_ok line outside
      (fun file => by rw [only.noFile] at file; cases file) opens _ _
  · rw [(onlyFailures_singleCmd line outside server).mem_newNotices_iff
      (by simp), ClientStructure.piped_mem_handler_iff, created]
  · intro child isChild execs
    obtain ⟨_, sameFds, sameExecs⟩ := singleCmd_new_child (i := 0) isChild
    rw [sameExecs] at execs
    obtain ⟨pipes, opened, frame⟩ := singleFork_frame line outside server
    have isInput :=
      (lineReady.single_streams (fun _ _ _ => only.noFile) frame opened
        (forkedChild_ran execs)).1
    obtain ⟨_, _, taken⟩ := singleConnected_frame outside inputOpen
    rw [(onlyFailures_singleCmd line outside server).mem_newNotices_iff
      (by simp), ClientStructure.received_mem_handler_iff, sameFds]
    refine lineReady.userIn_iff only isInput ?_
    intro input file isInputFd isOpen fd stillOpen
    exact lineReady.input_gone taken isInputFd isOpen fd
      (file_of_singleCmd only.noCross stillOpen)

end Output

/-! ## The output of a pipeline -/

section Pipeline

variable {server : Server}
variable {line : Command}
variable {outside : Outside}
variable {cmdNum : Nat}

theorem lastStore_nextPipe
    (line : Command)
    (fdRedir : Int)
    (vars : Vars)
    (server : Server) :
    (server.lastStore line fdRedir vars).nextPipe = server.nextPipe := by
  unfold lastStore storeCross storeUserPipe
  split_ifs <;> rfl

theorem runPipeline_created_iff
    (noCross : line.crossNum = 0)
    (stages : 2 ≤ cmdNum)
    (outside : Outside)
    (inputOpen : server.InputOpen line) :
    server.nextPipe + (cmdNum - 1) <
        (server.runPipeline line outside cmdNum).nextPipe ↔
      line.userOutId ≠ 0 ∧
        (server.client.takeInput line).userOutReady line.userOutId = true := by
  obtain ⟨i, rfl⟩ : ∃ i, cmdNum = i + 2 := ⟨cmdNum - 2, by omega⟩
  have looping := inputOpen.looping outside (Nat.lt_succ_self (i + 1))
  have isLast : i + 1 = (i + 2) - 1 := by omega
  have forked :=
    sameTables_stageForked line (i + 2) outside server.fds.lowestFree
      (stageState line outside (i + 2) server (i + 1)).1 (i + 1)
      (stageState line outside (i + 2) server (i + 1)).2
  rw [stageOpened_of_last isLast] at forked
  have sameNext :
      (server.runPipeline line outside (i + 2)).nextPipe =
        (openOutput line (stageState line outside (i + 2) server (i + 1)).1
          (stageState line outside (i + 2) server (i + 1)).2).2.nextPipe := by
    refine (sameTables_waitSince ..).nextPipe.trans ?_
    rw [runStages_succ, ← forked.nextPipe]
    change (stageConnected ..).2.nextPipe = _
    rw [stageConnected_of_last _ _ _ isLast]
    exact lastStore_nextPipe ..
  rw [sameNext, openOutput, if_neg (by simpa using noCross),
    looping.frame.client_eq]
  split_ifs with ready
  · refine iff_of_true ?_ ready
    change _ < (stageState line outside (i + 2) server (i + 1)).2.nextPipe + 1
    rw [looping.nextPipe]
    omega
  · refine iff_of_false ?_ ready
    rw [looping.nextPipe]
    omega

theorem ordinaryPipe_of_noFile
    (noFile : line.redir = false)
    (outside : Outside)
    (cmdNum : Nat)
    (server : Server) :
    server.ordinaryPipe line outside cmdNum =
      server.runPipeline line outside cmdNum :=
  ordinaryPipe_of_opens fun file => by
    rw [noFile] at file
    cases file

/-- The new children of a pipeline are its stages. -/
theorem runPipeline_new_child
    {i : Nat}
    {child : Child}
    (isChild :
      (server.runPipeline line outside cmdNum).children[
        server.children.length + i]? = some child) :
    i < cmdNum ∧
      child.fds = (stageOf line outside cmdNum server i).fds ∧
      child.execs = (stageOf line outside cmdNum server i).execs := by
  obtain ⟨alive, isMapped⟩ :=
    runPipeline_child line outside cmdNum (server.children.length + i) server
  rw [isMapped, Option.map_eq_some_iff] at isChild
  obtain ⟨old, isOld, rfl⟩ := isChild
  rw [List.getElem?_append_right (Nat.le_add_right _ _),
    Nat.add_sub_cancel_left, List.getElem?_map, Option.map_eq_some_iff] at isOld
  obtain ⟨stage, isStage, rfl⟩ := isOld
  obtain ⟨inRange, isIndex⟩ := List.getElem?_eq_some_iff.mp isStage
  rw [List.getElem_range] at isIndex
  rw [List.length_range] at inRange
  rw [← isIndex]
  exact ⟨inRange, rfl, rfl⟩

/-- The effect of a line takes its input. -/
theorem Effect.takes
    {pipe : Nat}
    {after : Server}
    (effect : Effect line pipe server after) :
    ∃ extra client,
      Frame server (server.takenFds line) extra client after := by
  cases effect with
  | numbered fd kept inserts onlyCompeting frame => exact ⟨_, _, frame⟩
  | user fd noCross given ready frame => exact ⟨_, _, frame⟩
  | plain kept keeps notUser onlyCompeting frame => exact ⟨_, _, frame⟩

/--
The decisions of `ordinary_pipe` agree unless the message handler and the code
before the last fork find the entry of `>b` in different states.
-/
theorem LineReady.runPipeline_agree_iff
    (lineReady : server.LineReady)
    (known : server.KnownPipes)
    (only : server.OnlyUserPipes line)
    (stages : 2 ≤ cmdNum)
    (outside : Outside) :
    UserPipesAgree line outside (cmdNum - 1) server
        (server.runPipeline line outside cmdNum) ↔
      (line.userOutId ≠ 0 ∧
          server.client.userOutReady line.userOutId = true ↔
        line.userOutId ≠ 0 ∧
          (server.client.takeInput line).userOutReady line.userOutId =
            true) := by
  have inputOpen := (lineReady.inputPipes line).inputOpen
  have created := runPipeline_created_iff only.noCross stages outside inputOpen
  have effect := runPipeline_effect outside stages inputOpen
  have failures := onlyFailures_runPipeline only.noFile outside cmdNum server
  have piped :
      .piped server.client.id line.userOutId line.cmdReserve ∈
          newNotices server (server.runPipeline line outside cmdNum) ↔
        line.userOutId ≠ 0 ∧
          server.client.userOutReady line.userOutId = true := by
    rw [failures.mem_newNotices_iff (by simp),
      ClientStructure.piped_mem_handler_iff]
  have registers
      (made :
        line.userOutId ≠ 0 ∧
          (server.client.takeInput line).userOutReady line.userOutId = true) :=
    effect.user_registered only.oneDirective.not_competing only.noCross
      made.1 made.2
  obtain ⟨written, registered⟩ :=
    (ordinaryPipe_of_noFile only.noFile outside cmdNum server ▸
      known.ordinaryPipe line outside cmdNum).output_iff created
      (by
        intro made child isChild execs
        obtain ⟨inRange, sameFds, sameExecs⟩ := runPipeline_new_child isChild
        rw [sameExecs] at execs
        rw [sameFds]
        have streams :=
          lineReady.stageOf_streams stages only.oneDirective inRange execs
        obtain ⟨pipe, _, isRead, isWrite⟩ :=
          (streams.last (by omega)).user made.1 made.2
        cases (registers made).symm.trans isRead
        exact isWrite)
      registers
  rw [← piped, ← created]
  refine ⟨fun agree => agree.piped, fun agrees => ?_⟩
  refine ⟨?_, ?_, agrees, written, registered, ?_⟩
  · have forked := stageState_children line outside cmdNum server cmdNum
    refine (waitSince_length ..).trans ?_
    change (stageState line outside cmdNum server cmdNum).2.children.length = _
    rw [forked, List.length_append, List.length_map, List.length_range]
    omega
  · intro opens i child isChild
    obtain ⟨_, _, sameExecs⟩ := runPipeline_new_child isChild
    rw [sameExecs]
    exact stageChild_ok opens ..
  · intro child isChild execs
    obtain ⟨inRange, sameFds, sameExecs⟩ :=
      runPipeline_new_child (i := 0) isChild
    rw [sameExecs] at execs
    have streams :=
      lineReady.stageOf_streams stages only.oneDirective inRange execs
    obtain ⟨extra, client, taken⟩ := effect.takes
    rw [failures.mem_newNotices_iff (by simp),
      ClientStructure.received_mem_handler_iff, sameFds]
    exact lineReady.userIn_iff only (streams.first rfl) fun isInput isOpen =>
      lineReady.input_gone taken isInput isOpen

end Pipeline

/-! ## Lines of a run -/

/-- A self-piped line has no other directive than perhaps a file. -/
theorem onlyUserPipes_of_selfPiped
    {server : Server}
    {line : Command}
    (selfPiped : server.client.SelfPiped line)
    (noFile : line.redir = false) :
    server.OnlyUserPipes line where
  given := Or.inl selfPiped.2.2.2.2.1
  noCross := selfPiped.1
  noFile := noFile
  notExpiring := selfPiped.2.1

/-- The two tests for `>b` give different answers exactly on a self-piped line. -/
theorem userOutReady_agrees_iff
    {server : Server}
    {line : Command}
    (only : server.OnlyUserPipes line) :
    (line.userOutId ≠ 0 ∧ server.client.userOutReady line.userOutId = true ↔
        line.userOutId ≠ 0 ∧
          (server.client.takeInput line).userOutReady line.userOutId = true) ↔
      ¬ server.client.SelfPiped line := by
  constructor
  · intro agrees selfPiped
    have before := (agrees.mpr selfPiped.userOutReady).2
    exact not_selfPiped_of_ready before selfPiped
  · intro notSelf
    rw [ClientStructure.userOutReady_takeInput only.noCross notSelf]

theorem userPipesAgree_freeRecord_iff
    {line : Command}
    {outside : Outside}
    {inner : Nat}
    {server after : Server} :
    UserPipesAgree line outside inner server after.freeRecord ↔
      UserPipesAgree line outside inner server after := by
  have sameUserPipe (c : Nat) :
      (after.freeRecord.client.list c).userPipe =
        (after.client.list c).userPipe := by
    unfold freeRecord
    split_ifs
    · exact after.client.setInfor_userPipe _ c
    · rfl
  have sameOthers :
      after.freeRecord.children = after.children ∧
        after.freeRecord.sent = after.sent ∧
        after.freeRecord.nextPipe = after.nextPipe := by
    unfold freeRecord
    split_ifs <;> exact ⟨rfl, rfl, rfl⟩
  rw [userPipesAgree_iff, userPipesAgree_iff]
  simp only [newNotices, sameUserPipe, sameOthers, freeRecord_fds]

/-- The decisions of a line in a settled state. -/
theorem LineReady.dispatch_agree_iff
    {server : Server}
    (lineReady : server.LineReady)
    (known : server.KnownPipes)
    {line : Command}
    (only : server.OnlyUserPipes line)
    {input : Input}
    (isCommand : input.command? = some line)
    (outside : Outside) :
    UserPipesAgree line outside input.innerPipes server
        (server.dispatch input outside) ↔
      ¬ (input.innerPipes ≠ 0 ∧ server.client.SelfPiped line) := by
  cases input with
  | blank | talk | builtin | name => cases isCommand
  | single own =>
      cases isCommand
      refine iff_of_true (lineReady.singleCmd_agree known only outside) ?_
      rintro ⟨inner, _⟩
      exact inner rfl
  | pipeline own stages =>
      cases isCommand
      have isInner : line.cmdNum - 1 ≠ 0 := by omega
      change UserPipesAgree line outside (line.cmdNum - 1) server
          (server.ordinaryPipe line outside line.cmdNum) ↔
        ¬ (line.cmdNum - 1 ≠ 0 ∧ server.client.SelfPiped line)
      rw [ordinaryPipe_of_noFile only.noFile,
        lineReady.runPipeline_agree_iff known only stages outside,
        userOutReady_agrees_iff only, and_iff_right isInner]

/--
In every run without self-piped single commands, a line with user pipes only has
agreeing decisions exactly when it is not a pipeline that reads the pipe from its
client to itself and writes to the same one.
-/
theorem userPipes_agree_iff
    {path : List (ServerEvent × Server)}
    (isPath : Path Steps initial path)
    (notSelf :
      EveryStep (fun server event => ¬ server.SelfPipesAt event) initial path)
    {fd : Int}
    {input : Input}
    {outside : Outside}
    {next : Server}
    (stepped : (lastState initial path).Steps (.input fd input outside) next)
    {line : Command}
    (isCommand : input.command? = some line)
    (only :
      (((lastState initial path).enter fd).countDown).OnlyUserPipes line) :
    UserPipesAgree line outside input.innerPipes
        ((lastState initial path).enter fd).countDown next ↔
      ¬ (input.innerPipes ≠ 0 ∧
        (((lastState initial path).enter fd).countDown).client.SelfPiped
          line) := by
  obtain ⟨connected, rfl⟩ := steps_input stepped
  obtain ⟨state, _⟩ := enter_of_connected connected
  have settled := (settled_run isPath notSelf).enter fd
  rw [runShell_of_command isCommand, userPipesAgree_freeRecord_iff]
  exact (settled.lineReady state).dispatch_agree_iff
    (settled.countDown state).known only isCommand outside

/-- The line `cat >1`. -/
def sending : Command where
  cmd := [["cat"]]
  cmdReserve := "cat >1"
  crossNum := 0
  redir := false
  userInId := 0
  userOutId := 1

/-- The first client sends a pipe to itself. -/
theorem sending_agrees :
    ∃ next,
      (lastState initial loginPath).Steps
          (.input 4 (.single sending) fillingOutside) next ∧
        UserPipesAgree sending fillingOutside 0
          ((lastState initial loginPath).enter 4).countDown next := by
  have stepped :
      (lastState initial loginPath).Steps
        (.input 4 (.single sending) fillingOutside)
        ((initial.login.enter 4).runShell (.single sending) fillingOutside) :=
    Moves.steps (.input rfl)
  have only :
      (((lastState initial loginPath).enter 4).countDown).OnlyUserPipes sending :=
    ⟨Or.inr (by decide), rfl, rfl, by decide +kernel⟩
  refine ⟨_, stepped,
    (userPipes_agree_iff path_loginPath ⟨id, trivial⟩ stepped rfl only).mpr ?_⟩
  rintro ⟨inner, _⟩
  exact inner rfl

/-- The line `cat <1 | cat >1`. -/
def relaying : Command where
  cmd := [["cat"], ["cat"]]
  cmdReserve := "cat <1 | cat >1"
  crossNum := 0
  redir := false
  userInId := 1
  userOutId := 1

/-- The run in which the first client has sent a pipe to itself. -/
def sendingPath : List (ServerEvent × Server) :=
  [(.login, initial.login),
    (.input 4 (.single sending) fillingOutside,
      (initial.login.enter 4).runShell (.single sending) fillingOutside)]

theorem relaying_selfPiped :
    (((lastState initial sendingPath).enter 4).countDown).client.SelfPiped
      relaying := by
  decide +kernel

theorem path_sendingPath : Path Steps initial sendingPath :=
  ⟨Moves.steps (.login (by decide)), Moves.steps (.input rfl), trivial⟩

theorem sendingPath_notSelf :
    EveryStep (fun server event => ¬ server.SelfPipesAt event) initial
      sendingPath :=
  ⟨id, fun selfPiped => selfPiped.2.2.2.2.1 rfl, trivial⟩

/--
The first client reads its own pipe at the head of a pipeline and writes to it at
the end: a new pipe is created and registered, but not announced.
-/
theorem relaying_disagrees :
    ∃ next,
      Path Steps initial sendingPath ∧
        (lastState initial sendingPath).Steps
          (.input 4 (.pipeline relaying (by decide)) fillingOutside) next ∧
        (((lastState initial sendingPath).enter 4).countDown).OnlyUserPipes
          relaying ∧
        ¬ UserPipesAgree relaying fillingOutside 1
          ((lastState initial sendingPath).enter 4).countDown next := by
  have stepped :
      (lastState initial sendingPath).Steps
        (.input 4 (.pipeline relaying (by decide)) fillingOutside)
        (((lastState initial sendingPath).enter 4).runShell
          (.pipeline relaying (by decide)) fillingOutside) :=
    Moves.steps (.input (by decide +kernel))
  have selfPiped := relaying_selfPiped
  have only :
      (((lastState initial sendingPath).enter 4).countDown).OnlyUserPipes
        relaying :=
    onlyUserPipes_of_selfPiped selfPiped rfl
  refine ⟨_, path_sendingPath, stepped, only, ?_⟩
  have isCommand :
      (Input.pipeline relaying (by decide)).command? = some relaying :=
    rfl
  obtain ⟨connected, _⟩ := steps_input stepped
  obtain ⟨state, _⟩ := enter_of_connected connected
  have settled := (settled_run path_sendingPath sendingPath_notSelf).enter 4
  rw [runShell_of_command isCommand, userPipesAgree_freeRecord_iff]
  intro agree
  exact ((settled.lineReady state).dispatch_agree_iff
    (settled.countDown state).known only isCommand fillingOutside).mp agree
      ⟨by decide, selfPiped⟩

end Server

end NpServers.Shell
