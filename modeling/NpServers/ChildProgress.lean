import NpServers.StandardInputs
import NpServers.WaitOrder

namespace NpServers.Shell

open CrossPipe DescriptorTable TransitionPath WaitOrder

/-!
# The commands of all clients end

A command that reads a pipe sees the end of its input when nobody holds a write
end any more.  Commands may inherit write ends that they never use, also those
of other clients, and so they delay each other.  In every run they never do so
around a cycle: whoever holds the write end of a command's input was forked before
it, and the server itself holds none.
-/

namespace Server

/-- The tables of the children in the order of their forks. -/
def childTables (server : Server) : List (DescriptorTable File) :=
  server.children.map Child.fds

/-- The writer keeps no pipe open that the reader has as its input. -/
def NotFedBy (reader writer : DescriptorTable File) : Prop :=
  ∀ pipe, ReadsPipe reader pipe → ¬ HoldsWriteEnd writer pipe

/--
The input of a child is kept open neither by the server, nor by the child itself
or by a later one; a stored user pipe is not kept open by the server.
-/
structure InputsApart (server : Server) : Prop where
  parent : ∀ table ∈ server.childTables, NotFedBy table server.fds
  own : ∀ table ∈ server.childTables, NotFedBy table table
  later : server.childTables.Pairwise NotFedBy
  stored :
    ∀ {receiver sender pipe},
      server.client.Recorded (.userPipe receiver sender) →
      server.fds.file (Port.fd server.client (.userPipe receiver sender)) =
        some (.readEnd pipe) →
      ¬ HoldsWriteEnd server.fds pipe

/-! ## Events that start no command -/

section Kept

variable {before after server : Server}

theorem InputsApart.of_kept
    (apart : before.InputsApart)
    (sameTables : after.childTables = before.childTables)
    (heldBefore :
      ∀ {pipe},
        HoldsWriteEnd after.fds pipe →
        HoldsWriteEnd before.fds pipe)
    (storedBefore :
      ∀ {receiver sender pipe},
        after.client.Recorded (.userPipe receiver sender) →
        after.fds.file (Port.fd after.client (.userPipe receiver sender)) =
          some (.readEnd pipe) →
        before.client.Recorded (.userPipe receiver sender) ∧
          before.fds.file
              (Port.fd before.client (.userPipe receiver sender)) =
            some (.readEnd pipe)) :
    after.InputsApart where
  parent := by
    rw [sameTables]
    exact fun table member pipe reads holds =>
      apart.parent table member pipe reads (heldBefore holds)
  own := by
    rw [sameTables]
    exact apart.own
  later := by
    rw [sameTables]
    exact apart.later
  stored := by
    intro receiver sender pipe recorded isRead holds
    obtain ⟨wasRecorded, wasRead⟩ := storedBefore recorded isRead
    exact apart.stored wasRecorded wasRead (heldBefore holds)

theorem InputsApart.of_sameRecords
    (apart : before.InputsApart)
    (same : SameRecords after before) :
    after.InputsApart := by
  refine apart.of_kept ?_ ?_ ?_
  · unfold childTables
    rw [same.children]
  · rw [same.fds]
    exact id
  · intro receiver sender pipe recorded isRead
    have sameRow := same.userPipe receiver
    have sameFd :
        Port.fd after.client (.userPipe receiver sender) =
          Port.fd before.client (.userPipe receiver sender) :=
      congrFun sameRow sender
    refine ⟨?_, ?_⟩
    · change 0 ≤ (after.client.list receiver).userPipe sender at recorded
      rw [sameRow] at recorded
      exact recorded
    · rwa [sameFd, same.fds] at isRead

theorem InputsApart.login
    (apart : server.InputsApart) :
    server.login.InputsApart := by
  refine apart.of_kept rfl ?_ ?_
  · rintro pipe ⟨fd, isWrite⟩
    exact ⟨fd, file_of_login isWrite rfl⟩
  · intro receiver sender pipe recorded isRead
    obtain ⟨wasRecorded, sameFd⟩ := recorded_of_login recorded
    rw [sameFd] at isRead
    exact ⟨wasRecorded, file_of_login isRead rfl⟩

theorem InputsApart.logout
    (apart : server.InputsApart)
    {fd : Int}
    (isId : (server.main.fdIdList fd).toNat = server.client.id) :
    (server.logout fd).InputsApart := by
  refine apart.of_kept rfl ?_ ?_
  · rintro pipe ⟨other, isWrite⟩
    exact ⟨other, file_of_logout isWrite⟩
  · intro receiver sender pipe recorded isRead
    obtain ⟨wasRecorded, sameFd, _⟩ := recorded_of_logout isId recorded
    rw [sameFd] at isRead
    exact ⟨wasRecorded, file_of_logout isRead⟩

theorem childTables_exitChild
    (server : Server)
    (index : Nat) :
    (server.exitChild index).childTables = server.childTables := by
  unfold childTables exitChild
  dsimp only
  apply List.ext_getElem?
  intro k
  rw [List.getElem?_map, List.getElem?_map, List.getElem?_modify]
  cases server.children[k]? with
  | none => rfl
  | some child =>
      by_cases here : index = k
      · simp [here]
      · simp [here]

theorem InputsApart.exitChild
    (apart : server.InputsApart)
    (index : Nat) :
    (server.exitChild index).InputsApart :=
  apart.of_kept (childTables_exitChild server index) id
    fun recorded isRead => ⟨recorded, isRead⟩

theorem InputsApart.countDown
    (apart : server.InputsApart) :
    server.countDown.InputsApart := by
  refine apart.of_kept rfl id ?_
  intro receiver sender pipe recorded isRead
  have sameRow :
      (server.countDown.client.list receiver).userPipe =
        (server.client.list receiver).userPipe :=
    server.client.setInfor_userPipe _ receiver
  have sameFd :
      Port.fd server.countDown.client (.userPipe receiver sender) =
        Port.fd server.client (.userPipe receiver sender) :=
    congrFun sameRow sender
  refine ⟨?_, ?_⟩
  · change 0 ≤ (server.countDown.client.list receiver).userPipe sender
      at recorded
    rw [sameRow] at recorded
    exact recorded
  · rwa [sameFd] at isRead

end Kept

/-! ## A line that starts commands -/

section Line

variable {server after : Server}
variable {line : Command}
variable {outside : Outside}
variable {pipe : Nat}

/-- Nobody holds a pipe that is still to be created. -/
theorem KnownPipes.lt_of_holds
    (known : server.KnownPipes)
    (holds : HoldsWriteEnd server.fds pipe) :
    pipe < server.nextPipe := by
  obtain ⟨fd, isWrite⟩ := holds
  exact known.table fd _ pipe isWrite rfl

theorem KnownPipes.lt_of_reads
    (known : server.KnownPipes)
    {table : DescriptorTable File}
    (member : table ∈ server.childTables)
    (reads : ReadsPipe table pipe) :
    pipe < server.nextPipe := by
  obtain ⟨child, isChild, rfl⟩ := List.mem_map.mp member
  exact (known.children child isChild).fds stdin _ pipe reads rfl

/-- New children after the old ones. -/
theorem InputsApart.extend
    (apart : server.InputsApart)
    (known : server.KnownPipes)
    {fresh : List (DescriptorTable File)}
    (tables : after.childTables = server.childTables ++ fresh)
    (heldBefore :
      ∀ {pipe},
        pipe < server.nextPipe →
        HoldsWriteEnd after.fds pipe →
        HoldsWriteEnd server.fds pipe)
    (freshHolds :
      ∀ {table pipe},
        table ∈ fresh →
        pipe < server.nextPipe →
        HoldsWriteEnd table pipe →
        HoldsWriteEnd server.fds pipe)
    (freshParent : ∀ table ∈ fresh, NotFedBy table after.fds)
    (freshOwn : ∀ table ∈ fresh, NotFedBy table table)
    (freshLater : fresh.Pairwise NotFedBy)
    (stored :
      ∀ {receiver sender pipe},
        after.client.Recorded (.userPipe receiver sender) →
        after.fds.file (Port.fd after.client (.userPipe receiver sender)) =
          some (.readEnd pipe) →
        ¬ HoldsWriteEnd after.fds pipe) :
    after.InputsApart where
  parent := by
    rw [tables]
    intro table member
    rcases List.mem_append.mp member with isOld | isFresh
    · intro pipe reads holds
      exact apart.parent table isOld pipe reads
        (heldBefore (known.lt_of_reads isOld reads) holds)
    · exact freshParent table isFresh
  own := by
    rw [tables]
    intro table member
    rcases List.mem_append.mp member with isOld | isFresh
    · exact apart.own table isOld
    · exact freshOwn table isFresh
  later := by
    rw [tables]
    refine List.pairwise_append.mpr ⟨apart.later, freshLater, ?_⟩
    intro old isOld table isFresh pipe reads holds
    exact apart.parent old isOld pipe reads
      (freshHolds isFresh (known.lt_of_reads isOld reads) holds)
  stored := stored

/-- The selected input is an expired pipe, or nobody here holds its write end. -/
theorem InputsApart.selected
    (apart : server.InputsApart)
    (lineReady : server.LineReady)
    (selected : server.selectedInput line = some (.readEnd pipe)) :
    (∃ slot : Nat,
        server.infor.outputPoint = slot ∧
          server.fds.file (server.infor.list slot).writeFd =
            some (.writeEnd pipe)) ∨
      ¬ HoldsWriteEnd server.fds pipe := by
  unfold selectedInput at selected
  split_ifs at selected with expired given isReady
  · left
    have isSlot := (Int.toNat_of_nonneg expired).symm
    obtain ⟨number, isRead, isWrite⟩ :=
      lineReady.block_of_inUse (Or.inr isSlot)
    cases selected.symm.trans isRead
    exact ⟨_, isSlot, isWrite⟩
  · right
    have recorded :
        server.client.Recorded (.userPipe server.client.id line.userInId) := by
      simp only [ClientStructure.userInReady, Bool.and_eq_true,
        decide_eq_true_eq] at isReady
      exact isReady.2
    exact apart.stored recorded selected
  · cases selected
  · obtain ⟨connection, isOpen⟩ :=
      lineReady.healthy.socket lineReady.inLine.state
    cases selected.symm.trans isOpen

/-- A line leaves no write end open that was not open before or is new. -/
theorem Effect.heldBefore
    {number : Nat}
    (effect : Effect line number server after)
    (old : pipe < server.nextPipe)
    (holds : HoldsWriteEnd after.fds pipe) :
    HoldsWriteEnd server.fds pipe := by
  obtain ⟨extra, client, frame⟩ := effect.takes
  obtain ⟨fd, isWrite⟩ := holds
  rcases (frame.fds.file_iff fd _).mp isWrite with isNew | isOld
  · have created := (frame.fresh isNew rfl).1
    omega
  · exact ((DrawsFrom.refl _).closeAll (server.inputFds line)).holds
      ⟨fd, isOld⟩

/-- A stored user pipe that the line has not issued is as it was. -/
theorem LineReady.stored_of_turnover
    (lineReady : server.LineReady)
    {extra : List (Int × File)}
    {client : ClientStructure}
    (frame : Frame server (server.takenFds line) extra client after)
    {issued : List Port}
    (turnover :
      Ledger.Turnover server.client.lineLedger client.ledger
        (server.client.inputPorts line) issued)
    {receiver sender : Nat}
    (notIssued : Port.userPipe receiver sender ∉ issued)
    (recorded : client.Recorded (.userPipe receiver sender))
    (isRead :
      after.fds.file (Port.fd client (.userPipe receiver sender)) =
        some (.readEnd pipe)) :
    server.client.Recorded (.userPipe receiver sender) ∧
      server.fds.file (Port.fd server.client (.userPipe receiver sender)) =
        some (.readEnd pipe) := by
  rcases (turnover.held_iff (.userPipe receiver sender)).mp recorded with
      isIssued | ⟨wasHeld, kept, _⟩
  · exact absurd isIssued notIssued
  · have sameFd := turnover.name_eq _ wasHeld kept notIssued
    have isHeld :
        server.client.RecordedOrExpired (.userPipe receiver sender) :=
      wasHeld
    refine ⟨wasHeld, ?_⟩
    rw [← lineReady.file_of_kept frame isHeld kept]
    exact (congrArg after.fds.file sameFd).symm.trans isRead

/-- The stored user pipes after a line. -/
theorem InputsApart.stored_of_effect
    (apart : server.InputsApart)
    (lineReady : server.LineReady)
    (known : server.KnownPipes)
    {number : Nat}
    (effect : Effect line number server after)
    {receiver sender : Nat}
    (recorded : after.client.Recorded (.userPipe receiver sender))
    (isRead :
      after.fds.file (Port.fd after.client (.userPipe receiver sender)) =
        some (.readEnd pipe)) :
    ¬ HoldsWriteEnd after.fds pipe := by
  intro holds
  -- an entry from before the line has a pipe from before the line
  have old
      (was :
        server.client.Recorded (.userPipe receiver sender) ∧
          server.fds.file (Port.fd server.client (.userPipe receiver sender)) =
            some (.readEnd pipe)) :
      False := by
    have below := known.table _ _ pipe was.2 rfl
    exact apart.stored was.1 was.2 (effect.heldBefore below holds)
  cases effect with
  | numbered fd kept inserts onlyCompeting frame =>
      rw [frame.client_eq] at recorded isRead
      have turnover :=
        lineReady.turnover_numbered inserts.1 List.mem_cons_self
          (List.mem_cons_of_mem _ List.mem_cons_self) frame
      have notIssued :
          Port.userPipe receiver sender ∉ server.client.inputPointPorts := by
        simp [ClientStructure.inputPointPorts]
      exact old
        (lineReady.stored_of_turnover frame turnover notIssued recorded isRead)
  | user fd noCross given ready frame =>
      rw [frame.client_eq] at recorded isRead
      have turnover := lineReady.turnover_user List.mem_cons_self frame
      by_cases isIssued :
          Port.userPipe receiver sender ∈
            [Port.userPipe line.userOutId server.client.id]
      · -- the new pipe has no write end in the server
        obtain ⟨rfl, rfl⟩ :
            receiver = line.userOutId ∧ sender = server.client.id := by
          simpa using isIssued
        have isFd :
            Port.fd
                ((server.client.takeInput line).setUserPipe line.userOutId
                  server.client.id fd)
                (.userPipe line.userOutId server.client.id) = fd := by
          simp [Port.fd, ClientStructure.setUserPipe_userPipe]
        rw [isFd, frame.fds.file_extra List.mem_cons_self] at isRead
        cases isRead
        obtain ⟨other, isWrite⟩ := holds
        rcases (frame.fds.file_iff other _).mp isWrite with isNew | isOld
        · cases List.mem_singleton.mp isNew
        · have created := (frame.fresh List.mem_cons_self rfl).1
          have below := known.lt_of_holds
            (((DrawsFrom.refl _).closeAll (server.inputFds line)).holds
              ⟨other, isOld⟩)
          omega
      · exact old
          (lineReady.stored_of_turnover frame turnover isIssued recorded isRead)
  | plain kept keeps notUser onlyCompeting frame =>
      rw [frame.client_eq] at recorded isRead
      have turnover := lineReady.inLine.turnover_plain line
      exact old
        (lineReady.stored_of_turnover frame turnover (by simp) recorded isRead)

theorem childTables_waitSince
    (line : Command)
    (count : Nat)
    (server : Server) :
    (server.waitSince line count).childTables = server.childTables := by
  unfold childTables
  apply List.ext_getElem?
  intro k
  obtain ⟨alive, isChild⟩ := waitSince_child line count k server
  rw [List.getElem?_map, List.getElem?_map, isChild]
  cases server.children[k]? <;> rfl

/-! ## The commands of a line -/

/-- The command of `single_cmd` reads nothing that stays open. -/
theorem InputsApart.singleCmd
    (apart : server.InputsApart)
    (lineReady : server.LineReady)
    (known : server.KnownPipes)
    (notSelf : ¬ server.client.SelfPiped line) :
    (server.singleCmd line outside).InputsApart := by
  have effect :=
    singleCmd_effect outside (lineReady.inputPipes line).inputOpen notSelf
  have tables :
      (server.singleCmd line outside).childTables =
        server.childTables ++ [(singleOf line outside server).fds] := by
    unfold Server.singleCmd
    dsimp only
    rw [childTables_waitSince]
    unfold childTables
    rw [(silent_singleStore ..).children, singleConnected_children,
      List.map_append]
    rfl
  have own :
      NotFedBy (singleOf line outside server).fds
        (singleOf line outside server).fds := by
    intro pipe reads holds
    have selected := lineReady.reads_singleOf reads
    have below := lineReady.selectedInput_before selected rfl
    rcases apart.selected lineReady selected with
        ⟨slot, expired, isWrite⟩ | notHeld
    · obtain ⟨fd, isHeld⟩ := holds
      exact lineReady.singleOf_not_writes expired isWrite fd isHeld
    · rcases holds_singleOf holds with isNew | isOld
      · omega
      · exact notHeld isOld
  have parent :
      NotFedBy (singleOf line outside server).fds
        (server.singleCmd line outside).fds := by
    intro pipe reads holds
    have selected := lineReady.reads_singleOf reads
    have below := lineReady.selectedInput_before selected rfl
    rcases apart.selected lineReady selected with
        ⟨slot, expired, isWrite⟩ | notHeld
    · obtain ⟨_, _, frame⟩ := effect.takes
      obtain ⟨fd, isHeld⟩ := holds
      exact lineReady.input_gone frame
        (expired_mem_inputFds expired line (Or.inr rfl)) isWrite fd isHeld
    · exact notHeld (effect.heldBefore below holds)
  refine apart.extend known tables (fun below => effect.heldBefore below) ?_
    ?_ ?_ (List.pairwise_singleton _ _)
    fun recorded isRead =>
      apart.stored_of_effect lineReady known effect recorded isRead
  · intro table pipe member below holds
    cases List.mem_singleton.mp member
    rcases holds_singleOf holds with isNew | isOld
    · omega
    · exact isOld
  · intro table member
    cases List.mem_singleton.mp member
    exact parent
  · intro table member
    cases List.mem_singleton.mp member
    exact own

variable {cmdNum : Nat}

/-- No stage holds the input of its own or of an earlier stage. -/
theorem InputsApart.stages_apart
    (apart : server.InputsApart)
    (lineReady : server.LineReady)
    (known : server.KnownPipes)
    (stages : 2 ≤ cmdNum)
    {first second : Nat}
    (ordered : first ≤ second)
    (inRange : second < cmdNum) :
    NotFedBy (stageOf line outside cmdNum server first).fds
      (stageOf line outside cmdNum server second).fds := by
  intro pipe reads holds
  have isHeld := lineReady.holds_stageOf stages inRange holds
  cases first with
  | zero =>
      have selected := lineReady.reads_stageOf_first stages reads
      have below := lineReady.selectedInput_before selected rfl
      rcases apart.selected lineReady selected with
          ⟨slot, expired, isWrite⟩ | notHeld
      · obtain ⟨fd, isOpen⟩ := holds
        exact lineReady.stageOf_not_writes stages inRange expired isWrite fd
          isOpen
      · rcases isHeld with isNew | isOld
        · omega
        · exact notHeld isOld
  | succ i =>
      have isInner := lineReady.reads_stageOf_later (by omega) reads
      rcases isHeld with isNew | isOld
      · omega
      · have below := known.lt_of_holds isOld
        omega

/-- The server keeps the input of no stage open. -/
theorem InputsApart.stage_parent
    (apart : server.InputsApart)
    (lineReady : server.LineReady)
    (known : server.KnownPipes)
    (stages : 2 ≤ cmdNum)
    {i : Nat}
    (inRange : i < cmdNum) :
    NotFedBy (stageOf line outside cmdNum server i).fds
      (server.runPipeline line outside cmdNum).fds := by
  have effect :=
    runPipeline_effect outside stages (lineReady.inputPipes line).inputOpen
  intro pipe reads holds
  cases i with
  | zero =>
      have selected := lineReady.reads_stageOf_first stages reads
      have below := lineReady.selectedInput_before selected rfl
      rcases apart.selected lineReady selected with
          ⟨slot, expired, isWrite⟩ | notHeld
      · obtain ⟨_, _, frame⟩ := effect.takes
        obtain ⟨fd, isHeld⟩ := holds
        exact lineReady.input_gone frame
          (expired_mem_inputFds expired line (Or.inr rfl)) isWrite fd isHeld
      · exact notHeld (effect.heldBefore below holds)
  | succ i =>
      have isInner := lineReady.reads_stageOf_later inRange reads
      rcases lineReady.holds_runPipeline stages holds with isNew | isOld
      · omega
      · have below := known.lt_of_holds
          (((DrawsFrom.refl _).closeAll (server.inputFds line)).holds isOld)
        omega

/-- The stages of a pipeline read nothing that stays open. -/
theorem InputsApart.runPipeline
    (apart : server.InputsApart)
    (lineReady : server.LineReady)
    (known : server.KnownPipes)
    (stages : 2 ≤ cmdNum) :
    (server.runPipeline line outside cmdNum).InputsApart := by
  have effect :=
    runPipeline_effect outside stages (lineReady.inputPipes line).inputOpen
  have tables :
      (server.runPipeline line outside cmdNum).childTables =
        server.childTables ++
          (List.range cmdNum).map fun i =>
            (stageOf line outside cmdNum server i).fds := by
    unfold Server.runPipeline
    rw [childTables_waitSince]
    have started := stageState_children line outside cmdNum server cmdNum
    unfold stageState loopStart at started
    unfold childTables
    rw [started, List.map_append, List.map_map]
    rfl
  refine apart.extend known tables (fun below => effect.heldBefore below) ?_
    ?_ ?_ ?_
    fun recorded isRead =>
      apart.stored_of_effect lineReady known effect recorded isRead
  · intro table pipe member below holds
    obtain ⟨i, isStage, rfl⟩ := List.mem_map.mp member
    rcases lineReady.holds_stageOf stages (List.mem_range.mp isStage) holds with
        isNew | isOld
    · omega
    · exact isOld
  · intro table member
    obtain ⟨i, isStage, rfl⟩ := List.mem_map.mp member
    exact apart.stage_parent lineReady known stages (List.mem_range.mp isStage)
  · intro table member
    obtain ⟨i, isStage, rfl⟩ := List.mem_map.mp member
    exact apart.stages_apart lineReady known stages (Nat.le_refl i)
      (List.mem_range.mp isStage)
  · rw [List.pairwise_map]
    refine List.pairwise_lt_range.imp_of_mem ?_
    intro first second _ isSecond ordered
    exact apart.stages_apart lineReady known stages ordered.le
      (List.mem_range.mp isSecond)

theorem InputsApart.ordinaryPipe
    (apart : server.InputsApart)
    (lineReady : server.LineReady)
    (known : server.KnownPipes)
    (stages : 2 ≤ cmdNum) :
    (server.ordinaryPipe line outside cmdNum).InputsApart := by
  unfold Server.ordinaryPipe
  split_ifs
  · exact apart.of_sameRecords (sameRecords_post ..)
  · exact apart.runPipeline lineReady known stages

end Line

/-! ## Runs -/

section Runs

variable {server next : Server}

theorem InputsApart.dispatch
    (apart : server.InputsApart)
    (lineReady : server.LineReady)
    (known : server.KnownPipes)
    {input : Input}
    (outside : Outside)
    (notSelf : ¬ server.SelfPipes input) :
    (server.dispatch input outside).InputsApart := by
  cases input with
  | blank => exact apart
  | talk => exact apart
  | builtin => exact apart
  | name name => exact apart.of_sameRecords (sameRecords_cmdName server name)
  | single line => exact apart.singleCmd lineReady known notSelf
  | pipeline line stages => exact apart.ordinaryPipe lineReady known stages

theorem InputsApart.runShell
    (apart : server.InputsApart)
    (settled : server.Settled)
    (state : (server.client.list server.client.id).state = true)
    {input : Input}
    (outside : Outside)
    (notSelf : ¬ server.countDown.SelfPipes input) :
    (server.runShell input outside).InputsApart := by
  have counted := apart.countDown
  have finished (other : Input)
      (otherNotSelf : ¬ server.countDown.SelfPipes other) :
      (server.countDown.dispatch other outside).freeRecord.InputsApart :=
    (counted.dispatch (settled.lineReady state) (settled.countDown state).known
      outside otherNotSelf).of_sameRecords (sameRecords_freeRecord _)
  cases input with
  | blank => exact apart
  | talk => exact counted
  | builtin => exact finished .builtin notSelf
  | name name => exact finished (.name name) notSelf
  | single line => exact finished (.single line) notSelf
  | pipeline line stages => exact finished (.pipeline line stages) notSelf

theorem InputsApart.step
    {event : ServerEvent}
    (apart : server.InputsApart)
    (settled : server.Settled)
    (notSelf : ¬ server.SelfPipesAt event)
    (stepped : server.Steps event next) :
    next.InputsApart := by
  have entered (fd : Int) : (server.enter fd).InputsApart :=
    apart.of_sameRecords (sameRecords_enter server fd)
  cases stepped.moves with
  | login => exact apart.login
  | @input fd input outside connected =>
      obtain ⟨state, _⟩ := enter_of_connected connected
      exact (entered fd).runShell (settled.enter fd) state outside notSelf
  | @exit fd connected => exact (entered fd).countDown.logout rfl
  | @endOfFile fd _ _ => exact (entered fd).logout rfl
  | childExits index => exact apart.exitChild index

theorem inputsApart_initial : initial.InputsApart where
  parent := by simp [childTables, initial]
  own := by simp [childTables, initial]
  later := by simp [childTables, initial]
  stored := fun recorded => absurd recorded (not_recorded_initial _)

/-- The inputs are apart in every state of a run. -/
theorem inputsApart_run
    {path : List (ServerEvent × Server)}
    (isPath : Path Steps initial path)
    (notSelf :
      EveryStep (fun server event => ¬ server.SelfPipesAt event) initial
        path) :
    EveryState InputsApart initial path := by
  have everywhere :
      EveryState (fun server => server.Settled ∧ server.InputsApart)
        initial path := by
    refine isPath.everyState_of_everyStep ?_
      ⟨settled_initial, inputsApart_initial⟩ notSelf
    rintro state event after ⟨settled, apart⟩ stepNotSelf stepped
    exact ⟨settled.step stepNotSelf stepped,
      apart.step settled stepNotSelf stepped⟩
  exact everywhere.mono fun _ both => both.2

end Runs

/-! ## Commands that wait for one another -/

/-- The child in a place of the list runs. -/
def runs
    (server : Server)
    (index : Nat) : Bool :=
  (server.children[index]?).any Child.alive

/--
The commands that run.  One waits for another while that one holds a write end
of the pipe on its standard input.
-/
def commands : Waiting Server Nat where
  running server :=
    (Finset.range server.children.length).filter (server.runs ·)
  waits server reader writer :=
    ∃ input output,
      server.childTables[reader]? = some input ∧
        server.childTables[writer]? = some output ∧ ¬ NotFedBy input output
  finish := exitChild

/--
Nobody but an earlier command delays the end of a command: the server does not,
there is no cycle, and in whatever order commands end that no longer wait, this
goes on until none runs.
-/
structure CommandsEnd (server : Server) : Prop where
  notServer :
    ∀ child ∈ server.children,
      ∀ pipe, ReadsPipe child.fds pipe → ¬ HoldsWriteEnd server.fds pipe
  acyclic : ¬ commands.Deadlocked server
  drains : commands.Drains server

section Commands

variable {server : Server}

/-- A command waits for earlier ones only. -/
theorem InputsApart.ranked
    (apart : server.InputsApart) :
    commands.Ranked id server := by
  rintro waiter awaited - ⟨input, output, isInput, isOutput, feeds⟩
  by_contra notEarlier
  rcases Nat.lt_or_eq_of_le (Nat.le_of_not_lt notEarlier) with later | same
  · obtain ⟨inputRange, isInputAt⟩ := List.getElem?_eq_some_iff.mp isInput
    obtain ⟨outputRange, isOutputAt⟩ :=
      List.getElem?_eq_some_iff.mp isOutput
    have ordered :=
      List.pairwise_iff_getElem.mp apart.later _ _ inputRange outputRange later
    rw [isInputAt, isOutputAt] at ordered
    exact feeds ordered
  · change waiter = awaited at same
    rw [← same, isInput] at isOutput
    cases isOutput
    exact feeds (apart.own input (List.mem_of_getElem? isInput))

theorem runs_exitChild
    (server : Server)
    (index other : Nat) :
    (server.exitChild index).runs other =
      (server.runs other && decide (other ≠ index)) := by
  unfold runs exitChild
  dsimp only
  rw [List.getElem?_modify]
  by_cases here : index = other
  · subst here
    cases server.children[index]? <;> simp
  · have different : other ≠ index := fun same => here same.symm
    cases server.children[other]? <;> simp [here, different]

/-- The end of a command leaves the others running. -/
theorem running_exitChild
    (server : Server)
    (index : Nat) :
    commands.running (server.exitChild index) =
      (commands.running server).erase index := by
  have sameLength :
      (server.exitChild index).children.length = server.children.length :=
    List.length_modify ..
  ext other
  simp only [commands, sameLength, runs_exitChild, Finset.mem_erase,
    Finset.mem_filter, Finset.mem_range, Bool.and_eq_true, decide_eq_true_eq]
  tauto

theorem InputsApart.commandsEnd
    (apart : server.InputsApart) :
    server.CommandsEnd where
  notServer := fun _ member =>
    apart.parent _ (List.mem_map_of_mem member)
  acyclic := apart.ranked.not_deadlocked
  drains := by
    refine apart.ranked.drains running_exitChild ?_
    intro state index waiter awaited waits
    obtain ⟨input, output, isInput, isOutput, feeds⟩ := waits
    have sameTables :
        (commands.finish state index).childTables = state.childTables :=
      childTables_exitChild state index
    rw [sameTables] at isInput isOutput
    exact ⟨input, output, isInput, isOutput, feeds⟩

end Commands

end Server

end NpServers.Shell
