import NpServers.OutputTargets

namespace NpServers.Shell

open CrossPipe DescriptorTable TransitionPath

/-!
# Competing output directives

This module compares what `single_cmd` and `ordinary_pipe` make of the same
directives: where the last command writes to, what is stored in the tables, and
what is left open.
-/

/-- A stored descriptor: an end of a new pipe, or one from before the line. -/
inductive Origin where
  | newReadEnd
  | newWriteEnd
  | before (fd : Int)
  deriving Repr, DecidableEq

/-- Two tables of numbered pipes that differ in their descriptors only. -/
structure SameSlots (first second : CrossPipe) : Prop where
  outputPoint : first.outputPoint = second.outputPoint
  minInputPoint : first.minInputPoint = second.minInputPoint
  closeFdRecord : first.closeFdRecord = second.closeFdRecord
  count : ∀ slot, (first.list slot).count = (second.list slot).count

theorem SameSlots.refl (infor : CrossPipe) : SameSlots infor infor :=
  ⟨rfl, rfl, rfl, fun _ => rfl⟩

theorem SameSlots.symm
    {first second : CrossPipe}
    (same : SameSlots first second) :
    SameSlots second first :=
  ⟨same.outputPoint.symm, same.minInputPoint.symm, same.closeFdRecord.symm,
    fun slot => (same.count slot).symm⟩

theorem SameSlots.trans
    {first second third : CrossPipe}
    (same : SameSlots first second)
    (sameLater : SameSlots second third) :
    SameSlots first third :=
  ⟨same.outputPoint.trans sameLater.outputPoint,
    same.minInputPoint.trans sameLater.minInputPoint,
    same.closeFdRecord.trans sameLater.closeFdRecord,
    fun slot => (same.count slot).trans (sameLater.count slot)⟩

/-- An insertion decides without looking at the descriptors. -/
theorem sameSlots_updateCrossPipeFd
    (infor : CrossPipe)
    (first second : PipeFds)
    (crossNum : Int) :
    SameSlots (infor.updateCrossPipeFd first crossNum)
      (infor.updateCrossPipeFd second crossNum) := by
  have sameCount (slot : Nat) :
      ((infor.updateCrossPipeFd first crossNum).list slot).count =
        ((infor.updateCrossPipeFd second crossNum).list slot).count := by
    rw [updateCrossPipeFd_list, updateCrossPipeFd_list]
    by_cases here : slot = infor.minInputPoint
    · rw [here, Function.update_self, Function.update_self]
    · rw [Function.update_of_ne here, Function.update_of_ne here]
  have isSearch (fd : PipeFds) :
      (infor.updateCrossPipeFd fd crossNum).minInputPoint =
        ((List.range fdInforListSize).find? fun slot =>
          decide (((infor.updateCrossPipeFd fd crossNum).list slot).count <
            0)).getD infor.minInputPoint := by
    rw [updateCrossPipeFd_list]
    unfold updateCrossPipeFd
    dsimp only
    split
    · rename_i slot isFound
      rw [isFound]
      rfl
    · rename_i notFound
      rw [notFound]
      rfl
  refine ⟨by simp, ?_, by simp, sameCount⟩
  rw [isSearch, isSearch]
  simp only [sameCount]

namespace Server

/-- Where a stored descriptor comes from; pipes from `created` on are new. -/
def origin
    (server : Server)
    (created : Nat)
    (fd : Int) : Origin :=
  match server.fds.file fd with
  | some (.readEnd pipe) =>
      if created ≤ pipe then .newReadEnd else .before fd
  | some (.writeEnd pipe) =>
      if created ≤ pipe then .newWriteEnd else .before fd
  | _ => .before fd

/--
Two lines from one state have made the same change to the tables of numbered
pipes and to `user_pipe`, up to the numbers of the descriptors of new pipes.
-/
structure SameChange
    (created : Nat)
    (one many : Server) : Prop where
  slots :
    ∀ c, SameSlots (one.client.list c).cpInfor (many.client.list c).cpInfor
  recorded : ∀ port, one.client.Recorded port ↔ many.client.Recorded port
  stored :
    ∀ port,
      one.client.Recorded port →
      one.origin created (port.fd one.client) =
        many.origin created (port.fd many.client)
  others :
    ∀ port,
      ¬ one.client.Recorded port →
      port.fd one.client = port.fd many.client

/-- The directives are resolved alike, and nothing is left open. -/
structure ResolvedAlike
    (before : Server)
    (oneOutside manyOutside : Outside)
    (cmdNum : Nat)
    (one many : Server) : Prop where
  target : SameTarget before oneOutside manyOutside cmdNum one many
  change : SameChange before.nextPipe one many
  oneLeaves : LeavesNothing before one
  manyLeaves : LeavesNothing before many

variable {server after : Server}
variable {line : Command}
variable {outside : Outside}
variable {pipe : Nat}

/-! ## The change to the tables -/

/-- A new read end. -/
theorem origin_readEnd
    {fd : Int}
    (isOpen : after.fds.file fd = some (.readEnd pipe))
    (isNew : server.nextPipe ≤ pipe) :
    after.origin server.nextPipe fd = .newReadEnd := by
  rw [origin, isOpen]
  exact if_pos isNew

/-- A new write end. -/
theorem origin_writeEnd
    {fd : Int}
    (isOpen : after.fds.file fd = some (.writeEnd pipe))
    (isNew : server.nextPipe ≤ pipe) :
    after.origin server.nextPipe fd = .newWriteEnd := by
  rw [origin, isOpen]
  exact if_pos isNew

/-- A descriptor that is no end of a new pipe. -/
theorem origin_before
    {fd : Int}
    (known :
      ∀ {file pipe},
        after.fds.file fd = some file →
        file.pipe? = some pipe →
        pipe < server.nextPipe) :
    after.origin server.nextPipe fd = .before fd := by
  unfold origin
  split
  · rename_i pipe isOpen
    exact if_neg (Nat.not_le.mpr (known isOpen rfl))
  · rename_i pipe isOpen
    exact if_neg (Nat.not_le.mpr (known isOpen rfl))
  · rfl

section Change

variable {one many : Server}
variable {oneExtra manyExtra : List (Int × File)}
variable {oneClient manyClient : ClientStructure}
variable {onePipe manyPipe : Nat}
variable {issued : List Port}

/-- Lines that issue the same places make the same change. -/
theorem LineReady.sameChange_of_turnover
    (lineReady : server.LineReady)
    (oneFrame : Frame server (server.takenFds line) oneExtra oneClient one)
    (manyFrame : Frame server (server.takenFds line) manyExtra manyClient many)
    (oneTurnover :
      Ledger.Turnover server.client.lineLedger oneClient.ledger
        (server.client.inputPorts line) issued)
    (manyTurnover :
      Ledger.Turnover server.client.lineLedger manyClient.ledger
        (server.client.inputPorts line) issued)
    (slots :
      ∀ c, SameSlots (oneClient.list c).cpInfor (manyClient.list c).cpInfor)
    (issuedSame :
      ∀ port ∈ issued,
        one.origin server.nextPipe (port.fd oneClient) =
          many.origin server.nextPipe (port.fd manyClient))
    (othersSame :
      ∀ port, port ∉ issued → port.fd oneClient = port.fd manyClient) :
    SameChange server.nextPipe one many := by
  have old
      {after : Server}
      {extra : List (Int × File)}
      {client : ClientStructure}
      (frame : Frame server (server.takenFds line) extra client after)
      {port : Port}
      (isHeld : server.client.RecordedOrExpired port)
      (kept : port ∉ server.client.inputPorts line) :
      after.origin server.nextPipe (port.fd server.client) =
        .before (port.fd server.client) := by
    refine origin_before ?_
    intro file pipe isOpen isPipe
    rw [lineReady.file_of_kept frame isHeld kept] at isOpen
    exact lineReady.healthy.known isOpen isPipe
  have sameOwner := oneFrame.client_eq
  have sameOther := manyFrame.client_eq
  refine ⟨?_, ?_, ?_, ?_⟩
  · rw [sameOwner, sameOther]
    exact slots
  · intro port
    rw [sameOwner, sameOther]
    exact (oneTurnover.held_iff port).trans (manyTurnover.held_iff port).symm
  · intro port recorded
    rw [sameOwner] at recorded
    rw [sameOwner, sameOther]
    rcases (oneTurnover.held_iff port).mp recorded with
        isIssued | ⟨isHeld, kept, notIssued⟩
    · exact issuedSame port isIssued
    · have oneFd := oneTurnover.name_eq port isHeld kept notIssued
      have manyFd := manyTurnover.name_eq port isHeld kept notIssued
      change port.fd oneClient = port.fd server.client at oneFd
      change port.fd manyClient = port.fd server.client at manyFd
      rw [oneFd, manyFd, old oneFrame isHeld kept, old manyFrame isHeld kept]
  · intro port notRecorded
    rw [sameOwner] at notRecorded
    rw [sameOwner, sameOther]
    apply othersSame
    intro isIssued
    exact notRecorded ((oneTurnover.held_iff port).mpr (Or.inl isIssued))

/-- Two lines with a new numbered pipe each. -/
theorem LineReady.sameChange_numbered
    (lineReady : server.LineReady)
    (cross : line.crossNum ≠ 0)
    {oneFd manyFd : PipeFds}
    (oneFrame :
      Frame server (server.takenFds line)
        [(oneFd.readFd, .readEnd onePipe), (oneFd.writeFd, .writeEnd onePipe)]
        ((server.client.takeInput line).setInfor
          (server.infor.updateCrossPipeFd oneFd line.crossNum))
        one)
    (manyFrame :
      Frame server (server.takenFds line)
        [(manyFd.readFd, .readEnd manyPipe),
          (manyFd.writeFd, .writeEnd manyPipe)]
        ((server.client.takeInput line).setInfor
          (server.infor.updateCrossPipeFd manyFd line.crossNum))
        many) :
    SameChange server.nextPipe one many := by
  have isRead {fd : PipeFds} {pipe : Nat} :
      (fd.readFd, File.readEnd pipe) ∈
        [(fd.readFd, File.readEnd pipe), (fd.writeFd, .writeEnd pipe)] :=
    List.mem_cons_self
  have isWrite {fd : PipeFds} {pipe : Nat} :
      (fd.writeFd, File.writeEnd pipe) ∈
        [(fd.readFd, File.readEnd pipe), (fd.writeFd, .writeEnd pipe)] :=
    List.mem_cons_of_mem _ List.mem_cons_self
  have names (fd : PipeFds) := server.client.fd_inputPoint line fd line.crossNum
  refine
    lineReady.sameChange_of_turnover oneFrame manyFrame
      (lineReady.turnover_numbered cross isRead isWrite oneFrame)
      (lineReady.turnover_numbered cross isRead isWrite manyFrame) ?_ ?_ ?_
  · intro c
    rw [ClientStructure.setInfor_cpInfor, ClientStructure.setInfor_cpInfor]
    split_ifs
    · exact sameSlots_updateCrossPipeFd server.infor oneFd manyFd line.crossNum
    · exact .refl _
  · intro port isPoint
    rcases List.mem_pair.mp isPoint with rfl | rfl
    · refine (congrArg _ (names oneFd).1).trans ?_
      refine Eq.trans ?_ (congrArg _ (names manyFd).1).symm
      rw [origin_readEnd (oneFrame.fds.file_extra isRead)
          (oneFrame.fresh isRead rfl).1,
        origin_readEnd (manyFrame.fds.file_extra isRead)
          (manyFrame.fresh isRead rfl).1]
    · refine (congrArg _ (names oneFd).2).trans ?_
      refine Eq.trans ?_ (congrArg _ (names manyFd).2).symm
      rw [origin_writeEnd (oneFrame.fds.file_extra isWrite)
          (oneFrame.fresh isWrite rfl).1,
        origin_writeEnd (manyFrame.fds.file_extra isWrite)
          (manyFrame.fresh isWrite rfl).1]
  · intro port notPoint
    exact
      (server.client.fd_setInfor_of_not_mem line oneFd line.crossNum
        notPoint).trans
        (server.client.fd_setInfor_of_not_mem line manyFd line.crossNum
          notPoint).symm

/-- Two lines with a new user pipe each. -/
theorem LineReady.sameChange_user
    (lineReady : server.LineReady)
    {oneFd manyFd : Int}
    (oneFrame :
      Frame server (server.takenFds line) [(oneFd, .readEnd onePipe)]
        ((server.client.takeInput line).setUserPipe line.userOutId
          server.client.id oneFd)
        one)
    (manyFrame :
      Frame server (server.takenFds line) [(manyFd, .readEnd manyPipe)]
        ((server.client.takeInput line).setUserPipe line.userOutId
          server.client.id manyFd)
        many) :
    SameChange server.nextPipe one many := by
  have isRead {fd : Int} {pipe : Nat} :
      (fd, File.readEnd pipe) ∈ [(fd, File.readEnd pipe)] :=
    List.mem_singleton_self _
  refine
    lineReady.sameChange_of_turnover oneFrame manyFrame
      (lineReady.turnover_user isRead oneFrame)
      (lineReady.turnover_user isRead manyFrame) ?_ ?_ ?_
  · intro c
    rw [ClientStructure.setUserPipe_cpInfor,
      ClientStructure.setUserPipe_cpInfor]
    exact .refl _
  · intro port isEntry
    obtain rfl := List.mem_singleton.mp isEntry
    simp only [Port.fd, ClientStructure.setUserPipe_userPipe, and_self,
      if_true]
    rw [origin_readEnd (oneFrame.fds.file_extra isRead)
        (oneFrame.fresh isRead rfl).1,
      origin_readEnd (manyFrame.fds.file_extra isRead)
        (manyFrame.fresh isRead rfl).1]
  · intro port notEntry
    have different :
        port ≠ .userPipe line.userOutId server.client.id := by
      simpa using notEntry
    exact
      (ClientStructure.fd_setUserPipe_of_ne _ oneFd different).trans
        (ClientStructure.fd_setUserPipe_of_ne _ manyFd different).symm

/-- Two lines without a new pipe. -/
theorem LineReady.sameChange_plain
    (lineReady : server.LineReady)
    (oneFrame :
      Frame server (server.takenFds line) oneExtra
        (server.client.takeInput line) one)
    (manyFrame :
      Frame server (server.takenFds line) manyExtra
        (server.client.takeInput line) many) :
    SameChange server.nextPipe one many :=
  lineReady.sameChange_of_turnover oneFrame manyFrame
    (lineReady.inLine.turnover_plain line)
    (lineReady.inLine.turnover_plain line) (fun _ => .refl _) (by simp)
    (fun _ _ => rfl)

/-- Two outcomes of the same directives that keep nothing. -/
theorem LineReady.sameChange
    (lineReady : server.LineReady)
    (oneOutcome : Outcome line onePipe [] server one)
    (manyOutcome : Outcome line manyPipe [] server many) :
    SameChange server.nextPipe one many := by
  cases oneOutcome with
  | numbered oneFd inserts _ oneFrame =>
      cases manyOutcome with
      | numbered manyFd _ _ manyFrame =>
          exact lineReady.sameChange_numbered inserts.1 oneFrame manyFrame
      | user _ noCross => exact absurd noCross inserts.1
      | plain keeps => exact absurd inserts keeps
  | user oneFd noCross given ready _ oneFrame =>
      cases manyOutcome with
      | numbered _ inserts => exact absurd noCross inserts.1
      | user manyFd _ _ _ _ manyFrame =>
          exact lineReady.sameChange_user oneFrame manyFrame
      | plain _ unregistered =>
          exact absurd rfl (unregistered noCross given ready)
  | plain keeps unregistered oneFrame =>
      cases manyOutcome with
      | numbered _ inserts => exact absurd inserts keeps
      | user _ noCross given ready =>
          exact absurd rfl (unregistered noCross given ready)
      | plain _ _ manyFrame =>
          exact lineReady.sameChange_plain oneFrame manyFrame

end Change

/-! ## A line that reads and writes its own pipe -/

/-- A self-piped single command leaves no end of a new pipe. -/
theorem LineReady.singleCmd_known
    (lineReady : server.LineReady)
    (selfPiped : server.client.SelfPiped line)
    {fd : Int}
    {file : File}
    (isOpen : (server.singleCmd line outside).fds.file fd = some file)
    (isPipe : file.pipe? = some pipe) :
    pipe < server.nextPipe := by
  have inputOpen := (lineReady.inputPipes line).inputOpen
  obtain ⟨pipes, opened, frame⟩ := singleConnected_frame outside inputOpen
  have connectedOpen := file_of_singleCmd selfPiped.1 isOpen
  cases opened with
  | numbered inserts => exact absurd selfPiped.1 inserts.1
  | found slot cross => exact absurd selfPiped.1 cross
  | user _ _ ready => exact absurd selfPiped (not_selfPiped_of_ready ready)
  | nothing _ _ _ noPipes =>
      rw [noPipes] at frame
      rcases (frame.fds.file_iff fd file).mp connectedOpen with isNew | isOld
      · cases isNew
      · exact
          lineReady.healthy.known
            ((lineReady.underway_taken line).within isOld) isPipe

/-- A pipeline registers a new pipe, which the single command has not created. -/
theorem LineReady.not_sameChange_of_selfPiped
    (lineReady : server.LineReady)
    (selfPiped : server.client.SelfPiped line)
    {many : Server}
    (isEntry :
      many.fds.file
          ((many.client.list line.userOutId).userPipe server.client.id) =
        some (.readEnd pipe))
    (isNew : server.nextPipe ≤ pipe) :
    ¬ SameChange server.nextPipe (server.singleCmd line outside) many := by
  intro change
  have manyRecorded :
      many.client.Recorded (.userPipe line.userOutId server.client.id) :=
    (many.fds.bounded _ (by rw [isEntry]; simp)).1
  have oneRecorded := (change.recorded _).mpr manyRecorded
  have sameOrigin := change.stored _ oneRecorded
  have oneBefore (fd : Int) :
      (server.singleCmd line outside).origin server.nextPipe fd = .before fd :=
    origin_before fun isOpen isPipe =>
      lineReady.singleCmd_known selfPiped isOpen isPipe
  rw [oneBefore] at sameOrigin
  have manyNew :
      many.origin server.nextPipe
          (Port.fd many.client
            (.userPipe line.userOutId server.client.id)) =
        .newReadEnd :=
    origin_readEnd isEntry isNew
  rw [manyNew] at sameOrigin
  cases sameOrigin

/-! ## Lines of a run -/

/-- The two functions after the countdown of a line. -/
theorem LineReady.resolvedAlike_iff
    (lineReady : server.LineReady)
    {one many : Command}
    (same : SameDirectives one many)
    (stages : 2 ≤ many.cmdNum)
    {oneOutside manyOutside : Outside}
    (fileOpens : one.redir = true → oneOutside.opens (one.word 1) = true) :
    (SameTarget server oneOutside manyOutside many.cmdNum
          (server.singleCmd one oneOutside)
          (server.runPipeline many manyOutside many.cmdNum) ∧
        SameChange server.nextPipe (server.singleCmd one oneOutside)
          (server.runPipeline many manyOutside many.cmdNum) ∧
        LeavesNothingBut server.client.lineLedger server
          (server.singleCmd one oneOutside) ∧
        LeavesNothingBut server.client.lineLedger server
          (server.runPipeline many manyOutside many.cmdNum)) ↔
      ¬ server.LeavesOpen many ∧
        ¬ server.client.SelfPiped one ∧
        ¬ server.Overwrites one := by
  have oneOpen := (lineReady.inputPipes one).inputOpen
  have manyOpen := (lineReady.inputPipes many).inputOpen
  obtain ⟨kept, manyOutcome, kept_iff⟩ :=
    runPipeline_outcome manyOutside stages manyOpen
  constructor
  · rintro ⟨-, change, oneLeaves, manyLeaves⟩
    have notOpen : ¬ server.LeavesOpen many :=
      kept_iff.mp ((lineReady.leavesNothing_iff manyOutcome).mp manyLeaves).1
    refine ⟨notOpen, ?_, ?_⟩
    · intro selfPiped
      obtain ⟨given, ready⟩ := selfPiped.userOutReady
      rw [same.userOutId] at given ready
      rw [same.takeInput] at ready
      have noFile := noFile_of_not_leavesOpen notOpen given ready
      have notCompeting : ¬ Competing many := by
        rintro ⟨file, _⟩
        rw [noFile] at file
        cases file
      have noCross : many.crossNum = 0 := same.crossNum ▸ selfPiped.1
      have isEntry :=
        (runPipeline_effect manyOutside stages manyOpen).user_registered
          notCompeting noCross given ready
      rw [← same.userOutId] at isEntry
      exact
        lineReady.not_sameChange_of_selfPiped selfPiped isEntry
          (Nat.le_add_right _ _) change
    · intro overwrites
      have notSelf : ¬ server.client.SelfPiped one :=
        fun selfPiped => overwrites.1.1 selfPiped.1
      have oneOutcome := singleCmd_outcome oneOutside oneOpen notSelf
      exact ((lineReady.leavesNothing_iff oneOutcome).mp oneLeaves).2 overwrites
  · rintro ⟨notOpen, notSelf, keeps⟩
    obtain rfl := kept_iff.mpr notOpen
    have oneOutcome := singleCmd_outcome oneOutside oneOpen notSelf
    have manyKeeps : ¬ server.Overwrites many := by
      rwa [← same.overwrites_iff server]
    refine ⟨?_, ?_, ?_, ?_⟩
    · exact
        lineReady.sameTarget same stages manyOutside fileOpens notSelf notOpen
    · exact lineReady.sameChange oneOutcome (same.outcome manyOutcome)
    · exact (lineReady.leavesNothing_iff oneOutcome).mpr ⟨rfl, keeps⟩
    · exact (lineReady.leavesNothing_iff manyOutcome).mpr ⟨rfl, manyKeeps⟩

section FreeRecord

variable (server after)

theorem freeRecord_id : after.freeRecord.client.id = after.client.id := by
  unfold freeRecord
  split_ifs <;> rfl

theorem freeRecord_slots
    (c : Nat) :
    SameSlots (after.freeRecord.client.list c).cpInfor
      (after.client.list c).cpInfor := by
  unfold freeRecord
  split_ifs
  · change SameSlots ((after.client.setInfor _).list c).cpInfor _
    rw [ClientStructure.setInfor_cpInfor]
    split_ifs with own
    · rw [own]
      exact ⟨rfl, rfl, rfl, fun _ => rfl⟩
    · exact .refl _
  · exact .refl _

variable {server after}

/-- Freeing the record does not change what a file is the target of. -/
theorem isTarget_freeRecord_iff
    {file : Option File}
    {target : Target} :
    after.freeRecord.IsTarget file target ↔ after.IsTarget file target := by
  have same := sameRecords_freeRecord after
  have sameList : after.freeRecord.infor.list = after.infor.list := by
    unfold Server.infor self
    rw [freeRecord_id, same.blocks]
  have sameSockfd : after.freeRecord.sockfd = after.sockfd := by
    unfold Server.sockfd self
    rw [freeRecord_id, same.sockfd]
  cases target with
  | numbered count =>
      unfold IsTarget Pending
      rw [sameList, freeRecord_fds]
  | user receiver =>
      simp only [IsTarget, freeRecord_fds, freeRecord_id, same.userPipe]
  | named path => exact Iff.rfl
  | socket =>
      unfold IsTarget
      rw [freeRecord_fds, sameSockfd]

theorem origin_freeRecord
    (fd : Int) :
    after.freeRecord.origin server.nextPipe fd =
      after.origin server.nextPipe fd := by
  unfold origin
  rw [freeRecord_fds]

variable {one many : Server}

theorem sameTarget_freeRecord_iff
    {oneOutside manyOutside : Outside}
    {cmdNum : Nat} :
    SameTarget server oneOutside manyOutside cmdNum one.freeRecord
        many.freeRecord ↔
      SameTarget server oneOutside manyOutside cmdNum one many := by
  unfold SameTarget lastCommand
  rw [(sameRecords_freeRecord one).children,
    (sameRecords_freeRecord many).children]
  simp only [isTarget_freeRecord_iff]

theorem sameChange_freeRecord_iff :
    SameChange server.nextPipe one.freeRecord many.freeRecord ↔
      SameChange server.nextPipe one many := by
  have oneLedger := (sameRecords_freeRecord one).ledger
  have manyLedger := (sameRecords_freeRecord many).ledger
  have oneHeld (port : Port) :
      one.freeRecord.client.Recorded port = one.client.Recorded port :=
    congrFun (congrArg Ledger.held oneLedger) port
  have manyHeld (port : Port) :
      many.freeRecord.client.Recorded port = many.client.Recorded port :=
    congrFun (congrArg Ledger.held manyLedger) port
  have oneFd (port : Port) :
      port.fd one.freeRecord.client = port.fd one.client :=
    congrFun (congrArg Ledger.name oneLedger) port
  have manyFd (port : Port) :
      port.fd many.freeRecord.client = port.fd many.client :=
    congrFun (congrArg Ledger.name manyLedger) port
  have ports_iff :
      SameChange server.nextPipe one.freeRecord many.freeRecord ↔
        (∀ c, SameSlots (one.freeRecord.client.list c).cpInfor
            (many.freeRecord.client.list c).cpInfor) ∧
          (∀ port, one.client.Recorded port ↔ many.client.Recorded port) ∧
          (∀ port,
            one.client.Recorded port →
            one.origin server.nextPipe (port.fd one.client) =
              many.origin server.nextPipe (port.fd many.client)) ∧
          ∀ port,
            ¬ one.client.Recorded port →
            port.fd one.client = port.fd many.client := by
    constructor
    · rintro ⟨slots, recorded, stored, others⟩
      simp only [oneHeld, manyHeld, oneFd, manyFd, origin_freeRecord]
        at recorded stored others
      exact ⟨slots, recorded, stored, others⟩
    · rintro ⟨slots, recorded, stored, others⟩
      refine ⟨slots, ?_, ?_, ?_⟩
      · simpa only [oneHeld, manyHeld] using recorded
      · simpa only [oneHeld, oneFd, manyFd, origin_freeRecord] using stored
      · simpa only [oneHeld, oneFd, manyFd] using others
  rw [ports_iff]
  constructor
  · rintro ⟨slots, recorded, stored, others⟩
    refine ⟨fun c => ?_, recorded, stored, others⟩
    exact
      ((freeRecord_slots one c).symm.trans (slots c)).trans
        (freeRecord_slots many c)
  · rintro ⟨slots, recorded, stored, others⟩
    refine ⟨fun c => ?_, recorded, stored, others⟩
    exact
      ((freeRecord_slots one c).trans (slots c)).trans
        (freeRecord_slots many c).symm

/-- The expiring pipe is among the records before the countdown. -/
theorem Settled.leavesNothing_freeRecord_iff
    (settled : server.Settled)
    (state : (server.client.list server.client.id).state = true) :
    LeavesNothing server after.freeRecord ↔
      LeavesNothingBut server.countDown.client.lineLedger server.countDown
        after := by
  have holds_iff (fd : Int) :
      server.countDown.client.lineLedger.Holds fd ↔
        server.client.ledger.Holds fd := by
    refine exists_congr fun port => and_congr ?_ ?_
    · exact
        ClientStructure.recordedOrExpired_countDown_iff state
          (settled.sound server.client.id) port
    · exact iff_of_eq (congrArg (· = fd) (server.client.fd_countDown port))
  unfold LeavesNothing LeavesNothingBut
  rw [freeRecord_fds, (sameRecords_freeRecord after).ledger]
  simp only [holds_iff]
  exact Iff.rfl

end FreeRecord

/-- The two lines in a settled state of the server. -/
theorem Settled.resolvedAlike_iff
    (settled : server.Settled)
    (state : (server.client.list server.client.id).state = true)
    {one many : Command}
    (same : SameDirectives one many)
    (stages : 2 ≤ many.cmdNum)
    {oneOutside manyOutside : Outside}
    (oneOpens : one.redir = true → oneOutside.opens (one.word 1) = true)
    (manyOpens :
      many.redir = true →
        manyOutside.opens (many.word many.cmdNum) = true) :
    ResolvedAlike server oneOutside manyOutside many.cmdNum
        (server.runShell (.single one) oneOutside)
        (server.runShell (.pipeline many stages) manyOutside) ↔
      ¬ server.countDown.LeavesOpen many ∧
        ¬ server.countDown.client.SelfPiped one ∧
        ¬ server.countDown.Overwrites one := by
  have lineReady := settled.lineReady state
  have isOne :
      server.runShell (.single one) oneOutside =
        (server.countDown.singleCmd one oneOutside).freeRecord :=
    rfl
  have isMany :
      server.runShell (.pipeline many stages) manyOutside =
        (server.countDown.runPipeline many manyOutside
          many.cmdNum).freeRecord := by
    rw [← ordinaryPipe_of_opens manyOpens]
    rfl
  rw [isOne, isMany, ← lineReady.resolvedAlike_iff same stages oneOpens,
    ← settled.leavesNothing_freeRecord_iff state,
    ← settled.leavesNothing_freeRecord_iff state,
    ← sameChange_freeRecord_iff, ← sameTarget_freeRecord_iff]
  constructor
  · rintro ⟨target, change, oneLeaves, manyLeaves⟩
    exact ⟨target, change, oneLeaves, manyLeaves⟩
  · rintro ⟨target, change, oneLeaves, manyLeaves⟩
    exact ⟨target, change, oneLeaves, manyLeaves⟩

/-- The steps for the two lines, from a settled state of the server. -/
theorem Settled.steps_resolvedAlike_iff
    (settled : server.Settled)
    {fd : Int}
    {one many : Command}
    (same : SameDirectives one many)
    (stages : 2 ≤ many.cmdNum)
    {oneOutside manyOutside : Outside}
    (oneOpens : one.redir = true → oneOutside.opens (one.word 1) = true)
    (manyOpens :
      many.redir = true →
        manyOutside.opens (many.word many.cmdNum) = true)
    {oneNext manyNext : Server}
    (oneStep : server.Steps (.input fd (.single one) oneOutside) oneNext)
    (manyStep :
      server.Steps (.input fd (.pipeline many stages) manyOutside) manyNext) :
    ResolvedAlike server oneOutside manyOutside many.cmdNum oneNext manyNext ↔
      ¬ ((server.enter fd).countDown).LeavesOpen many ∧
        ¬ ((server.enter fd).countDown).client.SelfPiped one ∧
        ¬ ((server.enter fd).countDown).Overwrites one := by
  obtain ⟨connected, rfl⟩ := steps_input oneStep
  obtain ⟨-, rfl⟩ := steps_input manyStep
  obtain ⟨state, -⟩ := enter_of_connected connected
  rw [← (settled.enter fd).resolvedAlike_iff state same stages oneOpens
    manyOpens]
  constructor
  · rintro ⟨target, change, oneLeaves, manyLeaves⟩
    exact ⟨target, change, oneLeaves, manyLeaves⟩
  · rintro ⟨target, change, oneLeaves, manyLeaves⟩
    exact ⟨target, change, oneLeaves, manyLeaves⟩

/--
In every run without self-piped single commands, a single command and a pipeline
with the same directives resolve them alike and leave nothing open, unless one of
three things happens: a file comes with a numbered pipe or a new user pipe, the
line reads and writes the pipe of its own client, or it inserts a numbered pipe
into a block where another one waits.
-/
theorem resolved_alike_iff
    {path : List (ServerEvent × Server)}
    (isPath : Path Steps initial path)
    (notSelf :
      EveryStep (fun server event => ¬ server.SelfPipesAt event) initial path)
    {fd : Int}
    {one many : Command}
    (same : SameDirectives one many)
    (stages : 2 ≤ many.cmdNum)
    {oneOutside manyOutside : Outside}
    (oneOpens : one.redir = true → oneOutside.opens (one.word 1) = true)
    (manyOpens :
      many.redir = true →
        manyOutside.opens (many.word many.cmdNum) = true)
    {oneNext manyNext : Server}
    (oneStep :
      (lastState initial path).Steps (.input fd (.single one) oneOutside)
        oneNext)
    (manyStep :
      (lastState initial path).Steps
        (.input fd (.pipeline many stages) manyOutside) manyNext) :
    ResolvedAlike (lastState initial path) oneOutside manyOutside many.cmdNum
        oneNext manyNext ↔
      ¬ (((lastState initial path).enter fd).countDown).LeavesOpen many ∧
        ¬ (((lastState initial path).enter fd).countDown).client.SelfPiped
          one ∧
        ¬ (((lastState initial path).enter fd).countDown).Overwrites one :=
  (settled_run isPath notSelf).steps_resolvedAlike_iff same stages oneOpens
    manyOpens oneStep manyStep

/-- The line `ls > f` with further directives. -/
def filing
    (crossNum : Int)
    (userOutId : Nat) : Command where
  cmd := [["ls"], ["f"]]
  cmdReserve := "ls > f"
  crossNum := crossNum
  redir := true
  userInId := 0
  userOutId := userOutId

/-- The line `ls | cat > f` with further directives. -/
def pipingToFile
    (crossNum : Int)
    (userOutId : Nat) : Command where
  cmd := [["ls"], ["cat"], ["f"]]
  cmdReserve := "ls | cat > f"
  crossNum := crossNum
  redir := true
  userInId := 0
  userOutId := userOutId

theorem sameDirectives_filing
    (crossNum : Int)
    (userOutId : Nat) :
    SameDirectives (filing crossNum userOutId)
      (pipingToFile crossNum userOutId) :=
  ⟨rfl, rfl, rfl, rfl, fun _ => rfl⟩

theorem loginPath_steps
    (input : Input) :
    (lastState initial loginPath).Steps (.input 4 input fillingOutside)
      (((lastState initial loginPath).enter 4).runShell input
        fillingOutside) :=
  Moves.steps (.input (by decide +kernel))

/-- The lines `ls > f >2` and `ls | cat > f >2` of the only client. -/
theorem resolved_alike_missing :
    ∃ oneNext manyNext,
      (lastState initial loginPath).Steps
          (.input 4 (.single (filing 0 2)) fillingOutside) oneNext ∧
        (lastState initial loginPath).Steps
          (.input 4 (.pipeline (pipingToFile 0 2) (by decide)) fillingOutside)
          manyNext ∧
        ResolvedAlike (lastState initial loginPath) fillingOutside
          fillingOutside 2 oneNext manyNext := by
  have oneStep := loginPath_steps (.single (filing 0 2))
  have manyStep := loginPath_steps (.pipeline (pipingToFile 0 2) (by decide))
  refine ⟨_, _, oneStep, manyStep, ?_⟩
  refine
    (resolved_alike_iff path_loginPath ⟨id, trivial⟩
      (sameDirectives_filing 0 2) (by decide) (fun _ => rfl) (fun _ => rfl)
      oneStep manyStep).mpr ⟨?_, ?_, ?_⟩
  · decide +kernel
  · rintro ⟨-, -, -, -, given, -⟩
    exact given rfl
  · rintro ⟨inserts, -⟩
    exact inserts.1 rfl

/-- Next to `|3`, the pipeline `ls | cat > f` leaves the file open. -/
theorem piping_keeps_file :
    ∃ oneNext manyNext,
      Path Steps initial loginPath ∧
        EveryStep (fun server event => ¬ server.SelfPipesAt event) initial
          loginPath ∧
        SameDirectives (filing 3 0) (pipingToFile 3 0) ∧
        (lastState initial loginPath).Steps
          (.input 4 (.single (filing 3 0)) fillingOutside) oneNext ∧
        (lastState initial loginPath).Steps
          (.input 4 (.pipeline (pipingToFile 3 0) (by decide)) fillingOutside)
          manyNext ∧
        ¬ ResolvedAlike (lastState initial loginPath) fillingOutside
          fillingOutside 2 oneNext manyNext := by
  have oneStep := loginPath_steps (.single (filing 3 0))
  have manyStep := loginPath_steps (.pipeline (pipingToFile 3 0) (by decide))
  refine
    ⟨_, _, path_loginPath, ⟨id, trivial⟩, sameDirectives_filing 3 0, oneStep,
      manyStep, ?_⟩
  intro alike
  have settled := settled_run path_loginPath ⟨id, trivial⟩
  have condition :=
    (settled.steps_resolvedAlike_iff (sameDirectives_filing 3 0) (by decide)
      (fun _ => rfl) (fun _ => rfl) oneStep manyStep).mp alike
  exact condition.1 ⟨rfl, Or.inl (by decide)⟩

end Server

end NpServers.Shell
