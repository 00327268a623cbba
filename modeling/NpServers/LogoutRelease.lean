import NpServers.ExpiredPipes

namespace NpServers.Shell

open CrossPipe DescriptorTable TransitionPath

/-!
# The numbered pipes of a client that leaves

`delete_client_infor` closes the pipes that `close_fd_record` lists.  The record
is built by the countdown of a line and freed at the end of most lines.  A
client that leaves with `exit` has just counted down.  One that leaves with
byte 4 has not: the record is current only if its last line was `tell` or
`yell`, which return before the record is freed and add no pipe.
-/

namespace Server

/-! ## What a logout closes -/

/-- The descriptors that are closed when a client leaves, in this order. -/
def logoutCloses
    (server : Server)
    (fd : Int) : List Int :=
  fd :: server.leavingPorts.map (Port.fd server.client)

/--
In the state in which `delete_client_infor` runs, the record was not freed, or
is not used; it lists the waiting pipes; and each of their ends is open, is
closed by one call of `close`, and is not open afterwards.
-/
structure LogoutReleases
    (server : Server)
    (fd : Int) : Prop where
  intact : server.dangling = false
  record : server.infor.closeFdRecord = server.infor.pendingSlots
  closedOnce :
    ∀ {slot pipeEnd},
      server.infor.Pending slot →
      pipeEnd ∈
          [(server.infor.list slot).writeFd, (server.infor.list slot).readFd] →
        (∃ file pipe,
            server.fds.file pipeEnd = some file ∧ file.pipe? = some pipe) ∧
          (server.logoutCloses fd).count pipeEnd = 1 ∧
          (server.logout fd).fds.file pipeEnd = none

variable {server next : Server}

theorem logout_fds
    (server : Server)
    (fd : Int) :
    (server.logout fd).fds = server.fds.closeAll (server.logoutCloses fd) := by
  change server.deleteFds (server.fds.close fd) = _
  rw [deleteFds_eq]
  rfl

/-- The places of the blocks that the record lists. -/
def recordPorts (server : Server) : List Port :=
  server.infor.closeFdRecord.flatMap fun slot =>
    [.writeFd server.client.id slot, .readFd server.client.id slot]

theorem recordPorts_nodup
    (record : server.infor.closeFdRecord = server.infor.pendingSlots) :
    server.recordPorts.Nodup := by
  unfold recordPorts
  rw [record, List.nodup_flatMap]
  refine ⟨fun _ _ => by simp, (pendingSlots_nodup _).imp ?_⟩
  intro first second different port inFirst inSecond
  rcases List.mem_pair.mp inFirst with rfl | rfl
  · simp [different] at inSecond
  · simp [different] at inSecond

/-- The places of a recorded block are recorded. -/
theorem Settled.recorded_of_recordPorts
    (settled : server.Settled)
    (state : (server.client.list server.client.id).state = true)
    {port : Port}
    (listed : port ∈ server.recordPorts) :
    server.client.Recorded port :=
  settled.recorded_of_leaving state (List.mem_append_left _ listed)

/-- A recorded block is closed by one call for each of its ends. -/
theorem Settled.count_logoutCloses
    (settled : server.Settled)
    (state : (server.client.list server.client.id).state = true)
    (record : server.infor.closeFdRecord = server.infor.pendingSlots)
    {fd : Int}
    (isId : server.main.fdIdList fd = server.client.id)
    {port : Port}
    (listed : port ∈ server.recordPorts) :
    (server.logoutCloses fd).count (port.fd server.client) = 1 := by
  have recorded := settled.recorded_of_recordPorts state listed
  obtain ⟨file, pipe, isOpen, isPipe⟩ :=
    settled.wired.file_of_held id recorded
  have notSocket : fd ≠ port.fd server.client := by
    have inUse : 0 ≤ server.main.fdIdList fd := by
      rw [isId]
      exact Int.natCast_nonneg _
    obtain ⟨socket, isSocket⟩ := settled.sockets.isOpen inUse
    intro same
    rw [same] at isSocket
    cases isOpen.symm.trans isSocket
    cases isPipe
  have once : (server.recordPorts.map (Port.fd server.client)).count
      (port.fd server.client) = 1 := by
    refine List.count_eq_one_of_mem ?_ (List.mem_map_of_mem listed)
    refine List.Nodup.map_on ?_ (recordPorts_nodup record)
    intro first firstListed second secondListed sameFd
    exact
      settled.wired.distinct
        (settled.recorded_of_recordPorts state firstListed)
        (settled.recorded_of_recordPorts state secondListed) sameFd
  unfold logoutCloses leavingPorts
  rw [List.count_cons_of_ne notSocket, List.map_append, List.count_append]
  change (server.recordPorts.map (Port.fd server.client)).count _ + _ = 1
  rw [once, Nat.add_eq_left, List.count_eq_zero]
  intro inRows
  obtain ⟨other, otherListed, sameFd⟩ := List.mem_map.mp inRows
  have otherRecorded :=
    settled.recorded_of_leaving state
      (List.mem_append_right _ otherListed)
  have same : other = port :=
    settled.wired.distinct otherRecorded recorded sameFd
  -- the rows are `user_pipe` entries, the record lists blocks
  obtain ⟨slot, -, isBlock⟩ := List.mem_flatMap.mp listed
  obtain ⟨i, -, isEntry⟩ := List.mem_flatMap.mp otherListed
  rw [same] at isEntry
  rcases List.mem_pair.mp isBlock with rfl | rfl
  · rcases List.mem_append.mp isEntry with inOwn | inOther
    · simp at inOwn
    · simp at inOther
  · rcases List.mem_append.mp isEntry with inOwn | inOther
    · simp at inOwn
    · simp at inOther

/-- With a current record, everything that waits is closed. -/
theorem Settled.logoutReleases
    (settled : server.Settled)
    (state : (server.client.list server.client.id).state = true)
    {fd : Int}
    (isId : server.main.fdIdList fd = server.client.id)
    (intact : server.dangling = false)
    (record : server.infor.closeFdRecord = server.infor.pendingSlots) :
    server.LogoutReleases fd where
  intact := intact
  record := record
  closedOnce := by
    intro slot pipeEnd pending isEnd
    have isSlot : slot ∈ server.infor.closeFdRecord := by
      rw [record]
      exact mem_pendingSlots.mpr pending
    obtain ⟨port, listed, rfl⟩ :
        ∃ port ∈ server.recordPorts, port.fd server.client = pipeEnd := by
      rcases List.mem_pair.mp isEnd with rfl | rfl
      · exact
          ⟨.writeFd server.client.id slot,
            List.mem_flatMap.mpr ⟨slot, isSlot, by simp⟩, rfl⟩
      · exact
          ⟨.readFd server.client.id slot,
            List.mem_flatMap.mpr ⟨slot, isSlot, by simp⟩, rfl⟩
    refine ⟨?_, settled.count_logoutCloses state record isId listed, ?_⟩
    · exact
        settled.wired.file_of_held id
          (settled.recorded_of_recordPorts state listed)
    · rw [logout_fds, closeAll_file, if_pos]
      exact
        List.mem_cons_of_mem _
          (List.mem_map_of_mem (List.mem_append_left _ listed))

/-! ## The last line of a client -/

/-- Whether the last line with a countdown was `tell` or `yell`, by client. -/
def talkedAfter
    (server : Server)
    (talked : Nat → Bool) :
    ServerEvent → Nat → Bool
  | .login => Function.update talked server.main.minId false
  | .input _ .blank _ => talked
  | .input fd .talk _ =>
      Function.update talked (server.enter fd).client.id true
  | .input fd _ _ | .exit fd | .endOfFile fd =>
      Function.update talked (server.enter fd).client.id false
  | .childExits _ => talked

/-- The same at the end of a run. -/
def talkedLast :
    Server → (Nat → Bool) → List (ServerEvent × Server) → Nat → Bool
  | _, talked, [] => talked
  | server, talked, (event, next) :: rest =>
      talkedLast next (server.talkedAfter talked event) rest

/-- The record is current after `tell` or `yell`, and was freed otherwise. -/
structure RecordState
    (server : Server)
    (talked : Nat → Bool) : Prop where
  current :
    ∀ {c},
      talked c = true →
        (server.client.list c).cpInfor.recordFreed = false ∧
          (server.client.list c).cpInfor.closeFdRecord =
            (server.client.list c).cpInfor.pendingSlots
  freed :
    ∀ {c},
      talked c = false →
      (server.client.list c).cpInfor.closeFdRecord ≠ [] →
        (server.client.list c).cpInfor.recordFreed = true

/-- Only the slot of one client changes. -/
theorem RecordState.update
    {talked : Nat → Bool}
    (recordState : server.RecordState talked)
    {id : Nat}
    {flag : Bool}
    (others :
      ∀ {c},
        c ≠ id →
        (next.client.list c).cpInfor = (server.client.list c).cpInfor)
    (current :
      flag = true →
        (next.client.list id).cpInfor.recordFreed = false ∧
          (next.client.list id).cpInfor.closeFdRecord =
            (next.client.list id).cpInfor.pendingSlots)
    (freed :
      flag = false →
      (next.client.list id).cpInfor.closeFdRecord ≠ [] →
        (next.client.list id).cpInfor.recordFreed = true) :
    next.RecordState (Function.update talked id flag) where
  current := by
    intro c isTalk
    by_cases own : c = id
    · subst own
      rw [Function.update_self] at isTalk
      exact current isTalk
    · rw [Function.update_of_ne own] at isTalk
      rw [others own]
      exact recordState.current isTalk
  freed := by
    intro c notTalk
    by_cases own : c = id
    · subst own
      rw [Function.update_self] at notTalk
      exact freed notTalk
    · rw [Function.update_of_ne own] at notTalk
      rw [others own]
      exact recordState.freed notTalk

/-- A line leaves the numbered pipes of the other clients. -/
theorem dispatch_others
    (input : Input)
    (outside : Outside)
    (server : Server) :
    (server.dispatch input outside).client.id = server.client.id ∧
      ∀ {c},
        c ≠ server.client.id →
        ((server.dispatch input outside).client.list c).cpInfor =
          (server.client.list c).cpInfor := by
  have connected {line : Command} {after : Server}
      (connects : Connects line server after) :
      after.client.id = server.client.id ∧
        ∀ {c},
          c ≠ server.client.id →
          (after.client.list c).cpInfor = (server.client.list c).cpInfor := by
    obtain ⟨fd, cpInfor⟩ := connects.cpInfor
    refine ⟨connects.id, ?_⟩
    intro c other
    rw [cpInfor, if_neg other]
  cases input with
  | blank => exact ⟨rfl, fun _ => rfl⟩
  | talk => exact ⟨rfl, fun _ => rfl⟩
  | builtin => exact ⟨rfl, fun _ => rfl⟩
  | name name =>
      change (server.cmdName name).client.id = _ ∧ _
      refine ⟨?_, ?_⟩
      · unfold cmdName
        split_ifs <;> rfl
      · intro c other
        change ((server.cmdName name).client.list c).cpInfor = _
        unfold cmdName
        split_ifs
        · rfl
        · change (Function.update server.client.list _ _ c).cpInfor = _
          rw [Function.update_of_ne other]
  | single line => exact connected (connects_singleCmd line outside server)
  | pipeline line stages =>
      change (server.ordinaryPipe line outside line.cmdNum).client.id = _ ∧ _
      change _ ∧ ∀ {c}, _ →
        ((server.ordinaryPipe line outside line.cmdNum).client.list c).cpInfor =
          _
      unfold ordinaryPipe
      split_ifs
      · exact ⟨rfl, fun _ => rfl⟩
      · exact connected (connects_runPipeline line outside stages server)

theorem countDown_others
    (server : Server)
    {c : Nat}
    (other : c ≠ server.client.id) :
    (server.countDown.client.list c).cpInfor =
      (server.client.list c).cpInfor := by
  change ((server.client.setInfor _).list c).cpInfor = _
  rw [ClientStructure.setInfor_cpInfor, if_neg other]

theorem countDown_recordFreed
    (server : Server) :
    (server.countDown.client.list server.client.id).cpInfor.recordFreed =
      false := by
  change ((server.client.setInfor _).list _).cpInfor.recordFreed = false
  rw [ClientStructure.setInfor_cpInfor, if_pos rfl, countDownAndCheck_eq]

/-- The end of a line frees a record that lists something. -/
theorem freeRecord_slot
    (server : Server) :
    (∀ {c},
        c ≠ server.client.id →
        (server.freeRecord.client.list c).cpInfor =
          (server.client.list c).cpInfor) ∧
      ((server.freeRecord.client.list server.client.id).cpInfor.closeFdRecord ≠
          [] →
        (server.freeRecord.client.list server.client.id).cpInfor.recordFreed =
          true) := by
  unfold freeRecord
  split_ifs with some
  · refine ⟨?_, ?_⟩
    · intro c other
      change ((server.client.setInfor _).list c).cpInfor = _
      rw [ClientStructure.setInfor_cpInfor, if_neg other]
    · intro _
      change ((server.client.setInfor _).list _).cpInfor.recordFreed = true
      rw [ClientStructure.setInfor_cpInfor, if_pos rfl]
  · refine ⟨fun _ => rfl, fun listed => absurd ?_ some⟩
    intro none
    exact listed (List.eq_nil_of_length_eq_zero none)

/-- The countdown builds a current record. -/
theorem RecordState.countDown
    {talked : Nat → Bool}
    (recordState : server.RecordState talked) :
    server.countDown.RecordState
      (Function.update talked server.client.id true) := by
  refine recordState.update ?_ ?_ fun talk => by cases talk
  · intro c other
    exact countDown_others server other
  · intro _
    exact ⟨countDown_recordFreed server, countDown_record server⟩

/-- A line that is neither blank nor `tell` or `yell` frees its record. -/
theorem RecordState.line
    {talked : Nat → Bool}
    (recordState : server.RecordState talked)
    (input : Input)
    (outside : Outside) :
    ((server.countDown.dispatch input outside).freeRecord).RecordState
      (Function.update talked server.client.id false) := by
  obtain ⟨sameId, sameOthers⟩ := dispatch_others input outside server.countDown
  obtain ⟨freedOthers, freed⟩ :=
    freeRecord_slot (server.countDown.dispatch input outside)
  rw [sameId] at freedOthers freed
  refine recordState.update ?_ (fun talk => by cases talk) fun _ => freed
  intro c other
  rw [freedOthers other, sameOthers other]
  exact countDown_others server other

theorem RecordState.logout
    {talked : Nat → Bool}
    (recordState : server.RecordState talked)
    {fd : Int}
    (isId : (server.main.fdIdList fd).toNat = server.client.id) :
    (server.logout fd).RecordState
      (Function.update talked server.client.id false) := by
  have left : (server.logout fd).client.list server.client.id = .vacant := by
    rw [logout_list isId, deleteClientInfor]
    exact if_pos rfl
  refine recordState.update ?_ (fun talk => by cases talk) fun _ listed => ?_
  · intro c other
    rw [logout_list isId, deleteClientInfor]
    dsimp only
    rw [if_neg other]
    split_ifs <;> rfl
  · rw [left] at listed
    exact absurd rfl listed

theorem RecordState.step
    {talked : Nat → Bool}
    (recordState : server.RecordState talked)
    {event : ServerEvent}
    (stepped : server.Steps event next) :
    next.RecordState (server.talkedAfter talked event) := by
  have entered (fd : Int) : (server.enter fd).RecordState talked :=
    ⟨recordState.current, recordState.freed⟩
  cases stepped.moves with
  | login =>
      refine recordState.update ?_ (fun talk => by cases talk) ?_
      · intro c other
        rw [login_list, if_neg other]
      · intro _ listed
        rw [login_list, if_pos rfl] at listed
        exact absurd rfl listed
  | @input fd input outside connected =>
      cases input with
      | blank => exact entered fd
      | talk => exact (entered fd).countDown
      | builtin => exact (entered fd).line .builtin outside
      | name name => exact (entered fd).line (.name name) outside
      | single line => exact (entered fd).line (.single line) outside
      | pipeline line stages =>
          exact (entered fd).line (.pipeline line stages) outside
  | @exit fd connected =>
      have isId :
          ((server.enter fd).countDown.main.fdIdList fd).toNat =
            (server.enter fd).countDown.client.id :=
        rfl
      have left := (entered fd).countDown.logout isId
      change RecordState _
        (Function.update (Function.update talked (server.enter fd).client.id _)
          (server.enter fd).client.id false) at left
      rwa [Function.update_idem] at left
  | @endOfFile fd connected _ => exact (entered fd).logout rfl
  | childExits index =>
      exact ⟨recordState.current, recordState.freed⟩

theorem RecordState.run
    {talked : Nat → Bool}
    (recordState : server.RecordState talked)
    {path : List (ServerEvent × Server)}
    (isPath : Path Steps server path) :
    (lastState server path).RecordState (talkedLast server talked path) := by
  induction path generalizing server talked with
  | nil => exact recordState
  | cons entry rest inductionHypothesis =>
      obtain ⟨event, next⟩ := entry
      exact inductionHypothesis (recordState.step isPath.1) isPath.2

/-- Nobody has sent a line at first. -/
theorem recordState_initial :
    initial.RecordState fun _ => false where
  current := by
    intro c talk
    cases talk
  freed := by
    intro c _ listed
    exact absurd rfl listed

/-! ## Leaving -/

end Server

/-- How a client leaves: with the line `exit`, or with byte 4. -/
inductive Leaving where
  | exit
  | endOfFile
  deriving Repr, DecidableEq

namespace Server

variable {server next : Server}

/-- The state in which `delete_client_infor` runs. -/
def leavingState
    (server : Server)
    (fd : Int) :
    Leaving → Server
  | .exit => (server.enter fd).countDown
  | .endOfFile => server.enter fd

/-- With byte 4, everything that waits is released exactly when the record is
current, or when nothing waits. -/
theorem Settled.endOfFile_releases_iff
    (settled : server.Settled)
    (state : (server.client.list server.client.id).state = true)
    {fd : Int}
    (isId : server.main.fdIdList fd = server.client.id)
    {talked : Nat → Bool}
    (recordState : server.RecordState talked) :
    server.LogoutReleases fd ↔
      talked server.client.id = true ∨ server.infor.pendingSlots = [] := by
  constructor
  · intro releases
    by_contra neither
    rw [not_or, Bool.not_eq_true] at neither
    obtain ⟨notTalk, waiting⟩ := neither
    have listed : server.infor.closeFdRecord ≠ [] := by
      rw [releases.record]
      exact waiting
    have freed : server.infor.recordFreed = true :=
      recordState.freed notTalk listed
    have used : server.infor.dataNum ≠ 0 :=
      fun none => listed (List.eq_nil_of_length_eq_zero none)
    have intact := releases.intact
    simp [dangling, used, freed] at intact
  · rintro (talk | none)
    · obtain ⟨intact, record⟩ := recordState.current talk
      have notFreed : server.infor.recordFreed = false := intact
      refine settled.logoutReleases state isId ?_ record
      simp [dangling, notFreed]
    · have empty : server.infor.closeFdRecord = [] := by
        rw [List.eq_nil_iff_forall_not_mem]
        intro slot listed
        have pending : server.infor.Pending slot := settled.record listed
        rw [← mem_pendingSlots, none] at pending
        cases pending
      refine settled.logoutReleases state isId ?_ (empty.trans none.symm)
      simp [dangling, dataNum, empty]

/-- With `exit`, everything that waits is released. -/
theorem Settled.exit_releases
    (settled : server.Settled)
    (state : (server.client.list server.client.id).state = true)
    {fd : Int}
    (isId : server.main.fdIdList fd = server.client.id) :
    server.countDown.LogoutReleases fd := by
  have stillState :
      (server.countDown.client.list server.countDown.client.id).state =
        true :=
    (ClientStructure.setInfor_state ..).trans state
  have notFreed : server.countDown.infor.recordFreed = false :=
    countDown_recordFreed server
  refine
    (settled.countDown state).logoutReleases stillState isId ?_
      (countDown_record server)
  simp [dangling, notFreed]

/-- A client that leaves has its numbered pipes released if it leaves with
`exit`, if its last line was `tell` or `yell`, or if no pipe of it waits; and
only then. -/
theorem logoutReleases_iff
    {path : List (ServerEvent × Server)}
    (isPath : Path Steps initial path)
    (notSelf :
      EveryStep (fun server event => ¬ server.SelfPipesAt event) initial path)
    {fd : Int}
    (connected : (lastState initial path).connected fd = true)
    (leaving : Leaving) :
    ((lastState initial path).leavingState fd leaving).LogoutReleases fd ↔
      leaving = .exit ∨
        talkedLast initial (fun _ => false) path
            ((lastState initial path).enter fd).client.id = true ∨
        ((lastState initial path).enter fd).infor.pendingSlots = [] := by
  have settled := (settled_run isPath notSelf).enter fd
  have recordState := recordState_initial.run isPath
  obtain ⟨state, isId⟩ := enter_of_connected connected
  cases leaving with
  | exit => exact iff_of_true (settled.exit_releases state isId) (.inl rfl)
  | endOfFile =>
      have entered :
          ((lastState initial path).enter fd).RecordState
            (talkedLast initial (fun _ => false) path) :=
        ⟨recordState.current, recordState.freed⟩
      refine (settled.endOfFile_releases_iff state isId entered).trans ?_
      rw [or_iff_right (by decide : ¬ Leaving.endOfFile = Leaving.exit)]

/-- The line `ls |5`. -/
def waitingCommand : Command :=
  { pipingCommand with cmdReserve := "ls |5", crossNum := 5 }

/-- The run in which the first client has sent `ls |5`. -/
def waitingPath : List (ServerEvent × Server) :=
  [(.login, initial.login),
    (.input 4 (.single waitingCommand) fillingOutside,
      (initial.login.enter 4).runShell (.single waitingCommand)
        fillingOutside)]

theorem path_waitingPath : Path Steps initial waitingPath :=
  ⟨Moves.steps (.login (by decide)), Moves.steps (.input rfl), trivial⟩

theorem waitingPath_notSelf :
    EveryStep (fun server event => ¬ server.SelfPipesAt event) initial
      waitingPath :=
  ⟨id, fun selfPiped => absurd selfPiped.1 (by decide), trivial⟩

theorem waitingPath_connected :
    (lastState initial waitingPath).connected 4 = true := by
  decide +kernel

/-- After `ls |5`, the line `exit` releases the pipe. -/
theorem logoutReleases_exit :
    (((lastState initial waitingPath).enter 4).countDown).infor.Pending 0 ∧
      (((lastState initial waitingPath).enter 4).countDown).LogoutReleases 4 :=
  ⟨by decide +kernel,
    (logoutReleases_iff path_waitingPath waitingPath_notSelf
      waitingPath_connected .exit).mpr (.inl rfl)⟩

/-- After `ls |5`, byte 4 leaves both ends of the pipe open. -/
theorem endOfFile_keeps_pipe :
    ∃ next,
      Path Steps initial waitingPath ∧
        EveryStep (fun server event => ¬ server.SelfPipesAt event) initial
          waitingPath ∧
        (lastState initial waitingPath).Steps (.endOfFile 4) next ∧
        ((lastState initial waitingPath).enter 4).infor.Pending 0 ∧
        next.fds.file
            (((lastState initial waitingPath).enter 4).infor.list 0).readFd =
          some (.readEnd 0) ∧
        ¬ ((lastState initial waitingPath).enter 4).LogoutReleases 4 := by
  have stepped :
      (lastState initial waitingPath).Steps (.endOfFile 4)
        (((lastState initial waitingPath).enter 4).logout 4) :=
    Moves.steps (.endOfFile waitingPath_connected (by decide +kernel))
  have pending :
      ((lastState initial waitingPath).enter 4).infor.Pending 0 := by
    decide +kernel
  refine
    ⟨_, path_waitingPath, waitingPath_notSelf, stepped, pending,
      by decide +kernel, ?_⟩
  intro releases
  have listed := mem_pendingSlots.mpr pending
  rw [← releases.record] at listed
  revert listed
  decide +kernel

end Server

end NpServers.Shell
